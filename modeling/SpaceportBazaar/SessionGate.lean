import SpaceportBazaar.SessionStop

namespace SpaceportBazaar

/-- The tick a rate-limited command is told to wait for. -/
def CommandResult.limitedUntil (r : CommandResult) : Option Nat :=
  if r.code = .rateLimited then r.retryAfterTick else none

namespace BazaarSession

variable {bodyFingerprint : List UInt8 → String} {s t : BazaarSession}
  {hist pre post : List (Event × List SessionOutput)} {l : Event × List SessionOutput} {tick : Nat}
  {snapshot : Snapshot}

section History

def receivedIn (l : Event × List SessionOutput) : Option Snapshot :=
  match l.1 with
  | .item (.message (.state snapshot)) => some snapshot
  | _ => none

def received (hist : List (Event × List SessionOutput)) : List Snapshot := hist.filterMap receivedIn

def outputs (hist : List (Event × List SessionOutput)) : List SessionOutput := hist.flatMap Prod.snd

def isChargeAt (tick : Nat) : SessionOutput → Bool
  | .charged _ chargedTick => chargedTick = tick
  | _ => false

/-- How many commands were charged to a tick. -/
def charges (hist : List (Event × List SessionOutput)) (tick : Nat) : Nat :=
  (outputs hist).countP (isChargeAt tick)

def largestLimit (hist : List (Event × List SessionOutput)) : Nat :=
  ((received hist).map (fun snapshot => snapshot.rules.newCommandsPerStationPerTick)).foldr max 0

/-- The event takes trading away for the rest of the connection. -/
def Ends (l : Event × List SessionOutput) : Prop :=
  match l.1 with
  | .item .closedSentinel => True
  | .item (.message (.protocolError event)) => event.code ∈ fatalControlCodes ∨
    event.closeSession = true
  | _ => False

/-- The first state of the connection, for which readiness was declared. -/
def Declared (hist : List (Event × List SessionOutput)) (runId : String)
    (snapshotSequence : Nat) : Prop :=
  ((received hist).find? (fun q => 0 < q.snapshotSequence)).map
    (fun q => (q.runId, q.snapshotSequence)) =
      some (runId, snapshotSequence) ∧
    SessionOutput.ready runId snapshotSequence ∈ outputs hist

def Acknowledged (hist : List (Event × List SessionOutput)) : Prop :=
  ∃ pre outs post runId snapshotSequence,
    hist = pre ++ (.item (.message (.readiness ⟨runId, true, snapshotSequence⟩)), outs) :: post ∧
      Declared pre runId snapshotSequence ∧ ∀ l ∈ post, ¬ Ends l

/-- The event tells the client to hold back until a tick: a result message does, and
a state newer than all before it. -/
def Tells (hist : List (Event × List SessionOutput)) (l : Event × List SessionOutput)
    (tick : Nat) : Prop :=
  match l.1 with
  | .item (.message (.result result)) => result.limitedUntil = some tick
  | .item (.message (.state snapshot)) =>
    (∀ q ∈ received hist, q.snapshotSequence < snapshot.snapshotSequence) ∧
      ∃ result ∈ snapshot.requestResults, result.limitedUntil = some tick
  | _ => False

def Told (hist : List (Event × List SessionOutput)) (tick : Nat) : Prop :=
  ∃ pre l post, hist = pre ++ l :: post ∧ Tells pre l tick

theorem snoc_split {α : Type*} {xs pre post : List α} {x y : α} (h : xs ++ [x] = pre ++ y :: post) :
    (xs = pre ∧ x = y ∧ post = []) ∨ ∃ rest, post = rest ++ [x] ∧ xs = pre ++ y :: rest := by
  rcases List.eq_nil_or_concat post with rfl | ⟨rest, z, rfl⟩
  · obtain ⟨hpre, hlast⟩ := List.append_inj' h rfl
    exact Or.inl ⟨hpre, (List.cons.inj hlast).1, rfl⟩
  · have h' : xs ++ [x] = (pre ++ y :: rest) ++ [z] := by simpa using h
    obtain ⟨hpre, hlast⟩ := List.append_inj' h' rfl
    have hx : x = z := (List.cons.inj hlast).1
    exact Or.inr ⟨rest, by simp [hx], hpre⟩

theorem received_snoc (hist : List (Event × List SessionOutput)) (l : Event × List SessionOutput) :
    received (hist ++ [l]) = received hist ++ (receivedIn l).toList := by
  cases h : receivedIn l <;> simp [received, h]

theorem outputs_snoc (hist : List (Event × List SessionOutput)) (l : Event × List SessionOutput) :
    outputs (hist ++ [l]) = outputs hist ++ l.2 := by simp [outputs]

theorem charges_snoc (hist : List (Event × List SessionOutput)) (l : Event × List SessionOutput)
    (tick : Nat) :
    charges (hist ++ [l]) tick = charges hist tick + l.2.countP (isChargeAt tick) := by
  simp [charges, outputs_snoc]

theorem foldr_max_le {xs ys : List Nat} (h : ∀ x ∈ xs, x ∈ ys) :
    xs.foldr max 0 ≤ ys.foldr max 0 := by
  have hmem : ∀ {ys : List Nat} {x}, x ∈ ys → x ≤ ys.foldr max 0 := by
    intro ys x hx
    induction ys with
    | nil => simp at hx
    | cons y ys ih =>
      simp only [List.foldr_cons]
      rcases List.mem_cons.mp hx with rfl | hx
      · exact Nat.le_max_left _ _
      · exact (ih hx).trans (Nat.le_max_right _ _)
  induction xs with
  | nil => simp
  | cons x xs ih =>
    simp only [List.foldr_cons]
    exact Nat.max_le.mpr ⟨hmem (h x (by simp)), ih (fun y hy => h y (List.mem_cons_of_mem _ hy))⟩

theorem le_largestLimit (h : snapshot ∈ received hist) :
    snapshot.rules.newCommandsPerStationPerTick ≤ largestLimit hist := by
  have hsub : ∀ x ∈ [snapshot.rules.newCommandsPerStationPerTick],
      x ∈ (received hist).map (fun snapshot => snapshot.rules.newCommandsPerStationPerTick) := by
    intro x hx
    rw [List.mem_singleton.mp hx]
    exact List.mem_map_of_mem h
  simpa [largestLimit] using foldr_max_le hsub

theorem largestLimit_mono (hist : List (Event × List SessionOutput))
    (l : Event × List SessionOutput) :
    largestLimit hist ≤ largestLimit (hist ++ [l]) := by
  apply foldr_max_le
  intro x hx
  rw [received_snoc, List.map_append]
  exact List.mem_append_left _ hx

theorem told_snoc (h : Told (hist ++ [l]) tick) : Told hist tick ∨ Tells hist l tick := by
  obtain ⟨pre, y, post, heq, htells⟩ := h
  rcases snoc_split heq with ⟨rfl, rfl, _⟩ | ⟨rest, _, hhist⟩
  · exact Or.inr htells
  · exact Or.inl ⟨pre, y, rest, hhist, htells⟩

theorem Acknowledged.snoc (h : Acknowledged hist) (hl : ¬ Ends l) : Acknowledged (hist ++ [l]) := by
  obtain ⟨pre, outs, post, runId, snapshotSequence, rfl, hdeclared, hpost⟩ := h
  refine ⟨pre, outs, post ++ [l], runId, snapshotSequence, by simp, hdeclared, ?_⟩
  intro x hx
  rcases List.mem_append.mp hx with hx | hx
  · exact hpost x hx
  · rwa [List.mem_singleton.mp hx]

theorem Declared.snoc {runId : String} {snapshotSequence : Nat}
    (h : Declared hist runId snapshotSequence) :
    Declared (hist ++ [l]) runId snapshotSequence := by
  obtain ⟨hfirst, hready⟩ := h
  refine ⟨?_, by rw [outputs_snoc]; exact List.mem_append_left _ hready⟩
  rw [received_snoc, List.find?_append]
  obtain ⟨q, hq, hqe⟩ := Option.map_eq_some_iff.mp hfirst
  rw [hq]
  simp [hqe]

/-- The first numbered state is the one that readiness is declared for. -/
theorem declared_first {outs : List SessionOutput}
    (hfirst : ∀ q ∈ received hist, q.snapshotSequence = 0) (hpos : 0 < snapshot.snapshotSequence)
    (hready : SessionOutput.ready snapshot.runId snapshot.snapshotSequence ∈ outs) :
    Declared (hist ++ [(.item (.message (.state snapshot)), outs)]) snapshot.runId
      snapshot.snapshotSequence := by
  refine ⟨?_, by rw [outputs_snoc]; exact List.mem_append_right _ hready⟩
  rw [received_snoc, List.find?_append]
  have hnone : (received hist).find? (fun q => decide (0 < q.snapshotSequence)) = none := by
    refine List.find?_eq_none.mpr ?_
    intro q hq
    simp [hfirst q hq]
  simp [hnone, receivedIn, hpos]

end History

section Throttling

theorem honour_frame (throttle : CommandThrottle) (result : CommandResult) :
    (honour throttle result).limit = throttle.limit ∧
      (honour throttle result).tick = throttle.tick ∧
      (honour throttle result).sent = throttle.sent ∧
      throttle.blockedUntilTick ≤ (honour throttle result).blockedUntilTick ∧
      ∀ tick, result.limitedUntil = some tick →
      tick ≤ (honour throttle result).blockedUntilTick := by
  unfold honour CommandResult.limitedUntil
  by_cases h : result.code = .rateLimited
  · simp only [h, if_true]
    cases hr : result.retryAfterTick with
    | none => exact ⟨rfl, rfl, rfl, Nat.le_refl _, by simp⟩
    | some until_ =>
      refine ⟨rfl, rfl, rfl, Nat.le_max_left _ _, ?_⟩
      intro tick htick
      cases Option.some.inj htick
      exact Nat.le_max_right _ _
  · simp [h]

theorem honours_frame (results : List CommandResult) (throttle : CommandThrottle) :
    (results.foldl honour throttle).limit = throttle.limit ∧
      (results.foldl honour throttle).tick = throttle.tick ∧
      (results.foldl honour throttle).sent = throttle.sent ∧
      throttle.blockedUntilTick ≤ (results.foldl honour throttle).blockedUntilTick ∧
      ∀ result ∈ results, ∀ tick, result.limitedUntil = some tick →
        tick ≤ (results.foldl honour throttle).blockedUntilTick := by
  induction results generalizing throttle with
  | nil => exact ⟨rfl, rfl, rfl, Nat.le_refl _, by simp⟩
  | cons result results ih =>
    obtain ⟨hl, ht, hs, hb, hr⟩ := honour_frame throttle result
    obtain ⟨hl', ht', hs', hb', hr'⟩ := ih (honour throttle result)
    refine ⟨hl'.trans hl, ht'.trans ht, hs'.trans hs, hb.trans hb', ?_⟩
    intro r hmem tick htick
    rcases List.mem_cons.mp hmem with rfl | hmem
    · exact (hr tick htick).trans hb'
    · exact hr' r hmem tick htick

end Throttling

section Invariant

/-- How far the connection has come, in the history's terms. -/
def Standing (hist : List (Event × List SessionOutput)) (l : SessionLifecycle) : Prop :=
  match l.state with
  | .awaitingFirstState => ∀ q ∈ received hist, q.snapshotSequence = 0
  | .awaitingReadiness =>
    ∃ runId snapshotSequence, l.runId = some runId ∧ l.readySequence = some snapshotSequence ∧
      Declared hist runId snapshotSequence
  | .active => Acknowledged hist
  | .disconnected => True
  | .closed => True

/-- The held snapshot is the newest one received, and the lifecycle follows it. -/
structure Newest (hist : List (Event × List SessionOutput)) (s : BazaarSession) : Prop where
  empty : s.latest = none → received hist = []
  newest : ∀ held, s.latest = some held → ∀ q ∈ received hist,
    q.snapshotSequence ≤ held.snapshotSequence
  sequence : s.lifecycle.lastSnapshotSequence = (s.latest.map Snapshot.snapshotSequence).getD 0
  phase : ∀ held, s.latest = some held → 0 < held.snapshotSequence →
    s.lifecycle.phase = some held.phase

/-- What was transmitted under a request id is what it is tracked for. -/
structure Tracked (bodyFingerprint : List UInt8 → String) (hist : List (Event × List SessionOutput))
    (s : BazaarSession) : Prop where
  charged : ∀ rid p, s.tracker.sent.get? rid = some p →
    ∃ payload tick, p.fingerprint = bodyFingerprint payload ∧
    ∃ l ∈ hist, SessionOutput.charged rid tick ∈ l.2 ∧ SessionOutput.transmitted rid payload ∈ l.2
  sent : ∀ rid payload, SessionOutput.transmitted rid payload ∈ outputs hist →
    ∃ p, s.tracker.sent.get? rid = some p ∧ p.fingerprint = bodyFingerprint payload

/-- The throttle counts every charge of its tick under the limit of the held state, and
never returns to an earlier tick. Unlike the rest this outlives the pump. -/
structure Counted (hist : List (Event × List SessionOutput)) (s : BazaarSession) : Prop where
  mem : ∀ held, s.latest = some held → held ∈ received hist
  limit : ∀ held, s.latest = some held → s.throttle.limit = held.rules.newCommandsPerStationPerTick
  bounded : ∀ tick, charges hist tick ≤ largestLimit hist
  current : ∀ tick, 0 < charges hist tick →
    tick < s.throttle.tick ∨ tick = s.throttle.tick ∧ charges hist tick ≤ s.throttle.sent
  past : ∀ tick, 0 < charges hist tick → ∃ held, s.latest = some held ∧ s.throttle.tick ≤ held.tick

structure Gated (bodyFingerprint : List UInt8 → String) (hist : List (Event × List SessionOutput))
    (s : BazaarSession) : Prop where
  standing : Standing hist s.lifecycle
  newest : Newest hist s
  tracked : Tracked bodyFingerprint hist s
  blocked : ∀ tick, Told hist tick → tick ≤ s.throttle.blockedUntilTick

/-- A state that replaces the held one does not go back in time. -/
def Ordered (s : BazaarSession) (ev : Event) : Prop :=
  ∀ snapshot held, ev = .item (.message (.state snapshot)) → s.latest = some held →
    held.snapshotSequence < snapshot.snapshotSequence → held.tick ≤ snapshot.tick

theorem Plain.quiet {ev : Event} (h : ev.Plain) (outs : List SessionOutput) :
    receivedIn (ev, outs) = none ∧ ¬ Ends (ev, outs) ∧ ∀ hist tick,
    ¬ Tells hist (ev, outs) tick := by
  cases ev with
  | item item =>
    cases h item rfl
    exact ⟨rfl, id, fun _ _ => id⟩
  | readySent | connectionClosed | remainingCommandBudget | waitForSnapshot | waitForReadiness
  | sendCommand | payloadSent | timeout | resume => exact ⟨rfl, id, fun _ _ => id⟩

theorem Standing.snoc {lifecycle : SessionLifecycle} (h : Standing hist lifecycle) (hl : ¬ Ends l)
    (hfirst :
      lifecycle.state = .awaitingFirstState → ∀ q ∈ (receivedIn l).toList, q.snapshotSequence = 0) :
    Standing (hist ++ [l]) lifecycle := by
  unfold Standing at h ⊢
  split at h
  next hs =>
    intro q hq
    rw [received_snoc] at hq
    rcases List.mem_append.mp hq with hq | hq
    · exact h q hq
    · exact hfirst hs q hq
  next =>
    obtain ⟨runId, snapshotSequence, hrun, hseq, hdeclared⟩ := h
    exact ⟨runId, snapshotSequence, hrun, hseq, hdeclared.snoc⟩
  next => exact Acknowledged.snoc h hl
  next => trivial
  next => trivial

theorem Standing.plain (h : Standing hist s.lifecycle) (ht : t.lifecycle = s.lifecycle)
    (hr : receivedIn l = none) (he : ¬ Ends l) : Standing (hist ++ [l]) t.lifecycle := by
  rw [ht]
  exact h.snoc he (by simp [hr])

/-- What brings no state keeps the held one and what the lifecycle has of it. -/
theorem Newest.same (h : Newest hist s)
    (hlast : t.lifecycle.lastSnapshotSequence = s.lifecycle.lastSnapshotSequence)
    (hphase : t.lifecycle.phase = s.lifecycle.phase) (hlatest : t.latest = s.latest)
    (hr : receivedIn l = none) : Newest (hist ++ [l]) t := by
  have hreceived : received (hist ++ [l]) = received hist := by simp [received_snoc, hr]
  constructor
  · simpa [hreceived, hlatest] using h.empty
  · simpa [hreceived, hlatest] using h.newest
  · simpa [hlast, hlatest] using h.sequence
  · simpa [hphase, hlatest] using h.phase

theorem Newest.plain (h : Newest hist s) (hl : t.lifecycle = s.lifecycle)
    (hlatest : t.latest = s.latest) (hr : receivedIn l = none) : Newest (hist ++ [l]) t :=
  h.same (by rw [hl]) (by rw [hl]) hlatest hr

theorem Tracked.quiet (h : Tracked bodyFingerprint hist s) (hsent : t.tracker.sent = s.tracker.sent)
    (hl : ∀ rid payload, SessionOutput.transmitted rid payload ∉ l.2) :
    Tracked bodyFingerprint (hist ++ [l]) t where
  charged rid p hp := by
    obtain ⟨payload, tick, hfp, x, hx, hcharge⟩ := h.charged rid p (by rwa [← hsent])
    exact ⟨payload, tick, hfp, x, List.mem_append_left _ hx, hcharge⟩
  sent rid payload hmem := by
    rw [outputs_snoc] at hmem
    rw [hsent]
    exact h.sent rid payload ((List.mem_append.mp hmem).resolve_right (hl rid payload))

theorem charges_quiet (hl : ∀ rid tick, SessionOutput.charged rid tick ∉ l.2) (tick : Nat) :
    charges (hist ++ [l]) tick = charges hist tick := by
  rw [charges_snoc]
  have hzero : l.2.countP (isChargeAt tick) = 0 := by
    refine List.countP_eq_zero.mpr ?_
    intro o ho hcharge
    cases o with
    | charged rid chargedTick => exact hl rid chargedTick ho
    | ready | transmitted | reply => simp [isChargeAt] at hcharge
  omega

theorem Standing.state
    {directive : Option Directive} {lifecycle : SessionLifecycle} {outs : List SessionOutput}
    (h : Standing hist s.lifecycle) (hn : Newest hist s) (hc : Counted hist s)
    (accepted : s.lifecycle.onEvent (.state snapshot) = .ok (directive, lifecycle))
    (declared : outs = readies directive) :
    Standing (hist ++ [(.item (.message (.state snapshot)), outs)]) lifecycle := by
  cases SessionLifecycle.onSnapshot_followed accepted with
  | old hold =>
    refine h.snoc id ?_
    intro hs q hq
    have hfirst : ∀ q ∈ received hist, q.snapshotSequence = 0 := by simpa [Standing, hs] using h
    have hlast : s.lifecycle.lastSnapshotSequence = 0 := by
      rw [hn.sequence]
      cases hl : s.latest with
      | none => rfl
      | some held => simpa using hfirst held (hc.mem held hl)
    have hqs : q = snapshot := by simpa [receivedIn, eq_comm] using hq
    rw [hqs]
    omega
  | first hlt hwaiting =>
    have hfirst :
      ∀ q ∈ received hist, q.snapshotSequence = 0 := by simpa [Standing, hwaiting] using h
    exact ⟨snapshot.runId, snapshot.snapshotSequence, rfl, rfl,
      declared_first hfirst (by omega) (by simp [declared, readies])⟩
  | later hlt hstarted hrun =>
    have hkeep :=
      h.snoc (l := (.item (.message (.state snapshot)), outs)) id (fun hs => absurd hs hstarted)
    unfold Standing at hkeep ⊢
    cases hs : s.lifecycle.state with
    | awaitingFirstState => exact absurd hs hstarted
    | awaitingReadiness =>
      simp only [hs] at hkeep ⊢
      obtain ⟨runId, snapshotSequence, hid, hseq, hdeclared⟩ := hkeep
      have hsame : some runId = some snapshot.runId := by
        rcases hrun with hrun | hrun
        · simp [hid] at hrun
        · rw [← hid, hrun]
      exact ⟨runId, snapshotSequence, hsame.symm, hseq, hdeclared⟩
    | active => simpa only [hs] using hkeep
    | disconnected => trivial
    | closed => trivial

/-- Only the acknowledgement of the state that was declared makes the connection active. -/
theorem Standing.readiness {ack : ReadinessAck} {directive : Option Directive}
    {lifecycle : SessionLifecycle} {outs : List SessionOutput} (h : Standing hist s.lifecycle)
    (accepted : s.lifecycle.onReadiness ack = (directive, lifecycle)) :
    Standing (hist ++ [(.item (.message (.readiness ack)), outs)]) lifecycle := by
  have hkeep := h.snoc (l := (.item (.message (.readiness ack)), outs)) id (by simp [receivedIn])
  unfold SessionLifecycle.onReadiness at accepted
  split at accepted
  next => cases accepted; exact hkeep
  next hs =>
    split at accepted
    next => cases accepted; exact hkeep
    next hrun =>
      split at accepted
      next => cases accepted; exact hkeep
      next hseq =>
        split at accepted
        next => cases accepted; exact hkeep
        next hready =>
          cases accepted
          simp only [ne_eq, not_not] at hs hrun hseq
          unfold Standing at h
          rw [hs] at h
          obtain ⟨runId, snapshotSequence, hid, hdeclaredSeq, hdeclared⟩ := h
          have hack : ack = ⟨runId, true, snapshotSequence⟩ := by
            obtain ⟨ackRun, ready, ackSequence⟩ := ack
            simp only [hid, hdeclaredSeq, Option.some.injEq, Bool.not_eq_true, Bool.not_eq_false']
              at hrun hseq hready
            simp [hrun, hseq, hready]
          subst hack
          exact ⟨hist, outs, [], runId, snapshotSequence, rfl, hdeclared, by simp⟩

theorem Standing.routed
    {event : ServerEvent} {directive : Option Directive} {lifecycle : SessionLifecycle}
    {outs : List SessionOutput} (h : Standing hist s.lifecycle) (hn : Newest hist s)
    (hc : Counted hist s) (accepted : s.lifecycle.onEvent event = .ok (directive, lifecycle))
    (declared : outs = readies directive) :
    Standing (hist ++ [(.item (.message event), outs)]) lifecycle := by
  cases event with
  | state snapshot => exact h.state hn hc accepted declared
  | readiness ack => exact h.readiness (Except.ok.inj accepted)
  | protocolError event =>
    have accepted : s.lifecycle.onProtocolError event = (directive, lifecycle) :=
      Except.ok.inj accepted
    unfold SessionLifecycle.onProtocolError at accepted
    split at accepted
    next => cases accepted; trivial
    next hfatal =>
      split at accepted
      next => cases accepted; trivial
      next hclose =>
        cases accepted
        refine h.snoc ?_ (by simp [receivedIn])
        intro hends
        exact hends.elim hfatal hclose
  | result result =>
    cases accepted
    exact h.snoc id (by simp [receivedIn])

theorem received_state (hist : List (Event × List SessionOutput)) (snapshot : Snapshot)
    (outs : List SessionOutput) :
    received (hist ++ [(.item (.message (.state snapshot)), outs)]) =
      received hist ++ [snapshot] := by
  simp [received_snoc, receivedIn]

/-- A state that is no newer than the held one changes nothing. -/
theorem Newest.stale {directive : Option Directive} {outs : List SessionOutput} (h : Newest hist s)
    (accepted : s.lifecycle.onEvent (.state snapshot) = .ok (directive, t.lifecycle))
    (stale : ¬ Newer s.latest snapshot) (hlatest : t.latest = s.latest) :
    Newest (hist ++ [(.item (.message (.state snapshot)), outs)]) t := by
  obtain ⟨held, hheld, hle⟩ : ∃ held, s.latest = some held ∧
      snapshot.snapshotSequence ≤ held.snapshotSequence := by
    by_contra hnone
    refine stale (fun held hheld => ?_)
    by_contra hlt
    exact hnone ⟨held, hheld, by omega⟩
  have hlast :
    s.lifecycle.lastSnapshotSequence = held.snapshotSequence := by simp [h.sequence, hheld]
  have hsame : t.lifecycle = s.lifecycle := by
    generalize t.lifecycle = lifecycle at accepted
    cases SessionLifecycle.onSnapshot_followed accepted with
    | old => rfl
    | first hlt _ => omega
    | later hlt _ _ => omega
  constructor
  · intro hnone
    simp [hlatest, hheld] at hnone
  · intro held' hheld' q hq
    rw [hlatest, hheld] at hheld'
    cases Option.some.inj hheld'
    rw [received_state] at hq
    rcases List.mem_append.mp hq with hq | hq
    · exact h.newest held hheld q hq
    · rw [List.mem_singleton.mp hq]
      exact hle
  · simpa [hsame, hlatest] using h.sequence
  · simpa [hsame, hlatest] using h.phase

/-- A newer state is held, and the lifecycle follows it. -/
theorem Newest.newer {directive : Option Directive} {outs : List SessionOutput} (h : Newest hist s)
    (accepted : s.lifecycle.onEvent (.state snapshot) = .ok (directive, t.lifecycle))
    (newer : Newer s.latest snapshot) (hlatest : t.latest = some snapshot) :
    Newest (hist ++ [(.item (.message (.state snapshot)), outs)]) t := by
  have hfollowed : t.lifecycle.lastSnapshotSequence = snapshot.snapshotSequence ∧
      (0 < snapshot.snapshotSequence → t.lifecycle.phase = some snapshot.phase) := by
    generalize t.lifecycle = lifecycle at accepted
    cases SessionLifecycle.onSnapshot_followed accepted with
    | old hold =>
      have hzero : s.lifecycle.lastSnapshotSequence = 0 ∧ snapshot.snapshotSequence = 0 := by
        cases hl : s.latest with
        | none =>
          have hseq : s.lifecycle.lastSnapshotSequence = 0 := by simp [h.sequence, hl]
          exact ⟨hseq, by omega⟩
        | some held =>
          have hseq :
            s.lifecycle.lastSnapshotSequence = held.snapshotSequence := by simp [h.sequence, hl]
          have hlt := newer held hl
          omega
      exact ⟨hzero.1.trans hzero.2.symm, fun hpos => by omega⟩
    | first => exact ⟨rfl, fun _ => rfl⟩
    | later => exact ⟨rfl, fun _ => rfl⟩
  constructor
  · intro hnone
    simp [hlatest] at hnone
  · intro held hheld q hq
    cases Option.some.inj (hlatest.symm.trans hheld)
    rw [received_state] at hq
    rcases List.mem_append.mp hq with hq | hq
    · cases hl : s.latest with
      | none => simp [h.empty hl] at hq
      | some old =>
        have hold := h.newest old hl q hq
        have hlt := newer old hl
        omega
    · rw [List.mem_singleton.mp hq]
  · simp [hfollowed.1, hlatest]
  · intro held hheld hpos
    cases Option.some.inj (hlatest.symm.trans hheld)
    exact hfollowed.2 hpos

theorem Newest.routed {event : ServerEvent} {directive : Option Directive}
    {lifecycle : SessionLifecycle} {outs : List SessionOutput} (h : Newest hist s)
    (accepted : s.lifecycle.onEvent event = .ok (directive, lifecycle))
    (moved : t.lifecycle = lifecycle) (view : View s.latest s.throttle event t.latest t.throttle) :
    Newest (hist ++ [(.item (.message event), outs)]) t := by
  subst moved
  generalize hlatest : t.latest = latest at view
  generalize t.throttle = throttle at view
  cases view with
  | stale stale => exact h.stale accepted stale hlatest
  | newer newer => exact h.newer accepted newer hlatest
  | result result =>
    have hsame : t.lifecycle = s.lifecycle := (Prod.mk.inj (Except.ok.inj accepted)).2.symm
    exact h.plain hsame hlatest rfl
  | readiness ack =>
    have accepted : s.lifecycle.onReadiness ack = (directive, t.lifecycle) := Except.ok.inj accepted
    have hsame : t.lifecycle.lastSnapshotSequence = s.lifecycle.lastSnapshotSequence ∧
        t.lifecycle.phase = s.lifecycle.phase := by
      generalize t.lifecycle = lifecycle at accepted
      unfold SessionLifecycle.onReadiness at accepted
      split_ifs at accepted <;> (cases accepted; exact ⟨rfl, rfl⟩)
    exact h.same hsame.1 hsame.2 hlatest rfl
  | protocolError error =>
    have accepted : s.lifecycle.onProtocolError error = (directive, t.lifecycle) :=
      Except.ok.inj accepted
    have hsame : t.lifecycle.lastSnapshotSequence = s.lifecycle.lastSnapshotSequence ∧
        t.lifecycle.phase = s.lifecycle.phase := by
      generalize t.lifecycle = lifecycle at accepted
      unfold SessionLifecycle.onProtocolError at accepted
      split_ifs at accepted <;> (cases accepted; exact ⟨rfl, rfl⟩)
    exact h.same hsame.1 hsame.2 hlatest rfl

theorem mem_received_snoc (h : snapshot ∈ received hist) (l : Event × List SessionOutput) :
    snapshot ∈ received (hist ++ [l]) := by
  rw [received_snoc]
  exact List.mem_append_left _ h

/-- Nothing was charged and the throttle kept its count, in the tick of the held state or before. -/
theorem Counted.keep (h : Counted hist s)
    (hcharges : ∀ rid tick, SessionOutput.charged rid tick ∉ l.2)
    (hheld : ∀ held, t.latest = some held → held ∈ received (hist ++ [l]) ∧
      t.throttle.limit = held.rules.newCommandsPerStationPerTick)
    (htick : t.throttle.tick = s.throttle.tick) (hsent : t.throttle.sent = s.throttle.sent)
    (hlatest : ∀ held, s.latest = some held → s.throttle.tick ≤ held.tick →
      ∃ held', t.latest = some held' ∧ s.throttle.tick ≤ held'.tick) : Counted (hist ++ [l]) t where
  mem held h := (hheld held h).1
  limit held h := (hheld held h).2
  bounded tick := by
    rw [charges_quiet hcharges]
    exact (h.bounded tick).trans (largestLimit_mono hist l)
  current tick hpos := by
    rw [charges_quiet hcharges] at hpos ⊢
    rw [htick, hsent]
    exact h.current tick hpos
  past tick hpos := by
    rw [charges_quiet hcharges] at hpos
    obtain ⟨held, hheld, hle⟩ := h.past tick hpos
    rw [htick]
    exact hlatest held hheld hle

theorem Counted.still (h : Counted hist s)
    (hcharges : ∀ rid tick, SessionOutput.charged rid tick ∉ l.2)
    (hlatest : t.latest = s.latest) (hthrottle : t.throttle.limit = s.throttle.limit)
    (htick : t.throttle.tick = s.throttle.tick) (hsent : t.throttle.sent = s.throttle.sent) :
    Counted (hist ++ [l]) t := by
  refine h.keep hcharges ?_ htick hsent ?_
  · intro held hheld
    rw [hlatest] at hheld
    exact ⟨mem_received_snoc (h.mem held hheld) l, hthrottle.trans (h.limit held hheld)⟩
  · intro held hheld hle
    exact ⟨held, by rw [hlatest]; exact hheld, hle⟩

/-- Rolling to the tick of the held state keeps the count of that tick. -/
theorem Counted.rolled (h : Counted hist s) {held : Snapshot} (hheld : s.latest = some held)
    (tick : Nat) (hpos : 0 < charges hist tick) :
    tick < held.tick ∨ tick = held.tick ∧
    charges hist tick ≤ (s.throttle.rollTo held.tick).sent := by
  obtain ⟨held', hheld', hle⟩ := h.past tick hpos
  cases Option.some.inj (hheld.symm.trans hheld')
  have hcurrent := h.current tick hpos
  by_cases hsame : held.tick = s.throttle.tick
  · rw [hsame, CommandThrottle.rollTo_self]
    exact hcurrent
  · omega

theorem Counted.plain (h : Counted hist s) (hlatest : t.latest = s.latest)
    (hrolled : Rolled s t.throttle) (hcharges : ∀ rid tick, SessionOutput.charged rid tick ∉ l.2) :
    Counted (hist ++ [l]) t := by
  rcases hrolled with hsame | ⟨held, heligible, hroll⟩
  · exact h.still hcharges hlatest (by rw [hsame]) (by rw [hsame]) (by rw [hsame])
  · have hheld := (eligible_eq_some_iff.mp heligible).1
    refine ⟨?_, ?_, ?_, ?_, ?_⟩
    · intro held' hheld'
      rw [hlatest] at hheld'
      exact mem_received_snoc (h.mem held' hheld') l
    · intro held' hheld'
      rw [hlatest] at hheld'
      rw [hroll, CommandThrottle.rollTo_limit]
      exact h.limit held' hheld'
    · intro tick
      rw [charges_quiet hcharges]
      exact (h.bounded tick).trans (largestLimit_mono hist l)
    · intro tick hpos
      rw [charges_quiet hcharges] at hpos ⊢
      rw [hroll, CommandThrottle.rollTo_tick]
      exact h.rolled hheld tick hpos
    · intro tick _
      refine ⟨held, by rw [hlatest]; exact hheld, ?_⟩
      rw [hroll, CommandThrottle.rollTo_tick]

theorem Counted.routed {event : ServerEvent} {outs : List SessionOutput} (h : Counted hist s)
    (ordered : Ordered s (.item (.message event)))
    (view : View s.latest s.throttle event t.latest t.throttle)
    (hcharges : ∀ rid tick, SessionOutput.charged rid tick ∉ outs) : Counted (hist ++
      [(.item (.message event), outs)]) t := by
  generalize hlatest : t.latest = latest at view
  generalize hthrottle : t.throttle = throttle at view
  cases view with
  | stale =>
    exact h.still hcharges hlatest (by rw [hthrottle]) (by rw [hthrottle]) (by rw [hthrottle])
  | @newer snapshot newer =>
    obtain ⟨hlimit, htick, hsent, _, _⟩ := honours_frame snapshot.requestResults
      (s.throttle.updateLimit snapshot.rules.newCommandsPerStationPerTick)
    refine h.keep hcharges ?_ (by rw [hthrottle]; exact htick) (by rw [hthrottle]; exact hsent) ?_
    · intro held hheld
      cases Option.some.inj (hlatest.symm.trans hheld)
      refine ⟨?_, by rw [hthrottle]; exact hlimit⟩
      rw [received_snoc]
      exact List.mem_append_right _ (by simp [receivedIn])
    · intro held hheld hle
      exact ⟨snapshot, hlatest, hle.trans (ordered snapshot held rfl hheld (newer held hheld))⟩
  | result result =>
    obtain ⟨hlimit, htick, hsent, _, _⟩ := honour_frame s.throttle result
    exact h.still hcharges hlatest (by rw [hthrottle]; exact hlimit)
        (by rw [hthrottle]; exact htick)
      (by rw [hthrottle]; exact hsent)
  | readiness =>
    exact h.still hcharges hlatest (by rw [hthrottle]) (by rw [hthrottle]) (by rw [hthrottle])
  | protocolError =>
    exact h.still hcharges hlatest (by rw [hthrottle]) (by rw [hthrottle]) (by rw [hthrottle])

theorem blocked_plain (h : ∀ tick, Told hist tick → tick ≤ s.throttle.blockedUntilTick)
    (hb : t.throttle.blockedUntilTick = s.throttle.blockedUntilTick)
    (hquiet : ∀ tick, ¬ Tells hist l tick) :
    ∀ tick, Told (hist ++ [l]) tick → tick ≤ t.throttle.blockedUntilTick := by
  intro tick htold
  rw [hb]
  exact h tick ((told_snoc htold).resolve_right (hquiet tick))

/-- What a result or a newer state says about waiting is in the throttle at once. -/
theorem blocked_routed {event : ServerEvent} {outs : List SessionOutput}
    (h : ∀ tick, Told hist tick → tick ≤ s.throttle.blockedUntilTick) (hc : Counted hist s)
    (view : View s.latest s.throttle event t.latest t.throttle) :
    ∀ tick, Told (hist ++ [(.item (.message event), outs)]) tick →
    tick ≤ t.throttle.blockedUntilTick := by
  generalize t.latest = latest at view
  generalize t.throttle = throttle at view
  intro tick htold
  rcases told_snoc htold with htold | htells
  · have hold := h tick htold
    cases view with
    | stale => exact hold
    | @newer snapshot _ =>
      have hgrows := (honours_frame snapshot.requestResults
        (s.throttle.updateLimit snapshot.rules.newCommandsPerStationPerTick)).2.2.2.1
      exact hold.trans hgrows
    | result result => exact hold.trans (honour_frame s.throttle result).2.2.2.1
    | readiness => exact hold
    | protocolError => exact hold
  · cases view with
    | stale stale => exact absurd (fun held hheld => htells.1 held (hc.mem held hheld)) stale
    | @newer snapshot _ =>
      obtain ⟨_, result, hmem, hlimited⟩ := htells
      exact (honours_frame snapshot.requestResults _).2.2.2.2 result hmem tick hlimited
    | result result => exact (honour_frame s.throttle result).2.2.2.2 tick htells
    | readiness => exact htells.elim
    | protocolError => exact htells.elim

variable {call : Nat} {draft : Draft} {kind requestId : String} {payload : List UInt8}
  {held : Snapshot} {ev : Event} {outs : List SessionOutput}

/-- The request id is tracked for the payload that goes out, now as before. -/
theorem Tracked.transmitted (h : Tracked bodyFingerprint hist s) (hsent : t.tracker.sent =
      s.tracker.sent.set requestId ⟨requestId, bodyFingerprint payload, kind, tick⟩)
    (hold : ∀ p, s.tracker.sent.get? requestId = some p → p.fingerprint = bodyFingerprint payload)
    (hcharged : ∃ payload' tick', bodyFingerprint payload = bodyFingerprint payload' ∧
      ∃ x ∈ hist ++ [l], SessionOutput.charged requestId tick' ∈ x.2 ∧
      SessionOutput.transmitted requestId payload' ∈ x.2) (hout : ∀ rid payload',
      SessionOutput.transmitted rid payload' ∈ l.2 → rid = requestId ∧ payload' = payload) :
    Tracked bodyFingerprint (hist ++ [l]) t where
  charged rid p hp := by
    rw [hsent, Dict.get?_set] at hp
    split at hp
    next hrid =>
      cases Option.some.inj hp
      rw [hrid]
      exact hcharged
    next =>
      obtain ⟨payload', tick', hfp, x, hx, hcharge⟩ := h.charged rid p hp
      exact ⟨payload', tick', hfp, x, List.mem_append_left _ hx, hcharge⟩
  sent rid payload' hmem := by
    rw [hsent, Dict.get?_set]
    rw [outputs_snoc] at hmem
    split
    next hrid =>
      refine ⟨_, rfl, ?_⟩
      show bodyFingerprint payload = bodyFingerprint payload'
      rcases List.mem_append.mp hmem with hmem | hmem
      · obtain ⟨p, hp, hfp⟩ := h.sent rid payload' hmem
        rw [← hfp, hold p (hrid ▸ hp)]
      · rw [(hout rid payload' hmem).2]
    next hrid =>
      rcases List.mem_append.mp hmem with hmem | hmem
      · exact h.sent rid payload' hmem
      · exact absurd (hout rid payload' hmem).1 hrid

/-- A charge fits the limit of the held state. -/
theorem Counted.charged (h : Counted hist s) (hheld : s.latest = some held)
    (slot : 0 < (s.throttle.remaining held.tick).1) (hlatest : t.latest = s.latest)
    (hthrottle : t.throttle = s.throttle.recordSent held.tick)
    (houts : outs = [.charged requestId held.tick, .transmitted requestId payload]) :
    Counted (hist ++ [(ev, outs)]) t := by
  obtain ⟨_, hroom⟩ := CommandThrottle.remaining_pos_iff.mp slot
  have hcharges : ∀ tick, charges (hist ++ [(ev, outs)]) tick =
      charges hist tick + if held.tick = tick then 1 else 0 := by
    intro tick
    rw [charges_snoc, houts]
    by_cases htick : held.tick = tick <;> simp [isChargeAt, htick]
  have hcurrent : charges hist held.tick ≤ (s.throttle.rollTo held.tick).sent := by
    by_cases hpos : 0 < charges hist held.tick
    · have := h.rolled hheld held.tick hpos
      omega
    · omega
  have htick :
    t.throttle.tick = held.tick := by rw [hthrottle]; exact CommandThrottle.rollTo_tick _ _
  have hsent : t.throttle.sent = (s.throttle.rollTo held.tick).sent + 1 := by rw [hthrottle]; rfl
  refine ⟨?_, ?_, ?_, ?_, ?_⟩
  · intro held' hheld'
    rw [hlatest] at hheld'
    exact mem_received_snoc (h.mem held' hheld') _
  · intro held' hheld'
    rw [hlatest] at hheld'
    have hlimit : t.throttle.limit = s.throttle.limit := by
      rw [hthrottle]; exact CommandThrottle.rollTo_limit _ _
    exact hlimit.trans (h.limit held' hheld')
  · intro tick
    rw [hcharges]
    split
    next heq =>
      have hlimit := le_largestLimit (h.mem held hheld)
      rw [← h.limit held hheld] at hlimit
      have := largestLimit_mono hist (ev, outs)
      subst heq
      omega
    next => exact (h.bounded tick).trans (largestLimit_mono hist _)
  · intro tick hpos
    rw [hcharges] at hpos ⊢
    rw [htick, hsent]
    by_cases heq : held.tick = tick
    · subst heq
      rw [if_pos rfl]
      exact Or.inr ⟨rfl, by omega⟩
    · rw [if_neg heq] at hpos ⊢
      have := h.rolled hheld tick (by omega)
      omega
  · intro tick _
    exact ⟨held, by rw [hlatest]; exact hheld, htick.le⟩

theorem commanded_counted (h : Counted hist s)
    (commanding : Commanding bodyFingerprint s call draft kind requestId outs t) :
    Counted (hist ++ [(.sendCommand call draft kind requestId, outs)]) t := by
  cases commanding with
  | refused _ rolled => exact h.plain rfl rolled (by simp)
  | retried => exact h.plain rfl (Or.inl rfl) (by simp)
  | charged clears _ slot =>
    exact h.charged (eligible_eq_some_iff.mp clears.eligible).1 slot rfl rfl rfl

theorem commanded_gated (h : Gated bodyFingerprint hist s)
    (commanding : Commanding bodyFingerprint s call draft kind requestId outs t) :
    Gated bodyFingerprint (hist ++ [(.sendCommand call draft kind requestId, outs)]) t := by
  have hplain : Event.Plain (.sendCommand call draft kind requestId) := by simp [Event.Plain]
  obtain ⟨hr, he, hquiet⟩ := Plain.quiet hplain outs
  cases commanding with
  | @refused error throttle _ rolled =>
    have hblocked : throttle.blockedUntilTick = s.throttle.blockedUntilTick := by
      rcases rolled with rfl | ⟨_, _, rfl⟩
      · rfl
      · exact CommandThrottle.rollTo_blockedUntilTick _ _
    exact ⟨h.standing.plain rfl hr he, h.newest.plain rfl rfl hr, h.tracked.quiet rfl (by simp),
      blocked_plain h.blocked hblocked (hquiet hist)⟩
  | @retried payload snapshot clears retry =>
    obtain ⟨p, hp, hfp⟩ := PendingRequestTracker.isExactRetry_iff.mp retry
    refine ⟨h.standing.plain rfl hr he, h.newest.plain rfl rfl hr, ?_,
      blocked_plain h.blocked rfl (hquiet hist)⟩
    refine h.tracked.transmitted rfl ?_ ?_ ?_
    · intro p' hp'
      cases Option.some.inj (hp.symm.trans hp')
      exact hfp
    · obtain ⟨payload', tick', hfp', x, hx, hcharge⟩ := h.tracked.charged requestId p hp
      exact ⟨payload', tick', hfp.symm.trans hfp', x, List.mem_append_left _ hx, hcharge⟩
    · intro rid payload' hmem
      cases List.mem_singleton.mp hmem
      exact ⟨rfl, rfl⟩
  | @charged payload snapshot clears new slot =>
    refine ⟨h.standing.plain rfl hr he, h.newest.plain rfl rfl hr, ?_,
      blocked_plain h.blocked (CommandThrottle.rollTo_blockedUntilTick _ _) (hquiet hist)⟩
    refine h.tracked.transmitted rfl ?_ ?_ ?_
    · intro p hp
      simp [new] at hp
    · exact ⟨payload, snapshot.tick, rfl, _, List.mem_append_right _ (List.mem_singleton.mpr rfl),
        by simp, by simp⟩
    · intro rid payload' hmem
      simpa using hmem

theorem readies_ready {directive : Option Directive} {o : SessionOutput}
    (h : o ∈ readies directive) :
    ∃ runId snapshotSequence, o = .ready runId snapshotSequence := by
  cases directive with
  | none => simp [readies] at h
  | some directive =>
    cases directive with
    | sendReady runId snapshotSequence => exact ⟨_, _, List.mem_singleton.mp h⟩
    | reconnect => simp [readies] at h
    | abort => simp [readies] at h

/-- Only `send_command` charges and transmits. -/
theorem readies_silent {directive : Option Directive} {p : Prop}
    (declared : outs = readies directive ∨ outs = [] ∧ p) :
    (∀ rid tick, SessionOutput.charged rid tick ∉ outs) ∧ ∀ rid payload,
    SessionOutput.transmitted rid payload ∉ outs := by
  have hready : ∀ o ∈ outs, ∃ runId snapshotSequence, o = .ready runId snapshotSequence := by
    intro o ho
    rcases declared with hdeclared | ⟨hnone, _⟩
    · exact readies_ready (hdeclared ▸ ho)
    · simp [hnone] at ho
  constructor
  · intro rid tick hm
    obtain ⟨_, _, heq⟩ := hready _ hm
    simp at heq
  · intro rid payload hm
    obtain ⟨_, _, heq⟩ := hready _ hm
    simp at heq

/-- The count of a step, whether or not the pump is alive. -/
theorem step_counted (ho : Offline s) (h : Counted hist s) (hg : Ordered s ev)
    (hstep : Step bodyFingerprint s (ev, outs) t) : Counted (hist ++ [(ev, outs)]) t := by
  have hturn := (step_turn ho hstep).1
  cases hturn with
  | idle plain replies lifecycle sent latest throttle running =>
    refine h.plain latest throttle ?_
    intro rid tick hm
    obtain ⟨_, _, heq⟩ := replies _ hm
    simp at heq
  | stopped _ _ latest throttle =>
    exact h.still (by simp) latest (by rw [throttle]) (by rw [throttle]) (by rw [throttle])
  | routed reading accepted moved sent view declared =>
    exact h.routed hg view (readies_silent declared).1
  | commanded commanding => exact commanded_counted h commanding

/-- What one step keeps, for as long as the pump is alive. -/
theorem step_gated (ho : Offline s) (hc : Counted hist s)
    (h : Running s → Gated bodyFingerprint hist s) (hstep : Step bodyFingerprint s (ev, outs) t)
    (hrun : Running t) :
    Gated bodyFingerprint (hist ++ [(ev, outs)]) t := by
  have hturn := (step_turn ho hstep).1
  cases hturn with
  | idle plain replies lifecycle sent latest throttle running =>
    have h := h (running hrun)
    obtain ⟨hr, he, hquiet⟩ := Plain.quiet plain outs
    have hblocked : t.throttle.blockedUntilTick = s.throttle.blockedUntilTick := by
      rcases throttle with hsame | ⟨_, _, hsame⟩
      · rw [hsame]
      · rw [hsame]
        exact CommandThrottle.rollTo_blockedUntilTick _ _
    refine ⟨h.standing.plain lifecycle hr he, h.newest.plain lifecycle latest hr,
      h.tracked.quiet sent ?_, blocked_plain h.blocked hblocked (hquiet hist)⟩
    intro rid payload hm
    obtain ⟨_, _, heq⟩ := replies _ hm
    simp at heq
  | stopped hstopped => exact absurd hstopped hrun.1
  | @routed event directive lifecycle _ _ reading accepted moved sent view declared =>
    have h := h ⟨by simp [reading], by simp [reading]⟩
    have hdeclared : outs = readies directive := declared.resolve_right (fun hno => hno.2 hrun)
    refine ⟨?_, h.newest.routed accepted moved view,
      h.tracked.quiet sent (readies_silent declared).2, blocked_routed h.blocked hc view⟩
    rw [moved]
    exact h.standing.routed h.newest hc accepted hdeclared
  | commanded commanding =>
    have hsame : Running s := by cases commanding <;> exact hrun
    exact commanded_gated (h hsame) commanding

theorem init_counted (throttle : CommandThrottle) : Counted [] (init throttle) :=
  ⟨by simp [init, start], by simp [init, start], by simp [charges, outputs], by
    simp [charges, outputs],
    by simp [charges, outputs]⟩

theorem init_gated (throttle : CommandThrottle) : Gated bodyFingerprint [] (init throttle) where
  standing := by
    intro q hq
    simp [received] at hq
  newest := ⟨fun _ => rfl, by simp [init, start], rfl, by simp [init, start]⟩
  tracked := ⟨by simp [init, start], by simp [outputs]⟩
  blocked := by
    rintro tick ⟨pre, l, post, heq, _⟩
    simp at heq

theorem run_gated {throttle : CommandThrottle} (run : Machine.GuardedRun
      (fun _ s l => Ordered s l.1) (Step bodyFingerprint) (init throttle) hist s) :
    Offline s ∧ Counted hist s ∧ (Running s → Gated bodyFingerprint hist s) := by
  refine run.invariant
    (I := fun hist s => Offline s ∧ Counted hist s ∧ (Running s → Gated bodyFingerprint hist s))
    ⟨init_offline throttle, init_counted throttle, fun _ => init_gated throttle⟩ ?_
  rintro hist s l t ⟨ho, hc, h⟩ hg hstep
  exact ⟨(step_turn ho hstep).2, step_counted ho hc hg hstep, step_gated ho hc h hstep⟩

end Invariant

section Results

variable {ev : Event} {outs : List SessionOutput} {requestId : String} {payload : List UInt8}
  {throttle : CommandThrottle}

/-- All that holds when trading bytes are handed to the transport. -/
structure Cleared (hist : List (Event × List SessionOutput)) (s : BazaarSession)
    (outs : List SessionOutput) (requestId : String) (payload : List UInt8) : Prop where
  acknowledged : Acknowledged hist
  newest :
    ∃ held ∈ received hist, (∀ q ∈ received hist, q.snapshotSequence ≤ held.snapshotSequence) ∧
    held.phase = .running ∧ held.me.failedOnce = false ∧ held.tick < held.rules.durationTicks ∧
    (SessionOutput.charged requestId held.tick ∈ outs ∧
      (∀ tick, Told hist tick → tick ≤ held.tick) ∨
      ∃ l ∈ hist, ∃ tick, SessionOutput.charged requestId tick ∈ l.2 ∧
      SessionOutput.transmitted requestId payload ∈ l.2)
  same : ∀ earlier, SessionOutput.transmitted requestId earlier ∈ outputs hist → earlier = payload

theorem clears_cleared
    {draft : Draft} {snapshot : Snapshot} (hc : Counted hist s) (h : Gated bodyFingerprint hist s)
    (clears : Clears bodyFingerprint s draft requestId payload snapshot) :
    Acknowledged hist ∧ snapshot ∈ received hist ∧
      (∀ q ∈ received hist, q.snapshotSequence ≤ snapshot.snapshotSequence) ∧
      snapshot.phase = .running ∧
      snapshot.me.failedOnce = false ∧ snapshot.tick < snapshot.rules.durationTicks := by
  obtain ⟨hheld, hcan, hfailed, htick⟩ := eligible_eq_some_iff.mp clears.eligible
  obtain ⟨hactive, hphase⟩ := SessionLifecycle.canSendTradingCommands_iff.mp hcan
  have hack : Acknowledged hist := by simpa [Standing, hactive] using h.standing
  have hpos : 0 < snapshot.snapshotSequence := by
    obtain ⟨pre, _, post, runId, snapshotSequence, heq, hdeclared, _⟩ := hack
    obtain ⟨q, hq, _⟩ := Option.map_eq_some_iff.mp hdeclared.1
    have hqpos := List.find?_some hq
    have hqmem : q ∈ received hist := by
      rw [heq]
      simp only [received, List.filterMap_append]
      exact List.mem_append_left _ (List.mem_of_find?_eq_some hq)
    have hle := h.newest.newest snapshot hheld q hqmem
    simp only [decide_eq_true_eq] at hqpos
    omega
  have hrunning : snapshot.phase = .running := by
    have hsame := h.newest.phase snapshot hheld hpos
    rw [hphase] at hsame
    exact (Option.some.inj hsame).symm
  exact ⟨hack, hc.mem snapshot hheld, h.newest.newest snapshot hheld, hrunning, hfailed, htick⟩

/-- The gate: whatever the interleaving, bytes leave only when everything is in order. -/
theorem run_gate (injective : ∀ {a b}, bodyFingerprint a = bodyFingerprint b → a = b) (run :
      Machine.GuardedRun (fun _ s l => Ordered s l.1) (Step bodyFingerprint) (init throttle) hist s)
    (hrun : Running s) (hstep : Step bodyFingerprint s (ev, outs) t)
    (h : SessionOutput.transmitted requestId payload ∈ outs) :
    Cleared hist s outs requestId payload ∧ ∀ tick, charges (hist ++ [(ev, outs)]) tick ≤
      largestLimit hist := by
  obtain ⟨hoffline, hcount, hgated⟩ := run_gated run
  have hgated := hgated hrun
  have hsame : ∀ earlier, SessionOutput.transmitted requestId earlier ∈ outputs hist →
      (∀ p, s.tracker.sent.get? requestId = some p → p.fingerprint = bodyFingerprint payload) →
      earlier = payload := by
    intro earlier hearlier hold
    obtain ⟨p, hp, hfp⟩ := hgated.tracked.sent requestId earlier hearlier
    exact injective (hfp.symm.trans (hold p hp))
  have hturn := (step_turn hoffline hstep).1
  cases hturn with
  | idle _ replies =>
    obtain ⟨_, _, heq⟩ := replies _ h
    simp at heq
  | stopped => simp at h
  | routed _ _ _ _ _ declared => exact absurd h ((readies_silent declared).2 _ _)
  | @commanded call draft kind rid _ _ commanding =>
    have hcounted := (commanded_counted hcount commanding).bounded
    have hlimit : ∀ outs, largestLimit (hist ++ [(.sendCommand call draft kind rid, outs)]) =
        largestLimit hist := by
      intro outs
      simp [largestLimit, received_snoc, receivedIn]
    simp only [hlimit] at hcounted
    refine ⟨?_, hcounted⟩
    cases commanding with
    | refused => simp at h
    | @retried bytes snapshot clears retry =>
      obtain ⟨rfl, rfl⟩ : requestId = rid ∧ payload = bytes := by simpa using h
      obtain ⟨hack, hmem, hnewest, hphase, hfailed, htick⟩ := clears_cleared hcount hgated clears
      obtain ⟨p, hp, hfp⟩ := PendingRequestTracker.isExactRetry_iff.mp retry
      obtain ⟨earlier, tick, hearlier, l, hl, hcharged, htransmitted⟩ :=
        hgated.tracked.charged requestId p hp
      have heq : earlier = payload := injective (hearlier.symm.trans hfp)
      rw [heq] at htransmitted
      refine ⟨hack, ⟨snapshot, hmem, hnewest, hphase, hfailed, htick,
        Or.inr ⟨l, hl, tick, hcharged, htransmitted⟩⟩, ?_⟩
      intro earlier hearlier
      refine hsame earlier hearlier ?_
      intro p' hp'
      cases Option.some.inj (hp.symm.trans hp')
      exact hfp
    | @charged bytes snapshot clears new slot =>
      obtain ⟨rfl, rfl⟩ : requestId = rid ∧ payload = bytes := by simpa using h
      obtain ⟨hack, hmem, hnewest, hphase, hfailed, htick⟩ := clears_cleared hcount hgated clears
      have hblocked := (CommandThrottle.remaining_pos_iff.mp slot).1
      refine ⟨hack, ⟨snapshot, hmem, hnewest, hphase, hfailed, htick, Or.inl ⟨by simp, ?_⟩⟩, ?_⟩
      · intro tick htold
        exact (hgated.blocked tick htold).trans hblocked
      · intro earlier hearlier
        exact hsame earlier hearlier (fun p hp => by simp [new] at hp)

def ordered? (s : BazaarSession) : Event → Bool
  | .item (.message (.state snapshot)) =>
    (s.latest.map (fun held => decide (held.tick ≤ snapshot.tick))).getD true
  | _ => true

theorem ordered?_sound (h : ordered? s ev = true) : Ordered s ev := by
  rintro snapshot held rfl hheld _
  simpa [ordered?, hheld] using h

def rateLimitedResult (requestId : String) (tick : Nat) : CommandResult where
  requestId := requestId
  ok := false
  code := .rateLimited
  processedTick := tick
  processedVersion := tick
  objectId := none
  transactionId := none
  retryAfterTick := some (tick + 1)

/-- One command is charged at tick 3 and answered with RATE_LIMITED. -/
def rateLimitedOnce : List Event :=
  handshake ++ [.sendCommand 0 (sampleWithdraw "r1") "withdraw" "r1", .payloadSent 0 true,
    delivers (.result (rateLimitedResult "r1" 3)), .resume 0]

theorem run_gate_next_tick :
    ∃ hist s outs t payload,
      Machine.GuardedRun (fun _ s l => Ordered s l.1)
        (Step plainDigest) (init ⟨1, 0, 0, 0⟩) hist s ∧
        Step plainDigest s (.sendCommand 1 (sampleWithdraw "r2") "withdraw" "r2", outs) t ∧
        Cleared hist s outs "r2" payload ∧
        ∀ tick, charges (hist ++ [(.sendCommand 1 (sampleWithdraw "r2") "withdraw" "r2", outs)])
          tick ≤ largestLimit hist := by
  have hall : ((Machine.replayGuarded (step? plainDigest)
      (fun _ s l => ordered? s l.1) [] (init ⟨1, 0, 0, 0⟩)
      (rateLimitedOnce ++ [delivers (.state (sampleState "sim" 2 4))])).bind (fun r =>
        (step? plainDigest r.2 (.sendCommand 1 (sampleWithdraw "r2") "withdraw" "r2")).map (fun f =>
          (r.2.pump, sentIds f.1)))) = some (.reading, ["r2"]) := by decide +kernel
  obtain ⟨⟨hist, s⟩, hreplay, hall⟩ := Option.bind_eq_some_iff.mp hall
  obtain ⟨⟨outs, t⟩, hstep, hall⟩ := Option.map_eq_some_iff.mp hall
  obtain ⟨hp, hsent⟩ := Prod.mk.inj hall
  have hmem : "r2" ∈ sentIds outs := by
    show "r2" ∈ sentIds (outs, t).1
    simp [hsent]
  obtain ⟨payload, hpayload⟩ := mem_sentIds hmem
  have run : Machine.GuardedRun (fun _ s l => Ordered s l.1) (Step plainDigest)
      (init ⟨1, 0, 0, 0⟩) hist s :=
    Machine.guardedRun_of_replay (fun _ _ _ h => ordered?_sound h) Machine.GuardedRun.start hreplay
  have hreading : s.pump = .reading := hp
  have hrunning : Running s := by simp [Running, hreading]
  obtain ⟨hcleared, hbound⟩ := run_gate plainDigest_injective run hrunning hstep hpayload
  exact ⟨hist, s, outs, t, payload, run, hstep, hcleared, hbound⟩

/-- An exact retry asks no budget: it goes out at tick 3 after the answer that said 4. -/
theorem retry_before_retry_after :
    ∃ hist s outs t payload,
      Machine.GuardedRun (fun _ s l => Ordered s l.1)
        (Step plainDigest) (init ⟨1, 0, 0, 0⟩) hist s ∧ Running s ∧
        Step plainDigest s (.sendCommand 1 (sampleWithdraw "r1") "withdraw" "r1", outs) t ∧
        SessionOutput.transmitted "r1" payload ∈ outs ∧
        Told hist 4 ∧ s.latest.map Snapshot.tick = some 3 := by
  have hall : ((Machine.replayGuarded (step? plainDigest)
      (fun _ s l => ordered? s l.1) [] (init ⟨1, 0, 0, 0⟩)
      rateLimitedOnce).bind (fun r =>
        (step? plainDigest r.2 (.sendCommand 1 (sampleWithdraw "r1") "withdraw" "r1")).map (fun f =>
          (r.2.pump, sentIds f.1, r.2.latest.map Snapshot.tick,
            r.1.any (fun l => l.1 = delivers (.result (rateLimitedResult "r1" 3))))))) =
      some (.reading, ["r1"], some 3, true) := by decide +kernel
  obtain ⟨⟨hist, s⟩, hreplay, hall⟩ := Option.bind_eq_some_iff.mp hall
  obtain ⟨⟨outs, t⟩, hstep, hall⟩ := Option.map_eq_some_iff.mp hall
  simp only [Prod.mk.injEq] at hall
  obtain ⟨hp, hsent, htick, hany⟩ := hall
  have hmem : "r1" ∈ sentIds outs := by
    show "r1" ∈ sentIds (outs, t).1
    simp [hsent]
  obtain ⟨payload, hpayload⟩ := mem_sentIds hmem
  have run : Machine.GuardedRun (fun _ s l => Ordered s l.1) (Step plainDigest)
      (init ⟨1, 0, 0, 0⟩) hist s :=
    Machine.guardedRun_of_replay (fun _ _ _ h => ordered?_sound h) Machine.GuardedRun.start hreplay
  have hreading : s.pump = .reading := hp
  have hrunning : Running s := by simp [Running, hreading]
  obtain ⟨l, hl, hev⟩ := List.any_eq_true.mp hany
  obtain ⟨pre, post, heq⟩ := List.append_of_mem hl
  have htold : Told hist 4 := by
    refine ⟨pre, l, post, heq, ?_⟩
    simp only [decide_eq_true_eq] at hev
    unfold Tells
    rw [hev]
    rfl
  exact ⟨hist, s, outs, t, payload, run, hrunning, hstep, hpayload, htold, htick⟩

end Results

end BazaarSession

end SpaceportBazaar
