import SpaceportBazaar.Economy
import SpaceportBazaar.SessionSteps

namespace SpaceportBazaar

namespace BazaarSession

variable {s t : BazaarSession} {bodyFingerprint : List UInt8 → String}

/-- The caller of this call is still waiting for a future nobody has settled. -/
def Call.Unresolved (c : Call) : Prop := c.stage ≠ .returned ∧ c.future = .pending

/-- No waiter is left unresolved. -/
def Settled (s : BazaarSession) : Prop := ∀ j c, s.calls.get? j = some c → ¬ c.Unresolved

/-- Where the future of a call has to stand for an event to find it. -/
def Placed (s : BazaarSession) (j : Nat) : Awaited → Prop
  | .snapshot minSequence => (minSequence, j) ∈ s.snapshotWaiters
  | .readiness => s.readinessWaiter = some j
  | .command requestId => s.commandWaiters.get? requestId = some j

def Registered (s : BazaarSession) : Prop :=
  ∀ j c, s.calls.get? j = some c → c.Unresolved → s.Placed j c.awaited

/-- No two calls that have not returned send under one request id. -/
def Alone (s : BazaarSession) : Prop :=
  ∀ i j c d rid, s.calls.get? i = some c → s.calls.get? j = some d → c.awaited = .command rid →
    d.awaited = .command rid → c.stage ≠ .returned → d.stage ≠ .returned → i = j

/-- A waiter leaves its place only with its future settled. -/
structure Passes (s t : BazaarSession) : Prop where
  settles : Settles s t
  placed : ∀ j a, s.Placed j a → Done t j ∨ t.Placed j a

theorem Passes.refl (s : BazaarSession) : Passes s s := ⟨Settles.refl s, fun _ _ h => Or.inr h⟩

theorem Passes.trans {u : BazaarSession} (h : Passes s t) (h' : Passes t u) : Passes s u where
  settles := h.settles.trans h'.settles
  placed j a hj := by
    rcases h.placed j a hj with hd | hj
    · exact Or.inl (hd.mono h'.settles)
    · exact h'.placed j a hj

theorem Settles.unresolved {j : Nat} {c' : Call} (h : Settles s t) (hc' : t.calls.get? j = some c')
    (hu : c'.Unresolved) :
    ∃ c, s.calls.get? j = some c ∧ c.awaited = c'.awaited ∧ c.Unresolved := by
  obtain ⟨c, hc, ha, hs, hp⟩ := h j c' hc'
  exact ⟨c, hc, ha.symm, by rw [← hs]; exact hu.1, hp hu.2⟩

theorem Registered.passes (h : Registered s) (hp : Passes s t) : Registered t := by
  intro j c' hc' hu
  obtain ⟨c, hc, ha, huc⟩ := hp.settles.unresolved hc' hu
  rw [← ha]
  rcases hp.placed j c.awaited (h j c hc huc) with hd | hw
  · exact absurd hu.2 (hd c' hc')
  · exact hw

theorem Settled.registered (h : Settled s) : Registered s := fun j c hc hu => absurd hu (h j c hc)

theorem Settled.settles (h : Settled s) (hs : Settles s t) : Settled t := by
  intro j c' hc' hu
  obtain ⟨c, hc, _, huc⟩ := hs.unresolved hc' hu
  exact h j c hc huc

theorem Alone.settles (h : Alone s) (hs : Settles s t) : Alone t := by
  intro i j c' d' rid hc' hd' hac had hsc hsd
  obtain ⟨c, hc, hca, hcs, _⟩ := hs i c' hc'
  obtain ⟨d, hd, hda, hds, _⟩ := hs j d' hd'
  exact h i j c d rid hc hd (hca ▸ hac) (hda ▸ had) (hcs ▸ hsc) (hds ▸ hsd)

/-- Failing all waiters leaves none unresolved, whichever of the three lists it stands on. -/
theorem failAllWaiters_settled (h : Registered s) (error : SessionError) :
    Settled (s.failAllWaiters error) := by
  obtain ⟨hs, hsnap, hcmd, hready⟩ := s.failAllWaiters_spec error
  intro j c' hc' hu
  obtain ⟨c, hc, hac, huc⟩ := hs.unresolved hc' hu
  have hplaced := h j c hc huc
  cases ha : c.awaited with
  | snapshot m =>
    rw [ha] at hplaced
    exact hsnap (m, j) hplaced c' hc' hu.2
  | readiness =>
    rw [ha] at hplaced
    exact hready j hplaced c' hc' hu.2
  | command rid =>
    rw [ha] at hplaced
    exact hcmd j (Dict.mem_values_iff.mpr ⟨rid, hplaced⟩) c' hc' hu.2

theorem resolveCommand_passes (s : BazaarSession) (requestId : String) (outcome : CommandOutcome) :
    Passes s (s.resolveCommand requestId outcome) := by
  obtain ⟨hs, hcmd⟩ := s.resolveCommand_spec requestId outcome
  obtain ⟨waiters, table, heq⟩ := s.resolveCommand_frame requestId outcome
  refine ⟨hs, ?_⟩
  intro j a hj
  cases a with
  | snapshot m => exact Or.inr (by rw [heq]; exact hj)
  | readiness => exact Or.inr (by rw [heq]; exact hj)
  | command rid => exact hcmd rid j hj

theorem onResult_passes (s : BazaarSession) (result : CommandResult) :
    Passes s (s.onResult result) := by
  rw [onResult_eq]
  have hthrottle : Passes s { s with throttle := honour s.throttle result } :=
    ⟨Settles.of_calls rfl, fun _ _ hj => Or.inr hj⟩
  exact hthrottle.trans (resolveCommand_passes _ _ _)

theorem onResults_passes (s : BazaarSession) (results : List CommandResult) :
    Passes s (results.foldl onResult s) := by
  induction results generalizing s with
  | nil => exact Passes.refl s
  | cons result results ih => exact (s.onResult_passes result).trans (ih _)

theorem onSnapshot_passes (s : BazaarSession) (snapshot : Snapshot) :
    Passes s (s.onSnapshot snapshot) := by
  by_cases h : Newer s.latest snapshot
  · rw [onSnapshot_newer h]
    obtain ⟨hs, hsnap⟩ := wakeSnapshots_spec snapshot s.snapshotWaiters { s with
      latest := some snapshot
      throttle := s.throttle.updateLimit snapshot.rules.newCommandsPerStationPerTick }
    obtain ⟨table, heq⟩ := wakeSnapshots_frame snapshot s.snapshotWaiters { s with
      latest := some snapshot
      throttle := s.throttle.updateLimit snapshot.rules.newCommandsPerStationPerTick }
    refine Passes.trans ?_ (onResults_passes _ _)
    refine ⟨hs, ?_⟩
    intro j a hj
    cases a with
    | snapshot m => exact hsnap (m, j) hj
    | readiness => exact Or.inr (by rw [heq]; exact hj)
    | command rid => exact Or.inr (by rw [heq]; exact hj)
  · rw [onSnapshot_stale h]
    exact Passes.refl s

theorem route_passes (s : BazaarSession) (event : ServerEvent) : Passes s (s.route event) := by
  cases event with
  | state snapshot => exact s.onSnapshot_passes snapshot
  | result result => exact s.onResult_passes result
  | readiness ack =>
    have hs := settleAll_settles { s with readiness := some ack } s.readinessWaiter.toList
      (.result (.readiness ack))
    obtain ⟨table, heq⟩ := settleAll_frame { s with readiness := some ack } s.readinessWaiter.toList
      (.result (.readiness ack))
    refine ⟨hs, ?_⟩
    intro j a hj
    refine Or.inr ?_
    simp only [route, resolveReadiness, heq]
    cases a <;> exact hj
  | protocolError event =>
    simp only [route, onProtocolError]
    split
    next => exact Passes.refl s
    next => exact resolveCommand_passes _ _ _

structure Sound (s : BazaarSession) : Prop where
  alone : Alone s
  registered : s.pump ≠ .returned → Registered s
  settled : s.pump = .returned → Settled s

theorem Registered.of_waiters (h : Registered s) (hc : t.calls = s.calls)
    (hs : t.snapshotWaiters = s.snapshotWaiters) (hr : t.readinessWaiter = s.readinessWaiter)
    (hw : t.commandWaiters = s.commandWaiters) : Registered t := by
  intro j c hj hu
  have hplaced := h j c (by rw [← hc]; exact hj) hu
  cases ha : c.awaited <;> rw [ha] at hplaced <;> simpa only [Placed, hs, hr, hw] using hplaced

theorem apply_spec (h : Registered s) (hp : s.pump = .reading) (directive : Directive) :
    Registered (s.apply directive).2 ∧ Settles s (s.apply directive).2 ∧
    (s.apply directive).2.pump ≠ .returned := by
  cases directive with
  | sendReady runId snapshotSequence =>
    simp only [apply]
    split
    next => exact ⟨h.of_waiters rfl rfl rfl rfl, Settles.of_calls rfl, by simp⟩
    next => exact ⟨h.of_waiters rfl rfl rfl rfl, Settles.of_calls rfl, by simp⟩
  | abort reason code =>
    have hr : Registered { s with abortReason := some reason, abortCode := code } :=
      h.of_waiters rfl rfl rfl rfl
    have hsettled := failAllWaiters_settled hr (.sessionAborted reason code)
    have hs := (failAllWaiters_spec { s with abortReason := some reason, abortCode := code }
      (.sessionAborted reason code)).1
    exact ⟨hsettled.registered, hs, by simp [apply, hp]⟩
  | reconnect reason =>
    have hr : Registered { s with reconnectWanted := true } := h.of_waiters rfl rfl rfl rfl
    have hsettled := (failAllWaiters_settled hr (.sessionClosed reason)).registered
    have hs := (failAllWaiters_spec { s with reconnectWanted := true } (.sessionClosed reason)).1
    refine ⟨hsettled.of_waiters rfl rfl rfl rfl, hs, ?_⟩
    simp only [apply]
    split <;> simp

theorem failed_sound (h : Registered s) (ha : Alone s) (error : SessionError) :
    Sound { s.failAllWaiters error with pump := .returned } :=
  ⟨ha.settles (s.failAllWaiters_spec error).1, by simp, fun _ => failAllWaiters_settled h error⟩

theorem consumeEvent_sound (h : Sound s) (hp : s.pump = .reading) (item : Item) :
    Sound (s.consumeEvent item).2 := by
  have hr : Registered s := h.registered (by simp [hp])
  cases item with
  | closedSentinel =>
    exact failed_sound (s := { s with closed := true, lifecycle := s.lifecycle.onDisconnected })
      (hr.of_waiters rfl rfl rfl rfl) h.alone _
  | undecodable => exact h
  | message event =>
    simp only [consumeEvent]
    split
    next error _ => exact failed_sound hr h.alone error
    next directive lifecycle hevent =>
      have hpass := route_passes { s with lifecycle := lifecycle } event
      obtain ⟨_, _, _, _, _, _, _, heq⟩ := route_frame { s with lifecycle := lifecycle } event
      have hr₁ : Registered ({ s with lifecycle := lifecycle }.route event) :=
        Registered.passes (s := { s with lifecycle := lifecycle })
          (hr.of_waiters rfl rfl rfl rfl) hpass
      have ha₁ : Alone ({ s with lifecycle := lifecycle }.route event) :=
        Alone.settles (s := { s with lifecycle := lifecycle }) h.alone hpass.settles
      have hpump :
        ({ s with lifecycle := lifecycle }.route event).pump = .reading := by rw [heq]; exact hp
      cases directive with
      | none => exact ⟨ha₁, fun _ => hr₁, fun hret => by simp [hpump] at hret⟩
      | some directive =>
        obtain ⟨hr₂, hs₂, hret₂⟩ := apply_spec hr₁ hpump directive
        exact ⟨ha₁.settles hs₂, fun _ => hr₂, fun hret => absurd hret hret₂⟩

section Entering

variable {call : Nat} {c₀ : Call}

theorem Registered.set (h : Registered s) (ht : t.calls = s.calls.set call c₀)
    (others : ∀ j c, j ≠ call → s.calls.get? j = some c → c.Unresolved → s.Placed j c.awaited →
      t.Placed j c.awaited) (new : c₀.Unresolved → t.Placed call c₀.awaited) : Registered t := by
  intro j c hc hu
  rw [ht] at hc
  rcases Dict.get?_set_some hc with ⟨rfl, rfl⟩ | ⟨hj, hc⟩
  · exact new hu
  · exact others j c hj hc hu (h j c hc hu)

theorem Settled.set (h : Settled s) (ht : t.calls = s.calls.set call c₀)
    (new : ¬ c₀.Unresolved) : Settled t := by
  intro j c hc
  rw [ht] at hc
  rcases Dict.get?_set_some hc with ⟨-, rfl⟩ | ⟨-, hc⟩
  · exact new
  · exact h j c hc

/-- Entering a call keeps senders alone if no other call under its id is unreturned. -/
theorem Alone.set (h : Alone s) (ht : t.calls = s.calls.set call c₀)
    (new : ∀ rid, c₀.awaited = .command rid → c₀.stage ≠ .returned → ∀ j d, j ≠ call →
      s.calls.get? j = some d → d.awaited = .command rid → d.stage = .returned) : Alone t := by
  intro i j c d rid hc hd hca hda hcs hds
  rw [ht] at hc hd
  rcases Dict.get?_set_some hc with ⟨hi, rfl⟩ | ⟨hi, hold⟩
  · rcases Dict.get?_set_some hd with ⟨hj, -⟩ | ⟨hj, hold⟩
    · rw [hi, hj]
    · exact absurd (new rid hca hcs j d hj hold hda) hds
  · rcases Dict.get?_set_some hd with ⟨-, rfl⟩ | ⟨-, hd⟩
    · exact absurd (new rid hda hds i c hi hold hca) hcs
    · exact h i j c d rid hold hd hca hda hcs hds

/-- A call moves on under the same request id. -/
theorem Alone.advance {c : Call} (h : Alone s) (hc : s.calls.get? call = some c)
    (hs : c.stage ≠ .returned) (ht : t.calls = s.calls.set call c₀)
    (ha : c₀.awaited = c.awaited) : Alone t := by
  refine h.set ht ?_
  intro rid hrid _ j d hj hd hda
  by_contra hds
  exact hj (h j call d c rid hd hc hda (ha ▸ hrid) hds hs)

end Entering

/-- Once the pump is gone no wait that nothing held answers, and no command that a session stopped
by a rejected event still admits; before, no call that takes the place of another one's waiter. -/
def Careful (bodyFingerprint : List UInt8 → String) (s : BazaarSession) :
    Event → Prop
  | .waitForSnapshot _ minSequence =>
    s.pump = .returned → ∃ held, s.latest = some held ∧ minSequence ≤ held.snapshotSequence
  | .waitForReadiness _ =>
    s.pump ≠ .returned ∧
      (s.readiness = none → ∀ j c, s.calls.get? j = some c →
      c.awaited = .readiness → ¬ c.Unresolved)
  | .sendCommand _ draft _ requestId =>
    s.closed = false → Admits bodyFingerprint s draft requestId →
      s.pump ≠ .returned ∧
        ∀ j c, s.calls.get? j = some c → c.awaited = .command requestId → c.stage = .returned
  | _ => True

/-- The sentinel was the last item, and it took the lifecycle out of trading. -/
def Shut (s : BazaarSession) : Prop := s.closed = true → s.pump = .returned ∧ s.lifecycle.Over

/-- After the sentinel no command is admitted. -/
theorem Shut.refuses (h : Shut s) (hc : s.closed = true) (draft : Draft) (requestId : String) :
    ¬ Admits bodyFingerprint s draft requestId := by
  rintro ⟨payload, snapshot, clears⟩
  have hcan := (eligible_eq_some_iff.mp clears.eligible).2.1
  simp [(h hc).2.cannotSend] at hcan

theorem Shut.open (h : Shut s) (hp : s.pump ≠ .returned) : s.closed = false := by
  by_contra hc
  exact hp (h (by simpa using hc)).1

theorem Shut.same (h : Shut s) (closed : t.closed = s.closed) (pump : t.pump = s.pump)
    (lifecycle : t.lifecycle = s.lifecycle) : Shut t := by
  intro hc
  rw [closed] at hc
  rw [pump, lifecycle]
  exact h hc

theorem Shut.of_open (h : Shut s) (hp : s.pump ≠ .returned)
    (closed : t.closed = s.closed) : Shut t := by
  intro hc
  rw [closed, h.open hp] at hc
  cases hc

/-- No message closes the session: the sentinel does. -/
theorem consumeEvent_closed (event : ServerEvent) :
    (s.consumeEvent (.message event)).2.closed = s.closed := by
  have hfail : ∀ (u : BazaarSession) (error : SessionError),
      (u.failAllWaiters error).closed = u.closed := by
    intro u error
    obtain ⟨_, heq⟩ := u.failAllWaiters_frame error
    rw [heq]
  simp only [consumeEvent]
  split
  next error _ => exact hfail s error
  next directive lifecycle _ =>
    obtain ⟨_, _, _, _, _, _, _, heq⟩ := route_frame { s with lifecycle := lifecycle } event
    rw [heq]
    cases directive with
    | none => rfl
    | some directive =>
      cases directive with
      | sendReady runId snapshotSequence =>
        simp only [apply]
        split <;> rfl
      | abort reason code =>
        simp only [apply]
        exact hfail _ _
      | reconnect reason =>
        simp only [apply]
        exact hfail _ _

theorem step_shut {l : Event × List SessionOutput} (h : Shut s) (ho : Offline s)
    (hstep : Step bodyFingerprint s l t) :
    Shut t := by
  obtain ⟨ev, outs⟩ := l
  cases step_enabled hstep with
  | @item item reading consumed =>
    cases item with
    | closedSentinel =>
      simp only [consumeEvent, Prod.mk.injEq] at consumed
      rw [← consumed.2]
      exact fun _ => ⟨rfl, by simpa using s.lifecycle.onDisconnected_over⟩
    | undecodable =>
      simp only [consumeEvent, Prod.mk.injEq] at consumed
      rw [← consumed.2]
      exact h
    | message event =>
      have hclosed := s.consumeEvent_closed event
      rw [consumed] at hclosed
      exact h.of_open (by simp [reading]) hclosed
  | readySent sending _ moved => exact h.of_open (by simp [sending]) (by rw [moved])
  | connectionClosed closing _ moved => exact h.of_open (by simp [closing]) (by rw [moved])
  | remainingCommandBudget _ moved =>
    obtain ⟨throttle, _, heq⟩ := s.remainingCommandBudget_rolled
    rw [moved, heq]
    exact h
  | waitForSnapshot _ called =>
    simp only [waitForSnapshot] at called
    split at called
    · cases called
      exact h
    · split_ifs at called <;> (cases called; exact h)
  | waitForReadiness _ called =>
    unfold waitForReadiness at called
    split at called <;> (cases called; exact h)
  | @sendCommand call draft kind requestId _ called =>
    have hcommanding :=
      sendCommand_commanding bodyFingerprint call draft kind requestId ho.ineligible
    rw [called] at hcommanding
    cases hcommanding <;> exact h
  | payloadSent _ _ _ moved => exact h.same (by rw [moved]) (by rw [moved]) (by rw [moved])
  | timeout _ _ _ moved => exact h.same (by rw [moved]) (by rw [moved]) (by rw [moved])
  | @payloadLost call c _ _ finished =>
    obtain ⟨_, _, _, heq⟩ := s.finish_frame call c (.error .connectionLost)
    rw [heq] at finished
    cases finished
    exact h
  | @resume call c reply _ _ _ finished =>
    obtain ⟨_, _, _, heq⟩ := s.finish_frame call c reply
    rw [heq] at finished
    cases finished
    exact h

theorem finish_sound (h : Sound s) {call : Nat} {c : Call} (hc : s.calls.get? call = some c)
    (hs : c.stage ≠ .returned) (reply : Except SessionError Answer) :
    Sound (s.finish call c reply).2 := by
  have hcalls :
      (s.finish call c reply).2.calls = s.calls.set call { c with stage := .returned } := by
    simp only [finish]
    cases c.awaited <;> rfl
  have hframe : (s.finish call c reply).2.pump = s.pump := by
    simp only [finish]
    cases c.awaited <;> rfl
  have hover : ¬ ({ c with stage := .returned } : Call).Unresolved := fun hu => hu.1 rfl
  refine ⟨h.alone.advance hc hs hcalls rfl, ?_, ?_⟩
  · intro hp
    refine (h.registered (by rwa [hframe] at hp)).set hcalls ?_ (fun hu => absurd hu hover)
    intro j d hj hd hu hplaced
    simp only [finish]
    cases ha : c.awaited with
    | snapshot m =>
      cases hda : d.awaited <;> rw [hda] at hplaced
      · exact List.mem_filter.mpr ⟨hplaced, by simpa using hj⟩
      · exact hplaced
      · exact hplaced
    | readiness => cases hda : d.awaited <;> rw [hda] at hplaced <;> exact hplaced
    | command rid =>
      cases hda : d.awaited with
      | snapshot m => rw [hda] at hplaced; exact hplaced
      | readiness => rw [hda] at hplaced; exact hplaced
      | command rid' =>
        rw [hda] at hplaced
        have hne : rid' ≠ rid := by
          rintro rfl
          exact hj (h.alone j call d c rid' hd hc hda ha hu.1 hs)
        show (s.commandWaiters.erase rid).get? rid' = some j
        rwa [Dict.get?_erase_of_ne _ hne]
  · intro hp
    exact (h.settled (by rwa [hframe] at hp)).set hcalls hover

/-- A step that touches neither calls nor waiters. -/
theorem Sound.frame (h : Sound s)
    (hc : t.calls = s.calls) (hs : t.snapshotWaiters = s.snapshotWaiters)
    (hr : t.readinessWaiter = s.readinessWaiter) (hw : t.commandWaiters = s.commandWaiters)
    (hp : t.pump = .returned ↔ s.pump = .returned) : Sound t where
  alone := h.alone.settles (Settles.of_calls hc)
  registered hne := (h.registered (fun hret => hne (hp.mpr hret))).of_waiters hc hs hr hw
  settled hret := (h.settled (hp.mp hret)).settles (Settles.of_calls hc)

theorem waitForSnapshot_sound (h : Sound s) {call minSequence : Nat}
    (hg : Careful bodyFingerprint s (.waitForSnapshot call minSequence)) :
    Sound (s.waitForSnapshot call minSequence).2 := by
  have hwait : (∀ held, s.latest = some held → ¬ minSequence ≤ held.snapshotSequence) →
      Sound { s with
        snapshotWaiters := s.snapshotWaiters ++ [(minSequence, call)]
        calls := s.calls.set call { awaited := .snapshot minSequence, stage := .waiting } } := by
    intro hlow
    have hrunning : s.pump ≠ .returned := by
      intro hret
      obtain ⟨held, hheld, hle⟩ := hg hret
      exact hlow held hheld hle
    refine ⟨h.alone.set rfl (by simp), fun _ => ?_, fun hret => absurd hret hrunning⟩
    refine (h.registered hrunning).set rfl ?_
      (fun _ => List.mem_append_right _ (List.mem_singleton.mpr rfl))
    intro j c _ _ _ hplaced
    cases ha : c.awaited with
    | snapshot m =>
      rw [ha] at hplaced
      exact List.mem_append_left _ hplaced
    | readiness => rw [ha] at hplaced; exact hplaced
    | command rid => rw [ha] at hplaced; exact hplaced
  simp only [waitForSnapshot]
  split
  next hnone => exact hwait (by simp [hnone])
  next held hheld =>
    split
    next => exact h
    next hlow =>
      refine hwait ?_
      intro held' hheld'
      have heq : held = held' := Option.some.inj (hheld.symm.trans hheld')
      exact heq ▸ hlow

theorem waitForReadiness_sound (h : Sound s) {call : Nat}
    (hg : Careful bodyFingerprint s (.waitForReadiness call)) :
    Sound (s.waitForReadiness call).2 := by
  unfold waitForReadiness
  split
  next => exact h
  next hnone =>
    refine ⟨h.alone.set rfl (by simp), fun _ => ?_, fun hret => absurd hret hg.1⟩
    refine (h.registered hg.1).set rfl ?_ (fun _ => rfl)
    intro j c hj hc hu hplaced
    cases ha : c.awaited with
    | snapshot m => rw [ha] at hplaced; exact hplaced
    | readiness => exact absurd hu (hg.2 hnone j c hc ha)
    | command rid => rw [ha] at hplaced; exact hplaced

theorem transmitted_sound (h : Sound s) {call tick : Nat} {requestId kind : String}
    {payload : List UInt8} (hg : s.pump ≠ .returned ∧ ∀ j c, s.calls.get? j = some c →
      c.awaited = .command requestId → c.stage = .returned) :
    Sound (s.transmitted bodyFingerprint call requestId kind payload tick) := by
  have halone : Alone (s.transmitted bodyFingerprint call requestId kind payload tick) := by
    refine h.alone.set rfl ?_
    intro rid hrid _ j d _ hd hda
    cases hrid
    exact hg.2 j d hd hda
  refine ⟨halone, fun _ => ?_, fun hret => absurd hret hg.1⟩
  refine (h.registered hg.1).set rfl ?_ (fun _ => Dict.get?_set_self _ _ _)
  intro j c _ hc hu hplaced
  cases ha : c.awaited with
  | snapshot m => rw [ha] at hplaced; exact hplaced
  | readiness => rw [ha] at hplaced; exact hplaced
  | command rid =>
    rw [ha] at hplaced
    have hne : rid ≠ requestId := by
      rintro rfl
      exact hu.1 (hg.2 j c hc ha)
    show (s.commandWaiters.set requestId call).get? rid = some j
    rwa [Dict.get?_set_of_ne _ _ hne]

theorem sendCommand_sound (h : Sound s) (ho : Offline s) (hshut : Shut s) {call : Nat}
    {draft : Draft} {kind requestId : String}
    (hg : Careful bodyFingerprint s (.sendCommand call draft kind requestId)) :
    Sound (s.sendCommand bodyFingerprint call draft kind requestId).2 := by
  have hcommanding := sendCommand_commanding bodyFingerprint call draft kind requestId ho.ineligible
  have hopen : Admits bodyFingerprint s draft requestId → s.closed = false := fun hadmits => by
    by_contra hc
    exact hshut.refuses (by simpa using hc) draft requestId hadmits
  generalize (s.sendCommand bodyFingerprint call draft kind requestId).2 = t at hcommanding ⊢
  generalize (s.sendCommand bodyFingerprint call draft kind requestId).1 = outs at hcommanding
  cases hcommanding with
  | refused => exact h.frame rfl rfl rfl rfl Iff.rfl
  | retried clears _ => exact transmitted_sound h (hg (hopen ⟨_, _, clears⟩) ⟨_, _, clears⟩)
  | @charged payload snapshot clears _ _ =>
    have hsent : Sound (s.transmitted bodyFingerprint call requestId kind payload snapshot.tick) :=
      transmitted_sound h (hg (hopen ⟨_, _, clears⟩) ⟨_, _, clears⟩)
    exact hsent.frame rfl rfl rfl rfl Iff.rfl

theorem step_sound {l : Event × List SessionOutput} (h : Sound s) (ho : Offline s) (hshut : Shut s)
    (hg : Careful bodyFingerprint s l.1) (hstep : Step bodyFingerprint s l t) : Sound t := by
  obtain ⟨ev, outs⟩ := l
  cases step_enabled hstep with
  | @item item reading consumed =>
    have hsound := consumeEvent_sound h reading item
    rwa [consumed] at hsound
  | @readySent ok sending _ moved =>
    subst moved
    refine h.frame rfl rfl rfl rfl ?_
    cases ok <;> simp [sending]
  | connectionClosed closing _ moved =>
    subst moved
    exact h.frame rfl rfl rfl rfl (by simp [closing])
  | remainingCommandBudget _ moved =>
    obtain ⟨throttle, _, heq⟩ := s.remainingCommandBudget_rolled
    rw [moved, heq]
    exact h.frame rfl rfl rfl rfl Iff.rfl
  | waitForSnapshot _ called =>
    have hsound := waitForSnapshot_sound h hg
    rwa [called] at hsound
  | waitForReadiness _ called =>
    have hsound := waitForReadiness_sound h hg
    rwa [called] at hsound
  | sendCommand _ called =>
    have hsound := sendCommand_sound h ho hshut hg
    rwa [called] at hsound
  | @payloadSent call c known sending _ moved =>
    subst moved
    have hsame : ({ c with stage := .waiting } : Call).Unresolved → c.Unresolved :=
      fun hu => ⟨by simp [sending], hu.2⟩
    refine ⟨h.alone.advance known (by simp [sending]) rfl rfl, fun hp => ?_, fun hp => ?_⟩
    · exact Registered.set (h.registered hp) rfl (fun _ _ _ _ _ hplaced => hplaced)
        (fun hu => h.registered hp call c known (hsame hu))
    · exact (h.settled hp).set rfl (fun hu => h.settled hp call c known (hsame hu))
  | payloadLost known sending finished =>
    have hsound := finish_sound h known (by simp [sending]) (.error .connectionLost)
    rwa [finished] at hsound
  | @timeout call c known waiting _ moved =>
    subst moved
    have hover : ¬ ({ c.settle .cancelled with timedOut := true } : Call).Unresolved :=
      fun hu => c.settle_done (show Future.cancelled ≠ .pending by simp) hu.2
    refine ⟨h.alone.advance known (by simp [waiting]) rfl (c.settle_spec .cancelled).1, fun hp =>
      ?_, fun hp => (h.settled hp).set rfl hover⟩
    exact Registered.set (h.registered hp) rfl (fun _ _ _ _ _ hplaced => hplaced)
      (fun hu => absurd hu hover)
  | @resume call c reply known waiting _ finished =>
    have hsound := finish_sound h known (by simp [waiting]) reply
    rwa [finished] at hsound

theorem init_sound (throttle : CommandThrottle) : Sound (init throttle) where
  alone i j c d rid hc := by simp [init, start] at hc
  registered _ j c hc := by simp [init, start] at hc
  settled hp := by simp [init, start] at hp

theorem run_sound {throttle : CommandThrottle} {hist : List (Event × List SessionOutput)}
    (run : Machine.GuardedRun (fun _ s l => Careful bodyFingerprint s l.1) (Step bodyFingerprint)
      (init throttle) hist s) :
    Sound s ∧ Offline s ∧ Shut s := by
  refine run.invariant (I := fun _ s => Sound s ∧ Offline s ∧ Shut s) ?_ ?_
  · exact ⟨init_sound throttle, init_offline throttle, by simp [Shut, init, start]⟩
  · rintro _ s l t ⟨hsound, ho, hshut⟩ hg hstep
    exact ⟨step_sound hsound ho hshut hg hstep, (step_turn ho hstep).2, step_shut hshut ho hstep⟩

def Event.caller : Event → Option Nat
  | .waitForSnapshot call _ => some call
  | .waitForReadiness call => some call
  | .sendCommand call _ _ _ => some call
  | _ => none

/-- The call fails on the spot or gets the held snapshot: no waiter, no bytes. -/
structure TurnedAway (s : BazaarSession) (call : Nat) (outs : List SessionOutput)
    (t : BazaarSession) : Prop where
  reply : ∃ reply, outs = [.reply call reply] ∧
    ((∃ error, reply = .error error) ∨ ∃ held, s.latest = some held ∧ reply = .ok (.snapshot held))
  calls : t.calls = s.calls
  snapshots : t.snapshotWaiters = s.snapshotWaiters
  readiness : t.readinessWaiter = s.readinessWaiter
  commands : t.commandWaiters = s.commandWaiters

theorem step_turnedAway (h : Offline s) (hshut : Shut s) (hp : s.pump = .returned)
    {ev : Event} {outs : List SessionOutput} {call : Nat} (hcall : ev.caller = some call)
    (hg : Careful bodyFingerprint s ev) (hstep : Step bodyFingerprint s (ev, outs) t) :
    TurnedAway s call outs t := by
  cases step_enabled hstep with
  | waitForSnapshot _ called =>
    obtain ⟨held, hheld, hle⟩ := hg hp
    simp only [waitForSnapshot, hheld, hle, if_true] at called
    cases called
    cases Option.some.inj hcall
    exact ⟨⟨_, rfl, Or.inr ⟨held, hheld, rfl⟩⟩, rfl, rfl, rfl, rfl⟩
  | waitForReadiness => exact absurd hp hg.1
  | @sendCommand caller draft kind requestId _ called =>
    cases Option.some.inj hcall
    have hcommanding :=
      sendCommand_commanding bodyFingerprint call draft kind requestId h.ineligible
    rw [called] at hcommanding
    have hrefused : ¬ Admits bodyFingerprint s draft requestId := fun hadmits =>
      (hg ((Bool.eq_false_or_eq_true s.closed).resolve_left
        (fun hc => hshut.refuses hc draft requestId hadmits))
        hadmits).1 hp
    cases hcommanding with
    | refused => exact ⟨⟨_, rfl, Or.inl ⟨_, rfl⟩⟩, rfl, rfl, rfl, rfl⟩
    | retried clears _ => exact absurd ⟨_, _, clears⟩ hrefused
    | charged clears _ _ => exact absurd ⟨_, _, clears⟩ hrefused
  | item | readySent | connectionClosed | remainingCommandBudget | payloadSent | payloadLost
  | timeout | resume =>
    simp [Event.caller] at hcall

/-- Once the pump has returned nobody is left waiting and every call is turned away, in the runs
whose calls are careful. That no command passes the sentinel is the lifecycle's doing. -/
theorem run_stop {throttle : CommandThrottle} {hist : List (Event × List SessionOutput)}
    (run : Machine.GuardedRun (fun _ s l => Careful bodyFingerprint s l.1) (Step bodyFingerprint)
      (init throttle) hist s) (hp : s.pump = .returned) :
    Settled s ∧
      ∀ ev outs t call, ev.caller = some call →
        Careful bodyFingerprint s ev → Step bodyFingerprint s (ev, outs) t →
        TurnedAway s call outs t := by
  obtain ⟨hsound, hoffline, hshut⟩ := run_sound run
  exact ⟨hsound.settled hp, fun ev outs t call hcall hg hstep =>
    step_turnedAway hoffline hshut hp hcall hg hstep⟩

section Samples

def sampleStation : StationObservation where
  stationId := "P01"
  inventory := ⟨10, 10, 10⟩
  health := 100
  failedOnce := false
  firstFailureTick := none
  lastProduction := 0
  lastUnmetUpkeep := 0
  fullySuppliedTicks := 0
  shortageTicks := 0
  currentShortageStreak := 0
  longestShortageStreak := 0
  producedTotal := 0
  consumedTotal := 0
  unmetTotal := 0
  importedTotal := 0
  exportedTotal := 0
  upkeepPerTick := ⟨1, 1, 1⟩
  specialty := .water

def sampleState (runId : String) (snapshotSequence tick : Nat) : Snapshot where
  runId := runId
  snapshotSequence := snapshotSequence
  worldVersion := snapshotSequence
  tick := tick
  phase := .running
  selfStationId := "P01"
  rules := defaultRules
  directory := []
  me := sampleStation
  offers := []
  advertisements := []
  transactions := []
  requestResults := []
  outcome := none

def delivers (event : ServerEvent) : Event := .item (.message event)

/-- The handshake of a connection, up to the confirmed readiness. -/
def handshake : List Event :=
  [delivers (.state (sampleState "sim" 1 3)), .readySent true,
    delivers (.readiness ⟨"sim", true, 1⟩)]

def sampleWithdraw (requestId : String) : Draft :=
  .complete (.command "2.0" "sim" requestId (.withdraw "offer-1"))

def sentIds (outs : List SessionOutput) : List String :=
  outs.filterMap (fun o =>
    match o with
    | .transmitted requestId _ => some requestId
    | _ => none)

theorem mem_sentIds {requestId : String} {outs : List SessionOutput}
    (h : requestId ∈ sentIds outs) :
    ∃ payload, SessionOutput.transmitted requestId payload ∈ outs := by
  obtain ⟨o, ho, hid⟩ := List.mem_filterMap.mp h
  cases o with
  | transmitted rid payload =>
    cases Option.some.inj hid
    exact ⟨payload, ho⟩
  | ready | charged | reply => simp at hid

end Samples

def careful? (s : BazaarSession) : Event → Bool
  | .waitForSnapshot _ _ => s.pump ≠ .returned
  | .waitForReadiness _ =>
    s.pump ≠ .returned && s.calls.values.all (fun c => c.awaited ≠ .readiness)
  | .sendCommand _ _ _ requestId =>
    s.pump ≠ .returned && s.calls.values.all (fun c => c.awaited ≠ .command requestId)
  | _ => true

theorem careful?_sound {ev : Event} (h : careful? s ev = true) : Careful bodyFingerprint s ev := by
  have hnone : ∀ {a : Awaited}, s.calls.values.all (fun c => c.awaited ≠ a) = true →
      ∀ j c, s.calls.get? j = some c → c.awaited ≠ a := by
    intro a hall j c hc
    simpa using List.all_eq_true.mp hall c (Dict.mem_values_iff.mpr ⟨j, hc⟩)
  cases ev with
  | waitForSnapshot call minSequence =>
    intro hret
    simp [careful?, hret] at h
  | waitForReadiness call =>
    obtain ⟨hp, hall⟩ := Bool.and_eq_true_iff.mp h
    exact ⟨by simpa using hp, fun _ j c hc ha => absurd ha (hnone hall j c hc)⟩
  | sendCommand call draft kind requestId =>
    obtain ⟨hp, hall⟩ := Bool.and_eq_true_iff.mp h
    exact fun _ _ => ⟨by simpa using hp, fun j c hc ha => absurd ha (hnone hall j c hc)⟩
  | item | readySent | connectionClosed | remainingCommandBudget | payloadSent | timeout | resume =>
    trivial

/-- The socket dies under a pending command and a pending wait; both fail, a later wait for the
held state still returns it, and a later command is turned away. -/
theorem run_stop_pending :
    ∃ hist s, Machine.GuardedRun
      (fun _ s l => Careful plainDigest s l.1) (Step plainDigest) (init ⟨1, 0, 0, 0⟩) hist s ∧
      Settled s ∧ s.calls.size = 4 ∧
      (∃ outs t, Step plainDigest s (.waitForSnapshot 4 1, outs) t ∧ TurnedAway s 4 outs t) ∧
      ∃ outs t, Step plainDigest s (.sendCommand 4 (sampleWithdraw "r2") "withdraw" "r2", outs) t ∧
        TurnedAway s 4 outs t := by
  have hall : ((Machine.replayGuarded
      (step? plainDigest) (fun _ s l => careful? s l.1) [] (init ⟨1, 0, 0, 0⟩)
      ([.waitForSnapshot 0 1] ++
      handshake.take 2 ++ [.resume 0, .waitForReadiness 1] ++ handshake.drop 2 ++
        [.resume 1, .sendCommand 2 (sampleWithdraw "r1") "withdraw" "r1", .waitForSnapshot 3 9,
        .item .closedSentinel])).bind (fun r =>
      (step? plainDigest r.2 (.waitForSnapshot 4 1)).bind (fun _ =>
        (step? plainDigest r.2 (.sendCommand 4 (sampleWithdraw "r2") "withdraw" "r2")).map (fun _ =>
          (r.2.pump, r.2.closed, r.2.calls.size, r.2.latest.map Snapshot.snapshotSequence))))) =
      some (.returned, true, 4, some 1) := by decide +kernel
  obtain ⟨⟨hist, s⟩, hreplay, hall⟩ := Option.bind_eq_some_iff.mp hall
  obtain ⟨⟨outs, t⟩, hwait, hall⟩ := Option.bind_eq_some_iff.mp hall
  obtain ⟨⟨outs', t'⟩, hsend, hall⟩ := Option.map_eq_some_iff.mp hall
  simp only [Prod.mk.injEq] at hall
  obtain ⟨hp, hclosed, hsize, hheld⟩ := hall
  obtain ⟨held, hlatest, hsequence⟩ := Option.map_eq_some_iff.mp hheld
  have run : Machine.GuardedRun (fun _ s l => Careful plainDigest s l.1) (Step plainDigest)
      (init ⟨1, 0, 0, 0⟩) hist s :=
    Machine.guardedRun_of_replay (fun _ _ _ h => careful?_sound h) Machine.GuardedRun.start hreplay
  obtain ⟨hsettled, hturned⟩ := run_stop run hp
  have hcareful : Careful plainDigest s (.waitForSnapshot 4 1) := fun _ => ⟨held, hlatest, by omega⟩
  have hfree : Careful plainDigest s (.sendCommand 4 (sampleWithdraw "r2") "withdraw" "r2") :=
    fun hopen => by simp [hclosed] at hopen
  exact ⟨hist, s, run, hsettled, hsize, ⟨outs, t, hwait, hturned _ outs t 4 rfl hcareful hwait⟩,
    outs', t', hsend, hturned _ outs' t' 4 rfl hfree hsend⟩

/-- Two ways past the stop. After the sentinel a waiter for the first state is entered
that nothing can resolve; after a state of another run a command still goes out. -/
theorem pump_stop_misses :
    (∃ hist s, Machine.Run (Step plainDigest) (init ⟨1, 0, 0, 0⟩) hist s ∧
      s.pump = .returned ∧ ¬ Settled s) ∧
      ∃ hist s outs t payload, Machine.Run (Step plainDigest) (init ⟨1, 0, 0, 0⟩) hist s ∧
        s.pump = .returned ∧
        Step plainDigest s (.sendCommand 0 (sampleWithdraw "r1") "withdraw" "r1", outs) t ∧
        SessionOutput.transmitted "r1" payload ∈ outs := by
  constructor
  · have hall : (Machine.replay (step? plainDigest) (init ⟨1, 0, 0, 0⟩)
        [.item .closedSentinel, .waitForSnapshot 0 1]).map (fun r => (r.2.pump, r.2.calls.get? 0)) =
        some (.returned, some { awaited := .snapshot 1, stage := .waiting }) := by decide +kernel
    obtain ⟨⟨hist, s⟩, hreplay, hall⟩ := Option.map_eq_some_iff.mp hall
    obtain ⟨hp, hcall⟩ := Prod.mk.inj hall
    refine ⟨hist, s, Machine.run_of_replay hreplay, hp, ?_⟩
    intro hsettled
    exact hsettled 0 _ hcall ⟨by simp, rfl⟩
  · have hall : ((Machine.replay (step? plainDigest) (init ⟨1, 0, 0, 0⟩)
        (handshake ++ [delivers (.state (sampleState "other" 2 4))])).bind (fun r =>
          (step? plainDigest r.2 (.sendCommand 0 (sampleWithdraw "r1") "withdraw" "r1")).map
              (fun f =>
            (r.2.pump, sentIds f.1)))) = some (.returned, ["r1"]) := by decide +kernel
    obtain ⟨⟨hist, s⟩, hreplay, hall⟩ := Option.bind_eq_some_iff.mp hall
    obtain ⟨⟨outs, t⟩, hstep, hall⟩ := Option.map_eq_some_iff.mp hall
    obtain ⟨hp, hsent⟩ := Prod.mk.inj hall
    have hmem : "r1" ∈ sentIds outs := by
      show "r1" ∈ sentIds (outs, t).1
      simp [hsent]
    obtain ⟨payload, hpayload⟩ := mem_sentIds hmem
    exact ⟨hist, s, outs, t, payload, Machine.run_of_replay hreplay, hp, hstep, hpayload⟩

end BazaarSession

end SpaceportBazaar
