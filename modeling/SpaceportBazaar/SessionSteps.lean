import SpaceportBazaar.Session

namespace SpaceportBazaar

namespace BazaarSession

variable {s t : BazaarSession} {call j : Nat} {c : Call} {future : Future} {snapshot : Snapshot}

theorem Call.settle_spec (c : Call) (future : Future) :
    (c.settle future).awaited = c.awaited ∧ (c.settle future).stage = c.stage ∧
      ((c.settle future).future = .pending → c.future = .pending) := by
  unfold Call.settle
  split
  next h => exact ⟨rfl, rfl, fun _ => h⟩
  next => exact ⟨rfl, rfl, id⟩

theorem Call.settle_done (c : Call) (hf : future ≠ .pending) :
    (c.settle future).future ≠ .pending := by
  unfold Call.settle
  split
  next => exact hf
  next h => exact h

/-- From one state to the other, calls can only have had their futures settled. -/
def Settles (s t : BazaarSession) : Prop :=
  ∀ j c', t.calls.get? j = some c' → ∃ c, s.calls.get? j = some c ∧
    c'.awaited = c.awaited ∧ c'.stage = c.stage ∧ (c'.future = .pending → c.future = .pending)

theorem Settles.of_calls (h : t.calls = s.calls) : Settles s t :=
  fun _ c' hc => ⟨c', by rw [← h]; exact hc, rfl, rfl, id⟩

theorem Settles.refl (s : BazaarSession) : Settles s s := Settles.of_calls rfl

theorem Settles.trans {u : BazaarSession} (h : Settles s t) (h' : Settles t u) : Settles s u := by
  intro j c'' hc
  obtain ⟨c', hc', ha', hs', hp'⟩ := h' j c'' hc
  obtain ⟨c, hc, ha, hs, hp⟩ := h j c' hc'
  exact ⟨c, hc, ha'.trans ha, hs'.trans hs, fun hpend => hp (hp' hpend)⟩

/-- The future of a call is settled, or the call is not there. -/
def Done (s : BazaarSession) (call : Nat) : Prop :=
  ∀ c, s.calls.get? call = some c → c.future ≠ .pending

theorem Done.mono (h : Settles s t) (hd : Done s call) : Done t call := by
  intro c' hc'
  obtain ⟨c, hc, _, _, hp⟩ := h call c' hc'
  exact fun hpend => hd c hc (hp hpend)

theorem isDone_iff : s.isDone call = true ↔ Done s call := by
  unfold isDone Done
  cases h : s.calls.get? call with
  | none => simp
  | some c => simp

theorem settle_settles (s : BazaarSession) (call : Nat) (future : Future) :
    Settles s (s.settle call future) := by
  intro j c' hc
  simp only [settle, Dict.get?_update] at hc
  split at hc
  next hj =>
    obtain ⟨c, hs, rfl⟩ := Option.map_eq_some_iff.mp hc
    exact ⟨c, hs, c.settle_spec future⟩
  next => exact ⟨c', hc, rfl, rfl, id⟩

theorem settle_done (s : BazaarSession) (call : Nat) (hf : future ≠ .pending) :
    Done (s.settle call future) call := by
  intro c' hc
  simp only [settle, Dict.get?_update, if_true] at hc
  obtain ⟨c, _, rfl⟩ := Option.map_eq_some_iff.mp hc
  exact c.settle_done hf

theorem settleAll_settles (s : BazaarSession) (calls : List Nat) (future : Future) :
    Settles s (s.settleAll calls future) := by
  induction calls generalizing s with
  | nil => exact Settles.refl s
  | cons call calls ih => exact (settle_settles s call future).trans (ih _)

theorem settleAll_done (s : BazaarSession) (calls : List Nat) (hf : future ≠ .pending) :
    ∀ j ∈ calls, Done (s.settleAll calls future) j := by
  induction calls generalizing s with
  | nil => simp
  | cons call calls ih =>
    intro j hj
    rcases List.mem_cons.mp hj with rfl | hj
    · exact (settle_done s j hf).mono (settleAll_settles _ calls future)
    · exact ih (s.settle call future) j hj

theorem settleAll_frame (s : BazaarSession) (calls : List Nat) (future : Future) :
    ∃ table, s.settleAll calls future = { s with calls := table } := by
  induction calls generalizing s with
  | nil => exact ⟨s.calls, rfl⟩
  | cons call calls ih => exact ih (s.settle call future)

/-- The waiters fail in three rounds: for a snapshot, for a command, for the readiness. -/
theorem failAllWaiters_rounds (s : BazaarSession) (error : SessionError) :
    ∃ t₁ t₂, s.settleAll (s.snapshotWaiters.map Prod.snd) (.exception error) =
        { s with calls := t₁ } ∧
      settleAll { s with calls := t₁, snapshotWaiters := [] } s.commandWaiters.values
        (.exception error) = { s with calls := t₂, snapshotWaiters := [] } ∧
      s.failAllWaiters error =
        settleAll { s with calls := t₂, snapshotWaiters := [], commandWaiters := Dict.empty }
          s.readinessWaiter.toList (.exception error) := by
  obtain ⟨t₁, h₁⟩ := s.settleAll_frame (s.snapshotWaiters.map Prod.snd) (.exception error)
  obtain ⟨t₂, h₂⟩ := settleAll_frame
    { s with calls := t₁, snapshotWaiters := [] } s.commandWaiters.values (.exception error)
  refine ⟨t₁, t₂, h₁, h₂, ?_⟩
  simp only [failAllWaiters, h₁, h₂]

theorem failAllWaiters_frame (s : BazaarSession) (error : SessionError) :
    ∃ table, s.failAllWaiters error =
      { s with snapshotWaiters := [], commandWaiters := Dict.empty, calls := table } := by
  obtain ⟨table, h₁⟩ := s.settleAll_frame (s.snapshotWaiters.map Prod.snd) (.exception error)
  obtain ⟨table', h₂⟩ :=
    settleAll_frame { s with calls := table, snapshotWaiters := [] } s.commandWaiters.values
    (.exception error)
  obtain ⟨table'', h₃⟩ := settleAll_frame
    { s with calls := table', snapshotWaiters := [], commandWaiters := Dict.empty }
    s.readinessWaiter.toList (.exception error)
  refine ⟨table'', ?_⟩
  simp only [failAllWaiters, h₁, h₂]
  exact h₃

section Failing

variable (s) (error : SessionError)

@[simp] theorem failAllWaiters_lifecycle : (s.failAllWaiters error).lifecycle = s.lifecycle := by
  obtain ⟨_, heq⟩ := s.failAllWaiters_frame error
  rw [heq]

@[simp] theorem failAllWaiters_tracker : (s.failAllWaiters error).tracker = s.tracker := by
  obtain ⟨_, heq⟩ := s.failAllWaiters_frame error
  rw [heq]

@[simp] theorem failAllWaiters_throttle : (s.failAllWaiters error).throttle = s.throttle := by
  obtain ⟨_, heq⟩ := s.failAllWaiters_frame error
  rw [heq]

@[simp] theorem failAllWaiters_connected : (s.failAllWaiters error).connected = s.connected := by
  obtain ⟨_, heq⟩ := s.failAllWaiters_frame error
  rw [heq]

@[simp] theorem failAllWaiters_latest : (s.failAllWaiters error).latest = s.latest := by
  obtain ⟨_, heq⟩ := s.failAllWaiters_frame error
  rw [heq]

@[simp] theorem failAllWaiters_pump : (s.failAllWaiters error).pump = s.pump := by
  obtain ⟨_, heq⟩ := s.failAllWaiters_frame error
  rw [heq]

end Failing

/-- Failing all waiters settles every call that stands on a waiter list. -/
theorem failAllWaiters_spec (s : BazaarSession) (error : SessionError) :
    Settles s (s.failAllWaiters error) ∧
      (∀ w ∈ s.snapshotWaiters, Done (s.failAllWaiters error) w.2) ∧
      (∀ j ∈ s.commandWaiters.values, Done (s.failAllWaiters error) j) ∧
      (∀ j, s.readinessWaiter = some j → Done (s.failAllWaiters error) j) := by
  have hne : Future.exception error ≠ .pending := by simp
  obtain ⟨t₁, t₂, h₁, h₂, heq⟩ := s.failAllWaiters_rounds error
  have hs₁ := settleAll_settles s (s.snapshotWaiters.map Prod.snd) (.exception error)
  have hd₁ := settleAll_done s (s.snapshotWaiters.map Prod.snd) hne
  rw [h₁] at hs₁ hd₁
  have hs₂ := settleAll_settles
    { s with calls := t₁, snapshotWaiters := [] } s.commandWaiters.values (.exception error)
  have hd₂ :=
    settleAll_done { s with calls := t₁, snapshotWaiters := [] } s.commandWaiters.values hne
  rw [h₂] at hs₂ hd₂
  have hs₃ :=
    settleAll_settles { s with calls := t₂, snapshotWaiters := [], commandWaiters := Dict.empty }
    s.readinessWaiter.toList (.exception error)
  have hd₃ :=
    settleAll_done { s with calls := t₂, snapshotWaiters := [], commandWaiters := Dict.empty }
    s.readinessWaiter.toList hne
  rw [heq]
  refine ⟨(hs₁.trans hs₂).trans hs₃, ?_, ?_, ?_⟩
  · intro w hw
    have hd : Done { s with calls := t₁ } w.2 := hd₁ w.2 (List.mem_map_of_mem hw)
    exact (hd.mono hs₂).mono hs₃
  · intro j hj
    exact Done.mono hs₃ (hd₂ j hj)
  · intro j hj
    exact hd₃ j (by simp [hj])

theorem resolveCommand_frame (s : BazaarSession)
    (requestId : String) (outcome : CommandOutcome) : ∃ waiters table, s.resolveCommand requestId
      outcome = { s with tracker := s.tracker.resolve requestId, commandWaiters := waiters, calls :=
      table } := by
  simp only [resolveCommand]
  split
  next => exact ⟨_, _, rfl⟩
  next => exact ⟨_, _, rfl⟩

/-- A command waiter leaves the table with its future settled. -/
theorem resolveCommand_spec (s : BazaarSession) (requestId : String) (outcome : CommandOutcome) :
    Settles s (s.resolveCommand requestId outcome) ∧
      ∀ rid j, s.commandWaiters.get? rid = some j →
        Done (s.resolveCommand requestId outcome) j ∨
          (s.resolveCommand requestId outcome).commandWaiters.get? rid = some j := by
  simp only [resolveCommand]
  split
  next hnone => exact ⟨Settles.of_calls rfl, fun rid j hj => Or.inr hj⟩
  next call hcall =>
    refine ⟨?_, ?_⟩
    · exact (Settles.of_calls rfl).trans (settle_settles _ call _)
    · intro rid j hj
      by_cases hrid : rid = requestId
      · subst hrid
        have hjc : call = j := Option.some.inj (hcall.symm.trans hj)
        subst hjc
        exact Or.inl (settle_done _ _ (by simp))
      · exact Or.inr (by simpa [settle, Dict.get?_erase_of_ne _ hrid] using hj)

/-- What one result does to the throttle. -/
def honour (throttle : CommandThrottle) (result : CommandResult) : CommandThrottle :=
  if result.code = .rateLimited then throttle.blockUntil result.retryAfterTick else throttle

theorem onResult_eq (s : BazaarSession) (result : CommandResult) :
    s.onResult result = { s with throttle := honour s.throttle result
      }.resolveCommand result.requestId { requestId := result.requestId, result := some result
      } := by
  unfold onResult honour
  split <;> rfl

/-- Routing an event keeps everything but the fields named here. -/
theorem onResult_frame (s : BazaarSession) (result : CommandResult) :
    ∃ waiters table, s.onResult result = { s with
      throttle := honour s.throttle result
      tracker := s.tracker.resolve result.requestId
      commandWaiters := waiters
      calls := table } := by
  rw [onResult_eq]
  exact resolveCommand_frame _ _ _

theorem onResults_frame (s : BazaarSession) (results : List CommandResult) :
    ∃ opened waiters table, results.foldl onResult s = { s with
      throttle := results.foldl honour s.throttle
      tracker := { s.tracker with opened := opened }
      commandWaiters := waiters
      calls := table } := by
  induction results generalizing s with
  | nil => exact ⟨_, _, _, rfl⟩
  | cons result results ih =>
    obtain ⟨waiters, table, h⟩ := s.onResult_frame result
    obtain ⟨opened, waiters', table', h'⟩ := ih (s.onResult result)
    refine ⟨opened, waiters', table', ?_⟩
    simp only [List.foldl_cons]
    rw [h', h]
    rfl

theorem wakeSnapshots_frame (snapshot : Snapshot) (waiters : List (Nat × Nat)) (s : BazaarSession) :
    ∃ table, (wakeSnapshots snapshot waiters s).2 = { s with calls := table } := by
  induction waiters generalizing s with
  | nil => exact ⟨s.calls, rfl⟩
  | cons w waiters ih =>
    simp only [wakeSnapshots]
    split
    next => exact ih _
    next =>
      split
      next => exact ih s
      next => exact ih s

/-- A snapshot waiter leaves the list only with its future settled. -/
theorem wakeSnapshots_spec (snapshot : Snapshot) (waiters : List (Nat × Nat)) (s : BazaarSession) :
    Settles s (wakeSnapshots snapshot waiters s).2 ∧
      ∀ w ∈ waiters, Done (wakeSnapshots snapshot waiters s).2 w.2 ∨
      w ∈ (wakeSnapshots snapshot waiters s).1 := by
  induction waiters generalizing s with
  | nil => exact ⟨Settles.refl s, by simp⟩
  | cons w waiters ih =>
    simp only [wakeSnapshots]
    split
    next htarget =>
      obtain ⟨hs, hd⟩ := ih (s.settle w.2 (.result (.snapshot snapshot)))
      refine ⟨(settle_settles s w.2 _).trans hs, ?_⟩
      intro v hv
      rcases List.mem_cons.mp hv with rfl | hv
      · exact Or.inl ((settle_done s v.2 (by simp)).mono hs)
      · exact hd v hv
    next htarget =>
      obtain ⟨hs, hd⟩ := ih s
      split
      next hdone =>
        refine ⟨hs, ?_⟩
        intro v hv
        rcases List.mem_cons.mp hv with rfl | hv
        · exact Or.inl ((isDone_iff.mp hdone).mono hs)
        · exact hd v hv
      next hpending =>
        refine ⟨hs, ?_⟩
        intro v hv
        rcases List.mem_cons.mp hv with rfl | hv
        · exact Or.inr List.mem_cons_self
        · exact (hd v hv).imp id (List.mem_cons_of_mem _)

/-- A snapshot is taken when it is newer than the held one. -/
def Newer (latest : Option Snapshot) (snapshot : Snapshot) : Prop :=
  ∀ held, latest = some held → held.snapshotSequence < snapshot.snapshotSequence

theorem onSnapshot_stale (h : ¬ Newer s.latest snapshot) : s.onSnapshot snapshot = s := by
  unfold onSnapshot
  cases hl : s.latest with
  | none => exact absurd (fun held hh => by simp [hl] at hh) h
  | some held =>
    have hle : snapshot.snapshotSequence ≤ held.snapshotSequence := by
      by_contra hlt
      exact h (fun held' hh => by
        have : held = held' := Option.some.inj (hl.symm.trans hh)
        subst this
        omega)
    simp [hle]

theorem onSnapshot_newer (h : Newer s.latest snapshot) :
    s.onSnapshot snapshot =
      snapshot.requestResults.foldl onResult
        { (wakeSnapshots snapshot s.snapshotWaiters { s with
            latest := some snapshot
            throttle := s.throttle.updateLimit snapshot.rules.newCommandsPerStationPerTick }).2 with
          snapshotWaiters := (wakeSnapshots snapshot s.snapshotWaiters { s with
            latest := some snapshot
            throttle :=
              s.throttle.updateLimit snapshot.rules.newCommandsPerStationPerTick }).1 } := by
  unfold onSnapshot
  rw [if_neg]
  cases hl : s.latest with
  | none => simp
  | some held =>
    have := h held hl
    simp only [Option.map_some, Option.getD_some, decide_eq_true_eq]
    omega

theorem onSnapshot_frame (h : Newer s.latest snapshot) :
    ∃ opened snapshots waiters table, s.onSnapshot snapshot = { s with
      latest := some snapshot
      throttle := snapshot.requestResults.foldl honour
        (s.throttle.updateLimit snapshot.rules.newCommandsPerStationPerTick)
      tracker := { s.tracker with opened := opened }
      snapshotWaiters := snapshots
      commandWaiters := waiters
      calls := table } := by
  rw [onSnapshot_newer h]
  obtain ⟨table, hwake⟩ := wakeSnapshots_frame snapshot s.snapshotWaiters { s with
    latest := some snapshot
    throttle := s.throttle.updateLimit snapshot.rules.newCommandsPerStationPerTick }
  rw [hwake]
  obtain ⟨opened, waiters, table', hresults⟩ := onResults_frame { s with
    latest := some snapshot
    throttle := s.throttle.updateLimit snapshot.rules.newCommandsPerStationPerTick
    calls := table
    snapshotWaiters := (wakeSnapshots snapshot s.snapshotWaiters { s with
      latest := some snapshot
      throttle := s.throttle.updateLimit snapshot.rules.newCommandsPerStationPerTick }).1 }
      snapshot.requestResults
  exact ⟨_, _, _, _, hresults⟩

/-- What routing an event makes of the held snapshot and of the throttle. -/
inductive View (latest : Option Snapshot) (throttle : CommandThrottle) :
    ServerEvent → Option Snapshot → CommandThrottle → Prop
  | stale {snapshot : Snapshot} (stale : ¬ Newer latest snapshot) :
    View latest throttle (.state snapshot) latest throttle
  | newer {snapshot : Snapshot} (newer : Newer latest snapshot) :
    View latest throttle (.state snapshot) (some snapshot)
      (snapshot.requestResults.foldl
        honour (throttle.updateLimit snapshot.rules.newCommandsPerStationPerTick))
  | result (result) : View latest throttle (.result result) latest (honour throttle result)
  | readiness (ack) : View latest throttle (.readiness ack) latest throttle
  | protocolError (event) : View latest throttle (.protocolError event) latest throttle

theorem route_view (s : BazaarSession) (event : ServerEvent) :
    View s.latest s.throttle event (s.route event).latest (s.route event).throttle := by
  cases event with
  | state snapshot =>
    by_cases h : Newer s.latest snapshot
    · obtain ⟨_, _, _, _, heq⟩ := onSnapshot_frame h
      simp only [route, heq]
      exact .newer h
    · simp only [route, onSnapshot_stale h]
      exact .stale h
  | result result =>
    obtain ⟨_, _, heq⟩ := s.onResult_frame result
    simp only [route, heq]
    exact .result result
  | readiness ack =>
    obtain ⟨_, heq⟩ := settleAll_frame { s with readiness := some ack } s.readinessWaiter.toList
      (.result (.readiness ack))
    simp only [route, resolveReadiness, heq]
    exact .readiness ack
  | protocolError event =>
    simp only [route, onProtocolError]
    split
    next => exact .protocolError event
    next requestId _ =>
      obtain ⟨_, _, heq⟩ :=
        s.resolveCommand_frame requestId { requestId := requestId, error := some event }
      simp only [heq]
      exact .protocolError event

/-- What routing an event leaves alone. -/
theorem route_frame (s : BazaarSession) (event : ServerEvent) :
    ∃ throttle latest readiness opened snapshots waiters table, s.route event = { s with
      throttle := throttle
      latest := latest
      readiness := readiness
      tracker := { s.tracker with opened := opened }
      snapshotWaiters := snapshots
      commandWaiters := waiters
      calls := table } := by
  cases event with
  | state snapshot =>
    by_cases h : Newer s.latest snapshot
    · obtain ⟨opened, snapshots, waiters, table, heq⟩ := onSnapshot_frame h
      exact ⟨_, _, s.readiness, opened, snapshots, waiters, table, heq⟩
    · exact ⟨s.throttle, s.latest, s.readiness, s.tracker.opened, _, _, _, onSnapshot_stale h⟩
  | result result =>
    obtain ⟨waiters, table, heq⟩ := s.onResult_frame result
    exact ⟨_, s.latest, s.readiness, _, s.snapshotWaiters, waiters, table, heq⟩
  | readiness ack =>
    obtain ⟨table, heq⟩ := settleAll_frame { s with readiness := some ack } s.readinessWaiter.toList
      (.result (.readiness ack))
    exact ⟨s.throttle, s.latest, some ack, s.tracker.opened, s.snapshotWaiters,
      s.commandWaiters, table, heq⟩
  | protocolError event =>
    simp only [route, onProtocolError]
    split
    next => exact ⟨s.throttle, s.latest, s.readiness, s.tracker.opened, s.snapshotWaiters,
      s.commandWaiters, s.calls, rfl⟩
    next requestId _ =>
      obtain ⟨waiters, table, heq⟩ := s.resolveCommand_frame requestId
        { requestId := requestId, error := some event }
      exact ⟨s.throttle, s.latest, s.readiness, _, s.snapshotWaiters, waiters, table, heq⟩

section Sending

variable {bodyFingerprint : List UInt8 → String}
  {draft : Draft} {kind requestId : String} {payload : List UInt8}

/-- All that `send_command` checks before it hands bytes over. -/
structure Clears (bodyFingerprint : List UInt8 → String) (s : BazaarSession) (draft : Draft)
    (requestId : String) (payload : List UInt8) (snapshot : Snapshot) : Prop where
  encoded : s.encode draft = .ok payload
  free : s.commandWaiters.get? requestId = none
  eligible : s.eligible = some snapshot
  slot : s.tracker.isExactRetry requestId (bodyFingerprint payload) = true ∨
    0 < (s.throttle.remaining snapshot.tick).1
  unused : s.tracker.isExactRetry requestId (bodyFingerprint payload) = true ∨
    s.tracker.sent.get? requestId = none
  connected : s.connected = true

def Admits (bodyFingerprint : List UInt8 → String)
    (s : BazaarSession) (draft : Draft) (requestId : String) : Prop :=
  ∃ payload snapshot, Clears bodyFingerprint s draft requestId payload snapshot

theorem eligible_eq_some_iff :
    s.eligible = some snapshot ↔
      s.latest = some snapshot ∧ s.lifecycle.canSendTradingCommands = true ∧
      snapshot.me.failedOnce = false ∧ snapshot.tick < snapshot.rules.durationTicks := by
  unfold eligible
  split
  next hnone => simp [hnone]
  next held hheld =>
    by_cases hstop : (!s.lifecycle.canSendTradingCommands || held.me.failedOnce ||
        held.rules.durationTicks ≤ held.tick) = true
    · rw [if_pos hstop]
      simp only [reduceCtorEq, hheld, Option.some.injEq, false_iff]
      rintro ⟨rfl, hcan, hfailed, htick⟩
      have : ¬ held.rules.durationTicks ≤ held.tick := by omega
      simp [hcan, hfailed, this] at hstop
    · rw [if_neg hstop]
      simp only [Option.some.injEq, hheld]
      refine ⟨?_, fun h => h.1⟩
      rintro rfl
      simp only [Bool.or_eq_true, Bool.not_eq_true', decide_eq_true_eq, not_or, Bool.not_eq_false,
        Bool.not_eq_true, not_le] at hstop
      exact ⟨rfl, hstop.1.1, hstop.1.2, hstop.2⟩

/-- The throttle after a refused call: as before, or rolled to the newest tick. -/
def Rolled (s : BazaarSession) (throttle : CommandThrottle) : Prop :=
  throttle = s.throttle ∨ ∃ snapshot, s.eligible = some snapshot ∧
    throttle = s.throttle.rollTo snapshot.tick

theorem remainingCommandBudget_rolled (s : BazaarSession) :
    ∃ throttle, Rolled s throttle ∧
    s.remainingCommandBudget.2 = { s with throttle := throttle } := by
  unfold remainingCommandBudget
  split
  next => exact ⟨s.throttle, Or.inl rfl, rfl⟩
  next snapshot he => exact ⟨_, Or.inr ⟨snapshot, he, CommandThrottle.remaining_snd _ _⟩, rfl⟩

/-- The state of a call that transmitted. -/
def transmitted (bodyFingerprint : List UInt8 → String) (s : BazaarSession) (call : Nat)
    (requestId kind : String) (payload : List UInt8) (tick : Nat) : BazaarSession :=
  { s with
    tracker := {
      sent := s.tracker.sent.set requestId ⟨requestId, bodyFingerprint payload, kind, tick⟩
      opened := insert requestId s.tracker.opened }
    calls := s.calls.set call { awaited := .command requestId, stage := .sending }
    commandWaiters := s.commandWaiters.set requestId call }

/-- Everything `send_command` can do before its first `await`. -/
inductive Commanding (bodyFingerprint : List UInt8 → String)
    (s : BazaarSession) (call : Nat) (draft : Draft) (kind requestId : String) :
    List SessionOutput → BazaarSession → Prop
  | refused {error throttle} (not : ¬ Admits bodyFingerprint s draft requestId)
    (rolled : Rolled s throttle) :
    Commanding bodyFingerprint s call draft kind requestId [.reply call (.error error)]
      { s with throttle := throttle }
  | retried {payload : List UInt8} {snapshot : Snapshot}
    (clears : Clears bodyFingerprint s draft requestId payload snapshot)
    (retry : s.tracker.isExactRetry requestId (bodyFingerprint payload) = true) :
    Commanding bodyFingerprint s call draft kind requestId [.transmitted requestId payload]
      (s.transmitted bodyFingerprint call requestId kind payload snapshot.tick)
  | charged {payload : List UInt8} {snapshot : Snapshot}
    (clears : Clears bodyFingerprint s draft requestId payload snapshot)
    (new : s.tracker.sent.get? requestId = none)
    (slot : 0 < (s.throttle.remaining snapshot.tick).1) :
    Commanding bodyFingerprint s call draft kind requestId
      [.charged requestId snapshot.tick, .transmitted requestId payload]
      { s.transmitted bodyFingerprint call requestId kind payload snapshot.tick with
        throttle := s.throttle.recordSent snapshot.tick }

theorem checkBudget_retry (s : BazaarSession) : s.checkBudget true = (true, s) := rfl

theorem checkBudget_new (h : s.eligible = some snapshot) :
    s.checkBudget false = (decide (0 < (s.throttle.remaining snapshot.tick).1),
      { s with throttle := s.throttle.rollTo snapshot.tick }) := by
  simp [checkBudget, remainingCommandBudget, h]

theorem transmit_connected (h : s.connected = true) (retry : Bool) (tick : Nat) :
    s.transmit call requestId payload retry tick =
      ((if retry then [] else [SessionOutput.charged requestId tick]) ++
        [.transmitted requestId payload],
        { s with
          calls := s.calls.set call { awaited := .command requestId, stage := .sending }
          commandWaiters := s.commandWaiters.set requestId call
          throttle := if retry then s.throttle else s.throttle.recordSent tick }) := by
  cases retry <;> simp [transmit, charge, h]

theorem recordSent_rollTo (t : CommandThrottle) (tick : Nat) :
    (t.rollTo tick).recordSent tick = t.recordSent tick := by
  simp [CommandThrottle.recordSent]

/-- What `send_command` does, provided a session without a socket is not eligible. -/
theorem sendCommand_commanding (bodyFingerprint : List UInt8 → String) (call : Nat) (draft : Draft)
    (kind requestId : String) (h : s.connected = false → s.eligible = none) :
    Commanding bodyFingerprint s call draft kind requestId
      (s.sendCommand bodyFingerprint call draft kind requestId).1
      (s.sendCommand bodyFingerprint call draft kind requestId).2 := by
  unfold sendCommand
  split
  next error herror =>
    refine .refused ?_ (Or.inl rfl)
    rintro ⟨payload, snapshot, clears⟩
    simp [clears.encoded] at herror
  next payload hpayload =>
    simp only
    split
    next hpending =>
      refine .refused ?_ (Or.inl rfl)
      rintro ⟨_, snapshot, clears⟩
      simp [Dict.contains, clears.free] at hpending
    next hfree =>
      have hfree : s.commandWaiters.get? requestId = none := by simpa [Dict.contains] using hfree
      split
      next hnone =>
        refine .refused ?_ (Or.inl rfl)
        rintro ⟨_, snapshot, clears⟩
        simp [clears.eligible] at hnone
      next snapshot hsnapshot =>
        have hconnected : s.connected = true := by
          by_contra hdown
          simp [h (by simpa using hdown)] at hsnapshot
        cases hretry : s.tracker.isExactRetry requestId (bodyFingerprint payload) with
        | true =>
          rw [checkBudget_retry]
          simp only [Bool.not_true, Bool.false_eq_true, if_false]
          split
          next error herror =>
            exact absurd hretry (PendingRequestTracker.register_refused herror).2
          next tracker htracker =>
            obtain ⟨_, rfl⟩ := PendingRequestTracker.register_eq_ok_iff.mp htracker
            rw [transmit_connected]
            · exact .retried
                ⟨hpayload, hfree, hsnapshot, Or.inl hretry, Or.inl hretry, hconnected⟩ hretry
            · exact hconnected
        | false =>
          rw [checkBudget_new hsnapshot]
          simp only [Bool.not_eq_true', decide_eq_false_iff_not]
          split
          next hslot =>
            refine .refused ?_ (Or.inr ⟨snapshot, hsnapshot, rfl⟩)
            rintro ⟨payload', snapshot', clears⟩
            have hp : payload = payload' := Except.ok.inj (hpayload.symm.trans clears.encoded)
            have hs : snapshot = snapshot' := Option.some.inj (hsnapshot.symm.trans clears.eligible)
            subst hp hs
            exact hslot (clears.slot.resolve_left (by simp [hretry]))
          next hslot =>
            split
            next error herror =>
              refine .refused ?_ (Or.inr ⟨snapshot, hsnapshot, rfl⟩)
              rintro ⟨payload', snapshot', clears⟩
              have hp : payload = payload' := Except.ok.inj (hpayload.symm.trans clears.encoded)
              subst hp
              obtain ⟨hused, hdiffers⟩ := PendingRequestTracker.register_refused herror
              exact hused (clears.unused.resolve_left hdiffers)
            next tracker htracker =>
              obtain ⟨hnew, rfl⟩ := PendingRequestTracker.register_eq_ok_iff.mp htracker
              have hnew := hnew.resolve_right (by simp [hretry])
              have hslot : 0 < (s.throttle.remaining snapshot.tick).1 := by omega
              rw [transmit_connected]
              · simp only [Bool.false_eq_true, if_false, recordSent_rollTo]
                exact .charged
                  ⟨hpayload, hfree, hsnapshot, Or.inr hslot, Or.inr hnew, hconnected⟩ hnew hslot
              · exact hconnected

end Sending

section Turns

variable {bodyFingerprint : List UInt8 → String} {outs : List SessionOutput} {ev : Event}

/-- The pump is alive: it has neither returned nor died of an exception. -/
def Running (s : BazaarSession) : Prop := s.pump ≠ .returned ∧ s.pump ≠ .crashed

/-- Once the socket is gone or going, the lifecycle is over. -/
def Offline (s : BazaarSession) : Prop := s.connected = false ∨ s.pump = .closing → s.lifecycle.Over

theorem Offline.ineligible (h : Offline s) (hc : s.connected = false) : s.eligible = none := by
  by_contra hne
  obtain ⟨snapshot, hs⟩ := Option.ne_none_iff_exists'.mp hne
  have hcan := (eligible_eq_some_iff.mp hs).2.1
  simp [(h (Or.inl hc)).cannotSend] at hcan

def readies : Option Directive → List SessionOutput
  | some (.sendReady runId snapshotSequence) => [.ready runId snapshotSequence]
  | _ => []

/-- An event that brings nothing from the server. -/
def Event.Plain (ev : Event) : Prop := ∀ item, ev = .item item → item = .undecodable

/-- When an event can happen, and what the session makes of it. -/
inductive Enabled (bodyFingerprint : List UInt8 → String) (s : BazaarSession)
    (outs : List SessionOutput) (t : BazaarSession) : Event → Prop
  | item {item : Item} (reading : s.pump = .reading) (consumed : s.consumeEvent item = (outs, t)) :
    Enabled bodyFingerprint s outs t (.item item)
  | readySent {ok : Bool} (sending : s.pump = .sendingReady) (silent : outs = [])
    (moved : t = { s with pump := if ok then .reading else .crashed }) :
    Enabled bodyFingerprint s outs t (.readySent ok)
  | connectionClosed (closing : s.pump = .closing) (silent : outs = [])
    (moved : t = { s with connected := false, pump := .reading }) :
    Enabled bodyFingerprint s outs t .connectionClosed
  | remainingCommandBudget (silent : outs = []) (moved : t = s.remainingCommandBudget.2) :
    Enabled bodyFingerprint s outs t .remainingCommandBudget
  | waitForSnapshot {call minSequence : Nat} (new : s.calls.get? call = none)
    (called : s.waitForSnapshot call minSequence = (outs, t)) :
    Enabled bodyFingerprint s outs t (.waitForSnapshot call minSequence)
  | waitForReadiness {call : Nat} (new : s.calls.get? call = none)
    (called : s.waitForReadiness call = (outs, t)) :
    Enabled bodyFingerprint s outs t (.waitForReadiness call)
  | sendCommand {call : Nat} {draft : Draft} {kind requestId : String}
    (new : s.calls.get? call = none)
    (called : s.sendCommand bodyFingerprint call draft kind requestId = (outs, t)) :
    Enabled bodyFingerprint s outs t (.sendCommand call draft kind requestId)
  | payloadSent {call : Nat} {c : Call} (known : s.calls.get? call = some c)
    (sending : c.stage = .sending)
    (silent : outs = [])
    (moved : t = { s with calls := s.calls.set call { c with stage := .waiting } }) :
    Enabled bodyFingerprint s outs t (.payloadSent call true)
  | payloadLost {call : Nat} {c : Call} (known : s.calls.get? call = some c)
    (sending : c.stage = .sending)
    (finished : s.finish call c (.error .connectionLost) = (outs, t)) :
    Enabled bodyFingerprint s outs t (.payloadSent call false)
  | timeout {call : Nat} {c : Call} (known : s.calls.get? call = some c)
    (waiting : c.stage = .waiting)
    (silent : outs = []) (moved :
    t = { s with calls := s.calls.set call { c.settle .cancelled with timedOut := true } }) :
    Enabled bodyFingerprint s outs t (.timeout call)
  | resume {call : Nat} {c : Call} {reply : Except SessionError Answer}
    (known : s.calls.get? call = some c)
    (waiting : c.stage = .waiting) (verdict : c.verdict = some reply)
    (finished : s.finish call c reply = (outs, t)) :
    Enabled bodyFingerprint s outs t (.resume call)

theorem step_enabled (hstep : Step bodyFingerprint s (ev, outs) t) :
    Enabled bodyFingerprint s outs t ev := by
  have hstep : step? bodyFingerprint s ev = some (outs, t) := hstep
  have hnew : ∀ {call : Nat}, ¬ s.calls.contains call = true →
    s.calls.get? call = none := by simp [Dict.contains]
  cases ev with
  | item item =>
    obtain ⟨hp, hstep⟩ := Option.ite_none_right_eq_some.mp hstep
    exact .item hp (Option.some.inj hstep)
  | readySent ok =>
    obtain ⟨hp, hstep⟩ := Option.ite_none_right_eq_some.mp hstep
    cases hstep
    exact .readySent hp rfl rfl
  | connectionClosed =>
    obtain ⟨hp, hstep⟩ := Option.ite_none_right_eq_some.mp hstep
    cases hstep
    exact .connectionClosed hp rfl rfl
  | remainingCommandBudget =>
    cases hstep
    exact .remainingCommandBudget rfl rfl
  | waitForSnapshot call minSequence =>
    obtain ⟨hcall, hstep⟩ := Option.ite_none_left_eq_some.mp hstep
    exact .waitForSnapshot (hnew hcall) (Option.some.inj hstep)
  | waitForReadiness call =>
    obtain ⟨hcall, hstep⟩ := Option.ite_none_left_eq_some.mp hstep
    exact .waitForReadiness (hnew hcall) (Option.some.inj hstep)
  | sendCommand call draft kind requestId =>
    obtain ⟨hcall, hstep⟩ := Option.ite_none_left_eq_some.mp hstep
    exact .sendCommand (hnew hcall) (Option.some.inj hstep)
  | payloadSent call ok =>
    simp only [step?] at hstep
    split at hstep
    next c hc =>
      obtain ⟨hs, hstep⟩ := Option.ite_none_left_eq_some.mp hstep
      cases ok with
      | true =>
        cases hstep
        exact .payloadSent hc (not_not.mp hs) rfl rfl
      | false => exact .payloadLost hc (not_not.mp hs) (Option.some.inj hstep)
    next => cases hstep
  | timeout call =>
    simp only [step?] at hstep
    split at hstep
    next c hc =>
      obtain ⟨hs, hstep⟩ := Option.ite_none_left_eq_some.mp hstep
      cases hstep
      exact .timeout hc (not_not.mp hs) rfl rfl
    next => cases hstep
  | resume call =>
    simp only [step?] at hstep
    split at hstep
    next c hc =>
      obtain ⟨hs, hstep⟩ := Option.ite_none_left_eq_some.mp hstep
      obtain ⟨reply, hverdict, hreply⟩ := Option.map_eq_some_iff.mp hstep
      exact .resume hc (not_not.mp hs) hverdict hreply
    next => cases hstep

/-- What a step does to the gate in front of the transport. -/
inductive Turn (bodyFingerprint : List UInt8 → String) (s : BazaarSession) :
    Event → List SessionOutput → BazaarSession → Prop
  | idle {ev : Event} {outs : List SessionOutput} {t : BazaarSession} (plain : ev.Plain)
    (replies : ∀ o ∈ outs, ∃ call reply, o = .reply call reply)
    (lifecycle : t.lifecycle = s.lifecycle)
    (sent : t.tracker.sent = s.tracker.sent) (latest : t.latest = s.latest)
    (throttle : Rolled s t.throttle)
    (running : Running t → Running s) : Turn bodyFingerprint s ev outs t
  | stopped {item : Item} {t : BazaarSession} (stopped : t.pump = .returned)
    (sent : t.tracker.sent = s.tracker.sent) (latest : t.latest = s.latest)
    (throttle : t.throttle = s.throttle) :
    Turn bodyFingerprint s (.item item) [] t
  | routed {event : ServerEvent} {directive : Option Directive} {lifecycle : SessionLifecycle}
    {outs : List SessionOutput} {t : BazaarSession} (reading : s.pump = .reading)
    (accepted : s.lifecycle.onEvent event = .ok (directive, lifecycle))
    (moved : t.lifecycle = lifecycle)
    (sent : t.tracker.sent = s.tracker.sent)
    (view : View s.latest s.throttle event t.latest t.throttle)
    (declared : outs = readies directive ∨ outs = [] ∧ ¬ Running t) :
    Turn bodyFingerprint s (.item (.message event)) outs t
  | commanded {call : Nat} {draft : Draft} {kind requestId : String} {outs : List SessionOutput}
    {t : BazaarSession}
    (commanding : Commanding bodyFingerprint s call draft kind requestId outs t) :
    Turn bodyFingerprint s (.sendCommand call draft kind requestId) outs t

theorem apply_turn (hp : s.pump = .reading) (directive : Directive) :
    (s.apply directive).2.lifecycle = s.lifecycle ∧ (s.apply directive).2.tracker = s.tracker ∧
      (s.apply directive).2.latest = s.latest ∧ (s.apply directive).2.throttle = s.throttle ∧
      (s.apply directive).2.connected = s.connected ∧
      ((s.apply directive).1 = readies (some directive) ∨
        (s.apply directive).1 = [] ∧ ¬ Running (s.apply directive).2) ∧
      ((s.apply directive).2.pump = .closing → ∃ reason, directive = .reconnect reason) := by
  cases directive with
  | sendReady runId snapshotSequence =>
    simp only [apply]
    split
    next => exact ⟨rfl, rfl, rfl, rfl, rfl, Or.inl rfl, by simp⟩
    next => exact ⟨rfl, rfl, rfl, rfl, rfl, Or.inr ⟨rfl, fun hrun => hrun.2 rfl⟩, by simp⟩
  | abort reason code => simp [apply, readies, hp]
  | reconnect reason => simp [apply, readies]

/-- A message the lifecycle lets through is routed, and its directive leaves the view alone. -/
theorem consumeEvent_accepted
    {event : ServerEvent} {directive : Option Directive} {lifecycle : SessionLifecycle}
    (hp : s.pump = .reading) (h : s.lifecycle.onEvent event = .ok (directive, lifecycle)) :
    (s.consumeEvent (.message event)).2.lifecycle = lifecycle ∧
      (s.consumeEvent (.message event)).2.latest =
        ({ s with lifecycle := lifecycle }.route event).latest := by
  obtain ⟨throttle, latest, readiness, opened, snapshots, waiters, table, heq⟩ :=
    route_frame { s with lifecycle := lifecycle } event
  simp only [consumeEvent, h]
  cases directive with
  | none => exact ⟨by simp only [heq], rfl⟩
  | some directive =>
    have hpump :
      ({ s with lifecycle := lifecycle }.route event).pump = .reading := by rw [heq]; exact hp
    obtain ⟨hl, _, hlatest, _⟩ := apply_turn hpump directive
    exact ⟨by rw [hl, heq], hlatest⟩

theorem consumeEvent_turn (bodyFingerprint : List UInt8 → String) (h : Offline s)
    (hp : s.pump = .reading) (item : Item) :
    Turn bodyFingerprint s (.item item) (s.consumeEvent item).1 (s.consumeEvent item).2 ∧
      Offline (s.consumeEvent item).2 := by
  have hdown : s.connected = false → s.lifecycle.Over := fun hc => h (Or.inl hc)
  cases item with
  | closedSentinel =>
    refine ⟨.stopped rfl (by simp [consumeEvent]) (by simp [consumeEvent])
      (by simp [consumeEvent]), fun _ => ?_⟩
    simpa [consumeEvent] using s.lifecycle.onDisconnected_over
  | undecodable =>
    exact ⟨.idle (by simp [Event.Plain]) (by simp [consumeEvent]) rfl rfl rfl (Or.inl rfl) id, h⟩
  | message event =>
    simp only [consumeEvent]
    split
    next error _ =>
      refine ⟨.stopped rfl (by simp) (by simp) (by simp), fun hc => ?_⟩
      have hconn : s.connected = false := by simpa using hc
      simpa using hdown hconn
    next directive lifecycle hevent =>
      have hview := route_view { s with lifecycle := lifecycle } event
      obtain ⟨throttle, latest, readiness, opened, snapshots, waiters, table, heq⟩ :=
        route_frame { s with lifecycle := lifecycle } event
      have hover : s.connected = false → lifecycle.Over :=
        fun hc => SessionLifecycle.onEvent_over hevent (hdown hc)
      cases directive with
      | none =>
        refine ⟨.routed hp hevent (by rw [heq]) (by rw [heq]) hview (Or.inl rfl), ?_⟩
        simp only [heq]
        intro hc
        exact hover (by simpa [hp] using hc)
      | some directive =>
        have hpump :
          ({ s with lifecycle := lifecycle }.route event).pump = .reading := by rw [heq]; exact hp
        obtain ⟨hl, htr, hlat, hth, hconn, hdecl, hclosing⟩ := apply_turn hpump directive
        refine ⟨.routed hp hevent (by rw [hl, heq]) (by rw [htr, heq])
          (by rw [hlat, hth]; exact hview) hdecl, ?_⟩
        intro hc
        show ((({ s with lifecycle := lifecycle }.route event).apply directive).2).lifecycle.Over
        rw [hl, heq]
        rcases hc with hc | hc
        · rw [hconn, heq] at hc
          exact hover hc
        · obtain ⟨reason, rfl⟩ := hclosing hc
          exact SessionLifecycle.onEvent_reconnect hevent

theorem finish_frame (s : BazaarSession) (call : Nat) (c : Call)
    (reply : Except SessionError Answer) :
    ∃ snapshots waiters table, s.finish call c reply = ([.reply call reply],
      { s with snapshotWaiters := snapshots, commandWaiters := waiters, calls := table }) := by
  unfold finish
  cases c.awaited <;> exact ⟨_, _, _, rfl⟩

/-- A step that only moves calls and waiters about. -/
theorem Turn.waiters {ev : Event} {outs : List SessionOutput} (h : Offline s) (plain : ev.Plain)
    (replies : ∀ o ∈ outs, ∃ call reply, o = .reply call reply) (snapshots : List (Nat × Nat))
    (waiters : Dict String Nat) (readiness : Option Nat) (table : Dict Nat Call) :
    Turn bodyFingerprint s ev outs { s with
        snapshotWaiters := snapshots, commandWaiters := waiters, readinessWaiter := readiness,
        calls := table } ∧
      Offline { s with
        snapshotWaiters := snapshots, commandWaiters := waiters, readinessWaiter := readiness,
        calls := table } :=
  ⟨.idle plain replies rfl rfl rfl (Or.inl rfl) id, h⟩

theorem waitForSnapshot_turn (bodyFingerprint : List UInt8 → String) (h : Offline s)
    (call minSequence : Nat) :
    Turn bodyFingerprint s
      (.waitForSnapshot call minSequence) (s.waitForSnapshot call minSequence).1
        (s.waitForSnapshot call minSequence).2 ∧
        Offline (s.waitForSnapshot call minSequence).2 := by
  simp only [waitForSnapshot]
  split
  next => exact Turn.waiters h (by simp [Event.Plain]) (by simp) _ _ s.readinessWaiter _
  next held _ =>
    split
    next => exact Turn.waiters h (by simp [Event.Plain]) (by simp) _ _ s.readinessWaiter s.calls
    next => exact Turn.waiters h (by simp [Event.Plain]) (by simp) _ _ s.readinessWaiter _

theorem waitForReadiness_turn (bodyFingerprint : List UInt8 → String) (h : Offline s) (call : Nat) :
    Turn bodyFingerprint s (.waitForReadiness call) (s.waitForReadiness call).1
        (s.waitForReadiness call).2 ∧
      Offline (s.waitForReadiness call).2 := by
  unfold waitForReadiness
  split
  next =>
    exact Turn.waiters h (by simp [Event.Plain]) (by simp) s.snapshotWaiters _ s.readinessWaiter
      s.calls
  next => exact Turn.waiters h (by simp [Event.Plain]) (by simp) s.snapshotWaiters _ _ _

theorem sendCommand_turn (bodyFingerprint : List UInt8 → String) (h : Offline s) (call : Nat)
    (draft : Draft) (kind requestId : String) :
    Turn bodyFingerprint s (.sendCommand call draft kind requestId)
        (s.sendCommand bodyFingerprint call draft kind requestId).1
        (s.sendCommand bodyFingerprint call draft kind requestId).2 ∧
      Offline (s.sendCommand bodyFingerprint call draft kind requestId).2 := by
  have hcommanding := sendCommand_commanding bodyFingerprint call draft kind requestId h.ineligible
  refine ⟨.commanded hcommanding, ?_⟩
  generalize (s.sendCommand bodyFingerprint call draft kind requestId).1 = outs at hcommanding
  generalize (s.sendCommand bodyFingerprint call draft kind requestId).2 = t at hcommanding ⊢
  cases hcommanding with
  | refused => exact h
  | retried => exact h
  | charged => exact h

/-- Everything a step can do to the gate. -/
theorem step_turn (h : Offline s) (hstep : Step bodyFingerprint s (ev, outs) t) :
    Turn bodyFingerprint s ev outs t ∧ Offline t := by
  cases step_enabled hstep with
  | @item item reading consumed =>
    have hturn := consumeEvent_turn bodyFingerprint h reading item
    rwa [consumed] at hturn
  | @readySent ok sending silent moved =>
    subst silent moved
    refine ⟨.idle (by simp [Event.Plain]) (by simp) rfl rfl rfl (Or.inl rfl)
      (by simp [Running, sending]), ?_⟩
    intro hc
    refine h (Or.inl ?_)
    cases ok <;> simpa using hc
  | connectionClosed closing silent moved =>
    subst silent moved
    exact ⟨.idle (by simp [Event.Plain]) (by simp) rfl rfl rfl (Or.inl rfl)
      (by simp [Running, closing]), fun _ => h (Or.inr closing)⟩
  | remainingCommandBudget silent moved =>
    obtain ⟨throttle, hrolled, heq⟩ := s.remainingCommandBudget_rolled
    rw [silent, moved, heq]
    exact ⟨.idle (by simp [Event.Plain]) (by simp) rfl rfl rfl hrolled id, h⟩
  | @waitForSnapshot call minSequence _ called =>
    have hturn := waitForSnapshot_turn bodyFingerprint h call minSequence
    rwa [called] at hturn
  | @waitForReadiness call _ called =>
    have hturn := waitForReadiness_turn bodyFingerprint h call
    rwa [called] at hturn
  | @sendCommand call draft kind requestId _ called =>
    have hturn := sendCommand_turn bodyFingerprint h call draft kind requestId
    rwa [called] at hturn
  | payloadSent _ _ silent moved | timeout _ _ silent moved =>
    subst silent moved
    exact Turn.waiters h (by simp [Event.Plain])
      (by simp) s.snapshotWaiters s.commandWaiters s.readinessWaiter _
  | @payloadLost call c _ _ finished =>
    obtain ⟨_, _, _, hfinish⟩ := s.finish_frame call c (.error .connectionLost)
    cases finished.symm.trans hfinish
    exact Turn.waiters h (by simp [Event.Plain]) (by simp) _ _ s.readinessWaiter _
  | @resume call c reply _ _ _ finished =>
    obtain ⟨_, _, _, hfinish⟩ := s.finish_frame call c reply
    cases finished.symm.trans hfinish
    exact Turn.waiters h (by simp [Event.Plain]) (by simp) _ _ s.readinessWaiter _

/-- Only a state message replaces the held snapshot. -/
theorem step_latest (ho : Offline s) (h : Step bodyFingerprint s (ev, outs) t) :
    t.latest = s.latest ∨ ∃ snapshot, ev = .item (.message (.state snapshot)) ∧
    t.latest = some snapshot := by
  have hturn := (step_turn ho h).1
  cases hturn with
  | idle _ _ _ _ latest => exact Or.inl latest
  | stopped _ _ latest => exact Or.inl latest
  | routed _ _ _ _ view =>
    generalize t.latest = latest at view
    generalize t.throttle = throttle at view
    cases view with
    | stale | result | readiness | protocolError => exact Or.inl rfl
    | newer => exact Or.inr ⟨_, rfl, rfl⟩
  | commanded commanding =>
    cases commanding with
    | refused | retried | charged => exact Or.inl rfl

theorem consumeEvent_silent (item : Item) (call : Nat) (reply : Except SessionError Answer) :
    SessionOutput.reply call reply ∉ (s.consumeEvent item).1 := by
  cases item with
  | closedSentinel | undecodable => simp [consumeEvent]
  | message event =>
    simp only [consumeEvent]
    split
    next => simp
    next directive lifecycle _ =>
      cases directive with
      | none => simp
      | some directive =>
        cases directive with
        | sendReady runId snapshotSequence =>
          simp only [apply]
          split <;> simp
        | abort reason code => simp [apply]
        | reconnect reason => simp [apply]

/-- What a call resumes with was in its future. -/
theorem verdict_ok {c : Call} {answer : Answer} (h : c.verdict = some (.ok answer)) :
    c.future = .result answer := by
  unfold Call.verdict at h
  split at h
  next => cases h
  next =>
    split at h
    next => cases h
    next answer hf =>
      cases h
      exact hf
    next => cases h
    next => cases h

/-- A call that was entered comes back when its connection is lost, or with its verdict. -/
theorem step_reply {c : Call} {reply : Except SessionError Answer} (ho : Offline s)
    (hstep : Step bodyFingerprint s (ev, outs) t) (known : s.calls.get? call = some c)
    (hr : SessionOutput.reply call reply ∈ outs) :
    (reply = .error .connectionLost ∨ c.verdict = some reply) ∧ t.latest = s.latest := by
  have hother : ∀ {j : Nat}, s.calls.get? j = none → call ≠ j := by
    rintro j hj rfl
    cases known.symm.trans hj
  cases step_enabled hstep with
  | @item item _ consumed =>
    have hsilent : SessionOutput.reply call reply ∉ (s.consumeEvent item).1 :=
      consumeEvent_silent item call reply
    rw [consumed] at hsilent
    exact absurd hr hsilent
  | readySent _ silent | connectionClosed _ silent | remainingCommandBudget silent
  | payloadSent _ _ silent | timeout _ _ silent =>
    subst silent
    cases hr
  | @waitForSnapshot j minSequence new called =>
    unfold waitForSnapshot at called
    dsimp only at called
    split at called
    next => cases called; cases hr
    next =>
      split at called
      next =>
        cases called
        exact absurd (SessionOutput.reply.inj (List.mem_singleton.mp hr)).1 (hother new)
      next => cases called; cases hr
  | @waitForReadiness j new called =>
    unfold waitForReadiness at called
    split at called
    next =>
      cases called
      exact absurd (SessionOutput.reply.inj (List.mem_singleton.mp hr)).1 (hother new)
    next => cases called; cases hr
  | @sendCommand j draft kind requestId new called =>
    have hcommanding := sendCommand_commanding bodyFingerprint j draft kind requestId ho.ineligible
    rw [called] at hcommanding
    cases hcommanding with
    | refused => exact absurd (SessionOutput.reply.inj (List.mem_singleton.mp hr)).1 (hother new)
    | retried | charged => simp at hr
  | @payloadLost j d knownLost _ finished =>
    obtain ⟨_, _, _, hfinish⟩ := s.finish_frame j d (.error .connectionLost)
    cases finished.symm.trans hfinish
    exact ⟨.inl (SessionOutput.reply.inj (List.mem_singleton.mp hr)).2, rfl⟩
  | @resume j d answer knownDone _ verdict finished =>
    obtain ⟨_, _, _, hfinish⟩ := s.finish_frame j d answer
    cases finished.symm.trans hfinish
    obtain ⟨rfl, rfl⟩ := SessionOutput.reply.inj (List.mem_singleton.mp hr)
    obtain rfl := Option.some.inj (known.symm.trans knownDone)
    exact ⟨.inr verdict, rfl⟩

theorem init_offline (throttle : CommandThrottle) : Offline (init throttle) := by
  intro hc
  simp [init, start] at hc

end Turns

end BazaarSession

end SpaceportBazaar
