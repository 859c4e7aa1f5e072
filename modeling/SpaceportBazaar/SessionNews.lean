import SpaceportBazaar.SessionGate

namespace SpaceportBazaar

namespace SessionLifecycle

variable {l l' : SessionLifecycle} {event : ServerEvent} {directive : Option Directive}
  {runId : String}

/-- Only an acknowledgement that says ready makes the lifecycle active. -/
theorem onEvent_active (h : l.onEvent event = .ok (directive, l')) (ha : l'.state = .active) :
    l.state = .active ∨ ∃ ack, event = .readiness ack ∧ ack.ready = true := by
  cases event with
  | state snapshot =>
    cases onSnapshot_followed h with
    | old => exact Or.inl ha
    | first => simp at ha
    | later => exact Or.inl ha
  | readiness ack =>
    have heq : (l.onReadiness ack).2 = l' := congrArg Prod.snd (Except.ok.inj h)
    by_cases hready : ack.ready = true
    · exact Or.inr ⟨ack, rfl, hready⟩
    · have hsame : (l.onReadiness ack).2 = l := by
        simp only [onReadiness, hready, Bool.not_false, if_true]
        split_ifs <;> rfl
      exact Or.inl (by rwa [← hsame, heq])
  | protocolError error =>
    have heq : (l.onProtocolError error).2 = l' := congrArg Prod.snd (Except.ok.inj h)
    unfold onProtocolError at heq
    split_ifs at heq
    · simp [← heq] at ha
    · simp [← heq] at ha
    · exact Or.inl (by rwa [show l = l' from heq])
  | result result => exact Or.inl (by rwa [show l = l' from congrArg Prod.snd (Except.ok.inj h)])

/-- The run id comes from a state. -/
theorem onEvent_runId (h : l.onEvent event = .ok (directive, l')) (hr : l'.runId = some runId) :
    l.runId = some runId ∨ ∃ snapshot, event = .state snapshot ∧ snapshot.runId = runId := by
  cases event with
  | state snapshot =>
    cases onSnapshot_followed h with
    | old => exact Or.inl hr
    | first => exact Or.inr ⟨snapshot, rfl, Option.some.inj hr⟩
    | later => exact Or.inr ⟨snapshot, rfl, Option.some.inj hr⟩
  | readiness ack =>
    have heq : (l.onReadiness ack).2 = l' := congrArg Prod.snd (Except.ok.inj h)
    have hsame : (l.onReadiness ack).2.runId = l.runId := by
      unfold onReadiness
      split_ifs <;> rfl
    exact Or.inl (by rw [← hsame, heq, hr])
  | protocolError error =>
    have heq : (l.onProtocolError error).2 = l' := congrArg Prod.snd (Except.ok.inj h)
    have hsame : (l.onProtocolError error).2.runId = l.runId := by
      unfold onProtocolError
      split_ifs <;> rfl
    exact Or.inl (by rw [← hsame, heq, hr])
  | result result => exact Or.inl (by rwa [show l = l' from congrArg Prod.snd (Except.ok.inj h)])

/-- Readiness is declared for the run of a state. -/
theorem onEvent_sendReady {snapshotSequence : Nat}
    (h : l.onEvent event = .ok (some (.sendReady runId snapshotSequence), l')) :
    ∃ snapshot, event = .state snapshot ∧ snapshot.runId = runId := by
  cases event with
  | state snapshot =>
    have hfollowed := onSnapshot_followed h
    cases hfollowed with
    | first => exact ⟨snapshot, rfl, rfl⟩
  | readiness ack =>
    have heq : l.onReadiness ack = (some (.sendReady runId snapshotSequence), l') := Except.ok.inj h
    unfold onReadiness at heq
    split_ifs at heq <;> simp at heq
  | protocolError error =>
    have heq :
      l.onProtocolError error = (some (.sendReady runId snapshotSequence), l') := Except.ok.inj h
    unfold onProtocolError at heq
    split_ifs at heq <;> simp at heq
  | result result => simp [onEvent] at h

theorem onEvent_error {error : SessionError} (h : l.onEvent event = .error error) (text : String) :
    error ≠ .commandBlocked text := by
  cases event with
  | state snapshot =>
    have h : l.onSnapshot snapshot = .error error := h
    unfold onSnapshot at h
    simp only at h
    split_ifs at h
    simp [← Except.error.inj h]
  | readiness | protocolError | result => simp [onEvent] at h

end SessionLifecycle

namespace BazaarSession

variable {V : ServerEvent → Prop} {s t u : BazaarSession} {latest : Option Snapshot} {call : Nat}
  {future : Future} {snapshot : Snapshot}

/-- An outcome is a result or a protocol error for its own request. -/
def Backed (V : ServerEvent → Prop) (outcome : CommandOutcome) : Prop :=
  (∃ r, outcome.result = some r ∧ r.requestId = outcome.requestId ∧ V (.result r)) ∨
    outcome.result = none ∧ ∃ error, error.requestId = some outcome.requestId ∧
    V (.protocolError error)

/-- What the future of a call can come to hold, as far as `V` is true of the messages. -/
def Answered (V : ServerEvent → Prop) (latest : Option Snapshot) (awaited : Awaited) : Future → Prop
  | .exception error => ∀ text, error ≠ .commandBlocked text
  | .result (.snapshot snapshot) =>
    V (.state snapshot) ∧ ∃ held, latest = some held ∧ snapshot.worldVersion ≤ held.worldVersion
  | .result (.outcome outcome) => awaited = .command outcome.requestId ∧ Backed V outcome
  | _ => True

/-- All that the session holds goes back to messages `V` is true of. -/
structure Heard (V : ServerEvent → Prop) (s : BazaarSession) : Prop where
  latest : ∀ held, s.latest = some held → V (.state held)
  futures : ∀ j c, s.calls.get? j = some c → Answered V s.latest c.awaited c.future
  commands : ∀ rid j, s.commandWaiters.get? rid = some j → ∃ c, s.calls.get? j = some c ∧
    c.awaited = .command rid
  active : s.lifecycle.state = .active → ∃ ack : ReadinessAck, ack.ready = true ∧ V (.readiness ack)
  run : ∀ runId, s.lifecycle.runId = some runId → ∃ snapshot : Snapshot, V (.state snapshot) ∧
    snapshot.runId = runId

theorem Answered.mono {U : ServerEvent → Prop} (hsub : ∀ event, V event → U event)
    {awaited : Awaited} (h : Answered V latest awaited future) :
    Answered U latest awaited future := by
  cases future with
  | pending | cancelled => trivial
  | exception error => exact h
  | result answer =>
    cases answer with
    | snapshot snapshot => exact ⟨hsub _ h.1, h.2⟩
    | readiness ack => trivial
    | outcome outcome =>
      refine ⟨h.1, ?_⟩
      rcases h.2 with ⟨r, hr, hid, hv⟩ | ⟨hnone, error, hid, hv⟩
      · exact .inl ⟨r, hr, hid, hsub _ hv⟩
      · exact .inr ⟨hnone, error, hid, hsub _ hv⟩

/-- What stays true stays heard. -/
theorem Heard.mono {U : ServerEvent → Prop} (h : Heard V s)
    (hsub : ∀ event, V event → U event) : Heard U s where
  latest held hheld := hsub _ (h.latest held hheld)
  futures j c hc := (h.futures j c hc).mono hsub
  commands := h.commands
  active ha := by
    obtain ⟨ack, hready, hv⟩ := h.active ha
    exact ⟨ack, hready, hsub _ hv⟩
  run runId hrun := by
    obtain ⟨snapshot, hv, hid⟩ := h.run runId hrun
    exact ⟨snapshot, hsub _ hv, hid⟩

/-- Calls stay entered under what they await. -/
def Keeps (s t : BazaarSession) : Prop :=
  ∀ j c, s.calls.get? j = some c → ∃ c', t.calls.get? j = some c' ∧ c'.awaited = c.awaited

/-- From one state to the other, calls only come to hold what they can. -/
def Fills (V : ServerEvent → Prop) (latest : Option Snapshot) (s t : BazaarSession) : Prop :=
  ∀ j, (s.calls.get? j = none ∧ t.calls.get? j = none) ∨
    ∃ c c', s.calls.get? j = some c ∧ t.calls.get? j = some c' ∧
    c'.awaited = c.awaited ∧ (c'.future = c.future ∨ Answered V latest c.awaited c'.future)

theorem Keeps.refl (s : BazaarSession) : Keeps s s := fun _ c hc => ⟨c, hc, rfl⟩

theorem Keeps.of_calls (h : t.calls = s.calls) : Keeps s t := fun _ c hc => ⟨c, by rwa [h], rfl⟩

theorem Keeps.trans (h : Keeps s t) (h' : Keeps t u) : Keeps s u := by
  intro j c hc
  obtain ⟨c', hc', ha⟩ := h j c hc
  obtain ⟨c'', hc'', ha'⟩ := h' j c' hc'
  exact ⟨c'', hc'', ha'.trans ha⟩

theorem Fills.of_calls (h : t.calls = s.calls) : Fills V latest s t := by
  intro j
  cases hj : s.calls.get? j with
  | none => exact Or.inl ⟨rfl, by rw [h, hj]⟩
  | some c => exact Or.inr ⟨c, c, rfl, by rw [h, hj], rfl, Or.inl rfl⟩

theorem Fills.trans (h : Fills V latest s t) (h' : Fills V latest t u) : Fills V latest s u := by
  intro j
  rcases h j with ⟨hs, ht⟩ | ⟨c, c', hs, ht, ha, hf⟩
  · rcases h' j with ⟨_, hu⟩ | ⟨_, _, ht', _⟩
    · exact Or.inl ⟨hs, hu⟩
    · simp [ht] at ht'
  · rcases h' j with ⟨ht', _⟩ | ⟨d, d', ht', hu, ha', hf'⟩
    · simp [ht] at ht'
    · obtain rfl := Option.some.inj (ht.symm.trans ht')
      refine Or.inr ⟨c, d', hs, hu, ha'.trans ha, ?_⟩
      rcases hf' with hf' | hf'
      · rw [hf']
        exact hf
      · exact Or.inr (ha ▸ hf')

theorem Fills.keeps (h : Fills V latest s t) : Keeps s t := by
  intro j c hc
  rcases h j with ⟨hs, _⟩ | ⟨d, d', hs, ht, ha, _⟩
  · simp [hc] at hs
  · obtain rfl := Option.some.inj (hc.symm.trans hs)
    exact ⟨d', ht, ha⟩

/-- What only fills calls and takes command waiters away keeps to what was heard. -/
theorem Heard.fills (h : Heard V s) (hf : Fills V s.latest s t) (hlatest : t.latest = s.latest)
    (hlifecycle : t.lifecycle = s.lifecycle)
    (hwaiters : ∀ rid j, t.commandWaiters.get? rid = some j → s.commandWaiters.get? rid = some j) :
    Heard V t where
  latest := by rw [hlatest]; exact h.latest
  futures j c hc := by
    rcases hf j with ⟨_, ht⟩ | ⟨d, d', hs, ht, ha, hd⟩
    · simp [hc] at ht
    · obtain rfl := Option.some.inj (hc.symm.trans ht)
      rw [hlatest, ha]
      rcases hd with hd | hd
      · rw [hd]
        exact h.futures j d hs
      · exact hd
  commands rid j hj := by
    obtain ⟨c, hc, ha⟩ := h.commands rid j (hwaiters rid j hj)
    obtain ⟨c', hc', ha'⟩ := hf.keeps j c hc
    exact ⟨c', hc', ha'.trans ha⟩
  active := by rw [hlifecycle]; exact h.active
  run := by rw [hlifecycle]; exact h.run

theorem settle_fills (hf : ∀ c, s.calls.get? call = some c → Answered V latest c.awaited future) :
    Fills V latest s (s.settle call future) := by
  intro j
  simp only [settle, Dict.get?_update]
  cases hj : s.calls.get? j with
  | none => exact Or.inl ⟨rfl, by split <;> rfl⟩
  | some c =>
    split
    next heq =>
      subst heq
      refine Or.inr ⟨c, c.settle future, rfl, rfl, (c.settle_spec future).1, ?_⟩
      unfold Call.settle
      split
      next => exact Or.inr (hf c hj)
      next => exact Or.inl rfl
    next => exact Or.inr ⟨c, c, rfl, rfl, rfl, Or.inl rfl⟩

theorem settleAll_fills (s : BazaarSession) (calls : List Nat)
    (hf : ∀ awaited, Answered V latest awaited future) :
    Fills V latest s (s.settleAll calls future) := by
  induction calls generalizing s with
  | nil => exact Fills.of_calls rfl
  | cons call calls ih =>
    exact (settle_fills (fun c _ => hf c.awaited)).trans (ih (s.settle call future))

theorem failAllWaiters_fills (s : BazaarSession) {error : SessionError}
    (he : ∀ text, error ≠ .commandBlocked text) :
    Fills V latest s (s.failAllWaiters error) := by
  have hf : ∀ awaited, Answered V latest awaited (.exception error) := fun _ => he
  obtain ⟨t₁, t₂, e₁, e₂, heq⟩ := s.failAllWaiters_rounds error
  have h₁ := settleAll_fills s (s.snapshotWaiters.map Prod.snd) hf
  rw [e₁] at h₁
  have h₂ :=
    settleAll_fills { s with calls := t₁, snapshotWaiters := [] } s.commandWaiters.values hf
  rw [e₂] at h₂
  have h₃ :=
    settleAll_fills { s with calls := t₂, snapshotWaiters := [], commandWaiters := Dict.empty }
    s.readinessWaiter.toList hf
  rw [heq]
  exact (h₁.trans h₂).trans h₃

theorem failAllWaiters_heard (h : Heard V s) {error : SessionError}
    (he : ∀ text, error ≠ .commandBlocked text) :
    Heard V (s.failAllWaiters error) := by
  refine h.fills (failAllWaiters_fills s he) (by simp) (by simp) ?_
  obtain ⟨_, heq⟩ := s.failAllWaiters_frame error
  intro rid j hj
  simp [heq] at hj

/-- The waiter of a request gets an outcome for that request. -/
theorem resolveCommand_heard (h : Heard V s) (outcome : CommandOutcome) (hb : Backed V outcome) :
    Heard V (s.resolveCommand outcome.requestId outcome) ∧
    Keeps s (s.resolveCommand outcome.requestId outcome) := by
  simp only [resolveCommand]
  split
  next => exact ⟨h.fills (Fills.of_calls rfl) rfl rfl (fun _ _ => id), Keeps.of_calls rfl⟩
  next call hcall =>
    obtain ⟨d, hd, ha⟩ := h.commands outcome.requestId call hcall
    have hf : Fills V s.latest s (settle { s with
        tracker := s.tracker.resolve outcome.requestId
        commandWaiters := s.commandWaiters.erase outcome.requestId } call (.result
        (.outcome outcome))) := by
      refine (Fills.of_calls (V := V) (s := s) rfl).trans (settle_fills (fun c hc => ?_))
      obtain rfl := Option.some.inj (hd.symm.trans hc)
      exact ⟨ha, hb⟩
    refine ⟨h.fills hf rfl rfl (fun rid j hj => ?_), hf.keeps⟩
    simp only [settle, Dict.get?_erase] at hj
    split at hj
    next => simp at hj
    next => exact hj

theorem onResult_heard (h : Heard V s) {r : CommandResult} (hr : V (.result r)) :
    Heard V (s.onResult r) ∧ Keeps s (s.onResult r) := by
  rw [onResult_eq]
  have hsame : Heard V { s with throttle := honour s.throttle r } :=
    h.fills (Fills.of_calls rfl) rfl rfl (fun _ _ => id)
  obtain ⟨hheard, hkeeps⟩ :=
    resolveCommand_heard hsame { requestId := r.requestId, result := some r }
    (Or.inl ⟨r, rfl, rfl, hr⟩)
  exact ⟨hheard, (Keeps.of_calls rfl).trans hkeeps⟩

theorem onResults_heard {results : List CommandResult} (h : Heard V s)
    (hr : ∀ r ∈ results, V (.result r)) :
    Heard V (results.foldl onResult s) ∧ Keeps s (results.foldl onResult s) := by
  induction results generalizing s with
  | nil => exact ⟨h, Keeps.refl s⟩
  | cons r results ih =>
    obtain ⟨hfirst, hkeeps⟩ := onResult_heard h (hr r List.mem_cons_self)
    obtain ⟨hrest, hkeeps'⟩ := ih hfirst (fun r' hr' => hr r' (List.mem_cons_of_mem _ hr'))
    exact ⟨hrest, hkeeps.trans hkeeps'⟩

theorem wakeSnapshots_fills (waiters : List (Nat × Nat)) (s : BazaarSession)
    (hf : ∀ awaited, Answered V latest awaited (.result (.snapshot snapshot))) :
    Fills V latest s (wakeSnapshots snapshot waiters s).2 := by
  induction waiters generalizing s with
  | nil => exact Fills.of_calls rfl
  | cons w waiters ih =>
    simp only [wakeSnapshots]
    split
    next => exact (settle_fills (fun c _ => hf c.awaited)).trans (ih _)
    next =>
      split
      next => exact ih s
      next => exact ih s

/-- A newer view is no older than what the calls were given from the last one. -/
theorem Heard.renew (h : Heard V s) (hv : V (.state snapshot)) (throttle : CommandThrottle)
    (ordered : ∀ held, s.latest = some held → held.worldVersion ≤ snapshot.worldVersion) :
    Heard V { s with latest := some snapshot, throttle := throttle } where
  latest held hheld := by rwa [← Option.some.inj hheld]
  futures j c hc := by
    have hold := h.futures j c hc
    generalize c.future = future at hold ⊢
    cases future with
    | pending => trivial
    | cancelled => trivial
    | exception error => exact hold
    | result answer =>
      cases answer with
      | snapshot given =>
        obtain ⟨hstate, held, hheld, hle⟩ := hold
        exact ⟨hstate, snapshot, rfl, hle.trans (ordered held hheld)⟩
      | readiness ack => trivial
      | outcome outcome => exact hold
  commands := h.commands
  active := h.active
  run := h.run

theorem onSnapshot_heard
    (h : Heard V s) (hv : V (.state snapshot)) (hr : ∀ r ∈ snapshot.requestResults, V (.result r))
    (ordered : ∀ held, s.latest = some held → held.worldVersion ≤ snapshot.worldVersion) :
    Heard V (s.onSnapshot snapshot) ∧ Keeps s (s.onSnapshot snapshot) := by
  by_cases hnewer : Newer s.latest snapshot
  · rw [onSnapshot_newer hnewer]
    have hrenewed :=
      h.renew hv (s.throttle.updateLimit snapshot.rules.newCommandsPerStationPerTick) ordered
    have hf : Fills V (some snapshot) _ _ := wakeSnapshots_fills s.snapshotWaiters { s with
      latest := some snapshot
      throttle := s.throttle.updateLimit snapshot.rules.newCommandsPerStationPerTick }
      (fun _ => ⟨hv, snapshot, rfl, le_rfl⟩)
    obtain ⟨table, heq⟩ := wakeSnapshots_frame snapshot s.snapshotWaiters { s with
      latest := some snapshot
      throttle := s.throttle.updateLimit snapshot.rules.newCommandsPerStationPerTick }
    rw [heq] at hf ⊢
    have hwoken := hrenewed.fills (t := { s with
      latest := some snapshot
      throttle := s.throttle.updateLimit snapshot.rules.newCommandsPerStationPerTick
      snapshotWaiters := (wakeSnapshots snapshot s.snapshotWaiters { s with
        latest := some snapshot
        throttle := s.throttle.updateLimit snapshot.rules.newCommandsPerStationPerTick }).1
      calls := table }) hf rfl rfl (fun _ _ => id)
    obtain ⟨hheard, hkeeps⟩ := onResults_heard hwoken hr
    exact ⟨hheard, (hf.keeps (s := s)).trans hkeeps⟩
  · rw [onSnapshot_stale hnewer]
    exact ⟨h, Keeps.refl s⟩

theorem route_heard {event : ServerEvent} (h : Heard V s) (hv : V event) (closed :
      ∀ snapshot : Snapshot, V (.state snapshot) → ∀ r ∈ snapshot.requestResults, V (.result r))
    (ordered : ∀ snapshot held, event = .state snapshot → s.latest = some held →
      held.worldVersion ≤ snapshot.worldVersion) :
    Heard V (s.route event) ∧ Keeps s (s.route event) := by
  cases event with
  | state snapshot =>
    exact onSnapshot_heard h hv (closed snapshot hv) (fun held => ordered snapshot held rfl)
  | result r => exact onResult_heard h hv
  | readiness ack =>
    have hf : Fills V s.latest s (s.resolveReadiness ack) :=
      (Fills.of_calls (V := V) (s := s) (t := { s with readiness := some ack }) rfl).trans
        (settleAll_fills { s with readiness := some ack } s.readinessWaiter.toList
          (fun _ => trivial))
    obtain ⟨table, heq⟩ := settleAll_frame { s with readiness := some ack } s.readinessWaiter.toList
      (.result (.readiness ack))
    simp only [resolveReadiness, heq] at hf
    simp only [route, resolveReadiness, heq]
    exact ⟨h.fills hf rfl rfl (fun _ _ => id), hf.keeps⟩
  | protocolError error =>
    simp only [route, onProtocolError]
    split
    next => exact ⟨h, Keeps.refl s⟩
    next requestId hid =>
      exact resolveCommand_heard h { requestId := requestId, error := some error }
        (Or.inr ⟨rfl, error, hid, hv⟩)

theorem apply_heard (h : Heard V s) (directive : Directive) :
    Heard V (s.apply directive).2 ∧ Keeps s (s.apply directive).2 := by
  cases directive with
  | sendReady runId snapshotSequence =>
    simp only [apply]
    split
    next => exact ⟨h.fills (Fills.of_calls rfl) rfl rfl (fun _ _ => id), Keeps.of_calls rfl⟩
    next => exact ⟨h.fills (Fills.of_calls rfl) rfl rfl (fun _ _ => id), Keeps.of_calls rfl⟩
  | abort reason code =>
    have hsame : Heard V { s with abortReason := some reason, abortCode := code } :=
      h.fills (Fills.of_calls rfl) rfl rfl (fun _ _ => id)
    have hne : ∀ text, SessionError.sessionAborted reason code ≠ .commandBlocked text := by simp
    have hf : Fills V s.latest _ _ :=
      failAllWaiters_fills { s with abortReason := some reason, abortCode := code } hne
    exact ⟨failAllWaiters_heard hsame hne, (Keeps.of_calls (s := s) rfl).trans hf.keeps⟩
  | reconnect reason =>
    have hsame : Heard V { s with reconnectWanted := true } :=
      h.fills (Fills.of_calls rfl) rfl rfl (fun _ _ => id)
    have hne : ∀ text, SessionError.sessionClosed reason ≠ .commandBlocked text := by simp
    have hf : Fills V s.latest _ _ := failAllWaiters_fills { s with reconnectWanted := true } hne
    have hkeeps : Keeps s (s.apply (.reconnect reason)).2 :=
      ((Keeps.of_calls (s := s) rfl).trans hf.keeps).trans (Keeps.of_calls rfl)
    exact ⟨(failAllWaiters_heard hsame hne).fills (Fills.of_calls rfl) rfl rfl
      (fun _ _ => id), hkeeps⟩

theorem Heard.moved (h : Heard V s) (lifecycle : SessionLifecycle)
    (active : lifecycle.state = .active → s.lifecycle.state = .active ∨ ∃ ack : ReadinessAck,
      ack.ready = true ∧ V (.readiness ack)) (run : ∀ runId, lifecycle.runId = some runId →
      s.lifecycle.runId = some runId ∨ ∃ snapshot :
      Snapshot, V (.state snapshot) ∧ snapshot.runId = runId) :
    Heard V { s with lifecycle := lifecycle } where
  latest := h.latest
  futures := h.futures
  commands := h.commands
  active ha := (active ha).elim h.active id
  run runId hr := (run runId hr).elim (h.run runId) id

theorem consumeEvent_heard (h : Heard V s) (item : Item)
    (hears : ∀ event, item = .message event → V event) (closed :
      ∀ snapshot : Snapshot, V (.state snapshot) → ∀ r ∈ snapshot.requestResults, V (.result r))
    (ordered : ∀ snapshot held, item = .message (.state snapshot) → s.latest = some held →
      held.worldVersion ≤ snapshot.worldVersion) :
    Heard V (s.consumeEvent item).2 ∧ Keeps s (s.consumeEvent item).2 := by
  cases item with
  | closedSentinel =>
    have hmoved : Heard V { s with closed := true, lifecycle := s.lifecycle.onDisconnected } := by
      refine (h.moved s.lifecycle.onDisconnected (fun ha => ?_) (fun runId hr => Or.inl ?_)).fills
        (Fills.of_calls rfl) rfl rfl (fun _ _ => id)
      · rcases s.lifecycle.onDisconnected_over with hover | hover <;> simp [hover] at ha
      · unfold SessionLifecycle.onDisconnected at hr
        split at hr <;> exact hr
    have hne :
      ∀ text, SessionError.sessionClosed "connection closed" ≠ .commandBlocked text := by simp
    have hf : Fills V s.latest _ _ := failAllWaiters_fills
      { s with closed := true, lifecycle := s.lifecycle.onDisconnected } hne
    exact ⟨(failAllWaiters_heard hmoved hne).fills (Fills.of_calls rfl) rfl rfl (fun _ _ => id),
      ((Keeps.of_calls (s := s) rfl).trans hf.keeps).trans (Keeps.of_calls rfl)⟩
  | undecodable => exact ⟨h, Keeps.refl s⟩
  | message event =>
    have hv := hears event rfl
    simp only [consumeEvent]
    split
    next error herror =>
      have hne := SessionLifecycle.onEvent_error herror
      have hf : Fills V s.latest s _ := failAllWaiters_fills s hne
      exact ⟨(failAllWaiters_heard h hne).fills (Fills.of_calls rfl) rfl rfl (fun _ _ => id),
        hf.keeps.trans (Keeps.of_calls rfl)⟩
    next directive lifecycle hevent =>
      have hmoved : Heard V { s with lifecycle := lifecycle } := by
        refine h.moved lifecycle (fun ha => ?_) (fun runId hr => ?_)
        · refine (SessionLifecycle.onEvent_active hevent ha).imp id ?_
          rintro ⟨ack, rfl, hack⟩
          exact ⟨ack, hack, hv⟩
        · refine (SessionLifecycle.onEvent_runId hevent hr).imp id ?_
          rintro ⟨snapshot, rfl, hrun⟩
          exact ⟨snapshot, hv, hrun⟩
      obtain ⟨hroute, hkeeps⟩ := route_heard hmoved hv closed
        (fun snapshot held hstate hheld => ordered snapshot held (by rw [hstate]) hheld)
      have hkeeps := (Keeps.of_calls (s := s) rfl).trans hkeeps
      cases directive with
      | none => exact ⟨hroute, hkeeps⟩
      | some directive =>
        obtain ⟨happly, hkeeps'⟩ := apply_heard hroute directive
        exact ⟨happly, hkeeps.trans hkeeps'⟩

/-- A call is entered, or stands where it stood with something else to hold. -/
theorem Heard.entered (h : Heard V s)
    (call : Nat) (c : Call) (same : ∀ d, s.calls.get? call = some d → c.awaited = d.awaited)
    (holds : Answered V s.latest c.awaited c.future) :
    Heard V { s with calls := s.calls.set call c } ∧
    Keeps s { s with calls := s.calls.set call c } := by
  have hkeeps : Keeps s { s with calls := s.calls.set call c } := by
    intro j d hd
    simp only [Dict.get?_set]
    split
    next hj =>
      subst hj
      exact ⟨c, rfl, same d hd⟩
    next => exact ⟨d, hd, rfl⟩
  refine ⟨⟨h.latest, fun j d hd => ?_, fun rid j hj => ?_, h.active, h.run⟩, hkeeps⟩
  · simp only [Dict.get?_set] at hd
    split at hd
    next =>
      cases Option.some.inj hd
      exact holds
    next => exact h.futures j d hd
  · obtain ⟨d, hd, ha⟩ := h.commands rid j hj
    obtain ⟨d', hd', ha'⟩ := hkeeps j d hd
    exact ⟨d', hd', ha'.trans ha⟩

theorem waitForSnapshot_heard (h : Heard V s) (call : Nat) (hnew : s.calls.get? call = none)
    (minSequence : Nat) :
    Heard V (s.waitForSnapshot call minSequence).2 ∧
    Keeps s (s.waitForSnapshot call minSequence).2 := by
  obtain ⟨hentered, hkeeps⟩ :=
    h.entered call { awaited := .snapshot minSequence, stage := .waiting }
    (by simp [hnew]) trivial
  have hwait := hentered.fills (t := { s with
    snapshotWaiters := s.snapshotWaiters ++ [(minSequence, call)]
    calls := s.calls.set call { awaited := .snapshot minSequence, stage := .waiting } })
    (Fills.of_calls rfl) rfl rfl (fun _ _ => id)
  simp only [waitForSnapshot]
  split
  next => exact ⟨hwait, hkeeps⟩
  next =>
    split
    next => exact ⟨h, Keeps.refl s⟩
    next => exact ⟨hwait, hkeeps⟩

theorem waitForReadiness_heard (h : Heard V s) (call : Nat) (hnew : s.calls.get? call = none) :
    Heard V (s.waitForReadiness call).2 ∧ Keeps s (s.waitForReadiness call).2 := by
  obtain ⟨hentered, hkeeps⟩ := h.entered call { awaited := .readiness, stage := .waiting }
    (by simp [hnew]) trivial
  unfold waitForReadiness
  split
  next => exact ⟨h, Keeps.refl s⟩
  next => exact ⟨hentered.fills (Fills.of_calls rfl) rfl rfl (fun _ _ => id), hkeeps⟩

theorem unregister_heard (h : Heard V s) (call : Nat) (awaited : Awaited) :
    Heard V (s.unregister call awaited) ∧ Keeps s (s.unregister call awaited) := by
  cases awaited with
  | snapshot => exact ⟨h.fills (Fills.of_calls rfl) rfl rfl (fun _ _ => id), Keeps.of_calls rfl⟩
  | readiness => exact ⟨h, Keeps.refl s⟩
  | command requestId =>
    refine ⟨h.fills (Fills.of_calls rfl) rfl rfl (fun rid j hj => ?_), Keeps.of_calls rfl⟩
    simp only [unregister, Dict.get?_erase] at hj
    split at hj
    next => simp at hj
    next => exact hj

theorem finish_heard {c : Call} (h : Heard V s) (reply : Except SessionError Answer)
    (hc : s.calls.get? call = some c) :
    Heard V (s.finish call c reply).2 ∧ Keeps s (s.finish call c reply).2 := by
  obtain ⟨hentered, hkeeps⟩ := h.entered call { c with stage := .returned }
    (fun d hd => by rw [Option.some.inj (hc.symm.trans hd)]) (h.futures call c hc)
  obtain ⟨hunregistered, hkeeps'⟩ := unregister_heard hentered call c.awaited
  exact ⟨hunregistered, hkeeps.trans hkeeps'⟩

theorem init_heard (throttle : CommandThrottle) : Heard V (init throttle) where
  latest held hheld := by cases hheld
  futures j c hc := by cases hc
  commands rid j hj := by cases hj
  active ha := by cases ha
  run runId hr := by cases hr

section Stepping

variable {bodyFingerprint : List UInt8 → String} {ev : Event} {outs : List SessionOutput}

theorem commanding_heard
    {draft : Draft} {kind requestId : String} (h : Heard V s) (hnew : s.calls.get? call = none)
    (hc : Commanding bodyFingerprint s call draft kind requestId outs t) :
    Heard V t ∧ Keeps s t := by
  have htransmitted : ∀ payload tick throttle, Heard V
      { s.transmitted bodyFingerprint call requestId kind payload tick with throttle := throttle } ∧
        Keeps s { s.transmitted bodyFingerprint call requestId kind payload tick with throttle :=
        throttle } := by
    intro payload tick throttle
    obtain ⟨hentered, hkeeps⟩ := h.entered call { awaited := .command requestId, stage := .sending }
      (by simp [hnew]) trivial
    refine ⟨⟨hentered.latest, hentered.futures, fun rid j hj => ?_, hentered.active, hentered.run⟩,
      hkeeps⟩
    simp only [transmitted, Dict.get?_set] at hj
    split at hj
    next hrid =>
      refine ⟨{ awaited := .command requestId, stage := .sending }, ?_, by rw [hrid]⟩
      simp [transmitted, ← Option.some.inj hj]
    next => exact hentered.commands rid j hj
  cases hc with
  | refused => exact ⟨h.fills (Fills.of_calls rfl) rfl rfl (fun _ _ => id), Keeps.of_calls rfl⟩
  | retried => exact htransmitted _ _ s.throttle
  | charged => exact htransmitted _ _ _

/-- What one step keeps of what was heard. -/
theorem step_heard (ho : Offline s) (h : Heard V s)
    (hears : ∀ event, ev = .item (.message event) → V event) (closed :
      ∀ snapshot : Snapshot, V (.state snapshot) → ∀ r ∈ snapshot.requestResults, V (.result r))
    (ordered : ∀ snapshot held, ev = .item (.message (.state snapshot)) → s.latest = some held →
      held.worldVersion ≤ snapshot.worldVersion) (hstep : Step bodyFingerprint s (ev, outs) t) :
    Heard V t ∧ Keeps s t := by
  cases step_enabled hstep with
  | @item item _ consumed =>
    have hconsumed := consumeEvent_heard h item (fun event he => hears event (by rw [he])) closed
      (fun snapshot held he => ordered snapshot held (by rw [he]))
    rwa [consumed] at hconsumed
  | readySent _ _ moved | connectionClosed _ _ moved =>
    subst moved
    exact ⟨h.fills (Fills.of_calls rfl) rfl rfl (fun _ _ => id), Keeps.of_calls rfl⟩
  | remainingCommandBudget _ moved =>
    obtain ⟨throttle, _, heq⟩ := s.remainingCommandBudget_rolled
    rw [moved, heq]
    exact ⟨h.fills (Fills.of_calls rfl) rfl rfl (fun _ _ => id), Keeps.of_calls rfl⟩
  | @waitForSnapshot call minSequence new called =>
    have hwait := waitForSnapshot_heard h call new minSequence
    rwa [called] at hwait
  | @waitForReadiness call new called =>
    have hwait := waitForReadiness_heard h call new
    rwa [called] at hwait
  | @sendCommand call draft kind requestId new called =>
    have hcommanding :=
      sendCommand_commanding bodyFingerprint call draft kind requestId ho.ineligible
    rw [called] at hcommanding
    exact commanding_heard h new hcommanding
  | @payloadSent call c known _ _ moved =>
    subst moved
    exact h.entered call _ (fun d hd => by rw [Option.some.inj (known.symm.trans hd)])
      (h.futures call c known)
  | payloadLost known _ finished =>
    have hfinish := finish_heard h (.error .connectionLost) known
    rwa [finished] at hfinish
  | @timeout call c known _ _ moved =>
    subst moved
    refine h.entered call _ (fun d hd => ?_) ?_
    · rw [← Option.some.inj (known.symm.trans hd)]
      exact (c.settle_spec .cancelled).1
    · have hold := h.futures call c known
      unfold Call.settle
      split
      next => trivial
      next => exact hold
  | @resume call c reply known _ _ finished =>
    have hfinish := finish_heard h reply known
    rwa [finished] at hfinish

/-- What a call comes back with, once it is entered: never that it was blocked. -/
def Replied (V : ServerEvent → Prop) (latest : Option Snapshot)
    (awaited : Awaited) : Except SessionError Answer → Prop
  | .error error => Answered V latest awaited (.exception error)
  | .ok answer => Answered V latest awaited (.result answer)

theorem verdict_replied {c : Call} {awaited : Awaited} {reply : Except SessionError Answer}
    (h : c.verdict = some reply) (holds : Answered V latest awaited c.future) :
    Replied V latest awaited reply := by
  unfold Call.verdict at h
  split at h
  next =>
    cases h
    exact fun _ => by simp
  next =>
    generalize c.future = future at h holds
    cases future with
    | pending | cancelled => cases h
    | result | exception =>
      cases h
      exact holds

theorem step_replied {c : Call} {reply : Except SessionError Answer}
    (ho : Offline s) (h : Heard V s) (known : s.calls.get? call = some c)
    (hstep : Step bodyFingerprint s (ev, outs) t) (hr : SessionOutput.reply call reply ∈ outs) :
    Replied V t.latest c.awaited reply := by
  obtain ⟨hreply, hlatest⟩ := step_reply ho hstep known hr
  rw [hlatest]
  rcases hreply with rfl | hverdict
  · exact fun _ => by simp
  · exact verdict_replied hverdict (h.futures call c known)

end Stepping

end BazaarSession

end SpaceportBazaar
