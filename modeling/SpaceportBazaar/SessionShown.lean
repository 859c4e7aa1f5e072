import SpaceportBazaar.SessionNews

namespace SpaceportBazaar

namespace BazaarSession

variable {bodyFingerprint : List UInt8 → String} {s t u : BazaarSession}
  {q : Awaited → Future → Prop} {call : Nat} {future : Future} {snapshot : Snapshot} {ev : Event}
  {outs : List SessionOutput} {E : CommandOutcome → Prop}

/-- From one state to the other, calls stay entered and only come to hold what `q` allows. -/
structure Gains (q : Awaited → Future → Prop) (s t : BazaarSession) : Prop where
  keeps : Keeps s t
  gained : ∀ j c', t.calls.get? j = some c' → q c'.awaited c'.future ∨
    ∃ c, s.calls.get? j = some c ∧ c'.awaited = c.awaited ∧ c'.future = c.future

theorem Gains.of_calls (h : t.calls = s.calls) : Gains q s t :=
  ⟨Keeps.of_calls h, fun _ c' hc => .inr ⟨c', by rwa [← h], rfl, rfl⟩⟩

theorem Gains.trans (h : Gains q s t) (h' : Gains q t u) : Gains q s u := by
  refine ⟨h.keeps.trans h'.keeps, fun j c'' hc => ?_⟩
  rcases h'.gained j c'' hc with hq | ⟨c', hc', ha', hf'⟩
  · exact .inl hq
  · rw [ha', hf']
    exact h.gained j c' hc'

/-- A call is entered, or stands where it stood with something else to hold. -/
theorem Gains.entered (call : Nat) (c : Call)
    (same : ∀ d, s.calls.get? call = some d → c.awaited = d.awaited) (holds : q c.awaited c.future ∨
      ∃ d, s.calls.get? call = some d ∧ c.awaited = d.awaited ∧ c.future = d.future) :
    Gains q s { s with calls := s.calls.set call c } := by
  constructor
  · intro j d hd
    simp only [Dict.get?_set]
    split
    next hj =>
      subst hj
      exact ⟨c, rfl, same d hd⟩
    next => exact ⟨d, hd, rfl⟩
  · intro j d hd
    simp only [Dict.get?_set] at hd
    split at hd
    next hj =>
      subst hj
      cases Option.some.inj hd
      exact holds
    next => exact .inr ⟨d, hd, rfl, rfl⟩

theorem settle_gains (hq : ∀ c, s.calls.get? call = some c → q c.awaited future) :
    Gains q s (s.settle call future) := by
  constructor
  · intro j c hc
    simp only [settle, Dict.get?_update]
    split
    next heq => exact ⟨c.settle future, by simp [hc], (c.settle_spec future).1⟩
    next => exact ⟨c, hc, rfl⟩
  · intro j c' hc
    simp only [settle, Dict.get?_update] at hc
    split at hc
    next heq =>
      subst heq
      obtain ⟨c, hs, rfl⟩ := Option.map_eq_some_iff.mp hc
      unfold Call.settle
      split
      next => exact .inl (hq c hs)
      next => exact .inr ⟨c, hs, rfl, rfl⟩
    next => exact .inr ⟨c', hc, rfl, rfl⟩

theorem settleAll_gains (s : BazaarSession) (calls : List Nat) (hq : ∀ awaited, q awaited future) :
    Gains q s (s.settleAll calls future) := by
  induction calls generalizing s with
  | nil => exact .of_calls rfl
  | cons call calls ih =>
    exact (settle_gains (fun c _ => hq c.awaited)).trans (ih (s.settle call future))

/-- What is no state, and where it is an outcome, one that `E` is true of. -/
def Stateless (E : CommandOutcome → Prop) (_ : Awaited) (future : Future) : Prop :=
  (∀ snapshot, future ≠ .result (.snapshot snapshot)) ∧ ∀ outcome,
    future = .result (.outcome outcome) → E outcome

theorem failAllWaiters_gains (s : BazaarSession) (error : SessionError) :
    Gains (Stateless E) s (s.failAllWaiters error) := by
  have hq : ∀ awaited, Stateless E awaited (.exception error) := by simp [Stateless]
  obtain ⟨t₁, t₂, e₁, e₂, heq⟩ := s.failAllWaiters_rounds error
  have h₁ := settleAll_gains s (s.snapshotWaiters.map Prod.snd) hq
  rw [e₁] at h₁
  have h₂ :=
    settleAll_gains { s with calls := t₁, snapshotWaiters := [] } s.commandWaiters.values hq
  rw [e₂] at h₂
  have h₃ :=
    settleAll_gains { s with calls := t₂, snapshotWaiters := [], commandWaiters := Dict.empty }
    s.readinessWaiter.toList hq
  rw [heq]
  have h₁ : Gains (Stateless E) s { s with calls := t₁, snapshotWaiters := [] } :=
    h₁.trans (.of_calls rfl)
  have h₂ : Gains (Stateless E) s
      { s with calls := t₂, snapshotWaiters := [], commandWaiters := Dict.empty } :=
    (h₁.trans h₂).trans (.of_calls rfl)
  exact h₂.trans h₃

theorem resolveCommand_gains (s : BazaarSession) (requestId : String) {outcome : CommandOutcome}
    (ho : E outcome) :
    Gains (Stateless E) s (s.resolveCommand requestId outcome) := by
  simp only [resolveCommand]
  split
  next => exact .of_calls rfl
  next call _ =>
    refine Gains.trans (t := { s with
      tracker := s.tracker.resolve requestId
      commandWaiters := s.commandWaiters.erase requestId }) (.of_calls rfl) (settle_gains
      fun c _ => ⟨?_, ?_⟩)
    · intro snapshot h
      cases h
    · intro other h
      cases h
      exact ho

/-- The outcome of a command that was answered with a result. -/
def resulted (result : CommandResult) : CommandOutcome :=
  { requestId := result.requestId, result := some result }

theorem onResult_gains (s : BazaarSession) {result : CommandResult} (hr : E (resulted result)) :
    Gains (Stateless E) s (s.onResult result) := by
  rw [onResult_eq]
  exact Gains.trans (t := { s with throttle := honour s.throttle result }) (.of_calls rfl)
    (resolveCommand_gains _ _ hr)

theorem onResults_gains (s : BazaarSession) {results : List CommandResult}
    (hr : ∀ r ∈ results, E (resulted r)) :
    Gains (Stateless E) s (results.foldl onResult s) := by
  induction results generalizing s with
  | nil => exact .of_calls rfl
  | cons result results ih =>
    exact (onResult_gains s (hr result List.mem_cons_self)).trans
      (ih (s.onResult result) fun r hr' => hr r (List.mem_cons_of_mem _ hr'))

/-- A waiter stands on the list for the sequence its call awaits. -/
def Listed (s : BazaarSession) (waiters : List (Nat × Nat)) : Prop :=
  ∀ w ∈ waiters, ∃ c, s.calls.get? w.2 = some c ∧ c.awaited = .snapshot w.1

/-- The call awaits a state as new as this one. -/
def Wants (awaited : Awaited) (snapshot : Snapshot) : Prop :=
  ∃ minSequence, awaited = .snapshot minSequence ∧ minSequence ≤ snapshot.snapshotSequence

/-- This state, and the call awaits one as new. -/
def Given (snapshot : Snapshot) (awaited : Awaited) (future : Future) : Prop :=
  future = .result (.snapshot snapshot) ∧ Wants awaited snapshot

theorem Listed.keeps {waiters : List (Nat × Nat)} (h : Listed s waiters) (keeps : Keeps s t) :
    Listed t waiters := by
  intro w hw
  obtain ⟨c, hc, ha⟩ := h w hw
  obtain ⟨c', hc', ha'⟩ := keeps w.2 c hc
  exact ⟨c', hc', ha'.trans ha⟩

/-- The waiters it wakes get the state they want; those still waiting stay as they were listed. -/
theorem wakeSnapshots_gains (snapshot : Snapshot) {waiters : List (Nat × Nat)}
    (h : Listed s waiters) :
    Gains (Given snapshot) s (wakeSnapshots snapshot waiters s).2 ∧
      ∀ w ∈ (wakeSnapshots snapshot waiters s).1, w ∈ waiters := by
  induction waiters generalizing s with
  | nil => exact ⟨.of_calls rfl, by simp [wakeSnapshots]⟩
  | cons w waiters ih =>
    obtain ⟨target, call⟩ := w
    have hrest : Listed s waiters := fun w hw => h w (List.mem_cons_of_mem _ hw)
    simp only [wakeSnapshots]
    split
    next htarget =>
      obtain ⟨d, hd, hawaited⟩ := h _ List.mem_cons_self
      have hsettle : Gains (Given snapshot) s (s.settle call (.result (.snapshot snapshot))) := by
        refine settle_gains fun c hc => ⟨rfl, target, ?_, htarget⟩
        rw [Option.some.inj (hc.symm.trans hd), hawaited]
      obtain ⟨hgains, hsub⟩ := ih (hrest.keeps hsettle.keeps)
      exact ⟨hsettle.trans hgains, fun w hw => List.mem_cons_of_mem _ (hsub w hw)⟩
    next =>
      obtain ⟨hgains, hsub⟩ := ih hrest
      split
      next => exact ⟨hgains, fun w hw => List.mem_cons_of_mem _ (hsub w hw)⟩
      next =>
        refine ⟨hgains, fun w hw => ?_⟩
        rcases List.mem_cons.mp hw with rfl | hw
        · exact List.mem_cons_self
        · exact List.mem_cons_of_mem _ (hsub w hw)

/-- A state a call holds is as new as it asked for, and the session's own or older. -/
def Shown (latest : Option Snapshot) (awaited : Awaited) (snapshot : Snapshot) : Prop :=
  Wants awaited snapshot ∧
    ∃ held, latest = some held ∧
    (snapshot = held ∨ snapshot.snapshotSequence < held.snapshotSequence)

structure Shows (E : CommandOutcome → Prop) (s : BazaarSession) : Prop where
  futures : ∀ j c snapshot, s.calls.get? j = some c → c.future = .result (.snapshot snapshot) →
    Shown s.latest c.awaited snapshot
  outcomes :
    ∀ j c outcome, s.calls.get? j = some c → c.future = .result (.outcome outcome) → E outcome
  listed : Listed s s.snapshotWaiters

theorem Shows.mono {E' : CommandOutcome → Prop} (h : Shows E s)
    (sub : ∀ outcome, E outcome → E' outcome) : Shows E' s :=
  ⟨h.futures, fun j c outcome hc hf => sub outcome (h.outcomes j c outcome hc hf), h.listed⟩

/-- What is shown stays shown, and calls stay entered. -/
def Carries (E : CommandOutcome → Prop) (s t : BazaarSession) : Prop :=
  Shows E s → Shows E t ∧ Keeps s t

theorem Carries.refl (s : BazaarSession) : Carries E s s := fun h => ⟨h, .refl s⟩

theorem Carries.trans (h : Carries E s t) (h' : Carries E t u) : Carries E s u := by
  intro hs
  obtain ⟨ht, hkeeps⟩ := h hs
  obtain ⟨hu, hkeeps'⟩ := h' ht
  exact ⟨hu, hkeeps.trans hkeeps'⟩

/-- Where no call comes to hold a state, and the session's own stays. -/
theorem Gains.carries (hg : Gains (Stateless E) s t) (latest : t.latest = s.latest)
    (waiters : ∀ w ∈ t.snapshotWaiters, w ∈ s.snapshotWaiters) : Carries E s t := by
  refine fun h => ⟨⟨fun j c snapshot hc hf => ?_, fun j c outcome hc hf => ?_,
    fun w hw => h.listed.keeps hg.keeps w (waiters w hw)⟩, hg.keeps⟩
  · rcases hg.gained j c hc with hless | ⟨d, hd, ha, hsame⟩
    · exact absurd hf (hless.1 snapshot)
    · rw [latest, ha]
      exact h.futures j d snapshot hd (hsame ▸ hf)
  · rcases hg.gained j c hc with hless | ⟨d, hd, _, hsame⟩
    · exact hless.2 outcome hf
    · exact h.outcomes j d outcome hd (hsame ▸ hf)

theorem Carries.moved (calls : t.calls = s.calls) (latest : t.latest = s.latest)
    (waiters : t.snapshotWaiters = s.snapshotWaiters) : Carries E s t :=
  Gains.carries (.of_calls calls) latest (by simp [waiters])

theorem failAllWaiters_carries (s : BazaarSession) (error : SessionError) :
    Carries E s (s.failAllWaiters error) := by
  refine (failAllWaiters_gains s error).carries (by simp) ?_
  obtain ⟨_, heq⟩ := s.failAllWaiters_frame error
  simp [heq]

/-- The view moves on, and the calls that waited for it hold it. -/
theorem Shows.renewed (h : Shows E s) (newer : Newer s.latest snapshot)
    (latest : t.latest = some snapshot) (gained : Gains (Given snapshot) s t)
    (listed : ∀ w ∈ t.snapshotWaiters, w ∈ s.snapshotWaiters) : Shows E t := by
  refine ⟨fun j c given hc hf => ?_, fun j c outcome hc hf => ?_, fun w hw =>
    h.listed.keeps gained.keeps w (listed w hw)⟩
  · rcases gained.gained j c hc with ⟨hgiven, hwants⟩ | ⟨d, hd, ha, hsame⟩
    · rw [hf] at hgiven
      cases hgiven
      exact ⟨hwants, snapshot, latest, .inl rfl⟩
    · obtain ⟨hwants, held, hheld, hcase⟩ := h.futures j d given hd (hsame ▸ hf)
      have hold := newer held hheld
      refine ⟨ha ▸ hwants, snapshot, latest, .inr ?_⟩
      rcases hcase with rfl | hlt
      · exact hold
      · exact hlt.trans hold
  · rcases gained.gained j c hc with ⟨hgiven, _⟩ | ⟨d, hd, _, hsame⟩
    · cases hf.symm.trans hgiven
    · exact h.outcomes j d outcome hd (hsame ▸ hf)

theorem onSnapshot_carries (s : BazaarSession)
    (hr : ∀ r ∈ snapshot.requestResults, E (resulted r)) :
    Carries E s (s.onSnapshot snapshot) := by
  by_cases hnewer : Newer s.latest snapshot
  · intro h
    rw [onSnapshot_newer hnewer]
    let renewed : BazaarSession := { s with
      latest := some snapshot
      throttle := s.throttle.updateLimit snapshot.rules.newCommandsPerStationPerTick }
    have hlisted : Listed renewed s.snapshotWaiters := h.listed.keeps (Keeps.of_calls rfl)
    obtain ⟨hwoken, hsub⟩ := wakeSnapshots_gains snapshot hlisted
    obtain ⟨table, heq⟩ := wakeSnapshots_frame snapshot s.snapshotWaiters renewed
    rw [heq] at hwoken
    let woken : BazaarSession := { renewed with
      snapshotWaiters := (wakeSnapshots snapshot s.snapshotWaiters renewed).1
      calls := table }
    have hwaked : Gains (Given snapshot) renewed woken := hwoken.trans (.of_calls rfl)
    have hgains : Gains (Given snapshot) s woken :=
      Gains.trans (t := renewed) (.of_calls rfl) hwaked
    have hshows : Shows E woken := h.renewed hnewer rfl hgains hsub
    obtain ⟨opened, waiters, table', hframe⟩ := onResults_frame woken snapshot.requestResults
    have hresults : Carries E woken (snapshot.requestResults.foldl onResult woken) := by
      refine (onResults_gains woken hr).carries ?_ ?_
      · rw [hframe]
      · rw [hframe]
        exact fun _ => id
    show Shows E (snapshot.requestResults.foldl onResult
        { (wakeSnapshots snapshot s.snapshotWaiters renewed).2 with
      snapshotWaiters := (wakeSnapshots snapshot s.snapshotWaiters renewed).1 }) ∧ Keeps s _
    rw [heq]
    obtain ⟨hdone, hkeeps⟩ := hresults hshows
    exact ⟨hdone, hgains.keeps.trans hkeeps⟩
  · rw [onSnapshot_stale hnewer]
    exact .refl s

theorem resolveCommand_carries (s : BazaarSession) (requestId : String) {outcome : CommandOutcome}
    (ho : E outcome) :
    Carries E s (s.resolveCommand requestId outcome) := by
  obtain ⟨_, _, heq⟩ := s.resolveCommand_frame requestId outcome
  refine (s.resolveCommand_gains requestId ho).carries ?_ ?_
  · rw [heq]
  · rw [heq]
    exact fun _ => id

/-- The outcomes a message brings are ones that `E` is true of. -/
def Explains (E : CommandOutcome → Prop) : ServerEvent → Prop
  | .state snapshot => ∀ r ∈ snapshot.requestResults, E (resulted r)
  | .result r => E (resulted r)
  | .protocolError error => ∀ requestId, error.requestId = some requestId →
    E { requestId := requestId, error := some error }
  | .readiness _ => True

theorem explains_any (event : ServerEvent) : Explains (fun _ => True) event := by
  cases event with
  | state => exact fun _ _ => trivial
  | result => trivial
  | protocolError => exact fun _ _ => trivial
  | readiness => trivial

theorem route_carries (s : BazaarSession) {event : ServerEvent} (explains : Explains E event) :
    Carries E s (s.route event) := by
  cases event with
  | state snapshot => exact onSnapshot_carries s explains
  | result result =>
    show Carries E s (s.onResult result)
    rw [onResult_eq]
    have hset : Carries E s { s with throttle := honour s.throttle result } := .moved rfl rfl rfl
    exact hset.trans (resolveCommand_carries _ _ explains)
  | readiness ack =>
    have hq : ∀ awaited, Stateless E awaited (.result (.readiness ack)) := by simp [Stateless]
    have hg := settleAll_gains { s with readiness := some ack } s.readinessWaiter.toList hq
    obtain ⟨table, heq⟩ := settleAll_frame { s with readiness := some ack } s.readinessWaiter.toList
      (.result (.readiness ack))
    have hset : Carries E s { s with readiness := some ack } := .moved rfl rfl rfl
    refine hset.trans (Gains.carries (t := s.resolveReadiness ack) hg ?_ ?_)
    · rw [resolveReadiness, heq]
    · rw [resolveReadiness, heq]
      exact fun _ => id
  | protocolError error =>
    simp only [route, onProtocolError]
    split
    next => exact .refl s
    next requestId hid => exact resolveCommand_carries s _ (explains requestId hid)

theorem apply_carries (s : BazaarSession) (directive : Directive) :
    Carries E s (s.apply directive).2 := by
  cases directive with
  | sendReady runId snapshotSequence =>
    simp only [apply]
    split
    next => exact .moved rfl rfl rfl
    next => exact .moved rfl rfl rfl
  | abort reason code =>
    have hset : Carries E s { s with abortReason := some reason, abortCode := code } :=
      .moved rfl rfl rfl
    exact hset.trans (failAllWaiters_carries _ _)
  | reconnect reason =>
    have hset : Carries E s { s with reconnectWanted := true } := .moved rfl rfl rfl
    exact (hset.trans (failAllWaiters_carries _ (.sessionClosed reason))).trans (.moved rfl rfl rfl)

theorem consumeEvent_carries (s : BazaarSession) {item : Item}
    (explains : ∀ event, item = .message event → Explains E event) :
    Carries E s (s.consumeEvent item).2 := by
  cases item with
  | closedSentinel =>
    have hset : Carries E s { s with closed := true, lifecycle := s.lifecycle.onDisconnected } :=
      .moved rfl rfl rfl
    exact (hset.trans (failAllWaiters_carries _ (.sessionClosed "connection closed"))).trans
      (.moved rfl rfl rfl)
  | undecodable => exact .refl s
  | message event =>
    simp only [consumeEvent]
    split
    next error _ => exact (failAllWaiters_carries s error).trans (.moved rfl rfl rfl)
    next directive lifecycle _ =>
      have hset : Carries E s { s with lifecycle := lifecycle } := .moved rfl rfl rfl
      have hroute := hset.trans (route_carries _ (explains event rfl))
      cases directive with
      | none => exact hroute
      | some directive => exact hroute.trans (apply_carries _ directive)

theorem Carries.entered (call : Nat) (c : Call)
    (same : ∀ d, s.calls.get? call = some d → c.awaited = d.awaited)
    (holds : Stateless E c.awaited c.future ∨
      ∃ d, s.calls.get? call = some d ∧ c.awaited = d.awaited ∧ c.future = d.future) :
    Carries E s { s with calls := s.calls.set call c } :=
  (Gains.entered call c same holds).carries rfl (fun _ => id)

theorem waitForSnapshot_carries (new : s.calls.get? call = none) (minSequence : Nat) :
    Carries E s (s.waitForSnapshot call minSequence).2 := by
  have hwait : Carries E s { s with
      snapshotWaiters := s.snapshotWaiters ++ [(minSequence, call)]
      calls := s.calls.set call { awaited := .snapshot minSequence, stage := .waiting } } := by
    intro h
    have hentered : Carries E s { s with
        calls := s.calls.set call { awaited := .snapshot minSequence, stage := .waiting } } :=
      .entered call _ (by simp [new]) (.inl (by simp [Stateless]))
    obtain ⟨hshows, hkeeps⟩ := hentered h
    refine ⟨⟨hshows.futures, hshows.outcomes, fun w hw => ?_⟩, hkeeps⟩
    rcases List.mem_append.mp hw with hw | hw
    · exact hshows.listed w hw
    · cases List.mem_singleton.mp hw
      exact ⟨{ awaited := .snapshot minSequence, stage := .waiting }, by simp, rfl⟩
  unfold waitForSnapshot
  dsimp only
  split
  next => exact hwait
  next =>
    split
    next => exact .refl s
    next => exact hwait

theorem waitForReadiness_carries (new : s.calls.get? call = none) :
    Carries E s (s.waitForReadiness call).2 := by
  have hentered : Carries E s
      { s with calls := s.calls.set call { awaited := .readiness, stage := .waiting } } :=
    .entered call _ (by simp [new]) (.inl (by simp [Stateless]))
  unfold waitForReadiness
  split
  next => exact .refl s
  next => exact hentered.trans (.moved rfl rfl rfl)

theorem unregister_carries (s : BazaarSession) (call : Nat) (awaited : Awaited) :
    Carries E s (s.unregister call awaited) := by
  cases awaited with
  | snapshot => exact Gains.carries (.of_calls rfl) rfl (fun w hw => List.mem_of_mem_filter hw)
  | readiness => exact .refl s
  | command => exact .moved rfl rfl rfl

theorem finish_carries {c : Call} (known : s.calls.get? call = some c)
    (reply : Except SessionError Answer) :
    Carries E s (s.finish call c reply).2 := by
  have hentered : Carries E s { s with calls := s.calls.set call { c with stage := .returned } } :=
    .entered call _ (fun d hd => by rw [Option.some.inj (known.symm.trans hd)])
      (.inr ⟨c, known, rfl, rfl⟩)
  exact hentered.trans (unregister_carries _ call c.awaited)

theorem commanding_carries
    {draft : Draft} {kind requestId : String} (new : s.calls.get? call = none)
    (hc : Commanding bodyFingerprint s call draft kind requestId outs t) : Carries E s t := by
  have hentered : Carries E s
      { s with calls := s.calls.set call { awaited := .command requestId, stage := .sending } } :=
    .entered call _ (by simp [new]) (.inl (by simp [Stateless]))
  cases hc with
  | refused => exact .moved rfl rfl rfl
  | retried => exact hentered.trans (.moved rfl rfl rfl)
  | charged => exact hentered.trans (.moved rfl rfl rfl)

theorem init_shows (throttle : CommandThrottle) : Shows E (init throttle) where
  futures j c snapshot hc := by cases hc
  outcomes j c outcome hc := by cases hc
  listed w hw := by cases hw

theorem step_carries (offline : Offline s) (hstep : Step bodyFingerprint s (ev, outs) t)
    (explains : ∀ event, ev = .item (.message event) → Explains E event) : Carries E s t := by
  cases step_enabled hstep with
  | @item item _ consumed =>
    have hconsumed : Carries E s (s.consumeEvent item).2 :=
      consumeEvent_carries s fun event heq => explains event (heq ▸ rfl)
    rwa [consumed] at hconsumed
  | readySent _ _ moved | connectionClosed _ _ moved =>
    subst moved
    exact .moved rfl rfl rfl
  | remainingCommandBudget _ moved =>
    obtain ⟨throttle, _, heq⟩ := s.remainingCommandBudget_rolled
    rw [moved, heq]
    exact .moved rfl rfl rfl
  | @waitForSnapshot call minSequence new called =>
    have hwait : Carries E s _ := waitForSnapshot_carries new minSequence
    rwa [called] at hwait
  | @waitForReadiness call new called =>
    have hwait : Carries E s _ := waitForReadiness_carries new
    rwa [called] at hwait
  | @sendCommand call draft kind requestId new called =>
    have hcommanding :=
      sendCommand_commanding bodyFingerprint call draft kind requestId offline.ineligible
    rw [called] at hcommanding
    exact commanding_carries new hcommanding
  | @payloadSent call c known _ _ moved =>
    subst moved
    exact .entered call _ (fun d hd => by rw [Option.some.inj (known.symm.trans hd)])
      (.inr ⟨c, known, rfl, rfl⟩)
  | payloadLost known _ finished =>
    have hfinish : Carries E s _ := finish_carries known (.error .connectionLost)
    rwa [finished] at hfinish
  | @timeout call c known _ _ moved =>
    subst moved
    refine .entered call _ (fun d hd => ?_) ?_
    · rw [← Option.some.inj (known.symm.trans hd)]
      exact (c.settle_spec .cancelled).1
    · unfold Call.settle
      split
      next => exact .inl (by simp [Stateless])
      next => exact .inr ⟨c, known, rfl, rfl⟩
  | @resume call c reply known _ _ finished =>
    have hfinish : Carries E s _ := finish_carries known reply
    rwa [finished] at hfinish

/-- What a call comes back with is what it held. -/
theorem step_held {c : Call} {answer : Answer} (offline : Offline s)
    (known : s.calls.get? call = some c) (hstep : Step bodyFingerprint s (ev, outs) t)
    (hr : SessionOutput.reply call (.ok answer) ∈ outs) :
    c.future = .result answer ∧ t.latest = s.latest := by
  obtain ⟨hreply, hlatest⟩ := step_reply offline hstep known hr
  refine ⟨?_, hlatest⟩
  rcases hreply with heq | hverdict
  · cases heq
  · unfold Call.verdict at hverdict
    split at hverdict
    next => cases hverdict
    next =>
      generalize c.future = future at hverdict ⊢
      cases future with
      | pending | cancelled => cases hverdict
      | result answer =>
        cases hverdict
        rfl
      | exception => cases hverdict

/-- A call that waits for a state comes back with one as new as it asked for, the
session's own or an older one. -/
theorem step_shown {c : Call} (offline : Offline s) (h : Shows E s)
    (known : s.calls.get? call = some c) (hstep : Step bodyFingerprint s (ev, outs) t)
    (hr : SessionOutput.reply call (.ok (.snapshot snapshot)) ∈ outs) :
    Shown t.latest c.awaited snapshot := by
  obtain ⟨hfuture, hlatest⟩ := step_held offline known hstep hr
  rw [hlatest]
  exact h.futures call c snapshot known hfuture

end BazaarSession

end SpaceportBazaar
