import SpaceportBazaar.SessionGate

namespace SpaceportBazaar

namespace BazaarSession

variable {s t : BazaarSession} {ack : ReadinessAck} {call : Nat} {future : Future} {c : Call}

/-- The acknowledgement is the outcome of a call. -/
def HeldBy (calls : Dict Nat Call) (ack : ReadinessAck) : Prop :=
  ∃ j c, calls.get? j = some c ∧ c.future = .result (.readiness ack)

/-- The acknowledgement is latched, or it has reached a call. -/
def Holds (s : BazaarSession) (ack : ReadinessAck) : Prop :=
  s.readiness = some ack ∨ HeldBy s.calls ack

theorem settle_held (h : HeldBy (s.settle call future).calls ack) :
    HeldBy s.calls ack ∨ future = .result (.readiness ack) := by
  obtain ⟨j, c', hc', hf⟩ := h
  simp only [settle, Dict.get?_update] at hc'
  split at hc'
  next =>
    obtain ⟨c, hc, rfl⟩ := Option.map_eq_some_iff.mp hc'
    unfold Call.settle at hf
    split at hf
    next => exact .inr hf
    next => exact .inl ⟨_, c, hc, hf⟩
  next => exact .inl ⟨j, c', hc', hf⟩

theorem settleAll_held {calls : List Nat} (h : HeldBy (s.settleAll calls future).calls ack) :
    HeldBy s.calls ack ∨ future = .result (.readiness ack) := by
  induction calls generalizing s with
  | nil => exact .inl h
  | cons call calls ih =>
    rcases ih h with h | h
    · exact settle_held h
    · exact .inr h

theorem failAllWaiters_held {error : SessionError} (h : HeldBy (s.failAllWaiters error).calls ack) :
    HeldBy s.calls ack := by
  have hne : Future.exception error ≠ .result (.readiness ack) := by simp
  unfold failAllWaiters at h
  have h₂ := (settleAll_held h).resolve_right hne
  have h₁ := (settleAll_held h₂).resolve_right hne
  exact (settleAll_held h₁).resolve_right hne

theorem resolveCommand_held {requestId : String} {outcome : CommandOutcome}
    (h : HeldBy (s.resolveCommand requestId outcome).calls ack) : HeldBy s.calls ack := by
  unfold resolveCommand at h
  dsimp only at h
  split at h
  next => exact h
  next => exact (settle_held h).resolve_right (by simp)

theorem onResult_held {result : CommandResult} (h : HeldBy (s.onResult result).calls ack) :
    HeldBy s.calls ack := by
  rw [onResult_eq] at h
  exact resolveCommand_held (s := { s with throttle := honour s.throttle result }) h

theorem onResults_held {results : List CommandResult}
    (h : HeldBy (results.foldl onResult s).calls ack) :
    HeldBy s.calls ack := by
  induction results generalizing s with
  | nil => exact h
  | cons result results ih => exact onResult_held (ih h)

theorem wakeSnapshots_held {snapshot : Snapshot} {waiters : List (Nat × Nat)}
    (h : HeldBy (wakeSnapshots snapshot waiters s).2.calls ack) : HeldBy s.calls ack := by
  induction waiters generalizing s with
  | nil => exact h
  | cons w waiters ih =>
    simp only [wakeSnapshots] at h
    split at h
    next => exact (settle_held (ih h)).resolve_right (by simp)
    next =>
      split at h
      next => exact ih h
      next => exact ih h

theorem onSnapshot_held {snapshot : Snapshot} (h : HeldBy (s.onSnapshot snapshot).calls ack) :
    HeldBy s.calls ack := by
  by_cases hnewer : Newer s.latest snapshot
  · rw [onSnapshot_newer hnewer] at h
    have hwoken := onResults_held h
    exact wakeSnapshots_held (s := { s with
      latest := some snapshot
      throttle := s.throttle.updateLimit snapshot.rules.newCommandsPerStationPerTick }) hwoken
  · rwa [onSnapshot_stale hnewer] at h

/-- Routing an event puts no acknowledgement into the session but the one it brings. -/
theorem route_holds {event : ServerEvent} (h : Holds (s.route event) ack) :
    Holds s ack ∨ event = .readiness ack := by
  cases event with
  | state snapshot =>
    have hlatched : (s.onSnapshot snapshot).readiness = s.readiness := by
      by_cases hnewer : Newer s.latest snapshot
      · obtain ⟨_, _, _, _, heq⟩ := onSnapshot_frame hnewer
        rw [heq]
      · rw [onSnapshot_stale hnewer]
    rcases h with h | h
    · exact .inl (.inl (hlatched ▸ h))
    · exact .inl (.inr (onSnapshot_held h))
  | result result =>
    have hlatched : (s.onResult result).readiness = s.readiness := by
      rw [onResult_eq]
      obtain ⟨_, _, heq⟩ :=
        resolveCommand_frame { s with throttle := honour s.throttle result } result.requestId
        { requestId := result.requestId, result := some result }
      rw [heq]
    rcases h with h | h
    · exact .inl (.inl (hlatched ▸ h))
    · exact .inl (.inr (onResult_held h))
  | readiness ack' =>
    obtain ⟨table, heq⟩ :=
      settleAll_frame { s with readiness := some ack' } s.readinessWaiter.toList
      (.result (.readiness ack'))
    rcases h with h | h
    · simp only [route, resolveReadiness, heq, Option.some.injEq] at h
      exact .inr (by rw [h])
    · rcases settleAll_held h with h | h
      · exact .inl (.inr h)
      · cases h
        exact .inr rfl
  | protocolError error =>
    simp only [route, onProtocolError] at h
    split at h
    next => exact .inl h
    next requestId _ =>
      obtain ⟨_, _, heq⟩ :=
        s.resolveCommand_frame requestId { requestId := requestId, error := some error }
      rcases h with h | h
      · rw [heq] at h
        exact .inl (.inl h)
      · exact .inl (.inr (resolveCommand_held h))

theorem failAllWaiters_holds {error : SessionError} (h : Holds (s.failAllWaiters error) ack) :
    Holds s ack := by
  obtain ⟨_, heq⟩ := s.failAllWaiters_frame error
  rcases h with h | h
  · rw [heq] at h
    exact .inl h
  · exact .inr (failAllWaiters_held h)

theorem apply_holds {directive : Directive} (h : Holds (s.apply directive).2 ack) :
    Holds s ack := by
  cases directive with
  | sendReady runId snapshotSequence =>
    simp only [apply] at h
    split at h
    next => exact h
    next => exact h
  | abort reason code =>
    exact failAllWaiters_holds (s := { s with abortReason := some reason, abortCode := code }) h
  | reconnect reason => exact failAllWaiters_holds (s := { s with reconnectWanted := true }) h

theorem consumeEvent_holds {item : Item} (h : Holds (s.consumeEvent item).2 ack) :
    Holds s ack ∨ item = .message (.readiness ack) := by
  cases item with
  | closedSentinel =>
    exact .inl (failAllWaiters_holds
      (s := { s with closed := true, lifecycle := s.lifecycle.onDisconnected }) h)
  | undecodable => exact .inl h
  | message event =>
    simp only [consumeEvent] at h
    split at h
    next => exact .inl (failAllWaiters_holds h)
    next directive lifecycle _ =>
      have hrouted : Holds ({ s with lifecycle := lifecycle }.route event) ack := by
        cases directive with
        | none => exact h
        | some directive => exact apply_holds h
      rcases route_holds hrouted with h | h
      · exact .inl h
      · exact .inr (by rw [h])

/-- Entering a call, or moving it on, hands no acknowledgement to it that it did not have. -/
theorem set_held {calls : Dict Nat Call}
    (hc : ∀ ack, c.future = .result (.readiness ack) → HeldBy calls ack)
    (h : HeldBy (calls.set call c) ack) : HeldBy calls ack := by
  obtain ⟨j, c', hc', hf⟩ := h
  rcases Dict.get?_set_some hc' with ⟨-, rfl⟩ | ⟨-, hc'⟩
  · exact hc ack hf
  · exact ⟨j, c', hc', hf⟩

theorem Holds.calls {calls : Dict Nat Call} (h : Holds t ack) (hlatched : t.readiness = s.readiness)
    (hcalls : t.calls = calls) (hheld : HeldBy calls ack → HeldBy s.calls ack) : Holds s ack := by
  rcases h with h | h
  · exact .inl (hlatched ▸ h)
  · exact .inr (hheld (hcalls ▸ h))

theorem finish_holds {reply : Except SessionError Answer} {outs : List SessionOutput}
    (hc : s.calls.get? call = some c) (finished : s.finish call c reply = (outs, t)) :
    (∀ ack, Holds t ack → Holds s ack) ∧ ∀ call' reply', SessionOutput.reply call' reply' ∈ outs →
    reply' = reply := by
  have hset : ∀ ack, HeldBy (s.calls.set call { c with stage := .returned }) ack →
      HeldBy s.calls ack :=
    fun ack => set_held fun ack hf => ⟨call, c, hc, hf⟩
  unfold finish unregister at finished
  cases finished
  refine ⟨fun ack h => ?_, by simp⟩
  split at h <;> exact h.calls rfl rfl (hset ack)

section Stepping

variable {bodyFingerprint : List UInt8 → String} {ev : Event} {outs : List SessionOutput}

theorem waitForSnapshot_holds {minSequence : Nat}
    (called : s.waitForSnapshot call minSequence = (outs, t)) :
    (∀ ack, Holds t ack → Holds s ack) ∧ ∀ call' ack,
    SessionOutput.reply call' (.ok (.readiness ack)) ∉ outs := by
  unfold waitForSnapshot at called
  dsimp only at called
  split at called
  next =>
    cases called
    exact ⟨fun ack h => h.calls rfl rfl (set_held (by simp)), by simp⟩
  next =>
    split at called
    next =>
      cases called
      exact ⟨fun ack h => h, by simp⟩
    next =>
      cases called
      exact ⟨fun ack h => h.calls rfl rfl (set_held (by simp)), by simp⟩

theorem waitForReadiness_holds (called : s.waitForReadiness call = (outs, t)) :
    (∀ ack, Holds t ack → Holds s ack) ∧
      ∀ call' ack, SessionOutput.reply call' (.ok (.readiness ack)) ∈ outs → Holds s ack := by
  unfold waitForReadiness at called
  split at called
  next ack hlatched =>
    cases called
    refine ⟨fun ack h => h, fun call' ack' h => ?_⟩
    cases List.mem_singleton.mp h
    exact .inl hlatched
  next =>
    cases called
    exact ⟨fun ack h => h.calls rfl rfl (set_held (by simp)), by simp⟩

/-- An acknowledgement comes into the session as a message, and what a call returns was in it. -/
theorem step_holds (ho : Offline s) (hstep : Step bodyFingerprint s (ev, outs) t) :
    (∀ ack, Holds t ack → Holds s ack ∨ ev = .item (.message (.readiness ack))) ∧
      ∀ call ack, SessionOutput.reply call (.ok (.readiness ack)) ∈ outs → Holds s ack := by
  cases step_enabled hstep with
  | @item item _ consumed =>
    have hin : ∀ ack, Holds (s.consumeEvent item).2 ack → Holds s ack ∨
        item = .message (.readiness ack) :=
      fun ack => consumeEvent_holds
    have hout : ∀ call reply, SessionOutput.reply call reply ∉ (s.consumeEvent item).1 :=
      consumeEvent_silent item
    rw [consumed] at hin hout
    exact ⟨fun ack h => (hin ack h).imp id (congrArg Event.item), fun call ack h =>
      absurd h (hout call _)⟩
  | readySent _ silent moved | connectionClosed _ silent moved =>
    subst silent moved
    exact ⟨fun ack h => .inl h, by simp⟩
  | remainingCommandBudget silent moved =>
    obtain ⟨throttle, _, heq⟩ := s.remainingCommandBudget_rolled
    rw [silent, moved, heq]
    exact ⟨fun ack h => .inl h, by simp⟩
  | waitForSnapshot _ called =>
    obtain ⟨hin, hout⟩ := waitForSnapshot_holds called
    exact ⟨fun ack h => .inl (hin ack h), fun call ack h => absurd h (hout call ack)⟩
  | waitForReadiness _ called =>
    obtain ⟨hin, hout⟩ := waitForReadiness_holds called
    exact ⟨fun ack h => .inl (hin ack h), hout⟩
  | @sendCommand call draft kind requestId _ called =>
    have hcommanding :=
      sendCommand_commanding bodyFingerprint call draft kind requestId ho.ineligible
    rw [called] at hcommanding
    cases hcommanding with
    | refused => exact ⟨fun ack h => .inl h, by simp⟩
    | retried | charged => exact ⟨fun ack h => .inl (h.calls rfl rfl (set_held (by simp))), by simp⟩
  | @payloadSent call c known _ silent moved =>
    subst silent moved
    exact ⟨fun ack h =>
      .inl (h.calls rfl rfl (set_held fun ack hf => ⟨call, c, known, hf⟩)), by simp⟩
  | @payloadLost call c known _ finished =>
    obtain ⟨hin, hout⟩ := finish_holds known finished
    exact ⟨fun ack h => .inl (hin ack h), fun call' ack h => by cases hout call' _ h⟩
  | @timeout call c known _ silent moved =>
    subst silent moved
    refine ⟨fun ack h => .inl (h.calls rfl rfl (set_held fun ack hf => ?_)), by simp⟩
    unfold Call.settle at hf
    split at hf
    next => cases hf
    next => exact ⟨call, c, known, hf⟩
  | @resume call c reply known _ verdict finished =>
    obtain ⟨hin, hout⟩ := finish_holds known finished
    refine ⟨fun ack h => .inl (hin ack h), fun call' ack h => .inr ⟨call, c, known, verdict_ok ?_⟩⟩
    rw [verdict, hout call' _ h]

end Stepping

end BazaarSession

end SpaceportBazaar
