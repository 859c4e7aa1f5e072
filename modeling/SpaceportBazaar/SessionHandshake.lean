import SpaceportBazaar.SessionReadiness

namespace SpaceportBazaar

namespace BazaarSession

variable {bodyFingerprint : List UInt8 → String} {s t : BazaarSession}
  {hist : List (Event × List SessionOutput)} {ev : Event} {outs : List SessionOutput}
  {ack : ReadinessAck} {throttle : CommandThrottle}

/-- What the lifecycle knows of the declaration, in the history's terms. -/
structure Declares (hist : List (Event × List SessionOutput)) (l : SessionLifecycle) : Prop where
  first : l.state = .awaitingFirstState → l.lastSnapshotSequence = 0 ∧ ∀ q ∈ received hist,
    q.snapshotSequence = 0
  started : l.state = .awaitingReadiness ∨ l.state = .active → ∃ runId snapshotSequence,
    l.runId = some runId ∧ l.readySequence = some snapshotSequence ∧
    Declared hist runId snapshotSequence

theorem Declares.snoc {lifecycle : SessionLifecycle} {l : Event × List SessionOutput}
    (h : Declares hist lifecycle) (hnothing :
      lifecycle.state = .awaitingFirstState → ∀ q ∈ (receivedIn l).toList, q.snapshotSequence = 0) :
    Declares (hist ++ [l]) lifecycle where
  first hs := by
    obtain ⟨hlast, hfirst⟩ := h.first hs
    refine ⟨hlast, fun q hq => ?_⟩
    rw [received_snoc] at hq
    exact (List.mem_append.mp hq).elim (hfirst q) (hnothing hs q)
  started hs := by
    obtain ⟨runId, snapshotSequence, hrun, hseq, hdeclared⟩ := h.started hs
    exact ⟨runId, snapshotSequence, hrun, hseq, hdeclared.snoc⟩

theorem Declares.state {snapshot : Snapshot}
    {directive : Option Directive} {lifecycle : SessionLifecycle} (h : Declares hist s.lifecycle)
    (accepted : s.lifecycle.onEvent (.state snapshot) = .ok (directive, lifecycle))
    (declared : outs = readies directive) :
    Declares (hist ++ [(.item (.message (.state snapshot)), outs)]) lifecycle := by
  cases SessionLifecycle.onSnapshot_followed accepted with
  | old hold =>
    refine h.snoc fun hs q hq => ?_
    have hqs : q = snapshot := by simpa [receivedIn, eq_comm] using hq
    rw [hqs]
    have hlast := (h.first hs).1
    omega
  | first hlt hwaiting =>
    refine ⟨by simp, fun _ => ⟨snapshot.runId, snapshot.snapshotSequence, rfl, rfl, ?_⟩⟩
    exact declared_first (h.first hwaiting).2 (by omega) (by simp [declared, readies])
  | later hlt hstarted hrun =>
    refine ⟨fun hs => absurd hs hstarted, fun hs => ?_⟩
    obtain ⟨runId, snapshotSequence, hid, hseq, hdeclared⟩ := h.started hs
    have hsame : some snapshot.runId = some runId := by
      rcases hrun with hrun | hrun
      · rw [hid] at hrun
        cases hrun
      · rw [← hid, hrun]
    exact ⟨runId, snapshotSequence, hsame, hseq, hdeclared.snoc⟩

theorem Declares.readiness {directive : Option Directive} {lifecycle : SessionLifecycle}
    (h : Declares hist s.lifecycle)
    (accepted : s.lifecycle.onReadiness ack = (directive, lifecycle)) :
    Declares (hist ++ [(.item (.message (.readiness ack)), outs)]) lifecycle := by
  have hkeep := h.snoc (l := (.item (.message (.readiness ack)), outs)) (by simp [receivedIn])
  unfold SessionLifecycle.onReadiness at accepted
  split_ifs at accepted with hs
  · cases accepted
    exact hkeep
  · cases accepted
    exact hkeep
  · cases accepted
    exact hkeep
  · cases accepted
    exact hkeep
  · cases accepted
    exact ⟨by simp, fun _ => hkeep.started (.inl (not_not.mp hs))⟩

theorem Declares.routed {event : ServerEvent} {directive : Option Directive}
    {lifecycle : SessionLifecycle} (h : Declares hist s.lifecycle)
    (accepted : s.lifecycle.onEvent event = .ok (directive, lifecycle))
    (declared : outs = readies directive) :
    Declares (hist ++ [(.item (.message event), outs)]) lifecycle := by
  cases event with
  | state snapshot => exact h.state accepted declared
  | readiness ack => exact h.readiness (Except.ok.inj accepted)
  | protocolError event =>
    have accepted : s.lifecycle.onProtocolError event = (directive, lifecycle) :=
      Except.ok.inj accepted
    unfold SessionLifecycle.onProtocolError at accepted
    split_ifs at accepted
    · cases accepted
      exact ⟨by simp, by simp⟩
    · cases accepted
      exact ⟨by simp, by simp⟩
    · cases accepted
      exact h.snoc (by simp [receivedIn])
  | result result =>
    cases accepted
    exact h.snoc (by simp [receivedIn])

theorem step_declares (ho : Offline s) (h : Running s → Declares hist s.lifecycle)
    (hstep : Step bodyFingerprint s (ev, outs) t) :
    Running t → Declares (hist ++ [(ev, outs)]) t.lifecycle := by
  intro hrunning
  cases (step_turn ho hstep).1 with
  | idle plain _ lifecycle _ _ _ running =>
    rw [lifecycle]
    exact (h (running hrunning)).snoc (by simp [(Plain.quiet plain outs).1])
  | stopped stopped => exact absurd stopped hrunning.1
  | routed reading accepted moved _ _ declared =>
    rw [moved]
    have hbefore : Running s := by simp [Running, reading]
    exact (h hbefore).routed accepted (declared.resolve_right fun hnot => hnot.2 hrunning)
  | commanded commanding =>
    cases commanding <;> exact (h hrunning).snoc (by simp [receivedIn])

/-- What is known of the declaration after every step. -/
theorem run_declares (run : Machine.Run (Step bodyFingerprint) (init throttle) hist s) :
    Offline s ∧ (Running s → Declares hist s.lifecycle) := by
  refine run.invariant
    (I := fun hist s => Offline s ∧ (Running s → Declares hist s.lifecycle)) ?_ ?_
  · exact ⟨init_offline throttle, fun _ =>
        ⟨fun _ => ⟨rfl, by simp [received]⟩, by simp [init, start,
      SessionLifecycle.onConnected]⟩⟩
  · rintro hist s ⟨ev, outs⟩ t ⟨ho, hdeclares⟩ hstep
    exact ⟨(step_turn ho hstep).2, step_declares ho hdeclares hstep⟩

/-- The arrival of an acknowledgement, in a label. -/
def arrival (ack : ReadinessAck) : Event := .item (.message (.readiness ack))

/-- The acknowledgement turns the lifecycle active. -/
def Activates (s : BazaarSession) (ack : ReadinessAck) : Prop :=
  s.lifecycle.state ≠ .active ∧ (s.lifecycle.onReadiness ack).2.state = .active

instance (s : BazaarSession) (ack : ReadinessAck) : Decidable (Activates s ack) :=
  inferInstanceAs (Decidable (_ ∧ _))

/-- An acknowledgement that arrives in this step turns the lifecycle active, or
repeats an earlier one. -/
def Activating (hist : List (Event × List SessionOutput)) (s : BazaarSession)
    (l : Event × List SessionOutput) : Prop :=
  ∀ ack, l.1 = arrival ack → Activates s ack ∨ arrival ack ∈ hist.map Prod.fst

/-- The lifecycle lets itself be turned active by the confirmation of its declaration only. -/
theorem Activates.confirms (h : Activates s ack) :
    s.lifecycle.state = .awaitingReadiness ∧ ack.ready = true ∧
    s.lifecycle.runId = some ack.runId ∧ s.lifecycle.readySequence = some ack.snapshotSequence := by
  obtain ⟨hbefore, hafter⟩ := h
  unfold SessionLifecycle.onReadiness at hafter
  split_ifs at hafter with hstate hrun hsequence hready
  · exact absurd hafter hbefore
  · exact absurd hafter hbefore
  · exact absurd hafter hbefore
  · exact absurd hafter hbefore
  · exact ⟨not_not.mp hstate,
      by simpa using hready, (not_not.mp hrun).symm, (not_not.mp hsequence).symm⟩

/-- The acknowledgement came in at some point of the run as the confirmation of what was declared
before it, and the lifecycle was active from there. -/
def Confirmed (bodyFingerprint : List UInt8 → String) (throttle : CommandThrottle)
    (hist : List (Event × List SessionOutput)) (ack : ReadinessAck) : Prop :=
  ∃ past outs later u, hist = past ++ (arrival ack, outs) :: later ∧
    Machine.Run (Step bodyFingerprint) (init throttle) (past ++ [(arrival ack, outs)]) u ∧
    u.lifecycle.state = .active ∧ u.lifecycle.runId = some ack.runId ∧ ack.ready = true ∧
    Declared past ack.runId ack.snapshotSequence

theorem Confirmed.snoc {l : Event × List SessionOutput}
    (h : Confirmed bodyFingerprint throttle hist ack) :
    Confirmed bodyFingerprint throttle (hist ++ [l]) ack := by
  obtain ⟨past, outs, later, u, rfl, hrest⟩ := h
  exact ⟨past, outs, later ++ [l], u, by simp, hrest⟩

/-- Where an arrival leaves the lifecycle. -/
theorem arrival_moves (hstep : Step bodyFingerprint s (arrival ack, outs) t) :
    Running s ∧ t.lifecycle = (s.lifecycle.onReadiness ack).2 := by
  obtain ⟨hreading, hconsumed⟩ := step_enabled hstep
  have hmoved := (consumeEvent_accepted hreading
    (show s.lifecycle.onEvent (.readiness ack) = .ok (s.lifecycle.onReadiness ack) from rfl)).1
  rw [hconsumed] at hmoved
  exact ⟨by simp [Running, hreading], hmoved⟩

theorem activates_declared (declares : Running s → Declares hist s.lifecycle) (h : Activates s ack)
    (hstep : Step bodyFingerprint s (arrival ack, outs) t) :
    t.lifecycle.state = .active ∧ t.lifecycle.runId = some ack.runId ∧ ack.ready = true ∧
      Declared hist ack.runId ack.snapshotSequence := by
  obtain ⟨hrunning, hmoved⟩ := arrival_moves hstep
  obtain ⟨hstate, hready, hrun, hsequence⟩ := h.confirms
  obtain ⟨runId, snapshotSequence, hid, hseq, hdeclared⟩ :=
    (declares hrunning).started (.inl hstate)
  obtain rfl : runId = ack.runId := Option.some.inj (hid.symm.trans hrun)
  obtain rfl : snapshotSequence = ack.snapshotSequence :=
    Option.some.inj (hseq.symm.trans hsequence)
  have hkept : (s.lifecycle.onReadiness ack).2.runId = s.lifecycle.runId := by
    unfold SessionLifecycle.onReadiness
    split_ifs <;> rfl
  rw [hmoved]
  exact ⟨h.2, hkept.trans hrun, hready, hdeclared⟩

/-- What is known after steps in which every acknowledgement turned the lifecycle
active or came again. -/
theorem run_confirmed (run :
      Machine.GuardedRun Activating (Step bodyFingerprint) (init throttle) hist s) :
    (∀ ack, Holds s ack → arrival ack ∈ hist.map Prod.fst) ∧
      ∀ ack, arrival ack ∈ hist.map Prod.fst → Confirmed bodyFingerprint throttle hist ack := by
  induction run with
  | start =>
    refine ⟨?_, by simp⟩
    rintro ack (h | ⟨j, c, hc, -⟩)
    · cases h
    · simp [init, start] at hc
  | @next hist s l t hrun hguard hstep ih =>
    obtain ⟨hheld, hconfirmed⟩ := ih
    obtain ⟨ev, outs⟩ := l
    obtain ⟨ho, hdeclares⟩ := run_declares hrun.run
    refine ⟨fun ack hack => ?_, fun ack hack => ?_⟩
    · rcases (step_holds ho hstep).1 ack hack with hack | rfl
      · simpa using Or.inl (List.mem_map.mp (hheld ack hack))
      · simp [arrival]
    · rw [List.map_append, List.mem_append] at hack
      rcases hack with hack | hack
      · exact (hconfirmed ack hack).snoc
      · obtain rfl : arrival ack = ev := by simpa using hack
        rcases hguard ack rfl with hactivates | hrepeats
        · obtain ⟨hactive, hid, hready, hdeclared⟩ := activates_declared hdeclares hactivates hstep
          exact ⟨hist, outs, [], t, rfl, hrun.run.next hstep, hactive, hid, hready, hdeclared⟩
        · exact (hconfirmed ack hrepeats).snoc

/-- No other event of the server turns the lifecycle active. -/
theorem onEvent_activates
    {event : ServerEvent} {directive : Option Directive} {lifecycle : SessionLifecycle}
    (accepted : s.lifecycle.onEvent event = .ok (directive, lifecycle))
    (before : s.lifecycle.state ≠ .active) (after : lifecycle.state = .active) :
    ∃ ack, event = .readiness ack ∧ Activates s ack := by
  cases event with
  | state snapshot =>
    cases SessionLifecycle.onSnapshot_followed accepted with
    | old => exact absurd after before
    | first => cases after
    | later => exact absurd after before
  | readiness ack =>
    have hmoved : s.lifecycle.onReadiness ack = (directive, lifecycle) := Except.ok.inj accepted
    exact ⟨ack, rfl, before, by rw [hmoved]; exact after⟩
  | protocolError event =>
    have accepted : s.lifecycle.onProtocolError event = (directive, lifecycle) :=
      Except.ok.inj accepted
    unfold SessionLifecycle.onProtocolError at accepted
    split_ifs at accepted
    · cases accepted
      cases after
    · cases accepted
      cases after
    · cases accepted
      exact absurd after before
  | result result =>
    cases accepted
    exact absurd after before

/-- The lifecycle turns active in no other way. -/
theorem step_activates (ho : Offline s) (hstep : Step bodyFingerprint s (ev, outs) t)
    (before : s.lifecycle.state ≠ .active) (after : t.lifecycle.state = .active) :
    ∃ ack, ev = arrival ack ∧ Activates s ack := by
  cases (step_turn ho hstep).1 with
  | idle _ _ lifecycle =>
    rw [lifecycle] at after
    exact absurd after before
  | @stopped item _ stopped =>
    obtain ⟨hreading, hconsumed⟩ := step_enabled hstep
    cases item with
    | closedSentinel =>
      have hover : t.lifecycle.Over := by
        have := s.lifecycle.onDisconnected_over
        simp only [consumeEvent, Prod.mk.injEq] at hconsumed
        simpa [← hconsumed.2] using this
      rcases hover with hover | hover <;> simp [hover] at after
    | undecodable =>
      simp only [consumeEvent, Prod.mk.injEq] at hconsumed
      exact absurd (hconsumed.2 ▸ after) before
    | message event =>
      cases hevent : s.lifecycle.onEvent event with
      | error error =>
        simp only [consumeEvent, hevent, Prod.mk.injEq] at hconsumed
        rw [← hconsumed.2] at after
        exact absurd (by simpa using after) before
      | ok r =>
        have hmoved := (consumeEvent_accepted hreading hevent).1
        rw [hconsumed] at hmoved
        obtain ⟨ack, rfl, h⟩ := onEvent_activates hevent before (hmoved ▸ after)
        exact ⟨ack, rfl, h⟩
  | routed _ accepted moved =>
    obtain ⟨ack, rfl, h⟩ := onEvent_activates accepted before (moved ▸ after)
    exact ⟨ack, rfl, h⟩
  | commanded commanding => cases commanding <;> exact absurd after before

/-- As long as every acknowledgement that arrives turns the lifecycle active or repeats one that
did, what a wait for readiness returns is the confirmation of this connection's declaration, and
the lifecycle was active when it came. Whatever arrives, nothing but such a confirmation turns
the lifecycle active. -/
theorem readiness_confirmed {l : Event × List SessionOutput} :
    (∀ call, Machine.GuardedRun Activating (Step bodyFingerprint) (init throttle) hist s →
      Step bodyFingerprint s l t →
      SessionOutput.reply call (.ok (.readiness ack)) ∈ l.2 →
      Confirmed bodyFingerprint throttle hist ack) ∧
    (Machine.Run (Step bodyFingerprint) (init throttle) hist s → Step bodyFingerprint s l t →
      s.lifecycle.state ≠ .active → t.lifecycle.state = .active →
      ∃ ack, l.1 = arrival ack ∧ t.lifecycle.runId = some ack.runId ∧ ack.ready = true ∧
        Declared hist ack.runId ack.snapshotSequence) := by
  obtain ⟨ev, outs⟩ := l
  refine ⟨fun call run hstep hreply => ?_, fun run hstep before after => ?_⟩
  · obtain ⟨hheld, hconfirmed⟩ := run_confirmed run
    exact hconfirmed ack (hheld ack ((step_holds (run_declares run.run).1 hstep).2 call ack hreply))
  · obtain ⟨ho, hdeclares⟩ := run_declares run
    obtain ⟨ack, rfl, hactivates⟩ := step_activates ho hstep before after
    exact ⟨ack, rfl, (activates_declared hdeclares hactivates hstep).2⟩

def activating? (hist : List (Event × List SessionOutput)) (s : BazaarSession) : Event → Bool
  | .item (.message (.readiness ack)) => Activates s ack || arrival ack ∈ hist.map Prod.fst
  | _ => true

theorem activating?_sound {l : Event × List SessionOutput} (h : activating? hist s l.1 = true) :
    Activating hist s l := by
  intro ack hack
  rw [hack, arrival] at h
  simpa [activating?] using h

/-- The acknowledgements that calls return. -/
def returnedAcks (outs : List SessionOutput) : List (Nat × ReadinessAck) :=
  outs.filterMap (fun o =>
    match o with
    | .reply call (.ok (.readiness ack)) => some (call, ack)
    | _ => none)

theorem mem_returnedAcks {call : Nat} (h : (call, ack) ∈ returnedAcks outs) :
    SessionOutput.reply call (.ok (.readiness ack)) ∈ outs := by
  obtain ⟨o, ho, heq⟩ := List.mem_filterMap.mp h
  split at heq
  next =>
    cases heq
    exact ho
  next => cases heq

/-- A wait that starts before the first state, and an acknowledgement for it. -/
def acknowledgedWith (ack : ReadinessAck) : List Event :=
  [.waitForReadiness 0, delivers (.state (sampleState "sim" 1 3)), .readySent true,
    delivers (.readiness ack)]

theorem readiness_confirmed_waiting : ∃ hist s,
    Machine.GuardedRun Activating (Step plainDigest) (init ⟨1, 0, 0, 0⟩) hist s ∧
      Confirmed plainDigest ⟨1, 0, 0, 0⟩ hist ⟨"sim", true, 1⟩ := by
  have hall : ((Machine.replayGuarded
      (step? plainDigest) (fun hist s l => activating? hist s l.1) [] (init ⟨1, 0, 0, 0⟩)
      (acknowledgedWith ⟨"sim", true, 1⟩)).bind (fun r =>
        (step? plainDigest r.2 (.resume 0)).map (fun f => returnedAcks f.1))) = some [(0,
            ⟨"sim", true, 1⟩)] := by
    decide +kernel
  obtain ⟨⟨hist, s⟩, hreplay, hall⟩ := Option.bind_eq_some_iff.mp hall
  obtain ⟨⟨outs, t⟩, hstep, hall⟩ := Option.map_eq_some_iff.mp hall
  have run : Machine.GuardedRun Activating (Step plainDigest) (init ⟨1, 0, 0, 0⟩) hist s :=
    Machine.guardedRun_of_replay
      (fun _ _ _ h => activating?_sound h) Machine.GuardedRun.start hreplay
  have hreply : SessionOutput.reply 0 (.ok (.readiness ⟨"sim", true, 1⟩)) ∈ outs :=
    mem_returnedAcks (by rw [show returnedAcks outs = _ from hall]; simp)
  exact ⟨hist, s, run,
    readiness_confirmed.1 0 run (show Step plainDigest s (.resume 0, outs) t from hstep) hreply⟩

/-- A wait for readiness returns an acknowledgement that says not ready, and one for a state that
was not declared, for which the lifecycle aborts. -/
theorem unconfirmed_ack_returned :
    (∃ hist s outs t, Machine.Run (Step plainDigest) (init ⟨1, 0, 0, 0⟩) hist s ∧
      Step plainDigest s (.resume 0, outs) t ∧
      SessionOutput.reply 0 (.ok (.readiness ⟨"sim", false, 1⟩)) ∈ outs ∧
      t.lifecycle.state = .awaitingReadiness) ∧
    ∃ hist s outs t, Machine.Run (Step plainDigest) (init ⟨1, 0, 0, 0⟩) hist s ∧
      Step plainDigest s (.resume 0, outs) t ∧
      SessionOutput.reply 0 (.ok (.readiness ⟨"sim", true, 7⟩)) ∈ outs ∧
      t.lifecycle.state = .awaitingReadiness ∧ s.lifecycle.readySequence = some 1 ∧
      s.abortReason.isSome := by
  constructor
  · have hall : ((Machine.replay (step? plainDigest) (init ⟨1, 0, 0, 0⟩)
        (acknowledgedWith ⟨"sim", false, 1⟩)).bind (fun r =>
        (step? plainDigest r.2 (.resume 0)).map
          (fun f => (returnedAcks f.1, f.2.lifecycle.state)))) =
        some ([(0, ⟨"sim", false, 1⟩)], .awaitingReadiness) := by decide +kernel
    obtain ⟨⟨hist, s⟩, hreplay, hall⟩ := Option.bind_eq_some_iff.mp hall
    obtain ⟨⟨outs, t⟩, hstep, hall⟩ := Option.map_eq_some_iff.mp hall
    obtain ⟨hacks, hstate⟩ := Prod.mk.inj hall
    exact ⟨hist, s, outs, t, Machine.run_of_replay hreplay, hstep,
      mem_returnedAcks (by rw [show returnedAcks outs = _ from hacks]; simp), hstate⟩
  · have hall : ((Machine.replay (step? plainDigest) (init ⟨1, 0, 0, 0⟩)
        (acknowledgedWith ⟨"sim", true, 7⟩)).bind (fun r =>
        (step? plainDigest r.2 (.resume 0)).map (fun f =>
          (returnedAcks f.1, f.2.lifecycle.state, r.2.lifecycle.readySequence,
            r.2.abortReason.isSome)))) =
        some ([(0, ⟨"sim", true, 7⟩)], .awaitingReadiness, some 1, true) := by decide +kernel
    obtain ⟨⟨hist, s⟩, hreplay, hall⟩ := Option.bind_eq_some_iff.mp hall
    obtain ⟨⟨outs, t⟩, hstep, hall⟩ := Option.map_eq_some_iff.mp hall
    simp only [Prod.mk.injEq] at hall
    obtain ⟨hacks, hstate, hsequence, habort⟩ := hall
    exact ⟨hist, s, outs, t, Machine.run_of_replay hreplay, hstep, mem_returnedAcks
      (by rw [show returnedAcks outs = _ from hacks]; simp), hstate, hsequence, habort⟩

end BazaarSession

end SpaceportBazaar
