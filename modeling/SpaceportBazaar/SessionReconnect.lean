import SpaceportBazaar.SessionGate

namespace SpaceportBazaar

namespace SessionLifecycle

variable {l l' : SessionLifecycle} {event : ServerEvent} {directive : Option Directive}

/-- Only a state moves the phase and the sequence the lifecycle goes by. -/
theorem onEvent_phase (h : l.onEvent event = .ok (directive, l'))
    (plain : ∀ snapshot, event ≠ .state snapshot) :
    l'.phase = l.phase ∧ l'.lastSnapshotSequence = l.lastSnapshotSequence := by
  cases event with
  | state snapshot => exact absurd rfl (plain snapshot)
  | readiness ack =>
    have heq : (l.onReadiness ack).2 = l' := congrArg Prod.snd (Except.ok.inj h)
    rw [← heq]
    unfold onReadiness
    split_ifs <;> exact ⟨rfl, rfl⟩
  | protocolError error =>
    have heq : (l.onProtocolError error).2 = l' := congrArg Prod.snd (Except.ok.inj h)
    rw [← heq]
    unfold onProtocolError
    split_ifs <;> exact ⟨rfl, rfl⟩
  | result result =>
    have heq : l = l' := congrArg Prod.snd (Except.ok.inj h)
    rw [heq]
    exact ⟨rfl, rfl⟩

theorem onDisconnected_phase (l : SessionLifecycle) :
    l.onDisconnected.phase = l.phase ∧ l.onDisconnected.lastSnapshotSequence =
      l.lastSnapshotSequence := by
  unfold onDisconnected
  split <;> exact ⟨rfl, rfl⟩

end SessionLifecycle

namespace BazaarSession

variable {bodyFingerprint : List UInt8 → String} {s t : BazaarSession} {ev : Event}
  {outs : List SessionOutput} {snapshot : Snapshot}

/-- `start` on a session object that may have been connected before: a new pump reads
the new connection. -/
def reopen (s : BazaarSession) : BazaarSession := { s.start with pump := .reading }

theorem reopen_offline (s : BazaarSession) : Offline s.reopen := by
  intro hc
  simp [reopen, start] at hc

/-- The state an event hands on, if the lifecycle lets it through. -/
def deliveredBy (s : BazaarSession) : Event → List Snapshot
  | .item (.message (.state snapshot)) =>
    match s.lifecycle.onSnapshot snapshot with
    | .ok _ => [snapshot]
    | .error _ => []
  | _ => []

/-- What a step makes of the view: nothing, or what its state makes of it. -/
inductive Sees (s : BazaarSession) (ev : Event) (t : BazaarSession) : Prop
  | nothing (none : s.deliveredBy ev = []) (latest : t.latest = s.latest)
    (phase : t.lifecycle.phase = s.lifecycle.phase ∧
      t.lifecycle.lastSnapshotSequence = s.lifecycle.lastSnapshotSequence)
  | state {snapshot directive} (one : s.deliveredBy ev = [snapshot])
    (followed : SessionLifecycle.Followed s.lifecycle snapshot directive t.lifecycle)
    (view : Newer s.latest snapshot ∧ t.latest = some snapshot ∨ ¬ Newer s.latest snapshot ∧
    t.latest = s.latest)

theorem route_latest (s : BazaarSession) (snapshot : Snapshot) :
    Newer s.latest snapshot ∧ (s.route (.state snapshot)).latest = some snapshot ∨
      ¬ Newer s.latest snapshot ∧ (s.route (.state snapshot)).latest = s.latest := by
  by_cases h : Newer s.latest snapshot
  · obtain ⟨_, _, _, _, heq⟩ := onSnapshot_frame h
    exact Or.inl ⟨h, by simp only [route, heq]⟩
  · exact Or.inr ⟨h, by simp only [route, onSnapshot_stale h]⟩

theorem consumeEvent_sees (hp : s.pump = .reading) (item : Item) : Sees s (.item item)
      (s.consumeEvent item).2 := by
  cases item with
  | closedSentinel => exact .nothing rfl (by simp [consumeEvent]) (by
    simpa [consumeEvent] using s.lifecycle.onDisconnected_phase)
  | undecodable => exact .nothing rfl rfl ⟨rfl, rfl⟩
  | message event =>
    cases h : s.lifecycle.onEvent event with
    | error error =>
      have hsame : (s.consumeEvent (.message event)).2 =
          { s.failAllWaiters error with pump := .returned } := by
        simp only [consumeEvent, h]
      rw [hsame]
      refine .nothing ?_ (by simp) (by simp)
      cases event with
      | state snapshot =>
        have h : s.lifecycle.onSnapshot snapshot = .error error := h
        simp only [deliveredBy, h]
      | readiness | result | protocolError => rfl
    | ok next =>
      obtain ⟨directive, lifecycle⟩ := next
      obtain ⟨hl, hlatest⟩ := consumeEvent_accepted hp h
      cases event with
      | state snapshot =>
        have hfollowed := SessionLifecycle.onSnapshot_followed h
        have h : s.lifecycle.onSnapshot snapshot = .ok (directive, lifecycle) := h
        rw [← hl] at hfollowed
        refine .state (by simp only [deliveredBy, h]) hfollowed ?_
        rw [hlatest]
        exact route_latest { s with lifecycle := lifecycle } snapshot
      | readiness ack =>
        obtain ⟨_, hroute⟩ :=
          settleAll_frame { s with lifecycle := lifecycle, readiness := some ack }
          s.readinessWaiter.toList (.result (.readiness ack))
        refine .nothing rfl ?_ ?_
        · rw [hlatest]
          simp only [route, resolveReadiness, hroute]
        · rw [hl]
          exact SessionLifecycle.onEvent_phase h (by simp)
      | result r =>
        obtain ⟨_, _, hroute⟩ := onResult_frame { s with lifecycle := lifecycle } r
        refine .nothing rfl ?_ ?_
        · rw [hlatest]
          simp only [route, hroute]
        · rw [hl]
          exact SessionLifecycle.onEvent_phase h (by simp)
      | protocolError error =>
        have hroute := (route_view { s with lifecycle := lifecycle } (.protocolError error))
        refine .nothing rfl ?_ ?_
        · rw [hlatest]
          generalize ({ s with lifecycle := lifecycle }.route (.protocolError error)).latest =
            latest at hroute
          generalize ({ s with lifecycle := lifecycle }.route (.protocolError error)).throttle =
            throttle at hroute
          cases hroute
          rfl
        · rw [hl]
          exact SessionLifecycle.onEvent_phase h (by simp)

theorem step_sees (ho : Offline s) (hstep : Step bodyFingerprint s (ev, outs) t) : Sees s ev t := by
  have hturn := (step_turn ho hstep).1
  cases ev with
  | item item =>
    obtain ⟨hp, hconsumed⟩ := step_enabled hstep
    have hsees := consumeEvent_sees hp item
    rwa [hconsumed] at hsees
  | sendCommand call draft kind requestId =>
    cases hturn with
    | idle _ _ lifecycle _ latest => exact .nothing rfl latest (by simp [lifecycle])
    | commanded commanding => cases commanding <;> exact .nothing rfl rfl ⟨rfl, rfl⟩
  | readySent | connectionClosed | remainingCommandBudget | waitForSnapshot | waitForReadiness
  | payloadSent | timeout | resume =>
    cases hturn with
    | idle _ _ lifecycle _ latest => exact .nothing rfl latest (by simp [lifecycle])

end BazaarSession

/-- One session object over all the connections it is started on, with the states
delivered on the current one. -/
structure Reconnecting where
  session : BazaarSession
  delivered : List Snapshot := []

namespace Reconnecting

open BazaarSession (Offline Newer deliveredBy)

inductive Event
  | start
  | turn (event : BazaarSession.Event)
  deriving DecidableEq

def news (c : Reconnecting) : Event → List Snapshot
  | .start => []
  | .turn event => deliveredBy c.session event

section Steps

variable (bodyFingerprint : List UInt8 → String)

def step? (c : Reconnecting) : Event → Option (List SessionOutput × Reconnecting)
  | .start => some ([], { session := c.session.reopen })
  | .turn event =>
    (BazaarSession.step? bodyFingerprint c.session event).map (fun r =>
      (r.1, { session := r.2, delivered := c.delivered ++ deliveredBy c.session event }))

abbrev Label : Type := Event × List SessionOutput

def Step : Reconnecting → Label → Reconnecting → Prop := Machine.ofFunction (step? bodyFingerprint)

end Steps

def init (throttle : CommandThrottle) : Reconnecting := { session := .init throttle }

/-- The server numbers the states of a connection from 1. -/
def Numbered (c : Reconnecting) (l : Label) : Prop :=
  ∀ snapshot ∈ c.news l.1, 1 ≤ snapshot.snapshotSequence

/-- The first state of a connection is newer than what is held from the last one, or is it. -/
def Outranks (c : Reconnecting) (l : Label) : Prop :=
  ∀ snapshot ∈ c.news l.1, c.delivered = [] → ∀ held, c.session.latest = some held →
    held.snapshotSequence < snapshot.snapshotSequence ∨ held = snapshot

/-- The view is the newest state of the connection, and the lifecycle goes by it. -/
def Current (c : Reconnecting) : Prop :=
  c.delivered ≠ [] → ∃ held ∈ c.delivered, c.session.latest = some held ∧
    (∀ q ∈ c.delivered, q.snapshotSequence ≤ held.snapshotSequence) ∧
    c.session.lifecycle.phase = some held.phase ∧ c.session.lifecycle.lastSnapshotSequence =
    held.snapshotSequence

/-- A state no newer than one already delivered changes nothing. -/
def IgnoresStale (c : Reconnecting) (l : Label) (c' : Reconnecting) : Prop :=
  ∀ snapshot ∈ c.news l.1, (∃ q ∈ c.delivered, snapshot.snapshotSequence ≤ q.snapshotSequence) →
    c'.session.latest = c.session.latest ∧ c'.session.lifecycle.phase = c.session.lifecycle.phase

/-- As long as nothing was delivered the lifecycle expects the first state. -/
structure Matched (c : Reconnecting) : Prop where
  offline : Offline c.session
  fresh : c.delivered = [] → c.session.lifecycle.lastSnapshotSequence = 0
  current : Current c

variable {bodyFingerprint : List UInt8 → String} {throttle : CommandThrottle} {hist : List Label}
  {c c' : Reconnecting} {l : Label} {snapshot : Snapshot}

/-- A state that is newer than all before leaves its mark on the lifecycle. -/
theorem followed_marks {lifecycle lifecycle' : SessionLifecycle} {directive : Option Directive}
    (newer : lifecycle.lastSnapshotSequence < snapshot.snapshotSequence)
    (followed : SessionLifecycle.Followed lifecycle snapshot directive lifecycle') :
    lifecycle'.phase = some snapshot.phase ∧
      lifecycle'.lastSnapshotSequence = snapshot.snapshotSequence := by
  cases followed with
  | old hold => omega
  | first => exact ⟨rfl, rfl⟩
  | later => exact ⟨rfl, rfl⟩

/-- The first state of a connection: the lifecycle takes it in any case. -/
theorem current_first (c' : Reconnecting) {directive : Option Directive}
    (hfresh : c.session.lifecycle.lastSnapshotSequence = 0)
    (hpos : 1 ≤ snapshot.snapshotSequence) (hdelivered : c'.delivered = [snapshot]) (followed :
      SessionLifecycle.Followed c.session.lifecycle snapshot directive c'.session.lifecycle)
    (view : Newer c.session.latest snapshot ∧ c'.session.latest = some snapshot ∨
      ¬ Newer c.session.latest snapshot ∧ c'.session.latest = c.session.latest) :
    Current c' ↔ ∀ held, c.session.latest = some held →
      held.snapshotSequence < snapshot.snapshotSequence ∨ held = snapshot := by
  have hlifecycle := followed_marks (by omega) followed
  have hshown : Current c' ↔ c'.session.latest = some snapshot := by
    constructor
    · intro hc
      obtain ⟨held, hmem, hlatest, _⟩ := hc (by simp [hdelivered])
      rw [hdelivered] at hmem
      rwa [← List.mem_singleton.mp hmem]
    · intro hlatest _
      refine ⟨snapshot, by simp [hdelivered], hlatest, fun q hq => ?_, hlifecycle⟩
      rw [hdelivered] at hq
      rw [List.mem_singleton.mp hq]
  rw [hshown]
  rcases view with ⟨hnewer, hlatest⟩ | ⟨hold, hlatest⟩
  · exact ⟨fun _ held hheld => Or.inl (hnewer held hheld), fun _ => hlatest⟩
  · rw [hlatest]
    constructor
    · intro hsame held hheld
      exact Or.inr (Option.some.inj (hheld.symm.trans hsame))
    · intro houtranks
      by_contra hne
      refine hold (fun held hheld => ?_)
      rcases houtranks held hheld with hlt | rfl
      · exact hlt
      · exact absurd hheld hne

/-- Every later state: the lifecycle and the view agree on whether it is newer. -/
theorem current_later (c' : Reconnecting) {directive : Option Directive} (hc : Current c)
    (hne : c.delivered ≠ []) (hdelivered : c'.delivered = c.delivered ++ [snapshot]) (followed :
      SessionLifecycle.Followed c.session.lifecycle snapshot directive c'.session.lifecycle)
    (view : Newer c.session.latest snapshot ∧ c'.session.latest = some snapshot ∨
      ¬ Newer c.session.latest snapshot ∧ c'.session.latest = c.session.latest) :
    Current c' ∧ ((∃ q ∈ c.delivered, snapshot.snapshotSequence ≤ q.snapshotSequence) →
      c'.session.latest = c.session.latest ∧
      c'.session.lifecycle.phase = c.session.lifecycle.phase) := by
  obtain ⟨held, hmem, hlatest, hmax, hphase, hlast⟩ := hc hne
  by_cases hle : snapshot.snapshotSequence ≤ held.snapshotSequence
  · have hsame : c'.session.lifecycle = c.session.lifecycle := by
      generalize c'.session.lifecycle = lifecycle at followed
      cases followed with
      | old => rfl
      | first hlt => omega
      | later hlt => omega
    have hview : c'.session.latest = c.session.latest := by
      rcases view with ⟨hnewer, _⟩ | ⟨_, hview⟩
      · have hlt := hnewer held hlatest
        omega
      · exact hview
    refine ⟨fun _ => ⟨held, by simp [hdelivered, hmem], hview.trans hlatest, fun q hq => ?_, ?_⟩,
      fun _ => ⟨hview, ?_⟩⟩
    · rw [hdelivered] at hq
      rcases List.mem_append.mp hq with hq | hq
      · exact hmax q hq
      · rwa [List.mem_singleton.mp hq]
    · rw [hsame]
      exact ⟨hphase, hlast⟩
    · rw [hsame]
  · have hnewer : Newer c.session.latest snapshot := by
      intro held' hheld'
      obtain rfl := Option.some.inj (hlatest.symm.trans hheld')
      omega
    have hview : c'.session.latest = some snapshot := by
      rcases view with ⟨_, hview⟩ | ⟨hold, _⟩
      · exact hview
      · exact absurd hnewer hold
    have hlifecycle := followed_marks (by omega) followed
    refine ⟨fun _ => ⟨snapshot, by simp [hdelivered], hview, fun q hq => ?_, hlifecycle⟩, ?_⟩
    · rw [hdelivered] at hq
      rcases List.mem_append.mp hq with hq | hq
      · have hq := hmax q hq
        omega
      · rw [List.mem_singleton.mp hq]
    · rintro ⟨q, hq, hstale⟩
      have hq := hmax q hq
      omega

/-- One step, for any state of a session whose connections so far began as they should. -/
theorem step_current (h : Matched c) (hn : Numbered c l) (hs : Step bodyFingerprint c l c') :
    (Current c' ↔ Outranks c l) ∧ IgnoresStale c l c' ∧ (Outranks c l → Matched c') := by
  obtain ⟨ev, outs⟩ := l
  have hs : step? bodyFingerprint c ev = some (outs, c') := hs
  cases ev with
  | start =>
    obtain ⟨_, rfl⟩ := Prod.mk.inj (Option.some.inj hs)
    have hcurrent : Current { session := c.session.reopen } := fun hne => absurd rfl hne
    exact ⟨iff_of_true hcurrent (by simp [Outranks, news]), by simp [IgnoresStale, news],
      fun _ => ⟨c.session.reopen_offline, fun _ => rfl, hcurrent⟩⟩
  | turn event =>
    obtain ⟨⟨outs', t⟩, hstep, heq⟩ := Option.map_eq_some_iff.mp hs
    obtain ⟨rfl, rfl⟩ := Prod.mk.inj heq
    have hoffline := (BazaarSession.step_turn h.offline hstep).2
    cases BazaarSession.step_sees h.offline hstep with
    | nothing hnone hlatest hphase =>
      have hcurrent :
          Current { session := t, delivered := c.delivered ++ deliveredBy c.session event } := by
        have hold := h.current
        unfold Current at hold ⊢
        simp only [hnone, List.append_nil]
        rw [hlatest, hphase.1, hphase.2]
        exact hold
      refine ⟨iff_of_true hcurrent (by simp [Outranks, news, hnone]),
          by simp [IgnoresStale, news, hnone],
        fun _ => ⟨hoffline, fun hempty => ?_, hcurrent⟩⟩
      rw [hphase.2]
      exact h.fresh (by simpa [hnone] using hempty)
    | @state snapshot directive hone followed view =>
      have hnews : ∀ q, q ∈ c.news (.turn event) ↔ q = snapshot := by simp [news, hone]
      by_cases hempty : c.delivered = []
      · have hiff := current_first ⟨t, c.delivered ++ deliveredBy c.session event⟩
          (h.fresh hempty) (hn snapshot ((hnews snapshot).mpr rfl))
            (by simp [hempty, hone]) followed view
        have houtranks : Outranks c (.turn event, outs') ↔ ∀ held, c.session.latest = some held →
            held.snapshotSequence < snapshot.snapshotSequence ∨ held = snapshot := by
          simp [Outranks, hnews, hempty]
        refine ⟨hiff.trans houtranks.symm,
          by simp [IgnoresStale, hempty], fun hgood => ⟨hoffline, ?_, ?_⟩⟩
        · simp [hone]
        · exact hiff.mpr (houtranks.mp hgood)
      · obtain ⟨hcurrent, hstale⟩ := current_later ⟨t, c.delivered ++ deliveredBy c.session event⟩
          h.current hempty (by simp [hone]) followed view
        refine ⟨iff_of_true hcurrent (by simp [Outranks, hempty]), ?_, fun _ =>
          ⟨hoffline, by simp [hone], hcurrent⟩⟩
        intro q hq
        rw [(hnews q).mp hq]
        exact hstale

theorem run_matched (run :
      Machine.GuardedRun (fun _ c l => Numbered c l ∧ Outranks c l) (Step bodyFingerprint)
    (init throttle) hist c) : Matched c :=
  run.invariant (I := fun _ c => Matched c)
      ⟨BazaarSession.init_offline throttle, fun _ => rfl, fun hne => absurd rfl hne⟩
    (fun _ _ _ _ h hg hs => (step_current h hg.1 hs).2.2 hg.2)

/-- The view follows the connection exactly as long as every connection begins above
what is held; a stale state never changes it. -/
theorem run_current (run :
      Machine.GuardedRun (fun _ c l => Numbered c l ∧ Outranks c l) (Step bodyFingerprint)
    (init throttle) hist c) :
    Current c ∧ ∀ l c', Numbered c l → Step bodyFingerprint c l c' →
      (Current c' ↔ Outranks c l) ∧ IgnoresStale c l c' := by
  have h := run_matched run
  refine ⟨h.current, fun l c' hn hs => ?_⟩
  obtain ⟨hiff, hstale, _⟩ := step_current h hn hs
  exact ⟨hiff, hstale⟩

def delivers (snapshotSequence tick : Nat) : Event :=
  .turn (.item (.message (.state (BazaarSession.sampleState "sim" snapshotSequence tick))))

def numbered? (c : Reconnecting) (l : Label) : Bool :=
  (c.news l.1).all (fun snapshot => 1 ≤ snapshot.snapshotSequence)

def outranks? (c : Reconnecting) (l : Label) : Bool :=
  (c.news l.1).all (fun snapshot => !c.delivered.isEmpty || (c.session.latest.map
    (fun held => decide (held.snapshotSequence < snapshot.snapshotSequence))).getD true)

theorem numbered?_sound (h : numbered? c l = true) : Numbered c l := by
  intro snapshot hs
  simpa using List.all_eq_true.mp h snapshot hs

theorem outranks?_sound (h : outranks? c l = true) : Outranks c l := by
  intro snapshot hs hempty held hheld
  have hall := List.all_eq_true.mp h snapshot hs
  simp only [hempty, hheld, List.isEmpty_nil, Bool.not_true, Bool.false_or, Option.map_some,
    Option.getD_some, decide_eq_true_eq] at hall
  exact Or.inl hall

/-- The first state of the second connection was lost, and the next one is above the held one. -/
theorem run_current_reconnected :
    ∃ hist c, Machine.GuardedRun
      (fun _ c l => Numbered c l ∧ Outranks c l) (Step plainDigest) (init ⟨1, 0, 0, 0⟩) hist c ∧
      Current c ∧ c.session.latest.map Snapshot.tick = some 5 := by
  have hall :
    (Machine.replayGuarded (step? plainDigest) (fun _ c l => numbered? c l && outranks? c l) []
      (init ⟨1, 0, 0, 0⟩) [delivers 1 3, .start, delivers 2 5]).map
      (fun r => r.2.session.latest.map Snapshot.tick) =
        some (some 5) := by decide +kernel
  obtain ⟨⟨hist, c⟩, hreplay, hlatest⟩ := Option.map_eq_some_iff.mp hall
  have run : Machine.GuardedRun (fun _ c l => Numbered c l ∧ Outranks c l) (Step plainDigest)
      (init ⟨1, 0, 0, 0⟩) hist c := by
    refine Machine.guardedRun_of_replay (fun _ _ _ hchecked => ?_) Machine.GuardedRun.start hreplay
    obtain ⟨hn, ho⟩ := Bool.and_eq_true_iff.mp hchecked
    exact ⟨numbered?_sound hn, outranks?_sound ho⟩
  exact ⟨hist, c, run, (run_current run).1, hlatest⟩

/-- The second connection begins at 1 again: the lifecycle moves on, the view stays. -/
theorem reconnect_keeps_old_view :
    ∃ hist c, Machine.GuardedRun
      (fun _ c l => Numbered c l) (Step plainDigest) (init ⟨1, 0, 0, 0⟩) hist c ∧
      c.delivered.map Snapshot.tick = [9] ∧ c.session.latest.map Snapshot.tick = some 3 ∧
      ¬ Current c := by
  have hall :
      (Machine.replayGuarded (step? plainDigest) (fun _ c l => numbered? c l) [] (init ⟨1, 0, 0, 0⟩)
      [delivers 1 3, .start, delivers 1 9]).map (fun r =>
        (r.2.delivered.map Snapshot.tick, r.2.session.latest.map Snapshot.tick)) = some ([9],
          some 3) := by decide +kernel
  obtain ⟨⟨hist, c⟩, hreplay, hshown⟩ := Option.map_eq_some_iff.mp hall
  obtain ⟨hdelivered, hlatest⟩ := Prod.mk.inj hshown
  have run : Machine.GuardedRun (fun _ c l => Numbered c l) (Step plainDigest)
      (init ⟨1, 0, 0, 0⟩) hist c :=
    Machine.guardedRun_of_replay (fun _ _ _ h => numbered?_sound h) Machine.GuardedRun.start hreplay
  refine ⟨hist, c, run, hdelivered, hlatest, fun hc => ?_⟩
  have hne : c.delivered ≠ [] := by
    intro hempty
    simp [hempty] at hdelivered
  obtain ⟨held, hmem, hheld, _⟩ := hc hne
  have htick : held.tick ∈ c.delivered.map Snapshot.tick := List.mem_map_of_mem hmem
  simp only [hheld, Option.map_some, Option.some.injEq] at hlatest
  rw [hdelivered, hlatest] at htick
  exact absurd htick (by decide)

end Reconnecting

end SpaceportBazaar
