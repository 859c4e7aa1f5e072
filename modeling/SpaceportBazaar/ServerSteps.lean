import SpaceportBazaar.EconomyBook
import SpaceportBazaar.Server

namespace SpaceportBazaar

open SimulatedEconomy

/-- What the server's clock does to the economy between two commands. -/
inductive EconomyMoves (production : Option (Nat → Nat → Nat)) :
    SimulatedEconomy → SimulatedEconomy → Prop
  | same (e) : EconomyMoves production e e
  | bumped (e) : EconomyMoves production e e.bumpVersion
  | ticked {e m} (h : e.advanceTick = .ok m) :
    EconomyMoves production e (m.applyProduction production)
  | ended {e m} (h : e.advanceTick = .ok m) :
    EconomyMoves production e (m.applyProduction production).endRun

theorem SimulatedEconomy.applyProduction_worldVersion (e : SimulatedEconomy)
    (production : Option (Nat → Nat → Nat)) :
    (e.applyProduction production).worldVersion = e.worldVersion := by
  cases production with
  | none => rfl
  | some production => rfl

/-- A result travels on its own or inside a state. -/
def Output.Carries (o : Output) (stationId : String) (r : CommandResult) : Prop :=
  match o with
  | .send p _ (.result r') => p = stationId ∧ r' = r
  | .send p _ (.state snapshot) => p = stationId ∧ r ∈ snapshot.requestResults
  | _ => False

def Output.isExecution (o : Output) (stationId requestId : String) : Bool :=
  match o with
  | .executed _ p rid _ _ => p = stationId && rid = requestId
  | _ => false

def Output.isCapacity (o : Output) : Bool :=
  match o with
  | .send _ _ (.protocolError e) => e.code = .requestCapacityExceeded
  | _ => false

def Output.isConflict (o : Output) : Bool :=
  match o with
  | .send _ _ (.result r) => r.code = .requestIdConflict
  | _ => false

/-- A state sent to a planet is what the server now has to show it. -/
def Output.Shows (o : Output) (s : BazaarServer) : Prop :=
  match o with
  | .send p _ (.state snapshot) => ∃ seat, seat.stationId = p ∧ s.snapshotFor seat = .ok snapshot
  | _ => True

namespace BazaarServer

variable {sha256 : List UInt8 → String} {s s' : BazaarServer} {c : Nat} {stationId : String}
  {outs : List Output} {jobs : List Job}

/-- The record stored for one planet and request id. -/
def storedFor (s : BazaarServer) (stationId requestId : String) : Option StoredResult :=
  (s.results.get? stationId).bind (fun stored => stored.get? requestId)

/-- An output that is no execution and no verdict, and carries only stored results. -/
structure Quiet (s : BazaarServer) (o : Output) : Prop where
  execution : ∀ p rid, o.isExecution p rid = false
  capacity : o.isCapacity = false
  conflict : o.isConflict = false
  carries : ∀ p r, o.Carries p r → ∃ rid x, s.storedFor p rid = some x ∧ x.result = r

/-- A step that leaves the results alone and says nothing new about commands. It
moves the phase only under a new version, and the states it sends show what it leaves
behind. -/
structure Calm (s : BazaarServer) (outs : List Output) (s' : BazaarServer) : Prop where
  results : s'.results = s.results
  production : s'.production = s.production
  phase : s'.phase = s.phase ∨ s.economy.worldVersion < s'.economy.worldVersion
  economy : EconomyMoves s.production s.economy s'.economy
  quiet : ∀ o ∈ outs, Quiet s o
  current : ∀ o ∈ outs, o.Shows s'

theorem quiet_protocolError {p : String} {code : ControlCode} {requestId : Option String}
    {close : Bool} (h : code ≠ .requestCapacityExceeded) :
    Quiet s (.send p c (s.protocolErrorEvent code requestId close)) :=
  ⟨fun _ _ =>
    rfl, by simpa [Output.isCapacity, protocolErrorEvent] using h, rfl, fun _ _ h => h.elim⟩

/-- A state as the server shows it to the planet of a seat. -/
structure Shown (s : BazaarServer) (seat : Seat) (snapshot : Snapshot) : Prop where
  results : snapshot.requestResults =
    (((s.results.get? seat.stationId).map Dict.values).getD []).map StoredResult.result
  tick : snapshot.tick = s.economy.tick
  rules : snapshot.rules = s.economy.rules
  version : snapshot.worldVersion = s.economy.worldVersion
  transactions : snapshot.transactions.Sublist s.economy.transactions

theorem snapshotFor_shown {seat : Seat} {snapshot : Snapshot}
    (h : s.snapshotFor seat = .ok snapshot) : s.Shown seat snapshot := by
  simp only [snapshotFor, observationFor, nextSequence] at h
  obtain ⟨outcome, _, h⟩ := bind_eq_ok_iff.mp h
  obtain ⟨⟨snap, e⟩, hs, h⟩ := bind_eq_ok_iff.mp h
  obtain ⟨me, _, hs⟩ := bind_eq_ok_iff.mp hs
  obtain ⟨rfl, _⟩ := Prod.mk.inj (Except.ok.inj hs)
  cases Except.ok.inj h
  exact ⟨rfl, rfl, rfl, rfl, List.filter_sublist⟩

theorem sendState_frame (s : BazaarServer) (c : Nat) :
    ∃ seatOf, (s.sendState c).2 = { s with seatOf := seatOf } := by
  unfold sendState
  split
  next => exact ⟨_, rfl⟩
  next =>
    split
    next => exact ⟨_, rfl⟩
    next => exact ⟨_, rfl⟩

theorem sendState_quiet : ∀ o ∈ (s.sendState c).1, Quiet s o := by
  intro o ho
  unfold sendState at ho
  split at ho
  next => simp at ho
  next seat _ =>
    split at ho
    next => simp at ho
    next snapshot hs =>
      cases List.mem_singleton.mp ho
      refine ⟨fun _ _ => rfl, rfl, rfl, ?_⟩
      rintro p r ⟨rfl, hr⟩
      rw [(snapshotFor_shown hs).results] at hr
      obtain ⟨x, hx, hxr⟩ := List.mem_map.mp hr
      cases hstored : s.results.get? seat.stationId with
      | none => simp [hstored] at hx
      | some stored =>
        simp only [hstored, Option.map_some, Option.getD_some] at hx
        obtain ⟨rid, hrid⟩ := Dict.mem_values_iff.mp hx
        exact ⟨rid, x, by simp [storedFor, hstored, hrid], hxr⟩

/-- What a state shows does not depend on the seats, the handlers or the sockets. -/
theorem shows_frame {o : Output} (h : o.Shows s) (hphase : s'.phase = s.phase)
    (heconomy : s'.economy = s.economy) (hresults : s'.results = s.results) : o.Shows s' := by
  unfold Output.Shows at h ⊢
  split
  next =>
    obtain ⟨seat, hstation, hsnapshot⟩ := h
    refine ⟨seat, hstation, ?_⟩
    unfold snapshotFor outcomeFor at hsnapshot ⊢
    rw [hphase, heconomy, hresults]
    exact hsnapshot
  next => trivial

theorem sendState_current : ∀ o ∈ (s.sendState c).1, o.Shows s := by
  intro o ho
  unfold sendState at ho
  split at ho
  next => simp at ho
  next seat _ =>
    split at ho
    next => simp at ho
    next snapshot hs =>
      cases List.mem_singleton.mp ho
      exact ⟨seat, rfl, hs⟩

theorem Quiet.of_results {o : Output} (h : Quiet s o) (hr : s'.results = s.results) :
    Quiet s' o where
  execution := h.execution
  capacity := h.capacity
  conflict := h.conflict
  carries p r hc := by
    obtain ⟨rid, x, hx, hxr⟩ := h.carries p r hc
    exact ⟨rid, x, by simpa [storedFor, hr] using hx, hxr⟩

theorem broadcast_frame (s : BazaarServer) :
    ∃ seatOf, s.broadcast.2.2 = { s with seatOf := seatOf } := by
  unfold broadcast
  split
  next => exact ⟨_, rfl⟩
  next c cs _ => exact s.sendState_frame c

theorem broadcast_quiet : ∀ o ∈ s.broadcast.1, Quiet s o := by
  intro o ho
  unfold broadcast at ho
  split at ho
  next => simp at ho
  next c cs _ => exact sendState_quiet o ho

theorem broadcast_current : ∀ o ∈ s.broadcast.1, o.Shows s := by
  intro o ho
  unfold broadcast at ho
  split at ho
  next => simp at ho
  next c cs _ => exact sendState_current o ho

theorem sendState_calm : Calm s (s.sendState c).1 (s.sendState c).2 := by
  obtain ⟨seatOf, hs⟩ := s.sendState_frame c
  rw [hs]
  exact ⟨rfl, rfl, Or.inl rfl, .same _, sendState_quiet, fun o ho =>
    shows_frame (sendState_current o ho) rfl rfl rfl⟩

theorem Calm.setStage (h : Calm s outs s') (c : Nat) (stationId : String) (stage : Stage) :
    Calm s outs (s'.setStage c stationId stage) :=
  ⟨h.results, h.production, h.phase, h.economy, h.quiet,
      fun o ho => shows_frame (h.current o ho) rfl rfl rfl⟩

theorem leave_calm : Calm s [] (s.leave c stationId) := by
  unfold leave
  split
  next => exact ⟨rfl, rfl, Or.inl rfl, .same _, by simp, by simp⟩
  next => exact ⟨rfl, rfl, Or.inl rfl, .same _, by simp, by simp⟩

theorem register_calm (s : BazaarServer) (c : Nat) (stationId : String) :
    Calm s (s.register c stationId).1 (s.register c stationId).2 := by
  have h := sendState_calm (s := { s with
    seats := s.seats.set stationId c
    seatOf := s.seatOf.set c { stationId := stationId } }) (c := c)
  exact ⟨h.results, h.production, h.phase, h.economy, fun o ho => (h.quiet o ho).of_results rfl,
    fun o ho => shows_frame (h.current o ho) rfl rfl rfl⟩

theorem arrive_calm (s : BazaarServer) (c : Nat) (stationId : String) :
    Calm s (s.arrive c stationId).1 (s.arrive c stationId).2 := by
  unfold arrive
  split
  next => exact register_calm ..
  next previous _ =>
    refine ⟨rfl, rfl, Or.inl rfl, .same _, ?_,
      fun o ho => by cases List.mem_singleton.mp ho; trivial⟩
    intro o ho
    cases List.mem_singleton.mp ho
    exact quiet_protocolError (by decide)

theorem runJob_calm (s : BazaarServer) (job : Job) :
    Calm s (s.runJob job).1 (s.runJob job).2.2 := by
  cases job with
  | sendState c => exact sendState_calm
  | maybeStart =>
    simp only [runJob, BazaarServer.maybeStart]
    split
    next => exact ⟨rfl, rfl, Or.inl rfl, .same _, by simp, by simp⟩
    next => exact ⟨rfl, rfl, Or.inl rfl, .same _, by simp, by simp⟩
  | broadcast =>
    obtain ⟨seatOf, hs⟩ := s.broadcast_frame
    simp only [runJob]
    rw [hs]
    exact ⟨rfl, rfl, Or.inl rfl, .same _, broadcast_quiet, fun o ho =>
      shows_frame (broadcast_current o ho) rfl rfl rfl⟩
  | startRun =>
    simp only [runJob, BazaarServer.startRun]
    split
    next => exact ⟨rfl, rfl, Or.inl rfl, .same _, by simp, by simp⟩
    next =>
      obtain ⟨seatOf, hs⟩ :=
        broadcast_frame { s with phase := .running, economy := s.economy.bumpVersion }
      rw [hs]
      exact ⟨rfl, rfl, Or.inr (Nat.lt_succ_self _), .bumped _, fun o ho =>
        (broadcast_quiet o ho).of_results rfl,
        fun o ho => shows_frame (broadcast_current o ho) rfl rfl rfl⟩
  | setFinished => exact ⟨rfl, rfl, Or.inl rfl, .same _, by simp [runJob], by simp [runJob]⟩

theorem advance_calm (s : BazaarServer) : Calm s s.advance.1 s.advance.2 := by
  unfold advance
  split
  next => exact ⟨rfl, rfl, Or.inl rfl, .same _, by simp, by simp⟩
  next =>
    split
    next => exact ⟨rfl, rfl, Or.inl rfl, .same _, by simp, by simp⟩
    next m hm =>
      simp only
      split
      next =>
        obtain ⟨seatOf, hs⟩ := broadcast_frame { s with
          economy := (m.applyProduction s.production).endRun, phase := .finished }
        have hversion :
            s.economy.worldVersion < (m.applyProduction s.production).endRun.worldVersion := by
          rw [endRun_worldVersion, applyProduction_worldVersion, advanceTick_worldVersion hm]
          omega
        rw [hs]
        exact ⟨rfl, rfl, Or.inr hversion, .ended hm, fun o ho => (broadcast_quiet o ho).of_results
          rfl, fun o ho => shows_frame (broadcast_current o ho) rfl rfl rfl⟩
      next =>
        obtain ⟨seatOf, hs⟩ := broadcast_frame { s with economy := m.applyProduction s.production }
        rw [hs]
        exact ⟨rfl, rfl, Or.inl rfl, .ticked hm, fun o ho => (broadcast_quiet o ho).of_results rfl,
        fun o ho => shows_frame (broadcast_current o ho) rfl rfl rfl⟩

/-- Everything one trading command can do. -/
inductive Commanded (s : BazaarServer) (c : Nat) (stationId requestId : String) (action : Action)
    (fingerprint : String) : List Output → List Job → BazaarServer → Prop
  | replayed {previous} (stored : s.storedFor stationId requestId = some previous)
    (same : previous.fingerprint = fingerprint) :
    Commanded s c stationId requestId action fingerprint
    [.send stationId c (.result previous.result)]
      [.sendState c] s
  | conflicted {previous} (stored : s.storedFor stationId requestId = some previous)
    (differs : previous.fingerprint ≠ fingerprint) :
    Commanded s c stationId requestId action fingerprint
      [.send stationId c (.result (s.resultOf requestId ⟨.requestIdConflict, none, none⟩))] [] s
  | full {stored} (table : s.results.get? stationId = some stored)
    (new : stored.get? requestId = none)
    (full : s.economy.rules.maxRequestRecordsPerStation ≤ stored.size) :
    Commanded s c stationId requestId action fingerprint
      [.send stationId c (s.protocolErrorEvent .requestCapacityExceeded (some requestId) false)]
        [] s
  | recorded {stored outs outcome economy} (table : s.results.get? stationId = some stored)
    (new : stored.get? requestId = none)
    (room : stored.size < s.economy.rules.maxRequestRecordsPerStation)
    (processed : s.processCommand c stationId requestId action = .ok (outs, outcome, economy)) :
    Commanded s c stationId requestId action fingerprint
      (outs ++ [.send stationId c
        (.result ({ s with economy := economy }.resultOf requestId outcome))])
      [.broadcast]
      ({ s with economy := economy }.record stationId stored requestId
        ⟨fingerprint, { s with economy := economy }.resultOf requestId outcome⟩)

theorem command_commanded {requestId fingerprint : String} {action : Action}
    (h : s.command c stationId requestId action fingerprint = some (outs, jobs, s')) :
    Commanded s c stationId requestId action fingerprint outs jobs s' := by
  unfold command at h
  split at h
  next => simp at h
  next stored htable =>
    split at h
    next previous hprev =>
      have hstored : s.storedFor stationId requestId = some previous := by
        simp [storedFor, htable, hprev]
      split at h
      next hfp =>
        cases Option.some.inj h
        exact .replayed hstored hfp
      next hfp =>
        cases Option.some.inj h
        exact .conflicted hstored hfp
    next hnew =>
      split at h
      next hfull =>
        cases Option.some.inj h
        exact .full htable hnew hfull
      next hroom =>
        split at h
        next => simp at h
        next outs' outcome economy hp =>
          cases Option.some.inj h
          exact .recorded htable hnew (by omega) hp

/-- A step either is calm or handles one trading command of a served connection. -/
inductive Effect (sha256 : List UInt8 → String) (s : BazaarServer) :
    Event → List Output → BazaarServer → Prop
  | calm {ev outs s'} (h : Calm s outs s') : Effect sha256 s ev outs s'
  | commanded {c stationId requestId body outs jobs s'}
    (serving : s.handlers.get? c = some ⟨stationId, .serving []⟩)
    (ready : ((s.seatOf.get? c).map Seat.ready).getD false = true)
    (commanded :
    Commanded s c stationId requestId body.action (fingerprintOf sha256 body) outs jobs s') :
    Effect sha256 s
      (.receive c (.binary (.message (.command protocolVersion s.economy.runId requestId body))))
        outs
      (s'.setStage c stationId (.serving jobs))

/-- One output about no command, with the economy and the results as they are. -/
theorem Calm.said {o : Output} (quiet : Quiet s o) (shows : o.Shows s')
    (results : s'.results = s.results) (production : s'.production = s.production)
    (phase : s'.phase = s.phase) (economy : s'.economy = s.economy) :
    Calm s [o] s' where
  results := results
  production := production
  phase := Or.inl phase
  economy := by rw [economy]; exact .same _
  quiet o' ho := by rw [List.mem_singleton.mp ho]; exact quiet
  current o' ho := by rw [List.mem_singleton.mp ho]; exact shows

/-- Nothing at all is said. -/
theorem Calm.silent (results : s'.results = s.results) (production : s'.production = s.production)
    (phase : s'.phase = s.phase) (economy : s'.economy = s.economy) : Calm s [] s' where
  results := results
  production := production
  phase := Or.inl phase
  economy := by rw [economy]; exact .same _
  quiet o ho := by cases ho
  current o ho := by cases ho

theorem calm_error {p : String} {code : ControlCode} {requestId : Option String} {close : Bool}
    {stage : Stage} (h : code ≠ .requestCapacityExceeded) :
    Calm s [.send p c (s.protocolErrorEvent code requestId close)] (s.setStage c p stage) :=
  .said (quiet_protocolError h) trivial rfl rfl rfl rfl

theorem onMessage_effect (sha256 : List UInt8 → String) (payload : Payload)
    (serving : s.handlers.get? c = some ⟨stationId, .serving []⟩) :
    Effect sha256 s (.receive c (.binary payload)) (s.onMessage sha256 c stationId payload).1
      (s.onMessage sha256 c stationId payload).2 := by
  unfold onMessage
  split
  next => exact .calm (calm_error (by decide))
  next message hdecode =>
    split
    next => exact .calm (calm_error (by decide))
    next hversion =>
      split
      next => exact .calm (calm_error (by decide))
      next hrun =>
        split
        next ready snapshotSequence _ =>
          exact .calm (.said
            ⟨fun _ _ => rfl, rfl, rfl, fun _ _ h => h.elim⟩ trivial rfl rfl rfl rfl)
        next => exact .calm (sendState_calm.setStage _ _ _)
        next requestId action fingerprint hrequest =>
          split
          next => exact .calm (calm_error (by decide))
          next hready =>
            split
            next => exact .calm leave_calm
            next outs jobs s' hcommand =>
              simp only [ne_eq, not_not] at hversion hrun
              obtain ⟨body, rfl, rfl, rfl⟩ := decodeClientMessage_command hdecode hrequest
              rw [hversion, hrun]
              exact .commanded serving (by simpa using hready) (command_commanded hcommand)

theorem authenticate_frame {offersSubprotocol : Bool} {token p : String}
    (h : s.authenticate offersSubprotocol token = some (p, s')) :
    ∃ claimed, s' = { s with claimed := claimed } := by
  unfold authenticate at h
  split_ifs at h
  · split at h
    next => simp at h
    next =>
      obtain ⟨_, rfl⟩ := Prod.mk.inj (Option.some.inj h)
      exact ⟨_, rfl⟩
  · obtain ⟨_, _, hm⟩ := Option.map_eq_some_iff.mp h
    obtain ⟨_, rfl⟩ := Prod.mk.inj hm
    exact ⟨_, rfl⟩

/-- When an event can happen, and what the server makes of it. -/
inductive Enabled (sha256 : List UInt8 → String) (s : BazaarServer) (outs : List Output)
    (s' : BazaarServer) :
    Event → Prop
  | rejected {c offersSubprotocol token} (new : s.handlers.get? c = none)
    (refused : s.authenticate offersSubprotocol token = none) (said : outs = [.rejected])
    (same : s' = s) :
    Enabled sha256 s outs s' (.connect c offersSubprotocol token)
  | connected {c offersSubprotocol token p claimed} (new : s.handlers.get? c = none)
    (authenticated :
    s.authenticate offersSubprotocol token = some (p, { s with claimed := claimed }))
    (silent : outs = []) (moved : s' = { s with claimed := claimed }.setStage c p .arriving) :
    Enabled sha256 s outs s' (.connect c offersSubprotocol token)
  | received {c p frame} (serving : s.handlers.get? c = some ⟨p, .serving []⟩)
    (read : s.receive sha256 c p frame = (outs, s')) : Enabled sha256 s outs s' (.receive c frame)
  | disconnected {c p} (serving : s.handlers.get? c = some ⟨p, .serving []⟩) (silent : outs = [])
    (moved : s' = s.leave c p) : Enabled sha256 s outs s' (.disconnect c)
  | arrived {c p} (was : s.handlers.get? c = some ⟨p, .arriving⟩)
    (arrives : s.arrive c p = (outs, s')) :
    Enabled sha256 s outs s' (.resume c)
  | closed {c p previous} (was : s.handlers.get? c = some ⟨p, .fencing previous⟩)
    (said : outs = [.closing previous])
    (moved : s' = s.setStage c p (.replacing previous)) : Enabled sha256 s outs s' (.resume c)
  | replaced {c p previous} (was : s.handlers.get? c = some ⟨p, .replacing previous⟩)
    (registers : s.register c p = (outs, s')) : Enabled sha256 s outs s' (.resume c)
  | worked {c p job jobs} (was : s.handlers.get? c = some ⟨p, .serving (job :: jobs)⟩)
    (said : outs = (s.runJob job).1)
    (moved : s' = (s.runJob job).2.2.setStage c p (.serving ((s.runJob job).2.1 ++ jobs))) :
    Enabled sha256 s outs s' (.resume c)
  | refused {c p} (was : s.handlers.get? c = some ⟨p, .refusing⟩) (said : outs = [.closing c])
    (moved : s' = s.setStage c p .leaving) : Enabled sha256 s outs s' (.resume c)
  | left {c p} (was : s.handlers.get? c = some ⟨p, .leaving⟩) (silent : outs = [])
    (moved : s' = s.leave c p) :
    Enabled sha256 s outs s' (.resume c)
  | background {i job jobs} (was : s.background[i]? = some (job :: jobs))
    (said : outs = (s.runJob job).1)
    (moved : s' = { (s.runJob job).2.2 with
      background := (s.runJob job).2.2.background.set i ((s.runJob job).2.1 ++ jobs) }) :
    Enabled sha256 s outs s' (.resumeTask i)
  | advanced (advances : s.advance = (outs, s')) : Enabled sha256 s outs s' .advance

theorem step_enabled {ev : Event} (h : Step sha256 s (ev, outs) s') :
    Enabled sha256 s outs s' ev := by
  have h : step? sha256 s ev = some (outs, s') := h
  cases ev with
  | connect c offersSubprotocol token =>
    obtain ⟨hnew, h⟩ := Option.ite_none_left_eq_some.mp h
    have hnew : s.handlers.get? c = none := by simpa [Dict.contains] using hnew
    split at h
    next hauth =>
      obtain ⟨rfl, rfl⟩ := Prod.mk.inj (Option.some.inj h)
      exact .rejected hnew hauth rfl rfl
    next p s₁ hauth =>
      obtain ⟨rfl, rfl⟩ := Prod.mk.inj (Option.some.inj h)
      obtain ⟨claimed, rfl⟩ := authenticate_frame hauth
      exact .connected hnew hauth rfl rfl
  | receive c frame =>
    simp only [step?] at h
    split at h
    next p hserving => exact .received hserving (Option.some.inj h)
    next => cases h
  | disconnect c =>
    simp only [step?] at h
    split at h
    next p hserving =>
      obtain ⟨rfl, rfl⟩ := Prod.mk.inj (Option.some.inj h)
      exact .disconnected hserving rfl rfl
    next => cases h
  | resume c =>
    simp only [step?] at h
    split at h
    next p stage was =>
      unfold resume at h
      split at h
      next => exact .arrived was (Option.some.inj h)
      next previous =>
        obtain ⟨rfl, rfl⟩ := Prod.mk.inj (Option.some.inj h)
        exact .closed was rfl rfl
      next => exact .replaced was (Option.some.inj h)
      next => cases h
      next job jobs =>
        obtain ⟨rfl, rfl⟩ := Prod.mk.inj (Option.some.inj h)
        exact .worked was rfl rfl
      next =>
        obtain ⟨rfl, rfl⟩ := Prod.mk.inj (Option.some.inj h)
        exact .refused was rfl rfl
      next =>
        obtain ⟨rfl, rfl⟩ := Prod.mk.inj (Option.some.inj h)
        exact .left was rfl rfl
      next => cases h
    next => cases h
  | resumeTask i =>
    simp only [step?, resumeTask] at h
    split at h
    next job jobs was =>
      obtain ⟨rfl, rfl⟩ := Prod.mk.inj (Option.some.inj h)
      exact .background was rfl rfl
    next => cases h
  | advance => exact .advanced (Option.some.inj h)

theorem step_effect {l : Event × List Output} (h : Step sha256 s l s') :
    Effect sha256 s l.1 l.2 s' := by
  obtain ⟨ev, outs⟩ := l
  cases step_enabled h with
  | rejected _ _ said same =>
    subst said same
    exact .calm (.said ⟨fun _ _ => rfl, rfl, rfl, fun _ _ h => h.elim⟩ trivial rfl rfl rfl rfl)
  | connected _ _ silent moved =>
    subst silent moved
    exact .calm (.silent rfl rfl rfl rfl)
  | @received c p frame serving read =>
    cases frame with
    | text =>
      cases read
      exact .calm (calm_error (by decide))
    | binary payload =>
      have heffect := onMessage_effect sha256 payload serving
      rwa [show s.onMessage sha256 c p payload = (outs, s') from read] at heffect
  | disconnected _ silent moved | left _ silent moved =>
    subst silent moved
    exact .calm leave_calm
  | @arrived c p _ arrives =>
    have hcalm := arrive_calm s c p
    rw [arrives] at hcalm
    exact .calm hcalm
  | closed _ said moved | refused _ said moved =>
    subst said moved
    exact .calm (.said ⟨fun _ _ => rfl, rfl, rfl, fun _ _ h => h.elim⟩ trivial rfl rfl rfl rfl)
  | @replaced c p _ _ registers =>
    have hcalm := register_calm s c p
    rw [registers] at hcalm
    exact .calm hcalm
  | @worked c p job _ _ said moved =>
    subst said moved
    exact .calm ((runJob_calm s job).setStage _ _ _)
  | @background i job _ _ said moved =>
    subst said moved
    have hjob := runJob_calm s job
    exact .calm ⟨hjob.results, hjob.production, hjob.phase, hjob.economy, hjob.quiet,
      fun o ho => shows_frame (hjob.current o ho) rfl rfl rfl⟩
  | advanced advances =>
    have hcalm := advance_calm s
    rw [advances] at hcalm
    exact .calm hcalm

end BazaarServer

end SpaceportBazaar
