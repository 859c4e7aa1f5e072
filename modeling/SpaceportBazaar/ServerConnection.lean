import SpaceportBazaar.ServerSeats

namespace SpaceportBazaar

def Stage.isEarly : Stage → Bool
  | .arriving => true
  | .fencing _ => true
  | .replacing _ => true
  | _ => false

namespace BazaarServer

variable {sha256 : List UInt8 → String} {s s' : BazaarServer} {c d : Nat} {p : String} {ev : Event}
  {outs : List Output}

/-- Whose seat a connection's is, and whether it declared itself ready. -/
def seatKey (s : BazaarServer) (c : Nat) : Option (String × Bool) :=
  (s.seatOf.get? c).map (fun seat => (seat.stationId, seat.ready))

theorem seatKey_eq_some {r : Bool} :
    s.seatKey c = some (p, r) ↔ ∃ seat, s.seatOf.get? c = some seat ∧ seat.stationId = p ∧
    seat.ready = r := by
  simp [seatKey]

/-- A state only counts up in the seat it is sent to. -/
theorem sendState_seatKey (s : BazaarServer) (c d : Nat) :
    (s.sendState c).2.seatKey d = s.seatKey d := by
  unfold sendState
  split
  next => rfl
  next seat hseat =>
    split
    next => rfl
    next =>
      simp only [seatKey, Dict.get?_set]
      split
      next hd => rw [hd, hseat]; rfl
      next => rfl

theorem broadcast_seatKey (s : BazaarServer) (d : Nat) :
    s.broadcast.2.2.seatKey d = s.seatKey d := by
  unfold broadcast
  split
  next => rfl
  next c cs _ => exact sendState_seatKey s c d

theorem runJob_seatKey (s : BazaarServer) (job : Job)
    (d : Nat) : (s.runJob job).2.2.seatKey d = s.seatKey d := by
  cases job with
  | sendState c => exact sendState_seatKey s c d
  | maybeStart =>
    simp only [runJob, BazaarServer.maybeStart]
    split <;> rfl
  | broadcast => exact broadcast_seatKey s d
  | startRun =>
    simp only [runJob, BazaarServer.startRun]
    split
    next => rfl
    next => exact broadcast_seatKey _ d
  | setFinished => rfl

theorem advance_seatKey (s : BazaarServer) (d : Nat) : s.advance.2.seatKey d = s.seatKey d := by
  unfold advance
  split
  next => rfl
  next =>
    split
    next => rfl
    next m _ =>
      simp only
      split
      next => exact broadcast_seatKey { s with economy :=
        (m.applyProduction s.production).endRun, phase := .finished } d
      next => exact broadcast_seatKey { s with economy := m.applyProduction s.production } d

theorem leave_seatKey (s : BazaarServer) (c : Nat) (p : String) (d : Nat) :
    (s.leave c p).seatKey d = s.seatKey d := by
  unfold leave
  split <;> rfl

theorem register_seatKey (s : BazaarServer) (c : Nat) (p : String) (d : Nat) :
    (s.register c p).2.seatKey d = if d = c then some (p, false) else s.seatKey d := by
  simp only [register]
  refine (sendState_seatKey _ c d).trans ?_
  simp only [seatKey, Dict.get?_set]
  split <;> rfl

theorem command_seatOf {requestId fingerprint : String} {action : Action} {jobs : List Job}
    (h : s.command c p requestId action fingerprint = some (outs, jobs, s')) :
    s'.seatOf = s.seatOf := by
  cases command_commanded h <;> rfl

/-- What one step does to the handler and the seat of one connection. -/
inductive Tenure (sha256 : List UInt8 → String) (s : BazaarServer) (ev : Event) (c : Nat)
    (s' : BazaarServer) : Prop
  | idle (handler : s'.handlers.get? c = s.handlers.get? c) (seat : s'.seatKey c = s.seatKey c)
  | connected {q : String} (was : s.handlers.get? c = none)
    (handler : s'.handlers.get? c = some ⟨q, .arriving⟩)
    (seat : s'.seatKey c = s.seatKey c)
  | moved {q : String} {stage stage' : Stage} (was : s.handlers.get? c = some ⟨q, stage⟩)
    (handler : s'.handlers.get? c = some ⟨q, stage'⟩)
    (early : stage'.isEarly = true → stage.isEarly = true)
    (seat : s'.seatKey c = s.seatKey c)
  | registered {q : String} {stage : Stage} (was : s.handlers.get? c = some ⟨q, stage⟩)
    (early : stage.isEarly = true)
    (handler : s'.handlers.get? c = some ⟨q, .serving []⟩) (seat : s'.seatKey c = some (q, false))
  | declared {q : String} {payload : Payload} {message : ClientCommand} {ready : Bool}
    {snapshotSequence : Nat}
    (was : s.handlers.get? c = some ⟨q, .serving []⟩) (received : ev = .receive c (.binary payload))
    (decoded : decodeClientMessage sha256 payload = .ok message)
    (request : message.request = .ready ready snapshotSequence)
    (handler : s'.handlers.get? c = some ⟨q, .serving [.maybeStart]⟩)
    (seat : s'.seatKey c = some (((s.seatKey c).map Prod.fst).getD q, ready))

theorem setStage_handler (s : BazaarServer) (c : Nat) (p : String) (stage : Stage) :
    (s.setStage c p stage).handlers.get? c = some ⟨p, stage⟩ := Dict.get?_set_self _ _ _

/-- A step that sets one handler leaves every other connection idle. -/
theorem Tenure.all {stage : Stage} (handlers : s'.handlers = s.handlers.set c ⟨p, stage⟩)
    (seats : ∀ d, d ≠ c → s'.seatKey d = s.seatKey d) (acting : Tenure sha256 s ev c s') (d : Nat) :
    Tenure sha256 s ev d s' := by
  by_cases hd : d = c
  · rw [hd]
    exact acting
  · refine .idle ?_ (seats d hd)
    rw [handlers]
    exact Dict.get?_set_of_ne _ _ hd

/-- A handler that goes no earlier than it was. -/
theorem Tenure.stays {stage stage' : Stage} (was : s.handlers.get? c = some ⟨p, stage⟩)
    (early : stage'.isEarly = true → stage.isEarly = true)
    (handlers : s'.handlers = s.handlers.set c ⟨p, stage'⟩)
    (seats : ∀ d, s'.seatKey d = s.seatKey d) (d : Nat) : Tenure sha256 s ev d s' :=
  Tenure.all handlers (fun d _ => seats d)
    (.moved was (by rw [handlers]; exact Dict.get?_set_self _ _ _) early (seats c)) d

theorem Tenure.setStage
    {t : BazaarServer} {stage stage' : Stage} (was : s.handlers.get? c = some ⟨p, stage⟩)
    (handlers : t.handlers = s.handlers) (seats : ∀ d, t.seatKey d = s.seatKey d)
    (early : stage'.isEarly = true → stage.isEarly = true) (d : Nat) :
    Tenure sha256 s ev d (t.setStage c p stage') := by
  have hseats : ∀ d, (t.setStage c p stage').seatKey d = s.seatKey d := seats
  exact .stays was early (congrArg (fun handlers => handlers.set c ⟨p, stage'⟩) handlers) hseats d

theorem Tenure.left {stage : Stage} (was : s.handlers.get? c = some ⟨p, stage⟩) (d : Nat) :
    Tenure sha256 s ev d (s.leave c p) :=
  Tenure.stays was (by simp [Stage.isEarly]) (leave_seats s c p).2 (leave_seatKey s c p) d

theorem onMessage_tenure {payload : Payload} (serving : s.handlers.get? c = some ⟨p, .serving []⟩)
    (d : Nat) :
    Tenure sha256 s (.receive c (.binary payload)) d (s.onMessage sha256 c p payload).2 := by
  unfold onMessage
  split
  next => exact .setStage serving rfl (fun _ => rfl) (by simp [Stage.isEarly]) d
  next message hdecode =>
    split
    next => exact .setStage serving rfl (fun _ => rfl) (by simp [Stage.isEarly]) d
    next =>
      split
      next => exact .setStage serving rfl (fun _ => rfl) (by simp [Stage.isEarly]) d
      next =>
        split
        next ready snapshotSequence hrequest =>
          refine Tenure.all rfl (fun d hd => ?_)
            (.declared serving rfl hdecode hrequest (setStage_handler ..) ?_) d
          · simp [seatKey, setStage, Dict.get?_set_of_ne _ _ hd]
          · simp only [seatKey, setStage, Dict.get?_set_self]
            cases s.seatOf.get? c <;> rfl
        next =>
          obtain ⟨seatOf, hs⟩ := s.sendState_frame c
          exact .setStage serving (by rw [hs]) (sendState_seatKey s c) (by simp [Stage.isEarly]) d
        next =>
          split
          next => exact .setStage serving rfl (fun _ => rfl) (by simp [Stage.isEarly]) d
          next =>
            split
            next => exact .left serving d
            next hcommand =>
              refine .setStage serving (command_seats hcommand).2 (fun d => ?_)
                (by simp [Stage.isEarly]) d
              simp only [seatKey, command_seatOf hcommand]

/-- A connection that is registered holds its seat, not yet ready. -/
theorem register_tenure {stage : Stage} (was : s.handlers.get? c = some ⟨p, stage⟩)
    (early : stage.isEarly = true) (d : Nat) :
    Tenure sha256 s (.resume c) d (s.register c p).2 := by
  refine Tenure.all (register_seats s c p).2 (fun d hd => ?_) (.registered was early ?_ ?_) d
  · rw [register_seatKey, if_neg hd]
  · rw [(register_seats s c p).2]
    exact Dict.get?_set_self _ _ _
  · rw [register_seatKey, if_pos rfl]

theorem step_tenure (h : Step sha256 s (ev, outs) s') (d : Nat) : Tenure sha256 s ev d s' := by
  cases step_enabled h with
  | rejected _ _ _ same =>
    subst same
    exact .idle rfl rfl
  | @connected c _ _ p claimed new _ _ moved =>
    subst moved
    have hhandlers : ({ s with claimed := claimed }.setStage c p .arriving).handlers =
      s.handlers.set c ⟨p, .arriving⟩ := rfl
    exact .all hhandlers (fun _ _ => rfl) (.connected new (setStage_handler ..) rfl) d
  | @received c p frame serving read =>
    cases frame with
    | text =>
      cases read
      exact .setStage serving rfl (fun _ => rfl) (by simp [Stage.isEarly]) d
    | binary payload =>
      have hmessage : Tenure sha256 s (.receive c (.binary payload)) d _ :=
        onMessage_tenure serving d
      rwa [show s.onMessage sha256 c p payload = (outs, s') from read] at hmessage
  | disconnected was _ moved | left was _ moved =>
    subst moved
    exact .left was d
  | @arrived c p was arrives =>
    unfold arrive at arrives
    split at arrives
    next =>
      have hcase : Tenure sha256 s _ d _ := register_tenure was rfl d
      rwa [arrives] at hcase
    next =>
      cases arrives
      exact .setStage was rfl (fun _ => rfl) (fun _ => rfl) d
  | closed was _ moved =>
    subst moved
    exact .setStage was rfl (fun _ => rfl) (fun _ => rfl) d
  | replaced was registers =>
    have hcase : Tenure sha256 s _ d _ := register_tenure was rfl d
    rwa [registers] at hcase
  | @worked c p job jobs was _ moved =>
    subst moved
    exact .setStage was (runJob_seats s job).2 (runJob_seatKey s job) (by simp [Stage.isEarly]) d
  | refused was _ moved =>
    subst moved
    exact .setStage was rfl (fun _ => rfl) (by simp [Stage.isEarly]) d
  | @background i job jobs _ _ moved =>
    subst moved
    refine .idle ?_ (runJob_seatKey s job d)
    simp only [(runJob_seats s job).2]
  | advanced advances =>
    have hhandlers := (advance_seats s).2
    have hkey := advance_seatKey s d
    rw [advances] at hhandlers hkey
    exact .idle (congrArg (fun handlers => handlers.get? d) hhandlers) hkey

theorem Tenure.station (h : Tenure sha256 s ev c s')
    (hp : (s.handlers.get? c).map Handler.stationId = some p) :
    (s'.handlers.get? c).map Handler.stationId = some p := by
  cases h with
  | idle handler => rwa [handler]
  | connected was => simp [was] at hp
  | moved was handler | registered was _ handler | declared was _ _ _ handler =>
    rw [was] at hp
    rw [handler]
    exact hp

/-- Who has a seat is past the arrival and plays the planet of the seat. -/
def Enrolled (s : BazaarServer) : Prop :=
  ∀ c p r, s.seatKey c = some (p, r) → ∃ stage, s.handlers.get? c = some ⟨p, stage⟩ ∧
    stage.isEarly = false

theorem step_enrolled (h : Enrolled s) (hs : Step sha256 s (ev, outs) s') : Enrolled s' := by
  intro c p r hkey
  cases step_tenure hs c with
  | idle handler seat =>
    rw [handler]
    exact h c p r (seat ▸ hkey)
  | connected was _ seat =>
    obtain ⟨stage, hold, _⟩ := h c p r (seat ▸ hkey)
    simp [was] at hold
  | @moved q stage stage' was handler early seat =>
    obtain ⟨old, hold, hlate⟩ := h c p r (seat ▸ hkey)
    obtain ⟨rfl, rfl⟩ := Handler.mk.inj (Option.some.inj (hold.symm.trans was))
    refine ⟨stage', handler, ?_⟩
    by_contra hearly
    simp [early (by simpa using hearly)] at hlate
  | registered _ _ handler seat =>
    obtain ⟨rfl, _⟩ := Prod.mk.inj (Option.some.inj (seat.symm.trans hkey))
    exact ⟨_, handler, rfl⟩
  | @declared q _ _ _ _ was _ _ _ handler seat =>
    obtain ⟨hp, _⟩ := Prod.mk.inj (Option.some.inj (seat.symm.trans hkey))
    refine ⟨.serving [.maybeStart], ?_, rfl⟩
    cases hold : s.seatKey c with
    | none =>
      rw [hold] at hp
      rw [← hp]
      exact handler
    | some key =>
      rw [hold] at hp
      obtain ⟨stage, hhandler, _⟩ := h c key.1 key.2 hold
      obtain ⟨hq, _⟩ := Handler.mk.inj (Option.some.inj (hhandler.symm.trans was))
      rw [← hp, show ((some key).map Prod.fst).getD q = key.1 from rfl, hq]
      exact handler

theorem init_enrolled (config : Config) : Enrolled (init config) := by
  intro c p r h
  simp [seatKey, init] at h

/-- A seat stays ready as long as its owner does not take the declaration back. -/
theorem step_ready (h : Enrolled s)
    (hs : Step sha256 s (ev, outs) s') (hready : s.seatKey c = some (p, true))
    (stands : ∀ payload message ready snapshotSequence, ev = .receive c (.binary payload) →
      decodeClientMessage sha256 payload = .ok message →
      message.request = .ready ready snapshotSequence → ready = true) :
    s'.seatKey c = some (p, true) := by
  cases step_tenure hs c with
  | idle _ seat => rwa [seat]
  | connected _ _ seat => rwa [seat]
  | moved _ _ _ seat => rwa [seat]
  | registered was early =>
    obtain ⟨stage, hold, hlate⟩ := h c p true hready
    obtain ⟨_, rfl⟩ := Handler.mk.inj (Option.some.inj (hold.symm.trans was))
    simp [early] at hlate
  | declared _ received decoded request _ seat =>
    rw [seat, hready, stands _ _ _ _ received decoded request]
    rfl

/-- States go to seated connections, under the planet of the seat. -/
def SendsStates (s : BazaarServer) (outs : List Output) : Prop :=
  ∀ o ∈ outs, ∃ q d snapshot r, o = .send q d (.state snapshot) ∧ s.seatKey d = some (q, r)

theorem sendState_sends (s : BazaarServer) (c : Nat) : SendsStates s (s.sendState c).1 := by
  intro o h
  unfold sendState at h
  split at h
  next => simp at h
  next seat hseat =>
    split at h
    next => simp at h
    next => exact ⟨_, _, _, seat.ready,
      List.mem_singleton.mp h, seatKey_eq_some.mpr ⟨seat, hseat, rfl, rfl⟩⟩

theorem broadcast_sends (s : BazaarServer) : SendsStates s s.broadcast.1 := by
  intro o h
  unfold broadcast at h
  split at h
  next => simp at h
  next c cs _ => exact sendState_sends s c o h

theorem runJob_sends (s : BazaarServer) (job : Job) : SendsStates s (s.runJob job).1 := by
  intro o h
  cases job with
  | sendState c => exact sendState_sends s c o h
  | maybeStart => simp [runJob] at h
  | broadcast => exact broadcast_sends s o h
  | startRun =>
    simp only [runJob, BazaarServer.startRun] at h
    split at h
    next => simp at h
    next => exact broadcast_sends { s with phase := .running, economy := s.economy.bumpVersion } o h
  | setFinished => simp [runJob] at h

theorem advance_sends (s : BazaarServer) : SendsStates s s.advance.1 := by
  intro o h
  unfold advance at h
  split at h
  next => simp at h
  next =>
    split at h
    next => simp at h
    next m _ =>
      simp only at h
      split at h
      next => exact broadcast_sends { s with economy :=
        (m.applyProduction s.production).endRun, phase := .finished } o h
      next => exact broadcast_sends { s with economy := m.applyProduction s.production } o h

theorem register_sends (s : BazaarServer) (c : Nat) (p : String) :
    SendsStates (s.register c p).2 (s.register c p).1 := by
  intro o h
  obtain ⟨q, d, snapshot, r, heq, hkey⟩ := sendState_sends { s with
    seats := s.seats.set p c
    seatOf := s.seatOf.set c { stationId := p } } c o h
  refine ⟨q, d, snapshot, r, heq, ?_⟩
  rw [register_seatKey]
  simp only [seatKey, Dict.get?_set] at hkey
  split at hkey
  next hd => rwa [if_pos hd]
  next hd => rwa [if_neg hd]

theorem SendsStates.congr (h : SendsStates s outs) (keys : ∀ d, s'.seatKey d = s.seatKey d) :
    SendsStates s' outs := by
  intro o ho
  obtain ⟨q, d, snapshot, r, heq, hkey⟩ := h o ho
  exact ⟨q, d, snapshot, r, heq, (keys d).trans hkey⟩

/-- A message that answers no frame: a state, or the word that the connection is fenced. -/
def Unasked (s : BazaarServer) (p : String) (c : Nat) (event : ServerEvent) : Prop :=
  (∃ snapshot r, event = .state snapshot ∧ s.seatKey c = some (p, r)) ∨
    ∃ error, event = .protocolError error ∧ error.requestId = none

theorem SendsStates.unasked {event : ServerEvent} (h : SendsStates s outs)
    (ho : Output.send p c event ∈ outs) :
    Unasked s p c event := by
  obtain ⟨q, d, snapshot, r, heq, hkey⟩ := h _ ho
  obtain ⟨rfl, rfl, rfl⟩ := Output.send.inj heq
  exact Or.inl ⟨snapshot, r, rfl, hkey⟩

theorem onMessage_sends {payload : Payload} {q : String} {event : ServerEvent}
    (h : Output.send q d event ∈ (s.onMessage sha256 c p payload).1) :
    Unasked (s.onMessage sha256 c p payload).2 q d event ∨ d = c := by
  unfold onMessage at h ⊢
  split at h
  next => exact Or.inr (Output.send.inj (List.mem_singleton.mp h)).2.1
  next message _ =>
    split at h
    next => exact Or.inr (Output.send.inj (List.mem_singleton.mp h)).2.1
    next =>
      split at h
      next => exact Or.inr (Output.send.inj (List.mem_singleton.mp h)).2.1
      next hversion hrun =>
        simp only [if_neg hversion, if_neg hrun]
        split at h
        next => exact Or.inr (Output.send.inj (List.mem_singleton.mp h)).2.1
        next => exact Or.inl (((sendState_sends s c).congr (sendState_seatKey s c)).unasked h)
        next =>
          refine Or.inr ?_
          split at h
          next => exact (Output.send.inj (List.mem_singleton.mp h)).2.1
          next =>
            split at h
            next => simp at h
            next hcommand =>
              cases command_commanded hcommand with
              | replayed | conflicted | full =>
                exact (Output.send.inj (List.mem_singleton.mp h)).2.1
              | recorded _ _ _ processed =>
                rcases List.mem_append.mp h with h | h
                · rcases processCommand_cases processed with ⟨_, rfl, _⟩ | ⟨_, rfl, _⟩
                  · simp at h
                  · simp at h
                · exact (Output.send.inj (List.mem_singleton.mp h)).2.1

/-- Whatever else reaches a connection answers a frame of its own. -/
theorem step_sends {event : ServerEvent} (hs : Step sha256 s (ev, outs) s')
    (h : Output.send p c event ∈ outs) :
    Unasked s' p c event ∨ ∃ frame, ev = .receive c frame := by
  cases step_enabled hs with
  | rejected _ _ said _ | closed _ said _ | refused _ said _ =>
    subst said
    simp at h
  | connected _ _ silent _ | disconnected _ silent _ | left _ silent _ =>
    subst silent
    simp at h
  | @received d sid frame _ read =>
    cases frame with
    | text =>
      cases read
      exact Or.inr ⟨_, by rw [(Output.send.inj (List.mem_singleton.mp h)).2.1]⟩
    | binary payload =>
      have hstep : s.onMessage sha256 d sid payload = (outs, s') := read
      have hsends : Unasked (s.onMessage sha256 d sid payload).2 p c event ∨ c = d :=
        onMessage_sends (by rw [hstep]; exact h)
      rw [hstep] at hsends
      rcases hsends with hunasked | rfl
      · exact Or.inl hunasked
      · exact Or.inr ⟨_, rfl⟩
  | @arrived d sid _ arrives =>
    have hregister := register_sends s d sid
    unfold arrive at arrives
    split at arrives
    next =>
      rw [arrives] at hregister
      exact Or.inl (SendsStates.unasked hregister h)
    next =>
      cases arrives
      exact Or.inl (Or.inr ⟨_, (Output.send.inj (List.mem_singleton.mp h)).2.2, rfl⟩)
  | @replaced d sid _ _ registers =>
    have hregister := register_sends s d sid
    rw [registers] at hregister
    exact Or.inl (SendsStates.unasked hregister h)
  | @worked d sid job jobs _ said moved =>
    subst said moved
    exact Or.inl (((runJob_sends s job).congr (runJob_seatKey s job)).unasked h)
  | @background i job jobs _ said moved =>
    subst said moved
    exact Or.inl (((runJob_sends s job).congr (runJob_seatKey s job)).unasked h)
  | advanced advances =>
    have hsends := (advance_sends s).congr (advance_seatKey s)
    rw [advances] at hsends
    exact Or.inl (SendsStates.unasked hsends h)

end BazaarServer

end SpaceportBazaar
