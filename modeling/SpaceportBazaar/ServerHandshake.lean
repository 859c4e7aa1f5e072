import SpaceportBazaar.ServerSeats

namespace SpaceportBazaar

/-- The handler has its planet, and its `finally` block has not run. -/
def Stage.settled : Stage → Bool
  | .serving _ | .refusing | .leaving => true
  | .arriving | .fencing _ | .replacing _ | .finished => false

namespace BazaarServer

variable {sha256 : List UInt8 → String} {s s' : BazaarServer} {c : Nat} {p : String}
  {outs : List Output}

/-- What a turn of the server past its handshakes does to the connections and to the claims. -/
inductive Turnover (s s' : BazaarServer) : Prop
  | idle (seats : s'.seats = s.seats) (claimed : s'.claimed = s.claimed)
    (handlers : s'.handlers = s.handlers)
  | moved {c p stage stage'} (was : s.handlers.get? c = some ⟨p, stage⟩)
    (live : stage.settled = true)
    (stays : stage'.settled = true) (seats : s'.seats = s.seats) (claimed : s'.claimed = s.claimed)
    (handlers : s'.handlers = s.handlers.set c ⟨p, stage'⟩)
  | left {c p stage} (was : s.handlers.get? c = some ⟨p, stage⟩) (live : stage.settled = true)
    (seats : s'.seats = if s.seats.get? p = some c then s.seats.erase p else s.seats)
    (claimed : s'.claimed = if s.seats.get? p = some c then
      s.claimed.filter (fun sid => sid ≠ p) else s.claimed)
    (handlers : s'.handlers = s.handlers.set c ⟨p, .finished⟩)

/-- Running on with the seats, the handlers and the claims as they are. -/
theorem Turnover.moved_of_eq {t : BazaarServer}
    {stage stage' : Stage} (was : s.handlers.get? c = some ⟨p, stage⟩) (live : stage.settled = true)
    (stays : stage'.settled = true) (seats : t.seats = s.seats) (claimed : t.claimed = s.claimed)
    (handlers : t.handlers = s.handlers) : Turnover s (t.setStage c p stage') :=
  .moved was live stays seats claimed (by rw [← handlers]; rfl)

theorem leave_turnover {stage : Stage} (hopen : s.openAuth = true)
    (was : s.handlers.get? c = some ⟨p, stage⟩) (live : stage.settled = true) :
    Turnover s (s.leave c p) ∧ (s.leave c p).openAuth = true := by
  have hclaimed : (s.leave c p).claimed =
      if s.seats.get? p = some c then s.claimed.filter (fun sid => sid ≠ p) else s.claimed := by
    unfold leave
    split <;> simp [setStage, hopen]
  refine ⟨.left was live (leave_seats s c p).1 hclaimed (leave_seats s c p).2, ?_⟩
  unfold leave
  split <;> simpa [setStage] using hopen

theorem onMessage_turnover (sha256 : List UInt8 → String) (payload : Payload)
    (hopen : s.openAuth = true) (was : s.handlers.get? c = some ⟨p, .serving []⟩) :
    Turnover s (s.onMessage sha256 c p payload).2 ∧
    (s.onMessage sha256 c p payload).2.openAuth = true := by
  have stay : ∀ stage : Stage, stage.settled = true →
      Turnover s (s.setStage c p stage) ∧ (s.setStage c p stage).openAuth = true :=
    fun stage hstage => ⟨.moved_of_eq was rfl hstage rfl rfl rfl, hopen⟩
  unfold onMessage
  split
  next => exact stay _ rfl
  next message _ =>
    split
    next => exact stay _ rfl
    next =>
      split
      next => exact stay _ rfl
      next =>
        split
        next => exact ⟨.moved_of_eq was rfl rfl rfl rfl rfl, hopen⟩
        next =>
          obtain ⟨seatOf, hs⟩ := s.sendState_frame c
          simp only
          rw [hs]
          exact ⟨.moved_of_eq was rfl rfl rfl rfl rfl, hopen⟩
        next =>
          split
          next => exact stay _ rfl
          next =>
            split
            next => exact leave_turnover hopen was rfl
            next outs' jobs s₁ hcommand =>
              cases command_commanded hcommand with
              | replayed | conflicted | full => exact stay _ rfl
              | recorded => exact ⟨.moved_of_eq was rfl rfl rfl rfl rfl, hopen⟩

/-- Once its handshakes are apart, an open server only moves handlers on or lets them go. -/
theorem step_turnover {ev : Event} (hopen : s.openAuth = true)
    (hconnect : ∀ c o t, ev ≠ .connect c o t) (hstages :
      ∀ c p stage, s.handlers.get? c = some ⟨p, stage⟩ → stage = .finished ∨ stage.settled = true)
    (h : Step sha256 s (ev, outs) s') : Turnover s s' ∧ s'.openAuth = true := by
  have hsettled : ∀ {c p stage}, s.handlers.get? c = some ⟨p, stage⟩ → stage ≠ .finished →
      stage.settled = true :=
    fun was hlive => (hstages _ _ _ was).resolve_left hlive
  cases step_enabled h with
  | rejected | connected => exact absurd rfl (hconnect _ _ _)
  | @received c p frame serving read =>
    cases frame with
    | text =>
      cases read
      exact ⟨.moved_of_eq serving rfl rfl rfl rfl rfl, hopen⟩
    | binary payload =>
      have hmessage := onMessage_turnover sha256 payload hopen serving
      rwa [show s.onMessage sha256 c p payload = (outs, s') from read] at hmessage
  | disconnected was _ moved | left was _ moved =>
    subst moved
    exact leave_turnover hopen was rfl
  | arrived was _ | closed was _ _ | replaced was _ => cases hsettled was (by simp)
  | @worked c p job jobs was _ moved =>
    subst moved
    obtain ⟨economy, phase, finished, seatOf, background, hs⟩ := s.runJob_frame job
    rw [hs]
    exact ⟨.moved_of_eq was rfl rfl rfl rfl rfl, hopen⟩
  | refused was _ moved =>
    subst moved
    exact ⟨.moved_of_eq was rfl rfl rfl rfl rfl, hopen⟩
  | @background i job jobs _ _ moved =>
    subst moved
    obtain ⟨economy, phase, finished, seatOf, background, hs⟩ := s.runJob_frame job
    rw [hs]
    exact ⟨.idle rfl rfl rfl, hopen⟩
  | advanced advances =>
    obtain ⟨economy, phase, finished, seatOf, background, hs⟩ := s.advance_frame
    rw [advances] at hs
    subst hs
    exact ⟨.idle rfl rfl rfl, hopen⟩

end BazaarServer

/-- The server together with the handshakes that `_authenticate` let through and the
library has not finished. -/
structure Lobby where
  server : BazaarServer
  /-- `connection.station_id` of each. -/
  pending : Dict Nat String

namespace Lobby

variable (sha256 : List UInt8 → String)

/-- A handshake goes through `_authenticate` before the library validates it; it fails,
or `_handle` is called. -/
inductive Event
  | request (connection : Nat) (offersSubprotocol : Bool) (token : String)
  | fail (connection : Nat)
  | complete (connection : Nat)
  | serve (event : BazaarServer.Event)
  deriving DecidableEq

def init (c : Config) : Lobby := ⟨BazaarServer.init c, Dict.empty⟩

def step? (l : Lobby) : Event → Option (List Output × Lobby)
  | .request c offersSubprotocol token =>
    if l.pending.contains c || l.server.handlers.contains c then none
    else
      match l.server.authenticate offersSubprotocol token with
      | none => some ([.rejected], l)
      | some (stationId, server) => some ([], ⟨server, l.pending.set c stationId⟩)
  | .fail c =>
    match l.pending.get? c with
    | none => none
    | some _ => some ([.closing c], { l with pending := l.pending.erase c })
  | .complete c =>
    match l.pending.get? c with
    | none => none
    | some stationId =>
      let (outs, server) := l.server.arrive c stationId
      some (outs, ⟨server, l.pending.erase c⟩)
  | .serve (.connect ..) => none
  | .serve event => (l.server.step? sha256 event).map (fun r => (r.1, { l with server := r.2 }))

def Step : Lobby → Event × List Output → Lobby → Prop := Machine.ofFunction (step? sha256)

end Lobby

end SpaceportBazaar
