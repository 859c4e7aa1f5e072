import SpaceportBazaar.TradingLoop

namespace SpaceportBazaar

namespace TradingLoop

/-- `run` is over, one way or the other. -/
def ended (t : TradingLoop) : Bool :=
  match t.stage with
  | .returned | .raised _ => true
  | _ => false

/-- The loop of the next connection, over the same server. The session and the executor are
new; the throttle, the memory, the statistics and the log are the run's own. -/
def reconnect (t : TradingLoop) : TradingLoop where
  trading := {
    link := { server := t.trading.link.server, session := .init t.session.throttle }
    executor := { Executor.new with counterparties := t.memory.counterparties } }
  memory := t.memory
  runId := t.runId
  stats := t.stats
  evidence := t.evidence

end TradingLoop

/-- What `run_trading` is at: the loop of its newest connection, and what that was made with. -/
structure TradingRun where
  wiring : Wiring
  config : LoopConfig
  loop : TradingLoop

namespace TradingRun

/-- A turn of the loop or of what is around it, an attempt that comes to no connection, or
one that comes to a new one, whose session draws a prefix for its ids. -/
inductive Event
  | loop (event : TradingLoop.Event)
  | failed
  | reconnect (connection : Nat) (idPrefix : String)
  deriving DecidableEq

def nextSession (r : TradingRun) : TradingRun :=
  { r with config := { r.config with sessionNumber := r.config.sessionNumber + 1 } }

/-- Whether it tries again at all is `RunTrading.turn`. The server goes on meanwhile, which
are turns around the loop that is over. -/
def step? (r : TradingRun) : Event → Option (TradingLoop.Outputs × TradingRun)
  | .loop event =>
    (TradingLoop.step? r.wiring r.config r.loop event).map (fun s => (s.1, { r with loop := s.2 }))
  | .failed => if r.loop.ended then some ((([], []), none), r.nextSession) else none
  | .reconnect connection idPrefix =>
    if r.loop.ended && !r.loop.trading.link.server.handlers.contains connection then
      let r := r.nextSession
      some ((([], []), none), {
        wiring := { r.wiring with connection := connection }
        config := { r.config with idPrefix := idPrefix }
        loop := r.loop.reconnect })
    else none

abbrev Label : Type := Event × TradingLoop.Outputs

def Step : TradingRun → Label → TradingRun → Prop := Machine.ofFunction step?

/-- The first connection, with all the books empty. -/
def init (w : Wiring) (c : LoopConfig) (config : Config)
    (throttle : CommandThrottle) : TradingRun :=
  ⟨w, c, .init config throttle .new none {} {}⟩

end TradingRun

end SpaceportBazaar
