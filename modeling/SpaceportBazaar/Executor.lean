import SpaceportBazaar.Commands
import SpaceportBazaar.Commitments
import SpaceportBazaar.Counterparties
import SpaceportBazaar.Link

namespace SpaceportBazaar

namespace BazaarSession

def CommandOutcome.ok (outcome : CommandOutcome) : Bool :=
  (outcome.result.map CommandResult.ok).getD false

/-- A number no call bears yet. -/
def freshCall (s : BazaarSession) : Nat := s.calls.keys.foldr (fun n m => max (n + 1) m) 0

/-- `wait_for_result_snapshot` from one turn of its loop to its next `await`: the state
it returns, or none while it waits under the number `call`. -/
def waitForResultSnapshot (s : BazaarSession) (call : Nat) (result : CommandResult)
    (sequence : Nat) :
    Option Snapshot × BazaarSession :=
  match s.waitForSnapshot call sequence with
  | ([.reply _ (.ok (.snapshot snapshot))], s) =>
    if result ∈ snapshot.requestResults then (some snapshot, s)
    else (none, (s.waitForSnapshot call (snapshot.snapshotSequence + 1)).2)
  | (_, s) => (none, s)

end BazaarSession

/-- What `execute` awaits: the answer to its command, then a state that contains it. -/
inductive Awaiting
  | answer
  | confirmation (outcome : BazaarSession.CommandOutcome) (result : CommandResult)

/-- An `execute` call under way and the number of the session call it awaits. -/
structure Execution where
  action : Action
  requestId : String
  call : Nat
  awaiting : Awaiting

inductive ExecutionError
  | build (raised : Raised)
  | session (error : SessionError)

abbrev Conclusion : Type := Except ExecutionError BazaarSession.CommandOutcome

structure Executor where
  commitments : CommitmentTracker
  counterparties : CounterpartyModel
  current : Option Execution

namespace Executor

def new : Executor := ⟨.new, .empty, none⟩

/-- No reservation exists on the server's side: an offer's stock is held before it is sent. -/
def register (e : Executor) (action : Action) (requestId : String) : Executor :=
  match action with
  | .offer _ give _ _ => { e with commitments := e.commitments.registerInflight requestId give }
  | _ => e

def release (e : Executor) (requestId : String) : Executor :=
  { e with commitments := e.commitments.resolveInflight requestId }

/-- A planet that turned out to have failed gets no more offers. -/
def recordOutcome (e : Executor) (action : Action)
    (outcome : BazaarSession.CommandOutcome) : Executor :=
  match outcome.result, action with
  | some result, .offer recipientId _ _ _ =>
    if result.code = .stationFailed then
      { e with counterparties := e.counterparties.markFailed recipientId } else e
  | _, _ => e

/-- The `except` block: a command that was blocked never left, and everything else is
ambiguous and keeps its hold. -/
def fail (e : Executor) (requestId : String) (error : SessionError) : Executor :=
  match error with
  | .commandBlocked _ => { e.release requestId with current := none }
  | _ => { e with current := none }

end Executor

/-- One session with its executor, linked to the server. -/
structure Trading where
  link : Link
  executor : Executor

namespace Trading

def init (config : Config) (throttle : CommandThrottle) : Trading := ⟨.init config throttle, .new⟩

def conclude (t : Trading) (x : Execution)
    (outcome : BazaarSession.CommandOutcome) : Option Conclusion × Trading :=
  (some (.ok outcome),
    { t with executor := { t.executor.release x.requestId with current := none } })

/-- Looks for the result in the newest state, and waits for a newer one if it is not there. -/
def confirm (t : Trading) (x : Execution) (outcome : BazaarSession.CommandOutcome)
    (result : CommandResult) (sequence : Nat) : Option Conclusion × Trading :=
  let call := t.link.session.freshCall
  let (found, session) := t.link.session.waitForResultSnapshot call result sequence
  let t := { t with link := { t.link with session := session } }
  match found with
  | some _ => t.conclude x outcome
  | none =>
    (none, { t with executor := { t.executor with
      current := some { x with call := call, awaiting := .confirmation outcome result } } })

/-- The command was answered: a refusal gives the hold back at once. -/
def answered (t : Trading) (x : Execution)
    (outcome : BazaarSession.CommandOutcome) : Option Conclusion × Trading :=
  let executor := t.executor.recordOutcome x.action outcome
  let t := { t with executor := if outcome.ok then executor else executor.release x.requestId }
  match outcome.result with
  | none => t.conclude x outcome
  | some result => t.confirm x outcome result 1

/-- `execute` goes on with what the session call it awaits came back with. -/
def resume (t : Trading) (x : Execution) (reply : Except SessionError BazaarSession.Answer) :
    Option Conclusion × Trading :=
  match reply with
  | .error error =>
    (some (.error (.session error)), { t with executor := t.executor.fail x.requestId error })
  | .ok answer =>
    match x.awaiting, answer with
    | .answer, .outcome outcome => t.answered x outcome
    | .confirmation outcome result, .snapshot snapshot =>
      if result ∈ snapshot.requestResults then t.conclude x outcome
      else t.confirm x outcome result (snapshot.snapshotSequence + 1)
    | _, _ => (none, t)

def replyTo (call : Nat) : SessionOutput → Option (Except SessionError BazaarSession.Answer)
  | .reply c reply => if c = call then some reply else none
  | _ => none

def proceed (t : Trading) (outs : List SessionOutput) : Option Conclusion × Trading :=
  match t.executor.current with
  | none => (none, t)
  | some x =>
    match outs.findSome? (replyTo x.call) with
    | none => (none, t)
    | some reply => t.resume x reply

/-- What others see of a step: the link's outputs and how an `execute` call ended. -/
abbrev Outputs : Type := (List Output × List SessionOutput) × Option Conclusion

section Steps

variable (w : Wiring)

/-- `execute` up to its first `await`. -/
def execute (t : Trading) (action : Action) (requestId : String) : Option (Outputs × Trading) :=
  match t.link.session.lifecycle.runId with
  | none =>
    some ((([], []), some (.error
      (.session (.sessionClosed "run id is unknown until the first state arrives")))), t)
  | some runId =>
    match build action runId requestId with
    | .error raised => some ((([], []), some (.error (.build raised))), t)
    | .ok message =>
      let call := t.link.session.freshCall
      let executor := { t.executor.register action
        requestId with current := some ⟨action, requestId, call, .answer⟩ }
      (Link.step? w t.link
          (.session (.sendCommand call (.complete message) action.kind requestId))).map (fun r =>
        let (conclusion, t) := proceed { link := r.2, executor := executor } r.1.2
        ((r.1, conclusion), t))

/-- Commands are sent through the executor only, one call at a time. -/
inductive Event
  | link (event : Link.Event)
  | execute (action : Action) (requestId : String)
  deriving DecidableEq

def sendsCommand : Link.Event → Bool
  | .session (.sendCommand ..) => true
  | _ => false

def step? (t : Trading) : Event → Option (Outputs × Trading)
  | .link event =>
    if sendsCommand event then none
    else
      (Link.step? w t.link event).map (fun r =>
        let (conclusion, t) := proceed { t with link := r.2 } r.1.2
        ((r.1, conclusion), t))
  | .execute action requestId => if t.executor.current.isSome then
    none else t.execute w action requestId

abbrev Label : Type := Event × Outputs

def Step : Trading → Label → Trading → Prop := Machine.ofFunction (step? w)

end Steps

end Trading

end SpaceportBazaar
