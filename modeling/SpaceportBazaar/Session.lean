import SpaceportBazaar.Connection
import SpaceportBazaar.Machine

namespace SpaceportBazaar

/-- What the receive loop puts on the event queue. -/
inductive Item
  | closedSentinel
  | undecodable
  | message (event : ServerEvent)
  deriving DecidableEq

namespace BazaarSession

/-- What came back for one command: a result, or a control-level refusal. -/
structure CommandOutcome where
  requestId : String
  result : Option CommandResult := none
  error : Option ProtocolErrorEvent := none
  deriving DecidableEq, Repr

inductive Answer
  | snapshot (snapshot : Snapshot)
  | readiness (ack : ReadinessAck)
  | outcome (outcome : CommandOutcome)
  deriving DecidableEq

inductive Future
  | pending
  | result (answer : Answer)
  | exception (error : SessionError)
  | cancelled
  deriving DecidableEq

inductive Awaited
  | snapshot (minSequence : Nat)
  | readiness
  | command (requestId : String)
  deriving DecidableEq, Repr

/-- A coroutine first hands its bytes over, if it has any, and then waits. -/
inductive CallStage
  | sending | waiting | returned
  deriving DecidableEq, Repr

/-- One awaiting coroutine of a caller together with the future it created. -/
structure Call where
  awaited : Awaited
  stage : CallStage
  future : Future := .pending
  timedOut : Bool := false
  deriving DecidableEq

/-- `_consume_events`: between two events, inside `_apply`, or over. -/
inductive Pump
  | reading | sendingReady | closing | returned | crashed
  deriving DecidableEq, Repr

end BazaarSession

inductive SessionOutput
  | ready (runId : String) (snapshotSequence : Nat)
  | charged (requestId : String) (tick : Nat)
  | transmitted (requestId : String) (payload : List UInt8)
  | reply (call : Nat) (reply : Except SessionError BazaarSession.Answer)

/-- One connection's worth of state: snapshots in, commands out. -/
structure BazaarSession where
  lifecycle : SessionLifecycle := {}
  tracker : PendingRequestTracker := {}
  throttle : CommandThrottle
  /-- The socket of `BazaarConnection` is set. -/
  connected : Bool := false
  latest : Option Snapshot := none
  snapshotWaiters : List (Nat × Nat) := []
  commandWaiters : Dict String Nat := Dict.empty
  readiness : Option ReadinessAck := none
  readinessWaiter : Option Nat := none
  closed : Bool := false
  abortReason : Option String := none
  abortCode : Option ControlCode := none
  reconnectWanted : Bool := false
  pump : BazaarSession.Pump := .reading
  /-- Every awaiting call made so far, under the number its future goes by. -/
  calls : Dict Nat BazaarSession.Call := Dict.empty

namespace BazaarSession

def Call.settle (c : Call) (future : Future) : Call :=
  if c.future = .pending then { c with future := future } else c

def settle (s : BazaarSession) (call : Nat) (future : Future) : BazaarSession :=
  { s with calls := s.calls.update call (fun c => c.settle future) }

def settleAll (s : BazaarSession) (calls : List Nat) (future : Future) : BazaarSession :=
  calls.foldl (fun s call => s.settle call future) s

/-- `future.done()` of a call that is still to come back counts as done. -/
def isDone (s : BazaarSession) (call : Nat) : Bool :=
  match s.calls.get? call with
  | some c => c.future ≠ .pending
  | none => true

def start (s : BazaarSession) : BazaarSession :=
  { s with readiness := none, connected := true, lifecycle := s.lifecycle.onConnected }

/-- A new session on its one connection, with the throttle its owner passes on. -/
def init (throttle : CommandThrottle) : BazaarSession := start { throttle := throttle }

def failAllWaiters (s : BazaarSession) (error : SessionError) : BazaarSession :=
  let s := s.settleAll (s.snapshotWaiters.map Prod.snd) (.exception error)
  let s := { s with snapshotWaiters := [] }
  let s := s.settleAll s.commandWaiters.values (.exception error)
  let s := { s with commandWaiters := Dict.empty }
  s.settleAll s.readinessWaiter.toList (.exception error)

/-- Takes the waiter of a request off the table and gives it its outcome. -/
def resolveCommand (s : BazaarSession) (requestId : String)
    (outcome : CommandOutcome) : BazaarSession :=
  let s := { s with tracker := s.tracker.resolve requestId }
  match s.commandWaiters.get? requestId with
  | none => s
  | some call =>
    { s with commandWaiters := s.commandWaiters.erase requestId }.settle call
      (.result (.outcome outcome))

def onResult (s : BazaarSession) (result : CommandResult) : BazaarSession :=
  let s :=
    if result.code = .rateLimited then
      { s with throttle := s.throttle.blockUntil result.retryAfterTick } else s
  s.resolveCommand result.requestId { requestId := result.requestId, result := some result }

def onProtocolError (s : BazaarSession) (event : ProtocolErrorEvent) : BazaarSession :=
  match event.requestId with
  | none => s
  | some requestId => s.resolveCommand requestId { requestId := requestId, error := some event }

/-- The loop over the snapshot waiters: it returns those still waiting. -/
def wakeSnapshots (snapshot : Snapshot) : List (Nat × Nat) → BazaarSession →
    List (Nat × Nat) × BazaarSession
  | [], s => ([], s)
  | (target, call) :: waiters, s =>
    if target ≤ snapshot.snapshotSequence then
      wakeSnapshots snapshot waiters (s.settle call (.result (.snapshot snapshot)))
    else
      let (still, t) := wakeSnapshots snapshot waiters s
      if s.isDone call then (still, t) else ((target, call) :: still, t)

/-- Replace the view wholesale; a stale or repeated snapshot is ignored. -/
def onSnapshot (s : BazaarSession) (snapshot : Snapshot) : BazaarSession :=
  if (s.latest.map (fun held => decide (snapshot.snapshotSequence ≤ held.snapshotSequence))).getD
    false then s
  else
    let s := { s with
      latest := some snapshot
      throttle := s.throttle.updateLimit snapshot.rules.newCommandsPerStationPerTick }
    let (still, s) := wakeSnapshots snapshot s.snapshotWaiters s
    let s := { s with snapshotWaiters := still }
    snapshot.requestResults.foldl onResult s

/-- Latched: the pump may route this before `handshake` asks for it. -/
def resolveReadiness (s : BazaarSession) (ack : ReadinessAck) : BazaarSession :=
  { s with readiness := some ack }.settleAll s.readinessWaiter.toList (.result (.readiness ack))

def route (s : BazaarSession) : ServerEvent → BazaarSession
  | .state snapshot => s.onSnapshot snapshot
  | .result result => s.onResult result
  | .readiness ack => s.resolveReadiness ack
  | .protocolError event => s.onProtocolError event

/-- What a directive does up to its first `await`. -/
def apply (s : BazaarSession) : Directive → List SessionOutput × BazaarSession
  | .sendReady runId snapshotSequence =>
    if s.connected then ([.ready runId snapshotSequence], { s with pump := .sendingReady })
    else ([], { s with pump := .crashed })
  | .abort reason code =>
    ([], { s with abortReason := some reason, abortCode := code }.failAllWaiters
      (.sessionAborted reason code))
  | .reconnect reason =>
    let s := { s with reconnectWanted := true }.failAllWaiters (.sessionClosed reason)
    ([], { s with pump := if s.connected then .closing else .reading })

/-- One turn of the loop of `_consume_events`. -/
def consumeEvent (s : BazaarSession) : Item → List SessionOutput × BazaarSession
  | .closedSentinel =>
    let s := { s with closed := true, lifecycle := s.lifecycle.onDisconnected }
    ([], { s.failAllWaiters (.sessionClosed "connection closed") with pump := .returned })
  | .undecodable => ([], s)
  | .message event =>
    match s.lifecycle.onEvent event with
    | .error error => ([], { s.failAllWaiters error with pump := .returned })
    | .ok (directive, lifecycle) =>
      let s := { s with lifecycle := lifecycle }.route event
      match directive with
      | none => ([], s)
      | some directive => s.apply directive

/-- Up to its `await`; a call that waits is entered under its number. -/
def waitForSnapshot (s : BazaarSession)
    (call minSequence : Nat) : List SessionOutput × BazaarSession :=
  let wait : BazaarSession := { s with
    snapshotWaiters := s.snapshotWaiters ++ [(minSequence, call)]
    calls := s.calls.set call { awaited := .snapshot minSequence, stage := .waiting } }
  match s.latest with
  | none => ([], wait)
  | some held =>
    if minSequence ≤ held.snapshotSequence then
      ([.reply call (.ok (.snapshot held))], s) else ([], wait)

def waitForReadiness (s : BazaarSession) (call : Nat) : List SessionOutput × BazaarSession :=
  match s.readiness with
  | some ack => ([.reply call (.ok (.readiness ack))], s)
  | none =>
    ([], { s with
      readinessWaiter := some call
      calls := s.calls.set call { awaited := .readiness, stage := .waiting } })

/-- The newest snapshot, when it and the lifecycle allow trading commands. -/
def eligible (s : BazaarSession) : Option Snapshot :=
  match s.latest with
  | none => none
  | some snapshot =>
    if !s.lifecycle.canSendTradingCommands || snapshot.me.failedOnce ||
      snapshot.rules.durationTicks ≤ snapshot.tick then none
    else some snapshot

/-- Reading the property rolls the throttle to the newest tick. -/
def remainingCommandBudget (s : BazaarSession) : Nat × BazaarSession :=
  match s.eligible with
  | none => (0, s)
  | some snapshot => ((s.throttle.remaining snapshot.tick).1,
    { s with throttle := (s.throttle.remaining snapshot.tick).2 })

section Commands

variable (bodyFingerprint : List UInt8 → String)

def encode (s : BazaarSession) (draft : Draft) : Except SessionError (List UInt8) :=
  encodeClientMessage draft (s.latest.map (fun snapshot => snapshot.rules.maxCommandBytes))

/-- A retry needs no slot of the budget. -/
def checkBudget (s : BazaarSession) (retry : Bool) : Bool × BazaarSession :=
  if retry then (true, s) else (0 < s.remainingCommandBudget.1, s.remainingCommandBudget.2)

/-- Charge before yielding so simultaneous senders cannot take one slot. -/
def charge (s : BazaarSession) (requestId : String) (retry : Bool)
    (tick : Nat) : List SessionOutput × BazaarSession :=
  if retry then ([], s)
  else ([.charged requestId tick], { s with throttle := s.throttle.recordSent tick })

/-- `send_command` once it registered the id: its future, the charge, the hand-over. -/
def transmit (s : BazaarSession) (call : Nat) (requestId : String) (payload : List UInt8)
    (retry : Bool) (tick : Nat) : List SessionOutput × BazaarSession :=
  let s := { s with
    calls := s.calls.set call { awaited := .command requestId, stage := .sending }
    commandWaiters := s.commandWaiters.set requestId call }
  let (charges, s) := s.charge requestId retry tick
  if s.connected then (charges ++ [.transmitted requestId payload], s)
  else
    (charges ++ [.reply call (.error (.notConnected "send() before connect()"))],
      { s with
        commandWaiters := s.commandWaiters.erase requestId
        calls := s.calls.set call { awaited := .command requestId, stage := .returned } })

def refuse (s : BazaarSession) (call : Nat)
    (error : SessionError) : List SessionOutput × BazaarSession :=
  ([.reply call (.error error)], s)

def sendCommand (s : BazaarSession) (call : Nat) (draft : Draft) (kind requestId : String) :
    List SessionOutput × BazaarSession :=
  match s.encode draft with
  | .error error => s.refuse call error
  | .ok payload =>
    let fingerprint := bodyFingerprint payload
    let retry := s.tracker.isExactRetry requestId fingerprint
    if s.commandWaiters.contains requestId then
      s.refuse call (.commandBlocked "this request already has a pending send")
    else
      match s.eligible with
      | none => s.refuse call (.commandBlocked "trading is not eligible")
      | some snapshot =>
        let (slot, s) := s.checkBudget retry
        if !slot then s.refuse call (.commandBlocked "this tick's command budget is exhausted")
        else
          match s.tracker.register requestId fingerprint kind snapshot.tick with
          | .error error => s.refuse call error
          | .ok tracker =>
            { s with tracker := tracker }.transmit call requestId payload retry snapshot.tick

/-- The `finally` blocks: a snapshot waiter leaves the list, and whatever waiter
stands under the request id of a command leaves the table. -/
def unregister (s : BazaarSession) (call : Nat) : Awaited → BazaarSession
  | .snapshot _ => { s with snapshotWaiters := s.snapshotWaiters.filter (fun w => w.2 ≠ call) }
  | .readiness => s
  | .command requestId => { s with commandWaiters := s.commandWaiters.erase requestId }

def finish (s : BazaarSession) (call : Nat) (c : Call) (reply : Except SessionError Answer) :
    List SessionOutput × BazaarSession :=
  ([.reply call reply],
    { s with calls := s.calls.set call { c with stage := .returned } }.unregister call c.awaited)

/-- How a wait that may end does end. -/
def Call.verdict (c : Call) : Option (Except SessionError Answer) :=
  if c.timedOut then some (.error .timeout)
  else
    match c.future with
    | .pending => none
    | .result answer => some (.ok answer)
    | .exception error => some (.error error)
    | .cancelled => none

/-- What can happen next: the pump takes an item or ends an `await`, a caller makes
a call, a call's `await` ends. Calls bear fresh numbers. -/
inductive Event
  | item (item : Item)
  | readySent (ok : Bool)
  | connectionClosed
  | remainingCommandBudget
  | waitForSnapshot (call minSequence : Nat)
  | waitForReadiness (call : Nat)
  | sendCommand (call : Nat) (draft : Draft) (kind requestId : String)
  | payloadSent (call : Nat) (ok : Bool)
  | timeout (call : Nat)
  | resume (call : Nat)
  deriving DecidableEq

def step? (s : BazaarSession) : Event → Option (List SessionOutput × BazaarSession)
  | .item item => if s.pump = .reading then some (s.consumeEvent item) else none
  | .readySent ok =>
    if s.pump = .sendingReady then some ([], { s with pump := if ok then .reading else .crashed })
    else none
  | .connectionClosed =>
    if s.pump = .closing then some ([], { s with connected := false, pump := .reading }) else none
  | .remainingCommandBudget => some ([], s.remainingCommandBudget.2)
  | .waitForSnapshot call minSequence =>
    if s.calls.contains call then none else some (s.waitForSnapshot call minSequence)
  | .waitForReadiness call => if s.calls.contains call then none else some (s.waitForReadiness call)
  | .sendCommand call draft kind requestId =>
    if s.calls.contains call then none
    else some (s.sendCommand bodyFingerprint call draft kind requestId)
  | .payloadSent call ok =>
    match s.calls.get? call with
    | some c =>
      if c.stage ≠ .sending then none
      else if ok then some ([], { s with calls := s.calls.set call { c with stage := .waiting } })
      else some (s.finish call c (.error .connectionLost))
    | none => none
  | .timeout call =>
    match s.calls.get? call with
    | some c =>
      if c.stage ≠ .waiting then none
      else some ([],
        { s with calls := s.calls.set call { c.settle .cancelled with timedOut := true } })
    | none => none
  | .resume call =>
    match s.calls.get? call with
    | some c => if c.stage ≠ .waiting then none else c.verdict.map (s.finish call c)
    | none => none

/-- One turn of the event loop, labelled with the event and what the session put out. -/
def Step : BazaarSession → Event × List SessionOutput → BazaarSession → Prop :=
  Machine.ofFunction (step? bodyFingerprint)

end Commands

end BazaarSession

end SpaceportBazaar
