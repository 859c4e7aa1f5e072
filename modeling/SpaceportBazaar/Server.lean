import SpaceportBazaar.Codec
import SpaceportBazaar.EconomySteps

namespace SpaceportBazaar

/-- One planet's live connection: its own snapshot counter and readiness. -/
structure Seat where
  stationId : String
  sequence : Nat := 0
  ready : Bool := false
  deriving DecidableEq, Repr

structure StoredResult where
  fingerprint : String
  result : CommandResult
  deriving DecidableEq

/-- What a coroutine still has to do, one entry for each further `await`. -/
inductive Job
  | sendState (connection : Nat)
  | maybeStart
  | broadcast
  | startRun
  | setFinished
  deriving DecidableEq

/-- Where the `_handle` coroutine of a connection stands. -/
inductive Stage
  | arriving
  | fencing (previous : Nat)
  | replacing (previous : Nat)
  | serving (jobs : List Job)
  | refusing
  | leaving
  | finished
  deriving DecidableEq

structure Handler where
  stationId : String
  stage : Stage
  deriving DecidableEq

/-- What the server does that others can see, in order. -/
inductive Output
  | rejected
  | send (stationId : String) (connection : Nat) (event : ServerEvent)
  | closing (connection : Nat)
  | executed (connection : Nat) (stationId requestId : String) (action : Action)
    (outcome : CommandOutcome)
  deriving DecidableEq

/-- One websocket frame from a client. -/
inductive Frame
  | text
  | binary (payload : Payload)
  deriving DecidableEq

structure Config where
  stations : List SimStation
  rules : Rules
  runId : String
  tokens : Dict String String
  openAuth : Bool
  startWhen : Nat
  production : Option (Nat → Nat → Nat)

structure BazaarServer where
  economy : SimulatedEconomy
  tokens : Dict String String
  openAuth : Bool
  startWhen : Nat
  production : Option (Nat → Nat → Nat)
  phase : Phase
  /-- `server.seats`: the connection registered for each planet. -/
  seats : Dict String Nat
  results : Dict String (Dict String StoredResult)
  finished : Bool
  claimed : List String
  /-- The `Seat` object each connection created. -/
  seatOf : Dict Nat Seat
  handlers : Dict Nat Handler
  /-- Coroutines other than handlers: run starts and ticks. -/
  background : List (List Job)

namespace SimulatedEconomy

def applyProduction (e : SimulatedEconomy) : Option (Nat → Nat → Nat) → SimulatedEconomy
  | none => e
  | some production =>
    { e with stations :=
      e.stations.mapIdxValues (fun i s => { s with production := production e.tick i }) }

def bumpVersion (e : SimulatedEconomy) : SimulatedEconomy :=
  { e with worldVersion := e.worldVersion + 1 }

end SimulatedEconomy

namespace BazaarServer

def init (c : Config) : BazaarServer :=
  let economy := SimulatedEconomy.create c.stations c.rules c.runId
  { economy := economy.applyProduction c.production
    tokens := c.tokens
    openAuth := c.openAuth
    startWhen := c.startWhen
    production := c.production
    phase := .ready
    seats := Dict.empty
    results := economy.stations.mapValues (fun _ => Dict.empty)
    finished := false
    claimed := []
    seatOf := Dict.empty
    handlers := Dict.empty
    background := [] }

def setStage (s : BazaarServer) (c : Nat) (stationId : String) (stage : Stage) : BazaarServer :=
  { s with handlers := s.handlers.set c ⟨stationId, stage⟩ }

/-- The planet of a connection attempt, or `none` when the handshake is answered
with an HTTP error. -/
def authenticate (s : BazaarServer) (offersSubprotocol : Bool) (token : String) :
    Option (String × BazaarServer) :=
  if !offersSubprotocol then none
  else if s.openAuth then
    match s.economy.stations.keys.filter (fun sid => sid ∉ s.claimed) with
    | [] => none
    | sid :: _ => some (sid, { s with claimed := sid :: s.claimed })
  else (s.tokens.get? token).map (fun sid => (sid, s))

/-- Only a FINISHED run has an outcome to report. -/
def outcomeFor (s : BazaarServer) (stationId : String) : Except Raised (Option PlayerOutcome) :=
  if s.phase = .finished then some <$> s.economy.outcomeFor stationId else .ok none

def snapshotFor (s : BazaarServer) (seat : Seat) : Except Raised Snapshot := do
  let outcome ← s.outcomeFor seat.stationId
  let results := ((s.results.get? seat.stationId).map Dict.values).getD []
  let (snapshot, _) ← s.economy.observationFor seat.stationId (some (seat.sequence + 1)) s.phase
    (results.map StoredResult.result) outcome
  return snapshot

def sendState (s : BazaarServer) (c : Nat) : List Output × BazaarServer :=
  match s.seatOf.get? c with
  | none => ([], s)
  | some seat =>
    match s.snapshotFor seat with
    | .error _ => ([], s)
    | .ok snapshot =>
      ([.send seat.stationId c (.state snapshot)],
        { s with seatOf := s.seatOf.set c { seat with sequence := seat.sequence + 1 } })

/-- Sends to the first registered seat and leaves the others to later turns. -/
def broadcast (s : BazaarServer) : List Output × List Job × BazaarServer :=
  match s.seats.values with
  | [] => ([], [], s)
  | c :: cs =>
    let (outs, s) := s.sendState c
    (outs, cs.map Job.sendState, s)

def protocolErrorEvent (s : BazaarServer) (code : ControlCode) (requestId : Option String)
    (close : Bool) :
    ServerEvent :=
  .protocolError ⟨some s.economy.runId, requestId, code, close⟩

def readyCount (s : BazaarServer) : Nat :=
  s.seats.values.countP (fun c => ((s.seatOf.get? c).map Seat.ready).getD false)

def maybeStart (s : BazaarServer) : BazaarServer :=
  if s.phase = .ready && 0 < s.startWhen && s.startWhen ≤ s.readyCount then
    { s with background := s.background ++ [[.startRun]] }
  else s

def startRun (s : BazaarServer) : List Output × List Job × BazaarServer :=
  if s.phase ≠ .ready then ([], [], s)
  else { s with phase := .running, economy := s.economy.bumpVersion }.broadcast

/-- Runs one coroutine up to its next `await`. -/
def runJob (s : BazaarServer) : Job → List Output × List Job × BazaarServer
  | .sendState c =>
    let (outs, s) := s.sendState c
    (outs, [], s)
  | .maybeStart => ([], [], s.maybeStart)
  | .broadcast => s.broadcast
  | .startRun => s.startRun
  | .setFinished => ([], [], { s with finished := true })

/-- One tick: production, upkeep, expiry, failure, then everyone's new state. A
tick that raises ends its coroutine. -/
def advance (s : BazaarServer) : List Output × BazaarServer :=
  if s.phase ≠ .running then ([], s)
  else
    match s.economy.advanceTick with
    | .error _ => ([], s)
    | .ok economy =>
      let economy := economy.applyProduction s.production
      if economy.finished then
        let (outs, jobs, s) := { s with economy := economy.endRun, phase := .finished }.broadcast
        (outs, { s with background := s.background ++ [jobs ++ [.setFinished]] })
      else
        let (outs, jobs, s) := { s with economy := economy }.broadcast
        (outs, { s with background := s.background ++ [jobs] })

/-- The `finally` block of `_handle`. -/
def leave (s : BazaarServer) (c : Nat) (stationId : String) : BazaarServer :=
  let s :=
    if s.seats.get? stationId = some c then
      { s with
        seats := s.seats.erase stationId
        claimed := if s.openAuth then s.claimed.filter (fun sid => sid ≠ stationId) else s.claimed }
    else s
  s.setStage c stationId .finished

def register (s : BazaarServer) (c : Nat) (stationId : String) : List Output × BazaarServer :=
  let s := { s with
    seats := s.seats.set stationId c
    seatOf := s.seatOf.set c { stationId := stationId } }
  let (outs, s) := s.sendState c
  (outs, s.setStage c stationId (.serving []))

def fence (s : BazaarServer) : ServerEvent := s.protocolErrorEvent .sessionFenced none true

/-- `_handle` before its loop: fence and close the previous seat, then register. -/
def arrive (s : BazaarServer) (c : Nat) (stationId : String) : List Output × BazaarServer :=
  match s.seats.get? stationId with
  | none => s.register c stationId
  | some previous =>
    ([.send stationId previous s.fence], s.setStage c stationId (.fencing previous))

def resultOf (s : BazaarServer) (requestId : String)
    (outcome : CommandOutcome) : CommandResult where
  requestId := requestId
  ok := outcome.code = .ok
  code := outcome.code
  processedTick := s.economy.tick
  processedVersion := s.economy.worldVersion
  objectId := outcome.objectId
  transactionId := outcome.transactionId
  retryAfterTick := if outcome.code = .rateLimited then some (s.economy.tick + 1) else none

/-- Outside the RUNNING phase the engine is not asked. -/
def processCommand (s : BazaarServer) (c : Nat) (stationId requestId : String) (action : Action) :
    Except Raised (List Output × CommandOutcome × SimulatedEconomy) :=
  if s.phase ≠ .running then .ok ([], ⟨.runNotRunning, none, none⟩, s.economy)
  else do
    let (out, economy) ← s.economy.execute stationId action
    return ([.executed c stationId requestId action out], out,
      if out.code = .ok then economy.bumpVersion else economy)

def record (s : BazaarServer) (stationId : String) (stored : Dict String StoredResult)
    (requestId : String) (result : StoredResult) : BazaarServer :=
  { s with results := s.results.set stationId (stored.set requestId result) }

/-- `none` when the handler dies of an exception. -/
def command (s : BazaarServer) (c : Nat) (stationId requestId : String) (action : Action)
    (fingerprint : String) : Option (List Output × List Job × BazaarServer) :=
  match s.results.get? stationId with
  | none => none
  | some stored =>
    match stored.get? requestId with
    | some previous =>
      if previous.fingerprint = fingerprint then
        some ([.send stationId c (.result previous.result)], [.sendState c], s)
      else
        some ([.send stationId c (.result (s.resultOf requestId ⟨.requestIdConflict, none, none⟩))],
          [], s)
    | none =>
      if s.economy.rules.maxRequestRecordsPerStation ≤ stored.size then
        some ([.send stationId c
          (s.protocolErrorEvent .requestCapacityExceeded (some requestId) false)], [], s)
      else
        match s.processCommand c stationId requestId action with
        | .error _ => none
        | .ok (outs, outcome, economy) =>
          let s := { s with economy := economy }
          let result := s.resultOf requestId outcome
          some (outs ++ [.send stationId c (.result result)], [.broadcast],
            s.record stationId stored requestId ⟨fingerprint, result⟩)

section Messages

variable (sha256 : List UInt8 → String)

/-- Handle one message of a connection, up to the first `await`. -/
def onMessage (s : BazaarServer) (c : Nat) (stationId : String) (payload : Payload) :
    List Output × BazaarServer :=
  match decodeClientMessage sha256 payload with
  | .error bad =>
    ([.send stationId c (s.protocolErrorEvent .badMessage bad.requestId false)],
      s.setStage c stationId (.serving []))
  | .ok message =>
    if message.protocolVersion ≠ protocolVersion then
      ([.send stationId c (s.protocolErrorEvent .unsupportedVersion message.requestId true)],
        s.setStage c stationId .refusing)
    else if message.runId ≠ s.economy.runId then
      ([.send stationId c (s.protocolErrorEvent .runMismatch message.requestId true)],
        s.setStage c stationId .refusing)
    else
      match message.request with
      | .ready ready snapshotSequence =>
        let seat := (s.seatOf.get? c).getD { stationId := stationId }
        ([.send stationId c (.readiness ⟨s.economy.runId, ready, snapshotSequence⟩)],
          { s with seatOf := s.seatOf.set c { seat with ready := ready } }.setStage c stationId
            (.serving [.maybeStart]))
      | .sync =>
        let (outs, s) := s.sendState c
        (outs, s.setStage c stationId (.serving []))
      | .command requestId action fingerprint =>
        if ((s.seatOf.get? c).map Seat.ready).getD false = false then
          ([.send stationId c (s.protocolErrorEvent .badMessage (some requestId) false)],
            s.setStage c stationId (.serving []))
        else
          match s.command c stationId requestId action fingerprint with
          | none => ([], s.leave c stationId)
          | some (outs, jobs, s) => (outs, s.setStage c stationId (.serving jobs))

def receive (s : BazaarServer) (c : Nat) (stationId : String) : Frame → List Output × BazaarServer
  | .text =>
    ([.send stationId c (s.protocolErrorEvent .badMessage none false)],
      s.setStage c stationId (.serving []))
  | .binary payload => s.onMessage sha256 c stationId payload

def resume (s : BazaarServer) (c : Nat) (stationId : String) : Stage →
    Option (List Output × BazaarServer)
  | .arriving => some (s.arrive c stationId)
  | .fencing previous => some ([.closing previous], s.setStage c stationId (.replacing previous))
  | .replacing _ => some (s.register c stationId)
  | .serving [] => none
  | .serving (job :: jobs) =>
    let (outs, more, s) := s.runJob job
    some (outs, s.setStage c stationId (.serving (more ++ jobs)))
  | .refusing => some ([.closing c], s.setStage c stationId .leaving)
  | .leaving => some ([], s.leave c stationId)
  | .finished => none

def resumeTask (s : BazaarServer) (i : Nat) : Option (List Output × BazaarServer) :=
  match s.background[i]? with
  | some (job :: jobs) =>
    let (outs, more, s) := s.runJob job
    some (outs, { s with background := s.background.set i (more ++ jobs) })
  | _ => none

/-- What the event loop can do next: every `await` is a scheduling point. A frame
reaches a handler that waits for one, whether or not its socket is being closed. -/
inductive Event
  | connect (connection : Nat) (offersSubprotocol : Bool) (token : String)
  | receive (connection : Nat) (frame : Frame)
  | disconnect (connection : Nat)
  | resume (connection : Nat)
  | resumeTask (i : Nat)
  | advance
  deriving DecidableEq

def step? (s : BazaarServer) : Event → Option (List Output × BazaarServer)
  | .connect c offersSubprotocol token =>
    if s.handlers.contains c then none
    else
      match s.authenticate offersSubprotocol token with
      | none => some ([.rejected], s)
      | some (stationId, s) => some ([], s.setStage c stationId .arriving)
  | .receive c frame =>
    match s.handlers.get? c with
    | some ⟨stationId, .serving []⟩ => some (s.receive sha256 c stationId frame)
    | _ => none
  | .disconnect c =>
    match s.handlers.get? c with
    | some ⟨stationId, .serving []⟩ => some ([], s.leave c stationId)
    | _ => none
  | .resume c =>
    match s.handlers.get? c with
    | some ⟨stationId, stage⟩ => s.resume c stationId stage
    | none => none
  | .resumeTask i => s.resumeTask i
  | .advance => some s.advance

/-- One turn of the event loop, labelled with the event and what the server put out. -/
def Step : BazaarServer → Event × List Output → BazaarServer → Prop :=
  Machine.ofFunction (step? sha256)

end Messages

end BazaarServer

end SpaceportBazaar
