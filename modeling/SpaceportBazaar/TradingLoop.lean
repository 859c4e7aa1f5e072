import SpaceportBazaar.Evidence
import SpaceportBazaar.Executor
import SpaceportBazaar.RequestIds
import SpaceportBazaar.RunTrading

namespace SpaceportBazaar

/-- The authoritative view: a snapshot replaces it wholesale, and a stale one is ignored. -/
structure WorldModel where
  snapshot : Option Snapshot := none
  lastSequence : Nat := 0
  applied : Nat := 0
  ignored : Nat := 0

namespace WorldModel

def apply (world : WorldModel) (snapshot : Snapshot) : Bool × WorldModel :=
  if world.snapshot.isSome && decide (snapshot.snapshotSequence ≤ world.lastSequence) then
    (false, { world with ignored := world.ignored + 1 })
  else
    (true, { world with
      snapshot := some snapshot
      lastSequence := snapshot.snapshotSequence
      applied := world.applied + 1 })

end WorldModel

def Action.isGift : Action → Bool
  | .offer _ _ receive _ => receive.isZero
  | _ => false

def BazaarSession.CommandOutcome.codeName (outcome : BazaarSession.CommandOutcome) : String :=
  match outcome.result, outcome.error with
  | some result, _ => result.code.name
  | none, some error => error.code.name
  | none, none => "NO_ANSWER"

structure TradingStats where
  decisions : Nat := 0
  commandsSent : Nat := 0
  commandsOk : Nat := 0
  commandsRejected : Nat := 0
  accepts : Nat := 0
  offers : Nat := 0
  gifts : Nat := 0
  advertisements : Nat := 0
  withdrawals : Nat := 0
  rejectionsByCode : Dict String Nat := .empty
  finalSnapshot : Option Snapshot := none
  /-- Kept here so that reconnects do not log the same tick again. -/
  lastLoggedTick : Option Nat := none

namespace TradingStats

def recordRejection (stats : TradingStats) (code : String) : TradingStats :=
  { stats with rejectionsByCode :=
    stats.rejectionsByCode.set code ((stats.rejectionsByCode.get? code).getD 0 + 1) }

def countKind (stats : TradingStats) : Action → TradingStats
  | .accept _ => { stats with accepts := stats.accepts + 1 }
  | .offer .. => { stats with offers := stats.offers + 1 }
  | .advertise .. => { stats with advertisements := stats.advertisements + 1 }
  | .withdraw _ => { stats with withdrawals := stats.withdrawals + 1 }
  | .sync => stats

/-- The counters `_record` moves. -/
def record (stats : TradingStats) (action : Action)
    (outcome : BazaarSession.CommandOutcome) : TradingStats :=
  let stats := { stats with commandsSent := stats.commandsSent + 1 }.countKind action
  let stats := if action.isGift then { stats with gifts := stats.gifts + 1 } else stats
  if outcome.ok then { stats with commandsOk := stats.commandsOk + 1 }
  else { stats with commandsRejected := stats.commandsRejected + 1 }.recordRejection
    outcome.codeName

end TradingStats

/-- What the trading loop was made with and does not change. -/
structure LoopConfig where
  strategy : Strategy
  idPrefix : String
  maxDecisions : Option Nat
  sessionNumber : Nat

/-- What leaves `run` as an exception. -/
inductive LoopError
  | session (error : SessionError)
  | strategy (raised : Raised)
  | assertion (error : AssertionError)
  | execution (error : ExecutionError)

/-- The state that was awaited and the one that is decided on, which may be newer. -/
structure Sighting where
  awaited : Snapshot
  snapshot : Snapshot

/-- A command under way: its action, the record it goes by, and the actions after it. -/
structure Acting where
  sighting : Sighting
  decisionId : Option String
  action : Action
  record : EvidenceRecord
  rest : List Action

/-- Where the coroutine `run` stands: which call it awaits, or what it waits for else. -/
inductive LoopStage
  | created
  | opening (call : Nat)
  | readying (first : Snapshot) (call : Nat)
  | watching (sequence call : Nat)
  | deciding (sighting : Sighting) (budget : Nat)
  | acting (acting : Acting)
  | returned
  | raised (error : LoopError)

/-- The loop beside the executor and the session it owns. `runId` is the memory's. -/
structure TradingLoop where
  trading : Trading
  ids : Option RequestIdGenerator := none
  memory : PolicyMemory := .new
  runId : Option String := none
  world : WorldModel := {}
  stats : TradingStats := {}
  evidence : EvidenceLog := {}
  stage : LoopStage := .created

namespace TradingLoop

abbrev session (t : TradingLoop) : BazaarSession := t.trading.link.session

def withSession (t : TradingLoop) (session : BazaarSession) : TradingLoop :=
  { t with trading := { t.trading with link := { t.trading.link with session := session } } }

/-- The executor was given the counterparties of the memory, not a copy. -/
def shareModel (t : TradingLoop) : TradingLoop :=
  { t with memory := { t.memory with counterparties := t.trading.executor.counterparties } }

def learn (t : TradingLoop) (memory : PolicyMemory) : TradingLoop :=
  { t with
    memory := memory
    trading := { t.trading with executor :=
    { t.trading.executor with counterparties := memory.counterparties } } }

def countDecision (t : TradingLoop) : TradingLoop :=
  { t with stats := { t.stats with decisions := t.stats.decisions + 1 } }

/-- The generator is made with the first state, for the station it names. -/
def noteIds (c : LoopConfig) (t : TradingLoop) : TradingLoop :=
  match t.ids, t.session.latest with
  | none, some snapshot =>
    { t with ids := some (RequestIdGenerator.new snapshot.selfStationId c.idPrefix) }
  | _, _ => t

/-- What reply a loop's call gets at once, if any, and the session after it. -/
def answerAtOnce (r : List SessionOutput × BazaarSession) :
    Option BazaarSession.Answer × BazaarSession :=
  match r with
  | ([.reply _ (.ok answer)], s) => (some answer, s)
  | (_, s) => (none, s)

/-- `step` up to the decision: it is made from the newest state there is. -/
def observe (t : TradingLoop) (awaited : Snapshot) : TradingLoop :=
  let t := { t with
    world := (t.world.apply awaited).2
    stats := { t.stats with finalSnapshot := some awaited } }
  let snapshot := (t.session.latest.filter
    (fun latest => awaited.snapshotSequence < latest.snapshotSequence)).getD awaited
  let (budget, session) := t.session.remainingCommandBudget
  { t.withSession session with stage := .deciding ⟨awaited, snapshot⟩ (min 1 budget) }

/-- The head of the `while` loop, up to its `await`. -/
def watch (c : LoopConfig) (t : TradingLoop) (sequence : Nat) : TradingLoop :=
  if ∃ limit ∈ c.maxDecisions, limit ≤ t.stats.decisions then { t with stage := .returned }
  else
    let call := t.session.freshCall
    match answerAtOnce (t.session.waitForSnapshot call sequence) with
    | (some (.snapshot snapshot), session) => (t.withSession session).observe snapshot
    | (_, session) => { t.withSession session with stage := .watching sequence call }

/-- Between the readiness exchange and the `while` loop. -/
def synchronized (c : LoopConfig) (t : TradingLoop) (first : Snapshot) : TradingLoop :=
  if t.runId.isSome && t.runId ≠ some first.runId then
    { t with stage := .raised (.session
      (.sessionAborted "run changed on reconnect; restart with fresh policy memory" none)) }
  else { t with runId := some first.runId }.watch c first.snapshotSequence

def awaitReadiness (c : LoopConfig) (t : TradingLoop) (first : Snapshot) : TradingLoop :=
  let call := t.session.freshCall
  match answerAtOnce (t.session.waitForReadiness call) with
  | (some _, session) => (t.withSession session).synchronized c first
  | (none, session) => { t.withSession session with stage := .readying first call }

/-- `run` up to its first `await`. -/
def begin (c : LoopConfig) (t : TradingLoop) : TradingLoop :=
  let call := t.session.freshCall
  match answerAtOnce (t.session.waitForSnapshot call 1) with
  | (some (.snapshot snapshot), session) => (t.withSession session).awaitReadiness c snapshot
  | (_, session) => { t.withSession session with stage := .opening call }

/-- The rest of the loop body, and the head of the loop again. -/
def afterStep (c : LoopConfig) (t : TradingLoop) (sighting : Sighting) : TradingLoop :=
  if sighting.awaited.phase ∈ terminalPhases then { t with stage := .returned }
  else t.watch c (sighting.awaited.snapshotSequence + 1)

/-- Several states arrive in a tick: each tick is recorded once, and every decision that acts. -/
def skipsLog (t : TradingLoop) (snapshot : Snapshot) (decision : Decision) : Bool :=
  decision.actions.isEmpty && decide (t.stats.lastLoggedTick = some snapshot.tick)

/-- Ticks that passed with no decision at all. -/
def ticksSkipped (t : TradingLoop) (snapshot : Snapshot) : Option Nat :=
  match t.stats.lastLoggedTick with
  | some previous => if previous + 1 < snapshot.tick then
    some (snapshot.tick - previous - 1) else none
  | none => none

def waitReason (snapshot : Snapshot) (decision : Decision) (budget : Nat) : Option String :=
  if decision.actions.isEmpty && snapshot.phase = .running then
    some (if budget ≤ 0 then "no command slot is available this tick"
      else "nothing met the strategy's criteria to act")
  else none

def statesDuringDecision (t : TradingLoop) (snapshot : Snapshot) : Int :=
  match t.session.latest with
  | some newest => newest.snapshotSequence - snapshot.snapshotSequence
  | none => 0

/-- The id the commands of the decision carry, or none if it was not recorded. -/
def logDecision (c : LoopConfig) (t : TradingLoop) (snapshot : Snapshot) (decision : Decision)
    (budget : Nat) :
    Except Raised (Option String × TradingLoop) :=
  if t.skipsLog snapshot decision then .ok (none, t)
  else do
    let context : Context := {
      session := c.sessionNumber
      strategy := c.strategy.name
      commandBudget := budget
      statesDuringDecision := t.statesDuringDecision snapshot
      waitReason := waitReason snapshot decision budget
      ticksSkipped := t.ticksSkipped snapshot }
    let passes ← c.strategy.explainPasses snapshot decision
    let (decisionId, evidence) ← t.evidence.decision snapshot decision context passes
    return (some decisionId, { t with evidence := evidence, stats :=
      { t.stats with lastLoggedTick := some snapshot.tick } })

/-- `_record` -/
def record (t : TradingLoop) (action : Action)
    (outcome : BazaarSession.CommandOutcome) : TradingLoop :=
  let t := { t with stats := t.stats.record action outcome }
  match outcome.result with
  | some result => if !outcome.ok && result.code = .rateLimited then
      { t with memory := t.memory.blockUntil result.retryAfterTick } else t
  | none => t

abbrev Outs : Type := List Output × List SessionOutput

/-- How the record of a command that was not confirmed ends. -/
def unconfirmed : String := "no answer or confirmation: send failed or connection lost"

/-- The outcome the executor had taken down before it went on to wait for the confirmation. -/
def takenDown : Option Execution → Option BazaarSession.CommandOutcome
  | some x => match x.awaiting with
    | .answer => none
    | .confirmation outcome _ => some outcome
  | none => none

/-- The command's line in the log, written however the call ends. -/
def closeRecord (t : TradingLoop) (record : EvidenceRecord) (before : Option Execution)
    (conclusion : Conclusion) :
    TradingLoop :=
  { t with evidence := t.evidence.complete (match conclusion with
    | .ok outcome => record.recordOutcome outcome
    | .error _ => (((takenDown before).map record.recordOutcome).getD record).note unconfirmed) }

/-- The run id and the message come before the `try`: without them the record is never completed. -/
def closeRefused (t : TradingLoop) (record : EvidenceRecord)
    (error : ExecutionError) : TradingLoop :=
  match error with
  | .build _ => t
  | .session _ => if t.session.lifecycle.runId.isNone then t
    else t.closeRecord record none (.error error)

/-- `execute` raised: a blocked command ends the `for` loop, anything else the run. -/
def except (c : LoopConfig) (t : TradingLoop) (sighting : Sighting) : ExecutionError → TradingLoop
  | .session (.commandBlocked _) => t.afterStep c sighting
  | error => { t with stage := .raised (.execution error) }

/-- `execute` returned an outcome. -/
def concluded (t : TradingLoop) (action : Action)
    (outcome : BazaarSession.CommandOutcome) : TradingLoop :=
  let t := t.record action outcome
  { t with stats := { t.stats with finalSnapshot := t.session.latest } }

section Steps

variable (w : Wiring) (c : LoopConfig)

/-- One round of the `for` loop over the actions, up to its next `await`; `onward` is
the rest of the loop. -/
def perform (t : TradingLoop) (sighting : Sighting)
    (decisionId : Option String) (action : Action) (rest : List Action)
    (onward : TradingLoop → Option (Outs × TradingLoop)) : Option (Outs × TradingLoop) :=
  match t.ids with
  | none => some (([], []), { t with stage := .raised (.session
    (.sessionClosed "request ids need the station id from the first state")) })
  | some generator =>
    match generator.next action.kind with
    | (.error error, generator) =>
      some (([], []), { t with ids := some generator, stage := .raised (.assertion error) })
    | (.ok requestId, generator) =>
      let t := { t with ids := some generator }
      let record := EvidenceRecord.start s!"tick-{sighting.snapshot.tick}" action t.session.latest
        decisionId requestId
      match t.trading.execute w action requestId with
      | none => none
      | some ((outs, conclusion), trading) =>
        let t := { t with trading := trading }
        match conclusion with
        | none =>
          some (outs, { t with stage := .acting ⟨sighting, decisionId, action, record, rest⟩ })
        | some (.error error) => some (outs, (t.closeRefused record error).except c sighting error)
        | some (.ok outcome) =>
          (onward ((t.closeRecord record none (.ok outcome)).concluded action outcome)).map
            (fun r => ((outs.1 ++ r.1.1, outs.2 ++ r.1.2), r.2))

/-- The `for` loop over the actions of a decision. -/
def act (t : TradingLoop) (sighting : Sighting) (decisionId : Option String) : List Action →
    Option (Outs × TradingLoop)
  | [] => some (([], []), t.afterStep c sighting)
  | action :: rest => t.perform w c sighting decisionId action
    rest (fun t => act t sighting decisionId rest)

/-- An `execute` call that was awaited has ended. -/
def settle (t : TradingLoop) (a : Acting) (before : Option Execution) (conclusion : Conclusion) :
    Option (Outs × TradingLoop) :=
  let t := t.closeRecord a.record before conclusion
  match conclusion with
  | .error error => some (([], []), t.except c a.sighting error)
  | .ok outcome => act w c (t.concluded a.action outcome) a.sighting a.decisionId a.rest

/-- The strategy's thread is done: the decision is counted, logged and carried out. -/
def decided (t : TradingLoop) (sighting : Sighting) (budget : Nat) :
    Option ((Outs × Option (Snapshot × Decision)) × TradingLoop) :=
  match c.strategy.decide sighting.snapshot
      t.memory t.trading.executor.commitments (some budget) with
  | .error raised => some ((([], []), none), { t with stage := .raised (.strategy raised) })
  | .ok (decision, memory) =>
    let t := (t.learn memory).countDecision
    match t.logDecision c sighting.snapshot decision budget with
    | .error raised => some ((([], []), none), { t with stage := .raised (.strategy raised) })
    | .ok (decisionId, t) =>
      (t.act w c sighting decisionId decision.actions).map
        (fun r => ((r.1, some (sighting.snapshot, decision)), r.2.shareModel))

/-- `run` goes on with what the call it awaits came back with. -/
def resume (t : TradingLoop) (reply : Except SessionError BazaarSession.Answer) : TradingLoop :=
  match t.stage, reply with
  | .opening _, .ok (.snapshot snapshot) => t.awaitReadiness c snapshot
  | .readying first _, .ok (.readiness _) => t.synchronized c first
  | .watching _ _, .ok (.snapshot snapshot) => t.observe snapshot
  | .watching sequence _, .error .timeout => t.watch c sequence
  | .watching _ _, .error (.sessionClosed _) => { t with stage := .returned }
  | _, .error error => { t with stage := .raised (.session error) }
  | _, _ => t

def awaitedCall : LoopStage → Option Nat
  | .opening call | .readying _ call | .watching _ call => some call
  | _ => none

/-- What the turn of the link means for the loop: its own call came back, or its executor's did. -/
def noticed (before : Option Execution) (t : TradingLoop) (outs : Outs)
    (conclusion : Option Conclusion) :
    Option (Outs × TradingLoop) :=
  match t.stage, conclusion with
  | .acting a, some conclusion => (t.settle w c a before conclusion).map (fun r =>
    ((outs.1 ++ r.1.1, outs.2 ++ r.1.2), r.2))
  | _, _ =>
    match (awaitedCall t.stage).bind (fun call => outs.2.findSome? (Trading.replyTo call)) with
    | some reply => some (outs, t.resume c reply)
    | none => some (outs, t)

/-- The loop starts, its strategy's thread is done, or anything else has a turn. -/
inductive Event
  | run
  | decided
  | link (event : Link.Event)
  deriving DecidableEq

/-- The session is used by the loop and its executor alone. -/
def callsSession : Link.Event → Bool
  | .session (.sendCommand ..) | .session (.waitForSnapshot ..) | .session (.waitForReadiness _)
  | .session .remainingCommandBudget => true
  | _ => false

/-- What a step puts out: the link's outputs, and the decision it carries out. -/
abbrev Outputs : Type := Outs × Option (Snapshot × Decision)

def step? (t : TradingLoop) : Event → Option (Outputs × TradingLoop)
  | .run =>
    match t.stage with
    | .created => some ((([], []), none), t.begin c)
    | _ => none
  | .decided =>
    match t.stage with
    | .deciding sighting budget => t.decided w c sighting budget
    | _ => none
  | .link event =>
    if callsSession event then none
    else (Trading.step? w t.trading (.link event)).bind (fun r =>
      let before := t.trading.executor.current
      let t := { t with trading := r.2 }.noteIds c
      (t.noticed w c before r.1.1 r.1.2).map (fun r => ((r.1, none), r.2.shareModel)))

abbrev Label : Type := Event × Outputs

def Step : TradingLoop → Label → TradingLoop → Prop := Machine.ofFunction (step? w c)

end Steps

/-- A loop on a new connection, with the memory, the statistics and the log of its process. -/
def init (config : Config) (throttle : CommandThrottle) (memory : PolicyMemory)
    (runId : Option String) (stats : TradingStats) (evidence : EvidenceLog) : TradingLoop where
  trading := { Trading.init config throttle with executor :=
    { Executor.new with counterparties := memory.counterparties } }
  memory := memory
  runId := runId
  stats := stats
  evidence := evidence

end TradingLoop

end SpaceportBazaar
