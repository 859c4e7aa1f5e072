import SpaceportBazaar.Session
import SpaceportBazaar.Strategy

namespace SpaceportBazaar

def ResultCode.name : ResultCode → String
  | .ok => "OK"
  | .requestIdConflict => "REQUEST_ID_CONFLICT"
  | .runNotRunning => "RUN_NOT_RUNNING"
  | .rateLimited => "RATE_LIMITED"
  | .invalidArgument => "INVALID_ARGUMENT"
  | .notFound => "NOT_FOUND"
  | .expired => "EXPIRED"
  | .notOpen => "NOT_OPEN"
  | .limitReached => "LIMIT_REACHED"
  | .insufficientResources => "INSUFFICIENT_RESOURCES"
  | .stationFailed => "STATION_FAILED"

/-- An open offer from our side of the table: who with, what we pay and get. -/
structure OfferView where
  offerId : String
  outgoing : Bool
  counterparty : String
  wePay : Bundle
  weGet : Bundle
  expiresTick : Nat
  deriving DecidableEq

def offerView (offer : Offer) (me : String) : Except Raised OfferView := do
  let outgoing := decide (offer.proposerId = me)
  let wePay ← offer.whatStationPays me
  let weGet ← offer.whatStationReceives me
  return {
    offerId := offer.offerId
    outgoing := outgoing
    counterparty := if outgoing then offer.recipientId else offer.proposerId
    wePay := wePay
    weGet := weGet
    expiresTick := offer.expiresTick }

structure TradeView where
  transactionId : String
  offerId : String
  counterparty : String
  wePaid : Bundle
  weGot : Bundle
  settledTick : Nat
  deriving DecidableEq

def tradeView (txn : Transaction) (me : String) : TradeView :=
  let outgoing := decide (txn.proposerId = me)
  { transactionId := txn.transactionId
    offerId := txn.offerId
    counterparty := if outgoing then txn.recipientId else txn.proposerId
    wePaid := if outgoing then txn.give else txn.receive
    weGot := if outgoing then txn.receive else txn.give
    settledTick := txn.settledTick }

/-- What the loop adds to a decision it logs. -/
structure Context where
  session : Nat
  strategy : String
  commandBudget : Nat
  statesDuringDecision : Int
  waitReason : Option String := none
  ticksSkipped : Option Nat := none
  deriving DecidableEq

/-- What the strategy saw and chose. -/
structure DecisionRecord where
  decisionId : String
  runId : String
  tick : Nat
  snapshotSequence : Nat
  phase : Phase
  health : Nat
  inventory : Bundle
  available : Bundle
  reserve : Bundle
  surplus : Bundle
  openOutgoingOffers : Nat
  openOffers : List OfferView
  newTransactions : List TradeView
  actions : List Action
  reasons : List String
  passedOffers : Dict String String
  context : Context

def DecisionRecord.verdict (record : DecisionRecord) : String :=
  if record.actions.isEmpty then "wait" else "act"

/-- One command: the state it came from and what came back. -/
structure EvidenceRecord where
  step : String
  action : Action
  decisionId : Option String
  requestId : String
  observedTick : Option Nat
  observedWorldVersion : Option Nat
  observedSnapshotSequence : Option Nat
  resultOk : Option Bool := none
  resultCode : Option String := none
  objectId : Option String := none
  transactionId : Option String := none
  processedTick : Option Nat := none
  deadlineMissed : Option Bool := none
  notes : List String := []
  deriving DecidableEq

namespace EvidenceRecord

def start (step : String) (action : Action) (observed : Option Snapshot)
    (decisionId : Option String) (requestId : String) :
    EvidenceRecord where
  step := step
  action := action
  decisionId := decisionId
  requestId := requestId
  observedTick := observed.map Snapshot.tick
  observedWorldVersion := observed.map Snapshot.worldVersion
  observedSnapshotSequence := observed.map Snapshot.snapshotSequence

def note (record : EvidenceRecord) (message : String) : EvidenceRecord :=
  { record with notes := record.notes ++ [message] }

/-- Processed in a later tick than observed, a command acted on an old world. -/
def recordOutcome (record : EvidenceRecord)
    (outcome : BazaarSession.CommandOutcome) : EvidenceRecord :=
  match outcome.result, outcome.error with
  | some result, _ => { record with
      resultOk := some result.ok
      resultCode := some result.code.name
      objectId := result.objectId
      transactionId := result.transactionId
      processedTick := some result.processedTick
      deadlineMissed := record.observedTick.map (fun tick => decide (tick < result.processedTick)) }
  | none, some error => { record with
      resultOk := some false
      resultCode := some error.code.name }.note "answered by protocol_error, not a result"
  | none, none => record

end EvidenceRecord

inductive LogEntry
  | decision (record : DecisionRecord)
  | command (record : EvidenceRecord)

def LogEntry.decision? : LogEntry → Option DecisionRecord
  | .decision record => some record
  | .command _ => none

def LogEntry.command? : LogEntry → Option EvidenceRecord
  | .decision _ => none
  | .command record => some record

/-- The lines of the file in order, and what the log remembers between them. -/
structure EvidenceLog where
  entries : List LogEntry := []
  decisionCount : Nat := 0
  seenTransactions : Finset String := ∅

namespace EvidenceLog

def decisions (log : EvidenceLog) : List DecisionRecord := log.entries.filterMap LogEntry.decision?

def commands (log : EvidenceLog) : List EvidenceRecord := log.entries.filterMap LogEntry.command?

def newTrades (log : EvidenceLog) (snapshot : Snapshot) : List TradeView :=
  (snapshot.transactions.filter (fun t => t.transactionId ∉ log.seenTransactions)).map
    (fun t => tradeView t snapshot.selfStationId)

/-- The id returned is the one the commands of the decision carry. -/
def decision (log : EvidenceLog) (snapshot : Snapshot) (decision : Decision) (context : Context)
    (passes : Dict String String) : Except Raised (String × EvidenceLog) := do
  let count := log.decisionCount + 1
  let decisionId := s!"d{count}"
  let openOffers ← (snapshot.outgoingOpenOffers ++ snapshot.incomingOpenOffers).mapM
    (fun o => offerView o snapshot.selfStationId)
  let newTrades := log.newTrades snapshot
  let record : DecisionRecord := {
    decisionId := decisionId
    runId := snapshot.runId
    tick := snapshot.tick
    snapshotSequence := snapshot.snapshotSequence
    phase := snapshot.phase
    health := snapshot.me.health
    inventory := snapshot.me.inventory
    available := decision.available
    reserve := decision.reserve
    surplus := decision.surplus
    openOutgoingOffers := snapshot.outgoingOpenOffers.length
    openOffers := openOffers
    newTransactions := newTrades
    actions := decision.actions
    reasons := decision.reasons
    passedOffers := passes
    context := context }
  return (decisionId,
    { entries := log.entries ++ [.decision record]
      decisionCount := count
      seenTransactions := log.seenTransactions ∪ (newTrades.map TradeView.transactionId).toFinset })

def complete (log : EvidenceLog) (record : EvidenceRecord) : EvidenceLog :=
  { log with entries := log.entries ++ [.command record] }

/-- What a logged decision adds to the log. -/
structure Adds (log : EvidenceLog) (snapshot : Snapshot) (decision : Decision)
    (record : DecisionRecord) (log' : EvidenceLog) : Prop where
  entries : log'.entries = log.entries ++ [.decision record]
  decisionCount : log'.decisionCount = log.decisionCount + 1
  seenTransactions : log'.seenTransactions =
    log.seenTransactions ∪ (record.newTransactions.map TradeView.transactionId).toFinset
  decisionId : record.decisionId = s!"d{log.decisionCount + 1}"
  tick : record.tick = snapshot.tick
  actions : record.actions = decision.actions
  newTransactions : record.newTransactions = log.newTrades snapshot

theorem decision_adds {log log' : EvidenceLog} {snapshot : Snapshot}
    {decision : Decision} {context : Context} {passes : Dict String String} {decisionId : String}
    (h : log.decision snapshot decision context passes = .ok (decisionId, log')) :
    ∃ record, log.Adds snapshot decision record log' ∧ decisionId = record.decisionId := by
  obtain ⟨openOffers, _, h⟩ := bind_eq_ok_iff.mp h
  cases h
  exact ⟨_, ⟨rfl, rfl, rfl, rfl, rfl, rfl, rfl⟩, rfl⟩

end EvidenceLog

end SpaceportBazaar
