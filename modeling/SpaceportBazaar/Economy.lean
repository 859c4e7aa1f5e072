import SpaceportBazaar.Dict
import SpaceportBazaar.Domain

namespace SpaceportBazaar

def defaultRules : Rules where
  rulesVersion := "bazaar-sim-1"
  durationTicks := 120
  tickDurationMs := 5000
  resourceOrder := [.water, .food, .components]
  maxHealth := 100
  shortageDamagePerUnit := 5
  recoveryPerFullySuppliedTick := 5
  maxPublicationTtlTicks := 10
  maxOfferTtlTicks := 10
  newCommandsPerStationPerTick := 4
  maxRequestRecordsPerStation := 1000
  maxOpenOutgoingOffers := 6
  maxCommandBytes := 16384

def defaultUpkeep : Bundle := ⟨1, 1, 1⟩

structure CommandOutcome where
  code : ResultCode
  objectId : Option String := none
  transactionId : Option String := none
  deriving DecidableEq, Repr

def CommandOutcome.ok (out : CommandOutcome) : Bool := out.code = .ok

structure SimStation where
  stationId : String
  specialty : Resource
  inventory : Bundle
  production : Int := 3
  upkeep : Bundle := defaultUpkeep
  displayName : String := ""
  health : Nat := 100
  failedOnce : Bool := false
  firstFailureTick : Option Nat := none
  shortageTicks : Nat := 0
  fullySuppliedTicks : Nat := 0
  currentShortageStreak : Nat := 0
  longestShortageStreak : Nat := 0
  lastProduction : Bundle := .zero
  lastUnmet : Bundle := .zero
  producedTotal : Bundle := .zero
  consumedTotal : Bundle := .zero
  unmetTotal : Bundle := .zero
  imported : Bundle := .zero
  exported : Bundle := .zero
  deriving DecidableEq, Repr

namespace SimStation

def supplied (rules : Rules) (s : SimStation) : SimStation :=
  { s with
    health := min rules.maxHealth (s.health + rules.recoveryPerFullySuppliedTick)
    fullySuppliedTicks := s.fullySuppliedTicks + 1
    currentShortageStreak := 0 }

def short (rules : Rules) (tick : Nat) (unmet : Bundle) (s : SimStation) : SimStation :=
  let health := s.health - unmet.total * rules.shortageDamagePerUnit
  let fails := health = 0 && !s.failedOnce
  { s with
    health := health
    shortageTicks := s.shortageTicks + 1
    currentShortageStreak := s.currentShortageStreak + 1
    longestShortageStreak := max s.longestShortageStreak (s.currentShortageStreak + 1)
    failedOnce := if fails then true else s.failedOnce
    firstFailureTick := if fails then some tick else s.firstFailureTick }

/-- Produce, then pay upkeep; unmet upkeep costs health, a full tick restores it. -/
def settleTick (rules : Rules) (tick : Nat) (s : SimStation) : Except Raised SimStation := do
  let produced ← Bundle.single s.specialty s.production
  let inventory := s.inventory + produced
  let unmet := s.upkeep.saturatingSub inventory
  let consumed ← s.upkeep.sub unmet
  let s := { s with
    inventory := inventory.saturatingSub s.upkeep
    lastProduction := produced
    producedTotal := s.producedTotal + produced
    lastUnmet := unmet
    consumedTotal := s.consumedTotal + consumed
    unmetTotal := s.unmetTotal + unmet }
  return if unmet.isZero then s.supplied rules else s.short rules tick unmet

def observation (s : SimStation) : StationObservation where
  stationId := s.stationId
  inventory := s.inventory
  health := s.health
  failedOnce := s.failedOnce
  firstFailureTick := s.firstFailureTick
  lastProduction := s.lastProduction
  lastUnmetUpkeep := s.lastUnmet
  fullySuppliedTicks := s.fullySuppliedTicks
  shortageTicks := s.shortageTicks
  currentShortageStreak := s.currentShortageStreak
  longestShortageStreak := s.longestShortageStreak
  producedTotal := s.producedTotal
  consumedTotal := s.consumedTotal
  unmetTotal := s.unmetTotal
  importedTotal := s.imported
  exportedTotal := s.exported
  upkeepPerTick := s.upkeep
  specialty := s.specialty

end SimStation

/-- `replace(o, status=…, closed_tick=…, transaction_id=…)` -/
def Offer.closed (o : Offer) (status : OfferStatus) (tick : Nat)
    (transactionId : Option String) : Offer :=
  { o with status := status, closedTick := some tick, transactionId := transactionId }

structure SimulatedEconomy where
  stations : Dict String SimStation
  rules : Rules
  runId : String
  tick : Nat
  worldVersion : Nat
  sequence : Nat
  offers : List Offer
  transactions : List Transaction
  advertisements : List Advertisement
  ids : Nat
  commandCounts : Dict String Nat
  rejections : List (String × ResultCode)

namespace SimulatedEconomy

def create (stations : List SimStation) (rules : Rules) (runId : String) : SimulatedEconomy where
  stations := Dict.ofList (stations.map (fun s => (s.stationId, s)))
  rules := rules
  runId := runId
  tick := 0
  worldVersion := 1
  sequence := 0
  offers := []
  transactions := []
  advertisements := []
  ids := 1
  commandCounts := Dict.empty
  rejections := []

/-- `self.stations[station_id]`. -/
def station (e : SimulatedEconomy) (stationId : String) : Except Raised SimStation :=
  match e.stations.get? stationId with
  | some s => .ok s
  | none => .error (.keyError stationId)

def putStation (e : SimulatedEconomy) (stationId : String) (s : SimStation) : SimulatedEconomy :=
  { e with stations := e.stations.set stationId s }

/-- The next snapshot number, which is used up only when the caller brings none. -/
def nextSequence (e : SimulatedEconomy) : Option Nat → Nat × SimulatedEconomy
  | some sequence => (sequence, e)
  | none => (e.sequence + 1, { e with sequence := e.sequence + 1 })

/-- What `stationId` may see: its own station, its offers and trades, public ads. -/
def observationFor (e : SimulatedEconomy) (stationId : String) (sequence : Option Nat := none)
    (phase : Phase := .running) (requestResults : List CommandResult := [])
    (outcome : Option PlayerOutcome := none) : Except Raised (Snapshot × SimulatedEconomy) := do
  let (sequence, e) := e.nextSequence sequence
  let s ← e.station stationId
  return ({
    runId := e.runId
    snapshotSequence := sequence
    worldVersion := e.worldVersion
    tick := e.tick
    phase := phase
    selfStationId := stationId
    rules := e.rules
    directory := e.stations.values.map (fun s =>
      ⟨s.stationId, if s.displayName = "" then s.stationId else s.displayName⟩)
    me := s.observation
    offers := e.offers.filter (fun o => stationId = o.proposerId || stationId = o.recipientId)
    advertisements := e.advertisements
    transactions := e.transactions.filter (fun t =>
      stationId = t.proposerId || stationId = t.recipientId)
    requestResults := requestResults
    outcome := outcome }, e)

def outcomeFor (e : SimulatedEconomy) (stationId : String) (aborted : Bool := false) :
    Except Raised PlayerOutcome := do
  let s ← e.station stationId
  return {
    collectiveSuccess := some (!e.stations.values.any SimStation.failedOnce)
    selfFailed := s.failedOnce
    aborted := aborted }

def countOf (e : SimulatedEconomy) (stationId : String) : Nat :=
  (e.commandCounts.get? stationId).getD 0

/-- `tick < expires_tick <= min(tick + ttl, duration_ticks)` -/
def deadlineAllowed (e : SimulatedEconomy) (ttl expiresTick : Nat) : Bool :=
  e.tick < expiresTick && expiresTick ≤ min (e.tick + ttl) e.rules.durationTicks

def openCount (e : SimulatedEconomy) (stationId : String) : Nat :=
  e.offers.countP (fun o => o.proposerId = stationId && o.status = .opened)

def precheckOffer (e : SimulatedEconomy) (stationId : String) (s : SimStation)
    (recipientId : String) (give : Bundle) : Option ResultCode :=
  match e.stations.get? recipientId with
  | none => some .invalidArgument
  | some recipient =>
    if recipientId = stationId || give.isZero then some .invalidArgument
    else if recipient.failedOnce then some .stationFailed
    else if !s.inventory.dominates give then some .insufficientResources
    else if e.rules.maxOpenOutgoingOffers ≤ e.openCount stationId then some .limitReached
    else none

def precheckAction (e : SimulatedEconomy) (stationId : String) (s : SimStation) :
    Action → Option ResultCode
  | .offer recipientId give _ expiresTick =>
    if !e.deadlineAllowed e.rules.maxOfferTtlTicks expiresTick then some .invalidArgument
    else e.precheckOffer stationId s recipientId give
  | .advertise _ _ expiresTick =>
    if !e.deadlineAllowed e.rules.maxPublicationTtlTicks expiresTick then some .invalidArgument
    else none
  | _ => none

def precheck (e : SimulatedEconomy) (stationId : String) (action : Action) :
    Except Raised (Option ResultCode) := do
  let s ← e.station stationId
  return (
    if s.failedOnce then some .stationFailed
    else if e.rules.durationTicks ≤ e.tick then some .runNotRunning
    else if e.rules.newCommandsPerStationPerTick ≤ e.countOf stationId then some .rateLimited
    else e.precheckAction stationId s action)

def issuedId (kind : String) (n : Nat) : String := kind ++ "-" ++ toString n

def nextId (e : SimulatedEconomy) (kind : String) : String × SimulatedEconomy :=
  (issuedId kind e.ids, { e with ids := e.ids + 1 })

def newAdvertisement (e : SimulatedEconomy) (advertisementId stationId : String)
    (selling seeking : Finset Resource) (expiresTick : Nat) : Advertisement where
  advertisementId := advertisementId
  stationId := stationId
  selling := selling
  seeking := seeking
  createdTick := e.tick
  expiresTick := expiresTick
  createdVersion := e.worldVersion
  status := .active

/-- Each planet has at most one active advertisement; a new one replaces it. -/
def advertise (e : SimulatedEconomy) (stationId : String) (selling seeking : Finset Resource)
    (expiresTick : Nat) : CommandOutcome × SimulatedEconomy :=
  let e := { e with advertisements := e.advertisements.filter (fun a => a.stationId ≠ stationId) }
  let (advertisementId, e) := e.nextId "ad"
  let ad := e.newAdvertisement advertisementId stationId selling seeking expiresTick
  (⟨.ok, some advertisementId, none⟩, { e with advertisements := e.advertisements ++ [ad] })

def newOffer (e : SimulatedEconomy) (offerId stationId recipientId : String) (give receive : Bundle)
    (expiresTick : Nat) : Offer where
  offerId := offerId
  proposerId := stationId
  recipientId := recipientId
  give := give
  receive := receive
  createdTick := e.tick
  createdVersion := e.worldVersion
  expiresTick := expiresTick
  status := .opened
  closedTick := none
  transactionId := none

def postOffer (e : SimulatedEconomy) (stationId recipientId : String) (give receive : Bundle)
    (expiresTick : Nat) : CommandOutcome × SimulatedEconomy :=
  let (offerId, e) := e.nextId "offer"
  let offer := e.newOffer offerId stationId recipientId give receive expiresTick
  (⟨.ok, some offerId, none⟩, { e with offers := e.offers ++ [offer] })

def findOffer (e : SimulatedEconomy) (offerId : String) : Option Offer :=
  e.offers.find? (fun o => o.offerId = offerId)

def close (e : SimulatedEconomy) (offerId : String) (status : OfferStatus)
    (transactionId : Option String) : SimulatedEconomy :=
  { e with
    offers := e.offers.map (fun o =>
      if o.offerId ≠ offerId then o else o.closed status e.tick transactionId) }

def withdraw (e : SimulatedEconomy) (stationId objectId : String) :
    CommandOutcome × SimulatedEconomy :=
  match e.advertisements.find? (fun a => a.advertisementId = objectId) with
  | some ad =>
    if ad.stationId ≠ stationId then (⟨.invalidArgument, none, none⟩, e)
    else
      (⟨.ok, some objectId, none⟩, { e with advertisements := e.advertisements.erase ad })
  | none =>
    match e.findOffer objectId with
    | none => (⟨.notFound, none, none⟩, e)
    | some offer =>
      if offer.proposerId ≠ stationId then (⟨.invalidArgument, none, none⟩, e)
      else if offer.status ≠ .opened then (⟨.notOpen, none, none⟩, e)
      else (⟨.ok, some objectId, none⟩, e.close objectId .withdrawn none)

/-- The two inventories move one after the other, the recipient's record being
read again once the proposer's is written. -/
def moveGoods (e : SimulatedEconomy) (offer : Offer) : Except Raised SimulatedEconomy := do
  let proposer ← e.station offer.proposerId
  let paid ← proposer.inventory.sub offer.give
  let e := e.putStation offer.proposerId { proposer with
    inventory := paid + offer.receive }
  let recipient ← e.station offer.recipientId
  let paid ← recipient.inventory.sub offer.receive
  let e := e.putStation offer.recipientId { recipient with
    inventory := paid + offer.give }
  let proposer ← e.station offer.proposerId
  let e := e.putStation offer.proposerId { proposer with
    exported := proposer.exported + offer.give
    imported := proposer.imported + offer.receive }
  let recipient ← e.station offer.recipientId
  return e.putStation offer.recipientId { recipient with
    exported := recipient.exported + offer.receive
    imported := recipient.imported + offer.give }

def newTransaction (e : SimulatedEconomy) (transactionId : String)
    (offer : Offer) : Transaction where
  transactionId := transactionId
  offerId := offer.offerId
  proposerId := offer.proposerId
  recipientId := offer.recipientId
  give := offer.give
  receive := offer.receive
  settledTick := e.tick
  settledVersion := e.worldVersion

def settle (e : SimulatedEconomy) (offer : Offer) :
    Except Raised (CommandOutcome × SimulatedEconomy) := do
  let e ← e.moveGoods offer
  let (transactionId, e) := e.nextId "txn"
  let e := e.close offer.offerId .accepted (some transactionId)
  let transaction := e.newTransaction transactionId offer
  return (⟨.ok, some offer.offerId, some transactionId⟩,
    { e with transactions := e.transactions ++ [transaction] })

/-- Atomic settlement: both bundles move together, or nothing moves. -/
def accept (e : SimulatedEconomy) (acceptingId offerId : String) :
    Except Raised (CommandOutcome × SimulatedEconomy) :=
  match e.findOffer offerId with
  | none => .ok (⟨.notFound, none, none⟩, e)
  | some offer =>
    if offer.recipientId ≠ acceptingId then .ok (⟨.invalidArgument, none, none⟩, e)
    else if offer.status ≠ .opened then .ok (⟨.notOpen, none, none⟩, e)
    else if offer.isExpiredAt e.tick then .ok (⟨.expired, none, none⟩, e)
    else do
      let proposer ← e.station offer.proposerId
      let recipient ← e.station offer.recipientId
      if proposer.failedOnce || recipient.failedOnce then
        return (⟨.stationFailed, none, none⟩, e)
      else if !proposer.inventory.dominates offer.give ||
        !recipient.inventory.dominates offer.receive then
        return (⟨.insufficientResources, none, none⟩, e)
      else e.settle offer

def countCommand (e : SimulatedEconomy) (stationId : String) : SimulatedEconomy :=
  { e with commandCounts := e.commandCounts.set stationId (e.countOf stationId + 1) }

def process (e : SimulatedEconomy) (stationId : String) :
    Action → Except Raised (CommandOutcome × SimulatedEconomy)
  | .advertise selling seeking expiresTick =>
    .ok (e.advertise stationId selling seeking expiresTick)
  | .offer recipientId give receive expiresTick =>
    .ok (e.postOffer stationId recipientId give receive expiresTick)
  | .accept offerId => e.accept stationId offerId
  | .withdraw objectId => .ok (e.withdraw stationId objectId)
  | .sync => .ok (⟨.invalidArgument, none, none⟩, e)

/-- One command. A command refused before it is processed does not use quota. -/
def execute (e : SimulatedEconomy) (stationId : String) (action : Action) :
    Except Raised (CommandOutcome × SimulatedEconomy) := do
  match ← e.precheck stationId action with
  | some refused => return (⟨refused, none, none⟩, e)
  | none => (e.countCommand stationId).process stationId action

def applyActions (e : SimulatedEconomy) (stationId : String) :
    List Action → Except Raised (List (Action × CommandOutcome) × SimulatedEconomy)
  | [] => .ok ([], e)
  | action :: actions => do
    let (out, e) ← e.execute stationId action
    let e := if out.ok then e else { e with rejections := e.rejections ++ [(stationId, out.code)] }
    let (outs, e) ← e.applyActions stationId actions
    return ((action, out) :: outs, e)

/-- Run a batch of actions in order, keeping the rejections for inspection. -/
def apply (e : SimulatedEconomy) (stationId : String) (actions : List Action) :
    Except Raised (List (Action × CommandOutcome) × SimulatedEconomy) := do
  let (outs, e) ← e.applyActions stationId actions
  return (outs, { e with worldVersion := e.worldVersion + 1 })

/-- Closes every OPEN offer that `p` picks out, in book order. -/
def closeWhere (e : SimulatedEconomy) (p : Offer → Bool)
    (status : OfferStatus) : SimulatedEconomy :=
  e.offers.foldl (fun e o => if o.status = .opened && p o then e.close o.offerId status none else e)
    e

def failedIds (e : SimulatedEconomy) : List String :=
  (e.stations.values.filter SimStation.failedOnce).map SimStation.stationId

def dropFailed (e : SimulatedEconomy) : SimulatedEconomy :=
  let failed := e.failedIds
  { e with advertisements := e.advertisements.filter (fun a => a.stationId ∉ failed) }.closeWhere
    (fun o => o.proposerId ∈ failed || o.recipientId ∈ failed) .withdrawn

def expire (e : SimulatedEconomy) : SimulatedEconomy :=
  let e := e.closeWhere (fun o => o.expiresTick ≤ e.tick) .expired
  { e with advertisements := e.advertisements.filter (fun a => e.tick < a.expiresTick) }

def beginTick (e : SimulatedEconomy) : SimulatedEconomy :=
  { e with
    tick := e.tick + 1
    commandCounts := Dict.empty
    worldVersion := e.worldVersion + 1 }

def advanceTick (e : SimulatedEconomy) : Except Raised SimulatedEconomy := do
  let e := e.beginTick.expire
  let stations ← e.stations.traverse (SimStation.settleTick e.rules e.tick)
  return { e with stations := stations }.dropFailed

def finished (e : SimulatedEconomy) : Bool := e.rules.durationTicks ≤ e.tick

/-- Close what is still open once the run's duration is reached. -/
def endRun (e : SimulatedEconomy) : SimulatedEconomy :=
  let e := e.closeWhere (fun _ => true) .runEnded
  { e with advertisements := [], worldVersion := e.worldVersion + 1 }

end SimulatedEconomy

inductive Operation
  | execute (stationId : String) (action : Action)
  | apply (stationId : String) (actions : List Action)
  | advanceTick
  | endRun
  deriving DecidableEq

/-- One command as the engine answered it. -/
structure Processed where
  stationId : String
  action : Action
  outcome : CommandOutcome
  deriving DecidableEq

def SimulatedEconomy.perform (e : SimulatedEconomy) : Operation →
    Except Raised (List Processed × SimulatedEconomy)
  | .execute stationId action => do
    let (out, e) ← e.execute stationId action
    return ([⟨stationId, action, out⟩], e)
  | .apply stationId actions => do
    let (outs, e) ← e.apply stationId actions
    return (outs.map (fun p => ⟨stationId, p.1, p.2⟩), e)
  | .advanceTick => do
    let e ← e.advanceTick
    return ([], e)
  | .endRun => .ok ([], e.endRun)

end SpaceportBazaar
