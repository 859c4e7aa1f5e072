import SpaceportBazaar.Domain
import Mathlib.Data.List.Sort

namespace SpaceportBazaar

namespace Pb

structure Bundle where
  water : UInt64
  food : UInt64
  components : UInt64
  deriving DecidableEq

structure ListResource where
  items : List Nat
  deriving DecidableEq

/-- A wrapper with two arms, `null` and `value`, of which one must be selected. -/
inductive Nullable (α : Type)
  | unset
  | null (flag : Bool)
  | value (value : α)
  deriving DecidableEq

structure PublicRules where
  rulesVersion : String
  durationTicks : UInt64
  tickDurationMs : UInt64
  resourceOrder : ListResource
  maxHealth : UInt64
  shortageDamagePerUnit : UInt64
  recoveryPerFullySuppliedTick : UInt64
  maxPublicationTtlTicks : UInt64
  maxOfferTtlTicks : UInt64
  newCommandsPerStationPerTick : UInt64
  maxRequestRecordsPerStation : UInt64
  maxOpenOutgoingOffers : UInt64
  maxCommandBytes : UInt64
  deriving DecidableEq

structure StationObservation where
  stationId : String
  inventory : Bundle
  health : UInt64
  failedOnce : Bool
  firstFailureTick : Nullable UInt64
  lastProduction : Bundle
  lastUnmetUpkeep : Bundle
  fullySuppliedTicks : UInt64
  shortageTicks : UInt64
  currentShortageStreak : UInt64
  longestShortageStreak : UInt64
  producedTotal : Bundle
  consumedTotal : Bundle
  unmetTotal : Bundle
  importedTotal : Bundle
  exportedTotal : Bundle
  upkeepPerTick : Bundle
  specialty : Nat
  deriving DecidableEq

structure DirectoryEntry where
  stationId : String
  displayName : String
  deriving DecidableEq

structure Offer where
  offerId : String
  proposerId : String
  recipientId : String
  give : Bundle
  receive : Bundle
  createdTick : UInt64
  createdVersion : UInt64
  expiresTick : UInt64
  status : Nat
  closedTick : Nullable UInt64
  transactionId : Nullable String
  deriving DecidableEq

structure Transaction where
  transactionId : String
  offerId : String
  proposerId : String
  recipientId : String
  give : Bundle
  receive : Bundle
  settledTick : UInt64
  settledVersion : UInt64
  deriving DecidableEq

structure Advertisement where
  advertisementId : String
  stationId : String
  selling : ListResource
  seeking : ListResource
  createdTick : UInt64
  expiresTick : UInt64
  createdVersion : UInt64
  status : Nat
  deriving DecidableEq

structure Result where
  type : Nat
  protocolVersion : String
  runId : String
  requestId : String
  ok : Bool
  code : Nat
  processedTick : UInt64
  processedVersion : UInt64
  objectId : Nullable String
  transactionId : Nullable String
  retryAfterTick : Nullable UInt64
  deriving DecidableEq

structure PlayerOutcome where
  collectiveSuccess : Nullable Bool
  selfFailed : Bool
  aborted : Bool
  deriving DecidableEq

structure State where
  type : Nat
  protocolVersion : String
  runId : String
  snapshotSequence : UInt64
  worldVersion : UInt64
  tick : UInt64
  phase : Nat
  selfStationId : String
  rules : PublicRules
  directory : List DirectoryEntry
  me : StationObservation
  offers : List Offer
  advertisements : List Advertisement
  transactions : List Transaction
  requestResults : List Result
  outcome : Nullable PlayerOutcome
  deriving DecidableEq

end Pb

def protocolVersion : String := "2.0"

section Enums

def Phase.all : List Phase := [.ready, .running, .paused, .finished, .aborted]

def Phase.value : Phase → Nat
  | .ready => 1
  | .running => 2
  | .paused => 3
  | .finished => 4
  | .aborted => 5

def OfferStatus.all : List OfferStatus := [.opened, .accepted, .withdrawn, .expired, .runEnded]

def OfferStatus.value : OfferStatus → Nat
  | .opened => 1
  | .accepted => 2
  | .withdrawn => 3
  | .expired => 4
  | .runEnded => 5

def PublicationStatus.all : List PublicationStatus :=
  [.active, .replaced, .withdrawn, .expired, .runEnded]

def PublicationStatus.value : PublicationStatus → Nat
  | .active => 1
  | .replaced => 2
  | .withdrawn => 3
  | .expired => 4
  | .runEnded => 5

def ResultCode.all : List ResultCode :=
  [.ok, .requestIdConflict, .runNotRunning, .rateLimited, .invalidArgument, .notFound, .expired,
    .notOpen, .limitReached, .insufficientResources, .stationFailed]

def ResultCode.value : ResultCode → Nat
  | .ok => 1
  | .requestIdConflict => 2
  | .runNotRunning => 3
  | .rateLimited => 4
  | .invalidArgument => 5
  | .notFound => 6
  | .expired => 7
  | .notOpen => 8
  | .limitReached => 9
  | .insufficientResources => 10
  | .stationFailed => 11

/-- `E(item)` for an `IntEnum` class `E`. -/
def enumOf {α : Type} (name : String) (all : List α) (value : α → Nat)
    (item : Nat) : Except Raised α :=
  match all.find? (fun a => value a = item) with
  | some a => .ok a
  | none => .error (.valueError s!"{item} is not a valid {name}")

def Resource.of : Nat → Except Raised Resource := enumOf "Resource" Resource.all Resource.value

def Phase.of : Nat → Except Raised Phase := enumOf "Phase" Phase.all Phase.value

def OfferStatus.of : Nat → Except Raised OfferStatus :=
  enumOf "OfferStatus" OfferStatus.all OfferStatus.value

def PublicationStatus.of : Nat → Except Raised PublicationStatus :=
  enumOf "PublicationStatus" PublicationStatus.all PublicationStatus.value

def ResultCode.of : Nat → Except Raised ResultCode :=
  enumOf "ResultCode" ResultCode.all ResultCode.value

@[simp] theorem Resource.of_value (r : Resource) : Resource.of r.value = .ok r := by cases r <;> rfl

@[simp] theorem Phase.of_value (p : Phase) : Phase.of p.value = .ok p := by cases p <;> rfl

@[simp] theorem OfferStatus.of_value (s : OfferStatus) :
    OfferStatus.of s.value = .ok s := by cases s <;> rfl

@[simp] theorem PublicationStatus.of_value (s : PublicationStatus) :
    PublicationStatus.of s.value = .ok s := by
  cases s <;> rfl

@[simp] theorem ResultCode.of_value (c : ResultCode) :
    ResultCode.of c.value = .ok c := by cases c <;> rfl

end Enums

section Scalars

/-- Setting a `uint64` field. -/
def uint64 (n : Nat) : Except Raised UInt64 :=
  if n < 2 ^ 64 then .ok (UInt64.ofNat n) else .error (.valueError s!"Value out of range: {n}")

def bundleFromPb (pb : Pb.Bundle) : Bundle := ⟨pb.water.toNat, pb.food.toNat, pb.components.toNat⟩

def bundleToPb (b : Bundle) : Except Raised Pb.Bundle := do
  let water ← uint64 b.water
  let food ← uint64 b.food
  let components ← uint64 b.components
  return { water, food, components }

/-- The members of a set of resources, as an iteration meets them. -/
def Resource.elements (rs : Finset Resource) : List Resource := Resource.all.filter (· ∈ rs)

def resourceListFromPb (pb : Pb.ListResource) : Except Raised (Finset Resource) := do
  let items ← pb.items.mapM Resource.of
  return items.toFinset

/-- Sorted for deterministic bytes. -/
def resourceListToPb (resources : List Resource) : Pb.ListResource :=
  ⟨(resources.map Resource.value).insertionSort (· ≤ ·)⟩

def nullableFromPb {α β : Type} (name : String) (read : α → Except Raised β) :
    Pb.Nullable α → Except Raised (Option β)
  | .value value => some <$> read value
  | .null flag =>
    if !flag then
      .error (.wireFormatError s!"{name} set null: false; exactly one arm must be selected")
    else .ok none
  | .unset => .error (.wireFormatError s!"{name} selected no arm")

def nullableToPb {α β : Type} (write : α → Except Raised β) : Option α →
    Except Raised (Pb.Nullable β)
  | none => .ok (.null true)
  | some value => Pb.Nullable.value <$> write value

def nullableStrFromPb : Pb.Nullable String → Except Raised (Option String) :=
  nullableFromPb "NullableString" .ok

def nullableStrToPb : Option String → Except Raised (Pb.Nullable String) := nullableToPb .ok

def nullableUintFromPb : Pb.Nullable UInt64 → Except Raised (Option Nat) :=
  nullableFromPb "NullableUint" (fun value => .ok value.toNat)

def nullableUintToPb : Option Nat → Except Raised (Pb.Nullable UInt64) := nullableToPb uint64

def nullableBoolFromPb : Pb.Nullable Bool → Except Raised (Option Bool) :=
  nullableFromPb "NullableBool" .ok

def nullableBoolToPb : Option Bool → Except Raised (Pb.Nullable Bool) := nullableToPb .ok

end Scalars

section Records

def rulesFromPb (pb : Pb.PublicRules) : Except Raised Rules := do
  let resourceOrder ← pb.resourceOrder.items.mapM Resource.of
  return {
    rulesVersion := pb.rulesVersion
    durationTicks := pb.durationTicks.toNat
    tickDurationMs := pb.tickDurationMs.toNat
    resourceOrder := resourceOrder
    maxHealth := pb.maxHealth.toNat
    shortageDamagePerUnit := pb.shortageDamagePerUnit.toNat
    recoveryPerFullySuppliedTick := pb.recoveryPerFullySuppliedTick.toNat
    maxPublicationTtlTicks := pb.maxPublicationTtlTicks.toNat
    maxOfferTtlTicks := pb.maxOfferTtlTicks.toNat
    newCommandsPerStationPerTick := pb.newCommandsPerStationPerTick.toNat
    maxRequestRecordsPerStation := pb.maxRequestRecordsPerStation.toNat
    maxOpenOutgoingOffers := pb.maxOpenOutgoingOffers.toNat
    maxCommandBytes := pb.maxCommandBytes.toNat }

def rulesToPb (rules : Rules) : Except Raised Pb.PublicRules := do
  let durationTicks ← uint64 rules.durationTicks
  let tickDurationMs ← uint64 rules.tickDurationMs
  let maxHealth ← uint64 rules.maxHealth
  let shortageDamagePerUnit ← uint64 rules.shortageDamagePerUnit
  let recoveryPerFullySuppliedTick ← uint64 rules.recoveryPerFullySuppliedTick
  let maxPublicationTtlTicks ← uint64 rules.maxPublicationTtlTicks
  let maxOfferTtlTicks ← uint64 rules.maxOfferTtlTicks
  let newCommandsPerStationPerTick ← uint64 rules.newCommandsPerStationPerTick
  let maxRequestRecordsPerStation ← uint64 rules.maxRequestRecordsPerStation
  let maxOpenOutgoingOffers ← uint64 rules.maxOpenOutgoingOffers
  let maxCommandBytes ← uint64 rules.maxCommandBytes
  return {
    rulesVersion := rules.rulesVersion, durationTicks, tickDurationMs
    resourceOrder := resourceListToPb rules.resourceOrder
    maxHealth, shortageDamagePerUnit, recoveryPerFullySuppliedTick
    maxPublicationTtlTicks, maxOfferTtlTicks, newCommandsPerStationPerTick
    maxRequestRecordsPerStation, maxOpenOutgoingOffers, maxCommandBytes }

def stationObservationFromPb (pb : Pb.StationObservation) : Except Raised StationObservation := do
  let firstFailureTick ← nullableUintFromPb pb.firstFailureTick
  let specialty ← Resource.of pb.specialty
  return {
    stationId := pb.stationId
    inventory := bundleFromPb pb.inventory
    health := pb.health.toNat
    failedOnce := pb.failedOnce
    firstFailureTick := firstFailureTick
    lastProduction := bundleFromPb pb.lastProduction
    lastUnmetUpkeep := bundleFromPb pb.lastUnmetUpkeep
    fullySuppliedTicks := pb.fullySuppliedTicks.toNat
    shortageTicks := pb.shortageTicks.toNat
    currentShortageStreak := pb.currentShortageStreak.toNat
    longestShortageStreak := pb.longestShortageStreak.toNat
    producedTotal := bundleFromPb pb.producedTotal
    consumedTotal := bundleFromPb pb.consumedTotal
    unmetTotal := bundleFromPb pb.unmetTotal
    importedTotal := bundleFromPb pb.importedTotal
    exportedTotal := bundleFromPb pb.exportedTotal
    upkeepPerTick := bundleFromPb pb.upkeepPerTick
    specialty := specialty }

def stationObservationToPb (obs : StationObservation) : Except Raised Pb.StationObservation := do
  let health ← uint64 obs.health
  let fullySuppliedTicks ← uint64 obs.fullySuppliedTicks
  let shortageTicks ← uint64 obs.shortageTicks
  let currentShortageStreak ← uint64 obs.currentShortageStreak
  let longestShortageStreak ← uint64 obs.longestShortageStreak
  let inventory ← bundleToPb obs.inventory
  let firstFailureTick ← nullableUintToPb obs.firstFailureTick
  let lastProduction ← bundleToPb obs.lastProduction
  let lastUnmetUpkeep ← bundleToPb obs.lastUnmetUpkeep
  let producedTotal ← bundleToPb obs.producedTotal
  let consumedTotal ← bundleToPb obs.consumedTotal
  let unmetTotal ← bundleToPb obs.unmetTotal
  let importedTotal ← bundleToPb obs.importedTotal
  let exportedTotal ← bundleToPb obs.exportedTotal
  let upkeepPerTick ← bundleToPb obs.upkeepPerTick
  return {
    stationId := obs.stationId, inventory, health, failedOnce := obs.failedOnce, firstFailureTick
    lastProduction, lastUnmetUpkeep, fullySuppliedTicks, shortageTicks, currentShortageStreak
    longestShortageStreak, producedTotal, consumedTotal, unmetTotal, importedTotal, exportedTotal
    upkeepPerTick, specialty := obs.specialty.value }

def directoryEntryFromPb (pb : Pb.DirectoryEntry) : DirectoryEntry := ⟨pb.stationId, pb.displayName⟩

def directoryEntryToPb (entry : DirectoryEntry) : Pb.DirectoryEntry :=
  ⟨entry.stationId, entry.displayName⟩

def offerFromPb (pb : Pb.Offer) : Except Raised Offer := do
  let status ← OfferStatus.of pb.status
  let closedTick ← nullableUintFromPb pb.closedTick
  let transactionId ← nullableStrFromPb pb.transactionId
  return {
    offerId := pb.offerId
    proposerId := pb.proposerId
    recipientId := pb.recipientId
    give := bundleFromPb pb.give
    receive := bundleFromPb pb.receive
    createdTick := pb.createdTick.toNat
    createdVersion := pb.createdVersion.toNat
    expiresTick := pb.expiresTick.toNat
    status, closedTick, transactionId }

def offerToPb (offer : Offer) : Except Raised Pb.Offer := do
  let createdTick ← uint64 offer.createdTick
  let createdVersion ← uint64 offer.createdVersion
  let expiresTick ← uint64 offer.expiresTick
  let give ← bundleToPb offer.give
  let receive ← bundleToPb offer.receive
  let closedTick ← nullableUintToPb offer.closedTick
  let transactionId ← nullableStrToPb offer.transactionId
  return {
    offerId := offer.offerId
    proposerId := offer.proposerId
    recipientId := offer.recipientId
    give, receive, createdTick, createdVersion, expiresTick
    status := offer.status.value
    closedTick, transactionId }

def transactionFromPb (pb : Pb.Transaction) : Transaction where
  transactionId := pb.transactionId
  offerId := pb.offerId
  proposerId := pb.proposerId
  recipientId := pb.recipientId
  give := bundleFromPb pb.give
  receive := bundleFromPb pb.receive
  settledTick := pb.settledTick.toNat
  settledVersion := pb.settledVersion.toNat

def transactionToPb (txn : Transaction) : Except Raised Pb.Transaction := do
  let settledTick ← uint64 txn.settledTick
  let settledVersion ← uint64 txn.settledVersion
  let give ← bundleToPb txn.give
  let receive ← bundleToPb txn.receive
  return {
    transactionId := txn.transactionId
    offerId := txn.offerId
    proposerId := txn.proposerId
    recipientId := txn.recipientId
    give, receive, settledTick, settledVersion }

def advertisementFromPb (pb : Pb.Advertisement) : Except Raised Advertisement := do
  let selling ← resourceListFromPb pb.selling
  let seeking ← resourceListFromPb pb.seeking
  let status ← PublicationStatus.of pb.status
  return {
    advertisementId := pb.advertisementId
    stationId := pb.stationId
    selling, seeking
    createdTick := pb.createdTick.toNat
    expiresTick := pb.expiresTick.toNat
    createdVersion := pb.createdVersion.toNat
    status }

def advertisementToPb (ad : Advertisement) : Except Raised Pb.Advertisement := do
  let createdTick ← uint64 ad.createdTick
  let expiresTick ← uint64 ad.expiresTick
  let createdVersion ← uint64 ad.createdVersion
  return {
    advertisementId := ad.advertisementId
    stationId := ad.stationId
    selling := resourceListToPb (Resource.elements ad.selling)
    seeking := resourceListToPb (Resource.elements ad.seeking)
    createdTick, expiresTick, createdVersion
    status := ad.status.value }

def resultFromPb (pb : Pb.Result) : Except Raised CommandResult := do
  let code ← ResultCode.of pb.code
  let objectId ← nullableStrFromPb pb.objectId
  let transactionId ← nullableStrFromPb pb.transactionId
  let retryAfterTick ← nullableUintFromPb pb.retryAfterTick
  return {
    requestId := pb.requestId
    ok := pb.ok
    code
    processedTick := pb.processedTick.toNat
    processedVersion := pb.processedVersion.toNat
    objectId, transactionId, retryAfterTick }

def resultToPb (result : CommandResult) (runId : String) : Except Raised Pb.Result := do
  let processedTick ← uint64 result.processedTick
  let processedVersion ← uint64 result.processedVersion
  let objectId ← nullableStrToPb result.objectId
  let transactionId ← nullableStrToPb result.transactionId
  let retryAfterTick ← nullableUintToPb result.retryAfterTick
  return {
    type := 1
    protocolVersion, runId
    requestId := result.requestId
    ok := result.ok
    code := result.code.value
    processedTick, processedVersion, objectId, transactionId, retryAfterTick }

def playerOutcomeFromPb (pb : Pb.PlayerOutcome) : Except Raised PlayerOutcome := do
  let collectiveSuccess ← nullableBoolFromPb pb.collectiveSuccess
  return { collectiveSuccess, selfFailed := pb.selfFailed, aborted := pb.aborted }

def playerOutcomeToPb (outcome : PlayerOutcome) : Except Raised Pb.PlayerOutcome := do
  let collectiveSuccess ← nullableBoolToPb outcome.collectiveSuccess
  return { collectiveSuccess, selfFailed := outcome.selfFailed, aborted := outcome.aborted }

def nullableOutcomeFromPb : Pb.Nullable Pb.PlayerOutcome → Except Raised (Option PlayerOutcome) :=
  nullableFromPb "NullablePlayerOutcome" playerOutcomeFromPb

def nullableOutcomeToPb : Option PlayerOutcome → Except Raised (Pb.Nullable Pb.PlayerOutcome) :=
  nullableToPb playerOutcomeToPb

def snapshotFromPb (pb : Pb.State) : Except Raised Snapshot := do
  let phase ← Phase.of pb.phase
  let rules ← rulesFromPb pb.rules
  let me ← stationObservationFromPb pb.me
  let offers ← pb.offers.mapM offerFromPb
  let advertisements ← pb.advertisements.mapM advertisementFromPb
  let requestResults ← pb.requestResults.mapM resultFromPb
  let outcome ← nullableOutcomeFromPb pb.outcome
  return {
    runId := pb.runId
    snapshotSequence := pb.snapshotSequence.toNat
    worldVersion := pb.worldVersion.toNat
    tick := pb.tick.toNat
    phase
    selfStationId := pb.selfStationId
    rules
    directory := pb.directory.map directoryEntryFromPb
    me, offers, advertisements
    transactions := pb.transactions.map transactionFromPb
    requestResults, outcome }

def snapshotToPb (snapshot : Snapshot) : Except Raised Pb.State := do
  let snapshotSequence ← uint64 snapshot.snapshotSequence
  let worldVersion ← uint64 snapshot.worldVersion
  let tick ← uint64 snapshot.tick
  let rules ← rulesToPb snapshot.rules
  let me ← stationObservationToPb snapshot.me
  let offers ← snapshot.offers.mapM offerToPb
  let advertisements ← snapshot.advertisements.mapM advertisementToPb
  let transactions ← snapshot.transactions.mapM transactionToPb
  let requestResults ← snapshot.requestResults.mapM (fun r => resultToPb r snapshot.runId)
  let outcome ← nullableOutcomeToPb snapshot.outcome
  return {
    type := 1
    protocolVersion
    runId := snapshot.runId
    snapshotSequence, worldVersion, tick
    phase := snapshot.phase.value
    selfStationId := snapshot.selfStationId
    rules
    directory := snapshot.directory.map directoryEntryToPb
    me, offers, advertisements, transactions, requestResults, outcome }

end Records

end SpaceportBazaar
