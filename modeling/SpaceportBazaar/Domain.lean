import SpaceportBazaar.Bundle
import Mathlib.Data.Finset.Basic

namespace SpaceportBazaar

inductive Phase
  | ready | running | paused | finished | aborted
  deriving DecidableEq, Repr

inductive OfferStatus
  | opened | accepted | withdrawn | expired | runEnded
  deriving DecidableEq, Repr

inductive PublicationStatus
  | active | replaced | withdrawn | expired | runEnded
  deriving DecidableEq, Repr

inductive ResultCode
  | ok | requestIdConflict | runNotRunning | rateLimited | invalidArgument | notFound
  | expired | notOpen | limitReached | insufficientResources | stationFailed
  deriving DecidableEq, Repr

inductive ControlCode
  | badMessage | requestCapacityExceeded | unsupportedVersion | runMismatch
  | invalidAuthentication | sessionFenced
  deriving DecidableEq, Repr

structure Rules where
  rulesVersion : String
  durationTicks : Nat
  tickDurationMs : Nat
  resourceOrder : List Resource
  maxHealth : Nat
  shortageDamagePerUnit : Nat
  recoveryPerFullySuppliedTick : Nat
  maxPublicationTtlTicks : Nat
  maxOfferTtlTicks : Nat
  newCommandsPerStationPerTick : Nat
  maxRequestRecordsPerStation : Nat
  maxOpenOutgoingOffers : Nat
  maxCommandBytes : Nat
  deriving DecidableEq, Repr

structure StationObservation where
  stationId : String
  inventory : Bundle
  health : Nat
  failedOnce : Bool
  firstFailureTick : Option Nat
  lastProduction : Bundle
  lastUnmetUpkeep : Bundle
  fullySuppliedTicks : Nat
  shortageTicks : Nat
  currentShortageStreak : Nat
  longestShortageStreak : Nat
  producedTotal : Bundle
  consumedTotal : Bundle
  unmetTotal : Bundle
  importedTotal : Bundle
  exportedTotal : Bundle
  upkeepPerTick : Bundle
  specialty : Resource
  deriving DecidableEq, Repr

structure DirectoryEntry where
  stationId : String
  displayName : String
  deriving DecidableEq, Repr

/-- `give` and `receive` are the proposer's side of the exchange. -/
structure Offer where
  offerId : String
  proposerId : String
  recipientId : String
  give : Bundle
  receive : Bundle
  createdTick : Nat
  createdVersion : Nat
  expiresTick : Nat
  status : OfferStatus
  closedTick : Option Nat
  transactionId : Option String
  deriving DecidableEq, Repr

/-- Deadlines are exclusive. -/
def Offer.isExpiredAt (o : Offer) (tick : Nat) : Bool := o.expiresTick ≤ tick

def Offer.isOpenAt (o : Offer) (tick : Nat) : Bool := o.status = .opened && !o.isExpiredAt tick

def Offer.whatStationPays (o : Offer) (stationId : String) : Except Raised Bundle :=
  if stationId = o.proposerId then .ok o.give
  else if stationId = o.recipientId then .ok o.receive
  else .error (.valueError s!"{stationId} is not a party to offer {o.offerId}")

def Offer.whatStationReceives (o : Offer) (stationId : String) : Except Raised Bundle :=
  if stationId = o.proposerId then .ok o.receive
  else if stationId = o.recipientId then .ok o.give
  else .error (.valueError s!"{stationId} is not a party to offer {o.offerId}")

structure Transaction where
  transactionId : String
  offerId : String
  proposerId : String
  recipientId : String
  give : Bundle
  receive : Bundle
  settledTick : Nat
  settledVersion : Nat
  deriving DecidableEq, Repr

structure Advertisement where
  advertisementId : String
  stationId : String
  selling : Finset Resource
  seeking : Finset Resource
  createdTick : Nat
  expiresTick : Nat
  createdVersion : Nat
  status : PublicationStatus
  deriving DecidableEq

def Advertisement.isExpiredAt (a : Advertisement) (tick : Nat) : Bool := a.expiresTick ≤ tick

structure CommandResult where
  requestId : String
  ok : Bool
  code : ResultCode
  processedTick : Nat
  processedVersion : Nat
  objectId : Option String
  transactionId : Option String
  retryAfterTick : Option Nat
  deriving DecidableEq, Repr

structure ProtocolErrorEvent where
  runId : Option String
  requestId : Option String
  code : ControlCode
  closeSession : Bool
  deriving DecidableEq, Repr

structure ReadinessAck where
  runId : String
  ready : Bool
  snapshotSequence : Nat
  deriving DecidableEq, Repr

structure PlayerOutcome where
  collectiveSuccess : Option Bool
  selfFailed : Bool
  aborted : Bool
  deriving DecidableEq, Repr

structure Snapshot where
  runId : String
  snapshotSequence : Nat
  worldVersion : Nat
  tick : Nat
  phase : Phase
  selfStationId : String
  rules : Rules
  directory : List DirectoryEntry
  me : StationObservation
  offers : List Offer
  advertisements : List Advertisement
  transactions : List Transaction
  requestResults : List CommandResult
  outcome : Option PlayerOutcome
  deriving DecidableEq

def Snapshot.incomingOpenOffers (s : Snapshot) : List Offer :=
  s.offers.filter (fun o => o.recipientId = s.selfStationId && o.isOpenAt s.tick)

def Snapshot.outgoingOpenOffers (s : Snapshot) : List Offer :=
  s.offers.filter (fun o => o.proposerId = s.selfStationId && o.isOpenAt s.tick)

def Snapshot.ownAdvertisement (s : Snapshot) : Option Advertisement :=
  s.advertisements.find? (fun a => a.stationId = s.selfStationId && a.status = .active)

/-- What the decision layer asks for, before any wire format. -/
inductive Action
  | advertise (selling seeking : Finset Resource) (expiresTick : Nat)
  | offer (recipientId : String) (give receive : Bundle) (expiresTick : Nat)
  | accept (offerId : String)
  | withdraw (objectId : String)
  | sync
  deriving DecidableEq

def Action.isOffer : Action → Bool
  | .offer .. => true
  | _ => false

def Action.acceptedId? : Action → Option String
  | .accept offerId => some offerId
  | _ => none

def Action.withdrawnId? : Action → Option String
  | .withdraw objectId => some objectId
  | _ => none

/-- Everything the server can send to a client. -/
inductive ServerEvent
  | state (snapshot : Snapshot)
  | result (result : CommandResult)
  | protocolError (event : ProtocolErrorEvent)
  | readiness (ack : ReadinessAck)
  deriving DecidableEq

theorem Offer.isOpenAt_iff {o : Offer} {tick : Nat} :
    o.isOpenAt tick = true ↔ o.status = .opened ∧ tick < o.expiresTick := by
  simp [Offer.isOpenAt, Offer.isExpiredAt]

theorem Snapshot.mem_incomingOpenOffers {s : Snapshot} {o : Offer} :
    o ∈ s.incomingOpenOffers ↔
      o ∈ s.offers ∧ o.recipientId = s.selfStationId ∧ o.status = .opened ∧
      s.tick < o.expiresTick := by
  simp [Snapshot.incomingOpenOffers, Offer.isOpenAt_iff]

theorem Snapshot.mem_outgoingOpenOffers {s : Snapshot} {o : Offer} :
    o ∈ s.outgoingOpenOffers ↔
      o ∈ s.offers ∧ o.proposerId = s.selfStationId ∧ o.status = .opened ∧
      s.tick < o.expiresTick := by
  simp [Snapshot.outgoingOpenOffers, Offer.isOpenAt_iff]

theorem Snapshot.ownAdvertisement_spec {s : Snapshot} {a : Advertisement}
    (h : s.ownAdvertisement = some a) : a ∈ s.advertisements ∧ a.stationId = s.selfStationId := by
  have hp := List.find?_some h
  simp only [Bool.and_eq_true, decide_eq_true_eq] at hp
  exact ⟨List.mem_of_find?_eq_some h, hp.1⟩

end SpaceportBazaar
