import SpaceportBazaar.Binary64
import SpaceportBazaar.Dict
import SpaceportBazaar.Domain

namespace SpaceportBazaar

def neutralAcceptRate : ℚ := 1 / 2

structure CounterpartyStats where
  stationId : String
  displayName : String := ""
  selling : Finset Resource := ∅
  seeking : Finset Resource := ∅
  seekingStreak : Dict Resource Nat := .empty
  lastAdTick : Int := -1
  offersSentTo : Nat := 0
  offersAcceptedBy : Nat := 0
  stationFailed : Bool := false
  supplied : Finset Resource := ∅
  everActive : Bool := false
  consecutiveExpired : Nat := 0
  lastExpiredTick : Int := -1
  sizeLimit : Option Nat := none

def CounterpartyStats.acceptRate (stats : CounterpartyStats) : ℚ :=
  if stats.offersSentTo = 0 then neutralAcceptRate
  else Binary64.div stats.offersAcceptedBy stats.offersSentTo

/-- `Resource` members, in the order a set of them is iterated. -/
def resourcesOf (rs : Finset Resource) : List Resource := Resource.all.filter (· ∈ rs)

structure CounterpartyModel where
  stations : Dict String CounterpartyStats
  countedOffers : Finset String

namespace CounterpartyModel

def empty : CounterpartyModel := ⟨.empty, ∅⟩

/-- `stations()`: every planet not known to have failed. -/
def trading (model : CounterpartyModel) : List CounterpartyStats :=
  model.stations.values.filter (fun stats => !stats.stationFailed)

/-- A station that lost trading eligibility never regains it. -/
def markFailed (model : CounterpartyModel) (stationId : String) : CounterpartyModel :=
  { model with stations :=
    model.stations.update stationId (fun stats => { stats with stationFailed := true }) }

/-- `setdefault(station_id, CounterpartyStats(station_id))`, then a change in place. -/
def revise (model : CounterpartyModel) (stationId : String)
    (change : CounterpartyStats → CounterpartyStats) :
    CounterpartyModel :=
  let (stats, stations) := model.stations.setDefault stationId { stationId := stationId }
  { model with stations := stations.set stationId (change stats) }

def updateDirectory (model : CounterpartyModel) (snapshot : Snapshot) : CounterpartyModel :=
  snapshot.directory.foldl (fun model entry =>
    if entry.stationId = snapshot.selfStationId then model
    else model.revise entry.stationId
      (fun stats => { stats with displayName := entry.displayName })) model

def activeAds (snapshot : Snapshot) : Dict String (Finset Resource × Finset Resource) :=
  Dict.ofList ((snapshot.advertisements.filter (fun ad =>
    ad.stationId ≠ snapshot.selfStationId && ad.status =
        .active && !ad.isExpiredAt snapshot.tick)).map
      (fun ad => (ad.stationId, ad.selling, ad.seeking)))

def extendStreak (seeking : Finset Resource) (streak : Dict Resource Nat) : Dict Resource Nat :=
  (resourcesOf seeking).foldl (fun streak r => streak.set r ((streak.get? r).getD 0 + 1)) streak

/-- Several snapshots can share a tick; only a later tick counts as the need persisting. -/
def showAd (tick : Nat) (selling seeking : Finset Resource)
    (stats : CounterpartyStats) : CounterpartyStats :=
  let isNewTick := stats.lastAdTick < tick
  let streak := if isNewTick then extendStreak seeking stats.seekingStreak else stats.seekingStreak
  { stats with
    selling := selling
    seeking := seeking
    lastAdTick := tick
    everActive := true
    seekingStreak := streak.filterKeys (fun r => decide (r ∈ seeking)) }

def clearAd (stats : CounterpartyStats) : CounterpartyStats :=
  { stats with selling := ∅, seeking := ∅, seekingStreak := .empty }

def updateAdvertisements (model : CounterpartyModel) (snapshot : Snapshot) : CounterpartyModel :=
  let active := activeAds snapshot
  let model := active.entries.foldl (fun model e =>
    model.revise e.1 (showAd snapshot.tick e.2.1 e.2.2)) model
  { model with
    stations := model.stations.mapEntries (fun stationId stats =>
      if active.contains stationId then stats else clearAd stats) }

def countAccepted (stats : CounterpartyStats) : CounterpartyStats :=
  { stats with
    offersSentTo := stats.offersSentTo + 1
    offersAcceptedBy := stats.offersAcceptedBy + 1
    consecutiveExpired := 0
    sizeLimit := stats.sizeLimit.map (· * 2) }

def countExpired (offer : Offer) (stats : CounterpartyStats) : CounterpartyStats :=
  let asked := offer.receive.total
  { stats with
    offersSentTo := stats.offersSentTo + 1
    consecutiveExpired := stats.consecutiveExpired + 1
    lastExpiredTick := max stats.lastExpiredTick (offer.closedTick.getD offer.expiresTick)
    sizeLimit := if asked = 0 then stats.sizeLimit else some (max 1 (asked / 2)) }

def recipientDecided (status : OfferStatus) : Bool := status = .accepted || status = .expired

/-- Counts each of our offers once, when it reaches a settled status. -/
def countOffer (selfStationId : String) (model : CounterpartyModel)
    (offer : Offer) : CounterpartyModel :=
  if offer.recipientId = selfStationId then
    model.revise offer.proposerId (fun stats => { stats with everActive := true })
  else if offer.proposerId ≠ selfStationId then model
  else if !recipientDecided offer.status || offer.offerId ∈ model.countedOffers then model
  else
    let model := { model with countedOffers := insert offer.offerId model.countedOffers }
    model.revise offer.recipientId
      (if offer.status = OfferStatus.accepted then countAccepted else countExpired offer)

def updateOfferHistory (model : CounterpartyModel) (snapshot : Snapshot) : CounterpartyModel :=
  snapshot.offers.foldl (countOffer snapshot.selfStationId) model

def receivedFrom (received : Bundle) (stats : CounterpartyStats) : CounterpartyStats :=
  { stats with
    everActive := true
    supplied := stats.supplied ∪ Finset.univ.filter (fun r => 0 < received.get r) }

def updateSupply (model : CounterpartyModel) (snapshot : Snapshot) : CounterpartyModel :=
  snapshot.transactions.foldl (fun model txn =>
    if snapshot.selfStationId = txn.recipientId then
      model.revise txn.proposerId (receivedFrom txn.give)
    else if snapshot.selfStationId = txn.proposerId then
      model.revise txn.recipientId (receivedFrom txn.receive)
    else model) model

def update (model : CounterpartyModel) (snapshot : Snapshot) : CounterpartyModel :=
  (((model.updateDirectory snapshot).updateAdvertisements snapshot).updateOfferHistory
      snapshot).updateSupply
    snapshot

end CounterpartyModel

end SpaceportBazaar
