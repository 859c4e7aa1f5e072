import SpaceportBazaar.Counterparties
import Mathlib.Data.List.Sort

namespace SpaceportBazaar

def roundTripSamples : Nat := 8
def productionSamples : Nat := 8

/-- Appending to a deque that keeps at most `size` samples, the newest last. -/
def pushSample (size sample : Nat) (samples : List Nat) : List Nat :=
  (samples ++ [sample]).drop (samples.length + 1 - size)

structure PolicyMemory where
  counterparties : CounterpartyModel
  roundTrips : List Nat
  productions : List Nat
  blockedUntilTick : Nat
  altruismLog : Dict (String × Resource) Nat
  storedReserve : Bundle
  measuredTransactions : Finset String
  lastTickSeen : Int

namespace PolicyMemory

def new : PolicyMemory where
  counterparties := .empty
  roundTrips := []
  productions := []
  blockedUntilTick := 0
  altruismLog := .empty
  storedReserve := .zero
  measuredTransactions := ∅
  lastTickSeen := -1

/-- How long one settled trade of ours took, if its offer is still shown. -/
def measureTrade (created : Dict String Nat) (selfStationId : String) (memory : PolicyMemory)
    (txn : Transaction) : PolicyMemory :=
  if txn.proposerId ≠ selfStationId then memory
  else if txn.transactionId ∈ memory.measuredTransactions then memory
  else match created.get? txn.offerId with
    | none => memory
    | some createdTick => { memory with
        measuredTransactions := insert txn.transactionId memory.measuredTransactions
        roundTrips :=
          pushSample roundTripSamples (txn.settledTick - createdTick) memory.roundTrips }

def measureRoundTrips (memory : PolicyMemory) (snapshot : Snapshot) : PolicyMemory :=
  let created := Dict.ofList (snapshot.offers.map (fun o => (o.offerId, o.createdTick)))
  snapshot.transactions.foldl (measureTrade created snapshot.selfStationId) memory

/-- `last_production` reports what arrived, and only once per tick. -/
def measureProduction (memory : PolicyMemory) (snapshot : Snapshot) : PolicyMemory :=
  if snapshot.tick = memory.lastTickSeen ∨ snapshot.tick = 0 then memory
  else { memory with
    lastTickSeen := snapshot.tick
    productions :=
      pushSample productionSamples (snapshot.me.lastProduction.get snapshot.me.specialty)
      memory.productions }

def observe (memory : PolicyMemory) (snapshot : Snapshot) : PolicyMemory :=
  ({ memory with counterparties := memory.counterparties.update snapshot }.measureRoundTrips
    snapshot).measureProduction snapshot

/-- `round(statistics.median(samples))`: an even number of samples has its median
between the middle two, and a half rounds to the even side. -/
def medianRounded (samples : List Nat) : Nat :=
  let sorted := samples.insertionSort (· ≤ ·)
  let middle := samples.length / 2
  if samples.length % 2 = 1 then sorted.getD middle 0
  else
    let doubled := sorted.getD (middle - 1) 0 + sorted.getD middle 0
    if doubled % 2 = 0 ∨ doubled / 2 % 2 = 0 then doubled / 2 else doubled / 2 + 1

def medianRoundTrip (memory : PolicyMemory) : Option Nat :=
  if memory.roundTrips.length < 3 then none else some (medianRounded memory.roundTrips)

def minRecentProduction (memory : PolicyMemory) : Option Nat := memory.productions.min?

def recordGift (memory : PolicyMemory) (stationId : String) (resource : Resource) (tick : Nat) :
    PolicyMemory :=
  { memory with altruismLog := memory.altruismLog.set (stationId, resource) tick }

def ticksSinceGift (memory : PolicyMemory) (stationId : String) (resource : Resource)
    (tick : Nat) : Int :=
  match memory.altruismLog.get? (stationId, resource) with
  | some last => tick - last
  | none => 10 ^ 6

def blockUntil (memory : PolicyMemory) (tick : Option Nat) : PolicyMemory :=
  match tick with
  | some tick => { memory with blockedUntilTick := max memory.blockedUntilTick tick }
  | none => memory

/-- Measuring trades adds samples of how long they took, and changes nothing else. -/
theorem measureRoundTrips_eq (memory : PolicyMemory) (snapshot : Snapshot) : ∃ measured roundTrips,
    memory.measureRoundTrips snapshot =
      { memory with measuredTransactions := measured, roundTrips := roundTrips } := by
  unfold measureRoundTrips
  generalize Dict.ofList (snapshot.offers.map (fun o => (o.offerId, o.createdTick))) = created
  simp only
  generalize snapshot.transactions = txns
  induction txns generalizing memory with
  | nil => exact ⟨_, _, rfl⟩
  | cons txn txns ih =>
    rw [List.foldl_cons]
    obtain ⟨measured, roundTrips, hrest⟩ :=
      ih (memory.measureTrade created snapshot.selfStationId txn)
    rw [hrest]
    unfold measureTrade
    split_ifs
    · exact ⟨_, _, rfl⟩
    · exact ⟨_, _, rfl⟩
    · split
      · exact ⟨_, _, rfl⟩
      · exact ⟨_, _, rfl⟩

theorem observe_counterparties (memory : PolicyMemory) (snapshot : Snapshot) :
    (memory.observe snapshot).counterparties = memory.counterparties.update snapshot := by
  obtain ⟨_, _, hmeasured⟩ :=
    { memory with counterparties := memory.counterparties.update snapshot }.measureRoundTrips_eq
      snapshot
  unfold observe measureProduction
  rw [hmeasured]
  split <;> rfl

theorem observe_blocked (memory : PolicyMemory) (snapshot : Snapshot) :
    (memory.observe snapshot).blockedUntilTick = memory.blockedUntilTick := by
  obtain ⟨_, _, hmeasured⟩ :=
    { memory with counterparties := memory.counterparties.update snapshot }.measureRoundTrips_eq
      snapshot
  unfold observe measureProduction
  rw [hmeasured]
  split <;> rfl

end PolicyMemory

end SpaceportBazaar
