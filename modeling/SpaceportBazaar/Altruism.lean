import SpaceportBazaar.Reserves

namespace SpaceportBazaar

def persistenceTicks : Nat := 4
def cooldownTicks : Int := 5
def maxGiftsPerTick : Nat := 1
def maxExcessGift : Nat := 20
def excessCooldownTicks : Int := 2

structure GiftIntent where
  stationId : String
  resource : Resource
  quantity : Nat
  deriving DecidableEq, Repr

/-- A fifth of idle surplus, and at least one unit to be useful. -/
def donationSize (surplusQty : Nat) : Nat := max 1 (surplusQty / 5)

def streakOf (stats : CounterpartyStats) (resource : Resource) : Nat :=
  (stats.seekingStreak.get? resource).getD 0

-- The executable order, where Mathlib also has a lattice built by choice.
local instance intPreorder : Preorder Int := Int.instLinearOrder.toPreorder

/-- The planet advertising for a resource the longest. -/
def pickGiftRecipient (model : CounterpartyModel) (resource : Resource) (tick : Nat)
    (memory : PolicyMemory) :
    Option String :=
  let seekers := model.trading.filter (fun stats =>
    decide (resource ∈ stats.seeking) &&
      excessCooldownTicks ≤ memory.ticksSinceGift stats.stationId resource tick)
  (seekers.argmax (fun stats => toLex (streakOf stats resource, stats.lastAdTick))).map
    CounterpartyStats.stationId

def intentsFor (surplus : Bundle) (tick : Nat) (memory : PolicyMemory) (stats : CounterpartyStats) :
    List GiftIntent :=
  (stats.seekingStreak.entries.filter (fun e =>
    persistenceTicks ≤ e.2 && 0 < surplus.get e.1 &&
      cooldownTicks ≤ memory.ticksSinceGift stats.stationId e.1 tick)).map
    (fun e => ⟨stats.stationId, e.1, donationSize (surplus.get e.1)⟩)

/-- `model.get(g.station_id).seeking_streak.get(g.resource, 0)` -/
def standingNeed (model : CounterpartyModel) (intent : GiftIntent) : Nat :=
  match model.stations.get? intent.stationId with
  | some stats => streakOf stats intent.resource
  | none => 0

/-- Longest-standing need first, and only while nothing of ours is urgent. -/
def scanForDistress (model : CounterpartyModel) (surplus : Bundle) (urgency : Resource → Urgency)
    (tick : Nat) (memory : PolicyMemory) : List GiftIntent :=
  if Resource.all.any (fun r => urgency r ≠ .none) then []
  else
    let intents := model.trading.flatMap (intentsFor surplus tick memory)
    (intents.insertionSort (fun a b => standingNeed model b ≤ standingNeed model a)).take
      maxGiftsPerTick

theorem pickGiftRecipient_known {model : CounterpartyModel} {resource : Resource} {tick : Nat}
    {memory : PolicyMemory} {recipient : String}
    (h : pickGiftRecipient model resource tick memory = some recipient) :
    ∃ stats ∈ model.trading, stats.stationId = recipient := by
  obtain ⟨stats, hs, hid⟩ := Option.map_eq_some_iff.mp h
  exact ⟨stats, List.mem_of_mem_filter (List.argmax_mem hs), hid⟩

/-- A distress gift is a part of the surplus, for a planet still trading. -/
theorem scanForDistress_spec {model : CounterpartyModel} {surplus : Bundle}
    {urgency : Resource → Urgency} {tick : Nat} {memory : PolicyMemory} {intent : GiftIntent}
    (h : intent ∈ scanForDistress model surplus urgency tick memory) :
    (∀ r, urgency r = .none) ∧ 1 ≤ intent.quantity ∧ intent.quantity ≤ surplus.get intent.resource ∧
      intent.quantity = donationSize (surplus.get intent.resource) ∧
      cooldownTicks ≤ memory.ticksSinceGift intent.stationId intent.resource tick ∧
      ∃ stats ∈ model.trading, stats.stationId = intent.stationId := by
  unfold scanForDistress at h
  split at h
  next => simp at h
  next hcalm =>
    have hsorted := List.mem_of_mem_take h
    rw [List.mem_insertionSort, List.mem_flatMap] at hsorted
    obtain ⟨stats, hstats, hintent⟩ := hsorted
    obtain ⟨e, he, rfl⟩ := List.mem_map.mp hintent
    have hkept := List.of_mem_filter he
    simp only [Bool.and_eq_true, decide_eq_true_eq] at hkept
    have hsize :
        1 ≤ donationSize (surplus.get e.1) ∧ donationSize (surplus.get e.1) ≤ surplus.get e.1 := by
      simp only [donationSize]
      omega
    refine ⟨fun r => ?_, hsize.1, hsize.2, rfl, hkept.2, stats, hstats, rfl⟩
    have := List.any_eq_false.mp (Bool.not_eq_true _ ▸ hcalm) r (Resource.mem_all r)
    simpa using this

/-- The needs a distress gift may go to. -/
def distress (model : CounterpartyModel) (surplus : Bundle) (tick : Nat)
    (memory : PolicyMemory) : List GiftIntent :=
  model.trading.flatMap (intentsFor surplus tick memory)

/-- A need that may be met, and that has stood as long as any other. -/
structure Neediest (model : CounterpartyModel) (surplus : Bundle) (tick : Nat)
    (memory : PolicyMemory) (intent : GiftIntent) : Prop where
  found : intent ∈ distress model surplus tick memory
  longest : ∀ other ∈ distress model surplus tick memory,
    standingNeed model other ≤ standingNeed model intent

/-- What comes first in order is related to everything. -/
theorem insertionSort_first {α : Type} {r : α → α → Prop} [DecidableRel r] [Std.Total r]
    [IsTrans α r] {l : List α} {x : α} (h : x ∈ (l.insertionSort r).take 1) :
    x ∈ l ∧ ∀ y ∈ l, r x y := by
  have hsorted := List.pairwise_insertionSort r l
  have hmem : ∀ y, y ∈ l.insertionSort r ↔ y ∈ l := fun y => List.mem_insertionSort r
  cases hl : l.insertionSort r with
  | nil => simp [hl] at h
  | cons first rest =>
    rw [hl] at h hsorted hmem
    obtain rfl : x = first := by simpa using h
    refine ⟨(hmem x).mp List.mem_cons_self, fun y hy => ?_⟩
    rcases List.mem_cons.mp ((hmem y).mpr hy) with rfl | hlater
    · exact refl_of r y
    · exact List.rel_of_pairwise_cons hsorted hlater

/-- The first in the order of standing is the one that has stood longest. -/
theorem scanForDistress_neediest {model : CounterpartyModel} {surplus : Bundle}
    {urgency : Resource → Urgency} {tick : Nat} {memory : PolicyMemory} {intent : GiftIntent}
    (h : intent ∈ scanForDistress model surplus urgency tick memory) :
    Neediest model surplus tick memory intent := by
  unfold scanForDistress at h
  split at h
  next => simp at h
  next =>
    have : Std.Total (fun a b : GiftIntent => standingNeed model b ≤ standingNeed model a) :=
      ⟨fun a b => Nat.le_total _ _⟩
    have : IsTrans GiftIntent (fun a b => standingNeed model b ≤ standingNeed model a) :=
      ⟨fun _ _ _ hab hbc => hbc.trans hab⟩
    obtain ⟨hfound, hlongest⟩ := insertionSort_first h
    exact ⟨hfound, hlongest⟩

/-- While nothing of ours is urgent, some need is met if any may be. -/
theorem scanForDistress_finds {model : CounterpartyModel} {surplus : Bundle}
    {urgency : Resource → Urgency} {tick : Nat} {memory : PolicyMemory} {intent : GiftIntent}
    (calm : ∀ r, urgency r = .none) (h : intent ∈ distress model surplus tick memory) :
    ∃ first, scanForDistress model surplus urgency tick memory = [first] := by
  unfold scanForDistress
  rw [if_neg (by simp [calm])]
  refine List.length_eq_one_iff.mp ?_
  simp only [List.length_take, List.length_insertionSort]
  have := List.length_pos_of_mem h
  simp only [distress, maxGiftsPerTick] at this ⊢
  omega

theorem scanForDistress_length (model : CounterpartyModel) (surplus : Bundle)
    (urgency : Resource → Urgency) (tick : Nat) (memory : PolicyMemory) :
    (scanForDistress model surplus urgency tick memory).length ≤ 1 := by
  unfold scanForDistress
  split
  · simp
  · exact List.length_take_le _ _

end SpaceportBazaar
