import SpaceportBazaar.Memory
import Mathlib.Data.List.MinMax
import Mathlib.Data.Prod.Lex
import Mathlib.Tactic.NormNum

namespace SpaceportBazaar

def minSafetyTicks : Nat := 3
def maxSafetyTicks : Nat := 10
def lowHealthExtraTicks : Nat := 2
def productionVarianceExtraTicks : Nat := 1
def watchStock : Nat := 20
def criticalStock : Nat := 10
def productionNormalTicks : Nat := 25
def productionStopTicks : Nat := 10
def storageThreshold : Nat := 32
def maxReserveUnits : Nat := 15
def balanceGap : Nat := 10
def importCeilingFloor : Nat := 2 * watchStock
def endGameTicks : Nat := 10
def stockCap : Nat := 100

inductive Urgency
  | none | watch | critical
  deriving DecidableEq, Repr

def Urgency.level : Urgency → Nat
  | .none => 0
  | .watch => 1
  | .critical => 2

def safetyTicks (resource : Resource) (rules : Rules) (station : StationObservation)
    (memory : PolicyMemory) : Nat :=
  let base := match memory.medianRoundTrip with
    | some observed => max minSafetyTicks (observed + 1)
    | none => minSafetyTicks
  let base := if station.health < rules.maxHealth / 2 then base + lowHealthExtraTicks else base
  let dipped := resource = station.specialty ∧
    ∃ lowest ∈ memory.minRecentProduction, lowest < station.upkeepPerTick.get resource
  min (if dipped then base + productionVarianceExtraTicks else base) maxSafetyTicks

/-- The upkeep buffer, before any stored stock. -/
def upkeepBuffer (rules : Rules) (station : StationObservation) (memory : PolicyMemory)
    (resource : Resource) : Nat :=
  min maxReserveUnits (station.upkeepPerTick.get resource *
    safetyTicks resource rules station memory)

/-- Excess above the threshold is banked, without counting stored stock again. -/
def savedStock (base stored stock : Nat) : Int :=
  let saved : Int := min (min stored stock) (maxReserveUnits - base)
  let excess : Int := max 0 (stock - saved - storageThreshold)
  min (maxReserveUnits - base) (saved + excess)

def computeReserve (rules : Rules) (station : StationObservation) (memory : PolicyMemory)
    (available : Bundle) :
    Except Raised (Bundle × PolicyMemory) := do
  let base := upkeepBuffer rules station memory
  let saved := fun r => savedStock (base r) (memory.storedReserve.get r) (available.get r)
  let stored ← Bundle.make saved
  let reserve ← Bundle.make (fun r => base r + saved r)
  return (reserve, { memory with storedReserve := stored })

def computeUrgency (available upkeep reserve : Bundle) (resource : Resource) : Urgency :=
  if available.get resource < max criticalStock (upkeep.get resource) then .critical
  else if available.get resource < max watchStock (reserve.get resource) then .watch
  else .none

def surplusAboveReserve (available reserve : Bundle) : Bundle := available.saturatingSub reserve

def deficitBelowReserve (available reserve : Bundle) : Bundle := reserve.saturatingSub available

def inEndGame : Option Nat → Bool
  | some ticksLeft => ticksLeft ≤ endGameTicks
  | none => false

/-- The normal floor of specialty stock, or what upkeep remains at the end. -/
def specialtyFloor (station : StationObservation) (ticksLeft : Option Nat := none) : Nat :=
  let upkeep := station.upkeepPerTick.get station.specialty
  match ticksLeft with
  | some left => if inEndGame ticksLeft then min productionNormalTicks (left + 1) * upkeep
    else productionNormalTicks * upkeep
  | none => productionNormalTicks * upkeep

/-- Caps payments by uncommitted ticks of our produced resource's upkeep. -/
def productionPaymentLimit (available : Bundle) (station : StationObservation)
    (ticksLeft : Option Nat) : Option ℚ :=
  let upkeep := station.upkeepPerTick.get station.specialty
  let stock := available.get station.specialty
  if inEndGame ticksLeft then
    if stock < specialtyFloor station ticksLeft then some 0 else none
  else if stock < productionStopTicks * upkeep then some 0
  else if stock < productionNormalTicks * upkeep then some (1 / 2)
  else none

def imports (specialty : Option Resource) : List Resource :=
  Resource.all.filter (fun r => some r ≠ specialty)

/-- A little ahead of the scarcest other import. -/
def importCeiling (resource : Resource) (available : Bundle)
    (specialty : Option Resource) : Option Nat :=
  let others := ((imports specialty).filter (· ≠ resource)).map available.get
  if some resource = specialty then none
  else others.min?.map (fun scarcest => max importCeilingFloor (scarcest + balanceGap))

def overCeiling (resource : Resource) (available : Bundle) (specialty : Option Resource) : Bool :=
  match importCeiling resource available specialty with
  | some ceiling => ceiling < available.get resource
  | none => false

def scarcestImport (available : Bundle) (specialty : Option Resource) : Option Resource :=
  (imports specialty).argmin (fun r => toLex (available.get r, r.value))

def excessOverCap (available : Bundle) : Except Raised Bundle :=
  Bundle.make (fun r => max 0 (available.get r - stockCap))

/-- All resources must be strictly above 30 uncommitted units. -/
def comfortablySupplied (available : Bundle) : Bool :=
  Resource.all.all (fun r => 30 < available.get r)

theorem upkeepBuffer_le (rules : Rules) (station : StationObservation) (memory : PolicyMemory)
    (r : Resource) :
    upkeepBuffer rules station memory r ≤ maxReserveUnits := Nat.min_le_left _ _

theorem savedStock_bounds {base : Nat} (h : base ≤ maxReserveUnits) (stored stock : Nat) :
    0 ≤ savedStock base stored stock ∧ base + savedStock base stored stock ≤ maxReserveUnits := by
  simp only [savedStock]
  omega

/-- `compute_reserve` never raises; the reserve is the buffer and what is stored over it. -/
theorem computeReserve_spec (rules : Rules) (station : StationObservation) (memory : PolicyMemory)
    (available : Bundle) : ∃ reserve stored : Bundle,
    computeReserve rules station memory available =
      .ok (reserve, { memory with storedReserve := stored }) ∧
      ∀ r, (stored.get r : Int) =
          savedStock (upkeepBuffer rules station memory r)
            (memory.storedReserve.get r) (available.get r) ∧
        reserve.get r = upkeepBuffer rules station memory r + stored.get r ∧
        reserve.get r ≤ maxReserveUnits := by
  have bounds := fun r => savedStock_bounds (upkeepBuffer_le rules station memory r)
    (memory.storedReserve.get r) (available.get r)
  let saved :=
    fun r => savedStock (upkeepBuffer rules station memory r) (memory.storedReserve.get r)
    (available.get r)
  have hstored : Bundle.make saved = .ok (Bundle.ofFn fun r => (saved r).toNat) :=
    Bundle.make_ok fun r => (Int.toNat_of_nonneg (bounds r).1).symm
  have hreserve : Bundle.make (fun r => upkeepBuffer rules station memory r + saved r) =
      .ok (Bundle.ofFn fun r => upkeepBuffer rules station memory r + (saved r).toNat) :=
    Bundle.make_ok fun r => by
      have := (bounds r).1
      simp only [saved]
      omega
  refine ⟨Bundle.ofFn fun r => upkeepBuffer rules station memory r + (saved r).toNat,
    Bundle.ofFn fun r => (saved r).toNat, ?_, fun r => ?_⟩
  · show (Bundle.make saved >>= _) = _
    rw [hstored]
    show (Bundle.make (fun r => upkeepBuffer rules station memory r + saved r) >>= _) = _
    rw [hreserve]
    rfl
  · have := bounds r
    simp only [Bundle.get_ofFn, saved]
    exact ⟨Int.toNat_of_nonneg this.1, trivial, by omega⟩

theorem importCeilingFloor_le {r : Resource} {available : Bundle} {specialty : Option Resource}
    {ceiling : Nat} (h : importCeiling r available specialty = some ceiling) :
    importCeilingFloor ≤ ceiling := by
  unfold importCeiling at h
  simp only at h
  split_ifs at h
  obtain ⟨scarcest, _, rfl⟩ := Option.map_eq_some_iff.mp h
  exact le_max_left _ _

theorem inEndGame_iff {left : Nat} : inEndGame (some left) = true ↔ left ≤ 10 :=
  decide_eq_true_iff

theorem inEndGame_eq_false_iff {left : Nat} : inEndGame (some left) = false ↔ 10 < left := by
  rw [← Bool.not_eq_true, inEndGame_iff, not_le]

section PaymentLimit

variable {available : Bundle} {station : StationObservation} {ticksLeft : Option Nat}

theorem specialtyFloor_before_end (h : inEndGame ticksLeft = false) :
    specialtyFloor station ticksLeft =
    productionNormalTicks * station.upkeepPerTick.get station.specialty := by
  cases ticksLeft with
  | none => rfl
  | some left => simp [specialtyFloor, h]

theorem productionPaymentLimit_eq_none_iff :
    productionPaymentLimit available station ticksLeft = none ↔
    specialtyFloor station ticksLeft ≤ available.get station.specialty := by
  unfold productionPaymentLimit
  by_cases hend : inEndGame ticksLeft = true
  · simp [hend]
  · have hfloor := @specialtyFloor_before_end station ticksLeft (by simpa using hend)
    have hstop : productionStopTicks * station.upkeepPerTick.get station.specialty ≤
        productionNormalTicks * station.upkeepPerTick.get station.specialty :=
      Nat.mul_le_mul_right _ (by decide)
    simp only [hend, hfloor]
    split_ifs <;> simp <;> omega

theorem productionPaymentLimit_cases (available : Bundle) (station : StationObservation)
    (ticksLeft : Option Nat) :
    productionPaymentLimit available station ticksLeft = none ∨
      productionPaymentLimit available station ticksLeft = some 0 ∨
      productionPaymentLimit available station ticksLeft = some (1 / 2) := by
  unfold productionPaymentLimit
  simp only
  split_ifs <;> simp

theorem productionPaymentLimit_ne_zero (h : inEndGame ticksLeft = false)
    (stock : productionStopTicks * station.upkeepPerTick.get station.specialty ≤
      available.get station.specialty) :
    productionPaymentLimit available station ticksLeft ≠ some 0 := by
  unfold productionPaymentLimit
  simp only [h, Bool.false_eq_true, if_false, if_neg (not_lt.mpr stock)]
  split
  · exact fun hzero => absurd (Option.some.inj hzero) (by norm_num)
  · simp

theorem productionPaymentLimit_eq_zero (h : inEndGame ticksLeft = false) (stock : available.get
      station.specialty < productionStopTicks * station.upkeepPerTick.get station.specialty) :
    productionPaymentLimit available station ticksLeft = some 0 := by
  unfold productionPaymentLimit
  simp only [h, Bool.false_eq_true, if_false, if_pos stock]

/-- Half price is asked for between the two floors, before the last ticks. -/
theorem productionPaymentLimit_half
    (h : productionPaymentLimit available station ticksLeft = some (1 / 2)) :
    inEndGame ticksLeft = false ∧
      productionStopTicks * station.upkeepPerTick.get station.specialty ≤
        available.get station.specialty := by
  have hzero : (some 0 : Option ℚ) ≠ some (1 / 2) :=
    fun h => absurd (Option.some.inj h) (by norm_num)
  unfold productionPaymentLimit at h
  simp only at h
  split_ifs at h with hend hfloor hstop hnormal
  · exact absurd h hzero
  · exact absurd h hzero
  · exact ⟨by simpa using hend, by omega⟩

end PaymentLimit

end SpaceportBazaar
