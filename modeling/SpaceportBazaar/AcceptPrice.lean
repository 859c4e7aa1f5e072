import SpaceportBazaar.DecideBalance
import Mathlib.Tactic.Positivity

namespace SpaceportBazaar

section Bundles

variable {a b : Bundle}

theorem Bundle.total_eq (b : Bundle) :
    b.total = b.get .water + (b.get .food + b.get .components) := by
  simp [Bundle.total, Resource.all]

theorem Bundle.total_le (h : a ≤ b) : a.total ≤ b.total := by
  have hwater := h .water
  have hfood := h .food
  have hcomponents := h .components
  rw [Bundle.total_eq, Bundle.total_eq]
  omega

theorem Bundle.total_eq_get_iff {s : Resource} : b.total = b.get s ↔ ∀ r, r ≠ s → b.get r = 0 := by
  rw [Bundle.total_eq]
  constructor
  · intro h r hr
    cases s <;> cases r <;> first | exact absurd rfl hr | omega
  · intro h
    have hwater := h .water
    have hfood := h .food
    have hcomponents := h .components
    cases s <;> simp at hwater hfood hcomponents <;> omega

/-- A term of a weighted value: a quantity at a price for one unit. -/
def worth (quantity : Nat) (price : ℚ) : ℚ := Binary64.mul (Binary64.ofNat quantity) price

section Worth

variable {quantity quantity' : Nat} {price price' : ℚ}

theorem worth_isDouble (quantity : Nat) (price : ℚ) : Binary64.IsDouble (worth quantity price) :=
  Binary64.round_isDouble _

theorem ofNat_nonneg (quantity : Nat) : 0 ≤ Binary64.ofNat quantity :=
  Binary64.round_nonneg (Nat.cast_nonneg _)

theorem worth_nonneg (h : 0 ≤ price) : 0 ≤ worth quantity price :=
  Binary64.round_nonneg (mul_nonneg (ofNat_nonneg quantity) h)

@[simp] theorem worth_zero (price : ℚ) : worth 0 price = 0 := by
  simp [worth, Binary64.mul, Binary64.ofNat]

theorem worth_mono (h : 0 ≤ price) (le : quantity ≤ quantity') (dear : price ≤ price') :
    worth quantity price ≤ worth quantity' price' := by
  have hquantity := Binary64.round_mono (Nat.cast_nonneg quantity) (Nat.cast_le (α := ℚ).mpr le)
  exact Binary64.round_mono (mul_nonneg (ofNat_nonneg quantity) h)
    (mul_le_mul hquantity dear h (ofNat_nonneg quantity'))

/-- At a price of one or more, hardly anything of a quantity is lost to rounding. -/
theorem quantity_le_worth (h : 1 ≤ price) : 3 / 4 * (quantity : ℚ) ≤ worth quantity price :=
  (Binary64.le_round_of_nonneg (Nat.cast_nonneg quantity)).trans
    (Binary64.le_round (Binary64.round_isDouble _)
    (ofNat_nonneg quantity) (le_mul_of_one_le_right (ofNat_nonneg quantity) h))

end Worth

theorem weightedValue_eq (b : Bundle) (weights : Resource → ℚ) : weightedValue b weights =
    Binary64.sum [worth b.water (weights .water), worth b.food (weights .food),
      worth b.components (weights .components)] :=
  rfl

theorem one_le_needWeights (urgency : Resource → Urgency) (r : Resource) :
    1 ≤ needWeights urgency r := by
  have hone : Binary64.IsDouble 1 := ⟨1, 0, by norm_num, by norm_num⟩
  have hwatch : 0 ≤ weightWatch := Binary64.round_nonneg (by norm_num)
  unfold needWeights
  split
  · exact Binary64.le_round hone zero_le_one (by norm_num [weightCritical])
  · exact Binary64.le_round hone zero_le_one (by linarith)
  · exact le_rfl

theorem needWeights_nonneg (urgency : Resource → Urgency) (r : Resource) :
    0 ≤ needWeights urgency r :=
  zero_le_one.trans (one_le_needWeights urgency r)

/-- A bundle without one of the resources has its value rounded once. -/
theorem weightedValue_without {t : Resource} (without : b.get t = 0) {weights : Resource → ℚ}
    (hw : ∀ r, 0 ≤ weights r) :
    weightedValue b weights = Binary64.round (worth (b.get .water) (weights .water) +
      (worth (b.get .food) (weights .food) + worth (b.get .components) (weights .components))) := by
  have hsum (r r' : Resource) :=
    Binary64.sum_with_zero (@worth_nonneg (b.get r) _ (hw r)) (@worth_nonneg (b.get r') _ (hw r'))
    (worth_isDouble _ _) (worth_isDouble _ _)
  rw [weightedValue_eq]
  cases t with
  | water =>
    rw [without, worth_zero, zero_add, ← (hsum .food .components).1,
      ← worth_zero (weights .water), ← without]
    rfl
  | food =>
    rw [without, worth_zero, zero_add, ← (hsum .water .components).2.1,
      ← worth_zero (weights .food), ← without]
    rfl
  | components =>
    rw [without, worth_zero, add_zero, ← (hsum .water .food).2.2,
      ← worth_zero (weights .components), ← without]
    rfl

theorem weightedValue_mono {t : Resource} (h : a ≤ b) (without : b.get t = 0)
    {weights : Resource → ℚ} (hw : ∀ r, 0 ≤ weights r) :
    weightedValue a weights ≤ weightedValue b weights := by
  have hterm (r : Resource) := worth_mono (hw r) (h r) (le_refl (weights r))
  have hnonneg (r : Resource) := @worth_nonneg (a.get r) _ (hw r)
  have hwithout : a.get t = 0 := by
    have := h t
    omega
  rw [weightedValue_without hwithout hw, weightedValue_without without hw]
  refine Binary64.round_mono ?_ ?_
  · linarith [hnonneg .water, hnonneg .food, hnonneg .components]
  · linarith [hterm .water, hterm .food, hterm .components]

theorem weightedValue_pos {t : Resource} (h : b ≠ 0) (without : b.get t = 0)
    (urgency : Resource → Urgency) :
    0 < weightedValue b (needWeights urgency) := by
  have hpos : 0 < b.total := Nat.pos_of_ne_zero (fun hzero => h (Bundle.total_eq_zero_iff.mp hzero))
  have hpos : (0 : ℚ) < b.total := by exact_mod_cast hpos
  have hterm (r : Resource) := @quantity_le_worth (b.get r) _ (one_le_needWeights urgency r)
  rw [Bundle.total_eq] at hpos
  push_cast at hpos
  rw [weightedValue_without without (needWeights_nonneg urgency)]
  refine Binary64.round_pos ?_
  linarith [hterm .water, hterm .food, hterm .components]

@[simp] theorem weightedValue_zero (weights : Resource → ℚ) : weightedValue 0 weights = 0 := by
  have hzero : ∀ r, (0 : Bundle).get r = 0 := fun r => Bundle.get_zero' r
  have hsum := (Binary64.sum_with_zero le_rfl le_rfl ⟨0, 0, by norm_num, by norm_num⟩
    ⟨0, 0, by norm_num, by norm_num⟩).1
  rw [weightedValue]
  simp only [Resource.all, List.map_cons, List.map_nil, hzero]
  rw [show Binary64.ofNat 0 = 0 from Binary64.round_zero]
  simp only [Binary64.mul, zero_mul, Binary64.round_zero]
  simpa using hsum

theorem paysWithSpecialty_of_le {specialty : Option Resource} (le : a ≤ b)
    (h : paysWithSpecialty specialty b = true) : paysWithSpecialty specialty a = true := by
  cases specialty with
  | none => simp [paysWithSpecialty] at h
  | some s =>
    simp only [paysWithSpecialty, decide_eq_true_eq, Bundle.total_eq_get_iff] at h ⊢
    intro r hr
    have := le r
    have := h r hr
    omega

end Bundles

section Limit

variable {available available' : Bundle} {station : StationObservation} {ticksLeft : Option Nat}

theorem productionPaymentLimit_none_of_le (le : available ≤ available')
    (h : productionPaymentLimit available station ticksLeft = none) :
    productionPaymentLimit available' station ticksLeft = none := by
  rw [productionPaymentLimit_eq_none_iff] at h ⊢
  exact h.trans (le _)

theorem productionPaymentLimit_eq_zero_iff :
    productionPaymentLimit available station ticksLeft = some 0 ↔
    available.get station.specialty < if inEndGame ticksLeft then specialtyFloor station ticksLeft
      else productionStopTicks * station.upkeepPerTick.get station.specialty := by
  unfold productionPaymentLimit
  simp only
  split_ifs with _ hstock hstock <;> simp [hstock]

theorem productionPaymentLimit_ne_zero_of_le (le : available ≤ available')
    (h : productionPaymentLimit available station ticksLeft ≠ some 0) :
    productionPaymentLimit available' station ticksLeft ≠ some 0 := by
  rw [Ne, productionPaymentLimit_eq_zero_iff, not_lt] at h ⊢
  exact h.trans (le _)

end Limit

/-- How an offer is valued: as a gift, within a payment limit, as production buying
imports, or by what is needed. -/
inductive Valuation
  | gift | guarded | conversion | barter
  deriving DecidableEq, Repr

def valuationOf (cost : Bundle) (specialty : Option Resource)
    (maxPaymentRatio : Option ℚ) : Valuation :=
  if cost.isZero then .gift
  else if maxPaymentRatio.isSome then .guarded
  else if paysWithSpecialty specialty cost then .conversion
  else .barter

/-- The tests a paid offer passes before it is valued. -/
structure Passes (cost gain available reserve : Bundle) (specialty : Option Resource)
    (endGame : Bool) : Prop where
  supplied : wellSuppliedRefusal cost gain available specialty endGame = none
  behind : aheadOnImports gain available specialty = false
  covered : cost ≤ available
  kept : ∀ r, min (available.get r) (reserve.get r) ≤ available.get r - cost.get r + gain.get r

section Passes

variable {cost cost' gain available reserve : Bundle} {urgency : Resource → Urgency}
  {specialty : Option Resource} {maxPaymentRatio : Option ℚ} {endGame : Bool}

theorem wellSuppliedRefusal_of_le (le : cost' ≤ cost)
    (h : wellSuppliedRefusal cost gain available specialty endGame = none) :
    wellSuppliedRefusal cost' gain available specialty endGame = none := by
  cases specialty with
  | none => rfl
  | some s =>
    simp only [wellSuppliedRefusal] at h ⊢
    have htotal := Bundle.total_le le
    by_cases hcomfort : comfortablySupplied available = true
    · by_cases hown : 0 < gain.get s
      · simp [hcomfort, hown] at h
      · simp only [hcomfort, hown, Bool.not_true, Bool.false_eq_true, if_false] at h ⊢
        rw [if_neg]
        intro hrefuse
        simp only [Bool.and_eq_true, decide_eq_true_eq, Bool.not_eq_true',
          Bool.and_eq_false_iff] at hrefuse
        rw [if_pos] at h
        · simp at h
        · simp only [Bool.and_eq_true, decide_eq_true_eq, Bool.not_eq_true', Bool.and_eq_false_iff]
          refine ⟨hrefuse.1.trans htotal, hrefuse.2.imp_right fun hmixed => ?_⟩
          by_contra hpays
          rw [paysWithSpecialty_of_le le (by simpa using hpays)] at hmixed
          simp at hmixed
    · simp [hcomfort]

theorem supplied_of_accept (h :
      (judge cost gain available reserve urgency specialty maxPaymentRatio endGame).accept = true) :
    wellSuppliedRefusal cost gain available specialty endGame = none := by
  unfold judge at h
  simp only at h
  split at h
  next => simp at h
  next hnone => exact hnone

theorem passes_of_accept (paid : cost ≠ 0) (h :
      (judge cost gain available reserve urgency specialty maxPaymentRatio endGame).accept = true) :
    Passes cost gain available reserve specialty endGame := by
  obtain hfree | ⟨hcovered, _, hkept⟩ := judge_accept h
  · exact absurd hfree paid
  refine ⟨supplied_of_accept h, ?_, hcovered, hkept⟩
  by_contra hahead
  unfold judge at h
  simp only [supplied_of_accept h, if_neg (mt Bundle.isZero_iff.mp paid),
    Bool.not_eq_false _ ▸ hahead] at h
  simp at h

theorem Passes.of_le (h : Passes cost gain available reserve specialty endGame)
    (le : cost' ≤ cost) :
    Passes cost' gain available reserve specialty endGame where
  supplied := wellSuppliedRefusal_of_le le h.supplied
  behind := h.behind
  covered := fun r => (le r).trans (h.covered r)
  kept := by
    intro r
    have := h.kept r
    have := le r
    omega

end Passes

section Values

variable {cost cost' gain available reserve : Bundle} {urgency : Resource → Urgency}
  {specialty : Option Resource} {endGame : Bool}

theorem judge_gift (h : wellSuppliedRefusal 0 gain available specialty endGame = none)
    (maxPaymentRatio : Option ℚ) :
    judge 0 gain available reserve urgency specialty maxPaymentRatio endGame = ⟨true, "gift"⟩ := by
  unfold judge
  simp only [h, Bundle.isZero_iff.mpr rfl, if_true]

theorem Passes.kept_any (h : Passes cost gain available reserve specialty endGame) :
    Resource.all.any (fun r => (available.saturatingSub cost + gain).get r <
      min (available.get r) (reserve.get r)) = false := by
  simp only [List.any_eq_false, decide_eq_true_eq, not_lt, Bundle.get_add, Bundle.get_saturatingSub]
  exact fun r _ => h.kept r

theorem judge_limited (h : Passes cost gain available reserve specialty endGame) (paid : cost ≠ 0)
    (ratio : ℚ) :
    judge cost gain available reserve urgency specialty (some ratio) endGame =
      if ratio ≤ 0 ∨ gain.total * ratio < cost.total then
  ⟨false, "production supply guard prevents paid trade"⟩
      else if ∃ r, 0 < cost.get r ∧ available.get r - cost.get r + gain.get r < reserve.get r then
        ⟨false, "would breach reserve"⟩
      else ⟨true, "favourable trade within production supply guard"⟩ := by
  have hbreach : Resource.all.any (fun r => 0 < cost.get r &&
      (available.saturatingSub cost + gain).get r < reserve.get r) = true ↔
      ∃ r, 0 < cost.get r ∧ available.get r - cost.get r + gain.get r < reserve.get r := by
    simp [List.any_eq_true]
  unfold judge
  simp only [h.supplied, if_neg (mt Bundle.isZero_iff.mp paid), h.behind,
    Bundle.dominates_iff.mpr h.covered, h.kept_any, Bool.not_true, Bool.false_eq_true, if_false]
  simp only [hbreach]

theorem judge_guarded (h : Passes cost gain available reserve specialty endGame) (paid : cost ≠ 0)
    {ratio : ℚ} (positive : 0 < ratio) :
    (judge cost gain available reserve urgency specialty (some ratio) endGame).accept = true ↔
      (cost.total : ℚ) ≤ gain.total * ratio ∧
        ∀ r, 0 < cost.get r → reserve.get r ≤ available.get r - cost.get r + gain.get r := by
  rw [judge_limited h paid]
  split_ifs with hprice hbreach
  · have := hprice.resolve_left (not_le.mpr positive)
    simp [not_le.mpr this]
  · obtain ⟨r, hpays, hless⟩ := hbreach
    simp only [false_iff, not_and]
    exact fun _ hall => absurd (hall r hpays) (by omega)
  · push Not at hprice hbreach
    simp only [true_iff]
    exact ⟨hprice.2, hbreach⟩

theorem judge_conversion {s : Resource} (h : Passes cost gain available reserve (some s) endGame)
    (paid : cost ≠ 0) (pays : paysWithSpecialty (some s) cost = true) :
    judge cost gain available reserve urgency (some s) none endGame =
      if available.get s < reserve.get s + (cost.get s - gain.get s) then
  ⟨false, "would breach production reserve"⟩
      else if (cost.get s - gain.get s : Nat) ≤ conversionValue gain available urgency s endGame ∧
        0 < conversionValue gain available urgency s endGame then
        ⟨true, "converts production into imports at an acceptable price"⟩
      else ⟨false, "price exceeds import stock tier"⟩ := by
  unfold judge
  simp only [h.supplied, if_neg (mt Bundle.isZero_iff.mp paid), h.behind, Bundle.dominates_iff.mpr
    h.covered, h.kept_any, Bool.not_true, Bool.false_eq_true, if_false, pays, if_true]
  rfl

/-- What an import is worth to us, by the unit. -/
def tierPrice (available : Bundle) (urgency : Resource → Urgency) (endGame : Bool)
    (r : Resource) : ℚ :=
  max (if endGame then endGameRatio else 0)
    (Binary64.round (premiumFor (urgency r) (some (available.get r))))

theorem one_le_tierPrice (r : Resource) : 1 ≤ tierPrice available urgency endGame r :=
  le_max_of_le_right (Binary64.le_round ⟨1, 0, by norm_num, by norm_num⟩ zero_le_one
    (one_le_premiumFor _ _))

/-- The two imports are valued in one sum. -/
theorem conversionValue_eq (gain available : Bundle) (urgency : Resource → Urgency) (s : Resource)
    (endGame : Bool) :
    conversionValue gain available urgency s endGame =
      Binary64.round (((imports (some s)).map fun r =>
      worth (gain.get r) (tierPrice available urgency endGame r)).sum) := by
  have hsum (r r' : Resource) := Binary64.sum_pair
    (@worth_nonneg (gain.get r) _
      (zero_le_one.trans (@one_le_tierPrice available urgency endGame r)))
    (@worth_nonneg (gain.get r') _
      (zero_le_one.trans (@one_le_tierPrice available urgency endGame r')))
    (worth_isDouble _ _) (worth_isDouble _ _)
  have hshape : conversionValue gain available urgency s endGame =
      Binary64.sum ((imports (some s)).map fun r =>
      worth (gain.get r) (tierPrice available urgency endGame r)) := rfl
  rw [hshape]
  cases s with
  | water => simpa [imports, Resource.all] using hsum .food .components
  | food => simpa [imports, Resource.all] using hsum .water .components
  | components => simpa [imports, Resource.all] using hsum .water .food

/-- At no price tier is an import worth less than half a unit of production. -/
theorem total_le_conversionValue {s : Resource} (h : gain.get s = 0) :
    (gain.total : ℚ) / 2 ≤ conversionValue gain available urgency s endGame := by
  have hterm (r : Resource) :=
    @quantity_le_worth (gain.get r) _ (@one_le_tierPrice available urgency endGame r)
  have hnonneg (r : Resource) : (0 : ℚ) ≤ gain.get r := Nat.cast_nonneg _
  rw [conversionValue_eq, Bundle.total_eq]
  have hsum : 3 / 4 * ((gain.get .water : ℚ) + (gain.get .food + gain.get .components)) ≤
      ((imports (some s)).map fun r =>
      worth (gain.get r) (tierPrice available urgency endGame r)).sum := by
    cases s <;> simp only [h, Nat.cast_zero] <;> simp [imports, Resource.all] <;>
      linarith [hterm .water, hterm .food, hterm .components]
  have hround := Binary64.le_round_of_nonneg
    (le_trans (by linarith [hnonneg .water, hnonneg .food, hnonneg .components]) hsum)
  push_cast
  linarith [hnonneg .water, hnonneg .food, hnonneg .components]

theorem judge_barter (h : Passes cost gain available reserve specialty endGame) (paid : cost ≠ 0)
    (mixed : paysWithSpecialty specialty cost = false) :
    judge cost gain available reserve urgency specialty none endGame =
      judgeBarter cost gain available reserve urgency := by
  unfold judge
  simp only [h.supplied, if_neg (mt Bundle.isZero_iff.mp paid), h.behind,
    Bundle.dominates_iff.mpr h.covered, h.kept_any, Bool.not_true, Bool.false_eq_true, if_false]
  cases specialty <;> simp [mixed]

/-- What an offer must bring, weighted, for each weighted unit it costs. -/
def barterPrice (gain : Bundle) (urgency : Resource → Urgency) : ℚ :=
  if Resource.all.any (fun r => 0 < gain.get r && urgency r ≠ .none) then minAcceptRatio else 1

theorem minAcceptRatio_bounds : 0 < minAcceptRatio ∧ minAcceptRatio ≤ 1 :=
  ⟨Binary64.round_pos (by norm_num), Binary64.round_le ⟨1, 0, by norm_num, by norm_num⟩
    (by norm_num) (by norm_num)⟩

theorem barterPrice_pos : 0 < barterPrice gain urgency := by
  unfold barterPrice
  split
  · exact minAcceptRatio_bounds.1
  · exact zero_lt_one

/-- Barter is refused only for its price, once the tests have been passed. -/
theorem judgeBarter_cases (h : Passes cost gain available reserve specialty endGame) :
    (judgeBarter cost gain available reserve urgency).accept = true ∧
        barterPrice gain urgency ≤ barterRatio cost gain urgency ∨
      judgeBarter cost gain available reserve urgency =
          ⟨false, "price below threshold (" ++ twoDecimals (barterRatio cost gain urgency) ++ ")"⟩ ∧
        barterRatio cost gain urgency < barterPrice gain urgency := by
  have hbreach :
      Resource.all.any (fun r => (available.saturatingSub cost + gain).get r < reserve.get r &&
      reserve.get r < available.get r) = false := by
    simp only [List.any_eq_false, Bool.and_eq_true, decide_eq_true_eq, Bundle.get_add,
      Bundle.get_saturatingSub]
    intro r _
    have := h.kept r
    omega
  unfold judgeBarter barterPrice
  simp only [hbreach, Bool.false_and, Bool.false_eq_true, if_false]
  generalize Resource.all.any (fun r => 0 < gain.get r && urgency r ≠ .none) = fills
  cases fills with
  | true =>
    simp only [true_and, if_true]
    split_ifs with hneed hfair
    · exact Or.inl ⟨rfl, hneed⟩
    · exact absurd (minAcceptRatio_bounds.2.trans hfair) hneed
    · exact Or.inr ⟨rfl, not_le.mp hneed⟩
  | false =>
    simp only [Bool.false_eq_true, false_and, if_false]
    split_ifs with hfair
    · exact Or.inl ⟨rfl, hfair⟩
    · exact Or.inr ⟨rfl, not_le.mp hfair⟩

/-- Where no resource stands on both sides, a cheaper offer brings no less for its price. -/
theorem barterRatio_mono (le : cost' ≤ cost) (paid' : cost' ≠ 0)
    (apart : ∀ r, cost.get r = 0 ∨ gain.get r = 0) (positive : 0 < barterRatio cost gain urgency) :
    barterRatio cost gain urgency ≤ barterRatio cost' gain urgency := by
  have hgain : gain ≠ 0 := by
    rintro rfl
    simp [barterRatio, Binary64.div] at positive
  obtain ⟨t, ht⟩ : ∃ t, gain.get t ≠ 0 := by
    by_contra hnone
    push Not at hnone
    exact hgain (Bundle.ext_get fun r => (hnone r).trans (Bundle.get_zero' r).symm)
  obtain ⟨t', ht'⟩ : ∃ t', cost'.get t' ≠ 0 := by
    by_contra hnone
    push Not at hnone
    exact paid' (Bundle.ext_get fun r => (hnone r).trans (Bundle.get_zero' r).symm)
  have hwithout : cost.get t = 0 := (apart t).resolve_right ht
  have hwithout' : cost'.get t = 0 := by
    have := le t
    omega
  have hfree : gain.get t' = 0 := by
    have := le t'
    exact (apart t').resolve_left (by omega)
  have hvalue := weightedValue_mono le hwithout (needWeights_nonneg urgency)
  have hpos := weightedValue_pos paid' hwithout' urgency
  have hgained := weightedValue_pos hgain hfree urgency
  unfold barterRatio
  simp only [if_pos hpos.ne', if_pos (hpos.trans_le hvalue).ne']
  exact Binary64.round_mono (div_nonneg hgained.le (hpos.trans_le hvalue).le)
    (div_le_div_of_nonneg_left hgained.le hpos hvalue)

end Values

/-- The price that an offer newly judged by another valuation was refused for. -/
inductive Repriced (cost gain : Bundle) (urgency : Resource → Urgency) (verdict : AcceptDecision) :
    Valuation → Valuation → Prop
  | needed : verdict =
    ⟨false, "price below threshold (" ++ twoDecimals (barterRatio cost gain urgency) ++ ")"⟩ →
    Repriced cost gain urgency verdict .guarded .barter
  | converted : verdict = ⟨false, "price exceeds import stock tier"⟩ →
    Repriced cost gain urgency verdict .barter .conversion

section Cheaper

variable {cost cost' gain available reserve : Bundle} {urgency : Resource → Urgency}
  {specialty : Option Resource} {endGame : Bool} {station : StationObservation}
  {ticksLeft : Option Nat}

theorem saturatingSub_le (le : cost' ≤ cost) :
    available.saturatingSub cost ≤ available.saturatingSub cost' := by
  intro r
  have := le r
  simp only [Bundle.get_saturatingSub]
  omega

theorem valuationOf_some (paid : cost ≠ 0) (ratio : ℚ) :
    valuationOf cost specialty (some ratio) = .guarded := by
  simp [valuationOf, mt Bundle.isZero_iff.mp paid]

theorem valuationOf_none (paid : cost ≠ 0) : valuationOf cost specialty none =
    if paysWithSpecialty specialty cost then .conversion else .barter := by
  simp [valuationOf, mt Bundle.isZero_iff.mp paid]

theorem guarded_cheaper {ratio : ℚ} (positive : 0 < ratio) (le : cost' ≤ cost) (paid' : cost' ≠ 0)
    (h : Passes cost gain available reserve specialty endGame)
    (accept : (cost.total : ℚ) ≤ gain.total * ratio ∧
      ∀ r, 0 < cost.get r → reserve.get r ≤ available.get r - cost.get r + gain.get r) :
    (judge cost' gain available reserve urgency specialty (some ratio) endGame).accept = true := by
  rw [judge_guarded (h.of_le le) paid' positive]
  have htotal : (cost'.total : ℚ) ≤ cost.total := by exact_mod_cast Bundle.total_le le
  refine ⟨htotal.trans accept.1, fun r hr => ?_⟩
  have := le r
  have := accept.2 r (by omega)
  omega

/-- Paying with production alone leaves something of it, so the tests keep its reserve. -/
theorem Passes.production_kept
    {s : Resource} (h : Passes cost gain available reserve (some s) endGame) (paid : cost ≠ 0)
    (pays : paysWithSpecialty (some s) cost = true) (apart : cost.get s = 0 ∨ gain.get s = 0) :
    ¬available.get s < reserve.get s + (cost.get s - gain.get s) := by
  have hpays : cost.total = cost.get s := by simpa [paysWithSpecialty] using pays
  have hpos : cost.total ≠ 0 := fun hzero => paid (Bundle.total_eq_zero_iff.mp hzero)
  have := h.kept s
  have := h.covered s
  omega

theorem conversion_cheaper {s : Resource} (h : Passes cost' gain available reserve (some s) endGame)
    (paid' : cost' ≠ 0) (pays : paysWithSpecialty (some s) cost' = true)
    (apart : cost'.get s = 0 ∨ gain.get s = 0) (priced :
      ((cost'.get s - gain.get s : Nat) : ℚ) ≤ conversionValue gain available urgency s endGame)
    (positive : 0 < conversionValue gain available urgency s endGame) :
    (judge cost' gain available reserve urgency (some s) none endGame).accept = true := by
  rw [judge_conversion h paid' pays, if_neg (h.production_kept paid' pays apart),
    if_pos ⟨priced, positive⟩]

/-- Within the limit a price is at most half, which any import is worth as a conversion. -/
theorem guarded_converts {s : Resource} {ratio : ℚ} (half : ratio ≤ 1 / 2) (le : cost' ≤ cost)
    (paid' : cost' ≠ 0) (h : Passes cost gain available reserve (some s) endGame)
    (apart : ∀ r, cost.get r = 0 ∨ gain.get r = 0) (pays : paysWithSpecialty (some s) cost' = true)
    (within : (cost.total : ℚ) ≤ gain.total * ratio) :
    (judge cost' gain available reserve urgency (some s) none endGame).accept = true := by
  have hpays : cost'.total = cost'.get s := by simpa [paysWithSpecialty] using pays
  have htotal := Bundle.total_le le
  have hcost : 0 < cost'.total :=
    Nat.pos_of_ne_zero (fun hzero => paid' (Bundle.total_eq_zero_iff.mp hzero))
  have hgain : gain.get s = 0 := by
    have := le s
    have := apart s
    omega
  have hprice : (cost'.total : ℚ) ≤ gain.total / 2 := by
    have : (cost'.total : ℚ) ≤ cost.total := by exact_mod_cast htotal
    have : (0 : ℚ) ≤ gain.total := by positivity
    nlinarith
  have hworth := @total_le_conversionValue gain available urgency endGame s hgain
  have hpos : (0 : ℚ) < cost'.total := by exact_mod_cast hcost
  refine conversion_cheaper (h.of_le le) paid' pays (Or.inr hgain) ?_ (by linarith)
  rw [hgain, Nat.sub_zero, ← hpays]
  linarith

theorem barter_cheaper (le : cost' ≤ cost) (paid' : cost' ≠ 0)
    (h : Passes cost gain available reserve specialty endGame)
    (apart : ∀ r, cost.get r = 0 ∨ gain.get r = 0)
    (accept : barterPrice gain urgency ≤ barterRatio cost gain urgency) :
    (judgeBarter cost' gain available reserve urgency).accept = true := by
  obtain ⟨haccept, _⟩ | ⟨_, hdear⟩ :=
    @judgeBarter_cases cost' gain available reserve urgency specialty endGame (h.of_le le)
  · exact haccept
  · have hvalue := barterRatio_mono le paid' apart (barterPrice_pos.trans_le accept)
    exact absurd (accept.trans hvalue) (not_le.mpr hdear)

/-- From under the limit to no limit, only barter by need may find the lower price too high. -/
theorem released_cheaper {ratio : ℚ} (half : ratio ≤ 1 / 2) (le : cost' ≤ cost)
    (paid : cost ≠ 0) (paid' : cost' ≠ 0) (h : Passes cost gain available reserve specialty endGame)
    (apart : ∀ r, cost.get r = 0 ∨ gain.get r = 0)
    (within : (cost.total : ℚ) ≤ gain.total * ratio) :
    (judge cost' gain available reserve urgency specialty none endGame).accept = true ∨
      Repriced cost' gain urgency
        (judge cost' gain available reserve urgency specialty none endGame)
        (valuationOf cost specialty (some ratio)) (valuationOf cost' specialty none) := by
  rw [valuationOf_some paid, valuationOf_none paid']
  cases hpays : paysWithSpecialty specialty cost' with
  | true =>
    cases specialty with
    | none => simp [paysWithSpecialty] at hpays
    | some s => exact Or.inl (guarded_converts half le paid' h apart hpays within)
  | false =>
    rw [judge_barter (h.of_le le) paid' hpays]
    obtain ⟨haccept, _⟩ | ⟨hrefused, _⟩ :=
      @judgeBarter_cases cost' gain available reserve urgency specialty endGame (h.of_le le)
    · exact Or.inl haccept
    · exact Or.inr (Repriced.needed hrefused)

/-- Without a limit, only a conversion of production may find the lower price too high. -/
theorem unguarded_cheaper (le : cost' ≤ cost) (paid : cost ≠ 0) (paid' : cost' ≠ 0)
    (h : Passes cost gain available reserve specialty endGame)
    (apart : ∀ r, cost.get r = 0 ∨ gain.get r = 0)
    (accept : (judge cost gain available reserve urgency specialty none endGame).accept = true) :
    (judge cost' gain available reserve urgency specialty none endGame).accept = true ∨
      Repriced cost' gain urgency
        (judge cost' gain available reserve urgency specialty none endGame)
        (valuationOf cost specialty none) (valuationOf cost' specialty none) := by
  rw [valuationOf_none paid, valuationOf_none paid']
  cases hpays' : paysWithSpecialty specialty cost' with
  | true =>
    cases specialty with
    | none => simp [paysWithSpecialty] at hpays'
    | some s =>
      have apart' : cost'.get s = 0 ∨ gain.get s = 0 := by
        have := le s
        have := apart s
        omega
      cases hpays : paysWithSpecialty (some s) cost with
      | true =>
        rw [judge_conversion h paid hpays] at accept
        split_ifs at accept with _ hprice
        have hcost : ((cost'.get s - gain.get s : Nat) : ℚ) ≤ (cost.get s - gain.get s : Nat) := by
          exact_mod_cast Nat.sub_le_sub_right (le s) _
        exact Or.inl (conversion_cheaper (h.of_le le) paid' hpays' apart'
          (hcost.trans hprice.1) hprice.2)
      | false =>
        rw [judge_conversion (h.of_le le) paid' hpays',
          if_neg ((h.of_le le).production_kept paid' hpays' apart')]
        simp only [Bool.false_eq_true, if_false, if_true]
        split_ifs
        · exact Or.inl rfl
        · exact Or.inr (Repriced.converted rfl)
  | false =>
    have hpays : paysWithSpecialty specialty cost = false := by
      rw [← Bool.not_eq_true]
      intro hpays
      rw [paysWithSpecialty_of_le le hpays] at hpays'
      cases hpays'
    rw [judge_barter h paid hpays] at accept
    rw [judge_barter (h.of_le le) paid' hpays']
    obtain ⟨_, hprice⟩ | ⟨hrefused, _⟩ :=
      @judgeBarter_cases cost gain available reserve urgency specialty endGame h
    · exact Or.inl (barter_cheaper le paid' h apart hprice)
    · rw [hrefused] at accept
      cases accept

/-- An accepted offer stays accepted at a lower price, or that price brings it under
another valuation, and is refused there as too high. -/
theorem judge_cheaper (apart : ∀ r, cost.get r = 0 ∨ gain.get r = 0) (le : cost' ≤ cost)
    (accept : (judge cost gain available reserve urgency specialty
      (productionPaymentLimit (available.saturatingSub cost) station ticksLeft) endGame).accept =
        true) :
    (judge cost' gain available reserve urgency specialty
        (productionPaymentLimit (available.saturatingSub cost') station ticksLeft) endGame).accept =
          true ∨
      Repriced cost' gain urgency (judge cost' gain available reserve urgency specialty
        (productionPaymentLimit (available.saturatingSub cost') station ticksLeft) endGame)
        (valuationOf cost specialty
          (productionPaymentLimit (available.saturatingSub cost) station ticksLeft))
        (valuationOf cost' specialty
          (productionPaymentLimit (available.saturatingSub cost') station ticksLeft)) := by
  by_cases paid' : cost' = 0
  · subst paid'
    rw [judge_gift (wellSuppliedRefusal_of_le le (supplied_of_accept accept))]
    exact Or.inl rfl
  have paid : cost ≠ 0 := by
    rintro rfl
    refine paid' (Bundle.ext_get fun r => ?_)
    have := le r
    simp only [Bundle.get_zero'] at this ⊢
    omega
  have h := passes_of_accept paid accept
  have hrich : available.saturatingSub cost ≤ available.saturatingSub cost' := saturatingSub_le le
  obtain hlimit | hlimit | hlimit :=
    productionPaymentLimit_cases (available.saturatingSub cost) station ticksLeft
  · rw [productionPaymentLimit_none_of_le hrich hlimit, hlimit]
    rw [hlimit] at accept
    exact unguarded_cheaper le paid paid' h apart accept
  · rw [hlimit] at accept
    exact absurd (judge_accept_ratio accept paid).1 (lt_irrefl _)
  · have hnonzero :
        productionPaymentLimit (available.saturatingSub cost) station ticksLeft ≠ some 0 := by
      rw [hlimit]
      exact fun h => absurd (Option.some.inj h) (by norm_num)
    rw [hlimit] at accept ⊢
    obtain ⟨positive, within⟩ := judge_accept_ratio accept paid
    obtain hlimit' | hlimit' | hlimit' :=
      productionPaymentLimit_cases (available.saturatingSub cost') station ticksLeft
    · rw [hlimit']
      exact released_cheaper le_rfl le paid paid' h apart within
    · exact absurd hlimit' (productionPaymentLimit_ne_zero_of_le hrich hnonzero)
    · rw [hlimit']
      exact Or.inl (guarded_cheaper positive le paid' h ((judge_guarded h paid positive).mp accept))

end Cheaper

/-- Two offers that bring us the same, the second at no higher a price in anything. -/
theorem evaluateIncoming_cheaper {offer offer' : Offer} {stationId : String}
    {cost cost' gain : Bundle} (pays : offer.whatStationPays stationId = .ok cost)
    (receives : offer.whatStationReceives stationId = .ok gain)
    (pays' : offer'.whatStationPays stationId = .ok cost')
    (receives' : offer'.whatStationReceives stationId = .ok gain)
    (apart : ∀ r, cost.get r = 0 ∨ gain.get r = 0) (le : cost' ≤ cost) (available reserve : Bundle)
    (urgency : Resource → Urgency) (specialty : Option Resource) (station : StationObservation)
    (ticksLeft : Option Nat) (endGame : Bool) {verdict : AcceptDecision}
    (evaluated : evaluateIncoming offer stationId available reserve urgency specialty
      (productionPaymentLimit (available.saturatingSub cost) station ticksLeft) endGame =
        .ok verdict) (accepted : verdict.accept = true) :
    ∃ verdict', evaluateIncoming offer' stationId available reserve urgency specialty
        (productionPaymentLimit (available.saturatingSub cost') station ticksLeft) endGame =
          .ok verdict' ∧
      (verdict'.accept = true ∨ Repriced cost' gain urgency verdict'
        (valuationOf cost specialty
          (productionPaymentLimit (available.saturatingSub cost) station ticksLeft))
        (valuationOf cost' specialty
          (productionPaymentLimit (available.saturatingSub cost') station ticksLeft))) := by
  rw [evaluateIncoming_eq pays receives] at evaluated
  cases Except.ok.inj evaluated
  exact ⟨_, evaluateIncoming_eq pays' receives', judge_cheaper apart le accepted⟩

def priceAsked (available reserve cost gain : Bundle) : Except Raised AcceptDecision :=
  evaluateIncoming (marketOffer gain cost) "P01" available reserve
    (computeUrgency available (marketStation available).upkeepPerTick reserve) (some .water)
    (productionPaymentLimit (available.saturatingSub cost) (marketStation available) (some 50))
      (inEndGame (some 50))

/-- Five food with one water buy twelve components, within the limit; five food alone do not,
by need. Fifteen water with one food buy ten components, by need; fifteen water alone do not. -/
theorem cheaper_refused :
    (priceAsked ⟨25, 9, 30⟩ ⟨3, 3, 3⟩ ⟨1, 5, 0⟩ ⟨0, 0, 12⟩).toOption =
        some ⟨true, "favourable trade within production supply guard"⟩ ∧
      (priceAsked ⟨25, 9, 30⟩ ⟨3, 3, 3⟩ ⟨0, 5, 0⟩ ⟨0, 0, 12⟩).toOption =
        some ⟨false, "price below threshold (0.80)"⟩ ∧
      (priceAsked ⟨60, 30, 16⟩ ⟨15, 3, 3⟩ ⟨15, 1, 0⟩ ⟨0, 0, 10⟩).toOption =
        some ⟨true, "fills a need at an acceptable price"⟩ ∧
      (priceAsked ⟨60, 30, 16⟩ ⟨15, 3, 3⟩ ⟨15, 0, 0⟩ ⟨0, 0, 10⟩).toOption =
        some ⟨false, "price exceeds import stock tier"⟩ := by
  refine ⟨?_, ?_, ?_, ?_⟩ <;> decide +kernel

theorem evaluateIncoming_cheaper_market :
    ∃ verdict, priceAsked ⟨25, 9, 30⟩ ⟨3, 3, 3⟩ ⟨0, 5, 0⟩ ⟨0, 0, 12⟩ = .ok verdict ∧
      (verdict.accept = true ∨ Repriced ⟨0, 5, 0⟩ ⟨0, 0, 12⟩
        (computeUrgency ⟨25, 9, 30⟩ ⟨1, 1, 1⟩ ⟨3, 3, 3⟩) verdict .guarded .barter) := by
  have accepted : (priceAsked ⟨25, 9, 30⟩ ⟨3, 3, 3⟩ ⟨1, 5, 0⟩ ⟨0, 0, 12⟩).toOption =
      some ⟨true, "favourable trade within production supply guard"⟩ := by decide +kernel
  have lower : (⟨0, 5, 0⟩ : Bundle) ≤ ⟨1, 5, 0⟩ := Bundle.dominates_iff.mp rfl
  exact @evaluateIncoming_cheaper (marketOffer ⟨0, 0, 12⟩ ⟨1, 5, 0⟩)
      (marketOffer ⟨0, 0, 12⟩ ⟨0, 5, 0⟩) "P01" _ _ _
    rfl rfl rfl rfl (by decide) lower _ _ _ _ _ _ _ _ (toOption_eq_some_iff.mp accepted) rfl

end SpaceportBazaar
