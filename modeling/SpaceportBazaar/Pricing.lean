import SpaceportBazaar.Reserves
import Mathlib.Algebra.Order.Floor.Ring
import Mathlib.Data.Rat.Floor
import Mathlib.Tactic.Linarith
import Mathlib.Tactic.NormNum

namespace SpaceportBazaar

def baseRatio : ℚ := 1
def maxPremiumRatio : ℚ := 8
def maxTradeSize : Nat := 4
def maxBulkTradeSize : Nat := 12
def sparePerBulkUnit : Nat := 4
def endGameRatio : ℚ := 2

/-- Modest premiums early, then compound desperation below seven units. -/
def premiumFor (urgency : Urgency) (stock : Option Nat := none) : ℚ :=
  match stock with
  | none =>
    match urgency with
    | .none => baseRatio
    | .watch => 6 / 5
    | .critical => 2
  | some stock =>
    if 20 ≤ stock then baseRatio
    else if 15 ≤ stock then 6 / 5
    else if 10 ≤ stock then 3 / 2
    else if 7 ≤ stock then 2 + 1 / 4 * (9 - stock)
    else min (5 / 2 * (5 / 4) ^ (7 - stock)) maxPremiumRatio

/-- Largest lot worth asking for, given specialty stock above its floor. -/
def tradeSize (spareSpecialty : Int) : Int :=
  max maxTradeSize (min maxBulkTradeSize (spareSpecialty / sparePerBulkUnit))

def desiredQuantity (deficit : Int) (stock : Option Nat) (size : Int := maxTradeSize) : Int :=
  let cap : Int := if ∃ s ∈ stock, 15 ≤ s ∧ s < 20 then 5 else maxTradeSize
  let cap := if ∀ s ∈ stock, 20 ≤ s then max cap size else cap
  max 1 (min deficit cap)

/-- Rounds the stock-based price half-up, keeping the effective rate capped. -/
def pricedGiveQuantity (wantQty : Int) (urgency : Urgency) (stock : Option Nat) : Int :=
  let priced := ⌊wantQty * premiumFor urgency stock + 1 / 2⌋
  let capped := ⌊wantQty * maxPremiumRatio⌋
  max wantQty (min priced capped)

/-- The two bundles of an offer, from our side as the proposer. -/
def termsOf (giveResource want : Resource)
    (giveQty wantQty : Int) : Except Raised (Bundle × Bundle) := do
  let give ← Bundle.single giveResource giveQty
  let receive ← Bundle.single want wantQty
  return (give, receive)

def computeTerms (want : Resource) (wantQty : Int) (giveResource : Resource) (available : Bundle)
    (urgency : Urgency) (maxPaymentRatio : Option ℚ) (stock : Option Nat) (endGame : Bool) :
    Except Raised (Bundle × Bundle) :=
  let affordable : Int := available.get giveResource
  if want = giveResource then
    .error (.cannotAfford "cannot put the same resource on both sides of an offer")
  else if wantQty ≤ 0 then .error (.cannotAfford "nothing to ask for")
  else if affordable ≤ 0 then .error (.cannotAfford s!"no {giveResource.name} available to offer")
  else match maxPaymentRatio with
  | some ratio =>
    let giveQty := min affordable ⌊wantQty * ratio⌋
    if giveQty ≤ 0 then .error (.cannotAfford "production supply guard prevents paid trade")
    else termsOf giveResource want giveQty wantQty
  | none =>
    if endGame then
      let wantQty := max 1 (min wantQty ⌊affordable / endGameRatio⌋)
      let giveQty := min affordable ⌈wantQty * endGameRatio⌉
      termsOf giveResource want giveQty wantQty
    else
      let giveQty := pricedGiveQuantity wantQty urgency stock
      if affordable < giveQty then
        let wantQty := max 1 ⌊affordable / premiumFor urgency stock⌋
        let giveQty := min affordable (pricedGiveQuantity wantQty urgency stock)
        termsOf giveResource want giveQty wantQty
      else termsOf giveResource want giveQty wantQty

theorem one_le_premiumFor (urgency : Urgency) (stock : Option Nat) :
    1 ≤ premiumFor urgency stock := by
  cases stock with
  | none => cases urgency <;> norm_num [premiumFor, baseRatio]
  | some stock =>
    simp only [premiumFor]
    split_ifs with _ _ _ h
    · exact le_rfl
    · norm_num
    · norm_num
    · have : (stock : ℚ) ≤ 9 := by exact_mod_cast (show stock ≤ 9 by omega)
      linarith
    · have : (1 : ℚ) ≤ (5 / 4) ^ (7 - stock) := one_le_pow₀ (by norm_num)
      exact le_min (by linarith) (by norm_num [maxPremiumRatio])

theorem le_pricedGiveQuantity (wantQty : Int) (urgency : Urgency) (stock : Option Nat) :
    wantQty ≤ pricedGiveQuantity wantQty urgency stock := le_max_left _ _

theorem termsOf_eq_ok {giveResource want : Resource} {giveQty wantQty : Int} (hg : 0 ≤ giveQty)
    (hw : 0 ≤ wantQty) :
    termsOf giveResource want giveQty wantQty =
      .ok (.only giveResource giveQty.toNat, .only want wantQty.toNat) := by
  unfold termsOf
  rw [Bundle.single_eq_ok_iff.mpr ⟨hg, rfl⟩, Bundle.single_eq_ok_iff.mpr ⟨hw, rfl⟩]
  rfl

/-- Scaled down to what is affordable, a trade still pays at least one for one. -/
theorem scaled_quantity_le {affordable : Int} (h : 0 < affordable) (urgency : Urgency)
    (stock : Option Nat) :
    max 1 ⌊affordable / premiumFor urgency stock⌋ ≤ affordable := by
  have hp := one_le_premiumFor urgency stock
  have hfloor : ⌊affordable / premiumFor urgency stock⌋ ≤ affordable := by
    rw [Int.floor_le_iff]
    have hq : (0 : ℚ) < affordable := by exact_mod_cast h
    have : affordable / premiumFor urgency stock ≤ affordable := div_le_self hq.le hp
    linarith
  omega

/-- A price never exceeds eight units for one. -/
theorem pricedGiveQuantity_le {wantQty : Int} (h : 1 ≤ wantQty) (urgency : Urgency)
    (stock : Option Nat) :
    pricedGiveQuantity wantQty urgency stock ≤ 8 * wantQty := by
  have hcap : ⌊(wantQty : ℚ) * maxPremiumRatio⌋ = 8 * wantQty := by
    rw [show (wantQty : ℚ) * maxPremiumRatio =
        ((8 * wantQty : Int) : ℚ) by push_cast [maxPremiumRatio]; ring,
      Int.floor_intCast]
  unfold pricedGiveQuantity
  simp only [hcap]
  omega

/-- A trade is scaled down only, never up. -/
theorem scaled_quantity_le_want {affordable wantQty : Int} {urgency : Urgency} {stock : Option Nat}
    (h : 1 ≤ wantQty) (short : affordable < pricedGiveQuantity wantQty urgency stock) :
    max 1 ⌊affordable / premiumFor urgency stock⌋ ≤ wantQty := by
  have hp := one_le_premiumFor urgency stock
  have hpos : (0 : ℚ) < premiumFor urgency stock := by linarith
  refine max_le h (Int.floor_le_iff.mpr ?_)
  rw [div_lt_iff₀ hpos]
  unfold pricedGiveQuantity at short
  simp only at short
  by_cases hwant : affordable < wantQty
  · have hless : (affordable : ℚ) < wantQty := by exact_mod_cast hwant
    have hone : (1 : ℚ) ≤ wantQty := by exact_mod_cast h
    nlinarith
  · have hpriced : affordable + 1 ≤ ⌊wantQty * premiumFor urgency stock + 1 / 2⌋ := by omega
    have := (Int.le_floor.mp hpriced)
    push_cast at this
    nlinarith

section Terms

variable {want giveResource : Resource} {wantQty : Int} {available : Bundle} {urgency : Urgency}
  {maxPaymentRatio : Option ℚ} {stock : Option Nat} {endGame : Bool}

/-- What the terms of a priced offer keep to. -/
structure Terms (want giveResource : Resource) (wantQty : Int) (available : Bundle)
    (maxPaymentRatio : Option ℚ) (endGame : Bool) (give receive : Nat) : Prop where
  distinct : want ≠ giveResource
  positive : 1 ≤ give ∧ 1 ≤ receive
  covered : give ≤ available.get giveResource
  wanted : (receive : Int) ≤ wantQty
  normal : maxPaymentRatio = none → receive ≤ give ∧ give ≤ 8 * receive
  atEnd : maxPaymentRatio = none → endGame = true → give ≤ 2 * receive
  capped : ∀ ratio, maxPaymentRatio = some ratio → (give : ℚ) ≤ ratio * receive

theorem Terms.of_int {giveQty quantity : Int}
    (distinct : want ≠ giveResource) (positive : 1 ≤ giveQty ∧ 1 ≤ quantity)
    (covered : giveQty ≤ available.get giveResource) (wanted : quantity ≤ wantQty)
    (normal : maxPaymentRatio = none → quantity ≤ giveQty ∧ giveQty ≤ 8 * quantity)
    (atEnd : maxPaymentRatio = none → endGame = true → giveQty ≤ 2 * quantity)
    (capped : ∀ ratio, maxPaymentRatio = some ratio → (giveQty : ℚ) ≤ ratio * quantity) :
    ∃ give receive : Nat, termsOf giveResource want giveQty quantity =
        .ok (.only giveResource give, .only want receive) ∧
      Terms want giveResource wantQty available maxPaymentRatio endGame give receive := by
  obtain ⟨give, rfl⟩ := Int.eq_ofNat_of_zero_le (show 0 ≤ giveQty by omega)
  obtain ⟨receive, rfl⟩ := Int.eq_ofNat_of_zero_le (show 0 ≤ quantity by omega)
  refine ⟨give, receive, termsOf_eq_ok (by omega) (by omega), distinct,
    by omega, by omega, by omega, ?_, ?_, ?_⟩
  · intro h
    have := normal h
    omega
  · intro h hend
    have := atEnd h hend
    omega
  · intro ratio h
    simpa using capped ratio h

/-- A trade that is not refused for what it asks: two resources, and something of each. -/
structure Askable (want giveResource : Resource) (wantQty : Int) (available : Bundle) : Prop where
  distinct : want ≠ giveResource
  asked : 0 < wantQty
  stocked : 0 < available.get giveResource

theorem computeTerms_guards : (∃ reason,
      computeTerms want wantQty giveResource available urgency maxPaymentRatio stock endGame =
      .error (.cannotAfford reason)) ∨ Askable want giveResource wantQty available := by
  unfold computeTerms
  by_cases hne : want = giveResource
  · exact Or.inl ⟨_, if_pos hne⟩
  by_cases hqty : wantQty ≤ 0
  · exact Or.inl ⟨_, (if_neg hne).trans (if_pos hqty)⟩
  by_cases haff : (available.get giveResource : Int) ≤ 0
  · exact Or.inl ⟨_, (if_neg hne).trans ((if_neg hqty).trans (if_pos haff))⟩
  exact Or.inr ⟨hne, by omega, by omega⟩

theorem computeTerms_capped (h : Askable want giveResource wantQty available) (ratio : ℚ) :
    computeTerms want wantQty giveResource available urgency (some ratio) stock endGame =
      if min (available.get giveResource : Int) ⌊wantQty * ratio⌋ ≤ 0 then
        .error (.cannotAfford "production supply guard prevents paid trade")
      else termsOf giveResource want
        (min (available.get giveResource : Int) ⌊wantQty * ratio⌋) wantQty := by
  simp only [computeTerms, if_neg h.distinct, if_neg (not_le.mpr h.asked), Int.natCast_nonpos_iff,
    if_neg h.stocked.ne']

theorem computeTerms_ending (h : Askable want giveResource wantQty available) :
    computeTerms want wantQty giveResource available urgency none stock true =
      let wantQty := max 1 (min wantQty ⌊(available.get giveResource : Int) / endGameRatio⌋)
      termsOf giveResource want
          (min (available.get giveResource : Int) ⌈wantQty * endGameRatio⌉) wantQty := by
  simp only [computeTerms, if_neg h.distinct, if_neg (not_le.mpr h.asked), Int.natCast_nonpos_iff,
    if_neg h.stocked.ne', if_true]

/-- With no cap on the payment and the end not near, a trade is priced, and scaled down
where the price is out of reach. -/
theorem computeTerms_priced (h : Askable want giveResource wantQty available) :
    computeTerms want wantQty giveResource available urgency none stock false =
      if (available.get giveResource : Int) < pricedGiveQuantity wantQty urgency stock then
        let wantQty := max 1 ⌊(available.get giveResource : Int) / premiumFor urgency stock⌋
        termsOf giveResource want (min (available.get giveResource : Int)
          (pricedGiveQuantity wantQty urgency stock)) wantQty
      else termsOf giveResource want (pricedGiveQuantity wantQty urgency stock) wantQty := by
  simp only [computeTerms, if_neg h.distinct, if_neg (not_le.mpr h.asked), Int.natCast_nonpos_iff,
    if_neg h.stocked.ne', Bool.false_eq_true, if_false]

theorem Terms.of_capped (h : Askable want giveResource wantQty available) {ratio : ℚ}
    (paid : ¬ min (available.get giveResource : Int) ⌊wantQty * ratio⌋ ≤ 0) :
    ∃ give receive : Nat,
      termsOf giveResource want (min (available.get giveResource : Int) ⌊wantQty * ratio⌋) wantQty =
        .ok (.only giveResource give, .only want receive) ∧
      Terms want giveResource wantQty available (some ratio) endGame give receive := by
  have hfloor :
      ((min (available.get giveResource : Int) ⌊wantQty * ratio⌋ : Int) : ℚ) ≤ ratio * wantQty := by
    rw [mul_comm]
    exact le_trans (by exact_mod_cast min_le_right _ _) (Int.floor_le _)
  have hasked := h.asked
  refine Terms.of_int h.distinct ⟨by omega, by omega⟩ (min_le_left _ _) le_rfl nofun nofun ?_
  intro ratio' heq
  cases heq
  exact hfloor

theorem Terms.of_ending (h : Askable want giveResource wantQty available) :
    let wantQty' := max 1 (min wantQty ⌊(available.get giveResource : Int) / endGameRatio⌋)
    ∃ give receive : Nat,
      termsOf giveResource want
      (min (available.get giveResource : Int) ⌈wantQty' * endGameRatio⌉) wantQty' =
        .ok (.only giveResource give, .only want receive) ∧
      Terms want giveResource wantQty available none true give receive := by
  intro wantQty'
  have hasked := h.asked
  have hstocked := h.stocked
  have hceil : ⌈(wantQty' : ℚ) * endGameRatio⌉ = 2 * wantQty' := by
    rw [show (wantQty' : ℚ) * endGameRatio =
        ((2 * wantQty' : Int) : ℚ) by push_cast [endGameRatio]; ring,
      Int.ceil_intCast]
  have hfloor : ⌊((available.get giveResource : Int) : ℚ) / endGameRatio⌋ ≤
      (available.get giveResource : Int) := by
    rw [Int.floor_le_iff]
    have : (0 : ℚ) < (available.get giveResource : Int) := by exact_mod_cast hstocked
    norm_num [endGameRatio]
    linarith
  rw [hceil]
  exact Terms.of_int h.distinct ⟨by omega, by omega⟩ (min_le_left _ _) (by omega)
      (fun _ => by omega)
    (fun _ _ => by omega) nofun

/-- A trade scaled down to what is in reach. -/
theorem Terms.of_scaled (h : Askable want giveResource wantQty available)
    (short : (available.get giveResource : Int) < pricedGiveQuantity wantQty urgency stock) :
    let wantQty' := max 1 ⌊(available.get giveResource : Int) / premiumFor urgency stock⌋
    ∃ give receive : Nat,
      termsOf giveResource want
      (min (available.get giveResource : Int) (pricedGiveQuantity wantQty' urgency stock))
        wantQty' = .ok (.only giveResource give, .only want receive) ∧
      Terms want giveResource wantQty available none false give receive := by
  intro wantQty'
  have hasked := h.asked
  have hstocked : 0 < (available.get giveResource : Int) := by exact_mod_cast h.stocked
  have hone : 1 ≤ wantQty' := le_max_left _ _
  have hscaled : wantQty' ≤ available.get giveResource := scaled_quantity_le hstocked urgency stock
  have hpriced := le_pricedGiveQuantity wantQty' urgency stock
  have hcap := pricedGiveQuantity_le hone urgency stock
  have hwant : wantQty' ≤ wantQty := scaled_quantity_le_want hasked short
  exact Terms.of_int h.distinct ⟨by omega, hone⟩ (min_le_left _ _) hwant
    (fun _ => ⟨le_min hscaled hpriced, (min_le_right _ _).trans hcap⟩) nofun nofun

theorem Terms.of_priced (h : Askable want giveResource wantQty available)
    (covered : ¬ (available.get giveResource : Int) < pricedGiveQuantity wantQty urgency stock) :
    ∃ give receive :
    Nat, termsOf giveResource want (pricedGiveQuantity wantQty urgency stock) wantQty =
        .ok (.only giveResource give, .only want receive) ∧
      Terms want giveResource wantQty available none false give receive := by
  have hasked := h.asked
  have hpriced := le_pricedGiveQuantity wantQty urgency stock
  have hcap := pricedGiveQuantity_le hasked urgency stock
  exact Terms.of_int h.distinct ⟨by omega, by omega⟩ (by omega) le_rfl
    (fun _ => ⟨hpriced, hcap⟩) nofun nofun

/-- The terms of a priced offer: `compute_terms` either cannot afford the trade, or
pays one resource it can cover for a different one. -/
theorem computeTerms_cases : (∃ reason,
      computeTerms want wantQty giveResource available urgency maxPaymentRatio stock endGame =
      .error (.cannotAfford reason)) ∨
    ∃ give receive :
    Nat, computeTerms want wantQty giveResource available urgency maxPaymentRatio stock endGame =
        .ok (.only giveResource give, .only want receive) ∧
      Terms want giveResource wantQty available maxPaymentRatio endGame give receive := by
  rcases @computeTerms_guards want giveResource wantQty available urgency maxPaymentRatio stock
    endGame with herror | h
  · exact Or.inl herror
  cases maxPaymentRatio with
  | some ratio =>
    rw [computeTerms_capped h]
    by_cases hpaid : min (available.get giveResource : Int) ⌊wantQty * ratio⌋ ≤ 0
    · rw [if_pos hpaid]
      exact Or.inl ⟨_, rfl⟩
    · rw [if_neg hpaid]
      exact Or.inr (Terms.of_capped h hpaid)
  | none =>
    cases endGame with
    | true =>
      rw [computeTerms_ending h]
      exact Or.inr (Terms.of_ending h)
    | false =>
      rw [computeTerms_priced h]
      by_cases hshort :
        (available.get giveResource : Int) < pricedGiveQuantity wantQty urgency stock
      · rw [if_pos hshort]
        exact Or.inr (Terms.of_scaled h hshort)
      · rw [if_neg hshort]
        exact Or.inr (Terms.of_priced h hshort)

end Terms

end SpaceportBazaar
