import SpaceportBazaar.Pricing
import Mathlib.Order.Monotone.Basic
import Mathlib.Tactic.IntervalCases

namespace SpaceportBazaar

/-- `premium_for` at any integer stock, below zero too. -/
def premiumForStock (urgency : Urgency) (stock : Option Int) : ℚ :=
  match stock with
  | none =>
    match urgency with
    | .none => baseRatio
    | .watch => 6 / 5
    | .critical => 2
  | some stock =>
    if 20 ≤ stock then baseRatio
    else if 15 ≤ stock then 6 / 5
    else if 10 ≤ stock then 3 / 2
    else if 7 ≤ stock then 2 + 1 / 4 * (9 - stock)
    else min (5 / 2 * (5 / 4) ^ (7 - max 0 stock)) maxPremiumRatio

/-- A stock below zero is priced as an empty one. -/
theorem premiumForStock_eq (urgency : Urgency) (stock : Option Int) :
    premiumForStock urgency stock = premiumFor urgency (stock.map Int.toNat) := by
  cases stock with
  | none => rfl
  | some stock =>
    by_cases hneg : stock < 0
    · have hzero : stock.toNat = 0 := Int.toNat_of_nonpos hneg.le
      have hpow : (5 / 4 : ℚ) ^ (7 - max 0 stock) = (5 / 4) ^ 7 := by
        rw [max_eq_left hneg.le]
        rfl
      simp only [premiumForStock, premiumFor, Option.map_some, hzero, hpow]
      rw [if_neg (by omega), if_neg (by omega), if_neg (by omega), if_neg (by omega)]
      rfl
    · obtain ⟨stock, rfl⟩ := Int.eq_ofNat_of_zero_le (not_lt.mp hneg)
      have hpow (h : stock < 7) :
          (5 / 4 : ℚ) ^ (7 - max 0 (stock : Int)) = (5 / 4) ^ (7 - stock) := by
        rw [max_eq_right (Int.natCast_nonneg stock), show (7 : Int) - stock =
          (7 - stock : Nat) by omega, zpow_natCast]
      simp only [premiumForStock, premiumFor, Option.map_some, Int.toNat_natCast, Int.cast_natCast,
        Nat.ofNat_le_cast]
      split_ifs with _ _ _ hseven
      · rfl
      · rfl
      · rfl
      · rfl
      · rw [hpow (by omega)]

section Premium

variable {urgency : Urgency} {stock : Option Nat} {wantQty : Int}

/-- One unit less never makes the premium smaller: below parity there are twenty
stocks, and each tier ends below where the next begins. -/
theorem premiumFor_succ_le (urgency : Urgency) (stock : Nat) :
    premiumFor urgency (some (stock + 1)) ≤ premiumFor urgency (some stock) := by
  by_cases h : 20 ≤ stock
  · have hsucc : 20 ≤ stock + 1 := by omega
    simp only [premiumFor, if_pos h, if_pos hsucc, le_refl]
  · interval_cases stock <;> norm_num [premiumFor, baseRatio, maxPremiumRatio]

theorem premiumFor_antitone (urgency : Urgency) :
    Antitone (fun stock => premiumFor urgency (some stock)) :=
  antitone_nat_of_succ_le (premiumFor_succ_le urgency)

/-- Rounded half-up, a price is at most half a unit above the premium's. -/
theorem pricedGiveQuantity_le_premium (h : 1 ≤ wantQty) :
    (pricedGiveQuantity wantQty urgency stock : ℚ) ≤
      premiumFor urgency stock * wantQty + 1 / 2 := by
  have hone : (1 : ℚ) ≤ wantQty := by exact_mod_cast h
  have hpar : (wantQty : ℚ) ≤ premiumFor urgency stock * wantQty :=
    le_mul_of_one_le_left (by linarith) (one_le_premiumFor urgency stock)
  have hrounded : (⌊wantQty * premiumFor urgency stock + 1 / 2⌋ : ℚ) ≤
      wantQty * premiumFor urgency stock + 1 / 2 :=
    Int.floor_le _
  have hcut :
      ((min ⌊wantQty * premiumFor urgency stock + 1 / 2⌋ ⌊wantQty * maxPremiumRatio⌋ : Int) : ℚ) ≤
      ⌊wantQty * premiumFor urgency stock + 1 / 2⌋ := by
    exact_mod_cast min_le_left _ _
  unfold pricedGiveQuantity
  push_cast
  push_cast at hcut
  refine max_le ?_ ?_
  · linarith
  · linarith

/-- A higher premium never makes the rounded price smaller. -/
theorem pricedGiveQuantity_mono {urgency' : Urgency} {stock' : Option Nat} (h : 0 ≤ wantQty)
    (hp : premiumFor urgency stock ≤ premiumFor urgency' stock') :
    pricedGiveQuantity wantQty urgency stock ≤ pricedGiveQuantity wantQty urgency' stock' := by
  have hqty : (0 : ℚ) ≤ wantQty := by exact_mod_cast h
  have hprice : (wantQty : ℚ) * premiumFor urgency stock ≤ wantQty * premiumFor urgency' stock' :=
    mul_le_mul_of_nonneg_left hp hqty
  have hfloor : ⌊wantQty * premiumFor urgency stock + 1 / 2⌋ ≤
      ⌊wantQty * premiumFor urgency' stock' + 1 / 2⌋ :=
    Int.floor_le_floor (by linarith)
  unfold pricedGiveQuantity
  exact max_le_max_left _ (min_le_min_right _ hfloor)

end Premium

section Terms

variable {want giveResource : Resource} {wantQty : Int} {available : Bundle} {urgency : Urgency}
  {maxPaymentRatio : Option ℚ} {stock : Option Nat} {endGame : Bool} {give receive : Bundle}

theorem termsOf_total {giveQty quantity : Int}
    (h : termsOf giveResource want giveQty quantity = .ok (give, receive)) :
    (give.total : Int) = giveQty ∧ (receive.total : Int) = quantity := by
  unfold termsOf at h
  obtain ⟨paid, hpaid, h⟩ := bind_eq_ok_iff.mp h
  obtain ⟨got, hgot, h⟩ := bind_eq_ok_iff.mp h
  obtain ⟨hgive, rfl⟩ := Bundle.single_eq_ok_iff.mp hpaid
  obtain ⟨hreceive, rfl⟩ := Bundle.single_eq_ok_iff.mp hgot
  cases h
  rw [Bundle.total_only, Bundle.total_only]
  exact ⟨Int.toNat_of_nonneg hgive, Int.toNat_of_nonneg hreceive⟩

theorem askable_of_ok (h : computeTerms want wantQty giveResource available urgency maxPaymentRatio
      stock endGame = .ok (give, receive)) :
    Askable want giveResource wantQty available := by
  obtain ⟨reason, herror⟩ | hask :=
    @computeTerms_guards want giveResource wantQty available urgency maxPaymentRatio
    stock endGame
  · rw [herror] at h
    cases h
  · exact hask

/-- What is paid is priced by the quantity received, also when that was scaled down. -/
theorem computeTerms_paid_le (h : computeTerms want wantQty giveResource available urgency
      none stock false = .ok (give, receive)) :
    (give.total : ℚ) ≤ premiumFor urgency stock * receive.total + 1 / 2 := by
  have paid {giveQty quantity : Int}
      (hterms : termsOf giveResource want giveQty quantity = .ok (give, receive))
      (hone : 1 ≤ quantity) (hpriced : giveQty ≤ pricedGiveQuantity quantity urgency stock) :
      (give.total : ℚ) ≤ premiumFor urgency stock * receive.total + 1 / 2 := by
    obtain ⟨hgive, hreceive⟩ := termsOf_total hterms
    have hq : (giveQty : ℚ) ≤ pricedGiveQuantity quantity urgency stock := by exact_mod_cast hpriced
    have hbound := hq.trans (pricedGiveQuantity_le_premium hone)
    rw [← hgive, ← hreceive] at hbound
    exact_mod_cast hbound
  have hask := askable_of_ok h
  rw [computeTerms_priced hask] at h
  by_cases hshort : (available.get giveResource : Int) < pricedGiveQuantity wantQty urgency stock
  · rw [if_pos hshort] at h
    exact paid h (le_max_left _ _) (min_le_right _ _)
  · rw [if_neg hshort] at h
    exact paid h hask.asked le_rfl

/-- A cap on the payment and the end of the game leave the stock out of the price. -/
theorem computeTerms_stock_irrel (stock stock' : Option Nat)
    (h : maxPaymentRatio ≠ none ∨ endGame = true) :
    computeTerms want wantQty giveResource available urgency maxPaymentRatio stock endGame =
      computeTerms want wantQty giveResource available urgency maxPaymentRatio stock' endGame := by
  cases maxPaymentRatio with
  | some ratio => rfl
  | none =>
    have hend : endGame = true := h.resolve_left (fun hne => hne rfl)
    rw [hend]
    rfl

/-- For a quantity whose price is in reach, a lower stock is paid for at least as dearly. -/
theorem computeTerms_stock_le {low high : Nat} (hle : low ≤ high)
    (ample : maxPaymentRatio = none → endGame = false →
      pricedGiveQuantity wantQty urgency (some low) ≤ available.get giveResource) (h :
      computeTerms want wantQty giveResource available urgency maxPaymentRatio (some high) endGame =
      .ok (give, receive)) :
    ∃ give', computeTerms want wantQty giveResource available urgency maxPaymentRatio
      (some low) endGame =
      .ok (give', receive) ∧ give ≤ give' := by
  by_cases hprice : maxPaymentRatio = none ∧ endGame = false
  · obtain ⟨rfl, rfl⟩ := hprice
    have hask := askable_of_ok h
    have hqty : 0 ≤ wantQty := hask.asked.le
    have hcover := ample rfl rfl
    have hmono : pricedGiveQuantity wantQty urgency (some high) ≤
        pricedGiveQuantity wantQty urgency (some low) :=
      pricedGiveQuantity_mono hqty (premiumFor_antitone urgency hle)
    have hhigh := hqty.trans (le_pricedGiveQuantity wantQty urgency (some high))
    have hlow := hqty.trans (le_pricedGiveQuantity wantQty urgency (some low))
    rw [computeTerms_priced hask, if_neg (by omega), termsOf_eq_ok hhigh hqty] at h
    rw [computeTerms_priced hask, if_neg (by omega), termsOf_eq_ok hlow hqty]
    cases h
    exact ⟨_, rfl, Bundle.only_le_only (Int.toNat_le_toNat hmono)⟩
  · have hstock : maxPaymentRatio ≠ none ∨ endGame = true := by
      cases endGame with
      | true => exact Or.inr rfl
      | false => exact Or.inl (fun hnone => hprice ⟨hnone, rfl⟩)
    exact ⟨give, (computeTerms_stock_irrel (some low) (some high) hstock).trans h, fun _ => le_rfl⟩

/-- What an offer pays and asks for, at any stock of the wanted resource: both sides in
reach and in bounds, the price capped, and a scarcer stock never paid for more cheaply. -/
theorem computeTerms_price (ratio_le : ∀ ratio, maxPaymentRatio = some ratio → ratio ≤ 1) :
    (∀ (stock : Option Int) (give receive : Bundle),
      computeTerms want wantQty giveResource available urgency maxPaymentRatio
        (stock.map Int.toNat) endGame =
        .ok (give, receive) →
      ∃ paid got :
      Nat, give = .only giveResource paid ∧ receive = .only want got ∧ want ≠ giveResource ∧
        (1 ≤ paid ∧ paid ≤ available.get giveResource) ∧
        (1 ≤ got ∧ (got : Int) ≤ wantQty) ∧ paid ≤ 8 * got ∧
        (∀ ratio, maxPaymentRatio = some ratio → (paid : ℚ) ≤ ratio * got) ∧
        (maxPaymentRatio = none →
          endGame = false → (paid : ℚ) ≤ premiumForStock urgency stock * got + 1 / 2)) ∧
    ∀ low high : Int, low ≤ high →
      (maxPaymentRatio = none → endGame = false →
        pricedGiveQuantity wantQty urgency (some low.toNat) ≤ available.get giveResource) →
      ∀ give receive,
        computeTerms want wantQty giveResource available urgency maxPaymentRatio
          (some high.toNat) endGame =
          .ok (give, receive) →
        ∃ give', computeTerms want wantQty giveResource available urgency maxPaymentRatio
          (some low.toNat) endGame =
          .ok (give', receive) ∧ give ≤ give' := by
  constructor
  · intro stock give receive h
    obtain ⟨reason, herror⟩ | ⟨paid, got, hok, terms⟩ :=
      @computeTerms_cases want giveResource wantQty available
      urgency maxPaymentRatio (stock.map Int.toNat) endGame
    · rw [herror] at h
      cases h
    have heq : (Bundle.only giveResource paid, Bundle.only want got) = (give, receive) := by
      rw [hok] at h
      exact Except.ok.inj h
    cases heq
    refine ⟨paid, got, rfl, rfl, terms.distinct, ⟨terms.positive.1, terms.covered⟩,
      ⟨terms.positive.2, terms.wanted⟩, ?_, terms.capped, ?_⟩
    · cases hcap : maxPaymentRatio with
      | none => exact (terms.normal hcap).2
      | some ratio =>
        have hpaid := terms.capped ratio hcap
        have hgot : (0 : ℚ) ≤ got := Nat.cast_nonneg got
        have hle : (paid : ℚ) ≤ got := by nlinarith [ratio_le ratio hcap]
        have : paid ≤ got := by exact_mod_cast hle
        omega
    · intro hnone hend
      rw [hnone, hend] at h
      rw [premiumForStock_eq]
      simpa using computeTerms_paid_le h
  · intro low high hle ample give receive h
    exact computeTerms_stock_le (Int.toNat_le_toNat hle) ample h

/-- Four units with less than none in stock are scaled down to one paid for with eight. -/
theorem computeTerms_price_scarce :
    (∃ paid got :
      Nat, Bundle.only .water 2 = .only .water paid ∧ Bundle.only .food 4 = .only .food got ∧
      (paid : ℚ) ≤ 1 / 2 * got) ∧
    (∃ paid got :
      Nat, Bundle.only .water 8 = .only .water paid ∧ Bundle.only .food 1 = .only .food got ∧
      (paid : ℚ) ≤ premiumForStock .critical (some (-1)) * got + 1 / 2) ∧
    ∃ give', computeTerms .food 4 .water ⟨12, 0, 0⟩ .critical none (some 9) false =
      .ok (give', .only .food 4) ∧
      Bundle.only .water 4 ≤ give' := by
  have capped : ∀ ratio, some (1 / 2 : ℚ) = some ratio → ratio ≤ 1 := by
    rintro ratio ⟨⟩
    norm_num
  refine ⟨?_, ?_, ?_⟩
  · obtain ⟨paid, got, hgive, hreceive, _, _, _, _, hratio, _⟩ :=
      (@computeTerms_price .food .water 4 ⟨12, 0, 0⟩ .none
      (some (1 / 2)) false capped).1 none (.only .water 2) (.only .food 4) (by decide +kernel)
    exact ⟨paid, got, hgive, hreceive, hratio _ rfl⟩
  · obtain ⟨paid, got, hgive, hreceive, _, _, _, _, _, hpremium⟩ :=
      (@computeTerms_price .food .water 4 ⟨12, 0, 0⟩
      .critical none false nofun).1 (some (-1)) (.only .water 8) (.only .food 1) (by decide +kernel)
    exact ⟨paid, got, hgive, hreceive, hpremium rfl rfl⟩
  · exact (@computeTerms_price .food .water 4 ⟨12, 0, 0⟩ .critical none false nofun).2
        9 20 (by decide)
      (fun _ _ => by decide +kernel) (.only .water 4) (.only .food 4) (by decide +kernel)

end Terms

end SpaceportBazaar
