import SpaceportBazaar.DecideBalance
import SpaceportBazaar.DecideOffers

namespace SpaceportBazaar

section Listing

variable (observation : Snapshot) (ticksLeft : Option Nat)

/-- `advertised_need` -/
def advertisedNeed (excess : Bundle) (wanted : Resource → Option Int) : Bundle :=
  Bundle.ofFn (fun r => if excess.get r = 0 then ((wanted r).getD 0).toNat else 0)

/-- `advertised_surplus` -/
def advertisedSurplus (excess surplus : Bundle) (wanted : Resource → Option Int)
    (draft : Plan) : Bundle :=
  if productionPaymentLimit draft.available observation.me ticksLeft = some 0 then .zero
  else Bundle.ofFn (fun r => if (wanted r).isNone ∨ 0 < excess.get r then surplus.get r else 0)

/-- The advertisement, if any, that the listing stage publishes. -/
def published (excess surplus : Bundle) (wanted : Resource → Option Int)
    (critical : Finset Resource) (draft : Plan) :
    Option Action :=
  if comfortablySupplied draft.available ∨ draft.budget ≤ 0 then none
  else (decideAdvertisement (advertisedSurplus observation ticksLeft excess surplus wanted draft)
    (advertisedNeed excess wanted) critical observation.ownAdvertisement observation.tick
    observation.rules).action

variable {observation ticksLeft} {excess surplus : Bundle} {wanted : Resource → Option Int}
  {critical : Finset Resource} {draft draft' : Plan}
  {selling seeking : Finset Resource} {expires : Nat}

theorem advertisedSurplus_get (r : Resource) :
    (advertisedSurplus observation ticksLeft excess surplus wanted draft).get r =
    if productionPaymentLimit draft.available observation.me ticksLeft = some 0 then 0
    else if (wanted r).isNone ∨ 0 < excess.get r then surplus.get r else 0 := by
  unfold advertisedSurplus
  split <;> simp

theorem refreshListing_publishes (positive : ∀ r quantity, wanted r = some quantity → 0 < quantity)
    (lists :
      refreshListing observation ticksLeft excess surplus wanted critical draft = .ok draft') :
    ∃ more, draft'.decision.actions = draft.decision.actions ++ more ∧
      (.advertise selling seeking expires ∈ more ↔
        published observation ticksLeft excess surplus wanted critical draft =
          some (.advertise selling seeking expires)) := by
  have hneed : Bundle.make (fun r => if excess.get r = 0 then (wanted r).getD 0 else 0) =
      .ok (advertisedNeed excess wanted) := by
    refine Bundle.make_ok fun r => ?_
    split
    next =>
      cases hr : wanted r with
      | none => rfl
      | some quantity =>
        have := positive r quantity hr
        simp only [Option.getD_some]
        omega
    next => rfl
  unfold refreshListing at lists
  rw [hneed] at lists
  simp only [bind, Except.bind] at lists
  unfold published
  split at lists
  next hcomfortable =>
    rw [if_pos (Or.inl hcomfortable)]
    split at lists
    next ad _ =>
      cases Except.ok.inj lists
      split
      next => exact ⟨[.withdraw ad.advertisementId], rfl, by simp⟩
      next => exact ⟨[], by simp, by simp⟩
    next =>
      cases Except.ok.inj lists
      exact ⟨[], by simp, by simp⟩
  next hmodest =>
    have hdraft : draft' =
      refreshAdvertisement observation (advertisedSurplus observation ticksLeft excess surplus
        wanted draft) (advertisedNeed excess wanted) critical draft := (Except.ok.inj lists).symm
    by_cases hspent : draft.budget ≤ 0
    · rw [refreshAdvertisement, if_pos hspent] at hdraft
      exact ⟨[], by simp [hdraft], by simp [hspent]⟩
    rw [if_neg (not_or.mpr ⟨hmodest, hspent⟩)]
    rw [refreshAdvertisement, if_neg hspent] at hdraft
    simp only at hdraft
    cases haction :
        (decideAdvertisement (advertisedSurplus observation ticksLeft excess surplus wanted draft)
        (advertisedNeed excess wanted) critical observation.ownAdvertisement observation.tick
        observation.rules).action with
    | none =>
      rw [haction] at hdraft
      exact ⟨[], by simp [hdraft], by simp⟩
    | some action =>
      rw [haction] at hdraft
      exact ⟨[action], by simp [hdraft, Plan.act, Decision.add], by simp [eq_comm]⟩

/-- A published resource is shown on both sides if it is critical and there is some to spare. -/
theorem published_disjoint_iff
    (h : published observation ticksLeft excess surplus wanted critical draft =
      some (.advertise selling seeking expires)) :
    Disjoint selling seeking ↔ ∀ r ∈ critical,
      (advertisedSurplus observation ticksLeft excess surplus wanted draft).get r <
        minListableQty := by
  unfold published at h
  split_ifs at h
  obtain ⟨rfl, rfl⟩ := decideAdvertisement_shows h
  rw [Finset.disjoint_left]
  simp only [Finset.mem_filter, Finset.mem_univ, true_and, not_or]
  constructor
  · intro hapart r hr
    by_contra hlisted
    exact (hapart (not_lt.mp hlisted)).2 hr
  · intro hscarce r hlisted
    refine ⟨fun hneed => ?_, fun hr => absurd (hscarce r hr) (not_lt.mpr hlisted)⟩
    -- what is needed is wanted and not in excess, so nothing of it is listed
    unfold advertisedNeed at hneed
    rw [Bundle.get_ofFn] at hneed
    rw [advertisedSurplus_get] at hlisted
    split at hneed
    next hexcess =>
      have hwanted : (wanted r).isNone = false := by
        cases hr : wanted r with
        | none => simp [hr] at hneed
        | some _ => rfl
      rw [hexcess, hwanted] at hlisted
      simp [minListableQty] at hlisted
    next => exact absurd hneed (lt_irrefl 0)

end Listing

section Outcome

variable {observation : Snapshot} {memory : PolicyMemory} {commitments : CommitmentTracker}
  {commandBudget : Option Int} {draft last : Plan} {p : Passage} {d : Deeds}
  {selling seeking : Finset Resource} {expires : Nat}

namespace Passage

variable (observation : Snapshot) (reserve : Bundle) (p : Passage)

/-- What the listing stage publishes. -/
def notice : Option Action :=
  published observation (some (observation.rules.durationTicks - observation.tick)) p.excess
    (surplusAboveReserve p.given.available reserve)
    (wantedQuantities observation p.given.available reserve (p.deficit reserve))
      (p.critical observation reserve) p.given

end Passage

/-- Whatever was in critical stock after the first accepts has less than two units over the
reserve when the advertisement is made, or nothing may be paid with, or it is an import within
its ceiling, and below the cap. -/
def CriticalSpared (observation : Snapshot) (reserve : Bundle) (p : Passage) : Prop :=
  ∀ r, p.intake.draft.available.get r < max criticalStock (observation.me.upkeepPerTick.get r) →
    p.given.available.get r < reserve.get r + minListableQty ∨
    productionPaymentLimit p.given.available observation.me
      (some (observation.rules.durationTicks - observation.tick)) = some 0 ∨
    r ≠ observation.me.specialty ∧ p.given.available.get r < stockCap ∧
      overCeiling r p.given.available (some observation.me.specialty) = false

/-- A decision advertises what its listing stage publishes, and nothing else. -/
theorem Conducted.advertises_iff
    (h : Conducted observation memory commitments commandBudget draft p d last) :
    .advertise selling seeking expires ∈ last.decision.actions ↔
      p.notice observation draft.decision.reserve = some (.advertise selling seeking expires) := by
  obtain ⟨more, hmore, hpublishes⟩ :=
    @refreshListing_publishes observation _ _ _ _ _ _ _ selling seeking expires
    (fun _ _ => wantedQuantities_pos) h.course.lists
  rw [Passage.notice, ← hpublishes]
  have hnoticed : d.noticed.map (Deed.action observation) = more := by
    rw [h.traced.lists.actions, h.traced.gives.actions, Deeds.beforeOffers,
      List.map_append] at hmore
    exact List.append_cancel_left hmore
  rw [← hnoticed, h.actions]
  constructor
  · intro hmem
    obtain ⟨e, he, haction⟩ := List.mem_map.mp hmem
    cases e with
    | notice action =>
      rcases List.mem_append.mp he with hbefore | haid
      · exact List.mem_map.mpr ⟨_, (h.traced.of_stage hbefore).2.2.1 rfl, haction⟩
      · obtain ⟨_, _, hne⟩ := List.mem_map.mp haid
        cases hne
    | _ => cases haction
  · intro hmem
    obtain ⟨e, he, haction⟩ := List.mem_map.mp hmem
    refine List.mem_map.mpr ⟨e, List.mem_append_left _ ?_, haction⟩
    simp only [Deeds.beforeAid, Deeds.beforeOffers, List.mem_append]
    exact Or.inl (Or.inl (Or.inr he))

/-- Without a deficit, what is not asked for is the specialty, or at the cap or over its ceiling. -/
theorem wantedQuantities_isNone_iff {available reserve deficit : Bundle} {r : Resource}
    (none : deficit.get r = 0) :
    (wantedQuantities observation available reserve deficit r).isNone = true ↔
      r = observation.me.specialty ∨
      stockCap ≤ available.get r ∨
      overCeiling r available (some observation.me.specialty) = true := by
  have hcap : stockCap = 100 := rfl
  have hover :
      overCeiling r available (some observation.me.specialty) = true ∨ stockCap ≤ available.get r ↔
      (stockCap : Int) ≤ available.get r ∨
        min (((importCeiling r available (some observation.me.specialty)).getD stockCap : Nat) :
        Int) stockCap <
          available.get r := by
    unfold overCeiling
    cases importCeiling r available (some observation.me.specialty) with
    | none =>
      simp only [Option.getD_none, Bool.false_eq_true, false_or]
      omega
    | some ceiling =>
      simp only [Option.getD_some, decide_eq_true_eq]
      omega
  unfold wantedQuantities
  simp only
  by_cases himported : r = observation.me.specialty
  · rw [if_pos himported, if_neg (by omega)]
    exact iff_of_true rfl (Or.inl himported)
  rw [if_neg himported]
  refine Iff.trans ?_ ((or_iff_right himported).trans (or_comm.trans hover)).symm
  by_cases hfull : (stockCap : Int) ≤ available.get r ∨
      min (((importCeiling r available (some observation.me.specialty)).getD stockCap : Nat) : Int)
      stockCap <
        available.get r
  · rw [if_pos hfull, if_neg (by omega)]
    exact iff_of_true rfl hfull
  · rw [if_neg hfull, if_pos (by omega)]
    exact iff_of_false (by simp) hfull

/-- What was in critical stock is listed, unless it is spared. -/
theorem Conducted.listing_lt_iff
    (h : Conducted observation memory commitments commandBudget draft p d last) (r : Resource) :
    (advertisedSurplus observation
      (some (observation.rules.durationTicks - observation.tick)) p.excess
      (surplusAboveReserve p.given.available draft.decision.reserve)
      (wantedQuantities observation p.given.available draft.decision.reserve
        (p.deficit draft.decision.reserve))
        p.given).get r < minListableQty ↔
    p.given.available.get r < draft.decision.reserve.get r + minListableQty ∨
      productionPaymentLimit p.given.available observation.me
        (some (observation.rules.durationTicks - observation.tick)) = some 0 ∨
      r ≠ observation.me.specialty ∧ p.given.available.get r < stockCap ∧
        overCeiling r p.given.available (some observation.me.specialty) = false := by
  have hmin : minListableQty = 2 := rfl
  have hgives := h.traced.gives
  rw [Deeds.beforeListing, List.append_assoc] at hgives
  have hspent := h.traced.intake.spends hgives r
  have hwarned := h.traced.intake.spends h.traced.warns r
  rw [advertisedSurplus_get]
  by_cases hlimit : productionPaymentLimit p.given.available observation.me
      (some (observation.rules.durationTicks - observation.tick)) = some 0
  · rw [if_pos hlimit]
    exact iff_of_true (by omega) (Or.inr (Or.inl hlimit))
  rw [if_neg hlimit, surplusAboveReserve, Bundle.get_saturatingSub]
  by_cases hscarce : p.given.available.get r < draft.decision.reserve.get r + minListableQty
  · refine iff_of_true ?_ (Or.inl hscarce)
    split <;> omega
  have hdeficit : (p.deficit draft.decision.reserve).get r = 0 := by
    unfold Passage.deficit deficitBelowReserve
    rw [Bundle.get_saturatingSub]
    omega
  have hexcess : 0 < p.excess.get r → stockCap ≤ p.given.available.get r := by
    intro hover
    unfold Passage.excess at hover
    rw [Bundle.get_ofFn] at hover
    rcases h.traced.given_stock r with hfull | hsame
    · exact hfull
    · omega
  have hlisted : (wantedQuantities observation p.given.available draft.decision.reserve
      (p.deficit draft.decision.reserve) r).isNone = true ∨ 0 < p.excess.get r ↔
      ¬(r ≠ observation.me.specialty ∧
        p.given.available.get r < stockCap ∧
          overCeiling r p.given.available (some observation.me.specialty) = false) := by
    rw [wantedQuantities_isNone_iff hdeficit]
    by_cases hover : 0 < p.excess.get r
    · have := hexcess hover
      exact iff_of_true (Or.inr hover) (by omega)
    · simp only [hover, or_false, not_and_or, not_not, not_lt, Bool.not_eq_false]
  rw [or_iff_right hscarce, or_iff_right hlimit]
  split
  next hshown => exact iff_of_false (by omega) (hlisted.mp hshown)
  next hhidden => exact iff_of_true (by omega) (not_not.mp (mt hlisted.mpr hhidden))

/-- Sold and sought overlap in what was in critical stock and is not spared. -/
theorem Conducted.disjoint_iff
    (h : Conducted observation memory commitments commandBudget draft p d last)
    (mem : .advertise selling seeking expires ∈ last.decision.actions) :
    Disjoint selling seeking ↔ CriticalSpared observation draft.decision.reserve p := by
  rw [published_disjoint_iff (h.advertises_iff.mp mem)]
  unfold Passage.critical Passage.gauge CriticalSpared
  simp only [Finset.mem_filter, Finset.mem_univ, true_and, h.listing_lt_iff]
  refine forall_congr' fun r => imp_congr ?_ Iff.rfl
  unfold computeUrgency
  split_ifs with hstock
  · exact iff_of_true rfl hstock
  · exact iff_of_false (by simp) hstock
  · exact iff_of_false (by simp) hstock

/-- Before the last ticks, a planet with ordinary upkeep spares what is critical. -/
theorem Conducted.critical_spared
    (h : Conducted observation memory commitments commandBudget draft p d last)
    (early : 10 < observation.rules.durationTicks - observation.tick)
    (produces : 1 ≤ observation.me.upkeepPerTick.get observation.me.specialty)
    (modest : ∀ r, r ≠ observation.me.specialty → observation.me.upkeepPerTick.get r ≤ 40) :
    CriticalSpared observation draft.decision.reserve p := by
  intro r hlow
  have hgives := h.traced.gives
  rw [Deeds.beforeListing, List.append_assoc] at hgives
  have hspent := h.traced.intake.spends hgives r
  by_cases hspecialty : r = observation.me.specialty
  · subst hspecialty
    have hstop : p.given.available.get observation.me.specialty <
        productionStopTicks * observation.me.upkeepPerTick.get observation.me.specialty := by
      simp only [criticalStock, productionStopTicks] at *
      omega
    exact Or.inr (Or.inl (productionPaymentLimit_eq_zero (inEndGame_eq_false_iff.mpr early) hstop))
  · have hupkeep := modest r hspecialty
    have hlevels : stockCap = 100 ∧ criticalStock = 10 ∧ importCeilingFloor = 40 := ⟨rfl, rfl, rfl⟩
    refine Or.inr (Or.inr ⟨hspecialty, by omega, ?_⟩)
    unfold overCeiling
    split
    next ceiling hceiling =>
      have := importCeilingFloor_le hceiling
      exact decide_eq_false (by omega)
    next => rfl

variable (observation memory commitments commandBudget)

/-- An advertisement lists nothing both as sold and as sought exactly if what is critical is
spared; before the last ticks, a planet with ordinary upkeep always spares it. -/
theorem decide_advertises : ∃ decision memory',
    Policy.decide observation memory commitments commandBudget = .ok (decision, memory') ∧
    (gateReason observation memory ≠ none → decision.actions = []) ∧
    (gateReason observation memory = none → ∃ draft p,
      assess observation memory commitments commandBudget = .ok draft ∧
      Course observation (some (observation.rules.durationTicks - observation.tick)) draft p ∧
      (∀ selling seeking expires, .advertise selling seeking expires ∈ decision.actions →
        (Disjoint selling seeking ↔ CriticalSpared observation draft.decision.reserve p)) ∧
      (10 < observation.rules.durationTicks - observation.tick →
        1 ≤ observation.me.upkeepPerTick.get observation.me.specialty →
        (∀ r, r ≠ observation.me.specialty → observation.me.upkeepPerTick.get r ≤ 40) →
          CriticalSpared observation draft.decision.reserve p)) :=
  decide_rule observation memory commitments commandBudget fun _ _ _ _ h =>
    ⟨fun _ _ _ mem => h.disjoint_iff mem, h.critical_spared⟩

end Outcome

/-- Five ticks before the end, eight units of water are critical and five of them for sale. -/
theorem water_sold_and_sought : ∃ decision memory' selling seeking expires,
    Policy.decide { marketView 6 ⟨8, 20, 20⟩ [] [] with tick := 115 } .new =
      .ok (decision, memory') ∧
    .advertise selling seeking expires ∈ decision.actions ∧ .water ∈ selling ∧
    .water ∈ seeking := by
  have hrun : (Policy.decide { marketView 6 ⟨8, 20, 20⟩ [] [] with tick := 115 } .new).toOption.any
      (fun chosen =>
      decide (.advertise {.water} {.water, .food, .components} 120 ∈ chosen.1.actions)) = true := by
    decide +kernel
  obtain ⟨⟨decision, memory'⟩, hdecide, hrun⟩ := (Option.any_eq_true _ _).mp hrun
  exact ⟨decision, memory', _, _, _, toOption_eq_some_iff.mp hdecide, of_decide_eq_true hrun,
    by decide, by decide⟩

end SpaceportBazaar
