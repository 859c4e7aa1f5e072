import SpaceportBazaar.Decide
import SpaceportBazaar.Loop

namespace SpaceportBazaar

theorem Offer.pays_of_recipient {o : Offer} {stationId : String} (h : o.recipientId = stationId) :
    ∃ cost gain, o.whatStationPays stationId = .ok cost ∧
    o.whatStationReceives stationId = .ok gain := by
  unfold Offer.whatStationPays Offer.whatStationReceives
  by_cases hp : stationId = o.proposerId
  · exact ⟨_, _, if_pos hp, if_pos hp⟩
  · exact ⟨_, _, by rw [if_neg hp, if_pos h.symm], by rw [if_neg hp, if_pos h.symm]⟩

theorem evaluateIncoming_eq {o : Offer} {stationId : String} {cost gain available reserve : Bundle}
    {urgency : Resource → Urgency} {specialty : Option Resource} {limit : Option ℚ} {endGame : Bool}
    (hc : o.whatStationPays stationId = .ok cost)
    (hg : o.whatStationReceives stationId = .ok gain) :
    evaluateIncoming o stationId available reserve urgency specialty limit endGame =
      .ok (judge cost gain available reserve urgency specialty limit endGame) := by
  unfold evaluateIncoming
  rw [hc, hg]
  rfl

theorem commandAllowance_le (observation : Snapshot) (commandBudget : Option Int) :
    commandAllowance observation commandBudget ≤ observation.rules.newCommandsPerStationPerTick ∧
      ∀ limit, commandBudget = some limit → commandAllowance observation commandBudget ≤
        (max 0 limit).toNat := by
  unfold commandAllowance
  cases commandBudget with
  | none => exact ⟨le_rfl, nofun⟩
  | some limit =>
    refine ⟨Nat.min_le_left _ _, fun limit' h => ?_⟩
    cases Option.some.inj h
    exact Nat.min_le_right _ _

section Stages

variable {observation : Snapshot} {ticksLeft : Option Nat} {reserve surplus : Bundle}
  {holdFor : Option Resource} {offer : Offer} {st st' : Intake} {draft : Plan}
  {urgency : Resource → Urgency} {wanted : Resource → Option Int}

/-- The verdict `decide` itself reaches on an offer addressed to us, at a given balance. -/
def verdictOn (observation : Snapshot) (ticksLeft : Option Nat)
    (reserve running cost gain : Bundle) : AcceptDecision :=
  judge cost gain running reserve (computeUrgency running observation.me.upkeepPerTick reserve)
    (some observation.me.specialty)
    (productionPaymentLimit (running.saturatingSub cost) observation.me ticksLeft)
      (inEndGame ticksLeft)

/-- Standing offers forbid a payment that would leave less than normal trade needs. -/
def guardsStanding (observation : Snapshot) (ticksLeft : Option Nat)
    (running cost : Bundle) : Prop :=
  cost ≠ 0 ∧ hasNormalOffers observation = true ∧
    productionPaymentLimit (running.saturatingSub cost) observation.me ticksLeft ≠ none

/-- What one round of the accept loop does. -/
inductive Weighed (observation : Snapshot) (ticksLeft : Option Nat) (reserve : Bundle)
    (holdFor : Option Resource) (offer : Offer) (st : Intake) : ForInStep Intake → Prop
  | spent : st.draft.budget = 0 → Weighed observation ticksLeft reserve holdFor offer st (.done st)
  | passed (cost gain : Bundle) : 0 < st.draft.budget →
    offer.whatStationPays observation.selfStationId = .ok cost →
    offer.whatStationReceives observation.selfStationId = .ok gain →
    (guardsStanding observation ticksLeft st.draft.available cost ∨
      (verdictOn observation ticksLeft reserve st.draft.available cost gain).accept = false) →
    Weighed observation ticksLeft reserve holdFor offer st (.yield st)
  | deferred (cost gain : Bundle) : st.draft.budget = 1 →
    offer.whatStationPays observation.selfStationId = .ok cost →
    offer.whatStationReceives observation.selfStationId = .ok gain →
    ¬guardsStanding observation ticksLeft st.draft.available cost →
    (verdictOn observation ticksLeft reserve st.draft.available cost gain).accept = true →
    (offer.expiresTick ≤ observation.tick + 1 ∨ ∃ r ∈ holdFor, gain.get r = 0) →
    Weighed observation ticksLeft reserve holdFor offer st
    (.yield { st with deferred := st.deferred ++ [offer] })
  | accepted (cost gain : Bundle) (reason : String) : 0 < st.draft.budget →
    offer.whatStationPays observation.selfStationId = .ok cost →
    offer.whatStationReceives observation.selfStationId = .ok gain →
    ¬guardsStanding observation ticksLeft st.draft.available cost →
    (verdictOn observation ticksLeft reserve st.draft.available cost gain).accept = true →
    (st.draft.budget = 1 →
    observation.tick + 1 < offer.expiresTick ∧ ∀ r ∈ holdFor, gain.get r ≠ 0) →
    Weighed observation ticksLeft reserve holdFor offer st (.yield { st with
      draft := (st.draft.act (.accept offer.offerId) reason).spend cost
      urgency := computeUrgency (st.draft.available.saturatingSub
      cost) observation.me.upkeepPerTick reserve })

theorem acceptOne_weighed (party : offer.recipientId = observation.selfStationId) (current :
      st.urgency = computeUrgency st.draft.available observation.me.upkeepPerTick reserve) :
    ∃ step, acceptOne observation ticksLeft reserve holdFor offer st = .ok step ∧
      Weighed observation ticksLeft reserve holdFor offer st step := by
  obtain ⟨cost, gain, hcost, hgain⟩ := Offer.pays_of_recipient party
  unfold acceptOne
  by_cases hbudget : st.draft.budget ≤ 0
  · rw [if_pos hbudget]
    exact ⟨_, rfl, .spent (by omega)⟩
  rw [if_neg hbudget, hcost, hgain]
  simp only [bind, Except.bind]
  have hverdict :
      ∀ limit, limit = productionPaymentLimit (st.draft.available.saturatingSub cost) observation.me
      ticksLeft → judge cost gain st.draft.available reserve st.urgency
          (some observation.me.specialty) limit
        (inEndGame ticksLeft) =
            verdictOn observation ticksLeft reserve st.draft.available cost gain := by
    intro limit hlimit
    rw [hlimit, current]
    rfl
  have hguard : (!cost.isZero && hasNormalOffers observation && (productionPaymentLimit
      (st.draft.available.saturatingSub cost) observation.me ticksLeft).isSome) = true ↔
        guardsStanding observation ticksLeft st.draft.available cost := by
    simp only [guardsStanding, Bool.and_eq_true, Bool.not_eq_true', and_assoc,
      ← Option.isSome_iff_ne_none]
    rw [← Bool.not_eq_true, Bundle.isZero_iff]
  split
  next hstanding =>
    exact ⟨_, rfl, .passed cost gain (by omega) hcost hgain (Or.inl (hguard.mp hstanding))⟩
  next hstanding =>
    rw [hguard] at hstanding
    rw [evaluateIncoming_eq hcost hgain, hverdict _ rfl]
    simp only
    split
    next hrefused =>
      exact ⟨_, rfl, .passed cost gain (by omega) hcost hgain (Or.inr (by simpa using hrefused))⟩
    next haccepts =>
      have haccept :
          (verdictOn observation ticksLeft reserve st.draft.available cost gain).accept = true := by
        simpa using haccepts
      split
      next hlast =>
        exact ⟨_, rfl, .deferred cost gain (by omega) hcost hgain hstanding haccept hlast.2⟩
      next hfree =>
        refine ⟨_, rfl, .accepted cost gain _ (by omega) hcost hgain hstanding haccept fun hone =>
          ?_⟩
        have hnot := fun h => hfree ⟨hone.le, h⟩
        exact ⟨not_le.mp fun hlast => hnot (Or.inl hlast), fun r hr hzero =>
          hnot (Or.inr ⟨r, hr, hzero⟩)⟩

/-- What one round of the withdrawal loop does. -/
inductive Checked (observation : Snapshot) (ticksLeft : Option Nat) (offer : Offer) (draft : Plan) :
    ForInStep Plan → Prop
  | spent : draft.budget = 0 → Checked observation ticksLeft offer draft (.done draft)
  | kept : 0 < draft.budget → atRisk draft.available draft.decision.reserve offer = [] →
    violatesGuard (productionPaymentLimit draft.available observation.me ticksLeft) offer = false →
    Checked observation ticksLeft offer draft (.yield draft)
  | withdrawn (reason : String) : 0 < draft.budget →
    (atRisk draft.available draft.decision.reserve offer ≠ [] ∨
      violatesGuard (productionPaymentLimit draft.available observation.me ticksLeft) offer =
      true) →
    Checked observation ticksLeft offer draft (.yield (draft.act (.withdraw offer.offerId) reason))

theorem withdrawOne_checked (observation : Snapshot) (ticksLeft : Option Nat) (offer : Offer)
    (draft : Plan) :
    ∃ step, withdrawOne observation ticksLeft offer draft = .ok step ∧
      Checked observation ticksLeft offer draft step := by
  unfold withdrawOne
  by_cases hbudget : draft.budget ≤ 0
  · rw [if_pos hbudget]
    exact ⟨_, rfl, .spent (by omega)⟩
  rw [if_neg hbudget]
  simp only
  split
  next hquiet =>
    simp only [Bool.and_eq_true, Bool.not_eq_true', List.isEmpty_iff] at hquiet
    exact ⟨_, rfl, .kept (by omega) hquiet.1 hquiet.2⟩
  next hloud =>
    refine ⟨_, rfl, .withdrawn _ (by omega) ?_⟩
    simp only [Bool.and_eq_true, Bool.not_eq_true', List.isEmpty_iff, not_and_or] at hloud
    simpa using hloud

/-- What one round of the excess-gift loop does. -/
inductive Given (observation : Snapshot) (excess : Bundle) (resource : Resource) (st : Gifting) :
    ForInStep Gifting → Prop
  | ended : Given observation excess resource st (.done st)
  | unsought : Given observation excess resource st (.yield st)
  | gifted (recipient reason : String) (gift : Bundle) : 0 < st.draft.budget → 0 < st.room →
    0 < offerLifetime observation → 0 < excess.get resource →
    pickGiftRecipient st.draft.memory.counterparties resource observation.tick st.draft.memory =
    some recipient →
    gift = .only resource (min (excess.get resource) maxExcessGift) →
    Given observation excess resource st (.yield
      ⟨((st.draft.act (.offer recipient gift .zero (observation.tick + offerLifetime observation))
      reason).recordGift
        recipient resource observation.tick).spend gift, st.room - 1⟩)

theorem giveOne_given (observation : Snapshot) (excess : Bundle) (resource : Resource)
    (st : Gifting) :
    ∃ step, giveOne observation excess resource st = .ok step ∧
    Given observation excess resource st step := by
  unfold giveOne
  simp only
  split
  next => exact ⟨_, rfl, .ended⟩
  next hopen =>
    split
    next => exact ⟨_, rfl, .ended⟩
    next hexcess =>
      split
      next => exact ⟨_, rfl, .unsought⟩
      next recipient hpick =>
        rw [Bundle.single_ok]
        exact ⟨_, rfl, .gifted recipient _ _ (by omega) (by omega) (by omega) (by omega) hpick rfl⟩

/-- An offer priced under one payment limit, from a balance and the surplus over the reserve. -/
structure Priced (observation : Snapshot) (ticksLeft : Option Nat) (running surplus : Bundle)
    (standing : Bool) (candidate : Candidate) (limit : Option ℚ) (paid asked : Nat) : Prop where
  distinct : candidate.want ≠ candidate.give
  positive : 1 ≤ paid ∧ 1 ≤ asked
  covered : paid ≤ surplus.get candidate.give
  floor : paymentFloor observation ticksLeft limit standing +
    (Bundle.only candidate.give paid).get observation.me.specialty ≤
    running.get observation.me.specialty
  normal : limit = none → asked ≤ paid ∧ paid ≤ 8 * asked
  atEnd : limit = none → inEndGame ticksLeft = true → candidate.give = observation.me.specialty →
    paid ≤ 2 * asked
  capped : ∀ ratio, limit = some ratio → (paid : ℚ) ≤ ratio * asked

theorem desiredQuantity_le (deficit : Int) (stock : Option Nat) (size : Int) :
    desiredQuantity deficit stock size ≤ max 1 deficit := by
  unfold desiredQuantity
  simp only
  omega

theorem termsUnder_priced {candidate : Candidate} {st : Proposing} {limit : Option ℚ}
    {quantity : Int} (hquantity : wanted candidate.want = some quantity) :
    termsUnder observation ticksLeft urgency wanted candidate st limit = .ok none ∨
    ∃ paid asked, termsUnder observation ticksLeft urgency wanted candidate st limit =
        .ok (some (.only candidate.give paid, .only candidate.want asked)) ∧
      (asked : Int) ≤ max 1 quantity ∧
      Priced observation ticksLeft st.draft.available st.surplus st.preserveNormal candidate limit
        paid asked := by
  unfold termsUnder
  simp only
  split
  next => exact Or.inl rfl
  next hfloor =>
    generalize hf : paymentFloor observation ticksLeft limit st.preserveNormal = floor at hfloor
    have hpayable : Bundle.make (fun r => if r = observation.me.specialty then
        min (st.surplus.get r : Int) (st.draft.available.get r - floor) else st.surplus.get r) =
        .ok (Bundle.ofFn fun r => if r = observation.me.specialty then
          min (st.surplus.get r) (st.draft.available.get r - floor) else st.surplus.get r) := by
      refine Bundle.make_ok fun r => ?_
      split
      next hr =>
        subst hr
        omega
      next => rfl
    rw [hpayable, hquantity]
    simp only [bind, Except.bind]
    rcases @computeTerms_cases candidate.want candidate.give (desiredQuantity quantity
        (some (st.draft.available.get candidate.want))
        (if inEndGame ticksLeft = true then (maxBulkTradeSize : Int)
          else tradeSize (st.draft.available.get observation.me.specialty -
            specialtyFloor observation.me ticksLeft)))
      (Bundle.ofFn fun r => if r = observation.me.specialty then
        min (st.surplus.get r) (st.draft.available.get r - floor) else st.surplus.get r)
      (urgency candidate.want) limit (some (st.draft.available.get candidate.want))
      (inEndGame ticksLeft && candidate.give = observation.me.specialty) with
      ⟨reason, h⟩ | ⟨paid, asked, h, hterms⟩
    · rw [h]
      exact Or.inl rfl
    · rw [h]
      have hcover := hterms.covered
      refine Or.inr ⟨paid, asked, rfl, hterms.wanted.trans (desiredQuantity_le _ _ _),
        hterms.distinct, hterms.positive, ?_, ?_, hterms.normal, fun hnone hend hgive =>
        hterms.atEnd hnone (by simp [hend, hgive]), hterms.capped⟩
      · simp only [Bundle.get_ofFn] at hcover
        split at hcover <;> omega
      · rw [hf, Bundle.get_only]
        simp only [Bundle.get_ofFn] at hcover
        by_cases hsp : candidate.give = observation.me.specialty
        · rw [if_pos hsp] at hcover
          rw [if_pos hsp.symm, ← hsp]
          rw [← hsp] at hfloor
          omega
        · rw [if_neg (fun h => hsp h.symm)]
          omega

/-- Outside the end game a half-price offer is tried once no normal one can be afforded. -/
theorem termsFor_priced {candidate : Candidate} {st : Proposing} {quantity : Int}
    (hquantity : wanted candidate.want = some quantity) :
    termsFor observation ticksLeft urgency wanted candidate st = .ok none ∨
    ∃ paid asked limit, termsFor observation ticksLeft urgency wanted candidate st =
        .ok (some (.only candidate.give paid, .only candidate.want asked)) ∧
      (asked : Int) ≤ max 1 quantity ∧
      (limit = none ∨ limit = some (1 / 2) ∧ inEndGame ticksLeft = false) ∧
      Priced observation ticksLeft st.draft.available st.surplus st.preserveNormal candidate limit
        paid asked := by
  unfold termsFor
  rcases @termsUnder_priced observation ticksLeft urgency wanted candidate st none quantity
    hquantity with h | ⟨paid, asked, h, hasked, hpriced⟩
  · rw [h]
    simp only [bind, Except.bind]
    by_cases hend : inEndGame ticksLeft = true
    · rw [if_pos hend]
      exact Or.inl rfl
    · rw [if_neg hend]
      rcases @termsUnder_priced observation ticksLeft urgency wanted candidate st
        (some (1 / 2)) quantity hquantity with h' | ⟨paid, asked, h', hasked, hpriced⟩
      · exact Or.inl h'
      · exact Or.inr ⟨paid, asked, _, h', hasked, Or.inr ⟨rfl, by simpa using hend⟩, hpriced⟩
  · rw [h]
    exact Or.inr ⟨paid, asked, none, rfl, hasked, Or.inl rfl, hpriced⟩

/-- What one round of the proposal loop does. -/
inductive Proposed (observation : Snapshot) (ticksLeft : Option Nat) (quantity : Int)
    (candidate : Candidate) (st : Proposing) : ForInStep Proposing → Prop
  | ended : st.draft.budget = 0 ∨ st.room = 0 →
    Proposed observation ticksLeft quantity candidate st (.done st)
  | unaffordable : 0 < st.draft.budget → 0 < st.room →
    Proposed observation ticksLeft quantity candidate st (.yield st)
  | late (standing : Bool) : offerLifetime observation = 0 →
    Proposed observation ticksLeft quantity candidate st
    (.done { st with preserveNormal := standing })
  | offered (limit : Option ℚ) (paid asked : Nat) (reason : String) :
    0 < st.draft.budget → 0 < st.room →
    0 < offerLifetime observation → (asked : Int) ≤ max 1 quantity →
    (limit = none ∨ limit = some (1 / 2) ∧ inEndGame ticksLeft = false) →
    Priced observation ticksLeft
    st.draft.available st.surplus st.preserveNormal candidate limit paid asked →
    Proposed observation ticksLeft quantity candidate st (.yield ⟨(st.draft.act
    (.offer candidate.stationId (.only candidate.give paid) (.only candidate.want asked)
          (observation.tick + offerLifetime observation)) reason).spend (.only candidate.give paid),
          st.surplus.saturatingSub (.only candidate.give paid), st.room - 1, st.preserveNormal ||
          aboveHalfPrice (.only candidate.give paid) (.only candidate.want asked)⟩)

theorem proposeOne_proposed {candidate : Candidate} {st : Proposing} {quantity : Int}
    (hquantity : wanted candidate.want = some quantity) :
    ∃ step, proposeOne observation ticksLeft urgency wanted candidate st = .ok step ∧
      Proposed observation ticksLeft quantity candidate st step := by
  unfold proposeOne
  split
  next hstop => exact ⟨_, rfl, .ended (by omega)⟩
  next hgo =>
    rcases @termsFor_priced observation ticksLeft urgency wanted candidate st
        quantity hquantity with
      h | ⟨paid, asked, limit, h, hasked, hlimit, hpriced⟩
    · rw [h]
      exact ⟨_, rfl, .unaffordable (by omega) (by omega)⟩
    · rw [h]
      simp only [bind, Except.bind]
      split
      next hlate => exact ⟨_, rfl, .late _ (by omega)⟩
      next => exact ⟨_, rfl, .offered limit paid asked _ (by omega) (by omega)
        (by omega) hasked hlimit hpriced⟩

theorem wantedQuantities_pos {available deficit : Bundle} {r : Resource} {quantity : Int}
    (h : wantedQuantities observation available reserve deficit r = some quantity) :
    0 < quantity := by
  unfold wantedQuantities at h
  simp only at h
  split_ifs at h <;> cases Option.some.inj h <;> assumption

/-- The listing stage changes the advertisement at most once, or leaves the draft alone. -/
theorem refreshListing_cases {available deficit excess : Bundle} {critical : Finset Resource} :
    ∃ draft', refreshListing observation ticksLeft excess surplus
        (wantedQuantities observation available reserve deficit) critical draft = .ok draft' ∧
      (draft' = draft ∨ 0 < draft.budget ∧ ∃ action reason, draft' = draft.act action reason ∧
        ((∃ selling seeking ttl, action = .advertise selling seeking (observation.tick + ttl) ∧
            0 < ttl ∧
            ttl ≤ observation.rules.maxPublicationTtlTicks ∧
            observation.tick + ttl ≤ observation.rules.durationTicks) ∨
          ∃ ad, observation.ownAdvertisement = some ad ∧
          action = .withdraw ad.advertisementId)) := by
  generalize hw : wantedQuantities observation available reserve deficit = wanted
  have hneed : ∃ need,
      Bundle.make (fun r => if excess.get r = 0 then (wanted r).getD 0 else 0) = .ok need := by
    refine ⟨_, Bundle.make_ok
      (n := fun r => if excess.get r = 0 then ((wanted r).getD 0).toNat else 0) fun r => ?_⟩
    split
    next =>
      cases hr : wanted r with
      | none => rfl
      | some quantity =>
        have := wantedQuantities_pos (hw ▸ hr)
        simp only [Option.getD_some]
        omega
    next => rfl
  obtain ⟨need, hneed⟩ := hneed
  unfold refreshListing
  rw [hneed]
  simp only [bind, Except.bind]
  split
  next =>
    split
    next ad had =>
      split
      next hbudget => exact ⟨_, rfl, Or.inr ⟨hbudget, _, _, rfl, Or.inr ⟨ad, had, rfl⟩⟩⟩
      next => exact ⟨_, rfl, Or.inl rfl⟩
    next => exact ⟨_, rfl, Or.inl rfl⟩
  next =>
    refine ⟨_, rfl, ?_⟩
    unfold refreshAdvertisement
    split
    next => exact Or.inl rfl
    next hbudget =>
      simp only
      split
      next => exact Or.inl rfl
      next action haction =>
        exact Or.inr ⟨by omega, action, _, rfl, decideAdvertisement_action haction⟩

end Stages

end SpaceportBazaar
