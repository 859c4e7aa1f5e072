import SpaceportBazaar.DecideBalance

namespace SpaceportBazaar

section Held

variable (observation : Snapshot) (ticksLeft : Option Nat) (reserve : Bundle)

/-- `evaluate_incoming` as the accept stage calls it, at a balance whose urgency is current. -/
def verdictAt (running : Bundle) (offer : Offer) : Except Raised AcceptDecision := do
  let cost ← offer.whatStationPays observation.selfStationId
  evaluateIncoming offer observation.selfStationId running reserve
    (computeUrgency running observation.me.upkeepPerTick reserve) (some observation.me.specialty)
    (productionPaymentLimit (running.saturatingSub cost) observation.me ticksLeft)
      (inEndGame ticksLeft)

/-- An offer to us that the accept stage finds worth taking at this balance. -/
structure Takeable (running : Bundle) (offer : Offer) (cost gain : Bundle) : Prop where
  ours : offer.recipientId = observation.selfStationId
  pays : offer.whatStationPays observation.selfStationId = .ok cost
  receives : offer.whatStationReceives observation.selfStationId = .ok gain
  unguarded : ¬guardsStanding observation ticksLeft running cost
  accepted : (verdictOn observation ticksLeft reserve running cost gain).accept = true

variable {observation ticksLeft reserve} {holdFor : Option Resource} {offers : List Offer}
  {draft : Plan} {intake : Intake} {running cost gain : Bundle} {offer : Offer}

theorem verdictAt_eq (h : Takeable observation ticksLeft reserve running offer cost gain) :
    verdictAt observation ticksLeft reserve running offer =
      .ok (verdictOn observation ticksLeft reserve running cost gain) := by
  unfold verdictAt
  rw [h.pays]
  exact evaluateIncoming_eq h.pays h.receives

theorem acceptOne_weighs
    {st : Intake} {step : ForInStep Intake} (ours : offer.recipientId = observation.selfStationId)
    (current : st.urgency = computeUrgency st.draft.available observation.me.upkeepPerTick reserve)
    (h : acceptOne observation ticksLeft reserve holdFor offer st = .ok step) :
    Weighed observation ticksLeft reserve holdFor offer st step := by
  obtain ⟨step', hstep', hweighed⟩ :=
    @acceptOne_weighed observation ticksLeft reserve holdFor offer st ours current
  cases Except.ok.inj (h.symm.trans hstep')
  exact hweighed

/-- Offers are held back only for the last command, at the balance they are judged on. -/
theorem acceptIncoming_holds (ours : ∀ o ∈ offers, o.recipientId = observation.selfStationId)
    (accepts : acceptIncoming observation ticksLeft reserve
      (computeUrgency draft.available observation.me.upkeepPerTick reserve) holdFor offers draft =
        .ok intake) :
    intake.deferred = [] ∨
    intake.draft.budget = 0 ∨ intake.draft.budget = 1 ∧ ∀ o ∈ intake.deferred,
      ∃ cost gain, Takeable observation ticksLeft reserve intake.draft.available o cost gain := by
  refine Loop.ensures (I := fun rest (st : Intake) =>
    st.urgency = computeUrgency st.draft.available observation.me.upkeepPerTick reserve ∧
    (∀ o ∈ rest, o.recipientId = observation.selfStationId) ∧
    (st.deferred = [] ∨ st.draft.budget = 0 ∨ st.draft.budget = 1 ∧ ∀ o ∈ st.deferred,
      ∃ cost gain, Takeable observation ticksLeft reserve st.draft.available o cost gain))
    (Q := fun st =>
      st.deferred = [] ∨ st.draft.budget = 0 ∨ st.draft.budget = 1 ∧ ∀ o ∈ st.deferred,
      ∃ cost gain, Takeable observation ticksLeft reserve st.draft.available o cost gain)
    accepts ⟨rfl, ours, Or.inl rfl⟩ ?_ fun st h => h.2.2
  rintro offer rest st step ⟨hcurrent, hours, hholds⟩ hstep
  have hrest := fun o ho => hours o (List.mem_cons_of_mem _ ho)
  have hoffer := hours offer List.mem_cons_self
  cases acceptOne_weighs hoffer hcurrent hstep with
  | spent _ => exact hholds
  | passed _ _ _ _ _ _ => exact ⟨hcurrent, hrest, hholds⟩
  | deferred cost gain hone hcost hgain hguard haccept _ =>
    refine ⟨hcurrent, hrest, Or.inr (Or.inr ⟨hone, fun o ho => ?_⟩)⟩
    rcases List.mem_append.mp ho with ho | ho
    · rcases hholds with hnone | hzero | ⟨_, hheld⟩
      · simp [hnone] at ho
      · omega
      · exact hheld o ho
    · cases List.mem_singleton.mp ho
      exact ⟨cost, gain, hoffer, hcost, hgain, hguard, haccept⟩
  | accepted cost gain reason hbudget _ _ _ _ _ =>
    refine ⟨rfl, hrest, ?_⟩
    rcases hholds with hnone | hzero | ⟨hone, _⟩
    · exact Or.inl hnone
    · omega
    · refine Or.inr (Or.inl ?_)
      show st.draft.budget - 1 = 0
      omega

/-- Without anything to hold out for, the last command goes to an offer that can still wait. -/
theorem acceptIncoming_takes (last : draft.budget = 1)
    (patient : ∃ o ∈ offers, observation.tick + 1 < o.expiresTick) (takeable :
      ∀ o ∈ offers, ∃ cost gain, Takeable observation ticksLeft reserve draft.available o cost gain)
    (accepts : acceptIncoming observation ticksLeft reserve
      (computeUrgency draft.available observation.me.upkeepPerTick reserve) none offers draft =
        .ok intake) :
    intake.draft.budget = 0 := by
  refine Loop.ensures (I := fun rest (st : Intake) =>
    st.urgency = computeUrgency st.draft.available observation.me.upkeepPerTick reserve ∧
    rest ⊆ offers ∧
    (st.draft.budget = 0 ∨ st.draft = draft ∧ ∃ o ∈ rest, observation.tick + 1 < o.expiresTick))
    (Q := fun st => st.draft.budget = 0)
    accepts ⟨rfl, List.Subset.refl _, Or.inr ⟨rfl, patient⟩⟩ ?_ ?_
  · rintro offer rest st step ⟨hcurrent, hsub, hwaits⟩ hstep
    have hrest : rest ⊆ offers := fun o ho => hsub (List.mem_cons_of_mem _ ho)
    obtain ⟨cost', gain', htakeable⟩ := takeable offer (hsub List.mem_cons_self)
    cases acceptOne_weighs htakeable.ours hcurrent hstep with
    | spent hspent => exact hspent
    | passed cost gain hbudget hcost hgain hrefused =>
      rcases hwaits with hzero | ⟨hsame, _⟩
      · omega
      · cases Except.ok.inj (htakeable.pays.symm.trans hcost)
        cases Except.ok.inj (htakeable.receives.symm.trans hgain)
        rw [hsame] at hrefused
        rcases hrefused with hguarded | hrefused
        · exact absurd hguarded htakeable.unguarded
        · exact absurd (hrefused.symm.trans htakeable.accepted) (by decide)
    | deferred cost gain hone _ _ _ _ hlate =>
      refine ⟨hcurrent, hrest, hwaits.imp id fun ⟨hsame, o, ho, hpatient⟩ =>
        ⟨hsame, o, ?_, hpatient⟩⟩
      rcases List.mem_cons.mp ho with rfl | ho
      · rcases hlate with hlate | ⟨r, hr, _⟩
        · omega
        · cases hr
      · exact ho
    | accepted cost gain reason hbudget _ _ _ _ _ =>
      refine ⟨rfl, hrest, Or.inl ?_⟩
      show st.draft.budget - 1 = 0
      rcases hwaits with hzero | ⟨hsame, _⟩
      · omega
      · rw [hsame, last]
  · rintro st ⟨_, _, hzero | ⟨_, o, ho, _⟩⟩
    · exact hzero
    · simp at ho

/-- With one command left, offers in their last usable tick are all held back again. -/
theorem acceptIncoming_holds_again (last : draft.budget = 1)
    (urgent : ∀ o ∈ offers, o.expiresTick ≤ observation.tick + 1)
    (ours : ∀ o ∈ offers, o.recipientId = observation.selfStationId)
    (accepts : acceptIncoming observation ticksLeft reserve
      (computeUrgency draft.available observation.me.upkeepPerTick reserve) holdFor offers draft =
        .ok intake) :
    intake.draft = draft := by
  refine Loop.ensures (I := fun rest (st : Intake) =>
    st.urgency = computeUrgency st.draft.available observation.me.upkeepPerTick reserve ∧
    rest ⊆ offers ∧
    st.draft = draft) (Q :=
      fun st => st.draft = draft) accepts ⟨rfl, List.Subset.refl _, rfl⟩ ?_ fun st h => h.2.2
  rintro offer rest st step ⟨hcurrent, hsub, hsame⟩ hstep
  have hrest : rest ⊆ offers := fun o ho => hsub (List.mem_cons_of_mem _ ho)
  have hurgent := urgent offer (hsub List.mem_cons_self)
  cases acceptOne_weighs (ours offer (hsub List.mem_cons_self)) hcurrent hstep with
  | spent _ => exact hsame
  | passed _ _ _ _ _ _ => exact ⟨hcurrent, hrest, hsame⟩
  | deferred _ _ _ _ _ _ _ _ => exact ⟨hcurrent, hrest, hsame⟩
  | accepted cost gain reason _ _ _ _ _ hfree =>
    have := (hfree (by rw [hsame, last])).1
    omega

end Held

section Course

variable {observation : Snapshot} {ticksLeft : Option Nat} {reserve : Bundle}
  {memory : PolicyMemory} {start : Account} {hist more : List Deed} {draft draft' : Plan}
  {p : Passage} {d : Deeds}

/-- Stages that use no command change neither the balance nor the actions. -/
theorem Tracks.idle (h : Tracks observation ticksLeft reserve memory start hist draft)
    (h' : Tracks observation ticksLeft reserve memory start (hist ++ more) draft')
    (idle : draft'.budget = draft.budget) :
    draft'.available = draft.available ∧ draft'.decision.actions = draft.decision.actions := by
  have hbefore := h.spent
  have hafter := h'.spent
  have hmore : more = [] := by
    rw [h.actions, List.length_map] at hbefore
    rw [h'.actions, List.length_map, List.length_append] at hafter
    exact List.eq_nil_of_length_eq_zero (by omega)
  subst hmore
  refine ⟨?_, by rw [h'.actions, h.actions, List.append_nil]⟩
  rw [h.since h']
  exact Bundle.ext_get fun r => by simp

theorem Tracks.kept (h : Tracks observation ticksLeft reserve memory start hist draft)
    (h' : Tracks observation ticksLeft reserve memory start (hist ++ more) draft') :
    draft.decision.actions ⊆ draft'.decision.actions := by
  rw [h.actions, h'.actions, List.map_append]
  exact List.subset_append_left _ _

/-- What the second look at the deferred offers does to the draft. -/
theorem Course.reviews_cases (h : Course observation ticksLeft draft p)
    (kept : p.posed.decision.reserve = draft.decision.reserve) :
    (p.intake.deferred = [] ∨ p.posed.budget = 0) ∧ p.reviewed = p.posed ∧
        p.urgency = p.gauge observation draft.decision.reserve ∨
      (p.intake.deferred ≠ [] ∧ 0 < p.posed.budget) ∧ p.urgency =
        computeUrgency p.posed.available observation.me.upkeepPerTick draft.decision.reserve ∧
        ∃ intake, acceptIncoming observation ticksLeft draft.decision.reserve
          (computeUrgency p.posed.available observation.me.upkeepPerTick draft.decision.reserve)
            none
            p.intake.deferred p.posed = .ok intake ∧ p.reviewed = intake.draft := by
  have hreviews := h.reviews
  unfold reconsider at hreviews
  split at hreviews
  next hnothing =>
    have hpair := Except.ok.inj hreviews
    exact Or.inl ⟨by simpa using hnothing, (congrArg (fun x => x.1) hpair).symm,
      (congrArg (fun x => x.2.2) hpair).symm⟩
  next hsomething =>
    rw [kept] at hreviews
    obtain ⟨intake, hintake, hresult⟩ := bind_eq_ok_iff.mp hreviews
    have hpair := Except.ok.inj hresult
    simp only [not_or, List.isEmpty_iff] at hsomething
    exact Or.inr ⟨⟨hsomething.1, by omega⟩, (congrArg (fun x => x.2.2) hpair).symm, intake, hintake,
      (congrArg (fun x => x.1) hpair).symm⟩

theorem Traced.deferred_incoming (h : Traced observation ticksLeft reserve memory start p d)
    {o : Offer} (held : o ∈ p.intake.deferred) : o ∈ observation.incomingOpenOffers :=
  h.deferred.subset (List.mem_append_right _ held)

end Course

section Outcome

variable (observation : Snapshot) (memory : PolicyMemory) (commitments : CommitmentTracker)
  (commandBudget : Option Int)

/-- `evaluate_incoming` refuses the offer at this balance. -/
def RefusedAt (ticksLeft : Option Nat) (reserve running : Bundle) (offer : Offer) : Prop :=
  ∃ verdict, verdictAt observation ticksLeft reserve running offer = .ok verdict ∧
    verdict.accept = false

/-- The second look is handed only offers whose id is already accepted, or one that expires
later than the next tick. -/
def HandedUseful (p : Passage) : Prop :=
  (∀ o ∈ p.intake.deferred, .accept o.offerId ∈ p.intake.draft.decision.actions) ∨
    ∃ o ∈ p.intake.deferred, observation.tick + 1 < o.expiresTick

variable {observation memory commitments commandBudget} {draft last : Plan}
  {p : Passage} {d : Deeds}

/-- The aid stage uses one command if a gift is due, and none else. -/
theorem Conducted.spent
    (h : Conducted observation memory commitments commandBudget draft p d last) :
    p.reviewed.decision.actions ⊆ last.decision.actions ∧
    last.decision.actions.length + p.reviewed.budget = commandAllowance observation commandBudget +
      (aidDue observation (some (observation.rules.durationTicks - observation.tick))
        (surplusAboveReserve p.reviewed.available draft.decision.reserve) p.urgency
          p.reviewed).toList.length := by
  have hspent : p.reviewed.budget + p.reviewed.decision.actions.length = draft.budget :=
    h.traced.reviews.spent
  rw [h.actions, ← h.allowance, List.map_append, ← h.traced.reviews.actions]
  refine ⟨List.subset_append_left _ _, ?_⟩
  rw [List.length_append, List.length_map, Deeds.aids, List.length_map]
  omega

theorem Conducted.unaided
    (h : Conducted observation memory commitments commandBudget draft p d last)
    (idle : aidDue observation (some (observation.rules.durationTicks - observation.tick))
      (surplusAboveReserve p.reviewed.available draft.decision.reserve) p.urgency p.reviewed =
        none) :
    last = p.reviewed := by
  obtain ⟨last', hlast', ⟨_, rfl⟩ | ⟨gift, reason, hgift, _⟩⟩ := @offerAid_due observation
    (some (observation.rules.durationTicks - observation.tick))
    (surplusAboveReserve p.reviewed.available draft.decision.reserve) p.urgency p.reviewed
  · exact Except.ok.inj (h.aids.symm.trans hlast')
  · rw [idle] at hgift
    cases hgift

/-- A stage that leaves the last command unused has left everything held back as it was. -/
theorem Conducted.held (h : Conducted observation memory commitments commandBudget draft p d last)
    (held : p.intake.deferred ≠ []) (left : 0 < p.posed.budget) :
    p.posed.budget = 1 ∧ p.posed.decision.actions = p.intake.draft.decision.actions ∧
    ∀ o ∈ p.intake.deferred,
      ∃ cost gain, Takeable observation (some (observation.rules.durationTicks - observation.tick))
        draft.decision.reserve p.posed.available o cost gain := by
  have hposes := h.traced.poses
  have hintake : p.intake.draft.budget + p.intake.draft.decision.actions.length = draft.budget :=
    h.traced.intake.spent
  have hposed : p.posed.budget + p.posed.decision.actions.length = draft.budget := hposes.spent
  have hshape : d.beforeOffers ++ d.proposed =
      d.taken ++ (d.withdrawn ++ (d.given ++ (d.noticed ++ d.proposed))) := by
    simp [Deeds.beforeOffers, Deeds.beforeListing]
  rw [hshape] at hposes
  have hlonger : p.intake.draft.decision.actions.length ≤ p.posed.decision.actions.length := by
    rw [h.traced.intake.actions, hposes.actions, List.map_append, List.length_append]
    exact Nat.le_add_right _ _
  have haccepts := h.course.accepts
  have hcurrent : draft.decision.urgency =
      computeUrgency draft.available observation.me.upkeepPerTick draft.decision.reserve := by
    obtain ⟨_, _, _, rfl⟩ := h.opening
    rfl
  rw [hcurrent] at haccepts
  have hours : ∀ o ∈ observation.incomingOpenOffers, o.recipientId = observation.selfStationId :=
    fun o ho => (Snapshot.mem_incomingOpenOffers.mp ho).2.1
  rcases acceptIncoming_holds hours haccepts with hnone | hzero | ⟨hone, hheld⟩
  · exact absurd hnone held
  · omega
  · obtain ⟨hbalance, hactions⟩ := h.traced.intake.idle hposes (by omega)
    refine ⟨by omega, hactions, ?_⟩
    rw [hbalance]
    exact hheld

/-- With a command left over at the end, the second look has given back what the first pass
held exactly if not all of it was in its last usable tick. -/
theorem Conducted.deferred_iff
    (h : Conducted observation memory commitments commandBudget draft p d last)
    (unspent : last.decision.actions.length < commandAllowance observation commandBudget) :
    (∀ o ∈ p.intake.deferred, .accept o.offerId ∈ last.decision.actions ∨
      RefusedAt observation (some (observation.rules.durationTicks - observation.tick))
        draft.decision.reserve
        p.posed.available o) ↔ HandedUseful observation p := by
  obtain ⟨hkept, hspent⟩ := h.spent
  have hours : ∀ o ∈ p.intake.deferred, o.recipientId = observation.selfStationId :=
    fun o ho => (Snapshot.mem_incomingOpenOffers.mp (h.traced.deferred_incoming ho)).2.1
  have hearly : p.intake.draft.decision.actions ⊆ last.decision.actions := by
    have hreviews := h.traced.reviews
    have hshape : d.beforeAid =
        d.taken ++ (d.withdrawn ++ (d.given ++ (d.noticed ++ (d.proposed ++ d.late)))) := by
      simp [Deeds.beforeAid, Deeds.beforeOffers, Deeds.beforeListing]
    rw [hshape] at hreviews
    exact List.Subset.trans (h.traced.intake.kept hreviews) hkept
  rcases h.course.reviews_cases h.traced.poses.reserve with
    ⟨hnothing, hsame, _⟩ | ⟨⟨hheld, hleft⟩, hurgency, intake, hintake, hlate⟩
  · rcases hnothing with hnothing | hnothing
    · simp [HandedUseful, hnothing]
    · -- the commands are spent before the second look
      rw [hsame] at hspent
      omega
  obtain ⟨hone, hactions, htakeable⟩ := h.held hheld hleft
  by_cases hpatient : ∃ o ∈ p.intake.deferred, observation.tick + 1 < o.expiresTick
  · -- or in it
    have htakes := acceptIncoming_takes hone hpatient htakeable hintake
    rw [hlate, htakes] at hspent
    omega
  have hagain := acceptIncoming_holds_again hone (by simpa using hpatient) hours hintake
  have hnoAid : aidDue observation (some (observation.rules.durationTicks - observation.tick))
      (surplusAboveReserve p.reviewed.available draft.decision.reserve) p.urgency p.reviewed =
          none := by
    by_contra hdue
    obtain ⟨gift, hgift⟩ := Option.ne_none_iff_exists'.mp hdue
    rw [hgift, hlate, hagain, hone, Option.toList_some, List.length_singleton] at hspent
    omega
  have hlast := h.unaided hnoAid
  rw [hlate, hagain] at hlast
  constructor
  · intro hredeemed
    refine Or.inl fun o ho => ?_
    obtain ⟨cost, gain, htake⟩ := htakeable o ho
    rcases hredeemed o ho with haccepted | ⟨verdict, hverdict, hrefused⟩
    · rwa [hlast, hactions] at haccepted
    · cases Except.ok.inj ((verdictAt_eq htake).symm.trans hverdict)
      exact absurd (hrefused.symm.trans htake.accepted) (by decide)
  · rintro (htaken | hwaits) o ho
    · exact Or.inl (hearly (htaken o ho))
    · exact absurd hwaits hpatient

variable (observation memory commitments commandBudget)

/-- Where a decision leaves a command unused, what its first pass held back is accepted or
refused at the second look exactly if that look was handed nothing new, or an offer that can
wait. -/
theorem decide_deferred : ∃ decision memory',
    Policy.decide observation memory commitments commandBudget = .ok (decision, memory') ∧
    (gateReason observation memory = none → ∃ draft p,
      assess observation memory commitments commandBudget = .ok draft ∧
      Course observation (some (observation.rules.durationTicks - observation.tick)) draft p ∧
      (decision.actions.length < commandAllowance observation commandBudget →
        ((∀ o ∈ p.intake.deferred, .accept o.offerId ∈ decision.actions ∨
          RefusedAt observation (some (observation.rules.durationTicks - observation.tick))
            draft.decision.reserve
            p.posed.available o) ↔ HandedUseful observation p))) := by
  cases hgate : gateReason observation memory with
  | some reason =>
    obtain ⟨draft, _, _, hdecide⟩ := decide_gated observation memory commitments commandBudget hgate
    exact ⟨_, _, hdecide, nofun⟩
  | none =>
    obtain ⟨draft, p, d, last, h⟩ :=
      decide_conducted observation memory commitments commandBudget hgate
    exact ⟨_, _, h.decides, fun _ => ⟨draft, p, h.assessed, h.course, h.deferred_iff⟩⟩

end Outcome

def lastTickGift : Offer := { marketOffer ⟨0, 4, 0⟩ .zero with expiresTick := 2 }

def lastTickView : Snapshot := marketView 6 ⟨60, 100, 100⟩ [lastTickGift] []

/-- A gift that expires with this tick is left to expire, and the one command unused. -/
theorem gift_held_back : ∃ decision memory' draft p,
    Policy.decide lastTickView .new .new (some 1) = .ok (decision, memory') ∧
    gateReason lastTickView .new = none ∧ assess lastTickView .new .new (some 1) = .ok draft ∧
    Course lastTickView (some 119) draft p ∧ p.intake.deferred = [lastTickGift] ∧
    decision.actions.length < commandAllowance lastTickView (some 1) ∧
    .accept lastTickGift.offerId ∉ decision.actions ∧
    ¬RefusedAt lastTickView (some 119) draft.decision.reserve p.posed.available lastTickGift := by
  have hgate : gateReason lastTickView .new = none := by decide
  obtain ⟨draft, p, d, last, h⟩ := decide_conducted lastTickView .new .new (some 1) hgate
  have hrun : (assess lastTickView .new .new (some 1)).toOption.any (fun draft =>
      (passage lastTickView (some 119) draft).toOption.any fun p =>
        (Policy.decide lastTickView .new .new (some 1)).toOption.any fun chosen =>
          decide (chosen.1.actions = []) && decide (p.intake.deferred = [lastTickGift]) &&
          (verdictAt lastTickView
          (some 119) draft.decision.reserve p.posed.available lastTickGift).toOption.any
            AcceptDecision.accept) = true := by
    decide +kernel
  obtain ⟨draft', hdraft', hrun⟩ := (Option.any_eq_true _ _).mp hrun
  obtain ⟨p', hp', hrun⟩ := (Option.any_eq_true _ _).mp hrun
  obtain ⟨⟨decision, memory'⟩, hdecide, hrun⟩ := (Option.any_eq_true _ _).mp hrun
  cases Except.ok.inj (h.assessed.symm.trans (toOption_eq_some_iff.mp hdraft'))
  cases Except.ok.inj (h.course.passage.symm.trans (toOption_eq_some_iff.mp hp'))
  simp only [Bool.and_eq_true, decide_eq_true_eq] at hrun
  obtain ⟨⟨hactions, hdeferred⟩, hverdict⟩ := hrun
  obtain ⟨verdict, hverdict, haccept⟩ := (Option.any_eq_true _ _).mp hverdict
  refine ⟨decision, memory', draft, p, toOption_eq_some_iff.mp hdecide, hgate, h.assessed, h.course,
    hdeferred, ?_, ?_, ?_⟩
  · rw [hactions]
    decide
  · simp [hactions]
  · rintro ⟨verdict', hverdict', hrefused⟩
    cases Except.ok.inj ((toOption_eq_some_iff.mp hverdict).symm.trans hverdict')
    exact absurd (haccept.symm.trans hrefused) (by decide)

end SpaceportBazaar
