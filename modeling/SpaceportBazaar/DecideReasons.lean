import SpaceportBazaar.DecideCourse

namespace SpaceportBazaar

/-- A decision as it stands after some stages: what it started from, with actions and reasons
of their own added. -/
structure Decision.Continues (start d : Decision) : Prop where
  reserve : d.reserve = start.reserve
  available : d.available = start.available
  urgency : d.urgency = start.urgency
  reasons : ∀ reason ∈ d.reasons, reason ∈ start.reasons ∨ reason.startsWith "rate limited" = false

section Stages

variable {observation : Snapshot} {ticksLeft : Option Nat} {start : Decision} {draft draft' : Plan}

theorem Decision.Continues.refl (start : Decision) : start.Continues start :=
  ⟨rfl, rfl, rfl, fun _ hreason => Or.inl hreason⟩

theorem Decision.Continues.note {d : Decision} (h : start.Continues d) {reason : String}
    (other : ¬"rate limited".toList <+: reason.toList) :
    start.Continues { d with reasons := d.reasons ++ [reason] } := by
  refine ⟨h.reserve, h.available, h.urgency, fun r hr => ?_⟩
  rcases List.mem_append.mp hr with hr | hr
  · exact h.reasons r hr
  · rw [List.mem_singleton.mp hr, ← Bool.not_eq_true, String.startsWith_string_iff]
    exact Or.inr other

theorem Decision.Continues.add {d : Decision} (h : start.Continues d) (action : Action)
    {reason : String} (other : ¬"rate limited".toList <+: reason.toList) :
    start.Continues (d.add action reason) :=
  have noted := h.note other
  ⟨noted.reserve, noted.available, noted.urgency, noted.reasons⟩

theorem acceptIncoming_continues {reserve : Bundle}
    {urgency : Resource → Urgency} {holdFor : Option Resource}
    {offers : List Offer} {intake : Intake} (h₀ : start.Continues draft.decision)
    (h : acceptIncoming observation ticksLeft reserve urgency holdFor offers draft = .ok intake) :
    start.Continues intake.draft.decision := by
  refine Loop.keeps (P := fun st : Intake => start.Continues st.draft.decision) h h₀ ?_
  intro offer st step hst hstep
  unfold acceptOne at hstep
  split at hstep
  next =>
    cases Except.ok.inj hstep
    exact hst
  next =>
    obtain ⟨cost, _, hstep⟩ := bind_eq_ok_iff.mp hstep
    obtain ⟨gain, _, hstep⟩ := bind_eq_ok_iff.mp hstep
    simp only at hstep
    split at hstep
    next =>
      cases Except.ok.inj hstep
      exact hst
    next =>
      obtain ⟨verdict, _, hstep⟩ := bind_eq_ok_iff.mp hstep
      split_ifs at hstep
      · cases Except.ok.inj hstep
        exact hst
      · cases Except.ok.inj hstep
        exact hst
      · cases Except.ok.inj hstep
        exact hst.add _ (by simp [toString])

theorem withdrawDangerous_continues (h₀ : start.Continues draft.decision)
    (h : withdrawDangerous observation ticksLeft draft = .ok draft') :
    start.Continues draft'.decision := by
  refine Loop.keeps (P := fun st : Plan => start.Continues st.decision) h h₀ ?_
  intro offer st step hst hstep
  unfold withdrawOne at hstep
  simp only at hstep
  split at hstep
  next =>
    cases Except.ok.inj hstep
    exact hst
  next =>
    split at hstep
    next =>
      cases Except.ok.inj hstep
      exact hst
    next =>
      cases Except.ok.inj hstep
      exact hst.add _ (by simp)

theorem giveExcess_continues {excess : Bundle} (h₀ : start.Continues draft.decision)
    (h : giveExcess observation excess draft = .ok draft') : start.Continues draft'.decision := by
  obtain ⟨st, hst, hresult⟩ := bind_eq_ok_iff.mp h
  cases Except.ok.inj hresult
  refine Loop.keeps (P := fun st : Gifting => start.Continues st.draft.decision) hst h₀ ?_
  intro resource st step hst hstep
  unfold giveOne at hstep
  simp only at hstep
  split_ifs at hstep
  · cases Except.ok.inj hstep
    exact hst
  · cases Except.ok.inj hstep
    exact hst
  · split at hstep
    next =>
      cases Except.ok.inj hstep
      exact hst
    next =>
      obtain ⟨gift, _, hstep⟩ := bind_eq_ok_iff.mp hstep
      cases Except.ok.inj hstep
      exact hst.add _ (by simp [toString])

theorem refreshListing_continues {excess surplus : Bundle} {wanted : Resource → Option Int}
    {critical : Finset Resource} (h₀ : start.Continues draft.decision)
    (h : refreshListing observation ticksLeft excess surplus wanted critical draft = .ok draft') :
    start.Continues draft'.decision := by
  obtain ⟨need, _, hresult⟩ := bind_eq_ok_iff.mp h
  simp only at hresult
  split at hresult
  next =>
    split at hresult
    next =>
      cases Except.ok.inj hresult
      split
      next => exact h₀.add _ (by simp)
      next => exact h₀
    next =>
      cases Except.ok.inj hresult
      exact h₀
  next =>
    cases Except.ok.inj hresult
    unfold refreshAdvertisement
    split
    next => exact h₀
    next =>
      simp only
      split
      next => exact h₀
      next => exact h₀.add _ (by simp [toString])

theorem proposeOffers_continues {urgency : Resource → Urgency} {deficit surplus surplus' : Bundle}
    (h₀ : start.Continues draft.decision) (h :
      proposeOffers observation ticksLeft urgency deficit surplus draft = .ok (draft', surplus')) :
    start.Continues draft'.decision := by
  unfold proposeOffers at h
  simp only at h
  split at h
  next =>
    cases Except.ok.inj h
    exact h₀.note (by simp)
  next =>
    obtain ⟨st, hst, hresult⟩ := bind_eq_ok_iff.mp h
    cases Except.ok.inj hresult
    refine Loop.keeps (P := fun st : Proposing => start.Continues st.draft.decision) hst h₀ ?_
    intro candidate st step hst hstep
    unfold proposeOne at hstep
    split at hstep
    next =>
      cases Except.ok.inj hstep
      exact hst
    next =>
      obtain ⟨terms, _, hstep⟩ := bind_eq_ok_iff.mp hstep
      cases terms with
      | none =>
        cases Except.ok.inj hstep
        exact hst
      | some terms =>
        simp only at hstep
        split at hstep
        next =>
          cases Except.ok.inj hstep
          exact hst
        next =>
          cases Except.ok.inj hstep
          exact hst.add _ (by simp [toString])

theorem reconsider_continues {deferred : List Offer} {surplus surplus' : Bundle}
    {urgency urgency' : Resource → Urgency} (h₀ : start.Continues draft.decision) (h : reconsider
      observation ticksLeft deferred surplus urgency draft = .ok (draft', surplus', urgency')) :
    start.Continues draft'.decision := by
  unfold reconsider at h
  split at h
  next =>
    cases Except.ok.inj h
    exact h₀
  next =>
    obtain ⟨intake, hintake, hresult⟩ := bind_eq_ok_iff.mp h
    cases Except.ok.inj hresult
    exact acceptIncoming_continues h₀ hintake

theorem offerAid_continues {surplus : Bundle} {urgency : Resource → Urgency}
    (h₀ : start.Continues draft.decision)
    (h : offerAid observation ticksLeft surplus urgency draft = .ok draft') :
    start.Continues draft'.decision := by
  unfold offerAid at h
  simp only at h
  split_ifs at h
  · cases Except.ok.inj h
    exact h₀
  · cases Except.ok.inj h
    exact h₀
  · refine Loop.keeps (P := fun st : Plan => start.Continues st.decision) h h₀ ?_
    intro gift st step hst hstep
    unfold aidOne at hstep
    split at hstep
    next =>
      cases Except.ok.inj hstep
      exact hst
    next =>
      obtain ⟨bundle, _, hstep⟩ := bind_eq_ok_iff.mp hstep
      simp only at hstep
      split_ifs at hstep
      · cases Except.ok.inj hstep
        exact hst
      · cases Except.ok.inj hstep
        exact hst
      · cases Except.ok.inj hstep
        exact hst.add _ (by simp [toString])

end Stages

/-- What a decision that trades starts from it keeps, and it never says it was rate limited. -/
theorem Conducted.continues {observation : Snapshot} {memory : PolicyMemory}
    {commitments : CommitmentTracker} {commandBudget : Option Int} {draft last : Plan} {p : Passage}
    {d : Deeds} (h : Conducted observation memory commitments commandBudget draft p d last) :
    draft.decision.Continues last.decision := by
  have hintake := acceptIncoming_continues (.refl draft.decision) h.course.accepts
  have hgiven :=
    giveExcess_continues (withdrawDangerous_continues hintake h.course.withdraws) h.course.gives
  have hposed :=
    proposeOffers_continues (refreshListing_continues hgiven h.course.lists) h.course.proposes
  exact offerAid_continues (reconsider_continues hposed h.course.reviews) h.aids

end SpaceportBazaar
