import SpaceportBazaar.DecideDeferred
import SpaceportBazaar.DecideOffers

namespace SpaceportBazaar

section Reserve

variable {observation : Snapshot} {ticksLeft : Option Nat} {reserve : Bundle}
  {memory : PolicyMemory} {model : CounterpartyModel} {start a : Account} {past since : List Deed}
  {draft : Plan} {p : Passage} {d : Deeds} {r : Resource}

end Reserve

/-- A resource is given away, in a gift of excess or of aid. -/
def GivesAway (actions : List Action) (r : Resource) : Prop :=
  ∃ station give expires, .offer station give .zero expires ∈ actions ∧ 0 < give.get r

/-- A resource is asked for in a paid offer. -/
def Requests (actions : List Action) (r : Resource) : Prop :=
  ∃ station give receive expires, .offer station give receive expires ∈ actions ∧ 0 < receive.get r

theorem Requests.mono {actions actions' : List Action} {r : Resource} (sub : actions ⊆ actions')
    (h : Requests actions r) : Requests actions' r := by
  obtain ⟨station, give, receive, expires, hmem, hpos⟩ := h
  exact ⟨station, give, receive, expires, sub hmem, hpos⟩

section Outcome

variable {observation : Snapshot} {memory : PolicyMemory} {commitments : CommitmentTracker}
  {commandBudget : Option Int} {draft last : Plan} {p : Passage} {d : Deeds}

/-- Nothing is urgent where every resource is in good stock, the reserve being below that. -/
theorem computeUrgency_eq_none_iff {balance upkeep reserve : Bundle} {r : Resource}
    (capped : reserve.get r ≤ maxReserveUnits) :
    computeUrgency balance upkeep reserve r = .none ↔
    max watchStock (upkeep.get r) ≤ balance.get r := by
  have hlevels : watchStock = 20 ∧ criticalStock = 10 ∧ maxReserveUnits = 15 := ⟨rfl, rfl, rfl⟩
  unfold computeUrgency
  constructor
  · intro h
    split_ifs at h
    omega
  · intro h
    rw [if_neg (by omega), if_neg (by omega)]

/-- The urgency of the aid stage is that of the balance it was measured on, which is no lower
than the balance the stage is entered with. -/
theorem Conducted.urgency_measured
    (h : Conducted observation memory commitments commandBudget draft p d last) :
    p.urgency = computeUrgency p.measured observation.me.upkeepPerTick draft.decision.reserve ∧
      ∀ r, p.measured.get r ≤ p.intake.draft.available.get r := by
  have hposes := h.traced.poses
  have hshape : d.beforeOffers ++ d.proposed =
      d.taken ++ (d.withdrawn ++ (d.given ++ (d.noticed ++ d.proposed))) := by
    simp [Deeds.beforeOffers, Deeds.beforeListing]
  rw [hshape] at hposes
  unfold Passage.measured
  rcases h.course.reviews_cases h.traced.poses.reserve with ⟨hnothing, _, hgauge⟩ |
    ⟨⟨hheld, hleft⟩, hurgency, _⟩
  · rw [if_pos hnothing]
    exact ⟨hgauge, fun r => le_rfl⟩
  · rw [if_neg (by simp only [not_or]; exact ⟨hheld, by omega⟩)]
    exact ⟨hurgency, h.traced.intake.spends hposes⟩

/-- A paid offer asks for something. -/
theorem Allowed.asked {ticksLeft : Option Nat} {reserve : Bundle} {model : CounterpartyModel}
    {past : List Deed} {a : Account} {candidate : Candidate} {paid asked : Nat}
    (h : Allowed observation ticksLeft reserve model past a (.propose candidate paid asked)) :
    0 < (Bundle.only candidate.want asked).get candidate.want := by
  obtain ⟨_, _, _, _, _, _, _, hpriced⟩ := h
  rw [Bundle.get_only, if_pos rfl]
  exact hpriced.positive.2

theorem Conducted.asks (h : Conducted observation memory commitments commandBudget draft p d last)
    {candidate : Candidate} {paid asked : Nat} (mem : .propose candidate paid asked ∈ d.proposed) :
    Requests p.reviewed.decision.actions candidate.want := by
  obtain ⟨_, _, hallowed⟩ := h.traced.poses.allowed (List.mem_append_right _ mem)
  have hmem :
      (Deed.propose candidate paid asked).action observation ∈ p.reviewed.decision.actions := by
    rw [h.traced.reviews.actions]
    exact List.mem_map_of_mem (List.mem_append_left _ (List.mem_append_right _ mem))
  exact ⟨_, _, _, _, hmem, hallowed.asked⟩

/-- Whatever a decision asks for, it asks for in a paid offer, and so before the aid stage. -/
theorem Conducted.requests
    (h : Conducted observation memory commitments commandBudget draft p d last) {r : Resource}
    (requested : Requests last.decision.actions r) : ∃ candidate paid asked,
    .propose candidate paid asked ∈ d.proposed ∧ candidate.want = r ∧
    Requests p.reviewed.decision.actions r := by
  obtain ⟨station, give, receive, expires, hmem, hasked⟩ := requested
  rcases (h.offer_cases hmem).2 with ⟨_, _, _, _, rfl⟩ |
      ⟨candidate, paid, asked, hproposed, _, _, rfl⟩ |
    ⟨_, _, _, _, rfl⟩
  · simp at hasked
  · obtain rfl : candidate.want = r := by
      by_contra hne
      simp [Ne.symm hne] at hasked
    exact ⟨candidate, paid, asked, hproposed, rfl, h.asks hproposed⟩
  · simp at hasked

/-- What a decision gives away is excess, or goes to a need that has stood longest. -/
theorem Conducted.given_cases
    (h : Conducted observation memory commitments commandBudget draft p d last) {r : Resource}
    (gives : GivesAway last.decision.actions r) :
    (∃ recipient quantity, .giveExcess recipient r quantity ∈ d.given) ∨
      ∃ gift, aidDue observation (some (observation.rules.durationTicks - observation.tick))
        (surplusAboveReserve p.reviewed.available draft.decision.reserve) p.urgency p.reviewed =
          some gift ∧
        gift.resource = r := by
  obtain ⟨station, give, expires, hmem, hgave⟩ := gives
  rcases (h.offer_cases hmem).2 with ⟨r', quantity, hgiven, rfl, _⟩ |
      ⟨candidate, paid, asked, hproposed, _, _, hzero⟩ |
    ⟨gift, hgift, _, rfl, _⟩
  · obtain rfl : r = r' := by
      by_contra hne
      simp [hne] at hgave
    exact Or.inl ⟨station, quantity, hgiven⟩
  · obtain ⟨_, _, hallowed⟩ := h.traced.poses.allowed (List.mem_append_right _ hproposed)
    have hpos := hallowed.asked
    simp [← hzero] at hpos
  · refine Or.inr ⟨gift, hgift, ?_⟩
    by_contra hne
    simp [Ne.symm hne] at hgave

/-- Excess is given away of nothing that is asked for. -/
theorem Conducted.excess_unasked
    (h : Conducted observation memory commitments commandBudget draft p d last) {recipient : String}
    {r : Resource} {quantity : Nat} (given : .giveExcess recipient r quantity ∈ d.given) :
    ¬Requests last.decision.actions r := by
  intro hasked
  obtain ⟨candidate, paid, asked, hproposed, hwant, _⟩ := h.requests hasked
  exact h.traced.gift_unasked h.reserve_le given hproposed hwant

/-- While nothing is urgent for the aid stage, the specialty is not asked for. -/
theorem Conducted.specialty_unasked
    (h : Conducted observation memory commitments commandBudget draft p d last)
    (calm : ∀ r, p.urgency r = .none) :
    ¬Requests last.decision.actions observation.me.specialty := by
  intro hasked
  obtain ⟨candidate, paid, asked, hproposed, hspecialty, _⟩ := h.requests hasked
  obtain ⟨_, _, _, _, quantity, heq, hwanted, _⟩ := h.traced.asks _ hproposed
  cases heq
  have hcalm := calm observation.me.specialty
  obtain ⟨hurgency, hle⟩ := h.urgency_measured
  rw [hurgency, computeUrgency_eq_none_iff (h.reserve_le _)] at hcalm
  have hnone : (p.deficit draft.decision.reserve).get observation.me.specialty = 0 := by
    have hcap := h.reserve_le observation.me.specialty
    have hmeasured := hle observation.me.specialty
    unfold Passage.deficit deficitBelowReserve
    rw [Bundle.get_saturatingSub]
    simp only [watchStock, maxReserveUnits] at *
    omega
  unfold wantedQuantities at hwanted
  simp [hspecialty, hnone] at hwanted

/-- Nothing is given away that is asked for, where no need that has stood longest
is of such a resource. -/
theorem Conducted.gives_apart
    (h : Conducted observation memory commitments commandBudget draft p d last)
    (apart : AidOpen observation (some (observation.rules.durationTicks - observation.tick))
        (surplusAboveReserve p.reviewed.available draft.decision.reserve) p.urgency p.reviewed →
      ∀ gift, Neediest p.reviewed.memory.counterparties
          (surplusAboveReserve p.reviewed.available draft.decision.reserve)
            observation.tick p.reviewed.memory gift →
        ¬Requests p.reviewed.decision.actions gift.resource) (r : Resource) :
    ¬(GivesAway last.decision.actions r ∧ Requests last.decision.actions r) := by
  rintro ⟨hgives, hasked⟩
  rcases h.given_cases hgives with ⟨recipient, quantity, hgiven⟩ | ⟨gift, hgift, rfl⟩
  · exact h.excess_unasked hgiven hasked
  · obtain ⟨hopen, hneediest⟩ := aidDue_open hgift
    obtain ⟨_, _, _, _, _, hbefore⟩ := h.requests hasked
    exact apart hopen gift hneediest hbefore

/-- Something is given away that is asked for, where each need that has stood longest
is of such a resource. -/
theorem Conducted.gives_asked
    (h : Conducted observation memory commitments commandBudget draft p d last)
    (aid : AidOpen observation (some (observation.rules.durationTicks - observation.tick))
      (surplusAboveReserve p.reviewed.available draft.decision.reserve) p.urgency p.reviewed)
    {need : GiftIntent} (found : need ∈ distress p.reviewed.memory.counterparties
      (surplusAboveReserve p.reviewed.available draft.decision.reserve) observation.tick
        p.reviewed.memory) (asked : ∀ gift, Neediest p.reviewed.memory.counterparties
        (surplusAboveReserve p.reviewed.available draft.decision.reserve)
          observation.tick p.reviewed.memory gift →
      Requests p.reviewed.decision.actions gift.resource) :
    ∃ r, GivesAway last.decision.actions r ∧ Requests last.decision.actions r := by
  have hactions := h.actions
  rw [List.map_append, ← h.traced.reviews.actions, Deeds.aids] at hactions
  have hrequests : ∀ {r}, Requests p.reviewed.decision.actions r →
      Requests last.decision.actions r := fun hr =>
    hr.mono (by rw [hactions]; exact List.subset_append_left _ _)
  obtain ⟨gift, hgift⟩ := aidDue_finds aid found fun first hfirst => by
    -- what is asked for is no specialty, so the guard sees the same stock after the gift
    have hne : first.resource ≠ observation.me.specialty := fun hsame =>
      h.specialty_unasked aid.calm (hsame ▸ hrequests (asked first hfirst))
    have hnormal := aid.normal
    rw [productionPaymentLimit_eq_none_iff] at hnormal ⊢
    rw [Bundle.get_saturatingSub, Bundle.get_only, if_neg (Ne.symm hne), Nat.sub_zero]
    exact hnormal
  refine ⟨gift.resource, ⟨gift.stationId, .only gift.resource gift.quantity, observation.tick +
    offerLifetime observation, ?_, ?_⟩, hrequests (asked gift (aidDue_open hgift).2)⟩
  · rw [hactions, hgift]
    exact List.mem_append_right _ (by simp [Deed.action])
  · obtain ⟨_, hpos, _⟩ := scanForDistress_spec (aidDue_due hgift).found
    rw [Bundle.get_only, if_pos rfl]
    omega

/-- Nothing given away before the aid stage is asked for. -/
theorem Conducted.gives_before
    (h : Conducted observation memory commitments commandBudget draft p d last) (r : Resource) :
    ¬(GivesAway p.reviewed.decision.actions r ∧ Requests last.decision.actions r) := by
  rintro ⟨⟨station, give, expires, hmem, hgave⟩, hasked⟩
  rw [h.traced.reviews.actions] at hmem
  obtain ⟨e, he, haction⟩ := List.mem_map.mp hmem
  obtain ⟨_, _, hallowed⟩ := h.traced.reviews.allowed he
  obtain ⟨hgiven, _, _, hnoAid⟩ := h.traced.of_stage he
  rcases hallowed.offer_cases haction with ⟨r', quantity, rfl, rfl, _⟩ |
      ⟨candidate, paid, asked, rfl, _, _, hzero⟩ |
    ⟨gift, rfl, _⟩
  · obtain rfl : r = r' := by
      by_contra hne
      simp [hne] at hgave
    exact h.excess_unasked (hgiven rfl) hasked
  · have hpos := hallowed.asked
    simp [← hzero] at hpos
  · exact absurd rfl hnoAid

variable (observation memory commitments commandBudget)

/-- A decision buys nothing it gives away over the cap. It buys nothing it gives in distress
either, unless a need that has stood longest is of a resource its paid offers ask for; where
each such need is, it does. -/
theorem decide_gives : ∃ decision memory',
    Policy.decide observation memory commitments commandBudget = .ok (decision, memory') ∧
    (gateReason observation memory ≠ none → decision.actions = []) ∧
    (gateReason observation memory = none → ∃ draft p,
      assess observation memory commitments commandBudget = .ok draft ∧
      Course observation (some (observation.rules.durationTicks - observation.tick)) draft p ∧
      (∀ r, ¬(GivesAway p.reviewed.decision.actions r ∧ Requests decision.actions r)) ∧
      ((AidOpen observation (some (observation.rules.durationTicks - observation.tick))
            (surplusAboveReserve p.reviewed.available draft.decision.reserve) p.urgency p.reviewed →
          ∀ gift, Neediest p.reviewed.memory.counterparties
              (surplusAboveReserve p.reviewed.available draft.decision.reserve)
                observation.tick p.reviewed.memory gift →
            ¬Requests p.reviewed.decision.actions gift.resource) →
        ∀ r, ¬(GivesAway decision.actions r ∧ Requests decision.actions r)) ∧
      (AidOpen observation (some (observation.rules.durationTicks - observation.tick))
          (surplusAboveReserve p.reviewed.available draft.decision.reserve) p.urgency p.reviewed →
        distress p.reviewed.memory.counterparties
          (surplusAboveReserve p.reviewed.available draft.decision.reserve)
            observation.tick p.reviewed.memory ≠ [] →
        (∀ gift, Neediest p.reviewed.memory.counterparties
            (surplusAboveReserve p.reviewed.available draft.decision.reserve)
              observation.tick p.reviewed.memory gift →
          Requests p.reviewed.decision.actions gift.resource) →
        ∃ r, GivesAway decision.actions r ∧ Requests decision.actions r)) := by
  refine decide_rule observation memory commitments commandBudget fun draft p d last h =>
    ⟨h.gives_before, h.gives_apart, fun aid hsome hasked => ?_⟩
  obtain ⟨need, hneed⟩ := List.exists_mem_of_ne_nil _ hsome
  exact h.gives_asked aid hneed hasked

end Outcome

/-- A planet whose need for components has lasted, and which sells food. -/
def needyStats : CounterpartyStats where
  stationId := "P02"
  selling := {.food}
  seeking := {.components}
  seekingStreak := .ofList [(.components, 4)]
  lastAdTick := 114

def needyMemory : PolicyMemory :=
  { PolicyMemory.new with counterparties := ⟨.ofList [("P02", needyStats)], ∅⟩ }

/-- Five ticks before the end, with just enough of everything for nothing to be urgent. -/
def needyView : Snapshot :=
  { marketView 6 ⟨24, 20, 20⟩ []
      [{ marketAd {.food} {.components} with createdTick := 110, expiresTick := 118 }] with
    tick := 115 }

/-- The same decision asks for components and gives components away. -/
theorem components_asked_and_given : ∃ decision memory',
    Policy.decide needyView needyMemory = .ok (decision, memory') ∧
    GivesAway decision.actions .components ∧ Requests decision.actions .components := by
  have hrun : (Policy.decide needyView needyMemory).toOption.any (fun chosen =>
      decide (.offer "P02" ⟨0, 0, 3⟩ .zero 120 ∈ chosen.1.actions) &&
      decide (.offer "P02" ⟨8, 0, 0⟩ ⟨0, 0, 4⟩ 120 ∈ chosen.1.actions)) = true := by
    decide +kernel
  obtain ⟨⟨decision, memory'⟩, hdecide, hrun⟩ := (Option.any_eq_true _ _).mp hrun
  simp only [Bool.and_eq_true, decide_eq_true_eq] at hrun
  exact ⟨decision, memory', toOption_eq_some_iff.mp hdecide, ⟨_, _, _, hrun.1, by decide⟩,
    ⟨_, _, _, _, hrun.2, by decide⟩⟩

end SpaceportBazaar
