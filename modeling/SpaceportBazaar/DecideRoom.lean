import SpaceportBazaar.DecideServer
import SpaceportBazaar.DecideTerms

namespace SpaceportBazaar

open SimulatedEconomy

section Slots

variable {observation : Snapshot} {ticksLeft : Option Nat} {reserve : Bundle}
  {memory : PolicyMemory} {model : CounterpartyModel} {start a : Account} {hist : List Deed}
  {p : Passage} {d : Deeds}

/-- What is wanted of the draft that paid offers are considered in. -/
def wantedResources (observation : Snapshot) (reserve : Bundle) (p : Passage) : List Resource :=
  Resource.all.filter (fun r =>
    (wantedQuantities observation p.listed.available reserve (p.deficit reserve) r).isSome)

/-- When paid offers come to be considered, no excess gift has taken a slot, or the gifts leave
one for every resource still wanted that there is a command for. -/
def SlotsSuffice (observation : Snapshot) (reserve : Bundle) (p : Passage) : Prop :=
  observation.outgoingOpenOffers.length ≤ observation.rules.maxOpenOutgoingOffers ∧
  (plannedOffers p.listed.decision = 0 ∨
    observation.outgoingOpenOffers.length + plannedOffers p.listed.decision +
      min p.listed.budget (wantedResources observation reserve p).length ≤
      observation.rules.maxOpenOutgoingOffers)

/-- Paid offers are counted against the slots that are open in the snapshot. -/
theorem run_wants_room (run :
      Machine.GuardedRun (deedGuard observation ticksLeft reserve model) Deed.step start hist a) :
    observation.outgoingOpenOffers.length + (hist.filterMap Deed.wanted?).length ≤
      max observation.rules.maxOpenOutgoingOffers observation.outgoingOpenOffers.length := by
  refine run.invariant (I := fun hist _ => observation.outgoingOpenOffers.length +
    (hist.filterMap Deed.wanted?).length ≤
      max observation.rules.maxOpenOutgoingOffers observation.outgoingOpenOffers.length)
      (le_max_right _ _) ?_
  rintro hist a e b hroom ⟨_, hallowed⟩ _
  rw [List.filterMap_append, List.length_append]
  cases e with
  | propose candidate paid asked =>
    obtain ⟨_, _, hfree, _⟩ := hallowed
    show _ + (_ + 1) ≤ _
    omega
  | _ => exact hroom

/-- What the stage of paid offers adds: one offer at most for each command and each want. -/
theorem Traced.proposals (h : Traced observation ticksLeft reserve memory start p d) :
    plannedOffers p.posed.decision = plannedOffers p.listed.decision + d.proposed.length ∧
      d.proposed.length ≤ min p.listed.budget (wantedResources observation reserve p).length ∧
      observation.outgoingOpenOffers.length + d.proposed.length ≤
        max observation.rules.maxOpenOutgoingOffers observation.outgoingOpenOffers.length := by
  have hpaid : ∀ e ∈ d.proposed, e.offers = true ∧ ∃ want ∈ wantedResources observation reserve p,
      e.wanted? = some want := by
    intro e he
    obtain ⟨candidate, _, paid, asked, quantity, rfl, hwanted, _⟩ := h.asks e he
    exact ⟨rfl, candidate.want, List.mem_filter.mpr ⟨Resource.mem_all _, by simp [hwanted]⟩, rfl⟩
  have hwants : (d.proposed.filterMap Deed.wanted?).length = d.proposed.length := by
    rw [List.filterMap_length_eq_length]
    intro e he
    obtain ⟨_, want, _, hwant⟩ := hpaid e he
    simp [hwant]
  have hsplit : ((d.beforeOffers ++ d.proposed).filterMap Deed.wanted?) =
      d.beforeOffers.filterMap Deed.wanted? ++ d.proposed.filterMap Deed.wanted? :=
    List.filterMap_append
  refine ⟨?_, le_min ?_ ?_, ?_⟩
  · rw [h.poses.planned, h.lists.planned, List.countP_append, List.countP_eq_length.mpr
      fun e he => (hpaid e he).1]
  · have hlisted := h.lists.spent
    have hposed := h.poses.spent
    rw [h.lists.actions, List.length_map] at hlisted
    rw [h.poses.actions, List.length_map, List.length_append] at hposed
    omega
  · have hnodup := run_wants_nodup h.poses.run
    rw [hsplit] at hnodup
    rw [← hwants]
    refine ((List.nodup_append.mp hnodup).2.1.subperm fun want hwant => ?_).length_le
    obtain ⟨e, he, hasks⟩ := List.mem_filterMap.mp hwant
    obtain ⟨_, want', hmem, hwant'⟩ := hpaid e he
    cases Option.some.inj (hasks.symm.trans hwant')
    exact hmem
  · have hroom := run_wants_room h.poses.run
    rw [hsplit, List.length_append, hwants] at hroom
    omega

end Slots

namespace SimulatedEconomy

variable {e e' : SimulatedEconomy} {stationId : String} {action : Action} {out : CommandOutcome}

/-- Only posting an offer takes a slot of its planet, and it takes one. -/
theorem Executed.openCount_le (hx : Executed e stationId action out e') :
    e'.openCount stationId ≤ e.openCount stationId + if action.isOffer then 1 else 0 := by
  cases hx with
  | refused => exact Nat.le_add_right _ _
  | failed => exact Nat.le_add_right _ _
  | advertised => exact Nat.le_add_right _ _
  | adWithdrawn => exact Nat.le_add_right _ _
  | posted =>
    unfold openCount
    rw [List.countP_append]
    exact Nat.add_le_add_left List.countP_le_length _
  | offerWithdrawn =>
    refine (openCount_le_of_map rfl (fun o _ => ?_) stationId).trans (Nat.le_add_right _ _)
    split
    next => exact Or.inl rfl
    next => exact Or.inr (by simp [Offer.closed])
  | settled =>
    refine (openCount_le_of_map rfl (fun o _ => ?_) stationId).trans (Nat.le_add_right _ _)
    split
    next => exact Or.inl rfl
    next => exact Or.inr (by simp [Offer.closed])

theorem precheck_limitReached (h : e.precheck stationId action = .ok (some .limitReached)) :
    action.isOffer = true ∧ e.rules.maxOpenOutgoingOffers ≤ e.openCount stationId := by
  obtain ⟨s, _, h⟩ := precheck_eq_ok_iff.mp h
  split_ifs at h
  · simp at h
  · simp at h
  · simp at h
  · cases action with
    | offer recipientId give receive expiresTick =>
      refine ⟨rfl, ?_⟩
      simp only [precheckAction] at h
      split at h
      next => simp at h
      next =>
        unfold precheckOffer at h
        split at h
        next => simp at h
        next =>
          split_ifs at h with _ _ _ hfull
          · simp at h
          · simp at h
          · simp at h
          · exact hfull
    | advertise selling seeking expiresTick =>
      simp only [precheckAction] at h
      split at h
      next => simp at h
      next => simp at h
    | accept offerId => simp [precheckAction] at h
    | withdraw objectId => simp [precheckAction] at h
    | sync => simp [precheckAction] at h

theorem accept_ne_limitReached {offerId : String} (h : e.accept stationId offerId = .ok (out, e')) :
    out.code ≠ .limitReached := by
  unfold accept at h
  split at h
  next => cases Except.ok.inj h; simp
  next =>
    split_ifs at h
    · cases Except.ok.inj h; simp
    · cases Except.ok.inj h; simp
    · cases Except.ok.inj h; simp
    · obtain ⟨_, _, h⟩ := bind_eq_ok_iff.mp h
      obtain ⟨_, _, h⟩ := bind_eq_ok_iff.mp h
      split_ifs at h
      · cases Except.ok.inj h; simp
      · cases Except.ok.inj h; simp
      · obtain ⟨_, _, rfl, _⟩ := settle_eq_ok_iff.mp h
        simp

theorem withdraw_ne_limitReached {objectId : String} :
    (e.withdraw stationId objectId).1.code ≠ .limitReached := by
  unfold withdraw
  split
  next => split_ifs <;> simp
  next =>
    split
    next => simp
    next => split_ifs <;> simp

/-- Only an offer is refused for want of a slot, and only when there is none. -/
theorem execute_limitReached (h : e.execute stationId action = .ok (out, e'))
    (full : out.code = .limitReached) :
    action.isOffer = true ∧ e.rules.maxOpenOutgoingOffers ≤ e.openCount stationId := by
  obtain ⟨refused, hp, h⟩ := bind_eq_ok_iff.mp h
  cases refused with
  | some code =>
    obtain ⟨rfl, _⟩ := Prod.mk.inj (Except.ok.inj h)
    subst full
    exact precheck_limitReached hp
  | none =>
    cases action with
    | advertise selling seeking expiresTick =>
      obtain ⟨rfl, _⟩ := Prod.mk.inj (Except.ok.inj h)
      simp at full
    | offer recipientId give receive expiresTick =>
      obtain ⟨rfl, _⟩ := Prod.mk.inj (Except.ok.inj h)
      simp at full
    | accept offerId => exact absurd full (accept_ne_limitReached h)
    | withdraw objectId =>
      obtain ⟨rfl, _⟩ := Prod.mk.inj (Except.ok.inj h)
      exact absurd full withdraw_ne_limitReached
    | sync =>
      obtain ⟨rfl, _⟩ := Prod.mk.inj (Except.ok.inj h)
      simp at full

/-- Offers that fit the slots left when the first is sent are never refused for want of one. -/
theorem executeAll_slots
    {actions : List Action} {answers : List (SimulatedEconomy × Action × CommandOutcome)}
    {last : SimulatedEconomy} (h : e.executeAll stationId actions = .ok (answers, last))
    (room : e.openCount stationId + actions.countP Action.isOffer ≤ e.rules.maxOpenOutgoingOffers) :
    ∀ answer ∈ answers, answer.2.2.code ≠ .limitReached := by
  induction actions generalizing e answers with
  | nil =>
    obtain ⟨rfl, _⟩ := Prod.mk.inj (Except.ok.inj h)
    simp
  | cons action actions ih =>
    obtain ⟨⟨out, next⟩, hexecute, h⟩ := bind_eq_ok_iff.mp h
    obtain ⟨⟨more, _⟩, hrest, h⟩ := bind_eq_ok_iff.mp h
    obtain ⟨rfl, rfl⟩ := Prod.mk.inj (Except.ok.inj h)
    have hx := execute_executed hexecute
    have hopen := hx.openCount_le
    have hrules := hx.rules_eq
    rw [List.countP_cons] at room
    intro answer hmem hfull
    rcases List.mem_cons.mp hmem with rfl | hmem
    · obtain ⟨hoffer, hroom⟩ := execute_limitReached hexecute hfull
      rw [if_pos hoffer] at room
      omega
    · refine ih hrest ?_ answer hmem hfull
      rw [hrules]
      omega

end SimulatedEconomy

section Outcome

variable {observation : Snapshot} {memory : PolicyMemory} {commitments : CommitmentTracker}
  {commandBudget : Option Int} {draft last : Plan} {p : Passage} {d : Deeds}

/-- Excess gifts and aid keep to the slots that are left, paid offers to those that were open. -/
theorem Conducted.slots
    (h : Conducted observation memory commitments commandBudget draft p d last) :
    observation.outgoingOpenOffers.length + plannedOffers last.decision ≤
        max observation.rules.maxOpenOutgoingOffers observation.outgoingOpenOffers.length +
          plannedOffers p.listed.decision ∧
      (SlotsSuffice observation draft.decision.reserve p →
        observation.outgoingOpenOffers.length + plannedOffers last.decision ≤
          observation.rules.maxOpenOutgoingOffers) := by
  obtain ⟨hposed, hwants, hroom⟩ := h.traced.proposals
  obtain ⟨_, haids, _⟩ := offerAid_records h.traced.reviews h.traced.gauged h.traced.stages h.aids
  rw [h.traced.planned] at haids
  refine ⟨by omega, fun hsuffice => ?_⟩
  obtain ⟨hopen, hgifts | hleft⟩ := hsuffice
  · omega
  · omega

variable (observation memory commitments commandBudget)

/-- A decision goes over its offer slots by its excess gifts at most, and not at all when
paid offers are considered without such gifts or with slots enough beside them; then the
market finds a slot for each of its offers. -/
theorem decide_slots : ∃ decision memory',
    Policy.decide observation memory commitments commandBudget = .ok (decision, memory') ∧
    (gateReason observation memory ≠ none → decision.actions = []) ∧
    (gateReason observation memory = none → ∃ draft p,
      assess observation memory commitments commandBudget = .ok draft ∧
      Course observation (some (observation.rules.durationTicks - observation.tick)) draft p ∧
      observation.outgoingOpenOffers.length + plannedOffers decision ≤
        max observation.rules.maxOpenOutgoingOffers observation.outgoingOpenOffers.length +
          plannedOffers p.listed.decision ∧
      (SlotsSuffice observation draft.decision.reserve p →
        observation.outgoingOpenOffers.length + plannedOffers decision ≤
          observation.rules.maxOpenOutgoingOffers ∧
        ∀ (e : SimulatedEconomy) (stationId : String),
          e.rules.maxOpenOutgoingOffers = observation.rules.maxOpenOutgoingOffers →
          e.openCount stationId ≤ observation.outgoingOpenOffers.length →
          ∀ answers last, e.executeAll stationId decision.actions = .ok (answers, last) →
            ∀ answer ∈ answers, answer.2.2.code ≠ .limitReached)) := by
  refine decide_rule observation memory commitments commandBudget fun draft p d last h => ?_
  obtain ⟨hover, hfits⟩ := h.slots
  refine ⟨hover, fun hsuffice =>
    ⟨hfits hsuffice, fun e stationId hrules hopen answers last' hall => ?_⟩⟩
  have hplanned := hfits hsuffice
  refine executeAll_slots hall ?_
  rw [hrules]
  show e.openCount stationId + plannedOffers last.decision ≤ _
  omega

end Outcome

def crowdedPair : List SimStation :=
  [{ stationId := "P01", specialty := .water, inventory := ⟨130, 12, 12⟩ },
   { stationId := "P02", specialty := .food, inventory := ⟨30, 30, 30⟩ }]

/-- One slot, a gift and a paid offer: the market refuses the second. -/
theorem gift_and_offer_one_slot :
    ∃ ls e e' view decision memory' answers last, Machine.Run Performs
      (create crowdedPair { defaultRules with maxOpenOutgoingOffers := 1 } "sim") ls e ∧
      e.observationFor "P01" = .ok (view, e') ∧ Policy.decide view .new = .ok (decision, memory') ∧
      (∀ id, .withdraw id ∉ decision.actions) ∧
      view.rules.maxOpenOutgoingOffers < view.outgoingOpenOffers.length + plannedOffers decision ∧
      e'.executeAll "P01" decision.actions = .ok (answers, last) ∧
      ∃ answer ∈ answers, answer.2.2.code = .limitReached := by
  have hrun :
      ((create crowdedPair { defaultRules with maxOpenOutgoingOffers := 1 } "sim").performAll
      [.execute "P02" (.advertise {.food} {.water} 5)]).toOption.any (fun r =>
        (r.2.observationFor "P01").toOption.any fun seen =>
          (Policy.decide seen.1 .new).toOption.any fun chosen =>
            decide (chosen.1.actions = [.offer "P02" ⟨20, 0, 0⟩ .zero 5,
                .advertise {.water} {.food, .components} 8, .offer "P02" ⟨6, 0, 0⟩ ⟨0, 4, 0⟩ 5]) &&
            decide (seen.1.rules.maxOpenOutgoingOffers <
            seen.1.outgoingOpenOffers.length + plannedOffers chosen.1) &&
            (seen.2.executeAll "P01" chosen.1.actions).toOption.any fun done =>
              done.1.any fun answer => decide (answer.2.2.code = .limitReached)) = true := by
    decide +kernel
  obtain ⟨⟨ls, e⟩, hall, hrun⟩ := (Option.any_eq_true _ _).mp hrun
  obtain ⟨⟨view, e'⟩, hseen, hrun⟩ := (Option.any_eq_true _ _).mp hrun
  obtain ⟨⟨decision, memory'⟩, hdecide, hrun⟩ := (Option.any_eq_true _ _).mp hrun
  obtain ⟨hchosen, hrun⟩ := Bool.and_eq_true_iff.mp hrun
  obtain ⟨hactions, hover⟩ := Bool.and_eq_true_iff.mp hchosen
  obtain ⟨⟨answers, last⟩, hexecuted, hrun⟩ := (Option.any_eq_true _ _).mp hrun
  obtain ⟨answer, hmem, hfull⟩ := List.any_eq_true.mp hrun
  have hactions : decision.actions = _ := of_decide_eq_true hactions
  refine ⟨ls, e, e', view, decision, memory',
    answers, last, run_of_performAll (toOption_eq_some_iff.mp hall), toOption_eq_some_iff.mp hseen,
    toOption_eq_some_iff.mp hdecide, fun id hid => ?_, of_decide_eq_true hover,
    toOption_eq_some_iff.mp hexecuted, answer, hmem, of_decide_eq_true hfull⟩
  simp [hactions] at hid

end SpaceportBazaar
