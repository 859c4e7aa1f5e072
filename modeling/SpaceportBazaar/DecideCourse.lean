import SpaceportBazaar.DecideRun

namespace SpaceportBazaar

section Aid

variable (observation : Snapshot) (ticksLeft : Option Nat) (surplus : Bundle)
  (urgency : Resource → Urgency) (draft : Plan)

/-- The distress gift a draft is due to make, if it may make one. -/
def aidDue : Option GiftIntent :=
  let whole := surplus + draft.decision.reserve
  if (productionPaymentLimit whole observation.me ticksLeft).isSome then none
  else if draft.budget ≤ 0 ∨ observation.rules.maxOpenOutgoingOffers ≤
      observation.outgoingOpenOffers.length + plannedOffers draft.decision ∨
      offerLifetime observation ≤ 0 then none
  else (scanForDistress draft.memory.counterparties surplus urgency observation.tick
    draft.memory).find? (fun gift =>
    (productionPaymentLimit (whole.saturatingSub (.only gift.resource gift.quantity)) observation.me
      ticksLeft).isNone)

variable {observation ticksLeft surplus urgency draft} {gift : GiftIntent}

/-- What a gift that is due has been checked against. -/
structure Due (observation : Snapshot) (ticksLeft : Option Nat) (surplus : Bundle)
    (urgency : Resource → Urgency) (draft : Plan) (gift : GiftIntent) : Prop where
  budget : 0 < draft.budget
  room : observation.outgoingOpenOffers.length + plannedOffers draft.decision <
    observation.rules.maxOpenOutgoingOffers
  lasts : 0 < offerLifetime observation
  found :
    gift ∈ scanForDistress draft.memory.counterparties surplus urgency observation.tick draft.memory
  normal : productionPaymentLimit ((surplus + draft.decision.reserve).saturatingSub
    (.only gift.resource gift.quantity)) observation.me ticksLeft = none

theorem aidDue_due (h : aidDue observation ticksLeft surplus urgency draft = some gift) :
    Due observation ticksLeft surplus urgency draft gift := by
  unfold aidDue at h
  simp only at h
  split_ifs at h with _ hopen
  have hnormal := List.find?_some h
  exact ⟨by omega, by omega, by omega, List.mem_of_find?_eq_some h, by simpa using hnormal⟩

/-- The aid stage is entered with everything it asks for before it looks for a need. -/
structure AidOpen (observation : Snapshot) (ticksLeft : Option Nat) (surplus : Bundle)
    (urgency : Resource → Urgency) (draft : Plan) : Prop where
  normal : productionPaymentLimit (surplus + draft.decision.reserve) observation.me ticksLeft = none
  budget : 0 < draft.budget
  room : observation.outgoingOpenOffers.length + plannedOffers draft.decision <
    observation.rules.maxOpenOutgoingOffers
  lasts : 0 < offerLifetime observation
  calm : ∀ r, urgency r = .none

/-- A gift that is due goes to a need that has stood longest. -/
theorem aidDue_open (h : aidDue observation ticksLeft surplus urgency draft = some gift) :
    AidOpen observation ticksLeft surplus urgency draft ∧
      Neediest draft.memory.counterparties surplus observation.tick draft.memory gift := by
  have hdue := aidDue_due h
  refine ⟨⟨?_, hdue.budget, hdue.room, hdue.lasts, (scanForDistress_spec hdue.found).1⟩,
    scanForDistress_neediest hdue.found⟩
  unfold aidDue at h
  simp only at h
  split_ifs at h with hwhole
  simpa using hwhole

/-- One is due to a need that has stood longest, if the production guard lets it go. -/
theorem aidDue_finds (h : AidOpen observation ticksLeft surplus urgency draft)
    (found : gift ∈ distress draft.memory.counterparties surplus observation.tick draft.memory)
    (normal :
      ∀ first, Neediest draft.memory.counterparties surplus observation.tick draft.memory first →
      productionPaymentLimit
        ((surplus + draft.decision.reserve).saturatingSub (.only first.resource first.quantity))
        observation.me ticksLeft = none) :
      ∃ first, aidDue observation ticksLeft surplus urgency draft = some first := by
  obtain ⟨first, hscan⟩ := scanForDistress_finds h.calm found
  have hfirst := normal first (scanForDistress_neediest (hscan ▸ List.mem_singleton_self first))
  have hroom := h.room
  have hbudget := h.budget
  have hlasts := h.lasts
  refine ⟨first, ?_⟩
  unfold aidDue
  simp only [h.normal]
  rw [if_neg (by simp), if_neg (by omega), hscan]
  simp [hfirst]

/-- The aid stage makes the gift that is due, and nothing else. -/
theorem offerAid_due : ∃ last, offerAid observation ticksLeft surplus urgency draft = .ok last ∧
    (aidDue observation ticksLeft surplus urgency draft = none ∧ last = draft ∨
      ∃ gift reason, aidDue observation ticksLeft surplus urgency draft = some gift ∧
        last = (draft.act (.offer gift.stationId (.only gift.resource gift.quantity) .zero
          (observation.tick + offerLifetime observation)) reason).recordGift
            gift.stationId gift.resource
            observation.tick) := by
  unfold offerAid aidDue
  simp only
  by_cases hwhole :
    (productionPaymentLimit (surplus + draft.decision.reserve) observation.me ticksLeft).isSome =
    true
  · rw [if_pos hwhole, if_pos hwhole]
    exact ⟨draft, rfl, Or.inl ⟨rfl, rfl⟩⟩
  rw [if_neg hwhole, if_neg hwhole]
  by_cases hclosed : draft.budget ≤ 0 ∨
      observation.rules.maxOpenOutgoingOffers ≤
      observation.outgoingOpenOffers.length + plannedOffers draft.decision
  · rw [if_pos hclosed, if_pos (by omega)]
    exact ⟨draft, rfl, Or.inl ⟨rfl, rfl⟩⟩
  rw [if_neg hclosed]
  have hlength :=
    scanForDistress_length draft.memory.counterparties surplus urgency observation.tick draft.memory
  generalize scanForDistress draft.memory.counterparties surplus urgency observation.tick
    draft.memory = gifts at hlength ⊢
  match gifts with
  | [] => exact ⟨draft, rfl, Or.inl ⟨by simp, rfl⟩⟩
  | [gift] =>
    rw [List.forIn_cons]
    unfold aidOne
    rw [if_neg (by omega), Bundle.single_ok]
    simp only [bind, Except.bind]
    by_cases hguard : (productionPaymentLimit ((surplus + draft.decision.reserve).saturatingSub
        (.only gift.resource gift.quantity)) observation.me ticksLeft).isSome = true
    · rw [if_pos hguard]
      refine ⟨draft, rfl, Or.inl ⟨?_, rfl⟩⟩
      split
      next => rfl
      next => simp [Option.isSome_iff_ne_none.mp hguard]
    rw [if_neg hguard]
    have hnormal : productionPaymentLimit ((surplus + draft.decision.reserve).saturatingSub
        (.only gift.resource gift.quantity)) observation.me ticksLeft = none := by
      simpa using hguard
    by_cases hlate : offerLifetime observation ≤ 0
    · rw [if_pos hlate, if_pos (by omega)]
      exact ⟨draft, rfl, Or.inl ⟨rfl, rfl⟩⟩
    · rw [if_neg hlate, if_neg (by omega)]
      exact ⟨_, rfl, Or.inr ⟨gift, _, by simp [hnormal], rfl⟩⟩
  | _ :: _ :: _ => simp at hlength

end Aid

/-- The drafts a decision hands from stage to stage, before its last. -/
structure Passage where
  intake : Intake
  warned : Plan
  given : Plan
  listed : Plan
  posed : Plan
  reviewed : Plan
  /-- The urgency the aid stage goes by. -/
  urgency : Resource → Urgency

namespace Passage

variable (observation : Snapshot) (reserve : Bundle) (p : Passage)

/-- The urgency measured once the first accepts are paid for. -/
def gauge : Resource → Urgency :=
  computeUrgency p.intake.draft.available observation.me.upkeepPerTick reserve

def critical : Finset Resource :=
  Finset.univ.filter (fun r => p.gauge observation reserve r = .critical)

def deficit : Bundle := deficitBelowReserve p.intake.draft.available reserve

/-- The balance the urgency of the aid stage was measured on. -/
def measured : Bundle :=
  if p.intake.deferred = [] ∨ p.posed.budget = 0 then p.intake.draft.available
  else p.posed.available

def excess : Bundle := Bundle.ofFn (fun r => p.warned.available.get r - stockCap)

end Passage

/-- Each stage of a decision, as it turns the draft of the stage before into its own. -/
structure Course (observation : Snapshot) (ticksLeft : Option Nat) (draft : Plan)
    (p : Passage) : Prop where
  accepts : acceptIncoming observation ticksLeft draft.decision.reserve draft.decision.urgency
    (scarceImportToChase observation draft.available draft.decision.urgency ticksLeft)
        observation.incomingOpenOffers
      draft = .ok p.intake
  withdraws : withdrawDangerous observation ticksLeft p.intake.draft = .ok p.warned
  gives : giveExcess observation p.excess p.warned = .ok p.given
  lists : refreshListing observation ticksLeft p.excess
      (surplusAboveReserve p.given.available draft.decision.reserve)
    (wantedQuantities observation p.given.available draft.decision.reserve
        (p.deficit draft.decision.reserve))
      (p.critical observation draft.decision.reserve) p.given = .ok p.listed
  proposes : proposeOffers observation ticksLeft (p.gauge observation draft.decision.reserve)
    (p.deficit draft.decision.reserve)
      (surplusAboveReserve p.listed.available draft.decision.reserve) p.listed =
      .ok (p.posed, surplusAboveReserve p.posed.available draft.decision.reserve)
  reviews : reconsider observation ticksLeft p.intake.deferred
    (surplusAboveReserve p.posed.available draft.decision.reserve)
        (p.gauge observation draft.decision.reserve)
      p.posed = .ok (p.reviewed,
        surplusAboveReserve p.reviewed.available draft.decision.reserve, p.urgency)

/-- The stages in the order `decide` takes them, keeping every draft. -/
def passage (observation : Snapshot) (ticksLeft : Option Nat)
    (draft : Plan) : Except Raised Passage := do
  let reserve := draft.decision.reserve
  let intake ← acceptIncoming observation ticksLeft reserve draft.decision.urgency
    (scarceImportToChase observation draft.available draft.decision.urgency ticksLeft)
        observation.incomingOpenOffers
      draft
  let gauge := computeUrgency intake.draft.available observation.me.upkeepPerTick reserve
  let deficit := deficitBelowReserve intake.draft.available reserve
  let warned ← withdrawDangerous observation ticksLeft intake.draft
  let excess := Bundle.ofFn (fun r => warned.available.get r - stockCap)
  let given ← giveExcess observation excess warned
  let listed ← refreshListing observation ticksLeft excess
      (surplusAboveReserve given.available reserve)
    (wantedQuantities observation given.available reserve deficit)
      (Finset.univ.filter (fun r => gauge r = .critical)) given
  let (posed, surplus) ← proposeOffers observation ticksLeft gauge deficit
    (surplusAboveReserve listed.available reserve) listed
  let (reviewed, _, urgency) ← reconsider observation ticksLeft intake.deferred surplus gauge posed
  return ⟨intake, warned, given, listed, posed, reviewed, urgency⟩

/-- The deeds of each stage. -/
structure Deeds where
  taken : List Deed
  withdrawn : List Deed
  given : List Deed
  noticed : List Deed
  proposed : List Deed
  late : List Deed

namespace Deeds

def beforeListing (d : Deeds) : List Deed := d.taken ++ d.withdrawn ++ d.given

def beforeOffers (d : Deeds) : List Deed := d.beforeListing ++ d.noticed

def beforeAid (d : Deeds) : List Deed := d.beforeOffers ++ d.proposed ++ d.late

end Deeds

/-- The draft of every stage has taken exactly the deeds up to it. -/
structure Traced (observation : Snapshot) (ticksLeft : Option Nat) (reserve : Bundle)
    (memory : PolicyMemory) (start : Account) (p : Passage) (d : Deeds) : Prop where
  taken : ∀ e ∈ d.taken, e.stage = 0
  withdrawn : ∀ e ∈ d.withdrawn, e.stage = 1
  given : ∀ e ∈ d.given, e.stage = 2
  noticed : ∀ e ∈ d.noticed, e.stage = 3
  proposed : ∀ e ∈ d.proposed, e.stage = 4
  late : ∀ e ∈ d.late, e.stage = 5
  intake : Tracks observation ticksLeft reserve memory start d.taken p.intake.draft
  warns : Tracks observation ticksLeft reserve memory start (d.taken ++ d.withdrawn) p.warned
  gives : Tracks observation ticksLeft reserve memory start d.beforeListing p.given
  lists : Tracks observation ticksLeft reserve memory start d.beforeOffers p.listed
  poses : Tracks observation ticksLeft reserve memory start (d.beforeOffers ++ d.proposed) p.posed
  reviews : Tracks observation ticksLeft reserve memory start d.beforeAid p.reviewed
  deferred :
    (d.taken.filterMap Deed.accepted? ++ p.intake.deferred).Subperm observation.incomingOpenOffers
  heeded : ∀ o ∈ observation.outgoingOpenOffers,
    Heeded observation ticksLeft reserve memory.counterparties start (d.taken ++ d.withdrawn) o
  gauged : Gauged observation reserve d.beforeAid p.reviewed.available p.urgency
  asks : ∀ e ∈ d.proposed, e.AsksWithin
    (rankCounterparties memory.counterparties (p.gauge observation reserve)
      (wantedQuantities observation p.listed.available reserve (p.deficit reserve))
        (p.listed.available.saturatingSub reserve) observation.tick (pendingPairs observation)
          (some observation.me.specialty))
    (wantedQuantities observation p.listed.available reserve (p.deficit reserve))

section Course

variable {observation : Snapshot} {ticksLeft : Option Nat} {reserve : Bundle}
  {memory : PolicyMemory} {start : Account} {hist : List Deed} {draft last : Plan}
  {p : Passage} {d : Deeds}

theorem stage_append {more : List Deed} {n : Nat} (earlier : ∀ e ∈ hist, e.stage ≤ n)
    (later : ∀ e ∈ more, e.stage = n + 1) : ∀ e ∈ hist ++ more, e.stage ≤ n + 1 := by
  intro e he
  rcases List.mem_append.mp he with he | he
  · exact (earlier e he).trans (Nat.le_succ n)
  · exact (later e he).le

theorem accepted?_eq_none {e : Deed} (h : e.stage ≠ 0 ∧ e.stage ≠ 5) : e.accepted? = none := by
  cases e with
  | accept late _ _ => cases late <;> simp [Deed.stage] at h
  | _ => rfl

theorem filterMap_accepted?_eq_nil (h : ∀ e ∈ hist, e.stage ≠ 0 ∧ e.stage ≠ 5) :
    hist.filterMap Deed.accepted? = [] :=
  List.filterMap_eq_nil_iff.mpr fun e he => accepted?_eq_none (h e he)

/-- Every stage returns, from any draft without deeds. -/
theorem course_exists (h : Tracks observation ticksLeft reserve memory start [] draft)
    (current : draft.decision.urgency =
      computeUrgency draft.available observation.me.upkeepPerTick reserve) :
    ∃ p d, Course observation ticksLeft draft p ∧
    Traced observation ticksLeft reserve memory start p d := by
  obtain ⟨intake, hintake, taken, htaken, h1, hsub⟩ :=
    @acceptIncoming_tracks observation ticksLeft reserve memory
    start [] draft false observation.incomingOpenOffers
    (scarceImportToChase observation draft.available draft.decision.urgency ticksLeft) h
      (List.Subperm.refl _) (by simp)
  simp only [List.nil_append] at h1 hsub
  obtain ⟨warned, hwarned, withdrawn, hwithdrawn, h2, hheeded⟩ := withdrawDangerous_tracks h1 htaken
  have hstage2 := stage_append (fun e he => (htaken e he).le) hwithdrawn
  obtain ⟨givenDraft, hgivenDraft, given, hgiven, h3⟩ := giveExcess_tracks h2 hstage2
  have hstage3 := stage_append hstage2 hgiven
  obtain ⟨listed, hlisted, noticed, hnoticed, h4⟩ :=
    @refreshListing_tracks observation ticksLeft reserve memory start
    _ givenDraft givenDraft.available (deficitBelowReserve intake.draft.available reserve)
    (Bundle.ofFn fun r => warned.available.get r - stockCap)
      (surplusAboveReserve givenDraft.available reserve)
    (Finset.univ.filter (fun r =>
      computeUrgency intake.draft.available observation.me.upkeepPerTick reserve r = .critical))
    h3 hstage3
  have hstage4 := stage_append hstage3 hnoticed
  obtain ⟨posed, hposed, proposed, hproposed, h5, hasks⟩ := proposeOffers_tracks h4 hstage4
    (computeUrgency intake.draft.available observation.me.upkeepPerTick reserve)
    (deficitBelowReserve intake.draft.available reserve)
  have hstage5 := stage_append hstage4 hproposed
  have hgauged : Gauged observation reserve
      (taken ++ withdrawn ++ given ++ noticed ++ proposed) posed.available
      (computeUrgency intake.draft.available observation.me.upkeepPerTick reserve) := by
    have h2' := (Gauged.now taken intake.draft.available).later h1 h2
      (fun e he => by rw [hwithdrawn e he]; decide)
    have h3' := h2'.later h2 h3 (fun e he => by rw [hgiven e he]; decide)
    have h4' := h3'.later h3 h4 (fun e he => by rw [hnoticed e he]; decide)
    exact h4'.later h4 h5 (fun e he => by rw [hproposed e he]; decide)
  have hunused : ((taken ++ withdrawn ++ given ++ noticed ++ proposed).filterMap Deed.accepted? ++
      intake.deferred).Subperm observation.incomingOpenOffers := by
    have hnone : (withdrawn ++ (given ++ (noticed ++ proposed))).filterMap Deed.accepted? = [] := by
      refine filterMap_accepted?_eq_nil fun e he => ?_
      have hstage : e.stage = 1 ∨ e.stage = 2 ∨ e.stage = 3 ∨ e.stage = 4 := by
        simp only [List.mem_append] at he
        exact he.imp (hwithdrawn e) (Or.imp (hgiven e) (Or.imp (hnoticed e) (hproposed e)))
      omega
    have hsame : (taken ++ withdrawn ++ given ++ noticed ++ proposed).filterMap Deed.accepted? =
        taken.filterMap Deed.accepted? := by
      rw [List.append_assoc, List.append_assoc, List.append_assoc, List.filterMap_append, hnone,
        List.append_nil]
    rw [hsame]
    exact hsub
  obtain ⟨reviewed, urgency, hreviewed, late, hlate, h6, hgauged6⟩ :=
    reconsider_tracks h5 hgauged hunused hstage5
  refine ⟨⟨intake, warned, givenDraft, listed, posed, reviewed, urgency⟩,
    ⟨taken, withdrawn, given, noticed, proposed, late⟩, ⟨?_, hwarned, hgivenDraft, ?_, ?_, ?_⟩,
    ⟨htaken, hwithdrawn, hgiven, hnoticed, hproposed, hlate, h1, h2, h3, h4, h5, h6, hsub, hheeded,
    hgauged6, hasks⟩⟩
  · rw [h.reserve]
    rw [current] at hintake ⊢
    exact hintake
  · rw [h.reserve]
    exact hlisted
  · rw [h.reserve]
    exact hposed
  · rw [h.reserve]
    exact hreviewed

theorem Course.passage (h : Course observation ticksLeft draft p) :
    passage observation ticksLeft draft = .ok p := by
  unfold SpaceportBazaar.passage
  simp only [bind, Except.bind]
  rw [h.accepts]
  simp only
  rw [h.withdraws]
  simp only
  have hgives := h.gives
  unfold Passage.excess at hgives
  rw [hgives]
  simp only
  have hlists := h.lists
  unfold Passage.excess Passage.critical Passage.gauge Passage.deficit at hlists
  rw [hlists]
  simp only
  have hproposes := h.proposes
  unfold Passage.gauge Passage.deficit at hproposes
  rw [hproposes]
  simp only
  have hreviews := h.reviews
  unfold Passage.gauge at hreviews
  rw [hreviews]
  rfl

/-- The stages one after the other are what `prepare` does. -/
theorem Course.prepares (h : Course observation ticksLeft draft p) :
    prepare observation ticksLeft draft = .ok ⟨p.listed, p.intake.deferred,
      p.deficit draft.decision.reserve, p.gauge observation draft.decision.reserve⟩ := by
  unfold prepare
  simp only [bind, Except.bind]
  rw [h.accepts]
  simp only
  rw [h.withdraws]
  simp only
  rw [excessOverCap_ok]
  simp only
  have hgives := h.gives
  have hlists := h.lists
  unfold Passage.excess at hgives hlists
  rw [hgives]
  simp only
  unfold Passage.critical Passage.gauge Passage.deficit at hlists
  rw [hlists]
  rfl

/-- The stages one after the other, and then the aid stage, are the trading part of `decide`. -/
theorem Course.trades (h : Course observation ticksLeft draft p)
    (kept : p.listed.decision.reserve = draft.decision.reserve) :
    trade observation ticksLeft draft = offerAid observation ticksLeft
      (surplusAboveReserve p.reviewed.available draft.decision.reserve) p.urgency p.reviewed := by
  unfold trade
  simp only [bind, Except.bind]
  rw [h.prepares]
  simp only
  rw [kept, h.proposes]
  simp only
  rw [h.reviews]

/-- At most one round is made, so at most one distress gift. -/
theorem offerAid_records {urgency : Resource → Urgency}
    (h : Tracks observation ticksLeft reserve memory start hist draft)
    (gauged : Gauged observation reserve hist draft.available urgency)
    (earlier : ∀ e ∈ hist, e.stage ≤ 5) (aids : offerAid observation ticksLeft
      (draft.available.saturatingSub reserve) urgency draft = .ok last) :
    (∃ log, last.memory = { memory with altruismLog := log }) ∧
      (plannedOffers last.decision = plannedOffers draft.decision ∨
        plannedOffers last.decision = plannedOffers draft.decision + 1 ∧
          observation.outgoingOpenOffers.length + plannedOffers draft.decision <
            observation.rules.maxOpenOutgoingOffers) ∧
      ∃ more, Records observation ticksLeft reserve memory.counterparties start
        (hist ++ more) last.decision := by
  obtain ⟨last', hlast', hdue⟩ :=
    @offerAid_due observation ticksLeft (draft.available.saturatingSub reserve) urgency draft
  cases Except.ok.inj (aids.symm.trans hlast')
  rcases hdue with ⟨_, rfl⟩ | ⟨gift, reason, hgift, rfl⟩
  · refine ⟨h.memory, Or.inl rfl, [], ?_⟩
    rw [List.append_nil]
    exact ⟨⟨_, h.run⟩, h.actions, h.reserve, h.opening⟩
  · have hchecked := aidDue_due hgift
    have hroom := hchecked.room
    obtain ⟨hcalm, hpos, hle, hsize, _, stats, hstats, hid⟩ := scanForDistress_spec hchecked.found
    have allowed : Allowed observation ticksLeft reserve memory.counterparties hist
        ⟨draft.available, draft.budget⟩ (.aid gift) := by
      refine ⟨hchecked.lasts, hpos,
          by simpa using hle, by simpa using hsize, ?_, ?_, ⟨stats, ?_, hid⟩, urgency, gauged,
        hcalm⟩
      · rw [← h.planned]
        exact hroom
      · have hnormal := hchecked.normal
        rw [h.reserve] at hnormal
        exact hnormal
      · rw [← h.model]
        exact hstats
    have follows : (Deed.aid gift).Follows hist :=
      ⟨fun e he => (earlier e he).trans (by simp [Deed.stage]),
        fun _ e he => lt_of_le_of_lt (earlier e he) (by simp [Deed.stage])⟩
    obtain ⟨log, hlog⟩ := h.memory
    refine ⟨⟨log.set (gift.stationId, gift.resource) observation.tick, ?_⟩, Or.inr ⟨?_, hroom⟩,
      [.aid gift], ⟨_, h.run.next ⟨follows, allowed⟩ ⟨hchecked.budget, rfl⟩⟩, ?_,
      h.reserve, h.opening⟩
    · show draft.memory.recordGift gift.stationId gift.resource observation.tick = _
      rw [hlog]
      rfl
    · show (draft.decision.actions ++ [_]).countP Action.isOffer = _
      rw [List.countP_append]
      rfl
    · rw [List.map_append, ← h.actions]
      rfl

/-- What was accepted late adds no offer of ours. -/
theorem Traced.planned (h : Traced observation ticksLeft reserve memory start p d) :
    plannedOffers p.reviewed.decision = plannedOffers p.posed.decision := by
  have hzero : d.late.countP Deed.offers = 0 := by
    rw [List.countP_eq_zero]
    intro e he hoffers
    have hstage := h.late e he
    cases e with
    | accept late offer cost => simp [Deed.offers] at hoffers
    | _ => simp [Deed.stage] at hstage
  rw [h.reviews.planned, h.poses.planned, Deeds.beforeAid, List.countP_append, hzero, Nat.add_zero]

theorem Traced.stages (h : Traced observation ticksLeft reserve memory start p d) :
    ∀ e ∈ d.beforeAid, e.stage ≤ 5 := by
  intro e he
  simp only [Deeds.beforeAid, Deeds.beforeOffers, Deeds.beforeListing, List.mem_append] at he
  rcases he with ((((he | he) | he) | he) | he) | he
  · simp [h.taken e he]
  · simp [h.withdrawn e he]
  · simp [h.given e he]
  · simp [h.noticed e he]
  · simp [h.proposed e he]
  · simp [h.late e he]

end Course

section Outcome

variable (observation : Snapshot) (memory : PolicyMemory) (commitments : CommitmentTracker)
  (commandBudget : Option Int)

/-- A decision that trades: its stages, and what the aid stage makes of them. -/
structure Conducted (draft : Plan) (p : Passage) (d : Deeds) (last : Plan) : Prop where
  assessed : assess observation memory commitments commandBudget = .ok draft
  course : Course observation (some (observation.rules.durationTicks - observation.tick)) draft p
  traced : Traced observation
      (some (observation.rules.durationTicks - observation.tick)) draft.decision.reserve
    draft.memory ⟨draft.available, draft.budget⟩ p d
  aids : offerAid observation (some (observation.rules.durationTicks - observation.tick))
    (surplusAboveReserve p.reviewed.available draft.decision.reserve) p.urgency p.reviewed =
      .ok last
  decides :
    Policy.decide observation memory commitments commandBudget = .ok (last.decision, last.memory)

theorem assess_opening : ∃ reserve stored,
    computeReserve observation.rules observation.me (memory.observe observation)
      (commitments.availableToCommit observation) =
        .ok (reserve, { memory.observe observation with storedReserve := stored }) ∧
    assess observation memory commitments commandBudget = .ok
      ⟨openingDecision observation (commitments.availableToCommit observation) reserve,
        { memory.observe observation with storedReserve := stored },
        commandAllowance observation commandBudget, commitments.availableToCommit observation⟩ ∧
    gateReason observation { memory.observe observation with storedReserve := stored } =
      gateReason observation memory := by
  obtain ⟨reserve, stored, hreserve, _⟩ := computeReserve_spec observation.rules observation.me
    (memory.observe observation) (commitments.availableToCommit observation)
  refine ⟨reserve, stored, hreserve, ?_, ?_⟩
  · unfold assess
    simp only [bind, Except.bind]
    rw [hreserve]
    rfl
  · simp only [gateReason, PolicyMemory.observe_blocked]

/-- Behind a gate nothing is done. -/
theorem decide_gated {reason : String} (gated : gateReason observation memory = some reason) :
    ∃ draft, assess observation memory commitments commandBudget = .ok draft ∧
      draft.decision.actions = [] ∧
      Policy.decide observation memory commitments commandBudget =
        .ok ({ draft.decision with reasons := [reason] }, draft.memory) := by
  obtain ⟨reserve, stored, _, hassess, hgate⟩ :=
    assess_opening observation memory commitments commandBudget
  refine ⟨_, hassess, rfl, ?_⟩
  unfold Policy.decide
  simp only [bind, Except.bind]
  rw [hassess]
  simp only [hgate, gated]
  rfl

theorem decide_conducted (trades : gateReason observation memory = none) :
    ∃ draft p d last, Conducted observation memory commitments commandBudget draft p d last := by
  obtain ⟨reserve, stored, _, hassess, hgate⟩ :=
    assess_opening observation memory commitments commandBudget
  generalize hdraft :
    (⟨openingDecision observation (commitments.availableToCommit observation) reserve,
    { memory.observe observation with storedReserve := stored }, commandAllowance observation
    commandBudget, commitments.availableToCommit observation⟩ : Plan) = draft at hassess
  have hopening : Tracks observation (some (observation.rules.durationTicks - observation.tick))
      draft.decision.reserve draft.memory ⟨draft.available, draft.budget⟩ [] draft := by
    subst hdraft
    exact ⟨.start, rfl, rfl, rfl, ⟨_, rfl⟩⟩
  obtain ⟨p, d, hcourse, htraced⟩ := course_exists hopening (by subst hdraft; rfl)
  obtain ⟨last, hlast, _⟩ :=
    @offerAid_due observation (some (observation.rules.durationTicks - observation.tick))
    (surplusAboveReserve p.reviewed.available draft.decision.reserve) p.urgency p.reviewed
  refine ⟨draft, p, d, last, hassess, hcourse, htraced, hlast, ?_⟩
  unfold Policy.decide
  simp only [bind, Except.bind]
  rw [hassess]
  have hgate' : gateReason observation draft.memory = none := by
    subst hdraft
    exact hgate.trans trades
  simp only [hgate']
  rw [hcourse.trades htraced.lists.reserve, hlast]
  rfl

/-- What holds of every decision that trades; behind a gate a decision does nothing. -/
theorem decide_rule {Q : Plan → Passage → Decision → Prop} (traded :
      ∀ draft p d last, Conducted observation memory commitments commandBudget draft p d last →
      Q draft p last.decision) :
    ∃ decision memory', Policy.decide observation memory commitments commandBudget =
      .ok (decision, memory') ∧
      (gateReason observation memory ≠ none → decision.actions = []) ∧
      (gateReason observation memory = none → ∃ draft p,
        assess observation memory commitments commandBudget = .ok draft ∧
        Course observation (some (observation.rules.durationTicks - observation.tick)) draft p ∧
        Q draft p decision) := by
  cases hgate : gateReason observation memory with
  | some reason =>
    obtain ⟨draft, _, hidle, hdecide⟩ :=
      decide_gated observation memory commitments commandBudget hgate
    exact ⟨_, _, hdecide, fun _ => hidle, nofun⟩
  | none =>
    obtain ⟨draft, p, d, last, h⟩ :=
      decide_conducted observation memory commitments commandBudget hgate
    exact ⟨_, _, h.decides, fun hne => absurd rfl hne, fun _ =>
      ⟨draft, p, h.assessed, h.course, traded _ _ _ _ h⟩⟩

variable {observation memory commitments commandBudget} {draft last : Plan}
  {p : Passage} {d : Deeds}

/-- The distress gift that ends a decision, if one is due. -/
def Deeds.aids (observation : Snapshot) (reserve : Bundle) (p : Passage) : List Deed :=
  (aidDue observation (some (observation.rules.durationTicks - observation.tick))
    (surplusAboveReserve p.reviewed.available reserve) p.urgency p.reviewed).toList.map Deed.aid

/-- The actions of a decision are its deeds, stage by stage. -/
theorem Conducted.actions
    (h : Conducted observation memory commitments commandBudget draft p d last) :
    last.decision.actions =
      (d.beforeAid ++ Deeds.aids observation draft.decision.reserve p).map
        (Deed.action observation) := by
  obtain ⟨last', hlast', hdue⟩ :=
    @offerAid_due observation (some (observation.rules.durationTicks - observation.tick))
    (surplusAboveReserve p.reviewed.available draft.decision.reserve) p.urgency p.reviewed
  cases Except.ok.inj (h.aids.symm.trans hlast')
  rw [List.map_append, ← h.traced.reviews.actions, Deeds.aids]
  rcases hdue with ⟨hnone, rfl⟩ | ⟨gift, reason, hgift, rfl⟩
  · rw [hnone]
    exact (List.append_nil _).symm
  · rw [hgift]
    rfl

theorem Conducted.opening
    (h : Conducted observation memory commitments commandBudget draft p d last) :
    ∃ reserve stored, computeReserve observation.rules observation.me (memory.observe observation)
        (commitments.availableToCommit observation) =
          .ok (reserve, { memory.observe observation with storedReserve := stored }) ∧
      draft = ⟨openingDecision observation (commitments.availableToCommit observation) reserve,
        { memory.observe observation with storedReserve := stored },
        commandAllowance observation commandBudget, commitments.availableToCommit observation⟩ := by
  obtain ⟨reserve, stored, hreserve, hassess, _⟩ :=
    assess_opening observation memory commitments commandBudget
  exact ⟨reserve, stored, hreserve, Except.ok.inj (h.assessed.symm.trans hassess)⟩

/-- The reserve of a decision is what `compute_reserve` asks for, so no more than its cap. -/
theorem Conducted.reserve_le
    (h : Conducted observation memory commitments commandBudget draft p d last) (r : Resource) :
    draft.decision.reserve.get r ≤ maxReserveUnits := by
  obtain ⟨reserve, stored, hreserve, rfl⟩ := h.opening
  obtain ⟨reserve', stored', hreserve', hspec⟩ :=
    computeReserve_spec observation.rules observation.me
    (memory.observe observation) (commitments.availableToCommit observation)
  have hsame : reserve = reserve' := (Prod.mk.inj (Except.ok.inj (hreserve.symm.trans hreserve'))).1
  rw [hsame]
  exact (hspec r).2.2

theorem Conducted.allowance
    (h : Conducted observation memory commitments commandBudget draft p d last) :
    draft.budget = commandAllowance observation commandBudget := by
  obtain ⟨_, _, _, rfl⟩ := h.opening
  rfl

theorem Conducted.model
    (h : Conducted observation memory commitments commandBudget draft p d last) :
    draft.memory.counterparties = (memory.observe observation).counterparties := by
  obtain ⟨_, _, _, rfl⟩ := h.opening
  rfl

variable (observation memory commitments commandBudget)

/-- `decide` always returns, and every action it returns was allowed when it was chosen. -/
theorem decide_records : ∃ decision memory' hist stored,
    Policy.decide observation memory commitments commandBudget = .ok (decision, memory') ∧ (∃ log,
      memory' = { memory.observe observation with storedReserve := stored, altruismLog := log }) ∧
    decision.available = commitments.availableToCommit observation ∧
    computeReserve observation.rules observation.me (memory.observe observation)
      (commitments.availableToCommit observation) =
        .ok (decision.reserve, { memory.observe observation with storedReserve := stored }) ∧
    Records observation (some (observation.rules.durationTicks - observation.tick)) decision.reserve
      (memory.observe observation).counterparties
      ⟨commitments.availableToCommit observation, commandAllowance observation commandBudget⟩
        hist decision ∧
    (hist ≠ [] → gateReason observation memory = none) ∧
    (gateReason observation memory = none → ∀ o ∈ observation.outgoingOpenOffers,
      Heeded observation (some (observation.rules.durationTicks - observation.tick))
        decision.reserve
        (memory.observe observation).counterparties
        ⟨commitments.availableToCommit observation, commandAllowance observation commandBudget⟩ hist
          o) := by
  obtain ⟨reserve, stored, hreserve, hassess, _⟩ :=
    assess_opening observation memory commitments commandBudget
  cases hreason : gateReason observation memory with
  | some reason =>
    obtain ⟨draft, hdraft, _, hdecide⟩ :=
      decide_gated observation memory commitments commandBudget hreason
    cases Except.ok.inj (hassess.symm.trans hdraft)
    refine ⟨_, _, [], stored, hdecide, ⟨_, rfl⟩, rfl, hreserve, ⟨⟨_, .start⟩, rfl, rfl, rfl⟩,
      by simp, by simp⟩
  | none =>
    obtain ⟨draft, p, d, last, hconducted⟩ :=
      decide_conducted observation memory commitments commandBudget hreason
    have htraced := hconducted.traced
    obtain ⟨hmemory, _, more, hrecords⟩ :=
      offerAid_records htraced.reviews htraced.gauged htraced.stages hconducted.aids
    have hdraft := Except.ok.inj (hassess.symm.trans hconducted.assessed)
    subst hdraft
    have hreserve' : last.decision.reserve = reserve := hrecords.reserve
    rw [← hrecords.reserve] at hrecords
    refine ⟨last.decision, last.memory, _, stored, hconducted.decides, hmemory, hrecords.opening,
      ?_, hrecords, fun _ => rfl, fun _ o ho => ?_⟩
    · rw [hreserve']
      exact hreserve
    · rw [hreserve']
      exact (((((htraced.heeded o ho).append _).append _).append _).append _).append _

end Outcome

end SpaceportBazaar
