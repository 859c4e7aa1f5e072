import SpaceportBazaar.DecideSteps
import SpaceportBazaar.Machine

namespace SpaceportBazaar

/-- What one decision may still spend: stock, and commands. -/
structure Account where
  balance : Bundle
  left : Nat

/-- One action of a decision, with what it promises away. -/
inductive Deed
  | accept (late : Bool) (offer : Offer) (cost : Bundle)
  | withdraw (offer : Offer)
  | giveExcess (recipient : String) (resource : Resource) (quantity : Nat)
  | notice (action : Action)
  | propose (candidate : Candidate) (paid asked : Nat)
  | aid (gift : GiftIntent)

namespace Deed

def payment : Deed → Bundle
  | .accept _ _ cost => cost
  | .withdraw _ => .zero
  | .giveExcess _ resource quantity => .only resource quantity
  | .notice _ => .zero
  | .propose candidate paid _ => .only candidate.give paid
  | .aid gift => .only gift.resource gift.quantity

def action (observation : Snapshot) : Deed → Action
  | .accept _ offer _ => .accept offer.offerId
  | .withdraw offer => .withdraw offer.offerId
  | .giveExcess recipient resource quantity =>
    .offer recipient (.only resource quantity) .zero (observation.tick + offerLifetime observation)
  | .notice action => action
  | .propose candidate paid asked =>
    .offer candidate.stationId (.only candidate.give paid) (.only candidate.want asked)
      (observation.tick + offerLifetime observation)
  | .aid gift =>
    .offer gift.stationId (.only gift.resource gift.quantity) .zero
      (observation.tick + offerLifetime observation)

/-- The order in which the stages of a decision come. -/
def stage : Deed → Nat
  | .accept false _ _ => 0
  | .withdraw _ => 1
  | .giveExcess _ _ _ => 2
  | .notice _ => 3
  | .propose _ _ _ => 4
  | .accept true _ _ => 5
  | .aid _ => 6

def accepted? : Deed → Option Offer
  | .accept _ offer _ => some offer
  | _ => none

def withdrawn? : Deed → Option Offer
  | .withdraw offer => some offer
  | _ => none

def wanted? : Deed → Option Resource
  | .propose candidate _ _ => some candidate.want
  | _ => none

/-- A proposal that keeps later ones to the higher floor. -/
def normalOffer : Deed → Bool
  | .propose candidate paid asked =>
    aboveHalfPrice (.only candidate.give paid) (.only candidate.want asked)
  | _ => false

def offers : Deed → Bool
  | .giveExcess _ _ _ => true
  | .propose _ _ _ => true
  | .aid _ => true
  | _ => false

def step (a : Account) (d : Deed) (b : Account) : Prop :=
  0 < a.left ∧ b = ⟨a.balance.saturatingSub d.payment, a.left - 1⟩

end Deed

section Guard

variable (observation : Snapshot) (ticksLeft : Option Nat) (reserve : Bundle)
  (model : CounterpartyModel)

def standingNormal (hist : List Deed) : Bool :=
  hasNormalOffers observation || hist.any Deed.normalOffer

/-- Urgency as it stood at some point of the decision after its first accepts. -/
def Gauged (hist : List Deed) (balance : Bundle) (urgency : Resource → Urgency) : Prop :=
  ∃ past since, hist = past ++ since ∧ (∀ e ∈ since, 0 < e.stage) ∧
    urgency = computeUrgency
    (balance + (since.map Deed.payment).sum) observation.me.upkeepPerTick reserve

/-- What a decision checks before each deed, at the balance its earlier deeds leave. -/
def Allowed (hist : List Deed) (a : Account) : Deed → Prop
  | .accept _ offer cost =>
    (hist.filterMap Deed.accepted? ++ [offer]).Subperm observation.incomingOpenOffers ∧
    offer.whatStationPays observation.selfStationId = .ok cost ∧
    ¬guardsStanding observation ticksLeft a.balance cost ∧
    ∃ gain, offer.whatStationReceives observation.selfStationId = .ok gain ∧
      (verdictOn observation ticksLeft reserve a.balance cost gain).accept = true
  | .withdraw offer =>
    (hist.filterMap Deed.withdrawn? ++ [offer]).Sublist observation.outgoingOpenOffers ∧
    (atRisk a.balance reserve offer ≠ [] ∨
      violatesGuard (productionPaymentLimit a.balance observation.me ticksLeft) offer = true)
  | .giveExcess recipient resource quantity =>
    0 < quantity ∧ stockCap + quantity ≤ a.balance.get resource ∧ 0 < offerLifetime observation ∧
    observation.outgoingOpenOffers.length + hist.countP Deed.offers <
    observation.rules.maxOpenOutgoingOffers ∧
    ∃ stats ∈ model.trading, stats.stationId = recipient
  | .notice action =>
    (∃ selling seeking ttl, action = .advertise selling seeking (observation.tick + ttl) ∧ 0 < ttl ∧
      ttl ≤ observation.rules.maxPublicationTtlTicks ∧
      observation.tick + ttl ≤ observation.rules.durationTicks) ∨
    ∃ ad, observation.ownAdvertisement = some ad ∧ action = .withdraw ad.advertisementId
  | .propose candidate paid asked =>
    0 < offerLifetime observation ∧ candidate.want ∉ hist.filterMap Deed.wanted? ∧
    observation.outgoingOpenOffers.length + (hist.filterMap Deed.wanted?).length <
      observation.rules.maxOpenOutgoingOffers ∧
    (∃ stats ∈ model.trading, stats.stationId = candidate.stationId) ∧
    (candidate.stationId, candidate.want) ∉ pendingPairs observation ∧
    ∃ limit, (limit = none ∨ limit = some (1 / 2) ∧ inEndGame ticksLeft = false) ∧
      Priced observation ticksLeft a.balance (a.balance.saturatingSub reserve)
      (standingNormal observation hist)
        candidate limit paid asked
  | .aid gift =>
    0 < offerLifetime observation ∧
    0 < gift.quantity ∧ gift.quantity ≤ a.balance.get gift.resource - reserve.get gift.resource ∧
    gift.quantity = donationSize (a.balance.get gift.resource - reserve.get gift.resource) ∧
    observation.outgoingOpenOffers.length + hist.countP Deed.offers <
    observation.rules.maxOpenOutgoingOffers ∧
    productionPaymentLimit ((a.balance.saturatingSub reserve + reserve).saturatingSub
      (.only gift.resource gift.quantity)) observation.me ticksLeft = none ∧
    (∃ stats ∈ model.trading, stats.stationId = gift.stationId) ∧
    ∃ urgency, Gauged observation reserve hist a.balance urgency ∧ ∀ r, urgency r = .none

/-- Stages come in order, and what may happen once is not repeated. -/
def Deed.Follows (hist : List Deed) (d : Deed) : Prop :=
  (∀ e ∈ hist, e.stage ≤ d.stage) ∧ (d.stage = 3 ∨ d.stage = 6 → ∀ e ∈ hist, e.stage < d.stage)

def deedGuard (hist : List Deed) (a : Account) (d : Deed) : Prop :=
  d.Follows hist ∧ Allowed observation ticksLeft reserve model hist a d

/-- A finished decision, with the deeds it was made of. -/
structure Records (start : Account) (hist : List Deed) (decision : Decision) : Prop where
  run : ∃ account, Machine.GuardedRun
    (deedGuard observation ticksLeft reserve model) Deed.step start hist account
  actions : decision.actions = hist.map (Deed.action observation)
  reserve : decision.reserve = reserve
  opening : decision.available = start.balance

/-- An offer of ours was looked at after the first accepts: it was withdrawn, or commands
had run out, or honouring it did no harm. -/
def Heeded (start : Account) (hist : List Deed) (offer : Offer) : Prop :=
  .withdraw offer ∈ hist ∨ ∃ past account,
    Machine.GuardedRun (deedGuard observation ticksLeft reserve model) Deed.step
    start past account ∧
    past <+: hist ∧ (∀ e ∈ past, e.stage ≤ 1) ∧
    (account.left = 0 ∨ atRisk account.balance reserve offer = [] ∧
      violatesGuard (productionPaymentLimit account.balance observation.me ticksLeft) offer = false)

end Guard

section Tracking

variable (observation : Snapshot) (ticksLeft : Option Nat) (reserve : Bundle)
  (memory : PolicyMemory)

/-- A draft that has taken exactly the deeds of a history, each when it was allowed. -/
structure Tracks (start : Account) (hist : List Deed) (draft : Plan) : Prop where
  run : Machine.GuardedRun
      (deedGuard observation ticksLeft reserve memory.counterparties) Deed.step start hist
    ⟨draft.available, draft.budget⟩
  actions : draft.decision.actions = hist.map (Deed.action observation)
  reserve : draft.decision.reserve = reserve
  opening : draft.decision.available = start.balance
  memory : ∃ log, draft.memory = { memory with altruismLog := log }

end Tracking

section Tracking

variable {observation : Snapshot} {ticksLeft : Option Nat} {reserve : Bundle}
  {memory : PolicyMemory} {start : Account} {hist : List Deed} {draft draft' : Plan} {d : Deed}

theorem Tracks.next (h : Tracks observation ticksLeft reserve memory start hist draft)
    (left : 0 < draft.budget) (follows : d.Follows hist) (allowed : Allowed
      observation ticksLeft reserve memory.counterparties hist ⟨draft.available, draft.budget⟩ d)
    (actions : draft'.decision.actions = draft.decision.actions ++ [d.action observation])
    (kept : draft'.decision.reserve = draft.decision.reserve ∧
      draft'.decision.available = draft.decision.available)
    (memory' : ∃ log, draft'.memory = { draft.memory with altruismLog := log })
    (budget : draft'.budget = draft.budget - 1)
    (available : draft'.available = draft.available.saturatingSub d.payment) :
    Tracks observation ticksLeft reserve memory start (hist ++ [d]) draft' where
  run := h.run.next ⟨follows, allowed⟩ ⟨left, by rw [budget, available]⟩
  actions := by rw [actions, h.actions, List.map_append, List.map_singleton]
  reserve := kept.1.trans h.reserve
  opening := kept.2.trans h.opening
  memory := by
    obtain ⟨log, hlog⟩ := memory'
    obtain ⟨log', hlog'⟩ := h.memory
    exact ⟨log, by rw [hlog, hlog']⟩

theorem Tracks.congr (h : Tracks observation ticksLeft reserve memory start hist draft)
    (actions : draft'.decision.actions = draft.decision.actions) (kept : draft'.decision.reserve =
      draft.decision.reserve ∧ draft'.decision.available = draft.decision.available)
    (memory' : ∃ log, draft'.memory = { draft.memory with altruismLog := log })
    (budget : draft'.budget = draft.budget) (available : draft'.available = draft.available) :
    Tracks observation ticksLeft reserve memory start hist draft' where
  run := by rw [budget, available]; exact h.run
  actions := actions.trans h.actions
  reserve := kept.1.trans h.reserve
  opening := kept.2.trans h.opening
  memory := by
    obtain ⟨log, hlog⟩ := memory'
    obtain ⟨log', hlog'⟩ := h.memory
    exact ⟨log, by rw [hlog, hlog']⟩

theorem Tracks.model (h : Tracks observation ticksLeft reserve memory start hist draft) :
    draft.memory.counterparties = memory.counterparties := by
  obtain ⟨log, hlog⟩ := h.memory
  rw [hlog]

theorem Bundle.saturatingSub_zero (b : Bundle) : b.saturatingSub .zero = b :=
  Bundle.ext_get fun r => by simp

/-- A stage's own deeds follow whatever came in earlier stages. -/
theorem Deed.follows_append {more : List Deed} (earlier : ∀ e ∈ hist, e.stage ≤ d.stage)
    (same : ∀ e ∈ more, e.stage = d.stage) (often : d.stage ≠ 3 ∧ d.stage ≠ 6) :
    d.Follows (hist ++ more) := by
  refine ⟨fun e he => ?_, fun h => by omega⟩
  rcases List.mem_append.mp he with he | he
  · exact earlier e he
  · exact (same e he).le

/-- No deed promises more than the balance it is taken from. -/
theorem Allowed.affordable {model : CounterpartyModel} {a : Account}
    (h : Allowed observation ticksLeft reserve model hist a d) : d.payment ≤ a.balance := by
  intro r
  cases d with
  | withdraw offer => exact (Bundle.get_zero r).le.trans (Nat.zero_le _)
  | notice action => exact (Bundle.get_zero r).le.trans (Nat.zero_le _)
  | accept late offer cost =>
    obtain ⟨_, _, _, gain, _, haccept⟩ := h
    rcases judge_accept haccept with hzero | ⟨hcover, _⟩
    · simp [Deed.payment, hzero]
    · exact hcover r
  | giveExcess recipient resource quantity =>
    obtain ⟨_, hstock, _⟩ := h
    simp only [Deed.payment, Bundle.get_only]
    split
    next hr =>
      subst hr
      omega
    next => exact Nat.zero_le _
  | propose candidate paid asked =>
    obtain ⟨_, _, _, _, _, _, _, hpriced⟩ := h
    have hcovered := hpriced.covered
    simp only [Deed.payment, Bundle.get_only]
    split
    next hr =>
      subst hr
      simp only [Bundle.get_saturatingSub] at hcovered
      omega
    next => exact Nat.zero_le _
  | aid gift =>
    obtain ⟨_, _, hle, _⟩ := h
    simp only [Deed.payment, Bundle.get_only]
    split
    next hr =>
      subst hr
      omega
    next => exact Nat.zero_le _

/-- Promises and balance always add up to what the decision started from. -/
theorem deeds_conserve {model : CounterpartyModel} {a : Account} (run :
      Machine.GuardedRun (deedGuard observation ticksLeft reserve model) Deed.step start hist a) :
    a.balance + (hist.map Deed.payment).sum = start.balance ∧
    a.left + hist.length = start.left := by
  refine run.invariant (I := fun hist a => a.balance + (hist.map Deed.payment).sum = start.balance ∧
    a.left + hist.length = start.left) ⟨by simp, rfl⟩ ?_
  intro hist a d b hsum hguard hstep
  obtain ⟨hleft, rfl⟩ := hstep
  have hpaid := hguard.2.affordable
  refine ⟨?_, by simp only [List.length_append, List.length_singleton]; omega⟩
  rw [← hsum.1]
  refine Bundle.ext_get fun r => ?_
  have := hpaid r
  simp only [List.map_append, List.sum_append, List.map_cons, List.map_nil, List.sum_cons,
    List.sum_nil, Bundle.get_add, Bundle.get_saturatingSub, Bundle.get_zero']
  omega

/-- No offer is accepted twice, and only offers open to us are. -/
theorem run_accepts {model : CounterpartyModel} {a : Account} (run :
      Machine.GuardedRun (deedGuard observation ticksLeft reserve model) Deed.step start hist a) :
    (hist.filterMap Deed.accepted?).Subperm observation.incomingOpenOffers := by
  refine run.invariant
      (I := fun hist _ => (hist.filterMap Deed.accepted?).Subperm observation.incomingOpenOffers)
    (List.nil_subperm) ?_
  intro hist a d b hsub hguard _
  rw [List.filterMap_append]
  cases d with
  | accept late offer cost => exact hguard.2.1
  | _ =>
    show (hist.filterMap Deed.accepted? ++ []).Subperm _
    rwa [List.append_nil]

/-- No offer is withdrawn twice, and only open offers of ours are. -/
theorem run_withdraws {model : CounterpartyModel} {a : Account} (run :
      Machine.GuardedRun (deedGuard observation ticksLeft reserve model) Deed.step start hist a) :
    (hist.filterMap Deed.withdrawn?).Sublist observation.outgoingOpenOffers := by
  refine run.invariant
      (I := fun hist _ => (hist.filterMap Deed.withdrawn?).Sublist observation.outgoingOpenOffers)
    (List.nil_sublist _) ?_
  intro hist a d b hsub hguard _
  rw [List.filterMap_append]
  cases d with
  | withdraw offer => exact hguard.2.1
  | _ =>
    show (hist.filterMap Deed.withdrawn? ++ []).Sublist _
    rwa [List.append_nil]

/-- Every action uses one command. -/
theorem Tracks.spent (h : Tracks observation ticksLeft reserve memory start hist draft) :
    draft.budget + draft.decision.actions.length = start.left := by
  rw [h.actions, List.length_map]
  exact (deeds_conserve h.run).2

theorem Tracks.since {more : List Deed}
    (h : Tracks observation ticksLeft reserve memory start hist draft)
    (h' : Tracks observation ticksLeft reserve memory start (hist ++ more) draft') :
    draft.available = draft'.available + (more.map Deed.payment).sum := by
  have hbefore := (deeds_conserve h.run).1
  have hafter := (deeds_conserve h'.run).1
  refine Bundle.ext_get fun r => ?_
  have h1 := congrArg (fun b => b.get r) hbefore
  have h2 := congrArg (fun b => b.get r) hafter
  simp only [List.map_append, List.sum_append, Bundle.get_add] at h1 h2 ⊢
  omega

theorem Gauged.now (hist : List Deed) (balance : Bundle) :
    Gauged observation reserve hist balance
      (computeUrgency balance observation.me.upkeepPerTick reserve) :=
  ⟨hist, [], by simp, by simp, by simp⟩

theorem Gauged.later {more : List Deed} {urgency : Resource → Urgency}
    (g : Gauged observation reserve hist draft.available urgency)
    (h : Tracks observation ticksLeft reserve memory start hist draft)
    (h' : Tracks observation ticksLeft reserve memory start (hist ++ more) draft')
    (later : ∀ e ∈ more, 0 < e.stage) :
    Gauged observation reserve (hist ++ more) draft'.available urgency := by
  obtain ⟨past, since, rfl, hsince, rfl⟩ := g
  refine ⟨past, since ++ more, by simp, fun e he => ?_, ?_⟩
  · exact (List.mem_append.mp he).elim (hsince e) (later e)
  · rw [h.since h', List.map_append, List.sum_append, add_assoc,
      add_comm (more.map Deed.payment).sum]

/-- The accept loop, from a balance whose urgency is current. -/
theorem acceptIncoming_tracks {late : Bool} {offers : List Offer} (holdFor : Option Resource)
    (h : Tracks observation ticksLeft reserve memory start hist draft)
    (unused : (hist.filterMap Deed.accepted? ++ offers).Subperm observation.incomingOpenOffers)
    (earlier : ∀ e ∈ hist, e.stage ≤ if late then 5 else 0) :
    ∃ intake, acceptIncoming observation ticksLeft reserve
        (computeUrgency draft.available observation.me.upkeepPerTick reserve) holdFor offers draft =
          .ok intake ∧
      ∃ more, (∀ e ∈ more, e.stage = if late then 5 else 0) ∧
        Tracks observation ticksLeft reserve memory start (hist ++ more) intake.draft ∧
        ((hist ++ more).filterMap Deed.accepted? ++ intake.deferred).Subperm
          observation.incomingOpenOffers := by
  unfold acceptIncoming
  refine Loop.returns (I := fun rest (st : Intake) =>
    st.urgency = computeUrgency st.draft.available observation.me.upkeepPerTick reserve ∧
    ∃ more, (∀ e ∈ more, e.stage = if late then 5 else 0) ∧
      Tracks observation ticksLeft reserve memory start (hist ++ more) st.draft ∧
      ((hist ++ more).filterMap Deed.accepted? ++ (st.deferred ++ rest)).Subperm
      observation.incomingOpenOffers)
    ⟨rfl, [], by simp, by simpa using h, by simpa using unused⟩ ?_ ?_
  · intro offer rest st
    rintro ⟨hcurrent, more, hstage, htracks, hsub⟩
    have hoffer : offer ∈ observation.incomingOpenOffers := hsub.subset (by simp)
    have hparty := (Snapshot.mem_incomingOpenOffers.mp hoffer).2.1
    have hpassed : ((hist ++ more).filterMap Deed.accepted? ++ (st.deferred ++ rest)).Subperm
        observation.incomingOpenOffers := by
      refine List.Subperm.trans (List.Sublist.subperm ?_) hsub
      exact ((List.sublist_cons_self offer rest).append_left _).append_left _
    obtain ⟨step, hstep, hweighed⟩ :=
      @acceptOne_weighed observation ticksLeft reserve holdFor offer st hparty hcurrent
    refine ⟨step, hstep, ?_⟩
    cases hweighed with
    | spent _ =>
      refine ⟨more, hstage, htracks, List.Subperm.trans (List.Sublist.subperm ?_) hsub⟩
      exact (List.sublist_append_left st.deferred _).append_left _
    | passed cost gain _ _ _ _ => exact ⟨hcurrent, more, hstage, htracks, hpassed⟩
    | deferred cost gain _ _ _ _ _ _ =>
      exact ⟨hcurrent, more, hstage, htracks, by simpa using hsub⟩
    | accepted cost gain reason hbudget hcost hgain hguard haccept _ =>
      refine ⟨rfl, more ++ [.accept late offer cost], ?_, ?_, ?_⟩
      · intro e he
        rcases List.mem_append.mp he with he | he
        · exact hstage e he
        · cases List.mem_singleton.mp he
          cases late <;> rfl
      · rw [← List.append_assoc]
        refine htracks.next hbudget ?_ ⟨?_, hcost, hguard, gain, hgain, haccept⟩ rfl ⟨rfl, rfl⟩
          ⟨_, rfl⟩ rfl rfl
        · refine Deed.follows_append (fun e he => ?_) (fun e he => ?_) ?_
          · have := earlier e he
            cases late <;> simpa [Deed.stage] using this
          · have := hstage e he
            cases late <;> simpa [Deed.stage] using this
          · cases late <;> simp [Deed.stage]
        · refine List.Subperm.trans (List.Sublist.subperm ?_) hsub
          exact (List.singleton_sublist.mpr (by simp)).append_left _
      · have htaken : (hist ++ (more ++ [Deed.accept late offer cost])).filterMap Deed.accepted? =
            (hist ++ more).filterMap Deed.accepted? ++ [offer] := by
          rw [← List.append_assoc, List.filterMap_append]
          rfl
        refine List.Subperm.trans (List.Perm.subperm ?_) hsub
        rw [htaken, List.append_assoc]
        refine List.Perm.append_left _ ?_
        show (offer :: (st.deferred ++ rest)).Perm (st.deferred ++ offer :: rest)
        exact List.perm_middle.symm
  · intro st
    rintro ⟨_, more, hstage, htracks, hsub⟩
    exact ⟨more, hstage, htracks, by simpa using hsub⟩

theorem Heeded.append {model : CounterpartyModel} {offer : Offer} (more : List Deed)
    (h : Heeded observation ticksLeft reserve model start hist offer) :
    Heeded observation ticksLeft reserve model start (hist ++ more) offer := by
  rcases h with h | ⟨past, a, run, hprefix, hstage, hquiet⟩
  · exact Or.inl (List.mem_append_left _ h)
  · exact Or.inr ⟨past, a, run, hprefix.trans (List.prefix_append _ _), hstage, hquiet⟩

theorem withdrawDangerous_tracks (h : Tracks observation ticksLeft reserve memory start hist draft)
    (earlier : ∀ e ∈ hist, e.stage = 0) :
    ∃ draft', withdrawDangerous observation ticksLeft draft = .ok draft' ∧
      ∃ more, (∀ e ∈ more, e.stage = 1) ∧
        Tracks observation ticksLeft reserve memory start (hist ++ more) draft' ∧
        ∀ o ∈ observation.outgoingOpenOffers,
          Heeded observation ticksLeft reserve memory.counterparties start (hist ++ more) o := by
  have hnone : hist.filterMap Deed.withdrawn? = [] := by
    rw [List.filterMap_eq_nil_iff]
    intro e he
    have := earlier e he
    cases e <;> simp_all [Deed.stage, Deed.withdrawn?]
  unfold withdrawDangerous
  refine Loop.returns (I := fun rest (draft : Plan) => ∃ more, (∀ e ∈ more, e.stage = 1) ∧
      ((hist ++ more).filterMap Deed.withdrawn? ++ rest).Sublist observation.outgoingOpenOffers ∧
      Tracks observation ticksLeft reserve memory start (hist ++ more) draft ∧
      ∀ o ∈ observation.outgoingOpenOffers, o ∈ rest ∨
        Heeded observation ticksLeft reserve memory.counterparties start (hist ++ more) o)
    ⟨[], by simp, by simp [hnone], by simpa using h, fun o ho => Or.inl ho⟩ ?_ ?_
  · intro offer rest draft
    rintro ⟨more, hstage, hsub, htracks, hheeded⟩
    have hearly : ∀ e ∈ hist ++ more, e.stage ≤ 1 := by
      intro e he
      rcases List.mem_append.mp he with he | he
      · simp [earlier e he]
      · exact (hstage e he).le
    obtain ⟨step, hstep, hchecked⟩ := withdrawOne_checked observation ticksLeft offer draft
    refine ⟨step, hstep, ?_⟩
    cases hchecked with
    | spent hspent =>
      refine ⟨more, hstage, htracks, fun o ho => (hheeded o ho).elim (fun _ => ?_) id⟩
      exact Or.inr ⟨_, _, htracks.run, List.prefix_rfl, hearly, Or.inl hspent⟩
    | kept _ hsafe hfair =>
      refine ⟨more, hstage, ((List.sublist_cons_self offer rest).append_left _).trans hsub,
        htracks, fun o ho => ?_⟩
      rcases hheeded o ho with hmem | hheeded
      · rcases List.mem_cons.mp hmem with rfl | hrest
        · rw [htracks.reserve] at hsafe
          exact Or.inr (Or.inr ⟨_, _, htracks.run, List.prefix_rfl, hearly, Or.inr ⟨hsafe, hfair⟩⟩)
        · exact Or.inl hrest
      · exact Or.inr hheeded
    | withdrawn reason hbudget hdanger =>
      refine ⟨more ++ [.withdraw offer], ?_, ?_, ?_, fun o ho => ?_⟩
      · intro e he
        rcases List.mem_append.mp he with he | he
        · exact hstage e he
        · cases List.mem_singleton.mp he
          rfl
      · have htaken : (hist ++ (more ++ [Deed.withdraw offer])).filterMap Deed.withdrawn? =
            (hist ++ more).filterMap Deed.withdrawn? ++ [offer] := by
          rw [← List.append_assoc, List.filterMap_append]
          rfl
        rw [htaken, List.append_assoc]
        exact hsub
      · rw [← List.append_assoc]
        rw [htracks.reserve] at hdanger
        refine htracks.next hbudget ?_ ⟨?_, hdanger⟩ rfl ⟨rfl, rfl⟩ ⟨_, rfl⟩ rfl
          (Bundle.saturatingSub_zero _).symm
        · refine Deed.follows_append (fun e he => ?_) hstage (by simp [Deed.stage])
          simp [earlier e he]
        · refine List.Sublist.trans ?_ hsub
          exact (List.singleton_sublist.mpr (by simp)).append_left _
      · rw [← List.append_assoc]
        rcases hheeded o ho with hmem | hheeded
        · rcases List.mem_cons.mp hmem with rfl | hrest
          · exact Or.inr (Or.inl (by simp))
          · exact Or.inl hrest
        · exact Or.inr (hheeded.append _)
  · intro draft
    rintro ⟨more, hstage, _, htracks, hheeded⟩
    exact ⟨more, hstage, htracks, fun o ho => (hheeded o ho).resolve_left (by simp)⟩

theorem excessOverCap_ok (available : Bundle) :
    excessOverCap available = .ok (Bundle.ofFn fun r => available.get r - stockCap) :=
  Bundle.make_ok fun r => by omega

theorem Allowed.isOffer {model : CounterpartyModel} {a : Account}
    (h : Allowed observation ticksLeft reserve model hist a d) :
    (d.action observation).isOffer = d.offers := by
  cases d with
  | notice action => obtain ⟨_, _, _, rfl, _⟩ | ⟨_, _, rfl⟩ := h <;> rfl
  | _ => rfl

/-- Only the offers of a history are offers of its decision. -/
theorem Tracks.planned (h : Tracks observation ticksLeft reserve memory start hist draft) :
    plannedOffers draft.decision = hist.countP Deed.offers := by
  unfold plannedOffers
  rw [h.actions, List.countP_map]
  refine List.countP_congr fun e he => ?_
  obtain ⟨past, a, _, ⟨_, hallowed⟩, _⟩ := h.run.allowed he
  simp [hallowed.isOffer]

theorem giveExcess_tracks (h : Tracks observation ticksLeft reserve memory start hist draft)
    (earlier : ∀ e ∈ hist, e.stage ≤ 1) :
    ∃ draft', giveExcess observation (Bundle.ofFn fun r => draft.available.get r - stockCap) draft =
      .ok draft' ∧
      ∃ more, (∀ e ∈ more, e.stage = 2) ∧
      Tracks observation ticksLeft reserve memory start (hist ++ more) draft' := by
  have hplanned := h.planned
  generalize hx : (Bundle.ofFn fun r => draft.available.get r - stockCap) = excess
  have hexcess : ∀ r, excess.get r = draft.available.get r - stockCap :=
    fun r => by rw [← hx, Bundle.get_ofFn]
  have hsorted : (Resource.all.insertionSort (fun a b => excess.get b ≤ excess.get a)).Nodup :=
    (List.perm_insertionSort _ _).nodup_iff.mpr (by decide)
  have loop : ∃ st, forIn (Resource.all.insertionSort (fun a b => excess.get b ≤ excess.get a))
      (⟨draft, observation.rules.maxOpenOutgoingOffers - observation.outgoingOpenOffers.length -
        plannedOffers draft.decision⟩ : Gifting) (giveOne observation excess) = .ok st ∧
      ∃ more, (∀ e ∈ more, e.stage = 2) ∧
        Tracks observation ticksLeft reserve memory start (hist ++ more) st.draft := by
    refine Loop.returns (I := fun rest (st : Gifting) => rest.Nodup ∧
      (∀ r ∈ rest, st.draft.available.get r = draft.available.get r) ∧
      ∃ more, (∀ e ∈ more, e.stage = 2) ∧
        Tracks observation ticksLeft reserve memory start (hist ++ more) st.draft ∧
        st.room = observation.rules.maxOpenOutgoingOffers - observation.outgoingOpenOffers.length -
          (hist ++ more).countP Deed.offers)
      ⟨hsorted, fun _ _ => rfl, [], by simp, by simpa using h, by simp [hplanned]⟩ ?_ ?_
    · intro resource rest st
      rintro ⟨hnodup, hsame, more, hstage, htracks, hroom⟩
      have hrest := List.nodup_cons.mp hnodup
      obtain ⟨step, hstep, hgiven⟩ := giveOne_given observation excess resource st
      refine ⟨step, hstep, ?_⟩
      cases hgiven with
      | ended => exact ⟨more, hstage, htracks⟩
      | unsought =>
        exact ⟨hrest.2, fun r hr => hsame r (List.mem_cons_of_mem _ hr), more,
          hstage, htracks, hroom⟩
      | gifted recipient reason gift hbudget hopen httl hpos hpick hgift =>
        subst hgift
        obtain ⟨stats, hstats, hid⟩ := pickGiftRecipient_known hpick
        have hstock := hsame resource List.mem_cons_self
        have hover := hexcess resource
        refine ⟨hrest.2, fun r hr => ?_, more ++
          [.giveExcess recipient resource (min (excess.get resource) maxExcessGift)], ?_, ?_, ?_⟩
        · have hne : r ≠ resource := fun h => hrest.1 (h ▸ hr)
          show (st.draft.available.saturatingSub _).get r = _
          simp [hne, hsame r (List.mem_cons_of_mem _ hr)]
        · intro e he
          rcases List.mem_append.mp he with he | he
          · exact hstage e he
          · cases List.mem_singleton.mp he
            rfl
        · rw [← List.append_assoc]
          refine htracks.next hbudget ?_ ⟨?_, ?_, httl, ?_, stats, ?_, hid⟩ rfl ⟨rfl, rfl⟩
            ⟨_, rfl⟩ rfl rfl
          · exact Deed.follows_append (fun e he => (earlier e he).trans (by simp [Deed.stage]))
              hstage (by simp [Deed.stage])
          · simp only [maxExcessGift]
            omega
          · show stockCap + _ ≤ st.draft.available.get resource
            omega
          · omega
          · rw [← htracks.model]
            exact hstats
        · show st.room - 1 = _
          rw [← List.append_assoc, List.countP_append, hroom]
          simp [Deed.offers, Nat.sub_sub, Nat.add_assoc]
    · intro st
      rintro ⟨_, _, more, hstage, htracks, _⟩
      exact ⟨more, hstage, htracks⟩
  obtain ⟨st, hst, hmore⟩ := loop
  refine ⟨st.draft, ?_, hmore⟩
  show (forIn _ _ _ >>= _) = _
  rw [hst]
  rfl

theorem refreshListing_tracks {available deficit excess surplus : Bundle}
    {critical : Finset Resource} (h : Tracks observation ticksLeft reserve memory start hist draft)
    (earlier : ∀ e ∈ hist, e.stage ≤ 2) :
    ∃ draft', refreshListing observation ticksLeft excess surplus
        (wantedQuantities observation available reserve deficit) critical draft = .ok draft' ∧
      ∃ more, (∀ e ∈ more, e.stage = 3) ∧
      Tracks observation ticksLeft reserve memory start (hist ++ more) draft' := by
  obtain ⟨draft', hdraft', rfl | ⟨hbudget, action, reason, rfl, hnotice⟩⟩ :=
    @refreshListing_cases observation ticksLeft reserve surplus draft available
      deficit excess critical
  · exact ⟨draft', hdraft', [], by simp, by simpa using h⟩
  · refine ⟨_, hdraft', [.notice action], by simp [Deed.stage], ?_⟩
    refine h.next hbudget ⟨fun e he => ?_, fun _ e he => ?_⟩ hnotice rfl ⟨rfl, rfl⟩ ⟨_, rfl⟩ rfl
      (Bundle.saturatingSub_zero _).symm
    · exact (earlier e he).trans (by simp [Deed.stage])
    · exact lt_of_le_of_lt (earlier e he) (by simp [Deed.stage])

theorem Bundle.saturatingSub_comm (a b c : Bundle) :
    (a.saturatingSub b).saturatingSub c = (a.saturatingSub c).saturatingSub b :=
  Bundle.ext_get fun r => by
    simp only [Bundle.get_saturatingSub]
    omega

theorem standingNormal_append (hist : List Deed) (d : Deed) :
    standingNormal observation (hist ++ [d]) =
      (standingNormal observation hist || d.normalOffer) := by
  simp [standingNormal, Bool.or_assoc]

/-- A paid offer answers one of the candidates, and asks for no more than is wanted. -/
def Deed.AsksWithin (candidates : List Candidate) (wanted : Resource → Option Int)
    (d : Deed) : Prop :=
  ∃ candidate ∈ candidates, ∃ paid asked quantity, d = .propose candidate paid asked ∧
    wanted candidate.want = some quantity ∧ (asked : Int) ≤ quantity

/-- The loop over the candidates, part way: the deeds it has added, and what they leave room for. -/
structure Offering (observation : Snapshot) (ticksLeft : Option Nat) (reserve : Bundle)
    (memory : PolicyMemory) (start : Account) (hist : List Deed) (candidates : List Candidate)
    (wanted : Resource → Option Int) (rest : List Candidate) (st : Proposing)
    (more : List Deed) : Prop where
  among : rest ⊆ candidates
  surplus : st.surplus = st.draft.available.saturatingSub reserve
  stage : ∀ e ∈ more, e.stage = 4
  tracks : Tracks observation ticksLeft reserve memory start (hist ++ more) st.draft
  asks : ∀ e ∈ more, e.AsksWithin candidates wanted
  fresh : ((hist ++ more).filterMap Deed.wanted? ++ rest.map Candidate.want).Nodup
  room : st.room = observation.rules.maxOpenOutgoingOffers - observation.outgoingOpenOffers.length -
    ((hist ++ more).filterMap Deed.wanted?).length
  normal : st.preserveNormal = standingNormal observation (hist ++ more)

section Offering

variable {candidates rest : List Candidate} {candidate : Candidate} {wanted : Resource → Option Int}
  {st : Proposing} {more : List Deed}

/-- Before paid offers nothing is asked for and no offer of this decision stands. -/
theorem early_wanted (earlier : ∀ e ∈ hist, e.stage ≤ 3) : hist.filterMap Deed.wanted? = [] := by
  rw [List.filterMap_eq_nil_iff]
  intro e he
  have := earlier e he
  cases e <;> simp_all [Deed.stage, Deed.wanted?]

theorem early_standing (earlier : ∀ e ∈ hist, e.stage ≤ 3) :
    standingNormal observation hist = hasNormalOffers observation := by
  have : hist.any Deed.normalOffer = false := by
    rw [List.any_eq_false]
    intro e he
    have := earlier e he
    cases e <;> simp_all [Deed.stage, Deed.normalOffer]
  simp [standingNormal, this]

theorem Offering.begin (h : Tracks observation ticksLeft reserve memory start hist draft)
    (earlier : ∀ e ∈ hist, e.stage ≤ 3) (distinct : (candidates.map Candidate.want).Nodup) :
    Offering observation ticksLeft reserve memory start hist candidates wanted candidates
      ⟨draft, draft.available.saturatingSub reserve, observation.rules.maxOpenOutgoingOffers -
        observation.outgoingOpenOffers.length, hasNormalOffers observation⟩ [] where
  among := List.Subset.refl _
  surplus := rfl
  stage := by simp
  tracks := by simpa using h
  asks := by simp
  fresh := by simpa [early_wanted earlier] using distinct
  room := by simp [early_wanted earlier]
  normal := by simp [early_standing earlier]

theorem Offering.skip (h :
      Offering observation ticksLeft reserve memory start hist candidates wanted
    (candidate :: rest) st more) :
    Offering observation ticksLeft reserve memory start hist candidates wanted rest st more where
  among := fun _ hmem => h.among (List.mem_cons_of_mem _ hmem)
  surplus := h.surplus
  stage := h.stage
  tracks := h.tracks
  asks := h.asks
  fresh := h.fresh.sublist ((List.sublist_cons_self _ _).append_left _)
  room := h.room
  normal := h.normal

/-- An offer made is one more deed, allowed by what the loop has checked. -/
theorem Offering.offer
    (h : Offering observation ticksLeft reserve memory start hist candidates wanted
    (candidate :: rest) st more)
    (earlier : ∀ e ∈ hist, e.stage ≤ 3) {quantity : Int} {limit : Option ℚ} {paid asked : Nat}
    (reason : String) (wants : wanted candidate.want = some quantity) (positive : 0 < quantity)
    (free : (candidate.stationId, candidate.want) ∉ pendingPairs observation)
    (known : ∃ stats ∈ memory.counterparties.trading, stats.stationId = candidate.stationId)
    (budget : 0 < st.draft.budget) (left : 0 < st.room) (lasts : 0 < offerLifetime observation)
    (within : (asked : Int) ≤ max 1 quantity)
    (limited : limit = none ∨ limit = some (1 / 2) ∧ inEndGame ticksLeft = false)
    (priced : Priced observation ticksLeft st.draft.available st.surplus st.preserveNormal candidate
      limit paid asked) :
    Offering observation ticksLeft reserve memory start hist candidates wanted rest ⟨(st.draft.act
      (.offer candidate.stationId (.only candidate.give paid) (.only candidate.want asked)
          (observation.tick + offerLifetime observation)) reason).spend (.only candidate.give paid),
        st.surplus.saturatingSub (.only candidate.give paid), st.room - 1, st.preserveNormal ||
          aboveHalfPrice (.only candidate.give paid) (.only candidate.want asked)⟩
      (more ++ [.propose candidate paid asked]) := by
  have htaken : (hist ++ (more ++ [Deed.propose candidate paid asked])).filterMap Deed.wanted? =
      (hist ++ more).filterMap Deed.wanted? ++ [candidate.want] := by
    rw [← List.append_assoc, List.filterMap_append]
    rfl
  have hroom := h.room
  refine ⟨h.skip.among, ?_, ?_, ?_, ?_, ?_, ?_, ?_⟩
  · show st.surplus.saturatingSub _ = (st.draft.available.saturatingSub _).saturatingSub reserve
    rw [h.surplus, Bundle.saturatingSub_comm]
  · intro e he
    rcases List.mem_append.mp he with he | he
    · exact h.stage e he
    · cases List.mem_singleton.mp he
      rfl
  · rw [← List.append_assoc]
    rw [h.surplus, h.normal] at priced
    refine h.tracks.next budget ?_ ⟨lasts, ?_, ?_, known, free, limit, limited, priced⟩ rfl
      ⟨rfl, rfl⟩ ⟨_, rfl⟩ rfl rfl
    · exact Deed.follows_append (fun e he => (earlier e he).trans (by simp [Deed.stage])) h.stage
        (by simp [Deed.stage])
    · intro hmem
      exact (List.nodup_append.mp h.fresh).2.2 _ hmem _ List.mem_cons_self rfl
    · omega
  · intro e he
    rcases List.mem_append.mp he with he | he
    · exact h.asks e he
    · cases List.mem_singleton.mp he
      exact ⟨candidate, h.among List.mem_cons_self, paid, asked, quantity, rfl, wants, by omega⟩
  · rw [htaken, List.append_assoc]
    exact h.fresh
  · show st.room - 1 = _
    rw [htaken, List.length_append, hroom, Nat.sub_sub]
    rfl
  · rw [← List.append_assoc, standingNormal_append, ← h.normal]
    rfl

end Offering

theorem proposeOffers_tracks (h : Tracks observation ticksLeft reserve memory start hist draft)
    (earlier : ∀ e ∈ hist, e.stage ≤ 3) (urgency : Resource → Urgency) (deficit : Bundle) :
    ∃ draft', proposeOffers observation ticksLeft urgency deficit
      (draft.available.saturatingSub reserve) draft =
        .ok (draft', draft'.available.saturatingSub reserve) ∧
      ∃ more, (∀ e ∈ more, e.stage = 4) ∧
        Tracks observation ticksLeft reserve memory start (hist ++ more) draft' ∧
        ∀ e ∈ more, e.AsksWithin
          (rankCounterparties memory.counterparties urgency
            (wantedQuantities observation draft.available reserve deficit)
              (draft.available.saturatingSub reserve)
              observation.tick (pendingPairs observation) (some observation.me.specialty))
          (wantedQuantities observation draft.available reserve deficit) := by
  unfold proposeOffers
  simp only
  split
  next =>
    exact ⟨_, rfl, [],
      by simp, by rw [List.append_nil]; exact h.congr rfl ⟨rfl, rfl⟩ ⟨_, rfl⟩ rfl rfl, by simp⟩
  next hopen =>
    rw [h.reserve, h.model]
    generalize hw : wantedQuantities observation draft.available reserve deficit = wanted
    generalize hc : rankCounterparties memory.counterparties urgency wanted
        (draft.available.saturatingSub reserve) observation.tick
      (pendingPairs observation) (some observation.me.specialty) = candidates
    have hnodup : (candidates.map Candidate.want).Nodup := hc ▸ rankCounterparties_wants_nodup
    have loop : ∃ st, forIn candidates (⟨draft, draft.available.saturatingSub reserve,
        observation.rules.maxOpenOutgoingOffers - observation.outgoingOpenOffers.length,
        hasNormalOffers observation⟩ : Proposing)
        (proposeOne observation ticksLeft urgency wanted) = .ok st ∧
        st.surplus = st.draft.available.saturatingSub reserve ∧ ∃ more, (∀ e ∈ more, e.stage = 4) ∧
          Tracks observation ticksLeft reserve memory start (hist ++ more) st.draft ∧
          ∀ e ∈ more, e.AsksWithin candidates wanted := by
      refine Loop.returns (I := fun rest (st : Proposing) =>
        ∃ more, Offering observation ticksLeft reserve memory start hist candidates
          wanted rest st more)
        ⟨[], .begin h earlier hnodup⟩ ?_ fun st ⟨more, hdone⟩ =>
          ⟨hdone.surplus, more, hdone.stage, hdone.tracks, hdone.asks⟩
      rintro candidate rest st ⟨more, hoffering⟩
      obtain ⟨⟨quantity, hquantity, hpos⟩, _, _, hfree, hknown⟩ :=
        rankCounterparties_spec (hc ▸ hoffering.among List.mem_cons_self)
      obtain ⟨step, hstep, hproposed⟩ :=
        @proposeOne_proposed observation ticksLeft urgency wanted candidate st quantity hquantity
      refine ⟨step, hstep, ?_⟩
      cases hproposed with
      | ended _ =>
        exact ⟨hoffering.surplus, more, hoffering.stage, hoffering.tracks, hoffering.asks⟩
      | late standing _ =>
        exact ⟨hoffering.surplus, more, hoffering.stage, hoffering.tracks, hoffering.asks⟩
      | unaffordable _ _ => exact ⟨more, hoffering.skip⟩
      | offered limit paid asked reason hbudget hleft httl hasked hlimit hpriced =>
        exact ⟨_, hoffering.offer earlier reason hquantity hpos hfree hknown hbudget hleft httl
          hasked hlimit hpriced⟩
    obtain ⟨st, hst, hsurplus, hmore⟩ := loop
    refine ⟨st.draft, ?_, hmore⟩
    rw [hst, ← hsurplus]
    rfl

theorem reconsider_tracks {deferred : List Offer} {urgency : Resource → Urgency}
    (h : Tracks observation ticksLeft reserve memory start hist draft)
    (gauged : Gauged observation reserve hist draft.available urgency)
    (unused : (hist.filterMap Deed.accepted? ++ deferred).Subperm observation.incomingOpenOffers)
    (earlier : ∀ e ∈ hist, e.stage ≤ 4) :
    ∃ draft' urgency', reconsider observation ticksLeft deferred
      (draft.available.saturatingSub reserve) urgency
        draft = .ok (draft', draft'.available.saturatingSub reserve, urgency') ∧
      ∃ more, (∀ e ∈ more, e.stage = 5) ∧
        Tracks observation ticksLeft reserve memory start (hist ++ more) draft' ∧
        Gauged observation reserve (hist ++ more) draft'.available urgency' := by
  unfold reconsider
  split
  next => exact ⟨draft, urgency, rfl, [], by simp, by simpa using h, by simpa using gauged⟩
  next =>
    obtain ⟨intake, hintake, more, hstage, htracks, _⟩ :=
      @acceptIncoming_tracks observation ticksLeft reserve memory
      start hist draft true deferred none h unused (fun e he => (earlier e he).trans (by simp))
    rw [h.reserve]
    refine ⟨intake.draft, computeUrgency draft.available observation.me.upkeepPerTick reserve,
      ?_, more, hstage, htracks,
      (Gauged.now hist draft.available).later h htracks (fun e he => by rw [hstage e he]; decide)⟩
    simp only [bind, Except.bind]
    rw [hintake]
    rfl

end Tracking

end SpaceportBazaar
