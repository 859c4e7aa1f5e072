import SpaceportBazaar.DecideCourse

namespace SpaceportBazaar

/-- The resource is not both given and asked for. -/
def Offer.OneSided (o : Offer) (r : Resource) : Prop := o.give.get r = 0 ∨ o.receive.get r = 0

instance (o : Offer) (r : Resource) : Decidable (o.OneSided r) :=
  inferInstanceAs (Decidable (o.give.get r = 0 ∨ o.receive.get r = 0))

/-- What an action of a decision promises to hand over. -/
inductive Promises (observation : Snapshot) : Action → Bundle → Prop
  | accept {o : Offer} {cost : Bundle} : o ∈ observation.incomingOpenOffers →
    o.whatStationPays observation.selfStationId = .ok cost →
    Promises observation (.accept o.offerId) cost
  | offer (recipientId : String) (give receive : Bundle) (expiresTick : Nat) :
    Promises observation (.offer recipientId give receive expiresTick) give
  | advertise (selling seeking : Finset Resource) (expiresTick : Nat) :
    Promises observation (.advertise selling seeking expiresTick) 0
  | withdraw (objectId : String) : Promises observation (.withdraw objectId) 0

theorem Bundle.get_sum_le_of_subperm {bs cs : List Bundle} (h : bs.Subperm cs) (r : Resource) :
    bs.sum.get r ≤ cs.sum.get r := by
  rw [Bundle.get_sum, Bundle.get_sum]
  exact h.sum_map_le _

section Balance

variable {observation : Snapshot} {ticksLeft : Option Nat}
  {reserve : Bundle} {model : CounterpartyModel} {start a : Account} {hist : List Deed} {d : Deed}
  {decision : Decision} {r : Resource}

theorem Offer.pays_one_sided {o : Offer} {stationId : String}
    {cost gain : Bundle} (h : o.OneSided r) (hc : o.whatStationPays stationId = .ok cost)
    (hg : o.whatStationReceives stationId = .ok gain) :
    cost.get r = 0 ∨ gain.get r = 0 := by
  unfold Offer.whatStationPays at hc
  unfold Offer.whatStationReceives at hg
  split at hc
  next hp =>
    rw [if_pos hp] at hg
    cases Except.ok.inj hc
    cases Except.ok.inj hg
    exact h
  next hp =>
    rw [if_neg hp] at hg
    split at hc
    next hr =>
      rw [if_pos hr] at hg
      cases Except.ok.inj hc
      cases Except.ok.inj hg
      exact h.symm
    next => simp at hc

/-- A deed promises only what its account holds above the reserve. -/
theorem Allowed.covers (h : Allowed observation ticksLeft reserve model hist a d)
    (oneSided : ∀ o ∈ d.accepted?, o.OneSided r) (small : reserve.get r ≤ maxReserveUnits) :
    d.payment.get r = 0 ∨ reserve.get r + d.payment.get r ≤ a.balance.get r := by
  cases d with
  | withdraw offer => exact Or.inl (Bundle.get_zero r)
  | notice action => exact Or.inl (Bundle.get_zero r)
  | accept late offer cost =>
    obtain ⟨_, hcost, _, gain, hgain, haccept⟩ := h
    show cost.get r = 0 ∨ reserve.get r + cost.get r ≤ a.balance.get r
    rcases judge_accept haccept with hzero | ⟨hcover, _, hkeep⟩
    · exact Or.inl (by simp [hzero])
    · rcases Offer.pays_one_sided (oneSided offer rfl) hcost hgain with hr | hr
      · exact Or.inl hr
      · have := hcover r
        have := hkeep r
        omega
  | giveExcess recipient resource quantity =>
    obtain ⟨_, hstock, _⟩ := h
    simp only [Deed.payment, Bundle.get_only]
    split
    next hr =>
      subst hr
      simp only [stockCap, maxReserveUnits] at *
      omega
    next => exact Or.inl rfl
  | propose candidate paid asked =>
    obtain ⟨_, _, _, _, _, _, _, hpriced⟩ := h
    have hcovered := hpriced.covered
    have hpaid := hpriced.positive.1
    simp only [Deed.payment, Bundle.get_only]
    split
    next hr =>
      subst hr
      simp only [Bundle.get_saturatingSub] at hcovered
      omega
    next => exact Or.inl rfl
  | aid gift =>
    obtain ⟨_, hpos, hle, _⟩ := h
    simp only [Deed.payment, Bundle.get_only]
    split
    next hr =>
      subst hr
      omega
    next => exact Or.inl rfl

/-- The balance of whatever a decision promised stays at the reserve. -/
theorem run_keeps_reserve (run :
      Machine.GuardedRun (deedGuard observation ticksLeft reserve model) Deed.step start hist a)
    (oneSided : ∀ d ∈ hist, ∀ o ∈ d.accepted?, o.OneSided r)
    (small : reserve.get r ≤ maxReserveUnits) :
    (hist.map Deed.payment).sum.get r = 0 ∨ reserve.get r ≤ a.balance.get r := by
  refine run.invariant (I := fun hist a => (∀ d ∈ hist, ∀ o ∈ d.accepted?, o.OneSided r) →
    (hist.map Deed.payment).sum.get r = 0 ∨ reserve.get r ≤ a.balance.get r)
    (fun _ => Or.inl (by simp)) ?_ oneSided
  intro hist a d b hkept hguard hstep honce
  obtain ⟨_, rfl⟩ := hstep
  have hkept := hkept fun e he => honce e (List.mem_append_left _ he)
  have hcovers := hguard.2.covers (honce d (by simp)) small
  simp only [List.map_append, List.sum_append, List.map_cons, List.map_nil, List.sum_cons,
    List.sum_nil, add_zero, Bundle.get_add, Bundle.get_saturatingSub]
  omega

theorem Records.promises (h : Records observation ticksLeft reserve model start hist decision) :
    List.Forall₂ (Promises observation) decision.actions (hist.map Deed.payment) := by
  obtain ⟨⟨a, run⟩, hactions, _, _⟩ := h
  rw [hactions, List.forall₂_map_left_iff, List.forall₂_map_right_iff, List.forall₂_same]
  intro d hd
  obtain ⟨past, b, _, ⟨_, hallowed⟩, _⟩ := run.allowed hd
  cases d with
  | accept late offer cost => exact .accept (hallowed.1.subset (by simp)) hallowed.2.1
  | withdraw offer => exact .withdraw _
  | giveExcess recipient resource quantity => exact .offer _ _ _ _
  | notice action =>
    obtain ⟨selling, seeking, ttl, rfl, _⟩ | ⟨ad, _, rfl⟩ := hallowed
    · exact .advertise _ _ _
    · exact .withdraw _
  | propose candidate paid asked => exact .offer _ _ _ _
  | aid gift => exact .offer _ _ _ _

end Balance

/-- Offers with distinct ids leave no doubt what each action promises. -/
theorem Promises.unique
    {observation : Snapshot} {actions : List Action} {payments payments' : List Bundle}
    (distinct : (observation.incomingOpenOffers.map Offer.offerId).Nodup)
    (h : List.Forall₂ (Promises observation) actions payments)
    (h' : List.Forall₂ (Promises observation) actions payments') : payments = payments' := by
  induction h generalizing payments' with
  | nil =>
    cases h'
    rfl
  | cons first _ ih =>
    cases h' with
    | cons first' rest' =>
      rw [ih rest']
      cases first with
      | @accept o cost ho hcost =>
        generalize hid : o.offerId = id at first'
        cases first' with
        | @accept o' cost' ho' hcost' =>
          cases List.inj_on_of_nodup_map distinct ho ho' hid
          rw [hcost] at hcost'
          cases Except.ok.inj hcost'
          rfl
      | offer _ _ _ _ => cases first'; rfl
      | advertise _ _ _ => cases first'; rfl
      | withdraw _ => cases first'; rfl

/-- A decision never promises more than the uncommitted stock above its reserve; whatever
part of its promises settles, open and in-flight offers and the reserve stay covered. -/
theorem decide_promises (observation : Snapshot)
    (memory : PolicyMemory) (commitments : CommitmentTracker) (commandBudget : Option Int)
    (oneSided : ∀ o ∈ observation.incomingOpenOffers, ∀ r, o.OneSided r) :
    ∃ decision memory' payments,
      Policy.decide observation memory commitments commandBudget = .ok (decision, memory') ∧
      decision.available = commitments.availableToCommit observation ∧
      List.Forall₂ (Promises observation) decision.actions payments ∧
      ((observation.incomingOpenOffers.map Offer.offerId).Nodup →
        ∀ other, List.Forall₂ (Promises observation) decision.actions other → other = payments) ∧
      (∀ r, payments.sum.get r ≤ decision.available.get r - decision.reserve.get r) ∧
      ∀ settled : List Bundle, settled.Subperm payments → ∀ r, settled.sum.get r = 0 ∨
        settled.sum.get r + decision.reserve.get r +
          (CommitmentTracker.outstandingConfirmedGive observation).get r +
          commitments.inflightTotal.get r ≤ observation.me.inventory.get r := by
  obtain ⟨decision, memory', hist, stored, hdecide, _, havailable, hreserve, hrecords, _⟩ :=
    decide_records observation memory commitments commandBudget
  obtain ⟨reserve, stored', hreserve', hsmall⟩ :=
    computeReserve_spec observation.rules observation.me
    (memory.observe observation) (commitments.availableToCommit observation)
  rw [hreserve] at hreserve'
  have hsame : decision.reserve = reserve := congrArg Prod.fst (Except.ok.inj hreserve')
  obtain ⟨a, run⟩ := hrecords.run
  have hsum := (deeds_conserve run).1
  have hpromises := hrecords.promises
  have honly : ∀ d ∈ hist, ∀ o ∈ d.accepted?, o ∈ observation.incomingOpenOffers := fun d hd o ho =>
    (run_accepts run).subset (List.mem_filterMap.mpr ⟨d, hd, ho⟩)
  have htotal : ∀ r, (hist.map Deed.payment).sum.get r = 0 ∨
      (hist.map Deed.payment).sum.get r + decision.reserve.get r ≤
        (commitments.availableToCommit observation).get r := by
    intro r
    have hkept := run_keeps_reserve run (fun d hd o ho => oneSided o (honly d hd o ho) r)
      (hsame ▸ (hsmall r).2.2)
    have hr := congrArg (fun b => b.get r) hsum
    simp only [Bundle.get_add] at hr
    omega
  refine ⟨decision, memory', hist.map Deed.payment, hdecide, havailable, hpromises, ?_, ?_, ?_⟩
  · intro distinct other hother
    exact Promises.unique distinct hother hpromises
  · intro r
    have := htotal r
    rw [havailable]
    omega
  · intro settled hsub r
    have hle := Bundle.get_sum_le_of_subperm hsub r
    have := htotal r
    rw [commitments.availableToCommit_get observation] at this
    omega

def marketStation (inventory : Bundle) : StationObservation where
  stationId := "P01"
  inventory := inventory
  health := 100
  failedOnce := false
  firstFailureTick := none
  lastProduction := ⟨3, 0, 0⟩
  lastUnmetUpkeep := .zero
  fullySuppliedTicks := 0
  shortageTicks := 0
  currentShortageStreak := 0
  longestShortageStreak := 0
  producedTotal := .zero
  consumedTotal := .zero
  unmetTotal := .zero
  importedTotal := .zero
  exportedTotal := .zero
  upkeepPerTick := ⟨1, 1, 1⟩
  specialty := .water

def marketRules (slots : Nat) : Rules where
  rulesVersion := "bazaar-sim-1"
  durationTicks := 120
  tickDurationMs := 5000
  resourceOrder := [.water, .food, .components]
  maxHealth := 100
  shortageDamagePerUnit := 5
  recoveryPerFullySuppliedTick := 5
  maxPublicationTtlTicks := 10
  maxOfferTtlTicks := 10
  newCommandsPerStationPerTick := 4
  maxRequestRecordsPerStation := 1000
  maxOpenOutgoingOffers := slots
  maxCommandBytes := 16384

/-- A water planet in its first tick, beside one other planet. -/
def marketView (slots : Nat) (inventory : Bundle) (offers : List Offer)
    (ads : List Advertisement) : Snapshot where
  runId := "sim"
  snapshotSequence := 1
  worldVersion := 1
  tick := 1
  phase := .running
  selfStationId := "P01"
  rules := marketRules slots
  directory := [⟨"P01", "P01"⟩, ⟨"P02", "P02"⟩]
  me := marketStation inventory
  offers := offers
  advertisements := ads
  transactions := []
  requestResults := []
  outcome := none

def marketAd (selling seeking : Finset Resource) : Advertisement where
  advertisementId := "ad-1"
  stationId := "P02"
  selling := selling
  seeking := seeking
  createdTick := 0
  expiresTick := 8
  createdVersion := 1
  status := .active

def marketOffer (give receive : Bundle) : Offer where
  offerId := "offer-1"
  proposerId := "P02"
  recipientId := "P01"
  give := give
  receive := receive
  createdTick := 0
  createdVersion := 1
  expiresTick := 8
  status := .opened
  closedTick := none
  transactionId := none

theorem decide_promises_market :
    ∃ decision memory' payments,
      Policy.decide (marketView 6 ⟨60, 12, 12⟩ [marketOffer ⟨0, 4, 0⟩ ⟨4, 0, 0⟩] [])
        .new .new none = .ok (decision, memory') ∧
      List.Forall₂ (Promises (marketView 6 ⟨60, 12, 12⟩ [marketOffer ⟨0, 4, 0⟩ ⟨4, 0, 0⟩] []))
        decision.actions payments ∧
      ∀ r, payments.sum.get r ≤ decision.available.get r - decision.reserve.get r := by
  obtain ⟨decision, memory', payments, hdecide, _, hpromises, _, hsum, _⟩ :=
    decide_promises (marketView 6 ⟨60, 12, 12⟩ [marketOffer ⟨0, 4, 0⟩ ⟨4, 0, 0⟩] []) .new .new
      none (by decide)
  exact ⟨decision, memory', payments, hdecide, hpromises, hsum⟩

end SpaceportBazaar
