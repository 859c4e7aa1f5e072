import SpaceportBazaar.DecideDeferred

namespace SpaceportBazaar

/-- The same snapshot once more offers are shown in it. -/
def Snapshot.withPosted (s : Snapshot) (posted : List Offer) : Snapshot :=
  { s with offers := s.offers ++ posted }

/-- An offer of ours as it stands once an action has posted it. -/
def PostedAs (s : Snapshot) (action : Action) (o : Offer) : Prop :=
  action = .offer o.recipientId o.give o.receive o.expiresTick ∧ o.proposerId = s.selfStationId ∧
    o.status = .opened

/-- The offers of a decision, posted in order under ids that nothing shown uses. -/
structure Posting (s : Snapshot) (decision : Decision) (posted : List Offer) : Prop where
  posts : List.Forall₂ (PostedAs s) (decision.actions.filter Action.isOffer) posted
  distinct : (posted.map Offer.offerId).Nodup
  unshown : ∀ o ∈ posted, o.offerId ∉ s.offers.map Offer.offerId
  unsettled : ∀ o ∈ posted, o.offerId ∉ s.transactions.map Transaction.offerId
  unlisted : ∀ o ∈ posted, o.offerId ∉ s.advertisements.map Advertisement.advertisementId

section Memory

/-- Measuring this trade again would change nothing. -/
def PolicyMemory.Settled (created : Dict String Nat) (selfStationId : String)
    (memory : PolicyMemory) (txn : Transaction) : Prop :=
  txn.proposerId ≠ selfStationId ∨ txn.transactionId ∈ memory.measuredTransactions ∨
    created.get? txn.offerId = none

variable {created created' : Dict String Nat} {selfStationId : String} {memory : PolicyMemory}
  {txns : List Transaction} {txn : Transaction}

theorem PolicyMemory.measureTrade_settled (h : memory.Settled created selfStationId txn) :
    memory.measureTrade created selfStationId txn = memory := by
  unfold measureTrade
  rcases h with h | h | h
  · rw [if_pos h]
  · split_ifs <;> rfl
  · rw [h]
    split_ifs <;> rfl

theorem PolicyMemory.measureTrade_settles (memory : PolicyMemory) (txn : Transaction) :
    (memory.measureTrade created selfStationId txn).Settled created selfStationId txn := by
  unfold measureTrade
  by_cases hself : txn.proposerId ≠ selfStationId
  · exact Or.inl hself
  by_cases hseen : txn.transactionId ∈ memory.measuredTransactions
  · rw [if_neg hself, if_pos hseen]
    exact Or.inr (Or.inl hseen)
  rw [if_neg hself, if_neg hseen]
  split
  next hnone => exact Or.inr (Or.inr hnone)
  next => exact Or.inr (Or.inl (Finset.mem_insert_self _ _))

theorem PolicyMemory.Settled.step {other : Transaction}
    (h : memory.Settled created selfStationId txn) :
    (memory.measureTrade created selfStationId other).Settled created selfStationId txn := by
  refine Or.imp_right (Or.imp_left fun hseen => ?_) h
  unfold measureTrade
  split_ifs
  · exact hseen
  · exact hseen
  · split
    · exact hseen
    · exact Finset.mem_insert_of_mem hseen

theorem PolicyMemory.Settled.fold (h : memory.Settled created selfStationId txn) :
    (txns.foldl (measureTrade created selfStationId) memory).Settled created selfStationId txn := by
  induction txns generalizing memory with
  | nil => exact h
  | cons other txns ih => exact ih h.step

theorem PolicyMemory.fold_settles (memory : PolicyMemory) (h : txn ∈ txns) :
    (txns.foldl (measureTrade created selfStationId) memory).Settled created selfStationId txn := by
  induction txns generalizing memory with
  | nil => simp at h
  | cons other txns ih =>
    rcases List.mem_cons.mp h with rfl | h
    · exact (measureTrade_settles memory txn).fold
    · exact ih _ h

theorem PolicyMemory.fold_settled (h : ∀ txn ∈ txns, memory.Settled created selfStationId txn) :
    txns.foldl (measureTrade created selfStationId) memory = memory := by
  induction txns with
  | nil => rfl
  | cons other txns ih =>
    rw [List.foldl_cons, measureTrade_settled (h other List.mem_cons_self)]
    exact ih fun txn ht => h txn (List.mem_cons_of_mem _ ht)

theorem PolicyMemory.measureProduction_trades (memory : PolicyMemory) (s : Snapshot) :
    (memory.measureProduction s).roundTrips = memory.roundTrips ∧
      (memory.measureProduction s).measuredTransactions = memory.measuredTransactions := by
  unfold measureProduction
  split <;> exact ⟨rfl, rfl⟩

theorem PolicyMemory.measureProduction_again
    {memory' : PolicyMemory} {s s' : Snapshot} (tick : s'.tick = s.tick)
    (seen : memory'.lastTickSeen = (memory.measureProduction s).lastTickSeen) :
    memory'.measureProduction s' = memory' := by
  unfold measureProduction at *
  split at seen
  next h => rw [tick, seen, if_pos h]
  next => rw [tick, seen, if_pos (Or.inl rfl)]

/-- Seeing the same tick again, with more offers of ours in it, measures nothing new. -/
theorem PolicyMemory.observe_again {s : Snapshot} {posted : List Offer} {stored : Bundle}
    {log : Dict (String × Resource) Nat} (memory : PolicyMemory)
    (unsettled : ∀ o ∈ posted, o.offerId ∉ s.transactions.map Transaction.offerId) :
    ({ memory.observe s with storedReserve := stored, altruismLog := log } : PolicyMemory).observe
      (s.withPosted posted) =
      { memory.observe s with
        storedReserve := stored
        altruismLog := log
        counterparties := (memory.observe s).counterparties.update (s.withPosted posted) } := by
  have htrades := measureProduction_trades
    (({ memory with counterparties := memory.counterparties.update s } :
      PolicyMemory).measureRoundTrips s) s
  have hseen : (memory.observe s).measuredTransactions = _ := htrades.2
  unfold observe at *
  rw [show PolicyMemory.measureRoundTrips _ (s.withPosted posted) = _ from fold_settled
  fun txn ht => ?_]
  · exact measureProduction_again rfl rfl
  · have hsettled := @fold_settles
        (Dict.ofList (s.offers.map (fun o => (o.offerId, o.createdTick)))) s.selfStationId
      s.transactions txn { memory with counterparties := memory.counterparties.update s } ht
    rcases hsettled with h | h | h
    · exact Or.inl h
    · exact Or.inr (Or.inl (hseen ▸ h))
    · refine Or.inr (Or.inr ?_)
      show (Dict.ofList ((s.offers ++ posted).map _)).get? txn.offerId = none
      rw [List.map_append, Dict.get?_ofList_append, h]
      simp only [List.map_map, List.mem_map, not_exists, not_and]
      intro o ho hid
      exact unsettled o ho (List.mem_map.mpr ⟨txn, ht, hid.symm⟩)

end Memory

section Guard

variable {observation : Snapshot} {ticksLeft : Option Nat} {reserve running surplus : Bundle}
  {standing : Bool} {model : CounterpartyModel} {start a : Account} {hist : List Deed}
  {candidate : Candidate} {limit : Option ℚ} {paid asked : Nat}

/-- A paid offer leaves the specialty stock that its own kind of offer needs. -/
theorem Priced.leaves (h :
      Priced observation ticksLeft running surplus standing candidate limit paid asked) :
    (limit = none ∨ standing = true →
      productionPaymentLimit (running.saturatingSub (.only candidate.give paid))
      observation.me ticksLeft = none) ∧
    productionPaymentLimit (running.saturatingSub (.only candidate.give paid)) observation.me
      ticksLeft ≠ some 0 := by
  have hfloor := h.floor
  unfold paymentFloor at hfloor
  by_cases hend : inEndGame ticksLeft = true
  · rw [if_pos hend] at hfloor
    have hnone : productionPaymentLimit
        (running.saturatingSub (.only candidate.give paid)) observation.me ticksLeft = none := by
      rw [productionPaymentLimit_eq_none_iff, Bundle.get_saturatingSub]
      omega
    exact ⟨fun _ => hnone, by simp [hnone]⟩
  · rw [if_neg hend] at hfloor
    rw [Bool.not_eq_true] at hend
    refine ⟨fun hnormal => ?_, productionPaymentLimit_ne_zero hend ?_⟩
    · rw [if_pos hnormal] at hfloor
      rw [productionPaymentLimit_eq_none_iff, specialtyFloor_before_end hend,
        Bundle.get_saturatingSub]
      omega
    · have hle : productionStopTicks * observation.me.upkeepPerTick.get observation.me.specialty ≤
          (if limit = none ∨ standing = true then productionNormalTicks else productionStopTicks) *
            observation.me.upkeepPerTick.get observation.me.specialty := by
        refine Nat.mul_le_mul_right _ ?_
        split <;> decide
      rw [Bundle.get_saturatingSub]
      omega

theorem Priced.limit_of_normal
    (h : Priced observation ticksLeft running surplus standing candidate limit paid asked)
    (kind : limit = none ∨ limit = some (1 / 2) ∧ inEndGame ticksLeft = false)
    (normal : aboveHalfPrice (.only candidate.give paid) (.only candidate.want asked) = true) :
    limit = none := by
  rcases kind with hlimit | ⟨hlimit, _⟩
  · exact hlimit
  · have hcapped := h.capped _ hlimit
    simp only [aboveHalfPrice, Bundle.total_only, decide_eq_true_eq] at normal
    exact absurd normal (not_lt.mpr hcapped)

/-- Without accepts or aid, offers posted by a decision never bring its own guard on them. -/
theorem run_guards_offers (run :
      Machine.GuardedRun (deedGuard observation ticksLeft reserve model) Deed.step start hist a)
    (quiet : ∀ d ∈ hist, d.stage ≤ 4 ∧ d.accepted? = none) :
    ((∃ d ∈ hist, d.normalOffer = true) →
      productionPaymentLimit a.balance observation.me ticksLeft = none) ∧
      ((∃ d ∈ hist, d.stage = 4) →
        productionPaymentLimit a.balance observation.me ticksLeft ≠ some 0) := by
  refine run.invariant (I := fun hist a => (∀ d ∈ hist, d.stage ≤ 4 ∧ d.accepted? = none) →
    ((∃ d ∈ hist, d.normalOffer = true) →
    productionPaymentLimit a.balance observation.me ticksLeft = none) ∧
      ((∃ d ∈ hist, d.stage = 4) → productionPaymentLimit a.balance observation.me ticksLeft ≠
      some 0)) (by simp) ?_ quiet
  intro hist a d b _ hguard hstep hquiet
  obtain ⟨_, rfl⟩ := hstep
  have hlast := hquiet d (by simp)
  have hstages : ∀ e ∈ hist ++ [d], e.stage ≤ d.stage := by
    intro e he
    rcases List.mem_append.mp he with he | he
    · exact hguard.1.1 e he
    · cases List.mem_singleton.mp he
      exact le_rfl
  have hproposal : ∀ e ∈ hist ++ [d], e.stage = 4 → ∃ candidate paid asked,
      d = .propose candidate paid asked := by
    intro e he hfour
    have := hstages e he
    cases d with
    | propose candidate paid asked => exact ⟨candidate, paid, asked, rfl⟩
    | accept late offer cost => simp [Deed.accepted?] at hlast
    | _ =>
      rw [hfour] at this
      simp [Deed.stage] at this hlast
  have hnormal : ∀ e : Deed, e.normalOffer = true → e.stage = 4 := by
    intro e he
    cases e with
    | propose candidate paid asked => rfl
    | _ => simp [Deed.normalOffer] at he
  constructor
  · rintro ⟨e, he, hkind⟩
    obtain ⟨candidate, paid, asked, rfl⟩ := hproposal e he (hnormal e hkind)
    obtain ⟨_, _, _, _, _, limit, hlimit, hpriced⟩ := hguard.2
    refine hpriced.leaves.1 ?_
    rcases List.mem_append.mp he with he | he
    · exact Or.inr (by
        simp only [standingNormal, Bool.or_eq_true, List.any_eq_true]; exact Or.inr ⟨e, he, hkind⟩)
    · cases List.mem_singleton.mp he
      exact Or.inl (hpriced.limit_of_normal hlimit hkind)
  · rintro ⟨e, he, hfour⟩
    obtain ⟨candidate, paid, asked, rfl⟩ := hproposal e he hfour
    obtain ⟨_, _, _, _, _, limit, hlimit, hpriced⟩ := hguard.2
    exact hpriced.leaves.2

end Guard

/-- What a balance leaves once some incoming offers are paid for. -/
def Leaves (view : Snapshot) (balance : Bundle) (offers : List Offer) (rest : Bundle) : Prop :=
  ∃ costs, List.Forall₂
    (fun o cost => o.whatStationPays view.selfStationId = .ok cost) offers costs ∧
    rest + costs.sum = balance

section Taking

variable {view : Snapshot} {ticksLeft : Option Nat} {reserve : Bundle} {model : CounterpartyModel}
  {start a : Account} {hist : List Deed} {r : Resource}

end Taking

section Posting

variable {s : Snapshot} {ticksLeft : Option Nat} {reserve : Bundle} {model : CounterpartyModel}
  {start a : Account} {hist : List Deed} {decision : Decision} {posted : List Offer}
  {commitments : CommitmentTracker}

theorem forall₂_mem_right {α β : Type} {R : α → β → Prop} {as : List α} {bs : List β} {b : β}
    (h : List.Forall₂ R as bs) (hb : b ∈ bs) : ∃ a ∈ as, R a b := by
  induction h with
  | nil => simp at hb
  | @cons a b' as bs hr _ ih =>
    rcases List.mem_cons.mp hb with rfl | hb
    · exact ⟨a, List.mem_cons_self, hr⟩
    · obtain ⟨a', ha', hr'⟩ := ih hb
      exact ⟨a', List.mem_cons_of_mem _ ha', hr'⟩

theorem Posting.deeds (h : Posting s decision posted)
    (records : Records s ticksLeft reserve model start hist decision) :
    List.Forall₂ (fun d o => d.offers = true ∧ PostedAs s (Deed.action s d) o)
      (hist.filter Deed.offers) posted := by
  have hposts := h.posts
  obtain ⟨a, run⟩ := records.run
  have hsame : hist.filter (Action.isOffer ∘ Deed.action s) = hist.filter Deed.offers := by
    refine List.filter_congr fun d hd => ?_
    obtain ⟨past, b, _, ⟨_, hallowed⟩, _⟩ := run.allowed hd
    exact hallowed.isOffer
  rw [records.actions, List.filter_map, List.forall₂_map_left_iff, hsame] at hposts
  exact (List.forall₂_and_left _ _).mpr ⟨fun d hd => (List.mem_filter.mp hd).2, hposts⟩

theorem Posting.deed (h : Posting s decision posted)
    (records : Records s ticksLeft reserve model start hist decision)
    {o : Offer} (ho : o ∈ posted) : ∃ d ∈ hist, d.offers = true ∧ PostedAs s (d.action s) o := by
  obtain ⟨d, hd, hposted⟩ := forall₂_mem_right (h.deeds records) ho
  exact ⟨d, (List.mem_filter.mp hd).1, hposted⟩

theorem PostedAs.give_eq {d : Deed} {o : Offer} (h : PostedAs s (d.action s) o)
    (offers : d.offers = true) :
    o.give = d.payment := by
  obtain ⟨haction, _, _⟩ := h
  cases d with
  | giveExcess recipient resource quantity => exact (Action.offer.inj haction).2.1.symm
  | propose candidate paid asked => exact (Action.offer.inj haction).2.1.symm
  | aid gift => exact (Action.offer.inj haction).2.1.symm
  | _ => simp [Deed.offers] at offers

theorem PostedAs.stands {d : Deed} {o : Offer} (h : PostedAs s (d.action s) o)
    (offers : d.offers = true) (allowed : Allowed s ticksLeft reserve model hist a d) :
    o.isOpenAt s.tick = true := by
  obtain ⟨haction, _, hstatus⟩ := h
  refine Offer.isOpenAt_iff.mpr ⟨hstatus, ?_⟩
  cases d with
  | giveExcess recipient resource quantity =>
    have := (Action.offer.inj haction).2.2.2
    have := allowed.2.2.1
    omega
  | propose candidate paid asked =>
    have := (Action.offer.inj haction).2.2.2
    have := allowed.1
    omega
  | aid gift =>
    have := (Action.offer.inj haction).2.2.2
    have := allowed.1
    omega
  | _ => simp [Deed.offers] at offers

theorem Posting.outgoing (h : Posting s decision posted)
    (records : Records s ticksLeft reserve model start hist decision) :
    (s.withPosted posted).outgoingOpenOffers = s.outgoingOpenOffers ++ posted := by
  obtain ⟨a, run⟩ := records.run
  show (s.offers ++ posted).filter _ = _
  rw [List.filter_append]
  refine congrArg (s.outgoingOpenOffers ++ ·) (List.filter_eq_self.mpr fun o ho => ?_)
  obtain ⟨d, hd, hoffers, hposted⟩ := h.deed records ho
  obtain ⟨past, b, _, ⟨_, hallowed⟩, _⟩ := run.allowed hd
  have hopen := hposted.stands hoffers hallowed
  have hself := hposted.2.1
  simpa [Snapshot.withPosted, hself] using hopen

theorem sum_payments_offers (quiet : ∀ d ∈ hist, d.accepted? = none) :
    ((hist.filter Deed.offers).map Deed.payment).sum = (hist.map Deed.payment).sum := by
  induction hist with
  | nil => rfl
  | cons d hist ih =>
    have htail := ih fun e he => quiet e (List.mem_cons_of_mem _ he)
    have hhead := quiet d List.mem_cons_self
    cases d with
    | accept late offer cost => simp [Deed.accepted?] at hhead
    | withdraw offer => simpa [Deed.offers, Deed.payment, show Bundle.zero = 0 from rfl] using htail
    | notice action => simpa [Deed.offers, Deed.payment, show Bundle.zero = 0 from rfl] using htail
    | _ =>
      rw [List.filter_cons_of_pos rfl, List.map_cons, List.map_cons, List.sum_cons,
        List.sum_cons, htail]

/-- Once its offers stand, exactly what a decision left over is free. -/
theorem Posting.available {left : Nat} (h : Posting s decision posted) (records :
      Records s ticksLeft reserve model ⟨commitments.availableToCommit s, left⟩ hist decision)
    (run : Machine.GuardedRun (deedGuard s ticksLeft reserve model) Deed.step
      ⟨commitments.availableToCommit s, left⟩ hist a) (quiet : ∀ d ∈ hist, d.accepted? = none) :
    commitments.availableToCommit (s.withPosted posted) = a.balance := by
  have hgive : (posted.map Offer.give).sum = (hist.map Deed.payment).sum := by
    rw [← sum_payments_offers quiet]
    refine congrArg List.sum ?_
    rw [eq_comm, ← List.forall₂_eq_eq_eq, List.forall₂_map_left_iff, List.forall₂_map_right_iff]
    exact (h.deeds records).imp fun d o hposted => (hposted.2.give_eq hposted.1).symm
  have hsum := (deeds_conserve run).1
  refine Bundle.ext_get fun r => ?_
  have hr := congrArg (fun b => b.get r) hsum
  have hout : (CommitmentTracker.outstandingConfirmedGive (s.withPosted posted)).get r =
      (CommitmentTracker.outstandingConfirmedGive s).get r + (hist.map Deed.payment).sum.get r := by
    unfold CommitmentTracker.outstandingConfirmedGive
    rw [h.outgoing records, List.map_append, List.sum_append, Bundle.get_add, hgive]
  simp only [Bundle.get_add, commitments.availableToCommit_get s] at hr
  rw [commitments.availableToCommit_get, hout]
  show s.me.inventory.get r - _ = _
  omega

theorem Posting.deed_posted (h : Posting s decision posted)
    (records : Records s ticksLeft reserve model start hist decision) {d : Deed} (hd : d ∈ hist)
    (offers : d.offers = true) : ∃ o ∈ posted, PostedAs s (d.action s) o := by
  obtain ⟨o, ho, _, hposted⟩ :=
    forall₂_mem_right (h.deeds records).flip (List.mem_filter.mpr ⟨hd, offers⟩)
  exact ⟨o, ho, hposted⟩

/-- What the balance left by a decision means for the offers it posts. -/
theorem Posting.balanced (h : Posting s decision posted)
    (records : Records s ticksLeft reserve model start hist decision)
    (run : Machine.GuardedRun (deedGuard s ticksLeft reserve model) Deed.step start hist a)
    (quiet : ∀ d ∈ hist, d.accepted? = none)
    (gifts : ∀ o ∈ posted, o.receive = 0 → productionPaymentLimit a.balance s.me ticksLeft = none)
    {o : Offer} (ho : o ∈ posted) :
    ((o.receive = 0 ∨ aboveHalfPrice o.give o.receive = true) →
      productionPaymentLimit a.balance s.me ticksLeft = none) ∧
      productionPaymentLimit a.balance s.me ticksLeft ≠ some 0 := by
  by_cases hgift : ∃ o ∈ posted, o.receive = 0
  · obtain ⟨o', ho', hzero⟩ := hgift
    have hnone := gifts o' ho' hzero
    exact ⟨fun _ => hnone, by simp [hnone]⟩
  have hstage : ∀ d ∈ hist, d.stage ≤ 4 ∧ d.accepted? = none := by
    intro d hd
    refine ⟨?_, quiet d hd⟩
    cases d with
    | accept late offer cost => exact absurd (quiet _ hd) (by simp [Deed.accepted?])
    | aid gift =>
      obtain ⟨o', ho', haction, _⟩ := h.deed_posted records hd rfl
      exact absurd ⟨o', ho', (Action.offer.inj haction).2.2.1.symm⟩ hgift
    | _ => simp [Deed.stage]
  obtain ⟨hnormal, hpaid⟩ := run_guards_offers run hstage
  obtain ⟨d, hd, hoffers, haction, _⟩ := h.deed records ho
  cases d with
  | propose candidate paid asked =>
    obtain ⟨_, hgive, hreceive, _⟩ := Action.offer.inj haction
    refine ⟨fun hkind => hnormal ⟨_, hd, ?_⟩, hpaid ⟨_, hd, rfl⟩⟩
    rcases hkind with hzero | habove
    · exact absurd ⟨o, ho, hzero⟩ hgift
    · rw [← hgive, ← hreceive] at habove
      exact habove
  | giveExcess recipient resource quantity =>
    exact absurd ⟨o, ho, (Action.offer.inj haction).2.2.1.symm⟩ hgift
  | aid gift => exact absurd ⟨o, ho, (Action.offer.inj haction).2.2.1.symm⟩ hgift
  | _ => simp [Deed.offers] at hoffers

end Posting

section Again

variable {s : Snapshot} {posted : List Offer} {memory : PolicyMemory}

end Again

end SpaceportBazaar
