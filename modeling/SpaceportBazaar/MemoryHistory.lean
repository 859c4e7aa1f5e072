import SpaceportBazaar.CounterpartyAgain
import SpaceportBazaar.DecideAgain
import Mathlib.Data.Finset.Card

namespace SpaceportBazaar

/-- The newest of a list of samples, as many as a deque of that size keeps. -/
def lastSamples (size : Nat) (samples : List Nat) : List Nat := samples.drop (samples.length - size)

theorem pushSample_lastSamples (size sample : Nat) (samples : List Nat) :
    pushSample size sample (lastSamples size samples) = lastSamples size (samples ++ [sample]) := by
  unfold pushSample lastSamples
  rw [List.length_drop, List.length_append, List.length_singleton]
  by_cases hfull : samples.length < size
  · have hall : samples.length - size = 0 := by omega
    have hnone :
      samples.length - (samples.length - size) + 1 - size = samples.length + 1 - size := by omega
    rw [hnone, hall, List.drop_zero]
  · have hone : samples.length - (samples.length - size) + 1 - size = 1 := by omega
    have hmore : samples.length + 1 - size = 1 + (samples.length - size) := by omega
    have hdrop : samples.drop (samples.length - size) ++ [sample] =
        (samples ++ [sample]).drop (samples.length - size) := by
      rw [List.drop_append_of_le_length (Nat.sub_le _ _)]
    rw [hone, hmore, hdrop, List.drop_drop, Nat.add_comm]

namespace PolicyMemory

/-- Observing a snapshot once more leaves the memory as it is. -/
theorem observe_twice (memory : PolicyMemory) (s : Snapshot) :
    (memory.observe s).observe s = memory.observe s := by
  have hnothing :
    ∀ o ∈ ([] : List Offer), o.offerId ∉ s.transactions.map Transaction.offerId := by simp
  have hsame : s.withPosted [] = s := by
    unfold Snapshot.withPosted
    rw [List.append_nil]
  have hagain := @observe_again s [] (memory.observe s).storedReserve
    (memory.observe s).altruismLog memory hnothing
  have hmodel : (memory.observe s).counterparties.update s = (memory.observe s).counterparties := by
    rw [observe_counterparties, CounterpartyModel.update_again]
  rw [hsame, hmodel] at hagain
  exact hagain

section Production

/-- What a snapshot says arrived of the planet's own specialty. -/
def produced (s : Snapshot) : Nat := s.me.lastProduction.get s.me.specialty

/-- The first snapshot of each tick after the start of the run. -/
def firstShowings (snapshots : List Snapshot) : List Snapshot :=
  snapshots.foldl (fun shown s => if s.tick = 0 ∨ s.tick ∈ shown.map Snapshot.tick then shown
    else shown ++ [s]) []

theorem firstShowings_append (past : List Snapshot) (s : Snapshot) : firstShowings (past ++ [s]) =
    if s.tick = 0 ∨ s.tick ∈ (firstShowings past).map Snapshot.tick then firstShowings past
    else firstShowings past ++ [s] := by
  unfold firstShowings
  rw [List.foldl_append]
  rfl

theorem firstShowings_sublist (snapshots : List Snapshot) :
    List.Sublist (firstShowings snapshots) snapshots := by
  induction snapshots using List.reverseRecOn with
  | nil => exact List.Sublist.refl []
  | append_singleton past s ih =>
    rw [firstShowings_append]
    split_ifs
    · exact ih.trans (List.sublist_append_left past [s])
    · exact ih.append (List.Sublist.refl [s])

theorem firstShowings_nodup (snapshots : List Snapshot) :
    ((firstShowings snapshots).map Snapshot.tick).Nodup := by
  induction snapshots using List.reverseRecOn with
  | nil => exact List.nodup_nil
  | append_singleton past s ih =>
    rw [firstShowings_append]
    split_ifs with hskip
    · exact ih
    · rw [List.map_append]
      refine List.nodup_append.mpr ⟨ih, List.nodup_singleton _, ?_⟩
      intro tick htick other hother hsame
      have hs : other = s.tick := by simpa using hother
      exact hskip (Or.inr (hs ▸ hsame ▸ htick))

/-- The samples kept are of first showings, and the newest of these is marked. -/
def Sampled (past : List Snapshot) (memory : PolicyMemory) : Prop :=
  memory.productions = lastSamples productionSamples ((firstShowings past).map produced) ∧
    memory.lastTickSeen = ((firstShowings past).getLast?.map fun s => (s.tick : Int)).getD (-1)

/-- With no tick earlier than those before it, a tick was sampled just when it is the one marked. -/
theorem Sampled.marked {past : List Snapshot} {memory : PolicyMemory}
    {s : Snapshot} (h : Sampled past memory) (ordered : past.Pairwise (fun a b => a.tick ≤ b.tick))
    (latest : ∀ p ∈ past, p.tick ≤ s.tick) :
    (s.tick : Int) = memory.lastTickSeen ↔ s.tick ∈ (firstShowings past).map Snapshot.tick := by
  rw [h.2]
  rcases List.eq_nil_or_concat (firstShowings past) with hnone | ⟨init, newest, hsome⟩
  · rw [hnone]
    simp
  · rw [List.concat_eq_append] at hsome
    have hnewest : newest ∈ past :=
      (firstShowings_sublist past).subset (by rw [hsome]; simp)
    have hle := latest newest hnewest
    have hinit : ∀ p ∈ init, p.tick ≤ newest.tick := by
      have hpairs := ordered.sublist (firstShowings_sublist past)
      rw [hsome, List.pairwise_append] at hpairs
      exact fun p hp => hpairs.2.2 p hp newest (by simp)
    rw [hsome, List.getLast?_concat, Option.map_some, Option.getD_some, List.map_append,
      List.mem_append]
    constructor
    · intro hmarked
      exact Or.inr (by simpa using Int.ofNat.inj hmarked)
    · rintro (hmem | hmem)
      · obtain ⟨p, hp, htick⟩ := List.mem_map.mp hmem
        have hearlier := hinit p hp
        omega
      · simp only [List.map_cons, List.map_nil, List.mem_singleton] at hmem
        rw [hmem]

theorem Sampled.observe {past : List Snapshot} {memory : PolicyMemory}
    {s : Snapshot} (h : Sampled past memory) (ordered : past.Pairwise (fun a b => a.tick ≤ b.tick))
    (latest : ∀ p ∈ past, p.tick ≤ s.tick) :
    Sampled (past ++ [s]) (memory.observe s) := by
  obtain ⟨measured, roundTrips, htrades⟩ :=
    { memory with counterparties := memory.counterparties.update s }.measureRoundTrips_eq s
  have hiff : ((s.tick : Int) = memory.lastTickSeen ∨ s.tick = 0) ↔
      (s.tick = 0 ∨ s.tick ∈ (firstShowings past).map Snapshot.tick) := by
    rw [h.marked ordered latest, or_comm]
  unfold PolicyMemory.observe measureProduction Sampled
  rw [htrades, firstShowings_append]
  by_cases hskip : s.tick = 0 ∨ s.tick ∈ (firstShowings past).map Snapshot.tick
  · rw [if_pos (hiff.mpr hskip), if_pos hskip]
    exact h
  · rw [if_neg (mt hiff.mp hskip), if_neg hskip]
    refine ⟨?_, by simp⟩
    show pushSample productionSamples (produced s) memory.productions = _
    rw [h.1, pushSample_lastSamples, List.map_append]
    rfl

end Production

section Trades

/-- A settled trade of ours, with the tick its offer was created in. -/
abbrev MeasuredTrade := Transaction × Nat

def MeasuredTrade.took (m : MeasuredTrade) : Nat := m.1.settledTick - m.2

/-- One of these snapshots shows the trade, proposed by its planet, along with the offer. -/
def MeasuredTrade.Shown (snapshots : List Snapshot) (m : MeasuredTrade) : Prop :=
  ∃ s ∈ snapshots, m.1 ∈ s.transactions ∧ m.1.proposerId = s.selfStationId ∧
    ∃ o ∈ s.offers, o.offerId = m.1.offerId ∧ o.createdTick = m.2

/-- The round trips kept are those of these trades, no two of them the same. -/
structure Measured (past : List Snapshot) (memory : PolicyMemory)
    (trades : List MeasuredTrade) : Prop where
  once : (trades.map fun m => m.1.transactionId).Nodup
  ids : memory.measuredTransactions = (trades.map fun m => m.1.transactionId).toFinset
  shown : ∀ m ∈ trades, m.Shown past
  samples : memory.roundTrips = lastSamples roundTripSamples (trades.map MeasuredTrade.took)

variable {past : List Snapshot} {memory memory' : PolicyMemory} {s : Snapshot}
  {trades : List MeasuredTrade}

theorem Measured.frame
    (h : Measured past memory trades) (trips : memory'.roundTrips = memory.roundTrips)
    (seen : memory'.measuredTransactions = memory.measuredTransactions) :
    Measured past memory' trades :=
  ⟨h.once, seen ▸ h.ids, h.shown, trips ▸ h.samples⟩

theorem Measured.later (h : Measured past memory trades) :
    Measured (past ++ [s]) memory trades := by
  refine ⟨h.once, h.ids, fun m hm => ?_, h.samples⟩
  obtain ⟨p, hp, hshown⟩ := h.shown m hm
  exact ⟨p, List.mem_append_left _ hp, hshown⟩

theorem Measured.trade {txn : Transaction} (h : Measured (past ++ [s]) memory trades)
    (ht : txn ∈ s.transactions) :
    ∃ trades', Measured (past ++ [s]) (memory.measureTrade
      (Dict.ofList (s.offers.map (fun o => (o.offerId, o.createdTick)))) s.selfStationId txn)
        trades' := by
  unfold measureTrade
  by_cases hother : txn.proposerId ≠ s.selfStationId
  · rw [if_pos hother]
    exact ⟨trades, h⟩
  rw [if_neg hother]
  by_cases hseen : txn.transactionId ∈ memory.measuredTransactions
  · rw [if_pos hseen]
    exact ⟨trades, h⟩
  rw [if_neg hseen]
  split
  next => exact ⟨trades, h⟩
  next created hcreated =>
    have hnew : txn.transactionId ∉ trades.map fun m => m.1.transactionId := by
      rw [h.ids, List.mem_toFinset] at hseen
      exact hseen
    refine ⟨trades ++ [(txn, created)], ⟨?_, ?_, ?_, ?_⟩⟩
    · rw [List.map_append]
      refine List.nodup_append.mpr ⟨h.once, List.nodup_singleton _, ?_⟩
      intro id hid other hsingle hsame
      have htxn : other = txn.transactionId := by simpa using hsingle
      exact hnew (htxn ▸ hsame ▸ hid)
    · rw [h.ids, List.map_append, List.toFinset_append, Finset.union_comm]
      rfl
    · intro m hm
      rcases List.mem_append.mp hm with hm | hm
      · exact h.shown m hm
      · cases List.mem_singleton.mp hm
        obtain ⟨o, ho, hpair⟩ := List.mem_map.mp (Dict.mem_of_get?_ofList hcreated)
        obtain ⟨hid, htick⟩ := Prod.mk.inj hpair
        exact ⟨s, by simp, ht, not_not.mp hother, o, ho, hid, htick⟩
    · rw [h.samples, pushSample_lastSamples, List.map_append]
      rfl

theorem Measured.observe (h : Measured past memory trades) :
    ∃ trades', Measured (past ++ [s]) (memory.observe s) trades' := by
  have hframe : Measured (past ++ [s])
      { memory with counterparties := memory.counterparties.update s } trades :=
    h.later.frame rfl rfl
  have hfold : ∃ trades', Measured (past ++ [s])
      (({ memory with counterparties := memory.counterparties.update s } :
          PolicyMemory).measureRoundTrips s) trades' := by
    unfold measureRoundTrips
    refine List.foldlRecOn (motive := fun m => ∃ trades', Measured (past ++ [s]) m trades') _ _
      ⟨trades, hframe⟩ ?_
    rintro m ⟨trades', hm⟩ txn ht
    exact hm.trade ht
  obtain ⟨trades', htrades⟩ := hfold
  have hproduction := measureProduction_trades
    (({ memory with counterparties := memory.counterparties.update s } :
      PolicyMemory).measureRoundTrips s) s
  exact ⟨trades', htrades.frame hproduction.1 hproduction.2⟩

end Trades

end PolicyMemory

namespace CounterpartyModel

section Counts

/-- How many of our offers to a planet the model has counted, and how many as accepted. -/
def sentTo (model : CounterpartyModel) (x : String) : Nat :=
  ((model.stations.get? x).map CounterpartyStats.offersSentTo).getD 0

def acceptedBy (model : CounterpartyModel) (x : String) : Nat :=
  ((model.stations.get? x).map CounterpartyStats.offersAcceptedBy).getD 0

/-- The offers of ours to a planet that it accepted or let expire. -/
def decidedTo (selfStationId x : String) (offers : List Offer) : Finset String :=
  ((offers.filter fun o =>
    o.proposerId = selfStationId ∧ o.recipientId = x ∧ recipientDecided o.status).map
    Offer.offerId).toFinset

theorem decidedTo_append (selfStationId x : String) (offers : List Offer) (o : Offer) :
    decidedTo selfStationId x (offers ++ [o]) =
      if o.proposerId = selfStationId ∧ o.recipientId = x ∧ recipientDecided o.status then
        insert o.offerId (decidedTo selfStationId x offers)
      else decidedTo selfStationId x offers := by
  unfold decidedTo
  rw [List.filter_append, List.map_append, List.toFinset_append]
  split_ifs with h
  · rw [List.filter_cons_of_pos (by simpa using h), Finset.union_comm]
    rfl
  · rw [List.filter_cons_of_neg (by simpa using h)]
    simp

/-- The model has counted each of our decided offers among these, once. -/
structure Tally (selfStationId : String) (offers : List Offer)
    (model : CounterpartyModel) : Prop where
  counted : ∀ offerId, offerId ∈ model.countedOffers ↔ ∃ x, x ≠ selfStationId ∧
    offerId ∈ decidedTo selfStationId x offers
  sent : ∀ x, x ≠ selfStationId → model.sentTo x = (decidedTo selfStationId x offers).card
  accepted : ∀ x, model.acceptedBy x ≤ model.sentTo x

variable {model model' : CounterpartyModel} {selfStationId x stationId : String}
  {offers : List Offer} {o : Offer} {change : CounterpartyStats → CounterpartyStats}

theorem Tally.frame (h : Tally selfStationId offers model) (counted :
      model'.countedOffers = model.countedOffers) (sent : ∀ x, model'.sentTo x = model.sentTo x)
    (accepted : ∀ x, model'.acceptedBy x = model.acceptedBy x) :
    Tally selfStationId offers model' where
  counted offerId := by rw [counted, h.counted]
  sent x hx := by rw [sent, h.sent x hx]
  accepted x := by rw [sent, accepted]; exact h.accepted x

theorem sentTo_revise (model : CounterpartyModel) (stationId x : String) (k : Nat)
    (adds : ∀ stats, (change stats).offersSentTo = stats.offersSentTo + k) :
    (model.revise stationId change).sentTo x = model.sentTo x + if x = stationId then k else 0 := by
  unfold sentTo
  rw [get?_revise]
  by_cases hx : x = stationId
  · rw [if_pos hx, if_pos hx, ← hx, Option.map_some, Option.getD_some, adds]
    cases model.stations.get? x <;> rfl
  · rw [if_neg hx, if_neg hx, Nat.add_zero]

theorem acceptedBy_revise (model : CounterpartyModel) (stationId x : String) (k : Nat)
    (adds : ∀ stats, (change stats).offersAcceptedBy = stats.offersAcceptedBy + k) :
    (model.revise stationId change).acceptedBy x = model.acceptedBy x + if x =
      stationId then k else 0 := by
  unfold acceptedBy
  rw [get?_revise]
  by_cases hx : x = stationId
  · rw [if_pos hx, if_pos hx, ← hx, Option.map_some, Option.getD_some, adds]
    cases model.stations.get? x <;> rfl
  · rw [if_neg hx, if_neg hx, Nat.add_zero]

theorem Tally.revise (h : Tally selfStationId offers model)
    (sent : ∀ stats, (change stats).offersSentTo = stats.offersSentTo)
    (accepted : ∀ stats, (change stats).offersAcceptedBy = stats.offersAcceptedBy) :
    Tally selfStationId offers (model.revise stationId change) :=
  h.frame rfl (fun x => by rw [sentTo_revise model stationId x 0 sent, ite_self, Nat.add_zero])
    fun x => by rw [acceptedBy_revise model stationId x 0 accepted, ite_self, Nat.add_zero]

/-- An offer that cannot count leaves the tally as it is. -/
theorem Tally.skip (h : Tally selfStationId offers model) (skip : ∀ x, x ≠ selfStationId →
      decidedTo selfStationId x (offers ++ [o]) = decidedTo selfStationId x offers) :
    Tally selfStationId (offers ++ [o]) model where
  counted offerId := by
    rw [h.counted]
    exact exists_congr fun x => and_congr_right fun hx => by rw [skip x hx]
  sent x hx := by rw [skip x hx, h.sent x hx]
  accepted := h.accepted

/-- The first showing of a decision is counted, for the planet that took it. -/
theorem Tally.count (h : Tally selfStationId offers model) (hto : o.recipientId ≠ selfStationId)
    (hfrom : o.proposerId = selfStationId) (hdecided : recipientDecided o.status = true)
    (hnew : o.offerId ∉ model.countedOffers) : Tally selfStationId (offers ++ [o])
      ({ model with countedOffers := insert o.offerId model.countedOffers }.revise o.recipientId
        (if o.status = OfferStatus.accepted then countAccepted else countExpired o)) := by
  have hdecidedTo : ∀ x, decidedTo selfStationId x (offers ++ [o]) =
      if o.recipientId = x then insert o.offerId (decidedTo selfStationId x offers)
      else decidedTo selfStationId x offers := by
    intro x
    rw [decidedTo_append]
    simp [hfrom, hdecided]
  have hsent : ∀ stats, ((if o.status = OfferStatus.accepted then countAccepted else countExpired o)
      stats).offersSentTo =
      stats.offersSentTo + 1 := by
    intro stats
    split <;> rfl
  refine ⟨fun offerId => ?_, fun x hx => ?_, fun x => ?_⟩
  · show offerId ∈ insert o.offerId model.countedOffers ↔ _
    rw [Finset.mem_insert, h.counted]
    constructor
    · rintro (rfl | ⟨x, hx, hmem⟩)
      · exact ⟨o.recipientId, hto, by rw [hdecidedTo, if_pos rfl]; exact Finset.mem_insert_self _ _⟩
      · refine ⟨x, hx, ?_⟩
        rw [hdecidedTo]
        split
        · exact Finset.mem_insert_of_mem hmem
        · exact hmem
    · rintro ⟨x, hx, hmem⟩
      rw [hdecidedTo] at hmem
      split at hmem
      · rcases Finset.mem_insert.mp hmem with hsame | hmem
        · exact Or.inl hsame
        · exact Or.inr ⟨x, hx, hmem⟩
      · exact Or.inr ⟨x, hx, hmem⟩
  · rw [sentTo_revise _ _ x 1 hsent, hdecidedTo]
    have hbefore : CounterpartyModel.sentTo
      { model with countedOffers := insert o.offerId model.countedOffers } x =
        (decidedTo selfStationId x offers).card := h.sent x hx
    rw [hbefore]
    by_cases hrecipient : o.recipientId = x
    · have hunlisted : o.offerId ∉ decidedTo selfStationId x offers :=
        fun hmem => hnew ((h.counted _).mpr ⟨x, hx, hmem⟩)
      rw [if_pos hrecipient, if_pos hrecipient.symm, Finset.card_insert_of_notMem hunlisted]
    · rw [if_neg hrecipient, if_neg (Ne.symm hrecipient), Nat.add_zero]
  · rw [sentTo_revise _ _ x 1 hsent]
    have hbefore : CounterpartyModel.acceptedBy
      { model with countedOffers := insert o.offerId model.countedOffers } x ≤
        CounterpartyModel.sentTo
        { model with countedOffers := insert o.offerId model.countedOffers } x := h.accepted x
    by_cases haccepted : o.status = OfferStatus.accepted
    · rw [if_pos haccepted, acceptedBy_revise _ _ x 1 fun _ => rfl]
      omega
    · have hkept : ∀ stats, (countExpired o stats).offersAcceptedBy =
        stats.offersAcceptedBy + 0 := fun _ => rfl
      rw [if_neg haccepted, acceptedBy_revise _ _ x 0 hkept, ite_self, Nat.add_zero]
      omega

/-- Offers shown under one id are one offer: its two parties never change. -/
def SameParties (offers : List Offer) : Prop :=
  ∀ o ∈ offers, ∀ o' ∈ offers, o.offerId = o'.offerId → o.proposerId = o'.proposerId ∧
    o.recipientId = o'.recipientId

theorem Tally.countOffer (h : Tally selfStationId offers model)
    (parties : SameParties (offers ++ [o])) :
    Tally selfStationId (offers ++ [o]) (model.countOffer selfStationId o) := by
  unfold CounterpartyModel.countOffer
  by_cases hto : o.recipientId = selfStationId
  · rw [if_pos hto]
    have hskip : ∀ x, x ≠ selfStationId → decidedTo selfStationId x (offers ++ [o]) =
        decidedTo selfStationId x offers := by
      intro x hx
      rw [decidedTo_append, if_neg]
      exact fun hcounts => hx (hcounts.2.1 ▸ hto)
    exact (h.skip hskip).revise (fun _ => rfl) fun _ => rfl
  rw [if_neg hto]
  by_cases hfrom : o.proposerId ≠ selfStationId
  · rw [if_pos hfrom]
    refine h.skip fun x _ => ?_
    rw [decidedTo_append, if_neg]
    exact fun hcounts => hfrom hcounts.1
  rw [if_neg hfrom]
  by_cases hskip : (!recipientDecided o.status || decide (o.offerId ∈ model.countedOffers)) = true
  · rw [if_pos hskip]
    refine h.skip fun x hx => ?_
    rw [decidedTo_append]
    split
    next hcounts =>
      have hcounted : o.offerId ∈ model.countedOffers := by simpa [hcounts.2.2] using hskip
      obtain ⟨y, _, hmem⟩ := (h.counted _).mp hcounted
      obtain ⟨o', ho', hid⟩ := List.mem_map.mp (List.mem_toFinset.mp hmem)
      have hlisted := List.mem_filter.mp ho'
      have hy : o'.recipientId = y := by simpa using (of_decide_eq_true hlisted.2).2.1
      have hsame := (parties o' (List.mem_append_left _ hlisted.1) o (by simp) hid).2
      have hxy : y = x := by rw [← hy, hsame, hcounts.2.1]
      exact Finset.insert_eq_of_mem (hxy ▸ hmem)
    next => rfl
  · rw [if_neg hskip]
    simp only [Bool.or_eq_true, Bool.not_eq_true', decide_eq_true_eq, not_or,
      Bool.not_eq_false] at hskip
    exact h.count hto (not_not.mp hfrom) hskip.1 hskip.2

theorem SameParties.mono {offers' : List Offer} (h : SameParties offers') (sub : offers ⊆ offers') :
    SameParties offers := fun o ho o' ho' => h o (sub ho) o' (sub ho')

theorem Tally.updateOfferHistory {s : Snapshot} (h : Tally s.selfStationId offers model)
    (parties : SameParties (offers ++ s.offers)) :
    Tally s.selfStationId (offers ++ s.offers) (model.updateOfferHistory s) := by
  unfold CounterpartyModel.updateOfferHistory
  generalize s.offers = shown at parties ⊢
  induction shown using List.reverseRecOn with
  | nil => simpa using h
  | append_singleton shown o ih =>
    rw [← List.append_assoc] at parties ⊢
    rw [List.foldl_append]
    exact (ih (parties.mono (List.subset_append_left _ _))).countOffer parties

theorem Tally.updateDirectory {s : Snapshot} (h : Tally selfStationId offers model) :
    Tally selfStationId offers (model.updateDirectory s) := by
  unfold CounterpartyModel.updateDirectory
  refine List.foldlRecOn (motive := Tally selfStationId offers) _ _ h fun m hm entry _ => ?_
  split
  · exact hm
  · exact hm.revise (fun _ => rfl) fun _ => rfl

theorem Tally.updateAdvertisements {s : Snapshot} (h : Tally selfStationId offers model) :
    Tally selfStationId offers (model.updateAdvertisements s) := by
  refine h.frame (updateAdvertisements_countedOffers model s) (fun x => ?_) fun x => ?_
  · unfold sentTo
    rw [get?_updateAdvertisements]
    cases model.stations.get? x <;> split <;> rfl
  · unfold acceptedBy
    rw [get?_updateAdvertisements]
    cases model.stations.get? x <;> split <;> rfl

theorem Tally.updateSupply {s : Snapshot} (h : Tally selfStationId offers model) :
    Tally selfStationId offers (model.updateSupply s) := by
  rw [updateSupply_eq]
  refine List.foldlRecOn (motive := Tally selfStationId offers) _ _ h fun m hm txn _ => ?_
  unfold supply
  split
  · exact hm.revise (fun _ => rfl) fun _ => rfl
  · exact hm

theorem Tally.update {s : Snapshot} (h : Tally s.selfStationId offers model)
    (parties : SameParties (offers ++ s.offers)) :
    Tally s.selfStationId (offers ++ s.offers) (model.update s) :=
  (h.updateDirectory.updateAdvertisements.updateOfferHistory parties).updateSupply

end Counts

end CounterpartyModel

open CounterpartyModel PolicyMemory

/-- Snapshots of one run, as its planet was shown them. -/
structure OneRun (selfStationId : String) (snapshots : List Snapshot) : Prop where
  self : ∀ s ∈ snapshots, s.selfStationId = selfStationId
  parties : SameParties (snapshots.flatMap Snapshot.offers)
  ordered : snapshots.Pairwise (fun a b => a.tick ≤ b.tick)

/-- Everything a memory that started empty has measured and counted of a run. -/
structure Remembered (selfStationId : String) (past : List Snapshot)
    (memory : PolicyMemory) : Prop where
  sampled : Sampled past memory
  measured : ∃ trades, Measured past memory trades
  tally : Tally selfStationId (past.flatMap Snapshot.offers) memory.counterparties

variable {selfStationId : String} {snapshots : List Snapshot}

theorem new_remembered (selfStationId : String) : Remembered selfStationId [] .new where
  sampled := ⟨rfl, rfl⟩
  measured := ⟨[], ⟨List.nodup_nil, rfl, by simp, rfl⟩⟩
  tally := ⟨fun offerId => by
    simp [decidedTo, PolicyMemory.new, CounterpartyModel.empty], fun _ _ => rfl, fun _ => le_refl _⟩

theorem OneRun.remembered (run : OneRun selfStationId snapshots) :
    Remembered selfStationId snapshots (snapshots.foldl observe .new) := by
  refine Fold.history (new_remembered selfStationId) fun past s later hsplit h => ?_
  obtain ⟨trades, htrades⟩ := h.measured
  have hordered := run.ordered
  rw [hsplit, List.pairwise_append] at hordered
  have hself : s.selfStationId = selfStationId := run.self s (by simp [hsplit])
  have hshown :
    (past ++ [s]).flatMap Snapshot.offers = past.flatMap Snapshot.offers ++ s.offers := by simp
  refine ⟨h.sampled.observe hordered.1 fun p hp =>
    hordered.2.2 p hp s (by simp), htrades.observe, ?_⟩
  subst hself
  rw [observe_counterparties, hshown]
  refine h.tally.update (run.parties.mono ?_)
  rw [hsplit, List.flatMap_append, List.flatMap_cons, ← List.append_assoc]
  exact List.subset_append_left _ _

/-- However often its snapshots are repeated, a run is remembered the same: one sample of
production a tick, one measurement a trade, one count an offer. -/
theorem observe_run (run : OneRun selfStationId snapshots) :
    (∀ memory past s later n, snapshots = past ++ s :: later →
      (past ++ List.replicate (n + 1) s ++ later).foldl observe memory =
        snapshots.foldl observe memory) ∧
    ((snapshots.foldl observe .new).productions =
        lastSamples productionSamples ((firstShowings snapshots).map produced) ∧
      List.Sublist (firstShowings snapshots) snapshots ∧
      ((firstShowings snapshots).map Snapshot.tick).Nodup) ∧
    (∃ trades : List MeasuredTrade, (trades.map fun m => m.1.transactionId).Nodup ∧
      (∀ m ∈ trades, m.Shown snapshots) ∧
      (snapshots.foldl observe .new).measuredTransactions =
        (trades.map fun m => m.1.transactionId).toFinset ∧
      (snapshots.foldl observe .new).roundTrips =
        lastSamples roundTripSamples (trades.map MeasuredTrade.took)) ∧
    ∀ x, x ≠ selfStationId →
      (snapshots.foldl observe .new).counterparties.sentTo x =
        (decidedTo selfStationId x (snapshots.flatMap Snapshot.offers)).card ∧
      (snapshots.foldl observe .new).counterparties.acceptedBy x ≤
        (snapshots.foldl observe .new).counterparties.sentTo x := by
  have hremembered := run.remembered
  obtain ⟨trades, htrades⟩ := hremembered.measured
  refine ⟨fun memory past s later n hsplit => ?_, ⟨hremembered.sampled.1, firstShowings_sublist _,
    firstShowings_nodup _⟩, ⟨trades, htrades.once, htrades.shown, htrades.ids, htrades.samples⟩,
    fun x hx => ⟨hremembered.tally.sent x hx, hremembered.tally.accepted x⟩⟩
  rw [hsplit]
  exact Fold.repeated (fun m => m.observe_twice s) past later n

/-- An offer of ours that lapses, shown in each of two ticks. -/
def lapsedRun : List Snapshot :=
  let lapsed := { marketOffer ⟨0, 1, 0⟩
    ⟨1, 0, 0⟩ with proposerId := "P01", recipientId := "P02", status := .expired }
  [marketView 6 ⟨60, 100, 100⟩ [lapsed] [],
    { marketView 6 ⟨60, 100, 100⟩ [lapsed] [] with tick := 2 }]

theorem lapsedRun_counted_once : (lapsedRun.foldl observe .new).counterparties.sentTo
      "P02" = 1 := by
  have run : OneRun "P01" lapsedRun :=
    ⟨by decide, by unfold SameParties; decide, by decide⟩
  exact ((observe_run run).2.2.2 "P02" (by decide)).1.trans (by decide +kernel)

end SpaceportBazaar
