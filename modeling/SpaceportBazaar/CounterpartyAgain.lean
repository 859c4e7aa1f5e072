import SpaceportBazaar.Counterparties
import SpaceportBazaar.Fold

namespace SpaceportBazaar

namespace CounterpartyModel

variable {model : CounterpartyModel} {stationId x : String}
  {change : CounterpartyStats → CounterpartyStats} {P : CounterpartyStats → Prop} {s : Snapshot}

section Revise

theorem get?_revise (model : CounterpartyModel) (stationId x : String)
    (change : CounterpartyStats → CounterpartyStats) :
    (model.revise stationId change).stations.get? x =
      if x = stationId then
  some (change ((model.stations.get? stationId).getD { stationId := stationId }))
      else model.stations.get? x := by
  unfold revise Dict.setDefault
  cases hget : model.stations.get? stationId with
  | some stats => simp only [Dict.get?_set, Option.getD_some]
  | none =>
    simp only [Dict.get?_set, Option.getD_none]
    split_ifs <;> rfl

@[simp] theorem revise_countedOffers (model : CounterpartyModel) (stationId : String)
    (change : CounterpartyStats → CounterpartyStats) :
    (model.revise stationId change).countedOffers = model.countedOffers := rfl

theorem revise_of_get? {stats : CounterpartyStats}
    (h : model.stations.get? stationId = some stats) :
    model.revise stationId change =
      { model with stations := model.stations.set stationId (change stats) } := by
  unfold revise Dict.setDefault
  rw [h]

theorem revise_self {stats : CounterpartyStats} (h : model.stations.get? stationId = some stats)
    (same : change stats = stats) : model.revise stationId change = model := by
  rw [revise_of_get? h, same, Dict.set_self h]

/-- The model has a record of this planet, and it says so. -/
def Told (x : String) (P : CounterpartyStats → Prop) (model : CounterpartyModel) : Prop :=
  ∃ stats, model.stations.get? x = some stats ∧ P stats

/-- Whatever record the model has of this planet, it says so. -/
def Allows (x : String) (P : CounterpartyStats → Prop) (model : CounterpartyModel) : Prop :=
  ∀ stats, model.stations.get? x = some stats → P stats

theorem Told.same (h : model.Told stationId P) (same : ∀ stats, P stats → change stats = stats) :
    model.revise stationId change = model := by
  obtain ⟨stats, hget, hp⟩ := h
  exact revise_self hget (same stats hp)

theorem Told.revise (h : model.Told x P) (keep : ∀ stats, P stats → P (change stats)) :
    (model.revise stationId change).Told x P := by
  obtain ⟨stats, hget, hp⟩ := h
  unfold Told
  rw [get?_revise]
  by_cases hx : x = stationId
  · rw [if_pos hx, ← hx, hget]
    exact ⟨_, rfl, keep stats hp⟩
  · rw [if_neg hx]
    exact ⟨stats, hget, hp⟩

theorem revise_tells (model : CounterpartyModel) (tell : ∀ stats, P (change stats)) :
    (model.revise stationId change).Told stationId P := by
  unfold Told
  rw [get?_revise, if_pos rfl]
  exact ⟨_, rfl, tell _⟩

theorem Allows.revise (h : model.Allows x P) (fresh : ∀ stationId, P { stationId := stationId })
    (keep : ∀ stats, P stats → P (change stats)) : (model.revise stationId change).Allows x P := by
  intro stats hget
  rw [get?_revise] at hget
  by_cases hx : x = stationId
  · rw [if_pos hx] at hget
    cases Option.some.inj hget
    cases hold : model.stations.get? stationId with
    | none => exact keep _ (fresh stationId)
    | some old => exact keep _ (h old (hx ▸ hold))
  · rw [if_neg hx] at hget
    exact h stats hget

theorem Told.mono {Q : CounterpartyStats → Prop} (h : model.Told x P)
    (imp : ∀ stats, P stats → Q stats) :
    model.Told x Q := by
  obtain ⟨stats, hget, hp⟩ := h
  exact ⟨stats, hget, imp stats hp⟩

end Revise

section Directory

/-- The name a snapshot's directory last gives this planet. -/
def nameShown (s : Snapshot) (x : String) : Option String :=
  ((s.directory.filter
      (fun entry => entry.stationId ≠ s.selfStationId ∧ entry.stationId = x)).getLast?).map
    DirectoryEntry.displayName

theorem get?_updateDirectory (model : CounterpartyModel) (s : Snapshot) (x : String) :
    (model.updateDirectory s).stations.get? x =
      match nameShown s x with
      | none => model.stations.get? x
      | some name =>
        some { (model.stations.get? x).getD { stationId := x } with displayName := name } := by
  unfold updateDirectory nameShown
  generalize s.directory = entries
  induction entries using List.reverseRecOn with
  | nil => rfl
  | append_singleton entries entry ih =>
    rw [List.foldl_append, List.foldl_cons, List.foldl_nil, List.filter_append]
    by_cases hself : entry.stationId = s.selfStationId
    · simpa [hself] using ih
    by_cases hx : entry.stationId = x
    · rw [if_neg hself, get?_revise, if_pos hx.symm, hx, ih]
      have hne : x ≠ s.selfStationId := hx ▸ hself
      simp only [hx, ne_eq,
        hne, not_false_eq_true, true_and, decide_true, List.filter_cons_of_pos, List.filter_nil,
        List.getLast?_append, List.getLast?_singleton, Option.some_or, Option.map_some]
      split <;> rfl
    · rw [if_neg hself, get?_revise, if_neg (Ne.symm hx), ih]
      simp [hx]

theorem updateDirectory_countedOffers (model : CounterpartyModel) (s : Snapshot) :
    (model.updateDirectory s).countedOffers = model.countedOffers := by
  unfold updateDirectory
  refine List.foldlRecOn
      (motive := fun m : CounterpartyModel => m.countedOffers = model.countedOffers) _ _ rfl
    fun m hm entry _ => ?_
  split <;> exact hm

theorem updateDirectory_keys (h : ∀ entry ∈ s.directory, entry.stationId ≠ s.selfStationId →
    model.Told entry.stationId fun _ => True) :
    (model.updateDirectory s).stations.keys = model.stations.keys := by
  unfold updateDirectory
  refine List.foldlRecOn
      (motive := fun m : CounterpartyModel => m.stations.keys = model.stations.keys) _ _ rfl
    fun m hm entry hentry => ?_
  split
  next => exact hm
  next hother =>
    obtain ⟨stats, hget, _⟩ := h entry hentry hother
    obtain ⟨old, hold⟩ := Dict.mem_keys_iff.mp (hm ▸ Dict.mem_keys_iff.mpr ⟨stats, hget⟩)
    rw [revise_of_get? hold, ← hm]
    exact Dict.keys_set_of_mem hold

/-- Reading the directory again changes nothing once every name in it is known. -/
theorem updateDirectory_again
    (h : ∀ x name, nameShown s x = some name → model.Told x fun stats => stats.displayName = name) :
    model.updateDirectory s = model := by
  have hkeys : (model.updateDirectory s).stations.keys = model.stations.keys := by
    refine updateDirectory_keys fun entry hentry hother => ?_
    have hlisted : entry ∈ s.directory.filter
        (fun e => e.stationId ≠ s.selfStationId ∧ e.stationId = entry.stationId) :=
      List.mem_filter.mpr ⟨hentry, by simpa using hother⟩
    have hshown : nameShown s entry.stationId =
        some (List.getLast _ (List.ne_nil_of_mem hlisted)).displayName := by
      unfold nameShown
      rw [List.getLast?_eq_some_getLast (List.ne_nil_of_mem hlisted)]
      rfl
    exact (h _ _ hshown).mono fun _ _ => trivial
  have hstations : (model.updateDirectory s).stations = model.stations := by
    refine Dict.ext_get? hkeys fun x => ?_
    rw [get?_updateDirectory]
    split
    next => rfl
    next name hname =>
      obtain ⟨stats, hget, rfl⟩ := h x name hname
      rw [hget]
      rfl
  have hcounted := updateDirectory_countedOffers model s
  cases model
  generalize updateDirectory _ s = updated at hstations hcounted
  cases updated
  simp_all

theorem updateDirectory_tells {name : String} (model : CounterpartyModel)
    (h : nameShown s x = some name) :
    (model.updateDirectory s).Told x fun stats => stats.displayName = name := by
  unfold Told
  rw [get?_updateDirectory, h]
  exact ⟨_, rfl, rfl⟩

end Directory

section Advertisements

/-- Each planet of the list is revised once, from what was known of it before. -/
theorem get?_foldl_revise {γ : Type} (g : γ → CounterpartyStats → CounterpartyStats)
    {es : List (String × γ)} (nodup : (es.map Prod.fst).Nodup) (model : CounterpartyModel)
    (x : String) :
    (es.foldl (fun m e => m.revise e.1 (g e.2)) model).stations.get? x =
      match es.lookup x with
      | some v => some (g v ((model.stations.get? x).getD { stationId := x }))
      | none => model.stations.get? x := by
  refine Dict.foldl_entries nodup (fun (m : CounterpartyModel) (k : String) => m.stations.get? k)
    (fun known k v => some (g v (known.getD { stationId := k }))) _ (fun m e k => ?_) model x
  rw [get?_revise]
  by_cases hk : k = e.1
  · rw [if_pos hk, if_pos hk, hk]
  · rw [if_neg hk, if_neg hk]

/-- What a snapshot's advertisements make of each planet's record. -/
theorem get?_updateAdvertisements (model : CounterpartyModel) (s : Snapshot) (x : String) :
    (model.updateAdvertisements s).stations.get? x =
      match (activeAds s).get? x with
      | some (selling, seeking) =>
        some (showAd s.tick selling seeking ((model.stations.get? x).getD { stationId := x }))
      | none => (model.stations.get? x).map clearAd := by
  have hfold :=
    get?_foldl_revise (fun ad : Finset Resource × Finset Resource => showAd s.tick ad.1 ad.2)
    (activeAds s).nodup model x
  have hmap : ∀ w, (model.updateAdvertisements s).stations.get? x = some w ↔ _ :=
    fun w => Dict.get?_mapEntries
  rw [show (activeAds s).entries.lookup x = (activeAds s).get? x from rfl] at hfold
  ext w
  rw [hmap, hfold]
  unfold Dict.contains
  cases hactive : (activeAds s).get? x with
  | none => simp
  | some ad => simp

theorem updateAdvertisements_countedOffers (model : CounterpartyModel) (s : Snapshot) :
    (model.updateAdvertisements s).countedOffers = model.countedOffers := by
  show ((activeAds s).entries.foldl _ model).countedOffers = _
  exact List.foldlRecOn
      (motive := fun m : CounterpartyModel => m.countedOffers = model.countedOffers) _ _ rfl
    fun m hm e _ => hm

theorem showAd_again (tick : Nat) (selling seeking : Finset Resource) (stats : CounterpartyStats) :
    showAd tick selling seeking (showAd tick selling seeking stats) =
      showAd tick selling seeking stats := by
  simp [showAd]

theorem updateAdvertisements_again (shown : ∀ x ad, (activeAds s).get? x = some ad →
      model.Told x fun stats => showAd s.tick ad.1 ad.2 stats = stats)
    (quiet : ∀ x, (activeAds s).get? x = none → model.Allows x fun stats => clearAd stats = stats) :
    model.updateAdvertisements s = model := by
  have hrevised : (activeAds s).entries.foldl
      (fun m e => m.revise e.1 (showAd s.tick e.2.1 e.2.2)) model = model :=
    Fold.unchanged fun e he => (shown e.1 e.2 (Dict.mem_entries_iff.mp he)).same fun _ h => h
  have hcleared : model.stations.mapEntries (fun stationId stats =>
      if (activeAds s).contains stationId then stats else clearAd stats) = model.stations := by
    refine Dict.mapEntries_self fun e he => ?_
    split
    next => rfl
    next hsilent =>
      have hnone : (activeAds s).get? e.1 = none := by simpa [Dict.contains] using hsilent
      exact quiet e.1 hnone e.2 (Dict.mem_entries_iff.mp he)
  unfold updateAdvertisements
  simp only [hrevised, hcleared]

end Advertisements

section Trading

/-- No offer and no trade with a planet makes this untrue of its record. -/
structure Lasting (P : CounterpartyStats → Prop) : Prop where
  active : ∀ stats, P stats → P { stats with everActive := true }
  accepted : ∀ stats, P stats → P (countAccepted stats)
  expired : ∀ offer stats, P stats → P (countExpired offer stats)
  received : ∀ received stats, P stats → P (receivedFrom received stats)

/-- An offer changes one record at most, in one of three ways. -/
theorem countOffer_cases (selfStationId : String) (model : CounterpartyModel) (o : Offer) :
    model.countOffer selfStationId o = model ∨
    (o.recipientId = selfStationId ∧
      model.countOffer selfStationId o = model.revise o.proposerId fun stats =>
      { stats with everActive := true }) ∨
    (o.recipientId ≠ selfStationId ∧
      o.proposerId = selfStationId ∧ recipientDecided o.status = true ∧
      o.offerId ∉ model.countedOffers ∧
      model.countOffer selfStationId o =
        { model with countedOffers := insert o.offerId model.countedOffers }.revise
        o.recipientId (if o.status = OfferStatus.accepted then countAccepted
          else countExpired o)) := by
  unfold countOffer
  by_cases hto : o.recipientId = selfStationId
  · rw [if_pos hto]
    exact Or.inr (Or.inl ⟨hto, rfl⟩)
  rw [if_neg hto]
  by_cases hfrom : o.proposerId ≠ selfStationId
  · rw [if_pos hfrom]
    exact Or.inl rfl
  rw [if_neg hfrom]
  by_cases hskip : (!recipientDecided o.status || decide (o.offerId ∈ model.countedOffers)) = true
  · rw [if_pos hskip]
    exact Or.inl rfl
  rw [if_neg hskip]
  simp only [Bool.or_eq_true, Bool.not_eq_true', decide_eq_true_eq, not_or,
    Bool.not_eq_false] at hskip
  exact Or.inr (Or.inr ⟨hto, by simpa using hfrom, hskip.1, hskip.2, rfl⟩)

theorem Told.countOffer (h : model.Told x P) (lasting : Lasting P) (selfStationId : String)
    (o : Offer) :
    (model.countOffer selfStationId o).Told x P := by
  rcases countOffer_cases selfStationId model o with heq | ⟨_, heq⟩ | ⟨_, _, _, _, heq⟩ <;> rw [heq]
  · exact h
  · exact h.revise lasting.active
  · have hcounted :
      Told x P { model with countedOffers := insert o.offerId model.countedOffers } := h
    refine hcounted.revise fun stats hp => ?_
    split
    · exact lasting.accepted stats hp
    · exact lasting.expired o stats hp

theorem Allows.countOffer (h : model.Allows x P) (lasting : Lasting P)
    (fresh : ∀ stationId, P { stationId := stationId }) (selfStationId : String) (o : Offer) :
    (model.countOffer selfStationId o).Allows x P := by
  rcases countOffer_cases selfStationId model o with heq | ⟨_, heq⟩ | ⟨_, _, _, _, heq⟩ <;> rw [heq]
  · exact h
  · exact h.revise fresh lasting.active
  · have hcounted :
      Allows x P { model with countedOffers := insert o.offerId model.countedOffers } := h
    refine hcounted.revise fresh fun stats hp => ?_
    split
    · exact lasting.accepted stats hp
    · exact lasting.expired o stats hp

theorem countOffer_counted {selfStationId : String} {model : CounterpartyModel} {o : Offer}
    {offerId : String} (h : offerId ∈ model.countedOffers) :
    offerId ∈ (model.countOffer selfStationId o).countedOffers := by
  rcases countOffer_cases selfStationId model o with heq | ⟨_, heq⟩ | ⟨_, _, _, _, heq⟩ <;> rw [heq]
  · exact h
  · exact h
  · exact Finset.mem_insert_of_mem h

/-- Looking at this offer again would change nothing. -/
def Counted (selfStationId : String) (o : Offer) (model : CounterpartyModel) : Prop :=
  if o.recipientId = selfStationId then model.Told o.proposerId fun stats => stats.everActive = true
  else o.proposerId = selfStationId → recipientDecided o.status = true →
    o.offerId ∈ model.countedOffers

theorem active_lasting : Lasting fun stats => stats.everActive = true :=
  ⟨fun _ _ => rfl, fun _ h => h, fun _ _ h => h, fun _ _ _ => rfl⟩

theorem Counted.countOffer {selfStationId : String} {o : Offer} (h : model.Counted selfStationId o)
    (other : Offer) :
    (model.countOffer selfStationId other).Counted selfStationId o := by
  unfold Counted at h ⊢
  split
  next hto =>
    rw [if_pos hto] at h
    exact h.countOffer active_lasting selfStationId other
  next hto =>
    rw [if_neg hto] at h
    exact fun hfrom hdecided => countOffer_counted (h hfrom hdecided)

theorem countOffer_counts (selfStationId : String) (model : CounterpartyModel) (o : Offer) :
    (model.countOffer selfStationId o).Counted selfStationId o := by
  unfold Counted CounterpartyModel.countOffer
  by_cases hto : o.recipientId = selfStationId
  · rw [if_pos hto, if_pos hto]
    exact revise_tells model fun _ => rfl
  rw [if_neg hto, if_neg hto]
  intro hfrom hdecided
  rw [if_neg (not_not.mpr hfrom)]
  by_cases hcounted : o.offerId ∈ model.countedOffers
  · simp [hcounted]
  · simp [hcounted, hdecided]

theorem Counted.same {selfStationId : String} {o : Offer} (h : model.Counted selfStationId o) :
    model.countOffer selfStationId o = model := by
  unfold Counted at h
  rcases countOffer_cases selfStationId model o with heq | ⟨hto, heq⟩ |
    ⟨hto, hfrom, hdecided, hnew, _⟩
  · exact heq
  · rw [if_pos hto] at h
    rw [heq]
    exact h.same fun stats hp => by rw [← hp]
  · rw [if_neg hto] at h
    exact absurd (h hfrom hdecided) hnew

/-- Who handed us something in this trade, and what. -/
def suppliedBy (selfStationId : String) (txn : Transaction) : Option (String × Bundle) :=
  if selfStationId = txn.recipientId then some (txn.proposerId, txn.give)
  else if selfStationId = txn.proposerId then some (txn.recipientId, txn.receive)
  else none

def supply (selfStationId : String) (model : CounterpartyModel)
    (txn : Transaction) : CounterpartyModel :=
  match suppliedBy selfStationId txn with
  | some (partner, received) => model.revise partner (receivedFrom received)
  | none => model

theorem updateSupply_eq (model : CounterpartyModel) (s : Snapshot) :
    model.updateSupply s = s.transactions.foldl (supply s.selfStationId) model := by
  unfold updateSupply
  congr 1
  funext model txn
  unfold supply suppliedBy
  split_ifs <;> rfl

theorem supply_countedOffers (selfStationId : String) (model : CounterpartyModel)
    (txn : Transaction) :
    (model.supply selfStationId txn).countedOffers = model.countedOffers := by
  unfold supply
  split <;> rfl

theorem Told.supply (h : model.Told x P) (lasting : Lasting P) (selfStationId : String)
    (txn : Transaction) :
    (model.supply selfStationId txn).Told x P := by
  unfold CounterpartyModel.supply
  split
  · exact h.revise (lasting.received _)
  · exact h

theorem Allows.supply (h : model.Allows x P)
    (lasting : Lasting P) (fresh : ∀ stationId, P { stationId := stationId })
    (selfStationId : String) (txn : Transaction) : (model.supply selfStationId txn).Allows x P := by
  unfold CounterpartyModel.supply
  split
  · exact h.revise fresh (lasting.received _)
  · exact h

theorem received_lasting (received : Bundle) :
    Lasting fun stats => receivedFrom received stats = stats := by
  have holds : ∀ stats : CounterpartyStats, receivedFrom received stats = stats ↔
      stats.everActive = true ∧
      Finset.univ.filter (fun r => 0 < received.get r) ⊆ stats.supplied := by
    intro stats
    obtain ⟨_⟩ := stats
    simp [receivedFrom, eq_comm, and_comm]
  refine ⟨fun stats h => ?_, fun stats h => ?_, fun _ stats h => ?_, fun other stats h => ?_⟩ <;>
    rw [holds] at h ⊢
  · exact ⟨rfl, h.2⟩
  · exact h
  · exact h
  · exact ⟨rfl, h.2.trans Finset.subset_union_left⟩

theorem receivedFrom_again (received : Bundle) (stats : CounterpartyStats) :
    receivedFrom received (receivedFrom received stats) = receivedFrom received stats := by
  simp [receivedFrom]

/-- Everything this snapshot has to tell is already in the model. -/
structure Absorbed (s : Snapshot) (model : CounterpartyModel) : Prop where
  named : ∀ x name, nameShown s x = some name → model.Told x fun stats => stats.displayName = name
  shown : ∀ x ad, (activeAds s).get? x = some ad → model.Told x fun stats =>
    showAd s.tick ad.1 ad.2 stats = stats
  quiet : ∀ x, (activeAds s).get? x = none → model.Allows x fun stats => clearAd stats = stats
  counted : ∀ o ∈ s.offers, model.Counted s.selfStationId o
  supplied : ∀ txn ∈ s.transactions,
    ∀ partner received, suppliedBy s.selfStationId txn = some (partner, received) →
    model.Told partner fun stats => receivedFrom received stats = stats

theorem Absorbed.same (h : model.Absorbed s) : model.update s = model := by
  have hoffers : model.updateOfferHistory s = model :=
    Fold.unchanged fun o ho => (h.counted o ho).same
  have hsupply : model.updateSupply s = model := by
    rw [updateSupply_eq]
    refine Fold.unchanged fun txn ht => ?_
    unfold supply
    split
    next partner received hby => exact (h.supplied txn ht partner received hby).same fun _ hp => hp
    next => rfl
  unfold update
  rw [updateDirectory_again h.named, updateAdvertisements_again h.shown h.quiet, hoffers, hsupply]

/-- Offers and trades leave alone what lasts through each of them. -/
theorem Told.trading (h : model.Told x P) (lasting : Lasting P) (s : Snapshot) :
    ((model.updateOfferHistory s).updateSupply s).Told x P := by
  rw [updateSupply_eq]
  refine List.foldlRecOn (motive := fun m : CounterpartyModel => m.Told x P) _ _ ?_
    fun m hm txn _ => hm.supply lasting _ txn
  exact List.foldlRecOn (motive := fun m : CounterpartyModel => m.Told x P) _ _ h
    fun m hm o _ => hm.countOffer lasting _ o

theorem Allows.trading (h : model.Allows x P) (lasting : Lasting P)
    (fresh : ∀ stationId, P { stationId := stationId }) (s : Snapshot) :
    ((model.updateOfferHistory s).updateSupply s).Allows x P := by
  rw [updateSupply_eq]
  refine List.foldlRecOn (motive := fun m : CounterpartyModel => m.Allows x P) _ _ ?_
    fun m hm txn _ => hm.supply lasting fresh _ txn
  exact List.foldlRecOn (motive := fun m : CounterpartyModel => m.Allows x P) _ _ h
    fun m hm o _ => hm.countOffer lasting fresh _ o

theorem Counted.supply {selfStationId : String} {o : Offer} (h : model.Counted selfStationId o)
    (txn : Transaction) :
    (model.supply selfStationId txn).Counted selfStationId o := by
  unfold Counted at h ⊢
  rw [supply_countedOffers]
  split
  next hto =>
    rw [if_pos hto] at h
    exact h.supply active_lasting selfStationId txn
  next hto =>
    rw [if_neg hto] at h
    exact h

theorem update_counts (model : CounterpartyModel) {o : Offer} (ho : o ∈ s.offers) :
    (model.update s).Counted s.selfStationId o := by
  unfold update
  rw [updateSupply_eq]
  refine List.foldlRecOn (motive := fun m : CounterpartyModel => m.Counted s.selfStationId o) _ _ ?_
    fun m hm txn _ => hm.supply txn
  exact Fold.settles ho (fun m => countOffer_counts _ m o) fun m other _ hm => hm.countOffer other

theorem update_supplies (model : CounterpartyModel) {txn : Transaction} (ht : txn ∈ s.transactions)
    {partner : String} {received : Bundle}
    (hby : suppliedBy s.selfStationId txn = some (partner, received)) :
    (model.update s).Told partner fun stats => receivedFrom received stats = stats := by
  unfold update
  rw [updateSupply_eq]
  refine Fold.settles (P := fun m : CounterpartyModel => m.Told partner fun stats =>
      receivedFrom received stats = stats) ht (fun m => ?_)
    fun m other _ hm => hm.supply (received_lasting received) _ other
  unfold supply
  rw [hby]
  exact revise_tells m (receivedFrom_again received)

theorem named_lasting (name : String) : Lasting fun stats => stats.displayName = name :=
  ⟨fun _ h => h, fun _ h => h, fun _ _ h => h, fun _ _ h => h⟩

theorem cleared_lasting : Lasting fun stats => clearAd stats = stats := by
  have holds : ∀ stats : CounterpartyStats, clearAd stats = stats ↔
      stats.selling = ∅ ∧ stats.seeking = ∅ ∧ stats.seekingStreak = .empty := by
    intro stats
    obtain ⟨_⟩ := stats
    simp [clearAd, eq_comm]
  refine ⟨fun stats h => ?_, fun stats h => ?_, fun _ stats h => ?_, fun _ stats h => ?_⟩ <;>
    exact (holds _).mpr (show _ from (holds stats).mp h)

theorem shown_lasting (tick : Nat) (selling seeking : Finset Resource) :
    Lasting fun stats => showAd tick selling seeking stats = stats := by
  have holds : ∀ stats : CounterpartyStats, showAd tick selling seeking stats = stats ↔
      stats.selling = selling ∧ stats.seeking = seeking ∧
        stats.lastAdTick = tick ∧ stats.everActive = true ∧
        (showAd tick selling seeking stats).seekingStreak = stats.seekingStreak := by
    intro stats
    obtain ⟨_⟩ := stats
    simp [showAd, eq_comm]
    tauto
  refine ⟨fun stats h => ?_, fun stats h => ?_, fun _ stats h => ?_, fun _ stats h => ?_⟩ <;>
    obtain ⟨hselling, hseeking, htick, hactive, hstreak⟩ := (holds _).mp h
  · exact (holds _).mpr ⟨hselling, hseeking, htick, rfl, hstreak⟩
  · exact (holds _).mpr ⟨hselling, hseeking, htick, hactive, hstreak⟩
  · exact (holds _).mpr ⟨hselling, hseeking, htick, hactive, hstreak⟩
  · exact (holds _).mpr ⟨hselling, hseeking, htick, rfl, hstreak⟩

/-- Advertisements rename nobody. -/
theorem updateAdvertisements_named {name : String}
    (h : model.Told x fun stats => stats.displayName = name) :
    (model.updateAdvertisements s).Told x fun stats => stats.displayName = name := by
  obtain ⟨stats, hget, hname⟩ := h
  unfold Told
  rw [get?_updateAdvertisements, hget]
  split
  next => exact ⟨_, rfl, hname⟩
  next => exact ⟨_, rfl, hname⟩

theorem update_absorbs (model : CounterpartyModel) (s : Snapshot) :
    (model.update s).Absorbed s where
  named x name hname :=
    Told.trading (updateAdvertisements_named (updateDirectory_tells model hname))
      (named_lasting name) s
  shown x ad had := by
    refine Told.trading ?_ (shown_lasting s.tick ad.1 ad.2) s
    unfold Told
    rw [get?_updateAdvertisements, had]
    exact ⟨_, rfl, showAd_again _ _ _ _⟩
  quiet x hnone := by
    refine Allows.trading ?_ cleared_lasting (fun _ => rfl) s
    intro stats hget
    rw [get?_updateAdvertisements, hnone] at hget
    obtain ⟨old, _, rfl⟩ := Option.map_eq_some_iff.mp hget
    rfl
  counted o ho := update_counts model ho
  supplied txn ht partner received hby := update_supplies model ht hby

/-- A snapshot seen a second time tells nothing new. -/
theorem update_again (model : CounterpartyModel) (s : Snapshot) :
    (model.update s).update s = model.update s :=
  (update_absorbs model s).same

end Trading

end CounterpartyModel

end SpaceportBazaar
