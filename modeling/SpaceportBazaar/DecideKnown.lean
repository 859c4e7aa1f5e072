import SpaceportBazaar.EconomyParties
import SpaceportBazaar.Memory

namespace SpaceportBazaar

open SimulatedEconomy

namespace CounterpartyModel

/-- Everyone a snapshot mentions besides its own planet is one of these. -/
structure Mentions (ids : String → Prop) (s : Snapshot) : Prop where
  directory : ∀ entry ∈ s.directory, entry.stationId ≠ s.selfStationId → ids entry.stationId
  advertisements : ∀ ad ∈ s.advertisements, ad.stationId ≠ s.selfStationId → ids ad.stationId
  proposers : ∀ o ∈ s.offers, o.recipientId = s.selfStationId → ids o.proposerId
  recipients : ∀ o ∈ s.offers, o.proposerId = s.selfStationId → ids o.recipientId
  sellers : ∀ t ∈ s.transactions, t.recipientId = s.selfStationId → ids t.proposerId
  buyers : ∀ t ∈ s.transactions, t.proposerId = s.selfStationId → ids t.recipientId

/-- Every record is filed under a key it may be filed under. -/
def Filed (under : String → String → Prop) (model : CounterpartyModel) : Prop :=
  ∀ key stats, model.stations.get? key = some stats → under key stats.stationId

section Filed

variable {ids : String → Prop} {under : String → String → Prop} {model : CounterpartyModel}
  {s : Snapshot} {stationId : String} (fresh : ∀ key, ids key → under key key)
include fresh

theorem Filed.revise (h : model.Filed under)
    (hid : ids stationId) {change : CounterpartyStats → CounterpartyStats}
    (keeps : ∀ stats, (change stats).stationId = stats.stationId) :
    (model.revise stationId change).Filed under := by
  have hset : ∀ {stations : Dict String CounterpartyStats} {stats : CounterpartyStats},
      (∀ key v, stations.get? key = some v → under key v.stationId) →
        under stationId stats.stationId →
        ∀ key v, (stations.set stationId stats).get? key = some v → under key v.stationId := by
    intro stations stats hall hnew key v hv
    rcases Dict.get?_set_some hv with ⟨rfl, rfl⟩ | ⟨-, hv⟩
    · exact hnew
    · exact hall key v hv
  unfold CounterpartyModel.revise Dict.setDefault
  split
  next old stations hget =>
    split at hget
    next v hv =>
      obtain ⟨rfl, rfl⟩ := Prod.mk.inj hget
      exact hset h (by rw [keeps]; exact h _ _ hv)
    next =>
      obtain ⟨rfl, rfl⟩ := Prod.mk.inj hget
      exact hset (hset h (fresh stationId hid)) (by rw [keeps]; exact fresh stationId hid)

theorem Filed.updateDirectory (h : model.Filed under) (mentions : Mentions ids s) :
    (model.updateDirectory s).Filed under := by
  unfold CounterpartyModel.updateDirectory
  refine List.foldlRecOn (motive := fun m : CounterpartyModel => m.Filed under) _ _ h
    fun m hm entry hentry => ?_
  split
  next => exact hm
  next hother => exact hm.revise fresh (mentions.directory entry hentry hother) fun _ => rfl

theorem Filed.updateAdvertisements (h : model.Filed under) (mentions : Mentions ids s) :
    (model.updateAdvertisements s).Filed under := by
  have hshown : ((activeAds s).entries.foldl (fun model e =>
      model.revise e.1 (showAd s.tick e.2.1 e.2.2)) model).Filed under := by
    refine List.foldlRecOn (motive := fun m : CounterpartyModel => m.Filed under) _ _ h
      fun m hm e he => ?_
    refine hm.revise fresh ?_ fun _ => rfl
    have hlisted := Dict.mem_of_get?_ofList
      (Dict.mem_entries_iff.mp (show (e.1, e.2) ∈ (activeAds s).entries from he))
    obtain ⟨ad, had, heq⟩ := List.mem_map.mp hlisted
    obtain ⟨hmem, hkept⟩ := List.mem_filter.mp had
    simp only [Bool.and_eq_true, decide_eq_true_eq] at hkept
    have hid : ad.stationId = e.1 := congrArg Prod.fst heq
    exact hid ▸ mentions.advertisements ad hmem hkept.1.1
  intro key stats hstats
  obtain ⟨old, hold, rfl⟩ := Dict.get?_mapEntries.mp hstats
  have hfiled := hshown key old hold
  split
  next => exact hfiled
  next => exact hfiled

theorem Filed.countOffer (h : model.Filed under) (mentions : Mentions ids s) {o : Offer}
    (ho : o ∈ s.offers) :
    (model.countOffer s.selfStationId o).Filed under := by
  unfold CounterpartyModel.countOffer
  by_cases hto : o.recipientId = s.selfStationId
  · rw [if_pos hto]
    exact h.revise fresh (mentions.proposers o ho hto) fun _ => rfl
  rw [if_neg hto]
  by_cases hfrom : o.proposerId ≠ s.selfStationId
  · rw [if_pos hfrom]
    exact h
  rw [if_neg hfrom]
  split
  next => exact h
  next =>
    have hcounted : CounterpartyModel.Filed under
      { model with countedOffers := insert o.offerId model.countedOffers } := h
    refine hcounted.revise fresh (mentions.recipients o ho (by simpa using hfrom)) fun stats => ?_
    split <;> rfl

theorem Filed.updateSupply (h : model.Filed under) (mentions : Mentions ids s) :
    (model.updateSupply s).Filed under := by
  unfold CounterpartyModel.updateSupply
  refine List.foldlRecOn (motive := fun m : CounterpartyModel => m.Filed under) _ _ h
    fun m hm t ht => ?_
  split
  next hto => exact hm.revise fresh (mentions.sellers t ht hto.symm) fun _ => rfl
  next =>
    split
    next hfrom => exact hm.revise fresh (mentions.buyers t ht hfrom.symm) fun _ => rfl
    next => exact hm

/-- A snapshot only adds records for whoever it mentions, each under its own id. -/
theorem Filed.update (h : model.Filed under) (mentions : Mentions ids s) :
    (model.update s).Filed under := by
  refine Filed.updateSupply fresh ?_ mentions
  exact List.foldlRecOn (motive := fun m : CounterpartyModel => m.Filed under) _ _
    ((h.updateDirectory fresh mentions).updateAdvertisements fresh mentions)
    fun m hm o ho => hm.countOffer fresh mentions ho

end Filed

/-- Every planet the model has a record of is one of these. -/
def Within (ids : String → Prop) (model : CounterpartyModel) : Prop :=
  ∀ stats ∈ model.stations.values, ids stats.stationId

theorem within_iff {ids : String → Prop} {model : CounterpartyModel} :
    model.Within ids ↔ model.Filed fun _ => ids := by
  constructor
  · intro h key stats hstats
    exact h stats (Dict.mem_values_iff.mpr ⟨key, hstats⟩)
  · intro h stats hstats
    obtain ⟨key, hkey⟩ := Dict.mem_values_iff.mp hstats
    exact h key stats hkey

/-- A model learns only of planets its snapshots mention. -/
theorem Within.update {ids : String → Prop} {model : CounterpartyModel} {s : Snapshot}
    (h : model.Within ids) (mentions : Mentions ids s) : (model.update s).Within ids :=
  within_iff.mpr ((within_iff.mp h).update (fun _ hid => hid) mentions)

end CounterpartyModel

/-- What a planet is shown of the market it is on. -/
structure Views (e : SimulatedEconomy) (stationId : String) (s : SimStation)
    (view : Snapshot) : Prop where
  known : e.stations.get? stationId = some s
  self : view.selfStationId = stationId
  tick : view.tick = e.tick
  rules : view.rules = e.rules
  me : view.me = s.observation
  directory : view.directory = e.stations.values.map (fun s =>
    ⟨s.stationId, if s.displayName = "" then s.stationId else s.displayName⟩)
  offers :
    view.offers = e.offers.filter (fun o => stationId = o.proposerId || stationId = o.recipientId)
  advertisements : view.advertisements = e.advertisements
  transactions : view.transactions =
    e.transactions.filter (fun t => stationId = t.proposerId || stationId = t.recipientId)

/-- Looking uses up a snapshot number at most. -/
theorem observationFor_views
    {e e' : SimulatedEconomy} {stationId : String} {sequence : Option Nat} {phase : Phase}
    {results : List CommandResult} {outcome : Option PlayerOutcome} {view : Snapshot}
    (h : e.observationFor stationId sequence phase results outcome = .ok (view, e')) :
    ∃ s n, Views e stationId s view ∧ e' = { e with sequence := n } := by
  obtain ⟨s, hs, h⟩ := bind_eq_ok_iff.mp h
  obtain ⟨rfl, rfl⟩ := Prod.mk.inj (Except.ok.inj h)
  have hs := station_eq_ok_iff.mp hs
  cases sequence with
  | none => exact ⟨s, e.sequence + 1, ⟨hs, rfl, rfl, rfl, rfl, rfl, rfl, rfl, rfl⟩, rfl⟩
  | some sequence => exact ⟨s, e.sequence, ⟨hs, rfl, rfl, rfl, rfl, rfl, rfl, rfl, rfl⟩, rfl⟩

section Informed

variable (stations : List SimStation) (rules : Rules) (runId : String) (stationId : String)

/-- A memory that has seen nothing but this market, from one planet's seat. -/
inductive Informed : PolicyMemory → Prop
  | new : Informed .new
  | observed {memory : PolicyMemory} {ls : List (Operation × List Processed)}
    {e e' : SimulatedEconomy}
    {sequence : Option Nat} {phase : Phase} {results : List CommandResult}
    {outcome : Option PlayerOutcome}
    {view : Snapshot} : Informed memory → Machine.Run Performs (create stations rules runId) ls e →
    e.observationFor stationId sequence phase results outcome = .ok (view, e') →
    Informed (memory.observe view)
  | noted {memory memory' : PolicyMemory} :
    Informed memory → memory'.counterparties = memory.counterparties →
    Informed memory'

end Informed

section Informed

variable {stations : List SimStation} {rules : Rules} {runId : String} {stationId : String}
  {ls : List (Operation × List Processed)} {e e' : SimulatedEconomy} {sequence : Option Nat}
  {phase : Phase} {results : List CommandResult} {outcome : Option PlayerOutcome} {view : Snapshot}
  {memory : PolicyMemory}

/-- The other planets of the market. -/
def Fellow (stations : List SimStation) (rules : Rules) (runId stationId k : String) : Prop :=
  k ∈ (create stations rules runId).stations.keys ∧ k ≠ stationId

/-- A view mentions nobody but the other planets of its market. -/
theorem Views.mentions_known {s : SimStation}
    {ids : String → Prop} (h : Views e stationId s view) (hb : Book e) (hd : Board e)
    (hparties : Parties e) (known : ∀ k ∈ e.stations.keys, k ≠ stationId → ids k) :
    CounterpartyModel.Mentions ids view := by
  have hoffer : ∀ o ∈ view.offers, o ∈ e.offers :=
    fun o ho => (List.mem_filter.mp (h.offers ▸ ho)).1
  have htrade : ∀ t ∈ view.transactions, t ∈ e.transactions :=
    fun t ht => (List.mem_filter.mp (h.transactions ▸ ht)).1
  constructor
  case directory =>
    intro entry hentry hother
    rw [h.directory] at hentry
    obtain ⟨t, ht, rfl⟩ := List.mem_map.mp hentry
    obtain ⟨k, hk⟩ := Dict.mem_values_iff.mp ht
    have hid : t.stationId = k := hb.keyed k t hk
    exact known _ (Dict.mem_keys_iff.mpr ⟨t, hid ▸ hk⟩) (h.self ▸ hother)
  case advertisements =>
    intro ad hmem hother
    obtain ⟨t, ht, _⟩ := hd.alive ad (h.advertisements ▸ hmem)
    exact known _ (Dict.mem_keys_iff.mpr ⟨t, ht⟩) (h.self ▸ hother)
  case proposers =>
    intro o ho hto
    obtain ⟨hne, hp, _⟩ := hparties o (hoffer o ho)
    exact known _ hp fun hself => hne (hself.trans (h.self ▸ hto.symm))
  case recipients =>
    intro o ho hfrom
    obtain ⟨hne, _, hr⟩ := hparties o (hoffer o ho)
    exact known _ hr fun hself => hne ((h.self ▸ hfrom).trans hself.symm)
  case sellers =>
    intro t ht hto
    obtain ⟨hne, hp, _⟩ := hparties.transaction hb (htrade t ht)
    exact known _ hp fun hself => hne (hself.trans (h.self ▸ hto.symm))
  case buyers =>
    intro t ht hfrom
    obtain ⟨hne, _, hr⟩ := hparties.transaction hb (htrade t ht)
    exact known _ hr fun hself => hne ((h.self ▸ hfrom).trans hself.symm)

theorem Views.mentions {s : SimStation} (h : Views e stationId s view)
    (run : Machine.Run Performs (create stations rules runId) ls e) :
    CounterpartyModel.Mentions (Fellow stations rules runId stationId) view := by
  obtain ⟨hb, hd, _⟩ := run_board run
  obtain ⟨hparties, hkeys⟩ := run_parties run
  exact h.mentions_known hb hd hparties fun k hk hother => ⟨(hkeys k).mp hk, hother⟩

/-- Whoever an informed memory would deal with is another planet of the market. -/
theorem Informed.within (h : Informed stations rules runId stationId memory) :
    memory.counterparties.Within (Fellow stations rules runId stationId) := by
  induction h with
  | new => intro stats hstats; simp [PolicyMemory.new, CounterpartyModel.empty, Dict.empty,
    Dict.values] at hstats
  | observed _ run seen ih =>
    obtain ⟨_, _, hviews, _⟩ := observationFor_views seen
    rw [PolicyMemory.observe_counterparties]
    exact ih.update (hviews.mentions run)
  | noted _ hsame ih => exact hsame ▸ ih

end Informed

end SpaceportBazaar
