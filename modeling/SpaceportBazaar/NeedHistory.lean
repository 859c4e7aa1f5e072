import SpaceportBazaar.CounterpartyAgain
import SpaceportBazaar.DecideKnown
import SpaceportBazaar.DecideBalance
import Mathlib.Data.List.DropRight
import Mathlib.Data.Finset.Card

namespace SpaceportBazaar

namespace CounterpartyModel

variable {x : String} {r : Resource} {s : Snapshot} {past snapshots : List Snapshot}
  {model : CounterpartyModel}

/-- A snapshot shows the planet asking for the resource, in an advertisement still running. -/
def showsNeed (x : String) (r : Resource) (s : Snapshot) : Bool :=
  s.advertisements.any fun ad =>
    ad.stationId = x && ad.status = .active && !ad.isExpiredAt s.tick && decide (r ∈ ad.seeking)

/-- The longest run of snapshots, up to the last one, that all show the need. -/
def unbroken (x : String) (r : Resource) (snapshots : List Snapshot) : List Snapshot :=
  snapshots.rtakeWhile (showsNeed x r)

def ticksOf (snapshots : List Snapshot) : Finset Nat := (snapshots.map Snapshot.tick).toFinset

theorem ticksOf_append (past : List Snapshot) (s : Snapshot) :
    ticksOf (past ++ [s]) = insert s.tick (ticksOf past) := by
  unfold ticksOf
  rw [List.map_append, List.toFinset_append, Finset.union_comm]
  rfl

section Streak

theorem get?_foldl_extend (rs : List Resource) (nodup : rs.Nodup) (streak : Dict Resource Nat)
    (r : Resource) :
    (rs.foldl (fun streak r => streak.set r ((streak.get? r).getD 0 + 1)) streak).get? r =
      if r ∈ rs then some ((streak.get? r).getD 0 + 1) else streak.get? r := by
  induction rs generalizing streak with
  | nil => simp
  | cons k rs ih =>
    have hnodup := List.nodup_cons.mp nodup
    rw [List.foldl_cons, ih hnodup.2, Dict.get?_set]
    by_cases hr : r = k
    · subst r
      rw [if_neg hnodup.1, if_pos rfl, if_pos List.mem_cons_self]
    · simp [hr]

theorem get?_extendStreak (seeking : Finset Resource) (streak : Dict Resource Nat) (r : Resource) :
    (extendStreak seeking streak).get? r =
      if r ∈ seeking then some ((streak.get? r).getD 0 + 1) else streak.get? r := by
  have hnodup : (resourcesOf seeking).Nodup := (show Resource.all.Nodup by decide).filter _
  unfold extendStreak
  rw [get?_foldl_extend _ hnodup]
  simp [resourcesOf]

/-- A streak survives only what is still sought, and grows by one in a tick not seen before. -/
theorem showAd_streak {tick n : Nat} {selling seeking : Finset Resource} {stats : CounterpartyStats}
    (h : (showAd tick selling seeking stats).seekingStreak.get? r = some n) :
    r ∈ seeking ∧ ((stats.lastAdTick < tick ∧ n = (stats.seekingStreak.get? r).getD 0 + 1) ∨
      stats.seekingStreak.get? r = some n) := by
  simp only [showAd, Dict.get?_filterKeys] at h
  split at h
  next hkept =>
    have hr : r ∈ seeking := of_decide_eq_true hkept
    refine ⟨hr, ?_⟩
    split at h
    next hnew =>
      rw [get?_extendStreak, if_pos hr] at h
      exact Or.inl ⟨hnew, (Option.some.inj h).symm⟩
    next => exact Or.inr h
  next => simp at h

theorem activeAds_shows {ad : Finset Resource × Finset Resource}
    (h : (activeAds s).get? x = some ad) (hr : r ∈ ad.2) :
    showsNeed x r s = true := by
  obtain ⟨shown, hshown, hpair⟩ := List.mem_map.mp (Dict.mem_of_get?_ofList h)
  obtain ⟨hmem, hkept⟩ := List.mem_filter.mp hshown
  obtain ⟨hid, had⟩ := Prod.mk.inj hpair
  simp only [Bool.and_eq_true, decide_eq_true_eq] at hkept
  refine List.any_eq_true.mpr ⟨shown, hmem, ?_⟩
  have hseeking : r ∈ shown.seeking := by rw [← had] at hr; exact hr
  simp only [Bool.and_eq_true, decide_eq_true_eq]
  exact ⟨⟨⟨hid, hkept.1.2⟩, hkept.2⟩, hseeking⟩

end Streak

/-- A streak is backed by as many ticks of the unbroken run, whose last is the one marked. -/
def Backed (x : String) (past : List Snapshot) (stats : CounterpartyStats) : Prop :=
  ∀ r n, stats.seekingStreak.get? r = some n → n ≤ (ticksOf (unbroken x r past)).card ∧
    ∃ last, past.getLast? = some last ∧ showsNeed x r last = true ∧ stats.lastAdTick = last.tick

theorem backed_lasting (x : String) (past : List Snapshot) : Lasting (Backed x past) :=
  ⟨fun _ h => h, fun _ h => h, fun _ _ h => h, fun _ _ h => h⟩

theorem fresh_backed (x stationId : String) (past : List Snapshot) :
    Backed x past { stationId := stationId } := by
  intro r n h
  simp at h

/-- Another snapshot that shows the need adds its tick to the run, once. -/
theorem Backed.showAd {stats : CounterpartyStats} {ad : Finset Resource × Finset Resource}
    (h : Backed x past stats) (ordered : (past ++ [s]).Pairwise (fun a b => a.tick ≤ b.tick))
    (had : (activeAds s).get? x = some ad) :
    Backed x (past ++ [s]) (showAd s.tick ad.1 ad.2 stats) := by
  intro r n hstreak
  obtain ⟨hr, hgrown⟩ := showAd_streak hstreak
  have hshows := activeAds_shows had hr
  have hrun : unbroken x r (past ++ [s]) = unbroken x r past ++ [s] :=
    List.rtakeWhile_concat_pos _ _ s hshows
  refine ⟨?_, s, by simp, hshows, rfl⟩
  rw [hrun, ticksOf_append]
  rcases hgrown with ⟨hnew, rfl⟩ | hkept
  · cases hold : stats.seekingStreak.get? r with
    | none => exact Finset.card_pos.mpr ⟨s.tick, Finset.mem_insert_self _ _⟩
    | some m =>
      obtain ⟨hm, last, hlast, _, hmarked⟩ := h r m hold
      have hunseen : s.tick ∉ ticksOf (unbroken x r past) := by
        intro hseen
        obtain ⟨p, hp, htick⟩ := List.mem_map.mp (List.mem_toFinset.mp hseen)
        have hpast : p ∈ past := (List.rtakeWhile_suffix (showsNeed x r) past).subset hp
        obtain ⟨init, rfl⟩ := List.getLast?_eq_some_iff.mp hlast
        have hle : p.tick ≤ last.tick := by
          have hpairs := (List.pairwise_append.mp (List.pairwise_append.mp ordered).1).2.2
          rcases List.mem_append.mp hpast with hp | hp
          · exact hpairs p hp last (by simp)
          · rw [List.mem_singleton.mp hp]
        omega
      rw [Finset.card_insert_of_notMem hunseen]
      exact Nat.succ_le_succ hm
  · exact (h r n hkept).1.trans (Finset.card_le_card (Finset.subset_insert _ _))

theorem updateDirectory_allows {P : CounterpartyStats → Prop} (h : model.Allows x P)
    (fresh : ∀ stationId, P { stationId := stationId })
    (rename : ∀ stats name, P stats → P { stats with displayName := name }) :
    (model.updateDirectory s).Allows x P := by
  unfold updateDirectory
  refine List.foldlRecOn (motive := fun m : CounterpartyModel => m.Allows x P) _ _ h
    fun m hm entry _ => ?_
  split
  · exact hm
  · exact hm.revise fresh fun stats => rename stats _

theorem backed_update (h : model.Allows x (Backed x past))
    (ordered : (past ++ [s]).Pairwise (fun a b => a.tick ≤ b.tick)) :
    (model.update s).Allows x (Backed x (past ++ [s])) := by
  refine Allows.trading ?_ (backed_lasting x _) (fun stationId => fresh_backed x stationId _) s
  have hnamed : (model.updateDirectory s).Allows x (Backed x past) :=
    updateDirectory_allows h (fun stationId => fresh_backed x stationId past) fun _ _ hb => hb
  intro stats hget
  rw [get?_updateAdvertisements] at hget
  split at hget
  next ad had =>
    cases Option.some.inj hget
    cases hold : (model.updateDirectory s).stations.get? x with
    | none => exact (fresh_backed x x past).showAd ordered had
    | some old => exact (hnamed old hold).showAd ordered had
  next =>
    obtain ⟨old, _, rfl⟩ := Option.map_eq_some_iff.mp hget
    intro r n hstreak
    simp [clearAd] at hstreak

theorem backed_run (ordered : snapshots.Pairwise (fun a b => a.tick ≤ b.tick)) (x : String) :
    (snapshots.foldl update .empty).Allows x (Backed x snapshots) := by
  refine Fold.history (I := fun past m => Allows x (Backed x past) m)
      (fun stats hget => by simp [empty] at hget)
    fun past s later hsplit h => backed_update h ?_
  rw [hsplit, ← List.singleton_append, ← List.append_assoc] at ordered
  exact (List.pairwise_append.mp ordered).1

/-- Every planet's record is filed under its own id. -/
theorem filed_run (snapshots : List Snapshot) : (snapshots.foldl update .empty).Filed (· = ·) := by
  refine List.foldlRecOn (motive := fun m : CounterpartyModel => m.Filed (· = ·)) _ _
    (fun key stats hget => by simp [empty] at hget) fun m hm s _ => ?_
  have hanyone : Mentions (fun _ => True) s :=
    ⟨fun _ _ _ => trivial, fun _ _ _ => trivial, fun _ _ _ => trivial, fun _ _ _ =>
      trivial, fun _ _ _ => trivial, fun _ _ _ => trivial⟩
  exact hm.update (fun _ _ => rfl) hanyone

end CounterpartyModel

open CounterpartyModel

theorem scanForDistress_streak {model : CounterpartyModel} {surplus : Bundle}
    {urgency : Resource → Urgency} {tick : Nat} {memory : PolicyMemory} {intent : GiftIntent}
    (h : intent ∈ scanForDistress model surplus urgency tick memory) :
    ∃ stats ∈ model.trading, stats.stationId = intent.stationId ∧
      ∃ n, stats.seekingStreak.get? intent.resource = some n ∧ persistenceTicks ≤ n := by
  unfold scanForDistress at h
  split at h
  next => simp at h
  next =>
    have hsorted := List.mem_of_mem_take h
    rw [List.mem_insertionSort, List.mem_flatMap] at hsorted
    obtain ⟨stats, hstats, hintent⟩ := hsorted
    obtain ⟨e, he, rfl⟩ := List.mem_map.mp hintent
    obtain ⟨hentry, hkept⟩ := List.mem_filter.mp he
    simp only [Bool.and_eq_true, decide_eq_true_eq] at hkept
    exact ⟨stats, hstats, rfl, e.2, Dict.mem_entries_iff.mp hentry, hkept.1.1⟩

/-- A streak never outgrows the ticks its need was shown in without a break, so neither
does the need behind a gift. -/
theorem streak_of_unbroken {snapshots : List Snapshot}
    (ordered : snapshots.Pairwise (fun a b => a.tick ≤ b.tick)) :
    (∀ x stats r, (snapshots.foldl update .empty).stations.get? x = some stats →
      (∀ n, stats.seekingStreak.get? r = some n → n ≤ (ticksOf (unbroken x r snapshots)).card) ∧
      ∀ last ∈ snapshots.getLast?, showsNeed x r last = false → stats.seekingStreak.get? r = none) ∧
    ∀ surplus urgency tick memory,
    ∀ intent ∈ scanForDistress (snapshots.foldl update .empty) surplus urgency tick memory,
      persistenceTicks ≤ (ticksOf (unbroken intent.stationId intent.resource snapshots)).card := by
  refine ⟨fun x stats r hget =>
    ⟨fun n hn => (backed_run ordered x stats hget r n hn).1, fun last hlast hsilent => ?_⟩, ?_⟩
  · cases hstreak : stats.seekingStreak.get? r with
    | none => rfl
    | some n =>
      obtain ⟨_, last', hlast', hshows, _⟩ := backed_run ordered x stats hget r n hstreak
      have hsame : last' = last := Option.some.inj (hlast'.symm.trans hlast)
      rw [hsame, hsilent] at hshows
      simp at hshows
  · intro surplus urgency tick memory intent hintent
    obtain ⟨stats, hstats, hid, n, hn, hlong⟩ := scanForDistress_streak hintent
    obtain ⟨key, hkey⟩ := Dict.mem_values_iff.mp (List.mem_of_mem_filter hstats)
    have hkeyed : key = stats.stationId := filed_run snapshots key stats hkey
    rw [hkeyed, hid] at hkey
    exact hlong.trans (backed_run ordered intent.stationId stats hkey intent.resource n hn).1

/-- Another planet asks for components in four ticks running. -/
def fourTicks : List Snapshot :=
  [1, 2, 3, 4].map fun tick =>
    { marketView 6 ⟨60, 100, 100⟩ [] [marketAd {.food} {.components}] with tick := tick }

theorem fourTicks_gift :
    persistenceTicks ≤ (ticksOf (unbroken "P02" .components fourTicks)).card := by
  have ordered : fourTicks.Pairwise (fun a b => a.tick ≤ b.tick) := by decide
  exact (streak_of_unbroken ordered).2 ⟨60, 100, 100⟩ (fun _ => .none) 4 .new
      ⟨"P02", .components, 20⟩
    (by decide +kernel)

end SpaceportBazaar
