import SpaceportBazaar.WorldBalance
import SpaceportBazaar.EconomyFailure
import SpaceportBazaar.DecideKnown
import SpaceportBazaar.Fold

namespace SpaceportBazaar

open SimulatedEconomy

/-- The book depends on the stations only through their ids and whether they failed. -/
theorem Book.standing {e : SimulatedEconomy} {stations : Dict String SimStation} (h : Book e)
    (hs : Standing e.stations stations) : Book { e with stations := stations } where
  keyed k s hget := by
    have hk := hs k
    rw [show Dict.get? stations k = some s from hget] at hk
    obtain ⟨s₀, hs₀, heq⟩ := Option.map_eq_some_iff.mp hk.symm
    rw [← (Prod.mk.inj heq).1]
    exact h.keyed k s₀ hs₀
  distinct := h.distinct
  numbered := h.numbered
  live o ho hopen := (h.live o ho hopen).of_standing hs rfl
  receipts := h.receipts

section Failures

/-- A tick marks a station as failed with its own number, or leaves the mark alone. -/
theorem SimStation.afterTick_marked (rules : Rules) (tick : Nat) {s : SimStation}
    (marked : s.failedOnce = s.firstFailureTick.isSome) :
    (s.afterTick rules tick).failedOnce = (s.afterTick rules tick).firstFailureTick.isSome ∧
      (s.afterTick rules tick).firstFailureTick =
        match s.firstFailureTick with
        | some first => some first
        | none => if (s.afterTick rules tick).failedOnce then some tick else none := by
  rcases s.afterTick_cases rules tick with ⟨_, _, _, _, _, hf, ht⟩ | ⟨_, _, _, _, _, hf, ht⟩
  · rw [hf, ht, marked]
    cases s.firstFailureTick <;> simp
  · rw [hf, ht, marked]
    cases s.firstFailureTick with
    | none =>
      by_cases hz : (s.afterTick rules tick).health = 0 <;> simp [hz]
    | some first => simp

/-- What the run loop has noted agrees with what the stations say of themselves. -/
structure Noted {π : Type} (run : WorldRun π) : Prop where
  book : Book run.economy
  marked : ∀ stationId s, run.economy.stations.get? stationId = some s →
    s.failedOnce = s.firstFailureTick.isSome
  noted : ∀ stationId,
    run.failedAt.get? stationId =
    (run.economy.stations.get? stationId).bind SimStation.firstFailureTick
  roster :
    ∀ stationId, (run.roster.get? stationId).isSome = (run.economy.stations.get? stationId).isSome

variable {π : Type} {run run' : WorldRun π} {economy : SimulatedEconomy}

/-- Nothing but the tick itself touches the record of failures. -/
theorem Noted.steady (h : Noted run) (book : Book economy) (same : ∀ stationId,
      (economy.stations.get? stationId).map (fun s => (s.failedOnce, s.firstFailureTick)) =
      (run.economy.stations.get? stationId).map (fun s => (s.failedOnce, s.firstFailureTick))) :
    Noted { run with economy := economy } where
  book := book
  marked stationId s hs := by
    have hsame := same stationId
    rw [show Dict.get? economy.stations stationId = some s from hs] at hsame
    obtain ⟨s₀, hs₀, heq⟩ := Option.map_eq_some_iff.mp hsame.symm
    obtain ⟨hf, ht⟩ := Prod.mk.inj heq
    rw [← hf, ← ht]
    exact h.marked stationId s₀ hs₀
  noted stationId := by
    have hsame := congrArg (fun o => o.bind Prod.snd) (same stationId)
    simp only [Option.bind_map] at hsame
    rw [h.noted stationId]
    exact hsame.symm
  roster stationId := by
    have hsame := congrArg Option.isSome (same stationId)
    simp only [Option.isSome_map] at hsame
    rw [h.roster stationId]
    exact hsame.symm

theorem Noted.setProduction {produce : Production} {tick : Nat} (h : Noted run)
    (hset : setProduction produce tick run.economy = .ok economy) :
    Noted { run with economy := economy } := by
  obtain ⟨outputs, _, hset⟩ := bind_eq_ok_iff.mp hset
  cases Except.ok.inj hset
  have hafter : ∀ stationId, ∃ i, (run.economy.stations.mapIdxValues
      (fun i s => { s with production := outputs.getD i 0 })).get? stationId =
        (run.economy.stations.get? stationId).map
        (fun s => { s with production := outputs.getD i 0 }) := by
    intro stationId
    cases hget : run.economy.stations.get? stationId with
    | some s => exact Dict.get?_mapIdxValues_of_some hget
    | none =>
      refine ⟨0, ?_⟩
      cases hnew : (run.economy.stations.mapIdxValues
          (fun i s => { s with production := outputs.getD i 0 })).get? stationId with
      | none => rfl
      | some s =>
        obtain ⟨_, v, hv, _⟩ := Dict.get?_mapIdxValues hnew
        rw [hget] at hv
        cases hv
  refine h.steady (h.book.standing fun k => ?_) fun stationId => ?_
  · obtain ⟨i, hi⟩ := hafter k
    rw [hi, Option.map_map]
    rfl
  · obtain ⟨i, hi⟩ := hafter stationId
    show (Dict.get? _ stationId).map _ = _
    rw [hi, Option.map_map]
    rfl

theorem Noted.applied {stationId : String} {actions : List Action}
    {outs : List (Action × CommandOutcome)}
    (h : Noted run) (happly : run.economy.apply stationId actions = .ok (outs, economy)) :
    Noted { run with economy := economy } := by
  have hperform : run.economy.perform (.apply stationId actions) =
      .ok (outs.map (fun p => ⟨stationId, p.1, p.2⟩), economy) := by
    show (run.economy.apply stationId actions >>= _) = _
    rw [happly]
    rfl
  have hstep : Performs run.economy
      (.apply stationId actions, outs.map (fun p => ⟨stationId, p.1, p.2⟩)) economy :=
    hperform
  have hbook : Book economy := (run_keeps h.book (Machine.Run.single hstep)).1
  rcases perform_stations h.book hperform with ⟨_, hkept⟩ | ⟨habsurd, _⟩
  · refine h.steady hbook fun k => ?_
    cases hget : run.economy.stations.get? k with
    | some s =>
      obtain ⟨s', hs', hk⟩ := hkept.forth hget
      rw [hs', Option.map_some, Option.map_some, hk.failedOnce, hk.firstFailureTick]
    | none =>
      cases hget' : economy.stations.get? k with
      | none => rfl
      | some s' =>
        obtain ⟨s, hs, _⟩ := hkept.back hget'
        rw [hget] at hs
        cases hs
  · cases habsurd

variable {act : π → Snapshot → Except Raised (List Action × π)} {turn : String × π}
  {produce : Production} {tick : Nat}

theorem Noted.playTurn (h : Noted run) (hturn : playTurn act run turn = .ok run') : Noted run' := by
  obtain ⟨s, hs, hturn⟩ := bind_eq_ok_iff.mp hturn
  split at hturn
  next =>
    cases Except.ok.inj hturn
    exact h
  next =>
    obtain ⟨⟨snapshot, viewed⟩, hview, hturn⟩ := bind_eq_ok_iff.mp hturn
    obtain ⟨⟨actions, player⟩, _, hturn⟩ := bind_eq_ok_iff.mp hturn
    obtain ⟨⟨outs, economy⟩, happly, hturn⟩ := bind_eq_ok_iff.mp hturn
    cases Except.ok.inj hturn
    obtain ⟨shown, n, _, rfl⟩ := observationFor_views hview
    have hviewed : Noted { run with economy := { run.economy with sequence := n } } :=
      h.steady (h.book.frame rfl rfl rfl rfl le_rfl) fun _ => rfl
    have happlied := hviewed.applied happly
    refine ⟨happlied.book, happlied.marked, happlied.noted, fun stationId => ?_⟩
    rw [← happlied.roster stationId, Dict.get?_set]
    split
    next hself =>
      have hseated := h.roster stationId
      rw [hself, station_eq_ok_iff.mp hs] at hseated
      rw [hself, hseated]
      rfl
    next => rfl

theorem Noted.playTurns {turns : List (String × π)} (h : Noted run)
    (hturns : turns.foldlM (SpaceportBazaar.playTurn act) run = .ok run') : Noted run' := by
  induction turns generalizing run with
  | nil =>
    cases Except.ok.inj hturns
    exact h
  | cons turn turns ih =>
    rw [List.foldlM_cons] at hturns
    obtain ⟨next, hnext, hturns⟩ := bind_eq_ok_iff.mp hturns
    exact ih (h.playTurn hnext) hturns

theorem noteFailures_get? (economy : SimulatedEconomy) (failedAt : Dict String Nat)
    (stationId : String) :
    (noteFailures economy failedAt).get? stationId =
      match failedAt.get? stationId with
      | some first => some first
      | none => (economy.stations.get? stationId).bind fun s =>
        if s.failedOnce then some economy.tick else none := by
  have hfold := Dict.foldl_entries economy.stations.nodup Dict.get?
    (fun (known : Option Nat) (_ : String) (s : SimStation) =>
      known.or (if s.failedOnce then some economy.tick else none))
    (fun failedAt e => if e.2.failedOnce && !failedAt.contains e.1 then
      failedAt.set e.1 economy.tick else failedAt)
    (fun d e k => ?_) failedAt stationId
  · unfold noteFailures
    rw [hfold, show economy.stations.entries.lookup stationId =
      economy.stations.get? stationId from rfl]
    cases failedAt.get? stationId <;> cases economy.stations.get? stationId <;> simp
  · unfold Dict.contains
    by_cases hk : k = e.1
    · subst hk
      cases hold : d.get? e.1 <;> cases hf : e.2.failedOnce <;> simp [hold]
    · rw [if_neg hk]
      split
      · exact Dict.get?_set_of_ne _ _ hk
      · rfl

/-- The tick in which the loop sees a failure is the one the station was marked with. -/
theorem Noted.advanced (h : Noted run) (hadvance : run.economy.advanceTick = .ok economy) :
    Noted { run with economy := economy, failedAt := noteFailures economy run.failedAt } := by
  have hticked := advanceTick_eq_ticked h.book.distinct hadvance
  have hafter :
      ∀ stationId, economy.stations.get? stationId = (run.economy.stations.get? stationId).map
      (SimStation.afterTick run.economy.rules (run.economy.tick + 1)) := by
    intro stationId
    rw [hticked]
    exact Dict.get?_mapValues _ _ _
  have htick : economy.tick = run.economy.tick + 1 := by rw [hticked]; rfl
  refine ⟨hticked ▸ h.book.ticked, fun stationId s hs => ?_, fun stationId =>
    ?_, fun stationId => ?_⟩
  · obtain ⟨s₀, hs₀, rfl⟩ := Option.map_eq_some_iff.mp ((hafter stationId).symm.trans hs)
    exact (SimStation.afterTick_marked _ _ (h.marked stationId s₀ hs₀)).1
  · show (noteFailures economy run.failedAt).get? stationId = _
    rw [noteFailures_get?, h.noted, hafter]
    cases hget : run.economy.stations.get? stationId with
    | none => rfl
    | some s =>
      obtain ⟨_, hfirst⟩ := SimStation.afterTick_marked run.economy.rules (run.economy.tick + 1)
        (h.marked stationId s hget)
      simp only [Option.bind_some, Option.map_some, hfirst, htick]
  · show (run.roster.get? stationId).isSome = _
    rw [h.roster, hafter, Option.isSome_map]

theorem Noted.worldTick (h : Noted run) (hworld : worldTick act produce run tick = .ok run') :
    Noted run' := by
  obtain ⟨set, hset, hworld⟩ := bind_eq_ok_iff.mp hworld
  obtain ⟨played, hplayed, hworld⟩ := bind_eq_ok_iff.mp hworld
  obtain ⟨economy, hadvance, hworld⟩ := bind_eq_ok_iff.mp hworld
  cases Except.ok.inj hworld
  exact ((h.setProduction hset).playTurns hplayed).advanced hadvance

theorem Noted.worldTicks {ticks : List Nat} (h : Noted run)
    (hworld : ticks.foldlM (SpaceportBazaar.worldTick act produce) run = .ok run') :
    Noted run' := by
  induction ticks generalizing run with
  | nil =>
    cases Except.ok.inj hworld
    exact h
  | cons tick ticks ih =>
    rw [List.foldlM_cons] at hworld
    obtain ⟨next, hnext, hworld⟩ := bind_eq_ok_iff.mp hworld
    exact ih (h.worldTick hnext) hworld

/-- A world starts with nobody failed. -/
theorem startingStation_fresh {stock : List Int} {i : Nat} {stationId : String} {s : SimStation}
    (h : startingStation stock i stationId = .ok s) :
    s.stationId = stationId ∧ s.failedOnce = false ∧ s.firstFailureTick = none := by
  unfold startingStation at h
  split at h
  next => cases h
  next units _ =>
    cases hmake : Bundle.make fun _ => units with
    | error w =>
      rw [hmake] at h
      cases h
    | ok inventory =>
      rw [hmake] at h
      cases Except.ok.inj h
      exact ⟨rfl, rfl, rfl⟩

theorem mapM_id_ok {ω α : Type} {xs : List (Except ω α)} {ys : List α} (h : xs.mapM id = .ok ys) :
    xs = ys.map .ok := by
  induction xs generalizing ys with
  | nil =>
    cases Except.ok.inj h
    rfl
  | cons x xs ih =>
    rw [List.mapM_cons] at h
    obtain ⟨y, hy, h⟩ := bind_eq_ok_iff.mp h
    obtain ⟨rest, hrest, h⟩ := bind_eq_ok_iff.mp h
    cases Except.ok.inj h
    rw [List.map_cons, ← ih hrest]
    exact congrArg (· :: xs) hy

theorem startWorld_noted {players : List π} {startingStock : Option (List Int)} {rules : Rules}
    (h : startWorld players startingStock rules = .ok run) : Noted run := by
  obtain ⟨stations, hstations, h⟩ := bind_eq_ok_iff.mp h
  cases Except.ok.inj h
  generalize Dict.ofList (players.mapIdx fun i p => (planetId i, p)) = roster at hstations ⊢
  have hall := mapM_id_ok hstations
  have hlength : roster.keys.length = stations.length := by simpa using congrArg List.length hall
  have hfresh : ∀ i (hi : i < stations.length), stations[i].stationId = roster.keys[i] ∧
      stations[i].failedOnce = false ∧ stations[i].firstFailureTick = none := by
    intro i hi
    have hat := congrArg (fun l => l[i]?) hall
    simp only [List.getElem?_mapIdx, List.getElem?_map, List.getElem?_eq_getElem hi,
      List.getElem?_eq_getElem (hlength ▸ hi), Option.map_some, Option.some.injEq] at hat
    exact startingStation_fresh hat
  have hkeys : stations.map SimStation.stationId = roster.keys := by
    apply List.ext_getElem (by simpa using hlength.symm)
    intro i hi hj
    rw [List.getElem_map]
    exact (hfresh i (by simpa using hi)).1
  have hpairs : (stations.map fun s => (s.stationId, s)).map Prod.fst = roster.keys := by
    rw [List.map_map, ← hkeys]
    rfl
  have hget : ∀ stationId s, (create stations rules "sim").stations.get? stationId = some s →
      s ∈ stations ∧ s.stationId = stationId := by
    intro stationId s hs
    obtain ⟨t, ht, heq⟩ := List.mem_map.mp (Dict.mem_of_get?_ofList hs)
    obtain ⟨hid, rfl⟩ := Prod.mk.inj heq
    exact ⟨ht, hid⟩
  have hclean : ∀ s ∈ stations, s.failedOnce = false ∧ s.firstFailureTick = none := by
    intro s hs
    obtain ⟨i, hi, rfl⟩ := List.getElem_of_mem hs
    exact (hfresh i hi).2
  refine ⟨Book.create stations rules "sim", fun stationId s hs => ?_, fun stationId =>
    ?_, fun stationId => ?_⟩
  · obtain ⟨hf, ht⟩ := hclean s (hget stationId s hs).1
    rw [hf, ht]
    rfl
  · show (Dict.empty : Dict String Nat).get? stationId = _
    cases hs : (create stations rules "sim").stations.get? stationId with
    | none => rfl
    | some s => exact (hclean s (hget stationId s hs).1).2.symm
  · show (roster.get? stationId).isSome =
      ((create stations rules "sim").stations.get? stationId).isSome
    rw [Bool.eq_iff_iff, Option.isSome_iff_exists, Option.isSome_iff_exists, ← Dict.mem_keys_iff,
      ← hkeys, List.mem_map]
    constructor
    · rintro ⟨s, hs, rfl⟩
      exact ⟨s, Dict.get?_ofList_of_mem (hpairs ▸ roster.keys_nodup)
        (List.mem_map.mpr ⟨s, hs, rfl⟩)⟩
    · rintro ⟨s, hs⟩
      exact ⟨s, hget stationId s hs⟩

theorem runWorld_noted
    {players : List π} {ticks : Nat} {phaseOffset : Int} {production : Option Production}
    {startingStock : Option (List Int)} {rules : Rules} {outcome : WorldOutcome π}
    (h : runWorld act players ticks phaseOffset production startingStock rules = .ok outcome) :
    Noted ⟨outcome.economy, outcome.roster, outcome.failedAt⟩ ∧ outcome.ticks = ticks := by
  obtain ⟨start, hstart, h⟩ := bind_eq_ok_iff.mp h
  obtain ⟨run, hrun, h⟩ := bind_eq_ok_iff.mp h
  cases Except.ok.inj h
  have hticks : (List.range ticks).foldlM
      (SpaceportBazaar.worldTick act (production.getD (runTwoProduction phaseOffset)))
      start = .ok run := by
    cases hfold : (List.range ticks).foldlM
        (SpaceportBazaar.worldTick act (production.getD (runTwoProduction phaseOffset))) start with
    | error w =>
      rw [hfold] at hrun
      cases hrun
    | ok final =>
      rw [hfold] at hrun
      exact congrArg Except.ok (Except.ok.inj hrun)
  exact ⟨(startWorld_noted hstart).worldTicks hticks, rfl⟩

end Failures

section Scores

variable {π : Type} {run : WorldRun π} {economy : SimulatedEconomy}

theorem failedStations_get? (economy : SimulatedEconomy) (stationId : String) :
    (failedStations economy).get? stationId =
      (economy.stations.get? stationId).bind fun s =>
  if s.failedOnce then some s.firstFailureTick else none := by
  have hnodup : (((economy.stations.entries.filter (fun e => e.2.failedOnce)).map
      (fun e => (e.1, e.2.firstFailureTick))).map Prod.fst).Nodup := by
    rw [List.map_map]
    exact economy.stations.nodup.sublist (List.filter_sublist.map _)
  cases hknown : (failedStations economy).get? stationId with
  | some first =>
    obtain ⟨e, he, heq⟩ := List.mem_map.mp (Dict.mem_of_get?_ofList hknown)
    obtain ⟨rfl, rfl⟩ := Prod.mk.inj heq
    obtain ⟨hmem, hf⟩ := List.mem_filter.mp he
    rw [Dict.mem_entries_iff.mp (show (e.1, e.2) ∈ economy.stations.entries from hmem)]
    simp [hf]
  | none =>
    cases hs : economy.stations.get? stationId with
    | none => rfl
    | some s =>
      cases hf : s.failedOnce with
      | false => simp [hf]
      | true =>
        have hmem : (stationId, s.firstFailureTick) ∈
            (economy.stations.entries.filter (fun e => e.2.failedOnce)).map
            (fun e => (e.1, e.2.firstFailureTick)) :=
          List.mem_map.mpr
            ⟨(stationId, s), List.mem_filter.mpr ⟨Dict.mem_entries_iff.mpr hs, hf⟩, rfl⟩
        have hget := Dict.get?_ofList_of_mem hnodup hmem
        rw [show (failedStations economy).get? stationId = _ from hget] at hknown
        cases hknown

/-- A score looks at the failures only key by key. -/
theorem scoreEconomy_congr {failedAt failedAt' : Dict String (Option Nat)}
    (h : ∀ stationId, failedAt.get? stationId = failedAt'.get? stationId) (ticks : Nat)
    (subject : Option String) :
    scoreEconomy economy ticks subject (some failedAt) = scoreEconomy economy ticks subject
      (some failedAt') := by
  have hsize : failedAt.size = failedAt'.size := Dict.size_congr fun k => by rw [h k]
  have halive : aliveFor failedAt ticks = aliveFor failedAt' ticks := by
    funext stationId
    unfold aliveFor
    rw [h]
  have hcontains : failedAt.contains = failedAt'.contains := by
    funext stationId
    unfold Dict.contains
    rw [h]
  simp only [scoreEconomy, Option.getD_some, hsize, halive, hcontains]

theorem Noted.failedStations (h : Noted run) (stationId : String) :
    (run.failedAt.mapValues some).get? stationId =
      (SpaceportBazaar.failedStations run.economy).get? stationId := by
  rw [Dict.get?_mapValues, h.noted, failedStations_get?]
  cases hs : run.economy.stations.get? stationId with
  | none => rfl
  | some s =>
    have hmarked := h.marked stationId s hs
    cases hfirst : s.firstFailureTick <;> simp [hmarked, hfirst]

theorem Noted.score (h : Noted run) (ticks : Nat) (subject : Option String) :
    scoreEconomy run.economy ticks subject (some (run.failedAt.mapValues some)) =
      scoreEconomy run.economy ticks subject :=
  scoreEconomy_congr h.failedStations ticks subject

theorem mapM_aliveFor (failedAt : Dict String Nat) (ticks : Nat) (stationIds : List String) :
    stationIds.mapM (aliveFor (failedAt.mapValues some) ticks) =
      .ok (stationIds.map fun stationId => (failedAt.get? stationId).getD ticks) := by
  have hone : ∀ stationId, aliveFor (failedAt.mapValues some) ticks stationId =
      .ok ((failedAt.get? stationId).getD ticks) := by
    intro stationId
    unfold aliveFor
    rw [Dict.get?_mapValues]
    cases failedAt.get? stationId <;> rfl
  induction stationIds with
  | nil => rfl
  | cons stationId stationIds ih =>
    rw [List.mapM_cons, hone, ih]
    rfl

/-- With nobody to look at in particular, a score never fails. -/
theorem scoreEconomy_world (economy : SimulatedEconomy) (failedAt : Dict String Nat) (ticks : Nat) :
    scoreEconomy economy ticks none (some (failedAt.mapValues some)) = .ok {
      planets := economy.stations.size
      collectiveSuccess := decide (failedAt.size = 0)
      survivors := economy.stations.size - failedAt.size
      worldAliveTicks :=
      (economy.stations.keys.map fun stationId => (failedAt.get? stationId).getD ticks).sum
      shortageTicks := (economy.stations.values.map SimStation.shortageTicks).sum
      unmetUnits := (economy.stations.values.map (fun s => s.unmetTotal.total)).sum
      subjectSurvived := none
      subjectHealth := none } := by
  have halive := mapM_aliveFor failedAt ticks economy.stations.keys
  have hsize : (failedAt.mapValues some).size = failedAt.size := by simp [Dict.size, Dict.mapValues]
  simp only [scoreEconomy, Option.getD_some, halive, hsize]
  rfl

theorem Noted.failedAt_iff (h : Noted run) (stationId : String) (tick : Nat) :
    run.failedAt.get? stationId = some tick ↔
      ∃ s, run.economy.stations.get? stationId = some s ∧ s.failedOnce = true ∧
      s.firstFailureTick = some tick := by
  rw [h.noted, Option.bind_eq_some_iff]
  refine exists_congr fun s => and_congr_right fun hs =>
    ⟨fun hfirst => ⟨?_, hfirst⟩, fun hfirst => hfirst.2⟩
  rw [h.marked stationId s hs, hfirst]
  rfl

theorem Noted.failed_iff (h : Noted run) {stationId : String} {s : SimStation}
    (hs : run.economy.stations.get? stationId = some s) :
    (run.failedAt.get? stationId).isSome = s.failedOnce := by
  rw [h.noted, hs, h.marked stationId s hs]
  rfl

/-- Nobody has been noted just when nobody has failed. -/
theorem Noted.collective (h : Noted run) :
    decide (run.failedAt.size = 0) = !run.economy.stations.values.any SimStation.failedOnce := by
  have hempty :
      run.failedAt.size = 0 ↔ ∀ stationId, (run.failedAt.get? stationId).isSome = false := by
    show run.failedAt.entries.length = 0 ↔ _
    rw [List.length_eq_zero_iff]
    constructor
    · intro hnil stationId
      unfold Dict.get?
      rw [hnil]
      rfl
    · intro hnone
      refine List.eq_nil_iff_forall_not_mem.mpr fun e he => ?_
      have hget := Dict.mem_entries_iff.mp (show (e.1, e.2) ∈ run.failedAt.entries from he)
      have habsent := hnone e.1
      rw [hget] at habsent
      cases habsent
  rw [Bool.eq_iff_iff, decide_eq_true_iff, hempty, Bool.not_eq_true', List.any_eq_false]
  constructor
  · intro hnone s hs
    obtain ⟨stationId, hget⟩ := Dict.mem_values_iff.mp hs
    rw [← h.failed_iff hget, hnone stationId]
    exact Bool.false_ne_true
  · intro halive stationId
    cases hget : run.economy.stations.get? stationId with
    | none =>
      rw [h.noted, hget]
      rfl
    | some s =>
      have hs := halive s (Dict.mem_values_iff.mpr ⟨stationId, hget⟩)
      rw [h.failed_iff hget]
      simpa using hs

end Scores

section Outcome

variable {π : Type} {act : π → Snapshot → Except Raised (List Action × π)}
  {players : List π} {ticks : Nat} {phaseOffset : Int} {production : Option Production}
  {startingStock : Option (List Int)} {rules : Rules} {outcome : WorldOutcome π}

theorem survivors_iff (h : Noted ⟨outcome.economy, outcome.roster, outcome.failedAt⟩)
    (stationId : String) :
    stationId ∈ outcome.survivors ↔ ∃ s, outcome.economy.stations.get? stationId = some s ∧
    s.failedOnce = false := by
  have hroster := h.roster stationId
  unfold WorldOutcome.survivors
  rw [Finset.mem_sdiff, List.mem_toFinset, List.mem_toFinset, Dict.mem_keys_iff, Dict.mem_keys_iff,
    ← Option.isSome_iff_exists, ← Option.isSome_iff_exists, hroster]
  cases hget : outcome.economy.stations.get? stationId with
  | none => simp
  | some s =>
    have hfailed : (outcome.failedAt.get? stationId).isSome = s.failedOnce := h.failed_iff hget
    simp [hfailed]

/-- The planets of the roster are the planets of the economy. -/
theorem roster_perm (h : Noted ⟨outcome.economy, outcome.roster, outcome.failedAt⟩) :
    outcome.roster.keys.Perm outcome.economy.stations.keys := by
  refine (List.perm_ext_iff_of_nodup outcome.roster.keys_nodup
    outcome.economy.stations.keys_nodup).mpr fun stationId => ?_
  rw [Dict.mem_keys_iff, Dict.mem_keys_iff, ← Option.isSome_iff_exists, ← Option.isSome_iff_exists,
    h.roster stationId]

theorem survivors_card (h : Noted ⟨outcome.economy, outcome.roster, outcome.failedAt⟩) :
    (outcome.economy.stations.size : Int) - outcome.failedAt.size = outcome.survivors.card := by
  have hsize : ∀ {α : Type} (d : Dict String α), d.keys.toFinset.card = d.size := by
    intro α d
    rw [List.toFinset_card_of_nodup d.keys_nodup]
    simp [Dict.keys, Dict.size]
  have hsub : outcome.failedAt.keys.toFinset ⊆ outcome.roster.keys.toFinset := by
    intro stationId hmem
    rw [List.mem_toFinset, Dict.mem_keys_iff] at hmem ⊢
    obtain ⟨tick, htick⟩ := hmem
    obtain ⟨s, hs, _⟩ := (h.failedAt_iff stationId tick).mp htick
    have hroster := h.roster stationId
    rw [← Option.isSome_iff_exists]
    rw [hs] at hroster
    exact hroster
  have hcard := Finset.card_sdiff_add_card_eq_card hsub
  have hplanets : outcome.roster.keys.toFinset.card = outcome.economy.stations.size := by
    rw [hsize]
    exact Dict.size_congr h.roster
  unfold WorldOutcome.survivors
  rw [hplanets, hsize] at hcard
  omega

/-- The failures a run noted are those its stations tell, so its score is the one the
economy alone gives. -/
theorem runWorld_score
    (h : runWorld act players ticks phaseOffset production startingStock rules = .ok outcome) :
    (∀ stationId tick, outcome.failedAt.get? stationId = some tick ↔ ∃ s,
      outcome.economy.stations.get? stationId = some s ∧ s.failedOnce = true ∧
      s.firstFailureTick = some tick) ∧
    (∀ stationId s, outcome.economy.stations.get? stationId = some s →
      (outcome.failedAt.get? stationId).isSome = s.failedOnce ∧
        outcome.aliveTicks stationId = s.firstFailureTick.getD ticks) ∧
    (∀ subject, outcome.score subject = scoreEconomy outcome.economy ticks subject) ∧
    (ticks = outcome.economy.rules.durationTicks → outcome.score = reportScore outcome.economy) ∧
    (∀ stationId, stationId ∈ outcome.survivors ↔
      ∃ s, outcome.economy.stations.get? stationId = some s ∧ s.failedOnce = false) ∧
    ∃ score, scoreEconomy outcome.economy ticks = .ok score ∧
      score.survivors = outcome.survivors.card ∧
      score.worldAliveTicks = outcome.worldAliveTicks ∧
      score.collectiveSuccess = !outcome.economy.stations.values.any SimStation.failedOnce := by
  obtain ⟨hnoted, rfl⟩ := runWorld_noted h
  have hscore :
      ∀ subject, outcome.score subject = scoreEconomy outcome.economy outcome.ticks subject :=
    fun subject => hnoted.score outcome.ticks subject
  refine ⟨hnoted.failedAt_iff, fun stationId s hs => ⟨hnoted.failed_iff hs, ?_⟩, hscore,
    fun hduration => ?_, survivors_iff hnoted, ?_⟩
  · have hfirst : outcome.failedAt.get? stationId = s.firstFailureTick := by
      rw [hnoted.noted stationId, hs]
      rfl
    unfold WorldOutcome.aliveTicks
    rw [hfirst]
  · rw [hscore, hduration]
    rfl
  · have hsum :
        (outcome.economy.stations.keys.map outcome.aliveTicks).sum = outcome.worldAliveTicks :=
      ((roster_perm hnoted).map _).sum_eq.symm
    rw [← hscore none, show outcome.score =
      _ from scoreEconomy_world outcome.economy outcome.failedAt outcome.ticks]
    exact ⟨_, rfl, survivors_card hnoted, hsum, hnoted.collective⟩

/-- Three planets that never trade and start with one unit of each resource. -/
def idleWorld : Except WorldError (WorldOutcome Unit) :=
  runWorld (fun player _ => .ok ([], player)) [(), (), ()] 12 0 none (some [1, 1, 1])

theorem idleWorld_score :
    ∃ outcome, idleWorld = .ok outcome ∧ outcome.failedAt.get? "P01" = some 11 ∧
    outcome.score = scoreEconomy outcome.economy 12 := by
  have hfails :
      idleWorld.toOption.map (fun outcome => outcome.failedAt.get? "P01") = some (some 11) := by
    decide +kernel
  obtain ⟨outcome, hoption, hfirst⟩ := Option.map_eq_some_iff.mp hfails
  have hrun : idleWorld = .ok outcome := by
    cases hworld : idleWorld with
    | error w =>
      rw [hworld] at hoption
      cases hoption
    | ok final =>
      rw [hworld] at hoption
      exact congrArg Except.ok (Option.some.inj hoption)
  exact ⟨outcome, hrun, hfirst, (runWorld_score hrun).2.2.1 none⟩

end Outcome

end SpaceportBazaar
