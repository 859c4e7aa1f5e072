import SpaceportBazaar.WorldFailure

namespace SpaceportBazaar

open SimulatedEconomy

/-- The number is the tail of the id. -/
theorem planetId_number (i : Nat) : Nat.ofDigitChars 10 ((planetId i).toList.drop 1) 0 = i + 1 := by
  unfold planetId
  split
  · have hzero : ("P0" ++ toString (i + 1)).toList.drop 1 = '0' :: Nat.toDigits 10 (i + 1) := by
      simp [Nat.toList_repr]
    rw [hzero, Nat.ofDigitChars_cons]
    exact Nat.ofDigitChars_ten_toDigits
  · have hone : ("P" ++ toString (i + 1)).toList.drop 1 = Nat.toDigits 10 (i + 1) := by
      simp [Nat.toList_repr]
    rw [hone]
    exact Nat.ofDigitChars_ten_toDigits

theorem planetId_injective : Function.Injective planetId := by
  intro i j h
  have hi := planetId_number i
  rw [h, planetId_number j] at hi
  omega

theorem mapM_eq_ok {α β : Type} {f : α → Except Raised β} {xs : List α} {ys : List β}
    (h : xs.mapM f = .ok ys) :
    xs.map f = ys.map .ok := by
  induction xs generalizing ys with
  | nil =>
    cases Except.ok.inj h
    rfl
  | cons x xs ih =>
    rw [List.mapM_cons] at h
    obtain ⟨y, hy, h⟩ := bind_eq_ok_iff.mp h
    obtain ⟨rest, hrest, h⟩ := bind_eq_ok_iff.mp h
    cases Except.ok.inj h
    rw [List.map_cons, List.map_cons, hy, ih hrest]

/-- Sums over two lists whose members agree in pairs. -/
theorem sum_of_forall₂ {α β M : Type}
    [AddCommMonoid M] {R : α → β → Prop} {vs : List α} {ws : List β} {f h : α → M} {g : β → M}
    (pairs : List.Forall₂ R vs ws) (agree : ∀ v w, R v w → f v = g w + h v) :
    (vs.map f).sum = (ws.map g).sum + (vs.map h).sum := by
  induction pairs with
  | nil => simp
  | cons hvw _ ih =>
    simp only [List.map_cons, List.sum_cons, agree _ _ hvw, ih]
    exact add_add_add_comm _ _ _ _

section Stock

/-- What the stations hold together. -/
def SimulatedEconomy.stock (e : SimulatedEconomy) : Bundle :=
  (e.stations.values.map SimStation.inventory).sum

/-- The upkeep that went unmet, all stations together. -/
def SimulatedEconomy.unmet (e : SimulatedEconomy) : Bundle :=
  (e.stations.values.map SimStation.unmetTotal).sum

/-- What a station makes and what it has made. -/
def SimStation.output (s : SimStation) : Resource × Bundle := (s.specialty, s.producedTotal)

/-- The same for the planet of a place, after some ticks of a production. -/
def outputAt (made : Nat → Nat → Int) (ticks i : Nat) : Resource × Bundle :=
  (specialtyOf i, Bundle.only (specialtyOf i) (∑ tick ∈ Finset.range ticks, made tick i).toNat)

/-- What a turn of a player leaves of the economy. -/
structure Played (e e' : SimulatedEconomy) : Prop where
  kept : Kept e e'
  tick : e'.tick = e.tick
  ledger : ∀ e₀, Ledger e₀ e → Ledger e₀ e'

variable {π : Type} {act : π → Snapshot → Except Raised (List Action × π)} {run run' : WorldRun π}
  {e₀ e e' : SimulatedEconomy}

theorem Played.refl (e : SimulatedEconomy) : Played e e := ⟨Kept.of_eq rfl, rfl, fun _ h => h⟩

theorem Played.trans {e'' : SimulatedEconomy} (h : Played e e')
    (h' : Played e' e'') : Played e e'' :=
  ⟨h.kept.trans h'.kept, h'.tick.trans h.tick, fun e₀ hledger => h'.ledger e₀ (h.ledger e₀ hledger)⟩

theorem apply_played {stationId : String} {actions : List Action}
    {outs : List (Action × CommandOutcome)} (book : Book e)
    (h : e.apply stationId actions = .ok (outs, e')) : Played e e' := by
  obtain ⟨⟨outs', m⟩, hbatch, hm⟩ := bind_eq_ok_iff.mp h
  obtain ⟨_, rfl⟩ := Prod.mk.inj (Except.ok.inj hm)
  have htick : m.tick = e.tick := applyActions_tick hbatch
  refine ⟨(applyActions_kept book hbatch).trans (Kept.of_eq rfl), htick, fun e₀ ledger => ?_⟩
  have hall : Book m ∧ Ledger e₀ m := by
    refine applyActions_invariant (I := fun _ a => Book a ∧ Ledger e₀ a) ?_ ?_ []
      ⟨book, ledger⟩ hbatch
    · rintro _ a _ _ _ b ⟨ha, hl⟩ hx
      exact ⟨ha.executed hx, hl.executed ha hx⟩
    · rintro _ a _ _ ⟨ha, hl⟩
      exact ⟨ha.frame rfl rfl rfl rfl le_rfl, hl.frame rfl rfl rfl⟩
  exact hall.2.frame rfl rfl rfl

theorem playTurn_played {turn : String × π} (book : Book run.economy)
    (h : playTurn act run turn = .ok run') :
    Played run.economy run'.economy := by
  obtain ⟨s, _, h⟩ := bind_eq_ok_iff.mp h
  split at h
  next =>
    cases Except.ok.inj h
    exact .refl _
  next =>
    obtain ⟨⟨snapshot, viewed⟩, hview, h⟩ := bind_eq_ok_iff.mp h
    obtain ⟨⟨actions, player⟩, _, h⟩ := bind_eq_ok_iff.mp h
    obtain ⟨⟨outs, economy⟩, happly, h⟩ := bind_eq_ok_iff.mp h
    cases Except.ok.inj h
    obtain ⟨_, n, _, rfl⟩ := observationFor_views hview
    have hviewed : Played run.economy { run.economy with sequence := n } :=
      ⟨Kept.of_eq rfl, rfl, fun _ hledger => hledger.frame rfl rfl rfl⟩
    exact hviewed.trans (apply_played (book.frame rfl rfl rfl rfl le_rfl) happly)

theorem playTurns_played {turns : List (String × π)} (noted : Noted run)
    (h : turns.foldlM (playTurn act) run = .ok run') : Played run.economy run'.economy := by
  induction turns generalizing run with
  | nil =>
    cases Except.ok.inj h
    exact .refl _
  | cons turn turns ih =>
    rw [List.foldlM_cons] at h
    obtain ⟨next, hnext, h⟩ := bind_eq_ok_iff.mp h
    exact (playTurn_played noted.book hnext).trans (ih (noted.playTurn hnext) h)

/-- A tick that came about found no station with a negative output. -/
theorem advanceTick_production (h : e.advanceTick = .ok e') :
    ∀ s ∈ e.stations.values, 0 ≤ s.production := by
  obtain ⟨stations, hstations, _⟩ := bind_eq_ok_iff.mp h
  intro s hs
  have hsame : e.beginTick.expire.stations = e.stations := by
    unfold expire
    rw [closeWhere_frame]
    rfl
  obtain ⟨_, hw⟩ := Dict.traverse_each hstations s (hsame ▸ hs)
  exact (SimStation.settleTick_eq_ok_iff.mp hw).1

/-- The world after some ticks, against the one it started as. -/
structure Stocked (produce : Production) (made : Nat → Nat → Int) (planets ticks : Nat)
    (e₀ : SimulatedEconomy) (run : WorldRun π) : Prop where
  noted : Noted run
  ledger : Ledger e₀ run.economy
  tick : run.economy.tick = ticks
  outputs : run.economy.stations.values.map SimStation.output =
    (List.range planets).map (outputAt made ticks)
  makes : ∀ tick < ticks, ∀ i < planets, produce tick i = .ok (made tick i)
  positive : ∀ tick < ticks, ∀ i < planets, 0 ≤ made tick i

/-- What a production makes, where it makes anything. -/
def Production.made (produce : Production) (tick i : Nat) : Int := (produce tick i).toOption.getD 0

/-- Every station gets the output of its place. -/
theorem setProduction_values {produce : Production} {tick : Nat}
    (h : setProduction produce tick e = .ok e') :
    (∀ i < e.stations.size, produce tick i = .ok (produce.made tick i)) ∧
      e'.stations.keys = e.stations.keys ∧
      e'.stations.values = e.stations.values.mapIdx
        (fun i s => { s with production := produce.made tick i }) := by
  obtain ⟨outputs, houtputs, h⟩ := bind_eq_ok_iff.mp h
  cases Except.ok.inj h
  have hall := mapM_eq_ok houtputs
  have hat : ∀ i < e.stations.size, outputs[i]?.map Except.ok = some (produce tick i) := by
    intro i hi
    have hboth := congrArg (fun l => l[i]?) hall
    simpa [hi] using hboth.symm
  have hmade : ∀ i < e.stations.size, produce tick i = .ok (produce.made tick i) ∧
      outputs[i]?.getD 0 = produce.made tick i := by
    intro i hi
    obtain ⟨units, hunits, hok⟩ := Option.map_eq_some_iff.mp (hat i hi)
    have hmakes : produce.made tick i = units := by
      rw [Production.made, ← hok]
      rfl
    exact ⟨by rw [hmakes, hok], by rw [hunits, hmakes]; rfl⟩
  refine ⟨fun i hi => (hmade i hi).1, Dict.keys_mapIdxValues _ _, ?_⟩
  rw [Dict.values_mapIdxValues]
  refine List.ext_getElem (by simp) fun i hi _ => ?_
  have hi : i < e.stations.size := by simpa [Dict.values, Dict.size] using hi
  simp [(hmade i hi).2]

theorem setProduction_ledger {produce : Production} {tick : Nat} (ledger : Ledger e₀ e)
    (h : setProduction produce tick e = .ok e')
    (positive : ∀ k s, e'.stations.get? k = some s → 0 ≤ s.production) :
    Ledger e₀ e' := by
  obtain ⟨_, hkeys, hvalues⟩ := setProduction_values h
  obtain ⟨outputs, _, h⟩ := bind_eq_ok_iff.mp h
  have hframe : e'.tick = e.tick ∧ e'.transactions = e.transactions := by
    cases Except.ok.inj h
    exact ⟨rfl, rfl⟩
  have hback : ∀ k s', e'.stations.get? k = some s' → ∃ s units, e.stations.get? k = some s ∧
      s' = { s with production := units } := by
    intro k s' hs'
    cases Except.ok.inj h
    obtain ⟨i, s, hs, rfl⟩ := Dict.get?_mapIdxValues hs'
    exact ⟨s, _, hs, rfl⟩
  refine ⟨hkeys.trans ledger.keys, fun k s' hs' => ?_, fun k s' hs' => ?_, fun k s' hs' => ?_, ?_⟩
  · have hpositive := positive k s' hs'
    obtain ⟨s, units, hs, rfl⟩ := hback k s' hs'
    obtain ⟨s₀, hs₀, ha⟩ := ledger.accounts k s hs
    rw [hframe.1]
    exact ⟨s₀, hs₀, ha.goods, ha.demand, ha.upkeep, hpositive⟩
  · obtain ⟨s, units, hs, rfl⟩ := hback k s' hs'
    rw [hframe.2]
    exact ledger.imported k s hs
  · obtain ⟨s, units, hs, rfl⟩ := hback k s' hs'
    rw [hframe.2]
    exact ledger.exported k s hs
  · have himported :
        e'.stations.values.map SimStation.imported = e.stations.values.map SimStation.imported := by
      rw [hvalues]
      exact List.ext_getElem (by simp) fun i hi _ => by simp
    have hexported :
        e'.stations.values.map SimStation.exported = e.stations.values.map SimStation.exported := by
      rw [hvalues]
      exact List.ext_getElem (by simp) fun i hi _ => by simp
    rw [himported, hexported]
    exact ledger.world

theorem Kept.values_map {α : Type} {f : SimStation → α}
    (h : Kept e e') (keys : e'.stations.keys = e.stations.keys)
    (same : ∀ s s' : SimStation, s.Kept s' → f s' = f s) :
    e'.stations.values.map f = e.stations.values.map f := by
  have hpairs := Dict.values_congr keys
  generalize e'.stations.values = vs at hpairs
  generalize e.stations.values = ws at hpairs
  induction hpairs with
  | nil => rfl
  | @cons v w _ _ hboth _ ih =>
    obtain ⟨k, hv, hw⟩ := hboth
    obtain ⟨v', hv', hkept⟩ := h.forth hw
    cases hv.symm.trans hv'
    rw [List.map_cons, List.map_cons, same w v hkept, ih]

theorem outputAt_next {made : Nat → Nat → Int} {ticks i : Nat}
    (positive : ∀ tick ≤ ticks, 0 ≤ made tick i) :
    (specialtyOf i, (outputAt made ticks i).2 + Bundle.only (specialtyOf i) (made ticks i).toNat) =
      outputAt made (ticks + 1) i := by
  have hsum : 0 ≤ ∑ tick ∈ Finset.range ticks, made tick i :=
    Finset.sum_nonneg fun tick htick => positive tick (Finset.mem_range.mp htick).le
  have hlast := positive ticks le_rfl
  refine Prod.ext rfl (Bundle.ext_get fun r => ?_)
  simp only [outputAt, Bundle.get_add, Finset.sum_range_succ, Bundle.get_only]
  split
  · omega
  · rfl

theorem setProduction_outputs {produce : Production} {tick planets : Nat}
    {output : Nat → Resource × Bundle} (h : setProduction produce tick e = .ok e')
    (outputs : e.stations.values.map SimStation.output = (List.range planets).map output) :
    e'.stations.values.map (fun s => (s.output, s.production)) =
      (List.range planets).map (fun i => (output i, produce.made tick i)) := by
  obtain ⟨_, _, hvalues⟩ := setProduction_values h
  have hlength : e.stations.values.length = planets := by simpa using congrArg List.length outputs
  rw [hvalues]
  refine List.ext_getElem (by simpa using hlength) fun i hi hj => ?_
  have hi : i < e.stations.values.length := by simpa using hi
  have hat : e.stations.values[i].output = output i := by
    have hboth := congrArg (fun l => l[i]?) outputs
    simpa [hi, hlength ▸ hi] using hboth
  simp only [List.getElem_map, List.getElem_mapIdx, List.getElem_range, ← hat]
  rfl

/-- What a tick does to a station's output. -/
theorem afterTick_output (rules : Rules) (tick : Nat) (s : SimStation) :
    (s.afterTick rules tick).output =
      (s.output.1, s.output.2 + Bundle.only s.output.1 s.production.toNat) := by
  simp only [SimStation.afterTick]
  split <;> rfl

/-- One tick of the world. -/
theorem Stocked.worldTick {produce : Production}
    {planets ticks : Nat} (h : Stocked produce produce.made planets ticks e₀ run)
    (hworld : worldTick act produce run ticks = .ok run') :
    Stocked produce produce.made planets (ticks + 1) e₀ run' := by
  have hnoted := h.noted.worldTick hworld
  obtain ⟨set, hset, hworld⟩ := bind_eq_ok_iff.mp hworld
  obtain ⟨played, hplayed, hworld⟩ := bind_eq_ok_iff.mp hworld
  obtain ⟨economy, hadvance, hworld⟩ := bind_eq_ok_iff.mp hworld
  cases Except.ok.inj hworld
  have hnotedSet := h.noted.setProduction hset
  have hplays : Played set played.economy := playTurns_played hnotedSet hplayed
  have hticked : economy = played.economy.ticked :=
    advanceTick_eq_ticked (hnotedSet.playTurns hplayed).book.distinct hadvance
  have hsize : run.economy.stations.size = planets := by
    simpa [Dict.values, Dict.size] using congrArg List.length h.outputs
  obtain ⟨hmakes, hkeys, hvalues⟩ := setProduction_values hset
  have hpositive : ∀ k s, set.stations.get? k = some s → 0 ≤ s.production := by
    intro k s hs
    obtain ⟨s', hs', hkept⟩ := hplays.kept.forth hs
    have hlast := advanceTick_production hadvance s' (Dict.mem_values_iff.mpr ⟨k, hs'⟩)
    rw [hkept.goods] at hlast
    exact hlast
  have hledgerSet : Ledger e₀ set := setProduction_ledger h.ledger hset hpositive
  have hledger := hplays.ledger e₀ hledgerSet
  have hkept := hplays.kept.values_map (f := fun s => (s.output, s.production))
    (hledger.keys.trans hledgerSet.keys.symm) fun s s' hs => by rw [hs.goods]; rfl
  rw [setProduction_outputs hset h.outputs] at hkept
  have hpositiveNow : ∀ i < planets, 0 ≤ produce.made ticks i := by
    intro i hi
    have hmem : (outputAt produce.made ticks i, produce.made ticks i) ∈ set.stations.values.map
        (fun s => (s.output, s.production)) := by
      rw [setProduction_outputs hset h.outputs]
      exact List.mem_map.mpr ⟨i, List.mem_range.mpr hi, rfl⟩
    obtain ⟨s, hs, heq⟩ := List.mem_map.mp hmem
    obtain ⟨k, hk⟩ := Dict.mem_values_iff.mp hs
    exact (Prod.mk.inj heq).2 ▸ hpositive k s hk
  have hbelow : ∀ tick < ticks + 1, ∀ i < planets, 0 ≤ produce.made tick i := by
    intro tick htick i hi
    rcases Nat.lt_succ_iff_lt_or_eq.mp htick with hlt | rfl
    · exact h.positive tick hlt i hi
    · exact hpositiveNow i hi
  refine ⟨hnoted, hticked ▸ hledger.ticked, ?_, ?_, fun tick htick i hi => ?_, hbelow⟩
  · show economy.tick = ticks + 1
    rw [hticked, ← h.tick]
    have hset : set.tick = run.economy.tick := by
      obtain ⟨_, _, hset⟩ := bind_eq_ok_iff.mp hset
      cases Except.ok.inj hset
      rfl
    rw [← hset, ← hplays.tick]
    rfl
  · show economy.stations.values.map SimStation.output = _
    rw [hticked]
    simp only [ticked, Dict.values_mapValues, List.map_map]
    have hafter :
        SimStation.output ∘ SimStation.afterTick played.economy.rules (played.economy.tick + 1) =
        (fun p : (Resource × Bundle) × Int => (p.1.1, p.1.2 + Bundle.only p.1.1 p.2.toNat)) ∘
        fun s => (s.output, s.production) :=
      funext fun s => afterTick_output _ _ s
    rw [hafter, ← List.map_map, hkept, List.map_map]
    refine List.map_congr_left fun i hi => ?_
    exact outputAt_next fun tick htick => hbelow tick (by omega) i (List.mem_range.mp hi)
  · rcases Nat.lt_succ_iff_lt_or_eq.mp htick with hlt | rfl
    · exact h.makes tick hlt i hi
    · exact hmakes i (hsize ▸ hi)

theorem Stocked.worldTicks {produce : Production} {planets ticks : Nat}
    (start : Stocked produce produce.made planets 0 e₀ run)
    (h : (List.range ticks).foldlM (SpaceportBazaar.worldTick act produce) run = .ok run') :
    Stocked produce produce.made planets ticks e₀ run' := by
  induction ticks generalizing run' with
  | zero =>
    cases Except.ok.inj h
    exact start
  | succ ticks ih =>
    rw [List.range_succ, List.foldlM_append] at h
    obtain ⟨before, hbefore, h⟩ := bind_eq_ok_iff.mp h
    obtain ⟨after, hafter, h⟩ := bind_eq_ok_iff.mp h
    cases Except.ok.inj h
    exact (ih hbefore).worldTick hafter

variable {players : List π} {startingStock : Option (List Int)} {rules : Rules}

/-- The stations a world starts with, one for each player in the players' order. -/
theorem startWorld_stations (h : startWorld players startingStock rules = .ok run) :
    ∃ inventories : List Bundle, inventories.length = players.length ∧ run.economy = create
      (inventories.mapIdx fun i inventory =>
        { stationId := planetId i, specialty := specialtyOf i, inventory := inventory })
      rules "sim" := by
  obtain ⟨stations, hstations, h⟩ := bind_eq_ok_iff.mp h
  cases Except.ok.inj h
  have hids : (players.mapIdx fun i p => (planetId i, p)).map Prod.fst =
      (List.range players.length).map planetId :=
    List.ext_getElem (by simp) fun i hi _ => by simp
  have hkeys : (Dict.ofList (players.mapIdx fun i p => (planetId i, p))).keys =
      (List.range players.length).map planetId := by
    rw [Dict.keys, Dict.entries_ofList (hids ▸ List.nodup_range.map planetId_injective), hids]
  generalize Dict.ofList (players.mapIdx fun i p => (planetId i, p)) = roster at hstations hkeys ⊢
  have hall := mapM_id_ok hstations
  have hlength :
    stations.length = players.length := by simpa [hkeys] using (congrArg List.length hall).symm
  refine ⟨stations.map SimStation.inventory, by simpa using hlength, ?_⟩
  refine congrArg (fun l => create l rules "sim") (List.ext_getElem (by simp) fun i hi _ => ?_)
  have hat := congrArg (fun l => l[i]?) hall
  simp only [hkeys, List.getElem?_mapIdx, List.getElem?_map, List.getElem?_range (hlength ▸ hi),
    List.getElem?_eq_getElem hi, Option.map_some, Option.some.injEq] at hat
  simp only [List.getElem_mapIdx, List.getElem_map]
  unfold startingStation at hat
  split at hat
  next => cases hat
  next units _ =>
    cases hmake : Bundle.make fun _ => units with
    | error raised =>
      rw [hmake] at hat
      cases hat
    | ok inventory =>
      rw [hmake] at hat
      rw [← Except.ok.inj hat]

theorem startWorld_stocked (produce : Production)
    (h : startWorld players startingStock rules = .ok run) :
    Stocked produce produce.made players.length 0 run.economy run ∧
      ∀ k s, run.economy.stations.get? k = some s → s.upkeep = defaultUpkeep := by
  have hnoted := startWorld_noted h
  obtain ⟨inventories, hlength, heconomy⟩ := startWorld_stations h
  generalize hs : (inventories.mapIdx fun i inventory =>
    ({ stationId := planetId i, specialty := specialtyOf i, inventory := inventory } :
    SimStation)) = stations at heconomy
  have hstations : ∀ s ∈ stations, s.Fresh ∧ s.upkeep = defaultUpkeep := by
    intro s hmem
    rw [← hs] at hmem
    obtain ⟨i, hi, rfl⟩ := List.mem_mapIdx.mp hmem
    exact ⟨⟨rfl, rfl, rfl, rfl, rfl, Int.natCast_nonneg 3⟩, rfl⟩
  have hids : (stations.map fun s => (s.stationId, s)).map Prod.fst =
      (List.range inventories.length).map planetId := by
    rw [← hs]
    exact List.ext_getElem (by simp) fun i hi _ => by simp
  have hvalues : (create stations rules "sim").stations.values = stations := by
    show (Dict.ofList (stations.map fun s => (s.stationId, s))).entries.map Prod.snd = stations
    rw [Dict.entries_ofList (hids ▸ List.nodup_range.map planetId_injective), List.map_map]
    exact List.map_id stations
  rw [heconomy]
  refine ⟨⟨hnoted, heconomy ▸ Ledger.create (fun s hmem => (hstations s hmem).1) rules "sim",
      by rw [heconomy]; rfl, ?_,
    fun tick htick => absurd htick (Nat.not_lt_zero tick), fun tick htick =>
      absurd htick (Nat.not_lt_zero tick)⟩, fun k s hk => ?_⟩
  · rw [heconomy, hvalues, ← hs, ← hlength]
    refine List.ext_getElem (by simp) fun i hi _ => ?_
    simp only [List.getElem_map, List.getElem_mapIdx, List.getElem_range]
    refine Prod.ext rfl (Bundle.ext_get fun r => ?_)
    simp [SimStation.output, outputAt]
  · exact (hstations s (hvalues ▸ Dict.mem_values_iff.mpr ⟨k, hk⟩)).2

theorem producedOver_succ (produce : Production) (producers : List Nat) (ticks : Nat) :
    producedOver produce producers (ticks + 1) =
      producedOver produce producers ticks >>= fun total =>
      producers.foldlM (fun total i => do return total + (← produce ticks i)) total := by
  unfold producedOver
  rw [List.range_succ, List.foldlM_append]
  refine congrArg (_ >>= ·) (funext fun total => ?_)
  exact bind_pure _

theorem producedOver_made {produce : Production} {producers : List Nat} {ticks : Nat}
    (makes : ∀ tick < ticks, ∀ i ∈ producers, produce tick i = .ok (produce.made tick i)) :
    producedOver produce producers ticks =
      .ok (producers.map fun i => ∑ tick ∈ Finset.range ticks, produce.made tick i).sum := by
  induction ticks with
  | zero => simp [producedOver]; rfl
  | succ ticks ih =>
    rw [producedOver_succ, ih fun tick htick => makes tick (by omega)]
    refine (foldlM_add (makes ticks (by omega)) _).trans ?_
    simp only [Finset.sum_range_succ, List.sum_map_add]

theorem sum_of_filter {α : Type} (p : α → Bool) (f : α → Nat) (xs : List α) :
    (xs.map fun x => if p x then f x else 0).sum = ((xs.filter p).map f).sum := by
  induction xs with
  | nil => rfl
  | cons x xs ih =>
    rw [List.map_cons, List.sum_cons, ih, List.filter_cons]
    split <;> simp

/-- What the producers of a resource made is on their books. -/
theorem Stocked.produced {produce : Production} {planets ticks : Nat}
    (h : Stocked produce produce.made planets ticks e₀ run) (r : Resource) :
    producedOver produce (producersOf planets r) ticks =
      .ok ((run.economy.stations.values.map SimStation.producedTotal).sum.get r : Int) := by
  have hproducer : ∀ i ∈ producersOf planets r, i < planets :=
    fun i hi => List.mem_range.mp (List.mem_filter.mp hi).1
  rw [producedOver_made fun tick htick i hi => h.makes tick htick i (hproducer i hi)]
  have hbooks : run.economy.stations.values.map SimStation.producedTotal =
      (List.range planets).map fun i => (outputAt produce.made ticks i).2 := by
    have hsnd := congrArg (fun l => l.map Prod.snd) h.outputs
    simpa [List.map_map, Function.comp_def, SimStation.output] using hsnd
  have hsum : (run.economy.stations.values.map SimStation.producedTotal).sum.get r =
      ((producersOf planets r).map fun i =>
      (∑ tick ∈ Finset.range ticks, produce.made tick i).toNat).sum := by
    rw [hbooks, Bundle.get_sum, List.map_map]
    unfold producersOf
    rw [← sum_of_filter]
    refine congrArg List.sum (List.map_congr_left fun i _ => ?_)
    simp only [Function.comp_apply, outputAt, Bundle.get_only, decide_eq_true_eq]
    by_cases hr : specialtyOf i = r
    · simp [hr]
    · simp [hr, Ne.symm hr]
  rw [hsum, Nat.cast_list_sum, List.map_map]
  refine congrArg (fun l => Except.ok (List.sum l)) (List.map_congr_left fun i hi => ?_)
  have hpositive : 0 ≤ ∑ tick ∈ Finset.range ticks, produce.made tick i :=
    Finset.sum_nonneg fun tick htick =>
      h.positive tick (Finset.mem_range.mp htick) i (hproducer i hi)
  exact (Int.toNat_of_nonneg hpositive).symm

/-- Goods come into the world as output and leave it as upkeep; trading moves them about. -/
theorem Ledger.stock (h : Ledger e₀ e)
    (upkeep : ∀ k s, e₀.stations.get? k = some s → s.upkeep = defaultUpkeep) (r : Resource) :
    e.stock.get r + e.tick * e.stations.size =
      e₀.stock.get r + (e.stations.values.map SimStation.producedTotal).sum.get r +
        e.unmet.get r := by
  have hpairs := Dict.values_congr h.keys
  have hgoods := sum_of_forall₂ (f := fun s => s.inventory + s.consumedTotal + s.exported)
      (g := SimStation.inventory)
    (h := fun s => s.producedTotal + s.imported) hpairs fun s s₀ ⟨k, hs, hs₀⟩ => by
      obtain ⟨s₀', hs₀', ha⟩ := h.accounts k s hs
      cases hs₀.symm.trans hs₀'
      rw [ha.goods, add_assoc]
  have hdemand : e.stations.values.map (fun s => s.consumedTotal + s.unmetTotal) =
      e.stations.values.map (fun _ => e.tick • defaultUpkeep) := by
    refine List.map_congr_left fun s hs => ?_
    obtain ⟨k, hk⟩ := Dict.mem_values_iff.mp hs
    obtain ⟨s₀, hs₀, ha⟩ := h.accounts k s hk
    rw [ha.demand, upkeep k s₀ hs₀]
  have hone : (e.stations.values.map (fun _ => e.tick • defaultUpkeep)).sum.get r =
      e.tick * e.stations.size := by
    have hunit : defaultUpkeep.get r = 1 := by cases r <;> rfl
    have hlength : e.stations.values.length = e.stations.size := by simp [Dict.values, Dict.size]
    rw [Bundle.get_sum, List.map_map]
    simp [Function.comp_def, hunit, hlength, Nat.mul_comm]
  have hupkeep := congrArg (fun l => (List.sum l).get r) hdemand
  have hgoods := congrArg (fun b => b.get r) hgoods
  have hworld := congrArg (fun b => b.get r) h.world
  simp only [List.sum_map_add, Bundle.get_add] at hupkeep hgoods
  rw [hone] at hupkeep
  unfold SimulatedEconomy.stock SimulatedEconomy.unmet
  omega

theorem Stocked.stock {produce : Production} {made : Nat → Nat → Int} {planets ticks : Nat}
    {run : WorldRun π} (h : Stocked produce made planets ticks e₀ run)
    (upkeep : ∀ k s, e₀.stations.get? k = some s → s.upkeep = defaultUpkeep) (r : Resource) :
    run.economy.stock.get r + ticks * planets =
      e₀.stock.get r + (run.economy.stations.values.map SimStation.producedTotal).sum.get r +
        run.economy.unmet.get r := by
  have hsize : run.economy.stations.size = planets := by
    simpa [Dict.values, Dict.size] using congrArg List.length h.outputs
  rw [← hsize, ← h.tick]
  exact h.ledger.stock upkeep r

variable {ticks : Nat} {phaseOffset : Int} {production : Option Production}
  {outcome : WorldOutcome π}

theorem runWorld_stocked
    (h : runWorld act players ticks phaseOffset production startingStock rules = .ok outcome) :
    ∃ start : WorldRun π, startWorld players startingStock rules = .ok start ∧
      Stocked (production.getD (runTwoProduction phaseOffset))
        (production.getD (runTwoProduction phaseOffset)).made
        players.length ticks start.economy ⟨outcome.economy, outcome.roster, outcome.failedAt⟩ ∧
      ∀ k s, start.economy.stations.get? k = some s → s.upkeep = defaultUpkeep := by
  obtain ⟨start, hstart, h⟩ := bind_eq_ok_iff.mp h
  obtain ⟨run, hrun, h⟩ := bind_eq_ok_iff.mp h
  cases Except.ok.inj h
  obtain ⟨hstocked, hupkeep⟩ :=
    startWorld_stocked (production.getD (runTwoProduction phaseOffset)) hstart
  cases hfold : (List.range ticks).foldlM
      (SpaceportBazaar.worldTick act (production.getD (runTwoProduction phaseOffset))) start with
  | error raised =>
    rw [hfold] at hrun
    cases hrun
  | ok final =>
    rw [hfold] at hrun
    cases Except.ok.inj hrun
    exact ⟨start, hstart, hstocked.worldTicks hfold, hupkeep⟩

/-- Whoever plays and whatever they trade, the world holds what it held at the start and what
was made since, less the upkeep that was met. -/
theorem runWorld_stock
    (h : runWorld act players ticks phaseOffset production startingStock rules = .ok outcome)
    (r : Resource) :
    ∃ (start : WorldRun π) (total : Int), startWorld players startingStock rules = .ok start ∧
      producedOver (production.getD (runTwoProduction phaseOffset))
        (producersOf players.length r) ticks = .ok total ∧
      (outcome.economy.stock.get r : Int) + ticks * players.length =
        start.economy.stock.get r + total + outcome.economy.unmet.get r := by
  obtain ⟨start, hstart, hstocked, hupkeep⟩ := runWorld_stocked h
  refine ⟨start, _, hstart, hstocked.produced r, ?_⟩
  have hstock := hstocked.stock hupkeep r
  exact_mod_cast hstock

/-- The three planets that never trade hold little after a phase, and nearly all
their upkeep went unmet. -/
theorem runWorld_stock_idle : ∃ outcome start, idleWorld = .ok outcome ∧
    startWorld [(), (), ()] (some [1, 1, 1]) defaultRules = .ok start ∧
    (outcome.economy.stock.get .water,
      start.economy.stock.get .water, outcome.economy.unmet.get .water) = (13, 3, 22) ∧
    ∃ total : Int, producedOver (runTwoProduction 0) (producersOf 3 .water) 12 = .ok total ∧
      (outcome.economy.stock.get .water : Int) + 12 * 3 =
        start.economy.stock.get .water + total + outcome.economy.unmet.get .water := by
  have hall : idleWorld.toOption.map
    (fun outcome => (outcome.economy.stock.get .water, outcome.economy.unmet.get .water)) =
      some (13, 22) := by decide +kernel
  obtain ⟨outcome, hoption, hnumbers⟩ := Option.map_eq_some_iff.mp hall
  obtain ⟨hstock, hunmet⟩ := Prod.mk.inj hnumbers
  have hrun : idleWorld = .ok outcome := toOption_eq_some_iff.mp hoption
  obtain ⟨start, total, hstart, htotal, hequal⟩ := runWorld_stock hrun .water
  have hthree : (startWorld [(), (), ()] (some [1, 1, 1]) defaultRules).toOption.map
    (fun run => run.economy.stock.get .water) =
      some 3 := by decide +kernel
  rw [hstart] at hthree
  refine ⟨outcome, start, hrun, hstart, ?_, total, htotal, hequal⟩
  rw [hstock, hunmet]
  exact congrArg (fun units => (13, units, 22)) (Option.some.inj hthree)

/-- What a balanced world makes over whole cycles is never less than what it uses and its
surplus, and is just that when no low phase takes more off a producer than it makes. -/
theorem balanced_total {planets variation : Nat} {surplus : ℚ} {produce : Production} {total : Int}
    {r : Resource} (balanced : balancedProduction planets 1 variation surplus = .ok produce)
    (pos : 0 ≤ surplus) (cycles : 36 ∣ ticks)
    (htotal : producedOver produce (producersOf planets r) ticks = .ok total) :
    let due := ticks * planets + ((producersOf planets r).map fun i =>
      ⌊(ticks : ℚ) * shareOf planets 1 i * surplus⌋).sum
    due ≤ total ∧ (total = due ↔
        ∀ i ∈ producersOf planets r, ∀ tick < ticks, (tick / phaseTicks + i) % 3 = 0 →
      (variation : Int) ≤ shareOf planets 1 i + bonusAt surplus (shareOf planets 1 i) tick) := by
  have three : 3 ≤ planets := by
    by_contra hfew
    rw [balancedProduction, if_pos (by omega)] at balanced
    cases balanced
  obtain ⟨produce', hproduce, hmade⟩ := balancedProduction_ok three 1 variation surplus
  cases hproduce.symm.trans balanced
  have hle : ∀ i ∈ producersOf planets r,
      ∑ tick ∈ Finset.range ticks, unclamped planets 1 variation surplus tick i ≤
      ∑ tick ∈ Finset.range ticks, max 0 (unclamped planets 1 variation surplus tick i) :=
    fun i _ => Finset.sum_le_sum fun tick _ => le_max_right 0 _
  have hdue : ticks * planets +
      ((producersOf planets r).map fun i => ⌊(ticks : ℚ) * shareOf planets 1 i * surplus⌋).sum =
      ((producersOf planets r).map fun i =>
        ∑ tick ∈ Finset.range ticks, unclamped planets 1 variation surplus tick i).sum := by
    have hscaled : ((producersOf planets r).map fun i => (ticks : Int) * shareOf planets 1 i).sum =
        ticks * planets * (1 : Nat) :=
      sum_shares_scaled three 1 r
    simp only [unclamped_total pos cycles, List.sum_map_add, hscaled]
    omega
  rw [producedOver_eq (hmade r)] at htotal
  cases Except.ok.inj htotal
  dsimp only
  rw [hdue]
  refine ⟨List.sum_le_sum hle, ?_⟩
  rw [sum_map_eq_iff hle]
  refine forall₂_congr fun i _ => ?_
  rw [sum_clamped_eq_iff]
  exact forall₂_congr fun tick _ => unclamped_nonneg_iff pos 1 variation tick i

/-- Over whole cycles of a balanced production every unit of upkeep that somebody missed is a
unit that stands idle elsewhere, and the surplus comes on top; only an output cut off at zero
adds to that. -/
theorem runWorld_balanced {variation : Nat} {surplus : ℚ} {produce : Production}
    (h : runWorld act players ticks phaseOffset (some produce) startingStock rules = .ok outcome)
    (balanced : balancedProduction players.length 1 variation surplus = .ok produce)
    (pos : 0 ≤ surplus) (cycles : 36 ∣ ticks) (r : Resource) :
    ∃ start : WorldRun π, startWorld players startingStock rules = .ok start ∧
      let due := start.economy.stock.get r + outcome.economy.unmet.get r +
        ((producersOf players.length r).map fun i =>
          ⌊(ticks : ℚ) * shareOf players.length 1 i * surplus⌋).sum
      due ≤ outcome.economy.stock.get r ∧ (outcome.economy.stock.get r = due ↔
        ∀ i ∈ producersOf players.length r, ∀ tick < ticks, (tick / phaseTicks + i) % 3 = 0 →
          (variation : Int) ≤ shareOf players.length 1 i + bonusAt surplus
          (shareOf players.length 1 i) tick) := by
  obtain ⟨start, hstart, hstocked, hupkeep⟩ := runWorld_stocked h
  have hproduced := hstocked.produced r
  obtain ⟨hle, hiff⟩ := balanced_total balanced pos cycles hproduced
  have hstock := hstocked.stock hupkeep r
  have hstock :
      (outcome.economy.stock.get r : Int) + ticks * players.length = start.economy.stock.get r +
      ((outcome.economy.stations.values.map SimStation.producedTotal).sum.get r : Int) +
      outcome.economy.unmet.get r := by
    exact_mod_cast hstock
  dsimp only at hle hiff ⊢
  refine ⟨start, hstart, by omega, ?_⟩
  rw [← hiff]
  omega

/-- Three planets in balance that never trade: six units of water are missed on each of the two
that make none, and twelve pile up on the one that does. -/
theorem runWorld_balanced_idle : ∃ produce outcome, balancedProduction 3 1 2 0 = .ok produce ∧
    runWorld (fun (player : Unit) _ => .ok ([], player)) [(), (), ()] 36 0 (some produce) =
      .ok outcome ∧
    outcome.economy.unmet.get .water = 12 ∧ ∃ start : WorldRun Unit,
      startWorld [(), (), ()] none defaultRules = .ok start ∧ outcome.economy.stock.get .water =
        start.economy.stock.get .water + 12 := by
  obtain ⟨produce, hproduce, hmade⟩ := balancedProduction_ok (le_refl 3) 1 2 0
  have hall : ((balancedProduction 3 1 2 0).toOption.bind fun produce =>
      (runWorld (fun (player : Unit) _ => .ok ([], player)) [(), (), ()] 36 0
          (some produce)).toOption.map
        fun outcome => outcome.economy.unmet.get .water) = some 12 := by decide +kernel
  rw [hproduce] at hall
  obtain ⟨outcome, hoption, hunmet⟩ := Option.map_eq_some_iff.mp hall
  have hrun := toOption_eq_some_iff.mp hoption
  obtain ⟨start, hstart, _, hiff⟩ :=
    runWorld_balanced hrun hproduce (le_refl 0) (dvd_refl 36) .water
  refine ⟨produce, outcome, hproduce, hrun, hunmet, start, hstart, ?_⟩
  have hequal := hiff.mpr fun i hi tick _ _ => by
    have hbase : ∀ i ∈ producersOf 3 .water, shareOf 3 1 i = 3 := by decide +kernel
    have hnone : bonusAt 0 3 tick = 0 := by simp [bonusAt]
    show (2 : Int) ≤ shareOf 3 1 i + bonusAt 0 (shareOf 3 1 i) tick
    rw [hbase i hi, hnone]
    decide
  rw [hunmet] at hequal
  simp only [mul_zero, Int.floor_zero, List.map_const', List.sum_replicate, nsmul_zero,
    add_zero] at hequal
  exact_mod_cast hequal

end Stock

end SpaceportBazaar
