import SpaceportBazaar.OpponentTurns
import SpaceportBazaar.WorldStock

namespace SpaceportBazaar

open SimulatedEconomy

/-- A player of the line-up: a registered strategy that knows of no one but others of the world,
or a stand-in with something to offer. -/
def Player.Able (ids : String → Prop) : Player → Prop
  | .strategy s memory => s ∈ Strategy.strategies ∧ memory.counterparties.Within ids
  | .smallFair size _ _ _ => 0 < size
  | _ => True

/-- The economy of a world that trades in order. -/
structure Orderly (e₀ e : SimulatedEconomy) : Prop where
  book : Book e
  board : Board e
  parties : Parties e
  ledger : Ledger e₀ e
  rules : e.rules = e₀.rules
  refusals : ∀ r ∈ e.rejections, r.2 ∈ marketRefusals

section Turn

variable {e₀ e e' : SimulatedEconomy} {stationId : String} {s : SimStation} {view : Snapshot}
  {player : Player} {n : Nat} {actions : List Action}

/-- A turn that is taken whole, save for what the market refuses. -/
def Takes (e : SimulatedEconomy) (stationId : String) (actions : List Action) : Prop :=
  ∃ outs e' refused, e.applyActions stationId actions = .ok (outs, e') ∧
    e'.rejections = e.rejections ++ refused ∧
    ∀ r ∈ refused, r.2 ∈ marketRefusals

/-- A planet at the start of its turn, with the view it is about to act on. -/
structure OnTurn (e : SimulatedEconomy) (stationId : String) (s : SimStation)
    (view : Snapshot) : Prop where
  views : Views e stationId s view
  book : Book e
  board : Board e
  parties : Parties e
  standing : s.failedOnce = false
  fresh : e.countOf stationId = 0
  playable : Opponents.Playable view

theorem Book.sequenced (h : Book e) (n : Nat) : Book { e with sequence := n } :=
  h.frame rfl rfl rfl rfl le_rfl

theorem Board.sequenced (h : Board e) (n : Nat) : Board { e with sequence := n } :=
  h.frame rfl rfl (List.Sublist.refl _) le_rfl (fun _ => rfl) (fun _ ho _ => ho)
    (fun _ => le_rfl) h.quota

theorem OnTurn.suits (h : OnTurn e stationId s view) (suits : view.Suits actions) :
    Takes { e with sequence := n } stationId actions := by
  obtain ⟨accepted, more, hsub, hproper, rfl⟩ := suits.parts
  have hcount := suits.count
  rw [List.length_append, List.length_map] at hcount
  have hincoming : view.incomingOpenOffers.Nodup := by
    refine List.Nodup.filter _ ?_
    rw [h.views.offers]
    exact (List.Nodup.of_map _ h.book.distinct).filter _
  have hseated : Seated view accepted (accepted.length + more.length) { e with sequence := n } := by
    refine ⟨h.book.sequenced n, h.board.sequenced n, h.views.tick.symm, h.views.rules.symm,
      h.playable.running, ?_, fun entry hentry => ?_, ?_, fun o ho => ?_, hincoming.sublist hsub⟩
    · rw [h.views.self]
      exact ⟨s, h.views.known, h.standing⟩
    · rw [h.views.directory] at hentry
      obtain ⟨t, ht, rfl⟩ := List.mem_map.mp hentry
      obtain ⟨k, hk⟩ := Dict.mem_values_iff.mp ht
      exact Dict.mem_keys_iff.mpr ⟨t, (h.book.keyed k t hk).symm ▸ hk⟩
    · rw [h.views.self]
      show e.countOf stationId + _ ≤ _
      rw [h.fresh, Nat.zero_add]
      exact hcount
    · obtain ⟨hmem, hto, hopen, _⟩ := Snapshot.mem_incomingOpenOffers.mp (hsub.subset ho)
      rw [h.views.offers] at hmem
      exact ⟨(List.mem_filter.mp hmem).1, hto, hopen⟩
  have hturn := (Sends.mk hseated hproper).turn
  rw [h.views.self] at hturn
  exact hturn

theorem Ready.noted {ticksLeft : Option Nat} {reserve : Bundle}
    {model : CounterpartyModel} {rest : List Deed} (h : Ready view ticksLeft reserve model e rest)
    (rejections : List (String × ResultCode)) :
    Ready view ticksLeft reserve model { e with rejections := rejections } rest where
  book := h.book.frame rfl rfl rfl rfl le_rfl
  board := h.board.noted e.worldVersion rejections
  clock := h.clock
  rules := h.rules
  running := h.running
  fellows := h.fellows
  stock := h.stock
  quota := h.quota
  allowed := h.allowed
  accepts := h.accepts
  withdraws := h.withdraws
  notices := h.notices
  apart := h.apart
  once := h.once

theorem Answered.refusal {action : Action} {code : ResultCode}
    (h : Answered e stationId action code) :
    code = .ok ∨ code ∈ marketRefusals := by
  cases h with
  | ok => exact Or.inl rfl
  | _ => exact Or.inr (by simp [marketRefusals])

theorem Ready.takes {ticksLeft : Option Nat} {reserve : Bundle} {model : CounterpartyModel}
    {rest : List Deed} (h : Ready view ticksLeft reserve model e rest) :
    Takes e view.selfStationId (rest.map (Deed.action view)) := by
  refine applyActions_refusals
    (I := fun actions e => ∃ rest : List Deed, actions = rest.map (Deed.action view) ∧
    Ready view ticksLeft reserve model e rest) ?_ ?_ ⟨rest, rfl, h⟩
  · rintro action actions e ⟨rest, hactions, hready⟩
    cases rest with
    | nil => cases hactions
    | cons d rest =>
      obtain ⟨rfl, rfl⟩ := List.cons.inj hactions
      obtain ⟨out, e', hexecute, hanswered⟩ := hready.answers
      exact ⟨out, e', hexecute, hanswered.refusal, rest, rfl,
        hready.next (execute_executed hexecute)⟩
  · rintro actions e rejections ⟨rest, hactions, hready⟩
    exact ⟨rest, hactions, hready.noted rejections⟩

/-- What our policy decides on is taken, and it learns only of the others in its view. -/
theorem OnTurn.decides {ids : String → Prop} {memory : PolicyMemory} (h : OnTurn e stationId s view)
    (known : ∀ k, ids k ↔ k ∈ e.stations.keys ∧ k ≠ stationId)
    (within : memory.counterparties.Within ids) :
    ∃ decision memory', Policy.decide view memory .new none = .ok (decision, memory') ∧
      memory'.counterparties.Within ids ∧
      Takes { e with sequence := n } stationId decision.actions := by
  obtain ⟨decision, memory', hist, stored, hdecide, ⟨log, hmemory⟩, _, _, hrecords, _⟩ :=
    decide_records view memory .new none
  obtain ⟨a, deeds⟩ := hrecords.run
  have hlearnt : (memory.observe view).counterparties.Within ids := by
    rw [PolicyMemory.observe_counterparties]
    exact within.update (h.views.mentions_known h.book h.board h.parties fun k hk hother =>
      (known k).mpr ⟨hk, hother⟩)
  have hrunning : e.tick < e.rules.durationTicks := by
    rw [← h.views.tick, ← h.views.rules]
    exact h.playable.running
  have hfellows : ∀ stats ∈ (memory.observe view).counterparties.trading,
      stats.stationId ∈ e.stations.keys ∧ stats.stationId ≠ stationId :=
    fun stats hstats => (known _).mp (hlearnt stats (List.mem_of_mem_filter hstats))
  have hready := h.views.ready (n := n) h.book h.board hrunning h.standing h.fresh hfellows
    (h.views.rules ▸ (commandAllowance_le view none).1) deeds
  have htakes := hready.takes
  rw [h.views.self, ← hrecords.actions] at htakes
  exact ⟨decision, memory', hdecide, hmemory ▸ hlearnt, htakes⟩

/-- Whoever is playing, the turn is taken, and the player is as able as before. -/
theorem OnTurn.plays {ids : String → Prop} (h : OnTurn e stationId s view)
    (known : ∀ k, ids k ↔ k ∈ e.stations.keys ∧ k ≠ stationId) (able : player.Able ids) :
    ∃ actions player', player.play view = .ok (actions, player') ∧ player'.Able ids ∧
      Takes { e with sequence := n } stationId actions := by
  have hnothing : view.Suits [] := ⟨Nat.zero_le _, [], [], List.nil_sublist _, by simp, rfl⟩
  cases player with
  | passive => exact ⟨[], .passive, rfl, able, h.suits hnothing⟩
  | greedy position =>
    obtain ⟨actions, position', hact, hsuits⟩ := Opponents.greedy_suits h.playable position
    refine ⟨actions, .greedy position', ?_, able, h.suits hsuits⟩
    simp only [Player.play, Player.act, hact]
    rfl
  | smallFair size target quitAt position =>
    obtain ⟨actions, position', hact, hsuits⟩ := @Opponents.smallFair_suits view size target quitAt
      h.playable able position
    refine ⟨actions, .smallFair size target quitAt position', ?_, able, h.suits hsuits⟩
    simp only [Player.play, Player.act, hact]
    rfl
  | gifter position =>
    obtain ⟨actions, position', hact, hsuits⟩ := Opponents.gifter_suits h.playable position
    refine ⟨actions, .gifter position', ?_, able, h.suits hsuits⟩
    simp only [Player.play, Player.act, hact]
    rfl
  | strategy strategy memory =>
    obtain ⟨hlisted, hwithin⟩ := able
    rcases List.mem_pair.mp hlisted with rfl | rfl
    · obtain ⟨decision, memory', hdecide, hwithin', htakes⟩ := h.decides known hwithin
      refine ⟨decision.actions, .strategy .reserveTrader memory', ?_, ⟨hlisted, hwithin'⟩, htakes⟩
      simp only [Player.play, Player.act, Strategy.reserveTrader, hdecide]
      rfl
    · refine ⟨[], .strategy .passive (memory.observe view), rfl, ⟨hlisted, ?_⟩, h.suits hnothing⟩
      rw [PolicyMemory.observe_counterparties]
      exact hwithin.update (h.views.mentions_known h.book h.board h.parties fun k hk hother =>
        (known k).mpr ⟨hk, hother⟩)

end Turn

section World

variable {e₀ e e' : SimulatedEconomy} {run : WorldRun Player} {turn : String × Player}
  {turns : List (String × Player)} {produce : Production} {tick : Nat}

/-- The other planets of a world. -/
def Company (e₀ : SimulatedEconomy) (stationId k : String) : Prop :=
  k ∈ e₀.stations.keys ∧ k ≠ stationId

/-- A world of several planets under rules that leave the stand-ins room. -/
structure Livable (e₀ : SimulatedEconomy) : Prop where
  roomy : Opponents.Roomy e₀.rules
  several : ∀ k ∈ e₀.stations.keys, ∃ j, Company e₀ k j

/-- A tick in which these players have still to act. -/
structure Playing (e₀ : SimulatedEconomy) (turns : List (String × Player))
    (run : WorldRun Player) : Prop where
  orderly : Orderly e₀ run.economy
  running : run.economy.tick < e₀.rules.durationTicks
  able : ∀ k p, run.roster.get? k = some p → k ∈ e₀.stations.keys ∧ p.Able (Company e₀ k)
  waiting : ∀ turn ∈ turns, turn.1 ∈ e₀.stations.keys ∧ turn.2.Able (Company e₀ turn.1) ∧
    run.economy.countOf turn.1 = 0
  distinct : (turns.map Prod.fst).Nodup

/-- The actions of a turn leave the economy in order, and nobody else's commands counted. -/
theorem Orderly.applied {stationId : String} {actions : List Action}
    {outs : List (Action × CommandOutcome)} {refused : List (String × ResultCode)} {n : Nat}
    (h : Orderly e₀ e) (happly :
      SimulatedEconomy.applyActions { e with sequence := n } stationId actions = .ok (outs, e'))
    (rejections : e'.rejections = e.rejections ++ refused)
    (refusals : ∀ r ∈ refused, r.2 ∈ marketRefusals) :
    Orderly e₀ { e' with worldVersion := e'.worldVersion + 1 } ∧ e'.tick = e.tick ∧
      ∀ k, k ≠ stationId → e'.countOf k = e.countOf k := by
  have hall : Book e' ∧ Board e' ∧ Parties e' ∧ Ledger e₀ e' ∧ e'.rules = e₀.rules := by
    refine applyActions_invariant
        (I := fun _ a => Book a ∧ Board a ∧ Parties a ∧ Ledger e₀ a ∧ a.rules = e₀.rules)
      ?_ ?_ [] ⟨h.book.sequenced n, h.board.sequenced n, h.parties,
        h.ledger.frame rfl rfl rfl, h.rules⟩ happly
    · rintro _ a _ _ _ b ⟨hbook, hboard, hparties, hledger, hrules⟩ hx
      exact ⟨hbook.executed hx, hboard.executed hbook hx, hparties.executed hbook hx,
        hledger.executed hbook hx, hx.rules_eq.trans hrules⟩
    · rintro _ a _ _ ⟨hbook, hboard, hparties, hledger, hrules⟩
      exact ⟨hbook.frame rfl rfl rfl rfl le_rfl, hboard.noted _ _, hparties,
        hledger.frame rfl rfl rfl, hrules⟩
  obtain ⟨hbook, hboard, hparties, hledger, hrules⟩ := hall
  have htick : e'.tick = e.tick := applyActions_tick (e := { e with sequence := n }) happly
  have hcounts := applyActions_countOf (e := { e with sequence := n }) happly
  refine ⟨⟨hbook.frame rfl rfl rfl rfl le_rfl, hboard.noted _ e'.rejections, hparties,
    hledger.frame rfl rfl rfl, hrules, fun r hr => ?_⟩, htick, fun k hk => ?_⟩
  · rw [rejections] at hr
    rcases List.mem_append.mp hr with hr | hr
    · exact h.refusals r hr
    · exact refusals r hr
  · rw [hcounts k, if_neg hk.symm]
    rfl

theorem Views.playable {stationId : String} {s : SimStation}
    {view : Snapshot} (h : Views e stationId s view) (orderly : Orderly e₀ e) (livable : Livable e₀)
    (running : e.tick < e₀.rules.durationTicks) : Opponents.Playable view := by
  have hrules : view.rules = e₀.rules := h.rules.trans orderly.rules
  refine ⟨by rw [h.tick, hrules]; exact running, by rw [hrules]; exact livable.roomy,
    fun hnone => ?_⟩
  obtain ⟨j, hj, hother⟩ :=
    livable.several stationId (orderly.ledger.keys ▸ Dict.mem_keys_iff.mpr ⟨s, h.known⟩)
  obtain ⟨t, ht⟩ := Dict.mem_keys_iff.mp (orderly.ledger.keys ▸ hj)
  have hlisted : j ∈ Opponents.othersOf view := by
    refine List.mem_filter.mpr ⟨?_, by simpa [h.self] using hother⟩
    rw [h.directory, List.map_map]
    exact List.mem_map.mpr ⟨t, Dict.mem_values_iff.mpr ⟨j, ht⟩, orderly.book.keyed j t ht⟩
  rw [hnone] at hlisted
  cases hlisted

theorem observationFor_ok {stationId : String} {s : SimStation}
    (known : e.stations.get? stationId = some s) :
    ∃ seen, e.observationFor stationId = .ok seen := by
  have hs : SimulatedEconomy.station { e with sequence := e.sequence + 1 } stationId = .ok s :=
    station_eq_ok_iff.mpr known
  unfold observationFor nextSequence
  simp only [hs, bind, Except.bind]
  exact ⟨_, rfl⟩

/-- Every player gets through its turn. -/
theorem Playing.playTurn (h : Playing e₀ (turn :: turns) run) (livable : Livable e₀) :
    ∃ run', playTurn Player.play run turn = .ok run' ∧ Playing e₀ turns run' := by
  obtain ⟨hkey, hable, hfresh⟩ := h.waiting turn List.mem_cons_self
  obtain ⟨s, hs⟩ := Dict.mem_keys_iff.mp (h.orderly.ledger.keys ▸ hkey)
  have hlater : ∀ later ∈ turns, later.1 ≠ turn.1 := fun later hmem heq =>
    (List.nodup_cons.mp h.distinct).1 (heq ▸ List.mem_map_of_mem hmem)
  unfold SpaceportBazaar.playTurn
  rw [station_eq_ok_iff.mpr hs]
  simp only [bind, Except.bind]
  cases hstanding : s.failedOnce with
  | true =>
    exact ⟨run, rfl, h.orderly, h.running, h.able, fun later hmem =>
      h.waiting later (List.mem_cons_of_mem _ hmem), (List.nodup_cons.mp h.distinct).2⟩
  | false =>
    obtain ⟨⟨view, viewed⟩, hview⟩ := observationFor_ok hs
    obtain ⟨t, n, hviews, rfl⟩ := observationFor_views hview
    cases hviews.known.symm.trans hs
    have hturn : OnTurn run.economy turn.1 s view :=
      ⟨hviews, h.orderly.book, h.orderly.board, h.orderly.parties, hstanding,
        hfresh, hviews.playable h.orderly livable h.running⟩
    have hknown : ∀ k, Company e₀ turn.1 k ↔ k ∈ run.economy.stations.keys ∧
        k ≠ turn.1 := fun k => by
      rw [h.orderly.ledger.keys]
      exact Iff.rfl
    obtain ⟨actions, player, hplay, hable', outs, economy, refused, happly,
        hrejections, hrefusals⟩ :=
      hturn.plays (n := n) hknown hable
    obtain ⟨horderly, htick, hcounts⟩ := h.orderly.applied happly hrejections hrefusals
    refine ⟨{ run with economy := { economy with worldVersion :=
      economy.worldVersion + 1 }, roster := run.roster.set turn.1 player },
      ?_, horderly, htick.trans_lt h.running, fun k p hp => ?_, fun later hmem =>
      ?_, (List.nodup_cons.mp h.distinct).2⟩
    · rw [hview]
      simp only [hplay, apply, happly, bind, Except.bind]
      rfl
    · rcases Dict.get?_set_some hp with ⟨rfl, rfl⟩ | ⟨-, hp⟩
      · exact ⟨hkey, hable'⟩
      · exact h.able k p hp
    · obtain ⟨hkey', hable'', hzero⟩ := h.waiting later (List.mem_cons_of_mem _ hmem)
      exact ⟨hkey', hable'', (hcounts later.1 (hlater later hmem)).trans hzero⟩

/-- A production that makes something, or nothing, everywhere and always. -/
def Production.Sound (produce : Production) : Prop :=
  ∀ tick i, ∃ units, produce tick i = .ok units ∧ 0 ≤ units

/-- A world between two ticks. -/
structure Between (e₀ : SimulatedEconomy) (run : WorldRun Player) : Prop where
  orderly : Orderly e₀ run.economy
  able : ∀ k p, run.roster.get? k = some p → k ∈ e₀.stations.keys ∧ p.Able (Company e₀ k)
  fresh : ∀ k, run.economy.countOf k = 0

theorem mapM_ok {ε α β : Type} {f : α → Except ε β} {xs : List α} (h : ∀ x ∈ xs, ∃ y, f x = .ok y) :
    ∃ ys, xs.mapM f = .ok ys := by
  induction xs with
  | nil => exact ⟨[], rfl⟩
  | cons x xs ih =>
    obtain ⟨y, hy⟩ := h x List.mem_cons_self
    obtain ⟨ys, hys⟩ := ih fun x hx => h x (List.mem_cons_of_mem _ hx)
    refine ⟨y :: ys, ?_⟩
    rw [List.mapM_cons, hy]
    simp only [bind, Except.bind, hys]
    rfl

theorem Production.Sound.made (sound : produce.Sound) (tick i : Nat) : 0 ≤ produce.made tick i := by
  obtain ⟨units, hunits, hpositive⟩ := sound tick i
  rw [Production.made, hunits]
  exact hpositive

theorem mapIdxValues_standing {f : Nat → SimStation → SimStation} {d : Dict String SimStation}
    (same : ∀ i s, ((f i s).stationId, (f i s).failedOnce) = (s.stationId, s.failedOnce)) :
    Standing d (d.mapIdxValues f) := by
  intro k
  cases hold : d.get? k with
  | some s =>
    obtain ⟨i, hi⟩ := Dict.get?_mapIdxValues_of_some (f := f) hold
    rw [hi, Option.map_some, Option.map_some, same]
  | none =>
    cases hnew : (d.mapIdxValues f).get? k with
    | none => rfl
    | some s =>
      obtain ⟨_, v, hv, _⟩ := Dict.get?_mapIdxValues hnew
      cases hold.symm.trans hv

/-- Setting the output of a tick disturbs nothing. -/
theorem Orderly.setProduction (h : Orderly e₀ e) (sound : produce.Sound) (tick : Nat) :
    ∃ e', setProduction produce tick e = .ok e' ∧ Orderly e₀ e' ∧ e'.tick = e.tick ∧ ∀ k,
    e'.countOf k = e.countOf k := by
  obtain ⟨outputs, houtputs⟩ :
      ∃ outputs, (List.range e.stations.size).mapM (produce tick) = .ok outputs := by
    refine mapM_ok fun i _ => ?_
    obtain ⟨units, hunits, _⟩ := sound tick i
    exact ⟨units, hunits⟩
  obtain ⟨e', hset⟩ : ∃ e', SpaceportBazaar.setProduction produce tick e = .ok e' := by
    unfold SpaceportBazaar.setProduction
    rw [houtputs]
    exact ⟨_, rfl⟩
  obtain ⟨_, hkeys, hvalues⟩ := setProduction_values hset
  have hpositive : ∀ k s, e'.stations.get? k = some s → 0 ≤ s.production := by
    intro k s hs
    have hmem := Dict.mem_values_iff.mpr ⟨k, hs⟩
    rw [hvalues] at hmem
    obtain ⟨i, _, rfl⟩ := List.mem_mapIdx.mp hmem
    exact sound.made tick i
  have hledger := setProduction_ledger h.ledger hset hpositive
  obtain ⟨stations, hstations, rfl⟩ : ∃ stations, Standing e.stations stations ∧
      e' = { e with stations := stations } := by
    obtain ⟨_, _, hset⟩ := bind_eq_ok_iff.mp hset
    cases Except.ok.inj hset
    refine ⟨_, ?_, rfl⟩
    exact mapIdxValues_standing fun _ _ => rfl
  have hparties : Parties { e with stations := stations } := by
    refine h.parties.of_offers (fun k hk => ?_) fun o ho => ⟨o, ho, rfl, rfl⟩
    rw [hkeys]
    exact hk
  exact ⟨_,
    hset, ⟨h.book.standing hstations, h.board.frame rfl rfl (List.Sublist.refl _) le_rfl hstations
    (fun _ ho _ => ho) (fun _ => le_rfl) h.board.quota, hparties, hledger, h.rules, h.refusals⟩,
    rfl, fun _ => rfl⟩

theorem Orderly.advanced (h : Orderly e₀ e) :
    e.advanceTick = .ok e.ticked ∧ Orderly e₀ e.ticked := by
  cases hadvance : e.advanceTick with
  | error raised => exact absurd hadvance (advanceTick_ne_error h.ledger)
  | ok e' =>
    rw [advanceTick_eq_ticked h.book.distinct hadvance]
    exact ⟨rfl, h.book.ticked, h.board.ticked h.book, h.parties.ticked, h.ledger.ticked,
      h.rules, h.refusals⟩

/-- A tick of the world comes to its end. -/
theorem Between.worldTick (h : Between e₀ run) (livable : Livable e₀) (sound : produce.Sound)
    (running : run.economy.tick < e₀.rules.durationTicks) :
    ∃ run', worldTick Player.play produce run tick = .ok run' ∧ Between e₀ run' ∧
    run'.economy.tick = run.economy.tick + 1 := by
  obtain ⟨set, hset, horderly, htick, hcounts⟩ := h.orderly.setProduction sound tick
  have hplaying : Playing e₀ run.roster.entries { run with economy := set } := by
    refine ⟨horderly, htick.trans_lt running, h.able, fun turn hturn => ?_, run.roster.keys_nodup⟩
    obtain ⟨hkey, hable⟩ := h.able turn.1 turn.2 (Dict.mem_entries_iff.mp hturn)
    exact ⟨hkey, hable, (hcounts turn.1).trans (h.fresh turn.1)⟩
  obtain ⟨played, hplayed, hdone⟩ := foldlM_invariant (f := playTurn Player.play)
    (I := fun turns run => Playing e₀ turns run ∧ run.economy.tick = set.tick)
    (fun turn turns now hnow => by
      obtain ⟨next, hnext, hplaying⟩ := hnow.1.playTurn livable
      exact ⟨next, hnext, hplaying, (playTurn_played hnow.1.orderly.book hnext).tick.trans hnow.2⟩)
    ⟨hplaying, rfl⟩
  obtain ⟨hadvance, hticked⟩ := hdone.1.orderly.advanced
  refine ⟨{ played with economy :=
    played.economy.ticked, failedAt := noteFailures played.economy.ticked played.failedAt },
    ?_, ⟨hticked, hdone.1.able, fun _ => rfl⟩, ?_⟩
  · unfold SpaceportBazaar.worldTick
    rw [hset]
    simp only [bind, Except.bind, hplayed, hadvance]
    rfl
  · show played.economy.tick + 1 = _
    rw [hdone.2, htick]

theorem Between.worldTicks {ticks : List Nat} (h : Between e₀ run) (livable : Livable e₀)
    (sound : produce.Sound) (term : run.economy.tick + ticks.length ≤ e₀.rules.durationTicks) :
    ∃ run', ticks.foldlM (SpaceportBazaar.worldTick Player.play produce) run = .ok run' ∧
    Between e₀ run' := by
  obtain ⟨run', hrun, hend, _⟩ :=
    foldlM_invariant (f := SpaceportBazaar.worldTick Player.play produce)
    (I := fun ticks run => Between e₀ run ∧ run.economy.tick + ticks.length ≤
      e₀.rules.durationTicks)
    (fun tick ticks now hnow => by
      obtain ⟨hbetween, hterm⟩ := hnow
      rw [List.length_cons] at hterm
      obtain ⟨next, hnext, hbetween', htick⟩ :=
        @Between.worldTick _ _ _ tick hbetween livable sound (by omega)
      exact ⟨next, hnext, hbetween', by omega⟩)
    ⟨h, term⟩
  exact ⟨run', hrun, hend⟩

variable {players : List Player} {startingStock : Option (List Int)} {rules : Rules}

theorem Player.Able.mono {player : Player} {ids ids' : String → Prop} (h : player.Able ids)
    (more : ∀ k, ids k → ids' k) :
    player.Able ids' := by
  cases player with
  | strategy s memory => exact ⟨h.1, fun stats hstats => more _ (h.2 stats hstats)⟩
  | _ => exact h

end World

end SpaceportBazaar
