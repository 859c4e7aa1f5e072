import SpaceportBazaar.ServerQuota

namespace SpaceportBazaar

open SimulatedEconomy

/-- The same world, seen in two states that differ in number and reported results. -/
def Snapshot.SameWorld (a b : Snapshot) : Prop :=
  { a with snapshotSequence := b.snapshotSequence, requestResults := b.requestResults } = b

namespace SimulatedEconomy

variable {e e' : SimulatedEconomy} {stationId : String} {action : Action} {out : CommandOutcome}

/-- What no planet can see: the production to come and the engine's own counters. -/
def visible (e : SimulatedEconomy) : SimulatedEconomy :=
  { e with
    stations := e.stations.mapValues (fun s => { s with production := 0 })
    sequence := 0
    ids := 0
    commandCounts := Dict.empty
    rejections := [] }

theorem visible_values (e : SimulatedEconomy) :
    e.visible.stations.values = e.stations.values.map (fun s => { s with production := 0 }) :=
  Dict.values_mapValues ..

theorem visible_station (e : SimulatedEconomy) (k : String) :
    e.visible.station k = (e.station k).map (fun s => { s with production := 0 }) := by
  unfold station
  rw [show e.visible.stations.get? k = (e.stations.get? k).map _ from Dict.get?_mapValues ..]
  cases e.stations.get? k with
  | none => rfl
  | some s => rfl

theorem outcomeFor_visible (e : SimulatedEconomy) (k : String) :
    e.visible.outcomeFor k = e.outcomeFor k := by
  unfold outcomeFor
  rw [visible_station, visible_values, List.any_map]
  cases e.station k with
  | error raised => rfl
  | ok s => rfl

theorem observationFor_visible (e : SimulatedEconomy) (k : String) (sequence : Nat) (phase : Phase)
    (results : List CommandResult) (outcome : Option PlayerOutcome) :
    (e.visible.observationFor k (some sequence) phase results outcome).map Prod.fst =
      (e.observationFor k (some sequence) phase results outcome).map Prod.fst := by
  simp only [observationFor, nextSequence]
  rw [visible_station, visible_values, List.map_map]
  cases e.station k with
  | error raised => rfl
  | ok s => rfl

theorem Executed.worldVersion (h : Executed e stationId action out e') :
    e'.worldVersion = e.worldVersion := by
  cases h <;> rfl

/-- A command that does not succeed shows nowhere. -/
theorem Executed.visible (h : Executed e stationId action out e') (hout : out.code ≠ .ok) :
    e'.visible = e.visible := by
  cases h with
  | refused => rfl
  | failed => rfl
  | advertised | posted | adWithdrawn | offerWithdrawn | settled => exact absurd rfl hout

end SimulatedEconomy

theorem EconomyMoves.version {production : Option (Nat → Nat → Nat)} {e e' : SimulatedEconomy}
    (h : EconomyMoves production e e') : e' = e ∨ e.worldVersion < e'.worldVersion := by
  cases h with
  | same => exact Or.inl rfl
  | bumped => exact Or.inr (Nat.lt_succ_self _)
  | ticked ha =>
    have hversion := advanceTick_worldVersion ha
    refine Or.inr ?_
    rw [applyProduction_worldVersion]
    omega
  | ended ha =>
    have hversion := advanceTick_worldVersion ha
    refine Or.inr ?_
    rw [endRun_worldVersion, applyProduction_worldVersion]
    omega

namespace BazaarServer

variable {sha256 : List UInt8 → String} {stationId : String} {s s' t u : BazaarServer}
  {seat seat' : Seat} {a b : Snapshot}

/-- A later state of the server: the version has not gone back, and as long as it
stands still nothing visible has changed. -/
structure Ahead (s t : BazaarServer) : Prop where
  version : s.economy.worldVersion ≤ t.economy.worldVersion
  same : s.economy.worldVersion = t.economy.worldVersion →
    s.phase = t.phase ∧ s.economy.visible = t.economy.visible

theorem Ahead.refl (s : BazaarServer) : Ahead s s := ⟨le_rfl, fun _ => ⟨rfl, rfl⟩⟩

theorem Ahead.trans (h : Ahead s t) (h' : Ahead t u) : Ahead s u where
  version := h.version.trans h'.version
  same heq := by
    have hst := h.version
    have htu := h'.version
    obtain ⟨hphase, hvisible⟩ := h.same (by omega)
    obtain ⟨hphase', hvisible'⟩ := h'.same (by omega)
    exact ⟨hphase.trans hphase', hvisible.trans hvisible'⟩

theorem Ahead.of_lt (h : s.economy.worldVersion < t.economy.worldVersion) : Ahead s t :=
  ⟨h.le, fun heq => absurd heq h.ne⟩

/-- A command that succeeds moves the version, and any other shows nowhere. -/
theorem processCommand_ahead {c : Nat} {requestId : String} {action : Action} {outs : List Output}
    {outcome : CommandOutcome} {economy : SimulatedEconomy}
    (h : s.processCommand c stationId requestId action = .ok (outs, outcome, economy)) :
    s.economy.visible = economy.visible ∨ s.economy.worldVersion < economy.worldVersion := by
  unfold processCommand at h
  split at h
  next =>
    cases Except.ok.inj h
    exact Or.inl rfl
  next =>
    obtain ⟨⟨out, e⟩, hx, h⟩ := bind_eq_ok_iff.mp h
    simp only [pure, Except.pure, Except.ok.injEq, Prod.mk.injEq] at h
    obtain ⟨_, rfl, rfl⟩ := h
    have hx := execute_executed hx
    split
    next =>
      have hversion := hx.worldVersion
      refine Or.inr ?_
      show s.economy.worldVersion < e.worldVersion + 1
      omega
    next hout => exact Or.inl (hx.visible hout).symm

theorem step_ahead {ev : Event} {outs : List Output} (h : Step sha256 s (ev, outs) s') :
    Ahead s s' := by
  cases step_effect h with
  | calm hc =>
    rcases hc.economy.version with heq | hlt
    · refine ⟨by rw [heq], fun _ => ?_⟩
      rcases hc.phase with hphase | hlt
      · exact ⟨hphase.symm, by rw [heq]⟩
      · rw [heq] at hlt
        exact absurd hlt (lt_irrefl _)
    · exact Ahead.of_lt hlt
  | commanded serving ready hcommand =>
    cases hcommand with
    | replayed | conflicted | full => exact ⟨le_rfl, fun _ => ⟨rfl, rfl⟩⟩
    | recorded table new room processed =>
      rcases processCommand_ahead processed with heq | hlt
      · have hversion := congrArg SimulatedEconomy.worldVersion heq
        exact ⟨hversion.le, fun _ => ⟨rfl, heq⟩⟩
      · exact Ahead.of_lt hlt

theorem run_ahead {hist : List (Event × List Output)}
    (run : Machine.Run (Step sha256) s hist t) : Ahead s t :=
  run.relates (P := fun _ => True) trivial Ahead.refl (fun _ _ _ => Ahead.trans)
      (fun _ _ _ _ _ => trivial)
    (fun _ _ _ _ => step_ahead)

/-- A state is made from the phase, from what is visible and from the planet's results. -/
theorem snapshotFor_visible (s : BazaarServer) (seat : Seat) :
    { s with economy := s.economy.visible }.snapshotFor seat = s.snapshotFor seat := by
  have houtcome : { s with economy := s.economy.visible }.outcomeFor seat.stationId =
      s.outcomeFor seat.stationId := by
    unfold outcomeFor
    rw [outcomeFor_visible]
  unfold snapshotFor
  rw [houtcome]
  cases s.outcomeFor seat.stationId with
  | error raised => rfl
  | ok outcome =>
    have hview := s.economy.observationFor_visible seat.stationId (seat.sequence + 1) s.phase
      ((((s.results.get? seat.stationId).map Dict.values).getD []).map StoredResult.result) outcome
    revert hview
    simp only [bind, Except.bind]
    generalize s.economy.visible.observationFor seat.stationId _ _ _ _ = x
    generalize s.economy.observationFor seat.stationId _ _ _ _ = y
    intro hview
    cases x with
    | error r => cases y with
      | error r' => cases hview; rfl
      | ok v' => simp [Except.map] at hview
    | ok v => cases y with
      | error r' => simp [Except.map] at hview
      | ok v' => exact congrArg Except.ok (Except.ok.inj hview)

theorem snapshotFor_same (hphase : s.phase = t.phase)
    (hvisible : s.economy.visible = t.economy.visible) (hstation : seat.stationId = seat'.stationId)
    (ha : s.snapshotFor seat = .ok a) (hb : t.snapshotFor seat' = .ok b) :
    a.SameWorld b := by
  rw [← snapshotFor_visible, hvisible] at ha
  rw [← snapshotFor_visible] at hb
  simp only [snapshotFor, observationFor, nextSequence, outcomeFor] at ha hb
  rw [hphase, hstation] at ha
  obtain ⟨outcome, ho, ha⟩ := bind_eq_ok_iff.mp ha
  obtain ⟨outcome', ho', hb⟩ := bind_eq_ok_iff.mp hb
  obtain rfl : outcome = outcome' := Except.ok.inj (ho.symm.trans ho')
  obtain ⟨⟨_, _⟩, hs, ha⟩ := bind_eq_ok_iff.mp ha
  obtain ⟨⟨_, _⟩, hs', hb⟩ := bind_eq_ok_iff.mp hb
  obtain ⟨me, hme, hs⟩ := bind_eq_ok_iff.mp hs
  obtain ⟨me', hme', hs'⟩ := bind_eq_ok_iff.mp hs'
  obtain rfl : me = me' := Except.ok.inj (hme.symm.trans hme')
  obtain ⟨rfl, _⟩ := Prod.mk.inj (Except.ok.inj hs)
  obtain ⟨rfl, _⟩ := Prod.mk.inj (Except.ok.inj hs')
  cases Except.ok.inj ha
  cases Except.ok.inj hb
  rfl

/-- The law of the version counter, for an earlier and a later state of one planet. -/
def Versioned (a b : Snapshot) : Prop :=
  a.worldVersion ≤ b.worldVersion ∧ (a.worldVersion = b.worldVersion → a.SameWorld b)

theorem Ahead.versioned (h : Ahead s t) (hstation : seat.stationId = seat'.stationId)
    (ha : s.snapshotFor seat = .ok a) (hb : t.snapshotFor seat' = .ok b) : Versioned a b := by
  unfold Versioned
  rw [(snapshotFor_shown ha).version, (snapshotFor_shown hb).version]
  refine ⟨h.version, fun heq => ?_⟩
  obtain ⟨hphase, hvisible⟩ := h.same heq
  exact snapshotFor_same hphase hvisible hstation ha hb

/-- The states sent to planet `p`, oldest first. -/
def statesFor (p : String) (hist : List (Event × List Output)) : List Snapshot :=
  (outputs hist).filterMap (fun o =>
    match o with
    | .send q _ (.state snapshot) => if q = p then some snapshot else none
    | _ => none)

theorem mem_statesFor {p : String} {hist : List (Event × List Output)} :
    a ∈ statesFor p hist ↔ ∃ c, Output.send p c (.state a) ∈ outputs hist := by
  simp only [statesFor, List.mem_filterMap]
  constructor
  · rintro ⟨o, ho, hstate⟩
    split at hstate
    next q c snapshot =>
      split at hstate
      next hq =>
        subst hq
        cases Option.some.inj hstate
        exact ⟨c, ho⟩
      next => simp at hstate
    next => simp at hstate
  · rintro ⟨c, ho⟩
    exact ⟨_, ho, by simp⟩

/-- Over every run the version never goes back, and two states of one planet under one
version show one world, whether sent or only asked for. -/
theorem run_versions {config : Config} {hist : List (Event × List Output)}
    (run : Machine.Run (Step sha256) (init config) hist s) :
    (∀ p, (statesFor p hist).Pairwise Versioned) ∧
    (∀ later t, Machine.Run (Step sha256) s later t →
        s.economy.worldVersion ≤ t.economy.worldVersion ∧
      ∀ seat seat' a b, seat.stationId = seat'.stationId →
        s.snapshotFor seat = .ok a → t.snapshotFor seat' = .ok b →
        Versioned a b) := by
  refine ⟨fun p => ?_, fun later t hlater => ?_⟩
  · have both : (statesFor p hist).Pairwise Versioned ∧ ∀ a ∈ statesFor p hist,
        ∃ past seat, seat.stationId = p ∧ past.snapshotFor seat = .ok a ∧ Ahead past s := by
      refine run.invariant
        (I := fun hist s => (statesFor p hist).Pairwise Versioned ∧ ∀ a ∈ statesFor p hist,
        ∃ past seat, seat.stationId = p ∧ past.snapshotFor seat = .ok a ∧ Ahead past s)
        ⟨List.Pairwise.nil, ?_⟩ ?_
      · intro a ha
        cases ha
      · rintro hist s ⟨ev, outs⟩ t ⟨hpairs, hpast⟩ hstep
        have hahead := step_ahead hstep
        have hnew : ∀ a ∈ statesFor p [(ev, outs)], ∃ seat, seat.stationId = p ∧
            t.snapshotFor seat = .ok a := by
          intro a ha
          obtain ⟨c, ho⟩ := mem_statesFor.mp ha
          exact step_current hstep _ (by simpa [outputs] using ho)
        have hsplit :
            statesFor p (hist ++ [(ev, outs)]) = statesFor p hist ++ statesFor p [(ev, outs)] := by
          simp [statesFor, outputs]
        rw [hsplit]
        refine ⟨List.pairwise_append.mpr ⟨hpairs, ?_, ?_⟩, ?_⟩
        · refine List.pairwise_of_forall_mem_list ?_
          intro a ha b hb
          obtain ⟨seat, hseat, hsnapshot⟩ := hnew a ha
          obtain ⟨seat', hseat', hsnapshot'⟩ := hnew b hb
          exact (Ahead.refl t).versioned (hseat.trans hseat'.symm) hsnapshot hsnapshot'
        · intro a ha b hb
          obtain ⟨past, seat, hseat, hsnapshot, hpast⟩ := hpast a ha
          obtain ⟨seat', hseat', hsnapshot'⟩ := hnew b hb
          exact (hpast.trans hahead).versioned (hseat.trans hseat'.symm) hsnapshot hsnapshot'
        · intro a ha
          rcases List.mem_append.mp ha with ha | ha
          · obtain ⟨past, seat, hseat, hsnapshot, hpast⟩ := hpast a ha
            exact ⟨past, seat, hseat, hsnapshot, hpast.trans hahead⟩
          · obtain ⟨seat, hseat, hsnapshot⟩ := hnew a ha
            exact ⟨t, seat, hseat, hsnapshot, Ahead.refl t⟩
    exact both.1
  · have hahead := run_ahead hlater
    exact ⟨hahead.version, fun seat seat' a b hstation ha hb => hahead.versioned hstation ha hb⟩

theorem run_versions_retry :
    ∃ ls s, Machine.Run (Step plainDigest) (init pairConfig) ls s ∧
      (statesFor "P01" ls).length = 3 ∧
      (statesFor "P01" ls).Pairwise Versioned := by
  have hrun : (Machine.replay (step? plainDigest) (init pairConfig)
      (opening ++ [sendsCommand 0 "r1" (.withdraw "offer-9"), .resume 0])).map
        (fun r => (statesFor "P01" r.1).length) = some 3 := by decide +kernel
  obtain ⟨⟨ls, s⟩, hreplay, hcount⟩ := Option.map_eq_some_iff.mp hrun
  have run := Machine.run_of_replay hreplay
  obtain ⟨hsent, _⟩ := run_versions run
  exact ⟨ls, s, run, hcount, hsent "P01"⟩

end BazaarServer

end SpaceportBazaar
