import SpaceportBazaar.EconomyBoard

namespace SpaceportBazaar

open SimulatedEconomy

/-- A station that starts alive, with nothing on its record yet. -/
structure SimStation.Healthy (s : SimStation) : Prop where
  alive : 0 < s.health
  failedOnce : s.failedOnce = false
  firstFailureTick : s.firstFailureTick = none
  shortageTicks : s.shortageTicks = 0
  fullySuppliedTicks : s.fullySuppliedTicks = 0
  currentShortageStreak : s.currentShortageStreak = 0
  longestShortageStreak : s.longestShortageStreak = 0

/-- The health record of a station after some ticks, against the station it started as. -/
structure Vitals (rules : Rules) (ticks : Nat) (s₀ s : SimStation) : Prop where
  counted : s.shortageTicks + s.fullySuppliedTicks = ticks
  streak : s.currentShortageStreak ≤ s.longestShortageStreak
  longest : s.longestShortageStreak ≤ s.shortageTicks
  bounded : s.health ≤ max s₀.health rules.maxHealth
  dead : s.health = 0 → s.failedOnce = true
  marked : s.failedOnce = s.firstFailureTick.isSome

namespace SimStation

/-- Trading moves goods and touches no other record, and a failed station does not trade. -/
structure Kept (s s' : SimStation) : Prop where
  goods :
    s' = { s with inventory := s'.inventory, imported := s'.imported, exported := s'.exported }
  failed : s.failedOnce = true → s' = s

theorem Kept.refl (s : SimStation) : s.Kept s := ⟨rfl, fun _ => rfl⟩

theorem Kept.trans {a b c : SimStation} (h : a.Kept b) (h' : b.Kept c) : a.Kept c := by
  constructor
  · rw [h'.goods, h.goods]
  · intro hf
    have hb := h.failed hf
    subst hb
    exact h'.failed hf

theorem Kept.traded {s : SimStation} (hf : s.failedOnce = false) (pays gets : Bundle) :
    s.Kept (s.traded pays gets) :=
  ⟨rfl, fun h => absurd h (by simp [hf])⟩

theorem Kept.failedOnce {s s' : SimStation} (h : s.Kept s') : s'.failedOnce = s.failedOnce := by
  rw [h.goods]

theorem Kept.health {s s' : SimStation} (h : s.Kept s') : s'.health = s.health := by
  rw [h.goods]

theorem Kept.firstFailureTick {s s' : SimStation} (h : s.Kept s') :
    s'.firstFailureTick = s.firstFailureTick := by
  rw [h.goods]

/-- What a tick does to the health record: supplied in full or short. -/
theorem afterTick_cases (rules : Rules) (tick : Nat) (s : SimStation) :
    ((s.afterTick rules tick).health =
      min rules.maxHealth (s.health + rules.recoveryPerFullySuppliedTick) ∧
      (s.afterTick rules tick).shortageTicks = s.shortageTicks ∧
      (s.afterTick rules tick).fullySuppliedTicks = s.fullySuppliedTicks + 1 ∧
      (s.afterTick rules tick).currentShortageStreak = 0 ∧
      (s.afterTick rules tick).longestShortageStreak = s.longestShortageStreak ∧
      (s.afterTick rules tick).failedOnce = s.failedOnce ∧
      (s.afterTick rules tick).firstFailureTick = s.firstFailureTick) ∨
    ((s.afterTick rules tick).health ≤ s.health ∧
      (s.afterTick rules tick).shortageTicks = s.shortageTicks + 1 ∧
      (s.afterTick rules tick).fullySuppliedTicks = s.fullySuppliedTicks ∧
      (s.afterTick rules tick).currentShortageStreak = s.currentShortageStreak + 1 ∧
      (s.afterTick rules tick).longestShortageStreak =
        max s.longestShortageStreak (s.currentShortageStreak + 1) ∧
      (s.afterTick rules tick).failedOnce = (s.failedOnce || (s.afterTick rules tick).health = 0) ∧
      (s.afterTick rules tick).firstFailureTick =
        if (s.afterTick rules tick).health = 0 && !s.failedOnce then some tick
        else s.firstFailureTick) := by
  simp only [afterTick]
  split
  next => exact Or.inl ⟨rfl, rfl, rfl, rfl, rfl, rfl, rfl⟩
  next =>
    refine Or.inr ⟨Nat.sub_le _ _, rfl, rfl, rfl, rfl, ?_, rfl⟩
    simp only [short]
    cases s.failedOnce <;> simp

/-- A tick never clears the mark of a failed station. -/
theorem afterTick_failedOnce (rules : Rules) (tick : Nat) {s : SimStation}
    (h : s.failedOnce = true) :
    (s.afterTick rules tick).failedOnce = true ∧
      (s.afterTick rules tick).firstFailureTick = s.firstFailureTick := by
  rcases s.afterTick_cases rules tick with ⟨_, _, _, _, _, hf, ht⟩ | ⟨_, _, _, _, _, hf, ht⟩
  · exact ⟨hf.trans h, ht⟩
  · exact ⟨by simp [hf, h], by simp [ht, h]⟩

/-- A station fails in a tick exactly when the tick takes its health to zero. -/
theorem afterTick_fails {rules : Rules} (tick : Nat) {s : SimStation} (hmax : 0 < rules.maxHealth)
    (alive : 0 < s.health) (h : s.failedOnce = false) :
    ((s.afterTick rules tick).failedOnce = true ↔ (s.afterTick rules tick).health = 0) ∧
      ((s.afterTick rules tick).failedOnce = true → (s.afterTick rules tick).firstFailureTick =
        some tick) := by
  rcases s.afterTick_cases rules tick with ⟨hh, _, _, _, _, hf, _⟩ | ⟨_, _, _, _, _, hf, ht⟩
  · rw [hf, h]
    refine ⟨⟨by simp, fun hz => ?_⟩, by simp⟩
    omega
  · rw [hf, ht, h]
    refine ⟨by simp, fun hz => ?_⟩
    simp only [Bool.false_or, decide_eq_true_eq] at hz
    simp [hz]

end SimStation

namespace Vitals

variable {rules : Rules} {ticks tick : Nat} {s₀ s s' : SimStation}

theorem start (h : s.Healthy) : Vitals rules 0 s s where
  counted := by rw [h.shortageTicks, h.fullySuppliedTicks]
  streak := by rw [h.currentShortageStreak, h.longestShortageStreak]
  longest := by rw [h.longestShortageStreak, h.shortageTicks]
  bounded := le_max_left _ _
  dead hz := absurd hz (Nat.pos_iff_ne_zero.mp h.alive)
  marked := by rw [h.failedOnce, h.firstFailureTick]; rfl

theorem alive (h : Vitals rules ticks s₀ s) (hf : s.failedOnce = false) : 0 < s.health := by
  refine Nat.pos_of_ne_zero (fun hz => ?_)
  have hdead := h.dead hz
  simp [hf] at hdead

theorem kept (h : Vitals rules ticks s₀ s) (hk : s.Kept s') : Vitals rules ticks s₀ s' := by
  rw [hk.goods]
  exact ⟨h.counted, h.streak, h.longest, h.bounded, h.dead, h.marked⟩

theorem ticked (h : Vitals rules ticks s₀ s) (hmax : 0 < rules.maxHealth) :
    Vitals rules (ticks + 1) s₀ (s.afterTick rules tick) := by
  have hcounted := h.counted
  have hstreak := h.streak
  have hlongest := h.longest
  have hbounded := h.bounded
  rcases s.afterTick_cases rules tick with
    ⟨hhealth, hshort, hfull, hcurrent, hrun, hfailed, htick⟩ |
      ⟨hhealth, hshort, hfull, hcurrent, hrun, hfailed, htick⟩
  · constructor
    case counted => omega
    case streak => omega
    case longest => omega
    case bounded => omega
    case dead =>
      intro hz
      rw [hfailed]
      exact h.dead (by omega)
    case marked => rw [hfailed, htick, h.marked]
  · constructor
    case counted => omega
    case streak => omega
    case longest => omega
    case bounded => omega
    case dead =>
      intro hz
      simp [hfailed, hz]
    case marked =>
      rw [hfailed, htick]
      have hmarked := h.marked
      cases hf : s.failedOnce with
      | true => simpa [hf] using hmarked
      | false =>
        by_cases hz : (s.afterTick rules tick).health = 0
        · simp [hz]
        · rw [hf] at hmarked
          simpa [hz] using hmarked

end Vitals

/-- Every station of the later economy is one of the earlier, as trading leaves it. -/
def Kept (e e' : SimulatedEconomy) : Prop :=
  ∀ k, Option.Rel SimStation.Kept (e.stations.get? k) (e'.stations.get? k)

theorem Kept.of_eq {e e' : SimulatedEconomy} (h : e'.stations = e.stations) : Kept e e' := by
  intro k
  rw [h]
  cases e.stations.get? k with
  | none => exact Option.Rel.none
  | some s => exact Option.Rel.some (SimStation.Kept.refl s)

theorem Kept.trans {a b c : SimulatedEconomy} (h : Kept a b) (h' : Kept b c) : Kept a c := by
  intro k
  have hab := h k
  have hbc := h' k
  revert hab hbc
  generalize a.stations.get? k = x
  generalize b.stations.get? k = y
  generalize c.stations.get? k = z
  intro hab hbc
  cases hab with
  | none => exact hbc
  | some hab =>
    cases hbc with
    | some hbc => exact Option.Rel.some (hab.trans hbc)

theorem Kept.forth {e e' : SimulatedEconomy} (h : Kept e e') {k : String} {s : SimStation}
    (hs : e.stations.get? k = some s) : ∃ s', e'.stations.get? k = some s' ∧ s.Kept s' := by
  have hk := h k
  rw [hs] at hk
  generalize e'.stations.get? k = x at hk
  cases hk with
  | some hk => exact ⟨_, rfl, hk⟩

theorem Kept.back {e e' : SimulatedEconomy} (h : Kept e e') {k : String} {s' : SimStation}
    (hs : e'.stations.get? k = some s') : ∃ s, e.stations.get? k = some s ∧ s.Kept s' := by
  have hk := h k
  rw [hs] at hk
  generalize e.stations.get? k = x at hk
  cases hk with
  | some hk => exact ⟨_, rfl, hk⟩

theorem Kept.set {e e' : SimulatedEconomy} (h : Kept e e') {k : String} {s s' : SimStation}
    (hs : e'.stations.get? k = some s) (hk : s.Kept s') :
    Kept e { e' with stations := e'.stations.set k s' } := by
  refine h.trans ?_
  intro j
  show Option.Rel _ _ ((e'.stations.set k s').get? j)
  rw [Dict.get?_set]
  split
  next hj =>
    subst hj
    rw [hs]
    exact Option.Rel.some hk
  next => exact Kept.of_eq (e := e') rfl j

namespace SimulatedEconomy

variable {e e' : SimulatedEconomy} {stationId : String} {action : Action} {out : CommandOutcome}

theorem Settles.kept {acceptingId : String} {offer : Offer} {moved : SimulatedEconomy} (hb : Book e)
    (h : Settles e acceptingId offer moved) : Kept e (e.settled moved offer) := by
  obtain ⟨p, hp, hpf, hgive⟩ := h.proposer
  obtain ⟨r, hr, hrf, hreceive⟩ := h.recipient
  have hne := (hb.live offer (findOffer_spec h.found).1 h.opened).parties
  have hmoved := Except.ok.inj (h.goods.symm.trans (moveGoods_eq_ok hp hr hne hgive hreceive))
  have hfirst :=
    (Kept.of_eq (e := e) rfl).set hp (SimStation.Kept.traded hpf offer.give offer.receive)
  have hr' : (e.stations.set offer.proposerId (p.traded offer.give offer.receive)).get?
      offer.recipientId = some r := by
    rw [Dict.get?_set_of_ne _ _ (Ne.symm hne)]
    exact hr
  have hboth := hfirst.set hr' (SimStation.Kept.traded hrf offer.receive offer.give)
  intro k
  have hk := hboth k
  rw [hmoved]
  exact hk

theorem Executed.kept (hb : Book e) (h : Executed e stationId action out e') : Kept e e' := by
  cases h with
  | refused | failed | advertised | posted | adWithdrawn | offerWithdrawn => exact Kept.of_eq rfl
  | settled _ settles =>
    have hcount : Kept e (e.countCommand stationId) := Kept.of_eq rfl
    exact hcount.trans (settles.kept (hb.counted stationId))

theorem applyActions_kept
    (hb : Book e) {actions : List Action} {outs : List (Action × CommandOutcome)}
    (h : e.applyActions stationId actions = .ok (outs, e')) : Kept e e' := by
  have both : Book e' ∧ Kept e e' := by
    refine applyActions_invariant (I := fun _ a => Book a ∧ Kept e a) ?_ ?_ []
      ⟨hb, Kept.of_eq rfl⟩ h
    · rintro _ a _ _ _ b ⟨ha, hk⟩ hx
      exact ⟨ha.executed hx, hk.trans (hx.kept ha)⟩
    · rintro _ a _ _ ⟨ha, hk⟩
      exact ⟨ha.frame rfl rfl rfl rfl le_rfl, hk.trans (Kept.of_eq rfl)⟩
  exact both.2

/-- Stations change by trading, and by the tick. -/
theorem perform_stations (hb : Book e) {op : Operation} {outs : List Processed}
    (h : e.perform op = .ok (outs, e')) :
    (op ≠ .advanceTick ∧ Kept e e') ∨ (op = .advanceTick ∧ outs = [] ∧ e' = e.ticked) := by
  cases perform_performed h with
  | execute hx => exact Or.inl ⟨by simp, (execute_executed hx).kept hb⟩
  | @apply _ _ _ u hbatch =>
    have hk : Kept e u := applyActions_kept hb hbatch
    exact Or.inl ⟨by simp, hk.trans (Kept.of_eq rfl)⟩
  | advanceTick hx => exact Or.inr ⟨rfl, rfl, advanceTick_eq_ticked hb.distinct hx⟩
  | endRun =>
    rw [endRun_eq hb.distinct]
    exact Or.inl ⟨by simp, Kept.of_eq rfl⟩

theorem performs_determined (s : SimulatedEconomy)
    (l : Operation × List Processed) (t u : SimulatedEconomy) (h : Performs s l t) (h' :
      Performs s l u) : t = u :=
  (Prod.mk.inj (Except.ok.inj (h.symm.trans h'))).2

/-- A planet out of business: nothing of it stands, and no dealing with it succeeds. -/
structure Retired (e : SimulatedEconomy) (k : String) : Prop where
  advertisements : ∀ a ∈ e.advertisements, a.stationId ≠ k
  offers : ∀ o ∈ e.offers, o.status = .opened → o.proposerId ≠ k ∧ o.recipientId ≠ k
  commands : ∀ action out e', e.execute k action = .ok (out, e') → out.code ≠ .ok
  addressed : ∀ j give receive expiresTick out e',
    e.execute j (.offer k give receive expiresTick) = .ok (out, e') → out.code ≠ .ok
  settlements : ∀ j offerId out e', e.execute j (.accept offerId) = .ok (out, e') → out.code = .ok →
    ∃ o ∈ e.offers, o.offerId = offerId ∧ o.proposerId ≠ k ∧ o.recipientId ≠ k

theorem retired_of_failed {k : String} {s : SimStation} (hb : Book e) (hd : Board e)
    (hs : e.stations.get? k = some s) (hf : s.failedOnce = true) : Retired e k := by
  have dead : ∀ {t : SimStation}, e.stations.get? k = some t → t.failedOnce ≠ false := by
    intro t ht
    rw [hs] at ht
    cases ht
    simp [hf]
  constructor
  case advertisements =>
    rintro a ha rfl
    obtain ⟨t, ht, halive⟩ := hd.alive a ha
    exact dead ht halive
  case offers =>
    intro o ho hopen
    have hlive := hb.live o ho hopen
    constructor
    · rintro rfl
      obtain ⟨t, ht, halive⟩ := hlive.proposer
      exact dead ht halive
    · rintro rfl
      obtain ⟨t, ht, halive⟩ := hlive.recipient
      exact dead ht halive
  case commands =>
    intro action out e' h hok
    have refused : ∀ {action t}, Admitted e k action t → False :=
      fun admitted => dead admitted.known admitted.standing
    cases execute_executed h with
    | refused hp => exact (precheck_refused_ne_ok hp).1 hok
    | failed admitted | advertised admitted | posted admitted | adWithdrawn admitted
    | offerWithdrawn admitted | settled admitted => exact refused admitted
  case addressed =>
    intro j give receive expiresTick out e' h hok
    cases execute_executed h with
    | refused hp => exact (precheck_refused_ne_ok hp).1 hok
    | failed _ hout => exact hout hok
    | posted admitted =>
      have hcheck := admitted.checked
      simp only [precheckAction] at hcheck
      split at hcheck
      next => simp at hcheck
      next =>
        obtain ⟨t, ht, _, _, halive, _⟩ := precheckOffer_eq_none_iff.mp hcheck
        exact dead ht halive
  case settlements =>
    intro j offerId out e' h hok
    cases execute_executed h with
    | refused hp => exact absurd hok (precheck_refused_ne_ok hp).1
    | failed _ hout => exact absurd hok hout
    | @settled offer _ moved _ settles =>
      obtain ⟨p, hp, hpf, _⟩ := settles.proposer
      obtain ⟨r, hr, hrf, _⟩ := settles.recipient
      refine ⟨offer, (findOffer_spec settles.found).1, rfl, ?_, ?_⟩
      · rintro rfl
        exact dead hp hpf
      · rintro rfl
        exact dead hr hrf

section Runs

variable {e₀ : SimulatedEconomy} {stations : List SimStation} {rules : Rules} {runId : String}
  {ls ms : List (Operation × List Processed)}

/-- In every state the run has gone through, the last one included, `k` had health left. -/
def SoundSoFar (e₀ : SimulatedEconomy) (ls : List (Operation × List Processed))
    (k : String) : Prop :=
  ∀ ms e, ms <+: ls → Machine.Run Performs e₀ ms e → ∃ s, e.stations.get? k = some s ∧ 0 < s.health

/-- The run split at the tick that first took the health of `k` to zero, the
clock then showing `t`. -/
def BrokeAt (e₀ : SimulatedEconomy) (ls : List (Operation × List Processed)) (e : SimulatedEconomy)
    (k : String) (t : Nat) : Prop :=
  ∃ before m n after, ls = before ++ (.advanceTick, []) :: after ∧
    Machine.Run Performs e₀ before m ∧
    Performs m (.advanceTick, []) n ∧ Machine.Run Performs n after e ∧
    SoundSoFar e₀ before k ∧ (∃ s, n.stations.get? k = some s ∧ s.health = 0) ∧ n.tick = t

theorem SoundSoFar.next {k : String} (run : Machine.Run Performs e₀ ls e) (h : SoundSoFar e₀ ls k)
    {l : Operation × List Processed} (hstep : Performs e l e')
    (alive : ∃ s, e'.stations.get? k = some s ∧ 0 < s.health) : SoundSoFar e₀ (ls ++ [l]) k := by
  intro ms m hms hm
  rcases List.prefix_concat_iff.mp hms with heq | hms
  · have hsame : m = e' := by
      refine Machine.Run.functional performs_determined hm ?_
      rw [heq]
      exact run.next hstep
    rw [hsame]
    exact alive
  · exact h ms m hms hm

theorem BrokeAt.next {k : String} {t : Nat} (h : BrokeAt e₀ ls e k t)
    {l : Operation × List Processed} (hstep : Performs e l e') : BrokeAt e₀ (ls ++ [l]) e' k t := by
  obtain ⟨before, m, n, after, hls, hbefore, hbreak, hafter, hsound, hzero, htick⟩ := h
  refine ⟨before, m, n, after ++ [l], ?_, hbefore, hbreak, hafter.next hstep, hsound, hzero, htick⟩
  rw [hls, List.append_assoc]
  rfl

/-- The record a station keeps of its own failure, against the run. -/
structure Chronicle (e₀ : SimulatedEconomy) (ls : List (Operation × List Processed))
    (e : SimulatedEconomy) (k : String) (s : SimStation) : Prop where
  sound : s.failedOnce = false → SoundSoFar e₀ ls k
  broke : ∀ t, s.firstFailureTick = some t → BrokeAt e₀ ls e k t

theorem run_vitals (healthy : ∀ s ∈ stations, s.Healthy) (hmax : 0 < rules.maxHealth)
    (run : Machine.Run Performs (create stations rules runId) ls e) :
    ∀ k s, e.stations.get? k = some s →
    (∃ s₀, (create stations rules runId).stations.get? k = some s₀ ∧
      Vitals rules e.tick s₀ s) ∧ Chronicle (create stations rules runId) ls e k s := by
  have hstart : ∀ k s, (create stations rules runId).stations.get? k = some s → s.Healthy := by
    intro k s hs
    obtain ⟨t, ht, heq⟩ := List.mem_map.mp (Dict.mem_of_get?_ofList hs)
    obtain ⟨_, rfl⟩ := Prod.mk.inj heq
    exact healthy t ht
  induction run with
  | start =>
    intro k s hs
    have hs₀ := hstart k s hs
    refine ⟨⟨s, hs, Vitals.start hs₀⟩, ?_, ?_⟩
    · intro _ ms m hms hm
      rw [List.prefix_nil.mp hms] at hm
      rw [hm.of_nil]
      exact ⟨s, hs, hs₀.alive⟩
    · intro t ht
      rw [hs₀.firstFailureTick] at ht
      simp at ht
  | @next ls e l e' run hstep ih =>
    obtain ⟨op, outs⟩ := l
    obtain ⟨hb, _, hr⟩ := run_board run
    intro k s' hs'
    have hclock := perform_tick hb hstep
    rcases perform_stations hb hstep with ⟨hop, hkept⟩ | ⟨rfl, rfl, hticked⟩
    · obtain ⟨s, hs, hk⟩ := hkept.back hs'
      obtain ⟨⟨s₀, hs₀, hv⟩, hc⟩ := ih k s hs
      rw [if_neg hop, Nat.add_zero] at hclock
      refine ⟨⟨s₀, hs₀, hclock ▸ hv.kept hk⟩, ?_, ?_⟩
      · intro hf
        rw [hk.failedOnce] at hf
        refine (hc.sound hf).next run hstep ⟨s', hs', ?_⟩
        rw [hk.health]
        exact hv.alive hf
      · intro t ht
        exact (hc.broke t (hk.firstFailureTick ▸ ht)).next hstep
    · rw [hticked, show e.ticked.stations = e.stations.mapValues _ from rfl,
        Dict.get?_mapValues] at hs'
      obtain ⟨s, hs, hs'⟩ := Option.map_eq_some_iff.mp hs'
      obtain ⟨⟨s₀, hs₀, hv⟩, hc⟩ := ih k s hs
      have hnow : e'.stations.get? k = some s' := by
        rw [hticked, show e.ticked.stations = e.stations.mapValues _ from rfl,
          Dict.get?_mapValues, hs, ← hs']
        rfl
      rw [if_pos rfl] at hclock
      rw [hr] at hs'
      subst hs'
      have hv' : Vitals rules (e.tick + 1) s₀ (s.afterTick rules (e.tick + 1)) := hv.ticked hmax
      refine ⟨⟨s₀, hs₀, hclock ▸ hv'⟩, ?_, ?_⟩
      · intro hf
        have hold : s.failedOnce = false := by
          by_contra hold
          have := (SimStation.afterTick_failedOnce rules (e.tick + 1)
            (Bool.not_eq_false _ ▸ hold)).1
          simp [hf] at this
        exact (hc.sound hold).next run hstep ⟨_, hnow, hv'.alive hf⟩
      · intro t ht
        cases hold : s.failedOnce with
        | true => exact (hc.broke t
          ((SimStation.afterTick_failedOnce rules (e.tick + 1) hold).2 ▸ ht)).next hstep
        | false =>
          obtain ⟨hzero, hmark⟩ := SimStation.afterTick_fails (e.tick + 1) hmax (hv.alive hold) hold
          have hfailed : (s.afterTick rules (e.tick + 1)).failedOnce = true := by
            rw [hv'.marked, ht]
            rfl
          rw [hmark hfailed] at ht
          exact ⟨ls, e, e', [], rfl, run, hstep, Machine.Run.start, hc.sound hold,
            ⟨_, hnow, hzero.mp hfailed⟩, hclock.trans (Option.some.inj ht)⟩

/-- Once failed, a station stays failed, keeps its mark and trades no more. -/
theorem run_failed (hb : Book e) (run : Machine.Run Performs e ms e') {k : String} {s : SimStation}
    (hs : e.stations.get? k = some s) : ∃ s', e'.stations.get? k = some s' ∧ (s.failedOnce = true →
      s'.failedOnce = true ∧ s'.firstFailureTick = s.firstFailureTick ∧
      s'.imported = s.imported ∧ s'.exported = s.exported) := by
  have both : Book e' ∧ ∃ s', e'.stations.get? k = some s' ∧ (s.failedOnce = true →
      s'.failedOnce = true ∧ s'.firstFailureTick = s.firstFailureTick ∧
      s'.imported = s.imported ∧ s'.exported = s.exported) := by
    refine run.preserves
      (P := fun e' => Book e' ∧ ∃ s', e'.stations.get? k = some s' ∧ (s.failedOnce = true →
      s'.failedOnce = true ∧ s'.firstFailureTick = s.firstFailureTick ∧
      s'.imported = s.imported ∧ s'.exported = s.exported))
      ⟨hb, s, hs, fun hf => ⟨hf, rfl, rfl, rfl⟩⟩ ?_
    rintro a ⟨op, outs⟩ b ⟨ha, t, ht, hfail⟩ hstep
    refine ⟨(run_keeps ha (Machine.Run.single hstep)).1, ?_⟩
    rcases perform_stations ha hstep with ⟨_, hkept⟩ | ⟨_, _, rfl⟩
    · obtain ⟨t', ht', hk⟩ := hkept.forth ht
      refine ⟨t', ht', fun hf => ?_⟩
      obtain ⟨hfailed, hrest⟩ := hfail hf
      rw [hk.failed hfailed]
      exact ⟨hfailed, hrest⟩
    · refine ⟨t.afterTick a.rules (a.tick + 1), ?_, fun hf => ?_⟩
      · rw [show a.ticked.stations = a.stations.mapValues _ from rfl, Dict.get?_mapValues, ht]
        rfl
      · obtain ⟨hfailed, htick, himp, hexp⟩ := hfail hf
        obtain ⟨hfailed', htick'⟩ := SimStation.afterTick_failedOnce a.rules (a.tick + 1) hfailed
        obtain ⟨himp', hexp', _, _⟩ := t.afterTick_fields a.rules (a.tick + 1)
        exact ⟨hfailed', htick'.trans htick, himp'.trans himp, hexp'.trans hexp⟩
  exact both.2

/-- Over every run of healthy stations: failure is final, is marked with the tick
that caused it and ends every dealing of the planet, and the health record adds up. -/
theorem run_failure (healthy : ∀ s ∈ stations, s.Healthy) (hmax : 0 < rules.maxHealth)
    (run : Machine.Run Performs (create stations rules runId) ls e) {k : String} {s : SimStation}
    (hs : e.stations.get? k = some s) :
    (∃ s₀, (create stations rules runId).stations.get? k = some s₀ ∧
      Vitals rules ((ls.map Prod.fst).count .advanceTick) s₀ s) ∧
    (∀ t, s.firstFailureTick = some t → BrokeAt (create stations rules runId) ls e k t) ∧
    (s.failedOnce = false → SoundSoFar (create stations rules runId) ls k) ∧
    (s.failedOnce = true → Retired e k) ∧
    (∀ ms e', Machine.Run Performs e ms e' →
      ∃ s', e'.stations.get? k = some s' ∧ (s.failedOnce = true →
      s'.failedOnce = true ∧ s'.firstFailureTick = s.firstFailureTick ∧
      s'.imported = s.imported ∧ s'.exported = s.exported ∧ Retired e' k)) := by
  obtain ⟨hb, hd, _⟩ := run_board run
  obtain ⟨⟨s₀, hs₀, hv⟩, hc⟩ := run_vitals healthy hmax run k s hs
  refine ⟨⟨s₀, hs₀, run_tick run ▸ hv⟩, hc.broke, hc.sound, retired_of_failed hb hd hs, ?_⟩
  intro ms e' later
  obtain ⟨s', hs', hfail⟩ := run_failed hb later hs
  obtain ⟨hb', hd', _⟩ := run_board (run.trans later)
  refine ⟨s', hs', fun hf => ?_⟩
  obtain ⟨hfailed, htick, himp, hexp⟩ := hfail hf
  exact ⟨hfailed, htick, himp, hexp, retired_of_failed hb' hd' hs' hfailed⟩

/-- A planet without food or components, and one health point to lose. -/
def barePlanet : List SimStation :=
  [{ stationId := "P01", specialty := .water, inventory := ⟨0, 0, 0⟩, health := 1 }]

theorem run_failure_bare :
    ∃ ls e s, Machine.Run Performs (create barePlanet defaultRules "sim") ls e ∧
      e.stations.get? "P01" = some s ∧ s.firstFailureTick = some 1 ∧
      BrokeAt (create barePlanet defaultRules "sim") ls e "P01" 1 := by
  obtain ⟨⟨ls, e⟩, hall, s, hs, ht⟩ :
    ∃ r, (create barePlanet defaultRules "sim").performAll [.advanceTick] = .ok r ∧
      ∃ s, r.2.stations.get? "P01" = some s ∧ s.firstFailureTick = some 1 := ⟨_, rfl, _, rfl, rfl⟩
  have healthy : ∀ s ∈ barePlanet, s.Healthy := by
    intro s hs
    rw [List.mem_singleton.mp hs]
    exact ⟨by decide, rfl, rfl, rfl, rfl, rfl, rfl⟩
  have run := run_of_performAll hall
  obtain ⟨_, hbroke, _⟩ := run_failure healthy (by decide) run hs
  exact ⟨ls, e, s, run, hs, ht, hbroke 1 ht⟩

end Runs

end SimulatedEconomy

end SpaceportBazaar
