import SpaceportBazaar.EconomyLedger
import SpaceportBazaar.ServerSteps

namespace SpaceportBazaar

open SimulatedEconomy

/-- What every step of the engine leaves in place: the rules and the known planets. -/
structure Continues (e e' : SimulatedEconomy) : Prop where
  book : Book e'
  rules : e'.rules = e.rules
  runId : e'.runId = e.runId
  known : ∀ k s, e.stations.get? k = some s → ∃ s', e'.stations.get? k = some s'

theorem Continues.refl {e : SimulatedEconomy} (hb : Book e) : Continues e e :=
  ⟨hb, rfl, rfl, fun _ s hs => ⟨s, hs⟩⟩

theorem Continues.trans {a b c : SimulatedEconomy} (h : Continues a b) (h' : Continues b c) :
    Continues a c where
  book := h'.book
  rules := h'.rules.trans h.rules
  runId := h'.runId.trans h.runId
  known k s hs := by
    obtain ⟨s', hs'⟩ := h.known k s hs
    exact h'.known k s' hs'

theorem Continues.bumpVersion {e : SimulatedEconomy} (hb : Book e) : Continues e e.bumpVersion :=
  ⟨hb.frame rfl rfl rfl rfl le_rfl, rfl, rfl, fun _ s hs => ⟨s, hs⟩⟩

theorem Continues.applyProduction {e : SimulatedEconomy} (hb : Book e)
    (production : Option (Nat → Nat → Nat)) :
    Continues e (e.applyProduction production) := by
  cases production with
  | none => exact Continues.refl hb
  | some f =>
    have hafter : ∀ k s, e.stations.get? k = some s →
        ∃ n :
        Int, (e.applyProduction (some f)).stations.get? k = some { s with production := n } := by
      intro k s hs
      obtain ⟨i, hi⟩ := Dict.get?_mapIdxValues_of_some
        (f := fun i s => { s with production := (f e.tick i : Int) }) hs
      exact ⟨_, hi⟩
    refine ⟨?_, rfl, rfl, fun k s hs => ?_⟩
    case refine_2 =>
      obtain ⟨n, hn⟩ := hafter k s hs
      exact ⟨_, hn⟩
    constructor
    case keyed =>
      intro k s hs
      obtain ⟨i, old, hold, rfl⟩ := Dict.get?_mapIdxValues hs
      exact hb.keyed k old hold
    case distinct => exact hb.distinct
    case numbered => exact hb.numbered
    case live =>
      intro o ho hopen
      have hlive := hb.live o ho hopen
      obtain ⟨p, hp, hpf⟩ := hlive.proposer
      obtain ⟨r, hr, hrf⟩ := hlive.recipient
      obtain ⟨n, hn⟩ := hafter _ p hp
      obtain ⟨m, hm⟩ := hafter _ r hr
      exact ⟨hlive.unclosed, hlive.unsettled, hlive.inTime, hlive.parties,
        ⟨_, hn, hpf⟩, ⟨_, hm, hrf⟩⟩
    case receipts => exact hb.receipts

theorem Continues.ticked {e : SimulatedEconomy} (hb : Book e) : Continues e e.ticked := by
  refine ⟨hb.ticked, rfl, rfl, fun k s hs => ?_⟩
  rw [show e.ticked.stations = e.stations.mapValues _ from rfl, Dict.get?_mapValues, hs]
  exact ⟨_, rfl⟩

theorem Continues.endRun {e : SimulatedEconomy} (hb : Book e) : Continues e e.endRun := by
  refine ⟨hb.ended, ?_, ?_, fun k s hs => ⟨s, ?_⟩⟩ <;> rw [endRun_eq hb.distinct]
  exact hs

theorem Continues.moves {production : Option (Nat → Nat → Nat)} {e e' : SimulatedEconomy}
    (hb : Book e) (h : EconomyMoves production e e') : Continues e e' := by
  cases h with
  | same => exact Continues.refl hb
  | bumped => exact Continues.bumpVersion hb
  | ticked ha =>
    rw [advanceTick_eq_ticked hb.distinct ha]
    exact (Continues.ticked hb).trans (Continues.applyProduction hb.ticked production)
  | ended ha =>
    rw [advanceTick_eq_ticked hb.distinct ha]
    have hp := Continues.applyProduction hb.ticked production
    exact ((Continues.ticked hb).trans hp).trans (Continues.endRun hp.book)

theorem Continues.executed {e e' : SimulatedEconomy} {stationId : String} {action : Action}
    {out : CommandOutcome} (hb : Book e) (hx : Executed e stationId action out e') :
    Continues e e' := by
  have hbook := hb.executed hx
  cases hx with
  | settled admitted settles =>
    refine ⟨hbook, rfl, rfl, fun k s hs => ?_⟩
    have hk := moveGoods_standing settles.goods k
    rw [show (e.countCommand stationId).stations.get? k = some s from hs] at hk
    obtain ⟨s', hs', _⟩ := Option.map_eq_some_iff.mp hk
    exact ⟨s', hs'⟩
  | _ => exact ⟨hbook, rfl, rfl, fun k s hs => ⟨s, hs⟩⟩

namespace BazaarServer

variable {sha256 : List UInt8 → String} {s s' : BazaarServer}

def outputs (hist : List (Event × List Output)) : List Output := hist.flatMap Prod.snd

@[simp] theorem outputs_append (hist : List (Event × List Output)) (l : Event × List Output) :
    outputs (hist ++ [l]) = outputs hist ++ l.2 := by
  simp [outputs]

theorem storedFor_record {stationId requestId p rid : String} {stored : Dict String StoredResult}
    {x : StoredResult} (table : s.results.get? stationId = some stored) :
    (s.record stationId stored requestId x).storedFor p rid =
      if p = stationId ∧ rid = requestId then some x else s.storedFor p rid := by
  simp only [storedFor, record, Dict.get?_set]
  by_cases hp : p = stationId
  · subst hp
    by_cases hr : rid = requestId
    · simp [hr]
    · simp [hr, table, Dict.get?_set]
  · simp [hp]

theorem processCommand_cases {c : Nat} {stationId requestId : String} {action : Action}
    {outs : List Output} {outcome : CommandOutcome} {economy : SimulatedEconomy}
    (h : s.processCommand c stationId requestId action = .ok (outs, outcome, economy)) :
    (s.phase ≠ .running ∧ outs = [] ∧ economy = s.economy) ∨
    (s.phase = .running ∧ outs = [.executed c stationId requestId action outcome] ∧
      ∃ e, s.economy.execute stationId action = .ok (outcome, e) ∧
      (economy = e ∨ economy = e.bumpVersion)) := by
  unfold processCommand at h
  split at h
  next hphase =>
    cases Except.ok.inj h
    exact Or.inl ⟨hphase, rfl, rfl⟩
  next hphase =>
    obtain ⟨⟨out, e⟩, hx, h⟩ := bind_eq_ok_iff.mp h
    simp only [pure, Except.pure, Except.ok.injEq, Prod.mk.injEq] at h
    obtain ⟨rfl, rfl, rfl⟩ := h
    refine Or.inr ⟨by simpa using hphase, rfl, e, hx, ?_⟩
    split
    next => exact Or.inr rfl
    next => exact Or.inl rfl

theorem processCommand_code {c : Nat} {stationId requestId : String} {action : Action}
    {outs : List Output} {outcome : CommandOutcome} {economy : SimulatedEconomy}
    (h : s.processCommand c stationId requestId action = .ok (outs, outcome, economy)) :
    outcome.code ≠ .requestIdConflict := by
  unfold processCommand at h
  split at h
  next =>
    cases Except.ok.inj h
    simp
  next =>
    obtain ⟨⟨out, e⟩, hx, h⟩ := bind_eq_ok_iff.mp h
    cases Except.ok.inj h
    exact (execute_executed hx).code_ne_conflict

/-- The engine is only asked about planets it knows, and then it answers. -/
theorem processCommand_error
    {c : Nat} {stationId requestId : String} {action : Action} {raised : Raised}
    (hb : Book s.economy) (h : s.processCommand c stationId requestId action = .error raised) :
    s.economy.stations.get? stationId = none := by
  unfold processCommand at h
  split at h
  next => simp at h
  next =>
    cases hx : s.economy.execute stationId action with
    | error raised' => exact (execute_error hb hx).2
    | ok r => simp [hx, bind, Except.bind, pure, Except.pure] at h

section Processed

variable {c : Nat} {stationId requestId : String} {action : Action} {outs : List Output}
  {outcome : CommandOutcome} {economy : SimulatedEconomy}

theorem processCommand_continues (hb : Book s.economy)
    (h : s.processCommand c stationId requestId action = .ok (outs, outcome, economy)) :
    Continues s.economy economy := by
  rcases processCommand_cases h with ⟨_, _, rfl⟩ | ⟨_, _, e, hx, rfl | rfl⟩
  · exact Continues.refl hb
  · exact Continues.executed hb (execute_executed hx)
  · have hx := Continues.executed hb (execute_executed hx)
    exact hx.trans (Continues.bumpVersion hx.book)

/-- A command reaches the engine at most once, under its own request id. -/
theorem processCommand_executions
    (h : s.processCommand c stationId requestId action = .ok (outs, outcome, economy))
    (p rid : String) :
    outs.countP (fun o => o.isExecution p rid) ≤ if p = stationId ∧
    rid = requestId then 1 else 0 := by
  rcases processCommand_cases h with ⟨_, rfl, _⟩ | ⟨_, rfl, _⟩
  · simp
  · by_cases hk : p = stationId ∧ rid = requestId
    · simp only [if_pos hk]
      exact List.countP_le_length
    · have hne : ¬ (stationId = p ∧ requestId = rid) := fun he => hk ⟨he.1.symm, he.2.symm⟩
      simp [Output.isExecution, hne]

theorem processCommand_carries
    (h : s.processCommand c stationId requestId action = .ok (outs, outcome, economy))
    {o : Output} (ho : o ∈ outs) (p : String) (r : CommandResult) : ¬o.Carries p r := by
  intro hc
  rcases processCommand_cases h with ⟨_, rfl, _⟩ | ⟨_, rfl, _⟩
  · simp at ho
  · cases List.mem_singleton.mp ho
    exact hc.elim

end Processed

theorem init_results {c : Config} {p : String} {stored : Dict String StoredResult}
    (hp : (init c).results.get? p = some stored) : stored = Dict.empty := by
  simp only [init, Dict.get?_mapValues] at hp
  obtain ⟨_, _, rfl⟩ := Option.map_eq_some_iff.mp hp
  rfl

theorem init_storedFor (c : Config) (p requestId : String) :
    (init c).storedFor p requestId = none := by
  unfold storedFor
  cases hp : (init c).results.get? p with
  | none => rfl
  | some stored => simp [init_results hp]

/-- The invariant of the result tables, tied to everything the server put out. -/
structure Recorded (published : Rules) (hist : List (Event × List Output))
    (s : BazaarServer) : Prop where
  book : Book s.economy
  rules : s.economy.rules = published
  known : ∀ p stored, s.results.get? p = some stored → ∃ st, s.economy.stations.get? p = some st
  once : ∀ p rid, (outputs hist).countP (fun o => o.isExecution p rid) ≤
    if (s.storedFor p rid).isSome then 1 else 0
  answered : ∀ o ∈ outputs hist, ∀ p r, o.Carries p r → r.code ≠ .requestIdConflict →
    ∃ rid x, s.storedFor p rid = some x ∧ x.result = r
  keyed : ∀ p rid x, s.storedFor p rid = some x → x.result.requestId = rid
  bounded : ∀ p stored, s.results.get? p = some stored →
    stored.size ≤ published.maxRequestRecordsPerStation

namespace Recorded

variable {published : Rules} {hist : List (Event × List Output)}

theorem calm (h : Recorded published hist s) {l : Event × List Output} (hc : Calm s l.2 s') :
    Recorded published (hist ++ [l]) s' := by
  have hcont := Continues.moves h.book hc.economy
  have hstored : ∀ p rid, s'.storedFor p rid = s.storedFor p rid := by
    intro p rid
    simp [storedFor, hc.results]
  constructor
  case book => exact hcont.book
  case rules => exact hcont.rules.trans h.rules
  case known =>
    intro p stored hp
    obtain ⟨st, hst⟩ := h.known p stored (hc.results ▸ hp)
    exact hcont.known p st hst
  case once =>
    intro p rid
    have hzero : l.2.countP (fun o => o.isExecution p rid) = 0 := List.countP_eq_zero.mpr
      (fun o ho => by simp [(hc.quiet o ho).execution])
    rw [outputs_append, List.countP_append, hzero, hstored]
    exact h.once p rid
  case answered =>
    intro o ho p r hcarries hcode
    rw [outputs_append] at ho
    simp only [hstored]
    rcases List.mem_append.mp ho with ho | ho
    · exact h.answered o ho p r hcarries hcode
    · exact (hc.quiet o ho).carries p r hcarries
  case keyed =>
    intro p rid x hx
    exact h.keyed p rid x (hstored p rid ▸ hx)
  case bounded => rw [hc.results]; exact h.bounded

/-- Replays, conflicts and capacity errors send one message and change no record. -/
theorem answer (h : Recorded published hist s) {l : Event × List Output}
    {o : Output} (hl : l.2 = [o]) (hx : ∀ p rid, o.isExecution p rid = false)
    (hcarries : ∀ p r, o.Carries p r → r.code ≠ .requestIdConflict →
      ∃ rid x, s.storedFor p rid = some x ∧ x.result = r) :
    Recorded published (hist ++ [l]) s := by
  refine ⟨h.book, h.rules, h.known, ?_, ?_, h.keyed, h.bounded⟩
  · intro p rid
    simpa [hl, hx] using h.once p rid
  · intro o' ho p r hc hcode
    rw [outputs_append, hl] at ho
    rcases List.mem_append.mp ho with ho | ho
    · exact h.answered o' ho p r hc hcode
    · cases List.mem_singleton.mp ho
      exact hcarries p r hc hcode

/-- Frames that concern only the coroutines. -/
theorem setStage (h : Recorded published hist s) (c : Nat) (stationId : String) (stage : Stage) :
    Recorded published hist (s.setStage c stationId stage) :=
  ⟨h.book, h.rules, h.known, h.once, h.answered, h.keyed, h.bounded⟩

theorem recorded (h : Recorded published hist s) {l : Event × List Output} {c : Nat}
    {stationId requestId fingerprint : String} {action : Action} {stored : Dict String StoredResult}
    {outs : List Output} {outcome : CommandOutcome} {economy : SimulatedEconomy}
    (table : s.results.get? stationId = some stored) (new : stored.get? requestId = none)
    (room : stored.size < s.economy.rules.maxRequestRecordsPerStation)
    (processed : s.processCommand c stationId requestId action = .ok (outs, outcome, economy))
    (hl : l.2 = outs ++ [.send stationId c
      (.result ({ s with economy := economy }.resultOf requestId outcome))]) :
    Recorded published (hist ++ [l])
      ({ s with economy := economy }.record stationId stored requestId
      ⟨fingerprint, { s with economy := economy }.resultOf requestId outcome⟩) := by
  have hcont := processCommand_continues h.book processed
  have hstored : ∀ p rid, ({ s with economy := economy }.record stationId stored requestId
      ⟨fingerprint, { s with economy := economy }.resultOf requestId outcome⟩).storedFor p rid =
      if p = stationId ∧ rid = requestId then
        some ⟨fingerprint, { s with economy := economy }.resultOf requestId outcome⟩
      else s.storedFor p rid := fun p rid => storedFor_record table
  have hfresh : s.storedFor stationId requestId = none := by simp [storedFor, table, new]
  constructor
  case book => exact hcont.book
  case rules => exact hcont.rules.trans h.rules
  case known =>
    intro p t hp
    simp only [record, Dict.get?_set] at hp
    have hold : ∃ t, s.results.get? p = some t := by
      split at hp
      next hps => exact ⟨stored, hps ▸ table⟩
      next => exact ⟨t, hp⟩
    obtain ⟨t, ht⟩ := hold
    obtain ⟨st, hst⟩ := h.known p t ht
    exact hcont.known p st hst
  case once =>
    intro p rid
    rw [outputs_append, List.countP_append, hstored, hl, List.countP_append]
    have hsend : [Output.send stationId c (.result ({ s with economy := economy }.resultOf requestId
        outcome))].countP (fun o => o.isExecution p rid) = 0 := by simp [Output.isExecution]
    have hold := h.once p rid
    have hnew := processCommand_executions processed p rid
    by_cases hk : p = stationId ∧ rid = requestId
    · obtain ⟨rfl, rfl⟩ := hk
      rw [hfresh] at hold
      simp only [and_self, if_true, Option.isSome_none, Bool.false_eq_true, if_false,
        Option.isSome_some] at hold hnew ⊢
      omega
    · simp only [if_neg hk] at hnew ⊢
      omega
  case answered =>
    intro o ho p r hc hcode
    rw [outputs_append, hl] at ho
    rcases List.mem_append.mp ho with ho | ho
    · obtain ⟨rid, x, hx, hxr⟩ := h.answered o ho p r hc hcode
      refine ⟨rid, x, ?_, hxr⟩
      rw [hstored, if_neg]
      · exact hx
      · rintro ⟨rfl, rfl⟩
        simp [hfresh] at hx
    · rcases List.mem_append.mp ho with ho | ho
      · exact absurd hc (processCommand_carries processed ho p r)
      · cases List.mem_singleton.mp ho
        obtain ⟨rfl, rfl⟩ := hc
        exact ⟨requestId, _, by rw [hstored, if_pos ⟨rfl, rfl⟩], rfl⟩
  case keyed =>
    intro p rid x hx
    rw [hstored] at hx
    split at hx
    next hk =>
      cases Option.some.inj hx
      exact hk.2.symm
    next => exact h.keyed p rid x hx
  case bounded =>
    intro p t hp
    simp only [record, Dict.get?_set] at hp
    split at hp
    next =>
      cases Option.some.inj hp
      rw [Dict.size_set_of_none new]
      rw [h.rules] at room
      exact room
    next => exact h.bounded p t hp

theorem step (h : Recorded published hist s) {l : Event × List Output} (hs : Step sha256 s l s') :
    Recorded published (hist ++ [l]) s' := by
  obtain ⟨ev, outs⟩ := l
  cases step_effect hs with
  | calm hc => exact h.calm hc
  | commanded serving ready hcommand =>
    refine setStage ?_ _ _ _
    cases hcommand with
    | replayed stored same =>
      refine h.answer rfl (fun _ _ => rfl) ?_
      rintro p r ⟨rfl, rfl⟩ _
      exact ⟨_, _, stored, rfl⟩
    | conflicted stored differs =>
      refine h.answer rfl (fun _ _ => rfl) ?_
      rintro p r ⟨rfl, rfl⟩ hcode
      exact absurd rfl hcode
    | full table new full => exact h.answer rfl (fun _ _ => rfl) (fun _ _ hc => hc.elim)
    | recorded table new room processed => exact h.recorded table new room processed rfl

theorem init (c : Config) : Recorded c.rules [] (BazaarServer.init c) := by
  have hb := Continues.applyProduction (Book.create c.stations c.rules c.runId) c.production
  have hnone := init_storedFor c
  constructor
  case book => exact hb.book
  case rules => exact hb.rules
  case known =>
    intro p stored hp
    simp only [BazaarServer.init, Dict.get?_mapValues] at hp
    obtain ⟨st, hst, _⟩ := Option.map_eq_some_iff.mp hp
    exact hb.known p st hst
  case once => intro p rid; simp [outputs]
  case answered => intro o ho; simp [outputs] at ho
  case keyed => intro p rid x hx; simp [hnone] at hx
  case bounded =>
    intro p stored hp
    rw [init_results hp]
    exact Nat.zero_le _

end Recorded

theorem run_recorded {c : Config} {ls : List (Event × List Output)}
    (run : Machine.Run (Step sha256) (init c) ls s) : Recorded c.rules ls s :=
  run.invariant (I := Recorded c.rules) (Recorded.init c) (fun _ _ _ _ h hs => h.step hs)

/-- A verdict that refuses a command touches neither the tables nor the economy. -/
theorem step_verdict {ev : Event} {outs : List Output} (hs : Step sha256 s (ev, outs) s')
    (hv : ∃ o ∈ outs, o.isConflict = true ∨ o.isCapacity = true) :
    s'.results = s.results ∧ s'.economy = s.economy := by
  obtain ⟨o, ho, hv⟩ := hv
  cases step_effect hs with
  | calm hc =>
    have hq := hc.quiet o ho
    simp [hq.conflict, hq.capacity] at hv
  | commanded serving ready hcommand =>
    cases hcommand with
    | replayed => exact ⟨rfl, rfl⟩
    | conflicted => exact ⟨rfl, rfl⟩
    | full => exact ⟨rfl, rfl⟩
    | @recorded stored outs outcome economy table new room processed =>
      exfalso
      have hcode := processCommand_code processed
      rcases List.mem_append.mp ho with ho | ho
      · rcases processCommand_cases processed with ⟨_, rfl, _⟩ | ⟨_, rfl, _⟩
        · simp at ho
        · cases List.mem_singleton.mp ho
          simp [Output.isConflict, Output.isCapacity] at hv
      · cases List.mem_singleton.mp ho
        simp [Output.isConflict, Output.isCapacity, resultOf, hcode] at hv

/-- Over every interleaving: a request id reaches the engine at most once, all
results sent for it but conflicts are one and the same, refusals change nothing,
and the table of a planet stays within its bound. -/
theorem run_results {c : Config} {ls : List (Event × List Output)}
    (run : Machine.Run (Step sha256) (init c) ls s) :
    (∀ p rid, (outputs ls).countP (fun o => o.isExecution p rid) ≤ 1) ∧
    (∀ p r r', (∃ o ∈ outputs ls, o.Carries p r) → (∃ o ∈ outputs ls, o.Carries p r') →
      r.requestId = r'.requestId →
      r.code ≠ .requestIdConflict → r'.code ≠ .requestIdConflict → r = r') ∧
    (∀ p stored, s.results.get? p = some stored →
      stored.size ≤ c.rules.maxRequestRecordsPerStation) ∧
    (∀ ev outs s', Step sha256 s (ev, outs) s' →
      (∃ o ∈ outs, o.isConflict = true ∨ o.isCapacity = true) →
      s'.results = s.results ∧ s'.economy = s.economy) ∧
    (∀ conn p rid action raised, s.processCommand conn p rid action = .error raised →
      s.results.get? p = none) := by
  have h := run_recorded run
  refine ⟨?_, ?_, h.bounded, fun _ _ _ => step_verdict, ?_⟩
  · intro p rid
    have hle := h.once p rid
    split at hle
    next => exact hle
    next => omega
  · rintro p r r' ⟨o, ho, hc⟩ ⟨o', ho', hc'⟩ hid hcode hcode'
    obtain ⟨rid, x, hx, hxr⟩ := h.answered o ho p r hc hcode
    obtain ⟨rid', x', hx', hxr'⟩ := h.answered o' ho' p r' hc' hcode'
    have hkey : rid = rid' := by
      rw [← h.keyed p rid x hx, ← h.keyed p rid' x' hx', hxr, hxr', hid]
    subst hkey
    cases Option.some.inj (hx.symm.trans hx')
    exact hxr.symm.trans hxr'
  · intro conn p rid action raised herr
    have hnone := processCommand_error h.book herr
    cases htable : s.results.get? p with
    | none => rfl
    | some stored =>
      obtain ⟨st, hst⟩ := h.known p stored htable
      simp [hnone] at hst

def pairConfig : Config where
  stations := tradingPair
  rules := defaultRules
  runId := "sim"
  tokens := Dict.ofList [("key-1", "P01"), ("key-2", "P02")]
  openAuth := false
  startWhen := 1
  production := none

def hears (c : Nat) (message : ClientMessage) : Event := .receive c (.binary (.message message))

/-- One planet connects and declares itself ready, which starts the run. -/
def opening : List Event :=
  [.connect 0 true "key-1", .resume 0, hears 0 (.ready "2.0" "sim" true 1),
    .resume 0, .resumeTask 0]

def sendsCommand (c : Nat) (requestId : String) (body : CommandBody) : Event :=
  hears c (.command "2.0" "sim" requestId body)

theorem run_results_retry :
    ∃ ls s, Machine.Run (Step plainDigest) (init pairConfig) ls s ∧
      (outputs ls).countP (fun o => o.isExecution "P01" "r1") = 1 ∧
      (outputs ls).countP (fun o => o.isExecution "P01" "r1") ≤ 1 ∧
      ∀ stored, s.results.get? "P01" = some stored → stored.size ≤ 1000 := by
  have hrun : (Machine.replay (step? plainDigest) (init pairConfig)
      (opening ++ [sendsCommand 0 "r1" (.withdraw "offer-9"), .resume 0,
        sendsCommand 0 "r1" (.withdraw "offer-9")])).map
        (fun r => (outputs r.1).countP (fun o => o.isExecution "P01" "r1")) =
          some 1 := by decide +kernel
  obtain ⟨⟨ls, s⟩, hreplay, hcount⟩ := Option.map_eq_some_iff.mp hrun
  have run := Machine.run_of_replay hreplay
  obtain ⟨honce, _, hsize, _, _⟩ := run_results run
  exact ⟨ls, s, run, hcount, honce "P01" "r1", hsize "P01"⟩

section Retries

variable {p requestId : String} {x : StoredResult}

/-- A stored record is never rewritten. -/
theorem step_storedFor {l : Event × List Output} (hs : Step sha256 s l s')
    (hx : s.storedFor p requestId = some x) : s'.storedFor p requestId = some x := by
  obtain ⟨ev, outs⟩ := l
  cases step_effect hs with
  | calm hc =>
    rw [← hx]
    simp [storedFor, hc.results]
  | commanded serving ready hcommand =>
    cases hcommand with
    | replayed => exact hx
    | conflicted => exact hx
    | full => exact hx
    | recorded table new room processed =>
      refine (storedFor_record table).trans ?_
      rw [if_neg]
      · exact hx
      · rintro ⟨rfl, rfl⟩
        simp [storedFor, table, new] at hx

theorem run_storedFor {t : BazaarServer} {ls : List (Event × List Output)}
    (run : Machine.Run (Step sha256) s ls t) (hx : s.storedFor p requestId = some x) :
    t.storedFor p requestId = some x :=
  run.preserves (P := fun t => t.storedFor p requestId = some x) hx
    (fun _ _ _ h hs => step_storedFor hs h)

/-- The step that first stores a result stores the fingerprint of its own body. -/
theorem step_records {c : Nat} {body : CommandBody} {pv runId : String} {outs : List Output} (hs :
      Step sha256 s (.receive c (.binary (.message (.command pv runId requestId body))), outs) s')
    (new : s.storedFor p requestId = none) (hx : s'.storedFor p requestId = some x) :
    x.fingerprint = fingerprintOf sha256 body ∧ x.result.code ≠ .requestIdConflict := by
  cases step_effect hs with
  | calm hc =>
    have hsame :
      s'.storedFor p requestId = s.storedFor p requestId := by simp [storedFor, hc.results]
    exact absurd (new.symm.trans (hsame.symm.trans hx)) (by simp)
  | commanded serving ready hcommand =>
    cases hcommand with
    | replayed => exact absurd (new.symm.trans hx) (by simp)
    | conflicted => exact absurd (new.symm.trans hx) (by simp)
    | full => exact absurd (new.symm.trans hx) (by simp)
    | @recorded stored outs outcome economy table fresh room processed =>
      have hx' := (storedFor_record table).symm.trans hx
      split at hx'
      next =>
        cases Option.some.inj hx'
        exact ⟨rfl, processCommand_code processed⟩
      next => exact absurd (new.symm.trans hx') (by simp)

/-- What a served and ready connection hears about an id that has a record. -/
theorem receive_stored (sha256 : List UInt8 → String)
    {c : Nat} (body : CommandBody) (serving : s.handlers.get? c = some ⟨p, .serving []⟩)
    (ready : ((s.seatOf.get? c).map Seat.ready).getD false = true)
    (stored : s.storedFor p requestId = some x) : (step? sha256 s
      (.receive c (.binary (.message (.command protocolVersion s.economy.runId requestId
      body))))).map Prod.fst = some (
        if x.fingerprint = fingerprintOf sha256 body then [.send p c (.result x.result)]
        else [.send p c (.result (s.resultOf requestId ⟨.requestIdConflict, none, none⟩))]) := by
  obtain ⟨table, htable, hx⟩ := Option.bind_eq_some_iff.mp stored
  simp only [step?, serving, receive, onMessage, decodeClientMessage, ne_eq, not_true_eq_false,
    if_false, ready, Bool.true_eq_false, command, htable, hx]
  by_cases hfp : x.fingerprint = fingerprintOf sha256 body <;> simp [hfp]

/-- The server tells a retry from another command exactly when the two are not an
accept and a withdraw of one id: those two bodies have the same bytes. -/
theorem retry_recognised_iff {c₁ c₂ : Nat} {pv runId : String} {first second : CommandBody}
    {s₁ t t' : BazaarServer} {outs₁ outs₂ : List Output} {ls : List (Event × List Output)}
    (injective : ∀ {a b}, sha256 a = sha256 b → a = b) (recording : Step sha256 s
      (.receive c₁ (.binary (.message (.command pv runId requestId first))), outs₁) s₁)
    (new : s.storedFor p requestId = none) (stored : s₁.storedFor p requestId = some x)
    (later : Machine.Run (Step sha256) s₁ ls t)
    (serving : t.handlers.get? c₂ = some ⟨p, .serving []⟩)
    (ready : ((t.seatOf.get? c₂).map Seat.ready).getD false = true)
    (repeated : Step sha256 t (.receive c₂ (.binary (.message
      (.command protocolVersion t.economy.runId requestId second))), outs₂) t') :
    ((outs₂ = [.send p c₂ (.result x.result)] ↔ first = second) ∧
      (first ≠ second →
        outs₂ = [.send p c₂ (.result (t.resultOf requestId ⟨.requestIdConflict, none, none⟩))])) ↔
      ¬ CommandBody.Collides first second := by
  obtain ⟨hfp, hcode⟩ := step_records recording new stored
  have hreceive := receive_stored sha256 second serving ready (run_storedFor later stored)
  rw [show step? sha256 t _ = some (outs₂, t') from repeated] at hreceive
  have houts := Option.some.inj hreceive
  rw [hfp] at houts
  simp only [fingerprintOf_eq_iff injective] at houts
  have hdiffer :
      [Output.send p c₂ (.result (t.resultOf requestId ⟨.requestIdConflict, none, none⟩))] ≠
      [.send p c₂ (.result x.result)] := by
    intro h
    simp only [List.cons.injEq, Output.send.injEq, ServerEvent.result.injEq,
      and_true, true_and] at h
    exact hcode (h ▸ rfl)
  by_cases hcollides : CommandBody.Collides first second
  · rw [if_pos (Or.inr hcollides)] at houts
    constructor
    · intro h
      exact absurd (h.1.mp houts) hcollides.ne
    · intro h
      exact absurd hcollides h
  · refine ⟨fun _ => hcollides, fun _ => ?_⟩
    by_cases heq : first = second
    · rw [if_pos (Or.inl heq)] at houts
      exact ⟨⟨fun _ => heq, fun _ => houts⟩, fun hne => absurd heq hne⟩
    · rw [if_neg (by simp [heq, hcollides])] at houts
      exact ⟨⟨fun h => absurd (houts.symm.trans h) hdiffer, fun h => absurd h heq⟩, fun _ => houts⟩

/-- The same accept sent twice is a retry. -/
theorem retry_recognised_iff_accept :
    ∃ t outs₂ x, (outs₂ = [Output.send "P01" 0 (.result x)] ↔
        CommandBody.accept "offer-9" = CommandBody.accept "offer-9") ∧
      ∃ t', Step plainDigest t (sendsCommand 0 "r1" (.accept "offer-9"), outs₂) t' := by
  have hall : ((Machine.replay (step? plainDigest) (init pairConfig) opening).bind (fun r =>
      (step? plainDigest r.2 (sendsCommand 0 "r1" (.accept "offer-9"))).bind (fun f =>
      (step? plainDigest f.2 (.resume 0)).bind (fun g =>
      (step? plainDigest g.2 (sendsCommand 0 "r1" (.accept "offer-9"))).map (fun _ =>
        (r.2.storedFor "P01" "r1", (f.2.storedFor "P01" "r1").isSome, g.2.handlers.get? 0,
          ((g.2.seatOf.get? 0).map Seat.ready).getD false, g.2.economy.runId)))))) =
      some (none, true, some ⟨"P01", .serving []⟩, true, "sim") := by decide +kernel
  obtain ⟨⟨ls, s⟩, _, hall⟩ := Option.bind_eq_some_iff.mp hall
  obtain ⟨⟨outs₁, s₁⟩, hfirst, hall⟩ := Option.bind_eq_some_iff.mp hall
  obtain ⟨⟨outs, t⟩, hresume, hall⟩ := Option.bind_eq_some_iff.mp hall
  obtain ⟨⟨outs₂, t'⟩, hsecond, hall⟩ := Option.map_eq_some_iff.mp hall
  simp only [Prod.mk.injEq] at hall
  obtain ⟨hnew, hstored, hserving, hready, hrun⟩ := hall
  obtain ⟨x, hx⟩ := Option.isSome_iff_exists.mp hstored
  have later : Machine.Run (Step plainDigest) s₁ [(.resume 0, outs)] t := Machine.Run.single hresume
  have repeated :
      Step plainDigest t (.receive 0 (.binary (.message (.command protocolVersion t.economy.runId
      "r1" (.accept "offer-9")))), outs₂) t' := by
    rw [hrun]
    exact hsecond
  obtain ⟨hiff, _⟩ :=
    (retry_recognised_iff plainDigest_injective hfirst hnew hx later hserving hready
    repeated).mpr id
  exact ⟨t, outs₂, x.result, hiff, t', hsecond⟩

/-- A withdraw that reuses the id of an accept of the same object is answered with
the accept's stored result. -/
theorem withdraw_replays_accept :
    (∀ {a b}, plainDigest a = plainDigest b → a = b) ∧
    CommandBody.accept "offer-9" ≠ CommandBody.withdraw "offer-9" ∧
    ∃ ls s outs s' x, Machine.Run (Step plainDigest) (init pairConfig) ls s ∧
      (sendsCommand 0 "r1" (.accept "offer-9"), [Output.executed 0 "P01" "r1"
        (.accept "offer-9") ⟨.notFound, none, none⟩, Output.send "P01" 0 (.result x)]) ∈ ls ∧
      Step plainDigest s (sendsCommand 0 "r1" (.withdraw "offer-9"), outs) s' ∧
      outs = [Output.send "P01" 0 (.result x)] ∧ x.code ≠ .requestIdConflict := by
  refine ⟨plainDigest_injective, by decide, ?_⟩
  have hall : ((Machine.replay (step? plainDigest) (init pairConfig)
      (opening ++ [sendsCommand 0 "r1" (.accept "offer-9"), .resume 0])).bind (fun r =>
      (step? plainDigest r.2 (sendsCommand 0 "r1" (.withdraw "offer-9"))).map (fun f =>
        (decide ((sendsCommand 0 "r1" (.accept "offer-9"),
          [Output.executed 0 "P01" "r1" (.accept "offer-9") ⟨.notFound, none, none⟩,
            Output.send "P01" 0 (.result ⟨"r1", false, .notFound, 0, 2, none, none, none⟩)]) ∈ r.1),
          f.1)))) = some (true,
            [Output.send "P01" 0 (.result ⟨"r1", false, .notFound, 0, 2, none, none, none⟩)]) := by
    decide +kernel
  obtain ⟨⟨ls, s⟩, hreplay, hall⟩ := Option.bind_eq_some_iff.mp hall
  obtain ⟨⟨outs, s'⟩, hsecond, hall⟩ := Option.map_eq_some_iff.mp hall
  simp only [Prod.mk.injEq, decide_eq_true_eq] at hall
  exact ⟨ls, s, outs, s', _, Machine.run_of_replay hreplay, hall.1, hsecond, hall.2, by simp⟩

end Retries

end BazaarServer

end SpaceportBazaar
