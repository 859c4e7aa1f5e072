import SpaceportBazaar.TradingLinks
import SpaceportBazaar.TradingLoop

namespace SpaceportBazaar

/-- What the steps of the loop are made of moves these two. -/
structure Core where
  ids : Option RequestIdGenerator
  trading : Trading

/-- A turn of the link or of the executor, or a change of what the loop shares with them. -/
inductive Micro (w : Wiring) (c : LoopConfig) : Core → Option Trading.Label → Core → Prop
  | turn {ids t event out t'} (step : Trading.Step w t (.link event, out) t') :
    Micro w c ⟨ids, t⟩ (some (.link event, out)) ⟨ids, t'⟩
  | execute {generator t action out t'}
    (step :
    Trading.Step w t (.execute action (generator.cut action.kind generator.counter), out) t') :
    Micro w c ⟨some generator, t⟩
    (some (.execute action (generator.cut action.kind generator.counter), out))
      ⟨some { generator with counter := generator.counter + 1 }, t'⟩
  | shared {ids t} (model : CounterpartyModel) : Micro w c
    ⟨ids, t⟩ none ⟨ids, { t with executor := { t.executor with counterparties := model } }⟩
  | named {t snapshot} (latest : t.link.session.latest = some snapshot) :
    Micro w c ⟨none, t⟩ none ⟨some (RequestIdGenerator.new snapshot.selfStationId c.idPrefix), t⟩

namespace TradingLoop

variable {w : Wiring} {c : LoopConfig} {t t' : TradingLoop}

def core (t : TradingLoop) : Core := ⟨t.ids, t.trading⟩

/-- The executor runs the command the loop acts on, and none otherwise. -/
def Paired (t : TradingLoop) : Prop :=
  match t.stage with
  | .acting a => ∃ x, t.trading.executor.current = some x ∧ x.action = a.action ∧
    x.requestId = a.record.requestId
  | _ => t.trading.executor.current = none

/-- The loop comes to rest without a command under way. -/
structure Leads (w : Wiring) (c : LoopConfig) (t t' : TradingLoop) : Prop where
  idle : t'.trading.executor.current = none
  rests : ∀ a, t'.stage ≠ .acting a
  run : ∃ ms, Machine.Run (Micro w c) t.core ms t'.core

theorem Leads.paired (h : Leads w c t t') : Paired t' := by
  unfold Paired
  split
  next a hstage => exact absurd hstage (h.rests a)
  next => exact h.idle

/-- The first part of a way that goes on. -/
theorem Leads.after {s : TradingLoop} (h : Leads w c t t') {ms : List (Option Trading.Label)}
    (run : Machine.Run (Micro w c) s.core ms t.core) : Leads w c s t' := by
  obtain ⟨ns, hrun⟩ := h.run
  exact ⟨h.idle, h.rests, ms ++ ns, run.trans hrun⟩

theorem Leads.still (idle : t.trading.executor.current = none) (core : t'.core = t.core)
    (rests : ∀ a, t'.stage ≠ .acting a) :
    Leads w c t t' := by
  have htrading : t'.trading = t.trading := congrArg Core.trading core
  exact ⟨by rw [htrading]; exact idle, rests, [], core ▸ .start⟩

/-- The session answers a call of the loop, or enters it. -/
theorem session_run (event : BazaarSession.Event) (idle : t.trading.executor.current = none)
    {souts : List SessionOutput}
    {session : BazaarSession} (plain : ∀ message, event ≠ .item (.message message))
    (own : Trading.sendsCommand (.session event) = false)
    (hs : BazaarSession.step? w.bodyFingerprint t.session event = some (souts, session))
    (quiet : souts.filterMap Link.outgoing = []) :
    ∃ ms, Machine.Run (Micro w c) t.core ms (t.withSession session).core :=
  ⟨_, .single (.turn (Trading.idle_turn idle own (Link.quiet_step plain hs quiet)))⟩

theorem answerAtOnce_session (r : List SessionOutput × BazaarSession) :
    (answerAtOnce r).2 = r.2 := by
  obtain ⟨outs, s⟩ := r
  unfold answerAtOnce
  split
  next heq =>
    cases heq
    rfl
  next heq =>
    cases heq
    rfl

theorem waitForSnapshot_run (idle : t.trading.executor.current = none) (minSequence : Nat) : ∃ ms,
    Machine.Run (Micro w c) t.core ms (t.withSession
      (answerAtOnce (t.session.waitForSnapshot t.session.freshCall minSequence)).2).core := by
  rw [answerAtOnce_session]
  refine session_run (.waitForSnapshot t.session.freshCall minSequence) idle (by simp) rfl ?_
    (BazaarSession.waitForSnapshot_quiet t.session t.session.freshCall minSequence)
  simp [BazaarSession.step?, Dict.contains, BazaarSession.freshCall_new]

theorem waitForReadiness_run (idle : t.trading.executor.current = none) : ∃ ms,
    Machine.Run (Micro w c) t.core ms
      (t.withSession (answerAtOnce (t.session.waitForReadiness t.session.freshCall)).2).core := by
  rw [answerAtOnce_session]
  refine session_run (.waitForReadiness t.session.freshCall) idle (by simp) rfl ?_
    (BazaarSession.waitForReadiness_quiet t.session t.session.freshCall)
  simp [BazaarSession.step?, Dict.contains, BazaarSession.freshCall_new]

theorem observe_leads (idle : t.trading.executor.current = none) (awaited : Snapshot) :
    Leads w c t (t.observe awaited) := by
  obtain ⟨ms, hrun⟩ :=
    session_run (w := w) (c := c) .remainingCommandBudget idle (by simp) rfl rfl rfl
  exact ⟨idle, by simp [observe], ms, hrun⟩

theorem watch_leads (idle : t.trading.executor.current = none) (sequence : Nat) :
    Leads w c t (t.watch c sequence) := by
  obtain ⟨ms, hrun⟩ := waitForSnapshot_run (w := w) (c := c) idle sequence
  unfold watch
  split
  next => exact .still idle rfl (by simp)
  next =>
    dsimp only
    split
    next snapshot session heq =>
      rw [heq] at hrun
      exact (observe_leads (t := t.withSession session) idle snapshot).after hrun
    next session _ heq =>
      rw [heq] at hrun
      exact ⟨idle, by simp, ms, hrun⟩

theorem synchronized_leads (idle : t.trading.executor.current = none) (first : Snapshot) :
    Leads w c t (t.synchronized c first) := by
  unfold synchronized
  split
  next => exact .still idle rfl (by simp)
  next =>
    exact (watch_leads (t := { t with runId := some first.runId }) idle _).after (s := t) .start

theorem awaitReadiness_leads (idle : t.trading.executor.current = none) (first : Snapshot) :
    Leads w c t (t.awaitReadiness c first) := by
  obtain ⟨ms, hrun⟩ := waitForReadiness_run (w := w) (c := c) idle
  unfold awaitReadiness
  dsimp only
  split
  next answer session heq =>
    rw [heq] at hrun
    exact (synchronized_leads (t := t.withSession session) idle first).after hrun
  next session heq =>
    rw [heq] at hrun
    exact ⟨idle, by simp, ms, hrun⟩

theorem begin_leads (idle : t.trading.executor.current = none) : Leads w c t (t.begin c) := by
  obtain ⟨ms, hrun⟩ := waitForSnapshot_run (w := w) (c := c) idle 1
  unfold begin
  dsimp only
  split
  next snapshot session heq =>
    rw [heq] at hrun
    exact (awaitReadiness_leads (t := t.withSession session) idle snapshot).after hrun
  next session _ heq =>
    rw [heq] at hrun
    exact ⟨idle, by simp, ms, hrun⟩

theorem afterStep_leads (idle : t.trading.executor.current = none) (sighting : Sighting) :
    Leads w c t (t.afterStep c sighting) := by
  unfold afterStep
  split
  next => exact .still idle rfl (by simp)
  next => exact watch_leads idle _

theorem resume_leads (idle : t.trading.executor.current = none) (rests : ∀ a, t.stage ≠ .acting a)
    (reply : Except SessionError BazaarSession.Answer) : Leads w c t (t.resume c reply) := by
  unfold resume
  split
  next snapshot _ => exact awaitReadiness_leads idle snapshot
  next first _ _ _ => exact synchronized_leads idle first
  next snapshot _ => exact observe_leads idle snapshot
  next sequence _ _ => exact watch_leads idle sequence
  next => exact .still idle rfl (by simp)
  next => exact .still idle rfl (by simp)
  next => exact .still idle rfl rests

/-- A step of the loop comes to rest, or acts on a command its executor runs. -/
structure Works (w : Wiring) (c : LoopConfig) (t t' : TradingLoop) : Prop where
  paired : Paired t'
  run : ∃ ms, Machine.Run (Micro w c) t.core ms t'.core

theorem Leads.works (h : Leads w c t t') : Works w c t t' := ⟨h.paired, h.run⟩

theorem Works.after {s : TradingLoop} (h : Works w c t t') {ms : List (Option Trading.Label)}
    (run : Machine.Run (Micro w c) s.core ms t.core) : Works w c s t' := by
  obtain ⟨ns, hrun⟩ := h.run
  exact ⟨h.paired, ms ++ ns, run.trans hrun⟩

/-- The loop with the generator's next id used up, and what it was used for. -/
def issue (t : TradingLoop) (generator : RequestIdGenerator) (trading : Trading) : TradingLoop :=
  { t with ids := some { generator with counter := generator.counter + 1 }, trading := trading }

def opening (t : TradingLoop) (sighting : Sighting) (decisionId : Option String) (action : Action)
    (generator : RequestIdGenerator) : EvidenceRecord :=
  EvidenceRecord.start s!"tick-{sighting.snapshot.tick}" action t.session.latest decisionId
    (generator.cut action.kind generator.counter)

/-- How the first action of a decision starts. It is never over at once, but for an error. -/
inductive Begins (w : Wiring) (c : LoopConfig) (t : TradingLoop) (sighting : Sighting)
    (decisionId : Option String) (action : Action) (rest : List Action) : Outs → TradingLoop → Prop
  | unnamed {error} (ids : t.ids = none) :
    Begins w c t sighting decisionId action rest ([], []) { t with stage := .raised error }
  | awaits {generator outs trading} (ids : t.ids = some generator)
    (executed : t.trading.execute w action (generator.cut action.kind generator.counter) =
    some ((outs, none), trading)) :
    Begins w c t sighting decisionId action rest outs { t.issue generator trading with
      stage := .acting ⟨sighting, decisionId, action,
      t.opening sighting decisionId action generator, rest⟩ }
  | refused {generator outs trading error} (ids : t.ids = some generator)
    (executed : t.trading.execute w action (generator.cut action.kind generator.counter) =
      some ((outs, some (.error error)), trading)) :
    Begins w c t sighting decisionId action rest outs (((t.issue generator trading).closeRefused
      (t.opening sighting decisionId action generator) error).except c sighting error)

theorem act_begins {sighting : Sighting}
    {decisionId : Option String} {action : Action} {rest : List Action} {outs : Outs}
    (h : t.act w c sighting decisionId (action :: rest) = some (outs, t')) :
    Begins w c t sighting decisionId action rest outs t' := by
  rw [act, perform] at h
  split at h
  next hids =>
    cases h
    exact .unnamed hids
  next generator hids =>
    have hnext : generator.next action.kind =
        (.ok (generator.cut action.kind generator.counter), { generator with counter :=
        generator.counter + 1 }) :=
      generator.next_eq action.kind
    rw [hnext] at h
    dsimp only at h
    split at h
    next => cases h
    next outs conclusion trading executed =>
      cases conclusion with
      | none =>
        cases h
        exact .awaits hids executed
      | some conclusion =>
        obtain ⟨error, rfl⟩ := Trading.execute_refused executed rfl
        cases h
        exact .refused hids executed

@[simp] theorem closeRecord_core (t : TradingLoop) (record : EvidenceRecord)
    (before : Option Execution) (conclusion : Conclusion) :
    (t.closeRecord record before conclusion).core = t.core := rfl

@[simp] theorem closeRefused_core (t : TradingLoop) (record : EvidenceRecord)
    (error : ExecutionError) :
    (t.closeRefused record error).core = t.core := by
  unfold closeRefused
  split
  next => rfl
  next => split <;> rfl

@[simp] theorem record_core (t : TradingLoop) (action : Action)
    (outcome : BazaarSession.CommandOutcome) :
    (t.record action outcome).core = t.core := by
  unfold record
  dsimp only
  split
  next => split <;> rfl
  next => rfl

@[simp] theorem concluded_core (t : TradingLoop) (action : Action)
    (outcome : BazaarSession.CommandOutcome) :
    (t.concluded action outcome).core = t.core := record_core t action outcome

theorem idle_of_core (core : t'.core = t.core) (idle : t.trading.executor.current = none) :
    t'.trading.executor.current = none := by
  rw [show t'.trading = t.trading from congrArg Core.trading core]
  exact idle

theorem except_leads (idle : t.trading.executor.current = none) (sighting : Sighting)
    (error : ExecutionError) :
    Leads w c t (t.except c sighting error) := by
  unfold TradingLoop.except
  split
  next => exact afterStep_leads idle sighting
  next => exact .still idle rfl (by simp)

theorem Begins.works {sighting : Sighting} {decisionId : Option String} {action : Action}
    {rest : List Action} {outs : Outs} (h : Begins w c t sighting decisionId action rest outs t')
    (idle : t.trading.executor.current = none) :
    Works w c t t' := by
  cases h with
  | unnamed => exact Leads.works (.still idle rfl (by simp))
  | @awaits generator outs trading ids executed =>
    refine ⟨Trading.execute_follows idle executed, ?_⟩
    have hmicro :
      Micro w c ⟨some generator, t.trading⟩ _ _ := .execute (Trading.execute_step idle executed)
    rw [← ids] at hmicro
    exact ⟨_, .single hmicro⟩
  | @refused generator outs trading error ids executed =>
    have hmicro :
      Micro w c ⟨some generator, t.trading⟩ _ _ := .execute (Trading.execute_step idle executed)
    rw [← ids] at hmicro
    have hidle : trading.executor.current = none := Trading.execute_follows idle executed
    have hcore := closeRefused_core (t.issue generator trading)
      (t.opening sighting decisionId action generator) error
    have hrun : Machine.Run (Micro w c) t.core _ (t.issue generator trading).core := .single hmicro
    rw [← hcore] at hrun
    exact ((except_leads (idle_of_core hcore hidle) sighting error).after hrun).works

theorem act_works {sighting : Sighting} {decisionId : Option String}
    {actions : List Action} {outs : Outs} (idle : t.trading.executor.current = none)
    (h : t.act w c sighting decisionId actions = some (outs, t')) :
    Works w c t t' := by
  cases actions with
  | nil =>
    cases h
    exact (afterStep_leads idle sighting).works
  | cons action rest => exact (act_begins h).works idle

theorem settle_works {a : Acting} {before : Option Execution}
    {conclusion : Conclusion} {outs : Outs} (idle : t.trading.executor.current = none)
    (h : t.settle w c a before conclusion = some (outs, t')) :
    Works w c t t' := by
  unfold settle at h
  dsimp only at h
  split at h
  next error =>
    cases h
    exact ((except_leads (t := t.closeRecord a.record before (.error error)) idle a.sighting
      error).after (s := t) .start).works
  next outcome =>
    have hcore :
        ((t.closeRecord a.record before (.ok outcome)).concluded a.action outcome).core = t.core :=
      concluded_core _ _ _
    have hrun : Machine.Run (Micro w c) t.core []
        ((t.closeRecord a.record before (.ok outcome)).concluded a.action outcome).core := by
      rw [hcore]
      exact .start
    exact (act_works (idle_of_core hcore idle) h).after hrun

theorem shareModel_works (h : Works w c t t') : Works w c t t'.shareModel := ⟨h.paired, h.run⟩

/-- A decision goes into the log, or is one more idle one of its tick. -/
inductive Logs (t : TradingLoop) (snapshot : Snapshot) (decision : Decision) :
    Option String → TradingLoop → Prop
  | skipped (skips : t.skipsLog snapshot decision = true) : Logs t snapshot decision none t
  | logged {record evidence} (keeps : t.skipsLog snapshot decision = false)
    (adds : t.evidence.Adds snapshot decision record evidence) :
    Logs t snapshot decision (some record.decisionId)
      { t with evidence := evidence, stats :=
        { t.stats with lastLoggedTick := some snapshot.tick } }

theorem logDecision_logs {snapshot : Snapshot} {decision : Decision}
    {budget : Nat} {decisionId : Option String} (h : t.logDecision c snapshot decision budget =
      .ok (decisionId, t')) : Logs t snapshot decision decisionId t' := by
  unfold logDecision at h
  split at h
  next hskips =>
    cases h
    exact .skipped hskips
  next hkeeps =>
    obtain ⟨passes, _, h⟩ := bind_eq_ok_iff.mp h
    obtain ⟨⟨id, evidence⟩, hdecision, h⟩ := bind_eq_ok_iff.mp h
    cases h
    obtain ⟨record, hadds, rfl⟩ := EvidenceLog.decision_adds hdecision
    exact .logged (by simpa using hkeeps) hadds

theorem Logs.core {snapshot : Snapshot} {decision : Decision} {decisionId : Option String}
    (h : Logs t snapshot decision decisionId t') : t'.core = t.core := by
  cases h with
  | skipped | logged => rfl

theorem decided_works {sighting : Sighting}
    {budget : Nat} {out : Outputs} (idle : t.trading.executor.current = none)
    (h : t.decided w c sighting budget = some (out, t')) : Works w c t t' := by
  unfold decided at h
  split at h
  next =>
    cases h
    exact Leads.works (.still idle rfl (by simp))
  next decision memory _ =>
    have hshared : Machine.Run (Micro w c) t.core [none] (t.learn memory).core :=
      .single (.shared memory.counterparties)
    dsimp only at h
    split at h
    next =>
      cases h
      exact Leads.works ⟨idle, by simp, _, hshared⟩
    next decisionId logged hlog =>
      obtain ⟨⟨outs, acted⟩, hact, heq⟩ := Option.map_eq_some_iff.mp h
      cases heq
      have hcore : logged.core = (t.learn memory).core :=
        (logDecision_logs (t := (t.learn memory).countDecision) hlog).core
      rw [← hcore] at hshared
      exact shareModel_works ((act_works (idle_of_core hcore idle) hact).after hshared)

theorem noteIds_run (c : LoopConfig) (t : TradingLoop) :
    ∃ ms, Machine.Run (Micro w c) t.core ms (t.noteIds c).core := by
  unfold noteIds
  split
  next snapshot hids hlatest =>
    have hmicro : Micro w c ⟨none, t.trading⟩ none _ := .named hlatest
    rw [← hids] at hmicro
    exact ⟨_, .single hmicro⟩
  next => exact ⟨[], .start⟩

theorem noteIds_trading (c : LoopConfig) (t : TradingLoop) :
    (t.noteIds c).trading = t.trading ∧ (t.noteIds c).stage = t.stage := by
  unfold noteIds
  split <;> exact ⟨rfl, rfl⟩

/-- What a turn of the link comes to for the loop. -/
inductive Notices (w : Wiring) (c : LoopConfig) (t : TradingLoop) (before : Option Execution)
    (outs : Outs) :
    Option Conclusion → Outs → TradingLoop → Prop
  | settles {a conclusion r u} (stage : t.stage = .acting a)
    (settled : t.settle w c a before conclusion = some (r, u)) :
    Notices w c t before outs (some conclusion) (outs.1 ++ r.1, outs.2 ++ r.2) u
  | waits {a} (stage : t.stage = .acting a) : Notices w c t before outs none outs t
  | rests {conclusion} (rests : ∀ a, t.stage ≠ .acting a) :
    Notices w c t before outs conclusion outs t
  | replied {conclusion call reply} (rests : ∀ a, t.stage ≠ .acting a)
    (awaited : awaitedCall t.stage = some call)
    (mem : SessionOutput.reply call reply ∈ outs.2) :
    Notices w c t before outs conclusion outs (t.resume c reply)

theorem noticed_notices {before : Option Execution} {outs : Outs} {conclusion : Option Conclusion}
    {r : Outs × TradingLoop} (h : t.noticed w c before outs conclusion = some r) :
    Notices w c t before outs conclusion r.1 r.2 := by
  by_cases hacting : ∃ a, t.stage = .acting a
  · obtain ⟨a, hstage⟩ := hacting
    cases conclusion with
    | none =>
      simp only [noticed, hstage, awaitedCall] at h
      cases h
      exact .waits hstage
    | some conclusion =>
      simp only [noticed, hstage] at h
      obtain ⟨r', hsettle, heq⟩ := Option.map_eq_some_iff.mp h
      cases heq
      exact .settles hstage hsettle
  · have hrests : ∀ a, t.stage ≠ .acting a := fun a hstage => hacting ⟨a, hstage⟩
    unfold noticed at h
    split at h
    next a _ hstage => exact absurd hstage (hrests a)
    next =>
      split at h
      next reply hreply =>
        cases h
        obtain ⟨call, hawaited, hfound⟩ := Option.bind_eq_some_iff.mp hreply
        obtain ⟨o, ho, hto⟩ := List.exists_of_findSome?_eq_some hfound
        rw [Trading.replyTo_eq_some.mp hto] at ho
        exact .replied hrests hawaited ho
      next =>
        cases h
        exact .rests hrests

/-- What a step of the loop can be. -/
inductive Turns (w : Wiring) (c : LoopConfig) (t : TradingLoop) :
    Event → Outputs → TradingLoop → Prop
  | begins (stage : t.stage = .created) : Turns w c t .run (([], []), none) (t.begin c)
  | decides {sighting budget out u} (stage : t.stage = .deciding sighting budget)
    (decided : t.decided w c sighting budget = some (out, u)) : Turns w c t .decided out u
  | turns {event outs conclusion trading r u} (plain : callsSession event = false)
    (turn : Trading.Step w t.trading (.link event, outs, conclusion) trading)
    (notices : Notices w c
    ({ t with trading := trading }.noteIds c) t.trading.executor.current outs conclusion r u) :
    Turns w c t (.link event) (r, none) u.shareModel

theorem step_turns {event : Event} {out : Outputs} (hs : Step w c t (event, out) t') :
    Turns w c t event out t' := by
  have hs : step? w c t event = some (out, t') := hs
  cases event with
  | run =>
    simp only [step?] at hs
    split at hs
    next hstage =>
      cases hs
      exact .begins hstage
    next => cases hs
  | decided =>
    simp only [step?] at hs
    split at hs
    next sighting budget hstage => exact .decides hstage hs
    next => cases hs
  | link event =>
    simp only [step?] at hs
    split at hs
    next => cases hs
    next hplain =>
      obtain ⟨⟨⟨outs, conclusion⟩, trading⟩, hturn, hs⟩ := Option.bind_eq_some_iff.mp hs
      obtain ⟨r, hnoticed, heq⟩ := Option.map_eq_some_iff.mp hs
      cases heq
      exact .turns (by simpa using hplain) hturn (noticed_notices hnoticed)

theorem Paired.resting (h : Paired t) (rests : ∀ a, t.stage ≠ .acting a) :
    t.trading.executor.current = none := by
  unfold Paired at h
  split at h
  next a hacting => exact absurd hacting (rests a)
  next => exact h

theorem Paired.acts {a : Acting} (h : Paired t) (stage : t.stage = .acting a) :
    ∃ x, t.trading.executor.current = some x ∧ x.action = a.action ∧
    x.requestId = a.record.requestId := by
  simpa [Paired, stage] using h

/-- The executor is done with its command before the loop goes on. -/
theorem Notices.idle {before : Option Execution} {event : Link.Event}
    {outs : Outs} {conclusion : Option Conclusion} {trading : Trading} {r : Outs}
    (h : Notices w c ({ t with trading := trading }.noteIds c) before outs conclusion r t')
    (paired : Paired t) (turn : Trading.Step w t.trading (.link event, outs, conclusion) trading) :
    trading.executor.current = none ∨ ∃ a, t.stage = .acting a ∧ conclusion = none ∧ r = outs ∧
      t' = { t with trading := trading }.noteIds c ∧
      ∃ x, trading.executor.current = some x ∧ x.action = a.action ∧
      x.requestId = a.record.requestId := by
  have hstage : ({ t with trading := trading }.noteIds c).stage = t.stage := (noteIds_trading c _).2
  cases h with
  | @settles a conclusion r' u stage settled =>
    obtain ⟨x, hx, _⟩ := paired.acts (hstage.symm.trans stage)
    exact .inl (Trading.turn_follows hx turn)
  | @waits a stage =>
    obtain ⟨x, hx, haction, hid⟩ := paired.acts (hstage.symm.trans stage)
    obtain ⟨y, hy, haction', hid'⟩ := Trading.turn_follows hx turn
    exact .inr ⟨a, hstage.symm.trans stage, rfl, rfl, rfl, y, hy,
      haction'.trans haction, hid'.trans hid⟩
  | rests rests | replied rests =>
    have hidle := paired.resting fun a hacting => rests a (hstage.trans hacting)
    left
    rw [(Trading.turn_idle hidle turn).2]
    exact hidle

/-- Every step of the loop is a run of turns of what it is made of. -/
theorem step_unfolds (w : Wiring) (c : LoopConfig) :
    Machine.Unfolds (Step w c) (Micro w c) core Paired := by
  intro t ⟨event, out⟩ t' paired hs
  suffices hworks : Works w c t t' from ⟨hworks.paired, hworks.run⟩
  cases step_turns hs with
  | begins stage => exact (begin_leads (paired.resting (by simp [stage]))).works
  | decides stage decided => exact decided_works (paired.resting (by simp [stage])) decided
  | @turns event outs conclusion trading r u plain turn notices =>
    have htrading : ({ t with trading := trading }.noteIds c).trading = trading :=
      (noteIds_trading c _).1
    obtain ⟨ms, hnamed⟩ := noteIds_run (w := w) c { t with trading := trading }
    have hrun : Machine.Run (Micro w c) t.core _ ({ t with trading := trading }.noteIds c).core :=
      (Machine.Run.single (.turn turn)).trans hnamed
    refine shareModel_works (Works.after ?_ hrun)
    rcases notices.idle paired turn with hidle | ⟨a, hacting, rfl, rfl, rfl, x, hx, haction, hid⟩
    · rw [← htrading] at hidle
      cases notices with
      | settles stage settled => exact settle_works hidle settled
      | waits stage =>
        have hstage := (noteIds_trading c { t with trading := trading }).2.symm.trans stage
        obtain ⟨x, hx, _⟩ := paired.acts hstage
        obtain ⟨y, hy, _⟩ := Trading.turn_follows hx turn
        rw [htrading] at hidle
        cases hidle.symm.trans hy
      | rests rests => exact Leads.works (.still hidle rfl rests)
      | replied rests awaited mem => exact (resume_leads hidle rests _).works
    · have hstage : ({ t with trading := trading }.noteIds c).stage = .acting a :=
        (noteIds_trading c _).2.trans hacting
      refine ⟨?_, [], .start⟩
      simp only [Paired, hstage, htrading]
      exact ⟨x, hx, haction, hid⟩

end TradingLoop

end SpaceportBazaar
