import SpaceportBazaar.AnalyzeEvidence
import SpaceportBazaar.LinkSight
import SpaceportBazaar.TradingLoopRecords
import SpaceportBazaar.TradingRun

namespace SpaceportBazaar

open AnalyzeEvidence

namespace EvidenceLog

variable {log log' : EvidenceLog} {last : Option Nat} {due : Option (Option String × List Action)}
  {snapshot : Snapshot} {decision : Decision} {record : DecisionRecord}

/-- A log that is written as a chronicle. `last` is the tick of the last decision in it, and
`due` what is still to be carried out of it, under the id its commands carry. -/
structure Kept (log : EvidenceLog) (last : Option Nat)
    (due : Option (Option String × List Action)) : Prop where
  chronicle : ∃ o, Chronicle log.entries o ∧
    ∀ decisionId action rest, due = some (decisionId, action :: rest) →
    ∃ d n, o = some (d, n) ∧ decisionId = some d.decisionId ∧ d.actions.drop n = action :: rest
  counted : log.decisionCount = (decisionLines log.entries).length
  below : ∀ d ∈ decisionLines log.entries, ∃ tick, last = some tick ∧ d.tick ≤ tick
  seen : ∀ d ∈ decisionLines log.entries, ∀ trade ∈ d.newTransactions,
    trade.transactionId ∈ log.seenTransactions

theorem Kept.rest (h : Kept log last due) : Kept log last none := by
  obtain ⟨o, ho, _⟩ := h.chronicle
  exact ⟨⟨o, ho, fun _ _ _ hdue => by cases hdue⟩, h.counted, h.below, h.seen⟩

/-- One more command of the decision. -/
theorem Kept.completes {decisionId : Option String} {action : Action} {rest : List Action}
    {record : EvidenceRecord} (h : Kept log last (some (decisionId, action :: rest)))
    (hid : record.decisionId = decisionId) (haction : record.action = action) :
    Kept (log.complete record) last (some (decisionId, rest)) := by
  obtain ⟨o, ho, hdue⟩ := h.chronicle
  obtain ⟨d, n, rfl, rfl, hdrop⟩ := hdue decisionId action rest rfl
  have hnext : d.actions[n]? = some record.action := by
    rw [haction, ← List.head?_drop, hdrop]
    rfl
  have hrest : d.actions.drop (n + 1) = rest := by
    rw [← List.tail_drop, hdrop]
    rfl
  refine ⟨⟨_, ho.command hid hnext, fun _ _ _ heq => ?_⟩, ?_, ?_, ?_⟩
  · cases heq
    exact ⟨d, n + 1, rfl, rfl, hrest⟩
  · simpa [complete] using h.counted
  · simpa [complete] using h.below
  · simpa [complete] using h.seen

/-- A state that a decision can be logged on: it is no older than the last one that was, and
it has each trade once. -/
structure Follows (last : Option Nat) (snapshot : Snapshot) : Prop where
  ahead : ∀ tick, last = some tick → tick ≤ snapshot.tick
  once : snapshot.TradesOnce

/-- One more decision; if it is idle, of a newer tick. -/
theorem Kept.adds (h : Kept log last none) (adds : log.Adds snapshot decision record log')
    (follows : Follows last snapshot) (idle : decision.actions = [] → last ≠ some snapshot.tick) :
    Kept log' (some snapshot.tick) (some (some record.decisionId, decision.actions)) := by
  obtain ⟨o, ho, _⟩ := h.chronicle
  have hbelow : ∀ d ∈ decisionLines log.entries, d.tick ≤ snapshot.tick := by
    intro d hd
    obtain ⟨tick, htick, hle⟩ := h.below d hd
    exact hle.trans (follows.ahead tick htick)
  have hdecision : Chronicle (log.entries ++ [.decision record]) (some (record, 0)) := by
    refine ho.decision ?_ (fun hempty d hd htick => ?_) ?_ fun trade htrade d hd hmem => ?_
    · rw [adds.decisionId, h.counted]
    · obtain ⟨tick, hlast, hle⟩ := h.below d hd
      have hsame := follows.ahead tick hlast
      rw [adds.tick] at htick
      refine idle (adds.actions ▸ hempty) ?_
      rw [hlast, show tick = snapshot.tick by omega]
    · rw [adds.newTransactions, newTrades, List.map_map]
      exact follows.once.sublist (List.filter_sublist.map _)
    · rw [adds.newTransactions, newTrades] at htrade
      obtain ⟨txn, htxn, rfl⟩ := List.mem_map.mp htrade
      obtain ⟨trade', htrade', hsame⟩ := List.mem_map.mp hmem
      have hunseen := (List.mem_filter.mp htxn).2
      simp only [decide_eq_true_eq] at hunseen
      exact hunseen ((show trade'.transactionId = txn.transactionId from hsame) ▸ h.seen d
        hd trade' htrade')
  refine ⟨⟨_, adds.entries ▸ hdecision, fun _ _ _ heq => ?_⟩, ?_, ?_, ?_⟩
  · obtain ⟨hid, hactions⟩ := Prod.mk.inj (Option.some.inj heq)
    exact ⟨record, 0, rfl, hid.symm, by rw [adds.actions, hactions]; rfl⟩
  · rw [adds.decisionCount, adds.entries, decisionLines_decision, List.length_append, h.counted]
    rfl
  · rw [adds.entries, decisionLines_decision]
    intro d hd
    refine ⟨snapshot.tick, rfl, ?_⟩
    rcases List.mem_append.mp hd with hd | hd
    · exact hbelow d hd
    · cases List.mem_singleton.mp hd
      exact adds.tick.le
  · rw [adds.entries, decisionLines_decision, adds.seenTransactions]
    intro d hd trade htrade
    rcases List.mem_append.mp hd with hd | hd
    · exact Finset.mem_union_left _ (h.seen d hd trade htrade)
    · cases List.mem_singleton.mp hd
      exact Finset.mem_union_right _ (List.mem_toFinset.mpr (List.mem_map_of_mem htrade))

end EvidenceLog

@[simp] theorem EvidenceRecord.recordOutcome_decisionId (record : EvidenceRecord)
    (outcome : BazaarSession.CommandOutcome) :
    (record.recordOutcome outcome).decisionId = record.decisionId ∧
    (record.recordOutcome outcome).action = record.action := by
  unfold recordOutcome
  split <;> exact ⟨rfl, rfl⟩

@[simp] theorem TradingStats.record_lastLoggedTick (stats : TradingStats) (action : Action)
    (outcome : BazaarSession.CommandOutcome) :
    (stats.record action outcome).lastLoggedTick = stats.lastLoggedTick := by
  unfold record
  cases hgift : action.isGift <;> cases hok : outcome.ok <;> cases action <;> rfl

theorem Trading.step_timed {w : Wiring} {t t' : Trading} {label : Trading.Label} (h : t.link.Timed)
    (hs : Trading.Step w t label t') :
    t'.link.Timed ∧ ∀ tick, t.link.Since tick → t'.link.Since tick := by
  obtain ⟨_, ls, hrun⟩ := Trading.step_links w t label t' trivial hs
  refine hrun.preserves (P := fun l => l.Timed ∧ ∀ tick, t.link.Since tick → l.Since tick)
    ⟨h, fun _ => id⟩ ?_
  rintro l lab l' ⟨htimed, hsince⟩ hstep
  obtain ⟨htimed', hsince'⟩ := Link.step_timed htimed hstep.1
  exact ⟨htimed', fun tick h => hsince' tick (hsince tick h)⟩

namespace TradingLoop

variable {w : Wiring} {c : LoopConfig}
  {t t' : TradingLoop} {last : Option Nat} {due : Option (Option String × List Action)}
  {sighting : Sighting} {decisionId : Option String} {outs : Outs}

/-- The log of the loop, with what is due of its last decision. -/
structure Keeps (last : Option Nat) (due : Option (Option String × List Action))
    (t : TradingLoop) : Prop where
  kept : t.evidence.Kept last due
  last : t.stats.lastLoggedTick = last

/-- What is left of the decision the loop carries out, from the command under way on. -/
def toDo (t : TradingLoop) : Option (Option String × List Action) :=
  match t.stage with
  | .acting a => some (a.decisionId, a.action :: a.rest)
  | _ => none

/-- The log is kept, and the line that is open is that of the action under way. -/
structure Writes (last : Option Nat) (t : TradingLoop) : Prop where
  keeps : Keeps last t.toDo t
  acts : ∀ a, t.stage = .acting a → a.record.decisionId = a.decisionId ∧ a.record.action = a.action

theorem Keeps.of_books (h : Keeps last due t) (books : t'.books = t.books) : Keeps last due t' := by
  have hevidence : t'.evidence = t.evidence := congrArg Prod.fst books
  have hlast : t'.stats.lastLoggedTick = t.stats.lastLoggedTick :=
    congrArg (fun b => b.2.lastLoggedTick) books
  exact ⟨hevidence ▸ h.kept, hlast.trans h.last⟩

theorem Keeps.rests (h : Keeps last due t) (books : t'.books = t.books)
    (rests : ∀ a, t'.stage ≠ .acting a) :
    Writes last t' := by
  have hnone : t'.toDo = none := by
    unfold toDo
    split
    next a hstage => exact absurd hstage (rests a)
    next => rfl
  refine ⟨?_, fun a hstage => absurd hstage (rests a)⟩
  rw [hnone]
  exact Keeps.of_books ⟨h.kept.rest, h.last⟩ books

/-- However the call ends, the line it completes is that of its action. -/
theorem Keeps.closeRecord {action : Action} {rest : List Action} (record : EvidenceRecord)
    (h : Keeps last (some (decisionId, action :: rest)) t) (hid : record.decisionId = decisionId)
    (haction : record.action = action) (before : Option Execution) (conclusion : Conclusion) :
    Keeps last (some (decisionId, rest)) (t.closeRecord record before conclusion) := by
  refine ⟨h.kept.completes ?_ ?_, h.last⟩
  · cases conclusion with
    | ok outcome => exact (record.recordOutcome_decisionId outcome).1.trans hid
    | error error =>
      cases htaken : takenDown before with
      | none => simpa [EvidenceRecord.note, htaken] using hid
      | some outcome => simpa [EvidenceRecord.note, htaken] using hid
  · cases conclusion with
    | ok outcome => exact (record.recordOutcome_decisionId outcome).2.trans haction
    | error error =>
      cases htaken : takenDown before with
      | none => simpa [EvidenceRecord.note, htaken] using haction
      | some outcome => simpa [EvidenceRecord.note, htaken] using haction

theorem Begins.writes {action : Action} {rest : List Action}
    (h : Begins w c t sighting decisionId action rest outs t')
    (idle : t.trading.executor.current = none)
    (keeps : Keeps last (some (decisionId, action :: rest)) t) : Writes last t' := by
  cases h with
  | unnamed => exact keeps.rests rfl (by simp)
  | awaits ids executed =>
    refine ⟨⟨keeps.kept, keeps.last⟩, fun a hstage => ?_⟩
    cases hstage
    exact ⟨rfl, rfl⟩
  | @refused generator outs trading error ids executed =>
    have hissued : Keeps last (some (decisionId, action :: rest)) (t.issue generator trading) :=
      ⟨keeps.kept, keeps.last⟩
    have hclosed : Keeps last none ((t.issue generator trading).closeRefused
        (t.opening sighting decisionId action generator)
        error) := by
      unfold closeRefused
      split
      next => exact ⟨hissued.kept.rest, hissued.last⟩
      next error =>
        split
        next => exact ⟨hissued.kept.rest, hissued.last⟩
        next =>
          have hrecord :=
            hissued.closeRecord (t.opening sighting decisionId action generator) rfl rfl none
            (.error (.session error))
          exact ⟨hrecord.kept.rest, hrecord.last⟩
    have hidle : trading.executor.current = none := Trading.execute_follows idle executed
    have hcore := closeRefused_core (t.issue generator trading)
      (t.opening sighting decisionId action generator) error
    exact hclosed.rests (except_books c _ sighting error)
      (except_leads (w := w) (idle_of_core hcore hidle) sighting error).rests

theorem act_writes {actions : List Action} (idle : t.trading.executor.current = none)
    (keeps : Keeps last (some (decisionId, actions)) t)
    (h : t.act w c sighting decisionId actions = some (outs, t')) :
    Writes last t' := by
  cases actions with
  | nil =>
    cases h
    exact keeps.rests (afterStep_books c t sighting) (afterStep_leads (w := w) idle sighting).rests
  | cons action rest => exact (act_begins h).writes idle keeps

theorem settle_writes {a : Acting} {before : Option Execution} {conclusion : Conclusion}
    (idle : t.trading.executor.current = none)
    (keeps : Keeps last (some (a.decisionId, a.action :: a.rest)) t)
    (acts : a.record.decisionId = a.decisionId ∧ a.record.action = a.action)
    (h : t.settle w c a before conclusion = some (outs, t')) : Writes last t' := by
  have hclosed := keeps.closeRecord _ acts.1 acts.2 before conclusion
  unfold settle at h
  dsimp only at h
  split at h
  next error =>
    cases h
    exact hclosed.rests (except_books c _ a.sighting error)
      (except_leads (w := w)
        (t := t.closeRecord a.record before (.error error)) idle a.sighting error).rests
  next outcome =>
    obtain ⟨memory, latest, hframe⟩ :=
      concluded_frame (t.closeRecord a.record before (.ok outcome)) a.action outcome
    have hcore :
        ((t.closeRecord a.record before (.ok outcome)).concluded a.action outcome).core = t.core :=
      concluded_core _ _ _
    refine act_writes (idle_of_core hcore idle) ?_ h
    rw [hframe]
    exact ⟨hclosed.kept, (TradingStats.record_lastLoggedTick _ _ _).trans hclosed.last⟩

theorem Writes.share (h : Writes last t) :
    Writes last t.shareModel := ⟨⟨h.keeps.kept, h.keeps.last⟩, h.acts⟩

theorem decided_writes {budget : Nat} {out : Outputs} (idle : t.trading.executor.current = none)
    (keeps : Keeps last none t) (follows : EvidenceLog.Follows last sighting.snapshot)
    (h : t.decided w c sighting budget = some (out, t')) :
    Writes last t' ∨ Writes (some sighting.snapshot.tick) t' := by
  unfold decided at h
  split at h
  next =>
    cases h
    exact .inl (keeps.rests rfl (by simp))
  next decision memory _ =>
    have hlearned : Keeps last none (t.learn memory).countDecision := ⟨keeps.kept, keeps.last⟩
    dsimp only at h
    split at h
    next =>
      cases h
      exact .inl (hlearned.rests rfl (by simp))
    next decisionId logged hlog =>
      obtain ⟨⟨outs, acted⟩, hact, heq⟩ := Option.map_eq_some_iff.mp h
      cases heq
      have hlogs := logDecision_logs hlog
      have hidle : logged.trading.executor.current = none := idle_of_core hlogs.core idle
      cases hlogs with
      | skipped skips =>
        left
        simp only [skipsLog, Bool.and_eq_true, List.isEmpty_iff] at skips
        rw [skips.1] at hact
        refine (act_writes hidle ⟨?_, hlearned.last⟩ hact).share
        obtain ⟨o, ho, _⟩ := hlearned.kept.chronicle
        exact ⟨⟨o, ho, fun _ _ _ hdue => by cases hdue⟩, hlearned.kept.counted, hlearned.kept.below,
          hlearned.kept.seen⟩
      | logged keepsLog adds =>
        right
        refine (act_writes hidle
          ⟨hlearned.kept.adds adds follows fun hempty hlast => ?_, rfl⟩ hact).share
        simp only [skipsLog, hempty, hlearned.last, hlast] at keepsLog
        simp at keepsLog

theorem step_writes {label : Label} (paired : Paired t) (h : Writes last t)
    (follows : ∀ sighting budget, t.stage = .deciding sighting budget →
      EvidenceLog.Follows last sighting.snapshot) (hs : Step w c t label t') : Writes last t' ∨
      ∃ sighting budget, t.stage = .deciding sighting budget ∧
      Writes (some sighting.snapshot.tick) t' := by
  obtain ⟨event, out⟩ := label
  have hkeeps : (∀ a, t.stage ≠ .acting a) → Keeps last none t :=
    fun _ => ⟨h.keeps.kept.rest, h.keeps.last⟩
  cases step_turns hs with
  | begins stage =>
    have rests : ∀ a, t.stage ≠ .acting a := by simp [stage]
    exact .inl ((hkeeps rests).rests (begin_books c t)
      (begin_leads (w := w) (paired.resting rests)).rests)
  | @decides sighting budget out u stage decided =>
    have rests : ∀ a, t.stage ≠ .acting a := by simp [stage]
    exact (decided_writes (paired.resting rests) (hkeeps rests)
        (follows sighting budget stage) decided).imp id
      fun hnew => ⟨sighting, budget, stage, hnew⟩
  | @turns event outs conclusion trading r u plain turn notices =>
    left
    have hstage : ({ t with trading := trading }.noteIds c).stage = t.stage :=
      (noteIds_trading c _).2
    have htrading : ({ t with trading := trading }.noteIds c).trading = trading :=
      (noteIds_trading c _).1
    have hkeeps' : Keeps last t.toDo ({ t with trading := trading }.noteIds c) :=
      Keeps.of_books (t := t) h.keeps (noteIds_books c { t with trading := trading })
    have hidle := notices.idle paired turn
    refine Writes.share ?_
    cases notices with
    | @settles a conclusion r' u stage settled =>
      have hacting : t.stage = .acting a := hstage.symm.trans stage
      obtain ⟨x, hx, _⟩ := paired.acts hacting
      have hidle : trading.executor.current = none := Trading.turn_follows hx turn
      have htoDo : t.toDo = some (a.decisionId, a.action :: a.rest) := by simp [toDo, hacting]
      rw [htoDo] at hkeeps'
      exact settle_writes (by rw [htrading]; exact hidle) hkeeps' (h.acts a hacting) settled
    | waits | rests =>
      refine ⟨?_, fun a hacting => h.acts a (hstage.symm.trans hacting)⟩
      simpa [toDo, hstage] using hkeeps'
    | replied rests =>
      have hidle : trading.executor.current = none := by
        rcases hidle with hidle | ⟨a, hacting, _⟩
        · exact hidle
        · exact absurd (hstage.trans hacting) (rests a)
      rw [← htrading] at hidle
      exact hkeeps'.rests (resume_books c _ _) (resume_leads (w := w) hidle rests _).rests

/-- What the loop does keeps the states in sight in order. -/
theorem step_timed {label : Label} (paired : Paired t) (timed : t.trading.link.Timed)
    (hs : Step w c t label t') :
    t'.trading.link.Timed ∧ ∀ tick, t.trading.link.Since tick → t'.trading.link.Since tick := by
  refine ((step_unfolds w c).step_keeps paired hs (P := fun core => core.trading.link.Timed ∧
    ∀ tick, t.trading.link.Since tick → core.trading.link.Since tick) ⟨timed, fun _ => id⟩ ?_).2
  rintro core m core' ⟨htimed, hsince⟩ hm
  cases hm with
  | turn step | execute step =>
    obtain ⟨htimed', hsince'⟩ := Trading.step_timed htimed step
    exact ⟨htimed', fun tick h => hsince' tick (hsince tick h)⟩
  | shared | named => exact ⟨htimed, hsince⟩

/-- Nothing in sight is older than the log, and the log can go on with the state in view. -/
structure Timely (last : Option Nat) (t : TradingLoop) : Prop where
  timed : t.trading.link.Timed
  logged : ∀ tick, last = some tick → t.trading.link.Since tick
  sighted : ∀ sighting budget, t.stage = .deciding sighting budget →
    t.trading.link.Since sighting.snapshot.tick ∧ EvidenceLog.Follows last sighting.snapshot

theorem step_timely {label : Label} {last' : Option Nat} {ds : List Nat} (h : Timely last t)
    (paced : Paced ds t) (hs : Step w c t label t') (hlast : last' = last ∨ ∃ sighting budget,
      t.stage = .deciding sighting budget ∧ last' = some sighting.snapshot.tick) :
    Timely last' t' := by
  obtain ⟨htimed, hsince⟩ := step_timed paced.paired h.timed hs
  have hlogged : ∀ tick, last' = some tick → t'.trading.link.Since tick := by
    rintro tick rfl
    rcases hlast with hsame | ⟨sighting, budget, hstage, hnew⟩
    · exact hsince tick (h.logged tick hsame.symm)
    · rw [Option.some.inj hnew]
      exact hsince _ (h.sighted sighting budget hstage).1
  refine ⟨htimed, hlogged, fun sighting budget hstage => ?_⟩
  rcases step_arrives paced.paired paced.viewing paced.pace hs with harrives | ⟨_, _, hstays, _⟩
  · have hheld : t'.session.latest = some sighting.snapshot := harrives.fresh sighting budget hstage
    refine ⟨htimed.since_held hheld, fun tick htick => ?_, htimed.once _ (.inl hheld)⟩
    exact hlogged tick htick _ (Link.tick_mem hheld)
  · have hstage := hstays.symm.trans hstage
    obtain ⟨hsighted, hfollows⟩ := h.sighted sighting budget hstage
    refine ⟨hsince _ hsighted, fun tick htick => ?_, hfollows.once⟩
    rcases hlast with hsame | ⟨sighting', budget', hstage', hnew⟩
    · exact hfollows.ahead tick (hsame ▸ htick)
    · cases hstage'.symm.trans hstage
      exact (Option.some.inj (htick.symm.trans hnew)).le

/-- The books of the run are the next connection's, and its server has gone on. -/
theorem reconnect_timely (h : Timely last t) : Timely last t.reconnect := by
  obtain ⟨htimed, hsince⟩ := h.timed.renewed t.session.throttle
  exact ⟨htimed, fun tick htick => hsince tick (h.logged tick htick),
    fun _ _ hstage => by cases hstage⟩

theorem reconnect_writes (h : Writes last t) : Writes last t.reconnect :=
  ⟨⟨h.keeps.kept.rest, h.keeps.last⟩, fun _ hstage => by cases hstage⟩

end TradingLoop

namespace TradingRun

open TradingLoop (Paced Writes Timely)

variable {w : Wiring} {c : LoopConfig} {config : Config} {throttle : CommandThrottle}
  {r r' : TradingRun} {label : Label} {hist : List Label}

/-- What the run keeps of its log, whichever connection it is at. -/
def Written (r : TradingRun) : Prop :=
  ∃ ds last, Paced ds r.loop ∧ Writes last r.loop ∧ Timely last r.loop

theorem init_written : (init w c config throttle).Written := by
  refine ⟨[], none, TradingLoop.init_paced, ⟨⟨?_, rfl⟩, fun _ hstage => by cases hstage⟩,
    Link.init_timed config throttle, by simp, fun _ _ hstage => by cases hstage⟩
  exact ⟨⟨none, .start, fun _ _ _ hdue => by cases hdue⟩, rfl,
      by simp [init, TradingLoop.init, decisionLines],
    by simp [init, TradingLoop.init, decisionLines]⟩

theorem step_written (h : r.Written) (hs : Step r label r') : r'.Written := by
  obtain ⟨ds, last, hpaced, hwrites, htimely⟩ := h
  obtain ⟨event, out⟩ := label
  have hs : r.step? event = some (out, r') := hs
  cases event with
  | loop event =>
    obtain ⟨⟨out, t⟩, hstep, heq⟩ := Option.map_eq_some_iff.mp hs
    cases heq
    have hstep : TradingLoop.Step r.wiring r.config r.loop (event, out) t := hstep
    have hfollows := fun sighting budget hstage => (htimely.sighted sighting budget hstage).2
    rcases TradingLoop.step_writes hpaced.paired hwrites hfollows hstep with hsame |
      ⟨sighting, budget, hstage, hnew⟩
    · exact ⟨_, last, TradingLoop.step_paced hpaced hstep, hsame,
        TradingLoop.step_timely htimely hpaced hstep (.inl rfl)⟩
    · exact ⟨_, _, TradingLoop.step_paced hpaced hstep, hnew,
        TradingLoop.step_timely htimely hpaced hstep (.inr ⟨sighting, budget, hstage, rfl⟩)⟩
  | failed =>
    obtain ⟨_, hs⟩ := Option.ite_none_right_eq_some.mp hs
    cases hs
    exact ⟨ds, last, hpaced, hwrites, htimely⟩
  | reconnect connection idPrefix =>
    obtain ⟨_, hs⟩ := Option.ite_none_right_eq_some.mp hs
    cases hs
    exact ⟨[], last, ⟨rfl, BazaarSession.init_viewing _, rfl, rfl, rfl⟩,
      TradingLoop.reconnect_writes hwrites, TradingLoop.reconnect_timely htimely⟩

/-- What is read out of the log of a run is what happened, over all its connections: no decision
is dropped as a repeat, their ids are d1, d2 and so on, each command is put under the decision
that it names, after the ones that come before it there, and no trade is missed or listed twice. -/
theorem run_traced (run : Machine.Run Step (init w c config throttle) hist r) :
    decisions r.loop.evidence.entries = r.loop.evidence.decisions ∧
      (traces r.loop.evidence.entries).filterMap Trace.decision = r.loop.evidence.decisions ∧
      (traces r.loop.evidence.entries).flatMap Trace.outcomes = r.loop.evidence.commands ∧
      (∀ trace ∈ traces r.loop.evidence.entries, ∃ d ∈ r.loop.evidence.decisions, trace.Owns d) ∧
      r.loop.evidence.decisions.map DecisionRecord.decisionId =
        (List.range r.loop.evidence.decisions.length).map (fun i => s!"d{i + 1}") ∧
      completedTrades r.loop.evidence.entries =
        r.loop.evidence.decisions.flatMap DecisionRecord.newTransactions ∧
      ((completedTrades r.loop.evidence.entries).map TradeView.transactionId).Nodup := by
  obtain ⟨_, last, _, hwrites, _⟩ :=
    run.preserves (P := Written) init_written fun _ _ _ => step_written
  obtain ⟨o, hchronicle, _⟩ := hwrites.keeps.kept.chronicle
  obtain ⟨hdecisions, houtcomes, howned⟩ := hchronicle.traces_own
  refine ⟨hchronicle.decisions_eq, hdecisions, houtcomes, howned, hchronicle.numbers,
    hchronicle.completedTrades_eq, ?_⟩
  rw [hchronicle.completedTrades_eq]
  exact hchronicle.trades_nodup

section Samples

open TradingLoop (offerWiring sampleLoop untilDeciding neighbour serves)

inductive Turn
  | loop (turn : TradingLoop.Turn)
  | reconnect (connection : Nat) (idPrefix : String)

def Turn.event (r : TradingRun) : Turn → Option Event
  | .loop turn => (turn.event r.loop).map Event.loop
  | .reconnect connection idPrefix => some (.reconnect connection idPrefix)

def schedule : TradingRun → List Turn → List Event
  | _, [] => []
  | r, turn :: turns =>
    match turn.event r with
    | none => []
    | some event => event :: ((step? r event).map (fun s => schedule s.2 turns)).getD []

noncomputable def start : TradingRun :=
  init offerWiring (sampleLoop .reserveTrader) BazaarServer.pairConfig ⟨4, 0, 0, 0⟩

/-- The loop advertises and offers, and the other planet takes the offer. -/
def taken : List TradingLoop.Turn :=
  untilDeciding ++ neighbour ++
    [.decided, .link (.session (.payloadSent 1 true)),
    .link .up, serves .advance, serves (.resume 0)] ++
    List.replicate 4 (.link .down) ++
    [.link (.session (.resume 1)), .decided, serves (.resume 0), .link
    (.session (.payloadSent 2 true)), .link .up, serves (.resume 1), serves (BazaarServer.hears 1
    (.command "2.0" "sim" "x2" (.accept "offer-3"))), serves (.resume 0), serves .advance] ++
    List.replicate 3 (.link .down) ++ [.link (.session (.resume 2)), .decided]

/-- The connection drops under the next command, and the server goes on. -/
def dropped : List TradingLoop.Turn :=
  [.link (.session (.payloadSent 3 true)), .link (.session (.item .closedSentinel)),
    .link (.session (.resume 3)), serves (.resume 0), serves (.disconnect 0), serves .advance]

def welcomed : List TradingLoop.Turn :=
  [.run, serves (.connect 2 true "key-1"),
    serves (.resume 2), .link .down, .link (.session (.readySent true)),
    .link .up, serves (.resume 2), .link .down, .link (.session (.resume 0)), .decided]

/-- The trade is in the last state of the one connection and in the first of the other. -/
def reconnected : List Turn :=
  (taken ++ dropped).map Turn.loop ++ [.reconnect 2 "again"] ++ welcomed.map Turn.loop

theorem run_traced_reconnected :
    ∃ hist r, Machine.Run Step start hist r ∧ r.config.sessionNumber = 2 ∧
      decisions r.loop.evidence.entries = r.loop.evidence.decisions ∧
      r.loop.evidence.decisions.map DecisionRecord.decisionId = ["d1", "d2", "d3", "d4"] ∧
      (traces r.loop.evidence.entries).map (fun trace => trace.outcomes.length) = [1, 1, 1, 0] ∧
      (∀ trace ∈ traces r.loop.evidence.entries, ∃ d ∈ r.loop.evidence.decisions, trace.Owns d) ∧
      (r.loop.evidence.decisions.flatMap DecisionRecord.newTransactions).map
        TradeView.transactionId = ["txn-4"] := by
  have hall : (Machine.replay step? start (schedule start reconnected)).map (fun s =>
      (s.2.config.sessionNumber, s.2.loop.evidence.decisions.map DecisionRecord.decisionId,
        (traces s.2.loop.evidence.entries).map (fun trace => trace.outcomes.length),
        (completedTrades s.2.loop.evidence.entries).map TradeView.transactionId)) =
      some (2, ["d1", "d2", "d3", "d4"], [1, 1, 1, 0], ["txn-4"]) := by decide +kernel
  obtain ⟨⟨hist, r⟩, hreplay, hall⟩ := Option.map_eq_some_iff.mp hall
  simp only [Prod.mk.injEq] at hall
  obtain ⟨hsession, hids, hlengths, htrades⟩ := hall
  have run := Machine.run_of_replay hreplay
  obtain ⟨hkept, _, _, howned, _, hcompleted, _⟩ := run_traced run
  exact ⟨hist, r, run, hsession, hkept, hids, hlengths, howned, hcompleted ▸ htrades⟩

end Samples

end TradingRun

end SpaceportBazaar
