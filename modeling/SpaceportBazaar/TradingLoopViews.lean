import SpaceportBazaar.TradingLoopSteps

namespace SpaceportBazaar

open BazaarSession (Viewing Onward Shown)

namespace BazaarSession

variable {s : BazaarSession} {call minSequence : Nat} {held : Snapshot}

theorem waitForSnapshot_held (latest : s.latest = some held)
    (reached : minSequence ≤ held.snapshotSequence) :
    s.waitForSnapshot call minSequence = ([.reply call (.ok (.snapshot held))], s) := by
  simp [waitForSnapshot, latest, reached]

/-- The session with a call that awaits a state. -/
structure Entered (s : BazaarSession) (call minSequence : Nat) (t : BazaarSession) : Prop where
  called : s.waitForSnapshot call minSequence = ([], t)
  latest : t.latest = s.latest
  known : t.calls.get? call = some { awaited := .snapshot minSequence, stage := .waiting }

theorem waitForSnapshot_entered (call : Nat)
    (ahead : ∀ held, s.latest = some held → held.snapshotSequence < minSequence) :
    ∃ t, Entered s call minSequence t := by
  refine ⟨{ s with
    snapshotWaiters := s.snapshotWaiters ++ [(minSequence, call)]
    calls := s.calls.set call { awaited := .snapshot minSequence, stage := .waiting } },
    ?_, rfl, by simp⟩
  unfold waitForSnapshot
  dsimp only
  split
  next => rfl
  next held hlatest =>
    have hbelow := ahead held hlatest
    rw [if_neg (by omega)]

theorem waitForReadiness_cases (s : BazaarSession) (call : Nat) :
    (∃ ack, s.waitForReadiness call = ([.reply call (.ok (.readiness ack))], s)) ∨
      ∃ t, s.waitForReadiness call = ([], t) ∧ t.latest = s.latest := by
  unfold waitForReadiness
  split
  next ack _ => exact .inl ⟨ack, rfl⟩
  next => exact .inr ⟨_, rfl, rfl⟩

end BazaarSession

namespace TradingLoop

variable {w : Wiring} {c : LoopConfig} {t t' : TradingLoop} {n : Nat}

/-- The loop has seen the snapshot: its session holds it or a later one. -/
def Past (t : TradingLoop) (snapshot : Snapshot) : Prop :=
  ∃ held, t.session.latest = some held ∧
    (snapshot = held ∨ snapshot.snapshotSequence < held.snapshotSequence)

/-- What the head of the loop comes to. -/
inductive Watches (t : TradingLoop) (n : Nat) : TradingLoop → Prop
  | done : Watches t n { t with stage := .returned }
  | sees {held} (latest : t.session.latest = some held) (reached : n ≤ held.snapshotSequence) :
    Watches t n (t.observe held)
  | waits {session} (ahead : ∀ held, t.session.latest = some held → held.snapshotSequence < n)
    (entered : BazaarSession.Entered t.session t.session.freshCall n session) :
    Watches t n { t.withSession session with stage := .watching n t.session.freshCall }

theorem watch_watches (c : LoopConfig) (t : TradingLoop) (n : Nat) : Watches t n (t.watch c n) := by
  unfold watch
  split
  next => exact .done
  next =>
    by_cases hreached : ∃ held, t.session.latest = some held ∧ n ≤ held.snapshotSequence
    · obtain ⟨held, hlatest, hreached⟩ := hreached
      simp only [BazaarSession.waitForSnapshot_held hlatest hreached, answerAtOnce]
      exact .sees hlatest hreached
    · have hahead : ∀ held, t.session.latest = some held → held.snapshotSequence < n :=
        fun held hlatest => by
        by_contra hle
        exact hreached ⟨held, hlatest, by omega⟩
      obtain ⟨session, hentered⟩ := BazaarSession.waitForSnapshot_entered t.session.freshCall hahead
      simp only [hentered.called, answerAtOnce]
      exact .waits hahead hentered

/-- What the readiness exchange comes to. -/
inductive Readies (t : TradingLoop) (first : Snapshot) : TradingLoop → Prop
  | changed {error} : Readies t first { t with stage := .raised error }
  | watches {u} (watches : Watches { t with runId := some first.runId } first.snapshotSequence u) :
    Readies t first u
  | waits {session call} (called : t.session.waitForReadiness t.session.freshCall = ([], session))
    (latest : session.latest = t.session.latest) :
    Readies t first { t.withSession session with stage := .readying first call }

theorem synchronized_readies (c : LoopConfig) (t : TradingLoop) (first : Snapshot) :
    Readies t first (t.synchronized c first) := by
  unfold synchronized
  split
  next => exact .changed
  next => exact .watches (watch_watches c _ _)

theorem awaitReadiness_readies (c : LoopConfig) (t : TradingLoop) (first : Snapshot) :
    Readies t first (t.awaitReadiness c first) := by
  unfold awaitReadiness
  rcases t.session.waitForReadiness_cases t.session.freshCall with ⟨ack, heq⟩ |
    ⟨session, heq, hlatest⟩
  · simp only [heq, answerAtOnce]
    exact synchronized_readies c t first
  · simp only [heq, answerAtOnce]
    exact .waits heq hlatest

/-- What `run` comes to before its first `await`. -/
inductive Opens (t : TradingLoop) : TradingLoop → Prop
  | readies {held u} (latest : t.session.latest = some held)
    (readies : Readies t held u) : Opens t u
  | waits {session} (entered : BazaarSession.Entered t.session t.session.freshCall 1 session) :
    Opens t { t.withSession session with stage := .opening t.session.freshCall }

theorem begin_opens (c : LoopConfig) (t : TradingLoop) : Opens t (t.begin c) := by
  unfold begin
  by_cases hreached : ∃ held, t.session.latest = some held ∧ 1 ≤ held.snapshotSequence
  · obtain ⟨held, hlatest, hreached⟩ := hreached
    simp only [BazaarSession.waitForSnapshot_held hlatest hreached, answerAtOnce]
    exact .readies hlatest (awaitReadiness_readies c t held)
  · have hahead : ∀ held, t.session.latest = some held → held.snapshotSequence < 1 :=
      fun held hlatest => by
      by_contra hle
      exact hreached ⟨held, hlatest, by omega⟩
    obtain ⟨session, hentered⟩ := BazaarSession.waitForSnapshot_entered t.session.freshCall hahead
    simp only [hentered.called, answerAtOnce]
    exact .waits hentered

/-- The decision is made from the session's own state, be the awaited one older. -/
theorem observe_eq {awaited held : Snapshot} (latest : t.session.latest = some held)
    (shown : awaited = held ∨ awaited.snapshotSequence < held.snapshotSequence) :
    t.observe awaited = { t.withSession t.session.remainingCommandBudget.2 with
      world := (t.world.apply awaited).2
      stats := { t.stats with finalSnapshot := some awaited }
      stage := .deciding ⟨awaited, held⟩ (min 1 t.session.remainingCommandBudget.1) } := by
  have hnewest : (t.session.latest.filter
      (fun latest => awaited.snapshotSequence < latest.snapshotSequence)).getD awaited =
      held := by
    rw [latest, Option.filter_some]
    rcases shown with rfl | hlt
    · simp
    · simp [hlt]
  unfold observe
  simp only [withSession] at hnewest ⊢
  rw [hnewest]

/-- The sequence of the state a step decides on. -/
def decidedSequence (label : Label) : Option Nat := label.2.2.map (fun d => d.1.snapshotSequence)

def decidedSequences (hist : List Label) : List Nat := hist.filterMap decidedSequence

theorem decidedSequences_snoc (hist : List Label) (label : Label) :
    decidedSequences (hist ++ [label]) =
      decidedSequences hist ++ (decidedSequence label).toList := by
  cases h : decidedSequence label <;> simp [decidedSequences, h]

/-- What the loop has to keep in mind to go on with states from `n`. -/
structure Ready (ds : List Nat) (t : TradingLoop) (n : Nat) : Prop where
  seen : ∀ d ∈ ds, ∃ held, t.session.latest = some held ∧ d ≤ held.snapshotSequence
  once : ∀ d ∈ ds, n ≤ d → ds.count d ≤ 1
  unseen : t.world.snapshot.isSome = true → t.world.lastSequence < n
  applied : t.world.ignored = 0

/-- Where the decisions so far leave the loop at each of its awaits. -/
def Pace (ds : List Nat) (t : TradingLoop) : Prop :=
  match t.stage with
  | .created | .readying _ _ => ds = [] ∧ t.world.snapshot = none ∧ t.world.ignored = 0
  | .opening _ => ds = [] ∧ t.world.snapshot = none ∧ t.world.ignored = 0
  | .watching n call => Ready ds t n ∧ (∀ d ∈ ds, d < n) ∧
      ∃ c, t.session.calls.get? call = some c ∧ c.awaited = .snapshot n
  | .deciding sighting _ => (∀ d ∈ ds, d ≤ sighting.awaited.snapshotSequence) ∧
      ds.count sighting.awaited.snapshotSequence ≤ 1 ∧
      sighting.awaited.snapshotSequence ≤ sighting.snapshot.snapshotSequence ∧
      Past t sighting.snapshot ∧
      t.world.lastSequence = sighting.awaited.snapshotSequence ∧ t.world.ignored = 0
  | .acting a => Ready ds t (a.sighting.awaited.snapshotSequence + 1)
  | .returned | .raised _ => t.world.ignored = 0

variable {ds : List Nat}

theorem Ready.onward (h : Ready ds t n) (latest : Onward t.session.latest t'.session.latest)
    (world : t'.world = t.world) :
    Ready ds t' n where
  seen d hd := by
    obtain ⟨held, hheld, hle⟩ := h.seen d hd
    obtain ⟨held', hheld', hcase⟩ := latest held hheld
    refine ⟨held', hheld', ?_⟩
    rcases hcase with rfl | hlt
    · exact hle
    · exact hle.trans hlt.le
  once := h.once
  unseen := by
    rw [world]
    exact h.unseen
  applied := by
    rw [world]
    exact h.applied

/-- The same view and the same model. -/
theorem Ready.same (h : Ready ds t n) (latest : t'.session.latest = t.session.latest)
    (world : t'.world = t.world) :
    Ready ds t' n := h.onward (latest ▸ Onward.refl _) world

/-- A fresh loop is ready for any state. -/
theorem Ready.fresh (empty : ds = []) (unseen : t.world.snapshot = none)
    (applied : t.world.ignored = 0) : Ready ds t n := by
  subst empty
  exact ⟨by simp, by simp, by simp [unseen], applied⟩

/-- While the loop stays where it is, the session may move on. -/
theorem Pace.onward (h : Pace ds t) (stage : t'.stage = t.stage) (world : t'.world = t.world)
    (latest : Onward t.session.latest t'.session.latest)
    (keeps : BazaarSession.Keeps t.session t'.session) : Pace ds t' := by
  unfold Pace at h ⊢
  rw [stage, world]
  split at h
  next => exact h
  next => exact h
  next => exact h
  next n call _ =>
    obtain ⟨hready, hbelow, c, hc, hawaited⟩ := h
    obtain ⟨c', hc', hawaited'⟩ := keeps call c hc
    exact ⟨hready.onward latest world, hbelow, c', hc', hawaited'.trans hawaited⟩
  next sighting _ _ =>
    obtain ⟨hbelow, honce, hle, ⟨held, hheld, hpast⟩, hrest⟩ := h
    obtain ⟨held', hheld', hcase⟩ := latest held hheld
    refine ⟨hbelow, honce, hle, ⟨held', hheld', ?_⟩, hrest⟩
    rcases hcase with rfl | hlt
    · exact hpast
    · rcases hpast with rfl | hpast
      · exact .inr hlt
      · exact .inr (hpast.trans hlt)
  next => exact h.onward latest world
  next => exact h
  next => exact h

theorem Pace.applied (h : Pace ds t) : t.world.ignored = 0 := by
  unfold Pace at h
  split at h
  next => exact h.2.2
  next => exact h.2.2
  next => exact h.2.2
  next => exact h.1.applied
  next => exact h.2.2.2.2.2
  next => exact h.applied
  next => exact h
  next => exact h

/-- The loop comes to its next await; a state it is to decide on is its session's own. -/
structure Arrives (ds : List Nat) (t : TradingLoop) : Prop where
  pace : Pace ds t
  fresh : ∀ sighting budget, t.stage = .deciding sighting budget →
    t.session.latest = some sighting.snapshot

/-- A state that is awaited is new to the model of the world. -/
theorem observe_arrives {awaited held : Snapshot} (latest : t.session.latest = some held)
    (shown : awaited = held ∨ awaited.snapshotSequence < held.snapshotSequence)
    (below : ∀ d ∈ ds, d ≤ awaited.snapshotSequence) (once : ds.count awaited.snapshotSequence ≤ 1)
    (unseen : t.world.snapshot.isSome = true → t.world.lastSequence < awaited.snapshotSequence)
    (applied : t.world.ignored = 0) : Arrives ds (t.observe awaited) := by
  obtain ⟨throttle, _, hbudget⟩ := t.session.remainingCommandBudget_rolled
  have hworld : (t.world.apply awaited).2 = { t.world with
      snapshot := some awaited
      lastSequence := awaited.snapshotSequence
      applied := t.world.applied + 1 } := by
    unfold WorldModel.apply
    rw [if_neg]
    simp only [Bool.and_eq_true, decide_eq_true_eq, not_and, not_le]
    exact unseen
  rw [observe_eq latest shown, hworld, hbudget]
  refine ⟨⟨below, once, ?_, ⟨held, latest, .inl rfl⟩, rfl, applied⟩, ?_⟩
  · rcases shown with rfl | hlt
    · exact le_rfl
    · exact hlt.le
  · rintro sighting budget ⟨⟩
    exact latest

theorem Watches.arrives (h : Watches t n t') (ready : Ready ds t n) : Arrives ds t' := by
  cases h with
  | done => exact ⟨ready.applied, by simp⟩
  | @sees held latest reached =>
    refine observe_arrives latest (.inl rfl) (fun d hd => ?_) ?_
      (fun hsome => (ready.unseen hsome).trans_le reached) ready.applied
    · obtain ⟨held', hheld', hle⟩ := ready.seen d hd
      obtain rfl := Option.some.inj (latest.symm.trans hheld')
      exact hle
    · by_cases hmem : held.snapshotSequence ∈ ds
      · exact ready.once _ hmem reached
      · simp [List.count_eq_zero_of_not_mem hmem]
  | waits ahead entered =>
    refine ⟨⟨ready.same entered.latest rfl, fun d hd => ?_, _, entered.known, rfl⟩, by simp⟩
    obtain ⟨held, hheld, hle⟩ := ready.seen d hd
    exact hle.trans_lt (ahead held hheld)

theorem Readies.arrives {first : Snapshot} (h : Readies t first t') (empty : ds = [])
    (unseen : t.world.snapshot = none) (applied : t.world.ignored = 0) : Arrives ds t' := by
  cases h with
  | changed => exact ⟨applied, by simp⟩
  | watches watches => exact watches.arrives (.fresh empty unseen applied)
  | waits => exact ⟨⟨empty, unseen, applied⟩, by simp⟩

theorem Opens.arrives (h : Opens t t') (empty : ds = []) (unseen : t.world.snapshot = none)
    (applied : t.world.ignored = 0) :
    Arrives ds t' := by
  cases h with
  | readies _ readies => exact readies.arrives empty unseen applied
  | waits => exact ⟨⟨empty, unseen, applied⟩, by simp⟩

theorem afterStep_arrives (c : LoopConfig) {sighting : Sighting}
    (ready : Ready ds t (sighting.awaited.snapshotSequence + 1)) :
    Arrives ds (t.afterStep c sighting) := by
  unfold afterStep
  split
  next => exact ⟨ready.applied, by simp⟩
  next => exact (watch_watches c t _).arrives ready

theorem except_arrives (c : LoopConfig) {sighting : Sighting}
    (ready : Ready ds t (sighting.awaited.snapshotSequence + 1)) (error : ExecutionError) :
    Arrives ds (t.except c sighting error) := by
  unfold TradingLoop.except
  split
  next => exact afterStep_arrives c ready
  next => exact ⟨ready.applied, by simp⟩

variable {sighting : Sighting} {decisionId : Option String} {outs : Outs}

theorem closeRefused_views (t : TradingLoop) (record : EvidenceRecord) (error : ExecutionError) :
    (t.closeRefused record error).world = t.world := by
  unfold closeRefused
  split
  next => rfl
  next => split <;> rfl

theorem record_views (t : TradingLoop) (action : Action) (outcome : BazaarSession.CommandOutcome) :
    (t.record action outcome).world = t.world := by
  unfold record
  dsimp only
  split
  next => split <;> rfl
  next => rfl

theorem session_of_core (core : t'.core = t.core) : t'.session = t.session := by
  have htrading : t'.trading = t.trading := congrArg Core.trading core
  rw [session, session, htrading]

theorem act_arrives {actions : List Action}
    (viewing : t.session.Viewing) (idle : t.trading.executor.current = none)
    (ready : Ready ds t (sighting.awaited.snapshotSequence + 1))
    (h : t.act w c sighting decisionId actions = some (outs, t')) : Arrives ds t' := by
  cases actions with
  | nil =>
    cases h
    exact afterStep_arrives c ready
  | cons action rest =>
    cases act_begins h with
    | unnamed => exact ⟨ready.applied, by simp⟩
    | awaits ids executed =>
      obtain ⟨_, honward, _⟩ := Trading.step_viewing viewing (Trading.execute_step idle executed)
      exact ⟨ready.onward honward rfl, by simp⟩
    | @refused generator outs trading error ids executed =>
      obtain ⟨_, honward, _⟩ := Trading.step_viewing viewing (Trading.execute_step idle executed)
      refine except_arrives c (ready.onward ?_ ?_) error
      · rw [session_of_core (closeRefused_core (t.issue generator trading) _ error)]
        exact honward
      · exact closeRefused_views (t.issue generator trading) _ error

theorem settle_arrives {a : Acting} {before : Option Execution} {conclusion : Conclusion}
    (viewing : t.session.Viewing) (idle : t.trading.executor.current = none)
    (ready : Ready ds t (a.sighting.awaited.snapshotSequence + 1))
    (h : t.settle w c a before conclusion = some (outs, t')) : Arrives ds t' := by
  unfold settle at h
  dsimp only at h
  split at h
  next error =>
    cases h
    have hready : Ready ds (t.closeRecord a.record before (.error error))
        (a.sighting.awaited.snapshotSequence + 1) :=
      ready.same rfl rfl
    exact except_arrives c hready error
  next outcome =>
    have hcore :
        ((t.closeRecord a.record before (.ok outcome)).concluded a.action outcome).core = t.core :=
      concluded_core _ _ _
    have hsession := session_of_core hcore
    refine act_arrives (hsession ▸ viewing) (idle_of_core hcore idle) (ready.same ?_ ?_) h
    · rw [hsession]
    · exact record_views (t.closeRecord a.record before (.ok outcome)) a.action outcome

theorem Logs.world {snapshot : Snapshot} {decision : Decision}
    (h : Logs t snapshot decision decisionId t') :
    t'.world = t.world := by
  cases h with
  | skipped | logged => rfl

/-- After the decision the loop is ready for states after the awaited one. -/
theorem Pace.decided {budget : Nat} (h : Pace ds t) (stage : t.stage = .deciding sighting budget) :
    Ready (ds ++ [sighting.snapshot.snapshotSequence]) t (sighting.awaited.snapshotSequence + 1) ∧
      (∀ d ∈ ds, d ≤ sighting.snapshot.snapshotSequence) ∧
      ds.count sighting.snapshot.snapshotSequence ≤ 1 := by
  simp only [Pace, stage] at h
  obtain ⟨hbelow, honce, hle, ⟨held, hheld, hpast⟩, hworld, happlied⟩ := h
  have hbelow' : ∀ d ∈ ds, d ≤ sighting.snapshot.snapshotSequence :=
    fun d hd => (hbelow d hd).trans hle
  refine ⟨⟨fun d hd => ⟨held, hheld, ?_⟩, fun d hd hlt => ?_, fun _ => by omega, happlied⟩, hbelow',
    ?_⟩
  · have hd : d ≤ sighting.snapshot.snapshotSequence := by
      rcases List.mem_append.mp hd with hd | hd
      · exact hbelow' d hd
      · exact (List.mem_singleton.mp hd).le
    rcases hpast with rfl | hlt
    · exact hd
    · exact hd.trans hlt.le
  · have hnew : d ∉ ds := fun hold => by
      have := hbelow d hold
      omega
    rw [List.count_append, List.count_eq_zero_of_not_mem hnew]
    simpa using List.count_le_length (a := d) (l := [sighting.snapshot.snapshotSequence])
  · rcases hle.eq_or_lt with heq | hlt
    · rwa [← heq]
    · have hnew : sighting.snapshot.snapshotSequence ∉ ds := fun hold => by
        have := hbelow _ hold
        omega
      simp [List.count_eq_zero_of_not_mem hnew]

theorem decided_arrives {budget : Nat}
    {out : Outputs} (viewing : t.session.Viewing) (idle : t.trading.executor.current = none)
    (pace : Pace ds t) (stage : t.stage = .deciding sighting budget)
    (h : t.decided w c sighting budget = some (out, t')) :
    Arrives (ds ++ (out.2.map (fun d => d.1.snapshotSequence)).toList) t' := by
  have hready := (pace.decided stage).1
  have happlied := hready.applied
  unfold TradingLoop.decided at h
  split at h
  next =>
    cases h
    exact ⟨happlied, by simp⟩
  next decision memory _ =>
    dsimp only at h
    split at h
    next =>
      cases h
      exact ⟨happlied, by simp⟩
    next decisionId logged hlog =>
      obtain ⟨⟨outs, acted⟩, hact, heq⟩ := Option.map_eq_some_iff.mp h
      cases heq
      have hlogs := logDecision_logs hlog
      have hcore : logged.core = (t.learn memory).core := hlogs.core
      have hsession : logged.session = (t.learn memory).session := session_of_core hcore
      have hworld : logged.world = (t.learn memory).countDecision.world := hlogs.world
      have hidle : logged.trading.executor.current = none := idle_of_core hcore idle
      have hlogged : logged.session.Viewing := by
        rw [hsession]
        exact viewing
      have harrives := act_arrives hlogged hidle (hready.same (by rw [hsession]; rfl) hworld) hact
      exact ⟨harrives.pace.onward rfl rfl (Onward.refl _) (.refl _), harrives.fresh⟩

/-- What the loop's own call came back with is what it waited for. -/
theorem resume_arrives (rests : ∀ sighting budget, t.stage ≠ .deciding sighting budget)
    (pace : Pace ds t) {reply : Except SessionError BazaarSession.Answer}
    (shown : ∀ n call snapshot, t.stage = .watching n call → reply = .ok (.snapshot snapshot) →
      Shown t.session.latest (.snapshot n) snapshot) : Arrives ds (t.resume c reply) := by
  unfold resume
  split
  next snapshot hstage =>
    simp only [Pace, hstage] at pace
    exact (awaitReadiness_readies c t snapshot).arrives pace.1 pace.2.1 pace.2.2
  next first call ack hstage =>
    simp only [Pace, hstage] at pace
    exact (synchronized_readies c t first).arrives pace.1 pace.2.1 pace.2.2
  next n call snapshot hstage =>
    obtain ⟨⟨minSequence, hmin, hle⟩, held, hheld, hcase⟩ := shown n call snapshot hstage rfl
    obtain rfl : n = minSequence := BazaarSession.Awaited.snapshot.inj hmin
    simp only [Pace, hstage] at pace
    obtain ⟨hready, hbelow, _⟩ := pace
    refine observe_arrives hheld hcase (fun e he => (hbelow e he).le.trans hle) ?_
      (fun hsome => (hready.unseen hsome).trans_le hle) hready.applied
    have hnew : snapshot.snapshotSequence ∉ ds := fun hmem => by
      have := hbelow _ hmem
      omega
    simp [List.count_eq_zero_of_not_mem hnew]
  next n call hstage =>
    simp only [Pace, hstage] at pace
    exact (watch_watches c t n).arrives pace.1
  next => exact ⟨pace.applied, by simp⟩
  next => exact ⟨pace.applied, by simp⟩
  next => exact ⟨pace, fun sighting budget hstage => absurd hstage (rests sighting budget)⟩

theorem Notices.arrives {before : Option Execution} {conclusion : Option Conclusion} {r : Outs}
    (h : Notices w c t before outs conclusion r t') (viewing : t.session.Viewing)
    (idle : ∀ a, t.stage = .acting a → conclusion ≠ none → t.trading.executor.current = none)
    (pace : Pace ds t) (shown : ∀ n call snapshot, t.stage = .watching n call →
      SessionOutput.reply call (.ok (.snapshot snapshot)) ∈ outs.2 →
      Shown t.session.latest (.snapshot n) snapshot) :
    t' = t ∨ Arrives ds t' := by
  cases h with
  | @settles a conclusion r' u stage settled =>
    have hready := pace
    simp only [Pace, stage] at hready
    exact .inr (settle_arrives viewing (idle a stage (by simp)) hready settled)
  | waits => exact .inl rfl
  | rests => exact .inl rfl
  | @replied conclusion call reply rests awaited mem =>
    refine .inr (resume_arrives (fun sighting budget hstage => ?_) pace
      fun n watched snapshot hstage hreply => ?_)
    · rw [hstage] at awaited
      cases awaited
    · subst hreply
      simp only [hstage, awaitedCall] at awaited
      cases awaited
      exact shown n call snapshot hstage mem

/-- A step comes to the next await, or is a turn that the loop sleeps through. -/
theorem step_arrives {label : Label} (paired : Paired t) (viewing : t.session.Viewing)
    (pace : Pace ds t) (hs : Step w c t label t') :
    Arrives (ds ++ (decidedSequence label).toList) t' ∨
      Pace ds t' ∧ decidedSequence label = none ∧ t'.stage = t.stage ∧
        ∃ event out, Trading.Step w t.trading (.link event, out) t'.trading := by
  obtain ⟨event, out⟩ := label
  cases step_turns hs with
  | begins stage =>
    simp only [Pace, stage] at pace
    left
    simpa [decidedSequence] using (begin_opens c t).arrives pace.1 pace.2.1 pace.2.2
  | decides stage decided =>
    exact .inl (decided_arrives viewing (paired.resting (by simp [stage])) pace stage decided)
  | @turns event outs conclusion trading r u plain turn notices =>
    have htrading : ({ t with trading := trading }.noteIds c).trading = trading :=
      (noteIds_trading c _).1
    have hstage : ({ t with trading := trading }.noteIds c).stage = t.stage :=
      (noteIds_trading c _).2
    have hsession : ({ t with trading := trading }.noteIds c).session = trading.link.session := by
      rw [session, htrading]
    obtain ⟨hviewing, honward, hkeeps⟩ := Trading.step_viewing viewing turn
    have hworld : ({ t with trading := trading }.noteIds c).world = t.world := by
      unfold noteIds
      split <;> rfl
    have hpace : Pace ds ({ t with trading := trading }.noteIds c) :=
      pace.onward hstage hworld (hsession ▸ honward) (hsession ▸ hkeeps)
    have hnoticed : u = { t with trading := trading }.noteIds c ∨ Arrives ds u := by
      refine notices.arrives (hsession ▸ hviewing) (fun a hacting hsome => ?_) hpace
        fun n call snapshot hwatching hmem => ?_
      · obtain ⟨x, hx, _⟩ := paired.acts (hstage.symm.trans hacting)
        obtain ⟨concluded, rfl⟩ := Option.ne_none_iff_exists'.mp hsome
        rw [htrading]
        exact Trading.turn_follows hx turn
      · -- the loop waits itself, so the executor leaves the turn alone
        have hwatching : t.stage = .watching n call := hstage.symm.trans hwatching
        simp only [Pace, hwatching] at pace
        obtain ⟨_, _, d, hd, hawaited⟩ := pace
        rw [hsession, ← hawaited]
        exact Trading.turn_shown (paired.resting (by simp [hwatching])) viewing turn hd hmem
    rcases hnoticed with rfl | harrives
    · refine .inr ⟨hpace.onward rfl rfl (Onward.refl _) (.refl _), rfl, hstage, event,
        (outs, conclusion), ?_⟩
      show Trading.Step w t.trading _ ({ t with trading := trading }.noteIds c).trading
      rw [htrading]
      exact turn
    · left
      have hshared : Pace ds u.shareModel := harrives.pace.onward rfl rfl (Onward.refl _) (.refl _)
      simpa [decidedSequence] using (⟨hshared, harrives.fresh⟩ : Arrives ds u.shareModel)

variable {config : Config} {throttle : CommandThrottle} {memory : PolicyMemory}
  {runId : Option String} {stats : TradingStats} {evidence : EvidenceLog} {hist : List Label}

/-- Pairing, order and views are kept together. -/
structure Paced (ds : List Nat) (t : TradingLoop) : Prop where
  paired : Paired t
  viewing : t.session.Viewing
  pace : Pace ds t

theorem micro_viewing {core core' : Core} {label : Option Trading.Label}
    (h : Micro w c core label core') (viewing : core.trading.link.session.Viewing) :
    core'.trading.link.session.Viewing := by
  cases h with
  | turn step => exact (Trading.step_viewing viewing step).1
  | execute step => exact (Trading.step_viewing viewing step).1
  | shared | named => exact viewing

theorem step_paced {label : Label} (h : Paced ds t) (hs : Step w c t label t') :
    Paced (ds ++ (decidedSequence label).toList) t' := by
  obtain ⟨hpaired', hviewing'⟩ := (step_unfolds w c).step_keeps h.paired hs
    (P := fun core => core.trading.link.session.Viewing) h.viewing
      (fun _ _ _ hviewing hm => micro_viewing hm hviewing)
  refine ⟨hpaired', hviewing', ?_⟩
  rcases step_arrives h.paired h.viewing h.pace hs with harrives | ⟨hpace', hnone, _⟩
  · exact harrives.pace
  · simpa [hnone] using hpace'

theorem init_paced : Paced [] (init config throttle memory runId stats evidence) :=
  ⟨rfl, BazaarSession.init_viewing throttle, rfl, rfl, rfl⟩

/-- A decision is made on the state that was sighted, whatever comes of it. -/
theorem decided_output {budget : Nat} {out : Outputs} {snapshot : Snapshot} {decision : Decision}
    (h : t.decided w c sighting budget = some (out, t')) (ho : out.2 = some (snapshot, decision)) :
    snapshot = sighting.snapshot ∧ ∃ memory,
    c.strategy.decide sighting.snapshot t.memory t.trading.executor.commitments
      (some budget) = .ok (decision, memory) := by
  unfold TradingLoop.decided at h
  split at h
  next =>
    cases h
    cases ho
  next decision' memory hdecide =>
    dsimp only at h
    split at h
    next =>
      cases h
      cases ho
    next =>
      obtain ⟨_, _, heq⟩ := Option.map_eq_some_iff.mp h
      cases heq
      cases ho
      exact ⟨rfl, memory, hdecide⟩

theorem step_decided {label : Label} {snapshot : Snapshot} {decision : Decision}
    (hs : Step w c t label t') (ho : label.2.2 = some (snapshot, decision)) :
    ∃ sighting budget, t.stage = .deciding sighting budget ∧
      snapshot = sighting.snapshot ∧
      ∃ memory, c.strategy.decide sighting.snapshot t.memory t.trading.executor.commitments
        (some budget) = .ok (decision, memory) := by
  obtain ⟨event, out⟩ := label
  cases step_turns hs with
  | begins => cases ho
  | @decides sighting budget out u stage decided =>
    exact ⟨sighting, budget, stage, decided_output decided ho⟩
  | turns => cases ho

/-- On one connection the loop decides in the order of the states, on none of them more than
twice, and its model of the world takes every state it is given. -/
theorem run_in_order (run :
      Machine.Run (Step w c) (init config throttle memory runId stats evidence) hist t) :
    (decidedSequences hist).Pairwise (· ≤ ·) ∧ (∀ n, (decidedSequences hist).count n ≤ 2) ∧
    t.world.ignored = 0 := by
  have hall : Paced (decidedSequences hist) t ∧ (decidedSequences hist).Pairwise (· ≤ ·) ∧
      ∀ n, (decidedSequences hist).count n ≤ 2 := by
    refine run.invariant (I := fun hist t => Paced (decidedSequences hist) t ∧
      (decidedSequences hist).Pairwise (· ≤ ·) ∧ ∀ n, (decidedSequences hist).count n ≤ 2)
      ⟨init_paced, .nil, by simp [decidedSequences]⟩ ?_
    · rintro hist t label t' ⟨hpaced, hsorted, htwice⟩ hs
      rw [decidedSequences_snoc]
      refine ⟨step_paced hpaced hs, ?_⟩
      cases hd : decidedSequence label with
      | none => simpa using ⟨hsorted, htwice⟩
      | some n =>
        obtain ⟨⟨snapshot, decision⟩, ho, rfl⟩ := Option.map_eq_some_iff.mp hd
        obtain ⟨sighting, budget, hstage, rfl, _⟩ := step_decided hs ho
        obtain ⟨_, hbelow, honce⟩ := hpaced.pace.decided hstage
        refine ⟨List.pairwise_append.mpr
          ⟨hsorted, List.pairwise_singleton _ _, by simpa using hbelow⟩, fun m => ?_⟩
        by_cases hm : m = sighting.snapshot.snapshotSequence
        · subst hm
          simpa using honce
        · simpa [List.count_singleton, Ne.symm hm] using htwice m
  exact ⟨hall.2.1, hall.2.2, hall.1.pace.applied⟩

section Samples

/-- A turn of the loop, of its strategy's thread or of the link. -/
inductive Turn
  | run
  | decided
  | link (turn : Link.Turn)

def Turn.event (t : TradingLoop) : Turn → Option Event
  | .run => some .run
  | .decided => some .decided
  | .link turn => (turn.event t.trading.link).map Event.link

def schedule (w : Wiring) (c : LoopConfig) : TradingLoop → List Turn → List Event
  | _, [] => []
  | t, turn :: turns =>
    match turn.event t with
    | none => []
    | some event => event :: ((step? w c t event).map (fun r => schedule w c r.2 turns)).getD []

def sampleLoop (strategy : Strategy) : LoopConfig where
  strategy := strategy
  idPrefix := "run"
  maxDecisions := none
  sessionNumber := 1

def start : TradingLoop := init BazaarServer.pairConfig ⟨4, 0, 0, 0⟩ .new none {} {}

/-- The loop starts before the planet is welcomed, and goes on to its first decision. -/
def untilDeciding : List Turn :=
  [.run] ++ Link.greeting.map Turn.link ++ [.link (.session (.resume 0))]

/-- Two states come in before the loop is awake to take the first. -/
def overtaken : List Turn :=
  untilDeciding ++ [.decided, .link (.server .advance), .link .down, .link (.server .advance),
    .link .down, .link (.session (.resume 1)), .decided, .decided]

theorem run_in_order_overtaken :
    ∃ hist t, Machine.Run (Step Trading.sampleWiring (sampleLoop .passive)) start hist t ∧
      decidedSequences hist = [2, 4, 4] ∧ (decidedSequences hist).Pairwise (· ≤ ·) ∧
      (decidedSequences hist).count 4 ≤ 2 ∧ t.world.ignored = 0 := by
  have hall : (Machine.replay (step? Trading.sampleWiring (sampleLoop .passive)) start
      (schedule Trading.sampleWiring (sampleLoop .passive) start overtaken)).map
      (fun r => decidedSequences r.1) =
      some [2, 4, 4] := by decide +kernel
  obtain ⟨⟨hist, t⟩, hreplay, hdecided⟩ := Option.map_eq_some_iff.mp hall
  have run := Machine.run_of_replay hreplay
  obtain ⟨hsorted, htwice, happlied⟩ := run_in_order run
  exact ⟨hist, t, run, hdecided, hsorted, htwice 4, happlied⟩

end Samples

end TradingLoop

end SpaceportBazaar
