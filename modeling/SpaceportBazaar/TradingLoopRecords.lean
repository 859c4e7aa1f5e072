import SpaceportBazaar.TradingLoopOffers
import SpaceportBazaar.TradingOutcomes

namespace SpaceportBazaar

open Link (Says)
open Trading (Sourced Concludes Taken Attended)
open TradingLoop (unconfirmed takenDown)

namespace TradingStats

/-- One command's share in the counters. -/
def count (stats : TradingStats) (action : Action) (ok : Bool) (code : String) : TradingStats :=
  let stats := { stats with commandsSent := stats.commandsSent + 1 }.countKind action
  let stats := if action.isGift then { stats with gifts := stats.gifts + 1 } else stats
  if ok then { stats with commandsOk := stats.commandsOk + 1 }
  else { stats with commandsRejected := stats.commandsRejected + 1 }.recordRejection code

/-- What a command's line in the log adds to the counters: nothing, unless it was
answered and confirmed. -/
def replay (stats : TradingStats) (record : EvidenceRecord) : TradingStats :=
  match record.resultOk with
  | some ok => if unconfirmed ∈ record.notes then stats
    else stats.count record.action ok (record.resultCode.getD "NO_ANSWER")
  | none => stats

/-- The counters of the commands, without the rest of the statistics. -/
def counters (stats : TradingStats) : TradingStats :=
  { stats with decisions := 0, finalSnapshot := none, lastLoggedTick := none }

variable {stats : TradingStats} {record : EvidenceRecord}

theorem counters_count (action : Action) (ok : Bool) (code : String) :
    (stats.count action ok code).counters = stats.counters.count action ok code := by
  unfold count
  cases hgift : action.isGift <;> cases ok <;> cases action <;> rfl

theorem replay_unanswered (h : record.resultOk = none) : stats.replay record = stats := by
  simp [replay, h]

theorem replay_unconfirmed : stats.replay (record.note unconfirmed) = stats := by
  unfold replay EvidenceRecord.note
  split
  next => simp
  next => rfl

end TradingStats

namespace EvidenceRecord

variable {w : Wiring} {server server' : BazaarServer} {record : EvidenceRecord}
  {outcome : BazaarSession.CommandOutcome}

/-- A line that was opened, and nothing came back for yet. -/
structure Opened (record : EvidenceRecord) : Prop where
  resultOk : record.resultOk = none
  processedTick : record.processedTick = none
  objectId : record.objectId = none
  transactionId : record.transactionId = none
  notes : record.notes = []

/-- Where the line names an outcome, it is what the server says of this command. -/
def Holds (w : Wiring) (server : BazaarServer) (record : EvidenceRecord) : Prop :=
  record.resultOk = none ∨
    (∃ r : CommandResult, r.requestId = record.requestId ∧
      Says w server (.result r) ∧ record.resultOk = some r.ok ∧
      record.resultCode = some r.code.name ∧
      record.objectId = r.objectId ∧ record.transactionId = r.transactionId ∧
      record.processedTick = some r.processedTick) ∨
    ∃ error : ProtocolErrorEvent, error.requestId = some record.requestId ∧
      Says w server (.protocolError error) ∧
      record.resultOk = some false ∧
      record.resultCode = some error.code.name ∧ record.processedTick = none ∧
      record.objectId = none ∧ record.transactionId = none

theorem Holds.mono (h : record.Holds w server)
    (stays : ∀ event, Says w server event → Says w server' event) :
    record.Holds w server' := by
  rcases h with h | ⟨r, hid, htold, h⟩ | ⟨error, hid, htold, h⟩
  · exact .inl h
  · exact .inr (.inl ⟨r, hid, stays _ htold, h⟩)
  · exact .inr (.inr ⟨error, hid, stays _ htold, h⟩)

@[simp] theorem recordOutcome_requestId (record : EvidenceRecord)
    (outcome : BazaarSession.CommandOutcome) :
    (record.recordOutcome outcome).requestId = record.requestId := by
  unfold recordOutcome
  split <;> rfl

theorem recordOutcome_holds (opened : record.Opened) (hid : outcome.requestId = record.requestId)
    (sourced : Sourced w server outcome) : (record.recordOutcome outcome).Holds w server := by
  rcases sourced with ⟨r, hr, hrid, htold⟩ | ⟨hnone, error, herror, herrorId, htold⟩
  · refine .inr (.inl ⟨r, ?_, htold, ?_⟩)
    · rw [recordOutcome_requestId]
      exact hrid.trans hid
    · simp [recordOutcome, hr]
  · refine .inr (.inr ⟨error, ?_, htold, ?_⟩)
    · rw [recordOutcome_requestId, ← hid]
      exact herrorId
    · simp [recordOutcome, hnone, herror, note, opened.processedTick, opened.objectId,
        opened.transactionId]

/-- What the loop counts of an outcome is what the log says of it. -/
theorem recordOutcome_replay (opened : record.Opened) (sourced : Sourced w server outcome)
    (stats : TradingStats) :
    stats.replay (record.recordOutcome outcome) = stats.record record.action outcome := by
  rcases sourced with ⟨r, hr, _, _⟩ | ⟨hnone, error, herror, _, _⟩
  · have hok : outcome.ok = r.ok := by simp [BazaarSession.CommandOutcome.ok, hr]
    have hname :
      outcome.codeName = r.code.name := by simp [BazaarSession.CommandOutcome.codeName, hr]
    simp [TradingStats.replay, recordOutcome, hr, opened.notes, TradingStats.record,
      TradingStats.count, hok, hname]
  · have hok : outcome.ok = false := by simp [BazaarSession.CommandOutcome.ok, hnone]
    have hname : outcome.codeName = error.code.name := by
      simp [BazaarSession.CommandOutcome.codeName, hnone, herror]
    have hnote : unconfirmed ≠ "answered by protocol_error, not a result" := by decide
    simp [TradingStats.replay, recordOutcome, hnone, herror, note, opened.notes,
      TradingStats.record, TradingStats.count, hok, hname, hnote]

end EvidenceRecord

/-- The lines of commands in a log against what was sent, what the server says
and what was counted. -/
structure Booked (w : Wiring) (server : BazaarServer) (stats₀ : TradingStats) (sent : List String)
    (pending : Option EvidenceRecord) (records : List EvidenceRecord)
    (stats : TradingStats) : Prop where
  counted : stats.counters = records.foldl TradingStats.replay stats₀.counters
  holds : ∀ record ∈ records, record.Holds w server
  listed : sent.Sublist
    (records.map EvidenceRecord.requestId ++ (pending.map EvidenceRecord.requestId).toList)
  answered : ∀ record ∈ records, record.resultOk.isSome = true → record.requestId ∈ sent
  pending : ∀ record, pending = some record → record.Opened ∧ record.requestId ∈ sent

namespace Booked

variable {w : Wiring} {server server' : BazaarServer} {stats₀ stats stats' : TradingStats}
  {sent : List String} {pending : Option EvidenceRecord} {records : List EvidenceRecord}
  {record record' : EvidenceRecord}

theorem mono (h : Booked w server stats₀ sent pending records stats)
    (stays : ∀ event, Says w server event → Says w server' event)
    (counters : stats'.counters = stats.counters) :
    Booked w server' stats₀ sent pending records stats' :=
  ⟨counters.trans h.counted, fun r hr => (h.holds r hr).mono stays, h.listed, h.answered, h.pending⟩

/-- A command went out. -/
theorem opens (record : EvidenceRecord) (h : Booked w server stats₀ sent none records stats)
    (opened : record.Opened) :
    Booked w server stats₀ (sent ++ [record.requestId]) (some record) records stats where
  counted := h.counted
  holds := h.holds
  listed := by
    have hlisted := h.listed
    simp only [Option.map_none, Option.toList_none, List.append_nil] at hlisted
    exact hlisted.append (List.Sublist.refl _)
  answered r hr hok := List.mem_append_left _ (h.answered r hr hok)
  pending r hr := by
    cases hr
    exact ⟨opened, by simp⟩

/-- The line of a command is completed. -/
theorem closes (record' : EvidenceRecord)
    (h : Booked w server stats₀ sent (some record) records stats)
    (requestId : record'.requestId = record.requestId)
    (holds : record'.Holds w server) (counters : stats'.counters = stats.counters.replay record') :
    Booked w server stats₀ sent none (records ++ [record']) stats' where
  counted := by rw [List.foldl_concat, ← h.counted, counters]
  holds r hr := by
    rcases List.mem_append.mp hr with hr | hr
    · exact h.holds r hr
    · cases List.mem_singleton.mp hr
      exact holds
  listed := by simpa [requestId] using h.listed
  answered r hr hok := by
    rcases List.mem_append.mp hr with hr | hr
    · exact h.answered r hr hok
    · cases List.mem_singleton.mp hr
      rw [requestId]
      exact (h.pending record rfl).2
  pending r hr := by cases hr

/-- A command was refused before it went out. -/
theorem refuses (h : Booked w server stats₀ sent none records stats)
    (unanswered : record.resultOk = none) :
    Booked w server stats₀ sent none (records ++ [record]) stats where
  counted := by rw [List.foldl_concat, TradingStats.replay_unanswered unanswered, h.counted]
  holds r hr := by
    rcases List.mem_append.mp hr with hr | hr
    · exact h.holds r hr
    · cases List.mem_singleton.mp hr
      exact .inl unanswered
  listed := by
    have hlisted := h.listed
    simp only [Option.map_none, Option.toList_none, List.append_nil, List.map_append] at hlisted ⊢
    exact hlisted.trans (List.sublist_append_left _ _)
  answered r hr hok := by
    rcases List.mem_append.mp hr with hr | hr
    · exact h.answered r hr hok
    · cases List.mem_singleton.mp hr
      simp [unanswered] at hok
  pending r hr := by cases hr

end Booked

namespace TradingLoop

variable {w : Wiring} {c : LoopConfig} {t t' : TradingLoop} {stats₀ : TradingStats}
  {records₀ : List EvidenceRecord} {sent : List String} {line : Option EvidenceRecord}

/-- What the loop puts down: its log, and what it counts and keeps of it. -/
def books (t : TradingLoop) : EvidenceLog × TradingStats :=
  (t.evidence, { t.stats with finalSnapshot := none })

theorem watch_books (c : LoopConfig) (t : TradingLoop) (sequence : Nat) :
    (t.watch c sequence).books = t.books := by
  unfold watch
  split
  next => rfl
  next =>
    dsimp only
    split
    next => rfl
    next => rfl

theorem synchronized_books (c : LoopConfig) (t : TradingLoop) (first : Snapshot) :
    (t.synchronized c first).books = t.books := by
  unfold synchronized
  split
  next => rfl
  next => exact watch_books c _ _

theorem awaitReadiness_books (c : LoopConfig) (t : TradingLoop) (first : Snapshot) :
    (t.awaitReadiness c first).books = t.books := by
  unfold awaitReadiness
  dsimp only
  split
  next => exact synchronized_books c _ _
  next => rfl

theorem begin_books (c : LoopConfig) (t : TradingLoop) : (t.begin c).books = t.books := by
  unfold begin
  dsimp only
  split
  next => exact awaitReadiness_books c _ _
  next => rfl

theorem afterStep_books (c : LoopConfig) (t : TradingLoop) (sighting : Sighting) :
    (t.afterStep c sighting).books = t.books := by
  unfold afterStep
  split
  next => rfl
  next => exact watch_books c _ _

theorem except_books (c : LoopConfig) (t : TradingLoop) (sighting : Sighting)
    (error : ExecutionError) :
    (t.except c sighting error).books = t.books := by
  unfold TradingLoop.except
  split
  next => exact afterStep_books c _ _
  next => rfl

theorem resume_books (c : LoopConfig) (t : TradingLoop)
    (reply : Except SessionError BazaarSession.Answer) :
    (t.resume c reply).books = t.books := by
  unfold resume
  split
  next => exact awaitReadiness_books c _ _
  next => exact synchronized_books c _ _
  next => rfl
  next => exact watch_books c _ _
  next => rfl
  next => rfl
  next => rfl

theorem noteIds_books (c : LoopConfig) (t : TradingLoop) : (t.noteIds c).books = t.books := by
  unfold noteIds
  split <;> rfl

/-- The line of the command the loop acts on. -/
def pending (t : TradingLoop) : Option EvidenceRecord :=
  match t.stage with
  | .acting a => some a.record
  | _ => none

theorem pending_none (rests : ∀ a, t.stage ≠ .acting a) : t.pending = none := by
  unfold pending
  split
  next a hstage => exact absurd hstage (rests a)
  next => rfl

/-- The log and the counters go with what was sent and said since the loop took them over. -/
structure Accounts (w : Wiring) (records₀ : List EvidenceRecord) (stats₀ : TradingStats)
    (sent : List String) (line : Option EvidenceRecord) (t : TradingLoop) : Prop where
  attended : Attended w t.trading
  booked : ∃ new, t.evidence.commands = records₀ ++ new ∧
    Booked w t.trading.link.server stats₀ sent line new t.stats

theorem micro_attended
    {core core' : Core} {label : Option Trading.Label} (h : Micro w c core label core')
    (faithful : w.Faithful) (attended : Attended w core.trading) : Attended w core'.trading ∧
      ∀ event, Says w core.trading.link.server event → Says w core'.trading.link.server event := by
  cases h with
  | turn step => exact ⟨(Trading.turn_leaves attended faithful step).1, fun _ =>
    Trading.step_says attended.abreast faithful step⟩
  | execute step =>
    obtain ⟨idle, executed⟩ := Trading.execute_of_step step
    exact ⟨(Trading.execute_leaves attended faithful idle executed).1, fun _ =>
      Trading.step_says attended.abreast faithful step⟩
  | shared model => exact ⟨⟨attended.abreast, attended.awaits, attended.taken⟩, fun _ => id⟩
  | named => exact ⟨attended, fun _ => id⟩

theorem run_attended {core core' : Core}
    {ms : List (Option Trading.Label)} (run : Machine.Run (Micro w c) core ms core')
    (faithful : w.Faithful) (attended : Attended w core.trading) : Attended w core'.trading ∧
      ∀ event, Says w core.trading.link.server event → Says w core'.trading.link.server event := by
  refine run.preserves (P := fun core' => Attended w core'.trading ∧
    ∀ event, Says w core.trading.link.server event → Says w core'.trading.link.server event)
    ⟨attended, fun _ => id⟩ ?_
  rintro a m b ⟨hattended, htells⟩ hm
  obtain ⟨hattended', htells'⟩ := micro_attended hm faithful hattended
  exact ⟨hattended', fun event h => htells' event (htells event h)⟩

theorem books_commands (books : t'.books = t.books) : t'.evidence.commands = t.evidence.commands ∧
    t'.stats.counters = t.stats.counters :=
  ⟨congrArg (fun b => b.1.commands) books, congrArg (fun b => b.2.counters) books⟩

/-- The accounts are right when the loop goes on without putting anything down. -/
theorem Accounts.moves (h : Accounts w records₀ stats₀ sent line t) (faithful : w.Faithful)
    {ms : List (Option Trading.Label)} (run : Machine.Run (Micro w c) t.core ms t'.core)
    (books : t'.books = t.books) :
    Accounts w records₀ stats₀ sent line t' := by
  obtain ⟨hattended, htells⟩ := run_attended run faithful h.attended
  obtain ⟨new, hnew, hbooked⟩ := h.booked
  obtain ⟨hcommands, hcounters⟩ := books_commands books
  exact ⟨hattended, new, hcommands.trans hnew, hbooked.mono htells hcounters⟩

@[simp] theorem complete_commands (log : EvidenceLog) (record : EvidenceRecord) :
    (log.complete record).commands = log.commands ++ [record] := by
  simp [EvidenceLog.complete, EvidenceLog.commands, LogEntry.command?]

theorem Accounts.closeRefused (record : EvidenceRecord) (h : Accounts w records₀ stats₀ sent none t)
    (opened : record.Opened) (error : ExecutionError) :
    Accounts w records₀ stats₀ sent none (t.closeRefused record error) := by
  unfold TradingLoop.closeRefused
  split
  next => exact h
  next =>
    split
    next => exact h
    next =>
      obtain ⟨new, hnew, hbooked⟩ := h.booked
      refine ⟨h.attended, new ++ [record.note unconfirmed], ?_, hbooked.refuses opened.resultOk⟩
      simp [closeRecord, takenDown, hnew]

theorem concluded_frame (t : TradingLoop) (action : Action)
    (outcome : BazaarSession.CommandOutcome) :
    ∃ memory latest, t.concluded action outcome = { t with
      stats := { t.stats.record action outcome with finalSnapshot := latest }
      memory := memory } := by
  unfold concluded record
  dsimp only
  split
  next =>
    split
    next => exact ⟨_, _, rfl⟩
    next => exact ⟨_, _, rfl⟩
  next => exact ⟨_, _, rfl⟩

/-- The line of the command under way is completed: with an outcome it is counted,
without one it is not. -/
theorem Accounts.closeRecord {a : Acting} {x : Execution} {conclusion : Conclusion}
    (h : Accounts w records₀ stats₀ sent (some a.record) t) (action : a.record.action = a.action)
    (requestId : x.requestId = a.record.requestId) (taken : Taken w t.trading.link.server x)
    (concludes : Concludes w t.trading.link.server x conclusion) :
    match conclusion with
    | .error _ => Accounts w records₀ stats₀ sent none (t.closeRecord a.record (some x) conclusion)
    | .ok outcome => Accounts w records₀ stats₀ sent none
      ((t.closeRecord a.record (some x) conclusion).concluded a.action outcome) := by
  obtain ⟨new, hnew, hbooked⟩ := h.booked
  obtain ⟨hopened, _⟩ := hbooked.pending _ rfl
  cases conclusion with
  | error error =>
    have hclosed : ∀ record' : EvidenceRecord,
        record'.requestId = a.record.requestId → record'.Holds w t.trading.link.server →
        Accounts w records₀ stats₀ sent
        none { t with evidence := t.evidence.complete (record'.note unconfirmed) } :=
      fun record' hid hholds => ⟨h.attended, new ++ [record'.note unconfirmed], by simp [hnew],
        hbooked.closes (record'.note unconfirmed) hid hholds TradingStats.replay_unconfirmed.symm⟩
    show Accounts w records₀ stats₀ sent none { t with evidence := _ }
    unfold Taken at taken
    unfold takenDown
    dsimp only
    split
    next => exact hclosed a.record rfl (.inl hopened.resultOk)
    next outcome result hawaiting =>
      rw [hawaiting] at taken
      exact hclosed (a.record.recordOutcome outcome) (by simp)
        (EvidenceRecord.recordOutcome_holds hopened (taken.1.trans requestId) taken.2)
  | ok outcome =>
    obtain ⟨hid, hsourced⟩ := concludes
    dsimp only
    obtain ⟨memory, latest, hframe⟩ :=
      concluded_frame (t.closeRecord a.record (some x) (.ok outcome)) a.action outcome
    rw [hframe]
    refine ⟨h.attended, new ++ [a.record.recordOutcome outcome],
        by simp [TradingLoop.closeRecord, hnew],
      hbooked.closes _ (by simp)
      (EvidenceRecord.recordOutcome_holds hopened (hid.trans requestId) hsourced) ?_⟩
    rw [EvidenceRecord.recordOutcome_replay hopened hsourced, action]
    exact TradingStats.counters_count a.action outcome.ok outcome.codeName

/-- The accounts are right, and the line that is still open is that of the action under way. -/
structure Tallied (w : Wiring) (records₀ : List EvidenceRecord) (stats₀ : TradingStats)
    (sent : List String) (t : TradingLoop) : Prop where
  accounts : Accounts w records₀ stats₀ sent t.pending t
  acts : ∀ a, t.stage = .acting a → a.record.action = a.action

/-- Where nothing more was sent. -/
theorem Tallied.silent (h : Tallied w records₀ stats₀ sent t) :
    Tallied w records₀ stats₀ (sent ++ []) t := by
  rwa [List.append_nil]

theorem Accounts.raised (h : Accounts w records₀ stats₀ sent none t) (error : LoopError) :
    Tallied w records₀ stats₀ sent { t with stage := .raised error } :=
  ⟨⟨h.attended, h.booked⟩, fun _ hstage => by cases hstage⟩

theorem Leads.tallied (h : Leads w c t t') (faithful : w.Faithful) (books : t'.books = t.books)
    (accounts : Accounts w records₀ stats₀ sent none t) : Tallied w records₀ stats₀ sent t' := by
  obtain ⟨ms, hrun⟩ := h.run
  refine ⟨?_, fun a hstage => absurd hstage (h.rests a)⟩
  rw [pending_none h.rests]
  exact accounts.moves faithful hrun books

theorem Begins.tallied {sighting : Sighting}
    {decisionId : Option String} {action : Action} {rest : List Action} {outs : Outs}
    (h : Begins w c t sighting decisionId action rest outs t') (faithful : w.Faithful)
    (idle : t.trading.executor.current = none) (accounts : Accounts w records₀ stats₀ sent none t) :
    Tallied w records₀ stats₀ (sent ++ BazaarSession.sentIds outs.2) t' := by
  cases h with
  | unnamed => exact (accounts.raised _).silent
  | @awaits generator outs trading ids executed =>
    obtain ⟨hattended, hsent⟩ := Trading.execute_leaves accounts.attended faithful idle executed
    have htells : ∀ event, Says w t.trading.link.server event → Says w trading.link.server event :=
      fun _ =>
        Trading.step_says accounts.attended.abreast faithful (Trading.execute_step idle executed)
    obtain ⟨new, hnew, hbooked⟩ := accounts.booked
    refine ⟨⟨hattended, new, hnew, ?_⟩, fun a hstage => ?_⟩
    · dsimp only at hsent
      rw [hsent]
      exact (hbooked.mono htells rfl).opens (t.opening sighting decisionId action generator)
        ⟨rfl, rfl, rfl, rfl, rfl⟩
    · cases hstage
      rfl
  | @refused generator outs trading error ids executed =>
    obtain ⟨hattended, hsent⟩ := Trading.execute_leaves accounts.attended faithful idle executed
    have htells : ∀ event, Says w t.trading.link.server event → Says w trading.link.server event :=
      fun _ =>
        Trading.step_says accounts.attended.abreast faithful (Trading.execute_step idle executed)
    obtain ⟨new, hnew, hbooked⟩ := accounts.booked
    dsimp only at hsent
    rw [hsent, List.append_nil]
    have hissued : Accounts w records₀ stats₀ sent none (t.issue generator trading) :=
      ⟨hattended, new, hnew, hbooked.mono htells rfl⟩
    have hclosed := hissued.closeRefused (t.opening sighting decisionId action generator)
      ⟨rfl, rfl, rfl, rfl, rfl⟩ error
    have hidle : trading.executor.current = none := Trading.execute_follows idle executed
    have hcore := closeRefused_core (t.issue generator trading)
      (t.opening sighting decisionId action generator) error
    exact (except_leads (idle_of_core hcore hidle) sighting error).tallied faithful
      (except_books c _ sighting error) hclosed

theorem act_tallied {sighting : Sighting} {decisionId : Option String} {actions : List Action}
    {outs : Outs} (idle : t.trading.executor.current = none) (faithful : w.Faithful)
    (accounts : Accounts w records₀ stats₀ sent none t)
    (h : t.act w c sighting decisionId actions = some (outs, t')) :
    Tallied w records₀ stats₀ (sent ++ BazaarSession.sentIds outs.2) t' := by
  cases actions with
  | nil =>
    cases h
    exact ((afterStep_leads idle sighting).tallied faithful
      (afterStep_books c t sighting) accounts).silent
  | cons action rest => exact (act_begins h).tallied faithful idle accounts

theorem settle_tallied {a : Acting} {x : Execution} {conclusion : Conclusion} {outs : Outs}
    (idle : t.trading.executor.current = none) (faithful : w.Faithful) (accounts :
      Accounts w records₀ stats₀ sent (some a.record) t) (action : a.record.action = a.action)
    (requestId : x.requestId = a.record.requestId) (taken : Taken w t.trading.link.server x)
    (concludes : Concludes w t.trading.link.server x conclusion)
    (h : t.settle w c a (some x) conclusion = some (outs, t')) :
    Tallied w records₀ stats₀ (sent ++ BazaarSession.sentIds outs.2) t' := by
  have hclosed := accounts.closeRecord action requestId taken concludes
  unfold settle at h
  dsimp only at h
  split at h
  next error =>
    cases h
    exact ((except_leads
      (t := t.closeRecord a.record (some x) (.error error)) idle a.sighting error).tallied faithful
      (except_books c _ a.sighting error) hclosed).silent
  next outcome =>
    have hcore : ((t.closeRecord a.record (some x) (.ok outcome)).concluded a.action outcome).core =
        t.core :=
      concluded_core _ _ _
    exact act_tallied (idle_of_core hcore idle) faithful hclosed h

theorem Tallied.share (h : Tallied w records₀ stats₀ sent t) :
    Tallied w records₀ stats₀ sent t.shareModel :=
  ⟨⟨h.accounts.attended, h.accounts.booked⟩, h.acts⟩

theorem Logs.counted {snapshot : Snapshot} {decision : Decision} {decisionId : Option String}
    (h : Logs t snapshot decision decisionId t') :
    t'.evidence.commands = t.evidence.commands ∧ t'.stats.counters = t.stats.counters := by
  cases h with
  | skipped => exact ⟨rfl, rfl⟩
  | logged _ adds =>
    refine ⟨?_, rfl⟩
    simp [EvidenceLog.commands, adds.entries, LogEntry.command?]

theorem decided_tallied {sighting : Sighting}
    {budget : Nat} {out : Outputs} (idle : t.trading.executor.current = none)
    (faithful : w.Faithful) (accounts : Accounts w records₀ stats₀ sent none t)
    (h : t.decided w c sighting budget = some (out, t')) :
    Tallied w records₀ stats₀ (sent ++ BazaarSession.sentIds out.1.2) t' := by
  unfold decided at h
  split at h
  next =>
    cases h
    exact (accounts.raised _).silent
  next decision memory _ =>
    have hshared : Machine.Run (Micro w c) t.core [none] (t.learn memory).core :=
      .single (.shared memory.counterparties)
    obtain ⟨hattended, htells⟩ := run_attended hshared faithful accounts.attended
    obtain ⟨new, hnew, hbooked⟩ := accounts.booked
    have hlearned : Accounts w records₀ stats₀ sent none (t.learn memory).countDecision :=
      ⟨hattended, new, hnew, hbooked.mono htells rfl⟩
    dsimp only at h
    split at h
    next =>
      cases h
      exact (hlearned.raised _).silent
    next decisionId logged hlog =>
      obtain ⟨⟨outs, acted⟩, hact, heq⟩ := Option.map_eq_some_iff.mp h
      cases heq
      have hlogs := logDecision_logs hlog
      obtain ⟨hcommands, hcounters⟩ := hlogs.counted
      have htrading : logged.trading = (t.learn memory).trading := congrArg Core.trading hlogs.core
      have hlogged : Accounts w records₀ stats₀ sent none logged := by
        obtain ⟨new, hnew, hbooked⟩ := hlearned.booked
        refine ⟨?_, new, hcommands.trans hnew, ?_⟩
        · rw [htrading]
          exact hlearned.attended
        · rw [htrading]
          exact hbooked.mono (fun _ => id) hcounters
      exact (act_tallied (idle_of_core hlogs.core idle) faithful hlogged hact).share

/-- A turn of the link beside the loop. -/
theorem Accounts.turned {event : Link.Event} {outs : Outs} {conclusion : Option Conclusion}
    {trading : Trading} (h : Accounts w records₀ stats₀ sent line t) (faithful : w.Faithful)
    (turn : Trading.Step w t.trading (.link event, outs, conclusion) trading) :
    Accounts w records₀ stats₀ sent line ({ t with trading := trading }.noteIds c) := by
  have hturned : Accounts w records₀ stats₀ sent line { t with trading := trading } := by
    obtain ⟨new, hnew, hbooked⟩ := h.booked
    exact ⟨(Trading.turn_leaves h.attended faithful turn).1, new, hnew,
      hbooked.mono (fun _ => Trading.step_says h.attended.abreast faithful turn) rfl⟩
  obtain ⟨ms, hnamed⟩ := noteIds_run (w := w) c { t with trading := trading }
  exact hturned.moves faithful hnamed (noteIds_books c _)

theorem step_tallied {label : Label} (paired : Paired t) (h : Tallied w records₀ stats₀ sent t)
    (faithful : w.Faithful) (hs : Step w c t label t') :
    Tallied w records₀ stats₀ (sent ++ BazaarSession.sentIds label.2.1.2) t' := by
  obtain ⟨event, out⟩ := label
  have hrests : (∀ a, t.stage ≠ .acting a) → Accounts w records₀ stats₀ sent none t := by
    intro rests
    have haccounts := h.accounts
    rwa [pending_none rests] at haccounts
  cases step_turns hs with
  | begins stage =>
    have rests : ∀ a, t.stage ≠ .acting a := by simp [stage]
    exact ((begin_leads (paired.resting rests)).tallied faithful (begin_books c t)
      (hrests rests)).silent
  | decides stage decided =>
    have rests : ∀ a, t.stage ≠ .acting a := by simp [stage]
    exact decided_tallied (paired.resting rests) faithful (hrests rests) decided
  | @turns event outs conclusion trading r u plain turn notices =>
    have hstage : ({ t with trading := trading }.noteIds c).stage = t.stage :=
      (noteIds_trading c _).2
    have htrading : ({ t with trading := trading }.noteIds c).trading = trading :=
      (noteIds_trading c _).1
    have hsilent : BazaarSession.sentIds outs.2 = [] := Trading.turn_silent h.accounts.attended turn
    have haccounts :
        Accounts w records₀ stats₀ sent t.pending ({ t with trading := trading }.noteIds c) :=
      h.accounts.turned faithful turn
    have hidle := notices.idle paired turn
    refine Tallied.share ?_
    cases notices with
    | @settles a conclusion r' u stage settled =>
      have hacting : t.stage = .acting a := hstage.symm.trans stage
      obtain ⟨x, hx, _, hid⟩ := paired.acts hacting
      have hidle : trading.executor.current = none := Trading.turn_follows hx turn
      have hconcludes :=
        (Trading.turn_leaves h.accounts.attended faithful turn).2 x conclusion hx rfl
      have htaken := (h.accounts.attended.taken x hx).mono fun _ =>
        Trading.step_says h.accounts.attended.abreast faithful turn
      have hpending : t.pending = some a.record := by simp [pending, hacting]
      rw [hpending] at haccounts
      rw [hx] at settled
      have hall :=
        settle_tallied (by rw [htrading]; exact hidle) faithful haccounts (h.acts a hacting) hid
        (by rw [htrading]; exact htaken) (by rw [htrading]; exact hconcludes) settled
      have hsent : BazaarSession.sentIds (outs.2 ++ r'.2) = BazaarSession.sentIds r'.2 := by
        rw [BazaarSession.sentIds, List.filterMap_append]
        exact congrArg (· ++ BazaarSession.sentIds r'.2) hsilent
      rw [hsent]
      exact hall
    | waits | rests =>
      rw [hsilent, List.append_nil]
      refine ⟨?_, fun a hacting => h.acts a (hstage.symm.trans hacting)⟩
      simpa [pending, hstage] using haccounts
    | replied rests =>
      rw [hsilent, List.append_nil]
      rw [pending_none fun a hacting => rests a (hstage.trans hacting)] at haccounts
      have hidle : trading.executor.current = none := by
        rcases hidle with hidle | ⟨a, hacting, _⟩
        · exact hidle
        · exact absurd (hstage.trans hacting) (rests a)
      rw [← htrading] at hidle
      exact (resume_leads hidle rests _).tallied faithful (resume_books c _ _) haccounts

/-- The ids of the commands that went out in a run, in order. -/
def sentCommands (hist : List Label) : List String :=
  hist.flatMap (fun label => BazaarSession.sentIds label.2.1.2)

theorem sentCommands_snoc (hist : List Label) (label : Label) :
    sentCommands (hist ++ [label]) = sentCommands hist ++ BazaarSession.sentIds label.2.1.2 := by
  simp [sentCommands]

variable {config : Config} {throttle : CommandThrottle} {memory : PolicyMemory}
  {runId : Option String} {stats : TradingStats} {evidence : EvidenceLog} {hist : List Label}

theorem init_tallied (w : Wiring) (evidence : EvidenceLog) :
    Tallied w evidence.commands stats [] (init config throttle memory runId stats evidence) where
  accounts := {
    attended :=
    ⟨Link.init_abreast w config throttle, (fun _ hx => by cases hx), (fun _ hx => by cases hx)⟩
    booked :=
    ⟨[], by simp [init], ⟨rfl, by simp, List.nil_sublist _, by simp, fun _ h => by cases h⟩⟩ }
  acts a hstage := by cases hstage

theorem run_tallied (faithful : w.Faithful)
    (run : Machine.Run (Step w c) (init config throttle memory runId stats evidence) hist t) :
    Paired t ∧ Tallied w evidence.commands stats (sentCommands hist) t := by
  refine run.invariant
      (I := fun hist t => Paired t ∧ Tallied w evidence.commands stats (sentCommands hist) t)
    ⟨rfl, init_tallied w evidence⟩ ?_
  rintro hist t label t' ⟨hpaired, htallied⟩ hs
  rw [sentCommands_snoc]
  refine ⟨?_, step_tallied hpaired htallied faithful hs⟩
  exact ((step_unfolds w c).step_keeps hpaired hs (P := fun _ => True) trivial
    (fun _ _ _ _ _ => trivial)).1

/-- The log accounts for every command. Since the loop took it over, each command that went
out stands in it, in order, but for the one under way; each line with an answer is of a
command that went out; and the counters are what the answered and confirmed lines add up to. -/
theorem run_accounts (faithful : w.Faithful)
    (run : Machine.Run (Step w c) (init config throttle memory runId stats evidence) hist t) :
    ∃ new, t.evidence.commands = evidence.commands ++ new ∧
      (sentCommands hist).Sublist
        (new.map EvidenceRecord.requestId ++ (t.pending.map EvidenceRecord.requestId).toList) ∧
      (∀ record ∈ new, record.resultOk.isSome = true → record.requestId ∈ sentCommands hist) ∧
      t.stats.counters = new.foldl TradingStats.replay stats.counters := by
  obtain ⟨_, htallied⟩ := run_tallied faithful run
  obtain ⟨new, hnew, hbooked⟩ := htallied.accounts.booked
  exact ⟨new, hnew, hbooked.listed, hbooked.answered, hbooked.counted⟩

/-- Two commands were answered, and a third is under way. -/
def offering : List Turn := offered ++ [.decided]

theorem run_accounts_offered :
    offerWiring.Faithful ∧
      ∃ hist t, Machine.Run (Step offerWiring (sampleLoop .reserveTrader)) start hist t ∧
      sentCommands hist = ["run-advertise-P01-1", "run-offer-P01-2", "run-offer-P01-3"] ∧
      t.stats.commandsOk = 2 ∧
      ∃ new, t.evidence.commands = new ∧
        (sentCommands hist).Sublist
          (new.map EvidenceRecord.requestId ++ (t.pending.map EvidenceRecord.requestId).toList) ∧
        (∀ record ∈ new, record.resultOk.isSome = true → record.requestId ∈ sentCommands hist) ∧
        t.stats.counters = new.foldl TradingStats.replay {} := by
  refine ⟨offerWiring_faithful, ?_⟩
  have hall : (Machine.replay (step? offerWiring (sampleLoop .reserveTrader)) start
      (schedule offerWiring (sampleLoop .reserveTrader) start offering)).map (fun r =>
        (sentCommands r.1, r.2.stats.commandsOk)) =
      some (["run-advertise-P01-1", "run-offer-P01-2", "run-offer-P01-3"], 2) := by decide +kernel
  obtain ⟨⟨hist, t⟩, hreplay, hall⟩ := Option.map_eq_some_iff.mp hall
  obtain ⟨hsent, hok⟩ := Prod.mk.inj hall
  have run := Machine.run_of_replay hreplay
  obtain ⟨new, hnew, haccounts⟩ := run_accounts offerWiring_faithful run
  exact ⟨hist, t, run, hsent, hok, new, hnew, haccounts⟩

end TradingLoop

end SpaceportBazaar
