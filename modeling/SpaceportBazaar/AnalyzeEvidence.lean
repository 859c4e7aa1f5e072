import SpaceportBazaar.Evidence

namespace SpaceportBazaar

/-- A decision and what its commands came to. -/
structure Trace where
  decision : Option DecisionRecord
  outcomes : List EvidenceRecord

namespace AnalyzeEvidence

def decisionLines (records : List LogEntry) : List DecisionRecord :=
  records.filterMap LogEntry.decision?

def commandLines (records : List LogEntry) : List EvidenceRecord :=
  records.filterMap LogEntry.command?

section Lines

variable (records : List LogEntry) (d : DecisionRecord) (r : EvidenceRecord)

@[simp] theorem decisionLines_decision :
    decisionLines (records ++ [.decision d]) = decisionLines records ++ [d] := by
  simp [decisionLines, LogEntry.decision?]

@[simp] theorem decisionLines_command :
    decisionLines (records ++ [.command r]) = decisionLines records := by
  simp [decisionLines, LogEntry.decision?]

@[simp] theorem commandLines_decision :
    commandLines (records ++ [.decision d]) = commandLines records := by
  simp [commandLines, LogEntry.command?]

@[simp] theorem commandLines_command :
    commandLines (records ++ [.command r]) = commandLines records ++ [r] := by
  simp [commandLines, LogEntry.command?]

end Lines

/-- One more decision record: repeats of an idle tick are dropped. -/
def keepDecision (s : List Nat × List DecisionRecord)
    (r : DecisionRecord) : List Nat × List DecisionRecord :=
  if r.actions.isEmpty && decide (r.tick ∈ s.1) then s else (r.tick :: s.1, s.2 ++ [r])

def decisions (records : List LogEntry) : List DecisionRecord :=
  ((decisionLines records).foldl keepDecision ([], [])).2

/-- The traces so far: the ticks seen, the entries that are done, and the one that is open. -/
structure Tracing where
  seen : List Nat := []
  out : List Trace := []
  current : Option Trace := none

/-- Whether a decision is kept shows from the records before it, so one pass does. -/
def Tracing.read (s : Tracing) : LogEntry → Tracing
  | .decision r =>
    if r.actions.isEmpty && decide (r.tick ∈ s.seen) then s
    else { seen := r.tick :: s.seen, out := s.out ++
      s.current.toList, current := some ⟨some r, []⟩ }
  | .command r =>
    match s.current with
    | none => { s with out := s.out ++ [⟨none, [r]⟩] }
    | some trace => { s with current := some { trace with outcomes := trace.outcomes ++ [r] } }

/-- Each command goes to the most recent decision in file order. -/
def traces (records : List LogEntry) : List Trace :=
  let s := records.foldl Tracing.read {}
  s.out ++ s.current.toList

def keepTrade (s : Finset String × List TradeView)
    (t : TradeView) : Finset String × List TradeView :=
  if t.transactionId ∈ s.1 then s else (insert t.transactionId s.1, s.2 ++ [t])

/-- Every trade we were party to, as first seen in a decision record. -/
def completedTrades (records : List LogEntry) : List TradeView :=
  (((decisionLines records).flatMap DecisionRecord.newTransactions).foldl keepTrade (∅, [])).2

/-- Trades that are all different are all kept. -/
theorem keepTrade_nodup {trades : List TradeView} (h : (trades.map TradeView.transactionId).Nodup) :
    trades.foldl keepTrade (∅, []) = ((trades.map TradeView.transactionId).toFinset, trades) := by
  induction trades using List.reverseRecOn with
  | nil => rfl
  | append_singleton trades trade ih =>
    rw [List.map_append, List.map_singleton] at h
    obtain ⟨hrest, _, hapart⟩ := List.nodup_append.mp h
    have hnew : trade.transactionId ∉ trades.map TradeView.transactionId := fun hmem =>
      hapart _ hmem _ (List.mem_singleton_self _) rfl
    rw [List.foldl_concat, ih hrest, keepTrade, if_neg (by simpa using hnew), List.map_append,
      List.map_singleton, List.toFinset_append, Finset.union_comm]
    rfl

end AnalyzeEvidence

open AnalyzeEvidence

/-- A log as its readers take it to be, with the last decision in it and the number of lines
that followed it: decisions are numbered, an idle one is the first of its tick, no trade is
reported twice, and the commands after one are its own, in its order. -/
inductive Chronicle : List LogEntry → Option (DecisionRecord × Nat) → Prop
  | start : Chronicle [] none
  | decision {entries last record} (before : Chronicle entries last)
    (numbered : record.decisionId = s!"d{(decisionLines entries).length + 1}")
    (once : record.actions = [] → ∀ d ∈ decisionLines entries, d.tick ≠ record.tick)
    (distinct : (record.newTransactions.map TradeView.transactionId).Nodup)
    (news : ∀ trade ∈ record.newTransactions, ∀ d ∈ decisionLines entries,
      trade.transactionId ∉ d.newTransactions.map TradeView.transactionId) :
    Chronicle (entries ++ [.decision record]) (some (record, 0))
  | command {entries d n record} (before : Chronicle entries (some (d, n)))
    (decisionId : record.decisionId = some d.decisionId)
    (action : d.actions[n]? = some record.action) :
    Chronicle (entries ++ [.command record]) (some (d, n + 1))

/-- What was attributed to a decision is its own, in its order. -/
structure Trace.Owns (trace : Trace) (d : DecisionRecord) : Prop where
  decision : trace.decision = some d
  ids : ∀ r ∈ trace.outcomes, r.decisionId = some d.decisionId
  actions : trace.outcomes.map EvidenceRecord.action <+: d.actions

namespace Chronicle

variable {entries : List LogEntry} {last : Option (DecisionRecord × Nat)}

theorem numbers (h : Chronicle entries last) :
    (decisionLines entries).map DecisionRecord.decisionId =
    (List.range (decisionLines entries).length).map (fun i => s!"d{i + 1}") := by
  induction h with
  | start => rfl
  | decision _ numbered _ _ _ ih => simp [List.range_succ, numbered, ih]
  | command _ _ _ ih => simpa using ih

/-- The trades reported in a chronicle, by all its decisions. -/
theorem trades_nodup (h : Chronicle entries last) :
    (((decisionLines entries).flatMap DecisionRecord.newTransactions).map
      TradeView.transactionId).Nodup := by
  induction h with
  | start => exact List.nodup_nil
  | @decision entries last record _ _ _ distinct news ih =>
    rw [decisionLines_decision, List.flatMap_append, List.flatMap_singleton, List.map_append]
    refine List.nodup_append.mpr ⟨ih, distinct, fun id hold id' hnew hsame => ?_⟩
    obtain ⟨trade', htrade', rfl⟩ := List.mem_map.mp hold
    obtain ⟨trade, htrade, rfl⟩ := List.mem_map.mp hnew
    obtain ⟨d, hd, htrade'⟩ := List.mem_flatMap.mp htrade'
    exact news trade htrade d hd (hsame ▸ List.mem_map_of_mem htrade')
  | command _ _ _ ih => simpa using ih

/-- The reader drops no trade. -/
theorem completedTrades_eq (h : Chronicle entries last) :
    completedTrades entries = (decisionLines entries).flatMap DecisionRecord.newTransactions := by
  rw [completedTrades, keepTrade_nodup h.trades_nodup]

/-- A decision of the chronicle is no repeat. -/
theorem seen_once {seen : List Nat} {record : DecisionRecord}
    (hseen : ∀ tick ∈ seen, ∃ d ∈ decisionLines entries, d.tick = tick)
    (once : record.actions = [] → ∀ d ∈ decisionLines entries, d.tick ≠ record.tick) :
    ¬ (record.actions.isEmpty && decide (record.tick ∈ seen)) = true := by
  intro hrepeat
  simp only [Bool.and_eq_true, List.isEmpty_iff, decide_eq_true_eq] at hrepeat
  obtain ⟨d, hd, htick⟩ := hseen _ hrepeat.2
  exact once hrepeat.1 d hd htick

/-- Nothing is dropped. -/
theorem decisions_eq (h : Chronicle entries last) : decisions entries = decisionLines entries := by
  have hall : ((decisionLines entries).foldl keepDecision ([], [])).2 = decisionLines entries ∧
      ∀ tick ∈ ((decisionLines entries).foldl keepDecision ([], [])).1, ∃ d ∈ decisionLines entries,
      d.tick = tick := by
    induction h with
    | start => exact ⟨rfl, by simp [decisionLines]⟩
    | @decision entries last record _ _ once _ _ ih =>
      obtain ⟨hkept, hseen⟩ := ih
      rw [decisionLines_decision, List.foldl_concat, keepDecision, if_neg (seen_once hseen once)]
      refine ⟨by simp [hkept], fun tick htick => ?_⟩
      rcases List.mem_cons.mp htick with rfl | htick
      · exact ⟨record, by simp, rfl⟩
      · obtain ⟨d, hd, htick⟩ := hseen tick htick
        exact ⟨d, by simp [hd], htick⟩
    | command _ _ _ ih => simpa using ih
  exact hall.1

/-- Where the reader of a chronicle stands. -/
structure Reads (entries : List LogEntry) (last : Option (DecisionRecord × Nat))
    (s : Tracing) : Prop where
  seen : ∀ tick ∈ s.seen, ∃ d ∈ decisionLines entries, d.tick = tick
  owned : ∀ trace ∈ s.out ++ s.current.toList, ∃ d ∈ decisionLines entries, trace.Owns d
  outcomes : (s.out ++ s.current.toList).flatMap Trace.outcomes = commandLines entries
  decisions : (s.out ++ s.current.toList).filterMap Trace.decision = decisionLines entries
  current : match last with
    | none => s.current = none
    | some (d, n) => ∃ trace, s.current = some trace ∧ trace.decision = some d ∧
      trace.outcomes.map EvidenceRecord.action = d.actions.take n ∧ trace.outcomes.length = n

theorem reads (h :
      Chronicle entries last) : Reads entries last (entries.foldl Tracing.read {}) := by
  induction h with
  | start => exact ⟨by simp, by simp, rfl, rfl, rfl⟩
  | @decision entries last record _ _ once _ _ ih =>
    rw [List.foldl_concat]
    generalize entries.foldl Tracing.read {} = s at ih
    rw [Tracing.read, if_neg (seen_once ih.seen once)]
    refine ⟨fun tick htick => ?_, fun trace htrace => ?_, ?_, ?_, ?_⟩
    · rcases List.mem_cons.mp htick with rfl | htick
      · exact ⟨record, by simp, rfl⟩
      · obtain ⟨d, hd, htick⟩ := ih.seen tick htick
        exact ⟨d, by simp [hd], htick⟩
    · rcases List.mem_append.mp htrace with htrace | htrace
      · obtain ⟨d, hd, howns⟩ := ih.owned trace htrace
        exact ⟨d, by simp [hd], howns⟩
      · cases List.mem_singleton.mp htrace
        exact ⟨record, by simp, rfl, by simp, by simp⟩
    · simpa using ih.outcomes
    · have hbefore := ih.decisions
      simp only [Option.toList_some, List.filterMap_append, decisionLines_decision] at hbefore ⊢
      rw [hbefore]
      rfl
    · exact ⟨_, rfl, rfl, by simp, rfl⟩
  | @command entries d n record _ decisionId action ih =>
    rw [List.foldl_concat]
    generalize entries.foldl Tracing.read {} = s at ih
    obtain ⟨trace, hcurrent, hdecision, hactions, hlength⟩ := ih.current
    obtain ⟨d', hd', howns⟩ := ih.owned trace (by simp [hcurrent])
    obtain rfl := Option.some.inj (hdecision.symm.trans howns.decision)
    have htaken : (trace.outcomes ++ [record]).map
        EvidenceRecord.action = d.actions.take (n + 1) := by
      rw [List.map_append, hactions, List.take_add_one, action]
      rfl
    simp only [Tracing.read, hcurrent]
    refine ⟨by simpa using ih.seen, fun trace' htrace => ?_, ?_, ?_, ?_⟩
    · rcases List.mem_append.mp htrace with htrace | htrace
      · obtain ⟨d', hd', howns'⟩ := ih.owned trace' (List.mem_append_left _ htrace)
        exact ⟨d', by simpa using hd', howns'⟩
      · cases List.mem_singleton.mp htrace
        refine ⟨d, by simpa using hd', hdecision, fun r hr => ?_, ?_⟩
        · rcases List.mem_append.mp hr with hr | hr
          · exact howns.ids r hr
          · cases List.mem_singleton.mp hr
            exact decisionId
        · dsimp only
          rw [htaken]
          exact List.take_prefix _ _
    · have hbefore := ih.outcomes
      simp only [hcurrent,
        Option.toList_some, List.flatMap_append, List.flatMap_singleton, commandLines_command]
        at hbefore ⊢
      rw [← hbefore, List.append_assoc]
    · have hbefore := ih.decisions
      simpa [hcurrent, List.filterMap_cons, hdecision] using hbefore
    · exact ⟨_, rfl, hdecision, htaken, by simp [hlength]⟩

/-- The reader puts every command under the decision that it names, and under no other. -/
theorem traces_own (h : Chronicle entries last) :
    (traces entries).filterMap Trace.decision = decisionLines entries ∧
      (traces entries).flatMap Trace.outcomes = commandLines entries ∧
      ∀ trace ∈ traces entries, ∃ d ∈ decisionLines entries, trace.Owns d :=
  ⟨h.reads.decisions, h.reads.outcomes, h.reads.owned⟩

end Chronicle

end SpaceportBazaar
