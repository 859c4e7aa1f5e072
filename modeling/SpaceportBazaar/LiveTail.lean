import SpaceportBazaar.LiveFeed
import SpaceportBazaar.Fold
import Mathlib.Data.List.Infix
import Mathlib.Data.List.TakeWhile

namespace SpaceportBazaar

variable {ν : Type} {py : Runtime ν}

namespace Runtime

/-- The JSON object on a line, if it holds one. -/
def record? (py : Runtime ν) (line : List UInt8) : Option (Fields ν) :=
  match py.loads line with
  | .ok (.object record) => some record
  | _ => none

/-- Nothing gets out of the loop over the lines at this one. -/
def readable (py : Runtime ν) (line : List UInt8) : Bool :=
  match py.loads line with
  | .error e => e.caught
  | .ok _ => true

/-- The objects on the lines of a file, parsed all at once. -/
def records (py : Runtime ν) (contents : List UInt8) : List (Fields ν) :=
  (Delimited.ended newline contents).filterMap py.record?

/-- What a loop over the lines hands over before anything gets out of it. -/
def handOver (py : Runtime ν) (lines : List (List UInt8)) : List (Fields ν) :=
  (lines.takeWhile py.readable).filterMap py.record?

/-- The objects from the first line on that something gets out at. -/
def missed (py : Runtime ν) (lines : List (List UInt8)) : List (Fields ν) :=
  (lines.dropWhile py.readable).filterMap py.record?

theorem handOver_missed (lines : List (List UInt8)) :
    lines.filterMap py.record? = py.handOver lines ++ py.missed lines := by
  unfold handOver missed
  rw [← List.filterMap_append, List.takeWhile_append_dropWhile]

theorem handOver_cons (line : List UInt8) (lines : List (List UInt8)) :
    py.handOver (line :: lines) =
    if py.readable line then (py.record? line).toList ++ py.handOver lines else [] := by
  unfold handOver
  rw [List.takeWhile_cons]
  split
  next =>
    rw [List.filterMap_cons]
    cases py.record? line <;> rfl
  next => rfl

end Runtime

section Ingest

variable {record : Fields ν} {e : LineError}

theorem openOffers_raises (h : openOffers record = .error e) : e.caught = true := by
  unfold openOffers at h
  split at h <;> cases h
  rfl

theorem historyPoint_raises (h : historyPoint record = .error e) : e.caught = true := by
  unfold historyPoint at h
  split at h <;> cases h <;> rfl

theorem newTransactions_raises (h : newTransactions record = .error e) : e.caught = true := by
  unfold newTransactions at h
  split at h <;> cases h
  rfl

theorem StationView.decision_raises {v : StationView ν} (h : (v.decision py record).1 = .error e) :
    e.caught = true := by
  unfold StationView.decision at h
  dsimp only at h
  split at h
  next he => cases h; exact openOffers_raises he
  next =>
    split at h
    next he => cases h; exact historyPoint_raises he
    next =>
      split at h
      next he => cases h; exact newTransactions_raises he
      next => cases h

theorem StationView.ingest_raises {v : StationView ν} (h : (v.ingest py record).1 = .error e) :
    e.caught = true := by
  unfold StationView.ingest at h
  dsimp only at h
  split_ifs at h
  · exact StationView.decision_raises h
  · split at h <;> cases h

namespace Feed

variable {f : Feed ν} {sid : String}

/-- Every exception that ingesting raises is one the loop catches. -/
theorem ingest_raises (h : (f.ingest py sid record).1 = .error e) : e.caught = true := by
  unfold Feed.ingest at h
  dsimp only at h
  split at h
  next he => cases h; exact StationView.ingest_raises he
  next => cases h

theorem ingest_files (py : Runtime ν) (f : Feed ν) (sid : String) (record : Fields ν) :
    (f.ingest py sid record).2.files = f.files := by
  unfold Feed.ingest
  dsimp only
  split <;> rfl

theorem takeLines_spec (py : Runtime ν) (sid : String) (lines : List (List UInt8)) (f : Feed ν) :
    (takeLines py sid lines f).1.1 = py.handOver lines ∧
    (takeLines py sid lines f).2.files = f.files := by
  induction lines generalizing f with
  | nil => exact ⟨rfl, rfl⟩
  | cons line lines ih =>
    rw [Runtime.handOver_cons]
    unfold takeLines Runtime.readable Runtime.record?
    cases py.loads line with
    | error e =>
      cases hcaught : e.caught with
      | true => simpa [hcaught] using ih f
      | false => simp [hcaught]
    | ok value =>
      cases value with
      | object record =>
        rcases hingest : f.ingest py sid record with ⟨raised, f'⟩
        have hfiles : f'.files = f.files := by rw [← ingest_files py f sid record, hingest]
        obtain ⟨hhanded, hlater⟩ := ih f'
        cases raised with
        | error e =>
          have hcaught : e.caught = true := ingest_raises (congrArg Prod.fst hingest)
          simp [hingest, hcaught, hhanded, hlater, hfiles]
        | ok _ => simp [hingest, hhanded, hlater, hfiles]
      | null | bool | number | string | array => simpa using ih f

end Feed

end Ingest

/-- A record is handed over as the lines are gone through, up to where something gets out. -/
def Reading.Follows (py : Runtime ν) (r : Reading ν) : Prop := r.handed = py.handOver r.lines

def readingsOf (path : String) (readings : List (Reading ν)) : List (Reading ν) :=
  readings.filter (fun r => r.path = path)

theorem readingsOf_cons_of_ne {path : String} {r : Reading ν} (h : r.path ≠ path)
    (readings : List (Reading ν)) :
    readingsOf path (r :: readings) = readingsOf path readings :=
  List.filter_cons_of_neg (by simpa using h)

theorem readingsOf_cons_self {path : String} {r : Reading ν} (h : r.path = path)
    (readings : List (Reading ν)) :
    readingsOf path (r :: readings) = r :: readingsOf path readings :=
  List.filter_cons_of_pos (by simpa using h)

namespace Feed

variable {f : Feed ν} {path : String} {c : Cursor} {look : Look}

/-- A file the feed has not come across yet is read from its start. -/
def cursor (f : Feed ν) (path : String) : Cursor := (f.files.get? path).getD {}

/-- Either the path did not get its turn, or it got one. -/
def Turned (look : Look) (path : String) (c : Cursor) (readings : List (Reading ν))
    (after : Cursor) : Prop :=
  readingsOf path readings = [] ∧ after = c ∨
    ∃ r, readingsOf path readings = [r] ∧ r.lines = (c.turn (look.seen path)).1 ∧
    after = (c.turn (look.seen path)).2

theorem pollFile_spec (py : Runtime ν) (f : Feed ν) (path : String) (c : Cursor)
    (seen : Option Glimpse) :
    (f.pollFile py path c seen).1.path = path ∧
      (f.pollFile py path c seen).1.lines = (c.turn seen).1 ∧
      (f.pollFile py path c seen).1.Follows py ∧
        (f.pollFile py path c seen).2.files = f.files.set path (c.turn seen).2 := by
  have hspec := takeLines_spec py (stationId path) (c.turn seen).1
    { f with
      files := f.files.set path (c.turn seen).2
      stations := if seen.any c.stale then f.stations.erase (stationId path) else f.stations }
  exact ⟨rfl, rfl, hspec.1, hspec.2⟩

theorem pollFiles_follows (files : List (String × Cursor)) (f : Feed ν) :
    ∀ r ∈ (pollFiles py look files f).1, r.Follows py := by
  induction files generalizing f with
  | nil => simp [pollFiles]
  | cons e files ih =>
    obtain ⟨-, -, hfollows, -⟩ := pollFile_spec py f e.1 e.2 (look.seen e.1)
    intro r hr
    unfold pollFiles at hr
    dsimp only at hr
    split at hr
    next =>
      rw [List.mem_singleton.mp hr]
      exact hfollows
    next =>
      rcases List.mem_cons.mp hr with rfl | hr
      · exact hfollows
      · exact ih _ r hr

theorem pollFiles_other (py : Runtime ν) (look : Look) {files : List (String × Cursor)}
    (hpath : path ∉ files.map Prod.fst) (f : Feed ν) :
    readingsOf path (pollFiles py look files f).1 = [] ∧
      (pollFiles py look files f).2.cursor path = f.cursor path := by
  induction files generalizing f with
  | nil => exact ⟨rfl, rfl⟩
  | cons e files ih =>
    obtain ⟨hne, hrest⟩ := not_or.mp (mt List.mem_cons.mpr hpath)
    obtain ⟨hread, -, -, hfiles⟩ := pollFile_spec py f e.1 e.2 (look.seen e.1)
    have hkeep : (f.pollFile py e.1 e.2 (look.seen e.1)).2.cursor path = f.cursor path := by
      unfold cursor
      rw [hfiles, Dict.get?_set_of_ne _ _ hne]
    have hother :
      (f.pollFile py e.1 e.2 (look.seen e.1)).1.path ≠ path := by rw [hread]; exact Ne.symm hne
    unfold pollFiles
    dsimp only
    split
    next => exact ⟨readingsOf_cons_of_ne hother [], hkeep⟩
    next =>
      obtain ⟨hnone, hsame⟩ := ih hrest (f.pollFile py e.1 e.2 (look.seen e.1)).2
      exact ⟨(readingsOf_cons_of_ne hother _).trans hnone, hsame.trans hkeep⟩

/-- A path among the files gets at most one turn. -/
theorem pollFiles_turned (py : Runtime ν) {files : List (String × Cursor)}
    (hnodup : (files.map Prod.fst).Nodup) (hpath : (path, c) ∈ files) (hf : f.cursor path = c) :
    Turned look path c (pollFiles py look files f).1
      ((pollFiles py look files f).2.cursor path) := by
  induction files generalizing f with
  | nil => simp at hpath
  | cons e files ih =>
    obtain ⟨hnot, hnodup⟩ := List.nodup_cons.mp hnodup
    obtain ⟨hread, hlines, -, hfiles⟩ := pollFile_spec py f e.1 e.2 (look.seen e.1)
    unfold pollFiles
    dsimp only
    by_cases he : e.1 = path
    · have hc : e = (path, c) := by
        rcases List.mem_cons.mp hpath with rfl | hmem
        · rfl
        · exact absurd (List.mem_map_of_mem (f := Prod.fst) hmem) (he ▸ hnot)
      subst hc
      have hcursor :
          (f.pollFile py path c (look.seen path)).2.cursor path = (c.turn (look.seen path)).2 := by
        unfold cursor
        rw [hfiles, Dict.get?_set_self, Option.getD_some]
      right
      refine ⟨(f.pollFile py path c (look.seen path)).1, ?_, hlines, ?_⟩
      · split
        next => exact readingsOf_cons_self hread []
        next => rw [readingsOf_cons_self hread, (pollFiles_other py look hnot _).1]
      · split
        next => exact hcursor
        next => exact (pollFiles_other py look hnot _).2.trans hcursor
    · have hmem : (path, c) ∈ files := by
        rcases List.mem_cons.mp hpath with rfl | hmem
        · exact absurd rfl he
        · exact hmem
      have hkeep : (f.pollFile py e.1 e.2 (look.seen e.1)).2.cursor path = c := by
        rw [← hf]
        unfold cursor
        rw [hfiles, Dict.get?_set_of_ne _ _ (Ne.symm he)]
      have hother : (f.pollFile py e.1 e.2 (look.seen e.1)).1.path ≠ path := by rwa [hread]
      split
      next => exact .inl ⟨readingsOf_cons_of_ne hother [], hkeep⟩
      next =>
        unfold Turned
        rw [readingsOf_cons_of_ne hother]
        exact ih hnodup hmem hkeep

theorem scan_cursor (f : Feed ν) (look : Look) (path : String) :
    (f.scan look).cursor path = f.cursor path := by
  unfold scan
  split
  next =>
    have hkeep : ∀ files : Dict String Cursor, ∀ other : String,
        ((files.setDefault other {}).2.get? path).getD {} = (files.get? path).getD {} := by
      intro files other
      unfold Dict.setDefault
      split
      next => rfl
      next hnone =>
        by_cases hother : path = other
        · subst hother
          rw [hnone, Dict.get?_set_self]
          rfl
        · rw [Dict.get?_set_of_ne _ _ hother]
    exact List.foldlRecOn
        (motive := fun files : Dict String Cursor => (files.get? path).getD {} = f.cursor path)
      look.listing _ rfl fun files hfiles other _ => (hkeep files other).trans hfiles
  next => rfl

/-- The turns of one poll, a path that is not among the files counting as one without a turn. -/
theorem poll_turned (py : Runtime ν) (f : Feed ν) (look : Look) (path : String) :
    Turned look path (f.cursor path) (f.poll py look).1 ((f.poll py look).2.cursor path) := by
  have hscan := scan_cursor f look path
  cases hfile : (f.scan look).files.get? path with
  | none =>
    have hpath : path ∉ (f.scan look).files.entries.map Prod.fst := by
      intro hmem
      obtain ⟨e, he, hkey⟩ := List.mem_map.mp hmem
      have hsome := Dict.mem_entries_iff.mp he
      rw [hkey, hfile] at hsome
      cases hsome
    obtain ⟨hnone, hsame⟩ := pollFiles_other py look hpath (f.scan look)
    exact .inl ⟨hnone, hsame.trans hscan⟩
  | some c =>
    have hc : (f.scan look).cursor path = c := by
      unfold cursor
      rw [hfile, Option.getD_some]
    have hturned : Turned look path c (f.poll py look).1 ((f.poll py look).2.cursor path) :=
      pollFiles_turned py (f.scan look).files.nodup (Dict.mem_entries_iff.mpr hfile) hc
    rwa [← hscan, hc]

end Feed

namespace Cursor

variable {c : Cursor} {content : List UInt8} {inode : Nat} {lines : List (List UInt8)}

/-- A cursor into a file that only grows: the lines ended before its offset have come, and what
is left over is kept. -/
structure Tails (c : Cursor) (content : List UInt8) (inode : Nat)
    (lines : List (List UInt8)) : Prop where
  inode : c.inode = some inode ∨ c.inode = none ∧ c.offset = 0
  opened : c.partialLine = Delimited.rest newline (content.take c.offset)
  ended : lines = Delimited.ended newline (content.take c.offset)

theorem Tails.place {g : Glimpse} (h : c.Tails content inode lines) (hinode : g.inode = inode)
    (hsize : c.offset ≤ g.size) :
    (c.place g).offset = c.offset ∧ (c.place g).inode = some inode ∧
    (c.place g).Tails content inode lines := by
  subst hinode
  unfold place stale
  rcases h.inode with hsame | ⟨hnone, hzero⟩
  · have hnot : ¬g.size < c.offset := by omega
    simp [hsame, hnot, h]
  · have hlines := h.ended
    rw [hzero] at hlines
    have hfresh : Tails { inode := some g.inode } content g.inode lines :=
      ⟨.inl rfl, by simp, by simpa using hlines⟩
    simp [hnone, hzero, hfresh]

/-- A read goes on where the last one stopped, inside a line as well as at its end. -/
theorem Tails.read {now : List UInt8} (h : c.Tails content inode lines) (hinode :
      c.inode = some inode) (hlines : ∀ line ∈ content.splitOn newline, line.length ≤ partialBytes)
    (hnow : now <+: content) :
    (c.read now).2.Tails content inode (lines ++ (c.read now).1) := by
  let chunk := (now.drop c.offset).take chunkBytes
  have hchunk : content.take (c.offset + chunk.length) = content.take c.offset ++ chunk := by
    have hstart : chunk <+: content.drop c.offset :=
      (List.take_prefix _ _).trans (List.IsPrefix.drop hnow c.offset)
    rw [List.take_add, ← List.prefix_iff_eq_take.mp hstart]
  have hopen : Delimited.rest newline (c.partialLine ++ chunk) =
      Delimited.rest newline (content.take (c.offset + chunk.length)) := by
    rw [hchunk, Delimited.rest_append newline (content.take c.offset), ← h.opened]
  have hshort : ¬partialBytes < (Delimited.rest newline (c.partialLine ++ chunk)).length := by
    rw [hopen]
    obtain ⟨line, hline, hstart⟩ :=
      Delimited.rest_prefix newline (content.take (c.offset + chunk.length))
      (content.drop (c.offset + chunk.length))
    rw [List.take_append_drop] at hline
    have hbound := hlines line hline
    have hle := hstart.length_le
    omega
  refine ⟨.inl hinode, ?_, ?_⟩
  · show (if _ then _ else _) = _
    rw [if_neg hshort]
    exact hopen
  · show lines ++ Delimited.ended newline (c.partialLine ++ chunk) = _
    rw [h.ended, h.opened, ← Delimited.ended_append, ← hchunk]
    rfl

theorem read_offset (c : Cursor) (now : List UInt8) :
    (c.read now).2.offset = c.offset + min chunkBytes (now.length - c.offset) := by
  simp [Cursor.read]

theorem Tails.turn {g : Glimpse} {now : List UInt8}
    (h : c.Tails content inode lines) (hinode : g.inode = inode) (hsize : c.offset ≤ g.size)
    (hcontents : g.contents = some now) (hnow : now <+: content) (hfull : g.size ≤ now.length)
    (hlines : ∀ line ∈ content.splitOn newline, line.length ≤ partialBytes) :
    (c.turn (some g)).2.Tails content inode (lines ++ (c.turn (some g)).1) ∧
    (c.turn (some g)).2.offset ≤ now.length := by
  obtain ⟨hoffset, hplaced, htails⟩ := h.place hinode hsize
  unfold Cursor.turn
  dsimp only
  split
  next hall =>
    rw [List.append_nil]
    exact ⟨htails, by dsimp only; omega⟩
  next =>
    rw [hcontents]
    refine ⟨htails.read hplaced hlines hnow, ?_⟩
    rw [read_offset]
    omega

end Cursor

/-- Over these looks the file under the path keeps its inode and only grows,
towards this content. -/
structure Growing (path : String) (inode : Nat) (content : List UInt8)
    (looks : List Look) : Prop where
  within : ∀ look ∈ looks, ∀ g, look.seen path = some g →
    g.inode = inode ∧ ∃ now, g.contents = some now ∧ now <+: content ∧ g.size ≤ now.length
  grows : looks.Pairwise (fun earlier later => ∀ g h now,
    earlier.seen path = some g → later.seen path = some h → g.contents = some now →
    now.length ≤ h.size)

namespace Feed

variable {path : String} {inode : Nat} {content : List UInt8} {looks : List Look}

/-- What is known of a file after some looks. -/
structure Watched (py : Runtime ν) (path : String) (inode : Nat) (content : List UInt8)
    (past : List Look) (s : List (Reading ν) × Feed ν) : Prop where
  follows : ∀ r ∈ s.1, r.Follows py
  tails : (s.2.cursor path).Tails content inode ((readingsOf path s.1).flatMap Reading.lines)
  reached : (s.2.cursor path).offset = 0 ∨ ∃ look ∈ past, ∃ g now,
    look.seen path = some g ∧ g.contents = some now ∧ (s.2.cursor path).offset ≤ now.length

theorem poll_watched {past later : List Look} {look : Look} {s : List (Reading ν) × Feed ν}
    (hgrows : Growing path inode content (past ++ look :: later))
    (hlines : ∀ line ∈ content.splitOn newline, line.length ≤ partialBytes)
    (h : Watched py path inode content past s) :
    Watched py path inode content (past ++ [look])
      (s.1 ++ (s.2.poll py look).1, (s.2.poll py look).2) := by
  have hfollows : ∀ r ∈ s.1 ++ (s.2.poll py look).1, r.Follows py := by
    intro r hr
    rcases List.mem_append.mp hr with hr | hr
    · exact h.follows r hr
    · exact pollFiles_follows _ _ r hr
  have hsplit : readingsOf path (s.1 ++ (s.2.poll py look).1) =
      readingsOf path s.1 ++ readingsOf path (s.2.poll py look).1 := List.filter_append ..
  have hkept :
      ∀ offset, offset = (s.2.cursor path).offset → offset = 0 ∨ ∃ look' ∈ past ++ [look], ∃ g now,
      look'.seen path = some g ∧ g.contents = some now ∧ offset ≤ now.length := by
    rintro offset rfl
    rcases h.reached with hzero | ⟨look', hlook, hseen⟩
    · exact .inl hzero
    · exact .inr ⟨look', List.mem_append_left _ hlook, hseen⟩
  rcases poll_turned py s.2 look path with ⟨hnone, hsame⟩ | ⟨r, hone, hread, hafter⟩
  · refine ⟨hfollows, ?_, hkept _ (congrArg Cursor.offset hsame)⟩
    rw [hsplit, hnone, List.append_nil, hsame]
    exact h.tails
  · cases hseen : look.seen path with
    | none =>
      rw [hseen] at hread hafter
      refine ⟨hfollows, ?_, hkept _ (congrArg Cursor.offset hafter)⟩
      rw [hsplit, hone, List.flatMap_append, List.flatMap_singleton, hread, hafter]
      simpa [Cursor.turn] using h.tails
    | some g =>
      rw [hseen] at hread hafter
      obtain ⟨hinode, now, hcontents, hnow, hfull⟩ := hgrows.within look (by simp) g hseen
      have hsize : (s.2.cursor path).offset ≤ g.size := by
        rcases h.reached with hzero | ⟨look', hlook, g', now', hseen', hcontents', hle⟩
        · omega
        · have hlater := (List.pairwise_append.mp hgrows.grows).2.2 look' hlook look
            (by simp) g' g now' hseen' hseen hcontents'
          omega
      obtain ⟨htails, hreached⟩ := h.tails.turn hinode hsize hcontents hnow hfull hlines
      refine ⟨hfollows, ?_, .inr ⟨look, by simp, g, now, hseen, hcontents, ?_⟩⟩
      · rw [hsplit, hone, List.flatMap_append, List.flatMap_singleton, hread, hafter]
        exact htails
      · rw [hafter]
        exact hreached

theorem watch_watched (hgrows : Growing path inode content looks)
    (hlines : ∀ line ∈ content.splitOn newline, line.length ≤ partialBytes) :
    Watched py path inode content looks (watch py looks) := by
  refine Fold.history (I := Watched py path inode content)
    ⟨by simp, ⟨.inr ⟨rfl, rfl⟩, ?_, ?_⟩, .inl rfl⟩ ?_
  · simp [cursor, new]
  · simp [readingsOf, cursor, new]
  · rintro past look later rfl hpast
    exact poll_watched hgrows hlines hpast

/-- The records of one file, in the order they were handed over. -/
def handed (path : String) (readings : List (Reading ν)) : List (Fields ν) :=
  (readingsOf path readings).flatMap Reading.handed

/-- No object is on a line that comes, within one reading, after something got out of the loop. -/
def Unbroken (py : Runtime ν) (path : String) (readings : List (Reading ν)) : Prop :=
  ∀ r ∈ readings, r.path = path → ∀ line ∈ r.lines.dropWhile py.readable, py.record? line = none

theorem watch_handed (hgrows : Growing path inode content looks)
    (hlines : ∀ line ∈ content.splitOn newline, line.length ≤ partialBytes) :
    handed path (watch py looks).1 = (readingsOf path (watch py looks).1).flatMap
      (fun r => py.handOver r.lines) :=
  List.flatMap_congr fun r hr => (watch_watched hgrows hlines).follows r (List.mem_of_mem_filter hr)

theorem watch_lines (hgrows : Growing path inode content looks)
    (hlines : ∀ line ∈ content.splitOn newline, line.length ≤ partialBytes)
    (hcaught : ((watch py looks).2.cursor path).offset = content.length) :
    (readingsOf path (watch py looks).1).flatMap Reading.lines =
      Delimited.ended newline content := by
  rw [(watch_watched hgrows hlines).tails.ended, hcaught, List.take_length]

/-- A file that only grew, once all of it is read, has been handed over as if it were parsed at
once, exactly when no exception cut a reading short. -/
theorem watch_records_iff (hgrows : Growing path inode content looks)
    (hlines : ∀ line ∈ content.splitOn newline, line.length ≤ partialBytes)
    (hcaught : ((watch py looks).2.cursor path).offset = content.length) :
    handed path (watch py looks).1 = py.records content ↔ Unbroken py path (watch py looks).1 := by
  have hrecords : py.records content =
      (readingsOf path (watch py looks).1).flatMap (fun r => r.lines.filterMap py.record?) := by
    rw [Runtime.records, ← watch_lines hgrows hlines hcaught, List.filterMap_flatMap]
  rw [watch_handed hgrows hlines, hrecords,
    Delimited.flatMap_eq_iff (h := fun r => py.missed r.lines) fun r => py.handOver_missed r.lines]
  unfold Unbroken readingsOf Runtime.missed
  simp [List.filterMap_eq_nil_iff]

/-- A file every line of which can be gone past does not lose any. -/
theorem watch_unbroken (hgrows : Growing path inode content looks)
    (hlines : ∀ line ∈ content.splitOn newline, line.length ≤ partialBytes)
    (hcaught : ((watch py looks).2.cursor path).offset = content.length)
    (hreadable : ∀ line ∈ Delimited.ended newline content, py.readable line = true) :
    Unbroken py path (watch py looks).1 := by
  intro r hr hpath line hline
  rw [← watch_lines hgrows hlines hcaught] at hreadable
  have hall : ∀ line ∈ r.lines, py.readable line = true := fun line hline =>
    hreadable line (List.mem_flatMap.mpr ⟨r, List.mem_filter.mpr ⟨hr, by simpa using hpath⟩, hline⟩)
  rw [List.dropWhile_eq_nil_iff.mpr hall] at hline
  cases hline

/-- A file that the first poll comes across is read in it. -/
theorem first_poll (py : Runtime ν) {look : Look} (hnow : 0 ≤ look.now)
    (hlisting : look.listing = [path]) :
    (∃ r, (watch py [look]).1 = [r] ∧
      r.path = path ∧ r.lines = (Cursor.turn {} (look.seen path)).1 ∧ r.Follows py) ∧
      (watch py [look]).2.cursor path = (Cursor.turn {} (look.seen path)).2 := by
  have hscan : ((new : Feed ν).scan look).files.entries = [(path, {})] := by
    have hdue : (new : Feed ν).nextScan ≤ look.now := hnow
    unfold scan
    rw [if_pos hdue, hlisting]
    rfl
  have hpoll : (watch py [look]).1 =
      [((new : Feed ν).scan look |>.pollFile py path {} (look.seen path)).1] ∧ (watch py [look]).2 =
      ((new : Feed ν).scan look |>.pollFile py path {} (look.seen path)).2 := by
    unfold watch poll
    rw [List.foldl_cons, List.foldl_nil, hscan]
    unfold pollFiles
    dsimp only
    split <;> exact ⟨rfl, rfl⟩
  obtain ⟨hread, hlines, hfollows, hfiles⟩ :=
    pollFile_spec py ((new : Feed ν).scan look) path {} (look.seen path)
  refine ⟨⟨_, hpoll.1, hread, hlines, hfollows⟩, ?_⟩
  unfold cursor
  rw [hpoll.2, hfiles, Dict.get?_set_self, Option.getD_some]

theorem turn_whole (inode : Nat) (hsize : 0 < content.length)
    (hshort : content.length ≤ chunkBytes) :
    (Cursor.turn {} (some ⟨inode, content.length, some content⟩)).1 =
      Delimited.ended newline content ∧
      (Cursor.turn {} (some ⟨inode, content.length, some content⟩)).2.offset = content.length := by
  have hplace :
      Cursor.place {} ⟨inode, content.length, some content⟩ = { inode := some inode } := by
    simp [Cursor.place, Cursor.stale]
  unfold Cursor.turn
  dsimp only
  rw [hplace, if_neg (by simpa using hsize.ne')]
  simp [Cursor.read, List.take_of_length_le hshort]

section DeepLine

def emptyObject : List UInt8 := [123, 125]

/-- A line, and below it an empty object. -/
def twoLines (deep : List UInt8) : List UInt8 := deep ++ newline :: (emptyObject ++ [newline])

/-- An interpreter that cannot parse one line for its depth. -/
def shallow (deep : List UInt8) : Runtime Nat where
  loads line :=
    if line = deep then .error .recursionError
    else if line = emptyObject then .ok (.object [])
    else .error .valueError
  same _ _ := false

def lookAt (content : List UInt8) : Look where
  now := 0
  listing := ["P01-evidence.jsonl"]
  seen _ := some ⟨7, content.length, some content⟩

variable {deep : List UInt8}

theorem lookAt_growing (content : List UInt8) :
    Growing "P01-evidence.jsonl" 7 content [lookAt content] := by
  refine ⟨?_, List.pairwise_singleton _ _⟩
  intro look hlook g hseen
  rw [List.mem_singleton.mp hlook] at hseen
  cases hseen
  exact ⟨rfl, content, rfl, List.prefix_rfl, le_rfl⟩

theorem twoLines_splitOn (hdeep : newline ∉ deep) :
    (twoLines deep).splitOn newline = [deep, emptyObject] ++ [[]] := by
  have hobject : newline ∉ emptyObject := by decide
  unfold twoLines
  rw [List.splitOn_append_cons_self_of_not_mem hdeep,
    List.splitOn_append_cons_self_of_not_mem hobject]
  rfl

theorem twoLines_length : (twoLines deep).length = deep.length + 4 := by
  simp [twoLines, emptyObject]

/-- What one look at such a file comes to. -/
theorem twoLines_lost (hdeep : newline ∉ deep) (hshort : deep.length + 4 ≤ chunkBytes)
    (hne : emptyObject ≠ deep) :
    ((watch (shallow deep) [lookAt (twoLines deep)]).2.cursor "P01-evidence.jsonl").offset =
      (twoLines deep).length ∧
      handed "P01-evidence.jsonl" (watch (shallow deep) [lookAt (twoLines deep)]).1 = [] ∧
      (shallow deep).records (twoLines deep) = [[]] := by
  obtain ⟨hlines, hoffset⟩ :=
    turn_whole 7 (show 0 < (twoLines deep).length by rw [twoLines_length]; omega)
    (by rw [twoLines_length]; exact hshort)
  obtain ⟨hended, -⟩ := Delimited.parts (twoLines_splitOn hdeep)
  obtain ⟨⟨r, hone, hpath, hread, hfollows⟩, hcursor⟩ :=
    first_poll (shallow deep) (show 0 ≤ (lookAt (twoLines deep)).now from Rat.le_refl) rfl
  have hread : r.lines = [deep, emptyObject] := hread.trans (hlines.trans hended)
  have hbroken :
    (shallow deep).readable deep = false := by simp [Runtime.readable, shallow, LineError.caught]
  have hnone : (shallow deep).record? deep = none := by simp [Runtime.record?, shallow]
  have hobject :
    (shallow deep).record? emptyObject = some [] := by simp [Runtime.record?, shallow, hne]
  refine ⟨by rw [hcursor]; exact hoffset, ?_, ?_⟩
  · rw [handed, hone, readingsOf_cons_self hpath, List.flatMap_cons, hfollows, hread,
      Runtime.handOver_cons, hbroken]
    rfl
  · simp [Runtime.records, hended, hnone, hobject]

/-- Many more opening brackets than an interpreter recurses for. -/
def brackets : List UInt8 := List.replicate 100000 91

theorem brackets_length : brackets.length = 100000 := List.length_replicate

/-- A line nested too deep takes the object on the next one with it. -/
theorem deep_line_drops_next :
    Growing "P01-evidence.jsonl" 7 (twoLines brackets) [lookAt (twoLines brackets)] ∧
    (∀ line ∈ (twoLines brackets).splitOn newline, line.length ≤ partialBytes) ∧
    ((watch (shallow brackets) [lookAt (twoLines brackets)]).2.cursor "P01-evidence.jsonl").offset =
      (twoLines brackets).length ∧
    handed "P01-evidence.jsonl" (watch (shallow brackets) [lookAt (twoLines brackets)]).1 ≠
      (shallow brackets).records (twoLines brackets) := by
  have hdeep : newline ∉ brackets := fun h => absurd (List.eq_of_mem_replicate h) (by decide)
  have hne : emptyObject ≠ brackets :=
    fun h => by simpa [emptyObject, brackets_length] using congrArg List.length h
  obtain ⟨hoffset, hnothing, hrecords⟩ := twoLines_lost hdeep (by rw [brackets_length]; decide) hne
  refine ⟨lookAt_growing _, ?_, hoffset, ?_⟩
  · rw [twoLines_splitOn hdeep]
    simp [brackets_length, emptyObject, partialBytes]
  · rw [hnothing, hrecords]
    exact List.cons_ne_nil _ _ ∘ Eq.symm

/-- The file as it is found inside its first line, and then at its end. -/
def halves : List Look :=
  [{ lookAt [123] with now := 0 }, { lookAt (emptyObject ++ [newline]) with now := 1 }]

theorem halves_growing : Growing "P01-evidence.jsonl" 7 (emptyObject ++ [newline]) halves := by
  refine ⟨?_, ?_⟩
  · intro look hlook g hseen
    simp only [halves, List.mem_cons, List.not_mem_nil, or_false] at hlook
    rcases hlook with rfl | rfl
    · cases hseen
      exact ⟨rfl, _, rfl, by decide, le_rfl⟩
    · cases hseen
      exact ⟨rfl, _, rfl, List.prefix_rfl, le_rfl⟩
  · refine List.pairwise_pair.mpr ?_
    intro g h now hg hh hnow
    cases hg
    cases hh
    cases hnow
    decide

/-- An object that comes in two pieces is handed over once. -/
theorem halves_handed :
    handed "P01-evidence.jsonl" (watch (shallow brackets) halves).1 =
      (shallow brackets).records (emptyObject ++ [newline]) := by
  have hlines : ∀ line ∈ (emptyObject ++ [newline]).splitOn newline,
    line.length ≤ partialBytes := by decide
  have hcaught : ((watch (shallow brackets) halves).2.cursor "P01-evidence.jsonl").offset =
      (emptyObject ++ [newline]).length := by decide +kernel
  have hreadable : ∀ line ∈ Delimited.ended newline (emptyObject ++ [newline]),
      (shallow brackets).readable line = true := by
    decide
  exact (watch_records_iff halves_growing hlines hcaught).mpr
    (watch_unbroken halves_growing hlines hcaught hreadable)

end DeepLine

end Feed

end SpaceportBazaar
