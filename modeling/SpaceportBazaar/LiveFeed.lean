import SpaceportBazaar.Delimited
import SpaceportBazaar.Dict
import Mathlib.Data.Rat.Defs

namespace SpaceportBazaar

inductive Json (ν : Type) where
  | null
  | bool (b : Bool)
  | number (n : ν)
  | string (s : String)
  | array (items : List (Json ν))
  | object (fields : List (String × Json ν))

abbrev Fields (ν : Type) : Type := List (String × Json ν)

inductive LineError
  | valueError
  | keyError
  | typeError
  | recursionError
  deriving DecidableEq, Repr

/-- `except (ValueError, KeyError, TypeError)` -/
def LineError.caught : LineError → Bool
  | .valueError | .keyError | .typeError => true
  | .recursionError => false

/-- `json.loads` of a line and `==` of what it gives. A text that is no JSON is a `ValueError`,
one that nests too deep a `RecursionError`. -/
structure Runtime (ν : Type) where
  loads : List UInt8 → Except LineError (Json ν)
  same : Json ν → Json ν → Bool

variable {ν : Type}

def Json.isText (s : String) : Json ν → Bool
  | .string t => t = s
  | _ => false

/-- `xs[-n:]` -/
def lastOf {β : Type} (n : Nat) (xs : List β) : List β := xs.drop (xs.length - n)

/-- A station as the browser gets it, without the clock stamp of its last record. -/
structure StationView (ν : Type) where
  shown : Dict String (Json ν)
  events : List (Json ν)
  trades : List (Json ν)
  history : List (Fields ν)
  confirmed : Nat
  rejected : Nat

def openOffers (record : Fields ν) : Except LineError (Json ν) :=
  match record.lookup "open_offers" with
  | none => .ok (.array [])
  | some (.array offers) => .ok (.array (lastOf 20 offers))
  | some (.string s) => .ok (.string (String.ofList (lastOf 20 s.toList)))
  | some _ => .error .typeError

/-- `{"tick": .., "health": .., **record["inventory"]}` -/
def historyPoint (record : Fields ν) : Except LineError (Fields ν) :=
  match record.lookup "tick", record.lookup "health", record.lookup "inventory" with
  | some tick, some health, some (.object inventory) =>
    .ok (inventory.foldl (fun point e => Dict.setEntry e.1 e.2 point)
      [("tick", tick), ("health", health)])
  | some _, some _, some _ => .error .typeError
  | _, _, _ => .error .keyError

/-- What a `for` loop goes through in the new transactions. -/
def newTransactions (record : Fields ν) : Except LineError (List (Json ν)) :=
  match record.lookup "new_transactions" with
  | none => .ok []
  | some (.array trades) => .ok trades
  | some (.string s) => .ok (s.toList.map (fun c => .string (String.singleton c)))
  | some (.object fields) => .ok (fields.map (fun e => .string e.1))
  | some _ => .error .typeError

namespace StationView

def new (sid : String) : StationView ν where
  shown := Dict.ofList [("id", .string sid), ("status", .string "connecting"), ("tick", .null),
    ("health", .null), ("inventory", .object []), ("reserve", .object []), ("actions", .array []),
    ("reasons", .array [])]
  events := []
  trades := []
  history := []
  confirmed := 0
  rejected := 0

def put (v : StationView ν) (key : String) (value : Json ν) : StationView ν :=
  { v with shown := v.shown.set key value }

def decisionKeys : List String :=
  ["tick", "health", "inventory", "reserve", "available", "actions", "reasons", "phase"]

/-- The keys of a decision that the record has. -/
def putDecision (v : StationView ν) (record : Fields ν) : StationView ν :=
  decisionKeys.foldl (fun v key => match record.lookup key with
    | some value => v.put key value
    | none => v) v

def addPoint (py : Runtime ν) (v : StationView ν) (point : Fields ν) : StationView ν :=
  match v.history.getLast?.bind (·.lookup "tick"), point.lookup "tick" with
  | some last, some tick =>
    if py.same last tick then { v with history := v.history.dropLast ++ [point] }
    else { v with history := lastOf 120 (v.history ++ [point]) }
  | _, _ => { v with history := lastOf 120 (v.history ++ [point]) }

/-- What was done before the exception stays done. -/
def decision (py : Runtime ν) (v : StationView ν)
    (record : Fields ν) : Except LineError Unit × StationView ν :=
  let v := v.putDecision record
  match openOffers record with
  | .error e => (.error e, v)
  | .ok offers =>
    let v := v.put "offers" offers
    match historyPoint record with
    | .error e => (.error e, v)
    | .ok point =>
      let v := v.addPoint py point
      match newTransactions record with
      | .error e => (.error e, v)
      | .ok trades => (.ok (),
        { v with trades := trades.foldl (fun kept trade => (trade :: kept).take 12) v.trades })

def command (v : StationView ν) (record : Fields ν) (action : Json ν) : StationView ν :=
  let v := match record.lookup "result_ok" with
    | some (.bool true) => { v with confirmed := v.confirmed + 1 }
    | some (.bool false) => { v with rejected := v.rejected + 1 }
    | _ => v
  let event : Json ν := .object [("kind", .string "command"), ("action", action),
    ("ok", (record.lookup "result_ok").getD .null),
    ("code", (record.lookup "result_code").getD (.string "No confirmation")),
    ("tick", (record.lookup "processed_tick").getD ((record.lookup "observed_tick").getD .null))]
  { v with events := (event :: v.events).take 12 }

def ingest (py : Runtime ν) (v : StationView ν)
    (record : Fields ν) : Except LineError Unit × StationView ν :=
  let kind := (record.lookup "kind").getD .null
  if kind.isText "run_start" then
    (.ok (), v.put "strategy" ((record.lookup "strategy").getD (.string "unknown")))
  else if kind.isText "decision" then v.decision py record
  else if kind.isText "status" then
    (.ok (), v.put "status" ((record.lookup "status").getD (.string "unknown")))
  else if kind.isText "connection" then
    (.ok (), v.put "connection" ((record.lookup "event").getD .null))
  else if kind.isText "run_end" then (.ok (), v.put "ended" (.bool true))
  else match record.lookup "action_kind" with
    | some action => (.ok (), v.command record action)
    | none => (.ok (), v)

end StationView

structure Cursor where
  offset : Nat := 0
  partialLine : List UInt8 := []
  inode : Option Nat := none
  deriving DecidableEq, Repr

/-- A file as one poll finds it: what `stat` tells, and what it holds once it is open,
unless it went in between. -/
structure Glimpse where
  inode : Nat
  size : Nat
  contents : Option (List UInt8)

/-- What one poll gets from the clock and the disk. A path with nothing to see
raises `FileNotFoundError`. -/
structure Look where
  now : ℚ
  listing : List String
  seen : String → Option Glimpse

def newline : UInt8 := 10
def chunkBytes : Nat := 262144
def partialBytes : Nat := 2 ^ 20

namespace Cursor

/-- Another file under the path, or a shorter one, is read from its start. -/
def stale (c : Cursor) (g : Glimpse) : Bool := c.inode ≠ some g.inode || g.size < c.offset

def place (c : Cursor) (g : Glimpse) : Cursor := if c.stale g then { inode := some g.inode } else c

/-- The lines that one read ends, and the cursor behind it. -/
def read (c : Cursor) (contents : List UInt8) : List (List UInt8) × Cursor :=
  let chunk := (contents.drop c.offset).take chunkBytes
  let left := Delimited.rest newline (c.partialLine ++ chunk)
  (Delimited.ended newline (c.partialLine ++ chunk),
    { c with offset := c.offset + chunk.length, partialLine := if partialBytes <
    left.length then [] else left })

/-- One poll's turn at a file. -/
def turn (c : Cursor) : Option Glimpse → List (List UInt8) × Cursor
  | none => ([], c)
  | some g =>
    let c := c.place g
    if g.size = c.offset then ([], c)
    else match g.contents with
      | none => ([], c)
      | some contents => c.read contents

end Cursor

structure Feed (ν : Type) where
  files : Dict String Cursor
  stations : Dict String (StationView ν)
  revision : Nat
  nextScan : ℚ
  finished : Bool

/-- What one poll did with one file: the lines it ended, the records it handed to
`ingest`, and what it let out. -/
structure Reading (ν : Type) where
  path : String
  lines : List (List UInt8)
  handed : List (Fields ν)
  escaped : Option LineError

namespace Feed

def new : Feed ν := ⟨Dict.empty, Dict.empty, 0, 0, false⟩

/-- `path.name.removesuffix("-evidence.jsonl")` -/
def stationId (name : String) : String :=
  if "-evidence.jsonl".toList.isSuffixOf name.toList then
    String.ofList (name.toList.take (name.length - "-evidence.jsonl".length))
  else name

def ingest (py : Runtime ν) (f : Feed ν) (sid : String)
    (record : Fields ν) : Except LineError Unit × Feed ν :=
  let start := ((record.lookup "kind").getD .null).isText "run_start"
  let stations := if start then f.stations.erase sid else f.stations
  let (raised, view) := ((stations.get? sid).getD (StationView.new sid)).ingest py record
  let f :=
    { f with stations := stations.set sid view, finished := if start then false else f.finished }
  match raised with
  | .error e => (.error e, f)
  | .ok () => (.ok (), { f with revision := f.revision + 1 })

/-- The records handed over, and the exception that ends the loop early. -/
def takeLines (py : Runtime ν) (sid : String) :
    List (List UInt8) → Feed ν → (List (Fields ν) × Option LineError) × Feed ν
  | [], f => (([], none), f)
  | line :: lines, f =>
    match py.loads line with
    | .error e => if e.caught then takeLines py sid lines f else (([], some e), f)
    | .ok (.object record) =>
      match f.ingest py sid record with
      | (.error e, f) =>
        if e.caught then
          let ((handed, escaped), f) := takeLines py sid lines f
          ((record :: handed, escaped), f)
        else (([record], some e), f)
      | (.ok (), f) =>
        let ((handed, escaped), f) := takeLines py sid lines f
        ((record :: handed, escaped), f)
    | .ok _ => takeLines py sid lines f

def pollFile (py : Runtime ν) (f : Feed ν) (path : String) (c : Cursor) (seen : Option Glimpse) :
    Reading ν × Feed ν :=
  let sid := stationId path
  let stations := if seen.any c.stale then f.stations.erase sid else f.stations
  let (lines, c) := c.turn seen
  let ((handed, escaped), f) :=
    takeLines py sid lines { f with files := f.files.set path c, stations := stations }
  (⟨path, lines, handed, escaped⟩, f)

/-- An exception that is not caught ends the round of the files. -/
def pollFiles (py : Runtime ν) (look : Look) : List (String × Cursor) → Feed ν →
    List (Reading ν) × Feed ν
  | [], f => ([], f)
  | (path, c) :: files, f =>
    let (reading, f) := f.pollFile py path c (look.seen path)
    if reading.escaped.isSome then ([reading], f)
    else
      let (readings, f) := pollFiles py look files f
      (reading :: readings, f)

def scan (f : Feed ν) (look : Look) : Feed ν :=
  if f.nextScan ≤ look.now then
    { f with
      files := look.listing.foldl (fun files path => (files.setDefault path {}).2) f.files
      nextScan := look.now + 1 / 4 }
  else f

/-- The tails of one poll, up to where it turns to the server's report. -/
def poll (py : Runtime ν) (f : Feed ν) (look : Look) : List (Reading ν) × Feed ν :=
  (f.scan look).pollFiles py look (f.scan look).files.entries

/-- One poll after another, from a new feed. -/
def watch (py : Runtime ν) (looks : List Look) : List (Reading ν) × Feed ν :=
  looks.foldl (fun s look => (s.1 ++ (s.2.poll py look).1, (s.2.poll py look).2)) ([], new)

end Feed

end SpaceportBazaar
