import SpaceportBazaar.Economy
import Mathlib.Data.Rat.Floor

namespace SpaceportBazaar

def runTicks : Nat := 120
def phases : List Int := [2, 5, 6]
def phaseTicks : Nat := 12

/-- (tick, planet index) -> units of specialty produced that tick. -/
abbrev Production := Nat → Nat → Except Raised Int

/-- Units a tick in 12-tick phases, staggered by planet. -/
def runTwoProduction (phaseOffset : Int := 0) : Production := fun tick i =>
  .ok (phases.getD ((((tick / phaseTicks + i : Nat) : Int) + phaseOffset) % 3).toNat 0)

def specialtyOf (index : Nat) : Resource :=
  Resource.all.get ⟨index % 3, Nat.mod_lt index (by decide)⟩

def producersOf (planets : Nat) (resource : Resource) : List Nat :=
  (List.range planets).filter (fun i => specialtyOf i = resource)

/-- The producers of a resource split what the world consumes of it, the first ones
taking what is left over. -/
def splitNeed (planets upkeep : Nat) (resource : Resource) : List (Nat × Nat) :=
  let producers := producersOf planets resource
  let share := planets * upkeep / producers.length
  let extra := planets * upkeep % producers.length
  producers.mapIdx (fun rank i => (i, share + if rank < extra then 1 else 0))

def baseOutput (planets upkeep : Nat) : Dict Nat Nat :=
  Dict.ofList (Resource.all.flatMap (splitNeed planets upkeep))

/-- `int(x)` drops the fraction. -/
def truncate (x : ℚ) : Int := if 0 ≤ x then ⌊x⌋ else ⌈x⌉

/-- Fractions of the surplus are carried across ticks. -/
def bonusAt (surplus : ℚ) (base tick : Nat) : Int :=
  truncate (((tick + 1 : Nat) : ℚ) * base * surplus) - truncate ((tick : ℚ) * base * surplus)

def swing (variation : Nat) (phase : Nat) : Int := [-(variation : Int), 0, variation].getD phase 0

def balancedProduction (planets : Nat) (upkeep : Nat := 1) (variation : Nat := 0)
    (surplus : ℚ := 0) :
    Except Raised Production :=
  if planets < 3 then
    .error (.valueError "a balanced world needs at least 3 planets, one per resource")
  else .ok (fun tick i =>
    match (baseOutput planets upkeep).get? i with
    | none => .error (.keyError (toString i))
    | some base => .ok
      (max 0 (base + bonusAt surplus base tick + swing variation ((tick / phaseTicks + i) % 3))))

structure Score where
  planets : Nat
  collectiveSuccess : Bool
  survivors : Int
  worldAliveTicks : Nat
  shortageTicks : Nat
  unmetUnits : Nat
  subjectSurvived : Option Bool
  subjectHealth : Option Nat
  deriving DecidableEq, Repr

/-- The failed stations, as their own records tell it. -/
def failedStations (economy : SimulatedEconomy) : Dict String (Option Nat) :=
  Dict.ofList ((economy.stations.entries.filter (fun e => e.2.failedOnce)).map
    (fun e => (e.1, e.2.firstFailureTick)))

/-- `failed_at.get(sid, ticks)`, as a number to add up. -/
def aliveFor (failedAt : Dict String (Option Nat)) (ticks : Nat)
    (stationId : String) : Except Raised Nat :=
  match failedAt.get? stationId with
  | none => .ok ticks
  | some (some tick) => .ok tick
  | some none => .error (.typeError "unsupported operand type(s) for +: 'int' and 'NoneType'")

/-- Score any finished economy, whether run in-process or by the server. -/
def scoreEconomy (economy : SimulatedEconomy) (ticks : Nat) (subject : Option String := none)
    (failedAt : Option (Dict String (Option Nat)) := none) : Except Raised Score := do
  let failedAt := failedAt.getD (failedStations economy)
  let stations := economy.stations
  let alive ← stations.keys.mapM (aliveFor failedAt ticks)
  let subjectHealth ← match subject with
    | none => pure none
    | some stationId => do
      let s ← economy.station stationId
      pure (some s.health)
  return {
    planets := stations.size
    collectiveSuccess := failedAt.size = 0
    survivors := stations.size - failedAt.size
    worldAliveTicks := alive.sum
    shortageTicks := (stations.values.map SimStation.shortageTicks).sum
    unmetUnits := (stations.values.map (fun s => s.unmetTotal.total)).sum
    subjectSurvived := subject.map (fun stationId => !failedAt.contains stationId)
    subjectHealth := subjectHealth }

/-- The score in the server's report: the whole run, no subject, failures as the stations tell
them. -/
def reportScore (economy : SimulatedEconomy) : Except Raised Score :=
  scoreEconomy economy economy.rules.durationTicks

structure WorldOutcome (π : Type) where
  economy : SimulatedEconomy
  roster : Dict String π
  failedAt : Dict String Nat
  ticks : Nat

namespace WorldOutcome

variable {π : Type}

def aliveTicks (outcome : WorldOutcome π) (stationId : String) : Nat :=
  (outcome.failedAt.get? stationId).getD outcome.ticks

/-- Planet-ticks lived across the whole world: the collective score. -/
def worldAliveTicks (outcome : WorldOutcome π) : Nat :=
  (outcome.roster.keys.map outcome.aliveTicks).sum

def survivors (outcome : WorldOutcome π) : Finset String :=
  outcome.roster.keys.toFinset \ outcome.failedAt.keys.toFinset

def score (outcome : WorldOutcome π) (subject : Option String := none) : Except Raised Score :=
  scoreEconomy outcome.economy outcome.ticks subject (some (outcome.failedAt.mapValues some))

end WorldOutcome

inductive WorldError
  | raised (raised : Raised)
  | indexError (message : String)
  deriving DecidableEq, Repr

/-- `f"P{i + 1:02}"` -/
def planetId (i : Nat) : String :=
  if i + 1 < 10 then "P0" ++ toString (i + 1) else "P" ++ toString (i + 1)

section Run

variable {π : Type} (act : π → Snapshot → Except Raised (List Action × π))

/-- The state of `run_world` between two ticks; a player may remember what it was shown. -/
structure WorldRun (π : Type) where
  economy : SimulatedEconomy
  roster : Dict String π
  failedAt : Dict String Nat

def startingStation (stock : List Int) (i : Nat)
    (stationId : String) : Except WorldError SimStation :=
  match stock[i]? with
  | none => .error (.indexError "list index out of range")
  | some units => ((Bundle.make fun _ => units).mapError .raised).map fun inventory =>
    { stationId := stationId, specialty := specialtyOf i, inventory := inventory }

/-- One planet per player; an empty list of stocks means the default. -/
def startWorld (players : List π) (startingStock : Option (List Int)) (rules : Rules) :
    Except WorldError (WorldRun π) := do
  let roster := Dict.ofList (players.mapIdx (fun i p => (planetId i, p)))
  let stock := match startingStock with
    | some (units :: more) => units :: more
    | _ => List.replicate roster.size 30
  let stations ← (roster.keys.mapIdx (fun i stationId => startingStation stock i stationId)).mapM id
  return { economy := .create stations rules "sim", roster := roster, failedAt := .empty }

/-- Everyone's output of this tick. -/
def setProduction (produce : Production) (tick : Nat)
    (economy : SimulatedEconomy) : Except Raised SimulatedEconomy := do
  let outputs ← (List.range economy.stations.size).mapM (produce tick)
  return { economy with
    stations :=
      economy.stations.mapIdxValues (fun i s => { s with production := outputs.getD i 0 }) }

/-- A player acts on what its planet is shown, unless the planet has failed. -/
def playTurn (run : WorldRun π) (turn : String × π) : Except Raised (WorldRun π) := do
  let s ← run.economy.station turn.1
  if s.failedOnce then return run
  else
    let (snapshot, economy) ← run.economy.observationFor turn.1
    let (actions, player) ← act turn.2 snapshot
    let (_, economy) ← economy.apply turn.1 actions
    return { run with economy := economy, roster := run.roster.set turn.1 player }

/-- `failed_at` gains the stations that have failed and are not in it yet. -/
def noteFailures (economy : SimulatedEconomy) (failedAt : Dict String Nat) : Dict String Nat :=
  economy.stations.entries.foldl (fun failedAt e =>
    if e.2.failedOnce && !failedAt.contains e.1 then failedAt.set e.1 economy.tick
    else failedAt) failedAt

def worldTick (produce : Production) (run : WorldRun π)
    (tick : Nat) : Except Raised (WorldRun π) := do
  let economy ← setProduction produce tick run.economy
  let run := { run with economy := economy }
  let run ← run.roster.entries.foldlM (playTurn act) run
  let economy ← run.economy.advanceTick
  return { run with economy := economy, failedAt := noteFailures economy run.failedAt }

/-- One planet per player, `ticks` long. -/
def runWorld (players : List π) (ticks : Nat := runTicks) (phaseOffset : Int := 0)
    (production : Option Production := none) (startingStock : Option (List Int) := none)
    (rules : Rules := defaultRules) :
    Except WorldError (WorldOutcome π) := do
  let start ← startWorld players startingStock rules
  let produce := production.getD (runTwoProduction phaseOffset)
  let run ← ((List.range ticks).foldlM (worldTick act produce) start).mapError .raised
  return { economy := run.economy, roster := run.roster, failedAt := run.failedAt, ticks := ticks }

end Run

end SpaceportBazaar
