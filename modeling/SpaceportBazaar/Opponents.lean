import SpaceportBazaar.Strategy
import SpaceportBazaar.World

namespace SpaceportBazaar

/-- Exceptions of a player. -/
inductive PlayerError
  | raised (raised : Raised)
  | zeroDivisionError
  deriving DecidableEq, Repr

namespace Opponents

def importsOf (obs : Snapshot) : List Resource :=
  Resource.all.filter (fun r => r ≠ obs.me.specialty)

def othersOf (obs : Snapshot) : List String :=
  (obs.directory.map DirectoryEntry.stationId).filter
    (fun stationId => stationId ≠ obs.selfStationId)

def expiry (obs : Snapshot) (ttl : Nat) : Nat := min (obs.tick + ttl) obs.rules.durationTicks

/-- The offers still to be looked at, the accepts so far and what they leave. -/
def acceptFrom (obs : Snapshot) (onlySpecialty : Bool) (limit : Nat) :
    List Offer → List Action → Bundle → Except Raised (List Action)
  | [], accepts, _ => .ok accepts
  | offer :: offers, accepts, inventory =>
    let cost := offer.receive
    let gain := offer.give
    if gain.total < cost.total || !inventory.dominates cost then
      acceptFrom obs onlySpecialty limit offers accepts inventory
    else if onlySpecialty && (importsOf obs).any (fun r => cost.get r ≠ 0) then
      acceptFrom obs onlySpecialty limit offers accepts inventory
    else do
      let accepts := accepts ++ [.accept offer.offerId]
      let inventory ← inventory.sub cost
      if limit ≤ accepts.length then return accepts
      acceptFrom obs onlySpecialty limit offers accepts inventory

/-- Accept offers that give at least what they cost, while we can pay. -/
def acceptIfNotWorse (obs : Snapshot) (onlySpecialty : Bool)
    (limit : Nat := 2) : Except Raised (List Action) :=
  acceptFrom obs onlySpecialty limit obs.incomingOpenOffers [] obs.me.inventory

/-- `_RoundRobin`, by its position. -/
def nextChoice (position : Nat) (choices : List String) : Except PlayerError (String × Nat) :=
  if h : choices = [] then .error .zeroDivisionError
  else .ok (choices.get ⟨position % choices.length, Nat.mod_lt _ (List.length_pos_of_ne_nil h)⟩,
    position + 1)

/-- A turn under way: the actions so far, the specialty left to give and the place in the round. -/
structure Turn where
  actions : List Action
  spare : Int
  position : Nat

/-- Offers `give` of the specialty for `take` of `want` to the next planet. -/
def offerTo (obs : Snapshot) (give : Int) (want : Resource) (take : Int) (ttl : Nat) (turn : Turn) :
    Except PlayerError Turn := do
  let (recipientId, position) ← nextChoice turn.position (othersOf obs)
  let give' ← (Bundle.single obs.me.specialty give).mapError .raised
  let receive ← (Bundle.single want take).mapError .raised
  return ⟨turn.actions ++ [.offer recipientId give' receive (expiry obs ttl)],
    turn.spare - give, position⟩

/-- One of Greedy's two offers for an import. What breaks off the round would break
off the next as well. -/
def greedyOffer (obs : Snapshot) (want : Resource) (turn : Turn) : Except PlayerError Turn :=
  if obs.rules.newCommandsPerStationPerTick ≤ turn.actions.length || turn.spare < 2 then .ok turn
  else offerTo obs 2 want 4 5 turn

def greedyWant (obs : Snapshot) (turn : Turn) (want : Resource) : Except PlayerError Turn :=
  if 25 ≤ obs.me.inventory.get want || turn.spare < 2 then .ok turn
  else do greedyOffer obs want (← greedyOffer obs want turn)

/-- Offers 2 of its specialty for 4 of an import, to two planets a tick. -/
def greedy (obs : Snapshot) (position : Nat) : Except PlayerError (List Action × Nat) := do
  let accepts ← (acceptIfNotWorse obs false).mapError .raised
  let turn ← (importsOf obs).foldlM (greedyWant obs)
    ⟨accepts, obs.me.inventory.get obs.me.specialty, position⟩
  return (turn.actions, turn.position)

/-- One import of SmallFair. When the commands run out here they have run out
for the next import too. -/
def smallFairWant (size target : Int) (obs : Snapshot) (turn : Turn)
    (want : Resource) : Except PlayerError Turn :=
  if target ≤ obs.me.inventory.get want || turn.spare < size then .ok turn
  else if obs.rules.newCommandsPerStationPerTick ≤ turn.actions.length then .ok turn
  else offerTo obs size want size 3 turn

/-- Advertises honestly and offers `size`-for-`size` when an import runs low. -/
def smallFair (size target : Int) (quitAt : Option Nat) (obs : Snapshot) (position : Nat) :
    Except PlayerError (List Action × Nat) :=
  if quitAt.any (fun tick => tick ≤ obs.tick) then .ok ([], position)
  else do
    let accepts ← (acceptIfNotWorse obs true).mapError .raised
    let specialty := obs.me.specialty
    let actions := if obs.tick % 5 = 0 then
      accepts ++ [.advertise {specialty} (importsOf obs).toFinset (expiry obs 8)] else accepts
    let turn ← (importsOf obs).foldlM (smallFairWant size target obs)
      ⟨actions, (obs.me.inventory.get specialty : Int) - 3, position⟩
    return (turn.actions, turn.position)

/-- Gives two units of its specialty to someone every tick. -/
def gifter (obs : Snapshot) (position : Nat) : Except PlayerError (List Action × Nat) := do
  let accepts ← (acceptIfNotWorse obs false).mapError .raised
  if 5 < obs.me.inventory.get obs.me.specialty then do
    let (recipientId, position) ← nextChoice position (othersOf obs)
    let give ← (Bundle.single obs.me.specialty 2).mapError .raised
    return (accepts ++ [.offer recipientId give .zero (expiry obs 2)], position)
  else return (accepts, position)

end Opponents

open Opponents

/-- A player with what it keeps between ticks. -/
inductive Player
  | strategy (strategy : Strategy) (memory : PolicyMemory)
  | passive
  | greedy (position : Nat)
  | smallFair (size target : Int) (quitAt : Option Nat) (position : Nat)
  | gifter (position : Nat)

namespace Player

def act : Player → Snapshot → Except PlayerError (List Action × Player)
  | .strategy s memory, obs => do
    -- the player's own commitments never gain an entry
    let (decision, memory) ← (s.decide obs memory .new none).mapError .raised
    return (decision.actions, .strategy s memory)
  | .passive, _ => .ok ([], .passive)
  | .greedy position, obs => do
    let (actions, position) ← Opponents.greedy obs position
    return (actions, .greedy position)
  | .smallFair size target quitAt position, obs => do
    let (actions, position) ← Opponents.smallFair size target quitAt obs position
    return (actions, .smallFair size target quitAt position)
  | .gifter position, obs => do
    let (actions, position) ← Opponents.gifter obs position
    return (actions, .gifter position)

/-- What the world's loop sees of a player: any exception ends the run. -/
def play (player : Player) (obs : Snapshot) : Except Raised (List Action × Player) :=
  (player.act obs).mapError fun
    | .raised raised => raised
    | .zeroDivisionError => .valueError "integer modulo by zero"

end Player

end SpaceportBazaar
