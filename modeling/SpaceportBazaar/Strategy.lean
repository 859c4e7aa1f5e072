import SpaceportBazaar.Decide
import SpaceportBazaar.Dict

namespace SpaceportBazaar

namespace Strategy

def notAccepted (observation : Snapshot) (decision : Decision) : List Offer :=
  let accepted := decision.actions.filterMap Action.acceptedId?
  observation.incomingOpenOffers.filter (fun o => o.offerId ∉ accepted)

/-- Set when the policy stopped before looking at any offer. -/
def gateReason (observation : Snapshot) (decision : Decision) : Option String :=
  if observation.phase ≠ .running then some s!"not considered: phase is {observation.phase.name}"
  else if observation.me.failedOnce then some "not considered: our station has failed"
  else if observation.rules.durationTicks ≤ observation.tick then
    some "not considered: run duration reached"
  else (decision.reasons.find? (fun r => r.startsWith "rate limited")).map ("not considered: " ++ ·)

end Strategy

def guardProtects : String := "production supply guard protects standing offers"
def worthAccepting : String :=
  "worth accepting, but this tick's command budget went elsewhere or ran out"

namespace ReserveTrader

/-- Re-asks the accept rule for one offer, read-only, on the balance the decision started from. -/
def explainPass (observation : Snapshot) (decision : Decision)
    (offer : Offer) : Except Raised String := do
  let cost ← offer.whatStationPays observation.selfStationId
  let limit := productionPaymentLimit (decision.available.saturatingSub cost) observation.me none
  let preserveNormal :=
    observation.outgoingOpenOffers.any
      (fun o => o.receive.isZero || aboveHalfPrice o.give o.receive)
  if !cost.isZero && preserveNormal && limit.isSome then return guardProtects
  else
    let verdict ← evaluateIncoming offer observation.selfStationId decision.available
        decision.reserve decision.urgency
      (some observation.me.specialty) limit false
    return if verdict.accept then worthAccepting else verdict.reason

/-- Why each open offer addressed to us was not accepted, keyed by offer id. -/
def explainPasses (observation : Snapshot)
    (decision : Decision) : Except Raised (Dict String String) :=
  let offers := Strategy.notAccepted observation decision
  match Strategy.gateReason observation decision with
  | some gate => .ok (.ofList (offers.map (fun o => (o.offerId, gate))))
  | none => forIn offers Dict.empty (fun offer reasons => do
    return .yield (reasons.set offer.offerId (← explainPass observation decision offer)))

end ReserveTrader

namespace Passive

/-- Observes and sends nothing: the baseline every other strategy must beat. -/
def decide (observation : Snapshot) (memory : PolicyMemory) : Decision × PolicyMemory :=
  ({ reserve := .zero
     available := observation.me.inventory
     surplus := .zero
     deficit := .zero
     urgency := fun _ => .none
     reasons := ["passive strategy: observing only, no commands by design"] },
     memory.observe observation)

def explainPasses (observation : Snapshot) (decision : Decision) : Dict String String :=
  .ofList ((Strategy.notAccepted observation decision).map
    (fun o => (o.offerId, "passive strategy never accepts")))

end Passive

/-- All that the trading loop sees of a strategy. -/
structure Strategy where
  name : String
  decide : Snapshot → PolicyMemory → CommitmentTracker → Option Int →
    Except Raised (Decision × PolicyMemory)
  explainPasses : Snapshot → Decision → Except Raised (Dict String String)

namespace Strategy

def reserveTrader : Strategy where
  name := "reserve-trader"
  decide := fun observation memory commitments commandBudget =>
    Policy.decide observation memory commitments commandBudget
  explainPasses := ReserveTrader.explainPasses

def passive : Strategy where
  name := "passive"
  decide := fun observation memory _ _ => .ok (Passive.decide observation memory)
  explainPasses := fun observation decision => .ok (Passive.explainPasses observation decision)

/-- `STRATEGIES` -/
def strategies : List Strategy := [reserveTrader, passive]

end Strategy

end SpaceportBazaar
