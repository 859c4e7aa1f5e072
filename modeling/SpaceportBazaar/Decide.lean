import SpaceportBazaar.Accept
import SpaceportBazaar.Advertising
import SpaceportBazaar.Altruism
import SpaceportBazaar.Commitments
import SpaceportBazaar.Targeting

namespace SpaceportBazaar

def offerTtl : Nat := 5
def targetBufferMultiple : Nat := 2

/-- Chosen actions plus the reasoning, so a log can explain them. -/
structure Decision where
  actions : List Action := []
  reasons : List String := []
  reserve : Bundle
  available : Bundle
  surplus : Bundle
  deficit : Bundle
  urgency : Resource → Urgency

def Decision.add (d : Decision) (action : Action) (reason : String) : Decision :=
  { d with actions := d.actions ++ [action], reasons := d.reasons ++ [reason] }

/-- What the stages of one decision hand on: the commands left and the balance left. -/
structure Plan where
  decision : Decision
  memory : PolicyMemory
  budget : Nat
  available : Bundle

/-- Takes an action, which uses one command. -/
def Plan.act (d : Plan) (action : Action) (reason : String) : Plan :=
  { d with decision := d.decision.add action reason, budget := d.budget - 1 }

def Plan.spend (d : Plan) (payment : Bundle) : Plan :=
  { d with available := d.available.saturatingSub payment }

def Plan.recordGift (d : Plan) (stationId : String) (resource : Resource) (tick : Nat) : Plan :=
  { d with memory := d.memory.recordGift stationId resource tick }

def aboveHalfPrice (give receive : Bundle) : Bool := 1 / 2 * (receive.total : ℚ) < give.total

def hasNormalOffers (observation : Snapshot) : Bool :=
  observation.outgoingOpenOffers.any (fun o => o.receive.isZero || aboveHalfPrice o.give o.receive)

def offerLifetime (observation : Snapshot) : Nat :=
  min offerTtl (min observation.rules.maxOfferTtlTicks
    (observation.rules.durationTicks - observation.tick))

/-- The import worth keeping a command free for, if accepts would starve it. -/
def scarceImportToChase (observation : Snapshot) (available : Bundle) (urgency : Resource → Urgency)
    (ticksLeft : Option Nat) : Option Resource :=
  let specialty := observation.me.specialty
  match scarcestImport available (some specialty) with
  | none => none
  | some scarce =>
    let lagging := urgency scarce ≠ .none ∨ ∃ r, r ≠ scarce ∧ r ≠ specialty ∧
      overCeiling r available (some specialty) = true
    if ¬lagging then none
    else if productionPaymentLimit available observation.me ticksLeft = some 0 then none
    else if observation.rules.maxOpenOutgoingOffers ≤
      observation.outgoingOpenOffers.length then none
    else if observation.outgoingOpenOffers.any (fun o => 0 < o.receive.get scarce) then none
    else some scarce

structure Intake where
  draft : Plan
  urgency : Resource → Urgency
  deferred : List Offer

section Stages

variable (observation : Snapshot) (ticksLeft : Option Nat)

def acceptOne (reserve : Bundle) (holdFor : Option Resource) (offer : Offer) (st : Intake) :
    Except Raised (ForInStep Intake) :=
  if st.draft.budget ≤ 0 then .ok (.done st)
  else do
    let running := st.draft.available
    let cost ← offer.whatStationPays observation.selfStationId
    let gain ← offer.whatStationReceives observation.selfStationId
    let limit := productionPaymentLimit (running.saturatingSub cost) observation.me ticksLeft
    if !cost.isZero && hasNormalOffers observation && limit.isSome then return .yield st
    else
      let verdict ← evaluateIncoming offer observation.selfStationId running reserve st.urgency
        (some observation.me.specialty) limit (inEndGame ticksLeft)
      let lastChance := offer.expiresTick ≤ observation.tick + 1
      if !verdict.accept then return .yield st
      else if st.draft.budget ≤ 1 ∧ (lastChance ∨ ∃ r ∈ holdFor, gain.get r = 0) then
        return .yield { st with deferred := st.deferred ++ [offer] }
      else
        let draft := (st.draft.act
          (.accept offer.offerId) s!"accept {offer.offerId}: {verdict.reason}").spend cost
        return .yield { st with
          draft := draft
          urgency := computeUrgency draft.available observation.me.upkeepPerTick reserve }

/-- Accept what is worth taking; offers in their last usable tick, or that do not
bring the import held for, are deferred rather than taking the last command. -/
def acceptIncoming (reserve : Bundle) (urgency : Resource → Urgency) (holdFor : Option Resource)
    (offers : List Offer) (draft : Plan) : Except Raised Intake :=
  forIn offers (⟨draft, urgency, []⟩ : Intake) (acceptOne observation ticksLeft reserve holdFor)

def violatesGuard (limit : Option ℚ) (offer : Offer) : Bool :=
  match limit with
  | none => false
  | some l =>
    offer.receive.isZero || decide (l = 0) || decide (l * offer.receive.total < offer.give.total)

def atRisk (available reserve : Bundle) (offer : Offer) : List Resource :=
  Resource.all.filter (fun r => 0 < offer.give.get r && available.get r < reserve.get r)

def withdrawOne (offer : Offer) (draft : Plan) : Except Raised (ForInStep Plan) :=
  if draft.budget ≤ 0 then .ok (.done draft)
  else
    let risks := atRisk draft.available draft.decision.reserve offer
    let guarded :=
      violatesGuard (productionPaymentLimit draft.available observation.me ticksLeft) offer
    let why := if guarded then "production supply guard"
      else "promises " ++ (risks.head?.map Resource.name).getD "" ++ " we now need"
    if risks.isEmpty && !guarded then .ok (.yield draft)
    else .ok
      (.yield (draft.act (.withdraw offer.offerId) ("withdraw " ++ offer.offerId ++ ": " ++ why)))

/-- Expiry is free, so only spend a command when honouring terms would hurt. -/
def withdrawDangerous (draft : Plan) : Except Raised Plan :=
  forIn observation.outgoingOpenOffers draft (withdrawOne observation ticksLeft)

structure Gifting where
  draft : Plan
  room : Nat

def giveOne (excess : Bundle) (resource : Resource)
    (st : Gifting) : Except Raised (ForInStep Gifting) :=
  let ttl := offerLifetime observation
  if st.draft.budget ≤ 0 ∨ st.room ≤ 0 ∨ ttl ≤ 0 then .ok (.done st)
  else if excess.get resource ≤ 0 then .ok (.done st)
  else match pickGiftRecipient st.draft.memory.counterparties resource observation.tick
    st.draft.memory with
  | none => .ok (.yield st)
  | some recipient => do
    let quantity := min (excess.get resource) maxExcessGift
    let gift ← Bundle.single resource quantity
    let draft := st.draft.act (.offer recipient gift .zero (observation.tick + ttl))
      (s!"gift {quantity} {resource.name} to {recipient}: over {stockCap} cap, " ++
        s!"{recipient} seeking {resource.name}")
    return .yield ⟨(draft.recordGift recipient resource observation.tick).spend gift, st.room - 1⟩

def plannedOffers (decision : Decision) : Nat := decision.actions.countP Action.isOffer

/-- Gift stock above the cap to planets advertising that they need it. -/
def giveExcess (excess : Bundle) (draft : Plan) : Except Raised Plan := do
  let room := observation.rules.maxOpenOutgoingOffers - observation.outgoingOpenOffers.length -
    plannedOffers draft.decision
  let st ← forIn (Resource.all.insertionSort (fun a b => excess.get b ≤ excess.get a))
      (⟨draft, room⟩ : Gifting)
    (giveOne observation excess)
  return st.draft

/-- What to ask for, including before a shortage actually bites. -/
def wantedQuantities (available reserve deficit : Bundle) (resource : Resource) : Option Int :=
  let specialty := observation.me.specialty
  let spare : Int := available.get specialty - specialtyFloor observation.me
  let bulk := maxTradeSize < tradeSize spare
  let short : Int := deficit.get resource
  if resource = specialty then if 0 < short then some short else none
  else
    let stock : Int := available.get resource
    let ceiling : Int :=
      min ((importCeiling resource available (some specialty)).getD stockCap) stockCap
    if stockCap ≤ stock ∨ ceiling < stock then if 0 < short then some short else none
    else
      let target : Int := max watchStock (reserve.get resource * targetBufferMultiple)
      let room := if bulk then ceiling - stock else 0
      let short := min (max (max short (target - stock)) (max 5 room)) (stockCap - stock)
      if 0 < short then some short else none

def refreshAdvertisement (surplus deficit : Bundle) (critical : Finset Resource)
    (draft : Plan) : Plan :=
  if draft.budget ≤ 0 then draft
  else
    let verdict :=
      decideAdvertisement surplus deficit critical observation.ownAdvertisement observation.tick
      observation.rules
    match verdict.action with
    | none => draft
    | some action => draft.act action s!"advertisement: {verdict.reason}"

/-- Never ask for what we are giving away; a planet well supplied stops advertising. -/
def refreshListing (excess surplus : Bundle) (wanted : Resource → Option Int)
    (critical : Finset Resource) (draft : Plan) : Except Raised Plan := do
  let need ← Bundle.make (fun r => if excess.get r = 0 then (wanted r).getD 0 else 0)
  let spare :=
    Bundle.ofFn (fun r => if (wanted r).isNone ∨ 0 < excess.get r then surplus.get r else 0)
  let listed := if productionPaymentLimit draft.available observation.me ticksLeft = some 0 then
    .zero else spare
  if comfortablySupplied draft.available then
    match observation.ownAdvertisement with
    | some ad =>
      return if 0 < draft.budget then
        draft.act (.withdraw ad.advertisementId) "withdraw advertisement: all resources above 30"
          else draft
    | none => return draft
  else return refreshAdvertisement observation listed need critical draft

structure Proposing where
  draft : Plan
  surplus : Bundle
  room : Nat
  preserveNormal : Bool

/-- The specialty stock an offer under this limit must leave. -/
def paymentFloor (limit : Option ℚ) (preserveNormal : Bool) : Nat :=
  if inEndGame ticksLeft then specialtyFloor observation.me ticksLeft
  else (if limit = none ∨ preserveNormal = true then productionNormalTicks
  else productionStopTicks) *
    observation.me.upkeepPerTick.get observation.me.specialty

/-- Price from the balance after reserving payment. -/
def termsUnder (urgency : Resource → Urgency)
    (wanted : Resource → Option Int) (candidate : Candidate)
    (st : Proposing) (limit : Option ℚ) : Except Raised (Option (Bundle × Bundle)) :=
  let specialty := observation.me.specialty
  let endGame := inEndGame ticksLeft
  let running := st.draft.available
  let floor := paymentFloor observation ticksLeft limit st.preserveNormal
  if running.get specialty < floor then .ok none
  else do
    let payable ← Bundle.make (fun r =>
      if r = specialty then min (st.surplus.get r) (running.get r - floor) else st.surplus.get r)
    let spare : Int := running.get specialty - specialtyFloor observation.me ticksLeft
    let size : Int := if endGame then maxBulkTradeSize else tradeSize spare
    match wanted candidate.want with
    | none => .error (.keyError candidate.want.name)
    | some quantity =>
      match computeTerms candidate.want
          (desiredQuantity quantity (some (running.get candidate.want)) size)
        candidate.give payable (urgency candidate.want) limit (some (running.get candidate.want))
        (endGame && candidate.give = specialty) with
      | .ok terms => return some terms
      | .error (.cannotAfford _) => return none
      | .error raised => .error raised

/-- A normal offer if we can afford one, else a half-price one, save in the end game. -/
def termsFor (urgency : Resource → Urgency) (wanted : Resource → Option Int) (candidate : Candidate)
    (st : Proposing) : Except Raised (Option (Bundle × Bundle)) := do
  match ← termsUnder observation ticksLeft urgency wanted candidate st none with
  | some terms => return some terms
  | none =>
    if inEndGame ticksLeft then return none
    else termsUnder observation ticksLeft urgency wanted candidate st (some (1 / 2))

def proposeOne (urgency : Resource → Urgency) (wanted : Resource → Option Int)
    (candidate : Candidate) (st : Proposing) : Except Raised (ForInStep Proposing) :=
  if st.draft.budget ≤ 0 ∨ st.room ≤ 0 then .ok (.done st)
  else do
    match ← termsFor observation ticksLeft urgency wanted candidate st with
    | none => return .yield st
    | some (give, receive) =>
      let preserveNormal := st.preserveNormal || aboveHalfPrice give receive
      let ttl := offerLifetime observation
      if ttl ≤ 0 then return .done { st with preserveNormal := preserveNormal }
      else
        let draft := st.draft.act (.offer candidate.stationId give receive (observation.tick + ttl))
          (s!"offer {give.total} {candidate.give.name} for {receive.total} " ++
            s!"{candidate.want.name} to {candidate.stationId}")
        return .yield ⟨draft.spend give, st.surplus.saturatingSub give, st.room - 1, preserveNormal⟩

/-- An offer already standing for a pairing still promises that stock. -/
def pendingPairs : List (String × Resource) :=
  observation.outgoingOpenOffers.flatMap (fun o =>
    (Resource.all.filter (fun r => 0 < o.receive.get r)).map (fun r => (o.recipientId, r)))

def proposeOffers (urgency : Resource → Urgency) (deficit surplus : Bundle) (draft : Plan) :
    Except Raised (Plan × Bundle) :=
  let room := observation.rules.maxOpenOutgoingOffers - observation.outgoingOpenOffers.length
  if room ≤ 0 then
    .ok ({ draft with decision := { draft.decision with
      reasons := draft.decision.reasons ++ ["outgoing offer limit reached"] } }, surplus)
  else do
    let wanted := wantedQuantities observation draft.available draft.decision.reserve deficit
    let candidates :=
      rankCounterparties draft.memory.counterparties urgency wanted surplus observation.tick
      (pendingPairs observation) (some observation.me.specialty)
    let st ← forIn candidates (⟨draft, surplus, room, hasNormalOffers observation⟩ : Proposing)
      (proposeOne observation ticksLeft urgency wanted)
    return (st.draft, st.surplus)

def aidOne (surplus : Bundle) (gift : GiftIntent) (draft : Plan) : Except Raised (ForInStep Plan) :=
  if draft.budget ≤ 0 then .ok (.done draft)
  else do
    let bundle ← Bundle.single gift.resource gift.quantity
    let afterGift := (surplus + draft.decision.reserve).saturatingSub bundle
    let ttl := offerLifetime observation
    if (productionPaymentLimit afterGift observation.me ticksLeft).isSome then return .yield draft
    else if ttl ≤ 0 then return .done draft
    else
      let draft := draft.act (.offer gift.stationId bundle .zero (observation.tick + ttl))
        s!"gift {gift.quantity} {gift.resource.name} to {gift.stationId}: sustained unmet need"
      return .yield (draft.recordGift gift.stationId gift.resource observation.tick)

def offerAid (surplus : Bundle) (urgency : Resource → Urgency)
    (draft : Plan) : Except Raised Plan :=
  let whole := surplus + draft.decision.reserve
  if (productionPaymentLimit whole observation.me ticksLeft).isSome then .ok draft
  else if draft.budget ≤ 0 ∨ observation.rules.maxOpenOutgoingOffers ≤
      observation.outgoingOpenOffers.length + plannedOffers draft.decision then .ok draft
  else forIn (scanForDistress draft.memory.counterparties surplus urgency observation.tick
    draft.memory) draft
    (aidOne observation ticksLeft surplus)

end Stages

/-- The state in which paid offers are considered. -/
structure Prepared where
  draft : Plan
  deferred : List Offer
  deficit : Bundle
  urgency : Resource → Urgency

/-- Accepts, withdrawals, excess gifts and the advertisement, from one shared balance. -/
def prepare (observation : Snapshot) (ticksLeft : Option Nat)
    (draft : Plan) : Except Raised Prepared := do
  let reserve := draft.decision.reserve
  let urgency := draft.decision.urgency
  let holdFor := scarceImportToChase observation draft.available urgency ticksLeft
  let intake ← acceptIncoming observation ticksLeft reserve urgency holdFor
    observation.incomingOpenOffers draft
  let deficit := deficitBelowReserve intake.draft.available reserve
  let urgency := computeUrgency intake.draft.available observation.me.upkeepPerTick reserve
  let critical := Finset.univ.filter (fun r => urgency r = .critical)
  let draft ← withdrawDangerous observation ticksLeft intake.draft
  let excess ← excessOverCap draft.available
  let draft ← giveExcess observation excess draft
  let surplus := surplusAboveReserve draft.available reserve
  let wanted := wantedQuantities observation draft.available reserve deficit
  let draft ← refreshListing observation ticksLeft excess surplus wanted critical draft
  return ⟨draft, intake.deferred, deficit, urgency⟩

/-- Takes what was held back, if nothing better used the command. -/
def reconsider (observation : Snapshot) (ticksLeft : Option Nat)
    (deferred : List Offer) (surplus : Bundle) (urgency : Resource → Urgency)
    (draft : Plan) : Except Raised (Plan × Bundle × (Resource → Urgency)) :=
  if deferred.isEmpty ∨ draft.budget = 0 then .ok (draft, surplus, urgency)
  else do
    let reserve := draft.decision.reserve
    let urgency := computeUrgency draft.available observation.me.upkeepPerTick reserve
    let intake ← acceptIncoming observation ticksLeft reserve urgency none deferred draft
    return (intake.draft, surplusAboveReserve intake.draft.available reserve, urgency)

def trade (observation : Snapshot) (ticksLeft : Option Nat)
    (draft : Plan) : Except Raised Plan := do
  let prepared ← prepare observation ticksLeft draft
  let surplus := surplusAboveReserve prepared.draft.available prepared.draft.decision.reserve
  let (draft, surplus) ← proposeOffers observation ticksLeft prepared.urgency prepared.deficit
    surplus prepared.draft
  let (draft, surplus, urgency) ← reconsider observation ticksLeft prepared.deferred surplus
    prepared.urgency draft
  offerAid observation ticksLeft surplus urgency draft

def Phase.name : Phase → String
  | .ready => "READY"
  | .running => "RUNNING"
  | .paused => "PAUSED"
  | .finished => "FINISHED"
  | .aborted => "ABORTED"

/-- Why no trading action may be taken at all. -/
def gateReason (observation : Snapshot) (memory : PolicyMemory) : Option String :=
  if observation.phase ≠ .running then
    some s!"phase is {observation.phase.name}; no trading actions"
  else if observation.me.failedOnce then some "station has failed permanently; trading is disabled"
  else if observation.tick < memory.blockedUntilTick then
    some s!"rate limited until tick {memory.blockedUntilTick}"
  else if observation.rules.durationTicks ≤ observation.tick then
    some "run duration reached; no trading actions"
  else none

def commandAllowance (observation : Snapshot) (commandBudget : Option Int) : Nat :=
  match commandBudget with
  | none => observation.rules.newCommandsPerStationPerTick
  | some limit => min observation.rules.newCommandsPerStationPerTick (max 0 limit).toNat

/-- A decision with no action yet, at the balance and reserve it starts from. -/
def openingDecision (observation : Snapshot) (available reserve : Bundle) : Decision where
  reserve := reserve
  available := available
  surplus := surplusAboveReserve available reserve
  deficit := deficitBelowReserve available reserve
  urgency := computeUrgency available observation.me.upkeepPerTick reserve

/-- What is known before any action is chosen. -/
def assess (observation : Snapshot) (memory : PolicyMemory) (commitments : CommitmentTracker)
    (commandBudget : Option Int) : Except Raised Plan := do
  let available := commitments.availableToCommit observation
  let (reserve, memory) ← computeReserve observation.rules observation.me
    (memory.observe observation) available
  return ⟨openingDecision observation available reserve, memory,
    commandAllowance observation commandBudget, available⟩

def Policy.decide (observation : Snapshot) (memory : PolicyMemory)
    (commitments : CommitmentTracker := .new)
    (commandBudget : Option Int := none) : Except Raised (Decision × PolicyMemory) := do
  let draft ← assess observation memory commitments commandBudget
  match gateReason observation draft.memory with
  | some reason => return ({ draft.decision with reasons := [reason] }, draft.memory)
  | none => do
    let ticksLeft := observation.rules.durationTicks - observation.tick
    let draft ← trade observation (some ticksLeft) draft
    return (draft.decision, draft.memory)

end SpaceportBazaar
