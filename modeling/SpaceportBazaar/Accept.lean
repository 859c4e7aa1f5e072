import SpaceportBazaar.Binary64
import SpaceportBazaar.Pricing

namespace SpaceportBazaar

def minAcceptRatio : ℚ := Binary64.round (4 / 5)
def weightCritical : ℚ := 2
def weightWatch : ℚ := Binary64.round (3 / 10)

structure AcceptDecision where
  accept : Bool
  reason : String
  deriving DecidableEq, Repr

def needWeights (urgency : Resource → Urgency) (r : Resource) : ℚ :=
  match urgency r with
  | .critical => Binary64.add 1 weightCritical
  | .watch => Binary64.add 1 weightWatch
  | .none => 1

def weightedValue (bundle : Bundle) (weights : Resource → ℚ) : ℚ :=
  Binary64.sum (Resource.all.map
    (fun r => Binary64.mul (Binary64.ofNat (bundle.get r)) (weights r)))

/-- A nonnegative number in the `.2f` format: to the nearest hundredth, ties to even. -/
def twoDecimals (q : ℚ) : String :=
  let hundredths := (Binary64.nearest (100 * q)).toNat
  toString (hundredths / 100) ++ "." ++ (if hundredths % 100 < 10 then "0" else "") ++ toString
    (hundredths % 100)

def paysWithSpecialty (specialty : Option Resource) (cost : Bundle) : Bool :=
  match specialty with
  | some s => cost.total = cost.get s
  | none => false

/-- Refusals made before a gift is even looked at. -/
def wellSuppliedRefusal (cost gain available : Bundle) (specialty : Option Resource)
    (endGame : Bool) : Option String :=
  match specialty with
  | none => none
  | some s =>
    if !comfortablySupplied available then none
    else if 0 < gain.get s then some "well supplied: do not import our production"
    else if gain.total ≤ cost.total && !(endGame && paysWithSpecialty specialty cost) then
      some "well supplied: require a net resource gain"
    else none

def aheadOnImports (gain available : Bundle) (specialty : Option Resource) : Bool :=
  let imported := Resource.all.filter (fun r => some r ≠ specialty && 0 < gain.get r)
  specialty.isSome && !imported.isEmpty && imported.all (fun r => overCeiling r available specialty)

/-- What the imports an offer brings are worth, each at the price of its own stock tier. -/
def conversionValue (gain available : Bundle) (urgency : Resource → Urgency) (specialty : Resource)
    (endGame : Bool) : ℚ :=
  let floorRatio := if endGame then endGameRatio else 0
  Binary64.sum ((imports (some specialty)).map (fun r => Binary64.mul (Binary64.ofNat (gain.get r))
    (max floorRatio (Binary64.round (premiumFor (urgency r) (some (available.get r)))))))

/-- Renewable production buys imports, each priced by its own stock tier. -/
def judgeConversion (cost gain available reserve : Bundle) (urgency : Resource → Urgency)
    (specialty : Resource) (endGame : Bool) : AcceptDecision :=
  let value := conversionValue gain available urgency specialty endGame
  let netCost := cost.get specialty - gain.get specialty
  if available.get specialty < reserve.get specialty + netCost then
    ⟨false, "would breach production reserve"⟩
  else if netCost ≤ value ∧
    0 < value then ⟨true, "converts production into imports at an acceptable price"⟩
  else ⟨false, "price exceeds import stock tier"⟩

/-- What an offer brings for each unit it costs, both weighted by need. -/
def barterRatio (cost gain : Bundle) (urgency : Resource → Urgency) : ℚ :=
  let weights := needWeights urgency
  let costValue := weightedValue cost weights
  if costValue ≠ 0 then Binary64.div (weightedValue gain weights) costValue else 0

def judgeBarter (cost gain available reserve : Bundle)
    (urgency : Resource → Urgency) : AcceptDecision :=
  let fillsNeed := Resource.all.any (fun r => 0 < gain.get r && urgency r ≠ .none)
  let remaining := available.saturatingSub cost + gain
  let breachesReserve := Resource.all.any (fun r =>
    remaining.get r < reserve.get r && reserve.get r < available.get r)
  let ratio := barterRatio cost gain urgency
  if breachesReserve && !fillsNeed then ⟨false, "would breach reserve without filling a need"⟩
  else if fillsNeed ∧ minAcceptRatio ≤ ratio then ⟨true, "fills a need at an acceptable price"⟩
  else if 1 ≤ ratio then ⟨true, "favourable terms"⟩
  else ⟨false, "price below threshold (" ++ twoDecimals ratio ++ ")"⟩

/-- `evaluate_incoming`, once what we pay and what we receive are known. -/
def judge (cost gain available reserve : Bundle) (urgency : Resource → Urgency)
    (specialty : Option Resource) (maxPaymentRatio : Option ℚ) (endGame : Bool) : AcceptDecision :=
  let remaining := available.saturatingSub cost + gain
  match wellSuppliedRefusal cost gain available specialty endGame with
  | some reason => ⟨false, reason⟩
  | none =>
    if cost.isZero then ⟨true, "gift"⟩
    else if aheadOnImports gain available specialty then
      ⟨false, "already well ahead on this import; buy the other first"⟩
    else if !available.dominates cost then ⟨false, "cannot pay from uncommitted stock"⟩
    else if Resource.all.any (fun r => remaining.get r < min (available.get r) (reserve.get r)) then
      ⟨false, "would spend protected reserve"⟩
    else match maxPaymentRatio, specialty with
    | some ratio, _ =>
      if ratio ≤ 0 ∨ gain.total * ratio < cost.total then
        ⟨false, "production supply guard prevents paid trade"⟩
      else if Resource.all.any (fun r => 0 < cost.get r && remaining.get r < reserve.get r) then
        ⟨false, "would breach reserve"⟩
      else ⟨true, "favourable trade within production supply guard"⟩
    | none, some s =>
      if paysWithSpecialty specialty cost then
        judgeConversion cost gain available reserve urgency s endGame
      else judgeBarter cost gain available reserve urgency
    | none, none => judgeBarter cost gain available reserve urgency

def evaluateIncoming (offer : Offer) (stationId : String) (available reserve : Bundle)
    (urgency : Resource → Urgency) (specialty : Option Resource) (maxPaymentRatio : Option ℚ)
    (endGame : Bool) :
    Except Raised AcceptDecision := do
  let cost ← offer.whatStationPays stationId
  let gain ← offer.whatStationReceives stationId
  return judge cost gain available reserve urgency specialty maxPaymentRatio endGame

section Judge

variable {cost gain available reserve : Bundle} {urgency : Resource → Urgency}
  {specialty : Option Resource} {maxPaymentRatio : Option ℚ} {endGame : Bool}

/-- An accepted offer is a gift, or a payment the balance covers that no limit forbids
and that goes below the reserve in nothing. -/
theorem judge_accept (h :
      (judge cost gain available reserve urgency specialty maxPaymentRatio endGame).accept = true) :
    cost = 0 ∨ cost ≤ available ∧ (∀ ratio, maxPaymentRatio = some ratio → 0 < ratio) ∧
      ∀ r, min (available.get r) (reserve.get r) ≤ available.get r - cost.get r + gain.get r := by
  unfold judge at h
  simp only at h
  split at h
  next => simp at h
  next =>
    by_cases hzero : cost.isZero = true
    · exact Or.inl (Bundle.isZero_iff.mp hzero)
    rw [if_neg hzero] at h
    by_cases hahead : aheadOnImports gain available specialty = true
    · rw [if_pos hahead] at h
      simp at h
    rw [if_neg hahead] at h
    by_cases hpay : available.dominates cost = true
    · rw [if_neg (by simp [hpay])] at h
      by_cases hkeep : Resource.all.any (fun r => (available.saturatingSub cost + gain).get r <
        min (available.get r) (reserve.get r)) = true
      · rw [if_pos hkeep] at h
        simp at h
      · rw [if_neg hkeep] at h
        refine Or.inr ⟨Bundle.dominates_iff.mp hpay, ?_, ?_⟩
        · intro ratio hratio
          subst hratio
          by_contra hneg
          simp [not_lt.mp hneg] at h
        · intro r
          have hr := List.any_eq_false.mp (Bool.not_eq_true _ ▸ hkeep) r (Resource.mem_all r)
          simp only [decide_eq_true_eq, not_lt, Bundle.get_add, Bundle.get_saturatingSub] at hr
          exact hr
    · rw [if_pos (by simp [hpay])] at h
      simp at h

/-- Under a payment limit, whatever is accepted and not free is paid for within it. -/
theorem judge_accept_ratio {ratio : ℚ}
    (h : (judge cost gain available reserve urgency specialty (some ratio) endGame).accept = true)
    (paid : cost ≠ 0) :
    0 < ratio ∧ (cost.total : ℚ) ≤ gain.total * ratio := by
  by_contra hneg
  have hover : ratio ≤ 0 ∨ gain.total * ratio < cost.total := by
    rcases not_and_or.mp hneg with hneg | hneg
    · exact Or.inl (not_lt.mp hneg)
    · exact Or.inr (not_le.mp hneg)
  unfold judge at h
  simp only [if_pos hover] at h
  split at h
  next => simp at h
  next =>
    rw [if_neg (by rwa [Bundle.isZero_iff])] at h
    split_ifs at h

end Judge

end SpaceportBazaar
