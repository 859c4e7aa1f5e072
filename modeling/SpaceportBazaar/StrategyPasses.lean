import SpaceportBazaar.AcceptPrice
import SpaceportBazaar.DecideReasons
import SpaceportBazaar.Strategy
import Mathlib.Algebra.BigOperators.Ring.List
import Mathlib.Algebra.Order.BigOperators.Group.List

namespace SpaceportBazaar

instance (observation : Snapshot) (ticksLeft : Option Nat) (running cost : Bundle) :
    Decidable (guardsStanding observation ticksLeft running cost) :=
  inferInstanceAs (Decidable (cost ≠ 0 ∧ hasNormalOffers observation = true ∧
    productionPaymentLimit (running.saturatingSub cost) observation.me ticksLeft ≠ none))

section Explained

variable {observation : Snapshot} {decision : Decision} {offer : Offer} {cost gain : Bundle}

end Explained

section Ends

variable {available : Bundle} {station : StationObservation} {ticksLeft : Option Nat} {left : Nat}

end Ends

/-- The reasons for refusing an offer that no limit holds back. -/
inductive RefusedFreely : String → Prop
  | reserve : RefusedFreely "would breach production reserve"
  | dear : RefusedFreely "price exceeds import stock tier"
  | needless (ratio : ℚ) : RefusedFreely ("price below threshold (" ++ twoDecimals ratio ++ ")")

section Reports

variable {cost gain available reserve : Bundle} {urgency : Resource → Urgency}
  {maxPaymentRatio : Option ℚ} {s : Resource} {endGame : Bool}

theorem threshold_ne {text : String} (other : ¬"price below threshold (".toList <+: text.toList)
    (rest : String) :
    "price below threshold (" ++ rest ++ ")" ≠ text := by
  rintro rfl
  rw [String.toList_append, String.toList_append, List.append_assoc] at other
  exact other (List.prefix_append _ _)

theorem RefusedFreely.ne {text other : String} (h : RefusedFreely text)
    (ho : other ∈ [worthAccepting, guardProtects, "well supplied: require a net resource gain",
      "production supply guard prevents paid trade", "would breach reserve"]) : text ≠ other := by
  cases h with
  | reserve =>
    revert other
    decide
  | dear =>
    revert other
    decide
  | needless ratio =>
    refine threshold_ne ?_ _
    simp only [List.mem_cons, List.not_mem_nil, or_false] at ho
    rcases ho with rfl | rfl | rfl | rfl | rfl <;> simp [worthAccepting, guardProtects]

end Reports

section Conversion

variable {gain available : Bundle} {urgency : Resource → Urgency} {s : Resource}

end Conversion

section Misjudged

variable (observation : Snapshot) (left : Nat) (reserve running cost gain : Bundle)

end Misjudged

section Agreement

variable {cost gain available reserve : Bundle} {urgency : Resource → Urgency}
  {s : Resource} {ratio : ℚ}

end Agreement

section Agreement

variable {observation : Snapshot} {left : Nat} {reserve running cost gain : Bundle}

end Agreement

section Outcome

variable {observation : Snapshot} {memory : PolicyMemory} {commitments : CommitmentTracker}
  {commandBudget : Option Int} {draft last : Plan} {p : Passage} {d : Deeds}

theorem Conducted.current
    (h : Conducted observation memory commitments commandBudget draft p d last) :
    last.decision.urgency =
      computeUrgency last.decision.available observation.me.upkeepPerTick
        last.decision.reserve := by
  have hkept := h.continues
  rw [hkept.urgency, hkept.available, hkept.reserve]
  obtain ⟨_, _, _, rfl⟩ := h.opening
  rfl

variable (observation memory commitments commandBudget)

end Outcome

end SpaceportBazaar
