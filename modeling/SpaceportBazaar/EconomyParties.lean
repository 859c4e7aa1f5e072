import SpaceportBazaar.EconomyFailure
import SpaceportBazaar.EconomyView

namespace SpaceportBazaar

open SimulatedEconomy

/-- Every offer ever made is between two different planets of the market. -/
def Parties (e : SimulatedEconomy) : Prop :=
  ∀ o ∈ e.offers, o.proposerId ≠ o.recipientId ∧ o.proposerId ∈ e.stations.keys ∧
    o.recipientId ∈ e.stations.keys

variable {e e' : SimulatedEconomy} {stationId : String} {action : Action} {out : CommandOutcome}

theorem Kept.keys (h : Kept e e') (k : String) : k ∈ e'.stations.keys ↔ k ∈ e.stations.keys := by
  rw [Dict.mem_keys_iff, Dict.mem_keys_iff]
  constructor
  · intro hs
    obtain ⟨s', hs'⟩ := hs
    obtain ⟨s, hs, _⟩ := h.back hs'
    exact ⟨s, hs⟩
  · intro hs
    obtain ⟨s, hs⟩ := hs
    obtain ⟨s', hs', _⟩ := h.forth hs
    exact ⟨s', hs'⟩

theorem ticked_keys (e : SimulatedEconomy) : e.ticked.stations.keys = e.stations.keys :=
  Dict.keys_mapValues _ _

/-- Offers whose parties were parties before keep the invariant. -/
theorem Parties.of_offers (h : Parties e) (keys : ∀ k ∈ e.stations.keys, k ∈ e'.stations.keys)
    (old : ∀ o' ∈ e'.offers, ∃ o ∈ e.offers, o'.proposerId = o.proposerId ∧
      o'.recipientId = o.recipientId) :
    Parties e' := by
  intro o' ho'
  obtain ⟨o, ho, hproposer, hrecipient⟩ := old o' ho'
  obtain ⟨hne, hp, hr⟩ := h o ho
  rw [hproposer, hrecipient]
  exact ⟨hne, keys _ hp, keys _ hr⟩

theorem closeOpen_parties {p : Offer → Bool} {status : OfferStatus} {tick : Nat} {os : List Offer}
    {o' : Offer} (h : o' ∈ closeOpen p status tick os) :
    ∃ o ∈ os, o'.proposerId = o.proposerId ∧ o'.recipientId = o.recipientId := by
  obtain ⟨o, ho, rfl⟩ := List.mem_map.mp h
  refine ⟨o, ho, ?_⟩
  split <;> exact ⟨rfl, rfl⟩

theorem Parties.executed (hb : Book e) (h : Parties e) (hx : Executed e stationId action out e') :
    Parties e' := by
  have keys : ∀ k ∈ e.stations.keys, k ∈ e'.stations.keys :=
    fun k hk => ((hx.kept hb).keys k).mpr hk
  cases hx with
  | refused => exact h
  | failed => exact h
  | advertised => exact h
  | adWithdrawn => exact h
  | @posted recipientId give receive expiresTick s admitted =>
    intro o ho
    rcases List.mem_append.mp ho with ho | ho
    · exact h o ho
    · cases List.mem_singleton.mp ho
      have hcheck := admitted.checked
      simp only [precheckAction] at hcheck
      split at hcheck
      next => simp at hcheck
      next =>
        obtain ⟨r, hr, hne, _⟩ := precheckOffer_eq_none_iff.mp hcheck
        exact ⟨fun heq => hne heq.symm, Dict.mem_keys_iff.mpr ⟨s, admitted.known⟩,
          Dict.mem_keys_iff.mpr ⟨r, hr⟩⟩
  | offerWithdrawn admitted found own opened =>
    refine h.of_offers keys fun o' ho' => ?_
    obtain ⟨o, ho, rfl⟩ := List.mem_map.mp ho'
    refine ⟨o, ho, ?_⟩
    split <;> exact ⟨rfl, rfl⟩
  | settled admitted settles =>
    refine h.of_offers keys fun o' ho' => ?_
    obtain ⟨o, ho, rfl⟩ := List.mem_map.mp ho'
    refine ⟨o, ho, ?_⟩
    split <;> exact ⟨rfl, rfl⟩

theorem Parties.ticked (h : Parties e) : Parties e.ticked := by
  refine h.of_offers (fun k hk => by rwa [ticked_keys]) fun o' ho' => ?_
  obtain ⟨o, ho, hproposer, hrecipient⟩ := closeOpen_parties ho'
  obtain ⟨o₀, ho₀, hproposer₀, hrecipient₀⟩ := closeOpen_parties ho
  exact ⟨o₀, ho₀, hproposer.trans hproposer₀, hrecipient.trans hrecipient₀⟩

theorem Parties.ended (hb : Book e) (h : Parties e) : Parties e.endRun := by
  rw [endRun_eq hb.distinct]
  exact h.of_offers (fun _ hk => hk) fun o' ho' => closeOpen_parties ho'

section Runs

variable {stations : List SimStation} {rules : Rules} {runId : String}
  {ls : List (Operation × List Processed)}

/-- The market keeps its planets, and only they deal with each other. -/
theorem run_parties (run : Machine.Run Performs (create stations rules runId) ls e) :
    Parties e ∧ ∀ k, k ∈ e.stations.keys ↔ k ∈ (create stations rules runId).stations.keys := by
  have both : Book e ∧ Parties e ∧ ∀ k, k ∈ e.stations.keys ↔
      k ∈ (create stations rules runId).stations.keys := by
    refine operations_invariant (I := fun _ e => Book e ∧ Parties e ∧
      ∀ k, k ∈ e.stations.keys ↔ k ∈ (create stations rules runId).stations.keys) ?_ ?_ ?_ ?_ run
      ⟨Book.create .., fun o ho => by simp [create] at ho, fun _ => Iff.rfl⟩
    · intro _ a _ _ _ b ha hx
      obtain ⟨hb, hp, hk⟩ := ha
      exact ⟨hb.executed hx, hp.executed hb hx, fun k => ((hx.kept hb).keys k).trans (hk k)⟩
    · intro _ a _ _ ha
      obtain ⟨hb, hp, hk⟩ := ha
      exact ⟨hb.frame rfl rfl rfl rfl le_rfl, hp, hk⟩
    · intro _ a b ha hadvance
      obtain ⟨hb, hp, hk⟩ := ha
      rw [advanceTick_eq_ticked hb.distinct hadvance]
      exact ⟨hb.ticked, hp.ticked, fun k => by rw [ticked_keys]; exact hk k⟩
    · intro _ a ha
      obtain ⟨hb, hp, hk⟩ := ha
      refine ⟨hb.ended, hp.ended hb, ?_⟩
      rw [endRun_eq hb.distinct]
      exact hk
  exact both.2

end Runs

/-- A settled trade was an offer between the same two planets. -/
theorem Parties.transaction (hb : Book e) (h : Parties e) {t : Transaction}
    (ht : t ∈ e.transactions) :
    t.proposerId ≠ t.recipientId ∧ t.proposerId ∈ e.stations.keys ∧
    t.recipientId ∈ e.stations.keys := by
  obtain ⟨o, ⟨ho, _, hreceipt⟩, _⟩ := hb.accepted_of_receipt ht
  have hparties := h o ho
  rw [show o.proposerId = t.proposerId from congrArg Receipt.proposerId hreceipt,
    show o.recipientId = t.recipientId from congrArg Receipt.recipientId hreceipt] at hparties
  exact hparties

end SpaceportBazaar
