import SpaceportBazaar.DecideBalance

namespace SpaceportBazaar

/-- One line of a decision's books: an action, what it hands over and what it brings. -/
structure Entry where
  action : Action
  payment : Bundle
  gain : Bundle

/-- The line is true to the snapshot the decision was made from. -/
inductive Entry.Describes (observation : Snapshot) : Entry → Prop
  | accept {o : Offer} {cost gain : Bundle} : o ∈ observation.incomingOpenOffers →
    o.whatStationPays observation.selfStationId = .ok cost →
    o.whatStationReceives observation.selfStationId = .ok gain →
    Describes observation ⟨.accept o.offerId, cost, gain⟩
  | offer (recipientId : String) (give receive : Bundle) (expiresTick : Nat) :
    Describes observation ⟨.offer recipientId give receive expiresTick, give, receive⟩
  | advertise (selling seeking : Finset Resource) (expiresTick : Nat) :
    Describes observation ⟨.advertise selling seeking expiresTick, 0, 0⟩
  | withdraw (objectId : String) : Describes observation ⟨.withdraw objectId, 0, 0⟩

/-- An accept that costs something, or an offer that asks for something. -/
def Entry.Paid (e : Entry) : Prop :=
  match e.action with
  | .accept _ => e.payment ≠ 0
  | .offer _ _ receive _ => receive ≠ 0
  | _ => False

section Floor

variable {observation : Snapshot} {ticksLeft : Option Nat} {reserve : Bundle}
  {model : CounterpartyModel} {start a : Account} {hist : List Deed} {d : Deed}

/-- What a deed brings, by the terms it is done on. -/
def Deed.gain (observation : Snapshot) : Deed → Bundle
  | .accept _ offer _ => ((offer.whatStationReceives observation.selfStationId).toOption).getD 0
  | .propose candidate _ asked => .only candidate.want asked
  | _ => 0

def Deed.entry (observation : Snapshot) (d : Deed) : Entry :=
  ⟨d.action observation, d.payment, d.gain observation⟩

/-- What the payment of a deed leaves of the specialty, by the limit it was made under. -/
theorem Allowed.floor (h : Allowed observation ticksLeft reserve model hist a d)
    (pays : (d.entry observation).Paid) :
    ∃ limit : Option ℚ, (limit = none ∨ limit = some (1 / 2) ∧ inEndGame ticksLeft = false) ∧
      (limit = none → specialtyFloor observation.me ticksLeft +
        d.payment.get observation.me.specialty ≤
        a.balance.get observation.me.specialty) ∧
      (limit = some (1 / 2) →
        productionStopTicks * observation.me.upkeepPerTick.get observation.me.specialty +
          d.payment.get observation.me.specialty ≤ a.balance.get observation.me.specialty ∧
        2 * d.payment.total ≤ (d.gain observation).total ∧
        (hasNormalOffers observation = true → specialtyFloor observation.me ticksLeft +
          d.payment.get observation.me.specialty ≤ a.balance.get observation.me.specialty)) := by
  cases d with
  | withdraw offer => exact absurd pays id
  | giveExcess recipient resource quantity => exact absurd rfl pays
  | aid gift => exact absurd rfl pays
  | notice action =>
    obtain ⟨selling, seeking, ttl, rfl, _⟩ | ⟨ad, _, rfl⟩ := h
    · exact absurd pays id
    · exact absurd pays id
  | accept late offer cost =>
    obtain ⟨_, hcost, hstands, gain, hgain, haccept⟩ := h
    have hpaid : cost ≠ 0 := pays
    have hcovers : cost ≤ a.balance := by
      rcases judge_accept haccept with hzero | ⟨hcovers, _⟩
      · exact absurd hzero hpaid
      · exact hcovers
    have hcover := hcovers observation.me.specialty
    have hgot : (Deed.accept late offer cost).gain observation = gain := by
      simp [Deed.gain, hgain, Except.toOption]
    unfold verdictOn at haccept
    rcases productionPaymentLimit_cases
      (a.balance.saturatingSub cost) observation.me ticksLeft with hl | hl | hl
    · have hfloor := productionPaymentLimit_eq_none_iff.mp hl
      rw [Bundle.get_saturatingSub] at hfloor
      refine ⟨none, Or.inl rfl, fun _ => ?_, fun h => by cases h⟩
      show _ + cost.get _ ≤ _
      omega
    · rw [hl] at haccept
      exact absurd (judge_accept_ratio haccept hpaid).1 (lt_irrefl 0)
    · rw [hl] at haccept
      obtain ⟨hend, hstop⟩ := productionPaymentLimit_half hl
      rw [Bundle.get_saturatingSub] at hstop
      have hprice := (judge_accept_ratio haccept hpaid).2
      refine ⟨some (1 / 2), Or.inr ⟨rfl, hend⟩, fun h => (by cases h), fun _ =>
        ⟨?_, ?_, fun hnormal => ?_⟩⟩
      · show _ + cost.get _ ≤ _
        omega
      · rw [hgot]
        show 2 * cost.total ≤ gain.total
        have : (2 * cost.total : ℚ) ≤ gain.total := by linarith
        exact_mod_cast this
      · exact absurd ⟨hpaid, hnormal, by rw [hl]; simp⟩ hstands
  | propose candidate paid asked =>
    obtain ⟨_, _, _, _, _, limit, hlimit, hpriced⟩ := h
    have hfloor := hpriced.floor
    refine ⟨limit, hlimit, fun hnone => ?_, fun hhalf => ⟨?_, ?_, fun hnormal => ?_⟩⟩
    · subst hnone
      unfold paymentFloor at hfloor
      split at hfloor
      next => exact hfloor
      next hend =>
        rw [if_pos (Or.inl rfl)] at hfloor
        rwa [specialtyFloor_before_end (by simpa using hend)]
    · obtain ⟨_, hend⟩ := hlimit.resolve_left (by rw [hhalf]; simp)
      have hticks : productionStopTicks ≤ if limit = none ∨
          standingNormal observation hist = true then
          productionNormalTicks else productionStopTicks := by
        split <;> decide
      unfold paymentFloor at hfloor
      rw [if_neg (by simp [hend])] at hfloor
      exact le_trans (Nat.add_le_add_right (Nat.mul_le_mul_right _ hticks) _) hfloor
    · have hcapped := hpriced.capped _ hhalf
      show 2 * (Bundle.only candidate.give paid).total ≤ (Bundle.only candidate.want asked).total
      rw [Bundle.total_only, Bundle.total_only]
      have : (2 * paid : ℚ) ≤ asked := by linarith
      exact_mod_cast this
    · obtain ⟨_, hend⟩ := hlimit.resolve_left (by rw [hhalf]; simp)
      unfold paymentFloor at hfloor
      rw [if_neg (by simp [hend]), if_pos (Or.inr (by simp [standingNormal, hnormal]))] at hfloor
      rwa [specialtyFloor_before_end hend]

end Floor

/-- Offers with distinct ids leave no doubt what a decision's books say. -/
theorem Entry.Describes.unique {observation : Snapshot} {ledger ledger' : List Entry}
    (distinct : (observation.incomingOpenOffers.map Offer.offerId).Nodup)
    (same : ledger.map Entry.action = ledger'.map Entry.action)
    (h : ∀ e ∈ ledger, e.Describes observation) (h' : ∀ e ∈ ledger', e.Describes observation) :
    ledger = ledger' := by
  induction ledger generalizing ledger' with
  | nil => simpa using same.symm
  | cons e rest ih =>
    cases ledger' with
    | nil => simp at same
    | cons e' rest' =>
      rw [List.map_cons, List.map_cons] at same
      obtain ⟨hfirst, hrest⟩ := List.cons.inj same
      have htail := ih hrest (fun x hx => h x (List.mem_cons_of_mem _ hx)) fun x hx =>
        h' x (List.mem_cons_of_mem _ hx)
      have hhead : e = e' := by
        have he := h e List.mem_cons_self
        have he' := h' e' List.mem_cons_self
        cases he with
        | @accept o cost gain ho hcost hgain =>
          cases he' with
          | @accept o' cost' gain' ho' hcost' hgain' =>
            cases List.inj_on_of_nodup_map distinct ho ho' (Action.accept.inj hfirst)
            rw [hcost] at hcost'
            rw [hgain] at hgain'
            rw [Except.ok.inj hcost', Except.ok.inj hgain']
          | offer _ _ _ _ => cases hfirst
          | advertise _ _ _ => cases hfirst
          | withdraw _ => cases hfirst
        | offer _ _ _ _ => cases he' <;> cases hfirst; rfl
        | advertise _ _ _ => cases he' <;> cases hfirst; rfl
        | withdraw _ => cases he' <;> cases hfirst; rfl
      rw [hhead, htail]

end SpaceportBazaar
