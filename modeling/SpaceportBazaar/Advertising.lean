import SpaceportBazaar.Bundle
import SpaceportBazaar.Domain
import Mathlib.Data.Finset.Lattice.Basic
import Mathlib.Data.Finset.SDiff
import Mathlib.Data.Fintype.Defs

namespace SpaceportBazaar

def minListableQty : Nat := 2
def defaultAdTtl : Nat := 8
def adRenewMargin : Nat := 2
def minAdLifetime : Nat := 3

structure AdvertiseDecision where
  action : Option Action
  reason : String

def decideAdvertisement (surplus deficit : Bundle) (critical : Finset Resource)
    (current : Option Advertisement) (tick : Nat) (rules : Rules) : AdvertiseDecision :=
  let selling := Finset.univ.filter (fun r => minListableQty ≤ surplus.get r)
  let seeking := Finset.univ.filter (fun r => 0 < deficit.get r ∨ r ∈ critical)
  let ttl := min defaultAdTtl (min rules.maxPublicationTtlTicks (rules.durationTicks - tick))
  if ttl ≤ 0 then ⟨none, "no publication lifetime remains"⟩
  else
    let proposed := Action.advertise selling seeking (tick + ttl)
    match current with
    | none =>
      if selling = ∅ ∧ seeking = ∅ then ⟨none, "nothing to sell or seek"⟩
      else ⟨some proposed, "no active advertisement"⟩
    | some current =>
      if critical \ current.seeking ≠ ∅ then ⟨some proposed, "new critical need"⟩
      else if selling = ∅ ∧ seeking = ∅ then
        ⟨some (.withdraw current.advertisementId), "no longer selling or seeking"⟩
      else if (selling, seeking) ≠ (current.selling, current.seeking) ∧
          current.createdTick + minAdLifetime ≤ tick then
        ⟨some proposed, "needs changed materially"⟩
      else if current.expiresTick ≤ tick + adRenewMargin then
        ⟨some proposed, "renewing before expiry"⟩
      else ⟨none, "current advertisement still accurate"⟩

/-- The only actions an advertisement decision can take. -/
theorem decideAdvertisement_action {surplus deficit : Bundle} {critical : Finset Resource}
    {current : Option Advertisement} {tick : Nat} {rules : Rules} {action : Action}
    (h : (decideAdvertisement surplus deficit critical current tick rules).action = some action) :
    (∃ selling seeking ttl, action = .advertise selling seeking (tick + ttl) ∧ 0 < ttl ∧
      ttl ≤ rules.maxPublicationTtlTicks ∧ tick + ttl ≤ rules.durationTicks) ∨
    ∃ ad, current = some ad ∧ action = .withdraw ad.advertisementId := by
  unfold decideAdvertisement at h
  simp only at h
  by_cases httl :
    min defaultAdTtl (min rules.maxPublicationTtlTicks (rules.durationTicks - tick)) ≤ 0
  · rw [if_pos httl] at h
    simp at h
  rw [if_neg httl] at h
  have hpub : min defaultAdTtl (min rules.maxPublicationTtlTicks (rules.durationTicks - tick)) ≤
      rules.maxPublicationTtlTicks := by omega
  have hrun :
    tick + min defaultAdTtl (min rules.maxPublicationTtlTicks (rules.durationTicks - tick)) ≤
      rules.durationTicks := by omega
  cases current with
  | none =>
    simp only at h
    split_ifs at h
    cases Option.some.inj h
    exact Or.inl ⟨_, _, _, rfl, by omega, hpub, hrun⟩
  | some ad =>
    simp only at h
    split_ifs at h
    · cases Option.some.inj h
      exact Or.inl ⟨_, _, _, rfl, by omega, hpub, hrun⟩
    · cases Option.some.inj h
      exact Or.inr ⟨ad, rfl, rfl⟩
    · cases Option.some.inj h
      exact Or.inl ⟨_, _, _, rfl, by omega, hpub, hrun⟩
    · cases Option.some.inj h
      exact Or.inl ⟨_, _, _, rfl, by omega, hpub, hrun⟩

/-- Whatever is published shows the two sets as they were computed. -/
theorem decideAdvertisement_shows {surplus deficit : Bundle} {critical : Finset Resource}
    {current : Option Advertisement}
    {tick : Nat} {rules : Rules} {selling seeking : Finset Resource} {expires : Nat}
    (h : (decideAdvertisement surplus deficit critical current tick rules).action =
      some (.advertise selling seeking expires)) :
    selling = Finset.univ.filter (fun r => minListableQty ≤ surplus.get r) ∧
      seeking = Finset.univ.filter (fun r => 0 < deficit.get r ∨ r ∈ critical) := by
  unfold decideAdvertisement at h
  simp only at h
  by_cases httl :
    min defaultAdTtl (min rules.maxPublicationTtlTicks (rules.durationTicks - tick)) ≤ 0
  · rw [if_pos httl] at h
    simp at h
  rw [if_neg httl] at h
  cases current with
  | none =>
    simp only at h
    split_ifs at h
    cases Option.some.inj h
    exact ⟨rfl, rfl⟩
  | some ad =>
    simp only at h
    split_ifs at h <;> cases Option.some.inj h <;> exact ⟨rfl, rfl⟩

end SpaceportBazaar
