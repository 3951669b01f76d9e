import Shentu.UncertifiedStake

/-!
What the certified identities have bonded in all. The code adds it up over the identity
certificates, and every certificate counts: one that says the same as another, one whose content
has another type, and one whose content is no address, for which all delegations are counted.
-/

namespace Shentu

open Lib Finset List

variable {codec : AddressCodec} {certs : List Certificate} {s : Staking}

/-- The certified identities, each of them once. -/
def certifiedIdentities (codec : AddressCodec) (certs : List Certificate) : Finset AccAddress :=
  ((getCertifiedIdentities codec certs).filterMap (fun i =>
    i.filter (isCertifiedIdentity codec certs))).toFinset

lemma mem_certifiedIdentities {a : AccAddress} :
    a ∈ certifiedIdentities codec certs ↔ isCertifiedIdentity codec certs a = true := by
  simp only [certifiedIdentities, mem_toFinset, List.mem_filterMap, Option.filter_eq_some_iff]
  constructor
  · rintro ⟨i, -, -, hcertified⟩
    exact hcertified
  · intro hcertified
    exact ⟨some a, mem_getCertifiedIdentities hcertified, rfl, hcertified⟩

/-- What the certified identities have bonded, in whole tokens for each delegation. -/
def certifiedBonded (codec : AddressCodec) (certs : List Certificate) (s : Staking) : Int :=
  ∑ a ∈ certifiedIdentities codec certs, wholeBonded s (some a)

/-- Every identity certificate is the only one about a certified identity, or nothing is bonded by
what it is about. -/
def CountedOnce (codec : AddressCodec) (certs : List Certificate) (s : Staking) : Prop :=
  ∀ i ∈ getCertifiedIdentities codec certs, wholeBonded s i = 0 ∨
    IsListed codec certs i ∧ (getCertifiedIdentities codec certs).count i = 1

open Classical in
/-- What an entry of the list adds if it is counted as it should be. -/
private noncomputable def dueFor (codec : AddressCodec) (certs : List Certificate) (s : Staking)
    (i : Option AccAddress) : Int :=
  if IsListed codec certs i then wholeBonded s i else 0

lemma totalBonded_eq_counts : totalBondedByCertifiedIdentities decimal codec certs s =
    ∑ i ∈ (getCertifiedIdentities codec certs).toFinset,
      (getCertifiedIdentities codec certs).count i • wholeBonded s i := by
  refine (sum_list_map_count _ (wholeBonded s)).trans (sum_congr rfl ?_)
  intro i _
  congr 1
  exact countP_congr (by simp)

private lemma certifiedBonded_eq_due : certifiedBonded codec certs s =
    ∑ i ∈ (getCertifiedIdentities codec certs).toFinset, dueFor codec certs s i := by
  classical
  unfold dueFor certifiedBonded
  rw [← sum_filter]
  have himage : (getCertifiedIdentities codec certs).toFinset.filter (IsListed codec certs) =
      (certifiedIdentities codec certs).map Function.Embedding.some := by
    ext i
    simp only [Finset.mem_filter, mem_toFinset, Finset.mem_map, mem_certifiedIdentities,
      Function.Embedding.some_apply]
    constructor
    · rintro ⟨-, a, rfl, hcertified⟩
      exact ⟨a, hcertified, rfl⟩
    · rintro ⟨a, hcertified, rfl⟩
      exact ⟨mem_getCertifiedIdentities hcertified, a, rfl, hcertified⟩
  rw [himage, sum_map]
  rfl

private lemma dueFor_le {i : Option AccAddress} (hi : i ∈ getCertifiedIdentities codec certs) :
    dueFor codec certs s i ≤ (getCertifiedIdentities codec certs).count i • wholeBonded s i := by
  have hcount : 1 ≤ (getCertifiedIdentities codec certs).count i := count_pos_iff.mpr hi
  have hbonded := wholeBonded_nonneg s i
  unfold dueFor
  split
  · calc wholeBonded s i = 1 • wholeBonded s i := (one_smul _ _).symm
      _ ≤ _ := nsmul_le_nsmul_left hbonded hcount
  · exact nsmul_nonneg hbonded _

private lemma dueFor_eq_iff {i : Option AccAddress}
    (hi : i ∈ getCertifiedIdentities codec certs) :
    dueFor codec certs s i = (getCertifiedIdentities codec certs).count i • wholeBonded s i ↔
      wholeBonded s i = 0 ∨
        IsListed codec certs i ∧ (getCertifiedIdentities codec certs).count i = 1 := by
  have hcount : 1 ≤ (getCertifiedIdentities codec certs).count i := count_pos_iff.mpr hi
  unfold dueFor
  rw [nsmul_eq_mul]
  split
  · rename_i hlisted
    rw [eq_comm, mul_left_eq_self₀, Nat.cast_eq_one]
    simp only [hlisted, true_and, or_comm]
  · rename_i hlisted
    rw [eq_comm, mul_eq_zero]
    simp only [hlisted, false_and, or_false]
    constructor
    · rintro (hzero | hzero)
      · omega
      · exact hzero
    · exact .inr

/-- The total is what the certified identities have bonded if and only if every certificate that
counts anything is the only one about its identity. -/
theorem totalBonded_eq_iff (codec : AddressCodec) (certs : List Certificate) (s : Staking) :
    totalBondedByCertifiedIdentities decimal codec certs s = certifiedBonded codec certs s ↔
      CountedOnce codec certs s := by
  rw [totalBonded_eq_counts, certifiedBonded_eq_due, eq_comm,
    sum_eq_sum_iff_of_le (fun i hi => dueFor_le (mem_toFinset.mp hi))]
  constructor
  · intro h i hi
    exact (dueFor_eq_iff hi).mp (h i (mem_toFinset.mpr hi))
  · intro h i hi
    have hi := mem_toFinset.mp hi
    exact (dueFor_eq_iff hi).mpr (h i hi)

/-- Address 11 is certified twice, and its 50 tokens are counted twice. -/
theorem totalBonded_counts_twice :
    let certs := ⟨.identity, .address, unaryCodec.string 11⟩ :: twoIdentities
    totalBondedByCertifiedIdentities decimal unaryCodec certs identitiesStaking = Dec.ofInt 140 ∧
      certifiedBonded unaryCodec certs identitiesStaking = Dec.ofInt 90 := by
  decide +kernel

end Shentu
