import Shentu.CertifiedTally

/-!
When the count behind a claim depends on the certified identities only. An address that is not an
identity can delegate more to a bonded validator. This changes what is counted if the operator of
the validator has voted, since the operator votes with the shares of others; it changes what the
count is compared with if an identity certificate is not about an identity; and otherwise it moves
the decimals of the count by no more than their rounding.
-/

namespace Shentu

open Lib List Table

/-- Every total that differs from a total by at most a rounding, together with counts that differ
from the counts by at most another, has the same outcome. -/
def OutcomeSettled (tp : TallyParams Int) (totalBonded : Int) (c : Counts Int)
    (bondedRounding countRounding : Int) : Prop :=
  ∀ (totalBonded' : Int) (c' : Counts Int), |totalBonded' - totalBonded| ≤ bondedRounding →
    (∀ o, |c'.at o - c.at o| ≤ countRounding) →
    passAndVeto decimal totalBonded' ⟨c'.totalVotingPower, tp, c'.results⟩ =
      passAndVeto decimal totalBonded ⟨c.totalVotingPower, tp, c.results⟩

/-- The count behind a claim depends on what the certified identities have bonded and on nothing
else that is bonded, and it is at most that, up to one token for each delegation of a voter. In
exact fractions the counts are the same. In the decimals of the code they are the same up to
rounding, and so is the outcome unless rounding decides it. -/
structure CertifiedOnly (codec : AddressCodec) (certs : List Certificate) (s : Staking)
    (votes : List Vote) : Prop where
  independent : ∀ s' params content, SameCertifiedStake codec certs s s' →
    content.isShieldClaim = true →
    (∀ o, (stakeCount exact s' votes).at o = (stakeCount exact s votes).at o) ∧
    (∀ o, |(stakeCount decimal s' votes).at o - (stakeCount decimal s votes).at o| ≤
      countRounding s' votes + countRounding s votes) ∧
    (OutcomeSettled params.defaultTally (totalBondedByCertifiedIdentities decimal codec certs s)
      (stakeCount decimal s votes) (bondedRounding codec certs s' + bondedRounding codec certs s)
      (countRounding s' votes + countRounding s votes) →
      (tally decimal codec certs s' params votes content).1 =
        (tally decimal codec certs s params votes content).1)
  bounded : (stakeCount decimal s votes).totalVotingPower ≤
    totalBondedByCertifiedIdentities decimal codec certs s +
      Dec.ofInt (votersDelegations s votes).length

lemma tally_of_claim {codec : AddressCodec} {certs : List Certificate} {votes : List Vote}
    (s : Staking) (params : StakeTallyParams Int) {content : Content}
    (h : content.isShieldClaim = true) :
    (tally decimal codec certs s params votes content).1 =
      passAndVeto decimal (totalBondedByCertifiedIdentities decimal codec certs s)
        ⟨(stakeCount decimal s votes).totalVotingPower, params.defaultTally,
          (stakeCount decimal s votes).results⟩ := by
  cases content with
  | shieldClaim c => rfl
  | _ => cases h

/-- Addresses written in unary. -/
def unaryCodec : AddressCodec where
  string a := String.ofList (List.replicate a 'a')
  fromBech32 text := some text.toList.length
  fromBech32_string a := by simp

/-- Addresses 10 and 11 are certified identities. -/
def twoIdentities : List Certificate :=
  [⟨.identity, .address, unaryCodec.string 10⟩, ⟨.identity, .address, unaryCodec.string 11⟩]

lemma twoIdentities_cases {a : AccAddress}
    (h : isCertifiedIdentity unaryCodec twoIdentities a = true) : a = 10 ∨ a = 11 := by
  have hlist : getCertifiedIdentities unaryCodec twoIdentities = [some 10, some 11] := by
    decide +kernel
  simpa [hlist] using mem_getCertifiedIdentities h

def bondedValidator (operator : ValAddress) (tokens : Int) : Validator :=
  ⟨operator, false, .bonded, tokens, Dec.ofInt tokens, 1⟩

/-- What the staking module keeps for the given validators and delegations. -/
def Staking.load (vs : List Validator) (ds : List Delegation)
    (h : (∀ d ∈ (Table.empty.load ds : Table Delegation.storeKey).rows, 0 < d.shares) ∧
      ∀ v ∈ (Table.empty.load vs : Table Validator.operatorAddress).rows,
        (v.isBonded = true → 0 < v.tokens ∧ 0 < v.delegatorShares) ∧
        v.delegatorShares = (Table.empty.load ds : Table Delegation.storeKey).total (fun d =>
          if d.validatorAddress = v.operatorAddress then d.shares else 0)) : Staking where
  validators := Table.empty.load vs
  delegations := Table.empty.load ds
  totalBondedTokens := (vs.map Validator.getBondedTokens).sum
  shares_pos := h.1
  bonded_pos v hv := (h.2 v hv).1
  delegated v hv := (h.2 v hv).2

/-- Address 10 operates a validator with 40 tokens of its own, and address 11 has delegated 50 to
another validator. -/
def identitiesStaking : Staking :=
  .load [bondedValidator 10 40, bondedValidator 12 50]
    [⟨10, 10, Dec.ofInt 40⟩, ⟨11, 12, Dec.ofInt 50⟩] (by decide)

/-- Address 13, which is no identity, has delegated 40 to the validator of address 10. -/
def otherStaking : Staking :=
  .load [bondedValidator 10 80, bondedValidator 12 50]
    [⟨10, 10, Dec.ofInt 40⟩, ⟨11, 12, Dec.ofInt 50⟩, ⟨13, 10, Dec.ofInt 40⟩] (by decide)

lemma otherStaking_sameCertifiedStake :
    SameCertifiedStake unaryCodec twoIdentities identitiesStaking otherStaking where
  validators a := by
    by_cases ha : a = 10
    · subst ha
      exact ⟨rfl, by decide⟩
    · by_cases ha' : a = 12
      · subst ha'
        exact ⟨rfl, rfl⟩
      · have hnone : ∀ tokens : Int, (Table.empty.load [bondedValidator 10 tokens,
            bondedValidator 12 50] : Table Validator.operatorAddress).get a = none := by
          intro tokens
          simp [Table.load, get_set, bondedValidator, ha, ha']
        simp [identitiesStaking, otherStaking, Staking.load, hnone, SameRate]
  delegations a ha := by
    rcases twoIdentities_cases ha with rfl | rfl <;> decide

/-- Addresses 10 and 11 have delegated one token each, to a validator with three million tokens and
to one with two. -/
def unevenStaking : Staking :=
  .load [bondedValidator 12 3000000, bondedValidator 14 2]
    [⟨10, 12, Dec.ofInt 1⟩, ⟨15, 12, Dec.ofInt 2999999⟩, ⟨11, 14, Dec.ofInt 1⟩,
      ⟨16, 14, Dec.ofInt 1⟩] (by decide)

/-- Address 13 has delegated three million tokens to the first validator. -/
def otherUnevenStaking : Staking :=
  .load [bondedValidator 12 6000000, bondedValidator 14 2]
    [⟨10, 12, Dec.ofInt 1⟩, ⟨15, 12, Dec.ofInt 2999999⟩, ⟨13, 12, Dec.ofInt 3000000⟩,
      ⟨11, 14, Dec.ofInt 1⟩, ⟨16, 14, Dec.ofInt 1⟩] (by decide)

/-- A quorum of 40 percent, a threshold of one half and a veto of a third. -/
def claimTally : StakeTallyParams Int :=
  ⟨⟨400000000000000000, 500000000000000000, 334000000000000000⟩,
    ⟨400000000000000000, 500000000000000000, 334000000000000000⟩⟩

end Shentu
