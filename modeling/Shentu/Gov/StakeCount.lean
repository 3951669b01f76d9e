import Shentu.Gov.StakeTally

/-!
What the count of the validators' round adds up to if no bonded validator votes. The validators then
keep their tokens and shares through the loops, without a vote of their own, and the power counted
is one sum over the voters.
-/

namespace Shentu

open Lib Option List

/-- The counted power of one option, or of all. -/
def Counts.at {α : Type} (c : Counts α) : Option VoteOption → α
  | some o => c.results o
  | none => c.totalVotingPower

/-- The option is counted there. -/
def countsAt : Option VoteOption → VoteOption → Bool
  | some o, option => o = option
  | none, _ => true

section

variable {α : Type} [AddCommGroup α] (ar : StakeArith α) (s : Staking)

lemma Counts.at_add (c : Counts α) (option : VoteOption) (power : α) (o : Option VoteOption) :
    (c.add option power).at o = c.at o + if countsAt o option = true then power else 0 := by
  cases o with
  | none => simp [Counts.at, Counts.add, countsAt]
  | some o =>
    simp only [Counts.at, Counts.add, addPower, countsAt, decide_eq_true_eq]
    split <;> simp

variable {s}

lemma bondedPower_eq (d : Delegation) : bondedPower ar s d =
    match s.bondedValidators.get d.validatorAddress with
    | some v => ar.power d.shares v.delegatorShares v.getBondedTokens
    | none => 0 := by
  rw [bondedPower, Staking.bondedValidators, Table.get_filter]
  cases s.validators.get d.validatorAddress with
  | none => rfl
  | some v =>
    by_cases hbonded : v.isBonded = true
    · rw [filter_some, if_pos hbonded]
    · rw [filter_some, if_neg hbonded]
      simp [Validator.getBondedTokens, hbonded, ar.power_zero]

/-- What some delegations have bonded. -/
def bondedBy (s : Staking) (ds : List Delegation) : α := (ds.map (bondedPower ar s)).sum

/-- The bonded validators with their tokens and shares, of which none has voted. -/
def Silent (s : Staking) (infos : Table ValidatorGovInfo.address) : Prop :=
  ∀ a, (infos.get a).map (fun i => (i.bondedTokens, i.delegatorShares, i.vote)) =
    (s.bondedValidators.get a).map (fun v => (v.getBondedTokens, v.delegatorShares, .empty))

lemma silent_fetchBondedValidators : Silent s (fetchBondedValidators s) := by
  intro a
  rw [fetchBondedValidators, Table.get_map, Option.map_map]
  rfl

/-- A count goes on without a vote of a validator, and adds some power for an option. -/
structure PowerAdded (s : Staking) (option : VoteOption) (power : α) (t t' : Counting α) :
    Prop where
  silent : Silent s t'.currValidators
  counts : ∀ o, t'.counts.at o = t.counts.at o + if countsAt o option = true then power else 0

variable {t : Counting α} (h : Silent s t.currValidators)

include h

lemma delegationVoting_powerAdded (option : VoteOption) (d : Delegation) :
    PowerAdded s option (bondedPower ar s d) t (delegationVoting ar option t d) := by
  have hd := h d.validatorAddress
  unfold delegationVoting
  rw [bondedPower_eq]
  cases hget : t.currValidators.get d.validatorAddress with
  | none =>
    rw [hget, map_none, eq_comm, map_eq_none_iff] at hd
    rw [hd]
    exact ⟨h, by simp⟩
  | some val =>
    rw [hget, map_some, eq_comm, map_eq_some_iff] at hd
    obtain ⟨v, hv, heq⟩ := hd
    simp only [Prod.mk.injEq] at heq
    obtain ⟨htokens, hshares, hvote⟩ := heq
    have hkey : val.address = d.validatorAddress := Table.key_of_get hget
    rw [hv]
    constructor
    · intro a
      rw [Table.get_set]
      split
      · rename_i ha
        rw [ha, hkey, hv]
        simp [htokens, hshares, hvote]
      · exact h a
    · intro o
      dsimp only
      rw [Counts.at_add, htokens, hshares]

lemma foldl_delegationVoting (option : VoteOption) (ds : List Delegation) :
    PowerAdded s option (bondedBy ar s ds) t (ds.foldl (delegationVoting ar option) t) := by
  induction ds generalizing t with
  | nil => exact ⟨h, by simp [bondedBy]⟩
  | cons d ds ih =>
    have hfirst := delegationVoting_powerAdded ar h option d
    have hrest := ih hfirst.silent
    refine ⟨hrest.silent, ?_⟩
    intro o
    rw [foldl_cons, hrest.counts o, hfirst.counts o, add_assoc]
    split <;> simp [bondedBy]

lemma foldl_countVote {vs : List Vote} (hop : ∀ v ∈ vs, s.isBondedOperator v.voter = false) :
    Silent s (vs.foldl (countVote ar s) t).currValidators ∧
      ∀ o, (vs.foldl (countVote ar s) t).counts.at o = t.counts.at o + (vs.map (fun v =>
        if countsAt o v.option = true then bondedBy ar s (s.delegationsOf v.voter)
        else 0)).sum := by
  induction vs generalizing t with
  | nil => exact ⟨h, by simp⟩
  | cons v vs ih =>
    obtain ⟨hv, hop⟩ := forall_mem_cons.mp hop
    have hnone : t.currValidators.get v.voter = none := by
      have hget : s.bondedValidators.get v.voter = none := by
        simpa [Staking.isBondedOperator] using hv
      simpa [hget] using h v.voter
    have hcount : countVote ar s t v = delegatorVoting ar s t v := by
      rw [countVote, hnone]
    have hfirst := foldl_delegationVoting ar h v.option (s.delegationsOf v.voter)
    obtain ⟨hsilent, hcounts⟩ := ih hfirst.silent hop
    rw [foldl_cons, hcount]
    refine ⟨hsilent, ?_⟩
    intro o
    refine (hcounts o).trans ?_
    rw [hfirst.counts o, map_cons, sum_cons, add_assoc]

omit h

lemma foldl_countValidator {infos : List ValidatorGovInfo} (c : Counts α)
    (h : ∀ val ∈ infos, val.vote = .empty) : infos.foldl (countValidator ar) c = c := by
  induction infos with
  | nil => rfl
  | cons val infos ih =>
    obtain ⟨hval, hrest⟩ := forall_mem_cons.mp h
    rw [foldl_cons, countValidator, if_pos hval]
    exact ih hrest

/-- Without a vote of a bonded validator only the delegations of the voters count. -/
lemma stakeCount_delegators {vs : List Vote}
    (hop : ∀ v ∈ vs, s.isBondedOperator v.voter = false) (o : Option VoteOption) :
    (stakeCount ar s vs).at o = (vs.map (fun v =>
      if countsAt o v.option = true then bondedBy ar s (s.delegationsOf v.voter) else 0)).sum := by
  have hzero : (⟨newResults, 0⟩ : Counts α).at o = 0 := by
    cases o <;> rfl
  obtain ⟨hsilent, hcounts⟩ := foldl_countVote ar
    (t := ⟨fetchBondedValidators s, newResults, 0⟩) silent_fetchBondedValidators hop
  unfold stakeCount
  dsimp only
  rw [foldl_countValidator, hcounts o, hzero, zero_add]
  intro val hval
  have hget := hsilent val.address
  rw [Table.get_of_mem hval, map_some, eq_comm, map_eq_some_iff] at hget
  obtain ⟨v, -, heq⟩ := hget
  exact (congrArg (fun x => x.2.2) heq).symm

end

end Shentu
