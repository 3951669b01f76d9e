import Shentu.Shield.DelegationStore

/-!
When an undelegation goes through. The hooks of the shield module run in the middle of it: they
recompute the stake of the delegator, or take the removed delegation off, and force a withdrawal
of the collateral that is no longer backed. None of this fails while the stored stake covers the
delegations that are still to be undelegated.
-/

namespace Shentu

open Lib DelegationView Table Option List

variable {σ : Type}

namespace CollateralBook

variable {params : PoolParams} {ctx : Ctx} {b : CollateralBook} {a : AccAddress}

lemma withdrawCollateral_succeeds (params : PoolParams) (ctx : Ctx) {p : Provider}
    (hget : b.getProvider a = some p) {amount : Int}
    (hamount : amount ≤ p.collateral - p.withdrawing) :
    ∃ b', b.withdrawCollateral params ctx a amount = .ok b' ∧
      ∀ p', b'.getProvider a = some p' → p'.delegationBonded = p.delegationBonded := by
  unfold withdrawCollateral
  split
  · refine ⟨b, rfl, ?_⟩
    intro p' hp'
    cases hget.symm.trans hp'
    rfl
  · simp only [run_eq_ok]
    refine ⟨_, ⟨p, hget, not_lt.mpr hamount, rfl⟩, ?_⟩
    obtain rfl : p.address = a := key_of_get hget
    intro p' hp'
    have hself := get_set_self b.providers { p with withdrawing := p.withdrawing + amount }
    cases hself.symm.trans hp'
    rfl

/-- A forced withdrawal is of collateral that a stake which is not negative does not back, so it
can be made. -/
lemma updateProviderForDelegationChanges_succeeds (params : PoolParams) (ctx : Ctx)
    (b : CollateralBook) (a : AccAddress) {staked : Int} (hstaked : 0 ≤ staked) :
    ∃ b', b.updateProviderForDelegationChanges params ctx a staked = .ok b' ∧
      ∀ p, b'.getProvider a = some p → p.delegationBonded = staked := by
  unfold updateProviderForDelegationChanges
  cases hget : b.getProvider a with
  | none =>
    refine ⟨b, rfl, ?_⟩
    intro p hp
    cases hget.symm.trans hp
  | some p =>
    obtain rfl : p.address = a := key_of_get hget
    have hself := get_set_self b.providers { p with delegationBonded := staked }
    dsimp only
    split
    · obtain ⟨b', hb', hbonded⟩ := withdrawCollateral_succeeds params ctx
        (b := b.setProvider { p with delegationBonded := staked }) hself
        (show p.collateral - p.withdrawing - staked ≤ p.collateral - p.withdrawing by omega)
      rw [hb']
      exact ⟨b', rfl, hbonded⟩
    · refine ⟨_, rfl, ?_⟩
      intro q hq
      cases hself.symm.trans hq
      rfl

end CollateralBook

namespace DelegationView

/-- The tokens in a pool of the validators of some delegations. -/
def tokensIn (v : DelegationView) (dels : List Delegation) (m : ModuleName) : Int :=
  (dels.map (fun d => if (v.validatorOf d).pool = m then (v.validatorOf d).tokens else 0)).sum

/-- Delegations of an address that can be undelegated one after the other: all delegations of the
address are backed, and the pools hold the tokens of the validators. -/
structure Payable (v : DelegationView) (a : AccAddress) (dels : List Delegation) : Prop where
  backed : ∀ d ∈ v.delegationsOf a, v.Backed d
  listed : ∀ d ∈ dels, d ∈ v.delegationsOf a
  distinct : dels.Pairwise (fun d e => d.validatorAddress ≠ e.validatorAddress)
  account : v.hasAccount a = true
  pools : ∀ m, v.tokensIn dels m ≤ v.pooled m

variable {v v' : DelegationView} {d : Delegation} {rest : List Delegation} {shares : Int}

variable {a : AccAddress}

lemma Payable.pending {dels : List Delegation} (h : v.Payable a dels) : v.Pending dels :=
  ⟨fun d hd => get_of_mem_delegationsOf (h.listed d hd), fun d hd => h.backed d (h.listed d hd),
    h.distinct⟩

lemma Payable.tokens_le_pooled (h : v.Payable a (d :: rest)) :
    (v.validatorOf d).tokens ≤ v.pooled (v.validatorOf d).pool := by
  have hpool := h.pools (v.validatorOf d).pool
  have hrest : 0 ≤ v.tokensIn rest (v.validatorOf d).pool := by
    apply sum_nonneg
    refine forall_mem_map.mpr ?_
    intro e he
    split
    · exact (h.pending.backed e (mem_cons_of_mem d he)).tokens
    · exact le_rfl
  unfold tokensIn at hpool hrest
  rw [map_cons, sum_cons, if_pos rfl] at hpool
  omega

lemma tokensIn_congr {dels : List Delegation} (h : ∀ d ∈ dels, v'.validatorOf d = v.validatorOf d)
    (m : ModuleName) : v'.tokensIn dels m = v.tokensIn dels m := by
  unfold tokensIn
  congr 1
  apply map_congr_left
  intro d hd
  rw [h d hd]

lemma TokensMoved.pools (h : TokensMoved d shares v v') (hd : v.Backed d) (hshares : 0 ≤ shares)
    (hle : shares ≤ d.shares) {m : ModuleName} (hpool : v.tokensIn (d :: rest) m ≤ v.pooled m) :
    v.tokensIn rest m ≤ v'.pooled m := by
  obtain ⟨hissued, hissued'⟩ := Dec.redeemed_bounds hd.total_pos hd.tokens hshares
    (hle.trans hd.held)
  unfold tokensIn at hpool
  rw [map_cons, sum_cons] at hpool
  rw [h.pooled]
  unfold tokensIn pay
  split_ifs at hpool ⊢ <;> grind

lemma TokensMoved.backed (h : TokensMoved d shares v v') (hd : v.Backed d) (hshares : 0 ≤ shares)
    (hlt : shares < d.shares) : v'.Backed { d with shares := d.shares - shares } := by
  have hheld := hd.held
  obtain ⟨val, hval, htotal, htokens⟩ := h.validator (by omega)
  have hissued := (Dec.redeemed_bounds hd.total_pos hd.tokens hshares (by omega)).2
  have hof : v'.validatorOf { d with shares := d.shares - shares } = val := by
    unfold validatorOf
    rw [hval, getD_some]
  constructor
  · rw [hof]
    exact hval
  · exact Int.sub_pos_of_lt hlt
  · rw [hof]
    dsimp only
    omega
  · rw [hof]
    omega

/-- Once the first delegation is undelegated, the others can be. -/
lemma Payable.tail (h : v.Payable a (d :: rest)) (hshares : 0 ≤ shares)
    (hle : shares ≤ d.shares) (hstep : Undelegated d shares v v')
    (hmoved : TokensMoved d shares v v') : v'.Payable a rest := by
  obtain ⟨hfirst, hrest⟩ := forall_mem_cons.mp h.listed
  obtain ⟨hne, hdistinct⟩ := pairwise_cons.mp h.distinct
  have hpending := h.pending.tail hstep
  have hown := h.backed d hfirst
  constructor
  · intro e he
    obtain ⟨hmem, hdel⟩ := mem_delegationsOf.mp he
    have hget := Table.get_of_mem hmem
    by_cases hkey : e.key = d.key
    · rw [hkey, hstep.get_self] at hget
      split at hget
      · cases hget
      · cases hget
        exact hmoved.backed hown hshares (by omega)
    · rw [hstep.get_other hkey] at hget
      have hold : e ∈ v.delegationsOf a :=
        mem_delegationsOf.mpr ⟨mem_of_get hget, hdel⟩
      have hother : e.validatorAddress ≠ d.validatorAddress := by
        intro hval
        exact hkey (Delegation.key_eq_iff.mpr
          ⟨hdel.trans (mem_delegationsOf.mp hfirst).2.symm, hval⟩)
      exact (h.backed e hold).congr (hstep.others _ hother)
  · intro e he
    exact mem_delegationsOf.mpr
      ⟨mem_of_get (hpending.stored e he), (mem_delegationsOf.mp (hrest e he)).2⟩
  · exact hdistinct
  · rw [hstep.accounts]
    exact h.account
  · intro m
    rw [tokensIn_congr (fun e he => hstep.validatorOf (hne e he).symm)]
    exact hmoved.pools hown hshares hle (h.pools m)

end DelegationView

namespace DelegationLaws

variable {k : Keepers σ} (L : DelegationLaws k) {params : PoolParams} {ctx : Ctx}
  {b : CollateralBook} {w : σ} {a : AccAddress}

variable {val : Validator} {v : DelegationView} {rest : List Delegation} {d : Delegation}

lemma tokensFromShares_value (h : val.delegatorShares ≠ 0) (shares : Int) :
    ∃ tokens, val.tokensFromShares shares = .ok tokens ∧
      Dec.truncateInt tokens = val.value shares :=
  ⟨_, Validator.tokensFromShares_eq_ok.mpr ⟨h, rfl⟩, rfl⟩

lemma totalStaked_eq (hbacked : ∀ d ∈ (L.view w).delegationsOf a, (L.view w).Backed d) :
    totalStaked k w a = .ok (((L.view w).delegationsOf a).map (L.view w).valueOf).sum := by
  unfold totalStaked
  rw [L.getAll, ← zero_add (List.sum _)]
  generalize (L.view w).delegationsOf a = ds at hbacked ⊢
  generalize (0 : Int) = total
  induction ds generalizing total with
  | nil =>
    rw [map_nil, sum_nil, add_zero]
    rfl
  | cons d ds ih =>
    obtain ⟨hd, hds⟩ := forall_mem_cons.mp hbacked
    obtain ⟨tokens, htokens, hvalue⟩ := tokensFromShares_value hd.total_pos.ne' d.shares
    rw [foldlM_cons_eq_ok]
    refine ⟨total + (L.view w).valueOf d, ?_, ?_⟩
    · simp only [run_eq_ok]
      exact ⟨_, (L.getValidator w _).trans hd.found, tokens, htokens, by rw [hvalue]; rfl⟩
    · rw [map_cons, sum_cons, ← add_assoc]
      exact ih hds _

lemma sum_values_le (hbacked : ∀ d ∈ v.delegationsOf a, v.Backed d)
    (hrest : ∀ d ∈ rest, d ∈ v.delegationsOf a) (hnodup : rest.Nodup) :
    (rest.map v.valueOf).sum ≤ ((v.delegationsOf a).map v.valueOf).sum := by
  obtain ⟨part, hperm, hsub⟩ := hnodup.subperm hrest
  rw [← (hperm.map v.valueOf).sum_eq]
  apply (hsub.map v.valueOf).sum_le_sum
  exact forall_mem_map.mpr (fun d hd => (hbacked d hd).value_nonneg)

/-- The hook before a delegation is removed, while the stored stake covers it. -/
lemma removeDelegation_succeeds (params : PoolParams) (ctx : Ctx) {n : Int}
    (hn : 0 ≤ n) (hstored : (L.view w).delegations.get d.key = some d) (hd : (L.view w).Backed d)
    (hcovered : ∀ p, b.getProvider d.delegatorAddress = some p →
      (L.view w).valueOf d + n ≤ p.delegationBonded) :
    ∃ b', b.removeDelegation k params ctx w d.delegatorAddress d.validatorAddress = .ok b' ∧
      ∀ p, b'.getProvider d.delegatorAddress = some p → n ≤ p.delegationBonded := by
  unfold CollateralBook.removeDelegation
  cases hget : b.getProvider d.delegatorAddress with
  | none =>
    refine ⟨b, rfl, ?_⟩
    intro p hp
    cases hget.symm.trans hp
  | some p =>
    have hcovered := hcovered p hget
    obtain ⟨tokens, htokens, hvalue⟩ := tokensFromShares_value hd.total_pos.ne' d.shares
    have hvalue : Dec.truncateInt tokens = (L.view w).valueOf d := hvalue
    obtain ⟨b', hb', hbonded⟩ := b.updateProviderForDelegationChanges_succeeds params ctx
      d.delegatorAddress
      (show 0 ≤ p.delegationBonded - Dec.truncateInt tokens by omega)
    refine ⟨b', ?_, ?_⟩
    · simp only [run_eq_ok]
      exact ⟨d, (L.getDelegation w _ _).trans hstored, _, (L.getValidator w _).trans hd.found,
        tokens, htokens, hb'⟩
    · intro p' hp'
      rw [hbonded p' hp']
      omega

lemma updateDelegationAmount_succeeds (params : PoolParams) (ctx : Ctx) (b : CollateralBook)
    (hbacked : ∀ d ∈ (L.view w).delegationsOf a, (L.view w).Backed d) {n : Int}
    (hn : n ≤ (((L.view w).delegationsOf a).map (L.view w).valueOf).sum) :
    ∃ b', b.updateDelegationAmount k params ctx w a = .ok b' ∧
      ∀ p, b'.getProvider a = some p → n ≤ p.delegationBonded := by
  unfold CollateralBook.updateDelegationAmount
  cases hget : b.getProvider a with
  | none =>
    refine ⟨b, rfl, ?_⟩
    intro p hp
    cases hget.symm.trans hp
  | some p =>
    have hnonneg : 0 ≤ (((L.view w).delegationsOf a).map (L.view w).valueOf).sum :=
      sum_nonneg (forall_mem_map.mpr (fun d hd => (hbacked d hd).value_nonneg))
    obtain ⟨b', hb', hbonded⟩ :=
      b.updateProviderForDelegationChanges_succeeds params ctx a hnonneg
    refine ⟨b', bind_eq_ok.mpr ⟨_, L.totalStaked_eq hbacked, hb'⟩, ?_⟩
    intro p' hp'
    rw [hbonded p' hp']
    exact hn

lemma backed_set {left : Int} (hleft : 0 < left) (hle : left ≤ d.shares)
    (hd : d ∈ v.delegationsOf a) (hbacked : ∀ e ∈ v.delegationsOf a, v.Backed e) :
    ∀ e ∈ { v with delegations := v.delegations.set { d with shares := left } }.delegationsOf a,
      { v with delegations := v.delegations.set { d with shares := left } }.Backed e := by
  intro e he
  have hdel : Delegation.delegatorAddress { d with shares := left } = a :=
    (mem_delegationsOf.mp hd).2
  rcases (mem_delegationsOf_set hdel).mp he with rfl | ⟨he, -⟩
  · have hown := hbacked d hd
    exact ⟨hown.found, hleft, hle.trans hown.held, hown.tokens⟩
  · exact (hbacked e he).congr rfl

/-- The record of a delegation is written while the stored stake covers it and the delegations
that are still to come, and the stored stake covers those then. -/
lemma updateDelegationRecord_succeeds (params : PoolParams) (ctx : Ctx)
    {left : Int} (hleft : 0 ≤ left) (hle : left ≤ d.shares)
    (hbacked : ∀ e ∈ (L.view w).delegationsOf d.delegatorAddress, (L.view w).Backed e)
    (hd : ∀ e ∈ d :: rest, e ∈ (L.view w).delegationsOf d.delegatorAddress)
    (hdistinct : (d :: rest).Pairwise (fun e e' => e.validatorAddress ≠ e'.validatorAddress))
    (hcovered : ∀ p, b.getProvider d.delegatorAddress = some p →
      ((d :: rest).map (L.view w).valueOf).sum ≤ p.delegationBonded) :
    ∃ b' w', updateDelegationRecord k params ctx b w { d with shares := left } = .ok (b', w') ∧
      ∀ p, b'.getProvider d.delegatorAddress = some p →
        (rest.map (L.view w).valueOf).sum ≤ p.delegationBonded := by
  obtain ⟨hfirst, hrest⟩ := forall_mem_cons.mp hd
  obtain ⟨hothers, hdistinct⟩ := pairwise_cons.mp hdistinct
  have hown := hbacked d hfirst
  have hnonneg : 0 ≤ (rest.map (L.view w).valueOf).sum :=
    sum_nonneg (forall_mem_map.mpr (fun e he => (hbacked e (hrest e he)).value_nonneg))
  simp only [updateDelegationRecord]
  split
  · -- The removed delegation is still stored when the hook runs.
    rw [← L.beforeRemoved w d.delegatorAddress d.validatorAddress] at hcovered hown hnonneg
    obtain ⟨b', hb', hbonded⟩ := L.removeDelegation_succeeds params ctx hnonneg (by
      rw [L.beforeRemoved]
      exact get_of_mem_delegationsOf hfirst) hown hcovered
    rw [L.beforeRemoved] at hbonded
    refine ⟨b', _, bind_eq_ok.mpr ⟨b', hb', rfl⟩, hbonded⟩
  · -- The stake is recomputed with the new shares and the validators as they were.
    rename_i hne
    have hall := backed_set (lt_of_le_of_ne hleft (Ne.symm hne)) hle hfirst hbacked
    have hkept : ∀ e ∈ rest, e ∈ DelegationView.delegationsOf { L.view w with
        delegations := (L.view w).delegations.set { d with shares := left } }
        d.delegatorAddress := by
      intro e he
      exact (mem_delegationsOf_set rfl).mpr (.inr ⟨hrest e he, (hothers e he).symm⟩)
    have hsum := sum_values_le hall hkept
      (hdistinct.imp (fun hne heq => hne (congrArg Delegation.validatorAddress heq)))
    rw [← L.setDelegation, ← L.afterModified _ d.delegatorAddress d.validatorAddress] at hall hsum
    obtain ⟨b', hb', hbonded⟩ := L.updateDelegationAmount_succeeds params ctx b hall hsum
    rw [L.afterModified, L.setDelegation] at hbonded
    refine ⟨b', _, bind_eq_ok.mpr ⟨b', hb', rfl⟩, hbonded⟩

/-- The flag of a validator does not change what its delegations are worth. -/
lemma jailed_stakes {v' : DelegationView} {valAddr : ValAddress}
    {jailed : Bool} (hval : v.validators.get valAddr = some val)
    (hval' : v'.validators.get valAddr = some { val with jailed := jailed })
    (hone : DelegationView.OneValidator valAddr v v') (e : Delegation) :
    v'.valueOf e = v.valueOf e ∧ (v.Backed e → v'.Backed e) := by
  by_cases he : e.validatorAddress = valAddr
  · have hold : v.validatorOf e = val := by
      unfold DelegationView.validatorOf
      rw [he, hval, getD_some]
    have hnew : v'.validatorOf e = { val with jailed := jailed } := by
      unfold DelegationView.validatorOf
      rw [he, hval', getD_some]
    unfold DelegationView.valueOf
    rw [hold, hnew]
    refine ⟨rfl, ?_⟩
    intro hbacked
    constructor
    · rw [hnew, he, hval']
    · exact hbacked.shares
    · rw [hnew]
      exact hold ▸ hbacked.held
    · rw [hnew]
      exact hold ▸ hbacked.tokens
  · have hsame := hone.others _ he
    refine ⟨?_, fun hbacked => hbacked.congr hsame⟩
    unfold DelegationView.valueOf
    rw [validatorOf_congr hsame]

lemma jailBelowMinSelfDelegation_succeeds {valAddr : ValAddress} (d : Delegation)
    (hval : (L.view w).validators.get valAddr = some val) (htotal : val.delegatorShares ≠ 0) :
    ∃ w1 val1, jailBelowMinSelfDelegation k w valAddr val d = .ok (w1, val1) := by
  obtain ⟨tokens, htokens, -⟩ := tokensFromShares_value htotal d.shares
  obtain rfl : val.operatorAddress = valAddr := key_of_get hval
  unfold jailBelowMinSelfDelegation
  split
  · rw [htokens]
    by_cases hlow : Dec.truncateInt tokens < val.minSelfDelegation
    · have hself : k.getValidator (k.deleteValidatorByPowerIndex (k.setValidator w
          { val with jailed := true }) { val with jailed := true }) val.operatorAddress =
          some { val with jailed := true } := by
        rw [L.getValidator, L.deleteIndex, L.setValidator]
        exact get_set_self (L.view w).validators { val with jailed := true }
      simp only [run_eq_ok, Except.ok.injEq, exists_eq_left', if_pos hlow]
      exact ⟨_, _, _, hself, rfl⟩
    · simp only [run_eq_ok, Except.ok.injEq, exists_eq_left', if_neg hlow]
      exact ⟨w, val, rfl⟩
  · exact ⟨w, val, rfl⟩

lemma payIssued_succeeds {r : σ × Validator × Int} (haccount : (L.view r.1).hasAccount a = true)
    (hnonneg : 0 ≤ r.2.2) (hpool : r.2.2 ≤ (L.view r.1).pooled r.2.1.pool) :
    ∃ w', payIssued k a r = .ok w' := by
  have hkept : (L.view (if r.2.1.delegatorShares = 0 ∧ r.2.1.status = .unbonded then
      k.removeValidator r.1 r.2.1.operatorAddress else r.1)).hasAccount = (L.view r.1).hasAccount ∧
      (L.view (if r.2.1.delegatorShares = 0 ∧ r.2.1.status = .unbonded then
      k.removeValidator r.1 r.2.1.operatorAddress else r.1)).pooled = (L.view r.1).pooled := by
    split
    · rw [L.removeValidator]
      exact ⟨rfl, rfl⟩
    · exact ⟨rfl, rfl⟩
  rw [← hkept.1] at haccount
  rw [← hkept.2] at hpool
  obtain ⟨w1, hw1⟩ := isSome_iff_exists.mp (L.tracks _ a r.2.2 haccount hnonneg)
  rw [← L.track _ _ _ _ hw1] at hpool
  obtain ⟨w2, hw2⟩ := isSome_iff_exists.mp (L.sends _ _ r.2.2 hnonneg hpool)
  exact ⟨w2, bind_eq_ok.mpr ⟨w1, orFail_eq_ok.mpr hw1, orFail_eq_ok.mpr hw2⟩⟩

/-- The first of some delegations can be undelegated, and then the others can be. -/
lemma undelegateShares_succeeds (params : PoolParams) (ctx : Ctx)
    (hv : (L.view w).Payable a (d :: rest)) {shares : Int}
    (hshares : 0 ≤ shares) (hle : shares ≤ d.shares)
    (hcovered : ∀ p, b.getProvider a = some p →
      ((d :: rest).map (L.view w).valueOf).sum ≤ p.delegationBonded) :
    ∃ b' w', undelegateShares k params ctx b w d.delegatorAddress d.validatorAddress shares =
        .ok (b', w') ∧ (L.view w').Payable a rest ∧
      ∀ p, b'.getProvider a = some p →
        (rest.map (L.view w').valueOf).sum ≤ p.delegationBonded := by
  obtain ⟨hstored, hown⟩ := hv.pending.head
  obtain rfl : d.delegatorAddress = a :=
    (mem_delegationsOf.mp (hv.listed d mem_cons_self)).2
  have hbefore := L.beforeModified w d.delegatorAddress d.validatorAddress
  have hfound : (L.view (k.beforeDelegationSharesModified w d.delegatorAddress
      d.validatorAddress)).validators.get d.validatorAddress =
      some ((L.view w).validatorOf d) := by
    rw [hbefore]
    exact hown.found
  obtain ⟨w1, val1, hjail⟩ := L.jailBelowMinSelfDelegation_succeeds
    { d with shares := d.shares - shares } hfound hown.total_pos.ne'
  obtain ⟨⟨jailed, rfl⟩, hstored1, hone⟩ := L.jailBelowMinSelfDelegation_view hfound hjail
  rw [hbefore] at hone
  -- The delegations are worth as much as before, so their record can be written.
  have hsame := jailed_stakes hown.found hstored1 hone
  have hvalues : (L.view w1).valueOf = (L.view w).valueOf := funext (fun e => (hsame e).1)
  have hlist : (L.view w1).delegationsOf d.delegatorAddress =
      (L.view w).delegationsOf d.delegatorAddress := by
    unfold DelegationView.delegationsOf
    rw [hone.delegations]
  obtain ⟨b', w2, hrecord, hbonded⟩ := L.updateDelegationRecord_succeeds params ctx
    (Int.sub_nonneg_of_le hle) (by omega)
    (fun e he => (hsame e).2 (hv.backed e (hlist ▸ he)))
    (fun e he => hlist ▸ hv.listed e he) hv.distinct
    (fun p hp => hvalues ▸ hcovered p hp)
  have hview2 := L.updateDelegationRecord_view hrecord
  -- The pool holds the tokens that are issued for the shares.
  have hheld : shares ≤ ((L.view w).validatorOf d).delegatorShares := hle.trans hown.held
  obtain ⟨hissued, hissued'⟩ := Dec.redeemed_bounds hown.total_pos hown.tokens hshares hheld
  have hpool := hv.tokens_le_pooled
  obtain ⟨hresult, hwritten⟩ := L.removedShares w2
    { (L.view w).validatorOf d with jailed := jailed } shares hshares hheld
  obtain ⟨w', hpay⟩ : ∃ w', payIssued k d.delegatorAddress
      (k.removeValidatorTokensAndShares w2 { (L.view w).validatorOf d with jailed := jailed }
        shares) = .ok w' := by
    apply L.payIssued_succeeds
    · rw [hwritten, hview2]
      exact (congrFun hone.accounts _).trans hv.account
    · rw [hresult]
      exact hissued
    · rw [hresult, hwritten, hview2]
      exact (hissued'.trans hpool).trans_eq (congrFun hone.pooled _).symm
  have hok := undelegateShares_eq_ok.mpr ⟨d, _, w1, _, w2, (L.getDelegation w _ _).trans hstored,
    (L.getValidator _ _).trans hfound, hjail, hrecord, by rw [hresult]; exact hissued, hpay⟩
  obtain ⟨hstep, hmoved⟩ := L.undelegateShares_view hstored hown.found hok
  refine ⟨b', w', hok, hv.tail hshares hle hstep (hmoved hshares hheld), ?_⟩
  intro p hp
  have hrest : rest.map (L.view w').valueOf = rest.map (L.view w).valueOf := by
    apply map_congr_left
    intro e he
    unfold DelegationView.valueOf
    rw [hstep.validatorOf ((pairwise_cons.mp hv.distinct).1 e he).symm]
  rw [hrest, ← hvalues]
  exact hbonded p hp

end DelegationLaws

end Shentu
