import Shentu.Shield.Moves
import Shentu.Shield.Claim
import Shentu.Shield.Payout

/-!
What the shield module writes outside its own store. It writes the delegations and
unbonding delegations of providers, and it moves coins to and from its own account.
A claim that is submitted writes unbonding delegations only.
-/

namespace Shentu

open Lib

variable {σ : Type}

/-- One write of unbonding delegations or of their queue. -/
inductive UnbondingWrite (k : Keepers σ) (w : σ) : σ → Prop
  | setUnbonding (u : UnbondingDelegation) : UnbondingWrite k w (k.setUnbondingDelegation w u)
  | removeUnbonding (u : UnbondingDelegation) : UnbondingWrite k w (k.removeUnbondingDelegation w u)
  | setSlice (t : Time) (pairs : List DVPair) :
      UnbondingWrite k w (k.setUBDQueueTimeSlice w t pairs)
  | removeSlice (t : Time) : UnbondingWrite k w (k.removeUBDQueue w t)
  | insertQueue (u : UnbondingDelegation) (t : Time) : UnbondingWrite k w (k.insertUBDQueue w u t)

/-- One write of a payout from delegations, or of a payment from a staking pool. -/
inductive DelegationWrite (k : Keepers σ) (w : σ) : σ → Prop
  | setDelegation (d : Delegation) : DelegationWrite k w (k.setDelegation w d)
  | removeDelegation (d : Delegation) : DelegationWrite k w (k.removeDelegation w d)
  | setValidator (v : Validator) : DelegationWrite k w (k.setValidator w v)
  | deleteValidatorByPowerIndex (v : Validator) :
      DelegationWrite k w (k.deleteValidatorByPowerIndex w v)
  | removeValidator (a : ValAddress) : DelegationWrite k w (k.removeValidator w a)
  | removeTokens (v : Validator) (shares : Int) :
      DelegationWrite k w (k.removeValidatorTokensAndShares w v shares).1
  | beforeShares (a : AccAddress) (v : ValAddress) :
      DelegationWrite k w (k.beforeDelegationSharesModified w a v)
  | beforeRemoved (a : AccAddress) (v : ValAddress) :
      DelegationWrite k w (k.beforeDelegationRemoved w a v)
  | afterModified (a : AccAddress) (v : ValAddress) :
      DelegationWrite k w (k.afterDelegationModified w a v)
  | track {a : AccAddress} {coins : Coins} {w' : σ} :
      k.trackUndelegation w a coins = some w' → DelegationWrite k w w'
  | collect {m : ModuleName} {coins : Coins} {w' : σ} : m = .bondedPool ∨ m = .notBondedPool →
      k.sendCoinsFromModuleToModule w m .shield coins = some w' → DelegationWrite k w w'

/-- One write outside the store of the shield module. -/
inductive KeeperWrite (k : Keepers σ) (w : σ) : σ → Prop
  | unbonding {w' : σ} : UnbondingWrite k w w' → KeeperWrite k w w'
  | delegation {w' : σ} : DelegationWrite k w w' → KeeperWrite k w w'
  | receive {a : AccAddress} {coins : Coins} {w' : σ} :
      k.sendCoinsFromAccountToModule w a .shield coins = some w' → KeeperWrite k w w'
  | pay {a : AccAddress} {coins : Coins} {w' : σ} :
      k.sendCoinsFromModuleToAccount w .shield a coins = some w' → KeeperWrite k w w'

abbrev UnbondingWrites (k : Keepers σ) : σ → σ → Prop := Relation.ReflTransGen (UnbondingWrite k)

abbrev DelegationWrites (k : Keepers σ) : σ → σ → Prop := Relation.ReflTransGen (DelegationWrite k)

abbrev KeeperWrites (k : Keepers σ) : σ → σ → Prop := Relation.ReflTransGen (KeeperWrite k)

variable {k : Keepers σ}

lemma UnbondingWrites.keeper {w w' : σ} (h : UnbondingWrites k w w') : KeeperWrites k w w' :=
  Relation.ReflTransGen.mono (fun _ _ hwrite => KeeperWrite.unbonding hwrite) _ _ h

lemma DelegationWrites.keeper {w w' : σ} (h : DelegationWrites k w w') : KeeperWrites k w w' :=
  Relation.ReflTransGen.mono (fun _ _ hwrite => KeeperWrite.delegation hwrite) _ _ h

section Secure

variable {k : Keepers σ} {ctx : Ctx}

lemma unqueueUnbonding_write (w : σ) (provider : AccAddress) (ubd : UnbondingInfo) :
    UnbondingWrite k w (unqueueUnbonding k w provider ubd) := by
  unfold unqueueUnbonding
  dsimp only
  split
  · exact .setSlice _ _
  · exact .removeSlice _

variable {w w' : σ} {duration : Duration}

lemma delayUnbondingLoop_writes {provider : AccAddress} {delayedTime : Time}
    (ubds : List UnbondingInfo) {remaining remaining' : Int}
    (h : delayUnbondingLoop k provider delayedTime ubds remaining w = .ok (remaining', w')) :
    UnbondingWrites k w w' := by
  induction ubds generalizing remaining w with
  | nil =>
    cases h
    exact Relation.ReflTransGen.refl
  | cons ubd ubds ih =>
    unfold delayUnbondingLoop at h
    split at h
    · simp only [run_eq_ok] at h
      obtain ⟨unbonding, -, ⟨amount, entries⟩, -, hrest⟩ := h
      have hfirst := (Relation.ReflTransGen.single (unqueueUnbonding_write (k := k) w provider ubd))
      exact ((hfirst.tail (.insertQueue _ _)).tail (.setUnbonding _)).trans (ih hrest)
    · cases h
      exact Relation.ReflTransGen.refl

lemma secureFromProvider_writes {b b' : CollateralBook} {provider : Provider} {amount : Int}
    (h : secureFromProvider k ctx b w provider amount duration = .ok (b', w')) :
    UnbondingWrites k w w' := by
  unfold secureFromProvider at h
  split at h
  · cases h
    exact .refl
  · simp only [run_eq_ok] at h
    obtain ⟨-, h⟩ := h
    split at h
    · obtain ⟨b1, -, h⟩ := bind_eq_ok.mp h
      split at h
      · simp only [delayUnbonding, run_eq_ok] at h
        obtain ⟨w1, ⟨⟨remaining, w2⟩, hloop, -, rfl⟩, heq⟩ := h
        cases heq
        exact delayUnbondingLoop_writes _ hloop
      · cases h
        exact .refl
    · cases h
      exact .refl

lemma secureLoop_writes {ratio : Int} (providers : List Provider)
    {remaining : Int} {b b' : CollateralBook}
    (h : secureLoop k ctx ratio duration providers remaining b w = .ok (b', w')) :
    UnbondingWrites k w w' := by
  induction providers generalizing remaining b w with
  | nil =>
    cases h
    exact .refl
  | cons provider providers ih =>
    obtain ⟨⟨b1, w1⟩, hsecure, hrest⟩ := bind_eq_ok.mp h
    exact (secureFromProvider_writes hsecure).trans (ih hrest)

lemma secureCollaterals_writes {s s' : ShieldState σ} {poolID : Nat} {purchaser : AccAddress}
    {purchaseID : Nat} {loss : Coins}
    (h : secureCollaterals k ctx s poolID purchaser purchaseID loss duration = .ok s') :
    UnbondingWrites k s.world s'.world := by
  simp only [secureCollaterals, run_eq_ok] at h
  obtain ⟨_, -, -, -, _, -, _, -, -, _, -, ⟨b, w⟩, hloop, rfl⟩ := h
  exact secureLoop_writes _ hloop

end Secure

section Payout

variable {k : Keepers σ} {params : PoolParams} {ctx : Ctx}

variable {w w' : σ} {b b' : CollateralBook}

lemma undelegateToShield_writes {m : ModuleName} {delAddr : AccAddress} {amt : Coins}
    (hm : m = .bondedPool ∨ m = .notBondedPool)
    (h : undelegateFromAccountToShieldModule k w m delAddr amt = .ok w') :
    DelegationWrites k w w' := by
  simp only [undelegateFromAccountToShieldModule, run_eq_ok] at h
  obtain ⟨w1, htrack, hsend⟩ := h
  exact (Relation.ReflTransGen.single (.track htrack)).tail (.collect hm hsend)

lemma jailBelowMinSelfDelegation_writes {valAddr : ValAddress} {v v' : Validator} {d : Delegation}
    (h : jailBelowMinSelfDelegation k w valAddr v d = .ok (w', v')) : DelegationWrites k w w' := by
  unfold jailBelowMinSelfDelegation at h
  split at h
  · obtain ⟨tokens, -, h⟩ := bind_eq_ok.mp h
    split at h
    · simp only [run_eq_ok] at h
      obtain ⟨v1, -, heq⟩ := h
      cases heq
      exact (Relation.ReflTransGen.single (.setValidator _)).tail (.deleteValidatorByPowerIndex _)
    · cases h
      exact Relation.ReflTransGen.refl
  · cases h
    exact Relation.ReflTransGen.refl

lemma updateDelegationRecord_writes {d : Delegation}
    (h : updateDelegationRecord k params ctx b w d = .ok (b', w')) : DelegationWrites k w w' := by
  unfold updateDelegationRecord at h
  split at h
  · simp only [run_eq_ok] at h
    obtain ⟨b1, -, heq⟩ := h
    cases heq
    exact (Relation.ReflTransGen.single (.beforeRemoved _ _)).tail (.removeDelegation _)
  · simp only [run_eq_ok] at h
    obtain ⟨b1, -, heq⟩ := h
    cases heq
    exact (Relation.ReflTransGen.single (.setDelegation _)).tail (.afterModified _ _)

lemma undelegateShares_writes {delAddr : AccAddress} {valAddr : ValAddress} {shares : Int}
    (h : undelegateShares k params ctx b w delAddr valAddr shares = .ok (b', w')) :
    DelegationWrites k w w' := by
  simp only [undelegateShares, run_eq_ok, orPanic_eq_ok] at h
  obtain ⟨d, -, v, -, ⟨w1, v1⟩, hjail, ⟨b1, w2⟩, hrecord, coins, -, w3, hsend, heq⟩ := h
  cases heq
  have hstaking : DelegationWrites k w (k.removeValidatorTokensAndShares w2 v1 shares).1 :=
    (((Relation.ReflTransGen.single (DelegationWrite.beforeShares delAddr valAddr)).trans
      (jailBelowMinSelfDelegation_writes hjail)).trans
      (updateDelegationRecord_writes hrecord)).tail (DelegationWrite.removeTokens v1 shares)
  refine hstaking.trans ?_
  have hpool : ∀ status : BondStatus,
      (if status = .bonded then ModuleName.bondedPool else .notBondedPool) = .bondedPool ∨
      (if status = .bonded then ModuleName.bondedPool else .notBondedPool) = .notBondedPool := by
    intro status
    split
    · exact .inl rfl
    · exact .inr rfl
  split at hsend
  · exact (Relation.ReflTransGen.single (DelegationWrite.removeValidator _)).trans
      (undelegateToShield_writes (hpool _) hsend)
  · exact undelegateToShield_writes (hpool _) hsend

lemma payFromDelegationLoop_writes {payoutRatio : Int} (dels : List Delegation) {remaining : Int}
    (h : payFromDelegationLoop k params ctx payoutRatio dels remaining b w = .ok (b', w')) :
    DelegationWrites k w w' := by
  induction dels generalizing remaining b w with
  | nil =>
    cases h
    exact .refl
  | cons del dels ih =>
    unfold payFromDelegationLoop at h
    split at h
    · simp only [bind_eq_ok] at h
      obtain ⟨val, -, tokens, -, ubdShares, -, ⟨b1, w1⟩, hstep, hrest⟩ := h
      exact (undelegateShares_writes hstep).trans (ih hrest)
    · cases h
      exact .refl

lemma reduceUnbonding_writes (w : σ) (unbonding : UnbondingDelegation) (ubd : UnbondingPart)
    (payout : Int) : UnbondingWrites k w (reduceUnbonding k w unbonding ubd payout) := by
  unfold reduceUnbonding
  dsimp only
  have hslice : ∀ (c1 c2 : Prop) [Decidable c1] [Decidable c2] (t : Time) (pairs : List DVPair),
      UnbondingWrites k w (if c1 then (if c2 then k.setUBDQueueTimeSlice w t pairs else w)
        else k.removeUBDQueue w t) := by
    intro c1 c2 _ _ t pairs
    split
    · split
      · exact .single (.setSlice _ _)
      · exact .refl
    · exact .single (.removeSlice _)
  split
  · split
    · split
      · exact (hslice _ _ _ _).tail (.removeUnbonding _)
      · exact (hslice _ _ _ _).tail (.setUnbonding _)
    · exact .single (.setUnbonding _)
  · exact .refl

lemma payFromUnbondingsLoop_writes (ubds : List UnbondingPart) {uncovered payout unpaid : Int}
    (h : payFromUnbondingsLoop k ubds uncovered payout w = .ok (unpaid, w')) :
    KeeperWrites k w w' := by
  induction ubds generalizing uncovered payout w with
  | nil =>
    cases h
    exact .refl
  | cons ubd ubds ih =>
    unfold payFromUnbondingsLoop at h
    split at h
    · dsimp only at h
      split at h
      · exact ih h
      · obtain ⟨w1, hpay, hrest⟩ := bind_eq_ok.mp h
        simp only [payFromUnbondings, bind_eq_ok, orPanic_eq_ok] at hpay
        obtain ⟨unbonding, -, coins, -, hsend⟩ := hpay
        exact ((UnbondingWrites.keeper (reduceUnbonding_writes w unbonding ubd _)).trans
          (DelegationWrites.keeper (undelegateToShield_writes (.inr rfl) hsend))).trans (ih hrest)
    · cases h
      exact .refl

lemma makePayoutFromDelegations_writes {addr : AccAddress} {payout : Int}
    (h : makePayoutFromDelegations k params ctx b w addr payout = .ok (b', w')) :
    DelegationWrites k w w' := by
  unfold makePayoutFromDelegations at h
  split at h
  · simp only [payFromDelegation, bind_eq_ok] at h
    obtain ⟨_, -, _, -, hloop⟩ := h
    exact payFromDelegationLoop_writes _ hloop
  · cases h
    exact .refl

lemma makePayoutByProviderDelegations_writes {addr : AccAddress} {purchased payout : Int}
    (h : makePayoutByProviderDelegations k params ctx b w addr purchased payout = .ok (b', w')) :
    KeeperWrites k w w' := by
  simp only [makePayoutByProviderDelegations, run_eq_ok] at h
  obtain ⟨provider, -, ⟨b1, w1⟩, hdel, w2, hunbonding, heq⟩ := h
  cases heq
  refine (DelegationWrites.keeper (makePayoutFromDelegations_writes hdel)).trans ?_
  unfold makePayoutFromUnbondings at hunbonding
  split at hunbonding
  · cases hunbonding
    exact .refl
  · simp only [run_eq_ok] at hunbonding
    obtain ⟨⟨unpaid, w3⟩, hloop, -, rfl⟩ := hunbonding
    exact payFromUnbondingsLoop_writes _ hloop

lemma payProviders_writes {purchaseRatio payoutRatio : Int} (providers : List Provider)
    {totalPurchased totalPayout unpaid : Int}
    (h : payProviders k params ctx purchaseRatio payoutRatio providers totalPurchased totalPayout b
      w = .ok (unpaid, b', w')) : KeeperWrites k w w' := by
  induction providers generalizing totalPurchased totalPayout b w with
  | nil =>
    cases h
    exact .refl
  | cons provider providers ih =>
    unfold payProviders at h
    split at h
    · simp only [bind_eq_ok, orPanic_eq_ok] at h
      obtain ⟨b1, -, ⟨b2, w1⟩, hmake, hrest⟩ := h
      exact (makePayoutByProviderDelegations_writes hmake).trans (ih hrest)
    · cases h
      exact .refl

lemma createReimbursement_writes {s s' : ShieldState σ} {proposalID : Nat} {amount : Coins}
    {beneficiary : AccAddress}
    (h : createReimbursement k ctx s proposalID amount beneficiary = .ok s') :
    KeeperWrites k s.world s'.world := by
  simp only [createReimbursement, run_eq_ok] at h
  obtain ⟨_, -, _, -, ⟨unpaid, b, w⟩, hpay, -, rfl⟩ := h
  exact payProviders_writes _ hpay

end Payout

lemma ShieldMove.writes {rules : MoveRules} {ctx : Ctx} {s s' : ShieldState σ}
    (hmove : ShieldMove k rules ctx s s') : KeeperWrites k s.world s'.world := by
  cases hmove with
  | paid _ _ _ _ hsend _ => exact .single (.receive hsend)
  | staked _ _ _ _ hsend => exact .single (.receive hsend)
  | @refund staked purchaseID amount _ _ _ _ =>
    cases hsend : k.sendCoinsFromModuleToAccount s.world .shield staked.purchaser
      (Coins.ofAmount k.bondDenom amount) with
    | none => exact .refl
    | some w => exact .single (.pay hsend)
  | payRewards _ hsend => exact .single (.pay hsend)
  | reimburse _ hsend => exact .single (.pay hsend)
  | fund _ hsend _ => exact .single (.receive hsend)
  | _ => exact .refl

lemma ShieldMoves.writes {rules : MoveRules} {ctx : Ctx} {s s' : ShieldState σ}
    (h : ShieldMoves k rules ctx s s') : KeeperWrites k s.world s'.world := by
  induction h with
  | refl => exact .refl
  | tail _ hmove ih => exact ih.trans hmove.writes

end Shentu
