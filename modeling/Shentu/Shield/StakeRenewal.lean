import Shentu.Shield.StakingPool

/-!
The renewal of a stake whose owner has asked for a part of it back. The expiry refunds the stake
and is to stake again what was not asked back. The renewed purchase is priced from the whole
stake, so a stake that is asked back in part can be staked again in full.
-/

namespace Shentu

open Lib Table Coins Option

variable {σ : Type} {k : Keepers σ} {ctx : Ctx} {s s' : ShieldState σ} {poolID purchaseID : Nat}
  {purchaser : AccAddress} {staked : ShieldStaking} {amount : Int}

/-- The liquid balances in the bond denomination: the supply keeper moves what it is asked to. -/
structure StakeBank (k : Keepers σ) (balance : σ → AccAddress → Int) : Prop where
  take : ∀ {w w' : σ} {a : AccAddress} {x : Int},
    k.sendCoinsFromAccountToModule w a .shield (Coins.ofAmount k.bondDenom x) = some w' →
    balance w' a = balance w a - x
  refund : ∀ {w w' : σ} {a : AccAddress} {x : Int},
    k.sendCoinsFromModuleToAccount w .shield a (Coins.ofAmount k.bondDenom x) = some w' →
    balance w' a = balance w a + x

/-- What the renewal of a stake costs. -/
def renewalPrice (params : ShieldParams) (amount : Int) : Int :=
  Dec.truncateInt (Dec.mulInt params.shieldStakingRate (renewedShield params amount))

/-- What an expiry stakes again, from the global staking pool before and after it. -/
def restaked (before after : StakeBook) (amount : Int) : Int :=
  after.globalStakingPool - (before.globalStakingPool - amount)

def requestedOf (b : StakeBook) (poolID : Nat) (purchaser : AccAddress) : Int :=
  b.stakeForShields.valueAt ShieldStaking.withdrawRequested (poolKey poolID purchaser)

/-- The stake is returned, at most what was not asked back is staked again, and the request is
served. -/
def RespectsRequest (balance : σ → AccAddress → Int) (s s' : ShieldState σ) (poolID : Nat)
    (purchaser : AccAddress) (requested amount : Int) : Prop :=
  balance s'.world purchaser =
      balance s.world purchaser + amount - restaked s.stakes s'.stakes amount ∧
    restaked s.stakes s'.stakes amount ≤ max 0 (amount - requested) ∧
    balance s.world purchaser + min amount requested ≤ balance s'.world purchaser ∧
    requestedOf s'.stakes poolID purchaser = requested - min amount requested

lemma requestedOf_release (hget : s.stakes.getStakeForShield poolID purchaser = some staked)
    (hle : staked.withdrawRequested ≤ staked.amount) :
    requestedOf (s.stakes.release staked purchaseID amount) poolID purchaser =
      staked.withdrawRequested - min amount staked.withdrawRequested := by
  have hkey : staked.key = poolKey poolID purchaser := key_of_get hget
  unfold requestedOf StakeBook.release
  split
  · rw [valueAt_delete, if_pos hkey.symm]
    omega
  · rw [min_comm amount]
    exact (valueAt_set _ _ _ _).trans (if_pos hkey.symm)

lemma requestedOf_add (b : StakeBook) (id : Nat) (x : Int) :
    requestedOf (b.add poolID purchaser id x) poolID purchaser =
      requestedOf b poolID purchaser := by
  unfold requestedOf StakeBook.add StakeBook.newStaking
  cases hget : b.getStakeForShield poolID purchaser with
  | none =>
    rw [valueAt_of_get_none hget]
    exact (valueAt_set _ _ _ _).trans (if_pos rfl)
  | some sFS =>
    have hkey : sFS.key = poolKey poolID purchaser := key_of_get hget
    rw [valueAt_of_get hget]
    exact (valueAt_set _ _ _ _).trans (if_pos hkey.symm)

lemma checkPurchase_error {shield fees stake : Coins} {f : Fault}
    (h : checkPurchase k s poolID shield fees stake = .error f) : ∃ e, f = .error e := by
  simp only [checkPurchase, orFail, failIf, bind, Except.bind, pure, Except.pure] at h
  repeat' split at h
  all_goals grind

/-- A staking purchase is refused: the shield is too small, the checks fail, or the purchaser cannot
pay the stake. -/
def StakingRefused (k : Keepers σ) (s : ShieldState σ) (poolID : Nat) (purchaser : AccAddress)
    (shield : Coins) : Prop :=
  let stake := Coins.ofAmount k.bondDenom (purchasePrice k s.params shield true)
  Coins.isAnyGT s.params.pool.minShieldPurchase shield = true ∨
    (∀ pool, checkPurchase k s poolID shield [] stake ≠ .ok pool) ∨
    k.sendCoinsFromAccountToModule s.world purchaser .shield stake = none

/-- A staking purchase that is refused moves nothing, and any other one takes its price. -/
inductive StakingEnds (k : Keepers σ) (s : ShieldState σ) (poolID : Nat) (purchaser : AccAddress)
    (shield : Coins) (s' : ShieldState σ) : Prop
  | refused (h : StakingRefused k s poolID purchaser shield) (hstakes : s'.stakes = s.stakes)
      (hworld : s'.world = s.world)
  | accepted (h : ¬ StakingRefused k s poolID purchaser shield)
      (hsend : k.sendCoinsFromAccountToModule s.world purchaser .shield
        (Coins.ofAmount k.bondDenom (purchasePrice k s.params shield true)) = some s'.world)
      (hstakes : s'.stakes = s.stakes.add poolID purchaser s.cover.nextPurchaseID
        (purchasePrice k s.params shield true))

/-- A staking purchase of a shield that is not negative does not panic. -/
lemma purchaseShield_ends {x : Int} (hx : 0 ≤ x) (hrate : 0 < s.params.shieldStakingRate)
    (description : String) : ∃ s', (purchaseShield k ctx s poolID (Coins.ofAmount k.bondDenom x)
      description purchaser true).ignoreError = .ok s' ∧
      StakingEnds k s poolID purchaser (Coins.ofAmount k.bondDenom x) s' := by
  have hprice : newCoins k.bondDenom
      (purchasePrice k s.params (Coins.ofAmount k.bondDenom x) true) = .ok _ :=
    newCoins_eq_ok.mpr ⟨Dec.truncateInt_nonneg (by
      rw [amountOf_ofAmount_self]
      exact mul_nonneg hrate.le hx), rfl⟩
  unfold purchaseShield
  split
  · rename_i hsmall
    exact ⟨s, rfl, .refused (.inl hsmall) rfl rfl⟩
  · rename_i hlarge
    simp only [hprice, if_true, purchaseShieldWith]
    split
    · rename_i f hcheck
      obtain ⟨e, rfl⟩ := checkPurchase_error hcheck
      refine ⟨s, rfl, .refused (.inr (.inl ?_)) rfl rfl⟩
      rw [hcheck]
      nofun
    · rename_i pool hcheck
      obtain rfl : pool.id = poolID := key_of_get (checkPurchase_cases hcheck).1
      cases hsend : k.sendCoinsFromAccountToModule s.world purchaser .shield (Coins.ofAmount
        k.bondDenom (purchasePrice k s.params (Coins.ofAmount k.bondDenom x) true)) with
      | none =>
        refine ⟨takePurchaseID s, ?_, .refused (.inr (.inr hsend)) rfl rfl⟩
        simp [recordPurchase, payPurchase, addStaking, amountOf_ofAmount_self, hprice,
          takePurchaseID, hsend, orFail, bind, Except.bind, Written.ignoreError]
      | some world =>
        have haccepted : ¬ StakingRefused k s pool.id purchaser (Coins.ofAmount k.bondDenom x) := by
          rintro (hsmall | hfails | hpoor)
          · exact hlarge hsmall
          · exact hfails pool hcheck
          · cases hsend.symm.trans hpoor
        simp only [recordPurchase, payPurchase, addStaking, amountOf_ofAmount_self, hprice,
          takePurchaseID, hsend, orFail, bind, Except.bind, pure, Except.pure, Written.ignoreError,
          newDecCoinsFromCoins, DecCoins.ofCoins_nil]
        exact ⟨_, rfl, .accepted haccepted hsend rfl⟩

/-- An expiry returns. A stake that is asked back in full is refunded, and any other one is renewed
after its refund. -/
lemma expiry_ends (k : Keepers σ) (ctx : Ctx)
    (hget : s.stakes.getStakeForShield poolID purchaser = some staked)
    (hpos : 0 < s.stakes.getOriginalStaking purchaseID) (hrate : 0 < s.params.shieldStakingRate) :
    ∃ s', processStakeForShieldExpiration k ctx s poolID purchaseID purchaser = .ok s' ∧
      (s' = s.refunded k staked purchaseID purchaser ∧
        s.stakes.getOriginalStaking purchaseID ≤ staked.withdrawRequested ∨
      staked.withdrawRequested < s.stakes.getOriginalStaking purchaseID ∧
        StakingEnds k (s.refunded k staked purchaseID purchaser) poolID purchaser
          (Coins.ofAmount k.bondDenom
            (renewedShield s.params (s.stakes.getOriginalStaking purchaseID))) s') := by
  have hshield : 0 ≤ renewedShield s.params (s.stakes.getOriginalStaking purchaseID) :=
    Dec.truncateInt_nonneg (Dec.quo_nonneg (mul_nonneg hpos.le (by decide)) hrate.le)
  have hrefund := newCoins_eq_ok (d := k.bondDenom).mpr ⟨hpos.le, rfl⟩
  have hcoins := newCoins_eq_ok (d := k.bondDenom).mpr ⟨hshield, rfl⟩
  unfold renewedShield at hcoins
  unfold processStakeForShieldExpiration
  simp only [hget, if_neg hpos.ne', refundStake, renewStake, decQuo, if_neg hrate.ne', hrefund,
    hcoins, bind, Except.bind, pure, Except.pure]
  split
  · exact ⟨_, rfl, .inl ⟨rfl, by omega⟩⟩
  · split
    · rename_i hzero
      refine ⟨_, rfl, .inr ⟨by omega, .refused (.inr (.inl fun pool hcheck => ?_)) rfl rfl⟩⟩
      -- A shield of zero has no coins.
      simp only [checkPurchase, run_eq_ok] at hcheck
      obtain ⟨-, -, -, hnone, -⟩ := hcheck
      unfold renewedShield at hnone
      rw [hzero] at hnone
      exact hnone rfl
    · obtain ⟨s', hs', hends⟩ := @purchaseShield_ends σ k ctx
        (s.refunded k staked purchaseID purchaser) poolID purchaser _ hshield hrate
        ("renewed from PurchaseID " ++ toString purchaseID)
      exact ⟨s', hs', .inr ⟨by omega, hends⟩⟩

section Respect

variable {balance : σ → AccAddress → Int} (hbank : StakeBank k balance)
  (hget : s.stakes.getStakeForShield poolID purchaser = some staked)
  (hle : staked.withdrawRequested ≤ staked.amount)
  (hamount : s.stakes.getOriginalStaking purchaseID = amount) (hpos : 0 < amount)
include hbank hget hle hamount hpos

/-- A refund without a renewal respects the request exactly if it is paid. -/
lemma respects_refunded (hstakes : s'.stakes = s.stakes.release staked purchaseID amount)
    (hworld : s'.world = (s.refunded k staked purchaseID purchaser).world) :
    RespectsRequest balance s s' poolID purchaser staked.withdrawRequested amount ↔
      (k.sendCoinsFromModuleToAccount s.world .shield purchaser
        (Coins.ofAmount k.bondDenom amount)).isSome = true := by
  have hrestaked : restaked s.stakes s'.stakes amount = 0 := by
    simp [hstakes, restaked, StakeBook.release]
  have hrequested : requestedOf s'.stakes poolID purchaser = _ :=
    (congrArg (requestedOf · poolID purchaser) hstakes).trans (requestedOf_release hget hle)
  unfold RespectsRequest
  simp only [hrestaked, hrequested, hworld, ShieldState.refunded, hamount]
  cases hrefund : k.sendCoinsFromModuleToAccount s.world .shield purchaser
    (Coins.ofAmount k.bondDenom amount) with
  | none => simp; omega
  | some w =>
    have hback := hbank.refund hrefund
    simp; omega

/-- A refund with a renewal respects the request exactly if it is paid and the renewal leaves what
is asked back. -/
lemma respects_renewed {id : Nat} (hpart : staked.withdrawRequested < amount)
    (hsend : k.sendCoinsFromAccountToModule (s.refunded k staked purchaseID purchaser).world
      purchaser .shield (Coins.ofAmount k.bondDenom (renewalPrice s.params amount)) =
        some s'.world)
    (hstakes : s'.stakes = (s.stakes.release staked purchaseID amount).add poolID purchaser id
      (renewalPrice s.params amount)) :
    RespectsRequest balance s s' poolID purchaser staked.withdrawRequested amount ↔
      (k.sendCoinsFromModuleToAccount s.world .shield purchaser
        (Coins.ofAmount k.bondDenom amount)).isSome = true ∧
      renewalPrice s.params amount ≤ amount - staked.withdrawRequested := by
  have hrestaked : restaked s.stakes s'.stakes amount = renewalPrice s.params amount := by
    simp [hstakes, restaked, StakeBook.add, StakeBook.release]
  have hrequested : requestedOf s'.stakes poolID purchaser = _ :=
    (congrArg (requestedOf · poolID purchaser) hstakes).trans
      ((requestedOf_add _ _ _).trans (requestedOf_release hget hle))
  have hpaid := hbank.take hsend
  unfold RespectsRequest
  rw [hrestaked, hrequested, min_eq_right hpart.le,
    max_eq_right (by omega : 0 ≤ amount - staked.withdrawRequested)]
  simp only [ShieldState.refunded, hamount] at hpaid
  cases hrefund : k.sendCoinsFromModuleToAccount s.world .shield purchaser
    (Coins.ofAmount k.bondDenom amount) with
  | none =>
    rw [hrefund, getD_none] at hpaid
    exact iff_of_false (by omega) (by simp)
  | some w =>
    rw [hrefund, getD_some] at hpaid
    have hback := hbank.refund hrefund
    simp only [isSome_some, true_and]
    exact ⟨fun h => h.2.1, fun h => ⟨by omega, h, by omega, trivial⟩⟩

end Respect

/-- An expiry returns and respects the request exactly if the module can pay the refund and there is
no renewal, or its price leaves what is asked back. -/
theorem renewal_respects_request_iff {balance : σ → AccAddress → Int} (hbank : StakeBank k balance)
    (hget : s.stakes.getStakeForShield poolID purchaser = some staked)
    (hle : staked.withdrawRequested ≤ staked.amount)
    (hamount : s.stakes.getOriginalStaking purchaseID = amount) (hpos : 0 < amount)
    (hrate : 0 < s.params.shieldStakingRate) :
    (∃ s', processStakeForShieldExpiration k ctx s poolID purchaseID purchaser = .ok s' ∧
      RespectsRequest balance s s' poolID purchaser staked.withdrawRequested amount) ↔
    (k.sendCoinsFromModuleToAccount s.world .shield purchaser
      (Coins.ofAmount k.bondDenom amount)).isSome = true ∧
    (amount ≤ staked.withdrawRequested ∨
      StakingRefused k (s.refunded k staked purchaseID purchaser) poolID purchaser
        (Coins.ofAmount k.bondDenom (renewedShield s.params amount)) ∨
      renewalPrice s.params amount ≤ amount - staked.withdrawRequested) := by
  obtain ⟨s', hs', hends⟩ := expiry_ends k ctx hget (hamount ▸ hpos) hrate
  have hreturns : (∃ s', processStakeForShieldExpiration k ctx s poolID purchaseID purchaser =
      .ok s' ∧ RespectsRequest balance s s' poolID purchaser staked.withdrawRequested amount) ↔
      RespectsRequest balance s s' poolID purchaser staked.withdrawRequested amount := by
    simp [hs']
  rw [hreturns]
  rw [hamount] at hends
  rcases hends with ⟨rfl, hall⟩ | ⟨hpart, ⟨hrefused, hstakes, hworld⟩ | ⟨haccepted, hsend, hstakes⟩⟩
  · rw [respects_refunded hbank hget hle hamount hpos (by rw [← hamount]; rfl) rfl]
    tauto
  · rw [respects_refunded hbank hget hle hamount hpos (by rw [hstakes, ← hamount]; rfl) hworld]
    tauto
  · have hcost : purchasePrice k (s.refunded k staked purchaseID purchaser).params
        (Coins.ofAmount k.bondDenom (renewedShield s.params amount)) true =
        renewalPrice s.params amount := by
      simp [purchasePrice, renewalPrice, amountOf_ofAmount_self, ShieldState.refunded]
    rw [hcost] at hsend hstakes
    rw [respects_renewed hbank hget hle hamount hpos hpart hsend
      (by rw [hstakes, ← hamount]; rfl)]
    have hneeded : ¬ amount ≤ staked.withdrawRequested := by omega
    tauto

lemma stakeBank_ledger : StakeBank ledgerKeepers Ledger.account where
  take h := by
    obtain ⟨-, heq⟩ := ite_none_right_eq_some.mp h
    cases heq
    simp [Ledger.addPooled, Ledger.addAccount, Ledger.moved, amountOf_ofAmount_self,
      ledgerKeepers, sub_eq_add_neg]
  refund h := by
    obtain ⟨-, heq⟩ := ite_none_right_eq_some.mp h
    cases heq
    simp [Ledger.addPooled, Ledger.addAccount, Ledger.moved, amountOf_ofAmount_self,
      ledgerKeepers]

/-- Purchaser 5 has staked 20 for a shield of 10. -/
def staked20 : ShieldState Ledger :=
  (purchaseShield ledgerKeepers ⟨10, 200⟩ onePool 1 [⟨microCTKDenom, 10⟩] "shop" 5 true).1

/-- Nothing is asked back, and all 20 are staked again. -/
theorem renewal_respects_no_request :
    ∃ s', processStakeForShieldExpiration ledgerKeepers ⟨110, 300⟩ staked20 1 1 5 = .ok s' ∧
      RespectsRequest Ledger.account staked20 s' 1 5 0 20 := by
  have hget : staked20.stakes.getStakeForShield 1 5 = some ⟨1, 5, 20, 0⟩ := by decide +kernel
  refine (renewal_respects_request_iff stakeBank_ledger hget (by decide) (by decide +kernel)
    (by decide) (by decide +kernel)).mpr ⟨?_, .inr (.inr ?_)⟩
  · decide +kernel
  · decide +kernel

/-- Of 20 staked coins 8 are asked back: all 20 are staked again, the purchaser gets nothing, and
the request is gone. -/
theorem renewal_ignores_request :
    ∃ s, unstakeFromShield staked20 1 5 8 = .ok s ∧
      ∃ s', processStakeForShieldExpiration ledgerKeepers ⟨110, 300⟩ s 1 1 5 = .ok s' ∧
        restaked s.stakes s'.stakes 20 = 20 ∧ s'.world.account 5 = s.world.account 5 ∧
        requestedOf s.stakes 1 5 = 8 ∧ requestedOf s'.stakes 1 5 = 0 := by
  obtain ⟨s, hs, hexpire⟩ := OkAnd.exists (show OkAnd (unstakeFromShield staked20 1 5 8)
    (fun s => OkAnd (processStakeForShieldExpiration ledgerKeepers ⟨110, 300⟩ s 1 1 5) (fun s' =>
      restaked s.stakes s'.stakes 20 = 20 ∧ s'.world.account 5 = s.world.account 5 ∧
        requestedOf s.stakes 1 5 = 8 ∧ requestedOf s'.stakes 1 5 = 0)) from by decide +kernel)
  exact ⟨s, hs, hexpire.exists⟩

end Shentu
