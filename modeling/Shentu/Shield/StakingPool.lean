import Shentu.Shield.Purchase
import Shentu.Shield.Ledger
import Shentu.Shield.Withdraw

/-!
Three records of the staked coins: the global staking pool, one record for each
pool and purchaser, and one for each purchase. A record of a purchase holds only
the purchase ID, so a run carries along who owns which purchase. All three agree
along every run, also when a renewal fails after the refund.
-/

namespace Shentu

open Lib Table Relation StakeBook

variable {σ : Type}

/-- The pool and the purchaser of the purchases that were made with a stake. -/
abbrev Owners := Nat → Option (Nat × AccAddress)

/-- A stake that a call has recorded belongs to the pool and purchaser of the call. -/
def Owners.extend (own : Owners) (before after : StakeBook) (pair : Nat × AccAddress) : Owners :=
  fun id =>
    if before.getOriginalStaking id = 0 ∧ after.getOriginalStaking id ≠ 0 then some pair else own id

/-- The sum of the original stakings of a purchaser's purchases in a pool. -/
def ownedStake (own : Owners) (b : StakeBook) (poolID : Nat) (purchaser : AccAddress) : Int :=
  b.originalStakings.total
    (fun os => if own os.purchaseID = some (poolID, purchaser) then os.amount else 0)

/-- One staking purchase, unstake request or expiry of a stake, or a change of the rest of
the state. A purchase or a renewal counts with what it has written, also if it fails. -/
inductive StakeStep (k : Keepers σ) : ShieldState σ × Owners → ShieldState σ × Owners → Prop
  | stake {s s' : ShieldState σ} {own : Owners} {ctx : Ctx} {poolID : Nat} {shield : Coins}
      {description : String} {purchaser : AccAddress} {r : Except Fault Purchase} :
      purchaseShield k ctx s poolID shield description purchaser true = (s', r) →
      StakeStep k (s, own) (s', own.extend s.stakes s'.stakes (poolID, purchaser))
  | unstake {s s' : ShieldState σ} {own : Owners} {poolID : Nat} {purchaser : AccAddress}
      {amount : Int} :
      unstakeFromShield s poolID purchaser amount = .ok s' → StakeStep k (s, own) (s', own)
  | expire {s s' : ShieldState σ} {own : Owners} {ctx : Ctx} {poolID purchaseID : Nat}
      {purchaser : AccAddress} :
      (s.stakes.getOriginalStaking purchaseID ≠ 0 → own purchaseID = some (poolID, purchaser)) →
      processStakeForShieldExpiration k ctx s poolID purchaseID purchaser = .ok s' →
      StakeStep k (s, own) (s', own.extend s.stakes s'.stakes (poolID, purchaser))
  | other {s s' : ShieldState σ} {own : Owners} :
      s'.stakes = s.stakes → s.cover.nextPurchaseID ≤ s'.cover.nextPurchaseID →
      StakeStep k (s, own) (s', own)

/-- The three records of the stakes agree. -/
structure StakesAgree (own : Owners) (b : StakeBook) : Prop where
  records : b.globalStakingPool = b.stakeForShields.total ShieldStaking.amount
  originals : b.globalStakingPool = b.originalStakings.total OriginalStaking.amount
  owned : ∀ poolID purchaser, b.stakeForShields.valueAt ShieldStaking.amount
    (poolKey poolID purchaser) = ownedStake own b poolID purchaser
  absent : ∀ poolID purchaser, b.getStakeForShield poolID purchaser = none ↔
    ownedStake own b poolID purchaser = 0

/-- What a run keeps. Every original staking is positive and belongs to a purchase ID that is
taken, and no record of a purchaser is zero. -/
structure StakesKept (own : Owners) (next : Nat) (b : StakeBook) : Prop where
  records : b.globalStakingPool = b.stakeForShields.total ShieldStaking.amount
  originals : b.globalStakingPool = b.originalStakings.total OriginalStaking.amount
  owned : ∀ poolID purchaser, b.stakeForShields.valueAt ShieldStaking.amount
    (poolKey poolID purchaser) = ownedStake own b poolID purchaser
  nonzero : ∀ r ∈ b.stakeForShields.rows, r.amount ≠ 0
  positive : ∀ os ∈ b.originalStakings.rows, 0 < os.amount
  taken : ∀ os ∈ b.originalStakings.rows, os.purchaseID < next

namespace StakesKept

variable {own own' : Owners} {next : Nat} {b : StakeBook}

lemma ownedStake_nonneg (h : StakesKept own next b) (poolID : Nat) (purchaser : AccAddress) :
    0 ≤ ownedStake own b poolID purchaser := by
  refine total_nonneg ?_
  intro os hos
  split
  · exact (h.positive os hos).le
  · exact le_refl 0

lemma agree (h : StakesKept own next b) : StakesAgree own b := by
  refine ⟨h.records, h.originals, h.owned, ?_⟩
  intro poolID purchaser
  have howned := h.owned poolID purchaser
  constructor
  · intro hnone
    rw [← howned, valueAt_of_get_none hnone]
  · intro hzero
    cases hget : b.getStakeForShield poolID purchaser with
    | none => rfl
    | some r =>
      rw [valueAt_of_get hget, hzero] at howned
      exact absurd howned (h.nonzero r (mem_of_get hget))

lemma congr (h : StakesKept own next b)
    (hsame : ∀ os ∈ b.originalStakings.rows, own' os.purchaseID = own os.purchaseID) :
    StakesKept own' next b := by
  refine ⟨h.records, h.originals, ?_, h.nonzero, h.positive, h.taken⟩
  intro poolID purchaser
  rw [h.owned]
  refine total_congr ?_
  intro os hos
  rw [hsame os hos]

lemma mono {next' : Nat} (h : StakesKept own next b) (hle : next ≤ next') :
    StakesKept own next' b :=
  ⟨h.records, h.originals, h.owned, h.nonzero, h.positive,
    fun os hos => lt_of_lt_of_le (h.taken os hos) hle⟩

lemma get_next (h : StakesKept own next b) : b.originalStakings.get next = none := by
  refine get_eq_none_iff.mpr ?_
  intro os hos heq
  exact absurd (h.taken os hos) (by omega)

/-- A stake for the next purchase ID. -/
lemma add (h : StakesKept own next b) {poolID : Nat} {purchaser : AccAddress} {amount : Int}
    (hamount : 0 < amount) (hnew : own next = some (poolID, purchaser)) :
    StakesKept own (next + 1) (b.add poolID purchaser next amount) := by
  have hkey : (b.newStaking poolID purchaser amount).key = poolKey poolID purchaser := by
    unfold newStaking
    split
    · rfl
    · rename_i sFS hsFS
      have hfound : sFS.key = poolKey poolID purchaser := key_of_get hsFS
      exact hfound
  have hrecord : (b.newStaking poolID purchaser amount).amount =
      b.stakeForShields.valueAt ShieldStaking.amount (poolKey poolID purchaser) + amount := by
    unfold newStaking
    split
    · rename_i hnone
      rw [valueAt_of_get_none hnone, zero_add]
    · rename_i sFS hsFS
      rw [valueAt_of_get hsFS]
  have howned : ∀ poolID' purchaser',
      ownedStake own (b.add poolID purchaser next amount) poolID' purchaser' =
        ownedStake own b poolID' purchaser' +
          if (poolID, purchaser) = (poolID', purchaser') then amount else 0 := by
    intro poolID' purchaser'
    simp only [ownedStake, StakeBook.add, total_set,
      valueAt_of_get_none h.get_next, hnew, Option.some.injEq, sub_zero]
  constructor
  · simp only [StakeBook.add, total_set, hkey, hrecord, h.records]
    omega
  · simp only [StakeBook.add, total_set, valueAt_of_get_none h.get_next, h.originals]
    omega
  · intro poolID' purchaser'
    rw [howned]
    simp only [StakeBook.add, valueAt_set, hkey, hrecord, poolKey_inj, Prod.mk.injEq,
      h.owned, eq_comm]
    split
    · rename_i heq
      rw [heq.1, heq.2]
    · omega
  · intro r hr
    rcases mem_set.mp hr with rfl | ⟨hr', -⟩
    · rw [hrecord, h.owned]
      have hnonneg := h.ownedStake_nonneg poolID purchaser
      omega
    · exact h.nonzero r hr'
  · intro os hos
    rcases mem_set.mp hos with rfl | ⟨hos', -⟩
    · exact hamount
    · exact h.positive os hos'
  · exact forall_mem_set (Nat.lt_succ_self next)
      (fun os hos' => Nat.lt_succ_of_lt (h.taken os hos'))

/-- The refund of an original staking to its owner. -/
lemma release (h : StakesKept own next b) {purchaseID : Nat} {staked : ShieldStaking}
    (hstored : b.stakeForShields.get staked.key = some staked)
    (howner : own purchaseID = some (staked.poolID, staked.purchaser)) :
    StakesKept own next
      (b.release staked purchaseID (b.getOriginalStaking purchaseID)) := by
  have hamount : staked.amount = b.stakeForShields.valueAt ShieldStaking.amount staked.key :=
    (valueAt_of_get hstored _).symm
  have howned : ∀ poolID purchaser,
      ownedStake own (b.release staked purchaseID (b.getOriginalStaking purchaseID)) poolID
        purchaser = ownedStake own b poolID purchaser -
          if (staked.poolID, staked.purchaser) = (poolID, purchaser) then
            b.getOriginalStaking purchaseID else 0 := by
    intro poolID purchaser
    have hpart : b.originalStakings.valueAt
        (fun os => if own os.purchaseID = some (poolID, purchaser) then os.amount else 0)
        purchaseID = if (staked.poolID, staked.purchaser) = (poolID, purchaser) then
            b.getOriginalStaking purchaseID else 0 := by
      unfold getOriginalStaking
      cases hget : b.originalStakings.get purchaseID with
      | none => simp only [valueAt_of_get_none hget, ite_self]
      | some os =>
        have hid : os.purchaseID = purchaseID := key_of_get hget
        simp only [valueAt_of_get hget, hid, howner, Option.some.injEq]
    simp only [ownedStake, StakeBook.release, total_delete, hpart]
  constructor
  · simp only [StakeBook.release, h.records]
    split
    · rw [total_delete, ← hamount]
      omega
    · rw [total_set]
      dsimp only [ShieldStaking.key] at hamount ⊢
      rw [← hamount]
      omega
  · simp only [StakeBook.release, total_delete, h.originals]
    rfl
  · intro poolID purchaser
    have hkept := h.owned poolID purchaser
    rw [howned, ← hkept]
    by_cases hpair : poolKey poolID purchaser = staked.key
    · rw [if_pos (by obtain ⟨rfl, rfl⟩ := poolKey_inj.mp hpair; rfl), hpair, ← hamount]
      simp only [StakeBook.release]
      split
      · rename_i hzero
        rw [valueAt_delete, if_pos rfl, hzero]
      · rw [valueAt_set]
        exact if_pos rfl
    · rw [if_neg (by rintro ⟨⟩; exact hpair rfl), sub_zero]
      simp only [StakeBook.release]
      split
      · rw [valueAt_delete, if_neg hpair]
      · rw [valueAt_set]
        exact if_neg hpair
  · intro r hr
    simp only [StakeBook.release] at hr
    split at hr
    · exact h.nonzero r (mem_delete.mp hr).1
    · rename_i hne
      rcases mem_set.mp hr with rfl | ⟨hr', -⟩
      · exact hne
      · exact h.nonzero r hr'
  · intro os hos
    exact h.positive os (mem_delete.mp hos).1
  · intro os hos
    exact h.taken os (mem_delete.mp hos).1

lemma request (h : StakesKept own next b) {sp : ShieldStaking} {requested : Int}
    (hstored : b.stakeForShields.get sp.key = some sp) :
    StakesKept own next (b.request sp requested) := by
  have hvalue : b.stakeForShields.valueAt ShieldStaking.amount sp.key = sp.amount :=
    valueAt_of_get hstored _
  refine ⟨?_, h.originals, ?_, ?_, h.positive, h.taken⟩
  · simp only [StakeBook.request, h.records, total_set]
    dsimp only [ShieldStaking.key] at hvalue ⊢
    omega
  · intro poolID purchaser
    simp only [StakeBook.request, valueAt_set]
    split
    · rename_i heq
      have hsp := h.owned poolID purchaser
      rw [heq] at hsp
      exact hvalue.symm.trans hsp
    · exact h.owned poolID purchaser
  · exact forall_mem_set (h.nonzero sp (mem_of_get hstored)) h.nonzero

end StakesKept

variable {k : Keepers σ} {ctx : Ctx} {s s' : ShieldState σ} {poolID : Nat}
  {purchaser : AccAddress} {after : StakeBook}

variable {own : Owners}

/-- A staking purchase keeps the records in agreement for owners that are right about the next
purchase and about the recorded ones. -/
lemma StakesKept.purchase {shield : Coins} {description : String} {r : Except Fault Purchase}
    {own' : Owners} (hkept : StakesKept own s.cover.nextPurchaseID s.stakes)
    (h : purchaseShield k ctx s poolID shield description purchaser true = (s', r))
    (hold : ∀ os ∈ s.stakes.originalStakings.rows, own' os.purchaseID = own os.purchaseID)
    (hnew : s'.stakes.getOriginalStaking s.cover.nextPurchaseID ≠ 0 →
      own' s.cover.nextPurchaseID = some (poolID, purchaser)) :
    StakesKept own' s'.cover.nextPurchaseID s'.stakes := by
  have hkept' := hkept.congr hold
  rcases purchaseShield_staked h with rfl | rfl | ⟨pool, world, e, -, hamount, -, rfl⟩
  · exact hkept'
  · exact hkept'.mono (Nat.le_succ _)
  · refine hkept'.add hamount (hnew ?_)
    exact (valueAt_of_get (get_set_self _ _) _).trans_ne hamount.ne'

lemma Owners.extend_of_ne_zero {before : StakeBook} {pair : Nat × AccAddress}
    {id : Nat} (h : before.getOriginalStaking id ≠ 0) : own.extend before after pair id = own id :=
  if_neg (fun hboth => h hboth.1)

lemma StakesKept.extend_eq {next : Nat} {b : StakeBook}
    (h : StakesKept own next b) (pair : Nat × AccAddress) :
    ∀ os ∈ b.originalStakings.rows, own.extend b after pair os.purchaseID = own os.purchaseID := by
  intro os hos
  refine Owners.extend_of_ne_zero ?_
  unfold getOriginalStaking
  rw [valueAt_of_get (get_of_mem hos)]
  exact (h.positive os hos).ne'

lemma StakesKept.extend_next {next : Nat} {b : StakeBook}
    (h : StakesKept own next b) {pair : Nat × AccAddress}
    (hafter : after.getOriginalStaking next ≠ 0) : own.extend b after pair next = some pair :=
  if_pos ⟨valueAt_of_get_none h.get_next _, hafter⟩

/-- The expiry of a stake: a refund, and a renewal that may fail. -/
lemma StakesKept.expire {purchaseID : Nat} (hkept : StakesKept own s.cover.nextPurchaseID s.stakes)
    (howner : s.stakes.getOriginalStaking purchaseID ≠ 0 →
      own purchaseID = some (poolID, purchaser))
    (h : processStakeForShieldExpiration k ctx s poolID purchaseID purchaser = .ok s') :
    StakesKept (own.extend s.stakes s'.stakes (poolID, purchaser)) s'.cover.nextPurchaseID
      s'.stakes := by
  rcases processStakeForShieldExpiration_cases h with ⟨rfl, -⟩ | ⟨staked, hstaked, hamount, hends⟩
  · exact hkept.congr (hkept.extend_eq _)
  · obtain ⟨rfl, rfl, hstored⟩ := getStakeForShield_eq_some hstaked
    have hreleased : StakesKept own s.cover.nextPurchaseID
        (s.refunded k staked purchaseID staked.purchaser).stakes :=
      hkept.release hstored (howner hamount.ne')
    have hold : ∀ os ∈ (s.stakes.originalStakings.delete purchaseID).rows,
        own.extend s.stakes s'.stakes (staked.poolID, staked.purchaser) os.purchaseID =
          own os.purchaseID :=
      fun os hos => hkept.extend_eq _ os (mem_delete.mp hos).1
    rcases hends with rfl | ⟨-, description, rfl⟩
    · exact hreleased.congr hold
    · exact .purchase hreleased rfl hold hkept.extend_next

lemma StakeStep.kept {c c' : ShieldState σ × Owners} (hstep : StakeStep k c c')
    (h : StakesKept c.2 c.1.cover.nextPurchaseID c.1.stakes) :
    StakesKept c'.2 c'.1.cover.nextPurchaseID c'.1.stakes := by
  cases hstep with
  | stake hstake => exact h.purchase hstake (h.extend_eq _) h.extend_next
  | unstake hunstake =>
    simp only [unstakeFromShield, run_eq_ok] at hunstake
    obtain ⟨sp, hsp, -, rfl⟩ := hunstake
    exact h.request (getStakeForShield_eq_some hsp).2.2
  | expire howner hexpire => exact h.expire howner hexpire
  | other hstakes hnext =>
    rw [hstakes]
    exact h.mono hnext

/-- The records of the stakes agree after every run from a state without stakes. -/
theorem stakesAgree_of_run {k : Keepers σ} {s s' : ShieldState σ} {own own' : Owners}
    (hempty : s.stakes = ⟨0, Table.empty, Table.empty⟩)
    (hrun : ReflTransGen (StakeStep k) (s, own) (s', own')) :
    StakesAgree own' s'.stakes := by
  have hkept : ∀ c, ReflTransGen (StakeStep k) (s, own) c →
      StakesKept c.2 c.1.cover.nextPurchaseID c.1.stakes := by
    intro c hrun
    induction hrun with
    | refl =>
      rw [hempty]
      constructor <;> simp [ownedStake, Table.valueAt]
    | tail _ hlast ih => exact hlast.kept ih
  exact (hkept _ hrun).agree

/-- A state with one provider and one open pool, and no purchases. -/
def onePool : ShieldState Ledger :=
  let provider : Provider :=
    { Provider.new 1 with delegationBonded := 100, collateral := 100 }
  let pool : Pool := ⟨1, "", "sponsor", 9, 100, true, 0⟩
  let state := ShieldState.empty shortPeriodParams Ledger.funded
  { state with
    collateral := { providers := ⟨[provider], by simp⟩, withdrawQueue := Table.empty,
                    totalCollateral := 100, totalWithdrawing := 0 }
    cover := { state.cover with pools := ⟨[pool], by simp⟩, nextPoolID := 2 } }

/-- Purchaser 5 stakes 20 for a shield of 10 and asks 8 of it back. At the expiry the 20 are
refunded and staked again in full. -/
theorem stakesAgree_renewal :
    ∃ s own, ReflTransGen (StakeStep ledgerKeepers) (onePool, fun _ => none) (s, own) ∧
      s.stakes.getOriginalStaking 1 = 0 ∧ s.stakes.getOriginalStaking 2 = 20 ∧
      StakesAgree own s.stakes := by
  have hcalls : OkAnd (unstakeFromShield (purchaseShield ledgerKeepers ⟨10, 200⟩ onePool 1
      [⟨microCTKDenom, 10⟩] "shop" 5 true).1 1 5 8)
      (fun s => s.stakes.getOriginalStaking 1 ≠ 0 ∧
        OkAnd (processStakeForShieldExpiration ledgerKeepers ⟨110, 300⟩ s 1 1 5)
          (fun s => s.stakes.getOriginalStaking 1 = 0 ∧ s.stakes.getOriginalStaking 2 = 20)) := by
    decide +kernel
  have howner : Owners.extend (fun _ => none) onePool.stakes (purchaseShield ledgerKeepers
      ⟨10, 200⟩ onePool 1 [⟨microCTKDenom, 10⟩] "shop" 5 true).1.stakes (1, 5) 1 = some (1, 5) := by
    decide +kernel
  rcases hstake : purchaseShield ledgerKeepers ⟨10, 200⟩ onePool 1 [⟨microCTKDenom, 10⟩] "shop" 5
    true with ⟨s₀, r⟩
  rw [hstake] at hcalls howner
  obtain ⟨s₁, hunstake, -, hexpire⟩ := hcalls.exists
  obtain ⟨s₂, hexpired, hone, htwo⟩ := hexpire.exists
  have hrun : ReflTransGen (StakeStep ledgerKeepers) (onePool, fun _ => none) (s₂, _) :=
    ((ReflTransGen.single (.stake hstake)).tail
      (.unstake hunstake)).tail (.expire (fun _ => howner) hexpired)
  exact ⟨s₂, _, hrun, hone, htwo, stakesAgree_of_run rfl hrun⟩

end Shentu
