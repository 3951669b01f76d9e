import Shentu.Shield.StoredLists
import Shentu.Shield.Ledger

/-!
The distribution of fees at the end of a block. Every provider is given its proportional
part of the fees that are due in the block and of the block fees, limited by what remains,
and what it is given is subtracted from what remains. So the decimal sum of remaining fees,
block fees and rewards does not change, whatever is rounded on the way.
-/

namespace Shentu

open Lib DecCoins List Table Dec
open MixedDecCoins (native ofNative foreign)

variable {σ : Type}

/-- The rewards of all providers in one denomination, in the native or in the foreign part. -/
def CollateralBook.totalRewards (part : MixedDecCoins → DecCoins) (b : CollateralBook) (d : Denom) :
    Int :=
  b.providers.total (fun p => (part p.rewards).amountOf d)

/-- The rewards of one provider in one denomination. -/
def CollateralBook.rewardsOf (part : MixedDecCoins → DecCoins) (b : CollateralBook)
    (addr : AccAddress) (d : Denom) : Int :=
  b.providers.valueAt (fun p => (part p.rewards).amountOf d) addr

section Reward

variable {b : CollateralBook} {p : Provider} (hp : b.getProvider p.address = some p)
  (fees : DecCoins)

variable {part : MixedDecCoins → DecCoins} {d : Denom}
  (hpart : ∀ x y, (part (x.add y)).amountOf d = (part x).amountOf d + (part y).amountOf d)

include hp hpart

lemma totalRewards_reward :
    (b.reward p fees).totalRewards part d =
      b.totalRewards part d + (part (ofNative fees)).amountOf d := by
  have hset := total_set b.providers { p with rewards := p.rewards.add (.ofNative fees) }
    (fun p => (part p.rewards).amountOf d)
  have hold : b.providers.valueAt (fun p => (part p.rewards).amountOf d) p.address =
      (part p.rewards).amountOf d := valueAt_of_get hp _
  rw [hpart, hold] at hset
  unfold CollateralBook.totalRewards
  refine hset.trans ?_
  omega

lemma rewardsOf_reward (addr : AccAddress) :
    (b.reward p fees).rewardsOf part addr d = b.rewardsOf part addr d +
      if addr = p.address then (part (ofNative fees)).amountOf d else 0 := by
  have hset := valueAt_set b.providers { p with rewards := p.rewards.add (.ofNative fees) }
    (fun p => (part p.rewards).amountOf d) addr
  have hold : b.providers.valueAt (fun p => (part p.rewards).amountOf d) p.address =
      (part p.rewards).amountOf d := valueAt_of_get hp _
  unfold CollateralBook.rewardsOf
  refine hset.trans ?_
  rw [hpart]
  split
  · rename_i haddr
    rw [haddr, hold]
  · rw [add_zero]

end Reward

lemma amountOf_native_add (x y : MixedDecCoins) (d : Denom) :
    (x.add y).native.amountOf d = x.native.amountOf d + y.native.amountOf d :=
  amountOf_add _ _ _

lemma amountOf_foreign_add (x y : MixedDecCoins) (d : Denom) :
    (x.add y).foreign.amountOf d = x.foreign.amountOf d + y.foreign.amountOf d :=
  amountOf_add _ _ _

section Loop

variable {bond : Denom} {total : Int} {fees : DecCoins} {providers : List Provider}
  {b b' : CollateralBook} {remaining remaining' : DecCoins}

lemma distributeFees_conserves (hstored : ∀ p ∈ providers, b.getProvider p.address = some p)
    (hdistinct : providers.Pairwise (fun p q => p.address ≠ q.address))
    (h : distributeFees bond total fees providers b remaining = .ok (b', remaining')) (d : Denom) :
    b'.totalRewards native d + remaining'.amountOf d =
      b.totalRewards native d + remaining.amountOf d := by
  induction providers generalizing b remaining with
  | nil =>
    cases h
    rfl
  | cons p providers ih =>
    obtain ⟨given, remaining1, -, -, hsub, h, hstored1, hdistinct1⟩ :=
      distributeFees_cons hstored hdistinct h
    have hrest := ih hstored1 hdistinct1 h
    rw [totalRewards_reward (hstored p mem_cons_self) _
      (fun x y => amountOf_native_add x y d), amountOf_sub hsub] at hrest
    dsimp only [ofNative] at hrest
    omega

/-- Nobody is given foreign coins. -/
lemma distributeFees_foreign (hstored : ∀ p ∈ providers, b.getProvider p.address = some p)
    (hdistinct : providers.Pairwise (fun p q => p.address ≠ q.address))
    (h : distributeFees bond total fees providers b remaining = .ok (b', remaining')) (d : Denom) :
    b'.totalRewards foreign d = b.totalRewards foreign d ∧
      ∀ addr, b'.rewardsOf foreign addr d =
        b.rewardsOf foreign addr d := by
  induction providers generalizing b remaining with
  | nil =>
    cases h
    exact ⟨rfl, fun _ => rfl⟩
  | cons p providers ih =>
    obtain ⟨given, remaining1, -, -, -, h, hstored1, hdistinct1⟩ :=
      distributeFees_cons hstored hdistinct h
    have hp := hstored p mem_cons_self
    have hnone : (ofNative given).foreign.amountOf d = 0 := rfl
    obtain ⟨htotal, hone⟩ := ih hstored1 hdistinct1 h
    constructor
    · rw [htotal, totalRewards_reward hp _ (fun x y => amountOf_foreign_add x y d), hnone, add_zero]
    · intro addr
      rw [hone addr, rewardsOf_reward hp _ (fun x y => amountOf_foreign_add x y d), hnone,
        ite_self, add_zero]

/-- Nobody loses rewards, and nobody is given more than its part. -/
lemma distributeFees_bounds (hfees : ∀ d, 0 ≤ fees.amountOf d) (htotal : 0 ≤ total)
    (hcollateral : ∀ p ∈ providers, 0 ≤ p.collateral)
    (hremaining : ∀ d, 0 ≤ remaining.amountOf d) (hbond : ∀ d, d ≠ bond → remaining.amountOf d = 0)
    (hstored : ∀ p ∈ providers, b.getProvider p.address = some p)
    (hdistinct : providers.Pairwise (fun p q => p.address ≠ q.address))
    (h : distributeFees bond total fees providers b remaining = .ok (b', remaining')) (d : Denom) :
    (∀ addr, b.rewardsOf native addr d ≤
        b'.rewardsOf native addr d) ∧
      b'.totalRewards native d ≤ b.totalRewards native d +
        ((providers.map Provider.collateral).map (fun c =>
          Dec.mul (fees.amountOf d) (Dec.quoInt (Dec.ofInt c) total))).sum := by
  induction providers generalizing b remaining with
  | nil =>
    cases h
    exact ⟨fun _ => le_refl _, by simp⟩
  | cons p providers ih =>
    obtain ⟨given, remaining1, -, hgiven, hsub, h, hstored1, hdistinct1⟩ :=
      distributeFees_cons hstored hdistinct h
    have hp := hstored p mem_cons_self
    obtain ⟨hcp, hcollateral⟩ := forall_mem_cons.mp hcollateral
    have hratio : 0 ≤ Dec.quoInt (Dec.ofInt p.collateral) total :=
      Int.tdiv_nonneg (ofInt_nonneg hcp) htotal
    have hpart : ∀ x, 0 ≤ Dec.mul (fees.amountOf x) (Dec.quoInt (Dec.ofInt p.collateral) total) :=
      fun x => Dec.mul_nonneg (hfees x) hratio
    have hbounds : ∀ x, 0 ≤ given.amountOf x ∧ given.amountOf x ≤
        Dec.mul (fees.amountOf x) (Dec.quoInt (Dec.ofInt p.collateral) total) := by
      intro x
      rw [hgiven]
      split
      · rename_i hless
        refine ⟨hremaining x, ?_⟩
        by_cases hx : x = bond
        · rw [hx]
          exact hless.le
        · rw [hbond x hx]
          exact hpart x
      · rw [amountOf_mulDec]
        exact ⟨hpart x, le_refl _⟩
    have hleft : ∀ x, 0 ≤ remaining1.amountOf x := amountOf_sub_nonneg hsub
    have hbond1 : ∀ x, x ≠ bond → remaining1.amountOf x = 0 := by
      intro x hx
      have hle := hleft x
      rw [amountOf_sub hsub, hbond x hx] at hle ⊢
      have := (hbounds x).1
      omega
    obtain ⟨hmono, hle⟩ := ih hcollateral hleft hbond1 hstored1 hdistinct1 h
    constructor
    · intro addr
      have hnext := hmono addr
      rw [rewardsOf_reward hp _ (fun x y => amountOf_native_add x y d)] at hnext
      have hgain : 0 ≤ if addr = p.address then given.amountOf d else 0 := by
        split
        · exact (hbounds d).1
        · exact le_refl _
      dsimp only [ofNative] at hnext
      omega
    · rw [totalRewards_reward hp _ (fun x y => amountOf_native_add x y d)] at hle
      have := (hbounds d).2
      dsimp only [ofNative] at hle
      simp only [map_cons, sum_cons]
      omega

end Loop

section Due

variable {k : Keepers σ} {ctx : Ctx} {s s' : ShieldState σ}

/-- The fees that are due in a block: what the purchases that expire have earned since the last
update and what the others earn, limited by what remains. -/
def dueFees (k : Keepers σ) (ctx : Ctx) (s : ShieldState σ) : Except Fault MixedDecCoins :=
  match s.fees.started with
  | none => .ok MixedDecCoins.empty
  | some lastUpdateTime => do
    let loop ← expireLoop ctx s lastUpdateTime
    blockFees k s.params.pool ctx lastUpdateTime loop s.fees.remainingServiceFees

lemma decQuo_nonneg {a b x : Int} (ha : 0 ≤ a) (hb : 0 ≤ b) (h : decQuo a b = .ok x) : 0 ≤ x := by
  unfold decQuo at h
  split at h
  · cases h
  · cases h
    exact quo_nonneg ha hb

lemma timeSub_nonneg {a b : Time} (h : b ≤ a) : 0 ≤ timeSub a b := by
  exact le_max_of_le_right (le_min (by decide) (sub_nonneg.mpr h))

/-- The fees of a loop and the fees that are left to earn are not negative. -/
structure FeesNonneg (loop : ExpiryLoop) : Prop where
  due : ∀ d, 0 ≤ loop.serviceFees.native.amountOf d
  running : ∀ d, 0 ≤ loop.totalServiceFees.native.amountOf d

lemma LoopMove.feesNonneg {stakes : StakeBook} {params : PoolParams} {lastUpdateTime : Time}
    {loop loop' : ExpiryLoop} (hperiod : 0 ≤ params.protectionPeriod)
    (h : LoopMove stakes params ctx lastUpdateTime loop loop') (hloop : FeesNonneg loop) :
    FeesNonneg loop' := by
  cases h with
  | @settle _ _ _ _ e _ _ hsettle =>
    rcases settleFees_cases hsettle with ⟨rfl, -⟩ |
      ⟨share, total, hlater, hpositive, hshare, htotal, rfl, -⟩
    · exact ⟨hloop.due, hloop.running⟩
    · have hshare0 : 0 ≤ share := decQuo_nonneg
        (ofInt_nonneg (timeSub_nonneg hlater.le)) (ofInt_nonneg hperiod) hshare
      constructor
      · intro d
        have hearned : 0 ≤ Dec.mul (e.serviceFees.native.amountOf d) share :=
          Dec.mul_nonneg (amountOf_nonneg_of_isAllPositive hpositive d) hshare0
        have hadd := amountOf_add loop.serviceFees.native
          (e.serviceFees.native.mulDec share) d
        rw [amountOf_mulDec] at hadd
        have hbefore := hloop.due d
        refine le_of_le_of_eq ?_ hadd.symm
        omega
      · exact amountOf_sub_nonneg (MixedDecCoins.sub_eq_ok.mp htotal).1
  | remove _ hremove =>
    obtain ⟨-, pool, -, rfl⟩ := removeDeleted_none hremove
    exact ⟨hloop.due, hloop.running⟩
  | dropList _ _ => exact ⟨hloop.due, hloop.running⟩

/-- The fees that are due are not negative. -/
lemma dueFees_nonneg {due : MixedDecCoins}
    (hclock : ∀ t, s.fees.started = some t → t ≤ ctx.blockTime)
    (hperiod : 0 ≤ s.params.pool.protectionPeriod)
    (hremaining : ∀ d, 0 ≤ s.fees.remainingServiceFees.native.amountOf d)
    (hfees : ∀ d, 0 ≤ s.fees.serviceFees.native.amountOf d)
    (h : dueFees k ctx s = .ok due) (d : Denom) : 0 ≤ due.native.amountOf d := by
  unfold dueFees at h
  split at h
  · cases h
    exact le_refl _
  · rename_i lastUpdateTime hstarted
    obtain ⟨loop, hloop, hblock⟩ := bind_eq_ok.mp h
    have hnonneg : FeesNonneg loop := by
      have hstart : FeesNonneg (.start s) := ⟨fun _ => le_refl _, hfees⟩
      exact reflTransGen_invariant (fun _ _ hnow hmove => hmove.feesNonneg hperiod hnow)
        (expireLoop_moves hloop) hstart
    simp only [blockFees, MixedDecCoins.quoDec, bind_eq_ok] at hblock
    obtain ⟨running, hrunning, hblock⟩ := hblock
    split at hrunning
    · cases hrunning
    · cases hrunning
      have hsum : 0 ≤ (loop.serviceFees.native.add ((loop.totalServiceFees.native.mulDec
          (Dec.ofInt (timeSub ctx.blockTime lastUpdateTime))).quoDec
          (Dec.ofInt s.params.pool.protectionPeriod))).amountOf d := by
        rw [amountOf_add, amountOf_quoDec, amountOf_mulDec]
        have helapsed := ofInt_nonneg (timeSub_nonneg (hclock _ hstarted))
        have hmul := Dec.mul_nonneg (hnonneg.running d) helapsed
        have hquo := quo_nonneg hmul (ofInt_nonneg hperiod)
        have := hnonneg.due d
        omega
      split at hblock
      · cases hblock
        exact hremaining d
      · cases hblock
        exact hsum

end Due

/-- The parameters, the remaining fees and the block fees are the same. -/
structure KeepsPots (s s' : ShieldState σ) : Prop where
  params : s'.params = s.params
  remaining : s'.fees.remainingServiceFees = s.fees.remainingServiceFees
  block : s'.fees.blockServiceFees = s.fees.blockServiceFees

section Distribution

variable {k : Keepers σ} {ctx : Ctx} {s s' : ShieldState σ}

lemma start_pots (ctx : Ctx) (b : FeeBook) :
    (b.start ctx).remainingServiceFees = b.remainingServiceFees ∧
      (b.start ctx).blockServiceFees = b.blockServiceFees := by
  unfold FeeBook.start
  split <;> exact ⟨rfl, rfl⟩

lemma purchaseShield_keepsPots {poolID : Nat} {shield : Coins} {description : String}
    {purchaser : AccAddress} {r : Except Fault Purchase}
    (h : purchaseShield k ctx s poolID shield description purchaser true = (s', r)) :
    KeepsPots s s' := by
  rcases purchaseShield_staked h with rfl | rfl | ⟨pool, world, e, -, -, -, rfl⟩
  · exact ⟨rfl, rfl, rfl⟩
  · exact ⟨rfl, rfl, rfl⟩
  · exact ⟨rfl, (start_pots ctx _).1, (start_pots ctx _).2⟩

lemma processStakeForShieldExpiration_keepsPots {poolID purchaseID : Nat} {purchaser : AccAddress}
    (h : processStakeForShieldExpiration k ctx s poolID purchaseID purchaser = .ok s') :
    KeepsPots s s' := by
  rcases processStakeForShieldExpiration_cases h with
    ⟨rfl, -⟩ | ⟨staked, -, -, rfl | ⟨-, description, hs'⟩⟩
  · exact ⟨rfl, rfl, rfl⟩
  · exact ⟨rfl, rfl, rfl⟩
  · have hrenewed : KeepsPots (s.refunded k staked purchaseID purchaser) s' := by
      rw [hs']
      exact purchaseShield_keepsPots rfl
    exact ⟨hrenewed.params, hrenewed.remaining, hrenewed.block⟩

/-- The fees of the block are distributed over the book as it was before the end blocker. -/
lemma removeExpired_distributes (h : removeExpiredPurchasesAndDistributeFees k ctx s = .ok s') :
    (s.fees.started = none ∧ s' = s ∧ dueFees k ctx s = .ok MixedDecCoins.empty) ∨
      ∃ due native, dueFees k ctx s = .ok due ∧
        distributeFees k.bondDenom s.collateral.totalCollateral
          (due.add s.fees.blockServiceFees).native s.collateral.getAllProviders s.collateral
          s.fees.remainingServiceFees.native = .ok (s'.collateral, native) ∧
        s'.fees.remainingServiceFees = { s.fees.remainingServiceFees with
          native := native.add s.fees.blockServiceFees.native } ∧
        s'.fees.blockServiceFees = MixedDecCoins.empty := by
  unfold removeExpiredPurchasesAndDistributeFees at h
  unfold dueFees
  split at h
  · rename_i hnone
    cases h
    rw [hnone]
    exact .inl ⟨rfl, rfl, rfl⟩
  · rename_i lastUpdateTime hstarted
    rw [hstarted]
    simp only [bind_eq_ok, distributeBlock, pure_eq_ok] at h
    obtain ⟨loop, hloop, s2, hstakes, due, hdue, ⟨b, native⟩, hdistribute, rfl⟩ := h
    have hstart : KeepsPots s (storeExpired s loop) := ⟨rfl, rfl, rfl⟩
    have hkept : KeepsPots s s2 ∧ OnlySells (storeExpired s loop) s2 := by
      refine foldlM_invariant (P := fun s1 => KeepsPots s s1 ∧ OnlySells (storeExpired s loop) s1)
        ?_ ⟨hstart, OnlySells.refl _⟩ hstakes
      rintro ppp - s3 s4 ⟨hpots, hsells⟩ hstep
      have hpots' := processStakeForShieldExpiration_keepsPots hstep
      exact ⟨⟨hpots'.params.trans hpots.params, hpots'.remaining.trans hpots.remaining,
        hpots'.block.trans hpots.block⟩,
        hsells.trans (processStakeForShieldExpiration_onlySells hstep)⟩
    obtain ⟨⟨hparams, hremaining, hblock⟩, hsells⟩ := hkept
    have hcollateral : s2.collateral = s.collateral := hsells.collateral
    rw [hparams, hremaining] at hdue
    rw [hcollateral, hremaining, hblock] at hdistribute
    refine .inr ⟨due, native, bind_eq_ok.mpr ⟨loop, hloop, hdue⟩, hdistribute, ?_, rfl⟩
    rw [hremaining, hblock]

/-- The state before the distribution: fees are not negative and in the bond denomination, the
clock does not run backwards, and the collaterals of the providers add up to the total. -/
structure FeesReady (k : Keepers σ) (ctx : Ctx) (s : ShieldState σ) : Prop where
  clock : ∀ t, s.fees.started = some t → t ≤ ctx.blockTime
  period : 0 < s.params.pool.protectionPeriod
  collateral : ∀ p ∈ s.collateral.providers.rows, 0 ≤ p.collateral
  total : s.collateral.totalCollateral = s.collateral.providers.total Provider.collateral
  serviceFees : ∀ d, 0 ≤ s.fees.serviceFees.native.amountOf d
  remaining : ∀ d, 0 ≤ s.fees.remainingServiceFees.native.amountOf d
  block : ∀ d, 0 ≤ s.fees.blockServiceFees.native.amountOf d
  bond : ∀ d, d ≠ k.bondDenom → s.fees.remainingServiceFees.native.amountOf d = 0
  foreign : ∀ d, s.fees.blockServiceFees.foreign.amountOf d = 0

/-- Remaining fees, block fees and rewards together. -/
def ShieldState.heldFees (part : MixedDecCoins → DecCoins) (s : ShieldState σ) (d : Denom) : Int :=
  (part s.fees.remainingServiceFees).amountOf d + (part s.fees.blockServiceFees).amountOf d +
    s.collateral.totalRewards part d

/-- The distribution keeps the sum of remaining fees, block fees and rewards, takes rewards from
nobody, and gives the providers together at most the fees that are due and the block fees, and one
unit for each of them. -/
theorem feeDistribution_conserves (hs : FeesReady k ctx s)
    (h : removeExpiredPurchasesAndDistributeFees k ctx s = .ok s') :
    (∀ d, s'.heldFees native d = s.heldFees native d ∧
      s'.heldFees foreign d = s.heldFees foreign d) ∧
    (∀ addr d, s.collateral.rewardsOf native addr d ≤
        s'.collateral.rewardsOf native addr d ∧
      s.collateral.rewardsOf foreign addr d ≤
        s'.collateral.rewardsOf foreign addr d) ∧
    ∃ due, dueFees k ctx s = .ok due ∧ ∀ d,
      s'.collateral.totalRewards native d -
          s.collateral.totalRewards native d ≤
        due.native.amountOf d + s.fees.blockServiceFees.native.amountOf d +
          s.collateral.getAllProviders.length := by
  rcases removeExpired_distributes h with ⟨-, rfl, hdue⟩ |
    ⟨due, native, hdue, hdistribute, hremaining, hblock⟩
  · refine ⟨fun _ => ⟨rfl, rfl⟩, fun _ _ => ⟨le_refl _, le_refl _⟩, _, hdue, ?_⟩
    intro d
    have := hs.block d
    rw [sub_self]
    change 0 ≤ 0 + _ + _
    omega
  · have hstored : ∀ p ∈ s.collateral.getAllProviders,
        s.collateral.getProvider p.address = some p :=
      fun p hp => Table.get_of_mem hp
    have hdistinct := s.collateral.providers.sorted.imp (fun hlt => ne_of_lt hlt)
    have hdue₀ := dueFees_nonneg hs.clock hs.period.le hs.remaining hs.serviceFees hdue
    have hfees : ∀ d, (due.add s.fees.blockServiceFees).native.amountOf d =
        due.native.amountOf d + s.fees.blockServiceFees.native.amountOf d :=
      fun d => amountOf_add _ _ _
    have hnonneg : ∀ d, 0 ≤ (due.add s.fees.blockServiceFees).native.amountOf d := by
      intro d
      rw [hfees]
      have := hdue₀ d
      have := hs.block d
      omega
    have htotal : 0 ≤ s.collateral.totalCollateral := by
      rw [hs.total]
      exact total_nonneg hs.collateral
    have hbounds := distributeFees_bounds hnonneg htotal hs.collateral hs.remaining hs.bond hstored
      hdistinct hdistribute
    refine ⟨?_, ?_, due, hdue, ?_⟩
    · intro d
      have hnative := distributeFees_conserves hstored hdistinct hdistribute d
      have hforeign := (distributeFees_foreign hstored hdistinct hdistribute d).1
      unfold ShieldState.heldFees
      rw [hremaining, hblock]
      rw [amountOf_add, hforeign, hs.foreign d]
      constructor
      · change _ + 0 + _ = _
        omega
      · rfl
    · intro addr d
      exact ⟨(hbounds d).1 addr,
        ((distributeFees_foreign hstored hdistinct hdistribute d).2 addr).ge⟩
    · intro d
      have hgiven := (hbounds d).2
      have hparts := sum_mul_quoInt_le (hnonneg d)
        (forall_mem_map.mpr hs.collateral) htotal hs.total.ge
      rw [hfees, length_map] at hparts
      rw [hfees] at hgiven
      unfold CollateralBook.getAllProviders
      omega

end Distribution

/-- An amount of the bond denomination. -/
def bondFees (amount : Int) (h : amount ≠ 0) : MixedDecCoins :=
  ofNative ⟨⟨[⟨microCTKDenom, amount⟩], pairwise_singleton _ _⟩, by simpa using h⟩

lemma bondFees_native (amount : Int) (h : amount ≠ 0) (d : Denom) :
    (bondFees amount h).native.amountOf d = if d = microCTKDenom then amount else 0 := by
  unfold bondFees ofNative DecCoins.amountOf Table.valueAt Table.get
  by_cases hd : d = microCTKDenom
  · simp [hd]
  · simp [hd, Ne.symm hd]

/-- Two providers with collaterals of 1 and 2, half a protection period after the last update. -/
def feesWaiting : ShieldState Ledger :=
  { ShieldState.empty shortPeriodParams Ledger.funded with
    collateral := { CollateralBook.empty with
      providers := Table.empty.load [{ Provider.new 1 with collateral := 1 },
        { Provider.new 2 with collateral := 2 }]
      totalCollateral := 3 }
    fees := {
      serviceFees := bondFees 100 (by decide)
      remainingServiceFees := bondFees 100 (by decide)
      blockServiceFees := bondFees 7 (by decide)
      lastUpdateTime := some 1000 } }

lemma feesWaiting_ready : FeesReady ledgerKeepers ⟨1050, 200⟩ feesWaiting where
  clock := by
    intro t ht
    cases ht
    decide
  period := by decide
  collateral := by decide
  total := by decide
  serviceFees := by
    intro d
    dsimp only [feesWaiting]
    rw [bondFees_native]
    split <;> decide
  remaining := by
    intro d
    dsimp only [feesWaiting]
    rw [bondFees_native]
    split <;> decide
  block := by
    intro d
    dsimp only [feesWaiting]
    rw [bondFees_native]
    split <;> decide
  bond := by
    intro d hd
    dsimp only [feesWaiting]
    rw [bondFees_native]
    exact if_neg hd
  foreign := fun _ => rfl

/-- 50 units are due and 7 are block fees. The providers are given 19 and 38 units. -/
theorem feeDistribution_conserves_waiting :
    ∃ s' : ShieldState Ledger,
      removeExpiredPurchasesAndDistributeFees ledgerKeepers ⟨1050, 200⟩ feesWaiting = .ok s' ∧
      s'.collateral.totalRewards native microCTKDenom = 57 ∧
      s'.fees.remainingServiceFees.native.amountOf microCTKDenom = 50 ∧
      s'.heldFees native microCTKDenom =
        feesWaiting.heldFees native microCTKDenom := by
  have hrun : OkAnd
      (removeExpiredPurchasesAndDistributeFees ledgerKeepers ⟨1050, 200⟩ feesWaiting) (fun s' =>
      s'.collateral.totalRewards native microCTKDenom = 57 ∧
      s'.fees.remainingServiceFees.native.amountOf microCTKDenom = 50) := by
    decide +kernel
  obtain ⟨s', hs', hgiven, hleft⟩ := hrun.exists
  exact ⟨s', hs', hgiven, hleft,
    ((feeDistribution_conserves feesWaiting_ready hs').1 microCTKDenom).1⟩

end Shentu
