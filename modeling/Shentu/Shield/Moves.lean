import Shentu.Shield.ExpiryMoves
import Shentu.Shield.Pool

/-!
What the messages of the shield module and its end blocker can do to the state, as
sequences of small moves with explicit effects. An invariant of the module is an
invariant of the moves.
-/

namespace Shentu

open Lib Table

variable {σ : Type}

/-- One successful change of the collateral book by a message, a hook or the end blocker. -/
inductive CollateralMove (k : Keepers σ) (params : PoolParams) (ctx : Ctx) (world : σ)
    (b : CollateralBook) : CollateralBook → Prop
  | deposit {addr : AccAddress} {amount : Int} {b' : CollateralBook} :
      0 ≤ amount → b.depositCollateral k world addr amount = .ok b' →
      CollateralMove k params ctx world b b'
  | withdraw {addr : AccAddress} {amount : Int} {b' : CollateralBook} :
      0 ≤ amount → b.withdrawCollateral params ctx addr amount = .ok b' →
      CollateralMove k params ctx world b b'
  | delegation {delAddr : AccAddress} {stakedAmt : Int} {b' : CollateralBook} :
      b.updateProviderForDelegationChanges params ctx delAddr stakedAmt = .ok b' →
      CollateralMove k params ctx world b b'
  | dequeue {b' : CollateralBook} :
      b.dequeueCompletedWithdrawQueue ctx = .ok b' → CollateralMove k params ctx world b b'

/-- What is allowed in a sequence of moves: the coins that are paid in as service fees or
block rewards, the service fees that are booked without coins, and the purchases whose
stake is released. -/
structure MoveRules where
  paid : Coins → Prop
  booked : Coins → Prop
  released : Nat → Prop

/-- Everything is allowed. -/
def MoveRules.any : MoveRules := ⟨fun _ => True, fun _ => True, fun _ => True⟩

/-- The collateral that is neither withdrawn nor claimed covers another `amount` of shield. -/
def ShieldState.Covers (s : ShieldState σ) (amount : Int) : Prop :=
  s.cover.totalShield + amount ≤
    s.collateral.totalCollateral - s.collateral.totalWithdrawing - s.cover.totalClaimed

/-- The cover book after the sale of the next purchase. -/
def ShieldState.sold (ctx : Ctx) (s : ShieldState σ) (pool : Pool) (purchaser : AccAddress)
    (description : String) (shieldAmt : Int) (fees : DecCoins) : CoverBook :=
  s.cover.takePurchaseID.sell pool purchaser
    (Purchase.new ctx s.params.pool s.cover.nextPurchaseID description shieldAmt fees)

/-- One small change of the state of the shield module. -/
inductive ShieldMove (k : Keepers σ) (rules : MoveRules) (ctx : Ctx) :
    ShieldState σ → ShieldState σ → Prop
  | collateral {s : ShieldState σ} {b : CollateralBook} :
      CollateralMove k s.params.pool ctx s.world s.collateral b →
      ShieldMove k rules ctx s { s with collateral := b }
  | editPool {s : ShieldState σ} {pool pool' : Pool} :
      s.cover.getPool pool.id = some pool → pool'.id = pool.id → pool'.shield = pool.shield →
      ShieldMove k rules ctx s { s with cover := s.cover.setPool pool' }
  | addPool {s : ShieldState σ} (description sponsor : String) (sponsorAddr : AccAddress)
      (shieldLimit : Int) :
      ShieldMove k rules ctx s
        { s with cover := s.cover.addPool description sponsor sponsorAddr shieldLimit }
  | closePools {s : ShieldState σ} :
      ShieldMove k rules ctx s { s with cover := closePools s.cover }
  | takeID {s : ShieldState σ} : ShieldMove k rules ctx s (takePurchaseID s)
  | paid {s : ShieldState σ} {pool : Pool} {purchaser : AccAddress} {description : String}
      {shieldAmt : Int} {coins : Coins} {fees : DecCoins} {world : σ} :
      s.cover.getPool pool.id = some pool → 0 ≤ shieldAmt → s.Covers shieldAmt →
      rules.paid coins →
      k.sendCoinsFromAccountToModule s.world purchaser .shield coins = some world →
      DecCoins.ofCoins coins = some fees →
      ShieldMove k rules ctx s { s with
        cover := s.sold ctx pool purchaser description shieldAmt fees
        fees := (s.fees.addServiceFees fees).start ctx
        world := world }
  | staked {s : ShieldState σ} {pool : Pool} {purchaser : AccAddress} {description : String}
      {shieldAmt stakingAmt : Int} {world : σ} :
      s.cover.getPool pool.id = some pool → 0 ≤ shieldAmt → s.Covers shieldAmt →
      0 < stakingAmt →
      k.sendCoinsFromAccountToModule s.world purchaser .shield
        (Coins.ofAmount k.bondDenom stakingAmt) = some world →
      ShieldMove k rules ctx s { s with
        cover := s.sold ctx pool purchaser description shieldAmt DecCoins.empty
        stakes := s.stakes.add pool.id purchaser s.cover.nextPurchaseID stakingAmt
        fees := s.fees.start ctx
        world := world }
  | bookFees {s : ShieldState σ} {coins : Coins} {fees : DecCoins} :
      rules.booked coins → DecCoins.ofCoins coins = some fees →
      ShieldMove k rules ctx s { s with fees := s.fees.addServiceFees fees }
  | unstake {s : ShieldState σ} {sp : ShieldStaking} (requested : Int) :
      s.stakes.stakeForShields.get sp.key = some sp →
      ShieldMove k rules ctx s { s with stakes := s.stakes.request sp requested }
  | refund {s : ShieldState σ} {staked : ShieldStaking} {purchaseID : Nat} {amount : Int} :
      rules.released purchaseID → s.stakes.stakeForShields.get staked.key = some staked →
      s.stakes.getOriginalStaking purchaseID = amount → 0 < amount →
      ShieldMove k rules ctx s { s with
        stakes := s.stakes.release staked purchaseID amount
        world := (k.sendCoinsFromModuleToAccount s.world .shield staked.purchaser
          (Coins.ofAmount k.bondDenom amount)).getD s.world }
  | payRewards {s : ShieldState σ} {p : Provider} {world : σ} :
      s.collateral.getProvider p.address = some p →
      k.sendCoinsFromModuleToAccount s.world .shield p.address
        p.rewards.native.truncateDecimal.1 = some world →
      ShieldMove k rules ctx s { s with
        collateral := s.collateral.setProvider { p with
          rewards := { p.rewards with native := DecCoins.empty } }
        fees := { s.fees with remainingServiceFees := { s.fees.remainingServiceFees with
          native := s.fees.remainingServiceFees.native.add
            p.rewards.native.truncateDecimal.2 } }
        world := world }
  | reimburse {s : ShieldState σ} {pair : ProposalIDReimbursementPair} {world : σ} :
      s.reimbursements.get pair.proposalID = some pair →
      k.sendCoinsFromModuleToAccount s.world .shield pair.reimbursement.beneficiary
        pair.reimbursement.amount = some world →
      ShieldMove k rules ctx s { s with
        reimbursements := s.reimbursements.delete pair.proposalID, world := world }
  | fund {s : ShieldState σ} {coins : Coins} {fees : DecCoins} {sender : AccAddress} {world : σ} :
      rules.paid coins →
      k.sendCoinsFromAccountToModule s.world sender .shield coins = some world →
      DecCoins.ofCoins coins = some fees →
      ShieldMove k rules ctx s { s with
        fees := { s.fees with
          blockServiceFees := s.fees.blockServiceFees.add (MixedDecCoins.ofNative fees) }
        world := world }
  | settle {s : ShieldState σ} {l : PurchaseList} {before after : List Purchase} {e : Purchase}
      {total : MixedDecCoins} :
      s.cover.purchaseLists.get l.key = some l → l.entries = before ++ e :: after →
      e.serviceFees.native.isAllPositive = true → s.fees.serviceFees.sub e.serviceFees = .ok total →
      ShieldMove k rules ctx s { s with
        cover := s.cover.setPurchaseList { l with
          entries := before ++ { e with serviceFees := MixedDecCoins.empty } :: after }
        fees := { s.fees with serviceFees := total } }
  | remove {s : ShieldState σ} {l : PurchaseList} {before after : List Purchase} {e : Purchase}
      {pool : Pool} :
      s.cover.purchaseLists.get l.key = some l → l.entries = before ++ e :: after →
      e.deletionTime < ctx.blockTime → s.cover.getPool l.poolID = some pool →
      ShieldMove k rules ctx s { s with
        cover := { s.cover with
          purchaseQueue := dequeuePurchase s.cover.purchaseQueue ⟨l.poolID, l.purchaser⟩
            e.protectionEndTime
          pools := s.cover.pools.set { pool with shield := pool.shield - e.shield }
          purchaseLists := s.cover.purchaseLists.set { l with entries := before ++ after }
          totalShield := s.cover.totalShield - e.shield } }
  | dropList {s : ShieldState σ} {l : PurchaseList} :
      s.cover.purchaseLists.get l.key = some l → l.entries = [] →
      ShieldMove k rules ctx s { s with cover := { s.cover with
        purchaseLists := s.cover.purchaseLists.delete l.key } }
  | reward {s : ShieldState σ} {p : Provider} {fees remaining : DecCoins} :
      s.collateral.getProvider p.address = some p →
      s.fees.remainingServiceFees.native.sub fees = some remaining →
      ShieldMove k rules ctx s { s with
        collateral := s.collateral.setProvider { p with
          rewards := p.rewards.add (MixedDecCoins.ofNative fees) }
        fees := { s.fees with remainingServiceFees := { s.fees.remainingServiceFees with
          native := remaining } } }
  | closeBlock {s : ShieldState σ} :
      ShieldMove k rules ctx s { s with fees := { s.fees with
        remainingServiceFees := { s.fees.remainingServiceFees with
          native := s.fees.remainingServiceFees.native.add s.fees.blockServiceFees.native }
        blockServiceFees := MixedDecCoins.empty
        lastUpdateTime := some ctx.blockTime } }

/-- Any number of small changes. -/
abbrev ShieldMoves (k : Keepers σ) (rules : MoveRules) (ctx : Ctx) :
    ShieldState σ → ShieldState σ → Prop :=
  Relation.ReflTransGen (ShieldMove k rules ctx)

lemma ShieldMoves.params {k : Keepers σ} {rules : MoveRules} {ctx : Ctx} {s s' : ShieldState σ}
    (h : ShieldMoves k rules ctx s s') : s'.params = s.params := by
  induction h with
  | refl => rfl
  | tail _ hmove ih => cases hmove <;> exact ih

section Purchases

variable {k : Keepers σ} {rules : MoveRules} {ctx : Ctx} {s s' : ShieldState σ}

variable {shield : Coins}

/-- The writes of a purchase, also of one that fails after its ID is taken. -/
lemma purchaseShieldWith_moves {poolID : Nat} {description : String}
    {purchaser : AccAddress} {serviceFees stakingCoins : Coins} {r : Except Fault Purchase}
    (hshield : serviceFees ≠ [] ∨ stakingCoins ≠ [] → 0 ≤ shield.amountOf k.bondDenom)
    (hrule : serviceFees ≠ [] → rules.paid serviceFees)
    (hstake : stakingCoins ≠ [] → 0 < stakingCoins.amountOf k.bondDenom)
    (h : purchaseShieldWith k ctx s poolID shield description purchaser serviceFees stakingCoins =
      (s', r)) :
    ShieldMoves k rules ctx s s' := by
  rcases purchaseShieldWith_cases h with ⟨-, rfl | rfl⟩ |
    ⟨pool, s1, fees, hcheck, hpay, hfees, -, rfl⟩
  · exact .refl
  · exact .single ShieldMove.takeID
  · obtain ⟨hpool, hpaid, hcovers⟩ := checkPurchase_cases hcheck
    have hid : pool.id = poolID := key_of_get hpool
    rw [← hid] at hpool
    refine .single ?_
    rcases payPurchase_cases hpay with ⟨hne, world, fees', hsend, hfees', rfl⟩ | ⟨hempty, hadd⟩
    · obtain rfl : fees' = fees := Option.some.inj (hfees'.symm.trans hfees)
      exact .paid hpool (hshield (.inl hne)) hcovers (hrule hne) hsend hfees
    · obtain ⟨world, -, hsend, rfl⟩ := addStaking_cases hadd
      have hcoins : stakingCoins ≠ [] := hpaid hempty
      obtain rfl : DecCoins.empty = fees := by
        rw [hempty, DecCoins.ofCoins_nil] at hfees
        exact Option.some.inj hfees
      exact .staked hpool (hshield (.inr hcoins)) hcovers (hstake hcoins) hsend

lemma ofAmount_ne_nil {d : Denom} {a : Int} : Coins.ofAmount d a ≠ [] ↔ a ≠ 0 := by
  unfold Coins.ofAmount
  split <;> simp_all

lemma shield_pos_of_price (hrate : 0 < s.params.shieldStakingRate)
    (h : 0 < purchasePrice k s.params shield true) : 0 < shield.amountOf k.bondDenom := by
  by_contra hnot
  have hproduct : s.params.shieldStakingRate * shield.amountOf k.bondDenom ≤ 0 :=
    Int.mul_nonpos_of_nonneg_of_nonpos hrate.le (not_lt.mp hnot)
  have hprice : purchasePrice k s.params shield true ≤ 0 := by
    simp only [purchasePrice, if_true, Dec.truncateInt, Dec.mulInt]
    have hneg := Dec.truncateInt_nonneg (neg_nonneg.mpr hproduct)
    rw [Dec.truncateInt, Int.neg_tdiv] at hneg
    omega
  omega

/-- The exported `PurchaseShield`, paid with fees or with a stake. -/
lemma purchaseShield_moves {poolID : Nat} {description : String} {purchaser : AccAddress}
    {staking : Bool} {r : Except Fault Purchase} (hrate : 0 < s.params.shieldStakingRate)
    (hshield : staking = false → 0 ≤ shield.amountOf k.bondDenom)
    (hrule : ∀ a, rules.paid (Coins.ofAmount k.bondDenom a))
    (h : purchaseShield k ctx s poolID shield description purchaser staking = (s', r)) :
    ShieldMoves k rules ctx s s' := by
  unfold purchaseShield at h
  split at h
  · cases h
    exact .refl
  · split at h
    · cases h
      exact .refl
    · rename_i price hprice
      obtain ⟨hnonneg, rfl⟩ := newCoins_eq_ok.mp hprice
      have hpos : Coins.ofAmount k.bondDenom (purchasePrice k s.params shield staking) ≠ [] →
          0 < purchasePrice k s.params shield staking := by
        intro hne
        exact lt_of_le_of_ne hnonneg (Ne.symm (ofAmount_ne_nil.mp hne))
      split at h
      · rename_i hstaking
        subst hstaking
        refine purchaseShieldWith_moves ?_ (fun hne => absurd rfl hne) ?_ h
        · rintro (hne | hne)
          · exact absurd rfl hne
          · exact (shield_pos_of_price hrate (hpos hne)).le
        · intro hne
          rw [Coins.amountOf_ofAmount_self]
          exact hpos hne
      · rename_i hstaking
        refine purchaseShieldWith_moves ?_ (fun _ => hrule _) (fun hne => absurd rfl hne) h
        intro _
        exact hshield (Bool.eq_false_iff.mpr hstaking)

end Purchases

section EndBlocker

variable {k : Keepers σ} {rules : MoveRules} {ctx : Ctx} {s s' : ShieldState σ}

lemma processStakeForShieldExpiration_moves {poolID purchaseID : Nat} {purchaser : AccAddress}
    (hrate : 0 < s.params.shieldStakingRate)
    (hrule : ∀ a, rules.paid (Coins.ofAmount k.bondDenom a)) (hreleased : rules.released purchaseID)
    (h : processStakeForShieldExpiration k ctx s poolID purchaseID purchaser = .ok s') :
    ShieldMoves k rules ctx s s' := by
  rcases processStakeForShieldExpiration_cases h with ⟨rfl, -⟩ | ⟨staked, hstaked, hamount, hends⟩
  · exact .refl
  · obtain ⟨-, rfl, hstored⟩ := StakeBook.getStakeForShield_eq_some hstaked
    refine .head (.refund hreleased hstored rfl hamount) ?_
    rcases hends with rfl | ⟨-, description, rfl⟩
    · exact .refl
    · exact purchaseShield_moves hrate (fun hfalse => by cases hfalse) hrule rfl

variable {lastUpdateTime : Time} {loop : ExpiryLoop}

/-- A change of the loop is a change of the state that the loop stands for. -/
lemma LoopMove.shieldMoves {loop' : ExpiryLoop}
    (h : LoopMove s.stakes s.params.pool ctx lastUpdateTime loop loop') :
    ShieldMoves k rules ctx (storeExpired s loop) (storeExpired s loop') := by
  cases h with
  | @settle loop1 l before after e e' hlisted hsettle =>
    rcases settleFees_cases hsettle with ⟨rfl, rfl⟩ | ⟨share, total, -, hpos, -, htotal, rfl, rfl⟩
    · have hl : ({ l with entries := before ++ e' :: after } : PurchaseList) = l := by
        rw [← hlisted.entries]
      rw [hl, ExpiryLoop.setList_of_stored hlisted.stored]
    · exact .single (.settle (s := storeExpired s loop) hlisted.stored hlisted.entries hpos htotal)
  | @remove loop1 l before after e hlisted hremove =>
    obtain ⟨hdeleted, pool, hpool, rfl⟩ := removeDeleted_none hremove
    exact .single (.remove (s := storeExpired s loop) hlisted.stored hlisted.entries hdeleted hpool)
  | @dropList l hstored hempty =>
    exact .single (.dropList (s := storeExpired s loop) hstored hempty)

lemma LoopMoves.shieldMoves
    (h : LoopMoves s.stakes s.params.pool ctx lastUpdateTime (ExpiryLoop.start s) loop) :
    ShieldMoves k rules ctx s (storeExpired s loop) := by
  induction h with
  | refl => exact .refl
  | tail _ hmove ih => exact ih.trans hmove.shieldMoves

/-- The state in the middle of the distribution. -/
def ShieldState.distributing (s : ShieldState σ) (b : CollateralBook) (remaining : DecCoins) :
    ShieldState σ :=
  { s with
    collateral := b
    fees := { s.fees with remainingServiceFees := { s.fees.remainingServiceFees with
      native := remaining } } }

/-- The book after a provider was given fees. -/
def CollateralBook.reward (b : CollateralBook) (p : Provider) (fees : DecCoins) : CollateralBook :=
  b.setProvider { p with rewards := p.rewards.add (MixedDecCoins.ofNative fees) }

section Distribution

variable {bond : Denom} {total : Int} {fees : DecCoins} {providers : List Provider}
  {b b' : CollateralBook} {remaining remaining' : DecCoins}

/-- One provider after the other is given fees out of what remains. The providers are read before
the loop, and each is still stored as it was read when its turn comes. -/
lemma distributeFees_cons {p : Provider}
    (hstored : ∀ q ∈ p :: providers, b.getProvider q.address = some q)
    (hdistinct : (p :: providers).Pairwise (fun p q => p.address ≠ q.address))
    (h : distributeFees bond total fees (p :: providers) b remaining = .ok (b', remaining')) :
    ∃ given remaining1, total ≠ 0 ∧
      given = (if remaining.amountOf bond <
          Dec.mul (fees.amountOf bond) (Dec.quoInt (Dec.ofInt p.collateral) total) then remaining
        else fees.mulDec (Dec.quoInt (Dec.ofInt p.collateral) total)) ∧
      remaining.sub given = some remaining1 ∧
      distributeFees bond total fees providers (b.reward p given) remaining1 =
        .ok (b', remaining') ∧
      (∀ q ∈ providers, (b.reward p given).getProvider q.address = some q) ∧
      providers.Pairwise (fun p q => p.address ≠ q.address) := by
  simp only [distributeFees, run_eq_ok] at h
  obtain ⟨htotal, remaining1, hsub, h⟩ := h
  obtain ⟨hne, hrest⟩ := List.pairwise_cons.mp hdistinct
  rw [DecCoins.amountOf_mulDec] at hsub h
  refine ⟨_, remaining1, htotal, rfl, hsub, h, ?_, hrest⟩
  intro q hq
  have hother : q.address ≠ p.address := Ne.symm (hne q hq)
  refine Eq.trans (get_set_of_ne _ ?_) (hstored q (List.mem_cons_of_mem p hq))
  exact hother

lemma distributeFees_moves (hstored : ∀ p ∈ providers, b.getProvider p.address = some p)
    (hdistinct : providers.Pairwise (fun p q => p.address ≠ q.address))
    (h : distributeFees bond total fees providers b remaining = .ok (b', remaining')) :
    ShieldMoves k rules ctx (s.distributing b remaining) (s.distributing b' remaining') := by
  induction providers generalizing b remaining with
  | nil =>
    cases h
    exact .refl
  | cons p providers ih =>
    obtain ⟨given, remaining1, -, -, hsub, h, hstored1, hdistinct1⟩ :=
      distributeFees_cons hstored hdistinct h
    exact .head (.reward (s := s.distributing b remaining)
      (hstored p List.mem_cons_self) hsub) (ih hstored1 hdistinct1 h)

end Distribution

lemma distributeBlock_moves (h : distributeBlock k ctx lastUpdateTime loop s = .ok s') :
    ShieldMoves k rules ctx s s' := by
  simp only [distributeBlock, run_eq_ok] at h
  obtain ⟨fees, -, ⟨b, native⟩, hdistribute, rfl⟩ := h
  have hmoves : ShieldMoves k rules ctx s (s.distributing b native) :=
    distributeFees_moves (s := s) (fun p hp => get_of_mem hp)
      (s.collateral.providers.sorted.imp (fun hlt => ne_of_lt hlt)) hdistribute
  exact hmoves.tail (.closeBlock (s := s.distributing b native))

variable (hrate : 0 < s.params.shieldStakingRate)
  (hrule : ∀ a, rules.paid (Coins.ofAmount k.bondDenom a))
  (hreleased : ∀ lastUpdateTime loop,
    LoopMoves s.stakes s.params.pool ctx lastUpdateTime (ExpiryLoop.start s) loop →
    ∀ ppp ∈ loop.stakeForShieldUpdateList, rules.released ppp.purchaseID)

include hrate hrule hreleased

/-- The expiry of purchases, the release of their stakes and the distribution of fees. -/
lemma removeExpiredPurchasesAndDistributeFees_moves
    (h : removeExpiredPurchasesAndDistributeFees k ctx s = .ok s') :
    ShieldMoves k rules ctx s s' := by
  unfold removeExpiredPurchasesAndDistributeFees at h
  split at h
  · cases h
    exact .refl
  · simp only [bind_eq_ok] at h
    obtain ⟨loop, hloop, s1, hstakes, hdistribute⟩ := h
    have hmoves := expireLoop_moves hloop
    have hreach : ShieldMoves k rules ctx s s1 ∧ 0 < s1.params.shieldStakingRate := by
      refine foldlM_invariant
        (P := fun s1 => ShieldMoves k rules ctx s s1 ∧ 0 < s1.params.shieldStakingRate)
        ?_ ⟨LoopMoves.shieldMoves hmoves, hrate⟩ hstakes
      intro ppp hppp s2 s3 hs2 hstep
      have hrelease := processStakeForShieldExpiration_moves hs2.2 hrule
        (hreleased _ _ hmoves ppp hppp) hstep
      exact ⟨hs2.1.trans hrelease, hrelease.params ▸ hs2.2⟩
    exact hreach.1.trans (distributeBlock_moves hdistribute)

lemma endBlocker_moves (h : endBlocker k ctx s = .ok s') : ShieldMoves k rules ctx s s' := by
  simp only [endBlocker, run_eq_ok] at h
  obtain ⟨s1, hremove, b, hdequeue, rfl⟩ := h
  have hmoves := removeExpiredPurchasesAndDistributeFees_moves hrate hrule hreleased hremove
  exact (hmoves.tail (.collateral (.dequeue hdequeue))).tail
    (.closePools (s := { s1 with collateral := b }))

end EndBlocker

section Messages

variable {k : Keepers σ} {rules : MoveRules} {ctx : Ctx} {s s' : ShieldState σ}

lemma createPool_moves {creator : AccAddress} {shield : Coins} {serviceFees : MixedCoins}
    {sponsor : String} {sponsorAddr : AccAddress} {description : String} {shieldLimit : Int}
    (hshield : 0 ≤ shield.amountOf k.bondDenom) (hrule : rules.paid serviceFees.native)
    (h : createPool k ctx s creator shield serviceFees sponsor sponsorAddr description
      shieldLimit = .ok s') :
    ShieldMoves k rules ctx s s' := by
  simp only [createPool, run_eq_ok] at h
  obtain ⟨-, -, h⟩ := h
  obtain ⟨rfl, -⟩ := Written.commit_eq_ok.mp h
  refine .head (.addPool description sponsor sponsorAddr shieldLimit) ?_
  exact purchaseShieldWith_moves (fun _ => hshield) (fun _ => hrule) (fun hne => absurd rfl hne) rfl

variable {poolID : Nat} {updater : AccAddress}

/-- An update of a pool with shield is a purchase, and without it books fees without coins. -/
lemma updatePool_moves {description : String} {shield : Coins} {serviceFees : MixedCoins}
    {shieldLimit : Int} (hshield : 0 ≤ shield.amountOf k.bondDenom)
    (hrule : Coins.isZero shield = false → rules.paid serviceFees.native)
    (hbooked : Coins.isZero shield = true → rules.booked serviceFees.native)
    (h : updatePool k ctx s poolID description updater shield serviceFees shieldLimit = .ok s') :
    ShieldMoves k rules ctx s s' := by
  simp only [updatePool, run_eq_ok] at h
  obtain ⟨-, pool, hpool, h⟩ := h
  have hid : pool.id = poolID := key_of_get hpool
  rw [← hid] at hpool
  have hedit : ShieldMove k rules ctx s { s with cover := s.cover.setPool { pool with
      description := if description ≠ "" then description else pool.description
      shieldLimit := if shieldLimit ≠ 0 then shieldLimit else pool.shieldLimit } } :=
    ShieldMove.editPool hpool rfl rfl
  refine .head hedit ?_
  split at h
  · rename_i hnonzero
    obtain ⟨rfl, -⟩ := Written.commit_eq_ok.mp h
    exact purchaseShieldWith_moves (fun _ => hshield) (fun _ => hrule hnonzero)
      (fun hne => absurd rfl hne) rfl
  · rename_i hzero
    unfold addFeesWithoutPurchase at h
    split at h
    · simp only [run_eq_ok, newDecCoinsFromCoins_eq_ok] at h
      obtain ⟨fees, hfees, rfl⟩ := h
      exact .single (.bookFees (hbooked (Bool.eq_true_of_not_eq_false hzero)) hfees)
    · cases h
      exact .refl

lemma setPoolActive_moves {id : Nat} {active : Bool} {already : Err}
    (h : setPoolActive s updater id active already = .ok s') : ShieldMoves k rules ctx s s' := by
  simp only [setPoolActive, run_eq_ok] at h
  obtain ⟨-, pool, hpool, -, rfl⟩ := h
  have hid : pool.id = id := key_of_get hpool
  rw [← hid] at hpool
  exact .single (.editPool hpool rfl rfl)

lemma updateSponsor_moves {newSponsor : String} {newSponsorAddr : AccAddress}
    (h : updateSponsor s poolID newSponsor newSponsorAddr updater = .ok s') :
    ShieldMoves k rules ctx s s' := by
  simp only [updateSponsor, run_eq_ok] at h
  obtain ⟨-, pool, hpool, rfl⟩ := h
  have hid : pool.id = poolID := key_of_get hpool
  rw [← hid] at hpool
  exact .single (.editPool hpool rfl rfl)

lemma unstakeFromShield_moves {purchaser : AccAddress} {amount : Int}
    (h : unstakeFromShield s poolID purchaser amount = .ok s') : ShieldMoves k rules ctx s s' := by
  simp only [unstakeFromShield, run_eq_ok] at h
  obtain ⟨sp, hsp, -, rfl⟩ := h
  obtain ⟨-, -, hstored⟩ := StakeBook.getStakeForShield_eq_some hsp
  exact .single (.unstake _ hstored)

lemma fundShieldBlockRewards_moves {amount : Coins} {sender : AccAddress}
    (hrule : rules.paid amount)
    (h : fundShieldBlockRewards k s amount sender = .ok s') : ShieldMoves k rules ctx s s' := by
  simp only [fundShieldBlockRewards, run_eq_ok, newDecCoinsFromCoins_eq_ok] at h
  obtain ⟨world, hsend, fees, hfees, rfl⟩ := h
  exact .single (.fund hrule hsend hfees)

lemma payoutNativeRewards_moves {addr : AccAddress}
    (h : payoutNativeRewards k s addr = .ok s') : ShieldMoves k rules ctx s s' := by
  unfold payoutNativeRewards at h
  dsimp only at h
  split at h
  · cases h
    exact .refl
  · rename_i hnonzero
    simp only [run_eq_ok] at h
    obtain ⟨world, hsend, rfl⟩ := h
    cases hp : s.collateral.getProvider addr with
    | none =>
      have hempty : getRewards s.collateral addr = MixedDecCoins.empty := by
        simp only [getRewards, hp]
      rw [hempty] at hnonzero
      exact absurd rfl hnonzero
    | some p =>
      obtain rfl : p.address = addr := key_of_get hp
      have hrewards : getRewards s.collateral p.address = p.rewards := by
        simp only [getRewards, hp]
      rw [hrewards] at hsend ⊢
      simp only [setRewards, hp, Option.getD_some]
      exact .single (.payRewards hp hsend)

lemma withdrawReimbursement_moves {proposalID : Nat} {beneficiary : AccAddress}
    (h : withdrawReimbursement k ctx s proposalID beneficiary = .ok s') :
    ShieldMoves k rules ctx s s' := by
  simp only [withdrawReimbursement, run_eq_ok] at h
  obtain ⟨pair, hpair, hbeneficiary, -, world, hsend, rfl⟩ := h
  obtain rfl : pair.proposalID = proposalID := key_of_get hpair
  rw [← not_not.mp hbeneficiary] at hsend
  exact .single (.reimburse hpair hsend)

end Messages

end Shentu
