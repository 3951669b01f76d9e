import Shentu.ClaimsBooked

/-!
Shield on three levels: the total, the pools and the purchases. The levels agree as
long as every rejected claim finds the pool and the purchase that it restores. A
pool is closed only when its purchases have no shield, so that its end changes no
sum.
-/

namespace Shentu

open Lib List Table

variable {σ : Type}

/-- The shield of the purchases of one pool. -/
def poolShield (xs : List (PoolPurchaser × Purchase)) (poolID : Nat) : Int :=
  (xs.map (fun x => if x.1.poolID = poolID then x.2.shield else 0)).sum

variable {xs : List (PoolPurchaser × Purchase)}

lemma poolShield_perm {ys : List (PoolPurchaser × Purchase)} (h : xs.Perm ys) (poolID : Nat) :
    poolShield xs poolID = poolShield ys poolID :=
  (h.map _).sum_eq

lemma poolShield_cons (pair : PoolPurchaser) (e : Purchase)
    (xs : List (PoolPurchaser × Purchase)) (poolID : Nat) :
    poolShield ((pair, e) :: xs) poolID =
      poolShield xs poolID + if poolID = pair.poolID then e.shield else 0 := by
  rw [poolShield, map_cons, sum_cons, add_comm, poolShield]
  simp only [eq_comm]

lemma poolShield_nonneg
    (h : ∀ x ∈ xs, 0 ≤ x.2.shield) (poolID : Nat) : 0 ≤ poolShield xs poolID := by
  refine sum_nonneg (forall_mem_map.mpr ?_)
  intro x hx
  split
  · exact h x hx
  · exact le_refl 0

lemma poolShield_of_ne {poolID : Nat}
    (h : ∀ x ∈ xs, x.1.poolID ≠ poolID) : poolShield xs poolID = 0 := by
  refine sum_eq_zero (forall_mem_map.mpr ?_)
  intro x hx
  exact if_neg (h x hx)

def Pool.addShield (pool : Pool) (amount : Int) : Pool :=
  { pool with shield := pool.shield + amount }

/-- The three levels agree; the IDs of the pools are below `next`. -/
structure PoolsAgree (xs : List (PoolPurchaser × Purchase)) (pools : Table Pool.id) (next : Nat)
    (total : Int) : Prop where
  total : total = pools.total Pool.shield
  shields : ∀ pool ∈ pools.rows, pool.shield = poolShield xs pool.id
  nonneg : ∀ x ∈ xs, 0 ≤ x.2.shield
  listed : ∀ x ∈ xs, x.1.poolID < next
  stored : ∀ pool ∈ pools.rows, pool.id < next

namespace PoolsAgree

variable {xs ys rest : List (PoolPurchaser × Purchase)} {pools : Table Pool.id} {next : Nat}
  {total : Int} {pool pool' : Pool} {pair : PoolPurchaser} {e e' : Purchase}

lemma adjust (h : PoolsAgree xs pools next total) (pool' : Pool) (amount : Int)
    (hpool : pools.get pool.id = some pool) (hid : pool'.id = pool.id)
    (hshield : pool'.shield = pool.shield + amount)
    (hys : ∀ id, poolShield ys id = poolShield xs id + if id = pool.id then amount else 0)
    (hnonneg : ∀ y ∈ ys, 0 ≤ y.2.shield) (hlisted : ∀ y ∈ ys, y.1.poolID < next) :
    PoolsAgree ys (pools.set pool') next (total + amount) := by
  refine ⟨?_, ?_, hnonneg, hlisted, ?_⟩
  · rw [total_set, hid, valueAt_of_get hpool, hshield, h.total]
    omega
  · intro q hq
    rcases Table.mem_set.mp hq with rfl | ⟨hold, hne⟩
    · rw [hys, hid, if_pos rfl, hshield, h.shields pool (mem_of_get hpool)]
    · rw [hid] at hne
      rw [hys, if_neg hne, h.shields q hold, add_zero]
  · intro q hq
    rcases Table.mem_set.mp hq with rfl | ⟨hold, -⟩
    · rw [hid]
      exact h.stored pool (mem_of_get hpool)
    · exact h.stored q hold

lemma of_perm (h : PoolsAgree xs pools next total) (hperm : ys.Perm xs) :
    PoolsAgree ys pools next total :=
  ⟨h.total, fun pool hpool => (h.shields pool hpool).trans (poolShield_perm hperm pool.id).symm,
    fun y hy => h.nonneg y (hperm.mem_iff.mp hy), fun y hy => h.listed y (hperm.mem_iff.mp hy),
    h.stored⟩

lemma forall_replaced {P : PoolPurchaser × Purchase → Prop} (hold : xs.Perm ((pair, e) :: rest))
    (hnew : ys.Perm ((pair, e') :: rest)) (h : ∀ x ∈ xs, P x) (he : P (pair, e) → P (pair, e')) :
    ∀ y ∈ ys, P y := by
  intro y hy
  rcases mem_cons.mp (hnew.mem_iff.mp hy) with rfl | hmem
  · exact he (h _ (hold.mem_iff.mpr mem_cons_self))
  · exact h y (hold.mem_iff.mpr (mem_cons_of_mem _ hmem))

/-- A purchase of a stored pool is replaced, with the difference booked on all levels. -/
lemma replace (h : PoolsAgree xs pools next total) (pool' : Pool)
    (hpool : pools.get pool.id = some pool) (hold : xs.Perm ((pair, e) :: rest))
    (hnew : ys.Perm ((pair, e') :: rest)) (hpair : pair.poolID = pool.id) (hid : pool'.id = pool.id)
    (hshield : pool'.shield = pool.shield + (e'.shield - e.shield)) (hnonneg : 0 ≤ e'.shield) :
    PoolsAgree ys (pools.set pool') next (total + (e'.shield - e.shield)) := by
  refine h.adjust pool' _ hpool hid hshield ?_ (forall_replaced hold hnew h.nonneg fun _ => hnonneg)
    (forall_replaced hold hnew h.listed id)
  intro id
  rw [poolShield_perm hnew, poolShield_perm hold, poolShield_cons, poolShield_cons, hpair]
  split <;> omega

lemma settle (h : PoolsAgree xs pools next total) (hold : xs.Perm ((pair, e) :: rest))
    (hnew : ys.Perm ((pair, e') :: rest)) (hshield : e'.shield = e.shield) :
    PoolsAgree ys pools next total := by
  refine ⟨h.total, ?_, forall_replaced hold hnew h.nonneg fun he => hshield ▸ he,
    forall_replaced hold hnew h.listed id, h.stored⟩
  intro pool hpool
  rw [h.shields pool hpool, poolShield_perm hold, poolShield_perm hnew, poolShield_cons,
    poolShield_cons, hshield]

lemma sell (h : PoolsAgree xs pools next total) (hpool : pools.get pool.id = some pool)
    (hnew : ys.Perm ((pair, e) :: xs)) (hpair : pair.poolID = pool.id) (hid : pool'.id = pool.id)
    (hshield : pool'.shield = pool.shield + e.shield) (hnonneg : 0 ≤ e.shield) :
    PoolsAgree ys (pools.set pool') next (total + e.shield) := by
  refine h.adjust pool' _ hpool hid hshield ?_ ?_ ?_
  · intro id
    rw [poolShield_perm hnew, poolShield_cons, hpair]
  · intro y hy
    rcases mem_cons.mp (hnew.mem_iff.mp hy) with rfl | hmem
    · exact hnonneg
    · exact h.nonneg y hmem
  · intro y hy
    rcases mem_cons.mp (hnew.mem_iff.mp hy) with rfl | hmem
    · rw [hpair]
      exact h.stored pool (mem_of_get hpool)
    · exact h.listed y hmem

lemma remove (h : PoolsAgree xs pools next total) (hpool : pools.get pool.id = some pool)
    (hold : xs.Perm ((pair, e) :: rest)) (hnew : ys.Perm rest) (hpair : pair.poolID = pool.id)
    (hid : pool'.id = pool.id) (hshield : pool'.shield = pool.shield - e.shield) :
    PoolsAgree ys (pools.set pool') next (total - e.shield) := by
  have hrest : ∀ y ∈ ys, y ∈ xs := fun y hy =>
    hold.mem_iff.mpr (mem_cons_of_mem _ (hnew.mem_iff.mp hy))
  refine h.adjust pool' (-e.shield) hpool hid hshield ?_
    (fun y hy => h.nonneg y (hrest y hy)) (fun y hy => h.listed y (hrest y hy))
  intro id
  rw [poolShield_perm hnew, poolShield_perm hold, poolShield_cons, hpair]
  split <;> omega

lemma addPool (h : PoolsAgree xs pools next total) (hid : pool.id = next)
    (hshield : pool.shield = 0) : PoolsAgree xs (pools.set pool) (next + 1) total := by
  have hnone : pools.get pool.id = none := by
    refine get_eq_none_iff.mpr ?_
    intro q hq heq
    have hlt := h.stored q hq
    omega
  refine ⟨?_, ?_, h.nonneg, fun x hx => Nat.lt_succ_of_lt (h.listed x hx), ?_⟩
  · rw [total_set, valueAt_of_get_none hnone, hshield, h.total]
    omega
  · intro q hq
    rcases Table.mem_set.mp hq with rfl | ⟨hold, -⟩
    · rw [hshield, poolShield_of_ne]
      intro x hx
      have hlt := h.listed x hx
      omega
    · exact h.shields q hold
  · intro q hq
    rcases Table.mem_set.mp hq with rfl | ⟨hold, -⟩
    · omega
    · exact Nat.lt_succ_of_lt (h.stored q hold)

lemma filter (h : PoolsAgree xs pools next total) {p : Pool → Bool}
    (hp : ∀ pool ∈ pools.rows, p pool = false → pool.shield ≤ 0) :
    PoolsAgree xs (pools.filter p) next total := by
  refine ⟨?_, fun q hq => h.shields q (Table.mem_filter.mp hq).1, h.nonneg, h.listed,
    fun q hq => h.stored q (Table.mem_filter.mp hq).1⟩
  rw [h.total]
  refine (total_filter_of_zero ?_).symm
  intro pool hpool hfalse
  have hle := hp pool hpool hfalse
  have hge := poolShield_nonneg h.nonneg pool.id
  rw [← h.shields pool hpool] at hge
  omega

end PoolsAgree

/-- The pools that stay open. -/
def Pool.staysOpen (pool : Pool) : Bool := !decide (pool.shield ≤ 0 ∧ pool.shieldLimit ≤ 0)

lemma closePools_pools (b : CoverBook) : (closePools b).pools = b.pools.filter Pool.staysOpen := by
  have hsweep := foldl_delete_eq_filter b.pools
    (fun pool => decide (pool.shield ≤ 0 ∧ pool.shieldLimit ≤ 0))
  simp only [decide_eq_true_eq] at hsweep
  exact hsweep

/-- The levels of a cover book agree. -/
abbrev CoverBook.PoolsAgree (b : CoverBook) : Prop :=
  Shentu.PoolsAgree b.purchases b.pools b.nextPoolID b.totalShield

lemma ShieldMove.poolsAgree {k : Keepers σ} {rules : MoveRules} {ctx : Ctx} {s s' : ShieldState σ}
    (hmove : ShieldMove k rules ctx s s') (h : s.cover.PoolsAgree) : s'.cover.PoolsAgree := by
  cases hmove with
  | @editPool pool pool' hpool hid hshield =>
    have hadjust := h.adjust pool' 0 hpool hid (by omega)
      (fun id => by rw [ite_self, add_zero]) h.nonneg h.listed
    rw [add_zero] at hadjust
    exact hadjust
  | addPool _ _ _ _ => exact h.addPool rfl rfl
  | closePools =>
    rw [CoverBook.PoolsAgree, closePools_pools]
    refine h.filter ?_
    intro pool _ hfalse
    simp only [Pool.staysOpen, Bool.not_eq_false', decide_eq_true_eq] at hfalse
    exact hfalse.1
  | paid hpool hnonneg _ _ _ _ =>
    exact h.sell hpool (s.purchases_sold ctx _ _ _ _ _) rfl rfl rfl hnonneg
  | staked hpool hnonneg _ _ _ =>
    exact h.sell hpool (s.purchases_sold ctx _ _ _ _ _) rfl rfl rfl hnonneg
  | settle hl he _ _ =>
    exact h.settle (heldPurchases_listed hl he) (heldPurchases_replace _ _ _ _ _) rfl
  | @remove l before after e pool hl he _ hpool =>
    have hid : pool.id = l.poolID := key_of_get hpool
    rw [← hid] at hpool
    exact h.remove hpool (heldPurchases_listed hl he) (heldPurchases_remove _ _ _ _) hid.symm
      rfl rfl
  | dropList hl he => exact h.of_perm (heldPurchases_delete hl he)
  | _ => exact h

/-- The loss of a claim is zero, or the pool and the purchase are where its rejection looks for
them. -/
def Restorable (d : Denom) (b : CoverBook) (p : Proposal) (claim : ShieldClaimProposal) : Prop :=
  claim.loss.amountOf d = 0 ∨ ((b.getPool claim.poolID).isSome = true ∧
    (b.findPurchase claim.poolID p.proposerAddress claim.purchaseID).isSome = true)

instance (d : Denom) (b : CoverBook) (p : Proposal) (claim : ShieldClaimProposal) :
    Decidable (Restorable d b p claim) := by
  unfold Restorable
  infer_instance

lemma Restorable.of_sameListing {d : Denom} {b b' : CoverBook} {p : Proposal}
    {claim : ShieldClaimProposal} (h : Restorable d b p claim) (hsame : SameListing b b') :
    Restorable d b' p claim := by
  unfold Restorable at *
  rw [hsame.pools, hsame.purchases]
  exact h

/-- Losses are not negative, and rejected claims are restored. -/
def accountRules (k : ChainKeepers σ) : ChainRules σ :=
  { ChainRules.any with loss := fun l => 0 ≤ l, restored := Restorable k.bondDenom }

/-- What a run keeps about the cover and the claims. -/
structure AccountsSound (d : Denom) (c : Chain σ) : Prop where
  claims : ClaimsSound d c
  agree : c.shield.cover.PoolsAgree

/-- A rejection that is restored raises all levels. -/
lemma PoolsAgree.rejectClaim {b : CoverBook} (h : b.PoolsAgree) {d : Denom} {p : Proposal}
    {claim : ShieldClaimProposal} (hloss : 0 ≤ claim.loss.amountOf d)
    (hrestored : Restorable d b p claim) :
    (b.rejectClaim claim.poolID p.proposerAddress claim.purchaseID
      (claim.loss.amountOf d)).PoolsAgree := by
  obtain ⟨htotal, -⟩ := rejectClaim_totals b claim.poolID p.proposerAddress claim.purchaseID
    (claim.loss.amountOf d)
  obtain ⟨-, hnext, -⟩ := rejectClaim_counters b claim.poolID p.proposerAddress claim.purchaseID
    (claim.loss.amountOf d)
  rw [CoverBook.PoolsAgree, htotal, hnext]
  rcases CoverBook.purchases_rejectClaim b claim.poolID p.proposerAddress claim.purchaseID
    (claim.loss.amountOf d) with ⟨e, rest, hstored, -, hold, hnew⟩ | ⟨hmissing, hsame⟩
  · rcases rejectClaim_pools b claim.poolID p.proposerAddress claim.purchaseID
      (claim.loss.amountOf d) with ⟨hnone, -⟩ | ⟨pool, hpool, hpools⟩
    · rw [hnone] at hstored
      cases hstored
    · have hid : pool.id = claim.poolID := key_of_get hpool
      have hpool' : b.pools.get pool.id = some pool := by
        rw [hid]
        exact hpool
      have he := h.nonneg _ (hold.mem_iff.mpr mem_cons_self)
      have hreplace := h.replace (pool.addShield (claim.loss.amountOf d))
        hpool' hold hnew hid.symm rfl
        (by simp only [Pool.addShield]; omega) (by dsimp only at he ⊢; omega)
      rw [hpools]
      rwa [add_sub_cancel_left] at hreplace
  · have hzero : claim.loss.amountOf d = 0 := by
      rcases hrestored with hzero | ⟨hpool, hfind⟩
      · exact hzero
      · rcases hmissing with hnone | hnone
        · rw [hnone] at hpool
          cases hpool
        · rw [hnone] at hfind
          cases hfind
    rw [hsame]
    rcases rejectClaim_pools b claim.poolID p.proposerAddress claim.purchaseID
      (claim.loss.amountOf d) with ⟨-, hpools⟩ | ⟨pool, hpool, hpools⟩
    · rw [hpools, hzero, add_zero]
      exact h
    · have hset : b.pools.set { pool with shield := pool.shield + claim.loss.amountOf d } =
          b.pools := by
        have hid : pool.id = claim.poolID := key_of_get hpool
        have hpool' : b.pools.get pool.id = some pool := by
          rw [hid]
          exact hpool
        rw [hzero, add_zero]
        exact set_of_get hpool'
      rw [hpools, hset, hzero, add_zero]
      exact h

variable {k : ChainKeepers σ}

lemma ChainMove.accountsSound {c c' : Chain σ}
    (hmove : ChainMove k (accountRules k) c c') (h : AccountsSound k.bondDenom c) :
    AccountsSound k.bondDenom c' := by
  refine ⟨hmove.claimsSound (fun _ hl => hl) h.claims, ?_⟩
  have hagree := h.agree
  cases hmove with
  | shield hshield => exact hshield.poolsAgree hagree
  | @submit g p claim l e s _ _ _ _ _ _ _ _ hloss hl he _ hsecure =>
    obtain ⟨pool, ratio, collateral, world, hpool, -, -, hle, -, -, rfl⟩ :=
      secureCollaterals_cases hl he hsecure
    obtain ⟨hlist, -, hstored⟩ := CoverBook.getPurchaseList_eq_some hl
    obtain ⟨rest, hold, hnew⟩ := heldPurchases_edit hstored he
      (fun e => e.claim (claim.loss.amountOf k.bondDenom)
        (c.ctx.blockTime + c.gov.params.votingPeriod * 2))
    have hid : pool.id = claim.poolID := key_of_get hpool
    have hpool' : c.shield.cover.pools.get pool.id = some pool := by
      rw [hid]
      exact hpool
    have hreplace := hagree.replace (pool.addShield (-claim.loss.amountOf k.bondDenom)) hpool'
      hold hnew (hlist.trans hid.symm) rfl
      (by simp only [Purchase.claim, Pool.addShield]; omega)
      (by simp only [Purchase.claim]; omega)
    simp only [Purchase.claim] at hreplace
    rw [show e.shield - claim.loss.amountOf k.bondDenom - e.shield =
      -claim.loss.amountOf k.bondDenom by omega] at hreplace
    exact hreplace
  | reject _ hp hcontent _ hrestored =>
    have hloss := h.claims.booked.nonneg _ (mem_of_get hp)
    rw [Proposal.lossIn_of_claim hcontent] at hloss
    exact hagree.rejectClaim hloss hrestored
  | pay _ _ _ _ _ hpay =>
    obtain ⟨b, world, rfl⟩ := createReimbursement_cases hpay
    exact hagree
  | _ => exact hagree

/-- A proposal is restorable if it is a claim. -/
def ClaimRestorable (d : Denom) (b : CoverBook) (p : Proposal) : Prop :=
  match p.content with
  | .shieldClaim claim => Restorable d b p claim
  | _ => True

instance (d : Denom) (b : CoverBook) (p : Proposal) : Decidable (ClaimRestorable d b p) := by
  unfold ClaimRestorable
  split <;> infer_instance

/-- Claimed losses are not negative, and every claim that is due and rejected is restorable. -/
def RestoresMeet (k : ChainKeepers σ) (c : Chain σ) : Event σ → Prop
  | .govEndBlocker t => ∀ p ∈ c.gov.openClaims.rows, p.votingEndTime ≤ c.ctx.blockTime →
      t.verdict p = .reject → ClaimRestorable k.bondDenom c.shield.cover p
  | e => SubmittedLoss k (fun l => 0 ≤ l) e

instance (k : ChainKeepers σ) (c : Chain σ) (e : Event σ) : Decidable (RestoresMeet k c e) := by
  unfold RestoresMeet
  induction e using Event.casesOn <;> infer_instance

lemma RestoresMeet.eventAllowed {c : Chain σ} {e : Event σ}
    (h : RestoresMeet k c e) : EventAllowed k (accountRules k) c e := by
  have hfree : PaymentsFree (accountRules k) :=
    ⟨fun _ => trivial, fun _ => trivial, fun _ _ => rfl⟩
  refine hfree.eventAllowed ?_ (fun _ _ _ _ _ _ => trivial) ?_
  · cases e with
    | govEndBlocker | beginBlock | endBlocker => trivial
    | action a => exact h
  · rintro t rfl b p claim hsame hp hdue hclaim hverdict
    have hrestorable := h p hp hdue hverdict
    simp only [ClaimRestorable, hclaim] at hrestorable
    exact hrestorable.of_sameListing hsame

lemma PoolsAgree.empty : PoolsAgree [] Table.empty 1 0 := by
  refine ⟨rfl, ?_, ?_, ?_, ?_⟩ <;> intro x hx <;> cases hx

lemma AccountsSound.of_run {params : ShieldParams} {govParams : GovParams}
    {world : σ} {ctx : Ctx} {es : List (Event σ)} {c : Chain σ} (hparams : params.validate)
    (hmeet : StepsMeet (RestoresMeet k) (exec k) (Chain.empty params govParams world ctx) es)
    (hrun : run k (Chain.empty params govParams world ctx) es = .ok c) :
    AccountsSound k.bondDenom c :=
  (run_invariant (accountRules k) (.const k) (fun _ => trivial)
    (fun _ _ h hmove => hmove.accountsSound h) (fun _ _ _ _ hd => hd.eventAllowed)
    (.empty hparams govParams world ctx)
    ⟨ClaimsSound.empty k.bondDenom params govParams world ctx, PoolsAgree.empty⟩ hmeet hrun).2

/-- In a run whose rejected claims are restorable, the total shield is the sum over the pools,
and the shield of every pool is the sum over its purchases. -/
theorem poolsAgree_of_run {k : ChainKeepers σ} {params : ShieldParams} {govParams : GovParams}
    {world : σ} {ctx : Ctx} {es : List (Event σ)} {c : Chain σ} (hparams : params.validate)
    (hmeet : StepsMeet (RestoresMeet k) (exec k) (Chain.empty params govParams world ctx) es)
    (hrun : run k (Chain.empty params govParams world ctx) es = .ok c) :
    c.shield.cover.totalShield = c.shield.cover.pools.total Pool.shield ∧
      ∀ pool ∈ c.shield.cover.pools.rows,
        pool.shield = poolShield c.shield.cover.purchases pool.id := by
  have hagree := (AccountsSound.of_run hparams hmeet hrun).agree
  exact ⟨hagree.total, hagree.shields⟩

/-- The claim of 20 by its purchaser is rejected: the levels agree on 60 afterwards. -/
theorem poolsAgree_own_claim : ∃ c : Chain Ledger, run ledgerChainKeepers ledgerStart
        (claimEvents 20 5 ++ [.govEndBlocker .reject]) = .ok c ∧
      c.shield.cover.totalShield = 60 ∧
      c.shield.cover.totalShield = c.shield.cover.pools.total Pool.shield ∧
      ∀ pool ∈ c.shield.cover.pools.rows,
        pool.shield = poolShield c.shield.cover.purchases pool.id := by
  obtain ⟨c, hc, htotal⟩ : ∃ c, run ledgerChainKeepers ledgerStart (claimEvents 20 5 ++
        [.govEndBlocker .reject]) = .ok c ∧ c.shield.cover.totalShield = 60 := by
    decide +kernel
  have hmeet : StepsMeet (RestoresMeet ledgerChainKeepers) (exec ledgerChainKeepers) ledgerStart
      (claimEvents 20 5 ++ [.govEndBlocker .reject]) := by
    decide +kernel
  exact ⟨c, hc, htotal, poolsAgree_of_run shortPeriodParams_validate hmeet hc⟩

/-- Address 6 submits the claim on the purchase of address 5. After its rejection pool 1 has a
shield of 60 and its purchases have 40. -/
theorem poolsAgree_lost_restore : ∃ c : Chain Ledger, run ledgerChainKeepers ledgerStart
        (claimEvents 20 6 ++ [.govEndBlocker .reject]) = .ok c ∧
      c.shield.cover.shieldOfPool 1 = 60 ∧ poolShield c.shield.cover.purchases 1 = 40 := by
  have hrun : OkAnd (run ledgerChainKeepers ledgerStart
      (claimEvents 20 6 ++ [.govEndBlocker .reject])) (fun c =>
        c.shield.cover.shieldOfPool 1 = 60 ∧ poolShield c.shield.cover.purchases 1 = 40) := by
    decide +kernel
  exact hrun.exists

end Shentu
