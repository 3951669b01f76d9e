import Shentu.PoolAccounts
import Shentu.StakesHeld

/-!
When a pool is closed. The end blocker closes a pool whose shield and limit are not
positive, and looks at nothing that refers to the pool. A claim lowers the shield of
a pool for the time of its voting and the admin can set any limit, so a pool can be
closed before its purchases are removed and its claims are decided.
-/

namespace Shentu

open Lib List Table

variable {σ : Type}

/-- What the expiry of purchases at a block time leaves of a cover book. -/
structure Expired (now : Time) (b b' : CoverBook) : Prop where
  limits : ∀ id, (b'.getPool id).map Pool.shieldLimit = (b.getPool id).map Pool.shieldLimit
  kept : ∀ x ∈ b.purchases, now ≤ x.2.deletionTime → ∃ y ∈ b'.purchases,
    y.1 = x.1 ∧ y.2.shield = x.2.shield ∧ y.2.deletionTime = x.2.deletionTime
  listed : ∀ y ∈ b'.purchases, ∃ x ∈ b.purchases, x.1 = y.1 ∧ x.2.shield = y.2.shield

lemma Expired.refl (now : Time) (b : CoverBook) : Expired now b b :=
  ⟨fun _ => rfl, fun x hx _ => ⟨x, hx, rfl, rfl, rfl⟩, fun y hy => ⟨y, hy, rfl, rfl⟩⟩

lemma Expired.trans {now : Time} {b1 b2 b3 : CoverBook} (h : Expired now b1 b2)
    (h' : Expired now b2 b3) : Expired now b1 b3 := by
  refine ⟨fun id => (h'.limits id).trans (h.limits id), ?_, ?_⟩
  · intro x hx hlive
    obtain ⟨y, hy, hpair, hshield, htime⟩ := h.kept x hx hlive
    obtain ⟨z, hz, hpair', hshield', htime'⟩ := h'.kept y hy (htime ▸ hlive)
    exact ⟨z, hz, hpair'.trans hpair, hshield'.trans hshield, htime'.trans htime⟩
  · intro z hz
    obtain ⟨y, hy, hpair, hshield⟩ := h'.listed z hz
    obtain ⟨x, hx, hpair', hshield'⟩ := h.listed y hy
    exact ⟨x, hx, hpair'.trans hpair, hshield'.trans hshield⟩

lemma Expired.setPool_limits {b : CoverBook} {pool : Pool} (hpool : b.getPool pool.id = some pool)
    (shield : Int) (id : Nat) :
    ((b.pools.set { pool with shield := shield }).get id).map Pool.shieldLimit =
      (b.getPool id).map Pool.shieldLimit := by
  rw [get_set]
  split
  · rename_i hid
    rw [hid, hpool]
    rfl
  · rfl

lemma LoopMove.expired {stakes : StakeBook} {params : PoolParams} {ctx : Ctx}
    {lastUpdateTime : Time} {loop loop' : ExpiryLoop}
    (hmove : LoopMove stakes params ctx lastUpdateTime loop loop') :
    Expired ctx.blockTime loop.cover loop'.cover := by
  cases hmove with
  | @settle loop1 l before after e e' hlisted hsettle =>
    have hold := heldPurchases_listed hlisted.stored hlisted.entries
    have hcover : loop1.cover = loop.cover ∧ e'.shield = e.shield ∧
        e'.deletionTime = e.deletionTime := by
      rcases settleFees_cases hsettle with ⟨rfl, rfl⟩ | ⟨_, _, -, -, -, -, rfl, rfl⟩
      · exact ⟨rfl, rfl, rfl⟩
      · exact ⟨rfl, rfl, rfl⟩
    obtain ⟨hcover, hshield, htime⟩ := hcover
    have hnew : (loop1.cover.setPurchaseList
        { l with entries := before ++ e' :: after }).purchases.Perm
          ((l.pair, e') :: otherPurchases loop.cover.purchaseLists l before after) := by
      rw [hcover]
      exact heldPurchases_replace _ _ _ _ _
    refine ⟨?_, ?_, ?_⟩
    · intro id
      simp only [ExpiryLoop.setList, CoverBook.setPurchaseList, CoverBook.getPool, hcover]
    · intro x hx _
      rcases mem_cons.mp (hold.mem_iff.mp hx) with rfl | hrest
      · exact ⟨(l.pair, e'), hnew.mem_iff.mpr mem_cons_self, rfl, hshield, htime⟩
      · exact ⟨x, hnew.mem_iff.mpr (mem_cons_of_mem _ hrest), rfl, rfl, rfl⟩
    · intro y hy
      rcases mem_cons.mp (hnew.mem_iff.mp hy) with rfl | hrest
      · exact ⟨(l.pair, e), hold.mem_iff.mpr mem_cons_self, rfl, hshield.symm⟩
      · exact ⟨y, hold.mem_iff.mpr (mem_cons_of_mem _ hrest), rfl, rfl⟩
  | @remove loop1 l before after e hlisted hremove =>
    obtain ⟨hdeleted, pool, hpool, rfl⟩ := removeDeleted_none hremove
    have hold := heldPurchases_listed hlisted.stored hlisted.entries
    have hnew := heldPurchases_remove loop.cover.purchaseLists l before after
    have hid : pool.id = l.poolID := key_of_get hpool
    refine ⟨?_, ?_, ?_⟩
    · intro id
      refine Expired.setPool_limits ?_ _ id
      rw [hid]
      exact hpool
    · intro x hx hlive
      rcases mem_cons.mp (hold.mem_iff.mp hx) with rfl | hrest
      · exact absurd hdeleted (not_lt.mpr hlive)
      · exact ⟨x, hnew.mem_iff.mpr hrest, rfl, rfl, rfl⟩
    · intro y hy
      exact ⟨y, hold.mem_iff.mpr (mem_cons_of_mem _ (hnew.mem_iff.mp hy)), rfl, rfl⟩
  | @dropList l hstored hempty =>
    have hperm := heldPurchases_delete hstored hempty
    exact ⟨fun _ => rfl, fun x hx _ => ⟨x, hperm.mem_iff.mpr hx, rfl, rfl, rfl⟩,
      fun y hy => ⟨y, hperm.mem_iff.mp hy, rfl, rfl⟩⟩

lemma LoopMoves.expired {stakes : StakeBook} {params : PoolParams} {ctx : Ctx}
    {lastUpdateTime : Time} {loop loop' : ExpiryLoop}
    (hmoves : LoopMoves stakes params ctx lastUpdateTime loop loop') :
    Expired ctx.blockTime loop.cover loop'.cover := by
  induction hmoves with
  | refl => exact .refl _ _
  | tail _ hmove ih => exact ih.trans hmove.expired

lemma removeExpired_expired {k : Keepers σ} {ctx : Ctx} {s s' : ShieldState σ}
    (h : StakesKeptUnpaid s) (hremove : removeExpiredPurchasesAndDistributeFees k ctx s = .ok s') :
    Expired ctx.blockTime s.cover s'.cover := by
  rcases removeExpired_cases h hremove with ⟨-, rfl⟩ | ⟨lastUpdateTime, loop, -, hmoves, hend⟩
  · exact .refl _ _
  · rw [(distributeBlock_frame hend).1]
    have hexpired := hmoves.expired
    exact ⟨hexpired.limits, hexpired.kept, hexpired.listed⟩

/-- The claim of a proposal is on a pool. -/
def Proposal.claimsPool (p : Proposal) (poolID : Nat) : Prop :=
  match p.content with
  | .shieldClaim claim => claim.poolID = poolID
  | _ => False

instance (p : Proposal) (poolID : Nat) : Decidable (p.claimsPool poolID) := by
  unfold Proposal.claimsPool
  induction p.content using Content.casesOn <;> infer_instance

/-- A pool has no purchase and no claim that is voted on. -/
structure PoolUnused (c : Chain σ) (poolID : Nat) : Prop where
  purchases : ∀ x ∈ c.shield.cover.purchases, x.1.poolID ≠ poolID
  claims : ∀ p ∈ c.gov.openClaims.rows, ¬ p.claimsPool poolID

/-- A pool without a limit has a purchase that holds it open, or no claim and no purchase that
is empty. -/
def ClosesUnused (c : Chain σ) (pool : Pool) : Prop :=
  pool.shieldLimit ≤ 0 →
    (∃ x ∈ c.shield.cover.purchases, x.1.poolID = pool.id ∧ 0 < x.2.shield ∧
      c.ctx.blockTime ≤ x.2.deletionTime) ∨
    ((∀ x ∈ c.shield.cover.purchases, x.1.poolID = pool.id → x.2.shield ≠ 0) ∧
      ∀ p ∈ c.gov.openClaims.rows, ¬ p.claimsPool pool.id)

instance (c : Chain σ) (pool : Pool) : Decidable (ClosesUnused c pool) := by
  unfold ClosesUnused
  infer_instance

/-- At an end blocker every stored pool closes unused, and rejected claims are restorable. -/
def PoolsMeet (k : ChainKeepers σ) (c : Chain σ) : Event σ → Prop
  | .endBlocker => ∀ pool ∈ c.shield.cover.pools.rows, ClosesUnused c pool
  | e => RestoresMeet k c e

instance (k : ChainKeepers σ) (c : Chain σ) (e : Event σ) : Decidable (PoolsMeet k c e) := by
  unfold PoolsMeet
  induction e using Event.casesOn <;> infer_instance

lemma PoolsMeet.restoresMeet {k : ChainKeepers σ} {c : Chain σ} {e : Event σ}
    (h : PoolsMeet k c e) : RestoresMeet k c e := by
  cases e with
  | endBlocker => trivial
  | beginBlock | action | govEndBlocker => exact h

lemma shield_le_poolShield {xs : List (PoolPurchaser × Purchase)} (h : ∀ x ∈ xs, 0 ≤ x.2.shield)
    {x : PoolPurchaser × Purchase} (hx : x ∈ xs) : x.2.shield ≤ poolShield xs x.1.poolID := by
  have hmem := mem_map_of_mem
    (f := fun y : PoolPurchaser × Purchase => if y.1.poolID = x.1.poolID then y.2.shield else 0) hx
  rw [if_pos rfl] at hmem
  refine single_le_sum (forall_mem_map.mpr ?_) _ hmem
  intro y hy
  split
  · exact h y hy
  · exact le_refl 0

/-- A pool that is closed has no shield and no limit. -/
lemma closePools_closed {b : CoverBook} {pool : Pool} (hpool : b.getPool pool.id = some pool)
    (hclosed : (closePools b).getPool pool.id = none) : pool.shield ≤ 0 ∧ pool.shieldLimit ≤ 0 := by
  rw [CoverBook.getPool, closePools_pools, get_filter] at hclosed
  by_contra hopen
  have hstays : pool.staysOpen = true := by
    simp only [Pool.staysOpen, decide_eq_false hopen, Bool.not_false]
  have hget : (b.pools.get pool.id).filter Pool.staysOpen = some pool := by
    rw [show b.pools.get pool.id = some pool from hpool, Option.filter_some, if_pos hstays]
  rw [hget] at hclosed
  cases hclosed

/-- The purchases of a closed pool are empty, so under the condition it has none. -/
lemma endBlocker_closes {k : Keepers σ} {c : Chain σ} {s : ShieldState σ}
    (hrate : 0 < c.shield.params.shieldStakingRate) (hkept : StakesKeptUnpaid c.shield)
    (hagree : c.shield.cover.PoolsAgree) (hend : endBlocker k c.ctx c.shield = .ok s) {pool : Pool}
    (hpool : c.shield.cover.getPool pool.id = some pool) (hcloses : ClosesUnused c pool)
    (hclosed : s.cover.getPool pool.id = none) : PoolUnused { c with shield := s } pool.id := by
  simp only [endBlocker, run_eq_ok] at hend
  obtain ⟨s1, hremove, b, -, rfl⟩ := hend
  have hmoves : ShieldMoves k MoveRules.any c.ctx c.shield s1 :=
    removeExpiredPurchasesAndDistributeFees_moves hrate (fun _ => trivial)
      (fun _ _ _ _ _ => trivial) hremove
  have hagree1 : s1.cover.PoolsAgree :=
    reflTransGen_invariant (P := fun s : ShieldState σ => s.cover.PoolsAgree)
      (fun _ _ h hmove => hmove.poolsAgree h) hmoves hagree
  have hexpired := removeExpired_expired hkept hremove
  have hlimit := hexpired.limits pool.id
  rw [hpool] at hlimit
  obtain ⟨pool1, hpool1, hsame⟩ := Option.map_eq_some_iff.mp hlimit
  have hid : pool1.id = pool.id := key_of_get hpool1
  rw [← hid] at hpool1 hclosed
  obtain ⟨hshield, hnolimit⟩ := closePools_closed hpool1 hclosed
  rw [hagree1.shields pool1 (mem_of_get hpool1), hid] at hshield
  have hempty : ∀ y ∈ s1.cover.purchases, y.1.poolID = pool.id → y.2.shield ≤ 0 := by
    intro y hy hy_pool
    have hle := shield_le_poolShield hagree1.nonneg hy
    rw [hy_pool] at hle
    exact hle.trans hshield
  rcases hcloses (hsame ▸ hnolimit) with ⟨x, hx, hx_pool, hpositive, hlive⟩ | ⟨hnonzero, hclaims⟩
  · obtain ⟨y, hy, hpair, hy_shield, -⟩ := hexpired.kept x hx hlive
    have hle := hempty y hy (by rw [hpair, hx_pool])
    omega
  · refine ⟨?_, hclaims⟩
    intro y hy hy_pool
    obtain ⟨x, hx, hpair, hx_shield⟩ := hexpired.listed y hy
    have hle := hempty y hy hy_pool
    have hge := hagree1.nonneg y hy
    exact hnonzero x hx (by rw [hpair, hy_pool]) (by omega)

/-- In a run from the empty chain whose steps meet the condition, an end blocker closes only
pools that have no purchase and no claim that is voted on. -/
theorem closedPool_unused {k : ChainKeepers σ} {params : ShieldParams} {govParams : GovParams}
    {world : σ} {ctx : Ctx} {es : List (Event σ)} {c c' : Chain σ} (hparams : params.validate)
    (hmeet : StepsMeet (PoolsMeet k) (exec k) (Chain.empty params govParams world ctx)
      (es ++ [.endBlocker]))
    (hrun : run k (Chain.empty params govParams world ctx) es = .ok c)
    (hend : exec k c .endBlocker = .ok c') :
    ∀ pool ∈ c.shield.cover.pools.rows, c'.shield.cover.getPool pool.id = none →
      PoolUnused c' pool.id := by
  intro pool hpool hclosed
  obtain ⟨hbefore, hafter⟩ := stepsMeet_append.mp hmeet
  obtain ⟨hcloses, -⟩ := hafter c hrun
  have hagree := (AccountsSound.of_run hparams (hbefore.mono fun _ _ h => h.restoresMeet)
    hrun).agree
  obtain ⟨hsound, hkept, -⟩ := run_originalStaking (ChainSound.empty hparams govParams world ctx)
    (StakesKeptUnpaid.empty params world) hrun
  simp only [exec, run_eq_ok] at hend
  obtain ⟨s, hend, rfl⟩ := hend
  exact endBlocker_closes hsound.rate hkept hagree hend (Table.get_of_mem hpool)
    (hcloses pool hpool) hclosed

/-- Provider 1 deposits 100, and the admin opens pool 1 with a purchase of 10. -/
def poolEvents : List (Event Ledger) :=
  [.beginBlock 1, .action (.tx (.depositCollateral 1 (uctk 100))),
    .action (.tx (.createPool 7 (uctk 10) ⟨uctk 1, []⟩ "sponsor" 9 "pool" 100))]

/-- The admin takes the limit of pool 1 away. -/
def noLimitEvent : Event Ledger := .action (.tx (.updatePool 7 [] ⟨[], []⟩ 1 "" (-1)))

/-- The pool without a limit is closed when its purchase is removed at the end of its time. -/
theorem closedPool_unused_after_expiry :
    ∃ c c' : Chain Ledger, run ledgerChainKeepers ledgerStart
        (poolEvents ++ [noLimitEvent, .endBlocker, .beginBlock 1000]) = .ok c ∧
      exec ledgerChainKeepers c .endBlocker = .ok c' ∧
      (c.shield.cover.getPool 1).isSome = true ∧ c'.shield.cover.getPool 1 = none ∧
      PoolUnused c' 1 := by
  obtain ⟨c, hc, ⟨pool, hpool, hid⟩, c', hc', hclosed⟩ : ∃ c, run ledgerChainKeepers ledgerStart
        (poolEvents ++ [noLimitEvent, .endBlocker, .beginBlock 1000]) = .ok c ∧
      (∃ pool, c.shield.cover.getPool 1 = some pool ∧ pool.id = 1) ∧
      ∃ c', exec ledgerChainKeepers c .endBlocker = .ok c' ∧ c'.shield.cover.getPool 1 = none := by
    decide +kernel
  have hmeet : StepsMeet (PoolsMeet ledgerChainKeepers) (exec ledgerChainKeepers) ledgerStart
      ((poolEvents ++ [noLimitEvent, .endBlocker, .beginBlock 1000]) ++ [.endBlocker]) := by
    decide +kernel
  have hunused := closedPool_unused shortPeriodParams_validate hmeet hc hc' pool
    (mem_of_get hpool) (by rw [hid]; exact hclosed)
  rw [hid] at hunused
  exact ⟨c, c', hc, hc', by rw [hpool]; rfl, hclosed, hunused⟩

/-- The purchase of 10 is claimed in full and the limit is taken away. The end blocker closes
pool 1, with its purchase listed and the claim on it voted on. -/
theorem pool_closed_under_claim :
    ∃ c c' : Chain Ledger, run ledgerChainKeepers ledgerStart (poolEvents ++
        [.action (.tx (.submitProposal (.shieldClaim ⟨0, 1, 1, uctk 10, 7⟩) [] 7)),
          noLimitEvent]) = .ok c ∧
      exec ledgerChainKeepers c .endBlocker = .ok c' ∧
      (c.shield.cover.getPool 1).isSome = true ∧ c'.shield.cover.getPool 1 = none ∧
      (∃ x ∈ c'.shield.cover.purchases, x.1.poolID = 1) ∧
      ∃ p ∈ c'.gov.openClaims.rows, p.claimsPool 1 := by
  simp only [exists_and_left]
  decide +kernel

end Shentu
