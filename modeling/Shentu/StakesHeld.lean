import Shentu.PurchaseIDs

/-!
The stakes of purchases are never released. The expiry of a purchase asks for the
release of its stake only where it ends the service fees of the purchase, and a
purchase made by staking has none. So no end blocker refunds or renews a stake,
and a stake is still recorded when its purchase is gone.
-/

namespace Shentu

open Lib List Table

variable {σ : Type}

/-- The purchases with a recorded stake have IDs that were given out, and pay no fees. -/
structure StakesUnpaid (xs : List (PoolPurchaser × Purchase)) (next : Nat)
    (stakings : Table OriginalStaking.purchaseID) : Prop where
  recorded : ∀ id, stakings.valueAt OriginalStaking.amount id ≠ 0 → id < next
  unpaid : ∀ x ∈ xs, stakings.valueAt OriginalStaking.amount x.2.purchaseID ≠ 0 →
    x.2.serviceFees.native.isAllPositive = false

namespace StakesUnpaid

variable {xs ys rest : List (PoolPurchaser × Purchase)} {next : Nat}
  {stakings : Table OriginalStaking.purchaseID} {pair pair' : PoolPurchaser} {e e' : Purchase}

lemma of_subset (h : StakesUnpaid xs next stakings) (hsub : ∀ y ∈ ys, y ∈ xs) :
    StakesUnpaid ys next stakings :=
  ⟨h.recorded, fun y hy => h.unpaid y (hsub y hy)⟩

lemma mono (h : StakesUnpaid xs next stakings) {next' : Nat} (hle : next ≤ next') :
    StakesUnpaid xs next' stakings :=
  ⟨fun id hid => lt_of_lt_of_le (h.recorded id hid) hle, h.unpaid⟩

lemma replace (h : StakesUnpaid xs next stakings) (hold : xs.Perm ((pair, e) :: rest))
    (hnew : ys.Perm ((pair', e') :: rest)) (hid : e'.purchaseID = e.purchaseID)
    (hfees : e.serviceFees.native.isAllPositive = false →
      e'.serviceFees.native.isAllPositive = false) : StakesUnpaid ys next stakings := by
  refine ⟨h.recorded, ?_⟩
  intro y hy hstaked
  rcases mem_cons.mp (hnew.mem_iff.mp hy) with rfl | hrest
  · rw [hid] at hstaked
    exact hfees (h.unpaid (pair, e) (hold.mem_iff.mpr mem_cons_self) hstaked)
  · exact h.unpaid y (hold.mem_iff.mpr (mem_cons_of_mem _ hrest)) hstaked

lemma addPaid (h : StakesUnpaid xs next stakings) (hnew : ys.Perm ((pair, e) :: xs))
    (hid : e.purchaseID = next) : StakesUnpaid ys (next + 1) stakings := by
  refine ⟨(h.mono (Nat.le_succ _)).recorded, ?_⟩
  intro y hy hstaked
  rcases mem_cons.mp (hnew.mem_iff.mp hy) with rfl | hold
  · have hlt : e.purchaseID < next := h.recorded _ hstaked
    omega
  · exact h.unpaid y hold hstaked

lemma addStaked (h : StakesUnpaid xs next stakings) (hfresh : FreshIDs xs next)
    (hnew : ys.Perm ((pair, e) :: xs)) (hfees : e.serviceFees.native.isAllPositive = false)
    (amount : Int) : StakesUnpaid ys (next + 1) (stakings.set ⟨next, amount⟩) := by
  refine ⟨?_, ?_⟩
  · intro id hstaked
    rw [valueAt_set] at hstaked
    split at hstaked
    · rename_i hid
      exact hid ▸ Nat.lt_succ_self next
    · exact Nat.lt_succ_of_lt (h.recorded id hstaked)
  · intro y hy hstaked
    rcases mem_cons.mp (hnew.mem_iff.mp hy) with rfl | hold
    · exact hfees
    · have hlt := hfresh.lt_next hold
      rw [valueAt_set, if_neg (ne_of_lt hlt)] at hstaked
      exact h.unpaid y hold hstaked

lemma delete (h : StakesUnpaid xs next stakings) (id : Nat) :
    StakesUnpaid xs next (stakings.delete id) := by
  have hle : ∀ i, (stakings.delete id).valueAt OriginalStaking.amount i ≠ 0 →
      stakings.valueAt OriginalStaking.amount i ≠ 0 := by
    intro i hi
    rw [valueAt_delete] at hi
    split at hi
    · exact absurd rfl hi
    · exact hi
  exact ⟨fun i hi => h.recorded i (hle i hi), fun y hy hstaked => h.unpaid y hy (hle _ hstaked)⟩

end StakesUnpaid

/-- What a run keeps about the stakes. -/
structure StakesKeptUnpaid (s : ShieldState σ) : Prop where
  fresh : s.cover.FreshIDs
  unpaid : StakesUnpaid s.cover.purchases s.cover.nextPurchaseID s.stakes.originalStakings

variable {k : Keepers σ} {ctx : Ctx} {s s' : ShieldState σ} {c c' : Chain σ}

lemma ShieldMove.stakesUnpaid {rules : MoveRules} (hmove : ShieldMove k rules ctx s s')
    (h : StakesKeptUnpaid s) : StakesKeptUnpaid s' := by
  refine ⟨hmove.freshIDs h.fresh, ?_⟩
  have hunpaid := h.unpaid
  cases hmove with
  | takeID => exact hunpaid.mono (Nat.le_succ _)
  | paid _ _ _ _ _ _ => exact hunpaid.addPaid (s.purchases_sold ctx _ _ _ _ _) rfl
  | staked _ _ _ _ _ =>
    exact hunpaid.addStaked h.fresh (s.purchases_sold ctx _ _ _ _ _) rfl _
  | refund _ _ _ _ => exact hunpaid.delete _
  | settle hl he _ _ =>
    exact hunpaid.replace (heldPurchases_listed hl he) (heldPurchases_replace _ _ _ _ _) rfl
      (fun _ => rfl)
  | remove hl he _ _ =>
    refine hunpaid.of_subset ?_
    intro y hy
    have hrest := (heldPurchases_remove _ _ _ _).mem_iff.mp hy
    exact (heldPurchases_listed hl he).mem_iff.mpr (mem_cons_of_mem _ hrest)
  | dropList hl he =>
    exact hunpaid.of_subset (fun y hy => (heldPurchases_delete hl he).mem_iff.mp hy)
  | _ => exact hunpaid

lemma ChainMove.stakesUnpaid {k : ChainKeepers σ} {rules : ChainRules σ}
    (hmove : ChainMove k rules c c') (h : StakesKeptUnpaid c.shield) :
    StakesKeptUnpaid c'.shield := by
  rcases hmove.shieldMove_or_claimStep with hshield | hclaim
  · exact hshield.stakesUnpaid h
  · refine ⟨hmove.freshIDs h.fresh, ?_⟩
    rw [hclaim.next, hclaim.stakes]
    rcases hclaim.purchases with hsame | ⟨pair, e, shield, time, rest, hold, hnew⟩
    · rw [hsame]
      exact h.unpaid
    · exact h.unpaid.replace hold hnew rfl id

/-- The loop over expiring purchases asks for no release. -/
lemma LoopMoves.updates_nil (h : StakesKeptUnpaid s) {lastUpdateTime : Time} {loop : ExpiryLoop}
    (hmoves : LoopMoves s.stakes s.params.pool ctx lastUpdateTime (ExpiryLoop.start s) loop) :
    loop.stakeForShieldUpdateList = [] := by
  have hkept : loop.stakeForShieldUpdateList = [] ∧ StakesUnpaid loop.cover.purchases
      s.cover.nextPurchaseID s.stakes.originalStakings := by
    refine reflTransGen_invariant (P := fun loop => loop.stakeForShieldUpdateList = [] ∧
      StakesUnpaid loop.cover.purchases s.cover.nextPurchaseID s.stakes.originalStakings)
      ?_ hmoves ⟨rfl, h.unpaid⟩
    rintro loop1 loop2 ⟨hnil, hunpaid⟩ hmove
    cases hmove with
    | @settle loop' l before after e e' hlisted hsettle =>
      have hold := heldPurchases_listed hlisted.stored hlisted.entries
      rcases settleFees_cases hsettle with
        ⟨rfl, rfl⟩ | ⟨share, total, -, hpositive, -, -, rfl, rfl⟩
      · exact ⟨hnil, hunpaid.replace hold (heldPurchases_replace _ _ _ _ _) rfl id⟩
      · have hnone : s.stakes.getOriginalStaking e.purchaseID = 0 := by
          by_contra hstaked
          have hfalse := hunpaid.unpaid (l.pair, e) (hold.mem_iff.mpr mem_cons_self) hstaked
          rw [hpositive] at hfalse
          cases hfalse
        refine ⟨?_, hunpaid.replace hold (heldPurchases_replace _ _ _ _ _) rfl (fun _ => rfl)⟩
        simp only [ExpiryLoop.setList, hnone, ne_eq, not_true_eq_false, if_false]
        exact hnil
    | @remove loop' l before after e hlisted hremove =>
      obtain ⟨-, pool, -, rfl⟩ := removeDeleted_none hremove
      refine ⟨hnil, hunpaid.of_subset ?_⟩
      intro y hy
      have hrest := (heldPurchases_remove _ _ _ _).mem_iff.mp hy
      exact (heldPurchases_listed hlisted.stored hlisted.entries).mem_iff.mpr
        (mem_cons_of_mem _ hrest)
    | @dropList l hstored hempty =>
      exact ⟨hnil, hunpaid.of_subset
        (fun y hy => (heldPurchases_delete hstored hempty).mem_iff.mp hy)⟩
  exact hkept.1

lemma StakesKeptUnpaid.releasesAllowed (h : StakesKeptUnpaid c.shield)
    (rules : ChainRules σ) : ReleasesAllowed rules c := by
  intro lastUpdateTime loop hmoves ppp hppp
  rw [LoopMoves.updates_nil h hmoves] at hppp
  cases hppp

lemma StakesKeptUnpaid.empty (params : ShieldParams) (world : σ) :
    StakesKeptUnpaid (ShieldState.empty params world) := by
  refine ⟨⟨nodup_nil, ?_⟩, ⟨?_, ?_⟩⟩
  · intro id hid
    cases hid
  · intro id hstaked
    exact absurd rfl hstaked
  · intro x hx
    cases hx

/-- No stake is released. -/
def heldRules : ChainRules σ := { ChainRules.any with released := fun _ => False }

lemma ShieldMove.originalStaking_eq
    (hmove : ShieldMove k (heldRules (σ := σ)).toMoveRules ctx s s') (h : StakesKeptUnpaid s)
    {id : Nat}
    (hstaked : s.stakes.getOriginalStaking id ≠ 0) :
    s'.stakes.getOriginalStaking id = s.stakes.getOriginalStaking id := by
  cases hmove with
  | staked _ _ _ _ _ =>
    have hlt : id < s.cover.nextPurchaseID := h.unpaid.recorded id hstaked
    exact (valueAt_set _ _ _ _).trans (if_neg (ne_of_lt hlt))
  | refund hreleased _ _ _ => exact hreleased.elim
  | _ => rfl

lemma ChainMove.originalStaking_eq {k : ChainKeepers σ} (hmove : ChainMove k heldRules c c')
    (h : StakesKeptUnpaid c.shield) {id : Nat} (hstaked : c.shield.stakes.getOriginalStaking id ≠ 0)
    : c'.shield.stakes.getOriginalStaking id = c.shield.stakes.getOriginalStaking id := by
  rcases hmove.shieldMove_or_claimStep with hshield | hclaim
  · exact hshield.originalStaking_eq h hstaked
  · rw [hclaim.stakes]

lemma StakesKeptUnpaid.eventAllowed {k : ChainKeepers σ}
    (h : StakesKeptUnpaid c.shield) (e : Event σ) : EventAllowed k heldRules c e := by
  have hfree : PaymentsFree (heldRules (σ := σ)) :=
    ⟨fun _ => trivial, fun _ => trivial, fun _ _ => rfl⟩
  refine hfree.eventAllowed ?_ (fun _ => h.releasesAllowed heldRules)
    (fun _ _ _ _ _ _ _ _ _ _ => trivial)
  unfold SubmittedLoss
  split <;> trivial

/-- A run keeps every recorded stake. -/
lemma run_originalStaking {k : ChainKeepers σ} {es : List (Event σ)}
    (hsound : ChainSound c) (h : StakesKeptUnpaid c.shield) (hrun : run k c es = .ok c') :
    ChainSound c' ∧ StakesKeptUnpaid c'.shield ∧
      ∀ id, c.shield.stakes.getOriginalStaking id ≠ 0 →
        c'.shield.stakes.getOriginalStaking id = c.shield.stakes.getOriginalStaking id := by
  refine run_invariant heldRules (d := fun _ _ => True) (P := fun c1 => StakesKeptUnpaid c1.shield ∧
      ∀ id, c.shield.stakes.getOriginalStaking id ≠ 0 →
        c1.shield.stakes.getOriginalStaking id = c.shield.stakes.getOriginalStaking id)
    (.const k) (fun _ => trivial) ?_ (fun c1 e _ hP _ => hP.1.eventAllowed e) hsound
    ⟨h, fun _ _ => rfl⟩ (stepsMeet_of_forall _ _ (fun _ _ => trivial)) hrun
  rintro c1 c2 ⟨hunpaid, hsame⟩ hmove
  refine ⟨hmove.stakesUnpaid hunpaid, ?_⟩
  intro id hstaked
  have hstaked1 : c1.shield.stakes.getOriginalStaking id ≠ 0 := by
    rw [hsame id hstaked]
    exact hstaked
  exact (hmove.originalStaking_eq hunpaid hstaked1).trans (hsame id hstaked)

lemma removeExpired_cases
    (h : StakesKeptUnpaid s) (hremove : removeExpiredPurchasesAndDistributeFees k ctx s = .ok s') :
    (s.fees.started = none ∧ s' = s) ∨ ∃ lastUpdateTime loop,
      s.fees.started = some lastUpdateTime ∧
      LoopMoves s.stakes s.params.pool ctx lastUpdateTime (ExpiryLoop.start s) loop ∧
      distributeBlock k ctx lastUpdateTime loop (storeExpired s loop) = .ok s' := by
  unfold removeExpiredPurchasesAndDistributeFees at hremove
  split at hremove
  · rename_i hnone
    cases hremove
    exact .inl ⟨hnone, rfl⟩
  · rename_i lastUpdateTime hstarted
    simp only [bind_eq_ok] at hremove
    obtain ⟨loop, hloop, s2, hstakes, hdistribute⟩ := hremove
    have hmoves := expireLoop_moves hloop
    rw [LoopMoves.updates_nil h hmoves] at hstakes
    cases hstakes
    exact .inr ⟨lastUpdateTime, loop, hstarted, hmoves, hdistribute⟩

lemma distributeBlock_frame {lastUpdateTime : Time} {loop : ExpiryLoop}
    (h : distributeBlock k ctx lastUpdateTime loop s = .ok s') :
    s'.cover = s.cover ∧ s'.stakes = s.stakes := by
  simp only [distributeBlock, run_eq_ok] at h
  obtain ⟨fees, -, ⟨collateral, native⟩, -, rfl⟩ := h
  exact ⟨rfl, rfl⟩

lemma endBlocker_stakes
    (h : StakesKeptUnpaid s) (hend : endBlocker k ctx s = .ok s') : s'.stakes = s.stakes := by
  simp only [endBlocker, run_eq_ok] at hend
  obtain ⟨s1, hremove, b, -, rfl⟩ := hend
  rcases removeExpired_cases h hremove with ⟨-, rfl⟩ | ⟨lastUpdateTime, loop, -, -, hdistribute⟩
  · rfl
  · exact (distributeBlock_frame hdistribute).2

/-- From an empty chain no end blocker processes a stake, and a stake that is recorded stays
recorded in every further run. -/
theorem stakes_never_released {k : ChainKeepers σ} {params : ShieldParams} {govParams : GovParams}
    {world : σ} {ctx : Ctx} {es : List (Event σ)} {c : Chain σ} (hparams : params.validate)
    (hrun : run k (Chain.empty params govParams world ctx) es = .ok c) :
    (∀ c', exec k c .endBlocker = .ok c' → c'.shield.stakes = c.shield.stakes) ∧
      ∀ es' c' id, run k c es' = .ok c' → c.shield.stakes.getOriginalStaking id ≠ 0 →
        c'.shield.stakes.getOriginalStaking id = c.shield.stakes.getOriginalStaking id := by
  obtain ⟨hsound, hunpaid, -⟩ := run_originalStaking (.empty hparams govParams world ctx)
    (.empty params world) hrun
  refine ⟨?_, ?_⟩
  · intro c' hend
    simp only [exec, run_eq_ok] at hend
    obtain ⟨s, hend, rfl⟩ := hend
    exact endBlocker_stakes hunpaid hend
  · intro es' c' id hrun'
    exact (run_originalStaking hsound hunpaid hrun').2.2 id

/-- Address 5 stakes 40 for a shield of 20 as purchase 2, protected until 1101. -/
def stakeBlock : Block Ledger :=
  txBlock 1 [.depositCollateral 1 (uctk 100),
    .createPool 7 (uctk 10) ⟨uctk 1, []⟩ "sponsor" 9 "pool" 100,
    .stakeForShield 1 (uctk 20) "shop" 5] .reject

/-- The stake of purchase 2 is still recorded after the block in which the purchase expires. -/
theorem stakes_never_released_at_expiry :
    ∃ c c' : Chain Ledger, run ledgerChainKeepers ledgerStart stakeBlock.events = .ok c ∧
      run ledgerChainKeepers c (txBlock 101 [] .reject).events = .ok c' ∧
      c.shield.stakes.getOriginalStaking 2 = 40 ∧ c'.shield.stakes.getOriginalStaking 2 = 40 := by
  obtain ⟨c, hc, hstaked, c', hc'⟩ : ∃ c, run ledgerChainKeepers ledgerStart stakeBlock.events = .ok
        c ∧ c.shield.stakes.getOriginalStaking 2 = 40 ∧
      ∃ a, run ledgerChainKeepers c (txBlock 101 [] .reject).events = .ok a := by
    decide +kernel
  have hkept := (stakes_never_released shortPeriodParams_validate hc).2 _ c' 2 hc'
    (by rw [hstaked]; decide)
  exact ⟨c, c', hc, hc', hstaked, hkept.trans hstaked⟩

/-- Purchase 2 is live until its protection ends at 1101. After the first block at a later time,
1102, it is gone and its stake of 40 is still recorded. -/
theorem stake_held_after_expiry :
    ∃ c c' : Chain Ledger, run ledgerChainKeepers ledgerStart stakeBlock.events = .ok c ∧
      (∃ e, c.shield.cover.findPurchase 1 5 2 = some e ∧ e.protectionEndTime = 1101) ∧
      run ledgerChainKeepers c (txBlock 101 [] .reject).events = .ok c' ∧
      c'.ctx.blockTime = 1102 ∧ c'.shield.stakes.getOriginalStaking 2 = 40 ∧
      ∀ e ∈ c'.shield.cover.getAllPurchases, e.purchaseID ≠ 2 := by
  simp only [exists_and_left]
  decide +kernel

end Shentu
