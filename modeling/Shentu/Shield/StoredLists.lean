import Shentu.Shield.Moves
import Shentu.Shield.ClaimRestore

/-!
What the functions of the shield module leave alone: the stored reimbursements, which
only a payout and a withdrawal write, the collateral book, which no sale writes, and that
no purchase list is stored without entries. A purchase adds an entry, a claim and its end edit one,
and only the expiry takes entries out of a list; it deletes the list when none is left. The moves of
the expiry pass through an empty list, so the functions themselves are looked at here.
-/

namespace Shentu

open Lib Table List

variable {σ : Type}

/-- No stored purchase list is empty. -/
def CoverBook.NoEmptyList (b : CoverBook) : Prop := ∀ l ∈ b.purchaseLists.rows, l.entries ≠ []

namespace CoverBook.NoEmptyList

variable {b : CoverBook}

lemma setPurchaseList (h : b.NoEmptyList) {l : PurchaseList} (hl : l.entries ≠ []) :
    (b.setPurchaseList l).NoEmptyList := by
  exact forall_mem_set hl h

lemma sell (h : b.NoEmptyList) (pool : Pool) (purchaser : AccAddress) (purchase : Purchase) :
    (b.sell pool purchaser purchase).NoEmptyList := by
  have hextended : (b.extendedList pool.id purchaser purchase).entries ≠ [] := by
    unfold extendedList
    split
    · exact cons_ne_nil _ _
    · exact append_ne_nil_of_right_ne_nil _ (cons_ne_nil _ _)
  exact h.setPurchaseList hextended

lemma rejectClaim (h : b.NoEmptyList) (poolID : Nat) (proposer : AccAddress) (id : Nat)
    (lossAmt : Int) : (b.rejectClaim poolID proposer id lossAmt).NoEmptyList := by
  unfold CoverBook.rejectClaim restoreShield claimEnd
  dsimp only
  split
  · exact h
  · split
    · exact h
    · rename_i l hl
      have hstored : l ∈ b.purchaseLists.rows := mem_of_get hl
      exact h.setPurchaseList (updateFirst_ne_nil (h l hstored))

end CoverBook.NoEmptyList

/-- The reimbursements are the same, and no purchase list becomes empty. -/
structure KeepsRecords (s s' : ShieldState σ) : Prop where
  reimbursements : s'.reimbursements = s.reimbursements
  lists : s.cover.NoEmptyList → s'.cover.NoEmptyList

lemma KeepsRecords.trans {s₁ s₂ s3 : ShieldState σ} (h : KeepsRecords s₁ s₂)
    (h' : KeepsRecords s₂ s3) : KeepsRecords s₁ s3 :=
  ⟨h'.reimbursements.trans h.reimbursements, fun hlists => h'.lists (h.lists hlists)⟩

/-- The withdraw queue is the same, too. -/
structure KeepsQueue (s s' : ShieldState σ) : Prop extends KeepsRecords s s' where
  queue : s'.collateral.withdrawQueue = s.collateral.withdrawQueue

/-- A sale leaves the whole collateral book as it is. -/
structure OnlySells (s s' : ShieldState σ) : Prop extends KeepsRecords s s' where
  collateral : s'.collateral = s.collateral

namespace OnlySells

variable {s s₁ s₂ : ShieldState σ}

lemma refl (s : ShieldState σ) : OnlySells s s := ⟨⟨rfl, id⟩, rfl⟩

lemma trans (h : OnlySells s s₁) (h' : OnlySells s₁ s₂) : OnlySells s s₂ :=
  ⟨h.toKeepsRecords.trans h'.toKeepsRecords, h'.collateral.trans h.collateral⟩

lemma keepsQueue (h : OnlySells s s₁) : KeepsQueue s s₁ :=
  ⟨h.toKeepsRecords, by rw [h.collateral]⟩

end OnlySells

section Purchases

variable {k : Keepers σ} {ctx : Ctx} {s s' : ShieldState σ}

variable {poolID : Nat} {purchaser : AccAddress}

lemma purchaseShieldWith_onlySells {shield : Coins} {description : String}
    {serviceFees stakingCoins : Coins} {r : Except Fault Purchase}
    (h : purchaseShieldWith k ctx s poolID shield description purchaser serviceFees stakingCoins =
      (s', r)) : OnlySells s s' := by
  rcases purchaseShieldWith_cases h with ⟨-, rfl | rfl⟩ | ⟨pool, s₁, fees, -, hpay, -, -, rfl⟩
  · exact .refl _
  · exact ⟨⟨rfl, id⟩, rfl⟩
  · have hpaid : s₁.cover = (takePurchaseID s).cover ∧ s₁.reimbursements = s.reimbursements ∧
        s₁.collateral = s.collateral := by
      rcases payPurchase_cases hpay with ⟨-, world, paid, -, -, rfl⟩ | ⟨-, hadd⟩
      · exact ⟨rfl, rfl, rfl⟩
      · obtain ⟨world, -, -, rfl⟩ := addStaking_cases hadd
        exact ⟨rfl, rfl, rfl⟩
    refine ⟨⟨hpaid.2.1, ?_⟩, hpaid.2.2⟩
    intro hs
    have hs1 : s₁.cover.NoEmptyList := by
      rw [hpaid.1]
      exact hs
    exact hs1.sell _ _ _

lemma purchaseShield_onlySells {shield : Coins} {description : String}
    {staking : Bool} {r : Except Fault Purchase}
    (h : purchaseShield k ctx s poolID shield description purchaser staking = (s', r)) :
    OnlySells s s' := by
  unfold purchaseShield at h
  split at h
  · cases h
    exact .refl _
  · split at h
    · cases h
      exact .refl _
    · split at h <;> exact purchaseShieldWith_onlySells h

lemma processStakeForShieldExpiration_onlySells {purchaseID : Nat}
    (h : processStakeForShieldExpiration k ctx s poolID purchaseID purchaser = .ok s') :
    OnlySells s s' := by
  rcases processStakeForShieldExpiration_cases h with
    ⟨rfl, -⟩ | ⟨staked, -, -, rfl | ⟨-, description, rfl⟩⟩
  · exact .refl _
  · exact ⟨⟨rfl, id⟩, rfl⟩
  · have hrefunded : OnlySells s (s.refunded k staked purchaseID purchaser) := ⟨⟨rfl, id⟩, rfl⟩
    exact hrefunded.trans (purchaseShield_onlySells rfl)

end Purchases

section Expiry

variable {stakes : StakeBook} {params : PoolParams} {ctx : Ctx} {lastUpdateTime : Time}
  {pair : PoolPurchaser} {loop loop' : ExpiryLoop}

lemma processEntry_purchaseLists {e : Purchase} {stay : Option Purchase}
    (h : processEntry stakes params ctx lastUpdateTime pair loop e = .ok (loop', stay)) :
    loop'.cover.purchaseLists = loop.cover.purchaseLists := by
  unfold processEntry at h
  split at h
  · cases h
    rfl
  · obtain ⟨⟨loop1, e1⟩, hsettle, hremove⟩ := bind_eq_ok.mp h
    have hsame : loop1.cover = loop.cover := by
      rcases settleFees_cases hsettle with ⟨rfl, -⟩ | ⟨share, total, -, -, -, -, rfl, -⟩ <;> rfl
    rw [← hsame]
    cases stay with
    | none =>
      obtain ⟨-, pool, -, rfl⟩ := removeDeleted_none hremove
      rfl
    | some e2 =>
      obtain ⟨rfl, -⟩ := removeDeleted_some hremove
      rfl

lemma processEntries_purchaseLists {entries kept : List Purchase}
    (h : processEntries stakes params ctx lastUpdateTime pair entries loop = .ok (loop', kept)) :
    loop'.cover.purchaseLists = loop.cover.purchaseLists := by
  induction entries generalizing loop kept with
  | nil =>
    cases h
    rfl
  | cons e entries ih =>
    simp only [processEntries, run_eq_ok, Prod.mk.injEq] at h
    obtain ⟨⟨loop1, stay⟩, hentry, ⟨loop2, rest⟩, hrest, rfl, rfl⟩ := h
    exact (ih hrest).trans (processEntry_purchaseLists hentry)

lemma processList_noEmptyList (hs : loop.cover.NoEmptyList)
    (h : processList stakes params ctx lastUpdateTime loop pair = .ok loop') :
    loop'.cover.NoEmptyList := by
  unfold processList at h
  split at h
  · cases h
    exact hs
  · rename_i l hl
    simp only [run_eq_ok] at h
    obtain ⟨⟨loop1, kept⟩, hentries, rfl⟩ := h
    have hs1 : loop1.cover.NoEmptyList := by
      rw [CoverBook.NoEmptyList, processEntries_purchaseLists hentries]
      exact hs
    split
    · intro l' hl'
      exact hs1 l' (mem_delete.mp hl').1
    · rename_i hkept
      exact hs1.setPurchaseList (l := { l with entries := kept }) hkept

end Expiry

/-- Only the rewards of providers change. -/
structure RewardsOnly (b b' : CollateralBook) : Prop where
  queue : b'.withdrawQueue = b.withdrawQueue
  collateral : ∀ a, b'.providers.valueAt Provider.collateral a =
    b.providers.valueAt Provider.collateral a
  withdrawing : ∀ a, b'.providers.valueAt Provider.withdrawing a =
    b.providers.valueAt Provider.withdrawing a

namespace RewardsOnly

lemma refl (b : CollateralBook) : RewardsOnly b b := ⟨rfl, fun _ => rfl, fun _ => rfl⟩

lemma trans {b1 b2 b3 : CollateralBook} (h : RewardsOnly b1 b2) (h' : RewardsOnly b2 b3) :
    RewardsOnly b1 b3 :=
  ⟨h'.queue.trans h.queue, fun a => (h'.collateral a).trans (h.collateral a),
    fun a => (h'.withdrawing a).trans (h.withdrawing a)⟩

lemma setProvider {b : CollateralBook} {p : Provider} (hp : b.getProvider p.address = some p)
    (rewards : MixedDecCoins) : RewardsOnly b (b.setProvider { p with rewards := rewards }) := by
  have hsame : ∀ f : Provider → Int, f { p with rewards := rewards } = f p → ∀ a,
      (b.setProvider { p with rewards := rewards }).providers.valueAt f a =
        b.providers.valueAt f a := by
    intro f hf a
    have hset := valueAt_set b.providers { p with rewards := rewards } f a
    refine hset.trans ?_
    split
    · rename_i ha
      rw [hf, ha]
      exact (valueAt_of_get hp f).symm
    · rfl
  exact ⟨rfl, hsame _ rfl, hsame _ rfl⟩

end RewardsOnly

lemma distributeFees_rewardsOnly {d : Denom} {total : Int} {fees : DecCoins}
    {providers : List Provider} {b b' : CollateralBook} {remaining remaining' : DecCoins}
    (hstored : ∀ p ∈ providers, b.getProvider p.address = some p)
    (hdistinct : providers.Pairwise (fun p q => p.address ≠ q.address))
    (h : distributeFees d total fees providers b remaining = .ok (b', remaining')) :
    RewardsOnly b b' := by
  induction providers generalizing b remaining with
  | nil =>
    cases h
    exact .refl _
  | cons p providers ih =>
    obtain ⟨given, remaining1, -, -, -, h, hstored1, hdistinct1⟩ :=
      distributeFees_cons hstored hdistinct h
    exact (RewardsOnly.setProvider (hstored p mem_cons_self) _).trans
      (ih hstored1 hdistinct1 h)

section Events

variable {k : Keepers σ} {ctx : Ctx} {s s' : ShieldState σ}

/-- The end blocker first sells and settles, then gives rewards to the providers, then
releases withdrawals and closes pools. -/
lemma endBlocker_cases (h : endBlocker k ctx s = .ok s') :
    ∃ s₁ b, OnlySells s s₁ ∧ RewardsOnly s₁.collateral b ∧
      b.dequeueCompletedWithdrawQueue ctx = .ok s'.collateral ∧
      s'.reimbursements = s₁.reimbursements ∧ s'.cover.purchaseLists = s₁.cover.purchaseLists := by
  simp only [endBlocker, run_eq_ok] at h
  obtain ⟨s₁, hremove, b, hdequeue, rfl⟩ := h
  unfold removeExpiredPurchasesAndDistributeFees at hremove
  split at hremove
  · cases hremove
    exact ⟨s, s.collateral, OnlySells.refl _, RewardsOnly.refl _, hdequeue, rfl, rfl⟩
  · simp only [run_eq_ok, distributeBlock] at hremove
    obtain ⟨loop, hloop, s₂, hstakes, fees, -, ⟨b1, native⟩, hdistribute, rfl⟩ := hremove
    have hexpired : OnlySells s (storeExpired s loop) := by
      refine ⟨⟨rfl, ?_⟩, rfl⟩
      intro hs
      exact foldlM_invariant (P := fun loop => loop.cover.NoEmptyList)
        (fun _ _ _ _ hl hstep => processList_noEmptyList hl hstep) hs hloop
    have hreleased : OnlySells s s₂ :=
      foldlM_invariant (P := OnlySells s) (fun _ _ _ _ hkeeps hstep =>
        hkeeps.trans (processStakeForShieldExpiration_onlySells hstep)) hexpired hstakes
    exact ⟨s₂, b1, hreleased, distributeFees_rewardsOnly
      (fun p hp => Table.get_of_mem hp) (s₂.collateral.providers.sorted.imp ne_of_lt) hdistribute,
      hdequeue, rfl, rfl⟩

lemma endBlocker_keepsRecords (h : endBlocker k ctx s = .ok s') : KeepsRecords s s' := by
  obtain ⟨s₁, b, hsells, -, -, hreimbursements, hlists⟩ := endBlocker_cases h
  refine ⟨hreimbursements.trans hsells.reimbursements, ?_⟩
  intro hs
  rw [CoverBook.NoEmptyList, hlists]
  exact hsells.lists hs

lemma secureCollaterals_keepsRecords {poolID : Nat} {purchaser : AccAddress} {purchaseID : Nat}
    {loss : Coins} {duration : Duration}
    (h : secureCollaterals k ctx s poolID purchaser purchaseID loss duration = .ok s') :
    KeepsRecords s s' := by
  simp only [secureCollaterals, run_eq_ok] at h
  obtain ⟨pool, -, -, -, l, hl, e, -, -, ratio, -, secured, -, rfl⟩ := h
  refine ⟨rfl, ?_⟩
  intro hs
  have hentries : l.entries ≠ [] := hs l (mem_of_get hl)
  have hset : l.entries.set (purchaseIndex l purchaseID)
      (e.claim (loss.amountOf k.bondDenom) (ctx.blockTime + duration)) ≠ [] := by
    rwa [ne_eq, set_eq_nil_iff]
  exact hs.setPurchaseList (l := { l with entries := l.entries.set _ _ }) hset

lemma withdrawReimbursement_cases {proposalID : Nat} {beneficiary : AccAddress}
    (h : withdrawReimbursement k ctx s proposalID beneficiary = .ok s') :
    ∃ r world, s.reimbursements.get proposalID = some ⟨proposalID, r⟩ ∧
      r.beneficiary = beneficiary ∧ r.payoutTime ≤ ctx.blockTime ∧
      k.sendCoinsFromModuleToAccount s.world .shield r.beneficiary r.amount = some world ∧
      s' = { s with reimbursements := s.reimbursements.delete proposalID, world := world } := by
  simp only [withdrawReimbursement, run_eq_ok, not_not, not_lt] at h
  obtain ⟨⟨id, r⟩, hstored, rfl, htime, world, hsend, rfl⟩ := h
  obtain rfl : id = proposalID := key_of_get hstored
  exact ⟨r, world, hstored, rfl, htime, hsend, rfl⟩

end Events

end Shentu
