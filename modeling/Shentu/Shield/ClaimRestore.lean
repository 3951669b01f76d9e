import Shentu.Shield.Claim

/-!
The levels on which the loss of a claim is kept: the total claimed, and the shield in
total, of the pool and of the purchase. What the end of a rejected claim does to
each of them depends on whether the pool and the purchase are found.
-/

namespace Shentu

open Lib Option Table CoverBook

namespace CoverBook

/-- The shield of a stored pool, zero if there is none. -/
def shieldOfPool (b : CoverBook) (poolID : Nat) : Int := b.pools.valueAt Pool.shield poolID

/-- The first purchase with an ID in the list of a pool and purchaser. -/
def findPurchase (b : CoverBook) (poolID : Nat) (purchaser : AccAddress) (id : Nat) :
    Option Purchase :=
  (b.getPurchaseList poolID purchaser).bind (fun l => l.getPurchase id)

/-- The shield of a purchase, zero if it is not there. -/
def shieldOfPurchase (b : CoverBook) (poolID : Nat) (purchaser : AccAddress) (id : Nat) : Int :=
  ((b.findPurchase poolID purchaser id).map Purchase.shield).getD 0

end CoverBook

/-- An amount is moved from the total claimed to one purchase, its pool and the total shield,
and no other purchase or pool changes. -/
structure LossMoved (b b' : CoverBook) (poolID : Nat) (purchaser : AccAddress) (id : Nat)
    (amount : Int) : Prop where
  totalClaimed : b'.totalClaimed = b.totalClaimed - amount
  totalShield : b'.totalShield = b.totalShield + amount
  pools : ∀ pool, b'.shieldOfPool pool = b.shieldOfPool pool + if pool = poolID then amount else 0
  purchases : ∀ pool addr i, b'.shieldOfPurchase pool addr i = b.shieldOfPurchase pool addr i +
    if pool = poolID ∧ addr = purchaser ∧ i = id then amount else 0

variable {b : CoverBook}

lemma shieldOfPool_setPool {pool : Pool} (hpool : b.getPool pool.id = some pool)
    (amount : Int) (id : Nat) :
    (b.setPool { pool with shield := pool.shield + amount }).shieldOfPool id =
      b.shieldOfPool id + if id = pool.id then amount else 0 := by
  unfold CoverBook.shieldOfPool setPool
  rw [valueAt_set]
  split
  · rename_i hid
    rw [hid, valueAt_of_get hpool]
  · omega

variable {f : Purchase → Purchase}

/-- The edited purchase is found under its ID, and any other is found as before. -/
lemma getPurchase_edit (hid : ∀ e, (f e).purchaseID = e.purchaseID)
    (l : PurchaseList) (id i : Nat) :
    (l.edit id f).getPurchase i =
      if i = id then (l.getPurchase i).map f else l.getPurchase i := by
  split
  · rename_i hi
    rw [hi]
    exact find?_updateFirst_self (fun e => by rw [hid]) l.entries
  · rename_i hi
    refine find?_updateFirst_of_disjoint (fun e => by rw [hid]) ?_ l.entries
    intro e he
    rw [decide_eq_true_eq] at he
    rw [decide_eq_false_iff_not, he]
    exact Ne.symm hi

/-- An edit of a stored list that adds to the shield changes that purchase only. -/
lemma shieldOfPurchase_edit {l : PurchaseList} (id : Nat) {amount : Int}
    (hl : b.purchaseLists.get l.key = some l)
    (hid : ∀ e, (f e).purchaseID = e.purchaseID) (hf : ∀ e, (f e).shield = e.shield + amount)
    (pool : Nat) (addr : AccAddress) (i : Nat) :
    (b.setPurchaseList (l.edit id f)).shieldOfPurchase pool addr i =
      b.shieldOfPurchase pool addr i +
        if (pool = l.poolID ∧ addr = l.purchaser ∧ i = id) ∧ (l.getPurchase id).isSome = true then
          amount else 0 := by
  have hget : (b.setPurchaseList (l.edit id f)).getPurchaseList pool addr =
      if poolKey pool addr = l.key then some (l.edit id f) else b.getPurchaseList pool addr :=
    get_set _ _ _
  unfold CoverBook.shieldOfPurchase CoverBook.findPurchase
  rw [hget]
  by_cases hkey : poolKey pool addr = l.key
  · have hl' : b.getPurchaseList pool addr = some l := by
      rw [← hl, ← hkey]
      rfl
    rw [if_pos hkey, hl', bind_some, bind_some, getPurchase_edit hid]
    obtain ⟨rfl, rfl⟩ := poolKey_inj.mp hkey
    by_cases hi : i = id
    · subst hi
      cases l.getPurchase i <;> simp [hf]
    · simp [hi]
  · rw [if_neg hkey, if_neg (fun h => hkey (poolKey_inj.mpr ⟨h.1.1, h.1.2.1⟩)), add_zero]

/-- The same pools are stored and the same purchases are listed. -/
structure SameListing (b b' : CoverBook) : Prop where
  pools : ∀ poolID, (b'.getPool poolID).isSome = (b.getPool poolID).isSome
  purchases : ∀ poolID purchaser id,
    (b'.findPurchase poolID purchaser id).isSome = (b.findPurchase poolID purchaser id).isSome

lemma SameListing.refl (b : CoverBook) : SameListing b b := ⟨fun _ => rfl, fun _ _ _ => rfl⟩

lemma SameListing.trans {b1 b2 b3 : CoverBook} (h : SameListing b1 b2) (h' : SameListing b2 b3) :
    SameListing b1 b3 :=
  ⟨fun poolID => (h'.pools poolID).trans (h.pools poolID), fun poolID purchaser id =>
      (h'.purchases poolID purchaser id).trans (h.purchases poolID purchaser id)⟩

lemma SameListing.setPool {pool pool' : Pool}
    (hpool : b.getPool pool.id = some pool) (hid : pool'.id = pool.id) :
    SameListing b (b.setPool pool') := by
  refine ⟨?_, fun _ _ _ => rfl⟩
  intro poolID
  have hget : (b.setPool pool').getPool poolID =
      if poolID = pool'.id then some pool' else b.getPool poolID := get_set _ _ _
  rw [hget]
  split
  · rename_i heq
    rw [heq, hid, hpool]
    rfl
  · rfl

lemma SameListing.edit {l : PurchaseList} (hl : b.purchaseLists.get l.key = some l)
    (id : Nat) (hid : ∀ e, (f e).purchaseID = e.purchaseID) :
    SameListing b (b.setPurchaseList (l.edit id f)) := by
  refine ⟨fun _ => rfl, ?_⟩
  intro poolID purchaser i
  have hget : (b.setPurchaseList (l.edit id f)).getPurchaseList poolID purchaser =
      if poolKey poolID purchaser = l.key then some (l.edit id f)
      else b.getPurchaseList poolID purchaser := get_set _ _ _
  unfold CoverBook.findPurchase
  rw [hget]
  split
  · rename_i hkey
    have hl' : b.getPurchaseList poolID purchaser = some l := by
      rw [← hl, ← hkey]
      rfl
    rw [hl', bind_some, bind_some, getPurchase_edit hid]
    split <;> simp
  · rfl

section Restore

variable (b : CoverBook) (poolID : Nat) (proposer : AccAddress) (id : Nat) (lossAmt : Int)

/-- The book after the restore and the end of the claim. -/
def CoverBook.rejectClaim : CoverBook :=
  (b.restoreShield poolID proposer id lossAmt).1.claimEnd lossAmt

lemma rejectClaim_totals :
    (b.rejectClaim poolID proposer id lossAmt).totalShield = b.totalShield + lossAmt ∧
      (b.rejectClaim poolID proposer id lossAmt).totalClaimed = b.totalClaimed - lossAmt := by
  unfold rejectClaim restoreShield claimEnd
  dsimp only
  split
  · exact ⟨rfl, rfl⟩
  · split <;> exact ⟨rfl, rfl⟩

lemma rejectClaim_counters :
    (b.rejectClaim poolID proposer id lossAmt).nextPurchaseID = b.nextPurchaseID ∧
      (b.rejectClaim poolID proposer id lossAmt).nextPoolID = b.nextPoolID ∧
      (b.rejectClaim poolID proposer id lossAmt).purchaseQueue = b.purchaseQueue := by
  unfold rejectClaim restoreShield claimEnd
  dsimp only
  split
  · exact ⟨rfl, rfl, rfl⟩
  · split <;> exact ⟨rfl, rfl, rfl⟩

lemma rejectClaim_pools :
    (b.getPool poolID = none ∧ (b.rejectClaim poolID proposer id lossAmt).pools = b.pools) ∨
    ∃ pool, b.getPool poolID = some pool ∧
      (b.rejectClaim poolID proposer id lossAmt).pools =
        b.pools.set { pool with shield := pool.shield + lossAmt } := by
  unfold rejectClaim restoreShield claimEnd
  dsimp only
  split
  · rename_i hnone
    exact .inl ⟨hnone, rfl⟩
  · rename_i pool hpool
    refine .inr ⟨pool, hpool, ?_⟩
    split <;> rfl

lemma shieldOfPool_rejectClaim (pool : Nat) :
    (b.rejectClaim poolID proposer id lossAmt).shieldOfPool pool = b.shieldOfPool pool +
      if pool = poolID ∧ (b.getPool poolID).isSome = true then lossAmt else 0 := by
  unfold rejectClaim restoreShield claimEnd
  dsimp only
  split
  · rename_i hnone
    have hnone' : b.getPool poolID = none := hnone
    simp [hnone', CoverBook.shieldOfPool]
  · rename_i p hp
    have hp' : b.getPool poolID = some p := hp
    obtain rfl : p.id = poolID := key_of_get hp'
    have hset := shieldOfPool_setPool hp' lossAmt pool
    simp only [hp', isSome_some, and_true]
    split <;> exact hset

/-- The purchase is found under the address that submitted the claim, or not at all. -/
lemma shieldOfPurchase_rejectClaim (pool : Nat) (addr : AccAddress) (i : Nat) :
    (b.rejectClaim poolID proposer id lossAmt).shieldOfPurchase pool addr i =
      b.shieldOfPurchase pool addr i +
        if (pool = poolID ∧ addr = proposer ∧ i = id) ∧ (b.getPool poolID).isSome = true ∧
          (b.findPurchase poolID proposer id).isSome = true then lossAmt else 0 := by
  unfold rejectClaim restoreShield claimEnd
  dsimp only
  split
  · rename_i hnone
    have hnone' : b.getPool poolID = none := hnone
    simp [hnone', CoverBook.shieldOfPurchase, CoverBook.findPurchase, getPurchaseList]
  · rename_i p hp
    have hp' : b.getPool poolID = some p := hp
    simp only [hp', isSome_some, true_and]
    split
    · rename_i hnone
      have hnone' : b.getPurchaseList poolID proposer = none := hnone
      have hfind : b.findPurchase poolID proposer id = none := by
        rw [CoverBook.findPurchase, hnone', bind_none]
      rw [hfind, if_neg (by simp), add_zero]
      rfl
    · rename_i l hl
      have hl' : b.getPurchaseList poolID proposer = some l := hl
      obtain ⟨rfl, rfl, hstored⟩ := getPurchaseList_eq_some hl'
      have hfind : b.findPurchase l.poolID l.purchaser id = l.getPurchase id := by
        rw [CoverBook.findPurchase, hl', bind_some]
      rw [hfind]
      exact shieldOfPurchase_edit id (f := fun e => { e with shield := e.shield + lossAmt })
        hstored (fun _ => rfl) (fun _ => rfl) pool addr i

lemma sameListing_rejectClaim : SameListing b (b.rejectClaim poolID proposer id lossAmt) := by
  unfold rejectClaim restoreShield claimEnd
  dsimp only
  split
  · exact ⟨fun _ => rfl, fun _ _ _ => rfl⟩
  · rename_i p hp
    have hp' : b.getPool poolID = some p := hp
    obtain rfl : p.id = poolID := key_of_get hp'
    have hset : SameListing b (b.setPool { p with shield := p.shield + lossAmt }) :=
      SameListing.setPool hp' rfl
    split
    · exact ⟨hset.pools, hset.purchases⟩
    · rename_i l hl
      have hl' : b.getPurchaseList p.id proposer = some l := hl
      obtain ⟨-, -, hstored⟩ := getPurchaseList_eq_some hl'
      have hedit := hset.trans (SameListing.edit hstored id
        (b := b.setPool { p with shield := p.shield + lossAmt })
        (f := fun e => { e with shield := e.shield + lossAmt }) (fun _ => rfl))
      exact ⟨hedit.pools, hedit.purchases⟩

variable {b poolID proposer id lossAmt}

/-- A rejection undoes the claim if and only if the loss is zero, or the pool and the purchase
are there and the claim was submitted by the purchaser. -/
lemma rejectClaim_lossMoved_iff {purchaser : AccAddress} :
    LossMoved b (b.rejectClaim poolID proposer id lossAmt) poolID purchaser id lossAmt ↔
      lossAmt = 0 ∨ ((b.getPool poolID).isSome = true ∧ proposer = purchaser ∧
        (b.findPurchase poolID purchaser id).isSome = true) := by
  obtain ⟨hshield, hclaimed⟩ := rejectClaim_totals b poolID proposer id lossAmt
  constructor
  · intro h
    by_cases hzero : lossAmt = 0
    · exact .inl hzero
    · have hpurchase := h.purchases poolID purchaser id
      have hself : poolID = poolID ∧ purchaser = purchaser ∧ id = id := ⟨rfl, rfl, rfl⟩
      rw [shieldOfPurchase_rejectClaim, if_pos hself] at hpurchase
      split at hpurchase
      · rename_i hcond
        obtain ⟨⟨-, rfl, -⟩, hpool, hlisted⟩ := hcond
        exact .inr ⟨hpool, rfl, hlisted⟩
      · omega
  · rintro (rfl | ⟨hpool, rfl, hlisted⟩)
    · refine ⟨hclaimed, hshield, ?_, ?_⟩
      · intro pool
        rw [shieldOfPool_rejectClaim, ite_self, ite_self]
      · intro pool addr i
        rw [shieldOfPurchase_rejectClaim, ite_self, ite_self]
    · refine ⟨hclaimed, hshield, ?_, ?_⟩
      · intro pool
        rw [shieldOfPool_rejectClaim]
        simp only [hpool, and_true]
      · intro pool addr i
        rw [shieldOfPurchase_rejectClaim]
        simp only [hpool, hlisted, and_true]

end Restore

end Shentu
