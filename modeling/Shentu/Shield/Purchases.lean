import Shentu.Shield.Moves
import Shentu.Shield.ClaimRestore

/-!
The purchases of all lists as one list, up to its order. Every operation of the
cover book adds a purchase, replaces one or removes one, so that sums over the
purchases and properties of each of them follow from a permutation.
-/

namespace Shentu

open Lib Table Option List

def PurchaseList.pair (l : PurchaseList) : PoolPurchaser := ⟨l.poolID, l.purchaser⟩

/-- The purchases of a list with their pool and purchaser. -/
def PurchaseList.held (l : PurchaseList) : List (PoolPurchaser × Purchase) :=
  l.entries.map (fun e => (l.pair, e))

/-- All purchases of a table of lists. -/
def heldPurchases (t : Table PurchaseList.key) : List (PoolPurchaser × Purchase) :=
  t.rows.flatMap PurchaseList.held

def CoverBook.purchases (b : CoverBook) : List (PoolPurchaser × Purchase) :=
  heldPurchases b.purchaseLists

lemma mem_heldPurchases {t : Table PurchaseList.key} {x : PoolPurchaser × Purchase} :
    x ∈ heldPurchases t ↔ ∃ l ∈ t.rows, l.pair = x.1 ∧ x.2 ∈ l.entries := by
  simp only [heldPurchases, PurchaseList.held, mem_flatMap, List.mem_map]
  constructor
  · rintro ⟨l, hl, e, he, rfl⟩
    exact ⟨l, hl, rfl, he⟩
  · rintro ⟨l, hl, hpair, he⟩
    exact ⟨l, hl, x.2, he, by rw [hpair]⟩

section Lists

variable {t : Table PurchaseList.key} {l : PurchaseList} {before after : List Purchase}
  {e : Purchase}

/-- The purchases besides one at a place of a stored list. -/
def otherPurchases (t : Table PurchaseList.key) (l : PurchaseList) (before after : List Purchase) :
    List (PoolPurchaser × Purchase) :=
  PurchaseList.held { l with entries := before ++ after } ++ heldPurchases (t.delete l.key)

lemma held_middle (l : PurchaseList) (before after : List Purchase) (e : Purchase)
    (rest : List (PoolPurchaser × Purchase)) :
    (PurchaseList.held { l with entries := before ++ e :: after } ++ rest).Perm
      ((l.pair, e) :: (PurchaseList.held { l with entries := before ++ after } ++ rest)) := by
  simp only [PurchaseList.held, PurchaseList.pair, map_append, map_cons,
    append_assoc, cons_append]
  exact perm_middle

lemma heldPurchases_listed (hl : t.get l.key = some l) (he : l.entries = before ++ e :: after) :
    (heldPurchases t).Perm ((l.pair, e) :: otherPurchases t l before after) := by
  have hl' : ({ l with entries := before ++ e :: after } : PurchaseList) = l := by
    rw [← he]
  refine (flatMap_perm_of_get hl PurchaseList.held).trans ?_
  have hmiddle := held_middle l before after e (heldPurchases (t.delete l.key))
  rw [hl'] at hmiddle
  exact hmiddle

lemma heldPurchases_replace (t : Table PurchaseList.key) (l : PurchaseList)
    (before after : List Purchase) (e : Purchase) :
    (heldPurchases (t.set { l with entries := before ++ e :: after })).Perm
      ((l.pair, e) :: otherPurchases t l before after) :=
  (flatMap_set_perm t _ PurchaseList.held).trans (held_middle l before after e _)

lemma heldPurchases_remove (t : Table PurchaseList.key) (l : PurchaseList)
    (before after : List Purchase) :
    (heldPurchases (t.set { l with entries := before ++ after })).Perm
      (otherPurchases t l before after) :=
  flatMap_set_perm t _ PurchaseList.held

lemma heldPurchases_delete (hl : t.get l.key = some l) (he : l.entries = []) :
    (heldPurchases (t.delete l.key)).Perm (heldPurchases t) := by
  have hperm := flatMap_perm_of_get hl PurchaseList.held
  have hheld : l.held = [] := by
    rw [PurchaseList.held, he, map_nil]
  rw [hheld] at hperm
  exact hperm.symm

lemma heldPurchases_edit (hl : t.get l.key = some l) {id : Nat}
    (he : l.getPurchase id = some e) (f : Purchase → Purchase) :
    ∃ rest, (heldPurchases t).Perm ((l.pair, e) :: rest) ∧
      (heldPurchases (t.set (l.edit id f))).Perm ((l.pair, f e) :: rest) := by
  obtain ⟨before, after, hentries, hedit⟩ := updateFirst_split (f := f) he
  refine ⟨otherPurchases t l before after, heldPurchases_listed hl hentries, ?_⟩
  have hl' : l.edit id f = { l with entries := before ++ f e :: after } := by
    rw [PurchaseList.edit, hedit]
  rw [hl']
  exact heldPurchases_replace t l before after (f e)

end Lists

namespace CoverBook

lemma mem_purchases_of_find {b : CoverBook} {poolID : Nat} {purchaser : AccAddress} {id : Nat}
    {e : Purchase} (h : b.findPurchase poolID purchaser id = some e) :
    (⟨poolID, purchaser⟩, e) ∈ b.purchases ∧ e.purchaseID = id := by
  obtain ⟨l, hl, he⟩ := bind_eq_some_iff.mp h
  obtain ⟨rfl, rfl, hstored⟩ := getPurchaseList_eq_some hl
  refine ⟨mem_heldPurchases.mpr ⟨l, mem_of_get hstored, rfl, mem_of_find?_eq_some he⟩, ?_⟩
  simpa using find?_some he

lemma purchases_addPurchase (b : CoverBook) (poolID : Nat) (purchaser : AccAddress)
    (purchase : Purchase) :
    (b.addPurchase poolID purchaser purchase).purchases.Perm
      ((⟨poolID, purchaser⟩, purchase) :: b.purchases) := by
  unfold addPurchase extendedList
  split
  · rename_i hnone
    refine (flatMap_set_perm b.purchaseLists _ PurchaseList.held).trans ?_
    have hdelete : b.purchaseLists.delete (poolKey poolID purchaser) = b.purchaseLists :=
      delete_of_get_none hnone
    change List.Perm (_ :: heldPurchases (b.purchaseLists.delete (poolKey poolID purchaser))) _
    rw [hdelete]
    exact List.Perm.refl _
  · rename_i l hl
    obtain ⟨rfl, rfl, hstored⟩ := getPurchaseList_eq_some hl
    have hnew := heldPurchases_replace b.purchaseLists l l.entries [] purchase
    have hold : (heldPurchases b.purchaseLists).Perm
        (otherPurchases b.purchaseLists l l.entries []) := by
      rw [otherPurchases, append_nil]
      exact flatMap_perm_of_get hstored PurchaseList.held
    exact hnew.trans (hold.symm.cons _)

lemma purchases_sell (b : CoverBook) (pool : Pool) (purchaser : AccAddress)
    (purchase : Purchase) :
    (b.sell pool purchaser purchase).purchases.Perm
      ((⟨pool.id, purchaser⟩, purchase) :: b.purchases) :=
  purchases_addPurchase _ pool.id purchaser purchase

/-- A rejected claim raises the shield of one purchase, or leaves the purchases as they are. -/
lemma purchases_rejectClaim (b : CoverBook) (poolID : Nat) (proposer : AccAddress) (id : Nat)
    (lossAmt : Int) :
    (∃ e rest, (b.getPool poolID).isSome = true ∧ b.findPurchase poolID proposer id = some e ∧
      b.purchases.Perm ((⟨poolID, proposer⟩, e) :: rest) ∧
      (b.rejectClaim poolID proposer id lossAmt).purchases.Perm
        ((⟨poolID, proposer⟩, { e with shield := e.shield + lossAmt }) :: rest)) ∨
    ((b.getPool poolID = none ∨ b.findPurchase poolID proposer id = none) ∧
      (b.rejectClaim poolID proposer id lossAmt).purchases = b.purchases) := by
  unfold rejectClaim restoreShield claimEnd
  dsimp only
  split
  · rename_i hnone
    exact .inr ⟨.inl hnone, rfl⟩
  · rename_i p hp
    have hp' : b.getPool poolID = some p := hp
    split
    · rename_i hnone
      have hnone' : b.getPurchaseList poolID proposer = none := hnone
      refine .inr ⟨.inr ?_, rfl⟩
      rw [findPurchase, hnone', bind_none]
    · rename_i l hl
      have hl' : b.getPurchaseList poolID proposer = some l := hl
      obtain ⟨rfl, rfl, hstored⟩ := getPurchaseList_eq_some hl'
      have hfind : b.findPurchase l.poolID l.purchaser id = l.getPurchase id := by
        rw [findPurchase, hl', bind_some]
      rw [hfind]
      cases he : l.getPurchase id with
      | some e =>
        obtain ⟨rest, hold, hnew⟩ := heldPurchases_edit hstored he
          (fun e => { e with shield := e.shield + lossAmt })
        refine .inl ⟨e, rest, ?_, rfl, hold, hnew⟩
        rw [hp', isSome_some]
      | none =>
        refine .inr ⟨.inr rfl, ?_⟩
        have hedit : l.edit id (fun e => { e with shield := e.shield + lossAmt }) = l := by
          rw [PurchaseList.edit, updateFirst_of_find?_none he]
        rw [hedit]
        exact congrArg heldPurchases (set_of_get hstored)

end CoverBook

end Shentu
