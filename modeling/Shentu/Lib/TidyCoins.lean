import Shentu.Lib.Coins

/-!
Coin lists as the coin functions expect them: sorted and without negative amounts. Such lists are
compared, added and subtracted denomination by denomination. The coins of an account are one; a
zero amount may stand in it.
-/

namespace Shentu.Lib.Coins

open List

/-- A coin list as the coin functions expect it: sorted and without negative amounts. -/
def Tidy (cs : Coins) : Prop := cs.isSorted ∧ cs.nonneg

namespace Tidy

variable {cs cs' ds : Coins}

lemma nil : Tidy [] := ⟨List.Pairwise.nil, forall_mem_nil _⟩

lemma of_isValid (h : cs.isValid) : Tidy cs := ⟨h.1, nonneg_of_isValid h⟩

lemma add (h : Tidy cs) (h' : Tidy ds) : Tidy (cs.add ds) :=
  ⟨isSorted_add h.1 h'.1, nonneg_add h.2 h'.2⟩

lemma sub (h : Tidy cs) (h' : Tidy ds) (hsub : cs.sub ds = some cs') : Tidy cs' :=
  ⟨isSorted_sub h.1 h'.1 hsub, nonneg_sub hsub⟩

lemma amountOf_nonneg (h : Tidy cs) (d : Denom) : 0 ≤ cs.amountOf d :=
  Coins.amountOf_nonneg h.1 h.2 d

lemma amountOf_add (h : Tidy cs) (h' : Tidy ds) (d : Denom) :
    (cs.add ds).amountOf d = cs.amountOf d + ds.amountOf d :=
  amountOf_add_of_isSorted h.1 h'.1 d

lemma amountOf_sub (h : Tidy cs) (h' : Tidy ds) (hsub : cs.sub ds = some cs') (d : Denom) :
    cs'.amountOf d = cs.amountOf d - ds.amountOf d :=
  amountOf_sub_of_isSorted h.1 h'.1 hsub d

lemma singleton {c : Coin} (h : 0 ≤ c.amount) : Tidy [c] :=
  ⟨pairwise_singleton _ _, fun _ hc => mem_singleton.mp hc ▸ h⟩

lemma exists_mem (h : Tidy cs) {d : Denom} (hd : 0 < cs.amountOf d) :
    ∃ c ∈ cs, c.denom = d ∧ c.amount = cs.amountOf d := by
  rw [amountOf_eq_lookup h.1] at hd ⊢
  unfold lookup at hd ⊢
  cases hfind : cs.find? (fun c => c.denom = d) with
  | none =>
    rw [hfind] at hd
    exact absurd hd (lt_irrefl 0)
  | some c =>
    refine ⟨c, mem_of_find?_eq_some hfind, ?_, rfl⟩
    simpa using find?_some hfind

lemma amountOf_of_mem (h : Tidy cs) {c : Coin} (hc : c ∈ cs) : cs.amountOf c.denom = c.amount := by
  rw [amountOf_eq_lookup h.1, lookup_of_mem h.1 hc]

end Tidy

lemma isAllGT_singleton {cs : Coins} {c : Coin} (hpos : 0 ≤ c.amount)
    (h : c.amount < cs.amountOf c.denom) : cs.isAllGT [c] = true := by
  cases cs with
  | nil =>
    rw [amountOf_nil] at h
    omega
  | cons c' cs =>
    have hne : ¬ amountOf (c' :: cs) c.denom = 0 := by omega
    simp [isAllGT, denomsSubsetOf, h, hne]

lemma eq_singleton_of_denoms {cs : Coins} {d : Denom} (hsorted : cs.isSorted) (hne : cs ≠ [])
    (h : ∀ c ∈ cs, c.denom = d) : ∃ c, cs = [c] := by
  match cs with
  | [] => exact absurd rfl hne
  | [c] => exact ⟨c, rfl⟩
  | c :: c' :: cs =>
    have hlt := (pairwise_cons.mp hsorted).1 c' mem_cons_self
    rw [h c mem_cons_self, h c' (mem_cons_of_mem _ mem_cons_self)] at hlt
    exact absurd hlt (lt_irrefl d)

end Shentu.Lib.Coins

namespace Shentu.Lib

open Coins

def Purse := { cs : Coins // cs.isSorted ∧ cs.nonneg }
  deriving DecidableEq

namespace Purse

def empty : Purse := ⟨[], List.Pairwise.nil, fun _ h => nomatch h⟩

def single (d : Denom) (n : Nat) : Purse :=
  ⟨[⟨d, n⟩], List.pairwise_singleton _ _, fun _ h => List.mem_singleton.mp h ▸ Int.natCast_nonneg n⟩

def ofValid (cs : Coins) (h : cs.isValid) : Purse := ⟨cs, h.1, nonneg_of_isValid h⟩

def amount (p : Purse) (d : Denom) : Int := Coins.amountOf p.1 d

def add (p q : Purse) : Purse :=
  ⟨p.1.add q.1, isSorted_add p.2.1 q.2.1, nonneg_add p.2.2 q.2.2⟩

/-- The difference, if no amount of it is negative. -/
def sub (p q : Purse) : Option Purse :=
  if h : (p.1.add q.1.negative).nonneg then
    some ⟨p.1.add q.1.negative, isSorted_add p.2.1 (isSorted_negative q.2.1), h⟩
  else none

end Purse

end Shentu.Lib
