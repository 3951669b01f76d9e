import Shentu.Oracle.Steps

/-!
The collateral of operators is not lost: what an address has put in is its collateral,
in a withdrawal or paid back. A withdrawal is stored under its address and due block, so
this needs that a new one does not take the place of another one that is still to be paid.
-/

namespace Shentu.Oracle

open Lib Table List

variable {σ : Type}

variable (s : State σ)

/-- The collateral of an address in a denomination. -/
def collateralOf (a : Address) (d : Denom) : Int :=
  s.operators.valueAt (fun o => o.collateral.sumOf d) a

/-- What an address is withdrawing in a denomination. -/
def pendingOf (a : Address) (d : Denom) : Int :=
  s.withdraws.total (fun w => if w.address = a then w.amount.sumOf d else 0)

variable (a : Address)

variable (d : Denom)

def Entry.putInBy : Entry → Int
  | .putIn address coins => if address = a then coins.sumOf d else 0
  | _ => 0

def Entry.paidTo : Entry → Int
  | .paid _ w => if w.address = a then w.amount.sumOf d else 0
  | _ => 0

/-- What an address has put in so far. -/
def putInBy (l : List Entry) : Int := (l.map (Entry.putInBy a d)).sum

/-- What has been paid back to an address by withdrawals so far. -/
def paidTo (l : List Entry) : Int := (l.map (Entry.paidTo a d)).sum

lemma putInBy_append (l l' : List Entry) :
    putInBy a d (l ++ l') = putInBy a d l + putInBy a d l' := by
  simp [putInBy]

lemma paidTo_append (l l' : List Entry) : paidTo a d (l ++ l') = paidTo a d l + paidTo a d l' := by
  simp [paidTo]

lemma putInBy_paid (height : Nat) (ws : List Withdraw) :
    putInBy a d (ws.map (.paid height)) = 0 := by
  refine sum_eq_zero (forall_mem_map.mpr ?_)
  intro e he
  obtain ⟨w, -, rfl⟩ := mem_map.mp he
  rfl

lemma paidTo_paid (height : Nat) (ws : List Withdraw) : paidTo a d (ws.map (.paid height)) =
      (ws.map (fun w => if w.address = a then w.amount.sumOf d else 0)).sum := by
  rw [paidTo, map_map]
  rfl

/-- Everything that was put in is accounted for. -/
def Conserved (l : List Entry) : Prop :=
  ∀ a d, collateralOf s a d + pendingOf s a d + paidTo a d l = putInBy a d l

/-- The withdrawal that a message creates replaces none that still has an amount. -/
def NotOverwritten : Event σ → Prop
  | .tx (.reduceCollateral address _) | .tx (.removeOperator address) =>
    (s.operators.get address).isSome = true →
    ∀ w ∈ s.withdraws.get (withdrawStoreKey address s.dueBlock), Coins.isZero w.amount = true
  | _ => True

instance (s : State σ) (e : Event σ) : Decidable (NotOverwritten s e) := by
  unfold NotOverwritten
  split <;> infer_instance

lemma sumOf_of_isZero {coins : Coins} (h : Coins.isZero coins = true) (d : Denom) :
    coins.sumOf d = 0 := by
  refine sum_eq_zero (forall_mem_map.mpr ?_)
  intro c hc
  have hzero : c.amount = 0 := by simpa using all_eq_true.mp h c hc
  simp [hzero]

section Sums

variable {s s' : State σ} {o : Operator}

lemma collateralOf_set (h : s'.operators = s.operators.set o) (a : Address) (d : Denom) :
    collateralOf s' a d = if a = o.address then o.collateral.sumOf d else collateralOf s a d := by
  rw [collateralOf, h, valueAt_set]
  by_cases ha : a = o.address
  · rw [if_pos ha, if_pos ha]
  · rw [if_neg ha, if_neg ha]
    rfl

lemma collateralOf_of_get (h : s.operators.get o.address = some o) (d : Denom) :
    collateralOf s o.address d = o.collateral.sumOf d := valueAt_of_get h _

lemma pendingOf_set {w : Withdraw} (h : s'.withdraws = s.withdraws.set w)
    (hzero : ∀ w' ∈ s.withdraws.get w.storeKey, Coins.isZero w'.amount = true) (a : Address)
    (d : Denom) :
    pendingOf s' a d = pendingOf s a d + if w.address = a then w.amount.sumOf d else 0 := by
  have hold : s.withdraws.valueAt
      (fun w => if w.address = a then w.amount.sumOf d else 0) w.storeKey = 0 := by
    cases hget : s.withdraws.get w.storeKey with
    | none => exact valueAt_of_get_none hget _
    | some w' =>
      rw [valueAt_of_get hget, sumOf_of_isZero (hzero w' hget), ite_self]
  rw [pendingOf, h, total_set, hold, sub_zero]
  rfl

end Sums

variable {l : List Entry}

/-- A withdrawal of part of the collateral moves it from one sum to the other. -/
lemma withdraw_conserved {s s' : State σ} {o : Operator} {w : Withdraw}
    (left : Denom → Int) (h : Conserved s l) (hget : s.operators.get o.address = some o)
    (haddress : w.address = o.address)
    (hleft : ∀ d, o.collateral.sumOf d = left d + w.amount.sumOf d)
    (hcollateral : ∀ a d, collateralOf s' a d =
      if a = o.address then left d else collateralOf s a d)
    (hwithdraws : s'.withdraws = s.withdraws.set w)
    (hzero : ∀ w' ∈ s.withdraws.get w.storeKey, Coins.isZero w'.amount = true) :
    Conserved s' (l ++ [.created s.height w]) := by
  intro a d
  have hold := h a d
  rw [putInBy_append, paidTo_append, hcollateral, pendingOf_set hwithdraws hzero, haddress]
  have hnone : putInBy a d [.created s.height w] = 0 ∧ paidTo a d [.created s.height w] = 0 :=
    ⟨rfl, rfl⟩
  by_cases ha : a = o.address
  · subst ha
    rw [collateralOf_of_get hget, hleft] at hold
    rw [if_pos rfl, if_pos rfl]
    omega
  · rw [if_neg ha, if_neg (Ne.symm ha)]
    omega

lemma putIn_conserved {s s' : State σ} {o : Operator} {coins : Coins}
    (h : Conserved s l) (hoperators : s'.operators = s.operators.set o)
    (hwithdraws : s'.withdraws = s.withdraws)
    (hsum : ∀ d, o.collateral.sumOf d = collateralOf s o.address d + coins.sumOf d) :
    Conserved s' (l ++ [.putIn o.address coins]) := by
  intro a d
  have hold := h a d
  have hpending : pendingOf s' a d = pendingOf s a d := by
    rw [pendingOf, hwithdraws]
    rfl
  have hput : putInBy a d [.putIn o.address coins] = if o.address = a then coins.sumOf d else 0 :=
    add_zero _
  have hpaid : paidTo a d [.putIn o.address coins] = 0 := rfl
  rw [putInBy_append, paidTo_append, hput, hpaid, hpending, collateralOf_set hoperators, hsum]
  by_cases ha : a = o.address
  · subst ha
    rw [if_pos rfl, if_pos rfl]
    omega
  · rw [if_neg ha, if_neg (Ne.symm ha)]
    omega

/-- The withdrawals of a block leave the store and are paid. -/
lemma block_conserved {s s' : State σ} {mature : Withdraw → Bool}
    (h : Conserved s l) (hoperators : s'.operators = s.operators)
    (hwithdraws : s'.withdraws = s.withdraws.filter (fun w => !mature w)) (height : Nat) :
    Conserved s' (l ++ (s.withdraws.rows.filter mature).map (.paid height)) := by
  intro a d
  have hold := h a d
  have hsplit : pendingOf s' a d + ((s.withdraws.rows.filter mature).map
      (fun w => if w.address = a then w.amount.sumOf d else 0)).sum = pendingOf s a d := by
    have hpaid : ((s.withdraws.rows.filter mature).map
        (fun w => if w.address = a then w.amount.sumOf d else 0)).sum = _ :=
      s.withdraws.total_filter mature (fun w => if w.address = a then w.amount.sumOf d else 0)
    have hleft := s.withdraws.total_filter (fun w => !mature w)
      (fun w => if w.address = a then w.amount.sumOf d else 0)
    rw [pendingOf, hwithdraws, hleft, hpaid, ← total_add]
    refine total_congr ?_
    intro w _
    cases mature w <;> simp
  rw [putInBy_append, paidTo_append, putInBy_paid, paidTo_paid, collateralOf, hoperators]
  rw [collateralOf] at hold
  omega

lemma NotOverwritten.created {k : Keepers σ} {s : State σ} {e : Event σ} (h : NotOverwritten s e)
    {height : Nat} {w : Withdraw} (hw : .created height w ∈ entries k s e) :
    ∀ w' ∈ s.withdraws.get w.storeKey, Coins.isZero w'.amount = true := by
  obtain ⟨address, amount, o, he, hget, -, rfl⟩ := created_cases hw
  have hsome : (s.operators.get address).isSome = true := by
    rw [hget]
    rfl
  rcases he with rfl | ⟨rfl, -⟩
  · exact h hsome
  · exact h hsome

/-- Every step that replaces no withdrawal keeps the sums. -/
lemma step_conserved {k : Keepers σ} {s s' : State σ} {e : Event σ}
    (h : Conserved s l) (hkept : NotOverwritten s e) (hexec : exec k s e = .ok s') :
    Conserved s' (l ++ entries k s e) := by
  have hzero := @NotOverwritten.created σ k s e hkept
  have hstep := exec_step hexec
  generalize entries k s e = l' at hstep hzero
  cases hstep with
  | @create o world hnew _ hoperators hwithdraws _ =>
    refine putIn_conserved h hoperators hwithdraws ?_
    intro d
    rw [collateralOf, valueAt_of_get_none hnew, zero_add]
  | @add o increment world hget _ hoperators hwithdraws _ =>
    refine putIn_conserved (o := { o with collateral := o.collateral.add increment }) h
      hoperators hwithdraws ?_
    intro d
    rw [collateralOf_of_get hget]
    exact Coins.sumOf_add _ _ d
  | @reduce o decrement collateral hget hsub hoperators hwithdraws _ =>
    refine withdraw_conserved collateral.sumOf h hget rfl ?_
      (collateralOf_set hoperators) hwithdraws (hzero mem_cons_self)
    intro d
    rw [Coins.sumOf_sub hsub d]
    exact (sub_add_cancel _ _).symm
  | @remove o hget hoperators hwithdraws _ =>
    refine withdraw_conserved (fun _ => 0) h hget rfl (fun d => (zero_add _).symm) ?_
      hwithdraws (hzero mem_cons_self)
    intro a d
    rw [collateralOf, hoperators, valueAt_delete]
    by_cases ha : a = o.address
    · rw [if_pos ha, if_pos ha]
    · rw [if_neg ha, if_neg ha]
      rfl
  | @reward o rewards hget hoperators hwithdraws _ =>
    rw [append_nil]
    intro a d
    have hsame : collateralOf s' a d = collateralOf s a d := by
      rw [collateralOf_set hoperators]
      split
      · rename_i ha
        rw [ha]
        exact (collateralOf_of_get hget d).symm
      · rfl
    rw [hsame, pendingOf, hwithdraws]
    exact h a d
  | other hoperators hwithdraws _ =>
    rw [append_nil]
    intro a d
    rw [collateralOf, pendingOf, hoperators, hwithdraws]
    exact h a d
  | block hoperators hwithdraws _ => exact block_conserved h hoperators hwithdraws _

/-- In every run that replaces no withdrawal, what an address has put in is its collateral, in a
withdrawal or paid back. -/
theorem collateral_conserved {k : Keepers σ} {s s' : State σ} {es : List (Event σ)}
    (hoperators : s.operators = Table.empty) (hwithdraws : s.withdraws = Table.empty)
    (hmeet : StepsMeet NotOverwritten (exec k) s es) (hrun : run k s es = .ok s') (a : Address)
    (d : Denom) :
    collateralOf s' a d + pendingOf s' a d + paidTo a d (log k s es) =
      putInBy a d (log k s es) := by
  have hstart : Conserved s [] := by
    intro a d
    rw [collateralOf, pendingOf, hoperators, hwithdraws]
    rfl
  have hend := foldlM_observed (P := Conserved) (fun _ _ _ _ h hkept hexec =>
    step_conserved h hkept hexec) hstart hmeet hrun
  exact hend a d

/-- An operator puts in 100 and withdraws some of it in two parts, with some blocks in between. -/
def withdrawalEvents (blocks : Nat) : List (Event Unit) :=
  [.tx (.createOperator [1] [⟨"uctk", 100⟩] [1] "operator"),
    .tx (.reduceCollateral [1] [⟨"uctk", 10⟩])] ++
  List.replicate blocks .beginBlock ++ [.tx (.reduceCollateral [1] [⟨"uctk", 20⟩])]

/-- Two withdrawals of one block apart are both kept. -/
theorem collateral_conserved_two_blocks :
    ∃ s, run openKeepers (State.start 100 30) (withdrawalEvents 1) = .ok s ∧
      collateralOf s [1] "uctk" = 70 ∧ pendingOf s [1] "uctk" = 30 ∧
      collateralOf s [1] "uctk" + pendingOf s [1] "uctk" +
        paidTo [1] "uctk" (log openKeepers (State.start 100 30) (withdrawalEvents 1)) =
        putInBy [1] "uctk" (log openKeepers (State.start 100 30) (withdrawalEvents 1)) := by
  obtain ⟨s, hs, hcollateral, hpending⟩ : ∃ s, run openKeepers (State.start 100 30)
        (withdrawalEvents 1) = .ok s ∧ collateralOf s [1] "uctk" = 70 ∧
      pendingOf s [1] "uctk" = 30 := by
    decide +kernel
  have hmeet : StepsMeet NotOverwritten (exec openKeepers) (State.start 100 30)
      (withdrawalEvents 1) := by
    decide +kernel
  exact ⟨s, hs, hcollateral, hpending, collateral_conserved rfl rfl hmeet hs [1] "uctk"⟩

/-- The second of two withdrawals in one block replaces the first, and its 10 are lost. -/
theorem collateral_lost_in_one_block :
    ∃ s, run openKeepers (State.start 100 30) (withdrawalEvents 0) = .ok s ∧
      collateralOf s [1] "uctk" = 70 ∧ pendingOf s [1] "uctk" = 20 ∧
      paidTo [1] "uctk" (log openKeepers (State.start 100 30) (withdrawalEvents 0)) = 0 ∧
      putInBy [1] "uctk" (log openKeepers (State.start 100 30) (withdrawalEvents 0)) = 100 := by
  obtain ⟨s, hs, hcollateral, hpending⟩ : ∃ s, run openKeepers (State.start 100 30)
        (withdrawalEvents 0) = .ok s ∧ collateralOf s [1] "uctk" = 70 ∧
      pendingOf s [1] "uctk" = 20 := by
    decide +kernel
  have hlog : paidTo [1] "uctk" (log openKeepers (State.start 100 30) (withdrawalEvents 0)) = 0 ∧
      putInBy [1] "uctk" (log openKeepers (State.start 100 30) (withdrawalEvents 0)) = 100 := by
    decide +kernel
  exact ⟨s, hs, hcollateral, hpending, hlog⟩

end Shentu.Oracle
