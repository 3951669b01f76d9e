import Shentu.Shield.DelayWithdraws
import Shentu.Lib.Window

/-!
The payout from one provider's collateral. Free collateral beyond what backs the
provider's share of sold shield pays first; the rest is cut out of the
provider's queued withdrawals, latest first.
-/

namespace Shentu

open Lib List TimeQueue

namespace CollateralBook

def getWithdrawsByProvider (b : CollateralBook) (addr : AccAddress) : List Withdraw :=
  b.withdrawQueue.entries.filter (fun w => w.address = addr)

/-- Cut a payout out of the first entry in the slice of `w` with its address and amount. An
entry that is paid out entirely is removed, and with it a slice that holds nothing else. -/
def reduceWithdraw (q : TimeQueue Withdraw) (w : Withdraw) (payout : Int) : TimeQueue Withdraw :=
  let timeSlice := q.slice w.completionTime
  let same := fun e : Withdraw => decide (e.address = w.address) && decide (e.amount = w.amount)
  if timeSlice.any same then
    if w.amount = payout then
      if timeSlice.length = 1 then q.removeSlice w.completionTime
      else q.setSlice w.completionTime (timeSlice.eraseP same)
    else
      q.setSlice w.completionTime
        (updateFirst same (fun e => { e with amount := w.amount - payout }) timeSlice)
  else q

/-- The loop over the provider's withdraws, latest first: the part of a withdraw that backs
the uncovered purchase is left, and the payout takes from what remains of it. -/
def payoutLoop : List Withdraw → Int → Int → TimeQueue Withdraw → Int × TimeQueue Withdraw
  | [], _, payoutFromWithdraw, q => (payoutFromWithdraw, q)
  | w :: ws, uncoveredPurchase, payoutFromWithdraw, q =>
    if 0 < payoutFromWithdraw then
      let remainingWithdraw := max (w.amount - uncoveredPurchase) 0
      let uncoveredPurchase := max (uncoveredPurchase - w.amount) 0
      if remainingWithdraw = 0 then payoutLoop ws uncoveredPurchase payoutFromWithdraw q
      else
        let payoutFromThisWithdraw := min payoutFromWithdraw remainingWithdraw
        payoutLoop ws uncoveredPurchase (payoutFromWithdraw - payoutFromThisWithdraw)
          (reduceWithdraw q w payoutFromThisWithdraw)
    else (payoutFromWithdraw, q)

/-- The parts of a payout when `free` is there at once: what comes from `free`, and the
purchased amount that what is leaving has to cover before it pays. -/
def splitPayout (free purchased payout : Int) : Int × Int :=
  if purchased + payout ≤ free then (payout, 0)
  else if purchased ≤ free then (free - purchased, 0)
  else (0, purchased - free)

def updateProviderCollateralForPayout (b : CollateralBook) (providerAddr : AccAddress)
    (purchased payout : Int) : Except Fault CollateralBook := do
  let provider ← orFail (b.getProvider providerAddr) (.error .providerNotFound)
  let (payoutFromCollateral, uncoveredPurchase) :=
    splitPayout (provider.collateral - provider.withdrawing) purchased payout
  let payoutFromWithdraw := payout - payoutFromCollateral
  let (unpaid, queue) := payoutLoop (b.getWithdrawsByProvider providerAddr).reverse
    uncoveredPurchase payoutFromWithdraw b.withdrawQueue
  failIf (unpaid ≠ 0) (.panic .inexactWithdrawPayout)
  let b := { b with
    withdrawQueue := queue
    totalWithdrawing := b.totalWithdrawing - payoutFromWithdraw }
  return b.setProvider { provider with
    collateral := provider.collateral - payout
    withdrawing := provider.withdrawing - payoutFromWithdraw }

variable {payout : Int}

lemma splitPayout_bounds {free purchased : Int} (hfree : 0 ≤ free)
    (hpurchased : 0 ≤ purchased) (hpayout : 0 ≤ payout) :
    0 ≤ (splitPayout free purchased payout).1 ∧
      (splitPayout free purchased payout).1 ≤ payout ∧
      (splitPayout free purchased payout).1 ≤ free ∧
      0 ≤ (splitPayout free purchased payout).2 := by
  unfold splitPayout
  split_ifs <;> dsimp only <;> omega

/-- A withdraw out of which a part is paid. -/
def reduced (w : Withdraw) (x : Int) : Withdraw := { w with amount := w.amount - x }

lemma reduced_zero (w : Withdraw) : reduced w 0 = w := by
  unfold reduced
  rw [sub_zero]

/-- What a payout leaves of a withdraw. -/
def afterCut : Withdraw × Int → List Withdraw := remainder Withdraw.amount reduced

lemma reduceWithdraw_spec {q : TimeQueue Withdraw} (hq : QueueFiled q) {w : Withdraw}
    {rest : List Withdraw} (hperm : q.entries.Perm (w :: rest))
    (hpayout : 0 < payout) :
    QueueFiled (reduceWithdraw q w payout) ∧
      (reduceWithdraw q w payout).entries.Perm (afterCut (w, payout) ++ rest) := by
  have hslice : w ∈ q.slice w.completionTime := hq.mem_slice (hperm.mem_iff.mpr (by simp))
  have hfound : ∀ e ∈ q.slice w.completionTime,
      (decide (e.address = w.address) && decide (e.amount = w.amount)) = true → e = w := by
    intro e he hsame
    have htime : e.completionTime = w.completionTime := hq.of_mem_slice he
    cases e
    cases w
    simp_all
  have hany : (q.slice w.completionTime).any
      (fun e => decide (e.address = w.address) && decide (e.amount = w.amount)) = true :=
    any_eq_true.mpr ⟨w, hslice, by simp⟩
  unfold reduceWithdraw
  rw [if_pos hany]
  split
  · rename_i hall
    have hgone : afterCut (w, payout) = [] := if_pos ⟨hpayout, hall⟩
    rw [hgone, nil_append]
    split
    · refine ⟨hq.removeSlice _, ?_⟩
      have hsplit := entries_perm_slice q w.completionTime
      rw [slice_eq_singleton hslice (by omega)] at hsplit
      exact (hsplit.symm.trans hperm).cons_inv
    · obtain ⟨e, l1, l2, -, he, hl, herase⟩ := exists_of_eraseP hslice
        (p := fun e => decide (e.address = w.address) && decide (e.amount = w.amount)) (by simp)
      have hew : e = w := hfound e (by rw [hl]; simp) he
      rw [herase]
      refine ⟨hq.setSlice ?_, ?_⟩
      · intro b hb
        refine hq.of_mem_slice ?_
        rw [hl]
        rcases mem_append.mp hb with h | h
        · exact mem_append_left _ h
        · exact mem_append_right _ (mem_cons_of_mem e h)
      · have htaken := entries_perm_of_slice_perm q w.completionTime [w]
          (l1 ++ l2) (by rw [hl, hew]; exact perm_middle)
        exact (htaken.symm.trans hperm).cons_inv
  · rename_i hpart
    have hleft : afterCut (w, payout) = [reduced w payout] := remainder_of_ne hpart
    rw [hleft]
    cases hf : (q.slice w.completionTime).find?
        (fun e => decide (e.address = w.address) && decide (e.amount = w.amount)) with
    | none =>
      have := find?_eq_none.mp hf w hslice
      simp at this
    | some e =>
      have hsame := find?_some hf
      have hew : e = w := hfound e (mem_of_find?_eq_some hf) hsame
      obtain ⟨l1, l2, hl, hu⟩ := updateFirst_split
        (f := fun e : Withdraw => { e with amount := w.amount - payout }) hf
      rw [hu, hew]
      rw [hew] at hl
      refine ⟨hq.setSlice ?_, ?_⟩
      · intro b hb
        have hmem : ∀ b ∈ l1 ++ w :: l2, b.completionTime = w.completionTime := by
          intro b hb
          exact hq.of_mem_slice (by rw [hl]; exact hb)
        rcases mem_append.mp hb with h | h
        · exact hmem b (mem_append_left _ h)
        · rcases mem_cons.mp h with rfl | h
          · rfl
          · exact hmem b (mem_append_right _ (mem_cons_of_mem w h))
      · have htaken : (w :: ((l1 ++ l2) ++ (q.removeSlice w.completionTime).entries)).Perm
            (w :: rest) := by
          refine List.Perm.trans ?_ ((entries_perm_slice q w.completionTime).symm.trans
            hperm)
          rw [hl, ← cons_append]
          exact perm_middle.symm.append_right _
        refine (entries_setSlice_perm _ _ _).trans ?_
        refine (perm_middle.append_right _).trans ?_
        rw [cons_append]
        exact htaken.cons_inv.cons _

lemma othersAt_reduceWithdraw {q : TimeQueue Withdraw} (hq : QueueFiled q) {w : Withdraw}
    (hw : w ∈ q.entries) (payout : Int) (t : Time) :
    othersAt w.address (reduceWithdraw q w payout) t = othersAt w.address q t := by
  have hslice : w ∈ q.slice w.completionTime := hq.mem_slice hw
  unfold othersAt reduceWithdraw
  dsimp only
  by_cases ht : t = w.completionTime
  · subst ht
    split_ifs with hany hall hlen
    · rw [slice_removeSlice_self, slice_eq_singleton hslice (by omega)]
      simp
    · rw [slice_setSlice_self, filter_eraseP]
      intro e he
      simp only [Bool.and_eq_true, decide_eq_true_eq] at he
      simp [he.1]
    · rw [slice_setSlice_self, filter_updateFirst]
      intro e he
      simp only [Bool.and_eq_true, decide_eq_true_eq] at he
      simp [he.1]
    · rfl
  · split_ifs
    · rw [slice_removeSlice_of_ne _ ht]
    · rw [slice_setSlice_of_ne _ _ ht]
    · rw [slice_setSlice_of_ne _ _ ht]
    · rfl

/-- A withdraw after a payout: same provider, same time, and at most the amount it had. -/
def IsCutOf (w' w : Withdraw) : Prop :=
  w'.address = w.address ∧ w'.completionTime = w.completionTime ∧
    0 ≤ w'.amount ∧ w'.amount ≤ w.amount

/-- What is left of withdraws out of which the window behind the `uncovered` part is paid. -/
def cutWithdraws : Int → Int → List Withdraw → List Withdraw := cutWindow Withdraw.amount reduced

/-- The loop cuts the window out of the withdraws it goes over and leaves the others. -/
lemma payoutLoop_spec {addr : AccAddress} (ws : List Withdraw) (uncovered payout : Int)
    (q : TimeQueue Withdraw) (others : List Withdraw) (hq : QueueFiled q)
    (hperm : q.entries.Perm (ws ++ others)) (haddr : ∀ w ∈ ws, w.address = addr)
    (huncovered : 0 ≤ uncovered) (hpayout : 0 ≤ payout) :
    QueueFiled (payoutLoop ws uncovered payout q).2 ∧
      (payoutLoop ws uncovered payout q).1 =
        payout - (windowParts uncovered payout (ws.map Withdraw.amount)).sum ∧
      (payoutLoop ws uncovered payout q).2.entries.Perm
        (cutWithdraws uncovered payout ws ++ others) ∧
      ∀ t, othersAt addr (payoutLoop ws uncovered payout q).2 t = othersAt addr q t := by
  induction ws generalizing uncovered payout q others with
  | nil => exact ⟨hq, (sub_zero _).symm, hperm, fun _ => rfl⟩
  | cons w ws ih =>
    obtain ⟨haw, haddr⟩ := forall_mem_cons.mp haddr
    unfold cutWithdraws
    rw [cutWindow_cons, map_cons, windowParts, sum_cons]
    unfold payoutLoop
    split
    · dsimp only
      split
      · -- The whole withdraw backs the purchase and stays as it is.
        rename_i hpaying hremaining
        have hnone : min payout 0 = 0 := by omega
        obtain ⟨hfiled, hunpaid, hperm', hothers⟩ := ih (max (uncovered - w.amount) 0) payout q
          (w :: others) hq (hperm.trans perm_middle.symm) haddr (by omega) hpayout
        rw [hremaining, hnone, sub_zero, remainder_zero reduced_zero]
        exact ⟨hfiled, by omega, hperm'.trans perm_middle, hothers⟩
      · have hw : w ∈ q.entries := hperm.mem_iff.mpr (by simp)
        obtain ⟨hfiled1, hedited⟩ := reduceWithdraw_spec hq (hperm.trans (by rw [cons_append]))
          (show 0 < min payout (max (w.amount - uncovered) 0) by omega)
        obtain ⟨hfiled, hunpaid, hperm', hothers⟩ := ih (max (uncovered - w.amount) 0)
          (payout - min payout (max (w.amount - uncovered) 0))
          (reduceWithdraw q w (min payout (max (w.amount - uncovered) 0)))
          (afterCut (w, min payout (max (w.amount - uncovered) 0)) ++ others)
          hfiled1 (hedited.trans (by
            rw [← append_assoc, ← append_assoc]
            exact perm_append_comm.append_right _)) haddr (by omega) (by omega)
        refine ⟨hfiled, by omega, ?_, ?_⟩
        · refine hperm'.trans ?_
          rw [← append_assoc]
          exact perm_append_comm.append_right _
        · intro t
          rw [hothers t, ← haw]
          exact othersAt_reduceWithdraw hq hw _ t
    · have hzero : payout = 0 := by omega
      subst hzero
      have hnone : min 0 (max (w.amount - uncovered) 0) = 0 := by omega
      rw [hnone, sub_zero, remainder_zero reduced_zero, cutWindow_zero reduced_zero,
        windowParts_zero, sum_replicate]
      exact ⟨hq, by simp, hperm, fun _ => rfl⟩

/-- Cutting parts out of withdraws leaves cuts of them, and takes the parts from their
amounts. -/
lemma afterCuts_spec {ws : List Withdraw} {xs : List Int} (hlen : xs.length = ws.length)
    (hxs : ∀ wx ∈ ws.zip xs, 0 ≤ wx.2 ∧ wx.2 ≤ wx.1.amount) :
    (∀ w' ∈ (ws.zip xs).flatMap afterCut, ∃ w ∈ ws, IsCutOf w' w) ∧
      (∀ c, amountWhere c ((ws.zip xs).flatMap afterCut) ≤ amountWhere c ws) ∧
      (∀ c, (∀ w ∈ ws, c w.address w.completionTime = true) →
        amountWhere c ((ws.zip xs).flatMap afterCut) = amountWhere c ws - xs.sum) := by
  induction ws generalizing xs with
  | nil =>
    rw [length_nil, length_eq_zero_iff] at hlen
    subst hlen
    simp
  | cons w ws ih =>
    obtain ⟨x, xs, rfl⟩ := exists_cons_of_length_eq_add_one hlen
    rw [zip_cons_cons] at hxs ⊢
    obtain ⟨⟨hx0, hxw⟩, hxs⟩ := forall_mem_cons.mp hxs
    obtain ⟨hcut, hle, heq⟩ := ih (Nat.succ_injective hlen) hxs
    have hamount : ∀ c : AccAddress → Time → Bool, amountWhere c (afterCut (w, x)) =
        if c w.address w.completionTime then w.amount - x else 0 := by
      intro c
      unfold afterCut remainder
      split
      · rename_i hall
        rw [amountWhere_nil, hall.2, sub_self, ite_self]
      · rw [amountWhere_cons, amountWhere_nil, add_zero]
        rfl
    rw [flatMap_cons]
    refine ⟨?_, ?_, ?_⟩
    · intro w' hw'
      rcases mem_append.mp hw' with hw' | hw'
      · refine ⟨w, mem_cons_self, ?_⟩
        unfold afterCut remainder at hw'
        split at hw'
        · exact absurd hw' not_mem_nil
        · rw [mem_singleton.mp hw']
          dsimp only at hx0 hxw
          refine ⟨rfl, rfl, ?_, ?_⟩ <;> dsimp only [reduced] <;> omega
      · obtain ⟨v, hv, hvcut⟩ := hcut w' hw'
        exact ⟨v, mem_cons_of_mem w hv, hvcut⟩
    · intro c
      have hrest := hle c
      rw [amountWhere_append, amountWhere_cons, hamount c]
      split <;> omega
    · intro c hc
      obtain ⟨hcw, hc⟩ := forall_mem_cons.mp hc
      rw [amountWhere_append, amountWhere_cons, hamount c, if_pos hcw, if_pos hcw, heq c hc,
        sum_cons]
      omega

lemma cutWithdraws_spec {uncovered : Int} (huncovered : 0 ≤ uncovered)
    (hpayout : 0 ≤ payout) {ws : List Withdraw} (hpos : ∀ w ∈ ws, 0 ≤ w.amount) :
    (∀ w' ∈ cutWithdraws uncovered payout ws, ∃ w ∈ ws, IsCutOf w' w) ∧
      (∀ c, amountWhere c (cutWithdraws uncovered payout ws) ≤ amountWhere c ws) ∧
      (∀ c, (∀ w ∈ ws, c w.address w.completionTime = true) →
        amountWhere c (cutWithdraws uncovered payout ws) =
          amountWhere c ws - (windowParts uncovered payout (ws.map Withdraw.amount)).sum) := by
  apply afterCuts_spec
  · rw [length_windowParts, length_map]
  · intro wx hwx
    have hbounds := windowParts_bounds huncovered hpayout (forall_mem_map.mpr hpos)
    rw [zip_map_left] at hbounds
    exact hbounds (wx.1.amount, wx.2) (mem_map.mpr ⟨wx, hwx, rfl⟩)

/-- A payout that does not panic takes `payout` from the provider's collateral, the part `x`
of it from the provider's queued withdrawals, and changes no other provider's withdrawals. -/
lemma updateProviderCollateralForPayout_spec {b b' : CollateralBook} {addr : AccAddress}
    {purchased : Int} (hq : QueueFiled b.withdrawQueue)
    (hpos : ∀ w ∈ b.withdrawQueue.entries, 0 ≤ w.amount)
    (hfree : ∀ p, b.getProvider addr = some p → p.withdrawing ≤ p.collateral)
    (hpurchased : 0 ≤ purchased) (hpayout : 0 ≤ payout)
    (h : updateProviderCollateralForPayout b addr purchased payout = .ok b') :
    ∃ p x queue kept cut,
      b.getProvider addr = some p ∧ 0 ≤ x ∧ x ≤ payout ∧
      payout - x ≤ p.collateral - p.withdrawing ∧
      b' = { b with
        providers := b.providers.set { p with
          collateral := p.collateral - payout
          withdrawing := p.withdrawing - x }
        withdrawQueue := queue
        totalWithdrawing := b.totalWithdrawing - x } ∧
      QueueFiled queue ∧
      b.withdrawQueue.entries.Perm (b.getWithdrawsByProvider addr ++ kept) ∧
      queue.entries.Perm (cut ++ kept) ∧
      (∀ w' ∈ cut, ∃ w ∈ b.getWithdrawsByProvider addr, IsCutOf w' w) ∧
      (∀ c, amountWhere c cut ≤ amountWhere c (b.getWithdrawsByProvider addr)) ∧
      (∀ c, (∀ t, c addr t = true) →
        amountWhere c cut = amountWhere c (b.getWithdrawsByProvider addr) - x) := by
  simp only [updateProviderCollateralForPayout, run_eq_ok] at h
  obtain ⟨p, hp, hunpaid, hb'⟩ := h
  have hfree0 : 0 ≤ p.collateral - p.withdrawing := by
    have := hfree p hp
    omega
  obtain ⟨hsplit1, hsplit2, hsplit3, hsplit4⟩ :=
    splitPayout_bounds hfree0 hpurchased hpayout
  have hrev := reverse_perm (b.getWithdrawsByProvider addr)
  have hown : ∀ w ∈ b.getWithdrawsByProvider addr, w ∈ b.withdrawQueue.entries ∧
      w.address = addr := by
    intro w hw
    obtain ⟨hmem, haddr⟩ := mem_filter.mp hw
    exact ⟨hmem, by simpa using haddr⟩
  obtain ⟨kept, hkept⟩ : ∃ kept, b.withdrawQueue.entries.Perm
      (b.getWithdrawsByProvider addr ++ kept) :=
    ⟨_, (filter_append_perm _ _).symm⟩
  obtain ⟨hfiled, hleft, hcutperm, -⟩ := payoutLoop_spec (b.getWithdrawsByProvider addr).reverse
    (splitPayout (p.collateral - p.withdrawing) purchased payout).2
    (payout - (splitPayout (p.collateral - p.withdrawing) purchased payout).1)
    b.withdrawQueue kept hq
    (hkept.trans (hrev.symm.append_right _))
    (fun w hw => (hown w (mem_reverse.mp hw)).2) hsplit4 (by omega)
  obtain ⟨hcut, hle, heq⟩ := cutWithdraws_spec hsplit4 (sub_nonneg.mpr hsplit2)
    (fun w hw => hpos w (hown w (mem_reverse.mp hw)).1)
  refine ⟨p, payout - (splitPayout (p.collateral - p.withdrawing) purchased payout).1, _, kept,
    _, hp, by omega, by omega, by omega, hb'.symm, hfiled, hkept, hcutperm, ?_, ?_, ?_⟩
  · intro w' hw'
    obtain ⟨w, hw, hwcut⟩ := hcut w' hw'
    exact ⟨w, mem_reverse.mp hw, hwcut⟩
  · intro c
    exact (hle c).trans (le_of_eq (amountWhere_perm hrev))
  · intro c hc
    rw [heq c (fun w hw => by rw [(hown w (mem_reverse.mp hw)).2]; exact hc _),
      amountWhere_perm hrev]
    have hzero := not_not.mp hunpaid
    omega

end CollateralBook

end Shentu
