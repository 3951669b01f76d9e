import Shentu.Shield.Withdraw
import Shentu.Lib.FirstMatch

/-!
What the delay of withdrawals does to the withdraw queue. Queue contents are
compared up to permutation. When every entry is filed under its own completion
time, the search by address and amount finds the very entry it looks for, so the
delay moves entries in time and changes nothing else.
-/

namespace Shentu

open Lib List TimeQueue

/-- Each withdraw lies in the slice of its completion time. -/
def QueueFiled (q : TimeQueue Withdraw) : Prop := TimeQueue.Filed Withdraw.completionTime q

/-- The amount of the withdraws whose address and completion time meet a condition. -/
def amountWhere (c : AccAddress → Time → Bool) (ws : List Withdraw) : Int :=
  (ws.map (fun w => if c w.address w.completionTime then w.amount else 0)).sum

@[simp] lemma amountWhere_nil (c : AccAddress → Time → Bool) : amountWhere c [] = 0 := rfl

@[simp] lemma amountWhere_cons (c : AccAddress → Time → Bool) (w : Withdraw)
    (ws : List Withdraw) : amountWhere c (w :: ws) =
      (if c w.address w.completionTime then w.amount else 0) + amountWhere c ws := by
  simp [amountWhere]

@[simp] lemma amountWhere_append (c : AccAddress → Time → Bool) (ws ws' : List Withdraw) :
    amountWhere c (ws ++ ws') = amountWhere c ws + amountWhere c ws' := by
  simp [amountWhere]

variable {c : AccAddress → Time → Bool} {ws : List Withdraw}

lemma amountWhere_perm {ws' : List Withdraw}
    (h : ws.Perm ws') : amountWhere c ws = amountWhere c ws' :=
  (h.map _).sum_eq

lemma amountWhere_filter (c d : AccAddress → Time → Bool) (ws : List Withdraw) :
    amountWhere c (ws.filter (fun w => d w.address w.completionTime)) =
      amountWhere (fun a t => c a t && d a t) ws := by
  induction ws with
  | nil => rfl
  | cons w ws ih =>
    rw [filter_cons]
    cases hd : d w.address w.completionTime <;> simp [hd, ih]

lemma amountWhere_of_all (h : ∀ w ∈ ws, c w.address w.completionTime = true) :
    amountWhere c ws = (ws.map Withdraw.amount).sum := by
  unfold amountWhere
  congr 1
  apply map_congr_left
  intro w hw
  rw [if_pos (h w hw)]

lemma amountWhere_of_none
    (h : ∀ w ∈ ws, c w.address w.completionTime = false) : amountWhere c ws = 0 := by
  apply sum_eq_zero
  intro x hx
  obtain ⟨w, hw, rfl⟩ := mem_map.mp hx
  rw [h w hw]
  rfl

lemma amountWhere_mono {d : AccAddress → Time → Bool} (hpos : ∀ w ∈ ws, 0 ≤ w.amount)
    (h : ∀ w ∈ ws, c w.address w.completionTime = true → d w.address w.completionTime = true) :
    amountWhere c ws ≤ amountWhere d ws := by
  refine sum_le_sum ?_
  intro w hw
  have hw0 := hpos w hw
  have himp := h w hw
  split
  · rename_i hc
    rw [himp hc, if_pos rfl]
  · split <;> omega

lemma amountWhere_nonneg (hpos : ∀ w ∈ ws, 0 ≤ w.amount) : 0 ≤ amountWhere c ws := by
  refine sum_nonneg (forall_mem_map.mpr ?_)
  intro w hw
  have hw0 := hpos w hw
  split <;> omega

/-- The amount a provider has in the queue. -/
def queuedBy (a : AccAddress) (ws : List Withdraw) : Int := amountWhere (fun b _ => b = a) ws

/-- The amount of one provider that completes until and including a time. -/
def queuedByUntil (a : AccAddress) (t : Time) (ws : List Withdraw) : Int :=
  amountWhere (fun b s => b = a && s ≤ t) ws

namespace CollateralBook

variable {q : TimeQueue Withdraw} {w : Withdraw} {provider : AccAddress} {b : CollateralBook}

lemma slice_eq_singleton (hw : w ∈ q.slice w.completionTime)
    (hlen : ¬1 < (q.slice w.completionTime).length) : q.slice w.completionTime = [w] := by
  cases hs : q.slice w.completionTime with
  | nil => simp [hs] at hw
  | cons x xs =>
    rw [hs] at hw hlen
    have hxs : xs = [] := by
      simpa using hlen
    simpa [hxs, eq_comm] using hw

lemma unqueue_spec (hq : QueueFiled q) (hw : w ∈ q.entries) (ha : w.address = provider) :
    q.entries.Perm (w :: (unqueue provider q w).entries) ∧ QueueFiled (unqueue provider q w) := by
  have hslice : w ∈ q.slice w.completionTime := hq.mem_slice hw
  unfold unqueue
  dsimp only
  split
  · have hmem : w ∈ (q.slice w.completionTime).reverse := mem_reverse.mpr hslice
    obtain ⟨e, l1, l2, -, he, hl, herase⟩ := exists_of_eraseP
      (p := fun e => decide (e.address = provider) && decide (e.amount = w.amount)) hmem
      (by simp [ha])
    have heslice : e ∈ q.slice w.completionTime := by
      rw [← mem_reverse, hl]
      simp
    -- The entry found by address and amount is filed under the same time, so it is `w`.
    have hew : e = w := by
      have htime : e.completionTime = w.completionTime := hq.of_mem_slice heslice
      cases e
      cases w
      simp_all
    rw [herase]
    refine ⟨entries_perm_of_slice_perm q w.completionTime [w] _ ?_, hq.setSlice ?_⟩
    · refine (reverse_perm _).symm.trans ?_
      rw [hl, hew]
      exact perm_middle.trans ((reverse_perm _).symm.cons w)
    · intro b hb
      refine hq.of_mem_slice ?_
      rw [← mem_reverse, hl]
      have hb' : b ∈ l1 ++ l2 := mem_reverse.mp hb
      rcases mem_append.mp hb' with h | h
      · exact mem_append_left _ h
      · exact mem_append_right _ (mem_cons_of_mem e h)
  · rename_i hlen
    refine ⟨?_, hq.removeSlice _⟩
    have hperm := entries_perm_slice q w.completionTime
    rwa [slice_eq_singleton hslice hlen] at hperm

/-- The withdraws of the other providers in a slice, in their order. -/
def othersAt (provider : AccAddress) (q : TimeQueue Withdraw) (t : Time) : List Withdraw :=
  (q.slice t).filter (fun w => w.address ≠ provider)

lemma othersAt_unqueue (hq : QueueFiled q) (hw : w ∈ q.entries) (ha : w.address = provider)
    (t : Time) : othersAt provider (unqueue provider q w) t = othersAt provider q t := by
  have hslice : w ∈ q.slice w.completionTime := hq.mem_slice hw
  unfold othersAt unqueue
  dsimp only
  by_cases ht : t = w.completionTime
  · subst ht
    split
    · rw [slice_setSlice_self, filter_reverse, filter_eraseP, ← filter_reverse,
        reverse_reverse]
      intro e he
      simp only [Bool.and_eq_true, decide_eq_true_eq] at he
      simp [he.1]
    · rename_i hlen
      rw [slice_removeSlice_self, slice_eq_singleton hslice hlen]
      simp [ha]
  · split
    · rw [slice_setSlice_of_ne _ _ ht]
    · rw [slice_removeSlice_of_ne _ ht]

lemma othersAt_insert (ha : w.address = provider) (t' t : Time) :
    othersAt provider (q.insert t' w) t = othersAt provider q t := by
  unfold othersAt
  by_cases ht : t = t'
  · subst ht
    rw [slice_insert_self, filter_append]
    simp [ha]
  · rw [slice_insert_of_ne _ _ ht]

/-- The loop delays a first part of its candidates and leaves the rest of the queue. -/
lemma delayLoop_spec (provider : AccAddress) (delayedTime : Time) (ws : List Withdraw)
    (remaining : Int) (q : TimeQueue Withdraw) (others : List Withdraw) (hq : QueueFiled q)
    (hperm : q.entries.Perm (ws ++ others)) (ha : ∀ w ∈ ws, w.address = provider) :
    ∃ delayed left, ws = delayed ++ left ∧
      QueueFiled (delayLoop provider delayedTime ws remaining q).2 ∧
      (delayLoop provider delayedTime ws remaining q).2.entries.Perm
        (left ++ (delayed.map (fun w => { w with completionTime := delayedTime }) ++ others)) ∧
      (delayLoop provider delayedTime ws remaining q).1 =
        remaining - (delayed.map Withdraw.amount).sum ∧
      ∀ t, othersAt provider (delayLoop provider delayedTime ws remaining q).2 t =
        othersAt provider q t := by
  induction ws generalizing remaining q others with
  | nil => exact ⟨[], [], rfl, hq, hperm, by simp [delayLoop], fun _ => rfl⟩
  | cons w ws ih =>
    unfold delayLoop
    split
    · have hw : w ∈ q.entries := hperm.mem_iff.mpr (by simp)
      have hown := ha w mem_cons_self
      obtain ⟨hun, hfiled⟩ := unqueue_spec hq hw hown
      have hrest : (unqueue provider q w).entries.Perm (ws ++ others) :=
        (hun.symm.trans hperm).cons_inv
      obtain ⟨delayed, left, hws, hfiled', hperm', hrem, hothers⟩ := ih (remaining - w.amount)
        ((unqueue provider q w).insert delayedTime { w with completionTime := delayedTime })
        ({ w with completionTime := delayedTime } :: others)
        (TimeQueue.Filed.insert hfiled rfl)
        ((entries_insert_perm _ _ _).trans ((hrest.cons _).trans perm_middle.symm))
        (fun v hv => ha v (mem_cons_of_mem w hv))
      refine ⟨w :: delayed, left, by rw [hws]; rfl, hfiled', ?_, ?_, ?_⟩
      · refine hperm'.trans (List.Perm.append_left left ?_)
        rw [map_cons, cons_append]
        exact perm_middle
      · rw [hrem, map_cons, sum_cons]
        omega
      · intro t
        rw [hothers t, othersAt_insert (w := { w with completionTime := delayedTime }) hown,
          othersAt_unqueue hq hw hown]
    · exact ⟨[], w :: ws, rfl, hq, hperm, by simp, fun _ => rfl⟩

lemma withdrawsByTime_eq (hq : QueueFiled b.withdrawQueue) (provider : AccAddress) (time : Time) :
    b.withdrawsByTime provider time = b.withdrawQueue.entries.filter
      (fun w => decide (w.completionTime ≤ time) && decide (w.address = provider)) := by
  unfold withdrawsByTime
  rw [hq.dueBy_eq, filter_filter]
  refine filter_congr ?_
  intro w _
  rw [Bool.and_comm]

lemma computeWithdrawAmountByTime_eq (hq : QueueFiled b.withdrawQueue)
    (provider : AccAddress) (time : Time) :
    b.computeWithdrawAmountByTime provider time =
      queuedByUntil provider time b.withdrawQueue.entries := by
  unfold computeWithdrawAmountByTime queuedByUntil amountWhere
  rw [withdrawsByTime_eq hq]
  induction b.withdrawQueue.entries with
  | nil => rfl
  | cons w ws ih =>
    rw [map_cons, sum_cons, ← ih, filter_cons, Bool.and_comm]
    split <;> simp

/-- `delayWithdraws` moves some of the provider's withdraws that complete by `delayedTime`
to that time. What it moves adds up to at least the amount it was asked for. -/
lemma delayWithdraws_spec {b' : CollateralBook} {amount : Int} {delayedTime : Time}
    (hq : QueueFiled b.withdrawQueue) (h : delayWithdraws b provider amount delayedTime = .ok b') :
    ∃ delayed left others queue,
      b' = { b with withdrawQueue := queue } ∧ QueueFiled queue ∧
      (b.withdrawsByTime provider delayedTime).Perm (delayed ++ left) ∧
      b.withdrawQueue.entries.Perm (delayed ++ (left ++ others)) ∧
      queue.entries.Perm
        (delayed.map (fun w => { w with completionTime := delayedTime }) ++ (left ++ others)) ∧
      (∀ w ∈ delayed, w.address = provider ∧ w.completionTime ≤ delayedTime) ∧
      amount ≤ (delayed.map Withdraw.amount).sum ∧
      ∀ t, othersAt provider queue t = othersAt provider b.withdrawQueue t := by
  obtain ⟨remaining, queue, hloop, hrem, rfl⟩ := delayWithdraws_cases h
  have hcand := withdrawsByTime_eq hq provider delayedTime
  have hmem : ∀ w ∈ b.withdrawsByTime provider delayedTime,
      w.address = provider ∧ w.completionTime ≤ delayedTime := by
    intro w hw
    rw [hcand] at hw
    have hcond := (mem_filter.mp hw).2
    simp only [Bool.and_eq_true, decide_eq_true_eq] at hcond
    exact ⟨hcond.2, hcond.1⟩
  obtain ⟨others, hsplit⟩ : ∃ others, b.withdrawQueue.entries.Perm
      ((b.withdrawsByTime provider delayedTime).reverse ++ others) := by
    rw [hcand]
    exact ⟨_, (filter_append_perm _ _).symm.trans ((reverse_perm _).symm.append_right _)⟩
  obtain ⟨delayed, left, hws, hfiled, hperm, hamount, hothers⟩ := delayLoop_spec provider
    delayedTime _ amount b.withdrawQueue _ hq hsplit
    (fun w hw => (hmem w (mem_reverse.mp hw)).1)
  rw [hloop] at hfiled hperm hamount hothers
  refine ⟨delayed, left, others, queue, rfl, hfiled, ?_, ?_, ?_, ?_, by omega, hothers⟩
  · exact (reverse_perm _).symm.trans (by rw [hws])
  · rw [hws, append_assoc] at hsplit
    exact hsplit
  · refine hperm.trans ?_
    rw [← append_assoc, ← append_assoc]
    exact perm_append_comm.append_right _
  · intro w hw
    refine hmem w (mem_reverse.mp ?_)
    rw [hws]
    exact mem_append_left _ hw

/-- The withdraws of one provider in the queue. -/
def ownWithdraws (provider : AccAddress) (q : TimeQueue Withdraw) : List Withdraw :=
  q.entries.filter (fun w => w.address = provider)

/-- Something remains to be delayed after the loop iff its candidates do not cover the
amount. -/
lemma delayLoop_remaining (provider : AccAddress) (delayedTime : Time) {ws : List Withdraw}
    (hpos : ∀ w ∈ ws, 0 ≤ w.amount) (remaining : Int) (q : TimeQueue Withdraw) :
    0 < (delayLoop provider delayedTime ws remaining q).1 ↔
      (ws.map Withdraw.amount).sum < remaining := by
  induction ws generalizing remaining q with
  | nil => simp [delayLoop]
  | cons w ws ih =>
    have hrest := ih (fun v hv => hpos v (mem_cons_of_mem w hv))
    rw [map_cons, sum_cons]
    unfold delayLoop
    split
    · rw [hrest]
      omega
    · have hw : 0 ≤ w.amount := hpos w mem_cons_self
      have hsum : 0 ≤ (ws.map Withdraw.amount).sum := by
        apply sum_nonneg
        intro x hx
        obtain ⟨v, hv, rfl⟩ := mem_map.mp hx
        exact hpos v (mem_cons_of_mem w hv)
      omega

/-- The delay fails in one way only, when the withdraws that complete by `delayedTime` do not
cover the amount. -/
lemma delayWithdraws_eq_error {amount : Int}
    {delayedTime : Time} (hq : QueueFiled b.withdrawQueue)
    (hpos : ∀ w ∈ ownWithdraws provider b.withdrawQueue, 0 ≤ w.amount) (fault : Fault) :
    b.delayWithdraws provider amount delayedTime = .error fault ↔
      fault = .panic .notEnoughWithdraws ∧
        queuedByUntil provider delayedTime b.withdrawQueue.entries < amount := by
  have hown : ∀ w ∈ (b.withdrawsByTime provider delayedTime).reverse, 0 ≤ w.amount := by
    intro w hw
    rw [mem_reverse, withdrawsByTime_eq hq, mem_filter, Bool.and_eq_true] at hw
    exact hpos w (mem_filter.mpr ⟨hw.1, hw.2.2⟩)
  have hrem := delayLoop_remaining provider delayedTime hown amount b.withdrawQueue
  have hsum : ((b.withdrawsByTime provider delayedTime).reverse.map Withdraw.amount).sum =
      queuedByUntil provider delayedTime b.withdrawQueue.entries := by
    rw [← computeWithdrawAmountByTime_eq hq]
    exact ((reverse_perm _).map _).sum_eq
  rw [hsum] at hrem
  unfold delayWithdraws
  rw [bind_eq_error, failIf_eq_error, ← hrem]
  constructor
  · rintro (⟨hlt, rfl⟩ | ⟨_, -, hok⟩)
    · exact ⟨rfl, hlt⟩
    · cases hok
  · rintro ⟨rfl, hlt⟩
    exact .inl ⟨hlt, rfl⟩

/-- The delay of withdrawals only moves time. What other providers have in the queue stays as
it is, slice by slice; the provider's own entries are split in those that move to
`delayedTime`, all of them due by then and together at least the amount, and those that stay.
With no negative amounts in the provider's entries, the delay panics iff those due by
`delayedTime` total less than the amount. -/
theorem delayWithdraws_movesTime (b : CollateralBook) (provider : AccAddress) (amount : Int)
    (delayedTime : Time) (hq : QueueFiled b.withdrawQueue) :
    (∀ b', b.delayWithdraws provider amount delayedTime = .ok b' →
      ∃ queue delayed kept, b' = { b with withdrawQueue := queue } ∧ QueueFiled queue ∧
        (∀ t, othersAt provider queue t = othersAt provider b.withdrawQueue t) ∧
        (ownWithdraws provider b.withdrawQueue).Perm (delayed ++ kept) ∧
        (ownWithdraws provider queue).Perm
          (delayed.map (fun w => { w with completionTime := delayedTime }) ++ kept) ∧
        ((ownWithdraws provider queue).map Withdraw.amount).Perm
          ((ownWithdraws provider b.withdrawQueue).map Withdraw.amount) ∧
        (∀ w ∈ delayed, w.completionTime ≤ delayedTime) ∧
        amount ≤ (delayed.map Withdraw.amount).sum) ∧
    ((∀ w ∈ ownWithdraws provider b.withdrawQueue, 0 ≤ w.amount) → ∀ fault,
      (b.delayWithdraws provider amount delayedTime = .error fault ↔
        fault = .panic .notEnoughWithdraws ∧
          queuedByUntil provider delayedTime b.withdrawQueue.entries < amount)) := by
  refine ⟨?_, fun hpos fault => delayWithdraws_eq_error hq hpos fault⟩
  intro b' h
  obtain ⟨delayed, left, others, queue, rfl, hfiled, -, hold, hnew, hdue, hamount, hothers⟩ :=
    delayWithdraws_spec hq h
  have hmoved : ∀ (f : Withdraw → Withdraw), (∀ w, (f w).address = w.address) →
      (delayed.map f).filter (fun w => decide (w.address = provider)) = delayed.map f := by
    intro f hf
    apply filter_eq_self.mpr
    intro w hw
    obtain ⟨v, hv, rfl⟩ := mem_map.mp hw
    rw [hf, (hdue v hv).1]
    exact decide_eq_true rfl
  have hbefore : (ownWithdraws provider b.withdrawQueue).Perm
      (delayed ++ (left ++ others).filter (fun w => decide (w.address = provider))) := by
    have hperm := hold.filter (fun w => decide (w.address = provider))
    have hself := hmoved id (fun _ => rfl)
    rw [map_id] at hself
    rwa [filter_append, hself] at hperm
  have hafter : (ownWithdraws provider queue).Perm
      (delayed.map (fun w => { w with completionTime := delayedTime }) ++
        (left ++ others).filter (fun w => decide (w.address = provider))) := by
    have hperm := hnew.filter (fun w => decide (w.address = provider))
    rwa [filter_append, hmoved (fun w => { w with completionTime := delayedTime })
      (fun _ => rfl)] at hperm
  refine ⟨queue, delayed, _, rfl, hfiled, hothers, hbefore, hafter, ?_,
    fun w hw => (hdue w hw).2, hamount⟩
  refine (hafter.map Withdraw.amount).trans ((hbefore.map Withdraw.amount).trans ?_).symm
  rw [map_append, map_append, map_map]
  rfl

/-- Two withdraws of one provider; the first shares its slice with another provider. -/
def sharedSlice : CollateralBook :=
  { CollateralBook.empty with
    withdrawQueue := TimeQueue.insertAll Table.empty
      [(10, ⟨1, 5, 10⟩), (10, ⟨2, 7, 10⟩), (20, ⟨1, 5, 20⟩)] }

theorem delayWithdraws_movesTime_shared :
    QueueFiled sharedSlice.withdrawQueue ∧
    (∃ queue, (sharedSlice.delayWithdraws 1 6 20).toOption.map withdrawQueue = some queue ∧
      othersAt 1 queue 10 = [⟨2, 7, 10⟩] ∧
      ((ownWithdraws 1 queue).map Withdraw.amount).Perm [5, 5]) ∧
    sharedSlice.delayWithdraws 1 11 20 = .error (.panic .notEnoughWithdraws) := by
  have hq : QueueFiled sharedSlice.withdrawQueue := by
    unfold QueueFiled TimeQueue.Filed
    decide
  obtain ⟨b', hok⟩ : ∃ b', sharedSlice.delayWithdraws 1 6 20 = .ok b' := ⟨_, rfl⟩
  obtain ⟨queue, delayed, kept, rfl, -, hothers, -, -, hamounts, -, -⟩ :=
    (delayWithdraws_movesTime sharedSlice 1 6 20 hq).1 b' hok
  refine ⟨hq, ⟨queue, by rw [hok]; rfl, hothers 10, hamounts⟩, ?_⟩
  exact ((delayWithdraws_movesTime sharedSlice 1 11 20 hq).2 (by decide) _).mpr ⟨rfl, by decide⟩

end CollateralBook

end Shentu
