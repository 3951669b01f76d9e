import Shentu.Oracle.Steps

/-!
When withdrawals are paid. The range of mature withdrawals is a range of keys, so a
withdrawal is paid at the first height whose little-endian bytes are not before those of
its due block. It is paid on time if up to then the order of the bytes is the order of the
heights.
-/

namespace Shentu.Oracle

open Lib Table Option

variable {σ : Type}

/-- The first height after that of its creation at which a withdrawal is due. -/
def maturity (created : Nat) (dueBlock : Int) : Nat := max (created + 1) dueBlock.toNat

/-- From the creation of a withdrawal to the height at which it has to be paid, the bytes of the
heights are in the order of the heights. -/
def InOrder (created : Nat) (dueBlock : Int) : Prop :=
  ∀ height ≤ maturity created dueBlock, created < height →
    (Matures dueBlock height ↔ dueBlock ≤ height)

instance (created : Nat) (dueBlock : Int) : Decidable (InOrder created dueBlock) := by
  unfold InOrder
  infer_instance

/-- The key of the withdrawal that an entry is about. -/
def Entry.withdrawKey : Entry → Option (List Byte)
  | .putIn _ _ => none
  | .created _ w | .paid _ w => some w.storeKey

/-- The entries about the withdrawals under a key. -/
def under (key : List Byte) (l : List Entry) : List Entry :=
  l.filter (fun e => e.withdrawKey = some key)

/-- Read one more entry about a key, with the withdrawal that is to be paid and the height of its
creation: a withdrawal is created if there is none to be paid, and the one to be paid is paid at
the first height at which it is due. -/
def follow (pending : Option (Nat × Withdraw)) : Entry → Option (Option (Nat × Withdraw))
  | .putIn _ _ => some pending
  | .created height w =>
    match pending with
    | none => some (some (height, w))
    | some _ => none
  | .paid height w =>
    match pending with
    | none => none
    | some (created, w') =>
      if w = w' ∧ height = maturity created w.dueBlock then some none else none

/-- The entries about a key are creations, each followed by the payment of what was created at the
first height at which it is due. A last creation without payment is still in the store, and that
height is still to come. -/
def PaidOnTime (s : State σ) (l : List Entry) (key : List Byte) : Prop :=
  ∃ pending, (under key l).foldlM follow none = some pending ∧
    s.withdraws.get key = pending.map Prod.snd ∧
    ∀ created w, pending = some (created, w) → s.height < maturity created w.dueBlock

section Follow

variable {k : Keepers σ} {s s' : State σ} {l : List Entry} {key : List Byte}

lemma under_append (key : List Byte) (l l' : List Entry) :
    under key (l ++ l') = under key l ++ under key l' := List.filter_append l l'

/-- What is kept along a run: besides what is expected, a pending withdrawal is in order. -/
structure Followed (s : State σ) (l : List Entry) (key : List Byte)
    (pending : Option (Nat × Withdraw)) : Prop where
  read : (under key l).foldlM follow none = some pending
  stored : s.withdraws.get key = pending.map Prod.snd
  before : ∀ created w, pending = some (created, w) →
    created ≤ s.height ∧ s.height < maturity created w.dueBlock ∧ InOrder created w.dueBlock

variable {pending : Option (Nat × Withdraw)}

lemma Followed.other (h : Followed s l key pending) {l' : List Entry} (hl' : under key l' = [])
    (hget : s'.withdraws.get key = s.withdraws.get key) (hheight : s'.height = s.height) :
    Followed s' (l ++ l') key pending where
  read := by
    rw [under_append, hl', List.append_nil]
    exact h.read
  stored := hget.trans h.stored
  before := by
    rw [hheight]
    exact h.before

/-- A withdrawal is created. -/
lemma Followed.create (h : Followed s l key pending)
    {w : Withdraw} (horder : InOrder s.height w.dueBlock)
    (hfree : s.withdraws.get w.storeKey = none)
    (hwithdraws : s'.withdraws = s.withdraws.set w) (hheight : s'.height = s.height) :
    ∃ pending', Followed s' (l ++ [.created s.height w]) key pending' := by
  by_cases hkey : w.storeKey = key
  · subst hkey
    have hnone : pending = none := by
      have hstored := h.stored
      rw [hfree] at hstored
      exact map_eq_none_iff.mp hstored.symm
    refine ⟨some (s.height, w), ?_, ?_, ?_⟩
    · have hself : under w.storeKey [.created s.height w] = [.created s.height w] := by
        simp [under, Entry.withdrawKey]
      rw [under_append, hself, List.foldlM_append, h.read, hnone]
      rfl
    · rw [hwithdraws]
      exact get_set_self _ _
    · intro created w' heq
      cases heq
      rw [hheight]
      exact ⟨le_refl _, lt_max_of_lt_left (Nat.lt_succ_self _), horder⟩
  · refine ⟨pending, h.other ?_ ?_ hheight⟩
    · simp [under, Entry.withdrawKey, hkey]
    · rw [hwithdraws]
      exact get_set_of_ne _ (Ne.symm hkey)

lemma under_paid (t : Table Withdraw.storeKey) (mature : Withdraw → Bool) (height : Nat)
    (key : List Byte) :
    under key ((t.rows.filter mature).map (.paid height)) =
      ((t.get key).toList.filter mature).map (.paid height) := by
  rw [under, List.filter_map, List.filter_filter, ← t.filter_key_rows, List.filter_filter]
  refine congrArg _ (List.filter_congr ?_)
  intro w _
  by_cases hkey : w.storeKey = key <;> simp [Entry.withdrawKey, hkey]

/-- The next block pays the pending withdrawal if its time has come, and keeps it otherwise. -/
lemma Followed.block (h : Followed s l key pending)
    (hwithdraws : s'.withdraws =
      s.withdraws.filter (fun w => !decide (Matures w.dueBlock (s.height + 1))))
    (hheight : s'.height = s.height + 1) :
    ∃ pending', Followed s' (l ++ (s.withdraws.rows.filter
      (fun w => Matures w.dueBlock (s.height + 1))).map (.paid (s.height + 1))) key pending' := by
  have hread := h.read
  have hget : s'.withdraws.get key = (s.withdraws.get key).filter
      (fun w => !decide (Matures w.dueBlock (s.height + 1))) := by
    rw [hwithdraws]
    exact get_filter _ _ _
  rw [h.stored] at hget
  cases pending with
  | none =>
    refine ⟨none, ?_, hget, fun _ _ heq => by cases heq⟩
    rw [under_append, under_paid, h.stored, List.foldlM_append, hread]
    rfl
  | some p =>
    obtain ⟨created, w⟩ := p
    obtain ⟨hcreated, hlater, horder⟩ := h.before created w rfl
    have hdue : Matures w.dueBlock (s.height + 1) ↔ w.dueBlock ≤ (s.height + 1 : Nat) :=
      horder (s.height + 1) hlater (Nat.lt_succ_of_le hcreated)
    simp only [map_some, filter_some] at hget
    by_cases hmature : Matures w.dueBlock (s.height + 1)
    · -- The height is due, and no height before it was.
      have heq : s.height + 1 = maturity created w.dueBlock := by
        have hle := hdue.mp hmature
        refine le_antisymm hlater (max_le (Nat.succ_le_succ hcreated) ?_)
        omega
      refine ⟨none, ?_, ?_, fun _ _ heq => by cases heq⟩
      · have hpaid : (Option.map Prod.snd (some (created, w))).toList.filter
            (fun w => decide (Matures w.dueBlock (s.height + 1))) = [w] := by simp [hmature]
        rw [under_append, under_paid, h.stored, hpaid, List.foldlM_append, hread]
        simp [follow, heq]
      · simpa [hmature] using hget
    · have hnot : ¬ w.dueBlock ≤ (s.height + 1 : Nat) := fun hle => hmature (hdue.mpr hle)
      refine ⟨some (created, w), ?_, ?_, ?_⟩
      · rw [under_append, under_paid, h.stored, List.foldlM_append, hread]
        simp [hmature]
      · simpa [hmature] using hget
      · intro created' w' heq
        cases heq
        rw [hheight]
        refine ⟨by omega, lt_max_of_lt_right ?_, horder⟩
        omega

/-- Every step follows the withdrawals under a key, if those that it creates are in order and their
places are free. -/
lemma Followed.step {l' : List Entry} (h : Followed s l key pending) (hstep : Step k s s' l')
    (hcreated : ∀ {height : Nat} {w : Withdraw}, .created height w ∈ l' →
      InOrder s.height w.dueBlock ∧ s.withdraws.get w.storeKey = none) :
    ∃ pending', Followed s' (l ++ l') key pending' := by
  cases hstep with
  | create _ _ _ hwithdraws hheight => exact ⟨pending, h.other rfl (by rw [hwithdraws]) hheight⟩
  | add _ _ _ hwithdraws hheight => exact ⟨pending, h.other rfl (by rw [hwithdraws]) hheight⟩
  | reduce _ _ _ hwithdraws hheight =>
    obtain ⟨hin, hfree⟩ := hcreated List.mem_cons_self
    exact h.create hin hfree hwithdraws hheight
  | remove _ _ hwithdraws hheight =>
    obtain ⟨hin, hfree⟩ := hcreated List.mem_cons_self
    exact h.create hin hfree hwithdraws hheight
  | reward _ _ hwithdraws hheight => exact ⟨pending, h.other rfl (by rw [hwithdraws]) hheight⟩
  | other _ hwithdraws hheight => exact ⟨pending, h.other rfl (by rw [hwithdraws]) hheight⟩
  | block _ hwithdraws hheight => exact h.block hwithdraws hheight

end Follow

end Shentu.Oracle
