import Mathlib

/-!
Amounts laid end to end, and a window cut out of them: the first `left` units are left, the next
`taken` units are taken. The part of each amount that lies in the window is found by one pass over
the amounts, and what a first stretch of the amounts gives has a closed form.
-/

namespace Shentu.Lib

open List

/-- The parts of the amounts in the window that starts after `left` units and is `taken` long. -/
def windowParts : Int → Int → List Int → List Int
  | _, _, [] => []
  | left, taken, a :: as =>
    min taken (max (a - left) 0) ::
      windowParts (max (left - a) 0) (taken - min taken (max (a - left) 0)) as

lemma length_windowParts (left taken : Int) (as : List Int) :
    (windowParts left taken as).length = as.length := by
  induction as generalizing left taken with
  | nil => rfl
  | cons a as ih =>
    rw [windowParts, length_cons, length_cons, ih]

variable {as : List Int}

/-- What the first amounts give: all that lies behind the part that is left, up to what is
taken. -/
lemma sum_take_windowParts {left taken : Int} (hleft : 0 ≤ left) (htaken : 0 ≤ taken)
    (has : ∀ a ∈ as, 0 ≤ a) (i : Nat) :
    ((windowParts left taken as).take i).sum = min taken (max 0 ((as.take i).sum - left)) := by
  induction as generalizing left taken i with
  | nil =>
    rw [windowParts, take_nil, sum_nil]
    omega
  | cons a as ih =>
    obtain ⟨ha, has⟩ := forall_mem_cons.mp has
    cases i with
    | zero =>
      rw [take_zero, take_zero, sum_nil]
      omega
    | succ i =>
      have hrest : 0 ≤ (as.take i).sum :=
        sum_nonneg (fun b hb => has b (mem_of_mem_take hb))
      rw [windowParts, take_succ_cons, take_succ_cons, sum_cons, sum_cons,
        ih (by omega) (by omega) has]
      omega

lemma sum_windowParts {left taken : Int} (hleft : 0 ≤ left) (htaken : 0 ≤ taken)
    (has : ∀ a ∈ as, 0 ≤ a) :
    (windowParts left taken as).sum = min taken (max 0 (as.sum - left)) := by
  have hall := sum_take_windowParts hleft htaken has as.length
  rwa [take_length, ← length_windowParts left taken as, take_length] at hall

lemma windowParts_bounds {left taken : Int} (hleft : 0 ≤ left) (htaken : 0 ≤ taken)
    (has : ∀ a ∈ as, 0 ≤ a) :
    ∀ x ∈ as.zip (windowParts left taken as), 0 ≤ x.2 ∧ x.2 ≤ x.1 := by
  induction as generalizing left taken with
  | nil => simp [windowParts]
  | cons a as ih =>
    obtain ⟨ha, has⟩ := forall_mem_cons.mp has
    rw [windowParts, zip_cons_cons]
    refine forall_mem_cons.mpr ⟨?_, ih (by omega) (by omega) has⟩
    omega

lemma windowParts_zero (left : Int) (as : List Int) :
    windowParts left 0 as = List.replicate as.length 0 := by
  induction as generalizing left with
  | nil => rfl
  | cons a as ih =>
    have hnone : min 0 (max (a - left) 0) = 0 := by omega
    rw [windowParts, hnone, sub_zero, ih, length_cons, replicate_succ]

section Cut

variable {α : Type} (amount : α → Int) (reduce : α → Int → α)

/-- What is left of an element when a part of its amount is taken. Of one that is taken entirely
nothing is left. -/
def remainder (ax : α × Int) : List α :=
  if 0 < ax.2 ∧ amount ax.1 = ax.2 then [] else [reduce ax.1 ax.2]

/-- What is left of the elements when the window is cut out of their amounts. -/
def cutWindow (left taken : Int) (as : List α) : List α :=
  (as.zip (windowParts left taken (as.map amount))).flatMap (remainder amount reduce)

lemma cutWindow_cons (left taken : Int) (a : α) (as : List α) :
    cutWindow amount reduce left taken (a :: as) =
      remainder amount reduce (a, min taken (max (amount a - left) 0)) ++
        cutWindow amount reduce (max (left - amount a) 0)
          (taken - min taken (max (amount a - left) 0)) as := rfl

variable {amount reduce}

lemma remainder_of_ne {a : α} {x : Int} (h : amount a ≠ x) :
    remainder amount reduce (a, x) = [reduce a x] := by
  unfold remainder
  rw [if_neg (fun hall => h hall.2)]

lemma remainder_zero (hreduce : ∀ a, reduce a 0 = a) (a : α) :
    remainder amount reduce (a, 0) = [a] := by
  unfold remainder
  rw [if_neg (fun hall => absurd hall.1 (lt_irrefl 0)), hreduce]

lemma cutWindow_zero (hreduce : ∀ a, reduce a 0 = a) (left : Int) (as : List α) :
    cutWindow amount reduce left 0 as = as := by
  induction as generalizing left with
  | nil => rfl
  | cons a as ih =>
    have hnone : min 0 (max (amount a - left) 0) = 0 := by omega
    rw [cutWindow_cons, hnone, sub_zero, remainder_zero hreduce, ih, singleton_append]

lemma mem_cutWindow {left taken : Int} {as : List α} {a' : α}
    (h : a' ∈ cutWindow amount reduce left taken as) : ∃ a ∈ as, ∃ x, a' = reduce a x := by
  obtain ⟨⟨a, x⟩, hax, ha'⟩ := mem_flatMap.mp h
  unfold remainder at ha'
  split at ha'
  · exact absurd ha' not_mem_nil
  · exact ⟨a, (of_mem_zip hax).1, x, mem_singleton.mp ha'⟩

end Cut

end Shentu.Lib
