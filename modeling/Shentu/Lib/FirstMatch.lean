import Mathlib

/-!
Editing the first element of a list that meets a condition. The edit splits the
list at that element, and sums over the list change by that element alone.
-/

namespace Shentu.Lib

open List

variable {α β : Type}

/-- Replace the first element that meets the condition. -/
def updateFirst (p : α → Bool) (f : α → α) : List α → List α
  | [] => []
  | a :: as => if p a then f a :: as else a :: updateFirst p f as

variable {p q : α → Bool} {f : α → α} {l : List α}

lemma updateFirst_ne_nil (h : l ≠ []) : updateFirst p f l ≠ [] := by
  cases l with
  | nil => exact absurd rfl h
  | cons a as =>
    unfold updateFirst
    split <;> exact cons_ne_nil _ _

lemma updateFirst_split {a : α} (h : l.find? p = some a) :
    ∃ l1 l2, l = l1 ++ a :: l2 ∧ updateFirst p f l = l1 ++ f a :: l2 := by
  induction l with
  | nil => cases h
  | cons b rest ih =>
    rw [find?_cons] at h
    cases hb : p b with
    | true =>
      rw [hb] at h
      cases h
      exact ⟨[], rest, rfl, by simp [updateFirst, hb]⟩
    | false =>
      rw [hb] at h
      obtain ⟨l1, l2, hl, hu⟩ := ih h
      refine ⟨b :: l1, l2, by rw [hl]; rfl, ?_⟩
      simp [updateFirst, hb, hu]

lemma updateFirst_of_find?_none (h : l.find? p = none) : updateFirst p f l = l := by
  induction l with
  | nil => rfl
  | cons b rest ih =>
    rw [find?_cons] at h
    cases hb : p b with
    | true =>
      rw [hb] at h
      cases h
    | false =>
      rw [hb] at h
      simp [updateFirst, hb, ih h]

lemma find?_updateFirst_self (hp : ∀ a, p (f a) = p a) (l : List α) :
    (updateFirst p f l).find? p = (l.find? p).map f := by
  induction l with
  | nil => rfl
  | cons b rest ih =>
    unfold updateFirst
    cases hb : p b with
    | true => simp [hp, hb]
    | false => simp [hb, ih]

lemma find?_updateFirst_of_disjoint (hq : ∀ a, q (f a) = q a)
    (hdisjoint : ∀ a, p a = true → q a = false) (l : List α) :
    (updateFirst p f l).find? q = l.find? q := by
  induction l with
  | nil => rfl
  | cons b rest ih =>
    unfold updateFirst
    cases hb : p b with
    | true => simp [hq, hdisjoint b hb]
    | false =>
      simp only [Bool.false_eq_true, if_false, find?_cons, ih]

lemma filter_eraseP (hpq : ∀ a, p a = true → q a = false) (l : List α) :
    (l.eraseP p).filter q = l.filter q := by
  induction l with
  | nil => rfl
  | cons a l ih =>
    cases hp : p a with
    | true => rw [eraseP_cons_of_pos hp, filter_cons_of_neg (by simp [hpq a hp])]
    | false =>
      rw [eraseP_cons_of_neg (by simp [hp]), filter_cons, filter_cons, ih]

lemma filter_eraseP_self (p : α → Bool) (l : List α) :
    (l.eraseP p).filter p = (l.filter p).tail := by
  induction l with
  | nil => rfl
  | cons a l ih =>
    cases hp : p a with
    | true => rw [eraseP_cons_of_pos hp, filter_cons_of_pos hp, tail_cons]
    | false =>
      rw [eraseP_cons_of_neg (by simp [hp]), filter_cons_of_neg (by simp [hp]),
        filter_cons_of_neg (by simp [hp]), ih]

lemma filter_updateFirst (hpq : ∀ a, p a = true → q a = false ∧ q (f a) = false) (l : List α) :
    (updateFirst p f l).filter q = l.filter q := by
  induction l with
  | nil => rfl
  | cons a l ih =>
    unfold updateFirst
    cases hp : p a with
    | true =>
      obtain ⟨hold, hnew⟩ := hpq a hp
      rw [if_pos rfl, filter_cons_of_neg (by simp [hnew]),
        filter_cons_of_neg (by simp [hold])]
    | false =>
      rw [if_neg (by simp), filter_cons, filter_cons, ih]

/-- Among elements with different keys the first with a key is the only one. -/
lemma updateFirst_eq_map [DecidableEq β] {g : α → β} (b : β) (f : α → α) (h : (l.map g).Nodup) :
    updateFirst (fun a => decide (g a = b)) f l = l.map (fun a => if g a = b then f a else a) := by
  induction l with
  | nil => rfl
  | cons a l ih =>
    obtain ⟨hnot, hrest⟩ := nodup_cons.mp h
    rw [updateFirst, map_cons]
    by_cases ha : g a = b
    · rw [if_pos (decide_eq_true ha), if_pos ha]
      have hsame : l.map (fun a => if g a = b then f a else a) = l.map id := by
        apply map_congr_left
        intro a' ha'
        have hne : g a' ≠ b := by
          intro heq
          exact hnot (ha.trans heq.symm ▸ mem_map_of_mem ha')
        exact if_neg hne
      rw [hsame, map_id]
    · rw [if_neg (by simp [ha]), if_neg ha, ih hrest]

lemma set_findIdx?_eq_updateFirst {a : α} (h : l.find? p = some a) :
    l[(l.findIdx? p).getD 0]? = some a ∧
      l.set ((l.findIdx? p).getD 0) (f a) = updateFirst p f l := by
  induction l with
  | nil => cases h
  | cons b rest ih =>
    rw [find?_cons] at h
    cases hb : p b with
    | true =>
      rw [hb] at h
      cases h
      simp [findIdx?_cons, hb, updateFirst]
    | false =>
      rw [hb] at h
      obtain ⟨hget, hset⟩ := ih h
      obtain ⟨n, hn⟩ : ∃ n, rest.findIdx? p = some n := by
        cases hn : rest.findIdx? p with
        | some n => exact ⟨n, rfl⟩
        | none =>
          have hnone := findIdx?_eq_none_iff.mp hn
          have ha := find?_some h
          rw [hnone a (mem_of_find?_eq_some h)] at ha
          cases ha
      rw [hn, Option.getD_some] at hget hset
      simp [findIdx?_cons, hb, hn, updateFirst, hget, hset]

end Shentu.Lib
