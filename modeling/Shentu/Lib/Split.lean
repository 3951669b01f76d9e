import Shentu.Lib.Dec

/-!
The split of an amount over weights by a rounded ratio. Every weight gives its truncated part and
one unit more where it has one. The parts are taken one after the other until nothing remains, so
what is taken adds up to the amount if the raised parts do.
-/

namespace Shentu.Lib

open List Int

/-- Take the parts in their order until an amount is used up. -/
def takeParts : List Int → Int → List Int
  | [], _ => []
  | p :: ps, remaining => min remaining p :: takeParts ps (remaining - min remaining p)

lemma length_takeParts (ps : List Int) (remaining : Int) :
    (takeParts ps remaining).length = ps.length := by
  induction ps generalizing remaining with
  | nil => rfl
  | cons p ps ih =>
    rw [takeParts, length_cons, length_cons, ih]

variable {ps : List Int} {remaining : Int} {α : Type}

lemma takeParts_sum (hps : ∀ p ∈ ps, 0 ≤ p)
    (hremaining : 0 ≤ remaining) : (takeParts ps remaining).sum = min remaining ps.sum := by
  induction ps generalizing remaining with
  | nil =>
    rw [takeParts, sum_nil]
    omega
  | cons p ps ih =>
    obtain ⟨hp, hps⟩ := forall_mem_cons.mp hps
    have hsum : 0 ≤ ps.sum := sum_nonneg hps
    rw [takeParts, sum_cons, sum_cons, ih hps (by omega)]
    omega

/-- Take the parts in their order until an amount is used up; the last one gives all that
remains. -/
def takeOrRest : List Int → Int → List Int
  | [], _ => []
  | p :: ps, remaining =>
    if 0 < remaining then
      let x := if ps.isEmpty then remaining else min remaining p
      x :: takeOrRest ps (remaining - x)
    else []

lemma takeOrRest_of_nonpos (h : remaining ≤ 0) (ps : List Int) :
    takeOrRest ps remaining = [] := by
  cases ps with
  | nil => rfl
  | cons p ps => rw [takeOrRest, if_neg (not_lt.mpr h)]

lemma length_takeOrRest_le (ps : List Int) (remaining : Int) :
    (takeOrRest ps remaining).length ≤ ps.length := by
  induction ps generalizing remaining with
  | nil => exact le_rfl
  | cons p ps ih =>
    rw [takeOrRest]
    split
    · exact Nat.succ_le_succ (ih _)
    · exact Nat.zero_le _

lemma takeOrRest_nonneg (hps : ∀ p ∈ ps, 0 ≤ p) (remaining : Int) :
    ∀ x ∈ takeOrRest ps remaining, 0 ≤ x := by
  induction ps generalizing remaining with
  | nil => simp [takeOrRest]
  | cons p ps ih =>
    obtain ⟨hp, hps⟩ := forall_mem_cons.mp hps
    rw [takeOrRest]
    split
    · refine forall_mem_cons.mpr ⟨?_, ih hps _⟩
      split <;> omega
    · simp

lemma takeOrRest_sum (hps : ps ≠ [])
    (hremaining : 0 ≤ remaining) : (takeOrRest ps remaining).sum = remaining := by
  induction ps generalizing remaining with
  | nil => exact absurd rfl hps
  | cons p ps ih =>
    rw [takeOrRest]
    split
    · cases ps with
      | nil => simp [takeOrRest]
      | cons q ps =>
        rw [isEmpty_cons, if_neg Bool.false_ne_true, sum_cons,
          ih (cons_ne_nil q ps) (by omega)]
        omega
    · rw [sum_nil]
      omega

lemma exists_append_zip {β : Type} (as : List α) (bs : List β) :
    ∃ rest, as = (as.zip bs).map Prod.fst ++ rest := by
  induction as generalizing bs with
  | nil => exact ⟨[], by simp⟩
  | cons a as ih =>
    cases bs with
    | nil => exact ⟨a :: as, by simp⟩
    | cons b bs =>
      obtain ⟨rest, hrest⟩ := ih bs
      refine ⟨rest, ?_⟩
      rw [zip_cons_cons, map_cons, cons_append, ← hrest]

private lemma sum_parts_nonneg {part : α → Int} {as : List α}
    (hparts : ∀ a ∈ as, 0 ≤ part a) : 0 ≤ (as.map part).sum :=
  sum_nonneg (forall_mem_map.mpr hparts)

/-- What is taken from each element, in terms of the parts of those before it. -/
lemma forall_zip_takeOrRest {part : α → Int} {Q : α → Int → Prop} {as : List α}
    (hparts : ∀ a ∈ as, 0 ≤ part a) (remaining : Int) :
    (∀ x ∈ as.zip (takeOrRest (as.map part) remaining), Q x.1 x.2) ↔
      ∀ before a after, as = before ++ a :: after → (before.map part).sum < remaining →
        Q a (if after.isEmpty then remaining - (before.map part).sum
          else min (remaining - (before.map part).sum) (part a)) := by
  induction as generalizing remaining with
  | nil => simp
  | cons a as ih =>
    obtain ⟨ha, hparts⟩ := forall_mem_cons.mp hparts
    by_cases hpos : 0 < remaining
    · rw [map_cons, takeOrRest, if_pos hpos, zip_cons_cons, forall_mem_cons,
        ih hparts, isEmpty_map]
      constructor
      · rintro ⟨hfirst, hrest⟩ before b after heq hlt
        cases before with
        | nil =>
          cases heq
          simpa using hfirst
        | cons c before =>
          rw [cons_append] at heq
          obtain ⟨rfl, rfl⟩ := List.cons.inj heq
          have hnonneg := sum_parts_nonneg (forall_mem_append.mp hparts).1
          rw [map_cons, sum_cons] at hlt ⊢
          have htaken : min remaining (part a) = part a := by omega
          have hne : (before ++ b :: after).isEmpty = false := by simp
          rw [hne, if_neg Bool.false_ne_true, htaken] at hrest
          rw [← Int.sub_sub]
          exact hrest before b after rfl (by omega)
      · intro hall
        have hfirst := hall [] a as rfl hpos
        rw [map_nil, sum_nil, sub_zero] at hfirst
        refine ⟨hfirst, ?_⟩
        rintro before b after rfl hlt
        have hnonneg := sum_parts_nonneg (forall_mem_append.mp hparts).1
        have hne : (before ++ b :: after).isEmpty = false := by simp
        rw [hne, if_neg Bool.false_ne_true] at hlt ⊢
        have htaken : min remaining (part a) = part a := by omega
        have hrest := hall (a :: before) b after rfl
        rw [map_cons, sum_cons, ← Int.sub_sub] at hrest
        rw [htaken] at hlt ⊢
        exact hrest (by omega)
    · rw [takeOrRest_of_nonpos (not_lt.mp hpos), zip_nil_right]
      constructor
      · intro _ before b after heq hlt
        have hall : ∀ c ∈ before ++ b :: after, 0 ≤ part c :=
          heq ▸ forall_mem_cons.mpr ⟨ha, hparts⟩
        have hnonneg := sum_parts_nonneg (forall_mem_append.mp hall).1
        omega
      · intro _ x hx
        exact absurd hx not_mem_nil

namespace Dec

/-- The truncated part of a weight and one unit more, but not more than the weight. -/
def raisedPart (ratio weight : Int) : Int := min weight (truncateInt (ratio * weight) + 1)

variable {ratio weight : Int}

lemma raisedPart_bounds (hratio : 0 ≤ ratio) (hweight : 0 ≤ weight) :
    0 ≤ raisedPart ratio weight ∧ raisedPart ratio weight ≤ weight := by
  have hpart := truncateInt_nonneg (Int.mul_nonneg hratio hweight)
  unfold raisedPart
  omega

lemma truncateInt_mul_le (hratio : 0 ≤ ratio) (hone : ratio ≤ one)
    (hweight : 0 ≤ weight) : truncateInt (ratio * weight) ≤ weight := by
  have hlow := truncateInt_mul_one_le (Int.mul_nonneg hratio hweight)
  have hhigh : ratio * weight ≤ one * weight := Int.mul_le_mul_of_nonneg_right hone hweight
  unfold one at *
  omega

/-- A truncated part that is raised by a unit where both the weight and the remaining amount have
one is the raised part, as far as the amount goes. -/
lemma raise_eq_min {remaining : Int} (hratio : 0 ≤ ratio) (hone : ratio ≤ one)
    (hweight : 0 ≤ weight) :
    (if min (truncateInt (ratio * weight)) remaining < remaining ∧
        min (truncateInt (ratio * weight)) remaining < weight
      then min (truncateInt (ratio * weight)) remaining + 1
      else min (truncateInt (ratio * weight)) remaining) =
      min remaining (raisedPart ratio weight) := by
  have hle := truncateInt_mul_le hratio hone hweight
  unfold raisedPart
  split_ifs <;> omega

lemma mul_le_raisedPart (hratio : 0 ≤ ratio) (hone : ratio ≤ one)
    (hweight : 0 ≤ weight) : ratio * weight ≤ raisedPart ratio weight * one := by
  have hproduct : 0 ≤ ratio * weight := Int.mul_nonneg hratio hweight
  have hlow := le_truncateInt_mul_one_add hproduct
  have hhigh : ratio * weight ≤ one * weight := Int.mul_le_mul_of_nonneg_right hone hweight
  unfold raisedPart
  unfold one at *
  omega

lemma mul_sum_le_raisedParts (hratio : 0 ≤ ratio) (hone : ratio ≤ one)
    {weights : List Int} (hweights : ∀ w ∈ weights, 0 ≤ w) :
    ratio * weights.sum ≤ (weights.map (raisedPart ratio)).sum * one := by
  induction weights with
  | nil => simp
  | cons w weights ih =>
    obtain ⟨hw, hweights⟩ := forall_mem_cons.mp hweights
    have hfirst := mul_le_raisedPart hratio hone hw
    have hrest := ih hweights
    rw [map_cons, sum_cons, sum_cons, Int.mul_add, Int.add_mul]
    omega

/-- A quotient of integers is at most half a unit too small, but for what lies beyond the digits
that are divided. -/
lemma le_quo_ofInt {a b : Int} (ha : 0 ≤ a) (hb : 0 < b) :
    2 * (a * one * one) ≤ 2 * (quo (ofInt a) (ofInt b) * b) * one + one * b + 2 * b := by
  have hone : (0 : Int) < one := by decide
  have hnum : 0 ≤ ofInt a * one * one :=
    Int.mul_nonneg (Int.mul_nonneg (ofInt_nonneg ha) hone.le) hone.le
  have hdivide : (ofInt a * one * one).tdiv (ofInt b) = a * one * one / b := by
    rw [tdiv_eq_ediv_of_nonneg hnum]
    have hcancel : ofInt a * one * one = a * one * one * one := by
      unfold ofInt
      ring
    rw [hcancel, ofInt, mul_ediv_mul_of_pos_left _ _ hone]
  have hquotient : 0 ≤ a * one * one / b :=
    ediv_nonneg (Int.mul_nonneg (Int.mul_nonneg ha hone.le) hone.le) hb.le
  have hquo : quo (ofInt a) (ofInt b) = chopNonneg (a * one * one / b) := by
    rw [quo, hdivide, chopRound_of_nonneg hquotient]
  obtain ⟨-, hdown, -, -⟩ := chopNonneg_spec (a * one * one / b)
  rw [← hquo] at hdown
  have hmul := Int.mul_le_mul_of_nonneg_right hdown hb.le
  have hhigh : a * one * one < (a * one * one / b + 1) * b := lt_ediv_add_one_mul_self _ hb
  linarith

/-- The ratio of two integers is at most one. -/
lemma quo_ofInt_le_one {a b : Int} (ha : 0 ≤ a) (hb : 0 < b) (hab : a ≤ b) :
    quo (ofInt a) (ofInt b) ≤ one := by
  have hone : (0 : Int) < one := by decide
  have hle := quo_add_quo_le_one (ofInt_nonneg ha) le_rfl (Int.mul_pos hb hone)
    (show ofInt a + 0 ≤ ofInt b from by
      rw [add_zero]
      exact Int.mul_le_mul_of_nonneg_right hab hone.le)
  rw [zero_quo, add_zero] at hle
  exact hle

/-- Up to a whole of one unit of the ratio for each of its parts, the raised parts of an amount
reach the amount. -/
lemma le_sum_raisedParts {weights : List Int} (hweights : ∀ w ∈ weights, 0 ≤ w)
    (hpos : 0 < weights.sum) (hmax : weights.sum ≤ one) {amount : Int} (hamount : 0 ≤ amount)
    (hle : amount ≤ weights.sum) :
    amount ≤ (weights.map (raisedPart (quo (ofInt amount) (ofInt weights.sum)))).sum := by
  have hone : (0 : Int) < one := by decide
  have hratio : 0 ≤ quo (ofInt amount) (ofInt weights.sum) :=
    quo_nonneg (ofInt_nonneg hamount) (ofInt_nonneg hpos.le)
  have hparts := mul_sum_le_raisedParts hratio (quo_ofInt_le_one hamount hpos hle) hweights
  have hnear := le_quo_ofInt hamount hpos
  generalize (weights.map (raisedPart (quo (ofInt amount) (ofInt weights.sum)))).sum = parts at *
  generalize quo (ofInt amount) (ofInt weights.sum) * weights.sum = product at *
  by_contra hless
  have hshort : parts * one ≤ (amount - 1) * one :=
    Int.mul_le_mul_of_nonneg_right (by omega) hone.le
  unfold one at *
  omega

end Dec

end Shentu.Lib
