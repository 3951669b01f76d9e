import Mathlib

/-!
Fixed-point decimals with eighteen digits after the point. A decimal is held
as the integer number of its last units. Products and quotients are rounded to
the nearest unit and ties go to the even neighbour; conversion to an integer
truncates towards zero.
-/

namespace Shentu.Lib

open List

namespace Dec

/-- The decimal one, in units of the last digit. -/
def one : Int := 1000000000000000000

def ofInt (i : Int) : Int := i * one

/-- A non-negative number of units over `one`, to the nearest, ties to even. -/
def chopNonneg (d : Int) : Int :=
  if 2 * (d % one) < one then d / one
  else if one < 2 * (d % one) then d / one + 1
  else if (d / one) % 2 = 0 then d / one
  else d / one + 1

def chopRound (d : Int) : Int := if d < 0 then -chopNonneg (-d) else chopNonneg d

def mul (a b : Int) : Int := chopRound (a * b)

/-- The quotient; a caller has to rule out a zero divisor. -/
def quo (a b : Int) : Int := chopRound ((a * one * one).tdiv b)

def mulInt (a : Int) (i : Int) : Int := a * i

def quoInt (a : Int) (i : Int) : Int := a.tdiv i

def truncateInt (a : Int) : Int := a.tdiv one

lemma chopNonneg_spec (d : Int) :
    2 * (chopNonneg d * one) ≤ 2 * d + one ∧ 2 * d ≤ 2 * (chopNonneg d * one) + one ∧
      (2 * (chopNonneg d * one) = 2 * d + one → chopNonneg d % 2 = 0) ∧
      (2 * d = 2 * (chopNonneg d * one) + one → chopNonneg d % 2 = 0) := by
  unfold chopNonneg one
  split_ifs <;> omega

variable {d a b : Int}

lemma chopNonneg_nonneg (h : 0 ≤ d) : 0 ≤ chopNonneg d := by
  unfold chopNonneg one
  split_ifs <;> omega

lemma chopRound_of_nonneg (h : 0 ≤ d) : chopRound d = chopNonneg d := by
  rw [chopRound, if_neg (not_lt.mpr h)]

lemma chopRound_nonneg (h : 0 ≤ d) : 0 ≤ chopRound d := by
  rw [chopRound_of_nonneg h]
  exact chopNonneg_nonneg h

@[simp] lemma chopRound_zero : chopRound 0 = 0 := by decide

lemma mul_nonneg (ha : 0 ≤ a) (hb : 0 ≤ b) : 0 ≤ mul a b :=
  chopRound_nonneg (Int.mul_nonneg ha hb)

@[simp] lemma zero_mul (b : Int) : mul 0 b = 0 := by simp [mul]

lemma quo_nonneg (ha : 0 ≤ a) (hb : 0 ≤ b) : 0 ≤ quo a b := by
  refine chopRound_nonneg (Int.tdiv_nonneg ?_ hb)
  have hone : (0 : Int) ≤ one := by decide
  exact Int.mul_nonneg (Int.mul_nonneg ha hone) hone

@[simp] lemma zero_quo (b : Int) : quo 0 b = 0 := by simp [quo]

lemma ofInt_nonneg {i : Int} (h : 0 ≤ i) : 0 ≤ ofInt i := Int.mul_nonneg h (by decide)

lemma truncateInt_nonneg (h : 0 ≤ a) : 0 ≤ truncateInt a :=
  Int.tdiv_nonneg h (by decide)

lemma chopNonneg_mul_one (m : Int) : chopNonneg (m * one) = m := by
  unfold chopNonneg one
  split_ifs <;> omega

/-- A product with an integer is exact. -/
lemma ofInt_mul_of_nonneg {i r : Int} (hi : 0 ≤ i) (hr : 0 ≤ r) : mul (ofInt i) r = i * r := by
  have hexact : ofInt i * r = i * r * one := by
    unfold ofInt
    ring
  rw [mul, hexact, chopRound_of_nonneg, chopNonneg_mul_one]
  exact Int.mul_nonneg (Int.mul_nonneg hi hr) (by decide)

lemma chopNonneg_add_le {p q : Int} (h : p + q ≤ one * one) :
    chopNonneg p + chopNonneg q ≤ one := by
  have hp := chopNonneg_spec p
  have hq := chopNonneg_spec q
  unfold one at *
  omega

/-- The parts of a whole do not round to more than the whole. -/
lemma quo_add_quo_le_one {c : Int} (ha : 0 ≤ a) (hb : 0 ≤ b) (hc : 0 < c)
    (h : a + b ≤ c) : quo a c + quo b c ≤ one := by
  have hone : (0 : Int) ≤ one := by decide
  have hpart : ∀ {x : Int}, 0 ≤ x → 0 ≤ (x * one * one).tdiv c ∧
      (x * one * one).tdiv c * c ≤ x * one * one := by
    intro x hx
    have hnum : 0 ≤ x * one * one := Int.mul_nonneg (Int.mul_nonneg hx hone) hone
    exact ⟨Int.tdiv_nonneg hnum hc.le, by
      rw [Int.tdiv_eq_ediv_of_nonneg hnum]
      exact Int.ediv_mul_le _ hc.ne'⟩
  obtain ⟨ha0, ha1⟩ := hpart ha
  obtain ⟨hb0, hb1⟩ := hpart hb
  unfold quo
  rw [chopRound_of_nonneg ha0, chopRound_of_nonneg hb0]
  refine chopNonneg_add_le ?_
  refine Int.le_of_mul_le_mul_right ?_ hc
  calc ((a * one * one).tdiv c + (b * one * one).tdiv c) * c
      = (a * one * one).tdiv c * c + (b * one * one).tdiv c * c := by ring
    _ ≤ a * one * one + b * one * one := by omega
    _ = (a + b) * (one * one) := by ring
    _ ≤ c * (one * one) := Int.mul_le_mul_of_nonneg_right h (by decide)
    _ = one * one * c := by ring

lemma truncateInt_mul_one_le (h : 0 ≤ a) : truncateInt a * one ≤ a := by
  unfold truncateInt
  rw [Int.tdiv_eq_ediv_of_nonneg h]
  exact Int.ediv_mul_le _ (by decide)

lemma le_truncateInt_mul_one_add (h : 0 ≤ a) : a ≤ truncateInt a * one + one := by
  unfold truncateInt
  rw [Int.tdiv_eq_ediv_of_nonneg h]
  unfold one
  omega

lemma quo_mul_near (ha : 0 ≤ a) (hb : 0 < b) :
    quo a b * b ≤ a * one + b ∧ a * one ≤ quo a b * b + b := by
  have hone : (0 : Int) < one := by decide
  have hnum : 0 ≤ a * one * one := Int.mul_nonneg (Int.mul_nonneg ha hone.le) hone.le
  have hd0 : 0 ≤ a * one * one / b := Int.ediv_nonneg hnum hb.le
  have hlow : a * one * one / b * b ≤ a * one * one := Int.ediv_mul_le _ hb.ne'
  have hhigh : a * one * one < (a * one * one / b + 1) * b := Int.lt_ediv_add_one_mul_self _ hb
  have hq : quo a b = chopNonneg (a * one * one / b) := by
    rw [quo, Int.tdiv_eq_ediv_of_nonneg hnum, chopRound_of_nonneg hd0]
  obtain ⟨hup, hdown, -, -⟩ := chopNonneg_spec (a * one * one / b)
  rw [← hq] at hup hdown
  constructor
  · have hscaled : quo a b * one ≤ a * one * one / b + one := by omega
    have hmul := Int.mul_le_mul_of_nonneg_right hscaled hb.le
    refine Int.le_of_mul_le_mul_right ?_ hone
    linarith
  · have hunit : one = 1000000000000000000 := rfl
    have hscaled : a * one * one / b + 1 ≤ quo a b * one + one := by omega
    have hmul := Int.mul_le_mul_of_nonneg_right hscaled hb.le
    refine Int.le_of_mul_le_mul_right ?_ hone
    linarith

lemma abs_quo_sub_le (ha : 0 ≤ a) (hb : 0 < b) : |(quo a b : ℚ) - one * (a / b)| ≤ 1 := by
  obtain ⟨hup, hdown⟩ := quo_mul_near ha hb
  have hupℚ : (quo a b : ℚ) * b ≤ a * one + b := by exact_mod_cast hup
  have hdownℚ : (a : ℚ) * one ≤ quo a b * b + b := by exact_mod_cast hdown
  have hbℚ : (0 : ℚ) < b := by exact_mod_cast hb
  have hhigh : one * ((a : ℚ) / b) ≤ quo a b + 1 := by
    rw [← mul_div_assoc, div_le_iff₀ hbℚ]
    linarith
  have hlow : (quo a b : ℚ) - 1 ≤ one * ((a : ℚ) / b) := by
    rw [← mul_div_assoc, le_div_iff₀ hbℚ]
    linarith
  rw [abs_le]
  constructor <;> linarith

end Dec

/-- Shares of an amount in proportion to weights, each rounded down, are not more than the
amount. -/
lemma sum_tdiv_le {a : Int} (ha : 0 ≤ a) {ws : List Int} (hws : ∀ w ∈ ws, 0 ≤ w) {total : Int}
    (htotal : 0 < total) (hsum : ws.sum ≤ total) :
    (ws.map (fun w => (a * w).tdiv total)).sum ≤ a := by
  have hscaled : (ws.map (fun w => (a * w).tdiv total)).sum * total ≤ a * ws.sum := by
    clear hsum
    induction ws with
    | nil => simp
    | cons w ws ih =>
      obtain ⟨hw, hws⟩ := forall_mem_cons.mp hws
      have hshare : (a * w).tdiv total * total ≤ a * w := by
        rw [Int.tdiv_eq_ediv_of_nonneg (mul_nonneg ha hw)]
        exact Int.ediv_mul_le _ htotal.ne'
      have hrest := ih hws
      simp only [map_cons, sum_cons, add_mul, mul_add]
      omega
  have hle : a * ws.sum ≤ a * total := mul_le_mul_of_nonneg_left hsum ha
  exact le_of_mul_le_mul_right (hscaled.trans hle) htotal

/-- The parts of an amount in proportion to weights, each rounded to the nearest decimal, exceed
the amount by at most one unit for each part. -/
lemma sum_mul_quoInt_le {a : Int} (ha : 0 ≤ a) {ws : List Int} (hws : ∀ w ∈ ws, 0 ≤ w)
    {total : Int} (htotal : 0 ≤ total) (hsum : ws.sum ≤ total) :
    (ws.map (fun w => Dec.mul a (Dec.quoInt (Dec.ofInt w) total))).sum ≤ a + ws.length := by
  rcases htotal.eq_or_lt with rfl | htotal
  · have hnone : (ws.map (fun w => Dec.mul a (Dec.quoInt (Dec.ofInt w) 0))).sum = 0 := by
      simp [Dec.quoInt, Dec.mul]
    omega
  have hratios : (ws.map (fun w => Dec.quoInt (Dec.ofInt w) total)).sum ≤ Dec.one := by
    have hone : (0 : Int) ≤ Dec.one := by decide
    have hsplit := sum_tdiv_le hone hws htotal hsum
    simpa only [Dec.quoInt, Dec.ofInt, mul_comm] using hsplit
  have hrounded : 2 * ((ws.map (fun w => Dec.mul a (Dec.quoInt (Dec.ofInt w) total))).sum *
    Dec.one) ≤
      2 * (a * (ws.map (fun w => Dec.quoInt (Dec.ofInt w) total)).sum) + ws.length * Dec.one := by
    clear hsum hratios
    induction ws with
    | nil => simp
    | cons w ws ih =>
      obtain ⟨hw, hws⟩ := forall_mem_cons.mp hws
      have hratio : 0 ≤ Dec.quoInt (Dec.ofInt w) total :=
        Int.tdiv_nonneg (Dec.ofInt_nonneg hw) htotal.le
      have hpart : 2 * (Dec.mul a (Dec.quoInt (Dec.ofInt w) total) * Dec.one) ≤
          2 * (a * Dec.quoInt (Dec.ofInt w) total) + Dec.one := by
        rw [Dec.mul, Dec.chopRound_of_nonneg (mul_nonneg ha hratio)]
        exact (Dec.chopNonneg_spec _).1
      have hrest := ih hws
      simp only [map_cons, sum_cons, length_cons, Nat.cast_add, Nat.cast_one,
        add_mul, mul_add] at hpart hrest ⊢
      omega
  have hlimit : a * (ws.map (fun w => Dec.quoInt (Dec.ofInt w) total)).sum ≤ a * Dec.one :=
    mul_le_mul_of_nonneg_left hratios ha
  unfold Dec.one at hrounded hlimit
  omega

end Shentu.Lib
