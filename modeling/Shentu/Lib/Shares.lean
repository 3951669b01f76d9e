import Shentu.Lib.Dec

/-!
Shares of a pot of tokens, as decimals. An amount of tokens is turned into shares at the rate of
the pot, and shares are turned back into tokens; both ways are rounded. The round trip never
gives more than it was asked for, and there is an exact condition on when it gives as much.
-/

namespace Shentu.Lib.Dec

/-- The shares of an amount, truncated to the last digit. -/
def sharesFor (total tokens amount : Int) : Int := quoInt (mulInt total amount) tokens

/-- The tokens that shares are worth, truncated to whole tokens. -/
def worth (total tokens shares : Int) : Int := truncateInt (quo (mulInt shares tokens) total)

/-- The tokens that leave the pot with some shares: all of them with the last shares. -/
def redeemed (total tokens shares : Int) : Int :=
  if total - shares = 0 then tokens else worth total tokens shares

variable {total tokens amount shares n : Int}

lemma sharesFor_nonneg (htotal : 0 ≤ total) (htokens : 0 ≤ tokens) (hamount : 0 ≤ amount) :
    0 ≤ sharesFor total tokens amount :=
  Int.tdiv_nonneg (Int.mul_nonneg htotal hamount) htokens

lemma sharesFor_eq_ediv (htotal : 0 ≤ total) (hamount : 0 ≤ amount) :
    sharesFor total tokens amount = total * amount / tokens :=
  Int.tdiv_eq_ediv_of_nonneg (Int.mul_nonneg htotal hamount)

lemma sharesFor_le_iff (htotal : 0 ≤ total) (htokens : 0 < tokens) (hamount : 0 ≤ amount) :
    sharesFor total tokens amount ≤ shares ↔ total * amount < (shares + 1) * tokens := by
  rw [sharesFor_eq_ediv htotal hamount, ← Int.lt_add_one_iff, Int.ediv_lt_iff_lt_mul htokens]

lemma worth_nonneg (htotal : 0 ≤ total) (htokens : 0 ≤ tokens) (hshares : 0 ≤ shares) :
    0 ≤ worth total tokens shares :=
  truncateInt_nonneg (quo_nonneg (Int.mul_nonneg hshares htokens) htotal)

lemma le_truncateInt_iff {n a : Int} (ha : 0 ≤ a) : n ≤ truncateInt a ↔ n * one ≤ a := by
  rw [truncateInt, Int.tdiv_eq_ediv_of_nonneg ha, Int.le_ediv_iff_mul_le (by decide)]

lemma ofInt_le_chopNonneg_iff {n d : Int} :
    n * one ≤ chopNonneg d ↔ 2 * (n * one * one) - one ≤ 2 * d := by
  obtain ⟨hup, hdown, -, htie⟩ := chopNonneg_spec d
  unfold one at *
  omega

/-- A number of tokens is reached if the shares fall short of it by at most half of the last
digit. -/
lemma le_worth_iff (htotal : 0 < total) (hproduct : 0 ≤ shares * tokens) :
    n ≤ worth total tokens shares ↔
      (2 * (n * one) - 1) * total ≤ 2 * (shares * tokens * one) := by
  have hone : (0 : Int) < one := by decide
  have hnum : 0 ≤ shares * tokens * one * one :=
    Int.mul_nonneg (Int.mul_nonneg hproduct hone.le) hone.le
  have hdivide := Int.ediv_nonneg hnum htotal.le
  have hquo : quo (mulInt shares tokens) total =
      chopNonneg (shares * tokens * one * one / total) := by
    rw [quo, mulInt, Int.tdiv_eq_ediv_of_nonneg hnum, chopRound_of_nonneg hdivide]
  -- The bound is a whole number of units, so the division loses nothing of it.
  have hhalf : 2 * (n * one * one) - one = 2 * (n * one * one - 500000000000000000) := by
    unfold one
    ring
  have hunits : (n * one * one - 500000000000000000) * 2 = (2 * (n * one) - 1) * one := by
    unfold one
    ring
  rw [worth, hquo, le_truncateInt_iff (chopNonneg_nonneg hdivide), ofInt_le_chopNonneg_iff, hhalf,
    mul_le_mul_iff_right₀ (by decide), Int.le_ediv_iff_mul_le htotal]
  constructor
  · intro h
    apply le_of_mul_le_mul_right _ hone
    linear_combination 2 * h - total * hunits
  · intro h
    have hscaled := Int.mul_le_mul_of_nonneg_right h hone.le
    apply le_of_mul_le_mul_left _ (show (0 : Int) < 2 by decide)
    linear_combination hscaled + total * hunits

lemma redeemed_bounds (htotal : 0 < total) (htokens : 0 ≤ tokens) (hshares : 0 ≤ shares)
    (hle : shares ≤ total) :
    0 ≤ redeemed total tokens shares ∧ redeemed total tokens shares ≤ tokens := by
  unfold redeemed
  split
  · exact ⟨htokens, le_rfl⟩
  · apply And.intro (worth_nonneg htotal.le htokens hshares)
    by_contra hmore
    have hreach := (le_worth_iff htotal (Int.mul_nonneg hshares htokens)).mp
      (Int.add_one_le_of_lt (not_le.mp hmore))
    have hpot := Int.mul_le_mul_of_nonneg_right hle htokens
    unfold one at hreach
    linarith

lemma sharesFor_mul_add_mod (tokens : Int) (htotal : 0 ≤ total) (hamount : 0 ≤ amount) :
    sharesFor total tokens amount * tokens + total * amount % tokens = total * amount := by
  rw [sharesFor_eq_ediv htotal hamount]
  exact Int.ediv_mul_add_emod _ _

private lemma amount_of_all_shares (htotal : 0 < total) (htokens : 0 < tokens)
    (hamount : 0 ≤ amount) (hall : total - sharesFor total tokens amount = 0) :
    tokens ≤ amount ∧ total * amount % tokens = total * (amount - tokens) := by
  have hsplit := sharesFor_mul_add_mod tokens htotal.le hamount
  have hrest := Int.emod_nonneg (total * amount) htokens.ne'
  rw [← sub_eq_zero.mp hall] at hsplit
  have heq : total * amount % tokens = total * (amount - tokens) := by
    rw [Int.mul_sub]
    omega
  refine ⟨?_, heq⟩
  rw [heq] at hrest
  have hpos := nonneg_of_mul_nonneg_right hrest htotal
  omega

lemma redeemed_sharesFor_le (htotal : 0 < total) (htokens : 0 < tokens) (hamount : 0 ≤ amount) :
    redeemed total tokens (sharesFor total tokens amount) ≤ amount := by
  unfold redeemed
  split
  · rename_i hall
    exact (amount_of_all_shares htotal htokens hamount hall).1
  · by_contra hmore
    have hnonneg := sharesFor_nonneg htotal.le htokens.le hamount
    have hreach := (le_worth_iff htotal (Int.mul_nonneg hnonneg htokens.le)).mp
      (Int.add_one_le_of_lt (not_le.mp hmore))
    have hsplit := sharesFor_mul_add_mod tokens htotal.le hamount
    have hrest := Int.emod_nonneg (total * amount) htokens.ne'
    unfold one at hreach
    nlinarith

/-- The amount comes back exactly if what the truncation leaves over is at most half of the last
digit. -/
lemma redeemed_sharesFor_eq_iff (htotal : 0 < total) (htokens : 0 < tokens)
    (hamount : 0 ≤ amount) :
    redeemed total tokens (sharesFor total tokens amount) = amount ↔
      2 * one * (total * amount % tokens) ≤ total := by
  have hle := redeemed_sharesFor_le htotal htokens hamount
  rw [← hle.ge_iff_eq]
  unfold redeemed
  split
  · rename_i hall
    obtain ⟨hpot, hrest⟩ := amount_of_all_shares htotal htokens hamount hall
    rw [hrest]
    constructor
    · intro h
      have hsame : amount - tokens = 0 := by omega
      rw [hsame, mul_zero, mul_zero]
      exact htotal.le
    · intro h
      by_contra hmore
      have hone : 1 ≤ amount - tokens := by omega
      have hlarge := Int.mul_le_mul_of_nonneg_left hone htotal.le
      unfold one at h
      omega
  · have hnonneg := sharesFor_nonneg htotal.le htokens.le hamount
    have hsplit := sharesFor_mul_add_mod tokens htotal.le hamount
    rw [le_worth_iff htotal (Int.mul_nonneg hnonneg htokens.le)]
    have hscaled : sharesFor total tokens amount * tokens * one =
        total * amount * one - total * amount % tokens * one := by
      rw [← Int.sub_mul]
      congr 1
      omega
    rw [hscaled]
    constructor
    · intro h
      linear_combination h
    · intro h
      linear_combination h

end Shentu.Lib.Dec
