import Shentu.Shield.Claim
import Shentu.Shield.Ledger
import Shentu.Lib.Split

/-!
The amounts that are secured for a claim. Every provider is asked for its proportional part of all
open claims, truncated and raised by one unit where there is room. Up to a total collateral of
`10 ^ 18` these amounts add up to what has to be secured, and nobody is asked for more than its
collateral.
-/

namespace Shentu

open Lib List Dec

variable {σ : Type}

/-- The amounts that the loop of `secureCollaterals` asks for. -/
def secureAmounts (claimedRatio : Int) : List Int → Int → List Int
  | [], _ => []
  | collateral :: collaterals, remaining =>
    let secureAmt := secureShare claimedRatio collateral remaining
    secureAmt :: secureAmounts claimedRatio collaterals (remaining - secureAmt)

lemma secureLoop_eq_foldlM (k : Keepers σ) (ctx : Ctx) (claimedRatio : Int) (duration : Duration)
    (providers : List Provider) (remaining : Int) (b : CollateralBook) (world : σ) :
    secureLoop k ctx claimedRatio duration providers remaining b world =
      (providers.zip (secureAmounts claimedRatio (providers.map Provider.collateral)
        remaining)).foldlM
        (fun bw pa => secureFromProvider k ctx bw.1 bw.2 pa.1 pa.2 duration) (b, world) := by
  induction providers generalizing remaining b world with
  | nil => rfl
  | cons provider providers ih =>
    rw [map_cons, secureAmounts, zip_cons_cons, foldlM_cons, secureLoop]
    refine bind_congr ?_
    rintro ⟨b1, world1⟩
    exact ih _ b1 world1

section Amounts

variable {claimedRatio : Int} (hratio : 0 ≤ claimedRatio) (hone : claimedRatio ≤ Dec.one)

include hratio hone

lemma secureShare_eq_min {collateral : Int} (hcollateral : 0 ≤ collateral) (remaining : Int) :
    secureShare claimedRatio collateral remaining =
      min remaining (Dec.raisedPart claimedRatio collateral) := by
  unfold secureShare
  rw [ofInt_mul_of_nonneg hcollateral hratio, Int.mul_comm]
  exact raise_eq_min hratio hone hcollateral

lemma secureAmounts_eq_takeParts {collaterals : List Int} (hcollaterals : ∀ c ∈ collaterals, 0 ≤ c)
    (remaining : Int) :
    secureAmounts claimedRatio collaterals remaining =
      takeParts (collaterals.map (Dec.raisedPart claimedRatio)) remaining := by
  induction collaterals generalizing remaining with
  | nil => rfl
  | cons c collaterals ih =>
    obtain ⟨hc, hcollaterals⟩ := forall_mem_cons.mp hcollaterals
    rw [secureAmounts, map_cons, takeParts, secureShare_eq_min hratio hone hc, ih hcollaterals]

lemma secureAmounts_bounds {collaterals : List Int} (hcollaterals : ∀ c ∈ collaterals, 0 ≤ c)
    {remaining : Int} (hremaining : 0 ≤ remaining) :
    ∀ x ∈ collaterals.zip (secureAmounts claimedRatio collaterals remaining),
      0 ≤ x.2 ∧ x.2 ≤ x.1 := by
  induction collaterals generalizing remaining with
  | nil => simp
  | cons c collaterals ih =>
    obtain ⟨hc, hcollaterals⟩ := forall_mem_cons.mp hcollaterals
    have hbounds := raisedPart_bounds hratio hc
    rw [secureAmounts, zip_cons_cons, secureShare_eq_min hratio hone hc]
    refine forall_mem_cons.mpr ⟨?_, ?_⟩
    · omega
    · apply ih hcollaterals
      omega

end Amounts

/-- Each provider is asked for an amount between zero and its collateral, and the amounts add up
to what has to be secured. -/
theorem secureSplit_exact (k : Keepers σ) (ctx : Ctx) (duration : Duration) (b : CollateralBook)
    (world : σ) {providers : List Provider} (hcollaterals : ∀ p ∈ providers, 0 ≤ p.collateral)
    {totalCollateral : Int} (htotal : (providers.map Provider.collateral).sum = totalCollateral)
    (hpos : 0 < totalCollateral) (hmax : totalCollateral ≤ 10 ^ 18) {totalSecureAmt : Int}
    (hnonneg : 0 ≤ totalSecureAmt) (hle : totalSecureAmt ≤ totalCollateral) :
    ∃ claimedRatio amounts,
      decQuo (Dec.ofInt totalSecureAmt) (Dec.ofInt totalCollateral) = .ok claimedRatio ∧
      amounts = secureAmounts claimedRatio (providers.map Provider.collateral) totalSecureAmt ∧
      secureLoop k ctx claimedRatio duration providers totalSecureAmt b world =
        (providers.zip amounts).foldlM
          (fun bw pa => secureFromProvider k ctx bw.1 bw.2 pa.1 pa.2 duration) (b, world) ∧
      amounts.length = providers.length ∧
      (∀ x ∈ providers.zip amounts, 0 ≤ x.2 ∧ x.2 ≤ x.1.collateral) ∧
      amounts.sum = totalSecureAmt := by
  subst htotal
  have hall : ∀ c ∈ providers.map Provider.collateral, 0 ≤ c := by
    intro c hc
    obtain ⟨p, hp, rfl⟩ := mem_map.mp hc
    exact hcollaterals p hp
  have hunit : (10 : Int) ^ 18 = Dec.one := by decide
  rw [hunit] at hmax
  generalize hratio : Dec.quo (Dec.ofInt totalSecureAmt)
    (Dec.ofInt (providers.map Provider.collateral).sum) = ratio
  have hratio₀ : 0 ≤ ratio := by
    rw [← hratio]
    exact quo_nonneg (ofInt_nonneg hnonneg) (ofInt_nonneg hpos.le)
  have hratio₁ : ratio ≤ Dec.one := by
    rw [← hratio]
    exact quo_ofInt_le_one hnonneg hpos hle
  have hparts : ∀ x ∈ (providers.map Provider.collateral).map (Dec.raisedPart ratio), 0 ≤ x := by
    intro x hx
    obtain ⟨c, hc, rfl⟩ := mem_map.mp hx
    exact (raisedPart_bounds hratio₀ (hall c hc)).1
  have hsplit := secureAmounts_eq_takeParts hratio₀ hratio₁ hall totalSecureAmt
  refine ⟨ratio, secureAmounts ratio (providers.map Provider.collateral) totalSecureAmt, ?_, rfl,
    secureLoop_eq_foldlM k ctx ratio duration providers totalSecureAmt b world, ?_, ?_, ?_⟩
  · have hne : Dec.ofInt (providers.map Provider.collateral).sum ≠ 0 :=
      (Int.mul_pos hpos (by decide)).ne'
    rw [decQuo, if_neg hne, hratio]
  · rw [hsplit, length_takeParts, length_map, length_map]
  · intro x hx
    have hbounds := secureAmounts_bounds hratio₀ hratio₁ hall hnonneg
    rw [zip_map_left] at hbounds
    exact hbounds (x.1.collateral, x.2) (mem_map.mpr ⟨x, hx, rfl⟩)
  · rw [hsplit, takeParts_sum hparts hnonneg]
    apply min_eq_left
    rw [← hratio]
    exact le_sum_raisedParts hall hpos hmax hnonneg hle

def fourAndSix : List Provider :=
  [{ Provider.new 1 with collateral := 4 }, Provider.new 2, { Provider.new 3 with collateral := 6 }]

/-- Three providers secure seven units of their ten. -/
theorem secureSplit_exact_seven :
    ∃ claimedRatio amounts,
      decQuo (Dec.ofInt 7) (Dec.ofInt 10) = .ok claimedRatio ∧
      amounts = secureAmounts claimedRatio (fourAndSix.map Provider.collateral) 7 ∧
      secureLoop ledgerKeepers ⟨0, 200⟩ claimedRatio 20 fourAndSix 7 CollateralBook.empty
          Ledger.funded =
        (fourAndSix.zip amounts).foldlM
          (fun bw pa => secureFromProvider ledgerKeepers ⟨0, 200⟩ bw.1 bw.2 pa.1 pa.2 20)
          (CollateralBook.empty, Ledger.funded) ∧
      amounts.length = fourAndSix.length ∧
      (∀ x ∈ fourAndSix.zip amounts, 0 ≤ x.2 ∧ x.2 ≤ x.1.collateral) ∧
      amounts.sum = 7 :=
  secureSplit_exact ledgerKeepers ⟨0, 200⟩ 20 CollateralBook.empty Ledger.funded
    (by decide) (by decide) (by decide) (by decide) (by decide) (by decide)

end Shentu
