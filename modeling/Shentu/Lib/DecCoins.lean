import Shentu.Lib.Coins
import Shentu.Lib.Table
import Shentu.Lib.Dec

/-!
Decimal coin sets. A decimal coin set is sorted by denomination and holds no zero amount,
so that it is determined by its amounts.
-/

namespace Shentu.Lib

open List Table

structure DecCoins where
  coins : Table Coin.denom
  nonzero : ∀ c ∈ coins.rows, c.amount ≠ 0

namespace DecCoins

def empty : DecCoins := ⟨Table.empty, by simp⟩

def amountOf (a : DecCoins) (d : Denom) : Int := a.coins.valueAt Coin.amount d

def isEmpty (a : DecCoins) : Bool := a.coins.rows.isEmpty

/-- Some coin is there and every coin is positive. -/
def isAllPositive (a : DecCoins) : Bool :=
  !a.coins.rows.isEmpty && a.coins.rows.all (fun c => 0 < c.amount)

def isAnyNegative (a : DecCoins) : Bool := a.coins.rows.any (fun c => c.amount < 0)

def addCoin (a : DecCoins) (c : Coin) : DecCoins :=
  if h : a.amountOf c.denom + c.amount = 0 then
    ⟨a.coins.delete c.denom, fun r hr => a.nonzero r (mem_delete.mp hr).1⟩
  else
    ⟨a.coins.set ⟨c.denom, a.amountOf c.denom + c.amount⟩, by
      intro r hr
      rcases mem_set.mp hr with rfl | ⟨hr, -⟩
      · exact h
      · exact a.nonzero r hr⟩

def add (a b : DecCoins) : DecCoins := b.coins.rows.foldl addCoin a

/-- Apply a function to each amount and drop the coins it sends to zero. -/
def mapAmounts (f : Int → Int) (a : DecCoins) : DecCoins where
  coins :=
    { rows := (a.coins.rows.map (fun c => (⟨c.denom, f c.amount⟩ : Coin))).filter
        (fun c => c.amount ≠ 0)
      sorted := by
        refine List.Pairwise.filter _ (pairwise_map.mpr ?_)
        exact a.coins.sorted }
  nonzero := by
    intro c hc
    simpa using (mem_filter.mp hc).2

def mulDec (a : DecCoins) (d : Int) : DecCoins := a.mapAmounts (fun x => Dec.mul x d)

/-- The quotient by a decimal; a caller has to rule out a zero divisor. -/
def quoDec (a : DecCoins) (d : Int) : DecCoins := a.mapAmounts (fun x => Dec.quo x d)

/-- The difference, none when some amount would be negative. -/
def sub (a b : DecCoins) : Option DecCoins :=
  let diff := a.add (b.mapAmounts (fun x => -x))
  if diff.isAnyNegative then none else some diff

/-- The whole part as a coin list and the rest as decimal coins. -/
def truncateDecimal (a : DecCoins) : Coins × DecCoins :=
  ((a.coins.rows.map (fun c => (⟨c.denom, Dec.truncateInt c.amount⟩ : Coin))).filter
      (fun c => c.amount ≠ 0),
    a.mapAmounts (fun x => x - Dec.ofInt (Dec.truncateInt x)))

/-- The decimal coins of a list of distinct positive coins, none for another list. -/
def ofCoins (cs : Coins) : Option DecCoins :=
  if (∀ c ∈ cs, 0 < c.amount) ∧ (cs.map Coin.denom).Nodup then
    some (cs.foldl (fun a c => a.addCoin ⟨c.denom, Dec.ofInt c.amount⟩) empty)
  else none

lemma amountOf_addCoin (a : DecCoins) (c : Coin) (d : Denom) :
    (a.addCoin c).amountOf d = a.amountOf d + if d = c.denom then c.amount else 0 := by
  unfold addCoin
  split
  · rename_i h
    change (a.coins.delete c.denom).valueAt Coin.amount d = _
    rw [valueAt_delete]
    split
    · rename_i hd
      rw [hd, h]
    · rw [add_zero]
      rfl
  · change (a.coins.set _).valueAt Coin.amount d = _
    rw [valueAt_set]
    split
    · rename_i hd
      rw [hd]
    · rw [add_zero]
      rfl

private lemma amountOf_foldl (cs : List Coin) (g : Coin → Coin) (a : DecCoins) (d : Denom) :
    (cs.foldl (fun a c => a.addCoin (g c)) a).amountOf d =
      a.amountOf d + (cs.map (fun c => if d = (g c).denom then (g c).amount else 0)).sum := by
  induction cs generalizing a with
  | nil => simp
  | cons c rest ih =>
    rw [foldl_cons, ih, amountOf_addCoin, map_cons, sum_cons]
    omega

private lemma sum_of_denom (d : Denom) (f : Int → Int) (cs : List Coin)
    (h : (cs.map Coin.denom).Nodup) :
    (cs.map (fun c => if d = c.denom then f c.amount else 0)).sum =
      match cs.find? (fun c => c.denom = d) with
      | some c => f c.amount
      | none => 0 := by
  induction cs with
  | nil => rfl
  | cons c rest ih =>
    obtain ⟨hc, hrest⟩ := nodup_cons.mp h
    rw [map_cons, sum_cons, ih hrest]
    by_cases hd : c.denom = d
    · have hnone : rest.find? (fun c => c.denom = d) = none := by
        refine find?_eq_none.mpr ?_
        intro e he heq
        exact hc (mem_map.mpr ⟨e, he, by simpa [hd] using heq⟩)
      simp [hd, hnone]
    · simp [hd, Ne.symm hd]

private lemma rows_denom_nodup (a : DecCoins) : (a.coins.rows.map Coin.denom).Nodup :=
  pairwise_map.mpr (a.coins.sorted.imp (fun h => h.ne))

private lemma sum_rows_denom (a : DecCoins) (d : Denom) (f : Int → Int) (hf : f 0 = 0) :
    (a.coins.rows.map (fun c => if d = c.denom then f c.amount else 0)).sum =
      f (a.amountOf d) := by
  rw [sum_of_denom d f _ a.rows_denom_nodup]
  unfold amountOf Table.valueAt Table.get
  cases a.coins.rows.find? (fun c => c.denom = d) with
  | none => exact hf.symm
  | some c => rfl

lemma amountOf_add (a b : DecCoins) (d : Denom) :
    (a.add b).amountOf d = a.amountOf d + b.amountOf d := by
  unfold add
  have hsum := amountOf_foldl b.coins.rows id a d
  rw [show (fun a c => addCoin a (id c)) = addCoin from rfl] at hsum
  rw [hsum]
  exact congrArg _ (b.sum_rows_denom d id rfl)

lemma amountOf_mapAmounts (f : Int → Int) (hf : f 0 = 0) (a : DecCoins) (d : Denom) :
    (a.mapAmounts f).amountOf d = f (a.amountOf d) := by
  have hmap := sum_rows_denom (a.mapAmounts f) d id rfl
  rw [id_eq] at hmap
  rw [← sum_rows_denom a d f hf, ← hmap]
  dsimp only [mapAmounts]
  induction a.coins.rows with
  | nil => rfl
  | cons c rest ih =>
    rw [map_cons, filter_cons]
    split
    · rw [map_cons, sum_cons, map_cons, sum_cons, ih]
      rfl
    · rename_i hz
      rw [ih, map_cons, sum_cons]
      have hz' : f c.amount = 0 := by simpa using hz
      simp [hz']

lemma amountOf_mulDec (a : DecCoins) (x : Int) (d : Denom) :
    (a.mulDec x).amountOf d = Dec.mul (a.amountOf d) x :=
  amountOf_mapAmounts _ (Dec.zero_mul x) a d

lemma amountOf_quoDec (a : DecCoins) (x : Int) (d : Denom) :
    (a.quoDec x).amountOf d = Dec.quo (a.amountOf d) x :=
  amountOf_mapAmounts _ (Dec.zero_quo x) a d

variable {a b : DecCoins}

lemma amountOf_of_mem {c : Coin} (h : c ∈ a.coins.rows) : a.amountOf c.denom = c.amount :=
  valueAt_of_get (get_of_mem h) _

lemma exists_mem_of_amountOf_ne {d : Denom} (h : a.amountOf d ≠ 0) :
    ∃ c ∈ a.coins.rows, c.denom = d := by
  cases hg : a.coins.get d with
  | none => exact absurd (valueAt_of_get_none hg _) h
  | some c => exact ⟨c, mem_of_get hg, key_of_get hg⟩

private lemma amountOf_diff (a b : DecCoins) (d : Denom) :
    (a.add (b.mapAmounts (fun x => -x))).amountOf d = a.amountOf d - b.amountOf d := by
  rw [amountOf_add, amountOf_mapAmounts _ (by rfl)]
  omega

lemma amountOf_sub {r : DecCoins} (h : a.sub b = some r) (d : Denom) :
    r.amountOf d = a.amountOf d - b.amountOf d := by
  simp only [sub] at h
  split at h
  · cases h
  · cases h
    exact amountOf_diff a b d

lemma sub_eq_none_iff (a b : DecCoins) : a.sub b = none ↔ ∃ d, a.amountOf d < b.amountOf d := by
  unfold sub
  simp only [ite_eq_left_iff, reduceCtorEq, imp_false, not_not, isAnyNegative, any_eq_true,
    decide_eq_true_eq]
  constructor
  · rintro ⟨c, hc, hneg⟩
    refine ⟨c.denom, ?_⟩
    have hdiff := amountOf_diff a b c.denom
    rw [amountOf_of_mem hc] at hdiff
    omega
  · rintro ⟨d, hd⟩
    have hdiff := amountOf_diff a b d
    obtain ⟨c, hc, rfl⟩ := exists_mem_of_amountOf_ne
      (a := a.add (b.mapAmounts (fun x => -x))) (d := d) (by omega)
    rw [amountOf_of_mem hc] at hdiff
    exact ⟨c, hc, by omega⟩

lemma amountOf_sub_nonneg {r : DecCoins} (h : a.sub b = some r) (d : Denom) :
    0 ≤ r.amountOf d := by
  by_contra hneg
  have hdiff := amountOf_sub h d
  have hnone := (sub_eq_none_iff a b).mpr ⟨d, by omega⟩
  rw [h] at hnone
  cases hnone

lemma isAllPositive_iff (a : DecCoins) :
    a.isAllPositive = true ↔ a.isEmpty = false ∧ ∀ c ∈ a.coins.rows, 0 < c.amount := by
  simp [isAllPositive, isEmpty]

lemma amountOf_nonneg_of_isAllPositive (h : a.isAllPositive = true) (d : Denom) :
    0 ≤ a.amountOf d := by
  by_cases hz : a.amountOf d = 0
  · exact hz.ge
  · obtain ⟨c, hc, rfl⟩ := exists_mem_of_amountOf_ne hz
    rw [amountOf_of_mem hc]
    exact ((a.isAllPositive_iff.mp h).2 c hc).le

lemma ofCoins_nil : ofCoins [] = some empty := by simp [ofCoins]

end DecCoins

end Shentu.Lib
