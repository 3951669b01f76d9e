import Mathlib

/-!
Coin lists. A coin list is what a message carries: it can hold any coins in any order,
and the amount of a denomination is found by binary search as if the list were sorted.
Sums and differences merge two lists as if both were sorted.
-/

namespace Shentu.Lib

open List Option Nat

abbrev Denom := String

structure Coin where
  denom : Denom
  amount : Int
  deriving DecidableEq

abbrev Coins := List Coin

namespace Coins

/-- The binary search of `amountOf`, on at most `n` halvings of the list. -/
def search (d : Denom) : Nat → Coins → Int
  | 0, _ => 0
  | n + 1, cs =>
    match cs.drop (cs.length / 2) with
    | [] => 0
    | c :: upper =>
      if d < c.denom then search d n (cs.take (cs.length / 2))
      else if d = c.denom then c.amount
      else search d n upper

def amountOf (cs : Coins) (d : Denom) : Int := search d cs.length cs

def isSorted (cs : Coins) : Prop := cs.Pairwise (fun a b => a.denom < b.denom)

/-- Strictly sorted and with positive amounts only. -/
def isValid (cs : Coins) : Prop := isSorted cs ∧ ∀ c ∈ cs, 0 < c.amount

instance (cs : Coins) : Decidable (isValid cs) := by
  unfold isValid isSorted
  infer_instance

def isZero (cs : Coins) : Bool := cs.all (fun c => c.amount = 0)

def isAnyGT (as bs : Coins) : Bool :=
  match bs with
  | [] => false
  | _ => as.any (fun c => amountOf bs c.denom < c.amount && amountOf bs c.denom ≠ 0)

def isAllGTE (as bs : Coins) : Bool :=
  match bs, as with
  | [], _ => true
  | _, [] => false
  | _, _ => bs.all (fun c => c.amount ≤ amountOf as c.denom)

def denomsSubsetOf (as bs : Coins) : Bool :=
  as.length ≤ bs.length && as.all (fun c => amountOf bs c.denom ≠ 0)

def isAllGT (as bs : Coins) : Bool :=
  match as, bs with
  | [], _ => false
  | _, [] => true
  | as, bs => denomsSubsetOf bs as && bs.all (fun c => c.amount < amountOf as c.denom)

/-- The coin set of a single amount: empty when the amount is zero. -/
def ofAmount (d : Denom) (a : Int) : Coins := if a = 0 then [] else [⟨d, a⟩]

/-- The merge of two coin lists, on at most `n` coins; a zero amount is dropped. -/
def merge : Nat → Coins → Coins → Coins
  | 0, _, _ => []
  | _ + 1, [], bs => bs.filter (fun c => c.amount ≠ 0)
  | _ + 1, as, [] => as.filter (fun c => c.amount ≠ 0)
  | n + 1, a :: as, b :: bs =>
    if a.denom < b.denom then [a].filter (fun c => c.amount ≠ 0) ++ merge n as (b :: bs)
    else if b.denom < a.denom then [b].filter (fun c => c.amount ≠ 0) ++ merge n (a :: as) bs
    else [⟨a.denom, a.amount + b.amount⟩].filter (fun c => c.amount ≠ 0) ++ merge n as bs

def add (as bs : Coins) : Coins := merge (as.length + bs.length + 1) as bs

def negative (cs : Coins) : Coins := cs.map (fun c => ⟨c.denom, -c.amount⟩)

def isAnyNegative (cs : Coins) : Bool := cs.any (fun c => c.amount < 0)

/-- The difference, if no amount of it is negative. -/
def sub (as bs : Coins) : Option Coins :=
  let diff := add as (negative bs)
  if isAnyNegative diff = true then none else some diff

/-- The amount of all coins of a denomination, in a list that need not be sorted. -/
def sumOf (cs : Coins) (d : Denom) : Int :=
  (cs.map (fun c => if c.denom = d then c.amount else 0)).sum

/-- The amount of a denomination by a scan of the list. -/
def lookup (d : Denom) (cs : Coins) : Int :=
  match cs.find? (fun c => c.denom = d) with
  | some c => c.amount
  | none => 0

variable {d : Denom} {cs as bs r : Coins} {c : Coin}

lemma lookup_append_of_lt {lower upper : Coins} (h : ∀ c ∈ upper, d < c.denom) :
    lookup d (lower ++ upper) = lookup d lower := by
  have hnone : upper.find? (fun c => c.denom = d) = none := by
    refine find?_eq_none.mpr ?_
    intro c hc
    simpa using (h c hc).ne'
  unfold lookup
  rw [find?_append, hnone, or_none]

lemma lookup_append_of_gt {lower upper : Coins} (h : ∀ c ∈ lower, c.denom < d) :
    lookup d (lower ++ upper) = lookup d upper := by
  have hnone : lower.find? (fun c => c.denom = d) = none := by
    refine find?_eq_none.mpr ?_
    intro c hc
    simpa using (h c hc).ne
  unfold lookup
  rw [find?_append, hnone, none_or]

private lemma search_eq_lookup (d : Denom) (n : Nat) (cs : Coins) (hn : cs.length ≤ n)
    (hs : isSorted cs) : search d n cs = lookup d cs := by
  induction n generalizing cs with
  | zero =>
    rw [length_eq_zero_iff.mp (le_zero.mp hn)]
    rfl
  | succ n ih =>
    have hsplit : cs.take (cs.length / 2) ++ cs.drop (cs.length / 2) = cs :=
      take_append_drop _ cs
    cases hdrop : cs.drop (cs.length / 2) with
    | nil =>
      have hlen : cs.length - cs.length / 2 = 0 := by
        rw [← length_drop, hdrop, length_nil]
      have hnil : cs = [] := length_eq_zero_iff.mp (by omega)
      rw [hnil]
      rfl
    | cons c upper =>
      rw [hdrop] at hsplit
      have hlen : cs.length = (cs.take (cs.length / 2)).length + (upper.length + 1) := by
        conv_lhs => rw [← hsplit]
        rw [length_append, length_cons]
      have htake : (cs.take (cs.length / 2)).length = cs.length / 2 :=
        length_take_of_le (div_le_self _ _)
      obtain ⟨hlower, hrest, hcross⟩ := pairwise_append.mp (hsplit ▸ hs)
      obtain ⟨hc, hupper⟩ := pairwise_cons.mp hrest
      simp only [search, hdrop]
      conv_rhs => rw [← hsplit]
      split
      · rename_i hlt
        rw [ih _ (by omega) hlower, lookup_append_of_lt]
        intro e he
        rcases mem_cons.mp he with rfl | he
        · exact hlt
        · exact hlt.trans (hc e he)
      · rename_i hnlt
        have hbelow : ∀ e ∈ cs.take (cs.length / 2), e.denom < d := by
          intro e he
          exact (hcross e he c mem_cons_self).trans_le (not_lt.mp hnlt)
        rw [lookup_append_of_gt hbelow]
        split
        · rename_i heq
          simp [lookup, heq]
        · rename_i hne
          rw [ih _ (by omega) hupper]
          simp [lookup, Ne.symm hne]

lemma amountOf_eq_lookup (hs : isSorted cs) (d : Denom) : amountOf cs d = lookup d cs :=
  search_eq_lookup d cs.length cs le_rfl hs

lemma lookup_cons (d : Denom) (c : Coin) (cs : Coins) :
    lookup d (c :: cs) = if c.denom = d then c.amount else lookup d cs := by
  unfold lookup
  rw [find?_cons]
  by_cases h : c.denom = d <;> simp [h]

lemma lookup_eq_zero (h : ∀ c ∈ cs, c.denom ≠ d) : lookup d cs = 0 := by
  unfold lookup
  rw [find?_eq_none.mpr (fun c hc => by simpa using h c hc)]

lemma isSorted_cons :
    isSorted (c :: cs) ↔ (∀ c' ∈ cs, c.denom < c'.denom) ∧ isSorted cs := pairwise_cons

lemma lookup_of_mem (hs : isSorted cs) (hc : c ∈ cs) : lookup c.denom cs = c.amount := by
  induction cs with
  | nil => cases hc
  | cons a as ih =>
    obtain ⟨hlt, has⟩ := isSorted_cons.mp hs
    rw [lookup_cons]
    rcases mem_cons.mp hc with rfl | hc
    · rw [if_pos rfl]
    · rw [if_neg (hlt c hc).ne, ih has hc]

lemma sumOf_cons (d : Denom) (c : Coin) (cs : Coins) :
    sumOf (c :: cs) d = (if c.denom = d then c.amount else 0) + sumOf cs d := rfl

lemma sumOf_append (as bs : Coins) (d : Denom) : sumOf (as ++ bs) d = sumOf as d + sumOf bs d := by
  simp [sumOf]

/-- Each denomination occurs once in a sorted list. -/
lemma amountOf_eq_sumOf (hs : isSorted cs) (d : Denom) : amountOf cs d = sumOf cs d := by
  rw [amountOf_eq_lookup hs]
  induction cs with
  | nil => rfl
  | cons c cs ih =>
    obtain ⟨hlt, hcs⟩ := isSorted_cons.mp hs
    rw [lookup_cons, sumOf_cons, ← ih hcs]
    split
    · rename_i hd
      rw [lookup_eq_zero (fun c' hc' => hd ▸ (hlt c' hc').ne'), add_zero]
    · rw [zero_add]

abbrev nonzero (cs : Coins) : Coins := cs.filter (fun c => c.amount ≠ 0)

/-- How the sum of two lists is built from their heads. -/
inductive Merges : Coins → Coins → Coins → Prop
  | nil_left (bs : Coins) : Merges [] bs (nonzero bs)
  | nil_right (as : Coins) : Merges as [] (nonzero as)
  | left {a b : Coin} {as bs m : Coins} : a.denom < b.denom → Merges as (b :: bs) m →
      Merges (a :: as) (b :: bs) (nonzero [a] ++ m)
  | right {a b : Coin} {as bs m : Coins} : b.denom < a.denom → Merges (a :: as) bs m →
      Merges (a :: as) (b :: bs) (nonzero [b] ++ m)
  | both {a b : Coin} {as bs m : Coins} : a.denom = b.denom → Merges as bs m →
      Merges (a :: as) (b :: bs) (nonzero [⟨a.denom, a.amount + b.amount⟩] ++ m)

private lemma merges_merge (n : Nat) (hn : as.length + bs.length < n) :
    Merges as bs (merge n as bs) := by
  induction n generalizing as bs with
  | zero => exact absurd hn (not_lt_zero _)
  | succ n ih =>
    match as, bs with
    | [], bs =>
      rw [merge]
      exact .nil_left bs
    | a :: as, [] =>
      rw [merge]
      · exact .nil_right _
      · simp
    | a :: as, b :: bs =>
      simp only [length_cons] at hn
      rw [merge]
      split
      · rename_i hab
        exact .left hab (ih (by simp only [length_cons]; omega))
      · rename_i hab
        split
        · rename_i hba
          exact .right hba (ih (by simp only [length_cons]; omega))
        · rename_i hba
          exact .both (le_antisymm (not_lt.mp hba) (not_lt.mp hab)) (ih (by omega))

lemma merges_add (as bs : Coins) : Merges as bs (add as bs) :=
  merges_merge _ (lt_succ_self _)

private lemma sumOf_nonzero (cs : Coins) (d : Denom) : sumOf (nonzero cs) d = sumOf cs d := by
  induction cs with
  | nil => rfl
  | cons c cs ih =>
    rw [nonzero, filter_cons]
    split
    · rw [sumOf_cons, sumOf_cons, ih]
    · rename_i hzero
      have hc : c.amount = 0 := by simpa using hzero
      rw [sumOf_cons, hc, ite_self, zero_add, ih]

namespace Merges

variable {m : Coins}

lemma sumOf_eq (h : Merges as bs m) (d : Denom) : m.sumOf d = as.sumOf d + bs.sumOf d := by
  have hsingle : ∀ c : Coin, sumOf [c] d = if c.denom = d then c.amount else 0 :=
    fun _ => add_zero _
  induction h with
  | nil_left bs => exact (sumOf_nonzero bs d).trans (zero_add _).symm
  | nil_right as => exact (sumOf_nonzero as d).trans (add_zero _).symm
  | @left a b as bs m _ _ ih =>
    rw [sumOf_append, sumOf_nonzero, ih, hsingle, sumOf_cons d a, add_assoc]
  | @right a b as bs m _ _ ih =>
    rw [sumOf_append, sumOf_nonzero, ih, hsingle, sumOf_cons d b, add_left_comm]
  | @both a b as bs m hab _ ih =>
    rw [sumOf_append, sumOf_nonzero, ih, hsingle, sumOf_cons d a, sumOf_cons d b, ← hab]
    dsimp only
    split <;> omega

/-- What holds of the coins of both lists and of the sums of two such coins holds of the result. -/
lemma forall_mem {Q : Coin → Prop} (h : Merges as bs m)
    (hQ : ∀ a b : Coin, a.denom = b.denom → Q a → Q b → Q ⟨a.denom, a.amount + b.amount⟩)
    (has : ∀ c ∈ as, Q c) (hbs : ∀ c ∈ bs, Q c) : ∀ c ∈ m, Q c := by
  have hfilter : ∀ {cs : Coins}, (∀ c ∈ cs, Q c) → ∀ c ∈ nonzero cs, Q c :=
    fun h c hc => h c (mem_filter.mp hc).1
  have happend : ∀ {c : Coin} {m : Coins}, Q c → (∀ c ∈ m, Q c) → ∀ c' ∈ nonzero [c] ++ m, Q c' :=
    fun hc hm => forall_mem_append.mpr ⟨hfilter (forall_mem_singleton.mpr hc), hm⟩
  induction h with
  | nil_left => exact hfilter hbs
  | nil_right => exact hfilter has
  | left _ _ ih =>
    obtain ⟨ha, has⟩ := forall_mem_cons.mp has
    exact happend ha (ih has hbs)
  | right _ _ ih =>
    obtain ⟨hb, hbs⟩ := forall_mem_cons.mp hbs
    exact happend hb (ih has hbs)
  | both hab _ ih =>
    obtain ⟨ha, has⟩ := forall_mem_cons.mp has
    obtain ⟨hb, hbs⟩ := forall_mem_cons.mp hbs
    exact happend (hQ _ _ hab ha hb) (ih has hbs)

lemma ne_zero (h : Merges as bs m) : ∀ c ∈ m, c.amount ≠ 0 := by
  have hfilter : ∀ cs : Coins, ∀ c ∈ nonzero cs, c.amount ≠ 0 :=
    fun _ _ hc => of_decide_eq_true (mem_filter.mp hc).2
  induction h with
  | nil_left bs => exact hfilter bs
  | nil_right as => exact hfilter as
  | left _ _ ih | right _ _ ih | both _ _ ih =>
    exact forall_mem_append.mpr ⟨hfilter _, ih⟩

lemma isSorted (h : Merges as bs m) (has : as.isSorted) (hbs : bs.isSorted) : m.isSorted := by
  have hcons : ∀ {c : Coin} {as bs m : Coins}, Merges as bs m → m.isSorted →
      (∀ c' ∈ as, c.denom < c'.denom) → (∀ c' ∈ bs, c.denom < c'.denom) →
      (nonzero [c] ++ m).isSorted := by
    intro c as bs m hm hsorted has hbs
    refine pairwise_append.mpr ⟨(pairwise_singleton _ c).filter _, hsorted, ?_⟩
    intro c' hc'
    cases mem_singleton.mp (mem_filter.mp hc').1
    exact hm.forall_mem (fun _ _ _ ha _ => ha) has hbs
  induction h with
  | nil_left => exact hbs.filter _
  | nil_right => exact has.filter _
  | left hab hm ih =>
    obtain ⟨ha, has⟩ := isSorted_cons.mp has
    exact hcons hm (ih has hbs) ha
      (forall_mem_cons.mpr ⟨hab, fun c hc => hab.trans ((isSorted_cons.mp hbs).1 c hc)⟩)
  | right hba hm ih =>
    obtain ⟨hb, hbs⟩ := isSorted_cons.mp hbs
    exact hcons hm (ih has hbs)
      (forall_mem_cons.mpr ⟨hba, fun c hc => hba.trans ((isSorted_cons.mp has).1 c hc)⟩) hb
  | both hab hm ih =>
    obtain ⟨ha, has⟩ := isSorted_cons.mp has
    obtain ⟨hb, hbs⟩ := isSorted_cons.mp hbs
    exact hcons hm (ih has hbs) ha (hab ▸ hb)

/-- A second list without positive amounts brings no denominations of its own into a result
without negative ones. -/
lemma denoms (h : Merges as bs m) (hbs : ∀ c ∈ bs, c.amount ≤ 0) (hm : ∀ c ∈ m, 0 ≤ c.amount) :
    (m.map Coin.denom).Sublist (as.map Coin.denom) := by
  have hnil : ∀ {cs : Coins}, (∀ c ∈ cs, c.amount ≤ 0) → (∀ c ∈ nonzero cs, 0 ≤ c.amount) →
      nonzero cs = [] := by
    intro cs hcs hnonneg
    refine filter_eq_nil_iff.mpr ?_
    intro c hc hne
    have hpos := hnonneg c (mem_filter.mpr ⟨hc, hne⟩)
    have hzero : c.amount = 0 := le_antisymm (hcs c hc) hpos
    simp [hzero] at hne
  have hcons : ∀ {c : Coin} {m as : Coins}, (m.map Coin.denom).Sublist (as.map Coin.denom) →
      ((nonzero [c] ++ m).map Coin.denom).Sublist (c.denom :: as.map Coin.denom) := by
    intro c m as hsub
    rw [map_append]
    exact ((filter_sublist.map Coin.denom).append hsub)
  induction h with
  | nil_left bs =>
    rw [hnil hbs hm]
  | nil_right => exact filter_sublist.map _
  | left _ _ ih => exact hcons (ih hbs (forall_mem_append.mp hm).2)
  | right _ _ ih =>
    obtain ⟨hb, hbs⟩ := forall_mem_cons.mp hbs
    obtain ⟨hfirst, hm⟩ := forall_mem_append.mp hm
    rw [hnil (forall_mem_singleton.mpr hb) hfirst]
    exact ih hbs hm
  | both _ _ ih =>
    exact hcons (ih (forall_mem_cons.mp hbs).2 (forall_mem_append.mp hm).2)

end Merges

lemma sumOf_add (as bs : Coins) (d : Denom) : sumOf (add as bs) d = sumOf as d + sumOf bs d :=
  (merges_add as bs).sumOf_eq d

lemma isSorted_add (has : isSorted as) (hbs : isSorted bs) : isSorted (add as bs) :=
  (merges_add as bs).isSorted has hbs

lemma amountOf_add_of_isSorted (has : isSorted as) (hbs : isSorted bs)
    (d : Denom) : amountOf (add as bs) d = amountOf as d + amountOf bs d := by
  rw [amountOf_eq_sumOf (isSorted_add has hbs), amountOf_eq_sumOf has, amountOf_eq_sumOf hbs,
    sumOf_add]

lemma amountOf_add (has : isValid as) (hbs : isValid bs) (d : Denom) :
    amountOf (add as bs) d = amountOf as d + amountOf bs d :=
  amountOf_add_of_isSorted has.1 hbs.1 d

/-- No amount is negative. -/
def nonneg (cs : Coins) : Prop := ∀ c ∈ cs, 0 ≤ c.amount

instance (cs : Coins) : Decidable (nonneg cs) :=
  inferInstanceAs (Decidable (∀ c ∈ cs, 0 ≤ c.amount))

lemma nonneg_of_isValid (h : isValid cs) : nonneg cs := fun c hc => (h.2 c hc).le

lemma nonneg_ofAmount {a : Int} (h : 0 ≤ a) : nonneg (ofAmount d a) := by
  unfold ofAmount
  split
  · exact fun _ hc => absurd hc not_mem_nil
  · exact fun c hc => mem_singleton.mp hc ▸ h

lemma nonneg_iff : nonneg cs ↔ ¬ isAnyNegative cs = true := by
  simp [nonneg, isAnyNegative]

lemma nonneg_add (has : nonneg as) (hbs : nonneg bs) : nonneg (add as bs) :=
  (merges_add as bs).forall_mem (fun _ _ _ ha hb => add_nonneg ha hb) has hbs

/-- All amounts are positive. -/
def pos (cs : Coins) : Prop := ∀ c ∈ cs, 0 < c.amount

lemma pos_of_isValid (h : isValid cs) : pos cs := h.2

lemma pos_add (has : pos as) (hbs : pos bs) : pos (add as bs) :=
  (merges_add as bs).forall_mem (fun _ _ _ ha hb => add_pos ha hb) has hbs

lemma isValid_add (has : isValid as) (hbs : isValid bs) : isValid (add as bs) :=
  ⟨isSorted_add has.1 hbs.1, pos_add has.2 hbs.2⟩

lemma sumOf_nonneg (h : nonneg cs) (d : Denom) : 0 ≤ sumOf cs d := by
  refine sum_nonneg (forall_mem_map.mpr ?_)
  intro c hc
  split
  · exact h c hc
  · exact le_refl 0

lemma amount_le_sumOf (h : nonneg cs) (hc : c ∈ cs) : c.amount ≤ sumOf cs c.denom := by
  induction cs with
  | nil => cases hc
  | cons c' cs ih =>
    obtain ⟨hc', hcs⟩ := forall_mem_cons.mp h
    have hcons : sumOf (c' :: cs) c.denom =
        (if c'.denom = c.denom then c'.amount else 0) + sumOf cs c.denom := rfl
    rw [hcons]
    rcases mem_cons.mp hc with rfl | hc
    · have hrest := sumOf_nonneg hcs c.denom
      rw [if_pos rfl]
      omega
    · have hmem := ih hcs hc
      split <;> omega

lemma amountOf_nonneg (hsorted : isSorted cs) (h : nonneg cs) (d : Denom) :
    0 ≤ amountOf cs d := by
  rw [amountOf_eq_sumOf hsorted]
  exact sumOf_nonneg h d

lemma amountOf_nonneg_of_isValid (h : isValid cs) (d : Denom) : 0 ≤ amountOf cs d :=
  amountOf_nonneg h.1 (nonneg_of_isValid h) d

lemma amountOf_singleton (c : Coin) (d : Denom) :
    amountOf [c] d = if c.denom = d then c.amount else 0 := by
  rw [amountOf_eq_lookup (pairwise_singleton _ _), lookup_cons]
  rfl

lemma isSorted_negative (h : isSorted cs) : isSorted (negative cs) :=
  pairwise_map.mpr h

lemma sumOf_negative (cs : Coins) (d : Denom) : sumOf (negative cs) d = -sumOf cs d := by
  induction cs with
  | nil => rfl
  | cons c cs ih =>
    simp only [sumOf, negative, map_cons, sum_cons] at ih ⊢
    rw [ih]
    split <;> omega

lemma amountOf_negative (h : isSorted cs) (d : Denom) :
    amountOf (negative cs) d = -amountOf cs d := by
  rw [amountOf_eq_sumOf (isSorted_negative h), amountOf_eq_sumOf h, sumOf_negative]

lemma sub_cases (h : sub as bs = some r) : r = add as (negative bs) ∧ nonneg r := by
  obtain ⟨hnone, heq⟩ := ite_none_left_eq_some.mp h
  cases heq
  exact ⟨rfl, nonneg_iff.mpr hnone⟩

lemma nonneg_sub (h : sub as bs = some r) : nonneg r := (sub_cases h).2

lemma pos_sub (h : sub as bs = some r) : pos r := by
  obtain ⟨rfl, hr⟩ := sub_cases h
  intro c hc
  exact lt_of_le_of_ne (hr c hc) (Ne.symm ((merges_add as _).ne_zero c hc))

lemma sumOf_sub (h : sub as bs = some r) (d : Denom) : sumOf r d = sumOf as d - sumOf bs d := by
  rw [(sub_cases h).1, sumOf_add, sumOf_negative, sub_eq_add_neg]

lemma isSorted_sub (has : isSorted as) (hbs : isSorted bs) (h : sub as bs = some r) :
    isSorted r := by
  rw [(sub_cases h).1]
  exact isSorted_add has (isSorted_negative hbs)

lemma amountOf_sub_of_isSorted (has : isSorted as) (hbs : isSorted bs)
    (h : sub as bs = some r) (d : Denom) : amountOf r d = amountOf as d - amountOf bs d := by
  rw [amountOf_eq_sumOf (isSorted_sub has hbs h), amountOf_eq_sumOf has, amountOf_eq_sumOf hbs,
    sumOf_sub h]

/-- The difference of two valid coin lists is valid, if there is one. -/
lemma isValid_sub (has : isValid as) (hbs : isValid bs) (h : sub as bs = some r) : isValid r :=
  ⟨isSorted_sub has.1 hbs.1 h, pos_sub h⟩

/-- The subtracted coins may be in any order. -/
lemma isValid_sub_of_nonneg (has : isValid as) (hbs : nonneg bs) (h : sub as bs = some r) :
    isValid r := by
  refine ⟨?_, pos_sub h⟩
  obtain ⟨rfl, hr⟩ := sub_cases h
  have hnegative : ∀ c ∈ negative bs, c.amount ≤ 0 := by
    intro c hc
    obtain ⟨b, hb, rfl⟩ := mem_map.mp hc
    exact Int.neg_nonpos_of_nonneg (hbs b hb)
  have hsorted : (as.map Coin.denom).Pairwise (· < ·) := pairwise_map.mpr has.1
  exact pairwise_map.mp (hsorted.sublist ((merges_add as _).denoms hnegative hr))

lemma exists_sub (has : isSorted as) (hbs : isSorted bs)
    (h : ∀ d, amountOf bs d ≤ amountOf as d) : ∃ r, sub as bs = some r := by
  have hsorted := isSorted_add has (isSorted_negative hbs)
  refine ⟨_, if_neg (nonneg_iff.mp ?_)⟩
  intro c hc
  have hamount := amountOf_add_of_isSorted has (isSorted_negative hbs) c.denom
  rw [amountOf_eq_lookup hsorted, lookup_of_mem hsorted hc, amountOf_negative hbs] at hamount
  have hle := h c.denom
  omega

lemma add_ne_nil (has : pos as) (hne : as ≠ []) (hbs : pos bs) : add as bs ≠ [] := by
  obtain ⟨c, cs, rfl⟩ := exists_cons_of_ne_nil hne
  intro hnil
  obtain ⟨hc, hcs⟩ := forall_mem_cons.mp has
  have hsum := sumOf_add (c :: cs) bs c.denom
  have hrest := sumOf_nonneg (fun c' hc' => (hcs c' hc').le) c.denom
  have hother := sumOf_nonneg (fun c' hc' => (hbs c' hc').le) c.denom
  have hcons : sumOf (c :: cs) c.denom = c.amount + sumOf cs c.denom := by simp [sumOf]
  have hzero : sumOf (add (c :: cs) bs) c.denom = 0 := by
    rw [hnil]
    rfl
  omega

@[simp] lemma amountOf_nil (d : Denom) : amountOf [] d = 0 := rfl

@[simp] lemma amountOf_ofAmount_self (d : Denom) (a : Int) : amountOf (ofAmount d a) d = a := by
  unfold ofAmount
  split
  · rename_i h
    exact h.symm
  · simp [amountOf, search]

end Coins

end Shentu.Lib
