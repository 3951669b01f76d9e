import Mathlib

/-!
A key-value store as the list of its rows in key order. The rows carry their
own key and the order is a field of the structure, so a table holds at most
one row for each key. Reading, writing and deleting a row are characterised by
`get` and, for sums over all rows, by permutations of the row list.
-/

namespace Shentu.Lib

open Option List

structure Table {κ α : Type} [LinearOrder κ] (key : α → κ) where
  rows : List α
  sorted : rows.Pairwise (fun a b => key a < key b)

/-- Put a row in key order, replacing the row that has its key. -/
def insertRow {κ α : Type} [LinearOrder κ] (key : α → κ) (row : α) : List α → List α
  | [] => [row]
  | r :: rs =>
    if key row < key r then row :: r :: rs
    else if key r < key row then r :: insertRow key row rs
    else row :: rs

variable {κ α : Type} [LinearOrder κ] {key : α → κ}

lemma mem_insertRow {row r : α} {rs : List α} (h : r ∈ insertRow key row rs) :
    r = row ∨ r ∈ rs := by
  induction rs with
  | nil => simpa [insertRow] using h
  | cons a rest ih =>
    simp only [insertRow] at h
    split at h
    · simpa using h
    · split at h
      · rcases mem_cons.mp h with rfl | h
        · simp
        · rcases ih h with rfl | h
          · simp
          · simp [h]
      · rcases mem_cons.mp h with rfl | h
        · simp
        · simp [h]

lemma insertRow_sorted (row : α) (rs : List α) (h : rs.Pairwise (fun a b => key a < key b)) :
    (insertRow key row rs).Pairwise (fun a b => key a < key b) := by
  induction rs with
  | nil => simp [insertRow]
  | cons a rest ih =>
    obtain ⟨ha, hrest⟩ := pairwise_cons.mp h
    simp only [insertRow]
    split
    · rename_i hlt
      refine pairwise_cons.mpr ⟨?_, h⟩
      intro b hb
      rcases mem_cons.mp hb with rfl | hb
      · exact hlt
      · exact hlt.trans (ha b hb)
    · split
      · rename_i hlt
        refine pairwise_cons.mpr ⟨?_, ih hrest⟩
        intro b hb
        rcases mem_insertRow hb with rfl | hb
        · exact hlt
        · exact ha b hb
      · rename_i hle hge
        have heq : key row = key a := le_antisymm (not_lt.mp hge) (not_lt.mp hle)
        refine pairwise_cons.mpr ⟨?_, hrest⟩
        intro b hb
        rw [heq]
        exact ha b hb

lemma insertRow_perm (row : α) (rs : List α) (h : rs.Pairwise (fun a b => key a < key b)) :
    (insertRow key row rs).Perm (row :: rs.filter (fun r => key r ≠ key row)) := by
  induction rs with
  | nil => simp [insertRow]
  | cons a rest ih =>
    obtain ⟨ha, hrest⟩ := pairwise_cons.mp h
    have keep : ∀ b ∈ rest, key row ≤ key a → key b ≠ key row := by
      intro b hb hle heq
      exact absurd (ha b hb) (not_lt.mpr (heq ▸ hle))
    simp only [insertRow]
    split
    · rename_i hlt
      have hall : (a :: rest).filter (fun r => key r ≠ key row) = a :: rest := by
        refine filter_eq_self.mpr ?_
        intro b hb
        rcases mem_cons.mp hb with rfl | hb
        · simpa using hlt.ne'
        · simpa using keep b hb hlt.le
      rw [hall]
    · split
      · rename_i hlt
        have hne : key a ≠ key row := hlt.ne
        simp only [filter_cons, hne, ne_eq, not_false_eq_true, decide_true, ↓reduceIte]
        exact ((ih hrest).cons a).trans (List.Perm.swap row a _)
      · rename_i hle hge
        have heq : key row = key a := le_antisymm (not_lt.mp hge) (not_lt.mp hle)
        have hall : rest.filter (fun r => key r ≠ key row) = rest := by
          refine filter_eq_self.mpr ?_
          intro b hb
          simpa using keep b hb heq.le
        rw [filter_cons_of_neg (by simp [heq]), hall]

namespace Table

def empty : Table key := ⟨[], List.Pairwise.nil⟩

def get (t : Table key) (k : κ) : Option α := t.rows.find? (fun r => key r = k)

def set (t : Table key) (row : α) : Table key :=
  ⟨insertRow key row t.rows, insertRow_sorted row t.rows t.sorted⟩

def delete (t : Table key) (k : κ) : Table key :=
  ⟨t.rows.filter (fun r => key r ≠ k), t.sorted.filter _⟩

/-- The sum of a quantity over all rows. -/
def total (t : Table key) (f : α → Int) : Int := (t.rows.map f).sum

/-- A quantity of the row stored under a key, zero when there is none. -/
def valueAt (t : Table key) (f : α → Int) (k : κ) : Int := ((t.get k).map f).getD 0

/-- The table after rows are written one after the other. -/
def load (t : Table key) (rs : List α) : Table key := rs.foldl set t

variable {t u : Table key} {k : κ} {r row : α} {β : Type} {f : α → Int} {p : α → Bool}

lemma ext_rows (h : t.rows = u.rows) : t = u := by
  cases t
  cases u
  simpa using h

@[simp] lemma get_empty (k : κ) : (empty : Table key).get k = none := rfl

@[simp] lemma rows_empty : (empty : Table key).rows = [] := rfl

lemma key_inj_of_mem (t : Table key) {a b : α} (ha : a ∈ t.rows) (hb : b ∈ t.rows)
    (h : key a = key b) : a = b := by
  by_contra hne
  have hall : t.rows.Pairwise (fun a b => key a ≠ key b) := t.sorted.imp (fun h => h.ne)
  have : Std.Symm (fun a b => key a ≠ key b) := ⟨fun _ _ hab => hab.symm⟩
  exact hall.forall ha hb hne h

lemma key_of_get (h : t.get k = some r) : key r = k := by
  simpa using List.find?_some h

lemma mem_of_get (h : t.get k = some r) : r ∈ t.rows :=
  mem_of_find?_eq_some h

lemma get_of_mem (h : r ∈ t.rows) : t.get (key r) = some r := by
  cases hg : t.get (key r) with
  | none =>
    have := List.find?_eq_none.mp hg r h
    simp at this
  | some r' => rw [t.key_inj_of_mem h (mem_of_get hg) (key_of_get hg).symm]

lemma get_eq_some_iff : t.get k = some r ↔ r ∈ t.rows ∧ key r = k := by
  refine ⟨fun h => ⟨mem_of_get h, key_of_get h⟩, ?_⟩
  rintro ⟨h, rfl⟩
  exact get_of_mem h

lemma get_eq_none_iff : t.get k = none ↔ ∀ r ∈ t.rows, key r ≠ k := by
  simp [get]

lemma rows_set_perm (t : Table key) (row : α) :
    (t.set row).rows.Perm (row :: (t.delete (key row)).rows) :=
  insertRow_perm row t.rows t.sorted

lemma mem_delete : r ∈ (t.delete k).rows ↔ r ∈ t.rows ∧ key r ≠ k := by
  simp [delete]

lemma mem_set : r ∈ (t.set row).rows ↔ r = row ∨ (r ∈ t.rows ∧ key r ≠ key row) := by
  rw [(t.rows_set_perm row).mem_iff, mem_cons, mem_delete]

lemma forall_mem_set {P : α → Prop} (hrow : P row) (h : ∀ r ∈ t.rows, P r) :
    ∀ r ∈ (t.set row).rows, P r := by
  intro r hr
  rcases mem_set.mp hr with rfl | ⟨hr, -⟩
  · exact hrow
  · exact h r hr

lemma get_set_self (t : Table key) (row : α) : (t.set row).get (key row) = some row :=
  get_of_mem (mem_set.mpr (.inl rfl))

lemma get_set_of_ne (t : Table key) (h : k ≠ key row) : (t.set row).get k = t.get k := by
  ext r
  rw [get_eq_some_iff, get_eq_some_iff, mem_set]
  constructor
  · rintro ⟨rfl | ⟨hr, -⟩, hk⟩
    · exact absurd hk.symm h
    · exact ⟨hr, hk⟩
  · rintro ⟨hr, rfl⟩
    exact ⟨.inr ⟨hr, h⟩, rfl⟩

lemma get_set (t : Table key) (row : α) (k : κ) :
    (t.set row).get k = if k = key row then some row else t.get k := by
  split
  · rename_i h
    rw [h, get_set_self]
  · rename_i h
    rw [get_set_of_ne t h]

lemma get_delete (t : Table key) (k k' : κ) :
    (t.delete k).get k' = if k' = k then none else t.get k' := by
  split
  · rename_i h
    rw [get_eq_none_iff]
    intro r hr
    rw [h]
    exact (mem_delete.mp hr).2
  · rename_i h
    ext r
    rw [get_eq_some_iff, get_eq_some_iff, mem_delete]
    constructor
    · rintro ⟨⟨hr, -⟩, hk⟩
      exact ⟨hr, hk⟩
    · rintro ⟨hr, rfl⟩
      exact ⟨⟨hr, h⟩, rfl⟩

@[simp] lemma get_delete_self (t : Table key) (k : κ) : (t.delete k).get k = none := by
  simp [get_delete]

lemma get_delete_of_ne (t : Table key) {k' : κ} (h : k' ≠ k) :
    (t.delete k).get k' = t.get k' := by
  simp [get_delete, h]

lemma delete_of_get_none (h : t.get k = none) : t.delete k = t := by
  refine ext_rows (filter_eq_self.mpr ?_)
  intro r hr
  simpa using get_eq_none_iff.mp h r hr

lemma rows_nodup (t : Table key) : t.rows.Nodup :=
  t.sorted.imp (fun h heq => absurd h (by simp [heq]))

lemma ext_perm (h : t.rows.Perm u.rows) : t = u := by
  refine ext_rows (h.eq_of_pairwise ?_ t.sorted u.sorted)
  intro a b _ _ hab hba
  exact absurd hba (lt_asymm hab)

lemma ext_get (h : ∀ k, t.get k = u.get k) : t = u := by
  have hmem : ∀ r, r ∈ t.rows ↔ r ∈ u.rows := by
    intro r
    constructor
    · intro hr
      exact mem_of_get ((h (key r)).symm.trans (get_of_mem hr))
    · intro hr
      exact mem_of_get ((h (key r)).trans (get_of_mem hr))
  exact ext_perm ((perm_ext_iff_of_nodup t.rows_nodup u.rows_nodup).mpr hmem)

lemma set_set {r' : α} (h : key r = key r') : (t.set r).set r' = t.set r' := by
  refine ext_get ?_
  intro k
  rw [get_set, get_set, get_set, h]
  split <;> rfl

lemma set_of_get (h : t.get (key r) = some r) : t.set r = t := by
  refine ext_get ?_
  intro k
  rw [get_set]
  split
  · rename_i hk
    rw [hk, h]
  · rfl

lemma delete_set (t : Table key) (r : α) : (t.set r).delete (key r) = t.delete (key r) := by
  refine ext_get ?_
  intro k
  rw [get_delete, get_delete, get_set]
  split <;> rfl

lemma set_delete (t : Table key) (r : α) : (t.delete (key r)).set r = t.set r := by
  refine ext_get ?_
  intro k
  rw [get_set, get_set, get_delete]
  split <;> rfl

lemma rows_perm_of_get (h : t.get k = some r) : t.rows.Perm (r :: (t.delete k).rows) := by
  refine (perm_ext_iff_of_nodup t.rows_nodup ?_).mpr ?_
  · refine nodup_cons.mpr ⟨?_, (t.delete k).rows_nodup⟩
    rw [mem_delete]
    exact fun hr => hr.2 (key_of_get h)
  · intro a
    rw [mem_cons, mem_delete]
    constructor
    · intro ha
      by_cases hk : key a = k
      · exact .inl (t.key_inj_of_mem ha (mem_of_get h) (hk.trans (key_of_get h).symm))
      · exact .inr ⟨ha, hk⟩
    · rintro (rfl | ⟨ha, -⟩)
      · exact mem_of_get h
      · exact ha

/-- At most one row has a given key. -/
lemma filter_key_rows (t : Table key) (k : κ) :
    t.rows.filter (fun r => key r = k) = (t.get k).toList := by
  cases h : t.get k with
  | none =>
    refine filter_eq_nil_iff.mpr ?_
    intro r hr
    simpa using get_eq_none_iff.mp h r hr
  | some r =>
    have hperm := (rows_perm_of_get h).filter (fun r => decide (key r = k))
    have hrest : (t.delete k).rows.filter (fun r => decide (key r = k)) = [] := by
      refine filter_eq_nil_iff.mpr ?_
      intro r' hr'
      simpa using (mem_delete.mp hr').2
    rw [filter_cons_of_pos (by simpa using key_of_get h), hrest] at hperm
    exact perm_singleton.mp hperm

lemma flatMap_perm_of_get (h : t.get k = some r)
    (f : α → List β) : (t.rows.flatMap f).Perm (f r ++ (t.delete k).rows.flatMap f) :=
  (rows_perm_of_get h).flatMap_right f

lemma flatMap_set_perm (t : Table key) (row : α) (f : α → List β) :
    ((t.set row).rows.flatMap f).Perm (f row ++ (t.delete (key row)).rows.flatMap f) :=
  (t.rows_set_perm row).flatMap_right f

lemma valueAt_of_get (h : t.get k = some r) (f : α → Int) : t.valueAt f k = f r := by
  simp [valueAt, h]

lemma valueAt_of_get_none (h : t.get k = none) (f : α → Int) : t.valueAt f k = 0 := by
  simp [valueAt, h]

lemma valueAt_set (t : Table key) (row : α) (f : α → Int) (k : κ) :
    (t.set row).valueAt f k = if k = key row then f row else t.valueAt f k := by
  unfold valueAt
  rw [get_set]
  split <;> simp

lemma valueAt_delete (t : Table key) (f : α → Int) (k k' : κ) :
    (t.delete k).valueAt f k' = if k' = k then 0 else t.valueAt f k' := by
  unfold valueAt
  rw [get_delete]
  split <;> simp

lemma total_delete (t : Table key) (f : α → Int) (k : κ) :
    (t.delete k).total f = t.total f - t.valueAt f k := by
  cases h : t.get k with
  | none => rw [delete_of_get_none h, valueAt_of_get_none h, sub_zero]
  | some r =>
    have hsum : t.total f = f r + (t.delete k).total f := by
      unfold total
      rw [((rows_perm_of_get h).map f).sum_eq, map_cons, sum_cons]
    rw [valueAt_of_get h]
    omega

lemma total_set (t : Table key) (row : α) (f : α → Int) :
    (t.set row).total f = t.total f - t.valueAt f (key row) + f row := by
  have hsum : (t.set row).total f = f row + (t.delete (key row)).total f := by
    unfold total
    rw [((t.rows_set_perm row).map f).sum_eq, map_cons, sum_cons]
  rw [hsum, total_delete]
  omega

lemma total_congr {g : α → Int} (h : ∀ r ∈ t.rows, f r = g r) : t.total f = t.total g := by
  unfold total
  rw [map_congr_left h]

lemma total_nonneg (h : ∀ r ∈ t.rows, 0 ≤ f r) : 0 ≤ t.total f := by
  refine sum_nonneg (forall_mem_map.mpr ?_)
  intro r hr
  exact h r hr

@[simp] lemma total_empty (f : α → Int) : (empty : Table key).total f = 0 := rfl

/-- The rows that meet a condition. -/
def filter (t : Table key) (p : α → Bool) : Table key := ⟨t.rows.filter p, t.sorted.filter p⟩

lemma mem_filter : r ∈ (t.filter p).rows ↔ r ∈ t.rows ∧ p r = true := List.mem_filter

lemma get_filter (t : Table key) (p : α → Bool) (k : κ) :
    (t.filter p).get k = (t.get k).filter p := by
  cases h : t.get k with
  | none =>
    refine get_eq_none_iff.mpr ?_
    intro r hr
    exact get_eq_none_iff.mp h r (mem_filter.mp hr).1
  | some r =>
    rw [filter_some]
    obtain ⟨hr, hk⟩ := get_eq_some_iff.mp h
    split
    · rename_i hp
      exact get_eq_some_iff.mpr ⟨mem_filter.mpr ⟨hr, hp⟩, hk⟩
    · rename_i hp
      refine get_eq_none_iff.mpr ?_
      intro r' hr' hk'
      obtain ⟨hmem, hp'⟩ := mem_filter.mp hr'
      exact hp (t.key_inj_of_mem hmem hr (hk'.trans hk.symm) ▸ hp')

/-- The rows changed one by one, each under its key. -/
def map {β : Type} {key' : β → κ} (t : Table key) (f : α → β) (h : ∀ r, key' (f r) = key r) :
    Table key' :=
  ⟨t.rows.map f, pairwise_map.mpr (t.sorted.imp (fun hlt => by rwa [h, h]))⟩

lemma get_map {key' : β → κ} (t : Table key) (f : α → β)
    (h : ∀ r, key' (f r) = key r) (k : κ) : (t.map f h).get k = (t.get k).map f := by
  cases hget : t.get k with
  | none =>
    refine get_eq_none_iff.mpr ?_
    intro r' hr' hk
    obtain ⟨r, hr, rfl⟩ := mem_map.mp hr'
    exact get_eq_none_iff.mp hget r hr ((h r).symm.trans hk)
  | some r =>
    obtain ⟨hr, hk⟩ := get_eq_some_iff.mp hget
    exact get_eq_some_iff.mpr ⟨mem_map_of_mem hr, (h r).trans hk⟩

lemma rows_set_of_get (h : t.get k = some r) (row : α)
    (hk : key row = k) : (t.set row).rows = t.rows.map (fun r => if key r = k then row else r) := by
  have hkeep : ∀ r, key (if key r = k then row else r) = key r := by
    intro r
    split
    · rename_i hr
      exact hk.trans hr.symm
    · rfl
  have hmap : t.set row = t.map (fun r => if key r = k then row else r) hkeep := by
    apply ext_get
    intro k'
    rw [get_set, get_map, hk]
    split
    · rename_i hk'
      rw [hk', h, map_some, if_pos (key_of_get h)]
    · rename_i hk'
      cases hget : t.get k' with
      | none => rfl
      | some r' => rw [map_some, if_neg ((key_of_get hget).symm ▸ hk')]
  rw [hmap]
  rfl

lemma filter_set_of_pos (t : Table key) (h : p r = true) :
    (t.set r).filter p = (t.filter p).set r := by
  refine ext_get ?_
  intro k
  rw [get_filter, get_set, get_set, get_filter]
  split
  · rw [filter_some, if_pos h]
  · rfl

lemma filter_set_of_neg (t : Table key) (h : p r = false) :
    (t.set r).filter p = (t.filter p).delete (key r) := by
  refine ext_get ?_
  intro k
  rw [get_filter, get_set, get_delete, get_filter]
  split
  · rw [filter_some, if_neg (by simp [h])]
  · rfl

lemma filter_delete (t : Table key) (p : α → Bool) (k : κ) :
    (t.delete k).filter p = (t.filter p).delete k := by
  refine ext_get ?_
  intro k'
  rw [get_filter, get_delete, get_delete, get_filter]
  split <;> rfl

/-- Deleting the rows of a list that meet a condition, one after the other. -/
lemma get_foldl_delete (p : α → Bool) (rs : List α) (t : Table key) (k : κ) :
    (rs.foldl (fun t r => if p r = true then t.delete (key r) else t) t).get k =
      if rs.any (fun r => p r && decide (key r = k)) = true then none else t.get k := by
  induction rs generalizing t with
  | nil => rfl
  | cons r rs ih =>
    rw [foldl_cons, ih, any_cons]
    by_cases hr : p r = true
    · rw [if_pos hr, get_delete]
      by_cases hk : key r = k
      · simp [hr, hk]
      · simp [hk, Ne.symm hk]
    · simp [hr]

/-- A sweep over the rows of a table keeps those that do not meet the condition. -/
lemma foldl_delete_eq_filter (t : Table key) (p : α → Bool) :
    t.rows.foldl (fun t r => if p r = true then t.delete (key r) else t) t =
      t.filter (fun r => !p r) := by
  refine ext_get ?_
  intro k
  rw [get_foldl_delete, get_filter]
  cases hk : t.get k with
  | none => simp
  | some r =>
    obtain ⟨hr, hkey⟩ := get_eq_some_iff.mp hk
    have hany : t.rows.any (fun r => p r && decide (key r = k)) = p r := by
      cases hp : p r with
      | true =>
        rw [List.any_eq_true]
        exact ⟨r, hr, by simp [hp, hkey]⟩
      | false =>
        rw [List.any_eq_false]
        intro r' hr' hboth
        obtain ⟨hp', hk'⟩ := Bool.and_eq_true_iff.mp hboth
        have heq := t.key_inj_of_mem hr' hr ((of_decide_eq_true hk').trans hkey.symm)
        rw [heq, hp] at hp'
        cases hp'
    rw [hany, filter_some]
    cases p r <;> rfl

lemma total_filter_of_zero
    (h : ∀ r ∈ t.rows, p r = false → f r = 0) : (t.filter p).total f = t.total f := by
  unfold total filter
  dsimp only
  generalize t.rows = rs at h
  induction rs with
  | nil => rfl
  | cons r rs ih =>
    have hrest := ih (fun r' hr' => h r' (mem_cons_of_mem r hr'))
    rw [filter_cons, map_cons, sum_cons]
    split
    · rw [map_cons, sum_cons, hrest]
    · rename_i hp
      rw [hrest, h r mem_cons_self (Bool.eq_false_iff.mpr hp), zero_add]

lemma total_at_key (t : Table key) (f : α → Int) (k : κ) :
    t.total (fun r => if key r = k then f r else 0) = t.valueAt f k := by
  have hdelete := t.total_delete (fun r => if key r = k then f r else 0) k
  have hrest : (t.delete k).total (fun r => if key r = k then f r else 0) = 0 := by
    refine (total_congr (g := fun _ => 0) ?_).trans (by simp [total])
    intro r hr
    exact if_neg (mem_delete.mp hr).2
  have hvalue : t.valueAt (fun r => if key r = k then f r else 0) k = t.valueAt f k := by
    cases hk : t.get k with
    | none => rw [valueAt_of_get_none hk, valueAt_of_get_none hk]
    | some r => rw [valueAt_of_get hk, valueAt_of_get hk, if_pos (key_of_get hk)]
  omega

lemma total_filter (t : Table key) (p : α → Bool) (f : α → Int) :
    (t.filter p).total f = t.total (fun r => if p r = true then f r else 0) := by
  unfold total filter
  dsimp only
  generalize t.rows = rs
  induction rs with
  | nil => rfl
  | cons r rs ih =>
    rw [filter_cons, map_cons, sum_cons, ← ih]
    split
    · rw [map_cons, sum_cons]
    · rw [zero_add]

lemma total_add (t : Table key) (f g : α → Int) :
    t.total (fun r => f r + g r) = t.total f + t.total g := sum_map_add

lemma valueAt_filter (t : Table key) (p : α → Bool) (f : α → Int) (k : κ) :
    (t.filter p).valueAt f k = t.valueAt (fun r => if p r = true then f r else 0) k := by
  unfold valueAt
  rw [get_filter]
  cases t.get k with
  | none => rfl
  | some r =>
    rw [filter_some]
    split <;> rename_i hp <;> simp [hp]

lemma rows_load_perm (rs : List α) (t : Table key) (hkeys : (rs.map key).Nodup)
    (hfresh : ∀ r ∈ rs, t.get (key r) = none) : (t.load rs).rows.Perm (rs ++ t.rows) := by
  induction rs generalizing t with
  | nil => exact List.Perm.refl _
  | cons r rs ih =>
    obtain ⟨hnot, hkeys⟩ := nodup_cons.mp hkeys
    have hfresh' : ∀ r' ∈ rs, (t.set r).get (key r') = none := by
      intro r' hr'
      have hne : key r' ≠ key r := fun heq => hnot (heq ▸ mem_map_of_mem hr')
      rw [get_set_of_ne t hne]
      exact hfresh r' (mem_cons_of_mem r hr')
    have hset : (t.set r).rows.Perm (r :: t.rows) := by
      have hperm := rows_set_perm t r
      rwa [delete_of_get_none (hfresh r mem_cons_self)] at hperm
    exact (ih (t.set r) hkeys hfresh').trans ((hset.append_left rs).trans perm_middle)

end Table

end Shentu.Lib
