import Shentu.Lib.Table

/-!
A queue of entries kept in slices, one slice for each due time, in time order.
What a queue holds is its list of entries up to permutation, and every write of
a slice is described by what it does to that list. A queue is filed when each
entry lies in the slice of its own due time.
-/

namespace Shentu.Lib

open Table

structure Slice (β : Type) where
  time : Int
  entries : List β

abbrev TimeQueue (β : Type) := Table (fun s : Slice β => s.time)

namespace TimeQueue

variable {β : Type}

variable (q : TimeQueue β)

def slice (t : Int) : List β :=
  match q.get t with
  | some s => s.entries
  | none => []

def setSlice (t : Int) (bs : List β) : TimeQueue β := q.set ⟨t, bs⟩

def removeSlice (t : Int) : TimeQueue β := q.delete t

def insert (t : Int) (b : β) : TimeQueue β :=
  setSlice q t (slice q t ++ [b])

/-- Entries inserted one after the other, each under its time. -/
def insertAll (xs : List (Int × β)) : TimeQueue β :=
  xs.foldl (fun q x => insert q x.1 x.2) q

/-- The slices from the first time until and including `t`. -/
def upTo (t : Int) : List (Slice β) := q.rows.filter (fun s => s.time ≤ t)

/-- The queue without the slices `upTo` returns. -/
def dropUpTo (t : Int) : TimeQueue β :=
  ⟨q.rows.filter (fun s => !decide (s.time ≤ t)), q.sorted.filter _⟩

def entries : List β := q.rows.flatMap Slice.entries

def dueBy (t : Int) : List β := (upTo q t).flatMap Slice.entries

/-- Each entry lies in the slice of its own due time. -/
def Filed (due : β → Int) (q : TimeQueue β) : Prop :=
  ∀ s ∈ q.rows, ∀ b ∈ s.entries, due b = s.time

lemma entries_perm_slice (t : Int) : (entries q).Perm (slice q t ++ entries (removeSlice q t)) := by
  unfold entries slice removeSlice
  cases h : q.get t with
  | none => rw [delete_of_get_none h, List.nil_append]
  | some s => exact (rows_perm_of_get h).flatMap_right _

lemma entries_setSlice_perm (t : Int) (bs : List β) :
    (entries (setSlice q t bs)).Perm (bs ++ entries (removeSlice q t)) :=
  (rows_set_perm q ⟨t, bs⟩).flatMap_right _

lemma entries_perm_of_slice_perm (t : Int) (taken rest : List β)
    (h : (slice q t).Perm (taken ++ rest)) :
    (entries q).Perm (taken ++ entries (setSlice q t rest)) := by
  refine (entries_perm_slice q t).trans ((h.append_right _).trans ?_)
  rw [List.append_assoc]
  exact (entries_setSlice_perm q t rest).symm.append_left taken

lemma entries_insert_perm (t : Int) (b : β) : (entries (insert q t b)).Perm (b :: entries q) := by
  refine (entries_setSlice_perm q t _).trans ?_
  rw [List.append_assoc, List.singleton_append]
  exact List.perm_middle.trans ((entries_perm_slice q t).symm.cons b)

lemma entries_perm_dueBy (t : Int) : (entries q).Perm (dueBy q t ++ entries (dropUpTo q t)) := by
  unfold entries dueBy upTo dropUpTo
  rw [← List.flatMap_append]
  refine List.Perm.flatMap_right _ ?_
  exact (List.filter_append_perm (fun s : Slice β => decide (s.time ≤ t)) q.rows).symm

lemma slice_setSlice_self (t : Int) (bs : List β) : slice (setSlice q t bs) t = bs := by
  have hget : (q.set ⟨t, bs⟩).get t = some ⟨t, bs⟩ := get_set_self q ⟨t, bs⟩
  rw [slice, setSlice, hget]

variable {t t' : Int}

lemma slice_setSlice_of_ne (bs : List β) (h : t' ≠ t) :
    slice (setSlice q t bs) t' = slice q t' := by
  have hget : (q.set ⟨t, bs⟩).get t' = q.get t' := get_set_of_ne q h
  rw [slice, setSlice, hget, slice]

lemma slice_removeSlice_self (t : Int) : slice (removeSlice q t) t = [] := by
  rw [slice, removeSlice, get_delete_self]

lemma slice_removeSlice_of_ne (h : t' ≠ t) : slice (removeSlice q t) t' = slice q t' := by
  rw [slice, removeSlice, get_delete_of_ne q h, slice]

lemma slice_insert_self (t : Int) (b : β) : slice (insert q t b) t = slice q t ++ [b] :=
  slice_setSlice_self q t _

lemma slice_insert_of_ne (b : β) (h : t' ≠ t) : slice (insert q t b) t' = slice q t' :=
  slice_setSlice_of_ne q _ h

lemma slice_insertAll (xs : List (Int × β)) (q : TimeQueue β) (t : Int) :
    slice (insertAll q xs) t = slice q t ++ (xs.filter (fun x => x.1 = t)).map Prod.snd := by
  induction xs generalizing q with
  | nil => exact (List.append_nil _).symm
  | cons x xs ih =>
    obtain ⟨t', b⟩ := x
    have hrest : slice (insertAll q ((t', b) :: xs)) t =
        slice (insert q t' b) t ++ (xs.filter (fun x => x.1 = t)).map Prod.snd :=
      ih (insert q t' b)
    rw [hrest]
    by_cases ht : t' = t
    · subst ht
      rw [slice_insert_self, List.filter_cons_of_pos (by simp), List.map_cons, List.append_assoc,
        List.singleton_append]
    · rw [slice_insert_of_ne q b (Ne.symm ht), List.filter_cons_of_neg (by simpa using ht)]

namespace Filed

variable {due : β → Int} {q : TimeQueue β}

variable {t : Int} {b : β}

lemma of_mem_slice (h : Filed due q) (hb : b ∈ slice q t) : due b = t := by
  unfold slice at hb
  cases hg : q.get t with
  | none => simp [hg] at hb
  | some s =>
    rw [hg] at hb
    rw [h s (mem_of_get hg) b hb, key_of_get hg]

lemma mem_slice (h : Filed due q) (hb : b ∈ entries q) : b ∈ slice q (due b) := by
  obtain ⟨s, hs, hbs⟩ := List.mem_flatMap.mp hb
  have hg : q.get s.time = some s := get_of_mem hs
  unfold slice
  rw [h s hs b hbs, hg]
  exact hbs

lemma setSlice (h : Filed due q) {bs : List β} (hbs : ∀ b ∈ bs, due b = t) :
    Filed due (setSlice q t bs) := by
  intro s hs b hb
  rcases mem_set.mp hs with rfl | ⟨hs, -⟩
  · exact hbs b hb
  · exact h s hs b hb

lemma removeSlice (h : Filed due q) (t : Int) : Filed due (removeSlice q t) := by
  intro s hs b hb
  exact h s (mem_delete.mp hs).1 b hb

lemma insert (h : Filed due q) (hb : due b = t) : Filed due (insert q t b) := by
  refine h.setSlice ?_
  intro b' hb'
  rcases List.mem_append.mp hb' with hb' | hb'
  · exact h.of_mem_slice hb'
  · rw [List.mem_singleton.mp hb']
    exact hb

lemma dropUpTo (h : Filed due q) (t : Int) : Filed due (dropUpTo q t) := by
  intro s hs b hb
  exact h s (List.mem_of_mem_filter hs) b hb

lemma dueBy_eq (h : Filed due q) (t : Int) :
    dueBy q t = (entries q).filter (fun b => due b ≤ t) := by
  unfold dueBy upTo entries
  unfold Filed at h
  generalize q.rows = rows at h
  induction rows with
  | nil => rfl
  | cons s rest ih =>
    have hs : ∀ b ∈ s.entries, due b = s.time := h s List.mem_cons_self
    have hrest := ih (fun s' hs' => h s' (List.mem_cons_of_mem s hs'))
    rw [List.flatMap_cons, List.filter_append, ← hrest, List.filter_cons]
    split
    · rename_i hle
      have hall : s.entries.filter (fun b => due b ≤ t) = s.entries := by
        refine List.filter_eq_self.mpr ?_
        intro b hb
        rw [hs b hb]
        exact hle
      rw [hall, List.flatMap_cons]
    · rename_i hle
      have hnone : s.entries.filter (fun b => due b ≤ t) = [] := by
        refine List.filter_eq_nil_iff.mpr ?_
        intro b hb
        rw [hs b hb]
        exact hle
      rw [hnone, List.nil_append]

/-- The entries of a filed queue are in the order of their due times. -/
lemma pairwise_entries (h : Filed due q) : (entries q).Pairwise (fun b b' => due b ≤ due b') := by
  have hrows : ∀ rows : List (Slice β), rows.Pairwise (fun s s' => s.time < s'.time) →
      (∀ s ∈ rows, ∀ b ∈ s.entries, due b = s.time) →
      (rows.flatMap Slice.entries).Pairwise (fun b b' => due b ≤ due b') := by
    intro rows
    induction rows with
    | nil => exact fun _ _ => List.Pairwise.nil
    | cons s rest ih =>
      intro hsorted hfiled
      obtain ⟨hlater, hsorted⟩ := List.pairwise_cons.mp hsorted
      have hs : ∀ b ∈ s.entries, due b = s.time := hfiled s List.mem_cons_self
      rw [List.flatMap_cons, List.pairwise_append]
      refine ⟨?_, ih hsorted (fun s' hs' => hfiled s' (List.mem_cons_of_mem s hs')), ?_⟩
      · apply List.pairwise_of_forall_mem_list
        intro b hb b' hb'
        rw [hs b hb, hs b' hb']
      · intro b hb b' hb'
        obtain ⟨s', hs', hmem⟩ := List.mem_flatMap.mp hb'
        rw [hs b hb, hfiled s' (List.mem_cons_of_mem s hs') b' hmem]
        exact (hlater s' hs').le
  exact hrows q.rows q.sorted h

lemma lt_due_of_mem_dropUpTo (h : Filed due q)
    (hb : b ∈ entries (TimeQueue.dropUpTo q t)) : t < due b := by
  obtain ⟨s, hs, hbs⟩ := List.mem_flatMap.mp hb
  obtain ⟨hs, hlt⟩ := List.mem_filter.mp hs
  rw [h s hs b hbs]
  simpa using hlt

end Filed

end TimeQueue

end Shentu.Lib
