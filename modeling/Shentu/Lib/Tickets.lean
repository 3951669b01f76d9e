import Mathlib

/-!
Identities for the elements of a store that does not tell equal elements apart. A ticket is
opened under a number that was never used before, its value may be edited, and one day it is
closed. The store holds the values of the open tickets in any order, and an edit of the
store is lifted to an edit of the tickets.
-/

namespace Shentu.Lib

open List Nat

variable {α β δ : Type}

lemma exists_perm_of_map_perm (f : α → β) {l : List α} {m : List β} (h : (l.map f).Perm m) :
    ∃ l', l.Perm l' ∧ l'.map f = m := by
  have hcomp : Relation.Comp (fun m' l' => m' = List.map f l') List.Perm m l := by
    rw [eq_map_comp_perm]
    exact h.symm
  obtain ⟨l', rfl, hperm⟩ := hcomp
  exact ⟨l', hperm.symm, rfl⟩

/-- The open tickets under their numbers, and the next number. -/
structure Tickets (α : Type) where
  next : Nat
  items : List (Nat × α)

namespace Tickets

def empty : Tickets α := ⟨0, []⟩

def numbers (T : Tickets α) : List Nat := T.items.map Prod.fst

def values (T : Tickets α) : List α := T.items.map Prod.snd

/-- A number is open once, and the next one is new. -/
structure Sound (T : Tickets α) : Prop where
  nodup : T.numbers.Nodup
  below : ∀ i ∈ T.numbers, i < T.next

/-- A ticket is opened. -/
def opened (a : α) (T : Tickets α) : Tickets α := ⟨T.next + 1, (T.next, a) :: T.items⟩

/-- What an edit leaves of a ticket, under its number. -/
def leftUnder (left : α → δ → Option α) (e : (Nat × α) × δ) : Option (Nat × α) :=
  (left e.1.2 e.2).map (Prod.mk e.1.1)

/-- All open tickets are edited, each in its own way: `left` says what is left of a value. -/
structure Edited (left : α → δ → Option α) (T T' : Tickets α) (edits : List ((Nat × α) × δ)) :
    Prop where
  items : T.items.Perm (edits.map Prod.fst)
  left : T'.items.Perm (edits.filterMap (leftUnder left))
  next : T'.next = T.next

/-- All tickets that are due leave. -/
def release (due : α → Bool) (T : Tickets α) : Tickets α :=
  ⟨T.next, T.items.filter (fun t => !due t.2)⟩

section Numbers

variable {left : α → δ → Option α} {T T' : Tickets α} {edits : List ((Nat × α) × δ)}
  {due : α → Bool} {i : Nat} {a : α}

lemma mem_numbers (h : (i, a) ∈ T.items) : i ∈ T.numbers :=
  mem_map.mpr ⟨(i, a), h, rfl⟩

lemma Sound.empty : Sound (empty : Tickets α) :=
  ⟨nodup_nil, fun _ hi => absurd hi not_mem_nil⟩

lemma Sound.opened (h : T.Sound) (a : α) : (T.opened a).Sound := by
  refine ⟨nodup_cons.mpr ⟨fun hmem => lt_irrefl _ (h.below _ hmem), h.nodup⟩, ?_⟩
  intro i hi
  rcases mem_cons.mp hi with rfl | hi
  · exact lt_succ_self _
  · exact lt_succ_of_lt (h.below i hi)

lemma gone_opened (a : α) (hi : i < T.next) (hgone : i ∉ T.numbers) :
    i < (T.opened a).next ∧ i ∉ (T.opened a).numbers := by
  refine ⟨lt_succ_of_lt hi, fun hmem => ?_⟩
  rcases mem_cons.mp hmem with hnext | hmem
  · exact absurd hnext (Nat.ne_of_lt hi)
  · exact hgone hmem

/-- An edit opens no number. -/
lemma Edited.numbers (h : Edited left T T' edits) :
    T.numbers.Perm (edits.map fun e => e.1.1) ∧
      T'.numbers.Subperm (edits.map fun e => e.1.1) := by
  have hbefore : T.numbers.Perm (edits.map fun e => e.1.1) := by
    have hitems := h.items.map Prod.fst
    rwa [List.map_map] at hitems
  refine ⟨hbefore, (h.left.map Prod.fst).subperm.trans (Sublist.subperm ?_)⟩
  clear h hbefore
  induction edits with
  | nil => exact .slnil
  | cons e edits ih =>
    cases hleft : left e.1.2 e.2 with
    | none => simpa [leftUnder, hleft] using ih.cons e.1.1
    | some a' => simpa [leftUnder, hleft] using ih

lemma Sound.edited (h : T.Sound) (hedit : Edited left T T' edits) : T'.Sound := by
  obtain ⟨hbefore, hafter⟩ := hedit.numbers
  obtain ⟨l, hperm, hsub⟩ := id hafter
  refine ⟨hperm.nodup_iff.mp ((hbefore.nodup_iff.mp h.nodup).sublist hsub), fun i hi => ?_⟩
  rw [hedit.next]
  exact h.below i (hbefore.mem_iff.mpr (hafter.subset hi))

lemma Edited.gone (h : Edited left T T' edits) (hi : i < T.next) (hgone : i ∉ T.numbers) :
    i < T'.next ∧ i ∉ T'.numbers := by
  obtain ⟨hbefore, hafter⟩ := h.numbers
  exact ⟨h.next.symm ▸ hi, fun hmem => hgone (hbefore.mem_iff.mpr (hafter.subset hmem))⟩

/-- What an edit leaves of a ticket is open under its number, and a ticket of which it leaves
nothing is gone. -/
lemma Edited.ticket (h : Edited left T T' edits) (hsound : T.Sound) (hi : (i, a) ∈ T.items) :
    ∃ d, ((i, a), d) ∈ edits ∧ (∀ a', left a d = some a' → (i, a') ∈ T'.items) ∧
      (left a d = none → i ∉ T'.numbers) := by
  obtain ⟨⟨_, d⟩, he, rfl⟩ := mem_map.mp (h.items.mem_iff.mp hi)
  refine ⟨d, he, ?_, ?_⟩
  · intro a' ha'
    exact h.left.mem_iff.mpr (mem_filterMap.mpr ⟨_, he, by simp [leftUnder, ha']⟩)
  · intro hnone hmem
    obtain ⟨⟨j, b⟩, hb, rfl⟩ := mem_map.mp hmem
    obtain ⟨e', he', hleft⟩ := mem_filterMap.mp (h.left.mem_iff.mp hb)
    obtain ⟨b', hb', heq⟩ := Option.map_eq_some_iff.mp hleft
    cases heq
    -- Two edits of one number are the same edit.
    have hsame := inj_on_of_nodup_map (h.numbers.1.nodup_iff.mp hsound.nodup) he' he rfl
    rw [hsame] at hb'
    cases hnone.symm.trans hb'

lemma Edited.forall_values (h : Edited left T T' edits) {P : α → Prop} (hT : ∀ a ∈ T.values, P a)
    (hP : ∀ e ∈ edits, P e.1.2 → ∀ a', left e.1.2 e.2 = some a' → P a') : ∀ a ∈ T'.values, P a := by
  intro a ha
  obtain ⟨⟨j, b⟩, hb, rfl⟩ := mem_map.mp ha
  obtain ⟨e, he, hleft⟩ := mem_filterMap.mp (h.left.mem_iff.mp hb)
  obtain ⟨b', hb', heq⟩ := Option.map_eq_some_iff.mp hleft
  cases heq
  refine hP e he (hT e.1.2 ?_) b hb'
  exact mem_map.mpr ⟨e.1, h.items.mem_iff.mpr (mem_map.mpr ⟨e, he, rfl⟩), rfl⟩

lemma Sound.release (h : T.Sound) (due : α → Bool) : (T.release due).Sound := by
  have hsub : List.Sublist (T.release due).numbers T.numbers := filter_sublist.map Prod.fst
  exact ⟨h.nodup.sublist hsub, fun i hi => h.below i (hsub.subset hi)⟩

lemma gone_release (due : α → Bool) (hgone : i ∉ T.numbers) : i ∉ (T.release due).numbers :=
  fun hmem => hgone ((filter_sublist.map Prod.fst).subset hmem)

lemma mem_release_or_gone (hsound : T.Sound) (hi : (i, a) ∈ T.items) (due : α → Bool) :
    (due a = false ∧ (i, a) ∈ (T.release due).items) ∨
      (due a = true ∧ i ∉ (T.release due).numbers) := by
  cases hdue : due a with
  | false => exact .inl ⟨rfl, mem_filter.mpr ⟨hi, by simp [hdue]⟩⟩
  | true =>
    refine .inr ⟨rfl, ?_⟩
    intro hmem
    obtain ⟨⟨j, b⟩, hkept, rfl⟩ := mem_map.mp hmem
    obtain ⟨hj, hnot⟩ := mem_filter.mp hkept
    -- Two open tickets with one number are the same ticket.
    have hsame := inj_on_of_nodup_map hsound.nodup hj hi rfl
    cases hsame
    simp [hdue] at hnot

end Numbers

/-- An edit of the stored values is an edit of the tickets. -/
lemma exists_edited {T : Tickets α} (left : α → δ → Option α) {edits : List (α × δ)}
    (h : T.values.Perm (edits.map Prod.fst)) :
    ∃ T' numbered, Edited left T T' numbered ∧
      numbered.map (fun e => (e.1.2, e.2)) = edits ∧
      T'.values.Perm (edits.filterMap fun e => left e.1 e.2) := by
  obtain ⟨items, hperm, hitems⟩ := exists_perm_of_map_perm Prod.snd h
  let numbered := items.zip (edits.map Prod.snd)
  have hlength : items.length = (edits.map Prod.snd).length := by
    simpa using congrArg length hitems
  have hedits : numbered.map (fun e => (e.1.2, e.2)) = edits := by
    have hzip : numbered.map (fun e => (e.1.2, e.2)) =
        (items.map Prod.snd).zip (edits.map Prod.snd) := zip_map_left.symm
    rw [hzip, hitems]
    exact (zip_of_prod rfl rfl).symm
  refine ⟨⟨T.next, numbered.filterMap (leftUnder left)⟩, numbered, ⟨?_, .refl _, rfl⟩, hedits, ?_⟩
  · rw [map_fst_zip hlength.le]
    exact hperm
  · unfold values
    rw [map_filterMap, ← hedits, filterMap_map]
    refine .of_eq (congrArg (filterMap · numbered) (funext fun e => ?_))
    simp [leftUnder, Function.comp_def]

lemma values_release {T : Tickets α} (due : α → Bool) :
    (T.release due).values = T.values.filter (!due ·) := by
  unfold release values
  rw [filter_map]
  rfl

end Tickets

end Shentu.Lib
