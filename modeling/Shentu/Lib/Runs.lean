import Mathlib

/-!
Rules for computations that can fail and for runs of a fallible step. A
computation is taken apart at its binds; a property that every step keeps is
kept by a run, which is the fold of the step over a list of inputs.
-/

namespace Shentu.Lib

open List

variable {ε α β σ : Type}

/-- Stop with `e` when the condition holds. -/
def failIf (c : Prop) [Decidable c] (e : ε) : Except ε Unit := if c then .error e else .ok ()

/-- The value of an option, or stop with `e` when there is none. -/
def orFail (o : Option α) (e : ε) : Except ε α :=
  match o with
  | some a => .ok a
  | none => .error e

variable {x : Except ε α} {e : ε} {a : α} {f : σ → α → Except ε σ} {as bs : List α} {s s' : σ}
  {P : σ → Prop} {c Q : σ → α → Prop}

@[simp] lemma bind_eq_ok {f : α → Except ε β} {b : β} :
    (x >>= f) = .ok b ↔ ∃ a, x = .ok a ∧ f a = .ok b := by
  cases x with
  | error e =>
    constructor
    · intro h
      cases h
    · rintro ⟨a, h, -⟩
      cases h
  | ok a =>
    constructor
    · intro h
      exact ⟨a, rfl, h⟩
    · rintro ⟨a', h, hf⟩
      cases h
      exact hf

lemma bind_eq_error {f : α → Except ε β} :
    (x >>= f) = .error e ↔ x = .error e ∨ ∃ a, x = .ok a ∧ f a = .error e := by
  cases x with
  | error e' =>
    constructor
    · intro h
      cases h
      exact .inl rfl
    · rintro (h | ⟨a, h, -⟩)
      · cases h
        rfl
      · cases h
  | ok a =>
    constructor
    · intro h
      exact .inr ⟨a, rfl, h⟩
    · rintro (h | ⟨a', h, hf⟩)
      · cases h
      · cases h
        exact hf

@[simp] lemma pure_eq_ok {b : α} : (pure a : Except ε α) = .ok b ↔ a = b := by
  constructor
  · intro h
    cases h
    rfl
  · rintro rfl
    rfl

@[simp] lemma failIf_eq_ok {c : Prop} [Decidable c] {u : Unit} : failIf c e = .ok u ↔ ¬ c := by
  unfold failIf
  split <;> simp_all

lemma failIf_eq_error {c : Prop} [Decidable c] {e' : ε} :
    failIf c e = .error e' ↔ c ∧ e = e' := by
  unfold failIf
  split <;> simp_all

@[simp] lemma orFail_eq_ok {o : Option α} : orFail o e = .ok a ↔ o = some a := by
  cases o <;> simp [orFail]

/-- The rules that take a computation apart at its binds, as one simp set. -/
lemma run_eq_ok :
    (∀ {ε α β : Type} {x : Except ε α} {f : α → Except ε β} {b : β},
      (x >>= f) = .ok b ↔ ∃ a, x = .ok a ∧ f a = .ok b) ∧
    (∀ {ε α : Type} {a b : α}, (pure a : Except ε α) = .ok b ↔ a = b) ∧
    (∀ {ε : Type} {e : ε} {c : Prop} [Decidable c] {u : Unit}, failIf c e = .ok u ↔ ¬ c) ∧
    (∀ {ε α : Type} {e : ε} {a : α} {o : Option α}, orFail o e = .ok a ↔ o = some a) ∧
    ∀ {b : Prop}, (∃ _ : Unit, b) ↔ b :=
  ⟨bind_eq_ok, pure_eq_ok, failIf_eq_ok, orFail_eq_ok, exists_const _⟩

/-- The reason why a computation stops, if it does. -/
def failure : Except ε α → Option ε
  | .ok _ => none
  | .error e => some e

lemma foldlM_cons_eq_ok :
    (a :: as).foldlM f s = .ok s' ↔ ∃ s1, f s a = .ok s1 ∧ as.foldlM f s1 = .ok s' := by
  rw [foldlM_cons, bind_eq_ok]

lemma foldlM_invariant (step : ∀ a ∈ as, ∀ s s', P s → f s a = .ok s' → P s') (hs : P s)
    (h : as.foldlM f s = .ok s') : P s' := by
  induction as generalizing s with
  | nil =>
    rw [foldlM_nil, pure_eq_ok] at h
    exact h ▸ hs
  | cons a as ih =>
    obtain ⟨s1, hstep, hrest⟩ := foldlM_cons_eq_ok.mp h
    refine ih (fun b hb => step b (mem_cons_of_mem a hb)) ?_ hrest
    exact step a mem_cons_self s s1 hs hstep

lemma foldlM_some_invariant {f : σ → α → Option σ} (step : ∀ a s s', P s → f s a = some s' → P s')
    (hs : P s) (h : as.foldlM f s = some s') : P s' := by
  induction as generalizing s with
  | nil =>
    cases h
    exact hs
  | cons a as ih =>
    rw [foldlM_cons, Option.bind_eq_bind, Option.bind_eq_some_iff] at h
    obtain ⟨s1, hstep, hrest⟩ := h
    exact ih (step a s s1 hs hstep) hrest

lemma reflTransGen_invariant {r : α → α → Prop} {P : α → Prop} (step : ∀ a b, P a → r a b → P b)
    {b : α} (h : Relation.ReflTransGen r a b) (ha : P a) : P b := by
  induction h with
  | refl => exact ha
  | tail _ hlast ih => exact step _ _ ih hlast

section Projection

variable {β' γ δ : Type} {ε' : Type}

lemma map_bind_eq {x : Except ε' α} {π : α → β'} {y : Except ε' β'} (hx : x.map π = y)
    {f : α → Except ε' γ} {ρ : γ → δ} {g : β' → Except ε' δ} (hf : ∀ a, (f a).map ρ = g (π a)) :
    (x >>= f).map ρ = y >>= g := by
  subst hx
  cases x with
  | ok a => exact hf a
  | error e => rfl

lemma bind_map_eq (x : Except ε' α) {f : α → Except ε' γ} {ρ : γ → δ} {g : α → Except ε' δ}
    (hf : ∀ a, (f a).map ρ = g a) : (x >>= f).map ρ = x >>= g := by
  cases x with
  | ok a => exact hf a
  | error e => rfl

lemma map_foldlM {s1 s2 : Type} {π : s1 → s2} {f : s1 → α → Except ε' s1}
    {g : s2 → α → Except ε' s2} (hstep : ∀ s a, (f s a).map π = g (π s) a) (as : List α) (s : s1) :
    (as.foldlM f s).map π = as.foldlM g (π s) := by
  induction as generalizing s with
  | nil => rfl
  | cons a as ih =>
    rw [foldlM_cons, foldlM_cons]
    exact map_bind_eq (hstep s a) ih

end Projection

/-- Every step of a run meets a condition on the state before it and its input. -/
def StepsMeet (c : σ → α → Prop) (f : σ → α → Except ε σ) : σ → List α → Prop
  | _, [] => True
  | s, a :: as => c s a ∧ ∀ s', f s a = .ok s' → StepsMeet c f s' as

instance StepsMeet.decidable (c : σ → α → Prop) [∀ s a, Decidable (c s a)]
    (f : σ → α → Except ε σ) : ∀ s as, Decidable (StepsMeet c f s as)
  | _, [] => isTrue trivial
  | s, a :: as =>
    match h : f s a with
    | .ok s' =>
      have := StepsMeet.decidable c f s' as
      decidable_of_iff (c s a ∧ StepsMeet c f s' as) (by simp [StepsMeet, h])
    | .error e => decidable_of_iff (c s a) (by simp [StepsMeet, h])

lemma stepsMeet_of_forall {c : α → Prop} (f : σ → α → Except ε σ) (s : σ)
    (h : ∀ a ∈ as, c a) : StepsMeet (fun _ a => c a) f s as := by
  induction as generalizing s with
  | nil => trivial
  | cons a as ih =>
    refine ⟨h a mem_cons_self, ?_⟩
    intro s' _
    exact ih s' (fun b hb => h b (mem_cons_of_mem a hb))

lemma StepsMeet.mono {d : σ → α → Prop}
    (h : StepsMeet c f s as) (hcd : ∀ s a, c s a → d s a) : StepsMeet d f s as := by
  induction as generalizing s with
  | nil => trivial
  | cons a as ih => exact ⟨hcd s a h.1, fun s' hs' => ih (h.2 s' hs')⟩

lemma StepsMeet.and {d : σ → α → Prop} (h : StepsMeet c f s as) (h' : StepsMeet d f s as) :
    StepsMeet (fun s a => c s a ∧ d s a) f s as := by
  induction as generalizing s with
  | nil => trivial
  | cons a as ih => exact ⟨⟨h.1, h'.1⟩, fun s' hs' => ih (h.2 s' hs') (h'.2 s' hs')⟩

lemma StepsMeet.of_map {τ : Type} {π : τ → σ} {f : τ → α → Except ε τ}
    {g : σ → α → Except ε σ} (hfg : ∀ s a, (f s a).map π = g (π s) a) {s : τ}
    (h : StepsMeet c g (π s) as) : StepsMeet (fun s a => c (π s) a) f s as := by
  induction as generalizing s with
  | nil => trivial
  | cons a as ih =>
    refine ⟨h.1, ?_⟩
    intro s' hs'
    refine ih (h.2 (π s') ?_)
    rw [← hfg, hs']
    rfl

lemma foldlM_append_eq_ok :
    (as ++ bs).foldlM f s = .ok s' ↔ ∃ s1, as.foldlM f s = .ok s1 ∧ bs.foldlM f s1 = .ok s' := by
  rw [foldlM_append, bind_eq_ok]

lemma stepsMeet_append :
    StepsMeet c f s (as ++ bs) ↔
      StepsMeet c f s as ∧ ∀ s', as.foldlM f s = .ok s' → StepsMeet c f s' bs := by
  induction as generalizing s with
  | nil =>
    constructor
    · intro h
      refine ⟨trivial, ?_⟩
      intro s' hs'
      rw [foldlM_nil, pure_eq_ok] at hs'
      exact hs' ▸ h
    · intro h
      exact h.2 s rfl
  | cons a as ih =>
    constructor
    · rintro ⟨ha, hrest⟩
      refine ⟨⟨ha, fun s1 hs1 => (ih.mp (hrest s1 hs1)).1⟩, ?_⟩
      intro s' hs'
      obtain ⟨s1, hs1, hfold⟩ := foldlM_cons_eq_ok.mp hs'
      exact (ih.mp (hrest s1 hs1)).2 s' hfold
    · rintro ⟨⟨ha, hrest⟩, hmore⟩
      refine ⟨ha, fun s1 hs1 => ih.mpr ⟨hrest s1 hs1, ?_⟩⟩
      intro s' hs'
      exact hmore s' (foldlM_cons_eq_ok.mpr ⟨s1, hs1, hs'⟩)

lemma foldlM_invariant_of_meets (step : ∀ a s s', P s → c s a → f s a = .ok s' → P s') (hs : P s)
    (hmeet : StepsMeet c f s as) (h : as.foldlM f s = .ok s') : P s' := by
  induction as generalizing s with
  | nil =>
    rw [foldlM_nil, pure_eq_ok] at h
    exact h ▸ hs
  | cons a as ih =>
    obtain ⟨s1, hstep, hrest⟩ := foldlM_cons_eq_ok.mp h
    exact ih (step a s s1 hs hmeet.1 hstep) (hmeet.2 s1 hstep) hrest

/-- What is observed along a run: each step adds what is seen in the state before it. -/
def observations {β : Type} (obs : σ → α → List β) (f : σ → α → Except ε σ) : σ → List α → List β
  | _, [] => []
  | s, a :: as => obs s a ++
      match f s a with
      | .ok s' => observations obs f s' as
      | .error _ => []

lemma observations_cons {β : Type} {obs : σ → α → List β} (h : f s a = .ok s') :
    observations obs f s (a :: as) = obs s a ++ observations obs f s' as := by
  rw [observations, h]

lemma observations_append {β : Type} {obs : σ → α → List β} (h : as.foldlM f s = .ok s') :
    observations obs f s (as ++ bs) = observations obs f s as ++ observations obs f s' bs := by
  induction as generalizing s with
  | nil =>
    rw [foldlM_nil, pure_eq_ok] at h
    rw [h]
    rfl
  | cons a as ih =>
    obtain ⟨s1, hstep, hrest⟩ := foldlM_cons_eq_ok.mp h
    rw [cons_append, observations_cons hstep, observations_cons hstep, ih hrest,
      append_assoc]

lemma foldlM_observed {β : Type} {P : σ → List β → Prop} {obs : σ → α → List β}
    (step : ∀ a s s' l, P s l → c s a → f s a = .ok s' → P s' (l ++ obs s a)) {l : List β}
    (hs : P s l) (hmeet : StepsMeet c f s as) (h : as.foldlM f s = .ok s') :
    P s' (l ++ observations obs f s as) := by
  induction as generalizing s l with
  | nil =>
    rw [foldlM_nil, pure_eq_ok] at h
    rw [observations, append_nil]
    exact h ▸ hs
  | cons a as ih =>
    obtain ⟨s1, hstep, hrest⟩ := foldlM_cons_eq_ok.mp h
    rw [observations_cons hstep, ← append_assoc]
    exact ih (step a s s1 l hs hmeet.1 hstep) (hmeet.2 s1 hstep) hrest

lemma foldlM_settles {R : σ → α → Prop} (settle : ∀ a ∈ as, ∀ s s', f s a = .ok s' → R s' a)
    (keep : ∀ a ∈ as, ∀ s s' b, f s a = .ok s' → R s b → R s' b) (h : as.foldlM f s = .ok s') :
    ∀ a ∈ as, R s' a := by
  induction as generalizing s with
  | nil => exact fun _ ha => absurd ha not_mem_nil
  | cons a as ih =>
    obtain ⟨s1, hstep, hrest⟩ := foldlM_cons_eq_ok.mp h
    have hkeep : ∀ b ∈ as, ∀ s s' b', f s b = .ok s' → R s b' → R s' b' :=
      fun b hb => keep b (mem_cons_of_mem a hb)
    refine forall_mem_cons.mpr ⟨?_, ?_⟩
    · exact foldlM_invariant (P := fun s => R s a)
        (fun b hb s s' hs hb' => hkeep b hb s s' a hb' hs)
        (settle a mem_cons_self s s1 hstep) hrest
    · exact ih (fun b hb => settle b (mem_cons_of_mem a hb)) hkeep hrest

lemma foldlM_succeeds (step : ∀ a s, P s → c s a → ∃ s', f s a = .ok s' ∧ P s') (hs : P s)
    (hmeet : StepsMeet c f s as) : ∃ s', as.foldlM f s = .ok s' ∧ P s' := by
  induction as generalizing s with
  | nil => exact ⟨s, rfl, hs⟩
  | cons a as ih =>
    obtain ⟨s1, hstep, hs1⟩ := step a s hs hmeet.1
    obtain ⟨s', hrest, hs'⟩ := ih hs1 (hmeet.2 s1 hstep)
    exact ⟨s', foldlM_cons_eq_ok.mpr ⟨s1, hstep, hrest⟩, hs'⟩

lemma foldlM_distinct_succeeds
    (step : ∀ a s, P s → Q s a → ∃ s', f s a = .ok s' ∧ P s' ∧ ∀ b, b ≠ a → Q s b → Q s' b)
    (hs : P s) (hq : ∀ a ∈ as, Q s a) (hnodup : as.Nodup) : ∃ s', as.foldlM f s = .ok s' := by
  induction as generalizing s with
  | nil => exact ⟨s, rfl⟩
  | cons a as ih =>
    obtain ⟨hnot, hnodup'⟩ := nodup_cons.mp hnodup
    obtain ⟨s1, hstep, hs1, hkeep⟩ := step a s hs (hq a mem_cons_self)
    have hq1 : ∀ b ∈ as, Q s1 b := by
      intro b hb
      exact hkeep b (fun heq => hnot (heq ▸ hb)) (hq b (mem_cons_of_mem a hb))
    obtain ⟨s', hrest⟩ := ih hs1 hq1 hnodup'
    exact ⟨s', foldlM_cons_eq_ok.mpr ⟨s1, hstep, hrest⟩⟩

/-- A run over distinct inputs, where each step needs a condition on its own input that no
other step breaks and settles its own input for good. -/
lemma foldlM_distinct_each {R : σ → α → Prop}
    (step : ∀ a ∈ as, ∀ s s', P s → Q s a → f s a = .ok s' →
      P s' ∧ R s' a ∧ ∀ b, b ≠ a → (Q s b → Q s' b) ∧ (R s b → R s' b))
    (hs : P s) (hq : ∀ a ∈ as, Q s a) (hnodup : as.Nodup)
    (h : as.foldlM f s = .ok s') : P s' ∧ ∀ a ∈ as, R s' a := by
  induction as generalizing s P with
  | nil =>
    rw [foldlM_nil, pure_eq_ok] at h
    refine ⟨h ▸ hs, ?_⟩
    intro a ha
    cases ha
  | cons a as ih =>
    obtain ⟨s1, hstep, hrest⟩ := foldlM_cons_eq_ok.mp h
    obtain ⟨hnot, hnodup'⟩ := nodup_cons.mp hnodup
    obtain ⟨hs1, ha, hkeep⟩ := step a mem_cons_self s s1 hs (hq a mem_cons_self) hstep
    have hothers : ∀ b ∈ as, b ≠ a := fun b hb heq => hnot (heq ▸ hb)
    -- The settled input is carried along as a part of the invariant.
    have hcarry : ∀ b ∈ as, ∀ s2 s3, P s2 ∧ R s2 a → Q s2 b → f s2 b = .ok s3 →
        (P s3 ∧ R s3 a) ∧ R s3 b ∧ ∀ b', b' ≠ b → (Q s2 b' → Q s3 b') ∧ (R s2 b' → R s3 b') := by
      rintro b hb s2 s3 ⟨hs2, ha2⟩ hq2 hstep2
      obtain ⟨hs3, hb3, hkeep3⟩ := step b (mem_cons_of_mem a hb) s2 s3 hs2 hq2 hstep2
      exact ⟨⟨hs3, (hkeep3 a (hothers b hb).symm).2 ha2⟩, hb3, hkeep3⟩
    obtain ⟨⟨hs', ha'⟩, hall⟩ := ih hcarry ⟨hs1, ha⟩
      (fun b hb => (hkeep b (hothers b hb)).1 (hq b (mem_cons_of_mem a hb))) hnodup' hrest
    refine ⟨hs', ?_⟩
    intro b hb
    rcases mem_cons.mp hb with rfl | hb
    · exact ha'
    · exact hall b hb

lemma foldlM_distinct
    (step : ∀ a ∈ as, ∀ s s', P s → Q s a → f s a = .ok s' → P s' ∧ ∀ b, b ≠ a → Q s b → Q s' b)
    (hs : P s) (hq : ∀ a ∈ as, Q s a) (hnodup : as.Nodup) (h : as.foldlM f s = .ok s') : P s' := by
  refine (foldlM_distinct_each (R := fun _ _ => True) ?_ hs hq hnodup h).1
  intro a ha s s' hs hqa hstep
  obtain ⟨hs', hkeep⟩ := step a ha s s' hs hqa hstep
  exact ⟨hs', trivial, fun b hb => ⟨hkeep b hb, id⟩⟩

lemma foldlM_fails (step : ∀ a ∈ as, ∀ s s', P s → f s a = .ok s' → P s') (hs : P s)
    (h : as.foldlM f s = .error e) : ∃ s1, ∃ a ∈ as, P s1 ∧ f s1 a = .error e := by
  induction as generalizing s with
  | nil => cases h
  | cons a as ih =>
    rw [foldlM_cons] at h
    rcases bind_eq_error.mp h with hstep | ⟨s1, hstep, hrest⟩
    · exact ⟨s, a, mem_cons_self, hs, hstep⟩
    · obtain ⟨s2, b, hb, hP, hfail⟩ := ih (fun b hb => step b (mem_cons_of_mem a hb))
        (step a mem_cons_self s s1 hs hstep) hrest
      exact ⟨s2, b, mem_cons_of_mem a hb, hP, hfail⟩

/-- The computation succeeds with a value that meets `p`. -/
def OkAnd (r : Except ε α) (p : α → Prop) : Prop :=
  match r with
  | .ok a => p a
  | .error _ => False

instance (r : Except ε α) (p : α → Prop) [DecidablePred p] : Decidable (OkAnd r p) :=
  match r with
  | .ok a => inferInstanceAs (Decidable (p a))
  | .error _ => inferInstanceAs (Decidable False)

lemma OkAnd.exists {r : Except ε α} {p : α → Prop} (h : OkAnd r p) : ∃ a, r = .ok a ∧ p a := by
  cases r with
  | ok a => exact ⟨a, rfl, h⟩
  | error e => exact h.elim

instance decidableOkAnd (r : Except ε α) (p : α → Prop) [DecidablePred p] :
    Decidable (∃ a, r = .ok a ∧ p a) :=
  decidable_of_iff (OkAnd r p) ⟨OkAnd.exists, by rintro ⟨a, rfl, h⟩; exact h⟩

instance decidableOk (r : Except ε α) : Decidable (∃ a, r = .ok a) :=
  decidable_of_iff (∃ a, r = .ok a ∧ True) (by simp only [and_true])

/-- There is a value and it meets `p`. -/
def SomeAnd (o : Option α) (p : α → Prop) : Prop :=
  match o with
  | some a => p a
  | none => False

instance (o : Option α) (p : α → Prop) [DecidablePred p] : Decidable (SomeAnd o p) :=
  match o with
  | some a => inferInstanceAs (Decidable (p a))
  | none => inferInstanceAs (Decidable False)

lemma SomeAnd.exists {o : Option α} {p : α → Prop} (h : SomeAnd o p) : ∃ a, o = some a ∧ p a := by
  cases o with
  | some a => exact ⟨a, rfl, h⟩
  | none => exact h.elim

instance decidableSomeAnd (o : Option α) (p : α → Prop) [DecidablePred p] :
    Decidable (∃ a, o = some a ∧ p a) :=
  decidable_of_iff (SomeAnd o p) ⟨SomeAnd.exists, by rintro ⟨a, rfl, h⟩; exact h⟩

end Shentu.Lib
