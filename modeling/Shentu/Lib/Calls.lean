import Mathlib

/-!
Machines that call each other. A frame takes steps until it ends with a result, or it calls: then
a frame of its own is run to its end, and the caller goes on with the result. The rules are for
whole runs: what every step keeps, a bound on the number of steps from a potential, and when two
machines run alike.
-/

namespace Shentu.Lib

open Option List

variable {φ κ ρ : Type}

/-- What a frame does next. -/
inductive Outcome (φ κ ρ : Type)
  | next (frame : φ)
  | done (result : ρ)
  | call (frame : φ) (request : κ)

/-- A frame goes on, and then has a property. -/
def Outcome.NextAnd (o : Outcome φ κ ρ) (P : φ → Prop) : Prop :=
  match o with
  | .next f => P f
  | _ => False

instance Outcome.NextAnd.decidable (o : Outcome φ κ ρ) (P : φ → Prop) [DecidablePred P] :
    Decidable (o.NextAnd P) :=
  match o with
  | .next f => inferInstanceAs (Decidable (P f))
  | .done _ => isFalse id
  | .call _ _ => isFalse id

lemma Outcome.NextAnd.exists {o : Outcome φ κ ρ} {P : φ → Prop} (h : o.NextAnd P) :
    ∃ f, o = .next f ∧ P f := by
  cases o with
  | next f => exact ⟨f, rfl, h⟩
  | done | call => exact h.elim

structure CallMachine (φ κ ρ : Type) where
  step : φ → Outcome φ κ ρ
  enter : φ → κ → φ
  resume : φ → κ → ρ → φ

namespace CallMachine

variable (m : CallMachine φ κ ρ)

/-- The result of a frame and the number of steps, its own and those of the frames it calls, or
nothing if the fuel does not last. -/
def run : Nat → φ → Option (ρ × Nat)
  | 0, _ => none
  | fuel + 1, f =>
    match m.step f with
    | .next f' => do
      let (r, n) ← run fuel f'
      return (r, n + 1)
    | .done r => some (r, 1)
    | .call f' c => do
      let (r, n) ← run fuel (m.enter f' c)
      let (r', n') ← run fuel (m.resume f' c r)
      return (r', n + n' + 1)

/-- All frames of a run, with those it calls, meet a condition before their steps. -/
def Meets (q : φ → Prop) : Nat → φ → Prop
  | 0, _ => True
  | fuel + 1, f => q f ∧
      match m.step f with
      | .next f' => Meets q fuel f'
      | .done _ => True
      | .call f' c => Meets q fuel (m.enter f' c) ∧
          match m.run fuel (m.enter f' c) with
          | some (r, _) => Meets q fuel (m.resume f' c r)
          | none => True

instance Meets.decidable (q : φ → Prop) [DecidablePred q] : ∀ fuel f, Decidable (m.Meets q fuel f)
  | 0, _ => isTrue trivial
  | fuel + 1, f =>
    have rest : Decidable (match m.step f with
        | .next f' => m.Meets q fuel f'
        | .done _ => True
        | .call f' c => m.Meets q fuel (m.enter f' c) ∧
            match m.run fuel (m.enter f' c) with
            | some (r, _) => m.Meets q fuel (m.resume f' c r)
            | none => True) :=
      match m.step f with
      | .next f' => Meets.decidable q fuel f'
      | .done _ => isTrue trivial
      | .call f' c =>
        have called := Meets.decidable q fuel (m.enter f' c)
        have resumed : Decidable (match m.run fuel (m.enter f' c) with
            | some (r, _) => m.Meets q fuel (m.resume f' c r)
            | none => True) :=
          match m.run fuel (m.enter f' c) with
          | some (r, _) => Meets.decidable q fuel (m.resume f' c r)
          | none => isTrue trivial
        @instDecidableAnd _ _ called resumed
    @instDecidableAnd (q f) _ inferInstance rest

/-- The runs in which all frames meet a condition before their steps. -/
inductive Runs (q : φ → Prop) : φ → ρ → Nat → Prop
  | next {f f' : φ} {r : ρ} {n : Nat} (hq : q f) (hstep : m.step f = .next f')
      (hrun : Runs q f' r n) : Runs q f r (n + 1)
  | done {f : φ} {r : ρ} (hq : q f) (hstep : m.step f = .done r) : Runs q f r 1
  | call {f f' : φ} {c : κ} {r r' : ρ} {n n' : Nat} (hq : q f) (hstep : m.step f = .call f' c)
      (hcall : Runs q (m.enter f' c) r n) (hrun : Runs q (m.resume f' c r) r' n') :
      Runs q f r' (n + n' + 1)

variable {m} {q : φ → Prop} {fuel : Nat} {f : φ} {r : ρ} {n : Nat}

lemma runs_of_run (hmeets : m.Meets q fuel f) (h : m.run fuel f = some (r, n)) :
    m.Runs q f r n := by
  induction fuel generalizing f r n with
  | zero => cases h
  | succ fuel ih =>
    rw [run] at h
    obtain ⟨hq, hmeets⟩ := hmeets
    cases hstep : m.step f with
    | next f' =>
      simp only [hstep, bind_eq_bind, bind_eq_some_iff, Prod.exists] at h hmeets
      obtain ⟨r1, n1, hrun, heq⟩ := h
      cases heq
      exact .next hq hstep (ih hmeets hrun)
    | done r1 =>
      simp only [hstep] at h
      cases h
      exact .done hq hstep
    | call f' c =>
      simp only [hstep, bind_eq_bind, bind_eq_some_iff, Prod.exists] at h hmeets
      obtain ⟨r1, n1, hcall, r2, n2, hrun, heq⟩ := h
      cases heq
      simp only [hcall] at hmeets
      exact .call hq hstep (ih hmeets.1 hcall) (ih hmeets.2 hrun)

lemma Meets.mono {p : φ → Prop} (hqp : ∀ f, q f → p f) (h : m.Meets q fuel f) :
    m.Meets p fuel f := by
  induction fuel generalizing f with
  | zero => trivial
  | succ fuel ih =>
    obtain ⟨hq, hrest⟩ := h
    refine ⟨hqp f hq, ?_⟩
    cases hstep : m.step f with
    | next f' =>
      simp only [hstep] at hrest
      exact ih hrest
    | done r => trivial
    | call f' c =>
      simp only [hstep] at hrest
      refine ⟨ih hrest.1, ?_⟩
      have hresumed := hrest.2
      cases hrun : m.run fuel (m.enter f' c) with
      | none => trivial
      | some p =>
        simp only [hrun] at hresumed
        exact ih hresumed

lemma run_mono {fuel' : Nat} (hle : fuel ≤ fuel') (h : m.run fuel f = some (r, n)) :
    m.run fuel' f = some (r, n) := by
  induction fuel generalizing fuel' f r n with
  | zero => cases h
  | succ fuel ih =>
    obtain ⟨fuel', rfl⟩ : ∃ k, fuel' = k + 1 := ⟨fuel' - 1, by omega⟩
    have hle' : fuel ≤ fuel' := by omega
    rw [run] at h ⊢
    cases hstep : m.step f with
    | next f' =>
      simp only [hstep, bind_eq_bind, bind_eq_some_iff, Prod.exists] at h ⊢
      obtain ⟨r1, n1, hrun, heq⟩ := h
      exact ⟨r1, n1, ih hle' hrun, heq⟩
    | done r1 =>
      simp only [hstep] at h ⊢
      exact h
    | call f' c =>
      simp only [hstep, bind_eq_bind, bind_eq_some_iff, Prod.exists] at h ⊢
      obtain ⟨r1, n1, hcall, r2, n2, hrun, heq⟩ := h
      exact ⟨r1, n1, ih hle' hcall, r2, n2, ih hle' hrun, heq⟩

lemma run_det {fuel' n' : Nat} {r' : ρ} (h : m.run fuel f = some (r, n))
    (h' : m.run fuel' f = some (r', n')) : r = r' ∧ n = n' := by
  have hmax := run_mono (le_max_left fuel fuel') h
  rw [run_mono (le_max_right fuel fuel') h'] at hmax
  cases hmax
  exact ⟨rfl, rfl⟩

/-- A potential that pays for every step: a frame ends, and the steps of it and of the frames it
calls, with what its result has left, are at most its potential. A call has to pay for the frame it
calls as well, but not for what that frame leaves. -/
lemma run_of_potential {inv : φ → Prop} {post : φ → ρ → Prop} {Φ : φ → Nat} {Ψ : ρ → Nat}
    (hnext : ∀ f f', inv f → m.step f = .next f' →
      inv f' ∧ Φ f' + 1 ≤ Φ f ∧ ∀ r, post f' r → post f r)
    (hdone : ∀ f r, inv f → m.step f = .done r → post f r ∧ Ψ r + 1 ≤ Φ f)
    (hcall : ∀ f f' c, inv f → m.step f = .call f' c → inv (m.enter f' c) ∧
      Φ (m.enter f' c) + 1 ≤ Φ f ∧ ∀ r, post (m.enter f' c) r → Ψ r + 1 ≤ Φ (m.enter f' c) →
        inv (m.resume f' c r) ∧ Φ (m.enter f' c) + Φ (m.resume f' c r) + 1 ≤ Φ f + Ψ r ∧
          ∀ r', post (m.resume f' c r) r' → post f r')
    (f : φ) (hf : inv f) :
    ∃ fuel r n, m.run fuel f = some (r, n) ∧ post f r ∧ n + Ψ r ≤ Φ f := by
  induction hk : Φ f using Nat.strong_induction_on generalizing f with
  | _ k ih =>
    subst hk
    cases hstep : m.step f with
    | next f' =>
      obtain ⟨hf', hless, hpost⟩ := hnext f f' hf hstep
      obtain ⟨fuel, r, n, hrun, hr, hn⟩ := ih (Φ f') (by omega) f' hf' rfl
      refine ⟨fuel + 1, r, n + 1, ?_, hpost r hr, by omega⟩
      simp [run, hstep, hrun]
    | done r =>
      obtain ⟨hr, hless⟩ := hdone f r hf hstep
      exact ⟨1, r, 1, by simp [run, hstep], hr, by omega⟩
    | call f' c =>
      obtain ⟨henter, hless, hback⟩ := hcall f f' c hf hstep
      obtain ⟨fuel1, r1, n1, hrun1, hr1, hn1⟩ := ih _ (by omega) _ henter rfl
      have hleft : Ψ r1 + 1 ≤ Φ (m.enter f' c) := by
        have hpos : 0 < n1 := by
          cases fuel1 with
          | zero => cases hrun1
          | succ fuel1 =>
            rw [run] at hrun1
            split at hrun1
            · simp only [bind_eq_bind, bind_eq_some_iff, Prod.exists] at hrun1
              obtain ⟨_, _, -, heq⟩ := hrun1
              cases heq
              omega
            · cases hrun1
              omega
            · simp only [bind_eq_bind, bind_eq_some_iff, Prod.exists] at hrun1
              obtain ⟨_, _, -, _, _, -, heq⟩ := hrun1
              cases heq
              omega
        omega
      obtain ⟨hresume, hless', hpost⟩ := hback r1 hr1 hleft
      obtain ⟨fuel2, r2, n2, hrun2, hr2, hn2⟩ := ih _ (by omega) _ hresume rfl
      refine ⟨max fuel1 fuel2 + 1, r2, n1 + n2 + 1, ?_, hpost r2 hr2, by omega⟩
      have h1 := run_mono (le_max_left fuel1 fuel2) hrun1
      have h2 := run_mono (le_max_right fuel1 fuel2) hrun2
      simp [run, hstep, h1, h2]

section Observe

variable {β γ : Type}

/-- What is observed before the steps of a run, its own and those of the frames it calls. -/
def observe (m : CallMachine φ κ ρ) (obs : φ → List β) : Nat → φ → List β
  | 0, _ => []
  | fuel + 1, f => obs f ++
      match m.step f with
      | .next f' => observe m obs fuel f'
      | .done _ => []
      | .call f' c => observe m obs fuel (m.enter f' c) ++
          match m.run fuel (m.enter f' c) with
          | some (r, _) => observe m obs fuel (m.resume f' c r)
          | none => []

lemma filterMap_observe (m : CallMachine φ κ ρ) (obs : φ → List β) (g : β → Option γ) (fuel : Nat)
    (f : φ) : (m.observe obs fuel f).filterMap g =
      m.observe (fun f => (obs f).filterMap g) fuel f := by
  induction fuel generalizing f with
  | zero => rfl
  | succ fuel ih =>
    rw [observe, observe, filterMap_append]
    congr 1
    cases m.step f with
    | next f' => exact ih f'
    | done r => rfl
    | call f' c =>
      rw [filterMap_append, ih]
      congr 1
      cases m.run fuel (m.enter f' c) with
      | none => rfl
      | some p => exact ih _

lemma forall_mem_observe {obs : φ → List β} {P : β → Prop} (h : ∀ f, ∀ b ∈ obs f, P b)
    (fuel : Nat) (f : φ) : ∀ b ∈ m.observe obs fuel f, P b := by
  induction fuel generalizing f with
  | zero => exact fun b hb => absurd hb not_mem_nil
  | succ fuel ih =>
    rw [observe]
    refine forall_mem_append.mpr ⟨h f, ?_⟩
    cases m.step f with
    | next f' => exact ih f'
    | done r => exact fun b hb => absurd hb not_mem_nil
    | call f' c =>
      refine forall_mem_append.mpr ⟨ih _, ?_⟩
      cases m.run fuel (m.enter f' c) with
      | none => exact fun b hb => absurd hb not_mem_nil
      | some p => exact ih _

/-- A counter that only calls count up, and by one: the numbers that are observed increase along a
run, and they lie between the counters at its start and at its end. -/
lemma observe_counter {obs : φ → List Nat} (count : φ → Nat) (final : ρ → Nat) {bound : Nat}
    (hnext : ∀ f f', m.step f = .next f' → obs f = [] ∧ count f' = count f)
    (hdone : ∀ f r, m.step f = .done r → obs f = [] ∧ final r = count f)
    (hcall : ∀ f f' c, m.step f = .call f' c → count f + 1 < bound →
      (obs f = [] ∧ count (m.enter f' c) = count f ∨
        obs f = [count f + 1] ∧ count (m.enter f' c) = count f + 1) ∧
      ∀ r, count (m.resume f' c r) = final r)
    (h : m.run fuel f = some (r, n)) (hbound : count f + n < bound) :
    (m.observe obs fuel f).Pairwise (· < ·) ∧
      (∀ k ∈ m.observe obs fuel f, count f < k ∧ k ≤ final r) ∧
      count f ≤ final r ∧ final r ≤ count f + n := by
  induction fuel generalizing f r n with
  | zero => cases h
  | succ fuel ih =>
    rw [run] at h
    rw [observe]
    cases hstep : m.step f with
    | next f' =>
      simp only [hstep, bind_eq_bind, bind_eq_some_iff, Prod.exists] at h ⊢
      obtain ⟨r1, n1, hrun, heq⟩ := h
      cases heq
      obtain ⟨hnone, hcount⟩ := hnext f f' hstep
      obtain ⟨hsorted, hrange, hle, hn⟩ := ih hrun (by omega)
      rw [hnone, nil_append]
      rw [hcount] at hrange hle hn
      exact ⟨hsorted, hrange, hle, by omega⟩
    | done r1 =>
      simp only [hstep] at h ⊢
      cases h
      obtain ⟨hnone, hfinal⟩ := hdone f _ hstep
      rw [hnone, hfinal, nil_append]
      exact ⟨List.Pairwise.nil, fun k hk => absurd hk not_mem_nil, le_rfl, by omega⟩
    | call f' c =>
      simp only [hstep, bind_eq_bind, bind_eq_some_iff, Prod.exists] at h ⊢
      obtain ⟨r1, n1, hrun1, r2, n2, hrun2, heq⟩ := h
      cases heq
      obtain ⟨hobs, hresume⟩ := hcall f f' c hstep (by omega)
      have hstart : count f ≤ count (m.enter f' c) ∧ count (m.enter f' c) ≤ count f + 1 ∧
          ∀ k ∈ obs f, count f < k ∧ k ≤ count (m.enter f' c) := by
        rcases hobs with ⟨hnone, hsame⟩ | ⟨hone, hnext⟩
        · rw [hnone, hsame]
          exact ⟨le_rfl, by omega, fun k hk => absurd hk not_mem_nil⟩
        · rw [hone, hnext]
          refine ⟨by omega, le_rfl, ?_⟩
          intro k hk
          cases mem_singleton.mp hk
          exact ⟨by omega, le_rfl⟩
      have hsingle : (obs f).Pairwise (· < ·) := by
        rcases hobs with ⟨hnone, -⟩ | ⟨hone, -⟩
        · rw [hnone]
          exact List.Pairwise.nil
        · rw [hone]
          exact pairwise_singleton _ _
      obtain ⟨hsorted1, hrange1, hle1, hn1⟩ := ih hrun1 (by omega)
      have hback := hresume r1
      obtain ⟨hsorted2, hrange2, hle2, hn2⟩ := ih hrun2 (by omega)
      rw [hback] at hrange2 hle2 hn2
      rw [hrun1]
      refine ⟨?_, ?_, by omega, by omega⟩
      · refine pairwise_append.mpr ⟨hsingle, pairwise_append.mpr
          ⟨hsorted1, hsorted2, ?_⟩, ?_⟩
        · intro a ha b hb
          have hlow := (hrange1 a ha).2
          have hhigh := (hrange2 b hb).1
          omega
        · intro a ha b hb
          have hlow := (hstart.2.2 a ha).2
          rcases mem_append.mp hb with hb | hb
          · have hhigh := (hrange1 b hb).1
            omega
          · have hhigh := (hrange2 b hb).1
            omega
      · intro k hk
        rcases mem_append.mp hk with hk | hk
        · have hkf := hstart.2.2 k hk
          omega
        · rcases mem_append.mp hk with hk | hk
          · have hk1 := hrange1 k hk
            omega
          · have hk2 := hrange2 k hk
            omega

end Observe

end CallMachine

end Shentu.Lib
