import Shentu.Shield.Unbonding
import Shentu.Shield.Payout

/-!
The unbonding delegations the staking module keeps, as far as the shield module reads and writes
them. There is one record for each delegator and validator, with a list of entries, and a queue
that holds pairs of a delegator and a validator under the completion times of entries. The laws
say what each keeper function does to a view of the world, as the staking, supply and account
modules document it.
-/

namespace Shentu

open Lib List Table

variable {σ : Type}

abbrev DVKey := Nat ×ₗ Nat

def DVPair.key (p : DVPair) : DVKey := toLex (p.delegatorAddress, p.validatorAddress)

lemma DVPair.key_inj {p p' : DVPair} : p.key = p'.key ↔ p = p' := by
  rw [key, key, toLex_inj, Prod.mk.injEq]
  cases p
  cases p'
  simp

variable (u : UnbondingDelegation)

def UnbondingDelegation.pair : DVPair :=
  ⟨u.delegatorAddress, u.validatorAddress⟩

def UnbondingDelegation.key : DVKey := u.pair.key

/-- The entries of one unbonding delegation, each on its own. -/
def UnbondingDelegation.parts : List UnbondingPart :=
  u.entries.map (fun e => ⟨u.delegatorAddress, u.validatorAddress, e⟩)

namespace UnbondingPart

variable (p : UnbondingPart)

def pair : DVPair := ⟨p.delegatorAddress, p.validatorAddress⟩

def balance : Int := p.entry.balance

def completionTime : Time := p.entry.completionTime

/-- A part out of which some of the balance is paid. -/
def reduced (x : Int) : UnbondingPart :=
  { p with entry := { p.entry with balance := p.entry.balance - x } }

lemma reduced_zero : p.reduced 0 = p := by
  unfold reduced
  rw [sub_zero]

end UnbondingPart

/-- The unbonding records, the unbonding queue, the coins of the pools that a payout from an
unbonding touches, and the accounts there are. -/
structure StakingView where
  records : Table UnbondingDelegation.key
  queue : TimeQueue DVPair
  notBonded : Int
  shield : Int
  hasAccount : AccAddress → Bool

namespace StakingView

variable (v : StakingView)

/-- All entries of all unbonding delegations. -/
def parts : List UnbondingPart :=
  v.records.rows.flatMap UnbondingDelegation.parts

/-- The entries of the unbonding delegations of one address. -/
def partsOf (a : AccAddress) : List UnbondingPart :=
  v.parts.filter (fun p => p.delegatorAddress = a)

/-- The queue has exactly one pair for each entry, in the slice of its completion time. -/
def InStep : Prop :=
  ∀ (pair : DVPair) (t : Time), (v.queue.slice t).count pair =
    v.parts.countP (fun p => p.pair = pair && p.completionTime = t)

/-- The pairs of the other delegators in a slice, in their order. -/
def othersAt (a : AccAddress) (t : Time) : List DVPair :=
  (v.queue.slice t).filter (fun pair => pair.delegatorAddress ≠ a)

lemma mem_parts {v : StakingView} {p : UnbondingPart} :
    p ∈ v.parts ↔ ∃ u, v.records.get p.pair.key = some u ∧ p.entry ∈ u.entries := by
  unfold parts
  rw [mem_flatMap]
  constructor
  · rintro ⟨u, hu, hp⟩
    obtain ⟨e, he, rfl⟩ := mem_map.mp hp
    exact ⟨u, Table.get_of_mem hu, he⟩
  · rintro ⟨u, hu, he⟩
    refine ⟨u, mem_of_get hu, mem_map.mpr ⟨p.entry, he, ?_⟩⟩
    have hkey : u.key = p.pair.key := key_of_get hu
    have hkey : u.pair = p.pair := DVPair.key_inj.mp hkey
    obtain ⟨hdel, hval⟩ := DVPair.mk.inj hkey
    rw [hdel, hval]

lemma InStep.mem_slice {v : StakingView} (h : v.InStep) {p : UnbondingPart} (hp : p ∈ v.parts) :
    p.pair ∈ v.queue.slice p.completionTime := by
  apply count_pos_iff.mp
  rw [h p.pair p.completionTime]
  exact countP_pos_iff.mpr ⟨p, hp, by simp⟩

/-- It is enough to compare the pairs that are in the queue and those of the entries. -/
lemma inStep_iff : v.InStep ↔
      (∀ s ∈ v.queue.rows, ∀ pair ∈ s.entries, (v.queue.slice s.time).count pair =
        v.parts.countP (fun p => p.pair = pair && p.completionTime = s.time)) ∧
      (∀ q ∈ v.parts, (v.queue.slice q.completionTime).count q.pair =
        v.parts.countP (fun p => p.pair = q.pair && p.completionTime = q.completionTime)) := by
  constructor
  · exact fun h => ⟨fun s _ pair _ => h pair s.time, fun q _ => h q.pair q.completionTime⟩
  · rintro ⟨hqueue, hparts⟩ pair t
    by_cases hmem : pair ∈ v.queue.slice t
    · obtain ⟨s, hs, hpair⟩ : ∃ s, v.queue.get t = some s ∧ pair ∈ s.entries := by
        unfold TimeQueue.slice at hmem
        cases hget : v.queue.get t with
        | none =>
          rw [hget] at hmem
          exact absurd hmem not_mem_nil
        | some s =>
          rw [hget] at hmem
          exact ⟨s, rfl, hmem⟩
      rw [← key_of_get hs]
      exact hqueue s (mem_of_get hs) pair hpair
    · by_cases hpart : ∃ q ∈ v.parts, q.pair = pair ∧ q.completionTime = t
      · obtain ⟨q, hq, rfl, rfl⟩ := hpart
        exact hparts q hq
      · rw [count_eq_zero_of_not_mem hmem, eq_comm, countP_eq_zero]
        intro q hq hcond
        simp only [Bool.and_eq_true, decide_eq_true_eq] at hcond
        exact hpart ⟨q, hq, hcond⟩

instance (v : StakingView) : Decidable v.InStep := decidable_of_iff _ v.inStep_iff.symm

/-- What a step that concerns the unbondings of one address leaves as it is. The pairs of the
other delegators are safe where the queue is in step with the entries. -/
structure OwnOnly (a : AccAddress) (v v' : StakingView) : Prop where
  records : ∀ pair : DVPair, pair.delegatorAddress ≠ a →
    v'.records.get pair.key = v.records.get pair.key
  accounts : v'.hasAccount = v.hasAccount
  inStep : v.InStep → v'.InStep
  queue : v.InStep → ∀ t, v'.othersAt a t = v.othersAt a t

lemma OwnOnly.refl (a : AccAddress) (v : StakingView) : OwnOnly a v v :=
  ⟨fun _ _ => rfl, rfl, id, fun _ _ => rfl⟩

lemma OwnOnly.trans {a : AccAddress} {v v' v'' : StakingView} (h : OwnOnly a v v')
    (h' : OwnOnly a v' v'') : OwnOnly a v v'' where
  records pair hpair := (h'.records pair hpair).trans (h.records pair hpair)
  accounts := h'.accounts.trans h.accounts
  inStep hv := h'.inStep (h.inStep hv)
  queue hv t := (h'.queue (h.inStep hv) t).trans (h.queue hv t)

end StakingView

/-- The documented behaviour of the keepers on unbonding delegations, their queue and the
payments out of the pool of tokens that are not bonded. -/
structure UnbondingLaws (k : Keepers σ) where
  view : σ → StakingView
  getAll : ∀ w a, k.getAllUnbondingDelegations w a =
    (view w).records.rows.filter (fun u => u.delegatorAddress = a)
  get : ∀ w a v, k.getUnbondingDelegation w a v = (view w).records.get (DVPair.key ⟨a, v⟩)
  set : ∀ w u, view (k.setUnbondingDelegation w u) =
    { view w with records := (view w).records.set u }
  remove : ∀ w u, view (k.removeUnbondingDelegation w u) =
    { view w with records := (view w).records.delete u.key }
  slice : ∀ w t, k.getUBDQueueTimeSlice w t = (view w).queue.slice t
  setSlice : ∀ w t pairs, view (k.setUBDQueueTimeSlice w t pairs) =
    { view w with queue := (view w).queue.setSlice t pairs }
  removeSlice : ∀ w t, view (k.removeUBDQueue w t) =
    { view w with queue := (view w).queue.removeSlice t }
  insert : ∀ w u t, view (k.insertUBDQueue w u t) =
    { view w with queue := (view w).queue.insert t u.pair }
  iterator : ∀ w t, k.ubdQueueIterator w t = (view w).queue.upTo t
  track : ∀ w a x, (view w).hasAccount a = true → 0 < x →
    ∃ w', k.trackUndelegation w a (Coins.ofAmount k.bondDenom x) = some w' ∧ view w' = view w
  send : ∀ w x, 0 < x → x ≤ (view w).notBonded →
    ∃ w', k.sendCoinsFromModuleToModule w .notBondedPool .shield (Coins.ofAmount k.bondDenom x) =
        some w' ∧
      view w' = { view w with
        notBonded := (view w).notBonded - x, shield := (view w).shield + x }

namespace UnbondingLaws

variable {k : Keepers σ} (L : UnbondingLaws k)

/-- The entries of an address, as the keeper lists them. -/
lemma flatMap_getAll (w : σ) (a : AccAddress) :
    (k.getAllUnbondingDelegations w a).flatMap UnbondingDelegation.parts =
      (L.view w).partsOf a := by
  unfold StakingView.partsOf StakingView.parts
  rw [L.getAll]
  induction (L.view w).records.rows with
  | nil => rfl
  | cons u us ih =>
    rw [flatMap_cons, filter_append, ← ih, filter_cons]
    split
    · rename_i hu
      rw [flatMap_cons]
      congr 1
      refine (filter_eq_self.mpr (forall_mem_map.mpr ?_)).symm
      intro e _
      exact hu
    · rename_i hu
      have hnone : u.parts.filter (fun p => decide (p.delegatorAddress = a)) = [] := by
        apply filter_eq_nil_iff.mpr
        intro p hp
        obtain ⟨e, -, rfl⟩ := mem_map.mp hp
        exact hu
      rw [hnone, nil_append]

lemma getSortedUnbondingDelegations_perm (w : σ) (a : AccAddress) :
    (getSortedUnbondingDelegations k w a).Perm ((L.view w).partsOf a) := by
  rw [← L.flatMap_getAll]
  exact perm_insertionSort _ _

end UnbondingLaws

lemma getSortedUnbondingDelegations_pairwise (k : Keepers σ) (w : σ) (a : AccAddress) :
    (getSortedUnbondingDelegations k w a).Pairwise
      (fun p p' => p'.completionTime ≤ p.completionTime) := by
  have : Std.Total (fun p p' : UnbondingPart => p'.entry.completionTime ≤ p.entry.completionTime) :=
    ⟨fun p p' => le_total _ _⟩
  have : IsTrans UnbondingPart (fun p p' => p'.entry.completionTime ≤ p.entry.completionTime) :=
    ⟨fun p p' p'' h h' => le_trans h' h⟩
  exact pairwise_insertionSort _ _

/-- Keepers of a small world in which there are unbonding delegations and no delegations. -/
def viewKeepers : Keepers StakingView :=
  { idleKeepers StakingView with
    getAllUnbondingDelegations v a := v.records.rows.filter (fun u => u.delegatorAddress = a)
    getUnbondingDelegation v a valAddr := v.records.get (DVPair.key ⟨a, valAddr⟩)
    setUnbondingDelegation v u := { v with records := v.records.set u }
    removeUnbondingDelegation v u := { v with records := v.records.delete u.key }
    getUBDQueueTimeSlice v t := v.queue.slice t
    setUBDQueueTimeSlice v t pairs := { v with queue := v.queue.setSlice t pairs }
    removeUBDQueue v t := { v with queue := v.queue.removeSlice t }
    insertUBDQueue v u t := { v with queue := v.queue.insert t u.pair }
    ubdQueueIterator v t := v.queue.upTo t
    trackUndelegation v a _ := if v.hasAccount a then some v else none
    sendCoinsFromModuleToModule v m m' coins :=
      if m = .notBondedPool ∧ m' = .shield ∧ coins.amountOf microCTKDenom ≤ v.notBonded then
        some { v with
          notBonded := v.notBonded - coins.amountOf microCTKDenom
          shield := v.shield + coins.amountOf microCTKDenom }
      else none }

/-- The small world keeps the laws, seen as it is. -/
def viewLaws : UnbondingLaws viewKeepers where
  view := id
  getAll _ _ := rfl
  get _ _ _ := rfl
  set _ _ := rfl
  remove _ _ := rfl
  slice _ _ := rfl
  setSlice _ _ _ := rfl
  removeSlice _ _ := rfl
  insert _ _ _ := rfl
  iterator _ _ := rfl
  track v _ _ haccount _ := ⟨v, if_pos haccount, rfl⟩
  send v x _ hx := by
    have hamount : (Coins.ofAmount microCTKDenom x).amountOf microCTKDenom = x :=
      Coins.amountOf_ofAmount_self _ x
    refine ⟨_, if_pos ?_, ?_⟩
    · exact ⟨rfl, rfl, hamount.trans_le hx⟩
    · exact congrArg (fun y => { v with notBonded := v.notBonded - y, shield := v.shield + y })
        hamount

end Shentu
