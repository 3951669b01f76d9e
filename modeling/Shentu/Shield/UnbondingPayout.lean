import Shentu.Shield.UnbondingStore

/-!
One payment out of an unbonding delegation. It edits the stored entry that has the balance and the
time of the one it pays from, so up to the order of equal entries it edits that very entry. An
entry that is paid out entirely leaves together with one occurrence of its pair in the queue.
-/

namespace Shentu

open Lib List TimeQueue Table
open UnbondingDelegation (parts key)

variable {σ : Type}

/-- What a payout leaves of an entry. -/
def afterPayout : UnbondingPart × Int → List UnbondingPart :=
  remainder UnbondingPart.balance UnbondingPart.reduced

section Edit

variable {u : UnbondingDelegation} {ubd : UnbondingPart}

/-- The entries that look like the one that is paid from. -/
abbrev sameEntry (ubd : UnbondingPart) (e : UnbondingDelegationEntry) : Bool :=
  decide (e.balance = ubd.entry.balance) && decide (e.completionTime = ubd.entry.completionTime)

lemma eq_of_sameEntry {e : UnbondingDelegationEntry} (h : sameEntry ubd e = true) :
    e = ubd.entry := by
  cases e
  cases hentry : ubd.entry
  simp_all

lemma parts_eraseP (hpair : u.pair = ubd.pair) (hmem : ubd.entry ∈ u.entries) :
    u.parts.Perm (ubd ::
      parts { u with entries := u.entries.eraseP (sameEntry ubd) }) := by
  obtain ⟨hdel, hval⟩ := DVPair.mk.inj hpair
  obtain ⟨e, l1, l2, -, he, hl, herase⟩ := exists_of_eraseP (p := sameEntry ubd) hmem (by simp)
  rw [eq_of_sameEntry he] at hl
  unfold parts
  rw [herase, hl, map_append, map_cons, map_append, hdel, hval]
  exact perm_middle

/-- The record after a part of an entry is paid out has the entry with a lower balance. -/
lemma parts_updateFirst (hpair : u.pair = ubd.pair) (hmem : ubd.entry ∈ u.entries) (x : Int) :
    ∃ rest, u.parts.Perm (ubd :: rest) ∧
      (parts { u with
        entries := updateFirst (sameEntry ubd) (fun e => { e with balance := e.balance - x })
          u.entries }).Perm (ubd.reduced x :: rest) := by
  obtain ⟨hdel, hval⟩ := DVPair.mk.inj hpair
  obtain ⟨e, hfind⟩ : ∃ e, u.entries.find? (sameEntry ubd) = some e := by
    apply Option.isSome_iff_exists.mp
    rw [find?_isSome]
    exact ⟨ubd.entry, hmem, by simp⟩
  have he : e = ubd.entry := eq_of_sameEntry (find?_some hfind)
  obtain ⟨l1, l2, hl, hu⟩ := updateFirst_split
    (f := fun e : UnbondingDelegationEntry => { e with balance := e.balance - x }) hfind
  rw [he] at hl hu
  refine ⟨(l1 ++ l2).map (fun e => ⟨u.delegatorAddress, u.validatorAddress, e⟩), ?_, ?_⟩
  · unfold parts
    rw [hl, map_append, map_cons, map_append, hdel, hval]
    exact perm_middle
  · unfold parts
    rw [hu, map_append, map_cons, map_append, hdel, hval]
    exact perm_middle

end Edit

/-- The queue without the pair of an entry that is paid out entirely, as `reduceUnbonding` leaves
it. -/
def unqueuePaid (k : Keepers σ) (world : σ) (ubd : UnbondingPart) : σ :=
  let timeSlice := k.getUBDQueueTimeSlice world ubd.completionTime
  let pair := fun dv : DVPair => decide (dv.delegatorAddress = ubd.delegatorAddress) &&
    decide (dv.validatorAddress = ubd.validatorAddress)
  if 1 < timeSlice.length then
    if timeSlice.any pair then
      k.setUBDQueueTimeSlice world ubd.completionTime (timeSlice.eraseP pair)
    else world
  else k.removeUBDQueue world ubd.completionTime

lemma reduceUnbonding_of_mem (k : Keepers σ) (world : σ) {u : UnbondingDelegation}
    {ubd : UnbondingPart} (hmem : ubd.entry ∈ u.entries) (payout : Int) :
    reduceUnbonding k world u ubd payout =
      if ubd.entry.balance = payout then
        if (u.entries.eraseP (sameEntry ubd)).isEmpty then
          k.removeUnbondingDelegation (unqueuePaid k world ubd)
            { u with entries := u.entries.eraseP (sameEntry ubd) }
        else k.setUnbondingDelegation (unqueuePaid k world ubd)
            { u with entries := u.entries.eraseP (sameEntry ubd) }
      else
        k.setUnbondingDelegation world { u with
          entries := updateFirst (sameEntry ubd) (fun e => { e with balance := e.balance - payout })
            u.entries } := by
  have hany : u.entries.any (sameEntry ubd) = true :=
    any_eq_true.mpr ⟨ubd.entry, hmem, by simp⟩
  unfold reduceUnbonding
  rw [if_pos hany]
  rfl

namespace UnbondingLaws

variable {k : Keepers σ} (L : UnbondingLaws k)

/-- Only the queue changes, and a pair that is in the slice leaves it once. -/
lemma view_unqueuePaid (w : σ) (ubd : UnbondingPart) :
    ∃ queue, L.view (unqueuePaid k w ubd) = { L.view w with queue := queue } ∧
      (ubd.pair ∈ (L.view w).queue.slice ubd.completionTime → ∀ t, queue.slice t =
        if t = ubd.completionTime then ((L.view w).queue.slice t).erase ubd.pair
        else (L.view w).queue.slice t) := by
  have hpair : (fun dv : DVPair => decide (dv.delegatorAddress = ubd.delegatorAddress) &&
      decide (dv.validatorAddress = ubd.validatorAddress)) = fun dv => dv == ubd.pair := by
    funext dv
    rw [Bool.eq_iff_iff]
    cases dv
    simp [UnbondingPart.pair]
  unfold unqueuePaid
  dsimp only
  rw [L.slice, hpair]
  split_ifs with hlen hany
  · refine ⟨_, L.setSlice _ _ _, ?_⟩
    intro _ t
    split
    · rename_i ht
      rw [ht, slice_setSlice_self, erase_eq_eraseP']
    · rename_i ht
      exact slice_setSlice_of_ne _ _ ht
  · refine ⟨_, rfl, ?_⟩
    intro hmem
    apply absurd _ hany
    exact any_eq_true.mpr ⟨_, hmem, beq_self_eq_true _⟩
  · refine ⟨_, L.removeSlice _ _, ?_⟩
    intro hmem t
    split
    · rename_i ht
      obtain ⟨dv, hone⟩ := length_eq_one_iff.mp
        (Nat.le_antisymm (not_lt.mp hlen) (length_pos_of_mem hmem))
      rw [hone] at hmem
      rw [ht, slice_removeSlice_self, hone, mem_singleton.mp hmem,
        erase_cons_head]
    · rename_i ht
      exact slice_removeSlice_of_ne _ ht

end UnbondingLaws

namespace StakingView

variable {v v' : StakingView} {ubd : UnbondingPart} {rest : List UnbondingPart}

lemma key_ne_of_delegator_ne {pair : DVPair}
    (h : pair.delegatorAddress ≠ ubd.delegatorAddress) : pair.key ≠ ubd.pair.key := by
  intro heq
  apply h
  rw [DVPair.key_inj.mp heq]
  rfl

/-- An entry and one occurrence of its pair leave: the queue stays in step. -/
lemma OwnOnly.of_unqueued
    (hrecords : ∀ key, key ≠ ubd.pair.key → v'.records.get key = v.records.get key)
    (haccounts : v'.hasAccount = v.hasAccount) (hparts : v.parts.Perm (ubd :: rest))
    (hparts' : v'.parts.Perm rest)
    (hslice : v.InStep → ∀ t, v'.queue.slice t =
      if t = ubd.completionTime then (v.queue.slice t).erase ubd.pair else v.queue.slice t) :
    OwnOnly ubd.delegatorAddress v v' where
  records pair hpair := hrecords _ (key_ne_of_delegator_ne hpair)
  accounts := haccounts
  inStep h pair t := by
    have hcount := h pair t
    rw [hparts.countP_eq, countP_cons] at hcount
    rw [hparts'.countP_eq, hslice h t]
    split
    · rename_i ht
      rw [count_erase, hcount]
      by_cases hpair : ubd.pair = pair <;> simp [hpair, ht]
    · rename_i ht
      rw [hcount, if_neg (by simpa using fun _ => Ne.symm ht), Nat.add_zero]
  queue h t := by
    unfold othersAt
    rw [hslice h t]
    split
    · rw [erase_eq_eraseP', filter_eraseP]
      intro pair hpair
      rw [beq_iff_eq.mp hpair]
      simp [UnbondingPart.pair]
    · rfl

lemma OwnOnly.of_reduced {x : Int}
    (hrecords : ∀ key, key ≠ ubd.pair.key → v'.records.get key = v.records.get key)
    (haccounts : v'.hasAccount = v.hasAccount) (hparts : v.parts.Perm (ubd :: rest))
    (hparts' : v'.parts.Perm (ubd.reduced x :: rest)) (hqueue : v'.queue = v.queue) :
    OwnOnly ubd.delegatorAddress v v' where
  records pair hpair := hrecords _ (key_ne_of_delegator_ne hpair)
  accounts := haccounts
  inStep h pair t := by
    rw [hqueue, h pair t, hparts.countP_eq, hparts'.countP_eq, countP_cons, countP_cons]
    rfl
  queue _ t := by
    unfold othersAt
    rw [hqueue]

end StakingView

namespace UnbondingLaws

variable {k : Keepers σ} (L : UnbondingLaws k)

/-- One payment edits the entry it pays from and nothing else. -/
lemma reduceUnbonding_spec {w : σ} {u : UnbondingDelegation} {ubd : UnbondingPart} {x : Int}
    {rest : List UnbondingPart} (hget : (L.view w).records.get ubd.pair.key = some u)
    (hmem : ubd.entry ∈ u.entries) (hperm : (L.view w).parts.Perm (ubd :: rest)) (hx : 0 < x) :
    (L.view w).OwnOnly ubd.delegatorAddress (L.view (reduceUnbonding k w u ubd x)) ∧
      (L.view (reduceUnbonding k w u ubd x)).parts.Perm (afterPayout (ubd, x) ++ rest) ∧
      (L.view (reduceUnbonding k w u ubd x)).notBonded = (L.view w).notBonded ∧
      (L.view (reduceUnbonding k w u ubd x)).shield = (L.view w).shield := by
  have hkey : u.key = ubd.pair.key := key_of_get hget
  have hpair : u.pair = ubd.pair := DVPair.key_inj.mp hkey
  have hall := flatMap_perm_of_get hget parts
  have hset : ∀ entries, ∀ key, key ≠ ubd.pair.key →
      ((L.view w).records.set { u with entries := entries }).get key =
        (L.view w).records.get key := by
    intro entries key hne
    exact get_set_of_ne _ (fun heq => hne (heq.trans hkey))
  have hsetParts : ∀ entries, (((L.view w).records.set { u with entries := entries }).rows.flatMap
      parts).Perm (parts { u with entries := entries } ++
        ((L.view w).records.delete ubd.pair.key).rows.flatMap parts) := by
    intro entries
    rw [← hkey]
    exact flatMap_set_perm _ _ _
  rw [reduceUnbonding_of_mem k w hmem]
  split
  · rename_i hfull
    have hgone : afterPayout (ubd, x) = [] := if_pos ⟨hx, hfull⟩
    have hrest : (parts
        { u with entries := u.entries.eraseP (sameEntry ubd) } ++
          ((L.view w).records.delete ubd.pair.key).rows.flatMap
            parts).Perm rest := by
      apply List.Perm.cons_inv (a := ubd)
      exact ((parts_eraseP hpair hmem).append_right _).symm.trans (hall.symm.trans hperm)
    obtain ⟨queue, hview, hslice⟩ := L.view_unqueuePaid w ubd
    have hpart : ubd ∈ (L.view w).parts := hperm.mem_iff.mpr mem_cons_self
    rw [hgone, nil_append]
    split
    · rename_i hempty
      rw [isEmpty_iff.mp hempty] at hrest ⊢
      rw [L.remove, hview]
      have hdelete : key { u with entries := [] } = ubd.pair.key := hkey
      rw [hdelete]
      refine ⟨StakingView.OwnOnly.of_unqueued ?_ rfl hperm hrest
        (fun h => hslice (h.mem_slice hpart)), hrest, rfl, rfl⟩
      intro key hne
      exact get_delete_of_ne _ hne
    · rw [L.set, hview]
      have hparts := (hsetParts (u.entries.eraseP (sameEntry ubd))).trans hrest
      exact ⟨StakingView.OwnOnly.of_unqueued (hset _) rfl hperm hparts
        (fun h => hslice (h.mem_slice hpart)), hparts, rfl, rfl⟩
  · rename_i hpart
    have hleft : afterPayout (ubd, x) = [ubd.reduced x] := remainder_of_ne hpart
    obtain ⟨left, hbefore, hafter⟩ := parts_updateFirst hpair hmem x
    rw [hleft, singleton_append, L.set]
    have hrest : (left ++ ((L.view w).records.delete ubd.pair.key).rows.flatMap
        parts).Perm rest := by
      apply List.Perm.cons_inv (a := ubd)
      exact (hbefore.append_right _).symm.trans (hall.symm.trans hperm)
    have hparts := (hsetParts _).trans ((hafter.append_right _).trans (hrest.cons _))
    exact ⟨StakingView.OwnOnly.of_reduced (hset _) rfl hperm hparts rfl, hparts, rfl, rfl⟩

/-- A payment out of an entry is made where the account exists and the pool has the coins. -/
lemma payFromUnbondings_spec {w : σ} {ubd : UnbondingPart} {x : Int} {rest : List UnbondingPart}
    (hperm : (L.view w).parts.Perm (ubd :: rest)) (hx : 0 < x) (hpool : x ≤ (L.view w).notBonded)
    (haccount : (L.view w).hasAccount ubd.delegatorAddress = true) :
    ∃ w', payFromUnbondings k w ubd x = .ok w' ∧
      (L.view w).OwnOnly ubd.delegatorAddress (L.view w') ∧
      (L.view w').parts.Perm (afterPayout (ubd, x) ++ rest) ∧
      (L.view w').notBonded = (L.view w).notBonded - x ∧
      (L.view w').shield = (L.view w).shield + x := by
  obtain ⟨u, hget, hmem⟩ := StakingView.mem_parts.mp (hperm.mem_iff.mpr mem_cons_self)
  obtain ⟨hown, hparts, hnotBonded, hshield⟩ := L.reduceUnbonding_spec hget hmem hperm hx
  rw [← hown.accounts] at haccount
  obtain ⟨w1, htrack, hview1⟩ := L.track _ _ x haccount hx
  obtain ⟨w2, hsend, hview2⟩ := L.send w1 x hx (by rw [hview1, hnotBonded]; exact hpool)
  rw [hview1] at hview2
  refine ⟨w2, ?_, ?_, ?_, ?_, ?_⟩
  · have hcoins : newCoins k.bondDenom x = .ok (Coins.ofAmount k.bondDenom x) :=
      if_neg (not_lt.mpr hx.le)
    unfold payFromUnbondings undelegateFromAccountToShieldModule
    rw [L.get]
    simp only [bind_eq_ok, orFail_eq_ok, orPanic_eq_ok]
    exact ⟨u, hget, _, hcoins, w1, htrack, hsend⟩
  · rw [hview2]
    exact hown.trans ⟨fun _ _ => rfl, rfl, id, fun _ _ => rfl⟩
  · rw [hview2]
    exact hparts
  · rw [hview2, hnotBonded]
  · rw [hview2, hshield]

end UnbondingLaws

end Shentu
