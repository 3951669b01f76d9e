import Shentu.Shield.UnbondingStore

/-!
What the delay of unbondings does. The loop goes over the pairs of the provider in the unbonding
queue, latest first, and looks up for each pair the first entry of its validator at its time. An
entry that completes earlier is moved to the delayed time. For a pair that lies at the delayed
time already the entry stays where it is, and every such pair of one validator finds the same
entry, whose balance is counted each time.
-/

namespace Shentu

open Lib List Table DVPair

variable {σ : Type}

section Entries

variable {time delayedTime : Time} {es es' : List UnbondingDelegationEntry} {balance : Int}

lemma sinkEntry_perm (e : UnbondingDelegationEntry) (es : List UnbondingDelegationEntry) :
    (sinkEntry e es).Perm (e :: es) := by
  induction es with
  | nil => exact List.Perm.refl _
  | cons x xs ih =>
    unfold sinkEntry
    split
    · exact (ih.cons x).trans (List.Perm.swap e x xs)
    · exact List.Perm.refl _

lemma filter_sinkEntry (e : UnbondingDelegationEntry) (es : List UnbondingDelegationEntry)
    (s : Time) : (sinkEntry e es).filter (fun e => e.completionTime = s) =
      (e :: es).filter (fun e => e.completionTime = s) := by
  induction es with
  | nil => rfl
  | cons x xs ih =>
    unfold sinkEntry
    split
    · rename_i hlt
      rw [filter_cons, ih, filter_cons, filter_cons, filter_cons]
      by_cases he : e.completionTime = s
      · have hx : x.completionTime ≠ s := (hlt.trans_eq he).ne
        simp [he, hx]
      · simp [he]
    · rfl

lemma delayEntry_find? (h : delayEntry time delayedTime es = some (balance, es')) :
    ∃ e rest, es.find? (fun e => e.completionTime = time) = some e ∧ balance = e.balance ∧
      es.Perm (e :: rest) ∧ es'.Perm ({ e with completionTime := delayedTime } :: rest) := by
  induction es generalizing es' with
  | nil => cases h
  | cons x xs ih =>
    unfold delayEntry at h
    split at h
    · rename_i hx
      cases h
      exact ⟨x, xs, find?_cons_of_pos (by simpa using hx), rfl, List.Perm.refl _,
        sinkEntry_perm _ _⟩
    · rename_i hx
      obtain ⟨⟨balance', es1⟩, hrest, heq⟩ := Option.map_eq_some_iff.mp h
      cases heq
      obtain ⟨e, rest, hfind, hbalance, hperm, hperm'⟩ := ih hrest
      refine ⟨e, x :: rest, ?_, hbalance, ?_, ?_⟩
      · rw [find?_cons_of_neg (by simpa using hx)]
        exact hfind
      · exact (hperm.cons x).trans (List.Perm.swap e x rest)
      · exact (hperm'.cons x).trans (List.Perm.swap _ x rest)

lemma delayEntry_filter_self (h : delayEntry time time es = some (balance, es')) (s : Time) :
    es'.filter (fun e => e.completionTime = s) = es.filter (fun e => e.completionTime = s) := by
  induction es generalizing es' with
  | nil => cases h
  | cons x xs ih =>
    unfold delayEntry at h
    split at h
    · rename_i hx
      cases h
      rw [filter_sinkEntry, ← hx]
    · obtain ⟨⟨balance', es1⟩, hrest, heq⟩ := Option.map_eq_some_iff.mp h
      cases heq
      rw [filter_cons, filter_cons, ih hrest]

/-- A delay takes the first entry away from its time. -/
lemma delayEntry_filter (h : delayEntry time delayedTime es = some (balance, es'))
    {s : Time} (hs : s ≠ delayedTime) :
    es'.filter (fun e => e.completionTime = s) =
      if s = time then (es.filter (fun e => e.completionTime = s)).tail
      else es.filter (fun e => e.completionTime = s) := by
  induction es generalizing es' with
  | nil => cases h
  | cons x xs ih =>
    unfold delayEntry at h
    split at h
    · rename_i hx
      cases h
      rw [filter_sinkEntry, filter_cons_of_neg (by simpa using Ne.symm hs)]
      split
      · rename_i hst
        rw [filter_cons_of_pos (by simpa using hx.trans hst.symm), tail_cons]
      · rename_i hst
        rw [filter_cons_of_neg (by simpa using fun heq => hst (heq.symm.trans hx))]
    · rename_i hx
      obtain ⟨⟨balance', es1⟩, hrest, heq⟩ := Option.map_eq_some_iff.mp h
      cases heq
      rw [filter_cons, filter_cons, ih hrest]
      split
      · rename_i hxs
        rw [if_neg, if_neg]
        · exact fun heq => hx ((of_decide_eq_true hxs).trans heq)
        · exact fun heq => hx ((of_decide_eq_true hxs).trans heq)
      · rfl

end Entries

/-- The entry a pair of the queue stands for has its validator and its time. -/
def UnbondingInfo.names (i : UnbondingInfo) (p : UnbondingPart) : Bool :=
  decide (p.validatorAddress = i.validator) && decide (p.completionTime = i.completionTime)

/-- What the delay counts and what it moves for each pair, when it goes over the pairs in this
order: the balance of the first entry that the pair names and that is not moved yet, and the same
balance again if the entry completes before the delayed time. -/
def delayPlan (delayedTime : Time) : List UnbondingInfo → List UnbondingPart → List (Int × Int)
  | [], _ => []
  | i :: is, ps =>
    match ps.find? i.names with
    | none => []
    | some p =>
      if i.completionTime = delayedTime then (p.balance, 0) :: delayPlan delayedTime is ps
      else (p.balance, p.balance) :: delayPlan delayedTime is (ps.eraseP i.names)

namespace StakingView

/-- The entries of the unbonding delegation between an address and a validator. -/
def entriesOf (v : StakingView) (a : AccAddress) (valAddr : ValAddress) :
    List UnbondingDelegationEntry :=
  match v.records.get (DVPair.key ⟨a, valAddr⟩) with
  | some u => u.entries
  | none => []

/-- The balances of an address that complete at a time or later. -/
def heldUntil (v : StakingView) (a : AccAddress) (t : Time) : Int :=
  ((v.partsOf a).map (fun p => if t ≤ p.completionTime then p.balance else 0)).sum

lemma filter_parts (u : UnbondingDelegation) (a : AccAddress) (i : UnbondingInfo) :
    (u.parts.filter (fun p => decide (p.delegatorAddress = a))).filter i.names =
      if u.key = DVPair.key ⟨a, i.validator⟩ then
        (u.entries.filter (fun e => e.completionTime = i.completionTime)).map
          (fun e => ⟨a, i.validator, e⟩)
      else [] := by
  unfold UnbondingDelegation.parts
  split
  · rename_i hkey
    obtain ⟨hdel, hval⟩ := DVPair.mk.inj (key_inj.mp hkey)
    rw [filter_filter, filter_map, hdel, hval]
    congr 1
    apply filter_congr
    intro e _
    unfold UnbondingInfo.names
    dsimp only [Function.comp_apply]
    rw [decide_eq_true (rfl : i.validator = i.validator), decide_eq_true (rfl : a = a),
      Bool.true_and, Bool.and_true]
    rfl
  · rename_i hkey
    rw [filter_filter]
    apply filter_eq_nil_iff.mpr
    intro p hp hnames
    obtain ⟨e, -, rfl⟩ := mem_map.mp hp
    simp only [UnbondingInfo.names, Bool.and_eq_true, decide_eq_true_eq] at hnames
    apply hkey
    apply key_inj.mpr
    unfold UnbondingDelegation.pair
    rw [hnames.1.1, hnames.2]

/-- The parts of an address with one validator and one time are the entries of the record. -/
lemma filter_partsOf (v : StakingView) (a : AccAddress) (i : UnbondingInfo) :
    (v.partsOf a).filter i.names =
      ((v.entriesOf a i.validator).filter (fun e => e.completionTime = i.completionTime)).map
        (fun e => ⟨a, i.validator, e⟩) := by
  have hrows : ∀ rows : List UnbondingDelegation, ((rows.flatMap UnbondingDelegation.parts).filter
        (fun p => decide (p.delegatorAddress = a))).filter i.names =
      (rows.filter (fun u => decide (u.key = DVPair.key ⟨a, i.validator⟩))).flatMap (fun u =>
        (u.entries.filter (fun e => e.completionTime = i.completionTime)).map
          (fun e => ⟨a, i.validator, e⟩)) := by
    intro rows
    induction rows with
    | nil => rfl
    | cons u us ih =>
      rw [flatMap_cons, filter_append, filter_append, ih, filter_parts,
        filter_cons]
      split
      · rename_i hkey
        rw [if_pos (decide_eq_true hkey), flatMap_cons]
      · rename_i hkey
        rw [if_neg (fun hdec => hkey (of_decide_eq_true hdec)), nil_append]
  unfold partsOf parts entriesOf
  rw [hrows, filter_key_rows]
  cases v.records.get (DVPair.key ⟨a, i.validator⟩) with
  | none => rfl
  | some u => simp

/-- The view with one record written. -/
def setRecord (v : StakingView) (queue : TimeQueue DVPair) (u : UnbondingDelegation) :
    StakingView :=
  { v with queue := queue, records := v.records.set u }

variable {v v' : StakingView} {u : UnbondingDelegation} {a : AccAddress} {valAddr : ValAddress}

lemma entriesOf_setRecord (v : StakingView) (queue : TimeQueue DVPair)
    (hkey : u.key = DVPair.key ⟨a, valAddr⟩) (valAddr' : ValAddress) :
    (v.setRecord queue u).entriesOf a valAddr' =
      if valAddr' = valAddr then u.entries else v.entriesOf a valAddr' := by
  unfold entriesOf setRecord
  split_ifs with hval
  · rw [hval, ← hkey, get_set_self]
  · rw [get_set_of_ne]
    intro heq
    rw [hkey, key_inj] at heq
    exact hval (DVPair.mk.inj heq).2

/-- Writing a record with one entry at another time moves that entry and no other. -/
lemma partsOf_setRecord (queue : TimeQueue DVPair)
    (hget : v.records.get (DVPair.key ⟨a, valAddr⟩) = some u)
    {e e' : UnbondingDelegationEntry} {es' rest : List UnbondingDelegationEntry}
    (hperm : u.entries.Perm (e :: rest)) (hperm' : es'.Perm (e' :: rest)) :
    ∃ left, (v.partsOf a).Perm (⟨a, valAddr, e⟩ :: left) ∧
      ((v.setRecord queue { u with entries := es' }).partsOf a).Perm
        (⟨a, valAddr, e'⟩ :: left) := by
  have hkey : u.key = DVPair.key ⟨a, valAddr⟩ := key_of_get hget
  obtain ⟨rfl, rfl⟩ := DVPair.mk.inj (key_inj.mp hkey)
  have hbefore := ((flatMap_perm_of_get hget UnbondingDelegation.parts).trans
    ((hperm.map _).append_right _)).filter
      (fun p => decide (p.delegatorAddress = u.delegatorAddress))
  have hafter := ((flatMap_set_perm v.records { u with entries := es' }
    UnbondingDelegation.parts).trans
    ((hperm'.map _).append_right _)).filter
      (fun p => decide (p.delegatorAddress = u.delegatorAddress))
  rw [map_cons, cons_append, filter_cons_of_pos (by simp)] at hbefore hafter
  exact ⟨_, hbefore, hafter⟩

lemma heldUntil_of_perm {p : UnbondingPart} {left : List UnbondingPart}
    (hperm : (v.partsOf a).Perm (p :: left)) (t : Time) :
    v.heldUntil a t = (if t ≤ p.completionTime then p.balance else 0) +
      (left.map (fun p => if t ≤ p.completionTime then p.balance else 0)).sum := by
  unfold heldUntil
  rw [(hperm.map _).sum_eq, map_cons, sum_cons]

lemma heldUntil_nonneg (hbalance : ∀ p ∈ v.partsOf a, 0 ≤ p.balance) (t : Time) :
    0 ≤ v.heldUntil a t := by
  apply sum_nonneg
  intro x hx
  obtain ⟨p, hp, rfl⟩ := mem_map.mp hx
  split
  · exact hbalance p hp
  · exact le_rfl

lemma heldUntil_moved {e : UnbondingDelegationEntry} {t : Time} {left : List UnbondingPart}
    (hbefore : (v.partsOf a).Perm (⟨a, valAddr, e⟩ :: left))
    (hafter : (v'.partsOf a).Perm (⟨a, valAddr, { e with completionTime := t }⟩ :: left)) :
    v'.heldUntil a t = v.heldUntil a t + if t ≤ e.completionTime then 0 else e.balance := by
  rw [heldUntil_of_perm hbefore, heldUntil_of_perm hafter]
  change (if t ≤ t then e.balance else 0) + _ = (if t ≤ e.completionTime then e.balance else 0) +
    _ + _
  rw [if_pos le_rfl]
  split_ifs <;> omega

end StakingView

namespace UnbondingLaws

variable {k : Keepers σ} (L : UnbondingLaws k)

lemma view_unqueueUnbonding (w : σ) (a : AccAddress) (i : UnbondingInfo) :
    ∃ queue, L.view (unqueueUnbonding k w a i) = { L.view w with queue := queue } := by
  unfold unqueueUnbonding
  dsimp only
  split
  · exact ⟨_, L.setSlice _ _ _⟩
  · exact ⟨_, L.removeSlice _ _⟩

/-- One round of the loop: the first entry that the pair names is moved, and its balance is
counted. -/
lemma delayUnbondingLoop_cons {a : AccAddress} {delayedTime : Time} {i : UnbondingInfo}
    {is : List UnbondingInfo} {remaining : Int} {w : σ} {r : Int × σ} (hpos : 0 < remaining)
    (h : delayUnbondingLoop k a delayedTime (i :: is) remaining w = .ok r) :
    ∃ u amount es' queue w1,
      (L.view w).records.get (DVPair.key ⟨a, i.validator⟩) = some u ∧
      delayEntry i.completionTime delayedTime u.entries = some (amount, es') ∧
      L.view w1 = (L.view w).setRecord queue { u with entries := es' } ∧
      delayUnbondingLoop k a delayedTime is (remaining - amount) w1 = .ok r := by
  unfold delayUnbondingLoop at h
  rw [if_pos hpos] at h
  simp only [bind_eq_ok, orFail_eq_ok] at h
  obtain ⟨u, hget, ⟨amount, es'⟩, hdelay, hrest⟩ := h
  obtain ⟨queue, hview⟩ := L.view_unqueueUnbonding w a i
  rw [L.get, hview] at hget
  refine ⟨u, amount, es', queue.insert delayedTime u.pair, _, hget, hdelay, ?_, hrest⟩
  rw [L.set, L.insert, hview]
  rfl

end UnbondingLaws

namespace UnbondingInfo

/-- Two pairs name the same entries or none in common. -/
lemma names_eq_or_disjoint (i j : UnbondingInfo) :
    (j.validator = i.validator ∧ j.completionTime = i.completionTime ∧ j.names = i.names) ∨
      (¬(j.validator = i.validator ∧ j.completionTime = i.completionTime) ∧
        ∀ p, i.names p = true → j.names p = false) := by
  by_cases h : j.validator = i.validator ∧ j.completionTime = i.completionTime
  · refine .inl ⟨h.1, h.2, ?_⟩
    funext p
    rw [names, names, h.1, h.2]
  · refine .inr ⟨h, ?_⟩
    intro p hi
    rw [Bool.eq_false_iff]
    intro hj
    simp only [names, Bool.and_eq_true, decide_eq_true_eq] at hi hj
    exact h ⟨hj.1.symm.trans hi.1, hj.2.symm.trans hi.2⟩

lemma filter_eraseP_congr {i j : UnbondingInfo} {l l' : List UnbondingPart}
    (hi : l.filter i.names = l'.filter i.names) (hj : l.filter j.names = l'.filter j.names) :
    (l.eraseP i.names).filter j.names = (l'.eraseP i.names).filter j.names := by
  rcases i.names_eq_or_disjoint j with ⟨-, -, hnames⟩ | ⟨-, hdisjoint⟩
  · rw [hnames, filter_eraseP_self, filter_eraseP_self, hi]
  · rw [filter_eraseP hdisjoint, filter_eraseP hdisjoint, hj]

end UnbondingInfo

namespace StakingView

variable {v : StakingView} {a : AccAddress} {delayedTime : Time} {i : UnbondingInfo}
  {u : UnbondingDelegation} {es' : List UnbondingDelegationEntry} {amount : Int}

/-- What the other pairs name after one entry is delayed. -/
lemma filter_names_delayed (queue : TimeQueue DVPair)
    (hget : v.records.get (DVPair.key ⟨a, i.validator⟩) = some u)
    (hdelay : delayEntry i.completionTime delayedTime u.entries = some (amount, es'))
    {j : UnbondingInfo} (hj : j.completionTime ≠ delayedTime ∨ i.completionTime = delayedTime) :
    ((v.setRecord queue { u with entries := es' }).partsOf a).filter j.names =
      (if i.completionTime = delayedTime then v.partsOf a
        else (v.partsOf a).eraseP i.names).filter j.names := by
  have hkey : u.key = DVPair.key ⟨a, i.validator⟩ := key_of_get hget
  have hentries : v.entriesOf a i.validator = u.entries := by
    rw [entriesOf, hget]
  rw [filter_partsOf, entriesOf_setRecord v queue
    (show UnbondingDelegation.key { u with entries := es' } = _ from hkey)]
  split_ifs with hval htime htime
  · rw [← htime] at hdelay
    rw [delayEntry_filter_self hdelay, filter_partsOf, hval, hentries]
  · rw [delayEntry_filter hdelay (hj.resolve_right htime)]
    rcases i.names_eq_or_disjoint j with ⟨-, hsame, hnames⟩ | ⟨hdiff, hdisjoint⟩
    · rw [if_pos hsame, hnames, filter_eraseP_self, filter_partsOf, hentries, map_tail, hval,
        hsame]
    · rw [if_neg (fun hsame => hdiff ⟨hval, hsame⟩), filter_eraseP hdisjoint, filter_partsOf, hval,
        hentries]
  · rw [filter_partsOf]
  · have hdisjoint : ∀ p, i.names p = true → j.names p = false := by
      rcases i.names_eq_or_disjoint j with ⟨hsame, -⟩ | ⟨-, hdisjoint⟩
      · exact absurd hsame hval
      · exact hdisjoint
    rw [filter_eraseP hdisjoint, filter_partsOf]

end StakingView

namespace UnbondingLaws

variable {k : Keepers σ} (L : UnbondingLaws k)

/-- A delay loop that does not panic ends after a first stretch of the pairs. It has counted and
moved what the plan says of this stretch, and it had something left to count before. -/
lemma delayUnbondingLoop_plan {a : AccAddress} {delayedTime : Time} {is : List UnbondingInfo}
    (hsorted : is.Pairwise (fun i j => j.completionTime ≤ i.completionTime))
    (hle : ∀ i ∈ is, i.completionTime ≤ delayedTime) {ps : List UnbondingPart}
    {remaining remaining' : Int} {w w' : σ}
    (hps : ∀ i ∈ is, ((L.view w).partsOf a).filter i.names = ps.filter i.names)
    (h : delayUnbondingLoop k a delayedTime is remaining w = .ok (remaining', w')) :
    ∃ n, remaining' = remaining - (((delayPlan delayedTime is ps).take n).map Prod.fst).sum ∧
      (L.view w').heldUntil a delayedTime = (L.view w).heldUntil a delayedTime +
        (((delayPlan delayedTime is ps).take n).map Prod.snd).sum ∧
      ∀ m < n, (((delayPlan delayedTime is ps).take m).map Prod.fst).sum < remaining := by
  induction is generalizing ps remaining w with
  | nil =>
    cases h
    exact ⟨0, by simp, by simp, fun m hm => absurd hm (Nat.not_lt_zero m)⟩
  | cons i is ih =>
    by_cases hpos : 0 < remaining
    · obtain ⟨hsorted_i, hsorted⟩ := pairwise_cons.mp hsorted
      obtain ⟨hps_i, hps⟩ := forall_mem_cons.mp hps
      obtain ⟨hle_i, hle⟩ := forall_mem_cons.mp hle
      obtain ⟨u, amount, es', queue, w1, hget, hdelay, hview, hrest⟩ :=
        L.delayUnbondingLoop_cons hpos h
      obtain ⟨e, rest, hfind, hamount, hperm, hperm'⟩ := delayEntry_find? hdelay
      have hfirst : ps.find? i.names = some ⟨a, i.validator, e⟩ := by
        rw [← head?_filter, ← hps_i, StakingView.filter_partsOf, StakingView.entriesOf, hget,
          head?_map, head?_filter, hfind]
        rfl
      have htime : e.completionTime = i.completionTime := by
        simpa using find?_some hfind
      obtain ⟨left, hbefore, hafter⟩ := StakingView.partsOf_setRecord queue hget hperm hperm'
      rw [← hview] at hafter
      have hps1 : ∀ j ∈ is, ((L.view w1).partsOf a).filter j.names =
          (if i.completionTime = delayedTime then ps else ps.eraseP i.names).filter j.names := by
        intro j hj
        have hlater := hsorted_i j hj
        rw [hview, StakingView.filter_names_delayed queue hget hdelay
          (by rcases eq_or_lt_of_le hle_i with heq | hlt
              · exact .inr heq
              · exact .inl (hlater.trans_lt hlt).ne)]
        split_ifs
        · exact hps j hj
        · exact UnbondingInfo.filter_eraseP_congr hps_i (hps j hj)
      obtain ⟨n, hn, hheld, hbelow⟩ := ih hsorted hle hps1 hrest
      have hmoved : (L.view w1).heldUntil a delayedTime = (L.view w).heldUntil a delayedTime +
          if i.completionTime = delayedTime then 0 else e.balance := by
        rw [StakingView.heldUntil_moved hbefore hafter, htime]
        congr 1
        apply if_congr _ rfl rfl
        exact ⟨fun hge => le_antisymm hle_i hge, fun heq => heq.ge⟩
      have hplan : delayPlan delayedTime (i :: is) ps =
          (e.balance, if i.completionTime = delayedTime then 0 else e.balance) ::
            delayPlan delayedTime is
              (if i.completionTime = delayedTime then ps else ps.eraseP i.names) := by
        rw [delayPlan, hfirst]
        split_ifs <;> rfl
      refine ⟨n + 1, ?_, ?_, ?_⟩
      · rw [hplan, take_succ_cons, map_cons, sum_cons, hn, hamount]
        omega
      · rw [hplan, take_succ_cons, map_cons, sum_cons, hheld, hmoved]
        omega
      · intro m hm
        rw [hplan]
        cases m with
        | zero => exact hpos
        | succ m =>
          have hm := hbelow m (Nat.lt_of_succ_lt_succ hm)
          rw [take_succ_cons, map_cons, sum_cons]
          omega
    · unfold delayUnbondingLoop at h
      rw [if_neg hpos] at h
      cases h
      exact ⟨0, by simp, by simp, fun m hm => absurd hm (Nat.not_lt_zero m)⟩

end UnbondingLaws

end Shentu
