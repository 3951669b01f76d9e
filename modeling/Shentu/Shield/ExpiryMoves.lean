import Shentu.Shield.Expiry

/-!
The loop over the expiring purchases as a sequence of small moves. The source
writes a purchase list back after all its entries; here the list of the state in
between already lacks what the processed entries have lost, so that one move
changes one entry. A loop that fails does so in a state reached by such moves.
-/

namespace Shentu

open Lib Table

variable {σ : Type}

namespace ExpiryLoop

/-- The loop with a purchase list replaced. -/
def setList (loop : ExpiryLoop) (l : PurchaseList) : ExpiryLoop :=
  { loop with cover := loop.cover.setPurchaseList l }

/-- The loop before the first purchase of the queue. -/
def start (s : ShieldState σ) : ExpiryLoop where
  cover := s.cover
  totalServiceFees := s.fees.serviceFees
  totalShield := s.cover.totalShield
  serviceFees := MixedDecCoins.empty
  stakeForShieldUpdateList := []

/-- The purchase `e` stands at a place of the stored list `l`. -/
structure Listed (loop : ExpiryLoop) (l : PurchaseList) (before : List Purchase) (e : Purchase)
    (after : List Purchase) : Prop where
  stored : loop.cover.purchaseLists.get l.key = some l
  entries : l.entries = before ++ e :: after

end ExpiryLoop

/-- One change that the loop makes. -/
inductive LoopMove (stakes : StakeBook) (params : PoolParams) (ctx : Ctx) (lastUpdateTime : Time) :
    ExpiryLoop → ExpiryLoop → Prop
  | settle {loop loop' : ExpiryLoop} {l : PurchaseList} {before after : List Purchase}
      {e e' : Purchase} :
      loop.Listed l before e after →
      settleFees stakes params lastUpdateTime ⟨l.poolID, l.purchaser⟩ loop e = .ok (loop', e') →
      LoopMove stakes params ctx lastUpdateTime loop
        (loop'.setList { l with entries := before ++ e' :: after })
  | remove {loop loop' : ExpiryLoop} {l : PurchaseList} {before after : List Purchase}
      {e : Purchase} :
      loop.Listed l before e after →
      removeDeleted ctx ⟨l.poolID, l.purchaser⟩ loop e = .ok (loop', none) →
      LoopMove stakes params ctx lastUpdateTime loop
        (loop'.setList { l with entries := before ++ after })
  | dropList {loop : ExpiryLoop} {l : PurchaseList} :
      loop.cover.purchaseLists.get l.key = some l → l.entries = [] →
      LoopMove stakes params ctx lastUpdateTime loop
        { loop with cover := { loop.cover with
          purchaseLists := loop.cover.purchaseLists.delete l.key } }

/-- Any number of changes of the loop. -/
abbrev LoopMoves (stakes : StakeBook) (params : PoolParams) (ctx : Ctx) (lastUpdateTime : Time) :
    ExpiryLoop → ExpiryLoop → Prop :=
  Relation.ReflTransGen (LoopMove stakes params ctx lastUpdateTime)

variable {pair : PoolPurchaser} {loop loop' : ExpiryLoop} {e : Purchase}

/-- A settled purchase keeps its identity, and either nothing happens or its fees end. -/
lemma settleFees_cases {stakes : StakeBook} {params : PoolParams} {lastUpdateTime : Time}
    {e' : Purchase} (h : settleFees stakes params lastUpdateTime pair loop e = .ok (loop', e')) :
    (loop' = loop ∧ e' = e) ∨
    ∃ share total,
      lastUpdateTime < e.protectionEndTime ∧ e.serviceFees.native.isAllPositive = true ∧
      decQuo (Dec.ofInt (timeSub e.protectionEndTime lastUpdateTime))
        (Dec.ofInt params.protectionPeriod) = .ok share ∧
      loop.totalServiceFees.sub e.serviceFees = .ok total ∧
      loop' = { loop with
        serviceFees := loop.serviceFees.add (e.serviceFees.mulDec share)
        totalServiceFees := total
        stakeForShieldUpdateList :=
          if stakes.getOriginalStaking e.purchaseID ≠ 0 then
            loop.stakeForShieldUpdateList ++ [⟨pair.poolID, e.purchaseID, pair.purchaser⟩]
          else loop.stakeForShieldUpdateList } ∧
      e' = { e with serviceFees := MixedDecCoins.empty } := by
  unfold settleFees at h
  split at h
  · rename_i hdue
    simp only [run_eq_ok, Prod.mk.injEq] at h
    obtain ⟨share, hshare, total, htotal, rfl, rfl⟩ := h
    exact .inr ⟨share, total, hdue.1, hdue.2, hshare, htotal, rfl, rfl⟩
  · cases h
    exact .inl ⟨rfl, rfl⟩

lemma removeDeleted_none {ctx : Ctx} (h : removeDeleted ctx pair loop e = .ok (loop', none)) :
    e.deletionTime < ctx.blockTime ∧ ∃ pool,
      loop.cover.getPool pair.poolID = some pool ∧
      loop' = { loop with
        cover := { loop.cover with
          purchaseQueue := dequeuePurchase loop.cover.purchaseQueue pair e.protectionEndTime
          pools := loop.cover.pools.set { pool with shield := pool.shield - e.shield } }
        totalShield := loop.totalShield - e.shield } := by
  unfold removeDeleted at h
  split at h
  · rename_i hdeleted
    simp only [run_eq_ok, Prod.mk.injEq, and_true] at h
    obtain ⟨pool, hpool, rfl⟩ := h
    exact ⟨hdeleted, pool, hpool, rfl⟩
  · simp at h

lemma removeDeleted_some {ctx : Ctx} {e' : Purchase}
    (h : removeDeleted ctx pair loop e = .ok (loop', some e')) : loop' = loop ∧ e' = e := by
  unfold removeDeleted at h
  split at h
  · obtain ⟨pool, -, h⟩ := bind_eq_ok.mp h
    cases h
  · simp only [Except.ok.injEq, Prod.mk.injEq, Option.some.injEq] at h
    exact ⟨h.1.symm, h.2.symm⟩

namespace ExpiryLoop

lemma setList_setList (loop : ExpiryLoop) (l : PurchaseList) (entries entries' : List Purchase) :
    (loop.setList { l with entries := entries }).setList { l with entries := entries' } =
      loop.setList { l with entries := entries' } := by
  have hkey : ({ l with entries := entries } : PurchaseList).key =
      ({ l with entries := entries' } : PurchaseList).key := rfl
  simp only [setList, CoverBook.setPurchaseList, set_set hkey]

lemma setList_of_stored {loop : ExpiryLoop} {l : PurchaseList}
    (h : loop.cover.purchaseLists.get l.key = some l) : loop.setList l = loop := by
  have hset : loop.cover.purchaseLists.set l = loop.cover.purchaseLists := set_of_get h
  simp only [setList, CoverBook.setPurchaseList, hset]

lemma listed_setList (loop : ExpiryLoop) (l : PurchaseList) (before : List Purchase)
    (e : Purchase) (after : List Purchase) :
    (loop.setList { l with entries := before ++ e :: after }).Listed
      { l with entries := before ++ e :: after } before e after :=
  ⟨get_set_self _ _, rfl⟩

end ExpiryLoop

lemma settleFees_setList (stakes : StakeBook) (params : PoolParams) (lastUpdateTime : Time)
    (pair : PoolPurchaser) (loop : ExpiryLoop) (l : PurchaseList) (e : Purchase) :
    settleFees stakes params lastUpdateTime pair (loop.setList l) e =
      (settleFees stakes params lastUpdateTime pair loop e).map
        (fun r => (r.1.setList l, r.2)) := by
  unfold settleFees
  split
  · dsimp only [ExpiryLoop.setList]
    cases decQuo (Dec.ofInt (timeSub e.protectionEndTime lastUpdateTime))
        (Dec.ofInt params.protectionPeriod) with
    | error f => rfl
    | ok share =>
      cases loop.totalServiceFees.sub e.serviceFees with
      | error f => rfl
      | ok total => rfl
  · rfl

lemma removeDeleted_setList (ctx : Ctx) (pair : PoolPurchaser) (loop : ExpiryLoop)
    (l : PurchaseList) (e : Purchase) :
    removeDeleted ctx pair (loop.setList l) e =
      (removeDeleted ctx pair loop e).map (fun r => (r.1.setList l, r.2)) := by
  unfold removeDeleted
  split
  · dsimp only [ExpiryLoop.setList, CoverBook.setPurchaseList, CoverBook.getPool]
    cases loop.cover.pools.get pair.poolID <;> rfl
  · rfl

section Entries

variable {stakes : StakeBook} {params : PoolParams} {ctx : Ctx} {lastUpdateTime : Time}

variable {loop loop' : ExpiryLoop} {e : Purchase}

variable (l : PurchaseList)

variable (before : List Purchase)

variable (after : List Purchase)

lemma settle_move {e' : Purchase}
    (h : settleFees stakes params lastUpdateTime ⟨l.poolID, l.purchaser⟩ loop e = .ok (loop', e')) :
    LoopMove stakes params ctx lastUpdateTime
      (loop.setList { l with entries := before ++ e :: after })
      (loop'.setList { l with entries := before ++ e' :: after }) := by
  have hvirtual := settleFees_setList stakes params lastUpdateTime ⟨l.poolID, l.purchaser⟩ loop
    { l with entries := before ++ e :: after } e
  rw [h] at hvirtual
  rw [← loop'.setList_setList l (before ++ e :: after)]
  exact @LoopMove.settle stakes params ctx lastUpdateTime _ _
    { l with entries := before ++ e :: after } before after e e'
    (loop.listed_setList l before e after) hvirtual

lemma remove_move (h : removeDeleted ctx ⟨l.poolID, l.purchaser⟩ loop e = .ok (loop', none)) :
    LoopMove stakes params ctx lastUpdateTime
      (loop.setList { l with entries := before ++ e :: after })
      (loop'.setList { l with entries := before ++ after }) := by
  have hvirtual := removeDeleted_setList ctx ⟨l.poolID, l.purchaser⟩ loop
    { l with entries := before ++ e :: after } e
  rw [h] at hvirtual
  rw [← loop'.setList_setList l (before ++ e :: after)]
  exact @LoopMove.remove stakes params ctx lastUpdateTime _ _
    { l with entries := before ++ e :: after } before after e
    (loop.listed_setList l before e after) hvirtual

lemma processEntry_moves {stay : Option Purchase}
    (h : processEntry stakes params ctx lastUpdateTime ⟨l.poolID, l.purchaser⟩ loop e =
      .ok (loop', stay)) :
    LoopMoves stakes params ctx lastUpdateTime
      (loop.setList { l with entries := before ++ e :: after })
      (loop'.setList { l with entries := before ++ stay.toList ++ after }) := by
  unfold processEntry at h
  split at h
  · cases h
    simpa using .refl
  · obtain ⟨⟨loop1, e1⟩, hsettle, hremove⟩ := bind_eq_ok.mp h
    refine .head (settle_move l before after hsettle) ?_
    cases stay with
    | none =>
      simpa using .single (remove_move l before after hremove)
    | some e2 =>
      obtain ⟨rfl, rfl⟩ := removeDeleted_some hremove
      simpa using .refl

lemma processEntries_moves (entries before : List Purchase) {kept : List Purchase}
    (h : processEntries stakes params ctx lastUpdateTime ⟨l.poolID, l.purchaser⟩ entries loop =
      .ok (loop', kept)) :
    LoopMoves stakes params ctx lastUpdateTime
      (loop.setList { l with entries := before ++ entries })
      (loop'.setList { l with entries := before ++ kept }) := by
  induction entries generalizing before loop kept with
  | nil =>
    cases h
    exact .refl
  | cons e entries ih =>
    simp only [processEntries, run_eq_ok, Prod.mk.injEq] at h
    obtain ⟨⟨loop1, stay⟩, hentry, ⟨loop2, rest⟩, hrest, rfl, rfl⟩ := h
    refine .trans (processEntry_moves l before entries hentry) ?_
    have hmoves := ih (before ++ stay.toList) hrest
    simpa only [List.append_assoc] using hmoves

/-- One pair of the queue. -/
lemma processList_moves {pair : PoolPurchaser}
    (h : processList stakes params ctx lastUpdateTime loop pair = .ok loop') :
    LoopMoves stakes params ctx lastUpdateTime loop loop' := by
  unfold processList at h
  split at h
  · cases h
    exact .refl
  · rename_i l hl
    obtain ⟨⟨loop1, kept⟩, hentries, hstore⟩ := bind_eq_ok.mp h
    obtain ⟨hpool, hpurchaser, hstored⟩ := CoverBook.getPurchaseList_eq_some hl
    obtain rfl : pair = ⟨l.poolID, l.purchaser⟩ := by
      rw [hpool, hpurchaser]
    have hmoves := processEntries_moves l l.entries [] hentries
    rw [List.nil_append, List.nil_append, ExpiryLoop.setList_of_stored hstored] at hmoves
    refine hmoves.trans ?_
    rw [pure_eq_ok] at hstore
    subst hstore
    split
    · -- The list is written without entries and then deleted.
      rename_i hnone
      subst hnone
      have hdelete : (loop1.cover.purchaseLists.set { l with entries := [] }).delete l.key =
          loop1.cover.purchaseLists.delete l.key := delete_set _ _
      rw [← hdelete]
      exact .single (@LoopMove.dropList stakes params ctx lastUpdateTime
        (loop1.setList { l with entries := [] }) { l with entries := [] }
        (get_set_self _ _) rfl)
    · exact .refl

end Entries

lemma expireLoop_moves {ctx : Ctx} {s : ShieldState σ} {lastUpdateTime : Time}
    (h : expireLoop ctx s lastUpdateTime = .ok loop) :
    LoopMoves s.stakes s.params.pool ctx lastUpdateTime (ExpiryLoop.start s) loop :=
  foldlM_invariant (fun _ _ _ _ hmoves hlist => hmoves.trans (processList_moves hlist)) .refl h

section Writes

open TimeQueue List

/-- One occurrence of the pair leaves the slice, if there is one. -/
lemma slice_dequeuePurchase_self (q : TimeQueue PoolPurchaser) (pair : PoolPurchaser)
    (t : Time) : (dequeuePurchase q pair t).slice t = (q.slice t).erase pair := by
  have herase : (q.slice t).eraseP (fun p => decide (p = pair)) = (q.slice t).erase pair := by
    rw [erase_eq_eraseP]
    congr 1
    funext p
    exact decide_eq_decide.mpr eq_comm
  unfold dequeuePurchase
  dsimp only
  split
  · rename_i hany
    split
    · rw [slice_setSlice_self, herase]
    · rename_i hlen
      obtain ⟨p, hp, heq⟩ := any_eq_true.mp hany
      have hone : q.slice t = [pair] := by
        obtain ⟨x, hx⟩ := length_eq_one_iff.mp
          (Nat.le_antisymm (not_lt.mp hlen) (length_pos_of_mem hp))
        rw [hx] at hp ⊢
        rw [← mem_singleton.mp hp, of_decide_eq_true heq]
      rw [slice_removeSlice_self, hone, erase_cons_head]
  · rename_i hany
    have hnot : pair ∉ q.slice t := by
      intro hmem
      exact hany (any_eq_true.mpr ⟨pair, hmem, by simp⟩)
    rw [erase_of_not_mem hnot]

lemma slice_dequeuePurchase_of_ne (q : TimeQueue PoolPurchaser) (pair : PoolPurchaser)
    {t t' : Time} (h : t' ≠ t) : (dequeuePurchase q pair t).slice t' = q.slice t' := by
  unfold dequeuePurchase
  dsimp only
  split
  · split
    · exact slice_setSlice_of_ne q _ h
    · exact slice_removeSlice_of_ne q h
  · rfl

lemma MixedDecCoins.sub_eq_ok {a b r : MixedDecCoins} :
    a.sub b = .ok r ↔ a.native.sub b.native = some r.native ∧
      a.foreign.sub b.foreign = some r.foreign := by
  unfold MixedDecCoins.sub
  cases a.native.sub b.native with
  | none => simp
  | some native =>
    cases a.foreign.sub b.foreign with
    | none => simp
    | some foreign =>
      cases r
      simp

end Writes

end Shentu
