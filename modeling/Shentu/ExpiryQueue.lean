import Shentu.PurchaseIDs
import Shentu.Shield.Genesis

/-!
The expiring purchase queue against the purchase lists. Under every time the queue
holds the pool and purchaser of each listed purchase whose protection ends then, as
often as there are such purchases. A sale adds to both sides, a claim touches neither,
and an expired purchase leaves its list and the queue together; a purchase that is
kept under a claim stays in both. The import of a genesis state rebuilds the queue.
-/

namespace Shentu

open Lib Table TimeQueue List

variable {σ : Type}

/-- The pairs of the purchases whose protection ends at a time. -/
def expiringAt (xs : List (PoolPurchaser × Purchase)) (t : Time) : List PoolPurchaser :=
  (xs.filter (fun x => x.2.protectionEndTime = t)).map Prod.fst

/-- The queue holds the purchases `xs`, each under the end of its protection. -/
def Queued (q : TimeQueue PoolPurchaser) (xs : List (PoolPurchaser × Purchase)) : Prop :=
  ∀ t, (q.slice t).Perm (expiringAt xs t)

lemma expiringAt_cons_self (pair : PoolPurchaser) (e : Purchase)
    (xs : List (PoolPurchaser × Purchase)) :
    expiringAt ((pair, e) :: xs) e.protectionEndTime =
      pair :: expiringAt xs e.protectionEndTime := by
  rw [expiringAt, filter_cons_of_pos (by simp)]
  rfl

lemma expiringAt_cons_of_ne {t : Time} {e : Purchase} (pair : PoolPurchaser)
    (xs : List (PoolPurchaser × Purchase)) (h : t ≠ e.protectionEndTime) :
    expiringAt ((pair, e) :: xs) t = expiringAt xs t := by
  rw [expiringAt, filter_cons_of_neg (by simpa using h.symm)]
  rfl

lemma expiringAt_perm {xs ys : List (PoolPurchaser × Purchase)} (h : xs.Perm ys) (t : Time) :
    (expiringAt xs t).Perm (expiringAt ys t) :=
  (h.filter _).map _

namespace Queued

variable {q : TimeQueue PoolPurchaser} {xs ys rest : List (PoolPurchaser × Purchase)}
  {pair : PoolPurchaser} {e e' : Purchase}

lemma of_perm (h : Queued q xs) (hperm : ys.Perm xs) : Queued q ys :=
  fun t => (h t).trans (expiringAt_perm hperm t).symm

lemma replace (h : Queued q xs) (hold : xs.Perm ((pair, e) :: rest))
    (hnew : ys.Perm ((pair, e') :: rest)) (htime : e'.protectionEndTime = e.protectionEndTime) :
    Queued q ys := by
  intro t
  have hsame : expiringAt ((pair, e') :: rest) t = expiringAt ((pair, e) :: rest) t := by
    by_cases ht : t = e.protectionEndTime
    · subst ht
      rw [← htime, expiringAt_cons_self, htime, expiringAt_cons_self]
    · rw [expiringAt_cons_of_ne pair rest ht, expiringAt_cons_of_ne pair rest (htime ▸ ht)]
  have hslice := (h t).trans (expiringAt_perm hold t)
  rw [← hsame] at hslice
  exact hslice.trans (expiringAt_perm hnew t).symm

lemma add (h : Queued q xs) (hnew : ys.Perm ((pair, e) :: xs)) :
    Queued (q.insert e.protectionEndTime pair) ys := by
  intro t
  refine List.Perm.trans ?_ (expiringAt_perm hnew t).symm
  by_cases ht : t = e.protectionEndTime
  · subst ht
    rw [slice_insert_self, expiringAt_cons_self]
    exact (perm_append_singleton _ _).trans ((h _).cons pair)
  · rw [slice_insert_of_ne q pair ht, expiringAt_cons_of_ne pair xs ht]
    exact h t

lemma remove (h : Queued q xs) (hold : xs.Perm ((pair, e) :: rest)) (hnew : ys.Perm rest) :
    Queued (dequeuePurchase q pair e.protectionEndTime) ys := by
  intro t
  refine List.Perm.trans ?_ (expiringAt_perm hnew t).symm
  have hslice := (h t).trans (expiringAt_perm hold t)
  by_cases ht : t = e.protectionEndTime
  · subst ht
    rw [slice_dequeuePurchase_self]
    rw [expiringAt_cons_self] at hslice
    have herase := hslice.erase pair
    rwa [erase_cons_head] at herase
  · rw [slice_dequeuePurchase_of_ne q pair ht]
    rwa [expiringAt_cons_of_ne pair rest ht] at hslice

end Queued

/-- The queue of a cover book holds its purchases. -/
abbrev CoverBook.QueueMatches (b : CoverBook) : Prop := Queued b.purchaseQueue b.purchases

lemma ShieldMove.queueMatches {k : Keepers σ} {rules : MoveRules} {ctx : Ctx}
    {s s' : ShieldState σ} (hmove : ShieldMove k rules ctx s s') (h : s.cover.QueueMatches) :
    s'.cover.QueueMatches := by
  cases hmove with
  | paid | staked => exact h.add (s.purchases_sold ctx _ _ _ _ _)
  | settle hl he _ _ =>
    exact h.replace (heldPurchases_listed hl he) (heldPurchases_replace _ _ _ _ _) rfl
  | remove hl he _ _ => exact h.remove (heldPurchases_listed hl he) (heldPurchases_remove _ _ _ _)
  | dropList hl he => exact h.of_perm (heldPurchases_delete hl he)
  | _ => exact h

lemma ChainMove.queueMatches {k : ChainKeepers σ} {rules : ChainRules σ} {c c' : Chain σ}
    (hmove : ChainMove k rules c c') (h : c.shield.cover.QueueMatches) :
    c'.shield.cover.QueueMatches := by
  rcases hmove.shieldMove_or_claimStep with hshield | hclaim
  · exact hshield.queueMatches h
  · rw [CoverBook.QueueMatches, hclaim.queue]
    rcases hclaim.purchases with hsame | ⟨pair, e, shield, time, rest, hold, hnew⟩
    · rwa [hsame]
    · exact h.replace hold hnew rfl

section Import

lemma heldPurchases_load {ls : List PurchaseList} (hkeys : (ls.map PurchaseList.key).Nodup) :
    (heldPurchases (Table.empty.load ls)).Perm (ls.flatMap PurchaseList.held) := by
  have hrows := rows_load_perm ls Table.empty hkeys (fun _ _ => rfl)
  rw [rows_empty, append_nil] at hrows
  exact hrows.flatMap_right _

lemma expiries_at (ls : List PurchaseList) (t : Time) :
    ((ls.flatMap PurchaseList.expiries).filter (fun x => x.1 = t)).map Prod.snd =
      expiringAt (ls.flatMap PurchaseList.held) t := by
  have hswap : ls.flatMap PurchaseList.expiries =
      (ls.flatMap PurchaseList.held).map (fun x => (x.2.protectionEndTime, x.1)) := by
    rw [map_flatMap]
    apply flatMap_congr
    intro l _
    simp [PurchaseList.expiries, PurchaseList.held, Function.comp_def]
  rw [hswap, filter_map, map_map]
  rfl

lemma initGenesis_queueMatches (world : σ) {data : GenesisState}
    (hlists : (data.purchaseLists.map PurchaseList.key).Nodup) :
    (initGenesis world data).cover.QueueMatches := by
  intro t
  rw [initGenesis, importPurchaseLists_eq]
  have hslice := slice_insertAll (data.purchaseLists.flatMap PurchaseList.expiries)
    Table.empty t
  rw [expiries_at] at hslice
  refine (List.Perm.of_eq hslice).trans ?_
  exact expiringAt_perm (heldPurchases_load hlists).symm t

lemma exportGenesis_keys (s : ShieldState σ) :
    ((exportGenesis s).purchaseLists.map PurchaseList.key).Nodup :=
  List.Nodup.map_on (fun _ ha _ hb => s.cover.purchaseLists.key_inj_of_mem ha hb)
    s.cover.purchaseLists.rows_nodup

end Import

/-- What can happen to a chain: the events of its blocks, and an export of the shield store that
a new chain imports. -/
inductive LifeEvent (σ : Type)
  | event (e : Event σ)
  | restart (ctx : Ctx)

def live (k : ChainKeepers σ) (c : Chain σ) : LifeEvent σ → Except Fault (Chain σ)
  | .event e => exec k c e
  | .restart ctx => .ok { c with
      ctx := ctx, shield := initGenesis c.shield.world (exportGenesis c.shield) }

/-- A chain that starts with an imported shield store. -/
def Chain.imported (data : GenesisState) (govParams : GovParams) (world : σ) (ctx : Ctx) :
    Chain σ :=
  { ctx := ctx, shield := initGenesis world data, gov := GovState.empty govParams }

lemma ChainSound.imported {data : GenesisState} {world : σ}
    (hparams : (initGenesis world data).params.validate) (govParams : GovParams) (ctx : Ctx) :
    ChainSound (Chain.imported data govParams world ctx) where
  gov := GovSound.empty govParams
  voted := by
    intro id p hp
    cases hp
  pool := hparams.1
  rate := hparams.2

lemma live_queueMatches {k : ChainKeepers σ} {c c' : Chain σ} {e : LifeEvent σ}
    (hsound : ChainSound c) (h : c.shield.cover.QueueMatches) (hlive : live k c e = .ok c') :
    ChainSound c' ∧ c'.shield.cover.QueueMatches := by
  cases e with
  | event e =>
    have hstep := exec_step_any hsound hlive
    refine ⟨hsound.step hstep, ?_⟩
    exact reflTransGen_invariant (P := fun c : Chain σ => c.shield.cover.QueueMatches)
      (fun _ _ hq hmove => hmove.queueMatches hq) hstep.moves h
  | restart ctx =>
    cases hlive
    constructor
    · exact ⟨hsound.gov, hsound.voted, hsound.pool, hsound.rate⟩
    · exact initGenesis_queueMatches _ (exportGenesis_keys c.shield)

/-- How many entries of a purchaser in a pool have protection that ends at a time. -/
def CoverBook.entriesEndingAt (b : CoverBook) (poolID : Nat) (purchaser : AccAddress) (t : Time) :
    Nat :=
  match b.getPurchaseList poolID purchaser with
  | none => 0
  | some l => l.entries.countP (fun e => e.protectionEndTime = t)

lemma count_expiringAt_held (l : PurchaseList) (t : Time) :
    (expiringAt l.held t).count l.pair = l.entries.countP (fun e => e.protectionEndTime = t) := by
  have hreplicate : expiringAt l.held t =
      (l.entries.filter (fun e => e.protectionEndTime = t)).map (fun _ => l.pair) := by
    rw [expiringAt, PurchaseList.held, filter_map, map_map]
    rfl
  rw [hreplicate, map_const', count_replicate_self, countP_eq_length_filter]

/-- The pairs of the purchases of a book, counted. -/
lemma CoverBook.count_expiringAt (b : CoverBook) (poolID : Nat) (purchaser : AccAddress)
    (t : Time) :
    (expiringAt b.purchases t).count ⟨poolID, purchaser⟩ =
      b.entriesEndingAt poolID purchaser t := by
  have hnone : ∀ table : Table PurchaseList.key, table.get (poolKey poolID purchaser) = none →
      (expiringAt (heldPurchases table) t).count ⟨poolID, purchaser⟩ = 0 := by
    intro table hget
    apply count_eq_zero_of_not_mem
    intro hmem
    obtain ⟨x, hx, hpair⟩ := mem_map.mp hmem
    obtain ⟨l, hl, hlpair, -⟩ := mem_heldPurchases.mp (mem_of_mem_filter hx)
    have heq : l.pair = ⟨poolID, purchaser⟩ := hlpair.trans hpair
    have hkey : l.key = poolKey poolID purchaser :=
      poolKey_inj.mpr ⟨congrArg PoolPurchaser.poolID heq, congrArg PoolPurchaser.purchaser heq⟩
    have hstored := Table.get_of_mem hl
    rw [hkey, hget] at hstored
    cases hstored
  unfold entriesEndingAt
  cases hget : b.getPurchaseList poolID purchaser with
  | none => exact hnone b.purchaseLists hget
  | some l =>
    obtain ⟨rfl, rfl, -⟩ := getPurchaseList_eq_some hget
    have hperm : b.purchases.Perm
        (l.held ++ heldPurchases (b.purchaseLists.delete (poolKey l.poolID l.purchaser))) :=
      (rows_perm_of_get hget).flatMap_right _
    have hsplit : expiringAt (l.held ++ heldPurchases
        (b.purchaseLists.delete (poolKey l.poolID l.purchaser))) t =
        expiringAt l.held t ++ expiringAt (heldPurchases
          (b.purchaseLists.delete (poolKey l.poolID l.purchaser))) t := by
      rw [expiringAt, filter_append, map_append]
      rfl
    have hothers := hnone _ (get_delete_self b.purchaseLists _)
    rw [(expiringAt_perm hperm t).count_eq, hsplit, count_append, hothers, Nat.add_zero]
    exact count_expiringAt_held l t

/-- From the import of a genesis state on, a pair stands in a slice of the queue as often as
its purchaser has entries in its pool with protection that ends at the time of the slice. -/
theorem expiryQueue_multiplicity {k : ChainKeepers σ} {data : GenesisState} {govParams : GovParams}
    {world : σ} {ctx : Ctx} {es : List (LifeEvent σ)} {c : Chain σ}
    (hparams : (initGenesis world data).params.validate)
    (hlists : (data.purchaseLists.map PurchaseList.key).Nodup)
    (hrun : es.foldlM (live k) (Chain.imported data govParams world ctx) = .ok c) (t : Time)
    (poolID : Nat) (purchaser : AccAddress) :
    (c.shield.cover.purchaseQueue.slice t).count ⟨poolID, purchaser⟩ =
      c.shield.cover.entriesEndingAt poolID purchaser t := by
  have hmatches : ChainSound c ∧ c.shield.cover.QueueMatches := by
    refine foldlM_invariant (P := fun c : Chain σ => ChainSound c ∧ c.shield.cover.QueueMatches)
      ?_ ⟨ChainSound.imported hparams govParams ctx, initGenesis_queueMatches world hlists⟩ hrun
    rintro e - c₁ c₂ ⟨hsound, hq⟩ hlive
    exact live_queueMatches hsound hq hlive
  rw [(hmatches.2 t).count_eq]
  exact c.shield.cover.count_expiringAt poolID purchaser t

/-- The chain of the small world, started by an import. -/
def importedLedger : Chain Ledger :=
  Chain.imported (exportGenesis ledgerStart.shield) shortVotingParams Ledger.funded ⟨1000, 200⟩

/-- Address 5 buys shields of 50 and 10 that are protected until 1101. The store is exported and
imported, and at 1095 the purchase of 50 is claimed and so kept until 1115. -/
def claimedLife : List (LifeEvent Ledger) :=
  (txBlock 1 (coverMsgs ++ [.purchaseShield 1 (uctk 10) "shop" 5]) .reject).events.map .event ++
    .restart ⟨1001, 201⟩ :: (txBlock 94 [claimMsg 20 5] .reject).events.map .event

/-- The end of the next block. -/
def nextBlock : List (LifeEvent Ledger) := [.event (.beginBlock 7), .event .endBlocker]

/-- Before the end of the protection the pair is queued twice, and after the next block, in which
only the purchase without a claim is removed, once. -/
theorem expiryQueue_multiplicity_claimed :
    ∃ c c' : Chain Ledger,
      claimedLife.foldlM (live ledgerChainKeepers) importedLedger = .ok c ∧
      (claimedLife ++ nextBlock).foldlM (live ledgerChainKeepers) importedLedger = .ok c' ∧
      c.shield.cover.entriesEndingAt 1 5 1101 = 2 ∧
      (c.shield.cover.purchaseQueue.slice 1101).count ⟨1, 5⟩ = 2 ∧
      c'.shield.cover.entriesEndingAt 1 5 1101 = 1 ∧
      (c'.shield.cover.purchaseQueue.slice 1101).count ⟨1, 5⟩ = 1 := by
  obtain ⟨c, hc, htwo⟩ : ∃ c, claimedLife.foldlM (live ledgerChainKeepers) importedLedger = .ok c ∧
      c.shield.cover.entriesEndingAt 1 5 1101 = 2 := by
    decide +kernel
  have hrun' : OkAnd ((claimedLife ++ nextBlock).foldlM (live ledgerChainKeepers) importedLedger)
      (fun c => c.shield.cover.entriesEndingAt 1 5 1101 = 1) := by
    decide +kernel
  obtain ⟨c', hc', hone⟩ := hrun'.exists
  have hparams : (initGenesis Ledger.funded (exportGenesis ledgerStart.shield)).params.validate :=
    shortPeriodParams_validate
  have hlists := exportGenesis_keys ledgerStart.shield
  refine ⟨c, c', hc, hc', htwo, ?_, hone, ?_⟩
  · rw [expiryQueue_multiplicity hparams hlists hc, htwo]
  · rw [expiryQueue_multiplicity hparams hlists hc', hone]

end Shentu
