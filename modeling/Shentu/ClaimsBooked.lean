import Shentu.PurchaseIDs
import Shentu.ClaimUndone

/-!
The books of the claims that are being voted on. The total claimed is the sum of
their losses, and the shield of a purchase together with the losses claimed from it
is at most what was bought. Both need losses that are not negative; the handler
accepts negative ones.
-/

namespace Shentu

open Lib Table CoverBook Proposal

variable {σ : Type}

/-- The loss of a claim in a denomination, zero for another proposal. -/
def Proposal.lossIn (d : Denom) (p : Proposal) : Int :=
  match p.content with
  | .shieldClaim claim => claim.loss.amountOf d
  | _ => 0

/-- The loss that a claim takes from one purchase. -/
def Proposal.lossOn (d : Denom) (id : Nat) (p : Proposal) : Int :=
  match p.content with
  | .shieldClaim claim => if claim.purchaseID = id then claim.loss.amountOf d else 0
  | _ => 0

variable {p : Proposal}

lemma Proposal.lossIn_of_claim {claim : ShieldClaimProposal}
    (h : p.content = .shieldClaim claim) (d : Denom) : p.lossIn d = claim.loss.amountOf d := by
  simp only [lossIn, h]

lemma Proposal.lossOn_of_claim {claim : ShieldClaimProposal}
    (h : p.content = .shieldClaim claim) (d : Denom) (id : Nat) :
    p.lossOn d id = if claim.purchaseID = id then claim.loss.amountOf d else 0 := by
  simp only [lossOn, h]

lemma Proposal.lossOn_nonneg {d : Denom} (h : 0 ≤ p.lossIn d) (id : Nat) : 0 ≤ p.lossOn d id := by
  unfold lossIn at h
  unfold lossOn
  split
  · rename_i claim hclaim
    rw [hclaim] at h
    split
    · exact h
    · exact le_refl 0
  · exact le_refl 0

section Claims

variable {claims : Table Proposal.proposalID} {p : Proposal}

lemma total_addClaim (f : Proposal → Int) (hnone : claims.get p.proposalID = none) :
    (claims.set p).total f = claims.total f + f p := by
  rw [total_set, valueAt_of_get_none hnone]
  omega

lemma total_endClaim (f : Proposal → Int) (hp : claims.get p.proposalID = some p) :
    (claims.delete p.proposalID).total f = claims.total f - f p := by
  rw [total_delete, valueAt_of_get hp]

lemma total_nextRound {f : Proposal → Int} (hp : claims.get p.proposalID = some p)
    {p' : Proposal} (hid : p'.proposalID = p.proposalID) (hf : f p' = f p) :
    (claims.set p').total f = claims.total f := by
  rw [total_set, hid, valueAt_of_get hp, hf]
  omega

end Claims

/-- The losses of the open claims are not negative, and the total claimed is their sum. -/
structure LossesBooked (d : Denom) (claims : Table Proposal.proposalID) (totalClaimed : Int) :
    Prop where
  nonneg : ∀ p ∈ claims.rows, 0 ≤ p.lossIn d
  total : totalClaimed = claims.total (lossIn d)

namespace LossesBooked

variable {d : Denom} {claims : Table Proposal.proposalID} {totalClaimed : Int} {p : Proposal}

lemma totalClaimed_nonneg (h : LossesBooked d claims totalClaimed) : 0 ≤ totalClaimed := by
  rw [h.total]
  exact total_nonneg h.nonneg

lemma lossOn_nonneg (h : LossesBooked d claims totalClaimed) (id : Nat) :
    0 ≤ claims.total (lossOn d id) :=
  total_nonneg (fun p hp => Proposal.lossOn_nonneg (h.nonneg p hp) id)

lemma add (h : LossesBooked d claims totalClaimed) (hnone : claims.get p.proposalID = none)
    (hloss : 0 ≤ p.lossIn d) : LossesBooked d (claims.set p) (totalClaimed + p.lossIn d) := by
  refine ⟨?_, ?_⟩
  · intro q hq
    rcases mem_set.mp hq with rfl | hold
    · exact hloss
    · exact h.nonneg q hold.1
  · rw [total_addClaim _ hnone, h.total]

lemma close (h : LossesBooked d claims totalClaimed) (hp : claims.get p.proposalID = some p) :
    LossesBooked d (claims.delete p.proposalID) (totalClaimed - p.lossIn d) := by
  refine ⟨fun q hq => h.nonneg q (mem_delete.mp hq).1, ?_⟩
  rw [total_endClaim _ hp, h.total]

lemma nextRound (h : LossesBooked d claims totalClaimed) (hp : claims.get p.proposalID = some p)
    {p' : Proposal} (hid : p'.proposalID = p.proposalID) (hcontent : p'.content = p.content) :
    LossesBooked d (claims.set p') totalClaimed := by
  have hloss : p'.lossIn d = p.lossIn d := by
    simp only [lossIn, hcontent]
  refine ⟨?_, ?_⟩
  · intro q hq
    rcases mem_set.mp hq with rfl | hold
    · rw [hloss]
      exact h.nonneg p (mem_of_get hp)
    · exact h.nonneg q hold.1
  · rw [total_nextRound hp hid hloss, h.total]

end LossesBooked

/-- The shield of the purchase with an ID and the losses claimed from it are within a bound. -/
def WithinBought (d : Denom) (id : Nat) (bound : Int) (xs : List (PoolPurchaser × Purchase))
    (claims : Table Proposal.proposalID) : Prop :=
  ∀ x ∈ xs, x.2.purchaseID = id → x.2.shield + claims.total (lossOn d id) ≤ bound

namespace WithinBought

variable {d : Denom} {id next : Nat} {bound : Int} {xs ys rest : List (PoolPurchaser × Purchase)}
  {claims claims' : Table Proposal.proposalID} {pair pair' : PoolPurchaser} {e e' : Purchase}

lemma of_subset (h : WithinBought d id bound xs claims) (hsub : ∀ y ∈ ys, y ∈ xs) :
    WithinBought d id bound ys claims :=
  fun y hy => h y (hsub y hy)

lemma mono (h : WithinBought d id bound xs claims)
    (hle : claims'.total (lossOn d id) ≤ claims.total (lossOn d id)) :
    WithinBought d id bound xs claims' := by
  intro x hx hid
  have hx' := h x hx hid
  omega

lemma add (h : WithinBought d id bound xs claims) (hnew : ys.Perm ((pair, e) :: xs))
    (hne : e.purchaseID ≠ id) : WithinBought d id bound ys claims := by
  intro y hy hid
  rcases List.mem_cons.mp (hnew.mem_iff.mp hy) with rfl | hold
  · exact absurd hid hne
  · exact h y hold hid

lemma replace (h : WithinBought d id bound xs claims) (hfresh : FreshIDs xs next)
    (hold : xs.Perm ((pair, e) :: rest)) (hnew : ys.Perm ((pair', e') :: rest))
    (hid : e'.purchaseID = e.purchaseID)
    (hself : e.purchaseID = id → e'.shield + claims'.total (lossOn d id) ≤
      e.shield + claims.total (lossOn d id))
    (hother : e.purchaseID ≠ id → claims'.total (lossOn d id) ≤
      claims.total (lossOn d id)) : WithinBought d id bound ys claims' := by
  intro y hy hyid
  rcases List.mem_cons.mp (hnew.mem_iff.mp hy) with rfl | hrest
  · have heid : e.purchaseID = id := hid.symm.trans hyid
    have he := h (pair, e) (hold.mem_iff.mpr List.mem_cons_self) heid
    exact (hself heid).trans he
  · have hne : e.purchaseID ≠ id := fun heid => hfresh.ne_of_rest hold hrest (hyid.trans heid.symm)
    have hy' := h y (hold.mem_iff.mpr (List.mem_cons_of_mem _ hrest)) hyid
    have hle := hother hne
    omega

end WithinBought

/-- Losses are not negative. -/
def lossRules : ChainRules σ := { ChainRules.any with loss := fun l => 0 ≤ l }

variable {ctx : Ctx} {s s' : ShieldState σ} {k : ChainKeepers σ} {rules : ChainRules σ}
  {c c' : Chain σ}

lemma ShieldMove.totalClaimed {k : Keepers σ} {rules : MoveRules}
    (hmove : ShieldMove k rules ctx s s') : s'.cover.totalClaimed = s.cover.totalClaimed := by
  cases hmove <;> rfl

/-- Every move keeps the losses booked if the losses of new claims are not negative. -/
lemma ChainMove.lossesBooked (hrules : ∀ l, rules.loss l → 0 ≤ l) (hmove : ChainMove k rules c c')
    (h : LossesBooked k.bondDenom c.gov.openClaims c.shield.cover.totalClaimed) :
    LossesBooked k.bondDenom c'.gov.openClaims c'.shield.cover.totalClaimed := by
  cases hmove with
  | shield hshield =>
    rw [hshield.totalClaimed]
    exact h
  | tick _ => exact h
  | gov _ hclaims _ =>
    simp only [Chain.withGov, hclaims]
    exact h
  | submit _ _ _ hnone hclaims hcontent _ _ hloss hl he _ hsecure =>
    obtain ⟨pool, ratio, collateral, world, -, -, -, -, -, -, rfl⟩ :=
      secureCollaterals_cases hl he hsecure
    have hlossIn := lossIn_of_claim hcontent k.bondDenom
    have hadd := h.add hnone (hlossIn ▸ hrules _ hloss)
    rw [hlossIn] at hadd
    rw [hclaims]
    exact hadd
  | @nextRound g p _ hp hclaims =>
    rw [hclaims]
    exact h.nextRound hp (inNextPeriod_proposalID _ _ _) (inNextPeriod_content _ _ _)
  | veto _ hp hcontent hclaims =>
    have hclose := h.close hp
    rw [lossIn_of_claim hcontent] at hclose
    rw [hclaims]
    exact hclose
  | @reject g p claim _ hp hcontent hclaims _ =>
    have hclose := h.close hp
    rw [lossIn_of_claim hcontent] at hclose
    obtain ⟨-, htotal⟩ := rejectClaim_totals c.shield.cover claim.poolID p.proposerAddress
      claim.purchaseID (claim.loss.amountOf k.bondDenom)
    rw [hclaims, htotal]
    exact hclose
  | pay _ hp hcontent _ hclaims hpay =>
    obtain ⟨b, world, rfl⟩ := createReimbursement_cases hpay
    have hclose := h.close hp
    rw [lossIn_of_claim hcontent] at hclose
    rw [hclaims]
    exact hclose

lemma ShieldMove.withinBought {k : Keepers σ} {rules : MoveRules}
    (hmove : ShieldMove k rules ctx s s') (hfresh : s.cover.FreshIDs)
    {d : Denom} {id : Nat} {bound : Int} {claims : Table Proposal.proposalID}
    (hlt : id < s.cover.nextPurchaseID) (h : WithinBought d id bound s.cover.purchases claims) :
    WithinBought d id bound s'.cover.purchases claims := by
  cases hmove with
  | paid | staked => exact h.add (s.purchases_sold ctx _ _ _ _ _) (ne_of_gt hlt)
  | settle hl he _ _ =>
    exact h.replace hfresh (heldPurchases_listed hl he) (heldPurchases_replace _ _ _ _ _) rfl
      (fun _ => le_refl _) (fun _ => le_refl _)
  | remove hl he _ _ =>
    refine h.of_subset ?_
    intro y hy
    have hrest := (heldPurchases_remove _ _ _ _).mem_iff.mp hy
    exact (heldPurchases_listed hl he).mem_iff.mpr (List.mem_cons_of_mem _ hrest)
  | dropList hl he =>
    exact h.of_subset (fun y hy => (heldPurchases_delete hl he).mem_iff.mp hy)
  | _ => exact h

lemma ShieldMove.nextPurchaseID_le {k : Keepers σ} {rules : MoveRules}
    (hmove : ShieldMove k rules ctx s s') : s.cover.nextPurchaseID ≤ s'.cover.nextPurchaseID := by
  cases hmove with
  | takeID | paid | staked => exact Nat.le_succ _
  | _ => exact le_refl _

lemma ChainMove.nextPurchaseID_le (hmove : ChainMove k rules c c') :
    c.shield.cover.nextPurchaseID ≤ c'.shield.cover.nextPurchaseID := by
  rcases hmove.shieldMove_or_claimStep with hshield | hclaim
  · exact hshield.nextPurchaseID_le
  · exact hclaim.next.ge

/-- What a run keeps about the claims and about one purchase. -/
structure ClaimsWithin (d : Denom) (id : Nat) (bound : Int) (c : Chain σ) : Prop where
  fresh : c.shield.cover.FreshIDs
  booked : LossesBooked d c.gov.openClaims c.shield.cover.totalClaimed
  taken : id < c.shield.cover.nextPurchaseID
  within : WithinBought d id bound c.shield.cover.purchases c.gov.openClaims

lemma ChainMove.claimsWithin (hmove : ChainMove k lossRules c c') {id : Nat} {bound : Int}
    (h : ClaimsWithin k.bondDenom id bound c) : ClaimsWithin k.bondDenom id bound c' := by
  refine ⟨hmove.freshIDs h.fresh, hmove.lossesBooked (fun _ hl => hl) h.booked,
    lt_of_lt_of_le h.taken hmove.nextPurchaseID_le, ?_⟩
  have hwithin := h.within
  have hended : ∀ {p : Proposal}, c.gov.openClaims.get p.proposalID = some p →
      (c.gov.openClaims.delete p.proposalID).total (lossOn k.bondDenom id) ≤
        c.gov.openClaims.total (lossOn k.bondDenom id) := by
    intro p hp
    have hnonneg := lossOn_nonneg (h.booked.nonneg p (mem_of_get hp)) id
    rw [total_endClaim _ hp]
    omega
  cases hmove with
  | shield hshield => exact hshield.withinBought h.fresh h.taken hwithin
  | tick _ => exact hwithin
  | gov _ hclaims _ =>
    simp only [Chain.withGov, hclaims]
    exact hwithin
  | @submit g p claim l e s _ _ _ hnone hclaims hcontent _ _ hloss hl he _ hsecure =>
    obtain ⟨pool, ratio, collateral, world, -, -, -, -, -, -, rfl⟩ :=
      secureCollaterals_cases hl he hsecure
    obtain ⟨-, -, hstored⟩ := getPurchaseList_eq_some hl
    obtain ⟨rest, hold, hnew⟩ := heldPurchases_edit hstored he _
    have heid : e.purchaseID = claim.purchaseID := by
      simpa using List.find?_some he
    have htotal := total_addClaim (lossOn k.bondDenom id) hnone
    rw [lossOn_of_claim hcontent, ← heid] at htotal
    rw [hclaims]
    refine hwithin.replace h.fresh hold hnew rfl ?_ ?_
    · intro hid
      rw [if_pos hid] at htotal
      simp only [Purchase.claim]
      omega
    · intro hid
      rw [if_neg hid] at htotal
      omega
  | @nextRound g p _ hp hclaims =>
    rw [hclaims]
    refine hwithin.mono (le_of_eq (total_nextRound hp (inNextPeriod_proposalID _ _ _) ?_))
    simp only [lossOn, inNextPeriod_content]
  | veto _ hp _ hclaims =>
    rw [hclaims]
    exact hwithin.mono (hended hp)
  | @reject g p claim _ hp hcontent hclaims _ =>
    rw [hclaims]
    have htotal := total_endClaim (lossOn k.bondDenom id) hp
    rw [lossOn_of_claim hcontent] at htotal
    rcases purchases_rejectClaim c.shield.cover claim.poolID p.proposerAddress
      claim.purchaseID (claim.loss.amountOf k.bondDenom) with
      ⟨e, rest, -, hfind, hold, hnew⟩ | ⟨-, hsame⟩
    · have heid := (mem_purchases_of_find hfind).2
      rw [← heid] at htotal
      refine hwithin.replace h.fresh hold hnew rfl ?_ (fun _ => hended hp)
      intro hid
      rw [if_pos hid] at htotal
      dsimp only
      omega
    · rw [hsame]
      exact hwithin.mono (hended hp)
  | pay _ hp _ _ hclaims hpay =>
    obtain ⟨b, world, rfl⟩ := createReimbursement_cases hpay
    rw [hclaims]
    exact hwithin.mono (hended hp)

/-- The open claims are on purchases with IDs below `n`. -/
def ClaimsBelow (n : Nat) (claims : Table Proposal.proposalID) : Prop :=
  ∀ p ∈ claims.rows, ∀ claim, p.content = .shieldClaim claim → claim.purchaseID < n

namespace ClaimsBelow

variable {n : Nat} {claims : Table Proposal.proposalID}

lemma of_set (h : ClaimsBelow n claims) {p : Proposal}
    (hp : ∀ claim, p.content = .shieldClaim claim → claim.purchaseID < n) :
    ClaimsBelow n (claims.set p) := by
  exact forall_mem_set hp h

lemma of_delete (h : ClaimsBelow n claims) (id : Nat) : ClaimsBelow n (claims.delete id) :=
  fun q hq => h q (mem_delete.mp hq).1

lemma total_lossOn (h : ClaimsBelow n claims) (d : Denom) {id : Nat} (hid : n ≤ id) :
    claims.total (lossOn d id) = 0 := by
  have hzero : claims.total (lossOn d id) = claims.total (fun _ => 0) := by
    refine total_congr ?_
    intro p hp
    unfold lossOn
    split
    · rename_i claim hclaim
      have hlt := h p hp claim hclaim
      rw [if_neg (by omega)]
    · rfl
  rw [hzero]
  simp [Table.total]

end ClaimsBelow

/-- A claim is submitted on a purchase that exists, so the claims stay below a number if no
claim is submitted or no purchase has an ID from that number on. -/
lemma ChainMove.claimsBelow (hmove : ChainMove k rules c c') (hfresh : c.shield.cover.FreshIDs)
    {n : Nat} (hnew : (∀ l, ¬ rules.loss l) ∨ c.shield.cover.nextPurchaseID ≤ n)
    (h : ClaimsBelow n c.gov.openClaims) : ClaimsBelow n c'.gov.openClaims := by
  cases hmove with
  | shield | tick => exact h
  | gov _ hclaims _ =>
    simp only [Chain.withGov, hclaims]
    exact h
  | @submit g p claim l e s _ _ _ hnone hclaims hcontent _ _ hloss hl he _ hsecure =>
    rw [hclaims]
    refine h.of_set ?_
    intro claim' hclaim'
    obtain rfl : claim = claim' := by
      rw [hcontent] at hclaim'
      exact Content.shieldClaim.inj hclaim'
    rcases hnew with hnone | hle
    · exact absurd hloss (hnone _)
    · have hfind : c.shield.cover.findPurchase claim.poolID claim.proposer claim.purchaseID =
          some e := by
        rw [CoverBook.findPurchase, hl, Option.bind_some, he]
      obtain ⟨hmem, heid⟩ := mem_purchases_of_find hfind
      have hlt := hfresh.lt_next hmem
      rw [heid] at hlt
      omega
  | @nextRound g p _ hp hclaims =>
    rw [hclaims]
    refine h.of_set ?_
    rw [inNextPeriod_content]
    exact h p (mem_of_get hp)
  | veto _ _ _ hclaims =>
    rw [hclaims]
    exact h.of_delete _
  | reject _ _ _ hclaims _ =>
    rw [hclaims]
    exact h.of_delete _
  | pay _ _ _ _ hclaims _ =>
    rw [hclaims]
    exact h.of_delete _

/-- What a run keeps about all claims. -/
structure ClaimsSound (d : Denom) (c : Chain σ) : Prop where
  fresh : c.shield.cover.FreshIDs
  booked : LossesBooked d c.gov.openClaims c.shield.cover.totalClaimed
  below : ClaimsBelow c.shield.cover.nextPurchaseID c.gov.openClaims

lemma ChainMove.claimsSound (hrules : ∀ l, rules.loss l → 0 ≤ l) (hmove : ChainMove k rules c c')
    (h : ClaimsSound k.bondDenom c) : ClaimsSound k.bondDenom c' := by
  refine ⟨hmove.freshIDs h.fresh, hmove.lossesBooked hrules h.booked, ?_⟩
  have hbelow := hmove.claimsBelow h.fresh (.inr (le_refl _)) h.below
  exact fun p hp claim hclaim => lt_of_lt_of_le (hbelow p hp claim hclaim) hmove.nextPurchaseID_le

lemma ClaimsSound.empty (d : Denom) (params : ShieldParams) (govParams : GovParams) (world : σ)
    (ctx : Ctx) : ClaimsSound d (Chain.empty params govParams world ctx) := by
  refine ⟨⟨List.nodup_nil, ?_⟩, ⟨?_, rfl⟩, ?_⟩
  · intro id hid
    cases hid
  · intro p hp
    cases hp
  · intro p hp
    cases hp

/-- Every loss that is claimed in a run is not negative. -/
def NonnegativeLoss (k : ChainKeepers σ) (_ : Chain σ) (e : Event σ) : Prop :=
  SubmittedLoss k (fun l => 0 ≤ l) e

variable {e : Event σ}

lemma eventAllowed_of_loss {P : Int → Prop} (h : SubmittedLoss k P e) :
    EventAllowed k { ChainRules.any with loss := P } c e := by
  have hfree : PaymentsFree ({ ChainRules.any with loss := P } : ChainRules σ) :=
    ⟨fun _ => trivial, fun _ => trivial, fun _ _ => rfl⟩
  exact hfree.eventAllowed h (fun _ _ _ _ _ _ => trivial) (fun _ _ _ _ _ _ _ _ _ _ => trivial)

/-- The open claims after an event are on purchases from before the event, if the event makes
a purchase. -/
lemma claimsBelow_of_purchase
    (hsound : ChainSound c) (h : ClaimsSound k.bondDenom c) (hexec : exec k c e = .ok c')
    (hmore : c.shield.cover.nextPurchaseID < c'.shield.cover.nextPurchaseID) :
    ClaimsBelow c.shield.cover.nextPurchaseID c'.gov.openClaims := by
  have hquiet : SubmittedLoss k (fun _ => False) e := by
    unfold SubmittedLoss
    split
    · exact absurd (submittedClaim_nextPurchaseID hexec) (ne_of_gt hmore)
    · trivial
  have hstep : ChainStep k { ChainRules.any with loss := fun _ => False } c c' :=
    exec_step (.const k) (fun _ => trivial) hsound.rate hsound.gov hsound.voted
      (eventAllowed_of_loss hquiet) hexec
  refine (reflTransGen_invariant (P := fun c1 : Chain σ => c1.shield.cover.FreshIDs ∧
    ClaimsBelow c.shield.cover.nextPurchaseID c1.gov.openClaims) ?_ hstep.moves
    ⟨h.fresh, h.below⟩).2
  rintro c1 c2 ⟨hfresh, hbelow⟩ hmove
  exact ⟨hmove.freshIDs hfresh, hmove.claimsBelow hfresh (.inl (fun _ hfalse => hfalse)) hbelow⟩

lemma claimsWithin_of_purchase (hsound : ChainSound c)
    (h : ClaimsSound k.bondDenom c) (h' : ClaimsSound k.bondDenom c') (hexec : exec k c e = .ok c')
    {x : PoolPurchaser × Purchase} (hx : x ∈ c'.shield.cover.purchases)
    (hnew : c.shield.cover.nextPurchaseID ≤ x.2.purchaseID) :
    ClaimsWithin k.bondDenom x.2.purchaseID x.2.shield c' := by
  have hlt := h'.fresh.lt_next hx
  have hbelow := claimsBelow_of_purchase hsound h hexec (lt_of_le_of_lt hnew hlt)
  refine ⟨h'.fresh, h'.booked, hlt, ?_⟩
  intro y hy hid
  rw [hbelow.total_lossOn k.bondDenom hnew, h'.fresh.eq_of_id hy hx hid]
  omega

/-- In a run whose claimed losses are not negative the total claimed is the sum of the losses
of the open claims and not negative, and no purchase exceeds what it was when it was made. -/
theorem claimsBooked_of_run {k : ChainKeepers σ} {params : ShieldParams} {govParams : GovParams}
    {world : σ} {ctx : Ctx} {es : List (Event σ)} {c : Chain σ} (hparams : params.validate)
    (hmeet : StepsMeet (NonnegativeLoss k) (exec k) (Chain.empty params govParams world ctx) es)
    (hrun : run k (Chain.empty params govParams world ctx) es = .ok c) :
    0 ≤ c.shield.cover.totalClaimed ∧
      c.shield.cover.totalClaimed = c.gov.openClaims.total (lossIn k.bondDenom) ∧
      ∀ es₁ e es₂ c₁ c₂, es = es₁ ++ e :: es₂ →
        run k (Chain.empty params govParams world ctx) es₁ = .ok c₁ → exec k c₁ e = .ok c₂ →
        ∀ x ∈ c₂.shield.cover.purchases, c₁.shield.cover.nextPurchaseID ≤ x.2.purchaseID →
        ∀ y ∈ c.shield.cover.purchases, y.2.purchaseID = x.2.purchaseID →
          y.2.shield ≤ x.2.shield := by
  have hkeep : ∀ (es : List (Event σ)) {c₁ c₂ : Chain σ}, ChainSound c₁ →
      ClaimsSound k.bondDenom c₁ → StepsMeet (NonnegativeLoss k) (exec k) c₁ es →
      run k c₁ es = .ok c₂ → ChainSound c₂ ∧ ClaimsSound k.bondDenom c₂ := by
    intro es c₁ c₂ hsound h hmeet hrun
    exact run_invariant lossRules (.const k) (fun _ => trivial)
      (fun _ _ h hmove => hmove.claimsSound (fun _ hl => hl) h)
      (fun _ _ _ _ hloss => eventAllowed_of_loss hloss) hsound h hmeet hrun
  have hstart := ChainSound.empty hparams govParams world ctx
  have hempty := ClaimsSound.empty k.bondDenom params govParams world ctx
  obtain ⟨-, hfinal⟩ := hkeep es hstart hempty hmeet hrun
  refine ⟨hfinal.booked.totalClaimed_nonneg, hfinal.booked.total, ?_⟩
  rintro es₁ e es₂ c₁ c₂ rfl hrun₁ hexec x hx hnew y hy hid
  obtain ⟨hmeet₁, hlater⟩ := stepsMeet_append.mp hmeet
  obtain ⟨hd, hmeet₂⟩ := hlater c₁ hrun₁
  obtain ⟨c₁', hrun₁', hrest⟩ := foldlM_append_eq_ok.mp hrun
  cases hrun₁.symm.trans hrun₁'
  obtain ⟨c₂', hexec', hrun₂⟩ := foldlM_cons_eq_ok.mp hrest
  cases hexec.symm.trans hexec'
  obtain ⟨hsound₁, h₁⟩ := hkeep es₁ hstart hempty hmeet₁ hrun₁
  obtain ⟨hsound₂, h₂⟩ := hkeep [e] hsound₁ h₁ ⟨hd, fun _ _ => trivial⟩
    (foldlM_cons_eq_ok.mpr ⟨c₂, hexec, rfl⟩)
  have hwithin := run_invariant lossRules (d := NonnegativeLoss k) (.const k)
    (fun _ => trivial) (fun _ _ h hmove => hmove.claimsWithin h)
    (fun _ _ _ _ hloss => eventAllowed_of_loss hloss) hsound₂
    (claimsWithin_of_purchase hsound₁ h₁ h₂ hexec hx hnew) (hmeet₂ c₂ hexec) hrun₂
  have hbound := hwithin.2.within y hy hid
  have hnonneg := hwithin.2.booked.lossOn_nonneg x.2.purchaseID
  omega

/-- While the claim of 20 is being voted on, 20 is claimed in total. -/
theorem claimsBooked_one_claim :
    ∃ c : Chain Ledger, run ledgerChainKeepers ledgerStart (claimEvents 20 5) = .ok c ∧
      c.shield.cover.totalClaimed = 20 ∧
      c.shield.cover.totalClaimed = c.gov.openClaims.total (lossIn microCTKDenom) := by
  obtain ⟨c, hc, htotal⟩ : ∃ c, run ledgerChainKeepers ledgerStart (claimEvents 20 5) = .ok c ∧
      c.shield.cover.totalClaimed = 20 := by
    decide +kernel
  have hlosses : ∀ e ∈ claimEvents 20 5, SubmittedLoss ledgerChainKeepers (fun l => 0 ≤ l) e := by
    decide +kernel
  have hbooked := claimsBooked_of_run shortPeriodParams_validate
    (stepsMeet_of_forall _ _ hlosses) hc
  exact ⟨c, hc, htotal, hbooked.2.1⟩

/-- Address 5 bought a shield of 50 and claims a loss of minus 20: the total claimed is minus 20
and the shield of its purchase is 70. -/
theorem claimsBooked_negative_loss : ∃ c c' : Chain Ledger,
      run ledgerChainKeepers ledgerStart (txBlock 1 coverMsgs .reject).events = .ok c ∧
      c.shield.cover.shieldOfPurchase 1 5 2 = 50 ∧
      exec ledgerChainKeepers c (.action (.tx (claimMsg (-20) 5))) = .ok c' ∧
      c'.shield.cover.totalClaimed = -20 ∧ c'.shield.cover.shieldOfPurchase 1 5 2 = 70 := by
  simp only [exists_and_left]
  decide +kernel

end Shentu
