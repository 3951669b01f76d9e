import Shentu.Shield.Unbonding

/-!
What a claim does to the shield module before it is decided and when it is not
paid. At submission the loss leaves the purchase, the pool and the total shield,
and collateral for all open claims is secured until the end of the lock. A claim
that is rejected is restored level by level; its restore writes before it checks.
-/

namespace Shentu

open Lib

variable {σ : Type}

/-- The amount to be secured from a provider for a part of what remains. -/
def secureShare (claimedRatio collateral remaining : Int) : Int :=
  let secureAmt := min (Dec.truncateInt (Dec.mul (Dec.ofInt collateral) claimedRatio)) remaining
  if secureAmt < remaining ∧ secureAmt < collateral then secureAmt + 1 else secureAmt

/-- The loop over the providers of `secureCollaterals`. -/
def secureLoop (k : Keepers σ) (ctx : Ctx) (claimedRatio : Int) (duration : Duration) :
    List Provider → Int → CollateralBook → σ → Except Fault (CollateralBook × σ)
  | [], _, b, world => .ok (b, world)
  | provider :: providers, remaining, b, world => do
    let secureAmt := secureShare claimedRatio provider.collateral remaining
    let (b, world) ← secureFromProvider k ctx b world provider secureAmt duration
    secureLoop k ctx claimedRatio duration providers (remaining - secureAmt) b world

/-- The list with its first purchase with an ID edited. -/
def PurchaseList.edit (l : PurchaseList) (id : Nat) (f : Purchase → Purchase) : PurchaseList :=
  { l with entries := updateFirst (fun e => e.purchaseID = id) f l.entries }

/-- The position of a purchase in its list, the first one if it is not there. -/
def purchaseIndex (l : PurchaseList) (purchaseID : Nat) : Nat :=
  (l.entries.findIdx? (fun e => e.purchaseID = purchaseID)).getD 0

/-- A purchase after a loss is claimed from it until the end of the lock. -/
def Purchase.claim (e : Purchase) (lossAmt : Int) (votingEndTime : Time) : Purchase :=
  { e with
    shield := e.shield - lossAmt
    deletionTime := if e.deletionTime < votingEndTime then votingEndTime else e.deletionTime }

def secureCollaterals (k : Keepers σ) (ctx : Ctx) (s : ShieldState σ) (poolID : Nat)
    (purchaser : AccAddress) (purchaseID : Nat) (loss : Coins) (duration : Duration) :
    Except Fault (ShieldState σ) := do
  let lossAmt := loss.amountOf k.bondDenom
  let pool ← orFail (s.cover.getPool poolID) (.error .noPoolFound)
  failIf (pool.shield < lossAmt) (.error .notEnoughShield)
  let totalCollateral := s.collateral.totalCollateral
  let totalSecureAmt := s.cover.totalClaimed + lossAmt
  failIf (totalCollateral < totalSecureAmt) (.panic .secureSurpassesCollateral)
  let l ← orFail (s.cover.getPurchaseList poolID purchaser) (.error .purchaseNotFound)
  let index := purchaseIndex l purchaseID
  let purchase ← orFail l.entries[index]? (.panic .indexOutOfRange)
  failIf (purchase.shield < lossAmt) (.error .notEnoughShield)
  let claimedRatio ← decQuo (Dec.ofInt totalSecureAmt) (Dec.ofInt totalCollateral)
  let (collateral, world) ← secureLoop k ctx claimedRatio duration s.collateral.getAllProviders
    totalSecureAmt s.collateral s.world
  let purchase := purchase.claim lossAmt (ctx.blockTime + duration)
  let cover := s.cover.setPurchaseList { l with entries := l.entries.set index purchase }
  let cover := cover.setPool { pool with shield := pool.shield - lossAmt }
  return { s with
    collateral := collateral
    cover := { cover with
      totalShield := cover.totalShield - lossAmt
      totalClaimed := totalSecureAmt }
    world := world }

namespace CoverBook

def claimEnd (b : CoverBook) (lossAmt : Int) : CoverBook :=
  { b with totalClaimed := b.totalClaimed - lossAmt }

/-- Give a loss back. The total, the pool and the purchase are written one after the other,
and the error for a missing pool or list comes after the writes before it. -/
def restoreShield (b : CoverBook) (poolID : Nat) (purchaser : AccAddress) (id : Nat)
    (lossAmt : Int) : CoverBook × Option Err :=
  let b := { b with totalShield := b.totalShield + lossAmt }
  match b.getPool poolID with
  | none => (b, some .noPoolFound)
  | some pool =>
    let b := b.setPool { pool with shield := pool.shield + lossAmt }
    match b.getPurchaseList poolID purchaser with
    | none => (b, some .purchaseNotFound)
    | some l =>
      (b.setPurchaseList (l.edit id (fun e => { e with shield := e.shield + lossAmt })), none)

end CoverBook

/-- A loss leaves a purchase, whose new list is `l`, its pool and the total shield. -/
def CoverBook.takeLoss (b : CoverBook) (pool : Pool) (l : PurchaseList) (lossAmt : Int) :
    CoverBook :=
  { b with
    purchaseLists := b.purchaseLists.set l
    pools := b.pools.set { pool with shield := pool.shield - lossAmt }
    totalShield := b.totalShield - lossAmt
    totalClaimed := b.totalClaimed + lossAmt }

/-- A claim is secured for a purchase that is in the list of the purchaser. -/
lemma secureCollaterals_cases {k : Keepers σ} {ctx : Ctx} {s s' : ShieldState σ} {poolID : Nat}
    {purchaser : AccAddress} {purchaseID : Nat} {loss : Coins} {duration : Duration}
    {l : PurchaseList} {e : Purchase}
    (hl : s.cover.getPurchaseList poolID purchaser = some l)
    (he : l.getPurchase purchaseID = some e)
    (h : secureCollaterals k ctx s poolID purchaser purchaseID loss duration = .ok s') :
    ∃ pool ratio collateral world,
      s.cover.getPool poolID = some pool ∧ loss.amountOf k.bondDenom ≤ pool.shield ∧
      s.cover.totalClaimed + loss.amountOf k.bondDenom ≤ s.collateral.totalCollateral ∧
      loss.amountOf k.bondDenom ≤ e.shield ∧
      decQuo (Dec.ofInt (s.cover.totalClaimed + loss.amountOf k.bondDenom))
        (Dec.ofInt s.collateral.totalCollateral) = .ok ratio ∧
      secureLoop k ctx ratio duration s.collateral.getAllProviders
        (s.cover.totalClaimed + loss.amountOf k.bondDenom) s.collateral s.world =
          .ok (collateral, world) ∧
      s' = { s with
        collateral := collateral
        cover := s.cover.takeLoss pool (l.edit purchaseID (fun e =>
          e.claim (loss.amountOf k.bondDenom) (ctx.blockTime + duration)))
          (loss.amountOf k.bondDenom)
        world := world } := by
  simp only [secureCollaterals, run_eq_ok] at h
  obtain ⟨pool, hpool, hshield, hbacked, l', hl', e', he', hloss, ratio, hratio,
    ⟨collateral, world⟩, hloop, rfl⟩ := h
  obtain rfl : l = l' := Option.some.inj (hl.symm.trans hl')
  obtain ⟨hget, hset⟩ := set_findIdx?_eq_updateFirst
    (f := fun e => e.claim (loss.amountOf k.bondDenom) (ctx.blockTime + duration)) he
  obtain rfl : e = e' := Option.some.inj (hget.symm.trans he')
  refine ⟨pool, ratio, collateral, world, hpool, not_lt.mp hshield, not_lt.mp hbacked,
    not_lt.mp hloss, hratio, hloop, ?_⟩
  simp only [CoverBook.takeLoss, PurchaseList.edit, ← hset]
  rfl

end Shentu
