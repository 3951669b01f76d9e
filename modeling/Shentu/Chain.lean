import Shentu.Gov.EndBlocker
import Shentu.Shield.Expiry
import Shentu.Shield.Pool

/-!
Runs of the chain. A block begins, delivers transactions and ends with the end
blockers of the shield module, of the staking module and of the gov module. A
transaction that returns an error or panics leaves no writes; a panic in an end
blocker stops the chain. The other modules may change their state at any point.
-/

namespace Shentu

open Lib

variable {σ : Type}

/-- The messages of the shield and gov modules. -/
inductive Msg
  | createPool (sender : AccAddress) (shield : Coins) (deposit : MixedCoins) (sponsor : String)
      (sponsorAddr : AccAddress) (description : String) (shieldLimit : Int)
  | updatePool (sender : AccAddress) (shield : Coins) (serviceFees : MixedCoins) (poolID : Nat)
      (description : String) (shieldLimit : Int)
  | pausePool (sender : AccAddress) (poolID : Nat)
  | resumePool (sender : AccAddress) (poolID : Nat)
  | updateSponsor (poolID : Nat) (sponsor : String) (sponsorAddr sender : AccAddress)
  | depositCollateral (sender : AccAddress) (collateral : Coins)
  | withdrawCollateral (sender : AccAddress) (collateral : Coins)
  | withdrawRewards (sender : AccAddress)
  | withdrawReimbursement (proposalID : Nat) (sender : AccAddress)
  | purchaseShield (poolID : Nat) (shield : Coins) (description : String) (sender : AccAddress)
  | stakeForShield (poolID : Nat) (shield : Coins) (description : String) (sender : AccAddress)
  | unstakeFromShield (poolID : Nat) (shield : Coins) (sender : AccAddress)
  | submitProposal (content : Content) (initialDeposit : Coins) (proposer : AccAddress)
  | deposit (proposalID : Nat) (depositor : AccAddress) (amount : Coins)

/-- A text that is empty after its white space is trimmed. -/
def isBlank (text : String) : Bool := text.toList.all Char.isWhitespace

def failInvalidCoins (coins : Coins) (e : Err) : Except Fault Unit :=
  failIf (¬ Coins.isValid coins ∨ Coins.isZero coins = true) (.error e)

/-- The checks of a message before it is handled. The two staking messages have none. -/
def Msg.validateBasic : Msg → Except Fault Unit
  | .createPool _ shield _ sponsor _ _ _ => do
    failIf (isBlank sponsor = true) (.error .emptySponsor)
    failInvalidCoins shield .noShield
  | .updatePool _ shield _ poolID _ _ => do
    failIf (poolID = 0) (.error .invalidPoolID)
    failIf (¬ Coins.isValid shield) (.error .invalidCoins)
  | .pausePool _ poolID | .resumePool _ poolID => failIf (poolID = 0) (.error .invalidPoolID)
  | .updateSponsor _ sponsor _ _ => failIf (isBlank sponsor = true) (.error .emptySponsor)
  | .depositCollateral _ collateral | .withdrawCollateral _ collateral =>
    failInvalidCoins collateral .invalidCoins
  | .purchaseShield poolID shield description _ => do
    failIf (poolID = 0) (.error .invalidPoolID)
    failInvalidCoins shield .invalidCoins
    failIf (isBlank description = true) (.error .purchaseMissingDescription)
  | .submitProposal _ initialDeposit _ =>
    failIf (¬ Coins.isValid initialDeposit) (.error .invalidCoins)
  | .deposit _ _ amount => failIf (¬ Coins.isValid amount) (.error .invalidCoins)
  | .withdrawRewards _ | .withdrawReimbursement _ _ | .stakeForShield _ _ _ _
  | .unstakeFromShield _ _ _ => .ok ()

/-- The amount of collateral in a message, which may hold no other denomination. -/
def collateralAmount (k : Keepers σ) (collateral : Coins) : Except Fault Int := do
  failIf (collateral.any (fun coin => coin.denom ≠ k.bondDenom) = true)
    (.error .collateralBadDenom)
  return collateral.amountOf k.bondDenom

/-- The handlers of the shield messages. -/
def handleShieldMsg (k : Keepers σ) (ctx : Ctx) (s : ShieldState σ) :
    Msg → Except Fault (ShieldState σ)
  | .createPool sender shield deposit sponsor sponsorAddr description shieldLimit =>
    createPool k ctx s sender shield deposit sponsor sponsorAddr description shieldLimit
  | .updatePool sender shield serviceFees poolID description shieldLimit =>
    updatePool k ctx s poolID description sender shield serviceFees shieldLimit
  | .pausePool sender poolID => pausePool s sender poolID
  | .resumePool sender poolID => resumePool s sender poolID
  | .updateSponsor poolID sponsor sponsorAddr sender =>
    updateSponsor s poolID sponsor sponsorAddr sender
  | .depositCollateral sender collateral => do
    let amount ← collateralAmount k collateral
    let b ← s.collateral.depositCollateral k s.world sender amount
    return { s with collateral := b }
  | .withdrawCollateral sender collateral => do
    let amount ← collateralAmount k collateral
    let b ← s.collateral.withdrawCollateral s.params.pool ctx sender amount
    return { s with collateral := b }
  | .withdrawRewards sender => payoutNativeRewards k s sender
  | .withdrawReimbursement proposalID sender => withdrawReimbursement k ctx s proposalID sender
  | .purchaseShield poolID shield description sender =>
    (purchaseShield k ctx s poolID shield description sender false).commit
  | .stakeForShield poolID shield description sender =>
    (purchaseShield k ctx s poolID shield description sender true).commit
  | .unstakeFromShield poolID shield sender =>
    unstakeFromShield s poolID sender (shield.amountOf k.bondDenom)
  | .submitProposal _ _ _ | .deposit _ _ _ => .ok s

/-- The handlers of the shield and gov modules. -/
def handleMsg (k : ChainKeepers σ) (c : Chain σ) : Msg → Except Fault (Chain σ)
  | .submitProposal content initialDeposit proposer =>
    handleMsgSubmitProposal k c content initialDeposit proposer
  | .deposit proposalID depositor amount => handleMsgDeposit k c proposalID depositor amount
  | msg => do
    let s ← handleShieldMsg k.toKeepers c.ctx c.shield msg
    return { c with shield := s }

/-- What happens inside a block: transactions, the staking hooks, the block rewards, and any
change of the state of the other modules. -/
inductive Action (σ : Type)
  | tx (msg : Msg)
  | delegationModified (delAddr : AccAddress)
  | delegationRemoved (delAddr : AccAddress) (valAddr : ValAddress)
  | fundBlockRewards (amount : Coins) (sender : AccAddress)
  | outside (world : σ)

inductive Event (σ : Type)
  | beginBlock (elapsed : Nat)
  | action (a : Action σ)
  | endBlocker
  | govEndBlocker (tallies : Tallies)

/-- A transaction that fails leaves the state as it was. -/
def orUnchanged (c : Chain σ) : Except Fault (Chain σ) → Chain σ
  | .ok c' => c'
  | .error _ => c

def deliverTx (k : ChainKeepers σ) (c : Chain σ) (msg : Msg) : Except Fault (Chain σ) := do
  msg.validateBasic
  handleMsg k c msg

def act (k : ChainKeepers σ) (c : Chain σ) : Action σ → Except Fault (Chain σ)
  | .tx msg => .ok (orUnchanged c (deliverTx k c msg))
  | .delegationModified delAddr => .ok (orUnchanged c (do
      let b ← c.shield.collateral.updateDelegationAmount k.toKeepers c.shield.params.pool c.ctx
        c.shield.world delAddr
      return { c with shield := { c.shield with collateral := b } }))
  | .delegationRemoved delAddr valAddr => .ok (orUnchanged c (do
      let b ← c.shield.collateral.removeDelegation k.toKeepers c.shield.params.pool c.ctx
        c.shield.world delAddr valAddr
      return { c with shield := { c.shield with collateral := b } }))
  | .fundBlockRewards amount sender => do
    let s ← orPanic (fundShieldBlockRewards k.toKeepers c.shield amount sender)
    return { c with shield := s }
  | .outside world => .ok { c with shield := { c.shield with world := world } }

/-- The next block. The first update sets the staking rate to its default of two. -/
def beginBlock (c : Chain σ) (elapsed : Nat) : Chain σ :=
  let ctx : Ctx := ⟨c.ctx.blockTime + elapsed, c.ctx.blockHeight + 1⟩
  let params :=
    if ctx.blockHeight = update1Height then
      { c.shield.params with shieldStakingRate := Dec.ofInt 2 }
    else c.shield.params
  { c with ctx := ctx, shield := { c.shield with params := params } }

def exec (k : ChainKeepers σ) (c : Chain σ) : Event σ → Except Fault (Chain σ)
  | .beginBlock elapsed => .ok (beginBlock c elapsed)
  | .action a => act k c a
  | .endBlocker => do
    let s ← endBlocker k.toKeepers c.ctx c.shield
    return { c with shield := s }
  | .govEndBlocker tallies => govEndBlocker k tallies c

def run (k : ChainKeepers σ) (c : Chain σ) (events : List (Event σ)) : Except Fault (Chain σ) :=
  events.foldlM (exec k) c

/-- A block with the actions of the staking end blocker, which runs between the other two. -/
structure Block (σ : Type) where
  elapsed : Nat
  actions : List (Action σ)
  staking : List (Action σ)
  tallies : Tallies

def Block.events (b : Block σ) : List (Event σ) :=
  .beginBlock b.elapsed :: b.actions.map .action ++
    .endBlocker :: b.staking.map .action ++ [.govEndBlocker b.tallies]

/-- The chain before its first block, with empty shield and gov stores. -/
def Chain.empty (params : ShieldParams) (govParams : GovParams) (world : σ) (ctx : Ctx) : Chain σ :=
  { ctx := ctx, shield := ShieldState.empty params world, gov := GovState.empty govParams }

end Shentu
