import Shentu.Chain
import Shentu.Shield.Ledger

/-!
The small world extended to the whole chain, and a first block in which cover is
sold. Nobody is a certifier or validator, every plan is valid and the handlers of
other proposals change nothing.
-/

namespace Shentu

open Lib

def ledgerChainKeepers : ChainKeepers Ledger where
  toKeepers := ledgerKeepers
  isCouncilMember _ _ := false
  hasCertifierAlias _ _ := false
  validatePlan _ _ := true
  executeContent w _ := some w

/-- Short periods and no deposits. -/
def shortVotingParams : GovParams :=
  { minInitialDeposit := [], minDeposit := [], maxDepositPeriod := 10, votingPeriod := 10 }

/-- Every count of votes fails, or every one passes. -/
def Tallies.reject : Tallies := ⟨fun _ => false, fun _ => .reject⟩

def Tallies.pass : Tallies := ⟨fun _ => true, fun _ => .pass⟩

def uctk (amount : Int) : Coins := [⟨microCTKDenom, amount⟩]

/-- The empty chain at a height after both updates. -/
def ledgerStart : Chain Ledger :=
  Chain.empty shortPeriodParams shortVotingParams Ledger.funded ⟨1000, 200⟩

/-- A block of transactions. -/
def txBlock (elapsed : Nat) (msgs : List Msg) (tallies : Tallies) : Block Ledger :=
  { elapsed := elapsed, actions := msgs.map .tx, staking := [], tallies := tallies }

/-- Provider 1 deposits 100, the admin opens pool 1 with a purchase of 10, and address 5 buys a
shield of 50 as purchase 2. -/
def coverMsgs : List Msg :=
  [.depositCollateral 1 (uctk 100),
    .createPool 7 (uctk 10) ⟨uctk 1, []⟩ "sponsor" 9 "pool" 100,
    .purchaseShield 1 (uctk 50) "shop" 5]

/-- A claim on purchase 2 of pool 1 that names address 5. -/
def claimMsg (loss : Int) (proposer : AccAddress) : Msg :=
  .submitProposal (.shieldClaim ⟨0, 1, 2, uctk loss, 5⟩) [] proposer

end Shentu
