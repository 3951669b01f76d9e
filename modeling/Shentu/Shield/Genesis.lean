import Shentu.Shield.Purchases

/-!
Export and import of the shield module. Most of the store is written to the genesis
state as it is. The withdraw queue is exported as one list and the expiring purchase
queue is not exported at all: the import rebuilds both. The block service fees are
in no field of the genesis state.
-/

namespace Shentu

open Lib List

variable {σ : Type}

structure GenesisState where
  shieldAdmin : AccAddress
  nextPoolID : Nat
  nextPurchaseID : Nat
  poolParams : PoolParams
  claimProposalParams : ClaimProposalParams
  totalCollateral : Int
  totalWithdrawing : Int
  totalShield : Int
  totalClaimed : Int
  serviceFees : MixedDecCoins
  remainingServiceFees : MixedDecCoins
  pools : List Pool
  providers : List Provider
  purchaseLists : List PurchaseList
  withdraws : List Withdraw
  lastUpdateTime : Time
  shieldStakingRate : Int
  globalStakingPool : Int
  stakeForShields : List ShieldStaking
  originalStakings : List OriginalStaking
  proposalIDReimbursementPairs : List ProposalIDReimbursementPair

/-- Store a purchase list and queue the expiry of each of its entries. -/
def CoverBook.importPurchaseList (b : CoverBook) (l : PurchaseList) : CoverBook :=
  l.entries.foldl
    (fun b entry => b.insertExpiringPurchaseQueue l.poolID l.purchaser entry.protectionEndTime)
    (b.setPurchaseList l)

/-- The store of a new chain after the import of a genesis state. -/
def initGenesis (world : σ) (data : GenesisState) : ShieldState σ where
  params :=
    { admin := data.shieldAdmin
      pool := data.poolParams
      claimProposal := data.claimProposalParams
      shieldStakingRate := data.shieldStakingRate }
  collateral := data.withdraws.foldl CollateralBook.insertWithdrawQueue
    { providers := Table.empty.load data.providers
      withdrawQueue := Table.empty
      totalCollateral := data.totalCollateral
      totalWithdrawing := data.totalWithdrawing }
  cover := data.purchaseLists.foldl CoverBook.importPurchaseList
    { pools := Table.empty.load data.pools
      nextPoolID := data.nextPoolID
      nextPurchaseID := data.nextPurchaseID
      purchaseLists := Table.empty
      purchaseQueue := Table.empty
      totalShield := data.totalShield
      totalClaimed := data.totalClaimed }
  fees :=
    { serviceFees := data.serviceFees
      remainingServiceFees := data.remainingServiceFees
      -- Nothing is stored for the block service fees, which reads as none.
      blockServiceFees := MixedDecCoins.empty
      lastUpdateTime := some data.lastUpdateTime }
  stakes :=
    { globalStakingPool := data.globalStakingPool
      stakeForShields := Table.empty.load data.stakeForShields
      originalStakings := Table.empty.load data.originalStakings }
  reimbursements := Table.empty.load data.proposalIDReimbursementPairs
  world := world

/-- The genesis state of a store. A last update time that is not set is the zero time. -/
def exportGenesis (s : ShieldState σ) : GenesisState where
  shieldAdmin := s.params.admin
  nextPoolID := s.cover.nextPoolID
  nextPurchaseID := s.cover.nextPurchaseID
  poolParams := s.params.pool
  claimProposalParams := s.params.claimProposal
  totalCollateral := s.collateral.totalCollateral
  totalWithdrawing := s.collateral.totalWithdrawing
  totalShield := s.cover.totalShield
  totalClaimed := s.cover.totalClaimed
  serviceFees := s.fees.serviceFees
  remainingServiceFees := s.fees.remainingServiceFees
  pools := s.cover.pools.rows
  providers := s.collateral.getAllProviders
  purchaseLists := s.cover.purchaseLists.rows
  withdraws := s.collateral.withdrawQueue.entries
  lastUpdateTime := s.fees.lastUpdateTime.getD 0
  shieldStakingRate := s.params.shieldStakingRate
  globalStakingPool := s.stakes.globalStakingPool
  stakeForShields := s.stakes.stakeForShields.rows
  originalStakings := s.stakes.originalStakings.rows
  proposalIDReimbursementPairs := s.reimbursements.rows

/-- The queue entries of a purchase list: its pair once under the end of each protection. -/
def PurchaseList.expiries (l : PurchaseList) : List (Time × PoolPurchaser) :=
  l.entries.map (fun e => (e.protectionEndTime, l.pair))

lemma importPurchaseList_eq (b : CoverBook) (l : PurchaseList) :
    b.importPurchaseList l = { b with
      purchaseLists := b.purchaseLists.set l
      purchaseQueue := b.purchaseQueue.insertAll l.expiries } := by
  have hentries : ∀ (es : List Purchase) (c : CoverBook), es.foldl (fun c entry =>
        c.insertExpiringPurchaseQueue l.poolID l.purchaser entry.protectionEndTime) c =
      { c with
        purchaseQueue :=
          c.purchaseQueue.insertAll (es.map (fun e => (e.protectionEndTime, l.pair))) } := by
    intro es
    induction es with
    | nil => exact fun _ => rfl
    | cons e es ih => exact fun c => ih _
  exact hentries l.entries (b.setPurchaseList l)

lemma importPurchaseLists_eq (ls : List PurchaseList) (b : CoverBook) :
    ls.foldl CoverBook.importPurchaseList b = { b with
      purchaseLists := b.purchaseLists.load ls
      purchaseQueue := b.purchaseQueue.insertAll (ls.flatMap PurchaseList.expiries) } := by
  induction ls generalizing b with
  | nil => rfl
  | cons l ls ih =>
    rw [foldl_cons, ih, importPurchaseList_eq, flatMap_cons]
    simp only [Table.load, TimeQueue.insertAll, foldl_cons, foldl_append]

end Shentu
