import Shentu.Bank.Keeper
import Shentu.Shield.Types

/-!
Everything that writes the vesting record of an account: a locked send, an unlock, delegations and
undelegations, and a shield payout from what the account has delegated.
-/

namespace Shentu.Auth

open Lib Bank Bank.Accounts Table

structure MsgLockedSend where
  fromAddr : Address
  toAddr : Address
  /-- Empty for an account that exists. -/
  unlocker : Option Address
  amount : Coins

structure MsgUnlock where
  issuer : Address
  account : Address
  unlockAmount : Coins

/-- A manual vesting account without coins. -/
def newManualVestingAccount (a unlocker : Address) : Account :=
  { Account.new a with vesting := some ⟨[], [], [], [], unlocker⟩ }

/-- The account that receives a locked send, with its vesting record. -/
def lockedReceiver (accounts : Accounts) (msg : MsgLockedSend) :
    Except AccountFault (Account × ManualVesting) :=
  match accounts.get msg.toAddr with
  | none =>
    match msg.unlocker with
    | none => .error .missingUnlocker
    | some unlocker =>
      .ok (newManualVestingAccount msg.toAddr unlocker, ⟨[], [], [], [], unlocker⟩)
  | some acc =>
    match acc.vesting with
    | none => .error .notManualVesting
    | some v => if msg.unlocker.isSome then .error .unlockerGiven else .ok (acc, v)

/-- The amount is checked last, when it is taken from the sender; nothing is kept if that fails. -/
def handleMsgLockedSend (bank : BankKeeper) (accounts : Accounts) (msg : MsgLockedSend) :
    Except AccountFault Accounts := do
  let _ ← orFail (accounts.get msg.fromAddr) .unknownAddress
  failIf (some msg.toAddr = msg.unlocker) .recipientIsUnlocker
  let (acc, v) ← lockedReceiver accounts msg
  failIf ((acc.coins.1.add msg.amount).isAnyNegative = true) .insufficientFunds
  let amount ← validCoins msg.amount
  bank.subtractCoins (accounts.set { acc with
    coins := acc.coins.add amount
    vesting := some { v with originalVesting := v.originalVesting.add msg.amount } })
    msg.fromAddr msg.amount

namespace ManualVesting

/-- Count the delegated coins that no longer vest as free, if all of them are above what vests. -/
def releaseDelegated (v : ManualVesting) : Option ManualVesting := do
  let vesting ← v.originalVesting.sub v.vestedCoins
  if v.delegatedVesting.isAllGT vesting = true then
    let unlockedDelegated ← v.delegatedVesting.sub vesting
    let delegatedVesting ← v.delegatedVesting.sub unlockedDelegated
    return { v with delegatedVesting, delegatedFree := v.delegatedFree.add unlockedDelegated }
  else return v

def unlock (height : Nat) (v : ManualVesting) (amount : Coins) :
    Except AccountFault ManualVesting := do
  let vestedCoins := v.vestedCoins.add amount
  failIf (vestedCoins.isAnyGT v.originalVesting = true) .aboveOriginalVesting
  if update1Height ≤ height then
    orFail ({ v with vestedCoins } : ManualVesting).releaseDelegated .panic
  else return { v with vestedCoins }

/-- What leaves the delegated vesting coins is unlocked as well. -/
def undelegateToShield (v : ManualVesting) (amount : Coins) : Option ManualVesting := do
  let updated ← v.trackUndelegation amount
  let updateAmt ← v.delegatedVesting.sub updated.delegatedVesting
  let vesting ← updated.originalVesting.sub updated.vestedCoins
  let unlockAmt := if vesting.isAllGT updateAmt = true then updateAmt else vesting
  return { updated with vestedCoins := updated.vestedCoins.add unlockAmt }

end ManualVesting

def handleMsgUnlock (height : Nat) (accounts : Accounts) (msg : MsgUnlock) :
    Except AccountFault Accounts := do
  let acc ← orFail (accounts.get msg.account) .unknownAddress
  let v ← orFail acc.vesting .notManualVesting
  failIf (msg.issuer ≠ v.unlocker) .notUnlocker
  let v ← v.unlock height msg.unlockAmount
  return accounts.set { acc with vesting := some v }

/-- Move delegated coins of an account from a staking pool to the shield module. -/
def undelegateFromAccountToShieldModule (bank : BankKeeper) (accounts : Accounts)
    (senderModule shieldModule delAddr : Address) (amt : Coins) : Except AccountFault Accounts := do
  let acc ← orFail (accounts.get delAddr) .unknownAddress
  let acc ← trackVesting acc (fun v => v.undelegateToShield amt)
  bank.sendCoins (accounts.set acc) senderModule shieldModule amt

inductive VestingAction
  | lockedSend (msg : MsgLockedSend)
  | unlock (height : Nat) (msg : MsgUnlock)
  | delegate (delegator moduleAcc : Address) (amt : Coins)
  | undelegate (moduleAcc delegator : Address) (amt : Coins)
  | payout (senderModule shieldModule delAddr : Address) (amt : Coins)

def vestingStep (bank : BankKeeper) (accounts : Accounts) :
    VestingAction → Except AccountFault Accounts
  | .lockedSend msg => handleMsgLockedSend bank accounts msg
  | .unlock height msg => handleMsgUnlock height accounts msg
  | .delegate delegator moduleAcc amt => bank.delegateCoins accounts delegator moduleAcc amt
  | .undelegate moduleAcc delegator amt => bank.undelegateCoins accounts moduleAcc delegator amt
  | .payout senderModule shieldModule delAddr amt =>
    undelegateFromAccountToShieldModule bank accounts senderModule shieldModule delAddr amt

variable {bank : BankKeeper} {accounts accounts' : Accounts} {a : Address} {amt : Coins}

lemma isValid_of_validCoins {purse : Purse} (h : validCoins amt = .ok purse) : amt.isValid := by
  unfold validCoins at h
  split at h
  · assumption
  · cases h

/-- What an action makes of one vesting record. -/
inductive VestingMove : VestingAction → Option ManualVesting → ManualVesting → Prop
  | created {msg : MsgLockedSend} {unlocker : Address} (hvalid : msg.amount.isValid) :
      VestingMove (.lockedSend msg) none ⟨Coins.add [] msg.amount, [], [], [], unlocker⟩
  | locked {msg : MsgLockedSend} {v : ManualVesting} (hvalid : msg.amount.isValid) :
      VestingMove (.lockedSend msg) (some v)
        { v with originalVesting := v.originalVesting.add msg.amount }
  | unlocked {height : Nat} {msg : MsgUnlock} {v v' : ManualVesting}
      (h : v.unlock height msg.unlockAmount = .ok v') :
      VestingMove (.unlock height msg) (some v) v'
  | delegated {a m : Address} {amt coins : Coins} {v v' : ManualVesting}
      (h : v.trackDelegation coins amt = some v') : VestingMove (.delegate a m amt) (some v) v'
  | undelegated {m a : Address} {amt : Coins} {v v' : ManualVesting}
      (h : v.trackUndelegation amt = some v') : VestingMove (.undelegate m a amt) (some v) v'
  | paid {m sm a : Address} {amt : Coins} {v v' : ManualVesting}
      (h : v.undelegateToShield amt = some v') : VestingMove (.payout m sm a amt) (some v) v'

/-- The address whose vesting record an action writes. -/
def VestingAction.target : VestingAction → Address
  | .lockedSend msg => msg.toAddr
  | .unlock _ msg => msg.account
  | .delegate delegator _ _ => delegator
  | .undelegate _ delegator _ => delegator
  | .payout _ _ delAddr _ => delAddr

/-- An action keeps the vesting records, but for one move of the record of its target. -/
def VestingMoves (action : VestingAction) (accounts accounts' : Accounts) : Prop :=
  vestingOf accounts' = vestingOf accounts ∨
    ∃ v', VestingMove action (vestingOf accounts action.target) v' ∧
      vestingOf accounts' = Function.update (vestingOf accounts) action.target (some v')

/-- The receiver of a locked send, as it was before. -/
lemma lockedReceiver_cases {msg : MsgLockedSend} {acc : Account} {v : ManualVesting}
    (h : lockedReceiver accounts msg = .ok (acc, v)) :
    acc.address = msg.toAddr ∧ acc.coins = (accounts.accountOf msg.toAddr).coins ∧
      ((accounts.accountOf msg.toAddr).vesting = some v ∨
        (accounts.accountOf msg.toAddr).vesting = none ∧
          ∃ unlocker, v = ⟨[], [], [], [], unlocker⟩) := by
  unfold lockedReceiver at h
  unfold accountOf
  cases hget : accounts.get msg.toAddr with
  | none =>
    rw [hget] at h
    cases hunlocker : msg.unlocker with
    | none =>
      rw [hunlocker] at h
      cases h
    | some unlocker =>
      rw [hunlocker] at h
      cases h
      exact ⟨rfl, rfl, .inr ⟨rfl, unlocker, rfl⟩⟩
  | some found =>
    rw [hget] at h
    cases hv : found.vesting with
    | none =>
      simp only [hv] at h
      cases h
    | some v0 =>
      simp only [hv] at h
      split at h
      · cases h
      · cases h
        exact ⟨key_of_get hget, rfl, .inl hv⟩

lemma handleMsgLockedSend_moves {msg : MsgLockedSend}
    (h : handleMsgLockedSend bank accounts msg = .ok accounts') :
    VestingMoves (.lockedSend msg) accounts accounts' := by
  simp only [handleMsgLockedSend, run_eq_ok] at h
  obtain ⟨sender, -, -, ⟨acc, v⟩, hreceiver, -, purse, hpurse, hsub⟩ := h
  have hvalid := isValid_of_validCoins hpurse
  have hmove : acc.address = msg.toAddr ∧ VestingMove (.lockedSend msg)
      (vestingOf accounts msg.toAddr)
      { v with originalVesting := v.originalVesting.add msg.amount } := by
    obtain ⟨haddress, -, hrecord⟩ := lockedReceiver_cases hreceiver
    refine ⟨haddress, ?_⟩
    rw [vesting_accountOf] at hrecord
    rcases hrecord with hv | ⟨hnone, unlocker, rfl⟩
    · rw [hv]
      exact .locked hvalid
    · rw [hnone]
      exact .created hvalid
  right
  refine ⟨_, hmove.2, ?_⟩
  rw [bank.vesting_subtract hsub, vestingOf_set_some accounts _ rfl]
  rw [hmove.1]
  rfl

lemma handleMsgUnlock_moves {height : Nat} {msg : MsgUnlock}
    (h : handleMsgUnlock height accounts msg = .ok accounts') :
    VestingMoves (.unlock height msg) accounts accounts' := by
  simp only [handleMsgUnlock, run_eq_ok] at h
  obtain ⟨acc, hget, v, hv, -, v', hunlock, rfl⟩ := h
  right
  refine ⟨v', ?_, ?_⟩
  · show VestingMove _ (vestingOf accounts msg.account) v'
    rw [vestingOf_of_get hget, hv]
    exact .unlocked hunlock
  · rw [vestingOf_set_some accounts _ rfl]
    rw [key_of_get hget]
    rfl

/-- A record that is tracked makes a move. -/
lemma Tracks.moves {r : ManualVesting → ManualVesting → Prop} {action : VestingAction}
    (h : Tracks r action.target accounts accounts')
    (hmove : ∀ {v v'}, r v v' → VestingMove action (some v) v') :
    VestingMoves action accounts accounts' := by
  rcases h with hkept | ⟨v, v', hv, hv', hupdate⟩
  · exact .inl hkept
  · refine .inr ⟨v', ?_, hupdate⟩
    rw [hv]
    exact hmove hv'

lemma vestingStep_moves {action : VestingAction}
    (h : vestingStep bank accounts action = .ok accounts') :
    VestingMoves action accounts accounts' := by
  cases action with
  | lockedSend msg => exact handleMsgLockedSend_moves h
  | unlock height msg => exact handleMsgUnlock_moves h
  | delegate delegator moduleAcc amt =>
    exact Tracks.moves (bank.vesting_delegate h) (fun ⟨_, hv'⟩ => .delegated hv')
  | undelegate moduleAcc delegator amt =>
    exact Tracks.moves (bank.vesting_undelegate h) .undelegated
  | payout senderModule shieldModule delAddr amt =>
    simp only [vestingStep, undelegateFromAccountToShieldModule, run_eq_ok] at h
    obtain ⟨acc, hget, acc', htrack, hsend⟩ := h
    have hsame := bank.vesting_send hsend
    have htracks := trackVesting_moves acc'.coins hget rfl htrack
    unfold Tracks at htracks
    rw [← hsame] at htracks
    exact Tracks.moves htracks .paid

end Shentu.Auth
