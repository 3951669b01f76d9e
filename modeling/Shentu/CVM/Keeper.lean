import Shentu.CVM.Contract
import Shentu.CVM.State

/-!
The calls of the CVM keeper. A call works on a cache on top of the store; the interpreter has a
frame of its own on top of it, in which the precompiled contracts look like accounts. Both are
synced only if nothing has failed. The gas of the transaction is converted at a rate.
-/

namespace Shentu.CVM

open Lib

/-- What the keeper takes from its surroundings in addition. A contract in EWASM writes only to its
storage. -/
structure Host extends Env where
  runWASM : CallFrame → CallParams → Code → Nat → NativeResult × List (Word × Word)
  getMetadataHash : List Byte → List Byte

/-- The gas meter of a transaction. The limit of an infinite one is zero. -/
structure GasMeter where
  limit : Nat
  consumed : Nat
  infinite : Bool
  deriving DecidableEq

/-- A contract that the deployer allows to be created. -/
structure PayloadMeta where
  codeHash : List Byte
  metadata : List Byte
  deriving DecidableEq

/-- The arguments of a call. Without a callee a contract is deployed. -/
structure CallMsg where
  caller : Address
  callee : Option Address
  value : Nat
  data : List Byte
  payloadMeta : List PayloadMeta
  view : Bool
  isEWASM : Bool
  isRuntime : Bool

section Prepare

/-- What a call executes. -/
structure Prepared where
  nonce : List Byte
  callee : Address
  code : Code
  isEWASM : Bool
  cache : CallFrame
  state : State

def txCache (s : State) (view : Bool) : CallFrame := ⟨{ Cache.new with readonly := view }, s.view⟩

/-- The sequence number of an account, which has to exist. -/
def getAccountSeqNum (s : State) (a : Address) : Except Err (List Byte) := do
  let acc ← orFail (s.accounts.get a) .panic
  return littleEndian 8 acc.sequence

def sequenceBytes (s : State) (msg : CallMsg) : Except Err (List Byte) :=
  if msg.view then .ok [0] else getAccountSeqNum s msg.caller

/-- Record the contracts that a new contract may create. The metadata is stored at once. -/
def updateContractMeta (host : Host) (s : State) (cache : CallFrame) (a : Address)
    (payloadMeta : List PayloadMeta) : Except Err (CallFrame × State) :=
  if payloadMeta = [] then .ok (cache, s)
  else do
    let acc ← cache.mustAccount a
    let contractMeta := payloadMeta.map fun p =>
      ⟨p.codeHash, host.getMetadataHash p.metadata⟩
    let s := payloadMeta.foldl
      (fun s p => s.setMetadata (host.getMetadataHash p.metadata) p.metadata) s
    let cache ← cache.updateAccount { acc with contractMeta := contractMeta }
    return (cache, s)

/-- The code of an account and whether it is EWASM. An account that does not exist is a panic. -/
def getCallee (cache : CallFrame) (a : Address) : Except Err (Code × Bool) := do
  let acc ← orFail (cache.getAccount a) .panic
  if acc.wasmCode ≠ [] then return (acc.wasmCode, true) else return (acc.evmCode, false)

def prepareDeploy (host : Host) (s : State) (msg : CallMsg) (nonce : List Byte) :
    Except Err Prepared := do
  let callee := host.newContractAddress msg.caller nonce
  let cache ← (txCache s msg.view).createAccount callee
  let (cache, state) ← updateContractMeta host s cache callee msg.payloadMeta
  return ⟨nonce, callee, msg.data, msg.isEWASM, cache, state⟩

def prepareCall (s : State) (msg : CallMsg) (nonce : List Byte) (callee : Address) :
    Except Err Prepared := do
  let (code, isEWASM) ← getCallee (txCache s msg.view) callee
  failIf (code = [] ∧ msg.data ≠ []) .codeOutOfBounds
  return ⟨nonce, callee, code, isEWASM, txCache s msg.view, s⟩

def prepare (host : Host) (s : State) (msg : CallMsg) : Except Err Prepared := do
  let nonce ← sequenceBytes s msg
  match msg.callee with
  | none => prepareDeploy host s msg nonce
  | some callee => prepareCall s msg nonce callee

/-- The preparation changes nothing but the metadata. -/
lemma state_prepare {host : Host} {s : State} {msg : CallMsg} {p : Prepared}
    (h : prepare host s msg = .ok p) : ∃ metadata, p.state = { s with metadata := metadata } := by
  simp only [prepare, bind_eq_ok] at h
  obtain ⟨nonce, -, h⟩ := h
  split at h
  · simp only [prepareDeploy, bind_eq_ok, pure_eq_ok] at h
    obtain ⟨cache, -, ⟨cache', state⟩, hmeta, rfl⟩ := h
    unfold updateContractMeta at hmeta
    split at hmeta
    · cases hmeta
      exact ⟨s.metadata, rfl⟩
    · simp only [bind_eq_ok, pure_eq_ok] at hmeta
      obtain ⟨acc, -, final, -, heq⟩ := hmeta
      cases heq
      have hfold : ∀ (metas : List PayloadMeta) (t : State), ∃ metadata, metas.foldl (fun s p =>
          s.setMetadata (host.getMetadataHash p.metadata) p.metadata) t
            = { t with metadata := metadata } := by
        intro metas
        induction metas with
        | nil => exact fun t => ⟨t.metadata, rfl⟩
        | cons _ metas ih => exact fun t => ih (t.setMetadata _ _)
      exact hfold _ _
  · simp only [prepareCall, bind_eq_ok, pure_eq_ok] at h
    obtain ⟨⟨code, isEWASM⟩, -, _, -, rfl⟩ := h
    exact ⟨s.metadata, rfl⟩

end Prepare

section Gas

def transactionGasLimit : Nat := 5000000

/-- The gas that a transaction has left, at the rate of the interpreter. -/
def getOriginalGas (meter : GasMeter) (gasRate : Nat) : Except Err Nat :=
  let gasCurrent := (meter.limit + 2 ^ 64 - meter.consumed) % 2 ^ 64
  let originalGas := gasCurrent * gasRate % 2 ^ 64
  if originalGas < gasCurrent then .error .integerOverflow
  else .ok (min originalGas transactionGasLimit)

/-- Consume gas. More than the limit is a panic. -/
def GasMeter.consumeGas (meter : GasMeter) (amount : Nat) : Except Err GasMeter := do
  failIf (2 ^ 64 ≤ meter.consumed + amount) .panic
  failIf (meter.infinite = false ∧ meter.limit < meter.consumed + amount) .panic
  return { meter with consumed := meter.consumed + amount }

/-- The gas of an execution that is paid for. The refund is given if there is an error. -/
def executionFee (originalGas gasTracker refund : Nat) (err : Option Err) : Nat :=
  let used := (originalGas + 2 ^ 64 - gasTracker) % 2 ^ 64
  let gasTracker := if err.isSome then (gasTracker + min (used / 2) refund) % 2 ^ 64 else gasTracker
  (originalGas + 2 ^ 64 - gasTracker) % 2 ^ 64

def chargeFee (meter : GasMeter) (gasRate fee : Nat) : Except Err GasMeter := do
  failIf (gasRate = 0) .panic
  meter.consumeGas ((fee + gasRate + 2 ^ 64 - 1) % 2 ^ 64 / gasRate)

end Gas

section Execute

/-- How an execution ends, with the cache of the transaction. -/
structure Executed where
  output : List Byte
  err : Option Err
  gas : Nat
  refund : Nat
  cache : CallFrame
  validators : Table Validator.pubKey

/-- A precompiled contract is registered at an address. -/
def Env.isNative (env : Env) (a : Address) : Bool :=
  a = 9 ∨ a = 10 ∨ a = 11 ∨ a = 12 ∨ (env.hostNatives a).isSome

def nativeAccount (a : Address) : Account := ⟨a, 0, [], [], none, [], true⟩

/-- An account as the interpreter sees it. -/
def accountBelow (env : Env) (cache : CallFrame) (a : Address) : Option Account :=
  if env.isNative a then some (nativeAccount a) else cache.getAccount a

lemma address_accountBelow {env : Env} {cache : CallFrame} {a : Address} {acc : Account}
    (h : accountBelow env cache a = some acc) : acc.address = a := by
  unfold accountBelow at h
  split at h
  · cases h
    rfl
  · exact CallFrame.address_getAccount h

/-- The accounts below the interpreter. -/
def nativeState (env : Env) (cache : CallFrame) : Backend :=
  ⟨accountBelow env cache, cache.getStorage, address_accountBelow⟩

def syncNonNative (env : Env) (cf : CallFrame) (e : Entry) : Except Err CallFrame := do
  failIf (env.isNative e.address = true) .reservedAddress
  cf.syncEntry e

/-- The call that a transaction starts with. -/
def callParams (msg : CallMsg) (callee : Address) : CallParams :=
  ⟨.call, msg.caller, msg.caller, callee, msg.data, msg.value⟩

def topRequest (env : Env) (p : Prepared) (msg : CallMsg) (gas : Nat) : Request :=
  { newAccount := none
    native := none
    code := p.code
    params := callParams msg p.callee
    gas := gas
    callFrame := ⟨.new, nativeState env p.cache⟩
    logFree := false
    retOffset := 0
    retSize := 0 }

/-- The frame that a transaction starts with. -/
def topFrame (env : Env) (p : Prepared) (msg : CallMsg) (gas : Nat) : Frame :=
  (topRequest env p msg gas).frame ⟨0, 0, p.state.validators⟩

/-- The end of an execution: the accounts are synced if there was no error. -/
def endExecution (env : Env) (cache : CallFrame) (r : Result) : Executed :=
  let ended (err : Option Err) (cache : CallFrame) : Executed :=
    ⟨r.output, err, r.gas, r.shared.refund, cache, r.shared.validators⟩
  match r.err with
  | some e => ended (some e) cache
  | none =>
    match r.callFrame.cache.entries.rows.foldlM (syncNonNative env) cache with
    | .ok cache => ended none cache
    | .error e => ended (some e) cache

/-- Run a contract in EVM code. -/
def execute (env : Env) (fuel : Nat) (p : Prepared) (msg : CallMsg) (gas : Nat) :
    Option Executed := do
  let (r, _) ← (cvm env).run fuel (topFrame env p msg gas)
  return endExecution env p.cache r

/-- Run a contract in EWASM code. -/
def executeWASM (host : Host) (p : Prepared) (msg : CallMsg) (gas : Nat) : Executed :=
  let (result, slots) := host.runWASM p.cache (callParams msg p.callee) p.code gas
  match slots.foldlM (fun cf slot => cf.setStorage p.callee slot.1 slot.2) p.cache with
  | .ok cache => ⟨result.output, result.err, result.gas, 0, cache, p.state.validators⟩
  | .error e => ⟨result.output, some e, result.gas, 0, p.cache, p.state.validators⟩

/-- The surroundings of an execution of a transaction. -/
def Host.env (host : Host) (nonce : List Byte) : Env := { host.toEnv with nonce := nonce }

def execution (host : Host) (fuel : Nat) (p : Prepared) (msg : CallMsg) (gas : Nat) :
    Option Executed :=
  if p.isEWASM then
    if msg.isRuntime then some ⟨p.code, none, gas, 0, p.cache, p.state.validators⟩
    else some (executeWASM host p msg gas)
  else execute (host.env p.nonce) fuel p msg gas

end Execute

section Call

def initWASMCode (keccak256 : List Byte → Word) (cf : CallFrame) (a : Address) (code : Code) :
    Except Err CallFrame := do
  let acc ← cf.mustAccount a
  failIf (acc.evmCode ≠ [] ∨ acc.wasmCode ≠ []) .illegalWrite
  cf.updateAccount { acc with wasmCode := code, codeHash := some (keccak256 code) }

/-- Set the code of a contract that a transaction has deployed. -/
def initCode (host : Host) (p : Prepared) (cache : CallFrame) (code : Code) :
    Except Err CallFrame :=
  if p.isEWASM then initWASMCode host.keccak256 cache p.callee code
  else cache.initChildCode host.codehashPermitted host.keccak256 p.callee p.callee code

def addressBytes (a : Address) : List Byte := (littleEndian 20 a).reverse

/-- What follows an execution without an error. -/
def settle (host : Host) (p : Prepared) (msg : CallMsg) (x : Executed) :
    Except Err (List Byte × State) :=
  let s := { p.state with validators := x.validators }
  match msg.callee with
  | none => do
    let cache ← initCode host p x.cache x.output
    let s ← s.sync cache.cache
    return (addressBytes p.callee, s)
  | some _ => do
    let s ← s.sync x.cache.cache
    return (x.output, s)

/-- The end of a call: what it returns and the state that it leaves, or an error, and the gas meter
then. -/
structure CallOutcome where
  meter : GasMeter
  result : Except Err (List Byte × State)

/-- What follows an execution: the gas is charged, and an error is returned. A run-time panic ends
the call before anything is charged. -/
def conclude (host : Host) (meter : GasMeter) (gasRate originalGas : Nat) (p : Prepared)
    (msg : CallMsg) (x : Executed) : CallOutcome :=
  if x.err = some .panic then ⟨meter, .error .panic⟩
  else match chargeFee meter gasRate (executionFee originalGas x.gas x.refund x.err) with
  | .error e => ⟨meter, .error e⟩
  | .ok meter =>
    match x.err with
    | some e => ⟨meter, .error e⟩
    | none => ⟨meter, settle host p msg x⟩

/-- A call, or nothing if the fuel does not last. A failed call leaves no state: the transaction is
undone. -/
def keeperCall (host : Host) (meter : GasMeter) (gasRate fuel : Nat) (s : State) (msg : CallMsg) :
    Option CallOutcome :=
  match (do return (← prepare host s msg, ← getOriginalGas meter gasRate) : Except Err _) with
  | .error e => some ⟨meter, .error e⟩
  | .ok (p, originalGas) => do
    let x ← execution host fuel p msg originalGas
    return conclude host meter gasRate originalGas p msg x

/-- Send coins to a contract: a call without data that transfers the amount of the balance
denomination. An amount that is no 64-bit number is a panic. -/
def send (host : Host) (meter : GasMeter) (gasRate fuel : Nat) (s : State)
    (caller callee : Address) (coins : Coins) : Option CallOutcome :=
  let amount := coins.amountOf microCTKDenom
  if amount < 0 ∨ 2 ^ 64 ≤ amount then some ⟨meter, .error .panic⟩
  else if amount = 0 then some ⟨meter, .error .generic⟩
  else keeperCall host meter gasRate fuel s
    ⟨caller, some callee, amount.toNat, [], [], false, false, false⟩

end Call

end Shentu.CVM
