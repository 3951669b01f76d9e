import Shentu.CVM.Frame
import Shentu.Lib.Calls

/-!
The interpreter. A step looks up the price of the next instruction, pays it and carries the
instruction out; an error that is noted on the way ends the frame at the next step. A call or a
creation runs a frame of its own on top of the accounts of its caller, and these are synced when
the callee has ended without an error. Precompiled contracts run within the step of their caller.
-/

namespace Shentu.CVM

open Lib

/-- A call or a creation that a frame asks for, with all that the callee starts with. -/
structure Request where
  /-- The address of a contract to create. -/
  newAccount : Option Address
  /-- The address of a precompiled contract. -/
  native : Option Address
  code : Code
  params : CallParams
  gas : Nat
  callFrame : CallFrame
  logFree : Bool
  retOffset : Nat
  retSize : Nat

abbrev Exec := StateM Frame

def onLocals {α : Type} (x : Local α) : Exec α := fun f =>
  ((x f.locals).1, { f with locals := (x f.locals).2 })

def gasSha3Op : Nat := 1
def gasGetAccount : Nat := 1
def gasStorageUpdate : Nat := 1
def gasCreateAccount : Nat := 1

/-- Spend gas, or note that there is not enough. -/
def useGasNegative (gasToUse : Nat) : Exec Unit := fun f =>
  if gasToUse ≤ f.gas then ((), { f with gas := f.gas - gasToUse })
  else onLocals (pushError .insufficientGas) f

/-- A write to the accounts, or an error that is noted. The answer is whether it failed. -/
def writeFrame (write : CallFrame → Except Err CallFrame) : Exec Bool := fun f =>
  match write f.callFrame with
  | .ok cf => (false, { f with callFrame := cf })
  | .error e => (true, (onLocals (pushError e) f).2)

section Instructions

def sha3 (env : Env) : Exec Flow := do
  useGasNegative gasSha3Op
  onLocals do
    let offset ← popBigInt
    let size ← popBigInt
    let data ← memoryRead offset size
    pushNext (env.keccak256 data)

/-- Pop an address and read the account there. -/
def popAccount : Exec Account := do
  let address ← onLocals popAddress
  useGasNegative gasGetAccount
  onLocals (mustGetAccount (← get) address)

def balance : Exec Flow := do
  let acc ← popAccount
  onLocals (pushNext (BitVec.ofNat 256 acc.balance))

def extcodesize : Exec Flow := do
  let acc ← popAccount
  onLocals (pushNext (BitVec.ofNat 256 acc.evmCode.length))

def extcodecopy : Exec Flow := do
  let acc ← popAccount
  onLocals (copyToMemory acc.evmCode)

/-- The slot and the value of `SSTORE`. -/
def sstoreArgs : Exec (Word × Word) := do
  let loc ← onLocals pop
  let data ← onLocals pop
  useGasNegative gasStorageUpdate
  return (loc, data)

def sstore : Exec Flow := do
  let slot ← sstoreArgs
  let f ← get
  let _ ← writeFrame (·.setStorage f.params.callee slot.1 slot.2)
  return .next

/-- Create the receiver of a destroyed contract if it does not exist. The answer is whether that
failed. -/
def ensureReceiver (receiver : Address) : Exec Bool := do
  if (getAccount (← get) receiver).isNone then do
    useGasNegative gasCreateAccount
    writeFrame (·.createAccount receiver)
  else return false

def popReceiver : Exec Address := do
  let receiver ← onLocals popAddress
  useGasNegative gasGetAccount
  return receiver

/-- The account of the frame itself. -/
def ownAccount : Exec Account := do
  let f ← get
  onLocals (mustGetAccount f f.params.callee)

/-- Credit the balance of the own account to a receiver and remove the account. -/
def destroy (receiver : Address) : Exec Flow := do
  let acc ← ownAccount
  let _ ← writeFrame (·.updateWith receiver (·.addToBalance acc.balance))
  let f ← get
  let _ ← writeFrame (·.destroyAccount f.params.callee)
  return .halt []

def selfdestruct : Exec Flow := do
  let receiver ← popReceiver
  if ← ensureReceiver receiver then return .continue
  else destroy receiver

def clearReturnData : Local Unit := modify fun l => { l with returnData := [] }

/-- The nonce of a creation: that of the transaction in the length of a hash, and a counter. -/
def creationNonce (nonce : List Byte) (sequence : Nat) : List Byte :=
  copyInto 32 nonce ++ (littleEndian 8 sequence).reverse

/-- The address of the next contract that a frame creates with `CREATE`. -/
def nextAddress (env : Env) : Exec Address := fun f =>
  let sequence := (f.shared.sequence + 1) % 2 ^ 64
  (env.newContractAddress f.params.callee (creationNonce env.nonce sequence),
    { f with shared := { f.shared with sequence := sequence } })

/-- The address of a contract that a frame creates with `CREATE2`. -/
def saltedAddress (env : Env) : Exec Address := do
  let salt ← onLocals pop
  let acc ← ownAccount
  return env.newContractAddress2 (← get).params.callee salt acc.evmCode

/-- The value and the code of a creation. -/
def createArgs : Exec (Nat × List Byte) := do
  onLocals clearReturnData
  let contractValue ← onLocals pop64
  let offset ← onLocals popBigInt
  let size ← onLocals popBigInt
  let input ← onLocals (memoryRead offset size)
  useGasNegative gasCreateAccount
  return (contractValue, input)

/-- The request of a creation with a value and code at an address. -/
def createRequest (f : Frame) (args : Nat × List Byte) (address : Address)
    (childCallFrame : CallFrame) : Request :=
  { newAccount := some address
    native := none
    code := args.2
    params := {
      callType := .call
      origin := f.params.origin
      caller := f.params.callee
      callee := address
      input := args.2
      value := args.1 }
    gas := f.gas
    callFrame := childCallFrame
    logFree := f.logFree
    retOffset := 0
    retSize := 0 }

def create (newAddress : Exec Address) : Exec Request := do
  let args ← createArgs
  let address ← newAddress
  let f ← get
  let childCallFrame ← onLocals
    (maybe f.callFrame.newFrame (f.callFrame.newFrame.createAccount address))
  return createRequest f args address childCallFrame

/-- Create the account that a call sends funds to. -/
def createTarget (target : Address) : Exec (Option Account) := do
  if ← writeFrame (·.createAccount target) then return none
  else return some (← onLocals (mustGetAccount (← get) target))

/-- The account that a call is for. A call that sends funds creates it if it does not exist. -/
def targetAccount (callType : CallType) (target : Address) : Exec (Option Account) := do
  match getAccount (← get) target with
  | some acc => return some acc
  | none =>
    if callType ≠ .call then do
      onLocals (pushError .unknownAddress)
      return none
    else createTarget target

/-- Take the gas of a callee from the gas of its caller: what was asked for, or all but a
sixty-fourth. -/
def lendGas (gasLimit : Nat) : Exec Nat := fun f =>
  let gasLimit := if f.gas < gasLimit then f.gas - f.gas / 64 else gasLimit
  (gasLimit, { f with gas := f.gas - gasLimit })

/-- The value, the caller and the own address of a callee. -/
def calleeParams (callType : CallType) (params : CallParams) (target : Address)
    (input : List Byte) (value : Nat) : CallParams :=
  { callType := callType
    origin := params.origin
    caller := match callType with
      | .call | .static | .code => params.callee
      | .delegate => params.caller
    callee := match callType with
      | .call | .static => target
      | .code | .delegate => params.callee
    input := input
    value := value }

def popValue (callType : CallType) : Exec Nat := do
  match callType with
  | .call | .code => onLocals pop64
  | .delegate | .static => return (← get).params.value

/-- What a call takes from the stack. -/
structure CallArgs where
  gasLimit : Nat
  target : Address
  value : Nat
  inOffset : Nat
  inSize : Nat
  retOffset : Nat
  retSize : Nat

def callArgs (callType : CallType) : Exec CallArgs := do
  onLocals clearReturnData
  let gasLimit ← onLocals pop64
  let target ← onLocals popAddress
  let value ← popValue callType
  let inOffset ← onLocals popBigInt
  let inSize ← onLocals popBigInt
  let retOffset ← onLocals popBigInt
  let retSize ← onLocals pop64
  useGasNegative gasGetAccount
  return ⟨gasLimit, target, value, inOffset, inSize, retOffset, retSize⟩

/-- The request of a call to an account. The cache of a static call is only read. -/
def callRequest (callType : CallType) (f : Frame) (args : CallArgs) (acc : Account)
    (gasLimit : Nat) (input : List Byte) : Request :=
  { newAccount := none
    native := if acc.isNative then some args.target else none
    code := acc.evmCode
    params := calleeParams callType f.params args.target input args.value
    gas := gasLimit
    callFrame := { f.callFrame.newFrame with
      cache := { Cache.new with readonly := callType == .static } }
    logFree := f.logFree || callType == .static
    retOffset := args.retOffset
    retSize := args.retSize }

/-- Lend the gas of a call, read its input and ask for it. -/
def requestCall (callType : CallType) (args : CallArgs) (acc : Account) : Exec Request := do
  let gasLimit ← lendGas args.gasLimit
  let input ← onLocals (memoryRead args.inOffset args.inSize)
  return callRequest callType (← get) args acc gasLimit input

/-- The call that an instruction asks for, or nothing if it has failed before. -/
def call (callType : CallType) : Exec (Option Request) := do
  let args ← callArgs callType
  match ← targetAccount callType args.target with
  | none => return none
  | some acc => return some (← requestCall callType args acc)

end Instructions

section Natives

/-- The gas of a call to the certificates. -/
def gasCertificate : Nat := 1000

def byteOfBool (b : Bool) : List Byte := if b then [1] else [0]

/-- Spend the gas of a call to the certificates and go on. -/
def withGas (gas : Nat) (validators : Table Validator.pubKey)
    (f : Nat → NativeResult × Table Validator.pubKey) : NativeResult × Table Validator.pubKey :=
  if gas < gasCertificate then (⟨[], some .insufficientGas, gas⟩, validators)
  else f (gas - gasCertificate)

def checkGeneral (env : Env) (params : CallParams) (gas : Nat)
    (validators : Table Validator.pubKey) : NativeResult × Table Validator.pubKey :=
  (⟨byteOfBool (env.isContentCertified params.input), none, gas⟩, validators)

def checkProof (env : Env) (params : CallParams) (gas : Nat)
    (validators : Table Validator.pubKey) : NativeResult × Table Validator.pubKey :=
  withGas gas validators fun gas =>
    match env.accAddressFromBech32 params.input with
    | none => (⟨[0], some .generic, gas⟩, validators)
    | some address => (⟨byteOfBool (env.isProofCertified address), none, gas⟩, validators)

def checkCompilation (env : Env) (params : CallParams) (gas : Nat)
    (validators : Table Validator.pubKey) : NativeResult × Table Validator.pubKey :=
  withGas gas validators fun gas =>
    (⟨byteOfBool (env.isCompilationCertified params.input), none, gas⟩, validators)

/-- The certifier has to be the origin of the transaction, and the caller is recorded. -/
def certifyValidator (env : Env) (params : CallParams) (gas : Nat)
    (validators : Table Validator.pubKey) : NativeResult × Table Validator.pubKey :=
  withGas gas validators fun gas =>
    if !env.isCertifier params.origin then (⟨[], some .unqualifiedCertifier, gas⟩, validators)
    else
      match env.getPubKeyFromBech32 params.input with
      | none => (⟨[0], some .generic, gas⟩, validators)
      | some pubKey => (⟨[1], none, gas⟩, validators.set ⟨pubKey, params.caller⟩)

/-- The precompiled contract at an address. The host has none of its own at those of the
certificates. -/
def callNative (env : Env) (address : Address) (params : CallParams) (gas : Nat)
    (validators : Table Validator.pubKey) : NativeResult × Table Validator.pubKey :=
  match address with
  | 9 => checkGeneral env params gas validators
  | 10 => checkProof env params gas validators
  | 11 => checkCompilation env params gas validators
  | 12 => certifyValidator env params gas validators
  | _ =>
    match env.hostNatives address with
    | some native => (native params gas, validators)
    | none => (⟨[], none, gas⟩, validators)

end Natives

section Calls

/-- The transfer of value at the start of a call. Delegate and static calls transfer none. -/
def startTransfer (cf : CallFrame) (params : CallParams) : CallFrame × Option Err :=
  match params.callType with
  | .call | .code => cf.transfer params.caller params.callee params.value
  | .delegate | .static => (cf, none)

/-- The frame of a call at its start. -/
def Request.frame (req : Request) (shared : Shared) : Frame :=
  let start := startTransfer req.callFrame req.params
  { code := req.code
    params := req.params
    gas := req.gas
    locals := .new
    callFrame := start.1
    transferErr := start.2
    logFree := req.logFree
    shared := shared }

def enter (f : Frame) (req : Request) : Frame := req.frame f.shared

/-- The end of a frame. The first error of the transfer and the execution counts. -/
def Frame.result (f : Frame) (output : List Byte) (err : Option Err) : Result :=
  { output := output
    err := firstErr f.transferErr err
    gas := f.gas
    callFrame := f.callFrame
    shared := { f.shared with refund := f.locals.refund } }

/-- A call to a precompiled contract. -/
def nativeResult (env : Env) (f : Frame) (req : Request) (address : Address) : Result :=
  let start := startTransfer req.callFrame req.params
  let (result, validators) := callNative env address req.params req.gas f.shared.validators
  { output := result.output
    err := firstErr start.2 result.err
    gas := result.gas
    callFrame := start.1
    shared := { f.shared with validators := validators } }

/-- Go on after a creation. The creation works with the gas of its creator. -/
def resumeCreate (env : Env) (address : Address) (r : Result) : Exec Unit := do
  modify fun f => { f with gas := r.gas, shared := r.shared }
  match r.err with
  | some .panic => onLocals (pushError .panic)
  | some _ => onLocals do
      push 0
      modify fun l => { l with returnData := r.output }
  | none => do
    let f ← get
    let child ← onLocals (maybe r.callFrame
      (r.callFrame.initChildCode env.codehashPermitted env.keccak256 address f.params.callee
        r.output))
    let _ ← writeFrame (·.sync child.cache)
    onLocals (push (wordOfAddress address))

/-- Go on after a call. The gas that the callee leaves is given back. -/
def resumeCall (req : Request) (r : Result) : Exec Unit := do
  modify fun f => { f with shared := r.shared }
  match r.err with
  | some .panic => onLocals (pushError .panic)
  | some e => onLocals do
      modify fun l => { l with returnData := r.output }
      push 0
      if e = .executionReverted then memoryWrite req.retOffset (rightPadBytes r.output req.retSize)
  | none => do
    let _ ← writeFrame (·.sync r.callFrame.cache)
    onLocals do
      modify fun l => { l with returnData := r.output }
      push 1
      memoryWrite req.retOffset (rightPadBytes r.output req.retSize)
  modify fun f => { f with gas := (f.gas + r.gas) % 2 ^ 64 }

def Frame.advance (f : Frame) : Frame :=
  { f with locals := { f.locals with pc := f.locals.pc + 1 } }

def resume (env : Env) (f : Frame) (req : Request) (r : Result) : Frame :=
  match req.newAccount with
  | some address => ((resumeCreate env address r) f).2.advance
  | none => ((resumeCall req r) f).2.advance

end Calls

/-- The outcome of an instruction that does not call. -/
def finish (p : Flow × Frame) : Outcome Frame Request Result :=
  match p.1 with
  | .next => .next p.2.advance
  | .continue => .next p.2
  | .halt output => .done (p.2.result output p.2.locals.err)

/-- The outcome of an instruction that may call. A precompiled contract is run at once. -/
def startCall (env : Env) (p : Option Request × Frame) : Outcome Frame Request Result :=
  match p.1 with
  | none => .next p.2
  | some req =>
    match req.native with
    | none => .call p.2 req
    | some address => .next (resume env p.2 req (nativeResult env p.2 req address))

def instruction (env : Env) (op : Op) (f : Frame) : Outcome Frame Request Result :=
  match op with
  | .sha3 => finish (sha3 env f)
  | .balance => finish (balance f)
  | .extcodesize => finish (extcodesize f)
  | .extcodecopy => finish (extcodecopy f)
  | .sstore => finish (sstore f)
  | .selfdestruct => finish (selfdestruct f)
  | .create => startCall env (((create (nextAddress env)) f).map some id)
  | .create2 => startCall env (((create (saltedAddress env)) f).map some id)
  | .call => startCall env (call .call f)
  | .callcode => startCall env (call .code f)
  | .delegatecall => startCall env (call .delegate f)
  | .staticcall => startCall env (call .static f)
  | op => finish ((onLocals (localOp env f op)) f)

/-- The next instruction of a frame. -/
def Frame.op (f : Frame) : Op := codeGetOp f.code f.locals.pc

/-- The price of the next instruction, and the frame with what the look-up leaves. -/
def Frame.price (f : Frame) : Nat × Frame :=
  onLocals (gasLookUp f.op f.callFrame f.params.callee) f

/-- One round of the loop of the interpreter. -/
def step (env : Env) (f : Frame) : Outcome Frame Request Result :=
  if f.code = [] then
    .done { f.result [] none with shared := f.shared }
  else if f.locals.err.isSome then .done (f.result [] f.locals.err)
  else
    let cost := f.price.1
    let priced := f.price.2
    if f.gas < cost then .done (priced.result [] (some .insufficientGas))
    else instruction env f.op { priced with gas := f.gas - cost }

def cvm (env : Env) : CallMachine Frame Request Result :=
  ⟨step env, enter, resume env⟩

end Shentu.CVM
