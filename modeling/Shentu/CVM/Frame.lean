import Shentu.CVM.Gas

/-!
One execution of bytecode with what surrounds it: its parameters and gas, its view of the accounts,
and what all executions of a transaction share. The instructions that touch only the stack, the
memory and the program counter are computations on these alone.
-/

namespace Shentu.CVM

open Lib

/-- A validator that a certifier has certified. -/
structure Validator where
  pubKey : List Byte
  certifier : Address
  deriving DecidableEq

inductive CallType
  | call | code | delegate | static
  deriving DecidableEq

structure CallParams where
  callType : CallType
  origin : Address
  caller : Address
  callee : Address
  input : List Byte
  value : Nat
  deriving DecidableEq

/-- What a precompiled contract of the host returns: its output, an error, and the gas it leaves. -/
structure NativeResult where
  output : List Byte
  err : Option Err
  gas : Nat

/-- What an execution takes from its surroundings: hash functions, the derivation of addresses, the
block, the precompiled contracts of the host, and the certificates. -/
structure Env where
  keccak256 : List Byte → Word
  newContractAddress : Address → List Byte → Address
  newContractAddress2 : Address → Word → Code → Address
  codehashPermitted : Code → Address → List ContractMeta → Bool
  nonce : List Byte
  lastBlockHeight : Nat
  lastBlockTime : Int
  blockHash : Nat → Except Err (List Byte)
  hostNatives : Address → Option (CallParams → Nat → NativeResult)
  isContentCertified : List Byte → Bool
  isProofCertified : Address → Bool
  isCompilationCertified : List Byte → Bool
  isCertifier : Address → Bool
  accAddressFromBech32 : List Byte → Option Address
  getPubKeyFromBech32 : List Byte → Option (List Byte)

/-- What all frames of a transaction share: the counter of creations, the refund of the execution
that ended last, and the records of certified validators, which are not written through the
frames. -/
structure Shared where
  sequence : Nat
  refund : Nat
  validators : Table Validator.pubKey

structure Frame where
  code : Code
  params : CallParams
  gas : Nat
  locals : Locals
  callFrame : CallFrame
  /-- The error of the transfer of value at the start. The code runs in spite of it. -/
  transferErr : Option Err
  /-- Logs are refused. -/
  logFree : Bool
  shared : Shared

/-- How a call ends. -/
structure Result where
  output : List Byte
  err : Option Err
  gas : Nat
  callFrame : CallFrame
  shared : Shared

/-- What follows an instruction. -/
inductive Flow
  | next
  /-- The program counter stays as the instruction has left it. -/
  | continue
  | halt (output : List Byte)

section Local

def getAccount (f : Frame) (a : Address) : Option Account := f.callFrame.getAccount a

/-- The account at an address. An empty one stands for an account that does not exist. -/
def mustGetAccount (f : Frame) (a : Address) : Local Account :=
  maybe ⟨0, 0, [], [], none, [], false⟩ (f.callFrame.mustAccount a)

def binary (op : Nat → Nat → Int) : Local Flow := do
  let x ← popBigInt
  let y ← popBigInt
  pushBigInt (op x y)
  return .next

def binarySigned (op : Int → Int → Int) : Local Flow := do
  let x ← popBigIntSigned
  let y ← popBigIntSigned
  pushBigInt (op x y)
  return .next

def ternaryMod (op : Nat → Nat → Nat) : Local Flow := do
  let x ← popBigInt
  let y ← popBigInt
  let z ← popBigInt
  pushBigInt (if z = 0 then 0 else (op x y % z : Nat))
  return .next

def bitwise (op : Word → Word → Word) : Local Flow := do
  let x ← pop
  let y ← pop
  push (op x y)
  return .next

/-- A shift of a number, or the number that is left of it if all bits are shifted out. -/
def shiftBy (popValue : Local Int) (shifted : Int → Nat → Int) (reset : Int → Int) :
    Local Flow := do
  let shift ← popBigInt
  let x ← popValue
  pushBigInt (if 256 ≤ shift then reset x else shifted x shift)
  return .next

/-- Copy a part of some data to the memory. -/
def copyToMemory (data : List Byte) : Local Flow := do
  let memOff ← popBigInt
  let dataOff ← pop64
  let length ← pop64
  let bytes ← maybe [] (subslice data dataOff length)
  memoryWrite memOff bytes
  return .next

def pushNext (w : Word) : Local Flow := do
  push w
  return .next

def jumpTo (code : Code) (target : Nat) : Local Flow := do
  match jump code target with
  | .ok pc => modify fun l => { l with pc := pc }
  | .error e => pushError e
  return .continue

/-- Pop the topics of a log. -/
def popTopics : Nat → Local (List Word)
  | 0 => return []
  | n + 1 => do
    let topic ← pop
    return topic :: (← popTopics n)

def maximumAllowedBlockLookBack : Nat := 256

/-- The instructions that change only the stack, the memory and the program counter. Those that
also spend gas or change accounts are not among them. -/
def localOp (env : Env) (f : Frame) : Op → Local Flow
  | .add => binary fun x y => x + y
  | .mul => binary fun x y => x * y
  | .sub => binary fun x y => x - y
  | .div => binary fun x y => if y = 0 then 0 else (x / y : Nat)
  | .sdiv => binarySigned fun x y => if y = 0 then 0 else x.tdiv y
  | .mod => binary fun x y => if y = 0 then 0 else (x % y : Nat)
  | .smod => binarySigned fun x y => if y = 0 then 0 else x.tmod y
  | .addmod => ternaryMod fun x y => x + y
  | .mulmod => ternaryMod fun x y => x * y
  | .exp => binary fun x y => (x ^ y : Nat)
  | .signextend => do
    let back := (← popBigInt) % 2 ^ 64
    if back < 31 then pushBigInt (signExtend (← popBigInt) (back * 8 + 8))
    return .next
  | .lt => binary fun x y => if x < y then 1 else 0
  | .gt => binary fun x y => if y < x then 1 else 0
  | .slt => binarySigned fun x y => if x < y then 1 else 0
  | .sgt => binarySigned fun x y => if y < x then 1 else 0
  | .eq => bitwise fun x y => wordOfBool (x == y)
  | .iszero => do
    let x ← pop
    pushNext (wordOfBool (x == 0))
  | .and => bitwise fun x y => x &&& y
  | .or => bitwise fun x y => x ||| y
  | .xor => bitwise fun x y => x ^^^ y
  | .not => do
    let x ← pop
    pushNext (~~~x)
  | .byte => do
    let idx ← pop64
    let val ← pop
    push64 (if idx < 32 then ((wordBytes val).getD idx 0).val else 0)
    return .next
  | .shl => shiftBy (return (← popBigInt)) (fun x shift => x * 2 ^ shift) (fun _ => 0)
  | .shr => shiftBy (return (← popBigInt)) (fun x shift => x / 2 ^ shift) (fun _ => 0)
  | .sar => shiftBy popBigIntSigned (fun x shift => x / 2 ^ shift)
    (fun x => if x < 0 then -1 else 0)
  | .address => pushNext (wordOfAddress f.params.callee)
  | .origin => pushNext (wordOfAddress f.params.origin)
  | .caller => pushNext (wordOfAddress f.params.caller)
  | .callvalue => pushNext (BitVec.ofNat 256 f.params.value)
  | .calldataload => do
    let offset ← pop64
    let data ← maybe [] (subslice f.params.input offset 32)
    pushNext (leftPadWord256 data)
  | .calldatasize => pushNext (BitVec.ofNat 256 f.params.input.length)
  | .calldatacopy => copyToMemory f.params.input
  | .codesize => pushNext (BitVec.ofNat 256 f.code.length)
  | .codecopy => copyToMemory f.code
  | .gaspriceDeprecated | .coinbase | .difficultyDeprecated => pushNext 0
  | .returndatasize => do pushNext (BitVec.ofNat 256 (← get).returnData.length)
  | .returndatacopy => do
    let memOff ← popBigInt
    let outputOff ← popBigInt
    let length ← popBigInt
    let returnData := (← get).returnData
    if !isUint64 (outputOff + length) || returnData.length < outputOff + length then do
      pushError .returnDataOutOfBounds
      return .continue
    else do
      memoryWrite memOff returnData
      return .next
  | .extcodehash => do
    let address ← popAddress
    match getAccount f address with
    | none => pushNext 0
    | some acc => pushNext (acc.codeHash.getD (env.keccak256 acc.code))
  | .blockhash => do
    let blockNumber ← pop64
    if env.lastBlockHeight ≤ blockNumber then do
      pushError .invalidBlockNumber
      return .next
    else if maximumAllowedBlockLookBack < env.lastBlockHeight - blockNumber then do
      pushError .blockNumberOutOfRange
      return .next
    else do
      let hash ← maybe [] (env.blockHash blockNumber)
      pushNext (leftPadWord256 hash)
  | .timestamp => pushNext (BitVec.ofNat 256 (env.lastBlockTime % 2 ^ 64).toNat)
  | .blockheight => pushNext (BitVec.ofNat 256 env.lastBlockHeight)
  | .gaslimit | .gas => pushNext (BitVec.ofNat 256 f.gas)
  | .pop => do
    let _ ← pop
    return .next
  | .mload => do
    let offset ← popBigInt
    let data ← memoryRead offset 32
    pushNext (leftPadWord256 data)
  | .mstore => do
    let offset ← popBigInt
    let data ← pop
    memoryWrite offset (wordBytes data)
    return .next
  | .mstore8 => do
    let offset ← popBigInt
    let val ← popBigInt
    memoryWrite offset [Fin.ofNat 256 val]
    return .next
  | .sload => do
    let loc ← pop
    pushNext (f.callFrame.getStorage f.params.callee loc)
  | .jump => do
    let target ← pop64
    jumpTo f.code target
  | .jumpi => do
    let pos ← pop64
    let cond ← pop
    if cond ≠ 0 then jumpTo f.code pos else return .next
  | .pc => do pushNext (BitVec.ofNat 256 (← get).pc)
  | .msize => do pushNext (BitVec.ofNat 256 (← get).memory.capacity)
  | .jumpdest => return .next
  | .push n => do
    let data ← maybe [] (subslice f.code ((← get).pc + 1) n)
    push (leftPadWord256 data)
    modify fun l => { l with pc := l.pc + n }
    return .next
  | .dup n => do
    dup n
    return .next
  | .swap n => do
    swap n
    return .next
  | .log n => do
    let offset ← popBigInt
    let size ← popBigInt
    let _topics ← popTopics n
    let _data ← memoryRead offset size
    -- the event itself is outside the model
    if f.logFree then pushError .illegalWrite
    return .next
  | .return => do
    let offset ← popBigInt
    let size ← popBigInt
    return .halt (← memoryRead offset size)
  | .revert => do
    let offset ← popBigInt
    let size ← popBigInt
    let output ← memoryRead offset size
    pushError .executionReverted
    return .halt output
  | .invalid => do
    pushError .executionAborted
    return .halt []
  | .stop => return .halt []
  -- an unknown opcode
  | _ => do
    pushError .generic
    return .halt []

end Local

end Shentu.CVM
