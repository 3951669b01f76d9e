import Shentu.CVM.CallFrame
import Shentu.CVM.Locals
import Shentu.CVM.Opcode

/-!
The price of an instruction: a static part from the table of instructions and a dynamic part that
depends on the stack, the state and the growth of the memory. The memory is paid by the difference
to the last total fee. The look-up of a price reads the stack by copying and popping, grows the
memory, and counts the refunds for cleared slots and destroyed contracts.
-/

namespace Shentu.CVM

open Lib

def gasBase : Nat := 2
def gasVeryLow : Nat := 3
def gasLow : Nat := 5
def gasMid : Nat := 8
def gasHigh : Nat := 10
def gasExtStep : Nat := 20
def gasExtcodeSize : Nat := 700
def gasExtcodeCopy : Nat := 700
def gasExtcodeHash : Nat := 700
def gasBalance : Nat := 700
def gasSLoad : Nat := 800
def gasCalls : Nat := 700
def gasSelfdestructBase : Nat := 5000
def gasExpByte : Nat := 50
def gasCreateBySelfdestruct : Nat := 25000
def callValueTransferGas : Nat := 9000
def callNewAccountGas : Nat := 25000
def quadCoeffDiv : Nat := 512
def logDataGas : Nat := 8
def sha3Gas : Nat := 30
def sha3WordGas : Nat := 6
def sstoreSetGas : Nat := 20000
def sstoreResetGas : Nat := 5000
def sstoreClearGas : Nat := 5000
def sstoreRefundGas : Nat := 15000
def netSstoreNoopGas : Nat := 200
def jumpdestGas : Nat := 1
def callGas : Nat := 40
def expGas : Nat := 10
def logGas : Nat := 375
def copyWordGas : Nat := 3
def logTopicGas : Nat := 375
def createGas : Nat := 32000
def selfdestructRefundGas : Nat := 24000
def memoryWordGas : Nat := 3
def extcodeCopyBase : Nat := 20

section MemorySize

/-- Which positions of the stack give the memory that an instruction touches. -/
inductive MemSize
  | sha3 | log | return | revert | callDataCopy | returnDataCopy | codeCopy | extCodeCopy
  | mLoad | mStore | mStore8 | create | create2 | call | delegateCall | staticCall

def calcMemSize64WithUint (off length64 : Nat) : Nat × Bool :=
  if length64 = 0 then (0, false)
  else if !isUint64 off then (0, true)
  else ((off + length64) % 2 ^ 64, (off + length64) % 2 ^ 64 < off)

def calcMemSize64 (off l : Nat) : Nat × Bool :=
  if !isUint64 l then (0, true) else calcMemSize64WithUint off l

def mem64 (a b : Nat) : Local (Nat × Bool) := do
  let off ← getStack a
  let l ← getStack b
  return calcMemSize64 off l

def memUint64 (a b : Nat) : Local (Nat × Bool) := return calcMemSize64WithUint (← getStack a) b

/-- The greater one of two sizes. The second is not looked up if the first overflows. -/
def mem64Comp (a b c d : Nat) : Local (Nat × Bool) := do
  let x ← mem64 a b
  if x.2 then return (0, true)
  else do
    let y ← mem64 c d
    return if y.2 then (0, true) else (max x.1 y.1, false)

def calcMemSize : MemSize → Local (Nat × Bool)
  | .sha3 | .log | .return | .revert => mem64 0 1
  | .callDataCopy | .codeCopy | .returnDataCopy => mem64 0 2
  | .extCodeCopy => mem64 1 3
  | .mLoad | .mStore => memUint64 0 32
  | .mStore8 => memUint64 0 1
  | .create | .create2 => mem64 1 2
  | .call => mem64Comp 5 6 3 4
  | .delegateCall | .staticCall => mem64Comp 4 5 2 3

end MemorySize

section Cost

/-- A dynamic price of a memory size, with the error that the source returns beside it. -/
abbrev Price := Local (Nat × Option Err)

abbrev GasFunc := CallFrame → Address → Nat → Price

def memGasCost (newMemSize : Nat) : Price := fun l =>
  if newMemSize = 0 then ((0, none), l)
  else if 0x1FFFFFFFE0 < newMemSize then ((0, some .gasUintOverflow), l)
  else
    let newMemSizeWords := toWordSize newMemSize
    if newMemSizeWords * 32 % 2 ^ 64 ≤ l.memory.capacity then ((0, none), l)
    else
      let square := newMemSizeWords * newMemSizeWords % 2 ^ 64
      let linCoef := newMemSizeWords * memoryWordGas % 2 ^ 64
      let quadCoef := square / quadCoeffDiv
      let newTotalFee := (linCoef + quadCoef) % 2 ^ 64
      (((newTotalFee + 2 ^ 64 - l.lastGasCost) % 2 ^ 64, none),
        { l with lastGasCost := newTotalFee })

/-- A price if a sum of prices does not overflow. -/
def addGas (gas amount : Nat) : Nat × Option Err :=
  if (safeAdd gas amount).2 then (0, some .gasUintOverflow) else ((safeAdd gas amount).1, none)

def memoryGas (memorySize gasAdd : Nat) : Price := do
  let fee ← memGasCost memorySize
  return if fee.2.isSome then fee else addGas fee.1 gasAdd

/-- The price of a copy of a length over the memory fee. -/
def copyPrice (gas length gasAdd : Nat) : Nat × Option Err :=
  let length := bigToUint64 length
  let words := safeMul (toWordSize length.1) gasAdd
  if length.2 || words.2 then (0, some .gasUintOverflow) else addGas gas words.1

def copyGas (memorySize n gasAdd : Nat) : Price := do
  let fee ← memGasCost memorySize
  if fee.2.isSome then return fee
  else return copyPrice fee.1 (← getStack n) gasAdd

def onlyMemGasCost : GasFunc := fun _ _ memorySize => memGasCost memorySize

def onlyMemoryGas (gasAdd : Nat) : GasFunc := fun _ _ memorySize => memoryGas memorySize gasAdd

/-- The base price is a parameter of the source as well, which it does not use. -/
def onlyCopyGas (stackPos _gasBase gasAdd : Nat) : GasFunc := fun _ _ memorySize =>
  copyGas memorySize stackPos gasAdd

def gasMLoad : GasFunc := onlyMemGasCost
def gasReturn : GasFunc := onlyMemGasCost
def gasRevert : GasFunc := onlyMemGasCost
def gasMStore8 : GasFunc := onlyMemGasCost
def gasMStore : GasFunc := onlyMemGasCost
def gasCreate : GasFunc := onlyMemGasCost
def gasDelegateCall : GasFunc := onlyMemoryGas gasCalls
def gasStaticCall : GasFunc := onlyMemoryGas gasCalls
def gasCreate2 : GasFunc := onlyCopyGas 2 createGas sha3WordGas
def gasCallDataCopy : GasFunc := onlyCopyGas 2 gasVeryLow copyWordGas
def gasReturnDataCopy : GasFunc := onlyCopyGas 2 gasVeryLow copyWordGas
def gasCodeCopy : GasFunc := onlyCopyGas 2 gasVeryLow copyWordGas
def gasExtCodeCopy : GasFunc := onlyCopyGas 3 gasExtcodeCopy copyWordGas
def gasSha3 : GasFunc := onlyCopyGas 1 sha3Gas sha3WordGas

/-- The price of a log with a number of topics and an amount of data over the memory fee. -/
def logPrice (gas n requestedSize : Nat) : Nat × Option Err :=
  let base := safeAdd gas logGas
  let topics := safeAdd base.1 (n * logTopicGas)
  let data := safeMul requestedSize logDataGas
  if base.2 || topics.2 || data.2 then (0, some .gasUintOverflow) else addGas topics.1 data.1

def makeGasLog (n : Nat) : GasFunc := fun _ _ memorySize => do
  let requestedSize ← getStack 1
  if (bigToUint64 requestedSize).2 then return (0, some .gasUintOverflow)
  else do
    let fee ← memGasCost memorySize
    return if fee.2.isSome then fee else logPrice fee.1 n (bigToUint64 requestedSize).1

def gasExp : GasFunc := fun _ _ _ => return addGas (byteLength (← getStack 1) * gasExpByte) expGas

def gasCall : GasFunc := fun st _ memorySize => do
  let value ← getStack 2
  let target ← getWord256 1
  let newAccount :=
    if value ≠ 0 ∧ st.getAccount (addressOfWord target) = none then callNewAccountGas else 0
  let transfer := if value ≠ 0 then callValueTransferGas else 0
  memoryGas memorySize (gasCalls + newAccount + transfer)

def gasCallCode : GasFunc := fun _ _ memorySize => do
  let value ← getStack 2
  memoryGas memorySize (gasCalls + if value ≠ 0 then callValueTransferGas else 0)

def addRefund (amount : Nat) : Local Unit :=
  modify fun l => { l with refund := (l.refund + amount) % 2 ^ 64 }

def gasSStore : GasFunc := fun st address _ => do
  let x ← getWord256 0
  let y ← getWord256 1
  let current := st.getStorage address x
  if current = 0 ∧ y ≠ 0 then return (sstoreSetGas, none)
  else if current ≠ 0 ∧ y = 0 then do
    addRefund sstoreRefundGas
    return (sstoreClearGas, none)
  else if current = y then return (netSstoreNoopGas, none)
  else return (sstoreResetGas, none)

def gasSelfdestruct : GasFunc := fun st _ _ => do
  let address2 ← getWord256 0
  let create :=
    if st.getAccount (addressOfWord address2) = none then gasCreateBySelfdestruct else 0
  let refund := (← get).refund
  addRefund selfdestructRefundGas
  return (gasSelfdestructBase + create,
    if (← get).refund < refund then some .gasUintOverflow else none)

end Cost

structure Instruction where
  staticGas : Nat
  dynamicGas : Option GasFunc := none
  memSize : Option MemSize := none

def instructionSet : Op → Instruction
  | .stop | .invalid | .unknown _ => { staticGas := 0 }
  | .add | .sub | .lt | .gt | .slt | .sgt | .eq | .iszero | .and | .or | .xor | .not | .byte
  | .shl | .shr | .sar | .calldataload | .push _ | .dup _ | .swap _ => { staticGas := gasVeryLow }
  | .mul | .div | .sdiv | .mod | .smod | .signextend => { staticGas := gasLow }
  | .addmod | .mulmod | .jump => { staticGas := gasMid }
  | .jumpi => { staticGas := gasHigh }
  | .address | .origin | .caller | .callvalue | .calldatasize | .codesize | .gaspriceDeprecated
  | .returndatasize | .coinbase | .timestamp | .blockheight | .difficultyDeprecated | .gaslimit
  | .pop | .pc | .msize | .gas => { staticGas := gasBase }
  | .exp => { staticGas := 0, dynamicGas := some gasExp }
  | .sha3 => { staticGas := sha3Gas, dynamicGas := some gasSha3, memSize := some .sha3 }
  | .balance => { staticGas := gasBalance }
  | .calldatacopy =>
    { staticGas := gasVeryLow, dynamicGas := some gasCallDataCopy, memSize := some .callDataCopy }
  | .codecopy =>
    { staticGas := gasVeryLow, dynamicGas := some gasCodeCopy, memSize := some .codeCopy }
  | .extcodesize => { staticGas := gasExtcodeSize }
  | .extcodecopy =>
    { staticGas := extcodeCopyBase, dynamicGas := some gasExtCodeCopy,
      memSize := some .extCodeCopy }
  | .returndatacopy =>
    { staticGas := 0, dynamicGas := some gasReturnDataCopy, memSize := some .returnDataCopy }
  | .extcodehash => { staticGas := gasExtcodeHash }
  | .blockhash => { staticGas := gasExtStep }
  | .mload => { staticGas := gasVeryLow, dynamicGas := some gasMLoad, memSize := some .mLoad }
  | .mstore => { staticGas := gasVeryLow, dynamicGas := some gasMStore, memSize := some .mStore }
  | .mstore8 => { staticGas := gasVeryLow, dynamicGas := some gasMStore8, memSize := some .mStore8 }
  | .sload => { staticGas := gasSLoad }
  | .sstore => { staticGas := 0, dynamicGas := some gasSStore }
  | .jumpdest => { staticGas := jumpdestGas }
  | .log n => { staticGas := 0, dynamicGas := some (makeGasLog n), memSize := some .log }
  | .create => { staticGas := createGas, dynamicGas := some gasCreate, memSize := some .create }
  | .call => { staticGas := callGas, dynamicGas := some gasCall, memSize := some .call }
  | .callcode => { staticGas := callGas, dynamicGas := some gasCallCode, memSize := some .call }
  | .return => { staticGas := 0, dynamicGas := some gasReturn, memSize := some .return }
  | .delegatecall =>
    { staticGas := 0, dynamicGas := some gasDelegateCall, memSize := some .delegateCall }
  | .staticcall =>
    { staticGas := 0, dynamicGas := some gasStaticCall, memSize := some .staticCall }
  | .create2 => { staticGas := 0, dynamicGas := some gasCreate2, memSize := some .create2 }
  | .revert => { staticGas := 0, dynamicGas := some gasRevert, memSize := some .revert }
  | .selfdestruct => { staticGas := 0, dynamicGas := some gasSelfdestruct }

/-- Note an error if there is one. -/
def noteError : Option Err → Local Unit
  | none => pure ()
  | some e => pushError e

/-- The size of the memory that an instruction needs, in whole words. -/
def memorySize : Option MemSize → Local Nat
  | none => return 0
  | some fn => do
    let size ← calcMemSize fn
    noteError (if size.2 then some .integerOverflow else none)
    let mem := safeMul (toWordSize size.1) 32
    noteError (if mem.2 then some .integerOverflow else none)
    return mem.1

/-- Grow the memory if it is smaller than a size. -/
def growTo (mem : Nat) : Local Unit := do
  if (← get).memory.capacity < mem then memoryGrow mem

def gasLookUp (op : Op) (state : CallFrame) (address : Address) : Local Nat :=
  match (instructionSet op).dynamicGas with
  | none => return (instructionSet op).staticGas
  | some dynamicGas => do
    let mem ← memorySize (instructionSet op).memSize
    let price ← dynamicGas state address mem
    noteError price.2
    growTo mem
    return ((instructionSet op).staticGas + price.1) % 2 ^ 64

end Shentu.CVM
