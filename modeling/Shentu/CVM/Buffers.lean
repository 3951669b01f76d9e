import Shentu.CVM.CallEffects

/-!
The byte buffers that a step of the interpreter allocates, by their sizes. The look-up of a
price makes a buffer for the growth of the memory before the price is paid, and it goes on
after an error. An instruction then copies data to and from the memory, which grows if it
has to. Buffers of a fixed size of at most 40 bytes, such as those of words and nonces, are
left out, and so are those that a precompiled contract makes.
-/

namespace Shentu.CVM

open Lib

section Sizes

/-- A memory that grows is copied to a buffer of its new size. -/
def ensureBuffers (m : Memory) (n : Nat) : List Nat :=
  if m.capacity < n ∧ n ≤ maximumCapacity then [n] else []

/-- A read makes the memory large enough and then copies a part of it. -/
def readBuffers (m : Memory) (offset length : Nat) : List Nat :=
  if !isUint64 offset || !isUint64 length then []
  else
    ensureBuffers m ((offset + length) % 2 ^ 64) ++
      match m.ensureCapacity ((offset + length) % 2 ^ 64) with
      | .ok _ => [length]
      | .error _ => []

def writeBuffers (m : Memory) (offset length : Nat) : List Nat :=
  if !isUint64 offset then [] else ensureBuffers m ((offset + length) % 2 ^ 64)

/-- Only a slice that ends after the data is a copy, and no copy is made of a length that is no
`int`. -/
def subsliceBuffers (data : List Byte) (offset length : Nat) : List Nat :=
  if offset ≤ data.length ∧ data.length < (offset + length) % 2 ^ 64 ∧ length < 2 ^ 63 then [length]
  else []

def padBuffers (bs : List Byte) (length : Nat) : List Nat :=
  if 2 ^ 63 ≤ length ∨ length < bs.length then [] else [length]

/-- The growth of the memory for a price: a buffer of zeros, which is then written behind the
memory. -/
def growthBuffers (m : Memory) (mem : Nat) : List Nat :=
  if m.capacity < mem ∧ mem - m.capacity < 2 ^ 63 then (mem - m.capacity) :: ensureBuffers m mem
  else []

end Sizes

section Instructions

def lookUpBuffers (op : Op) (state : CallFrame) (address : Address) : Local (List Nat) :=
  match (instructionSet op).dynamicGas with
  | none => return []
  | some dynamicGas => do
    let mem ← memorySize (instructionSet op).memSize
    let _ ← dynamicGas state address mem
    return growthBuffers (← get).memory mem

/-- The instructions that read a part of the memory. -/
def memoryReadBuffers : Local (List Nat) := do
  let offset ← popBigInt
  let size ← popBigInt
  return readBuffers (← get).memory offset size

def copyBuffers (data : List Byte) : Local (List Nat) := do
  let memOff ← popBigInt
  let dataOff ← pop64
  let length ← pop64
  let bytes ← maybe [] (subslice data dataOff length)
  return subsliceBuffers data dataOff length ++
    writeBuffers (← get).memory memOff bytes.length

def returndatacopyBuffers : Local (List Nat) := do
  let memOff ← popBigInt
  let outputOff ← popBigInt
  let length ← popBigInt
  let l ← get
  if !isUint64 (outputOff + length) || l.returnData.length < outputOff + length then return []
  else return writeBuffers l.memory memOff l.returnData.length

def extcodecopyBuffers : Exec (List Nat) := do
  let acc ← popAccount
  onLocals (copyBuffers acc.evmCode)

def createBuffers : Local (List Nat) := do
  let _ ← pop64
  memoryReadBuffers

/-- A call copies its input, if there is an account to call. -/
def callBuffers (callType : CallType) : Exec (List Nat) := do
  let args ← callArgs callType
  match ← targetAccount callType args.target with
  | none => return []
  | some _ => return readBuffers (← get).locals.memory args.inOffset args.inSize

def instructionBuffers (op : Op) (f : Frame) : List Nat :=
  match op with
  | .sha3 | .log _ | .return | .revert => (memoryReadBuffers f.locals).1
  | .calldataload => subsliceBuffers f.params.input (pop64 f.locals).1 32
  | .calldatacopy => (copyBuffers f.params.input f.locals).1
  | .codecopy => (copyBuffers f.code f.locals).1
  | .extcodecopy => (extcodecopyBuffers f).1
  | .returndatacopy => (returndatacopyBuffers f.locals).1
  | .mload => readBuffers f.locals.memory (popBigInt f.locals).1 32
  | .mstore => writeBuffers f.locals.memory (popBigInt f.locals).1 32
  | .mstore8 => writeBuffers f.locals.memory (popBigInt f.locals).1 1
  | .push n => subsliceBuffers f.code (f.locals.pc + 1) n
  | .create | .create2 => (createBuffers f.locals).1
  | .call => (callBuffers .call f).1
  | .callcode => (callBuffers .code f).1
  | .delegatecall => (callBuffers .delegate f).1
  | .staticcall => (callBuffers .static f).1
  | _ => []

/-- What a call allocates when its callee has ended: the output is padded and written. -/
def returnBuffers (f : Frame) (req : Request) (r : Result) : List Nat :=
  match r.err with
  | none | some .executionReverted =>
    padBuffers r.output req.retSize ++
      writeBuffers f.locals.memory req.retOffset (rightPadBytes r.output req.retSize).length
  | _ => []

/-- The buffers of a step, up to the start of a callee. -/
def Frame.buffers (f : Frame) : List Nat :=
  if f.code = [] ∨ f.locals.err.isSome then []
  else
    (lookUpBuffers f.op f.callFrame f.params.callee f.locals).1 ++
      if f.gas < f.price.1 then [] else instructionBuffers f.op f.paid

end Instructions

section Claim

/-- The data that a frame holds. -/
def Frame.existingData (f : Frame) : Nat :=
  f.locals.memory.capacity + f.locals.returnData.length + f.params.input.length + f.code.length

/-- The gas of a frame pays for a memory of this size over some data. -/
def Frame.PaysFor (f : Frame) (data n : Nat) : Prop :=
  ∃ w, memFee w ≤ f.gas ∧ n ≤ 32 * w + data

/-- Every buffer of a step is paid for, also those that are made when a callee has returned. -/
structure BuffersPaid (f : Frame) : Prop where
  step : ∀ n ∈ f.buffers, f.PaysFor f.existingData n
  back : f.price.1 ≤ f.gas → ∀ callType : CallType, f.op = callType.op →
    ∀ req g, call callType f.paid = (some req, g) → ∀ r, ∀ n ∈ returnBuffers g req r,
      f.PaysFor (f.existingData + r.output.length) n

/-- The parts of the memory that an instruction names on the stack, as offsets and lengths. -/
def MemSize.operands (fn : MemSize) (stack : List Word) : List (Nat × Nat) :=
  let word (n : Nat) : Nat := (stack.getD n 0).toNat
  match fn with
  | .sha3 | .log | .return | .revert => [(word 0, word 1)]
  | .callDataCopy | .codeCopy | .returnDataCopy => [(word 0, word 2)]
  | .extCodeCopy => [(word 1, word 3)]
  | .mLoad | .mStore => [(word 0, 32)]
  | .mStore8 => [(word 0, 1)]
  | .create | .create2 => [(word 1, word 2)]
  | .call => [(word 5, word 6), (word 3, word 4)]
  | .delegateCall | .staticCall => [(word 4, word 5), (word 2, word 3)]

/-- How many words of the stack name them. -/
def MemSize.depth : MemSize → Nat
  | .mLoad | .mStore | .mStore8 => 1
  | .sha3 | .log | .return | .revert => 2
  | .callDataCopy | .codeCopy | .returnDataCopy | .create | .create2 => 3
  | .extCodeCopy => 4
  | .delegateCall | .staticCall => 6
  | .call => 7

/-- A part of the memory can be used: its words are there, or their fee can be paid. -/
def Frame.CanUse (f : Frame) (x : Nat × Nat) : Prop :=
  32 * wordCount (x.1 + x.2) ≤ f.locals.memory.capacity ∨ memFee (wordCount (x.1 + x.2)) ≤ f.gas

/-- The next instruction finds its memory operands on the stack, there is room for a copy of
one, and each can be used. -/
def OperandsPaid (f : Frame) : Prop :=
  match (instructionSet f.op).memSize with
  | none => True
  | some fn => fn.depth ≤ f.locals.stack.length ∧ f.locals.stack.length < maxDepth ∧
      ∀ x ∈ fn.operands f.locals.stack, f.CanUse x

end Claim

end Shentu.CVM
