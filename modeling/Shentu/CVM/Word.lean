import Shentu.Lib.Bytes

/-!
The numbers of the CVM: 256-bit words with their bytes and addresses, 64-bit numbers with their
overflow checks, and slices of byte strings. Integers of the host language that grow without bound
are `Nat` or `Int`, and a number that is kept in 64 bits is reduced where the source computes it.
-/

namespace Shentu.CVM

open Lib

abbrev Word := BitVec 256

/-- The twenty bytes of an address, read as a number. -/
abbrev Address := Nat

abbrev Code := List Byte

/-- The error codes of an execution. A runtime panic of the host language ends the execution of
all frames, the others end one frame. -/
inductive Err
  | insufficientGas | insufficientBalance | dataStackOverflow | dataStackUnderflow
  | integerOverflow | gasUintOverflow | memoryOutOfBounds | inputOutOfBounds | codeOutOfBounds
  | returnDataOutOfBounds | invalidBlockNumber | blockNumberOutOfRange | unknownAddress
  | nonExistentAccount | duplicateAddress | reservedAddress | illegalWrite | invalidJumpDest
  | invalidContractCode | executionReverted | executionAborted | unqualifiedCertifier | generic
  | panic
  deriving DecidableEq

/-- The first error counts, but a panic ends the execution after an error as well. -/
def firstErr (first second : Option Err) : Option Err :=
  if second = some .panic then second else first.or second

@[simp] lemma firstErr_eq_none {first second : Option Err} :
    firstErr first second = none ↔ first = none ∧ second = none := by
  unfold firstErr
  split
  · rename_i h
    simp [h]
  · simp

/-- The value of the lowest 256 bits of an integer. -/
def wordOfInt (x : Int) : Word := BitVec.ofInt 256 x

/-- The word that stands for a truth value. -/
def wordOfBool (b : Bool) : Word := if b then 1 else 0

def ofBigEndian (bs : List Byte) : Nat := bs.foldl (fun n b => 256 * n + b.val) 0

def leftPadWord256 (bs : List Byte) : Word := BitVec.ofNat 256 (ofBigEndian bs)

def wordBytes (w : Word) : List Byte := (littleEndian 32 w.toNat).reverse

def wordOfAddress (a : Address) : Word := BitVec.ofNat 256 a

def addressOfWord (w : Word) : Address := w.toNat % 2 ^ 160

/-- The lowest bits of a number, read as a signed number of that width. -/
def signExtend (x bits : Nat) : Int :=
  if x % 2 ^ bits < 2 ^ (bits - 1) then (x % 2 ^ bits : Nat) else (x % 2 ^ bits : Nat) - 2 ^ bits

/-- The number of bytes of a number without leading zeros. -/
def byteLength (n : Nat) : Nat := if n = 0 then 0 else Nat.log2 n / 8 + 1

section Uint64

def maxUint64 : Nat := 2 ^ 64 - 1

def safeAdd (x y : Nat) : Nat × Bool := ((x + y) % 2 ^ 64, maxUint64 - x < y)

def safeMul (x y : Nat) : Nat × Bool :=
  if x = 0 ∨ y = 0 then (0, false) else (x * y % 2 ^ 64, maxUint64 / x < y)

def isUint64 (n : Nat) : Bool := n < 2 ^ 64

def bigToUint64 (v : Nat) : Nat × Bool := (v % 2 ^ 64, !isUint64 v)

def toWordSize (size : Nat) : Nat :=
  if maxUint64 - 31 < size then maxUint64 / 32 + 1 else (size + 31) / 32

end Uint64

/-- A new slice of the given length into which bytes are copied. -/
def copyInto (length : Nat) (bs : List Byte) : List Byte :=
  bs.take length ++ List.replicate (length - bs.length) 0

def subslice (data : List Byte) (offset length : Nat) : Except Err (List Byte) :=
  let sliceEnd := (offset + length) % 2 ^ 64
  if data.length < offset then .error .inputOutOfBounds
  else if data.length < sliceEnd then
    -- `make` panics at a length that is no `int`
    if 2 ^ 63 ≤ length then .error .panic else .ok (copyInto length (data.drop offset))
  -- a slice expression with its end before its start
  else if sliceEnd < offset then .error .panic
  else .ok ((data.drop offset).take (sliceEnd - offset))

/-- Pads on the right. The length is read as a signed number, and longer data is not cut. -/
def rightPadBytes (bs : List Byte) (length : Nat) : List Byte :=
  if 2 ^ 63 ≤ length ∨ length < bs.length then bs else copyInto length bs

end Shentu.CVM
