import Shentu.CVM.Word

/-!
The opcodes of the CVM and the decoding of bytecode. A jump is allowed only to a `JUMPDEST` that is
not inside the data of a push, which is found by walking the code from its beginning.
-/

namespace Shentu.CVM

open Lib

inductive Op
  | stop | add | mul | sub | div | sdiv | mod | smod | addmod | mulmod | exp | signextend
  | lt | gt | slt | sgt | eq | iszero | and | or | xor | not | byte | shl | shr | sar
  | sha3
  | address | balance | origin | caller | callvalue | calldataload | calldatasize | calldatacopy
  | codesize | codecopy | gaspriceDeprecated | extcodesize | extcodecopy | returndatasize
  | returndatacopy | extcodehash
  | blockhash | coinbase | timestamp | blockheight | difficultyDeprecated | gaslimit
  | pop | mload | mstore | mstore8 | sload | sstore | jump | jumpi | pc | msize | gas | jumpdest
  /-- `PUSH1` to `PUSH32`, with the number of bytes pushed. -/
  | push (n : Nat)
  /-- `DUP1` to `DUP16`, with the position that is copied. -/
  | dup (n : Nat)
  /-- `SWAP1` to `SWAP16`, with the position that is swapped with the top. -/
  | swap (n : Nat)
  /-- `LOG0` to `LOG4`, with the number of topics. -/
  | log (n : Nat)
  | create | call | callcode | return | delegatecall | staticcall | create2 | revert | invalid
  | selfdestruct
  | unknown (b : Byte)
  deriving DecidableEq

def Op.ofByte (b : Byte) : Op :=
  match b.val with
  | 0x00 => .stop
  | 0x01 => .add
  | 0x02 => .mul
  | 0x03 => .sub
  | 0x04 => .div
  | 0x05 => .sdiv
  | 0x06 => .mod
  | 0x07 => .smod
  | 0x08 => .addmod
  | 0x09 => .mulmod
  | 0x0A => .exp
  | 0x0B => .signextend
  | 0x10 => .lt
  | 0x11 => .gt
  | 0x12 => .slt
  | 0x13 => .sgt
  | 0x14 => .eq
  | 0x15 => .iszero
  | 0x16 => .and
  | 0x17 => .or
  | 0x18 => .xor
  | 0x19 => .not
  | 0x1A => .byte
  | 0x1B => .shl
  | 0x1C => .shr
  | 0x1D => .sar
  | 0x20 => .sha3
  | 0x30 => .address
  | 0x31 => .balance
  | 0x32 => .origin
  | 0x33 => .caller
  | 0x34 => .callvalue
  | 0x35 => .calldataload
  | 0x36 => .calldatasize
  | 0x37 => .calldatacopy
  | 0x38 => .codesize
  | 0x39 => .codecopy
  | 0x3A => .gaspriceDeprecated
  | 0x3B => .extcodesize
  | 0x3C => .extcodecopy
  | 0x3D => .returndatasize
  | 0x3E => .returndatacopy
  | 0x3F => .extcodehash
  | 0x40 => .blockhash
  | 0x41 => .coinbase
  | 0x42 => .timestamp
  | 0x43 => .blockheight
  | 0x44 => .difficultyDeprecated
  | 0x45 => .gaslimit
  | 0x50 => .pop
  | 0x51 => .mload
  | 0x52 => .mstore
  | 0x53 => .mstore8
  | 0x54 => .sload
  | 0x55 => .sstore
  | 0x56 => .jump
  | 0x57 => .jumpi
  | 0x58 => .pc
  | 0x59 => .msize
  | 0x5A => .gas
  | 0x5B => .jumpdest
  | 0xF0 => .create
  | 0xF1 => .call
  | 0xF2 => .callcode
  | 0xF3 => .return
  | 0xF4 => .delegatecall
  | 0xFA => .staticcall
  | 0xFB => .create2
  | 0xFD => .revert
  | 0xFE => .invalid
  | 0xFF => .selfdestruct
  | n =>
    if 0x60 ≤ n ∧ n ≤ 0x7F then .push (n - 0x60 + 1)
    else if 0x80 ≤ n ∧ n ≤ 0x8F then .dup (n - 0x80 + 1)
    else if 0x90 ≤ n ∧ n ≤ 0x9F then .swap (n - 0x90 + 2)
    else if 0xA0 ≤ n ∧ n ≤ 0xA4 then .log (n - 0xA0)
    else .unknown b

def codeGetOp (code : Code) (n : Nat) : Op :=
  match code[n]? with
  | none => .stop
  | some b => .ofByte b

/-- The position after an instruction and the data that it pushes. -/
def Op.after (op : Op) (i : Nat) : Nat :=
  match op with
  | .push n => i + n + 1
  | _ => i + 1

/-- The first position of an instruction from `i` on that is not before `n`. -/
def walkTo (code : Code) (n : Nat) : Nat → Nat → Nat
  | 0, i => i
  | fuel + 1, i => if i < n then walkTo code n fuel ((codeGetOp code i).after i) else i

def isInsidePushData (code : Code) (n : Nat) : Bool :=
  if code.length ≤ n then false
  -- every round passes at least one position, so that `n` rounds are enough
  else n < walkTo code n n 0

/-- The target of a jump, or an error if there is no `JUMPDEST` at it. -/
def jump (code : Code) (target : Nat) : Except Err Nat :=
  if codeGetOp code target ≠ .jumpdest ∨ isInsidePushData code target then .error .invalidJumpDest
  else .ok target

end Shentu.CVM
