import Shentu.CVM.BlockHash
import Shentu.CVM.BuffersPaid

/-!
What instructions do to their operands, against what is documented of them: slices of byte strings,
the targets of jumps, the words that index into a word, the copy of returned data and what callees
observe. Offsets and indices are 64-bit numbers, and the sum of two of them wraps.
-/

namespace Shentu.CVM

open Lib List

section Slices

variable {data : List Byte} {offset length : Nat}

lemma copyInto_eq (length : Nat) (bs : List Byte) :
    copyInto length bs = (List.range length).map fun i => bs.getD i 0 := by
  apply ext_getElem
  · rw [length_copyInto, length_map, length_range]
  · intro i hi _
    rw [length_copyInto] at hi
    simp only [copyInto, getElem_map, getElem_range, getElem_append,
      length_take, getElem_take, getElem_replicate, getD_eq_getElem?_getD]
    split
    · rw [getElem?_eq_getElem (by omega), Option.getD_some]
    · rw [getElem?_eq_none (by omega), Option.getD_none]

/-- What is documented of a slice: the data from the offset on, padded with zeros. Only an offset
after the end of the data is an error. -/
def SlicePadded (data : List Byte) (offset length : Nat) : Prop :=
  subslice data offset length = if data.length < offset then .error .inputOutOfBounds
    else .ok ((List.range length).map fun i => data.getD (offset + i) 0)

/-- A slice that starts within the data is as documented exactly if its length is an `int`. Any
longer one panics, when the copy is made or because the end of the slice wraps. -/
theorem subslice_padded_iff (hdata : data.length < 2 ^ 63) (hlength : length < 2 ^ 64) :
    SlicePadded data offset length ↔ data.length < offset ∨ length < 2 ^ 63 := by
  have hpadded : copyInto length (data.drop offset) =
      (List.range length).map fun i => data.getD (offset + i) 0 := by
    rw [copyInto_eq]
    simp [getD_eq_getElem?_getD]
  unfold SlicePadded subslice
  rw [← hpadded]
  dsimp only
  by_cases hoffset : data.length < offset
  · simp [hoffset]
  · rw [if_neg hoffset, if_neg hoffset]
    by_cases hint : length < 2 ^ 63
    · rw [Nat.mod_eq_of_lt (by omega), if_neg hint.not_ge]
      refine iff_of_true ?_ (.inr hint)
      split
      · rfl
      · rw [if_neg (by omega), copyInto, length_drop, Nat.add_sub_cancel_left,
          Nat.sub_eq_zero_of_le (by omega), replicate_zero, append_nil]
    · rw [if_pos (not_lt.mp hint)]
      refine iff_of_false ?_ (by omega)
      split
      · nofun
      · rw [if_pos (by omega)]
        nofun

theorem subslice_padded_two : SlicePadded [1, 2, 3] 2 2 :=
  (subslice_padded_iff (by decide) (by decide)).mpr (.inr (by decide))

/-- The end of the first slice wraps to zero, and the slice expression panics. The second slice is
too long for `make`. -/
theorem subslice_wraps : ¬ [(1 : Byte)].length < 1 ∧ subslice [1] 1 (2 ^ 64 - 1) = .error .panic ∧
    subslice [1] 0 (2 ^ 63) = .error .panic := by
  decide +kernel

end Slices

section Jumps

variable {code : Code} {i j : Nat}

/-- Decoding from one position reaches another one at the start of an instruction. -/
inductive DecodesTo (code : Code) : Nat → Nat → Prop
  | here (i : Nat) : DecodesTo code i i
  | next {i j : Nat} : DecodesTo code ((codeGetOp code i).after i) j → DecodesTo code i j

lemma lt_after (op : Op) (i : Nat) : i < op.after i := by
  unfold Op.after
  split <;> omega

lemma DecodesTo.le (h : DecodesTo code i j) : i ≤ j := by
  induction h with
  | here i => exact le_rfl
  | next _ ih => exact (lt_after _ _).le.trans ih

/-- The walk ends at the first instruction that is not before its target. -/
lemma walkTo_least {n fuel : Nat} (hfuel : n ≤ i + fuel) :
    n ≤ walkTo code n fuel i ∧ DecodesTo code i (walkTo code n fuel i) ∧
      ∀ j, DecodesTo code i j → n ≤ j → walkTo code n fuel i ≤ j := by
  induction fuel generalizing i with
  | zero => exact ⟨hfuel, .here i, fun _ h _ => h.le⟩
  | succ fuel ih =>
    unfold walkTo
    split
    · have hafter := lt_after (codeGetOp code i) i
      obtain ⟨hle, hat, hleast⟩ := ih (i := (codeGetOp code i).after i) (by omega)
      refine ⟨hle, .next hat, fun j hj hn => ?_⟩
      cases hj with
      | here => omega
      | next hj => exact hleast j hj hn
    · exact ⟨by omega, .here i, fun _ h _ => h.le⟩

/-- A jump succeeds exactly at the instructions `JUMPDEST` that decoding from the start meets. The
program counter is the target then, and is not moved by the error otherwise. -/
theorem jump_iff_decodesTo (code : Code) (target : Nat) (l : Locals) :
    (jump code target = .ok target ↔ DecodesTo code 0 target ∧ codeGetOp code target = .jumpdest) ∧
    (jump code target = .error .invalidJumpDest ↔
      ¬ (DecodesTo code 0 target ∧ codeGetOp code target = .jumpdest)) ∧
    jumpTo code target l = (.continue, if jump code target = .ok target then { l with pc := target }
      else (pushError .invalidJumpDest l).2) := by
  have hfails : (codeGetOp code target ≠ .jumpdest ∨ isInsidePushData code target = true) ↔
      ¬ (DecodesTo code 0 target ∧ codeGetOp code target = .jumpdest) := by
    by_cases hop : codeGetOp code target = .jumpdest
    · have hlength : target < code.length := by
        by_contra hge
        rw [codeGetOp, getElem?_eq_none (by omega)] at hop
        cases hop
      obtain ⟨hle, hat, hleast⟩ := @walkTo_least code 0 target target (Nat.le_add_left target 0)
      rw [isInsidePushData, if_neg (by omega), decide_eq_true_iff]
      simp only [hop, ne_eq, not_true_eq_false, false_or, and_true]
      refine ⟨fun hlt h => absurd (hleast target h le_rfl) hlt.not_ge, fun h => ?_⟩
      exact lt_of_le_of_ne hle fun heq => h (heq ▸ hat)
    · simp [hop]
  unfold jumpTo
  by_cases h : DecodesTo code 0 target ∧ codeGetOp code target = .jumpdest
  · have hjump : jump code target = .ok target := if_neg (hfails.not.mpr (not_not.mpr h))
    rw [hjump]
    refine ⟨iff_of_true rfl h, iff_of_false nofun (not_not.mpr h), ?_⟩
    rw [if_pos rfl]
    rfl
  · have hjump : jump code target = .error .invalidJumpDest := if_pos (hfails.mpr h)
    rw [hjump]
    exact ⟨iff_of_false nofun h, iff_of_true rfl h, rfl⟩

end Jumps

section Indices

variable {l : Locals} {w k x : Word} {rest : List Word}

lemma popBigInt_cons (hs : l.stack = w :: rest) :
    popBigInt l = (w.toNat, { l with stack := rest }) := by
  show ((pop l).1.toNat, (pop l).2) = _
  rw [pop_cons hs]
  rfl

lemma wordOfInt_signExtend (x : Word) (n : Nat) :
    wordOfInt (signExtend x.toNat (n + 1)) = (x.setWidth (n + 1)).signExtend 256 := by
  unfold signExtend BitVec.signExtend wordOfInt
  rw [BitVec.toInt_eq_toNat_cond, BitVec.toNat_setWidth, Nat.add_sub_cancel, pow_succ]
  congr 1
  split <;> split <;> first | omega | push_cast; rfl

lemma getD_littleEndian {width i : Nat} (n : Nat) (h : i < width) :
    ((littleEndian width n).getD i 0).val = n / 256 ^ i % 256 := by
  induction width generalizing i n with
  | zero => cases h
  | succ width ih =>
    cases i with
    | zero => rw [pow_zero, Nat.div_one]; rfl
    | succ i =>
      rw [pow_succ', ← Nat.div_div_eq_div_mul]
      exact ih (n / 256) (by omega)

lemma getD_wordBytes (x : Word) {i : Nat} (h : i < 32) :
    ((wordBytes x).getD i 0).val = x.toNat / 256 ^ (31 - i) % 256 := by
  rw [← getD_littleEndian x.toNat (show 31 - i < 32 by omega), wordBytes,
    getD_eq_getElem?_getD, getElem?_reverse (by rwa [length_littleEndian]),
    length_littleEndian, getD_eq_getElem?_getD]

/-- The word that `SIGNEXTEND` pushes for an index and a value. -/
def signExtended (k : Nat) (x : Word) : Word :=
  if 31 ≤ k then x else (x.setWidth (k * 8 + 8)).signExtend 256

/-- The byte of a value at an index, counted from the most significant one. -/
def byteAt (k : Nat) (x : Word) : Word :=
  if k < 32 then .ofNat 256 (x.toNat / 256 ^ (31 - k) % 256) else 0

section Pushes

variable (hs : l.stack = k :: x :: rest) (hdepth : l.stack.length ≤ maxDepth)
include hs hdepth

lemma push_two (w : Word) :
    push w { l with stack := rest } = ((), { l with stack := w :: rest }) := by
  rw [hs, length_cons, length_cons] at hdepth
  exact push_of_room (show rest.length < maxDepth by omega)

lemma localOp_signextend (env : Env) (f : Frame) : localOp env f .signextend l =
    (.next, { l with stack := signExtended (k.toNat % 2 ^ 64) x :: rest }) := by
  have hx : ({ l with stack := x :: rest } : Locals).stack = x :: rest := rfl
  simp only [localOp, bind, StateT.bind, popBigInt_cons hs, signExtended]
  split
  · rw [if_neg (by omega), ← wordOfInt_signExtend x (k.toNat % 2 ^ 64 * 8 + 7)]
    simp only [StateT.bind, popBigInt_cons hx, pushBigInt]
    exact congrArg (fun p => (Flow.next, p.2)) (push_two hs hdepth _)
  · rw [if_pos (by omega)]
    rfl

lemma localOp_byte (env : Env) (f : Frame) (hk : k.toNat < 2 ^ 64) :
    localOp env f .byte l = (.next, { l with stack := byteAt k.toNat x :: rest }) := by
  have hx : ({ l with stack := x :: rest } : Locals).stack = x :: rest := rfl
  have hvalue : BitVec.ofNat 256 (if k.toNat < 32 then ((wordBytes x).getD k.toNat 0).val else 0) =
      byteAt k.toNat x := by
    unfold byteAt
    split
    · rw [getD_wordBytes x ‹_›]
    · rfl
  simp only [localOp, bind, StateT.bind, pop64_of_cons hs hk, pop_cons hx, push64, hvalue]
  exact congrArg (fun p => (Flow.next, p.2)) (push_two hs hdepth _)

/-- `SIGNEXTEND` does what is documented exactly if its index has 64 bits, or if the value is what
the index without its upper bits makes of it. `BYTE` does exactly if its index has 64 bits. -/
theorem localOp_index_iff (env : Env) (f : Frame) (herr : l.err = none) :
    (localOp env f .signextend l = (.next, { l with stack := signExtended k.toNat x :: rest }) ↔
      k.toNat < 2 ^ 64 ∨ signExtended (k.toNat % 2 ^ 64) x = x) ∧
    (localOp env f .byte l = (.next, { l with stack := byteAt k.toNat x :: rest }) ↔
      k.toNat < 2 ^ 64) := by
  constructor
  · rw [localOp_signextend hs hdepth]
    by_cases hk : k.toNat < 2 ^ 64
    · rw [Nat.mod_eq_of_lt hk]
      exact iff_of_true rfl (.inl hk)
    · have hwide : signExtended k.toNat x = x := if_pos (by omega)
      refine ⟨fun h => .inr ?_, fun h => by rw [h.resolve_left hk, hwide]⟩
      exact (congrArg (fun p => p.2.stack.headD 0) h).trans hwide
  · refine ⟨fun h => ?_, localOp_byte hs hdepth env f⟩
    by_contra hk
    have hpop : (pop64 l).2.err ≠ none := by
      have heq : pop64 l = (if isUint64 (pop l).1.toNat then pure (pop l).1.toNat
        else do pushError .integerOverflow; return 0 : Local Nat) (pop l).2 := rfl
      rw [heq, pop_cons hs, if_neg (by simpa [isUint64] using hk)]
      exact err_pushError _ _
    have hafter := (Steady.pop.bind fun val => (Steady.push64 (if (pop64 l).1 < 32 then
      ((wordBytes val).getD (pop64 l).1 0).val else 0)).bind fun _ => .pure Flow.next) (pop64 l).2
    exact hpop (hafter.err ((congrArg (fun p => p.2.err) h).trans herr))

end Pushes

/-- The sign of a byte is extended. -/
theorem localOp_index_zero : localOp plainHost.toEnv (codeFrame [] 0) .signextend
    { Locals.new with stack := [0, 0x80] } = (.next, { Locals.new with stack := [-0x80] }) :=
  ((@localOp_index_iff { Locals.new with stack := [0, 0x80] } 0 0x80 [] rfl (by decide) _ _
    rfl).1).mpr (.inl (by decide))

/-- An index of `2 ^ 64` is taken for zero by one of the two, and is an error of the other one. -/
theorem localOp_index_wide :
    (localOp plainHost.toEnv (codeFrame [] 0) .signextend
      { Locals.new with stack := [2 ^ 64, 0x80] }).2.stack ≠ [0x80] ∧
    (localOp plainHost.toEnv (codeFrame [] 0) .byte
      { Locals.new with stack := [2 ^ 64, 0x80] }).2.err ≠ none := by
  decide +kernel

end Indices

section ReturnData

lemma Memory.ensureCapacity_spec {m : Memory} {n : Nat} (h : n ≤ maximumCapacity) :
    ∃ m', m.ensureCapacity n = .ok m' ∧ n ≤ m'.capacity ∧
      ∀ i, m'.bytes.getD i 0 = m.bytes.getD i 0 := by
  unfold ensureCapacity
  split
  · exact ⟨m, rfl, ‹_›, fun _ => rfl⟩
  · rename_i hn
    refine ⟨_, rfl, ?_, fun i => ?_⟩
    · rw [capacity, length_append, length_replicate]
      omega
    · simp only [getD_eq_getElem?_getD, getElem?_append, getElem?_replicate]
      split
      · rfl
      · rw [getElem?_eq_none (by omega)]
        split <;> rfl

/-- A write within the maximum changes the bytes that it covers, and no other ones. -/
lemma Memory.write_spec {m : Memory} {offset : Nat} {value : List Byte}
    (h : offset + value.length ≤ maximumCapacity) :
    ∃ m', m.write offset value = .ok m' ∧ ∀ i, m'.bytes.getD i 0 =
      if offset ≤ i ∧ i < offset + value.length then value.getD (i - offset) 0
      else m.bytes.getD i 0 := by
  have hmax : maximumCapacity < 2 ^ 64 := by decide
  obtain ⟨m1, heq, hcapacity, hbytes⟩ := ensureCapacity_spec (m := m) h
  unfold write
  rw [isUint64, decide_eq_true (by omega), Nat.mod_eq_of_lt (by omega)]
  simp only [heq, Bool.not_true, Bool.false_eq_true, if_false, bind, Except.bind]
  rw [dif_pos hcapacity]
  refine ⟨_, rfl, fun i => ?_⟩
  rw [← hbytes]
  rw [capacity] at hcapacity
  simp only [getD_eq_getElem?_getD, getElem?_append, getElem?_take,
    getElem?_drop, length_append, length_take,
    min_eq_left (show offset ≤ m1.bytes.length by omega)]
  by_cases hlow : i < offset
  · rw [if_pos (by omega), if_pos hlow, if_pos hlow, if_neg (by omega)]
  · by_cases hhigh : i < offset + value.length
    · rw [if_pos hhigh, if_neg hlow, if_pos ⟨by omega, hhigh⟩]
    · rw [if_neg hhigh, if_neg (by omega), Nat.add_sub_cancel' (by omega)]

/-- Only a write within the maximum succeeds. -/
lemma Memory.end_of_write {m m' : Memory} {offset : Nat} {value : List Byte}
    (h : m.write offset value = .ok m') : offset + value.length ≤ maximumCapacity := by
  unfold write at h
  split at h
  · cases h
  · simp only [bind_eq_ok] at h
    obtain ⟨m1, -, h⟩ := h
    split at h
    · exact le_trans ‹_› m1.bounded
    · cases h

/-- A slice of the returned data is copied into the memory, and no other byte is changed. -/
def CopiesReturnData (env : Env) (f : Frame) (l : Locals) (memOff offset length : Nat)
    (rest : List Word) : Prop :=
  ∃ m, localOp env f .returndatacopy l = (.next, { l with stack := rest, memory := m }) ∧
    ∀ i, m.bytes.getD i 0 = if memOff ≤ i ∧ i < memOff + length
      then l.returnData.getD (offset + (i - memOff)) 0 else l.memory.bytes.getD i 0

/-- Data that are not there are an error. The instruction writes all returned data, so a slice of
them is copied exactly if they fit into the memory and each of their bytes is the one of the slice,
or the old one behind the end of the slice. -/
theorem localOp_returndatacopy_iff (env : Env) (f : Frame) {l : Locals}
    {memOff offset length : Word} {rest : List Word}
    (hs : l.stack = memOff :: offset :: length :: rest) (herr : l.err = none) :
    (l.returnData.length < offset.toNat + length.toNat → localOp env f .returndatacopy l =
      (.continue, (pushError .returnDataOutOfBounds { l with stack := rest }).2)) ∧
    (offset.toNat + length.toNat ≤ l.returnData.length →
      (CopiesReturnData env f l memOff.toNat offset.toNat length.toNat rest ↔
        memOff.toNat + l.returnData.length ≤ maximumCapacity ∧
        ∀ i < l.returnData.length, l.returnData.getD i 0 = if i < length.toNat
          then l.returnData.getD (offset.toNat + i) 0
          else l.memory.bytes.getD (memOff.toNat + i) 0)) := by
  have heq : localOp env f .returndatacopy l = (if !isUint64 (offset.toNat + length.toNat) ||
      l.returnData.length < offset.toNat + length.toNat then do
        pushError .returnDataOutOfBounds
        return Flow.continue
      else do
        memoryWrite memOff.toNat l.returnData
        return Flow.next : Local Flow) { l with stack := rest } := by
    have hoffset : popBigInt { l with stack := offset :: length :: rest } =
      (offset.toNat, { l with stack := length :: rest }) := popBigInt_cons rfl
    have hlength : popBigInt { l with stack := length :: rest } =
      (length.toNat, { l with stack := rest }) := popBigInt_cons rfl
    simp only [localOp, bind, StateT.bind, popBigInt_cons hs, hoffset, hlength]
    rfl
  constructor
  · intro hshort
    rw [heq, if_pos (by simp [hshort])]
    rfl
  intro hwithin
  have hlimit : maximumCapacity < 2 ^ 64 := by decide
  -- Both sides say that the write succeeds, and then its bytes are known.
  have hwrites : ∀ m, localOp env f .returndatacopy l =
      (.next, { l with stack := rest, memory := m }) ↔
      l.memory.write memOff.toNat l.returnData = .ok m := by
    intro m
    rw [heq]
    by_cases hint : isUint64 (offset.toNat + length.toNat) = true
    · rw [if_neg (by simp [hint, hwithin])]
      simp only [memoryWrite, onMemory, bind, StateT.bind]
      cases hwrite : l.memory.write memOff.toNat l.returnData with
      | ok m' =>
        refine ⟨fun h => congrArg (fun p => Except.ok p.2.memory) h, fun h => ?_⟩
        cases h
        rfl
      | error e =>
        refine iff_of_false (fun h => ?_) nofun
        exact err_pushError e { l with stack := rest } ((congrArg (fun p => p.2.err) h).trans herr)
    · rw [if_pos (by simp [hint])]
      refine iff_of_false nofun fun hwrite => hint ?_
      have hend := Memory.end_of_write hwrite
      simp only [isUint64, decide_eq_true_eq]
      omega
  constructor
  · rintro ⟨m, hop, hbytes⟩
    have hwrite := (hwrites m).mp hop
    have hend := Memory.end_of_write hwrite
    obtain ⟨m', hwrite', hwritten⟩ := Memory.write_spec (m := l.memory) hend
    cases hwrite.symm.trans hwrite'
    refine ⟨hend, fun i hi => ?_⟩
    have hbyte := (hwritten (memOff.toNat + i)).symm.trans (hbytes (memOff.toNat + i))
    simpa [hi] using hbyte
  · rintro ⟨hend, hsame⟩
    obtain ⟨m, hwrite, hwritten⟩ := Memory.write_spec (m := l.memory) hend
    refine ⟨m, (hwrites m).mpr hwrite, fun i => ?_⟩
    rw [hwritten]
    by_cases hi : memOff.toNat ≤ i ∧ i < memOff.toNat + l.returnData.length
    · rw [if_pos hi, hsame (i - memOff.toNat) (by omega), Nat.add_sub_cancel' hi.1]
      exact if_congr (by omega) rfl rfl
    · rw [if_neg hi, if_neg (by omega)]

theorem localOp_returndatacopy_all : CopiesReturnData plainHost.toEnv (codeFrame [] 0)
    { Locals.new with stack := [0, 0, 3], returnData := [1, 2, 3] } 0 0 3 [] := by
  have hcopies := (localOp_returndatacopy_iff plainHost.toEnv (codeFrame [] 0) (show Locals.stack
    { Locals.new with stack := [0, 0, 3], returnData := [1, 2, 3] } = [0, 0, 3] from rfl) rfl).2
  exact (hcopies (by decide)).mpr (by decide)

/-- All three bytes are written where the second one was asked for. -/
theorem localOp_returndatacopy_part : (localOp plainHost.toEnv (codeFrame [] 0) .returndatacopy
    { Locals.new with stack := [0, 1, 1], returnData := [1, 2, 3] }).2.memory.bytes =
      [1, 2, 3] := by
  decide +kernel

end ReturnData

section Contexts

variable {callType : CallType} {f g : Frame} {req : Request}

/-- The words that `CALLER`, `ADDRESS` and `CALLVALUE` push. -/
def Frame.observed (env : Env) (f : Frame) : List Word :=
  [Op.caller, .address, .callvalue].flatMap fun op => (localOp env f op .new).2.stack

/-- The caller, the own address and the value that are documented for the callee of a frame. -/
def documentedContext (p : CallParams) (args : CallArgs) : CallType → Address × Address × Nat
  | .call => (p.callee, args.target, args.value)
  | .code => (p.callee, p.callee, args.value)
  | .delegate => (p.caller, p.callee, p.value)
  | .static => (p.callee, args.target, 0)

def contextWords (c : Address × Address × Nat) : List Word :=
  [wordOfAddress c.1, wordOfAddress c.2.1, .ofNat 256 c.2.2]

/-- A callee observes what is documented, and starts with a transfer only if a value is sent. -/
def ContextDocumented (env : Env) (callType : CallType) (f g : Frame) (req : Request) : Prop :=
  (enter g req).observed env =
      contextWords (documentedContext f.params ((callArgs callType) f).1 callType) ∧
    (callType = .delegate ∨ callType = .static → (enter g req).callFrame = req.callFrame)

/-- A frame with a value that calls another account. -/
def callerFrame (value : Nat) : Frame :=
  { codeFrame [] 100 with
    params := { (codeFrame [] 100).params with value := value }
    callFrame := CallFrame.blank.setEntry (.ofAccount (.new 5) [])
    locals := { Locals.new with stack := [0, 5, 0, 0, 0, 0] } }

end Contexts

end Shentu.CVM
