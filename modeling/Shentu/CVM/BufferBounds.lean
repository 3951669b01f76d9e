import Shentu.CVM.Buffers

/-!
What the buffers of a step are bounded by. With enough operands on the stack the look-up of a
price leaves the stack alone, and every buffer of the look-up and of the instruction ends where
a memory operand ends, or a whole word later.
-/

namespace Shentu.CVM

open Lib List Nat

section SizeBounds

variable {m : Memory} {offset length n : Nat}

lemma le_of_mem_ensureBuffers (h : n ∈ ensureBuffers m length) : n ≤ length := by
  unfold ensureBuffers at h
  split at h
  · exact (mem_singleton.mp h).le
  · cases h

lemma le_of_mem_readBuffers (h : n ∈ readBuffers m offset length) : n ≤ offset + length := by
  unfold readBuffers at h
  split at h
  · cases h
  · rcases mem_append.mp h with h | h
    · exact (le_of_mem_ensureBuffers h).trans (mod_le _ _)
    · split at h
      · have hlength := mem_singleton.mp h
        omega
      · cases h

lemma le_of_mem_writeBuffers (h : n ∈ writeBuffers m offset length) : n ≤ offset + length := by
  unfold writeBuffers at h
  split at h
  · cases h
  · exact (le_of_mem_ensureBuffers h).trans (mod_le _ _)

lemma le_of_mem_subsliceBuffers {data : List Byte} (h : n ∈ subsliceBuffers data offset length) :
    n ≤ length := by
  unfold subsliceBuffers at h
  split at h
  · exact (mem_singleton.mp h).le
  · cases h

lemma le_of_mem_growthBuffers (h : n ∈ growthBuffers m length) : n ≤ length := by
  unfold growthBuffers at h
  split at h
  · rcases mem_cons.mp h with rfl | h
    · exact sub_le _ _
    · exact le_of_mem_ensureBuffers h
  · cases h

lemma length_copyInto (length : Nat) (bs : List Byte) : (copyInto length bs).length = length := by
  unfold copyInto
  rw [length_append, length_take, length_replicate]
  omega

lemma length_subslice {data bytes : List Byte} (h : subslice data offset length = .ok bytes) :
    bytes.length ≤ length := by
  unfold subslice at h
  dsimp only at h
  split at h
  · cases h
  · split at h
    · split at h
      · cases h
      · cases h
        exact (length_copyInto _ _).le
    · split at h
      · cases h
      · cases h
        have hmod : (offset + length) % 2 ^ 64 ≤ offset + length := mod_le _ _
        rw [length_take]
        omega

lemma length_rightPadBytes (bs : List Byte) (length : Nat) :
    (rightPadBytes bs length).length ≤ length + bs.length := by
  unfold rightPadBytes
  split
  · exact le_add_left _ _
  · rw [length_copyInto]
    exact le_add_right _ _

end SizeBounds

section Operands

variable {l : Locals}

lemma getWord256_eq {n : Nat} (hn : n < l.stack.length) (hfull : l.stack.length < maxDepth) :
    getWord256 n l = (l.stack.getD n 0, l) := by
  have hdup : (dup (n + 1) l).2 = (setStack (l.stack.getD n 0 :: l.stack) l).2 := by
    have heq : dup (n + 1) l = (if l.stack.length < n + 1 then pushError .dataStackUnderflow
        else push (l.stack.getD n 0)) l := rfl
    have hpush : push (l.stack.getD n 0) l = (if maxDepth < l.stack.length + 1 then
        pushError .dataStackOverflow else setStack (l.stack.getD n 0 :: l.stack)) l := rfl
    rw [heq, if_neg (by omega), hpush, if_neg (by omega)]
  have heq : getWord256 n l = pop (dup (n + 1) l).2 := rfl
  rw [heq, hdup, pop_cons (w := l.stack.getD n 0) (show _ = _ :: l.stack from rfl)]
  rfl

lemma getStack_eq {n : Nat} (hn : n < l.stack.length) (hfull : l.stack.length < maxDepth) :
    getStack n l = ((l.stack.getD n 0).toNat, l) := by
  have heq : getStack n l = ((getWord256 n l).1.toNat, (getWord256 n l).2) := rfl
  rw [heq, getWord256_eq hn hfull]

lemma calcMemSize64WithUint_le (off length : Nat) :
    (calcMemSize64WithUint off length).1 ≤ off + length := by
  unfold calcMemSize64WithUint
  split
  · exact zero_le _
  · split
    · exact zero_le _
    · exact mod_le _ _

lemma calcMemSize64_le (off length : Nat) : (calcMemSize64 off length).1 ≤ off + length := by
  unfold calcMemSize64
  split
  · exact zero_le _
  · exact calcMemSize64WithUint_le off length

lemma mem64_eq {a b : Nat} (ha : a < l.stack.length) (hb : b < l.stack.length)
    (hfull : l.stack.length < maxDepth) :
    mem64 a b l = (calcMemSize64 (l.stack.getD a 0).toNat (l.stack.getD b 0).toNat, l) := by
  have heq : mem64 a b l = (calcMemSize64 (getStack a l).1 (getStack b (getStack a l).2).1,
      (getStack b (getStack a l).2).2) := rfl
  rw [heq, getStack_eq ha hfull, getStack_eq hb hfull]

lemma memUint64_eq {a : Nat} (b : Nat) (ha : a < l.stack.length)
    (hfull : l.stack.length < maxDepth) :
    memUint64 a b l = (calcMemSize64WithUint (l.stack.getD a 0).toNat b, l) := by
  have heq : memUint64 a b l = (calcMemSize64WithUint (getStack a l).1 b, (getStack a l).2) := rfl
  rw [heq, getStack_eq ha hfull]

lemma mem64Comp_spec {a b c d : Nat} (ha : a < l.stack.length) (hb : b < l.stack.length)
    (hc : c < l.stack.length) (hd : d < l.stack.length) (hfull : l.stack.length < maxDepth) :
    ∃ size, mem64Comp a b c d l = (size, l) ∧
      size.1 ≤ max ((l.stack.getD a 0).toNat + (l.stack.getD b 0).toNat)
        ((l.stack.getD c 0).toNat + (l.stack.getD d 0).toNat) := by
  have heq : mem64Comp a b c d l = (if (mem64 a b l).1.2 then pure (0, true)
      else do
        let y ← mem64 c d
        return if y.2 then (0, true) else (max (mem64 a b l).1.1 y.1, false)) (mem64 a b l).2 := rfl
  have hx := calcMemSize64_le (l.stack.getD a 0).toNat (l.stack.getD b 0).toNat
  have hy := calcMemSize64_le (l.stack.getD c 0).toNat (l.stack.getD d 0).toNat
  rw [heq, mem64_eq ha hb hfull]
  split
  · exact ⟨(0, true), rfl, zero_le _⟩
  · have hrest : (do
        let y ← mem64 c d
        return if y.2 then ((0 : Nat), true) else
          (max (calcMemSize64 (l.stack.getD a 0).toNat (l.stack.getD b 0).toNat).1 y.1, false) :
          Local (Nat × Bool)) l = (if (mem64 c d l).1.2 then ((0 : Nat), true) else
          (max (calcMemSize64 (l.stack.getD a 0).toNat (l.stack.getD b 0).toNat).1
            (mem64 c d l).1.1, false), (mem64 c d l).2) := rfl
    rw [hrest, mem64_eq hc hd hfull]
    refine ⟨_, rfl, ?_⟩
    split
    · exact zero_le _
    · dsimp only
      omega

variable {fn : MemSize}

/-- The size that is computed from the operands is at most the end of one of them. -/
lemma calcMemSize_eq (hdepth : fn.depth ≤ l.stack.length) (hfull : l.stack.length < maxDepth) :
    ∃ size, calcMemSize fn l = (size, l) ∧ ∃ x ∈ fn.operands l.stack, size.1 ≤ x.1 + x.2 := by
  have hone : ∀ {a b : Nat}, a < l.stack.length → b < l.stack.length →
      ∃ size, mem64 a b l = (size, l) ∧
        ∃ x ∈ [((l.stack.getD a 0).toNat, (l.stack.getD b 0).toNat)], size.1 ≤ x.1 + x.2 :=
    fun ha hb => ⟨_, mem64_eq ha hb hfull, _, mem_singleton.mpr rfl, calcMemSize64_le _ _⟩
  have hfixed : ∀ (b : Nat), 0 < l.stack.length → ∃ size, memUint64 0 b l = (size, l) ∧
        ∃ x ∈ [((l.stack.getD 0 0).toNat, b)], size.1 ≤ x.1 + x.2 :=
    fun b ha => ⟨_, memUint64_eq b ha hfull, _, mem_singleton.mpr rfl,
      calcMemSize64WithUint_le _ _⟩
  have htwo : ∀ {a b c d : Nat}, a < l.stack.length → b < l.stack.length →
      c < l.stack.length → d < l.stack.length → ∃ size, mem64Comp a b c d l = (size, l) ∧
        ∃ x ∈ [((l.stack.getD a 0).toNat, (l.stack.getD b 0).toNat),
          ((l.stack.getD c 0).toNat, (l.stack.getD d 0).toNat)], size.1 ≤ x.1 + x.2 := by
    intro a b c d ha hb hc hd
    obtain ⟨size, heq, hle⟩ := mem64Comp_spec ha hb hc hd hfull
    refine ⟨size, heq, ?_⟩
    rcases le_max_iff.mp hle with hle | hle
    · exact ⟨_, mem_cons_self, hle⟩
    · exact ⟨_, mem_cons_of_mem _ (mem_singleton.mpr rfl), hle⟩
  cases fn
  case sha3 | log | «return» | revert =>
    have hd : 2 ≤ l.stack.length := hdepth
    exact hone (by omega) (by omega)
  case callDataCopy | codeCopy | returnDataCopy | create | create2 =>
    have hd : 3 ≤ l.stack.length := hdepth
    exact hone (by omega) (by omega)
  case extCodeCopy =>
    have hd : 4 ≤ l.stack.length := hdepth
    exact hone (by omega) (by omega)
  case mLoad | mStore | mStore8 =>
    have hd : 1 ≤ l.stack.length := hdepth
    exact hfixed _ (by omega)
  case call =>
    have hd : 7 ≤ l.stack.length := hdepth
    exact htwo (by omega) (by omega) (by omega) (by omega)
  case delegateCall | staticCall =>
    have hd : 6 ≤ l.stack.length := hdepth
    exact htwo (by omega) (by omega) (by omega) (by omega)

lemma wholeWords_le (n : Nat) : (safeMul (toWordSize n) 32).1 ≤ 32 * wordCount n := by
  unfold safeMul toWordSize wordCount maxUint64
  split
  · exact zero_le _
  · split
    · omega
    · exact (mod_le _ _).trans (by omega)

/-- The frame finds its data as before: an error may have been noted, or a fee or a refund. -/
structure SameData (l l' : Locals) : Prop where
  stack : l'.stack = l.stack
  memory : l'.memory = l.memory
  returnData : l'.returnData = l.returnData

lemma SameData.refl (l : Locals) : SameData l l := ⟨rfl, rfl, rfl⟩

lemma SameData.trans {l1 l2 l3 : Locals} (h : SameData l1 l2) (h' : SameData l2 l3) :
    SameData l1 l3 :=
  ⟨h'.stack.trans h.stack, h'.memory.trans h.memory, h'.returnData.trans h.returnData⟩

lemma sameData_noteError (err : Option Err) (l : Locals) : SameData l (noteError err l).2 := by
  cases err with
  | none => exact .refl l
  | some e => exact ⟨rfl, rfl, rfl⟩

lemma sameData_memGasCost (mem : Nat) (l : Locals) : SameData l (memGasCost mem l).2 := by
  unfold memGasCost
  split
  · exact .refl l
  · split
    · exact .refl l
    · dsimp only
      split
      · exact .refl l
      · exact ⟨rfl, rfl, rfl⟩

lemma memorySize_spec (hdepth : fn.depth ≤ l.stack.length) (hfull : l.stack.length < maxDepth) :
    SameData l (memorySize (some fn) l).2 ∧
      ∃ x ∈ fn.operands l.stack, (memorySize (some fn) l).1 ≤ 32 * wordCount (x.1 + x.2) := by
  obtain ⟨size, heq, x, hx, hle⟩ := calcMemSize_eq hdepth hfull
  have hsize : memorySize (some fn) l =
      ((safeMul (toWordSize size.1) 32).1,
        (noteError (if (safeMul (toWordSize size.1) 32).2 then some .integerOverflow else none)
          (noteError (if size.2 then some .integerOverflow else none) l).2).2) := by
    have hunfold : memorySize (some fn) l =
      ((safeMul (toWordSize (calcMemSize fn l).1.1) 32).1,
        (noteError (if (safeMul (toWordSize (calcMemSize fn l).1.1) 32).2
            then some .integerOverflow else none)
          (noteError (if (calcMemSize fn l).1.2 then some .integerOverflow else none)
            (calcMemSize fn l).2).2).2) := rfl
    rw [hunfold, heq]
  rw [hsize]
  refine ⟨(sameData_noteError _ _).trans (sameData_noteError _ _), x, hx, ?_⟩
  have hwords : wordCount size.1 ≤ wordCount (x.1 + x.2) := by
    unfold wordCount
    omega
  have hwhole := wholeWords_le size.1
  omega

lemma sameData_memoryGas (mem gasAdd : Nat) (l : Locals) : SameData l (memoryGas mem gasAdd l).2 :=
  sameData_memGasCost mem l

lemma sameData_copyGas {mem pos : Nat} (gasAdd : Nat) (hpos : pos < l.stack.length)
    (hfull : l.stack.length < maxDepth) : SameData l (copyGas mem pos gasAdd l).2 := by
  have hfee := sameData_memGasCost mem l
  have heq : copyGas mem pos gasAdd l = (if (memGasCost mem l).1.2.isSome then
      (pure (memGasCost mem l).1 : Price) else do
        return copyPrice (memGasCost mem l).1.1 (← getStack pos) gasAdd) (memGasCost mem l).2 :=
    rfl
  rw [heq]
  split
  · exact hfee
  · have hreturn : (do return copyPrice (memGasCost mem l).1.1 (← getStack pos) gasAdd : Price)
        (memGasCost mem l).2 = (copyPrice (memGasCost mem l).1.1
          (getStack pos (memGasCost mem l).2).1 gasAdd,
          (getStack pos (memGasCost mem l).2).2) := rfl
    rw [hreturn, getStack_eq (by rwa [hfee.stack]) (by rwa [hfee.stack])]
    exact hfee

lemma sameData_makeGasLog (n : Nat) (hone : 1 < l.stack.length)
    (hfull : l.stack.length < maxDepth) (st : CallFrame) (a : Address) (mem : Nat) :
    SameData l (makeGasLog n st a mem l).2 := by
  have heq : makeGasLog n st a mem l = (if (bigToUint64 (getStack 1 l).1).2 then
      (pure (0, some .gasUintOverflow) : Price) else do
        let fee ← memGasCost mem
        return if fee.2.isSome then fee else
          logPrice fee.1 n (bigToUint64 (getStack 1 l).1).1) (getStack 1 l).2 := rfl
  rw [heq, getStack_eq hone hfull]
  split
  · exact .refl l
  · exact sameData_memGasCost mem l

lemma sameData_gasCall (htwo : 2 < l.stack.length) (hfull : l.stack.length < maxDepth)
    (st : CallFrame) (a : Address) (mem : Nat) : SameData l (gasCall st a mem l).2 := by
  have heq : ∃ gasAdd, gasCall st a mem l =
      memoryGas mem gasAdd (getWord256 1 (getStack 2 l).2).2 := ⟨_, rfl⟩
  obtain ⟨gasAdd, heq⟩ := heq
  rw [heq, getStack_eq htwo hfull, getWord256_eq (by omega) hfull]
  exact sameData_memoryGas mem gasAdd l

lemma sameData_gasCallCode (htwo : 2 < l.stack.length) (hfull : l.stack.length < maxDepth)
    (st : CallFrame) (a : Address) (mem : Nat) : SameData l (gasCallCode st a mem l).2 := by
  have heq : ∃ gasAdd, gasCallCode st a mem l = memoryGas mem gasAdd (getStack 2 l).2 := ⟨_, rfl⟩
  obtain ⟨gasAdd, heq⟩ := heq
  rw [heq, getStack_eq htwo hfull]
  exact sameData_memoryGas mem gasAdd l

/-- A dynamic price reads only words that the stack has. -/
lemma sameData_dynamicGas {op : Op} {gasFunc : GasFunc}
    (hgas : (instructionSet op).dynamicGas = some gasFunc)
    (hmem : (instructionSet op).memSize = some fn) (hdepth : fn.depth ≤ l.stack.length)
    (hfull : l.stack.length < maxDepth) (st : CallFrame) (a : Address) (mem : Nat) :
    SameData l (gasFunc st a mem l).2 := by
  have hcopy : ∀ {pos : Nat} (gasAdd : Nat), pos < l.stack.length →
      SameData l (copyGas mem pos gasAdd l).2 := fun gasAdd hpos =>
    sameData_copyGas gasAdd hpos hfull
  cases op <;> cases hgas <;> cases hmem
  case log n => exact sameData_makeGasLog n hdepth hfull st a mem
  case call =>
    have hd : 7 ≤ l.stack.length := hdepth
    exact sameData_gasCall (by omega) hfull st a mem
  case callcode =>
    have hd : 7 ≤ l.stack.length := hdepth
    exact sameData_gasCallCode (by omega) hfull st a mem
  case delegatecall | staticcall => exact sameData_memoryGas mem _ l
  case mload | mstore | mstore8 | create | «return» | revert => exact sameData_memGasCost mem l
  all_goals exact hcopy _ hdepth

lemma returnData_growTo (mem : Nat) (l : Locals) : (growTo mem l).2.returnData = l.returnData := by
  rw [growTo_eq]
  split
  · unfold memoryGrow onMemory
    split <;> rfl
  · rfl

lemma gasLookUp_data {op : Op} (hmem : (instructionSet op).memSize = some fn)
    (hdepth : fn.depth ≤ l.stack.length) (hfull : l.stack.length < maxDepth) (st : CallFrame)
    (a : Address) : (gasLookUp op st a l).2.stack = l.stack ∧
      (gasLookUp op st a l).2.returnData = l.returnData := by
  obtain ⟨gasFunc, hgas⟩ : ∃ gasFunc, (instructionSet op).dynamicGas = some gasFunc := by
    cases op <;> first | exact ⟨_, rfl⟩ | cases hmem
  have hsize := (memorySize_spec hdepth hfull).1
  have hprice := sameData_dynamicGas hgas hmem (by rwa [hsize.stack]) (by rwa [hsize.stack]) st a
    (memorySize (some fn) l).1
  have hall := hsize.trans (hprice.trans (sameData_noteError
    (gasFunc st a (memorySize (some fn) l).1 (memorySize (some fn) l).2).1.2 _))
  rw [gasLookUp_dynamic hgas, hmem]
  rw [stack_growTo, returnData_growTo]
  exact ⟨hall.stack, hall.returnData⟩

end Operands

end Shentu.CVM
