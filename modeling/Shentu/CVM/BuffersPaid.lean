import Shentu.CVM.BufferBounds
import Shentu.CVM.KeeperGas

/-!
Memory is paid before it is allocated in every step whose memory operands can be paid for. It
is not in general: the look-up of a price allocates what an operand asks for before it is known
whether the gas suffices, and after an overflow as well.
-/

namespace Shentu.CVM

open Lib List

lemma getD_drop_zero (stack : List Word) (k : Nat) : (stack.drop k).getD 0 0 = stack.getD k 0 := by
  simp [getD_eq_getElem?_getD]

section InstructionBounds

variable {l : Locals} {n : Nat}

lemma memoryReadBuffers_le (h : n ∈ (memoryReadBuffers l).1) :
    n ≤ (l.stack.getD 0 0).toNat + (l.stack.getD 1 0).toNat := by
  have heq : (memoryReadBuffers l).1 = readBuffers (popBigInt (popBigInt l).2).2.memory
      (popBigInt l).1 (popBigInt (popBigInt l).2).1 := rfl
  rw [heq] at h
  have hle := le_of_mem_readBuffers h
  rwa [value_popBigInt, value_popBigInt, stack_popBigInt, getD_drop_zero] at hle

lemma createBuffers_le (h : n ∈ (createBuffers l).1) :
    n ≤ (l.stack.getD 1 0).toNat + (l.stack.getD 2 0).toNat := by
  have heq : createBuffers l = memoryReadBuffers (pop64 l).2 := rfl
  rw [heq] at h
  have hle := memoryReadBuffers_le h
  have hsecond : ((l.stack.drop 1).getD 1 0) = l.stack.getD 2 0 := by
    simp [getD_eq_getElem?_getD]
  rwa [stack_pop64, getD_drop_zero, hsecond] at hle

lemma copyBuffers_le {data : List Byte} (h : n ∈ (copyBuffers data l).1) :
    n ≤ (l.stack.getD 0 0).toNat + (l.stack.getD 2 0).toNat := by
  obtain ⟨l1, hl1⟩ : ∃ l1, l1 = (popBigInt l).2 := ⟨_, rfl⟩
  obtain ⟨l2, hl2⟩ : ∃ l2, l2 = (pop64 l1).2 := ⟨_, rfl⟩
  have hlength : (pop64 l2).1 ≤ (l.stack.getD 2 0).toNat := by
    have hle := value_pop64_le l2
    rwa [hl2, stack_pop64, hl1, stack_popBigInt, drop_drop, getD_drop_zero, ← hl1, ← hl2] at hle
  have hbytes : (maybe [] (subslice data (pop64 l1).1 (pop64 l2).1) (pop64 l2).2).1.length ≤
      (pop64 l2).1 := by
    cases hsub : subslice data (pop64 l1).1 (pop64 l2).1 with
    | ok bytes => exact length_subslice hsub
    | error e => exact Nat.zero_le _
  have heq : (copyBuffers data l).1 = subsliceBuffers data (pop64 l1).1 (pop64 l2).1 ++
      writeBuffers (maybe [] (subslice data (pop64 l1).1 (pop64 l2).1) (pop64 l2).2).2.memory
        (popBigInt l).1
        (maybe [] (subslice data (pop64 l1).1 (pop64 l2).1) (pop64 l2).2).1.length := by
    rw [hl2, hl1]
    rfl
  rw [heq] at h
  have hoffset := value_popBigInt l
  rcases mem_append.mp h with h | h
  · have hle := le_of_mem_subsliceBuffers h
    omega
  · have hle := le_of_mem_writeBuffers h
    omega

lemma returndatacopyBuffers_le (h : n ∈ (returndatacopyBuffers l).1) :
    n ≤ (l.stack.getD 0 0).toNat + l.returnData.length := by
  obtain ⟨l3, hl3⟩ : ∃ l3, l3 = (popBigInt (popBigInt (popBigInt l).2).2).2 := ⟨_, rfl⟩
  have hdata : l3.returnData = l.returnData := by
    rw [hl3]
    exact (returnData_pop _).trans ((returnData_pop _).trans (returnData_pop _))
  have heq : ∃ c : Bool, (returndatacopyBuffers l).1 = ((if c then (pure [] : Local (List Nat)) else
      pure (writeBuffers l3.memory (popBigInt l).1 l3.returnData.length)) l3).1 := by
    rw [hl3]
    exact ⟨_, rfl⟩
  obtain ⟨c, heq⟩ := heq
  rw [heq] at h
  split at h
  · cases h
  · have hle := le_of_mem_writeBuffers h
    rwa [value_popBigInt, hdata] at hle

lemma stack_useGasNegative (amount : Nat) (f : Frame) :
    (useGasNegative amount f).2.locals.stack = f.locals.stack := by
  unfold useGasNegative
  split <;> rfl

lemma stack_popAccount (f : Frame) : (popAccount f).2.locals.stack = f.locals.stack.drop 1 := by
  obtain ⟨f1, hf1⟩ : ∃ f1, f1 = (useGasNegative gasGetAccount (onLocals popAddress f).2).2 :=
    ⟨_, rfl⟩
  have hstack : f1.locals.stack = f.locals.stack.drop 1 := by
    rw [hf1, stack_useGasNegative]
    exact stack_popAddress f.locals
  have heq : (popAccount f).2.locals =
      (mustGetAccount f1 (popAddress f.locals).1 f1.locals).2 := by
    rw [hf1]
    rfl
  rw [heq, ← hstack]
  unfold mustGetAccount
  cases f1.callFrame.mustAccount (popAddress f.locals).1 with
  | ok | error => rfl

variable {f : Frame}

lemma extcodecopyBuffers_le (h : n ∈ (extcodecopyBuffers f).1) :
    n ≤ (f.locals.stack.getD 1 0).toNat + (f.locals.stack.getD 3 0).toNat := by
  have heq : (extcodecopyBuffers f).1 =
      (copyBuffers (popAccount f).1.evmCode (popAccount f).2.locals).1 := rfl
  rw [heq] at h
  have hle := copyBuffers_le h
  have hthird : ((f.locals.stack.drop 1).getD 2 0) = f.locals.stack.getD 3 0 := by
    simp [getD_eq_getElem?_getD]
  rwa [stack_popAccount, getD_drop_zero, hthird] at hle

def CallType.memSize : CallType → MemSize
  | .call | .code => .call
  | .delegate => .delegateCall
  | .static => .staticCall

/-- What remains on the stack when a call takes the part of the memory for its input. -/
def CallType.inputPosition : CallType → Nat
  | .call | .code => 3
  | .delegate | .static => 2

lemma callArgs_eq_pops (callType : CallType) (f : Frame) :
    ∃ l gasLimit target value, l.stack = f.locals.stack.drop callType.inputPosition ∧
      ((callArgs callType) f).1 = ⟨gasLimit, target, value, (popBigInt l).1,
        (popBigInt (popBigInt l).2).1, (popBigInt (popBigInt (popBigInt l).2).2).1,
        (pop64 (popBigInt (popBigInt (popBigInt l).2).2).2).1⟩ := by
  obtain ⟨l1, hl1⟩ : ∃ l1, l1 = pop64 (clearReturnData f.locals).2 := ⟨_, rfl⟩
  obtain ⟨l2, hl2⟩ : ∃ l2, l2 = popAddress l1.2 := ⟨_, rfl⟩
  have htwo : l2.2.stack = f.locals.stack.drop 2 := by
    rw [hl2, stack_popAddress, hl1, stack_pop64, drop_drop]
    rfl
  have hthree : (pop64 l2.2).2.stack = f.locals.stack.drop 3 := by
    rw [stack_pop64, htwo, drop_drop]
  cases callType with
  | call | code =>
    refine ⟨(pop64 l2.2).2, l1.1, l2.1, (pop64 l2.2).1, hthree, ?_⟩
    rw [hl2, hl1]
    rfl
  | delegate | static =>
    refine ⟨l2.2, l1.1, l2.1, f.params.value, htwo, ?_⟩
    rw [hl2, hl1]
    rfl

lemma callArgs_operands (callType : CallType) (f : Frame) :
    (∃ x ∈ callType.memSize.operands f.locals.stack,
      ((callArgs callType) f).1.inOffset = x.1 ∧ ((callArgs callType) f).1.inSize = x.2) ∧
    ∃ x ∈ callType.memSize.operands f.locals.stack,
      ((callArgs callType) f).1.retOffset = x.1 ∧ ((callArgs callType) f).1.retSize ≤ x.2 := by
  obtain ⟨l, gasLimit, target, value, hl, hargs⟩ := callArgs_eq_pops callType f
  obtain ⟨k, hk⟩ : ∃ k, k = callType.inputPosition := ⟨_, rfl⟩
  rw [← hk] at hl
  have hinOffset : (popBigInt l).1 = (f.locals.stack.getD k 0).toNat := by
    rw [value_popBigInt, hl, getD_drop_zero]
  have hinSize : (popBigInt (popBigInt l).2).1 = (f.locals.stack.getD (k + 1) 0).toNat := by
    rw [value_popBigInt, stack_popBigInt, hl, drop_drop, getD_drop_zero]
  have hretOffset : (popBigInt (popBigInt (popBigInt l).2).2).1 =
      (f.locals.stack.getD (k + 2) 0).toNat := by
    rw [value_popBigInt, stack_popBigInt, stack_popBigInt, hl, drop_drop, drop_drop,
      getD_drop_zero]
  have hretSize : (pop64 (popBigInt (popBigInt (popBigInt l).2).2).2).1 ≤
      (f.locals.stack.getD (k + 3) 0).toNat := by
    have hle := value_pop64_le (popBigInt (popBigInt (popBigInt l).2).2).2
    rwa [stack_popBigInt, stack_popBigInt, stack_popBigInt, hl, drop_drop, drop_drop,
      drop_drop, getD_drop_zero] at hle
  have hoperands : callType.memSize.operands f.locals.stack =
      [((f.locals.stack.getD (k + 2) 0).toNat, (f.locals.stack.getD (k + 3) 0).toNat),
        ((f.locals.stack.getD k 0).toNat, (f.locals.stack.getD (k + 1) 0).toNat)] := by
    rw [hk]
    cases callType <;> rfl
  rw [hargs, hoperands]
  constructor
  · exact ⟨_, mem_cons_of_mem _ mem_cons_self, hinOffset, hinSize⟩
  · exact ⟨_, mem_cons_self, hretOffset, hretSize⟩

lemma callBuffers_le {callType : CallType} (h : n ∈ (callBuffers callType f).1) :
    ∃ x ∈ callType.memSize.operands f.locals.stack, n ≤ x.1 + x.2 := by
  obtain ⟨x, hx, hoffset, hsize⟩ := (callArgs_operands callType f).1
  refine ⟨x, hx, ?_⟩
  obtain ⟨⟨args, f1⟩, hq⟩ : ∃ q, q = (callArgs callType) f := ⟨_, rfl⟩
  obtain ⟨⟨o, g⟩, hp⟩ : ∃ p, p = targetAccount callType args.target f1 := ⟨_, rfl⟩
  simp only [callBuffers, bind, StateT.bind, ← hq, ← hp] at h
  rw [← hq] at hoffset hsize
  cases o with
  | none => exact absurd h not_mem_nil
  | some acc =>
    have hle := le_of_mem_readBuffers h
    rwa [hoffset, hsize] at hle

lemma returnBuffers_le {callType : CallType} {g : Frame} {req : Request}
    (hcall : call callType f = (some req, g)) {r : Result} (h : n ∈ returnBuffers g req r) :
    ∃ x ∈ callType.memSize.operands f.locals.stack, n ≤ x.1 + x.2 + r.output.length := by
  obtain ⟨x, hx, hoffset, hsize⟩ := (callArgs_operands callType f).2
  refine ⟨x, hx, ?_⟩
  obtain ⟨hoff, hret⟩ : req.retOffset = x.1 ∧ req.retSize ≤ x.2 := by
    rcases call_spec callType f with ⟨hnone, -⟩ | ⟨acc, gasLimit, input, hsome, -⟩
    · rw [hcall] at hnone
      cases hnone
    · rw [hcall] at hsome
      rw [Option.some.inj hsome]
      exact ⟨hoffset, hsize⟩
  have hpad := length_rightPadBytes r.output req.retSize
  have hmem : n ∈ padBuffers r.output req.retSize ++ writeBuffers g.locals.memory req.retOffset
      (rightPadBytes r.output req.retSize).length := by
    unfold returnBuffers at h
    split at h
    · exact h
    · exact h
    · cases h
  rcases mem_append.mp hmem with h | h
  · unfold padBuffers at h
    split at h
    · cases h
    · have hlength := mem_singleton.mp h
      omega
  · have hle := le_of_mem_writeBuffers h
    omega

/-- An instruction with memory operands allocates no more than to the end of one of them, but for
the return data, which is copied as a whole. -/
lemma instructionBuffers_le {op : Op} {fn : MemSize}
    (hmem : (instructionSet op).memSize = some fn) (h : n ∈ instructionBuffers op f) :
    ∃ x ∈ fn.operands f.locals.stack, n ≤ x.1 + x.2 + f.locals.returnData.length := by
  have hone : ∀ {x : Nat × Nat}, n ≤ x.1 + x.2 →
      ∃ y ∈ [x], n ≤ y.1 + y.2 + f.locals.returnData.length := fun {x} hx =>
    ⟨x, mem_singleton.mpr rfl, by omega⟩
  have hcall : ∀ {callType : CallType}, n ∈ (callBuffers callType f).1 →
      ∃ x ∈ callType.memSize.operands f.locals.stack,
        n ≤ x.1 + x.2 + f.locals.returnData.length := by
    intro callType hn
    obtain ⟨x, hx, hle⟩ := callBuffers_le hn
    exact ⟨x, hx, by omega⟩
  have hoffset := value_popBigInt f.locals
  cases op <;> cases hmem
  case sha3 | log | «return» | revert => exact hone (memoryReadBuffers_le h)
  case calldatacopy | codecopy => exact hone (copyBuffers_le h)
  case extcodecopy => exact hone (extcodecopyBuffers_le h)
  case returndatacopy =>
    have hle := returndatacopyBuffers_le h
    exact ⟨_, mem_singleton.mpr rfl, by dsimp only; omega⟩
  case mload =>
    have hle := le_of_mem_readBuffers h
    rw [hoffset] at hle
    exact hone hle
  case mstore | mstore8 =>
    have hle := le_of_mem_writeBuffers h
    rw [hoffset] at hle
    exact hone hle
  case create | create2 => exact hone (createBuffers_le h)
  case call => exact hcall (show n ∈ (callBuffers .call f).1 from h)
  case callcode => exact hcall (show n ∈ (callBuffers .code f).1 from h)
  case delegatecall => exact hcall (show n ∈ (callBuffers .delegate f).1 from h)
  case staticcall => exact hcall (show n ∈ (callBuffers .static f).1 from h)

lemma push_le {code : Code} {k : Nat} (h : codeGetOp code k = .push n) : n ≤ 32 := by
  have hbytes : ∀ b : Byte, (Op.ofByte b).after 0 ≤ 33 := by decide +kernel
  unfold codeGetOp at h
  split at h
  · cases h
  · rename_i b _
    have hb := hbytes b
    rw [h, Op.after] at hb
    omega

lemma instructionBuffers_word (hmem : (instructionSet f.op).memSize = none)
    (h : n ∈ instructionBuffers f.op f.paid) : n ≤ 32 ∧ f.price.1 = gasVeryLow := by
  have hstatic : (instructionSet f.op).dynamicGas = none →
      f.price.1 = (instructionSet f.op).staticGas := by
    intro hnone
    exact congrArg Prod.fst (gasLookUp_static hnone f.callFrame f.params.callee f.locals)
  cases hop : f.op
  all_goals rw [hop] at h hmem hstatic
  case calldataload => exact ⟨le_of_mem_subsliceBuffers h, hstatic rfl⟩
  case push m => exact ⟨(le_of_mem_subsliceBuffers h).trans (push_le hop), hstatic rfl⟩
  all_goals first | exact absurd hmem (Option.some_ne_none _) | cases h

end InstructionBounds

section Paid

variable {f : Frame} {n : Nat}

/-- What ends where an operand ends that can be used, or after the data of the frame, is paid
for. -/
lemma paysFor_of_canUse {x : Nat × Nat} {extra data : Nat} (h : f.CanUse x)
    (hn : n ≤ 32 * wordCount (x.1 + x.2) + extra)
    (hdata : f.locals.memory.capacity + extra ≤ data) : f.PaysFor data n := by
  rcases h with hinside | hfee
  · exact ⟨0, Nat.zero_le _, by omega⟩
  · exact ⟨_, hfee, by omega⟩

lemma le_wholeWords (k : Nat) : k ≤ 32 * wordCount k := by
  unfold wordCount
  omega

lemma lookUpBuffers_paid (h : OperandsPaid f)
    (hn : n ∈ (lookUpBuffers f.op f.callFrame f.params.callee f.locals).1) :
    f.PaysFor f.existingData n := by
  unfold lookUpBuffers at hn
  cases hgas : (instructionSet f.op).dynamicGas with
  | none =>
    rw [hgas] at hn
    exact absurd hn not_mem_nil
  | some gasFunc =>
    rw [hgas] at hn
    have hle : n ≤ (memorySize (instructionSet f.op).memSize f.locals).1 :=
      le_of_mem_growthBuffers hn
    unfold OperandsPaid at h
    cases hmem : (instructionSet f.op).memSize with
    | none =>
      rw [hmem] at hle
      exact ⟨0, Nat.zero_le _, hle.trans (Nat.zero_le _)⟩
    | some fn =>
      rw [hmem] at h hle
      obtain ⟨hdepth, hfull, huse⟩ := h
      obtain ⟨-, x, hx, hsize⟩ := memorySize_spec hdepth hfull
      have hend : n ≤ 32 * wordCount (x.1 + x.2) + 0 := by omega
      apply paysFor_of_canUse (huse x hx) hend
      unfold Frame.existingData
      omega

lemma instructionBuffers_paid (h : OperandsPaid f) (hgas : f.price.1 ≤ f.gas)
    (hn : n ∈ instructionBuffers f.op f.paid) : f.PaysFor f.existingData n := by
  unfold OperandsPaid at h
  cases hmem : (instructionSet f.op).memSize with
  | none =>
    obtain ⟨hword, hprice⟩ := instructionBuffers_word hmem hn
    rw [hprice] at hgas
    have hfee : memFee 1 ≤ gasVeryLow := by decide
    exact ⟨1, by omega, by omega⟩
  | some fn =>
    rw [hmem] at h
    obtain ⟨hdepth, hfull, huse⟩ := h
    obtain ⟨hstack, hreturn⟩ := gasLookUp_data hmem hdepth hfull f.callFrame f.params.callee
    obtain ⟨x, hx, hle⟩ := instructionBuffers_le hmem hn
    have hdata : f.paid.locals.returnData = f.locals.returnData := hreturn
    rw [show f.paid.locals.stack = f.locals.stack from hstack] at hx
    have hwords := le_wholeWords (x.1 + x.2)
    have hend : n ≤ 32 * wordCount (x.1 + x.2) + f.locals.returnData.length := by
      rw [hdata] at hle
      omega
    apply paysFor_of_canUse (huse x hx) hend
    unfold Frame.existingData
    omega

lemma memSize_op (callType : CallType) :
    (instructionSet callType.op).memSize = some callType.memSize := by
  cases callType <;> rfl

lemma OperandsPaid.buffersPaid (h : OperandsPaid f) : BuffersPaid f := by
  constructor
  · intro n hn
    unfold Frame.buffers at hn
    split at hn
    · cases hn
    · rcases mem_append.mp hn with hn | hn
      · exact lookUpBuffers_paid h hn
      · split at hn
        · cases hn
        · rename_i hgas
          exact instructionBuffers_paid h (Nat.le_of_not_lt hgas) hn
  · intro _ callType hop req g hcall r n hn
    have hmem := memSize_op callType
    unfold OperandsPaid at h
    rw [hop, hmem] at h
    rw [← hop] at hmem
    obtain ⟨hdepth, hfull, huse⟩ := h
    obtain ⟨hstack, -⟩ := gasLookUp_data hmem hdepth hfull f.callFrame f.params.callee
    obtain ⟨x, hx, hle⟩ := returnBuffers_le hcall hn
    rw [show f.paid.locals.stack = f.locals.stack from hstack] at hx
    have hwords := le_wholeWords (x.1 + x.2)
    have hend : n ≤ 32 * wordCount (x.1 + x.2) + r.output.length := by omega
    apply paysFor_of_canUse (huse x hx) hend
    unfold Frame.existingData
    omega

end Paid

/-- In every run whose steps find their memory operands paid for, every step pays for the buffers
it allocates. -/
theorem buffersPaid_of_operandsPaid (env : Env) {fuel : Nat} {f : Frame}
    (hmeets : (cvm env).Meets OperandsPaid fuel f) : (cvm env).Meets BuffersPaid fuel f :=
  hmeets.mono fun _ h => h.buffersPaid

instance (f : Frame) : DecidablePred f.CanUse := fun _ => inferInstanceAs (Decidable (_ ∨ _))

instance : DecidablePred OperandsPaid := fun f =>
  match h : (instructionSet f.op).memSize with
  | none => isTrue (by
      unfold OperandsPaid
      rw [h]
      trivial)
  | some fn =>
    decidable_of_iff (fn.depth ≤ f.locals.stack.length ∧ f.locals.stack.length < maxDepth ∧
        ∀ x ∈ fn.operands f.locals.stack, f.CanUse x) (by
      unfold OperandsPaid
      rw [h])

/-- A word is stored and returned. -/
def storeAndReturn : Code :=
  [0x60, 0x2A, 0x60, 0x00, 0x52, 0x60, 0x20, 0x60, 0x00, 0xF3]

/-- A call of a contract with some code and gas. -/
def codeFrame (code : Code) (gas : Nat) : Frame :=
  { code := code
    params := callParams (contractCall 0) 2
    gas := gas
    locals := .new
    callFrame := .blank
    transferErr := none
    logFree := false
    shared := ⟨0, 0, .empty⟩ }

/-- With enough gas to store and return a word all buffers are paid for. -/
theorem buffersPaid_storeAndReturn :
    ((cvm plainHost.toEnv).run 10 (codeFrame storeAndReturn 100)).isSome = true ∧
      (cvm plainHost.toEnv).Meets BuffersPaid 10 (codeFrame storeAndReturn 100) := by
  refine ⟨by decide +kernel, buffersPaid_of_operandsPaid plainHost.toEnv ?_⟩
  decide +kernel

/-- A word is loaded at the offset `2 ^ 40`. -/
def loadFarAway : Code := [0x65, 0x01, 0x00, 0x00, 0x00, 0x00, 0x00, 0x51]

/-- The second step of a call with a gas of six allocates more than a tebibyte for the price of
its instruction, which then overflows. -/
theorem buffersPaid_not_loadFarAway :
    ∃ f, step plainHost.toEnv (codeFrame loadFarAway 6) = .next f ∧
      2 ^ 40 + 32 ∈ f.buffers ∧ f.gas = 3 ∧ f.existingData = 8 ∧ ¬ BuffersPaid f := by
  have hstep : (step plainHost.toEnv (codeFrame loadFarAway 6)).NextAnd fun f =>
      2 ^ 40 + 32 ∈ f.buffers ∧ f.gas = 3 ∧ f.existingData = 8 := by
    decide +kernel
  obtain ⟨f, hf, hmem, hgas, hdata⟩ := hstep.exists
  refine ⟨f, hf, hmem, hgas, hdata, ?_⟩
  intro hpaid
  obtain ⟨w, hfee, hle⟩ := hpaid.step _ hmem
  rw [hgas] at hfee
  rw [hdata] at hle
  unfold memFee at hfee
  omega

end Shentu.CVM
