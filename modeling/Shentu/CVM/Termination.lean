import Shentu.CVM.CallEffects

/-!
The interpreter stops, and it never creates gas. The potential of a frame counts its gas and the
words on its stack: an instruction that costs nothing and does not end the frame takes words from
the stack, and one that fails is the last of its frame. A call pays for its callee from the gas that
it lends.
-/

namespace Shentu.CVM

open Lib Nat

section EmptyStack

/-- On an empty stack there are only zeros. -/
def ZeroOnEmpty (x : Local Nat) : Prop :=
  ∀ l : Locals, l.stack = [] → (x l).1 = 0 ∧ (x l).2.stack = []

variable {l : Locals}

lemma ZeroOnEmpty.pop (h : l.stack = []) : (pop l).1 = 0 ∧ (pop l).2.stack = [] := by
  rw [pop_nil h]
  exact ⟨rfl, h⟩

lemma zeroOnEmpty_popBigInt : ZeroOnEmpty popBigInt := fun l h => by
  obtain ⟨hzero, hnil⟩ := ZeroOnEmpty.pop h
  exact ⟨congrArg BitVec.toNat hzero, hnil⟩

lemma zeroOnEmpty_pop64 : ZeroOnEmpty pop64 := fun l h => by
  obtain ⟨hzero, hnil⟩ := ZeroOnEmpty.pop h
  have heq : pop64 l = (if isUint64 (pop l).1.toNat then pure (pop l).1.toNat
      else do pushError .integerOverflow; return 0 : Local Nat) (pop l).2 := rfl
  rw [heq, hzero]
  exact ⟨rfl, hnil⟩

lemma zeroOnEmpty_getStack (n : Nat) : ZeroOnEmpty (getStack n) := fun l h => by
  have hdup : (dup (n + 1) l).2 = (pushError .dataStackUnderflow l).2 := by
    have heq : dup (n + 1) l = (if l.stack.length < n + 1 then pushError .dataStackUnderflow
      else push (l.stack.getD n 0)) l := rfl
    rw [heq, if_pos (by rw [h]; exact zero_lt_succ n)]
  have heq : getStack n l = ((pop (dup (n + 1) l).2).1.toNat, (pop (dup (n + 1) l).2).2) := rfl
  rw [heq, hdup]
  obtain ⟨hzero, hnil⟩ := ZeroOnEmpty.pop (l := (pushError .dataStackUnderflow l).2) h
  exact ⟨congrArg BitVec.toNat hzero, hnil⟩

lemma mem64_empty (a b : Nat) (h : l.stack = []) :
    (mem64 a b l).1 = (0, false) ∧ (mem64 a b l).2.stack = [] := by
  obtain ⟨hoff, hnil⟩ := zeroOnEmpty_getStack a l h
  obtain ⟨hlen, hnil'⟩ := zeroOnEmpty_getStack b _ hnil
  have heq : mem64 a b l = (calcMemSize64 (getStack a l).1 (getStack b (getStack a l).2).1,
    (getStack b (getStack a l).2).2) := rfl
  rw [heq, hoff, hlen]
  exact ⟨rfl, hnil'⟩

lemma mem64Comp_eq (a b c d : Nat) (l : Locals) :
    (mem64Comp a b c d l).1 = if (mem64 a b l).1.2 then (0, true)
      else if (mem64 c d (mem64 a b l).2).1.2 then (0, true)
      else (max (mem64 a b l).1.1 (mem64 c d (mem64 a b l).2).1.1, false) := by
  have heq : mem64Comp a b c d l = (if (mem64 a b l).1.2 then pure (0, true) else do
      let y ← mem64 c d
      return if y.2 then (0, true) else (max (mem64 a b l).1.1 y.1, false) :
        Local (Nat × Bool)) (mem64 a b l).2 := rfl
  rw [heq]
  split <;> rfl

lemma mem64Comp_empty (a b c d : Nat) (h : l.stack = []) :
    (mem64Comp a b c d l).1 = (0, false) := by
  obtain ⟨hx, hnil⟩ := mem64_empty a b h
  obtain ⟨hy, -⟩ := mem64_empty c d hnil
  rw [mem64Comp_eq, hx, hy]
  rfl

lemma memoryGas_zero (gasAdd : Nat) (h : gasAdd < 2 ^ 64) (l : Locals) :
    memoryGas 0 gasAdd l = ((gasAdd, none), l) := by
  have heq : memoryGas 0 gasAdd l = (addGas 0 gasAdd, l) := rfl
  rw [heq]
  unfold addGas safeAdd maxUint64
  rw [if_neg (by simp only [decide_eq_true_eq]; omega), Nat.zero_add, mod_eq_of_lt h]

lemma cost_delegate_empty {op : Op} (hop : op = .delegatecall ∨ op = .staticcall) (st : CallFrame)
    (a : Address) (h : l.stack = []) : 0 < (gasLookUp op st a l).1 := by
  have hsize : (memorySize (instructionSet op).memSize l).1 = 0 := by
    have heq : (memorySize (instructionSet op).memSize l).1
        = (safeMul (toWordSize (mem64Comp 4 5 2 3 l).1.1) 32).1 := by
      obtain rfl | rfl := hop <;> rfl
    rw [heq, mem64Comp_empty 4 5 2 3 h]
    rfl
  have hdynamic : (instructionSet op).dynamicGas = some (onlyMemoryGas gasCalls) := by
    obtain rfl | rfl := hop <;> rfl
  have hstatic : (instructionSet op).staticGas = 0 := by
    obtain rfl | rfl := hop <;> rfl
  have hpos : 0 < (0 + gasCalls) % 2 ^ 64 := by decide
  rw [gasLookUp_dynamic hdynamic]
  dsimp only
  rw [hsize, hstatic, onlyMemoryGas, memoryGas_zero gasCalls (by decide)]
  exact hpos

lemma memoryRead_zero (l : Locals) : (memoryRead 0 0 l).1 = [] := by
  have hread : l.memory.read 0 0 = .ok ([], l.memory) := by
    unfold Memory.read Memory.ensureCapacity
    simp [isUint64, bind, Except.bind, pure, Except.pure]
  unfold memoryRead onMemory
  simp only [hread]

lemma createArgs_empty {f : Frame} (h : f.locals.stack = []) : (createArgs f).1.2 = [] := by
  obtain ⟨-, h1⟩ := zeroOnEmpty_pop64 { f.locals with returnData := [] } h
  generalize hl1 : (pop64 { f.locals with returnData := [] }).2 = l1 at h1
  obtain ⟨hoffset, h2⟩ := zeroOnEmpty_popBigInt l1 h1
  obtain ⟨hsize, -⟩ := zeroOnEmpty_popBigInt _ h2
  have heq : (createArgs f).1.2 = (memoryRead (popBigInt l1).1 (popBigInt (popBigInt l1).2).1
      (popBigInt (popBigInt l1).2).2).1 := by
    rw [← hl1]
    rfl
  rw [heq, hoffset, hsize]
  exact memoryRead_zero _

end EmptyStack

lemma pop_shortens {l : Locals} (h : (pop l).2.err = none) :
    (pop l).2.stack.length + 1 = l.stack.length := by
  cases hs : l.stack with
  | nil =>
    rw [pop_nil hs] at h
    exact absurd h (err_pushError _ l)
  | cons w rest =>
    rw [pop_cons hs]
    rfl

lemma returndatacopy_shortens (env : Env) (f : Frame) {l : Locals}
    (h : (localOp env f .returndatacopy l).2.err = none) :
    (localOp env f .returndatacopy l).2.stack.length < l.stack.length ∧
      (localOp env f .returndatacopy l).1 = .next := by
  let p1 := popBigInt l
  let p2 := popBigInt p1.2
  let p3 := popBigInt p2.2
  have heq : localOp env f .returndatacopy l =
      (if !isUint64 (p2.1 + p3.1) || p3.2.returnData.length < p2.1 + p3.1 then do
        pushError .returnDataOutOfBounds
        return .continue
      else do
        memoryWrite p1.1 p3.2.returnData
        return .next : Local Flow) p3.2 := rfl
  rw [heq] at h ⊢
  split at h
  · exact absurd h (err_pushError _ p3.2)
  · rename_i hcond
    rw [if_neg hcond]
    have hwrite := Steady.memoryWrite p1.1 p3.2.returnData p3.2
    have h3 : p3.2.err = none := hwrite.err h
    have h2 : p2.2.err = none := (Steady.popBigInt p2.2).err h3
    have h1 : p1.2.err = none := (Steady.popBigInt p1.2).err h2
    have hs1 : p1.2.stack.length + 1 = l.stack.length := pop_shortens h1
    have hs2 : p2.2.stack.length + 1 = p1.2.stack.length := pop_shortens h2
    have hs3 : p3.2.stack.length + 1 = p2.2.stack.length := pop_shortens h3
    have hstack : (memoryWrite p1.1 p3.2.returnData p3.2).2.stack = p3.2.stack :=
      stack_onMemory _ _ _
    refine ⟨?_, rfl⟩
    show (memoryWrite p1.1 p3.2.returnData p3.2).2.stack.length < l.stack.length
    rw [hstack]
    omega

/-- What a frame keeps while it runs. -/
structure Ready (f : Frame) : Prop where
  depth : f.locals.stack.length ≤ maxDepth
  paid : f.locals.err = none → Paid f.locals
  gas : f.gas < 2 ^ 64

/-- The number of instructions that a unit of gas pays for. -/
def stepsPerGas : Nat := 2 * maxDepth + 7

/-- A frame that has failed or has no code takes one more step. Otherwise its gas and the words on
its stack bound the steps. -/
def potential (f : Frame) : Nat :=
  stepsPerGas * f.gas +
    if f.code = [] ∨ f.locals.err ≠ none then 1 else 3 + 2 * f.locals.stack.length

variable {f : Frame}

lemma potential_of_err (h : f.locals.err ≠ none) : potential f = stepsPerGas * f.gas + 1 := by
  rw [potential, if_pos (.inr h)]

lemma potential_eq (hcode : f.code ≠ []) (herr : f.locals.err = none) :
    potential f = stepsPerGas * f.gas + (3 + 2 * f.locals.stack.length) := by
  rw [potential, if_neg (by simp [hcode, herr])]

lemma potential_le (h : Ready f) : potential f ≤ stepsPerGas * f.gas + (3 + 2 * maxDepth) := by
  have hdepth := h.depth
  unfold potential
  split <;> omega

lemma lt_potential (f : Frame) : stepsPerGas * f.gas + 1 ≤ potential f := by
  unfold potential
  split <;> omega

lemma Ready.proceeds {g g' : Frame} (hg : Ready g) (hlocals : Grows g.locals g'.locals)
    (hgas : g'.gas ≤ g.gas) : Ready g' :=
  ⟨hlocals.depth hg.depth, fun he => hlocals.paid (hg.paid (hlocals.err he)),
    lt_of_le_of_lt hgas hg.gas⟩

lemma Ready.acts {R : CallFrame → CallFrame → Prop} {g g' : Frame} (hg : Ready g)
    (h : Acts R g g') : Ready g' := hg.proceeds h.locals h.gas

lemma Ready.pay (hf : Ready f) (herr : f.locals.err = none) : Ready f.paid := by
  obtain ⟨-, hshorter, -⟩ := gasLookUp_keeps f.op f.callFrame f.params.callee f.locals
  refine ⟨hshorter.trans hf.depth, fun he => ?_, lt_of_le_of_lt (sub_le _ _) hf.gas⟩
  exact (gasLookUp_spec f.op f.callFrame f.params.callee (hf.paid herr) he).1

lemma minCost_le_price (hf : Ready f) (herr : f.locals.err = none)
    (he : f.paid.locals.err = none) : f.op.minCost ≤ f.price.1 :=
  (gasLookUp_spec f.op f.callFrame f.params.callee (hf.paid herr) he).2

lemma staticGas_le_price (hf : Ready f) (herr : f.locals.err = none) :
    (instructionSet f.op).staticGas ≤ f.price.1 :=
  staticGas_le_gasLookUp f.op f.callFrame f.params.callee (hf.paid herr)

section Potential

variable {f g : Frame}

lemma potential_next {cost : Nat} (hcode : f.code ≠ []) (herr : f.locals.err = none)
    (hg : Ready g) (hgas : g.gas + cost ≤ f.gas) (hcost : g.locals.err = none → 1 ≤ cost) :
    potential g + 1 ≤ potential f := by
  rw [potential_eq hcode herr]
  by_cases hge : g.locals.err = none
  · have hle := potential_le hg
    have hpay := hcost hge
    unfold stepsPerGas maxDepth at *
    omega
  · rw [potential_of_err hge]
    unfold stepsPerGas maxDepth
    omega

lemma potential_enter (f : Frame) (req : Request) :
    potential (enter f req) = stepsPerGas * req.gas + if req.code = [] then 1 else 3 := by
  show stepsPerGas * req.gas + (if req.code = [] ∨ (none : Option Err) ≠ none then 1 else 3 + 2 * 0)
    = _
  by_cases h : req.code = []
  · rw [if_pos (.inl h), if_pos h]
  · rw [if_neg (by simp [h]), if_neg h]

lemma ready_enter (f : Frame) {req : Request} (h : req.gas < 2 ^ 64) : Ready (enter f req) :=
  ⟨Nat.zero_le _, fun _ => Nat.zero_le _, h⟩

/-- A call that lends gas: it pays for the callee and for the frame that goes on. A call that fails
costs something, or it has words on the stack, or the callee has no code. -/
lemma potential_call {lent left cost : Nat} {r : Result} {code : Code} (hcode : f.code ≠ [])
    (herr : f.locals.err = none) (hg : Ready g) (hgas : g.gas ≤ left + r.gas)
    (hlent : lent + left + cost ≤ f.gas) (hcost : g.locals.err = none → 1 ≤ cost)
    (hstack : 1 ≤ cost ∨ f.locals.stack ≠ [] ∨ code = []) :
    (stepsPerGas * lent + if code = [] then 1 else 3) + potential g + 1
      ≤ potential f + stepsPerGas * r.gas := by
  have hlength : f.locals.stack ≠ [] → 1 ≤ f.locals.stack.length := by
    intro h
    exact List.length_pos_iff.mpr h
  rw [potential_eq hcode herr]
  by_cases hge : g.locals.err = none
  · have hle := potential_le hg
    have hpay := hcost hge
    unfold stepsPerGas maxDepth at *
    split <;> omega
  · rw [potential_of_err hge]
    unfold stepsPerGas maxDepth at *
    obtain hpay | hne | hnil := hstack
    · split <;> omega
    · have := hlength hne
      split <;> omega
    · rw [if_pos hnil]
      omega

end Potential

/-- The instructions that may cost nothing end the frame or call, with one exception. -/
lemma minCost_eq_zero {op : Op} (h : op.minCost = 0) :
    op = .returndatacopy ∨ ∀ env g f', instruction env op g ≠ .next f' := by
  cases op with
  | returndatacopy => exact .inl rfl
  | create2 =>
    refine .inr fun env g f' hnext => ?_
    obtain ⟨_, _, _, _, heq, -⟩ := create_spec
      (fun f => (Quiet.saltedAddress env f).toProceeds) g
    have hrun : instruction env .create2 g
        = startCall env (((create (saltedAddress env)) g).map some id) := rfl
    rw [hrun, heq] at hnext
    cases hnext
  | stop | invalid | unknown | «return» | revert => exact .inr fun env g f' h => by cases h
  | push | dup | swap | log =>
    exact absurd h (by simp [Op.minCost, instructionSet, gasVeryLow, logGas])
  | _ => exact absurd h (by decide)

/-- The gas of the host's precompiled contracts is spent and not created. -/
def NativesSpend (env : Env) : Prop :=
  ∀ address native params gas, env.hostNatives address = some native →
    (native params gas).gas ≤ gas

lemma callNative_gas {env : Env} (henv : NativesSpend env) (address : Address)
    (params : CallParams) (gas : Nat) (validators : Table Validator.pubKey) :
    (callNative env address params gas validators).1.gas ≤ gas := by
  have hwith : ∀ f : Nat → NativeResult × Table Validator.pubKey,
      (∀ left, (f left).1.gas ≤ left) → (withGas gas validators f).1.gas ≤ gas := by
    intro f hf
    unfold withGas
    split
    · exact le_rfl
    · exact (hf _).trans (sub_le _ _)
  unfold callNative
  split
  · exact le_rfl
  · refine hwith _ fun left => ?_
    split <;> exact le_rfl
  · exact hwith _ fun left => le_rfl
  · refine hwith _ fun left => ?_
    split
    · exact le_rfl
    · split <;> exact le_rfl
  · split
    · rename_i native hnative
      exact henv _ native params gas hnative
    · exact le_rfl

section Steps

variable {env : Env} {f g : Frame} {req : Request} {r : Result}

lemma ready_resumeCall (hreq : req.newAccount = none) (hg : Ready g) :
    Ready (resume env g req r) ∧ (resume env g req r).gas ≤ g.gas + r.gas ∧
      ((resume env g req r).locals.err = none → g.locals.err = none) := by
  obtain ⟨g', hacts, heq⟩ := resumeCall_spec env hreq r g
  have hstart : Ready { g with shared := r.shared } := ⟨hg.depth, hg.paid, hg.gas⟩
  have hready := hstart.acts hacts
  have hgas : g'.gas ≤ g.gas := hacts.gas
  rw [heq]
  refine ⟨⟨hready.depth, hready.paid, mod_lt _ (Nat.two_pow_pos 64)⟩, ?_, hacts.locals.err⟩
  exact (mod_le _ _).trans (Nat.add_le_add_right hgas _)

lemma ready_resumeCreate {address : Address} (hreq : req.newAccount = some address)
    (hg : Ready g) (hr : r.gas < 2 ^ 64) :
    Ready (resume env g req r) ∧ (resume env g req r).gas ≤ r.gas ∧
      ((resume env g req r).locals.err = none → g.locals.err = none) := by
  obtain ⟨g', hacts, heq⟩ := resumeCreate_spec env hreq r g
  have hstart : Ready { g with gas := r.gas, shared := r.shared } := ⟨hg.depth, hg.paid, hr⟩
  have hready := hstart.acts hacts
  rw [heq]
  exact ⟨⟨hready.depth, hready.paid, hready.gas⟩, hacts.gas, hacts.locals.err⟩

lemma next_of_acts (hf : Ready f) (hcode : f.code ≠ []) (herr : f.locals.err = none)
    (hgas : f.price.1 ≤ f.gas) {R : CallFrame → CallFrame → Prop} {f' : Frame}
    (h : Acts R f.paid f') (hcost : f.paid.locals.err = none → 1 ≤ f.price.1) :
    Ready f' ∧ potential f' + 1 ≤ potential f ∧ f'.gas ≤ f.gas := by
  have hready := (hf.pay herr).acts h
  have hle : f'.gas ≤ f.gas - f.price.1 := h.gas
  have hpay : f'.gas + f.price.1 ≤ f.gas := by omega
  exact ⟨hready, potential_next hcode herr hready hpay fun he => hcost (h.locals.err he), by omega⟩

/-- `RETURNDATACOPY` may cost nothing, but it shortens the stack. -/
lemma next_of_returndatacopy (hf : Ready f) (hcode : f.code ≠ []) (herr : f.locals.err = none)
    (hgas : f.price.1 ≤ f.gas) {f' : Frame} (h : instruction env .returndatacopy f.paid = .next f')
    : Ready f' ∧ potential f' + 1 ≤ potential f ∧ f'.gas ≤ f.gas := by
  have hwork := Quiet.onLocals (Steady.localOp env f.paid .returndatacopy) f.paid
  have hshort := returndatacopy_shortens env f.paid (l := f.paid.locals)
  have hrun : instruction env .returndatacopy f.paid
      = finish (onLocals (localOp env f.paid .returndatacopy) f.paid) := rfl
  rw [hrun] at h
  generalize hp : onLocals (localOp env f.paid .returndatacopy) f.paid = p at *
  have hshort' : p.2.locals.err = none →
      p.2.locals.stack.length < f.paid.locals.stack.length ∧ p.1 = .next := by
    rw [← hp]
    exact hshort
  obtain ⟨hkeeps, hshorter, -⟩ := gasLookUp_keeps f.op f.callFrame f.params.callee f.locals
  have hfinish := next_finish h
  have hworks : Works f.paid f' := by
    obtain rfl | rfl := hfinish
    · exact hwork
    · exact hwork.trans (.advance _)
  have hready := (hf.pay herr).proceeds hworks.locals hworks.gas
  have hle : f'.gas ≤ f.gas - f.price.1 := hworks.gas
  refine ⟨hready, ?_, by omega⟩
  by_cases he : f'.locals.err = none
  · have hlocals : f'.locals.err = p.2.locals.err ∧ f'.locals.stack = p.2.locals.stack := by
      obtain rfl | rfl := hfinish
      · exact ⟨rfl, rfl⟩
      · exact ⟨rfl, rfl⟩
    have hlt := (hshort' (hlocals.1 ▸ he)).1
    have hcode' : f'.code ≠ [] := by
      rw [hworks.code]
      exact hcode
    rw [potential_eq hcode' he, potential_eq hcode herr, hlocals.2]
    have hshorter' : f.paid.locals.stack.length ≤ f.locals.stack.length := hshorter
    have hmul := Nat.mul_le_mul_left stepsPerGas (hle.trans (sub_le _ _))
    omega
  · have hpay : f'.gas + f.price.1 ≤ f.gas := by omega
    exact potential_next hcode herr hready hpay fun h => absurd h he

/-- A call pays from its own price, or it has noted an error and there are words on the stack. -/
lemma pays_or_stack {callType : CallType} (hop : f.op = callType.op) (hf : Ready f)
    (herr : f.locals.err = none) : 1 ≤ f.price.1 ∨ f.locals.stack ≠ [] := by
  by_cases hnil : f.locals.stack = []
  · left
    cases callType with
    | call | code =>
      have hstatic := staticGas_le_price hf herr
      rw [hop] at hstatic
      exact le_trans (by decide) hstatic
    | delegate => exact cost_delegate_empty (.inl hop) _ _ hnil
    | static => exact cost_delegate_empty (.inr hop) _ _ hnil
  · exact .inr hnil

lemma next_of_step (henv : NativesSpend env) (hf : Ready f) {f' : Frame}
    (h : step env f = .next f') : Ready f' ∧ potential f' + 1 ≤ potential f ∧ f'.gas ≤ f.gas := by
  obtain ⟨hcode, herr, hgas, h⟩ := instruction_of_step h (fun _ => nofun)
  by_cases hcopy : f.op = .returndatacopy
  · rw [hcopy] at h
    exact next_of_returndatacopy hf hcode herr hgas h
  · have hcost : f.paid.locals.err = none → 1 ≤ f.price.1 := by
      intro hnone
      have hmin := minCost_le_price hf herr hnone
      by_contra hzero
      obtain hop | hop := minCost_eq_zero (by omega : f.op.minCost = 0)
      · exact hcopy hop
      · exact hop env f.paid f' h
    have hpaid := hf.pay herr
    have hleads := leads_instruction env f.op f.paid
    rw [h] at hleads
    generalize hout : Outcome.next f' = out at hleads
    cases hleads with
    | work hwork =>
      obtain rfl | rfl := next_finish hout.symm
      · exact next_of_acts hf hcode herr hgas (Acts.ofWorks hwork) hcost
      · exact next_of_acts hf hcode herr hgas
          (Acts.ofWorks (hwork.trans (Works.advance _))) hcost
    | sstore _ hacts =>
      cases hout
      exact next_of_acts hf hcode herr hgas (hacts.thenWork (Works.advance _)) hcost
    | fail hacts =>
      cases hout
      exact next_of_acts hf hcode herr hgas hacts hcost
    | @native callType acc gasLimit input g' req hreq _ _ hle hacts =>
      cases hout
      have hg := (hf.pay herr).acts hacts
      have hnone : req.newAccount = none := hreq ▸ rfl
      have hspent : (nativeResult env g' req ((callArgs callType) f.paid).1.target).gas
          ≤ gasLimit := by
        have hlent : req.gas = gasLimit := hreq ▸ rfl
        rw [← hlent]
        exact callNative_gas henv _ _ _ _
      generalize nativeResult env g' req ((callArgs callType) f.paid).1.target = r at *
      obtain ⟨hready, hback, hkeeps⟩ := @ready_resumeCall env g' req r hnone hg
      have hargs : ((callArgs callType) f.paid).2.gas ≤ f.gas - f.price.1 :=
        (Quiet.callArgs callType f.paid).gas
      have hlent : gasLimit + g'.gas + f.price.1 ≤ f.gas := by omega
      have hpotential := @potential_call f _ gasLimit g'.gas f.price.1 r [] hcode herr hready
        hback hlent (fun he => hcost (hacts.locals.err (hkeeps he))) (.inr (.inr rfl))
      have hmul := Nat.mul_le_mul_left stepsPerGas hspent
      exact ⟨hready, by omega, by omega⟩
    | destroy | create | call => cases hout

lemma done_of_step {r : Result} (h : step env f = .done r) :
    r.gas ≤ f.gas ∧ stepsPerGas * r.gas + 1 ≤ potential f := by
  have hlow := lt_potential f
  have hgas := (done_spec h).1
  have hmul := Nat.mul_le_mul_left stepsPerGas hgas
  exact ⟨hgas, by omega⟩

lemma createArgs_gas {g : Frame} (h : (createArgs g).2.locals.err = none) :
    (createArgs g).2.gas + gasCreateAccount = g.gas := by
  have hrun : ∃ k, (createArgs g).2 = ((useGasNegative gasCreateAccount) k).2 ∧ k.gas = g.gas :=
    ⟨_, rfl, rfl⟩
  obtain ⟨k, heq, hgas⟩ := hrun
  rw [heq] at h ⊢
  obtain hspent | herr := gas_useGasNegative gasCreateAccount k
  · rw [hspent, hgas]
  · exact absurd h herr

lemma callable_of_back (hready : Ready (enter g req))
    (hback : ∀ r, r.gas ≤ (enter g req).gas → Ready (resume env g req r) ∧
      potential (enter g req) + potential (resume env g req r) + 1
        ≤ potential f + stepsPerGas * r.gas ∧ (resume env g req r).gas ≤ f.gas) :
    Ready (enter g req) ∧ potential (enter g req) + 1 ≤ potential f ∧
      ∀ r, r.gas ≤ (enter g req).gas → Ready (resume env g req r) ∧
        potential (enter g req) + potential (resume env g req r) + 1
          ≤ potential f + stepsPerGas * r.gas ∧ (resume env g req r).gas ≤ f.gas := by
  refine ⟨hready, ?_, hback⟩
  obtain ⟨-, hle, -⟩ := hback { g.result [] none with gas := 0 } (Nat.zero_le _)
  have hzero : stepsPerGas * ({ g.result [] none with gas := 0 } : Result).gas = 0 := rfl
  omega

/-- A step that calls: it pays for the callee, and for the frame that goes on when the callee has
ended. -/
lemma call_of_step (hf : Ready f) {g : Frame} (h : step env f = .call g req) :
    Ready (enter g req) ∧ potential (enter g req) + 1 ≤ potential f ∧
      ∀ r, r.gas ≤ (enter g req).gas → Ready (resume env g req r) ∧
        potential (enter g req) + potential (resume env g req r) + 1
          ≤ potential f + stepsPerGas * r.gas ∧ (resume env g req r).gas ≤ f.gas := by
  obtain ⟨hcode, herr, hgas, hinstruction⟩ := instruction_of_step h (fun _ => nofun)
  have hpaid := hf.pay herr
  have hleads := leads_instruction env f.op f.paid
  rw [hinstruction] at hleads
  generalize hout : Outcome.call g req = out at hleads
  cases hleads with
  | work =>
    unfold finish at hout
    split at hout <;> cases hout
  | sstore | destroy | fail | native => cases hout
  | @call callType acc gasLimit input g' hop _ hle hacts =>
    cases hout
    have hg := hpaid.acts hacts
    have hargs : ((callArgs callType) f.paid).2.gas ≤ f.gas - f.price.1 :=
      (Quiet.callArgs callType f.paid).gas
    have hlent : gasLimit + g.gas + f.price.1 ≤ f.gas := by omega
    refine callable_of_back (ready_enter g ?_) fun r hr => ?_
    · exact lt_of_le_of_lt (by show gasLimit ≤ f.gas; omega) hf.gas
    · have hnone : (callRequest callType g ((callArgs callType) f.paid).1 acc gasLimit
          input).newAccount = none := rfl
      obtain ⟨hready, hback, hkeeps⟩ := @ready_resumeCall env g _ r hnone hg
      have hspent : r.gas ≤ gasLimit := hr
      rw [potential_enter]
      refine ⟨hready, ?_, by omega⟩
      refine potential_call hcode herr hready hback hlent (fun he => ?_) ?_
      · have hmin := minCost_le_price hf herr (hacts.locals.err (hkeeps he))
        rw [hop] at hmin
        exact le_trans (by cases callType <;> decide) hmin
      · obtain hpays | hne := pays_or_stack hop hf herr
        · exact .inl hpays
        · exact .inr (.inl hne)
  | @create k g' address child hop hargs hwork hsame _ =>
    cases hout
    have hmade := hargs.trans hwork.toProceeds
    have hworks := (Quiet.createArgs f.paid).toProceeds.trans hmade
    have hg := hpaid.proceeds hworks.locals hworks.gas
    have hleft : g.gas ≤ f.gas - f.price.1 := hworks.gas
    have hlent : g.gas + 0 + (f.gas - g.gas) ≤ f.gas := by omega
    have hreqgas : (createRequest k (createArgs f.paid).1 address child).gas = g.gas := hsame.symm
    refine callable_of_back (ready_enter g (hreqgas ▸ hg.gas)) fun r hr => ?_
    have hspent : r.gas ≤ g.gas := hreqgas ▸ hr
    have hsome : (createRequest k (createArgs f.paid).1 address child).newAccount
        = some address := rfl
    obtain ⟨hready, hback, hkeeps⟩ := @ready_resumeCreate env g _ r address hsome hg
      (lt_of_le_of_lt hspent hg.gas)
    rw [potential_enter, hreqgas]
    refine ⟨hready, ?_, by omega⟩
    have hback' : (resume env g (createRequest k (createArgs f.paid).1 address child) r).gas
        ≤ 0 + r.gas := by omega
    refine potential_call hcode herr hready hback' hlent (fun he => ?_) ?_
    · have hargsErr := hmade.locals.err (hkeeps he)
      have hspentGas := createArgs_gas hargsErr
      have hafter := hmade.gas
      have hpaidGas : f.paid.gas = f.gas - f.price.1 := rfl
      unfold gasCreateAccount at hspentGas
      omega
    · by_cases hnil : f.locals.stack = []
      · obtain ⟨-, hshorter, -⟩ :=
          gasLookUp_keeps f.op f.callFrame f.params.callee f.locals
        have hempty : f.paid.locals.stack = [] := by
          refine List.length_eq_zero_iff.mp (le_zero.mp ?_)
          rw [hnil] at hshorter
          exact hshorter
        exact .inr (.inr (createArgs_empty hempty))
      · exact .inr (.inl hnil)

/-- A frame ends with no more gas than it had, after a number of steps that its gas and its stack
bound. -/
lemma run_ends (henv : NativesSpend env) (hf : Ready f) :
    ∃ fuel r n, (cvm env).run fuel f = some (r, n) ∧ r.gas ≤ f.gas ∧
      n + stepsPerGas * r.gas ≤ potential f := by
  refine @CallMachine.run_of_potential _ _ _ (cvm env) Ready (fun f r => r.gas ≤ f.gas) potential
    (fun r => stepsPerGas * r.gas) ?_ ?_ ?_ f hf
  · intro f f' hf h
    obtain ⟨hready, hless, hgas⟩ := next_of_step henv hf h
    exact ⟨hready, hless, fun r hr => hr.trans hgas⟩
  · intro f r _ h
    exact done_of_step h
  · intro f g req hf h
    obtain ⟨hready, hless, hback⟩ := call_of_step hf h
    refine ⟨hready, hless, fun r hr _ => ?_⟩
    obtain ⟨hresume, hpaid, hgas⟩ := hback r hr
    exact ⟨hresume, hpaid, fun r' hr' => hr'.trans hgas⟩

lemma ready_of_new (hnew : f.locals = .new) (hgas : f.gas < 2 ^ 64) : Ready f := by
  refine ⟨?_, fun _ => ?_, hgas⟩
  · rw [hnew]
    exact Nat.zero_le _
  · rw [hnew]
    exact Nat.zero_le _

lemma potential_of_new (hnew : f.locals = .new) : potential f ≤ stepsPerGas * f.gas + 3 := by
  have hnil : f.locals.stack = [] := by
    rw [hnew]
    rfl
  unfold potential
  rw [hnil]
  split <;> simp

end Steps

end Shentu.CVM
