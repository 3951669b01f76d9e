import Shentu.CVM.Gas

/-!
Bounds on the price of an instruction. The fee of the memory never wraps, because the last total
fee belongs to a memory that is not larger than the one there is. So an instruction costs at least
what its table entry says, unless the look-up notes an error.
-/

namespace Shentu.CVM

open Lib Nat

/-- The total fee of a memory of a number of words. -/
def memFee (w : Nat) : Nat := 3 * w + w * w / 512

variable {w gas : Nat} {l l' : Locals} {op : Op}

lemma memFee_mono {v : Nat} (h : v ≤ w) : memFee v ≤ memFee w := by
  unfold memFee
  have hsquare : v * v ≤ w * w := Nat.mul_le_mul h h
  have := Nat.div_le_div_right (c := 512) hsquare
  omega

lemma memFee_le (h : w ≤ 0xFFFFFFFF) : memFee w ≤ 2 ^ 56 := by
  have hmono := memFee_mono h
  have htop : memFee 0xFFFFFFFF ≤ 2 ^ 56 := by decide
  omega

/-- The number of words of a memory. -/
def wordCount (capacity : Nat) : Nat := (capacity + 31) / 32

/-- The fee that was paid last is for no more than the memory there is. -/
def Paid (l : Locals) : Prop := l.lastGasCost ≤ memFee (wordCount l.memory.capacity)

lemma Grows.paid (h : Grows l l') (hl : Paid l) : Paid l' := by
  unfold Paid wordCount at *
  rw [h.lastGasCost]
  have hcap := h.capacity
  exact hl.trans (memFee_mono (by omega))

/-- What a look at the stack keeps: without an error, all of it. -/
structure Looked (l l' : Locals) : Prop where
  err : l'.err = none → l.err = none
  memory : l'.memory = l.memory
  lastGasCost : l'.lastGasCost = l.lastGasCost
  shorter : l'.stack.length ≤ l.stack.length
  stack : l'.err = none → l'.stack = l.stack

lemma Looked.refl (l : Locals) : Looked l l := ⟨id, rfl, rfl, le_rfl, fun _ => rfl⟩

lemma Looked.trans {l1 l2 l3 : Locals} (h : Looked l1 l2) (h' : Looked l2 l3) : Looked l1 l3 :=
  ⟨fun e => h.err (h'.err e), h'.memory.trans h.memory, h'.lastGasCost.trans h.lastGasCost,
    h'.shorter.trans h.shorter, fun e => (h'.stack e).trans (h.stack (h'.err e))⟩

lemma Looked.paid (h : Looked l l') (hl : Paid l) : Paid l' := by
  unfold Paid at *
  rw [h.lastGasCost, h.memory]
  exact hl

/-- A computation that only looks at the stack. -/
def Looks {α : Type} (x : Local α) : Prop := ∀ l, Looked l (x l).2

namespace Looks

variable {α β : Type}

lemma pure (a : α) : Looks (pure a : Local α) := Looked.refl

lemma bind {x : Local α} {f : α → Local β} (hx : Looks x) (hf : ∀ a, Looks (f a)) :
    Looks (x >>= f) := fun l => (hx l).trans (hf _ _)

lemma pushError (e : Err) : Looks (pushError e) := fun l =>
  ⟨(Steady.pushError e l).err, rfl, rfl, le_rfl, fun h => absurd h (err_pushError e l)⟩

lemma noteError (err : Option Err) : Looks (noteError err) := by
  cases err with
  | none => exact pure ()
  | some e => exact pushError e

end Looks

lemma push_cases (w : Word) (l : Locals) : (push w l).2 = (setStack (w :: l.stack) l).2 ∨
      (push w l).2 = (pushError .dataStackOverflow l).2 := by
  have heq : push w l = (if maxDepth < l.stack.length + 1 then
      pushError .dataStackOverflow else setStack (w :: l.stack)) l := rfl
  rw [heq]
  split
  · exact .inr rfl
  · exact .inl rfl

lemma dup_cases (n : Nat) (l : Locals) :
    (n ≤ l.stack.length ∧ (dup n l).2 = (setStack (l.stack.getD (n - 1) 0 :: l.stack) l).2) ∨
      ∃ e, (dup n l).2 = (pushError e l).2 := by
  have heq : dup n l = (if l.stack.length < n then pushError .dataStackUnderflow
      else push (l.stack.getD (n - 1) 0)) l := rfl
  rw [heq]
  split
  · exact .inr ⟨_, rfl⟩
  · obtain h | h := push_cases (l.stack.getD (n - 1) 0) l
    · exact .inl ⟨by omega, h⟩
    · exact .inr ⟨_, h⟩

lemma looked_pop_of_err (h : l.err ≠ none) : Looked l (pop l).2 := by
  have herr := (Steady.pop l).err
  cases hs : l.stack with
  | nil =>
    rw [pop_nil hs]
    exact Looks.pushError _ l
  | cons w rest =>
    rw [pop_cons hs]
    refine ⟨id, rfl, rfl, ?_, fun he => absurd he h⟩
    rw [hs]
    exact le_succ _

lemma getWord256_spec (n : Nat) (l : Locals) : Looked l (getWord256 n l).2 ∧
    ((getWord256 n l).2.err = none →
      n < l.stack.length ∧ (getWord256 n l).1 = l.stack.getD n 0) := by
  have heq : getWord256 n l = pop (dup (n + 1) l).2 := rfl
  rw [heq]
  obtain ⟨hle, h⟩ | ⟨e, h⟩ := dup_cases (n + 1) l
  · rw [h, pop_cons (w := l.stack.getD n 0) (show _ = _ :: l.stack from rfl)]
    exact ⟨⟨id, rfl, rfl, le_rfl, fun _ => rfl⟩, fun _ => ⟨hle, rfl⟩⟩
  · rw [h]
    have hlooked := looked_pop_of_err (err_pushError e l)
    exact ⟨(Looks.pushError e l).trans hlooked,
      fun he => absurd (hlooked.err he) (err_pushError e l)⟩

namespace Looks

lemma getWord256 (n : Nat) : Looks (getWord256 n) := fun l => (getWord256_spec n l).1

lemma getStack (n : Nat) : Looks (getStack n) := (getWord256 n).bind fun _ => pure _

lemma mem64 (a b : Nat) : Looks (mem64 a b) :=
  (getStack a).bind fun _ => (getStack b).bind fun _ => pure _

lemma mem64Comp (a b c d : Nat) : Looks (mem64Comp a b c d) := by
  refine (mem64 a b).bind fun x => ?_
  split
  · exact pure _
  · exact (mem64 c d).bind fun _ => pure _

lemma calcMemSize (fn : MemSize) : Looks (calcMemSize fn) := by
  cases fn with
  | mLoad | mStore | mStore8 => exact (getStack _).bind fun _ => pure _
  | call | delegateCall | staticCall => exact mem64Comp _ _ _ _
  | _ => exact mem64 _ _

lemma memorySize (fn : Option MemSize) : Looks (memorySize fn) := by
  cases fn with
  | none => exact pure 0
  | some fn =>
    exact (calcMemSize fn).bind fun _ => (noteError _).bind fun _ =>
      (noteError _).bind fun _ => pure _

end Looks

/-- What the look-up of a price for a size of memory keeps. -/
structure Priced (mem : Nat) (l l' : Locals) : Prop where
  err : l'.err = none → l.err = none
  capacity : l.memory.capacity ≤ l'.memory.capacity
  lastGasCost : l'.lastGasCost ≤ max l.lastGasCost (memFee (toWordSize mem))
  shorter : l'.stack.length ≤ l.stack.length
  stack : l'.err = none → l'.stack = l.stack

lemma Looked.priced {mem : Nat} (h : Looked l l') : Priced mem l l' :=
  ⟨h.err, by rw [h.memory], by rw [h.lastGasCost]; exact le_max_left _ _, h.shorter, h.stack⟩

lemma Priced.trans {mem : Nat} {l1 l2 l3 : Locals} (h : Priced mem l1 l2)
    (h' : Priced mem l2 l3) : Priced mem l1 l3 := by
  refine ⟨fun e => h.err (h'.err e), h.capacity.trans h'.capacity, ?_, h'.shorter.trans h.shorter,
    fun e => (h'.stack e).trans (h.stack (h'.err e))⟩
  have h1 := h.lastGasCost
  have h2 := h'.lastGasCost
  omega

/-- A price that is at least `low` if there is no error, and never more than `high`. -/
structure PriceSpec (mem low high : Nat) (x : Price) : Prop where
  keeps : ∀ l, Priced mem l (x l).2
  low : ∀ l, (x l).1.2 = none → low ≤ (x l).1.1
  high : ∀ l, Paid l → (x l).1.1 ≤ high

namespace PriceSpec

variable {α : Type} {mem low high : Nat}

lemma mono {low' high' : Nat} {x : Price} (hx : PriceSpec mem low high x) (hlow : low' ≤ low)
    (hhigh : high ≤ high') : PriceSpec mem low' high' x :=
  ⟨hx.keeps, fun l h => hlow.trans (hx.low l h), fun l hl => (hx.high l hl).trans hhigh⟩

lemma look {x : Local α} {f : α → Price} (hx : Looks x)
    (hf : ∀ a, PriceSpec mem low high (f a)) : PriceSpec mem low high (x >>= f) :=
  ⟨fun l => (hx l).priced.trans ((hf _).keeps _), fun _ h => (hf _).low _ h,
    fun l hl => (hf _).high _ ((hx l).paid hl)⟩

lemma fixed {gas : Nat} {err : Option Err} (hlow : low ≤ gas) (hhigh : gas ≤ high) :
    PriceSpec mem low high (pure (gas, err)) :=
  ⟨fun l => (Looked.refl l).priced, fun _ _ => hlow, fun _ _ => hhigh⟩

lemma refused (e : Err) : PriceSpec mem low high (pure (0, some e)) :=
  ⟨fun l => (Looked.refl l).priced, fun _ h => (nomatch h), fun _ _ => Nat.zero_le _⟩

end PriceSpec

lemma totalFee_eq (hw : w ≤ 0xFFFFFFFF) :
    (w * memoryWordGas % 2 ^ 64 + w * w % 2 ^ 64 / quadCoeffDiv) % 2 ^ 64 = memFee w := by
  have hsquare : w * w ≤ 0xFFFFFFFF * 0xFFFFFFFF := Nat.mul_le_mul hw hw
  have hfee := memFee_le hw
  unfold memFee at hfee ⊢
  unfold memoryWordGas quadCoeffDiv
  generalize w * w = square at *
  rw [mod_eq_of_lt (by omega : square < 2 ^ 64), mod_eq_of_lt (by omega : w * 3 < 2 ^ 64),
    mod_eq_of_lt (by omega)]
  omega

lemma toWordSize_le {mem : Nat} (h : mem ≤ 0x1FFFFFFFE0) : toWordSize mem ≤ 0xFFFFFFFF := by
  unfold toWordSize maxUint64
  split <;> omega

variable (mem : Nat)

/-- The fee of the memory: nothing if it does not grow or the size is refused, and otherwise the
difference of the total fees. -/
lemma memGasCost_cases (l : Locals) : (∃ err, memGasCost mem l = ((0, err), l)) ∨
    (mem ≤ 0x1FFFFFFFE0 ∧ l.memory.capacity < toWordSize mem * 32 ∧
      memGasCost mem l = (((memFee (toWordSize mem) + 2 ^ 64 - l.lastGasCost) % 2 ^ 64, none),
        { l with lastGasCost := memFee (toWordSize mem) })) := by
  unfold memGasCost
  split
  · exact .inl ⟨none, rfl⟩
  · split
    · exact .inl ⟨_, rfl⟩
    · rename_i hmem
      have hwords := toWordSize_le (Nat.le_of_not_lt hmem)
      dsimp only
      rw [totalFee_eq hwords, mod_eq_of_lt (by omega : toWordSize mem * 32 < 2 ^ 64)]
      split
      · exact .inl ⟨none, rfl⟩
      · exact .inr ⟨by omega, by omega, rfl⟩

lemma memGasCost_spec : PriceSpec mem 0 (2 ^ 56) (memGasCost mem) := by
  refine ⟨fun l => ?_, fun _ _ => Nat.zero_le _, fun l hl => ?_⟩
  · obtain ⟨err, h⟩ | ⟨-, -, h⟩ := memGasCost_cases mem l
    · rw [h]
      exact (Looked.refl l).priced
    · rw [h]
      exact ⟨id, le_rfl, le_max_right _ _, le_rfl, fun _ => rfl⟩
  · obtain ⟨err, h⟩ | ⟨hmem, hcap, h⟩ := memGasCost_cases mem l
    · rw [h]
      exact Nat.zero_le _
    · have hfee := memFee_le (toWordSize_le hmem)
      have hlast : l.lastGasCost ≤ memFee (toWordSize mem) := by
        refine le_trans hl (memFee_mono ?_)
        unfold wordCount
        omega
      rw [h]
      show (memFee (toWordSize mem) + 2 ^ 64 - l.lastGasCost) % 2 ^ 64 ≤ 2 ^ 56
      omega

lemma memGasCost_lt (l : Locals) : (memGasCost mem l).1.1 < 2 ^ 64 := by
  obtain ⟨err, h⟩ | ⟨-, -, h⟩ := memGasCost_cases mem l
  · rw [h]
    exact Nat.two_pow_pos 64
  · rw [h]
    exact mod_lt _ (Nat.two_pow_pos 64)

lemma PriceSpec.afterFee {mem low high : Nat} {f : Nat × Option Err → Price}
    (hf : ∀ fee, Looks (f fee))
    (hlow : ∀ fee l, fee.1 < 2 ^ 64 → (f fee l).1.2 = none → low ≤ (f fee l).1.1)
    (hhigh : ∀ fee l, fee.1 ≤ 2 ^ 56 → (f fee l).1.1 ≤ high) :
    PriceSpec mem low high (memGasCost mem >>= f) := by
  have hspec := memGasCost_spec mem
  exact ⟨fun l => (hspec.keeps l).trans (hf _ _).priced,
    fun l h => hlow _ _ (memGasCost_lt mem l) h, fun l hl => hhigh _ _ (hspec.high l hl)⟩

lemma safeAdd_eq {amount : Nat} (hgas : gas < 2 ^ 64) (h : (safeAdd gas amount).2 = false) :
    (safeAdd gas amount).1 = gas + amount := by
  unfold safeAdd maxUint64 at *
  simp only [decide_eq_false_iff_not] at *
  omega

lemma addGas_le (gas amount : Nat) : (addGas gas amount).1 ≤ gas + amount := by
  unfold addGas
  split
  · exact Nat.zero_le _
  · exact mod_le _ _

lemma addGas_lt (gas amount : Nat) : (addGas gas amount).1 < 2 ^ 64 := by
  unfold addGas
  split
  · exact Nat.two_pow_pos 64
  · exact mod_lt _ (Nat.two_pow_pos 64)

lemma addGas_eq {amount : Nat} (hgas : gas < 2 ^ 64) (h : (addGas gas amount).2 = none) :
    (addGas gas amount).1 = gas + amount := by
  unfold addGas at *
  split at h
  · cases h
  · rename_i hno
    rw [if_neg hno]
    exact safeAdd_eq hgas (by simpa using hno)

lemma memoryGas_spec (mem gasAdd : Nat) :
    PriceSpec mem gasAdd (2 ^ 56 + gasAdd) (memoryGas mem gasAdd) := by
  refine .afterFee (fun _ => .pure _) ?_ ?_
  · rintro ⟨gas, err⟩ l hgas h
    cases err with
    | some e => cases h
    | none =>
      have heq : (addGas gas gasAdd).1 = gas + gasAdd := addGas_eq hgas h
      show gasAdd ≤ (addGas gas gasAdd).1
      omega
  · rintro ⟨gas, err⟩ l hgas
    cases err with
    | some e => exact le_add_right_of_le hgas
    | none => exact (addGas_le gas gasAdd).trans (by omega)

lemma toWordSize_le_of_uint64 {n : Nat} (h : n < 2 ^ 64) : toWordSize n ≤ 2 ^ 59 := by
  unfold toWordSize maxUint64
  split <;> omega

lemma copyPrice_le (gas length gasAdd : Nat) :
    (copyPrice gas length gasAdd).1 ≤ gas + 2 ^ 59 * gasAdd := by
  have hwords : toWordSize (bigToUint64 length).1 ≤ 2 ^ 59 :=
    toWordSize_le_of_uint64 (mod_lt _ (Nat.two_pow_pos 64))
  have hmul : (safeMul (toWordSize (bigToUint64 length).1) gasAdd).1 ≤ 2 ^ 59 * gasAdd := by
    unfold safeMul
    split
    · exact Nat.zero_le _
    · exact (mod_le _ _).trans (Nat.mul_le_mul_right gasAdd hwords)
  unfold copyPrice
  dsimp only
  split
  · exact Nat.zero_le _
  · exact (addGas_le _ _).trans (Nat.add_le_add_left hmul gas)

lemma copyGas_spec (mem n gasAdd : Nat) :
    PriceSpec mem 0 (2 ^ 56 + 2 ^ 59 * gasAdd) (copyGas mem n gasAdd) := by
  refine .afterFee (fun fee => ?_) (fun _ _ _ _ => Nat.zero_le _) ?_
  · split
    · exact .pure _
    · exact (Looks.getStack n).bind fun _ => Looks.pure _
  · rintro ⟨gas, err⟩ l hgas
    cases err with
    | some e => exact le_add_right_of_le hgas
    | none => exact (copyPrice_le _ _ _).trans (Nat.add_le_add_right hgas _)

lemma logPrice_low {n size : Nat} (hgas : gas < 2 ^ 64) (h : (logPrice gas n size).2 = none) :
    logGas ≤ (logPrice gas n size).1 := by
  unfold logPrice at *
  dsimp only at *
  split at h
  · cases h
  · rename_i hno
    rw [if_neg hno]
    simp only [Bool.or_eq_true, not_or, Bool.not_eq_true] at hno
    obtain ⟨⟨hbase, htopics⟩, -⟩ := hno
    have hlt : ∀ x y, (safeAdd x y).1 < 2 ^ 64 := fun _ _ => mod_lt _ (Nat.two_pow_pos 64)
    rw [addGas_eq (hlt _ _) h, safeAdd_eq (hlt _ _) htopics, safeAdd_eq hgas hbase]
    omega

lemma logPrice_le (gas n size : Nat) : (logPrice gas n size).1 ≤ 2 ^ 64 - 1 := by
  unfold logPrice
  dsimp only
  split
  · exact Nat.zero_le _
  · have := addGas_lt (safeAdd (safeAdd gas logGas).1 (n * logTopicGas)).1
      (safeMul size logDataGas).1
    omega

lemma makeGasLog_spec (n : Nat) (st : CallFrame) (a : Address) (mem : Nat) :
    PriceSpec mem logGas (2 ^ 64 - 1) (makeGasLog n st a mem) := by
  refine .look (.getStack 1) fun size => ?_
  split
  · exact .refused _
  · refine .afterFee (fun _ => .pure _) ?_ ?_
    · rintro ⟨gas, err⟩ l hgas h
      cases err with
      | some e => cases h
      | none => exact logPrice_low hgas h
    · rintro ⟨gas, err⟩ l hgas
      cases err with
      | some e => exact hgas.trans (by norm_num)
      | none => exact logPrice_le _ _ _

variable (st : CallFrame)

variable (a : Address)

lemma gasExp_spec (mem : Nat) : PriceSpec mem expGas (2 ^ 64 - 1) (gasExp st a mem) := by
  refine .look (Looks.getStack 1) fun exponent => ?_
  refine ⟨fun l => (Looked.refl l).priced, fun l h => ?_, fun l _ => le_pred_of_lt (addGas_lt _ _)⟩
  have hgas : byteLength exponent * gasExpByte < 2 ^ 64 := by
    by_contra hge
    have hover : (safeAdd (byteLength exponent * gasExpByte) expGas).2 = true := by
      unfold safeAdd maxUint64 expGas
      simp only [decide_eq_true_eq]
      omega
    change (addGas (byteLength exponent * gasExpByte) expGas).2 = none at h
    rw [addGas, if_pos hover] at h
    cases h
  have heq : (addGas (byteLength exponent * gasExpByte) expGas).1
      = byteLength exponent * gasExpByte + expGas := addGas_eq hgas h
  show expGas ≤ (addGas (byteLength exponent * gasExpByte) expGas).1
  omega

lemma gasCall_spec (mem : Nat) : PriceSpec mem gasCalls (2 ^ 57) (gasCall st a mem) := by
  refine .look (.getStack 2) fun value => .look (.getWord256 1) fun target => ?_
  have hspec := memoryGas_spec mem (gasCalls
    + (if value ≠ 0 ∧ st.getAccount (addressOfWord target) = none then callNewAccountGas else 0)
    + if value ≠ 0 then callValueTransferGas else 0)
  refine ⟨hspec.keeps, fun l h => le_trans ?_ (hspec.low l h), fun l hl =>
    (hspec.high l hl).trans ?_⟩
  · omega
  · unfold gasCalls callNewAccountGas callValueTransferGas
    split <;> split <;> norm_num

lemma gasCallCode_spec (mem : Nat) : PriceSpec mem gasCalls (2 ^ 57) (gasCallCode st a mem) := by
  refine .look (.getStack 2) fun value => ?_
  have hspec := memoryGas_spec mem (gasCalls + if value ≠ 0 then callValueTransferGas else 0)
  refine ⟨hspec.keeps, fun l h => le_trans ?_ (hspec.low l h), fun l hl =>
    (hspec.high l hl).trans ?_⟩
  · omega
  · unfold gasCalls callValueTransferGas
    split <;> norm_num

lemma addRefund_priced (mem amount : Nat) (l : Locals) : Priced mem l (addRefund amount l).2 :=
  ⟨id, le_rfl, le_max_left _ _, le_rfl, fun _ => rfl⟩

lemma gasSStore_spec (mem : Nat) :
    PriceSpec mem netSstoreNoopGas sstoreSetGas (gasSStore st a mem) := by
  refine .look (.getWord256 0) fun x => .look (.getWord256 1) fun y => ?_
  dsimp only
  split
  · exact .fixed (by decide) (by decide)
  · split
    · have hlow : netSstoreNoopGas ≤ sstoreClearGas := by decide
      have hhigh : sstoreClearGas ≤ sstoreSetGas := by decide
      exact ⟨fun l => addRefund_priced mem _ l, fun _ _ => hlow, fun _ _ => hhigh⟩
    · split
      · exact .fixed (by decide) (by decide)
      · exact .fixed (by decide) (by decide)

lemma gasSelfdestruct_spec (mem : Nat) :
    PriceSpec mem gasSelfdestructBase (2 ^ 57) (gasSelfdestruct st a mem) := by
  refine .look (.getWord256 0) fun receiver => ?_
  refine ⟨fun l => addRefund_priced mem _ l, fun _ _ => Nat.le_add_right _ _, fun _ _ => ?_⟩
  show gasSelfdestructBase
    + (if st.getAccount (addressOfWord receiver) = none then gasCreateBySelfdestruct else 0) ≤
      2 ^ 57
  unfold gasSelfdestructBase gasCreateBySelfdestruct
  split <;> norm_num

/-- What an instruction costs at least if its look-up notes no error. -/
def Op.minCost : Op → Nat
  | .exp => expGas
  | .log _ => logGas
  | .sstore => netSstoreNoopGas
  | .delegatecall | .staticcall => gasCalls
  | .selfdestruct => gasSelfdestructBase
  | op => (instructionSet op).staticGas

/-- The dynamic price of every instruction is bounded so that its sum with the static one fits into
64 bits. -/
lemma dynamicGas_spec {gasFunc : GasFunc}
    (h : (instructionSet op).dynamicGas = some gasFunc) (st : CallFrame) (a : Address) (mem : Nat) :
    PriceSpec mem (op.minCost - (instructionSet op).staticGas)
      (2 ^ 64 - 1 - (instructionSet op).staticGas) (gasFunc st a mem) := by
  have hfee : PriceSpec mem 0 (2 ^ 56) (onlyMemGasCost st a mem) := memGasCost_spec mem
  have hcalls : PriceSpec mem gasCalls (2 ^ 57) (onlyMemoryGas gasCalls st a mem) :=
    (memoryGas_spec mem gasCalls).mono le_rfl (by decide)
  have hcopy : ∀ pos base gasAdd, gasAdd ≤ 6 →
      PriceSpec mem 0 (2 ^ 63) (onlyCopyGas pos base gasAdd st a mem) := fun pos base gasAdd hle =>
    (copyGas_spec mem pos gasAdd).mono le_rfl (by omega)
  cases op <;> cases h
  case exp => exact gasExp_spec st a mem
  case sstore => exact (gasSStore_spec st a mem).mono (by decide) (by decide)
  case log n => exact makeGasLog_spec n st a mem
  case call => exact (gasCall_spec st a mem).mono (by decide) (by decide)
  case callcode => exact (gasCallCode_spec st a mem).mono (by decide) (by decide)
  case selfdestruct => exact (gasSelfdestruct_spec st a mem).mono (by decide) (by decide)
  case delegatecall | staticcall => exact hcalls.mono (by decide) (by decide)
  case mload | mstore | mstore8 | create | «return» | revert =>
    exact hfee.mono (by decide) (by decide)
  all_goals exact (hcopy _ _ _ (by decide)).mono (by decide) (by decide)

lemma growTo_eq (l : Locals) :
    growTo mem l = (if l.memory.capacity < mem then memoryGrow mem else pure ()) l := rfl

lemma Steady.growTo : Steady (growTo mem) :=
  Steady.getBind fun _ => .ite (.memoryGrow mem) (.pure ())

lemma stack_onMemory {α : Type} (default : α) (f : Memory → Except Err (α × Memory))
    (l : Locals) : (onMemory default f l).2.stack = l.stack := by
  unfold onMemory
  cases f l.memory with
  | ok | error => rfl

lemma stack_growTo (l : Locals) : (growTo mem l).2.stack = l.stack := by
  rw [growTo_eq]
  split
  · exact stack_onMemory _ _ l
  · rfl

lemma capacity_growTo {mem : Nat} (h : (growTo mem l).2.err = none) :
    mem ≤ (growTo mem l).2.memory.capacity := by
  rw [growTo_eq] at h ⊢
  split at h
  · rename_i hlt
    rw [if_pos hlt]
    unfold memoryGrow onMemory at h ⊢
    cases hmem : l.memory.grow mem with
    | error e =>
      simp only [hmem] at h
      exact absurd h (by simp [bind, Except.bind])
    | ok m =>
      simp only [hmem]
      show mem ≤ m.capacity
      rw [capacity_grow hmem]
      exact le_max_right _ _
  · rename_i hle
    rw [if_neg hle]
    exact Nat.le_of_not_lt hle

lemma gasLookUp_static (h : (instructionSet op).dynamicGas = none) (st : CallFrame)
    (a : Address) (l : Locals) : gasLookUp op st a l = ((instructionSet op).staticGas, l) := by
  unfold gasLookUp
  rw [h]
  rfl

lemma gasLookUp_dynamic {gasFunc : GasFunc} (h : (instructionSet op).dynamicGas = some gasFunc)
    (st : CallFrame) (a : Address) (l : Locals) :
    gasLookUp op st a l =
      let size := memorySize (instructionSet op).memSize l
      let price := gasFunc st a size.1 size.2
      (((instructionSet op).staticGas + price.1.1) % 2 ^ 64,
        (growTo size.1 (noteError price.1.2 price.2).2).2) := by
  unfold gasLookUp
  rw [h]
  rfl

lemma toWordSize_le_wordCount {mem capacity : Nat} (h : mem ≤ capacity)
    (hcap : capacity ≤ maximumCapacity) : toWordSize mem ≤ wordCount capacity := by
  unfold toWordSize wordCount maxUint64 maximumCapacity at *
  split <;> omega

lemma minCost_eq_of_static (h : (instructionSet op).dynamicGas = none) :
    op.minCost = (instructionSet op).staticGas := by
  cases op <;> first | rfl | cases h

lemma staticGas_le (op : Op) : (instructionSet op).staticGas ≤ createGas := by
  unfold instructionSet
  split <;> dsimp only <;> decide

/-- The look-up of a price keeps an error and does not lengthen the stack. -/
lemma gasLookUp_keeps (op : Op) (st : CallFrame) (a : Address) (l : Locals) :
    ((gasLookUp op st a l).2.err = none → l.err = none) ∧
      (gasLookUp op st a l).2.stack.length ≤ l.stack.length ∧
      ((gasLookUp op st a l).2.err = none → (gasLookUp op st a l).2.stack = l.stack) := by
  cases hdynamic : (instructionSet op).dynamicGas with
  | none =>
    rw [gasLookUp_static hdynamic]
    exact ⟨id, le_rfl, fun _ => rfl⟩
  | some gasFunc =>
    rw [gasLookUp_dynamic hdynamic]
    dsimp only
    have hsize := Looks.memorySize (instructionSet op).memSize l
    generalize memorySize (instructionSet op).memSize l = size at *
    have hprice := (dynamicGas_spec hdynamic st a size.1).keeps size.2
    generalize gasFunc st a size.1 size.2 = price at *
    have hnote := Looks.noteError price.1.2 price.2
    have hgrow := Steady.growTo size.1 (noteError price.1.2 price.2).2
    have hall := hsize.priced.trans (hprice.trans hnote.priced)
    rw [stack_growTo]
    exact ⟨fun he => hall.err (hgrow.err he), hall.shorter, fun he => hall.stack (hgrow.err he)⟩

lemma staticGas_le_gasLookUp (op : Op) (st : CallFrame) (a : Address)
    (hl : Paid l) : (instructionSet op).staticGas ≤ (gasLookUp op st a l).1 := by
  cases hdynamic : (instructionSet op).dynamicGas with
  | none => rw [gasLookUp_static hdynamic]
  | some gasFunc =>
    rw [gasLookUp_dynamic hdynamic]
    have hsize := Looks.memorySize (instructionSet op).memSize l
    have hhigh := (dynamicGas_spec hdynamic st a
      (memorySize (instructionSet op).memSize l).1).high _ (hsize.paid hl)
    have hstatic : (instructionSet op).staticGas ≤ 32000 := staticGas_le op
    dsimp only
    omega

/-- The look-up of a price: without an error the memory is paid for and the price is at least that
of the table. -/
lemma gasLookUp_spec (op : Op) (st : CallFrame) (a : Address) (hl : Paid l)
    (herr : (gasLookUp op st a l).2.err = none) :
    Paid (gasLookUp op st a l).2 ∧ op.minCost ≤ (gasLookUp op st a l).1 := by
  cases hdynamic : (instructionSet op).dynamicGas with
  | none =>
    rw [gasLookUp_static hdynamic] at herr ⊢
    exact ⟨hl, (minCost_eq_of_static hdynamic).le⟩
  | some gasFunc =>
    rw [gasLookUp_dynamic hdynamic] at herr ⊢
    dsimp only at herr ⊢
    have hspec := dynamicGas_spec hdynamic st a
      (memorySize (instructionSet op).memSize l).1
    have hsize := Looks.memorySize (instructionSet op).memSize l
    generalize memorySize (instructionSet op).memSize l = size at *
    have hkeeps := hspec.keeps size.2
    have hlow := hspec.low size.2
    have hhigh := hspec.high size.2 (hsize.paid hl)
    generalize gasFunc st a size.1 size.2 = price at *
    have hnote := Looks.noteError price.1.2 price.2
    have hgrow := Steady.growTo size.1 (noteError price.1.2 price.2).2
    have hcap := capacity_growTo herr
    have hnone : price.1.2 = none := by
      cases hp : price.1.2 with
      | none => rfl
      | some e =>
        have hnoted := hgrow.err herr
        rw [hp] at hnoted
        exact absurd hnoted (err_pushError e _)
    generalize hlast : growTo size.1 (noteError price.1.2 price.2).2 = last at *
    constructor
    · have hwords := toWordSize_le_wordCount hcap last.2.memory.bounded
      have hfee := memFee_mono hwords
      have hmono : memFee (wordCount l.memory.capacity)
          ≤ memFee (wordCount last.2.memory.capacity) := by
        apply memFee_mono
        have hcapacity := hkeeps.capacity.trans (hnote.memory ▸ hgrow.capacity)
        rw [hsize.memory] at hcapacity
        unfold wordCount
        omega
      have hcost := hkeeps.lastGasCost
      rw [hsize.lastGasCost] at hcost
      unfold Paid at *
      rw [hgrow.lastGasCost, hnote.lastGasCost]
      omega
    · have hle := hlow hnone
      have hstatic : (instructionSet op).staticGas ≤ 32000 := staticGas_le op
      omega

end Shentu.CVM
