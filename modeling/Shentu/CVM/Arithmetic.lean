import Shentu.CVM.Frame
import Shentu.CVM.GasBounds

/-!
The integers that the arithmetic instructions compute. Operands are words, but the results are
integers without a bound that are cut to a word only when they are pushed. The size of all of them
is bounded by twice a word, but for the powers.
-/

namespace Shentu.CVM

open Lib List Int

/-- The number of bits of the sign extension for an index. -/
def extendedBits (x : Word) : Nat := x.toNat % 2 ^ 64 * 8 + 8

/-- The integers that an instruction computes from the words on top of the stack, in their order.
What is pushed, if it is a number, is the last one. -/
def workings (x y z : Word) : Op → List Int
  | .add => [x.toNat, y.toNat, x.toNat + y.toNat]
  | .mul => [x.toNat, y.toNat, x.toNat * y.toNat]
  | .sub => [x.toNat, y.toNat, x.toNat - y.toNat]
  | .div => [x.toNat, y.toNat, if y.toNat = 0 then 0 else (x.toNat / y.toNat : Nat)]
  | .sdiv => [x.toInt, y.toInt, if y.toInt = 0 then 0 else x.toInt.tdiv y.toInt]
  | .mod => [x.toNat, y.toNat, if y.toNat = 0 then 0 else (x.toNat % y.toNat : Nat)]
  | .smod => [x.toInt, y.toInt, if y.toInt = 0 then 0 else x.toInt.tmod y.toInt]
  | .addmod => [x.toNat, y.toNat, z.toNat, x.toNat + y.toNat,
      if z.toNat = 0 then 0 else ((x.toNat + y.toNat) % z.toNat : Nat)]
  | .mulmod => [x.toNat, y.toNat, z.toNat, x.toNat * y.toNat,
      if z.toNat = 0 then 0 else (x.toNat * y.toNat % z.toNat : Nat)]
  | .exp => [x.toNat, y.toNat, (x.toNat ^ y.toNat : Nat)]
  | .signextend =>
    if x.toNat % 2 ^ 64 < 31 then
      [x.toNat, y.toNat, 2 ^ (extendedBits x - 1), signExtend y.toNat (extendedBits x)]
    else [x.toNat]
  | .lt | .gt => [x.toNat, y.toNat]
  | .slt | .sgt => [x.toInt, y.toInt]
  | .byte => [x.toNat]
  | .shl => [x.toNat, y.toNat, if 256 ≤ x.toNat then 0 else y.toNat * 2 ^ x.toNat]
  | .shr => [x.toNat, y.toNat, if 256 ≤ x.toNat then 0 else y.toNat / 2 ^ x.toNat]
  | .sar => [x.toNat, y.toInt, if 256 ≤ x.toNat then (if y.toInt < 0 then -1 else 0)
      else y.toInt / 2 ^ x.toNat]
  | _ => []

/-- The instructions that push the number they have computed. -/
def Op.pushesNumber : Op → Bool
  | .add | .mul | .sub | .div | .sdiv | .mod | .smod | .addmod | .mulmod | .exp
  | .shl | .shr | .sar => true
  | _ => false

section Pushed

variable {x y z : Word} {rest : List Word} {l : Locals}

lemma push_of_room {w : Word} (h : l.stack.length < maxDepth) :
    push w l = ((), { l with stack := w :: l.stack }) := by
  have heq : push w l = (if maxDepth < l.stack.length + 1 then pushError .dataStackOverflow
    else setStack (w :: l.stack)) l := rfl
  rw [heq, if_neg (by omega)]
  rfl

lemma pushed_two (v : Int) (hs : l.stack = x :: y :: rest) (hdepth : l.stack.length ≤ maxDepth) :
    (pushBigInt v (pop (pop l).2).2).2.stack = wordOfInt v :: rest := by
  rw [pop_cons hs, pop_cons (show (setStack (y :: rest) l).2.stack = y :: rest from rfl)]
  have hroom : ((setStack rest (setStack (y :: rest) l).2).2).stack.length < maxDepth := by
    show rest.length < maxDepth
    rw [hs, length_cons, length_cons] at hdepth
    omega
  exact congrArg (fun p => p.2.stack) (push_of_room hroom)

lemma popped_two (hs : l.stack = x :: y :: rest) : (pop l).1 = x ∧ (pop (pop l).2).1 = y := by
  rw [pop_cons hs, pop_cons (show (setStack (y :: rest) l).2.stack = y :: rest from rfl)]
  exact ⟨rfl, rfl⟩

/-- Two words are taken from the stack, and an integer that is computed from them is pushed. -/
lemma stack_two {op : Local Flow} (v : Word → Word → Int)
    (hop : ∀ l, (op l).2 = (pushBigInt (v (pop l).1 (pop (pop l).2).1) (pop (pop l).2).2).2)
    (hs : l.stack = x :: y :: rest) (hdepth : l.stack.length ≤ maxDepth) :
    (op l).2.stack = wordOfInt (v x y) :: rest := by
  obtain ⟨hx, hy⟩ := popped_two hs
  rw [hop, hx, hy, pushed_two _ hs hdepth]

lemma stack_ternaryMod (op : Nat → Nat → Nat) (hs : l.stack = x :: y :: z :: rest)
    (hdepth : l.stack.length ≤ maxDepth) :
    (ternaryMod op l).2.stack =
      wordOfInt (if z.toNat = 0 then 0 else (op x.toNat y.toNat % z.toNat : Nat)) :: rest := by
  have heq : (ternaryMod op l).2 = (pushBigInt (if (pop (pop (pop l).2).2).1.toNat = 0 then 0
      else (op (pop l).1.toNat (pop (pop l).2).1.toNat % (pop (pop (pop l).2).2).1.toNat : Nat))
    (pop (pop (pop l).2).2).2).2 := rfl
  obtain ⟨hx, hy⟩ := popped_two hs
  have hs' : (pop l).2.stack = y :: z :: rest := by
    rw [pop_cons hs]
    rfl
  obtain ⟨-, hz⟩ := popped_two hs'
  have hdepth' : (pop l).2.stack.length ≤ maxDepth := by
    rw [hs, length_cons] at hdepth
    rw [hs']
    omega
  rw [heq, hx, hy, hz, pushed_two _ hs' hdepth']

/-- An instruction that pushes a number pushes the last one that it has computed. -/
lemma head_localOp (env : Env) (f : Frame) {op : Op} (hop : op.pushesNumber = true)
    (hs : l.stack = x :: y :: z :: rest) (hdepth : l.stack.length ≤ maxDepth) :
    (localOp env f op l).2.stack.head? = (workings x y z op).getLast?.map wordOfInt := by
  have htwo : ∀ op, (∀ l, (localOp env f op l).2 = (pushBigInt
      ((workings (pop l).1 (pop (pop l).2).1 z op).getLast?.getD 0) (pop (pop l).2).2).2) →
      (localOp env f op l).2.stack.head? = some (wordOfInt ((workings x y z op).getLast?.getD 0)) :=
    fun op h => congrArg List.head?
      (stack_two (fun x y => (workings x y z op).getLast?.getD 0) h hs hdepth)
  cases op with
  | add | mul | sub | div | sdiv | mod | smod | exp | shl | shr | sar => exact htwo _ fun _ => rfl
  | addmod | mulmod => exact congrArg List.head? (stack_ternaryMod _ hs hdepth)
  | _ => cases hop

end Pushed

section Sizes

/-- The number of bits of an integer without its sign. -/
def bitLength (v : Int) : Nat := v.natAbs.size

/-- An instruction computes integers whose size is at most a linear function of its price, whatever
the words on the stack are. -/
def WorkBounded (base perGas : Nat) (op : Op) : Prop :=
  ∀ (st : CallFrame) (a : Address) (l : Locals) (x y z : Word) (rest : List Word),
    l.stack = x :: y :: z :: rest →
      ∀ v ∈ workings x y z op, bitLength v ≤ base + perGas * (gasLookUp op st a l).1

variable {x y z : Word} {v : Int}

lemma bitLength_le_of_abs_lt {n : Nat} (h : v.natAbs < 2 ^ n) : bitLength v ≤ n :=
  Nat.size_le.mpr h

variable (w : Word)

lemma natAbs_toNat : (w.toNat : Int).natAbs < 2 ^ 256 := by
  rw [natAbs_natCast]
  exact w.isLt

lemma natAbs_toInt : w.toInt.natAbs < 2 ^ 256 := by
  have hlow := BitVec.le_toInt w
  have hhigh := BitVec.toInt_lt (x := w)
  norm_num at hlow hhigh
  omega

lemma natAbs_signExtend (n : Nat) {bits : Nat} (h : bits ≤ 256) :
    (signExtend n bits).natAbs ≤ 2 ^ 256 := by
  have hmod : n % 2 ^ bits < 2 ^ bits := Nat.mod_lt _ (Nat.two_pow_pos bits)
  have hpow : 2 ^ bits ≤ 2 ^ 256 := Nat.pow_le_pow_right (by decide) h
  unfold signExtend
  split
  · rw [natAbs_natCast]
    exact (hmod.le).trans hpow
  · have hcast : ((2 : Int) ^ bits) = ((2 ^ bits : Nat) : Int) := by norm_cast
    rw [hcast]
    omega

def Small (v : Int) : Prop := v.natAbs < 2 ^ 512

lemma small_of_le {m : Nat} (h : v.natAbs ≤ m) (hm : m ≤ 2 ^ 256) : Small v :=
  lt_of_le_of_lt (h.trans hm) (Nat.pow_lt_pow_right (by decide) (by decide))

lemma small_toNat : Small w.toNat := small_of_le (natAbs_toNat w).le le_rfl

lemma small_toInt : Small w.toInt := small_of_le (natAbs_toInt w).le le_rfl

lemma small_zero : Small 0 := by
  unfold Small
  norm_num

lemma small_add (x y : Word) : Small (x.toNat + y.toNat) := by
  have hx := x.isLt
  have hy := y.isLt
  show ((x.toNat : Int) + y.toNat).natAbs < 2 ^ 512
  have hsum : ((x.toNat : Int) + y.toNat).natAbs = x.toNat + y.toNat := by omega
  rw [hsum]
  calc x.toNat + y.toNat < 2 ^ 256 + 2 ^ 256 := Nat.add_lt_add hx hy
    _ = 2 ^ 257 := by rw [← two_mul, ← pow_succ']
    _ ≤ 2 ^ 512 := Nat.pow_le_pow_right (by decide) (by decide)

lemma small_sub (x y : Word) : Small (x.toNat - y.toNat) := by
  have hx := x.isLt
  have hy := y.isLt
  apply small_of_le (m := 2 ^ 256)
  · omega
  · exact le_rfl

lemma small_mul (x y : Word) : Small (x.toNat * y.toNat) := by
  have hmul : x.toNat * y.toNat < 2 ^ 256 * 2 ^ 256 := Nat.mul_lt_mul'' x.isLt y.isLt
  show ((x.toNat : Int) * y.toNat).natAbs < 2 ^ 512
  rw [natAbs_mul, natAbs_natCast, natAbs_natCast]
  exact hmul.trans_eq (pow_add 2 256 256).symm

lemma small_shl (x y : Word) (h : ¬ 256 ≤ x.toNat) : Small (y.toNat * 2 ^ x.toNat) := by
  have hpow : 2 ^ x.toNat ≤ 2 ^ 255 := Nat.pow_le_pow_right (by decide) (by omega)
  have hmul : y.toNat * 2 ^ x.toNat < 2 ^ 256 * 2 ^ 256 :=
    Nat.mul_lt_mul'' y.isLt (lt_of_le_of_lt hpow (by norm_num))
  show ((y.toNat : Int) * 2 ^ x.toNat).natAbs < 2 ^ 512
  rw [natAbs_mul, natAbs_natCast, natAbs_pow]
  exact hmul.trans_eq (pow_add 2 256 256).symm

lemma small_ite {c : Prop} [Decidable c] {v w : Int} (hv : c → Small v) (hw : ¬ c → Small w) :
    Small (if c then v else w) := by
  split
  · exact hv ‹_›
  · exact hw ‹_›

lemma small_natCast_le {n : Nat} (h : n ≤ w.toNat) : Small n := by
  apply small_of_le (m := w.toNat)
  · rw [natAbs_natCast]
    exact h
  · exact w.isLt.le

lemma small_two {a b : Int} (ha : Small a) (hb : Small b) : ∀ v ∈ [a, b], Small v :=
  forall_mem_cons.mpr ⟨ha, forall_mem_singleton.mpr hb⟩

lemma small_three {a b c : Int} (ha : Small a) (hb : Small b) (hc : Small c) :
    ∀ v ∈ [a, b, c], Small v :=
  forall_mem_cons.mpr ⟨ha, small_two hb hc⟩

/-- All but the powers stay within two words. -/
lemma small_of_mem_workings {op : Op} (hop : op ≠ .exp) (hv : v ∈ workings x y z op) : Small v := by
  have hx := small_toNat x
  have hy := small_toNat y
  have hz := small_toNat z
  suffices h : ∀ v ∈ workings x y z op, Small v from h v hv
  cases op with
  | exp => exact absurd rfl hop
  | add => exact small_three hx hy (small_add x y)
  | mul => exact small_three hx hy (small_mul x y)
  | sub => exact small_three hx hy (small_sub x y)
  | div =>
    exact small_three hx hy (small_ite (fun _ => small_zero)
      fun _ => small_natCast_le x (Nat.div_le_self _ _))
  | mod =>
    exact small_three hx hy (small_ite (fun _ => small_zero)
      fun _ => small_natCast_le x (Nat.mod_le _ _))
  | sdiv =>
    refine small_three (small_toInt x) (small_toInt y) (small_ite (fun _ => small_zero) fun _ => ?_)
    apply small_of_le (m := x.toInt.natAbs)
    · rw [natAbs_tdiv]
      exact Nat.div_le_self _ _
    · exact (natAbs_toInt x).le
  | smod =>
    refine small_three (small_toInt x) (small_toInt y) (small_ite (fun _ => small_zero) fun _ => ?_)
    apply small_of_le (m := x.toInt.natAbs)
    · rw [natAbs_tmod]
      exact Nat.mod_le _ _
    · exact (natAbs_toInt x).le
  | addmod | mulmod =>
    refine forall_mem_cons.mpr ⟨hx, forall_mem_cons.mpr ⟨hy, small_three hz ?_ ?_⟩⟩
    · first
      | exact small_add x y
      | exact small_mul x y
    · exact small_ite (fun _ => small_zero)
        fun hne => small_natCast_le z (Nat.mod_lt _ (Nat.pos_of_ne_zero hne)).le
  | signextend =>
    simp only [workings]
    split
    · rename_i hback
      have hbits : extendedBits x ≤ 256 := by
        unfold extendedBits
        omega
      refine forall_mem_cons.mpr
        ⟨hx, small_three hy ?_ (small_of_le (natAbs_signExtend _ hbits) le_rfl)⟩
      apply small_of_le (m := 2 ^ (extendedBits x - 1))
      · rw [natAbs_pow]
        exact le_rfl
      · exact Nat.pow_le_pow_right (by decide) (by omega)
    · exact forall_mem_singleton.mpr hx
  | lt | gt => exact small_two hx hy
  | slt | sgt => exact small_two (small_toInt x) (small_toInt y)
  | byte => exact forall_mem_singleton.mpr hx
  | shl => exact small_three hx hy (small_ite (fun _ => small_zero) (small_shl x y))
  | shr =>
    exact small_three hx hy (small_ite (fun _ => small_zero)
      fun _ => small_of_le (natAbs_ediv_le_natAbs _ _) (natAbs_toNat y).le)
  | sar =>
    refine small_three hx (small_toInt y) (small_ite (fun _ => ?_) fun _ => ?_)
    · exact small_ite (fun _ => small_of_le (m := 1) (by decide) (by norm_num))
        fun _ => small_zero
    · exact small_of_le (natAbs_ediv_le_natAbs _ _) (natAbs_toInt y).le
  | _ =>
    intro v hmem
    cases hmem

end Sizes

section Powers

lemma byteLength_le {n : Nat} (h : n < 2 ^ 256) : byteLength n ≤ 32 := by
  unfold byteLength
  split
  · exact Nat.zero_le _
  · have hlog : Nat.log2 n < 256 := (Nat.log2_lt ‹_›).mpr h
    omega

def maxExpGas : Nat := 32 * gasExpByte + expGas

lemma gasLookUp_exp_le (st : CallFrame) (a : Address) (l : Locals) :
    (gasLookUp .exp st a l).1 ≤ maxExpGas := by
  rw [gasLookUp_dynamic (show (instructionSet .exp).dynamicGas = some gasExp from rfl)]
  dsimp only
  generalize (memorySize (instructionSet .exp).memSize l) = size
  have hprice : (gasExp st a size.1 size.2).1 =
      addGas (byteLength (getStack 1 size.2).1 * gasExpByte) expGas := rfl
  rw [hprice]
  have hlength : byteLength (getStack 1 size.2).1 ≤ 32 := byteLength_le (getWord256 1 size.2).1.isLt
  have hgas := addGas_le (byteLength (getStack 1 size.2).1 * gasExpByte) expGas
  have hstatic : (instructionSet .exp).staticGas = 0 := rfl
  have hmod := Nat.mod_le ((instructionSet .exp).staticGas
    + (addGas (byteLength (getStack 1 size.2).1 * gasExpByte) expGas).1) (2 ^ 64)
  have hbytes := Nat.mul_le_mul_right gasExpByte hlength
  unfold maxExpGas
  omega

lemma not_workBounded_exp {base perGas : Nat} (h : base + perGas * maxExpGas < 2 ^ 256) :
    ¬ WorkBounded base perGas .exp := by
  intro hbounded
  have hpow := hbounded .blank 0
    { Locals.new with stack := [2, BitVec.ofNat 256 (base + perGas * maxExpGas), 0] }
    2 (BitVec.ofNat 256 (base + perGas * maxExpGas)) 0 [] rfl _
    (mem_cons_of_mem _ (mem_cons_of_mem _ (mem_singleton_self _)))
  have hexponent : (BitVec.ofNat 256 (base + perGas * maxExpGas)).toNat
      = base + perGas * maxExpGas := by
    rw [BitVec.toNat_ofNat, Nat.mod_eq_of_lt h]
  have htwo : (2 : Word).toNat = 2 := rfl
  rw [hexponent, htwo, bitLength, natAbs_natCast, Nat.size_pow] at hpow
  have hprice := Nat.mul_le_mul_left perGas (gasLookUp_exp_le
    .blank 0
    { Locals.new with stack := [2, BitVec.ofNat 256 (base + perGas * maxExpGas), 0] })
  omega

end Powers

/-- With a bound of two words or more that is linear in the price, and that a word can exceed, what
any instruction but the power computes stays within it. -/
theorem workBounded_iff (base perGas : Nat) (hbase : 512 ≤ base)
    (hbound : base + perGas * maxExpGas < 2 ^ 256) (op : Op) :
    WorkBounded base perGas op ↔ op ≠ .exp := by
  constructor
  · rintro h rfl
    exact not_workBounded_exp hbound h
  · intro hne st a l x y z rest _ v hv
    have hsize := bitLength_le_of_abs_lt (small_of_mem_workings hne hv)
    omega

theorem workBounded_mul : WorkBounded 512 0 .mul ↔ Op.mul ≠ .exp :=
  workBounded_iff 512 0 (by decide) (by norm_num) .mul

/-- No bound of a thousand words and a thousand bits for each unit of gas holds for powers. -/
theorem workBounded_not_exp : ¬ WorkBounded 256000 1000 .exp := by
  apply not_workBounded_exp
  unfold maxExpGas gasExpByte expGas
  norm_num

end Shentu.CVM
