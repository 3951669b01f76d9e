import Shentu.CVM.Word
import Shentu.Lib.Runs

/-!
What one execution of bytecode keeps for itself: the program counter, the stack, the memory and the
first error. The operations on the stack and the memory note an error and go on with zeros; the
loop of the interpreter ends at the next instruction. None of them undoes an error or shrinks the
memory.
-/

namespace Shentu.CVM

open Lib List

def maximumCapacity : Nat := 0x1000000

/-- The memory of a frame, which never grows beyond its maximal size. -/
structure Memory where
  bytes : List Byte
  bounded : bytes.length ≤ maximumCapacity

namespace Memory

def empty : Memory := ⟨[], Nat.zero_le _⟩

variable (m : Memory)

def capacity : Nat := m.bytes.length

def ensureCapacity (n : Nat) : Except Err Memory :=
  if n ≤ m.capacity then .ok m
  else if h : n ≤ maximumCapacity then
    .ok ⟨m.bytes ++ List.replicate (n - m.bytes.length) 0, by
      rw [length_append, length_replicate]
      have := m.bounded
      omega⟩
  else .error .memoryOutOfBounds

def read (offset length : Nat) : Except Err (List Byte × Memory) := do
  if !isUint64 offset || !isUint64 length then .error .memoryOutOfBounds
  let m ← m.ensureCapacity ((offset + length) % 2 ^ 64)
  -- if the sum does not fit into 64 bits, the slice ends before it starts
  if offset + length ≤ m.capacity then return ((m.bytes.drop offset).take length, m)
  else .error .panic

def write (offset : Nat) (value : List Byte) : Except Err Memory := do
  if !isUint64 offset then .error .memoryOutOfBounds
  let m ← m.ensureCapacity ((offset + value.length) % 2 ^ 64)
  if h : offset + value.length ≤ m.capacity then
    return ⟨m.bytes.take offset ++ value ++ m.bytes.drop (offset + value.length), by
      have := m.bounded
      simp only [capacity] at h
      simp only [length_append, length_take, length_drop]
      omega⟩
  else .error .panic

/-- Write zeros behind the memory. `make` panics at a size that is no `int`. -/
def grow (size : Nat) : Except Err Memory := do
  failIf (2 ^ 63 ≤ size - m.capacity) .panic
  m.ensureCapacity size

end Memory

/-- The variables of the loop of the interpreter. The last fee paid for memory and the refund are
kept beside the memory. -/
structure Locals where
  pc : Nat
  stack : List Word
  memory : Memory
  lastGasCost : Nat
  refund : Nat
  returnData : List Byte
  err : Option Err

def Locals.new : Locals := ⟨0, [], .empty, 0, 0, [], none⟩

abbrev Local := StateM Locals

def pushError (e : Err) : Local Unit := modify fun l => { l with err := firstErr l.err (some e) }

lemma err_pushError (e : Err) (l : Locals) : (pushError e l).2.err ≠ none := by
  intro h
  exact absurd (firstErr_eq_none.mp h).2 (by simp)

variable {α : Type}

/-- The value of a result, or a default for an error, which is noted. -/
def maybe (default : α) : Except Err α → Local α
  | .ok a => pure a
  | .error e => do
    pushError e
    return default

lemma maybe_of_no_error {default : α} {x : Except Err α} {l : Locals}
    (h : (maybe default x l).2.err = none) : x = .ok (maybe default x l).1 := by
  cases x with
  | ok a => rfl
  | error e => exact absurd h (err_pushError e l)

section Stack

/-- The number of words that fit on a stack. -/
def maxDepth : Nat := 2 ^ 31 - 1

def setStack (stack : List Word) : Local Unit := modify fun l => { l with stack := stack }

def push (w : Word) : Local Unit := do
  let stack := (← get).stack
  if maxDepth < stack.length + 1 then pushError .dataStackOverflow
  else setStack (w :: stack)

def pop : Local Word := do
  match (← get).stack with
  | [] => do
    pushError .dataStackUnderflow
    return 0
  | w :: rest => do
    setStack rest
    return w

lemma pop_nil {l : Locals} (h : l.stack = []) :
    pop l = (0, (pushError .dataStackUnderflow l).2) := by
  show (match l.stack with | [] => _ | w :: rest => _ : Local Word) l = _
  rw [h]
  rfl

lemma pop_cons {l : Locals} {w : Word} {rest : List Word} (h : l.stack = w :: rest) :
    pop l = (w, (setStack rest l).2) := by
  show (match l.stack with | [] => _ | w :: rest => _ : Local Word) l = _
  rw [h]
  rfl

def pop64 : Local Nat := do
  let w ← pop
  if isUint64 w.toNat then return w.toNat
  else do
    pushError .integerOverflow
    return 0

def popBigInt : Local Nat := return (← pop).toNat

def popBigIntSigned : Local Int := return (← pop).toInt

def popAddress : Local Address := return addressOfWord (← pop)

def pushBigInt (x : Int) : Local Unit := push (wordOfInt x)

variable (n : Nat)

def push64 : Local Unit := push (BitVec.ofNat 256 n)

def dup : Local Unit := do
  let stack := (← get).stack
  if stack.length < n then pushError .dataStackUnderflow
  else push (stack.getD (n - 1) 0)

def swap : Local Unit := do
  let stack := (← get).stack
  if stack.length < n then pushError .dataStackUnderflow
  else setStack ((stack.set 0 (stack.getD (n - 1) 0)).set (n - 1) (stack.getD 0 0))

/-- The word at a position of the stack. If the stack is too short, its top is lost. -/
def getWord256 : Local Word := do
  dup (n + 1)
  pop

def getStack : Local Nat := return (← getWord256 n).toNat

end Stack

section Pops

variable (l : Locals)

lemma value_pop : (pop l).1 = l.stack.getD 0 0 := by
  cases h : l.stack with
  | nil =>
    rw [pop_nil h]
    rfl
  | cons w rest =>
    rw [pop_cons h]
    rfl

lemma stack_pop : (pop l).2.stack = l.stack.drop 1 := by
  cases h : l.stack with
  | nil =>
    rw [pop_nil h]
    exact h
  | cons w rest =>
    rw [pop_cons h]
    rfl

lemma returnData_pop : (pop l).2.returnData = l.returnData := by
  cases h : l.stack with
  | nil =>
    rw [pop_nil h]
    rfl
  | cons w rest =>
    rw [pop_cons h]
    rfl

lemma value_popBigInt : (popBigInt l).1 = (l.stack.getD 0 0).toNat :=
  congrArg BitVec.toNat (value_pop l)

lemma stack_popBigInt : (popBigInt l).2.stack = l.stack.drop 1 := stack_pop l

lemma pop64_eq : pop64 l = (if isUint64 (pop l).1.toNat then pure (pop l).1.toNat else do
    pushError .integerOverflow
    return 0 : Local Nat) (pop l).2 := rfl

lemma value_pop64_le : (pop64 l).1 ≤ (l.stack.getD 0 0).toNat := by
  rw [pop64_eq, ← value_pop]
  split
  · exact le_refl _
  · exact Nat.zero_le _

lemma stack_pop64 : (pop64 l).2.stack = l.stack.drop 1 := by
  rw [pop64_eq, ← stack_pop]
  split <;> rfl

lemma stack_popAddress : (popAddress l).2.stack = l.stack.drop 1 := stack_pop l

end Pops

/-- An operation on the memory, or a default if it fails with an error, which is noted. -/
def onMemory (default : α) (f : Memory → Except Err (α × Memory)) : Local α := fun l =>
  match f l.memory with
  | .ok (a, memory) => (a, { l with memory := memory })
  | .error e => (default, { l with err := firstErr l.err (some e) })

def memoryRead (offset length : Nat) : Local (List Byte) := onMemory [] (·.read offset length)

def memoryWrite (offset : Nat) (value : List Byte) : Local Unit :=
  onMemory () fun m => return ((), ← m.write offset value)

/-- Grow the memory to a size. -/
def memoryGrow (size : Nat) : Local Unit :=
  onMemory () fun m => return ((), ← m.grow size)

/-- What an operation on the stack and the memory keeps. -/
structure Grows (l l' : Locals) : Prop where
  err : l'.err = none → l.err = none
  capacity : l.memory.capacity ≤ l'.memory.capacity
  lastGasCost : l'.lastGasCost = l.lastGasCost
  refund : l'.refund = l.refund
  depth : l.stack.length ≤ maxDepth → l'.stack.length ≤ maxDepth

lemma Grows.refl (l : Locals) : Grows l l := ⟨id, le_rfl, rfl, rfl, id⟩

lemma Grows.trans {l1 l2 l3 : Locals} (h : Grows l1 l2) (h' : Grows l2 l3) : Grows l1 l3 :=
  ⟨fun e => h.err (h'.err e), h.capacity.trans h'.capacity, h'.lastGasCost.trans h.lastGasCost,
    h'.refund.trans h.refund, fun hl => h'.depth (h.depth hl)⟩

/-- A computation that only works on the stack and the memory. -/
def Steady (x : Local α) : Prop := ∀ l, Grows l (x l).2

namespace Steady

variable {α β : Type}

lemma pure (a : α) : Steady (pure a : Local α) := Grows.refl

lemma bind {x : Local α} {f : α → Local β} (hx : Steady x) (hf : ∀ a, Steady (f a)) :
    Steady (x >>= f) := fun l => (hx l).trans (hf _ _)

lemma getBind {f : Locals → Local β} (hf : ∀ l, Steady (f l)) :
    Steady (do let l ← get; f l) := fun l => hf l l

lemma ite {c : Prop} [Decidable c] {x y : Local α} (hx : Steady x) (hy : Steady y) :
    Steady (if c then x else y) := by
  split
  · exact hx
  · exact hy

lemma setStack {stack : List Word} {l : Locals}
    (h : l.stack.length ≤ maxDepth → stack.length ≤ maxDepth) : Grows l (setStack stack l).2 :=
  ⟨id, le_rfl, rfl, rfl, h⟩

lemma pushError (e : Err) : Steady (pushError e) := by
  intro l
  refine ⟨fun h => ?_, le_rfl, rfl, rfl, id⟩
  exact (firstErr_eq_none.mp h).1

lemma maybe (default : α) (x : Except Err α) : Steady (maybe default x) := by
  cases x with
  | ok a => exact pure a
  | error e => exact (pushError e).bind fun _ => pure default

lemma push (w : Word) : Steady (push w) := by
  intro l
  have heq : CVM.push w l = (if maxDepth < l.stack.length + 1 then
      CVM.pushError .dataStackOverflow else CVM.setStack (w :: l.stack)) l := rfl
  rw [heq]
  split
  · exact pushError _ l
  · rename_i h
    exact setStack fun _ => by
      rw [length_cons]
      omega

lemma pop : Steady pop := by
  intro l
  cases h : l.stack with
  | nil =>
    rw [pop_nil h]
    exact pushError _ l
  | cons w rest =>
    rw [pop_cons h]
    refine setStack fun hl => ?_
    rw [h, length_cons] at hl
    omega

lemma pop64 : Steady pop64 :=
  pop.bind fun _ => ite (pure _) ((pushError _).bind fun _ => pure 0)

lemma popBigInt : Steady popBigInt := pop.bind fun _ => pure _

lemma popBigIntSigned : Steady popBigIntSigned := pop.bind fun _ => pure _

lemma popAddress : Steady popAddress := pop.bind fun _ => pure _

lemma pushBigInt (x : Int) : Steady (pushBigInt x) := push _

lemma push64 (n : Nat) : Steady (push64 n) := push _

lemma dup (n : Nat) : Steady (dup n) := getBind fun _ => ite (pushError _) (push _)

lemma swap (n : Nat) : Steady (swap n) := by
  intro l
  have heq : CVM.swap n l = (if l.stack.length < n then CVM.pushError .dataStackUnderflow
      else CVM.setStack ((l.stack.set 0 (l.stack.getD (n - 1) 0)).set (n - 1) (l.stack.getD 0 0)))
        l := rfl
  rw [heq]
  split
  · exact pushError _ l
  · exact setStack fun h => by
      rw [length_set, length_set]
      exact h

end Steady

lemma capacity_ensureCapacity {m m' : Memory} {n : Nat} (h : m.ensureCapacity n = .ok m') :
    m'.capacity = max m.capacity n := by
  unfold Memory.ensureCapacity at h
  split at h
  · cases h
    omega
  · split at h
    · cases h
      simp only [Memory.capacity, length_append, length_replicate] at *
      omega
    · cases h

lemma capacity_grow {m m' : Memory} {size : Nat} (h : m.grow size = .ok m') :
    m'.capacity = max m.capacity size :=
  have ⟨_, _, hgrown⟩ := bind_eq_ok.mp h
  capacity_ensureCapacity hgrown

lemma capacity_read {m m' : Memory} {offset length : Nat} {bytes : List Byte}
    (h : m.read offset length = .ok (bytes, m')) : m.capacity ≤ m'.capacity := by
  unfold Memory.read at h
  split at h
  · cases h
  · obtain ⟨m1, hm1, h⟩ := bind_eq_ok.mp h
    split at h
    · cases h
      have := capacity_ensureCapacity hm1
      omega
    · cases h

lemma capacity_write {m m' : Memory} {offset : Nat} {value : List Byte}
    (h : m.write offset value = .ok m') : m.capacity ≤ m'.capacity := by
  unfold Memory.write at h
  split at h
  · cases h
  · obtain ⟨m1, hm1, h⟩ := bind_eq_ok.mp h
    split at h
    · cases h
      have := capacity_ensureCapacity hm1
      simp only [Memory.capacity, length_append, length_take, length_drop] at *
      omega
    · cases h

namespace Steady

lemma onMemory {α : Type} (default : α) {f : Memory → Except Err (α × Memory)}
    (hf : ∀ m a m', f m = .ok (a, m') → m.capacity ≤ m'.capacity) :
    Steady (onMemory default f) := by
  intro l
  unfold CVM.onMemory
  cases h : f l.memory with
  | ok p => exact ⟨id, hf _ _ _ h, rfl, rfl, id⟩
  | error e => exact ⟨fun h => (firstErr_eq_none.mp h).1, le_rfl, rfl, rfl, id⟩

lemma memoryRead (offset length : Nat) : Steady (memoryRead offset length) :=
  onMemory [] fun _ _ _ h => capacity_read h

lemma memoryWrite (offset : Nat) (value : List Byte) : Steady (memoryWrite offset value) := by
  refine onMemory () fun m a m' h => ?_
  obtain ⟨m1, hm1, heq⟩ := bind_eq_ok.mp h
  cases heq
  exact capacity_write hm1

lemma memoryGrow (size : Nat) : Steady (memoryGrow size) := by
  refine onMemory () fun m a m' h => ?_
  obtain ⟨m1, hm1, heq⟩ := bind_eq_ok.mp h
  cases heq
  rw [capacity_grow hm1]
  exact le_max_left _ _

end Steady

end Shentu.CVM
