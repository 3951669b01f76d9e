import Shentu.CVM.Arithmetic
import Shentu.CVM.KeeperGas

/-!
The hashes of past blocks. The begin blocker stores the hash of the last block under the height of
the block that begins, and `BLOCKHASH` reads the hash under the height it is asked for.
-/

namespace Shentu.CVM

open Lib Nat

section Store

structure BlockHashRecord where
  storeKey : List Byte
  hash : List Byte
  deriving DecidableEq

abbrev BlockHashes := Table BlockHashRecord.storeKey

/-- The bytes of a number without leading zeros, the most significant one first. -/
def numberBytes (n : Nat) : List Byte := (littleEndian (byteLength n) n).reverse

def blockHashStoreKey (height : Nat) : List Byte := 1 :: numberBytes height

variable (store : BlockHashes)

/-- Store the hash of the last block, if the header has one. -/
def storeLastBlockHash (height : Nat) (lastBlockHash : Option (List Byte)) : BlockHashes :=
  if height = 0 then store
  else
    match lastBlockHash with
    | none => store
    | some hash => store.set ⟨blockHashStoreKey height, hash⟩

/-- The hash under a height, in the block of another. -/
def blockHash (blockHeight height : Nat) : Except Err (List Byte) :=
  if blockHeight < height then .error .invalidBlockNumber
  else .ok (((store.get (blockHashStoreKey height)).map BlockHashRecord.hash).getD [])

/-- The store after the begin blockers of all blocks up to a height. The header of a block carries
the hash of the block before it. -/
def beginBlocks (hashes : Nat → Option (List Byte)) : Nat → BlockHashes
  | 0 => .empty
  | height + 1 => storeLastBlockHash (beginBlocks hashes height) (height + 1) (hashes height)

/-- The surroundings of an execution in a block. -/
def Env.atBlock (env : Env) (store : BlockHashes) (height : Nat) : Env :=
  { env with lastBlockHeight := height, blockHash := CVM.blockHash store height }

lemma ofBigEndian_append_singleton (bs : List Byte) (b : Byte) :
    ofBigEndian (bs ++ [b]) = 256 * ofBigEndian bs + b.val := by
  simp [ofBigEndian]

lemma ofBigEndian_littleEndian (width n : Nat) (h : n < 256 ^ width) :
    ofBigEndian (littleEndian width n).reverse = n := by
  induction width generalizing n with
  | zero =>
    rw [Nat.pow_zero, lt_one_iff] at h
    rw [h]
    rfl
  | succ width ih =>
    rw [littleEndian, List.reverse_cons, ofBigEndian_append_singleton]
    have hdiv : n / 256 < 256 ^ width := by
      rw [Nat.pow_succ] at h
      exact Nat.div_lt_of_lt_mul (by omega)
    rw [ih (n / 256) hdiv]
    show 256 * (n / 256) + n % 256 = n
    omega

lemma lt_pow_byteLength (n : Nat) : n < 256 ^ byteLength n := by
  unfold byteLength
  split
  · rename_i h
    rw [h]
    exact Nat.one_pos
  · rename_i h
    have hlog : n < 2 ^ (Nat.log2 n + 1) := (log2_lt h).mp (lt_succ_self _)
    calc n < 2 ^ (Nat.log2 n + 1) := hlog
      _ ≤ 2 ^ (8 * (Nat.log2 n / 8 + 1)) := Nat.pow_le_pow_right (by decide) (by omega)
      _ = 256 ^ (Nat.log2 n / 8 + 1) := by rw [pow_mul]; norm_num

lemma blockHashStoreKey_inj {m n : Nat} (h : blockHashStoreKey m = blockHashStoreKey n) :
    m = n := by
  have hbytes : numberBytes m = numberBytes n := (List.cons.inj h).2
  have hm := ofBigEndian_littleEndian (byteLength m) m (lt_pow_byteLength m)
  have hn := ofBigEndian_littleEndian (byteLength n) n (lt_pow_byteLength n)
  rw [← hm, ← hn]
  exact congrArg ofBigEndian hbytes

lemma get_storeLastBlockHash {height : Nat} (hpos : height ≠ 0)
    (last : Option (List Byte)) (n : Nat) :
    (storeLastBlockHash store height last).get (blockHashStoreKey n) =
      if n = height ∧ last.isSome then last.map (⟨blockHashStoreKey n, ·⟩)
      else store.get (blockHashStoreKey n) := by
  unfold storeLastBlockHash
  rw [if_neg hpos]
  cases last with
  | none => simp
  | some hash =>
    rw [Table.get_set]
    by_cases h : n = height
    · rw [h]
      simp
    · rw [if_neg (fun heq => h (blockHashStoreKey_inj heq)), if_neg (fun hn => h hn.1)]

lemma get_beginBlocks (hashes : Nat → Option (List Byte)) (height n : Nat) :
    (beginBlocks hashes height).get (blockHashStoreKey n) =
      if n ≠ 0 ∧ n ≤ height then (hashes (n - 1)).map (⟨blockHashStoreKey n, ·⟩) else none := by
  induction height with
  | zero =>
    rw [if_neg (by omega)]
    rfl
  | succ height ih =>
    rw [beginBlocks, get_storeLastBlockHash _ (succ_ne_zero height), ih]
    by_cases heq : n = height + 1
    · subst heq
      rw [if_neg (by omega : ¬ (height + 1 ≠ 0 ∧ height + 1 ≤ height)),
        if_pos (show height + 1 ≠ 0 ∧ height + 1 ≤ height + 1 by omega), Nat.add_sub_cancel]
      cases hashes height with
      | none => simp
      | some hash => simp
    · rw [if_neg (fun h => heq h.1)]
      by_cases hn : n ≠ 0 ∧ n ≤ height
      · rw [if_pos hn, if_pos (by omega)]
      · rw [if_neg hn, if_neg (by omega)]

end Store

section Instruction

variable {env : Env} {f : Frame} {l : Locals} {number height : Nat} {rest : List Word}

lemma pop64_of_cons {w : Word} (hs : l.stack = w :: rest) (hw : w.toNat < 2 ^ 64) :
    pop64 l = (w.toNat, { l with stack := rest }) := by
  have heq : pop64 l = (if isUint64 (pop l).1.toNat then pure (pop l).1.toNat
      else do pushError .integerOverflow; return 0 : Local Nat) (pop l).2 := rfl
  rw [heq, pop_cons hs, if_pos (by simpa [isUint64] using hw)]
  rfl

/-- The word under a height, zero if there is none. -/
def storedWord (store : BlockHashes) (n : Nat) : Word :=
  leftPadWord256 (((store.get (blockHashStoreKey n)).map BlockHashRecord.hash).getD [])

/-- `BLOCKHASH` of a block within the allowed range. -/
lemma localOp_blockhash (store : BlockHashes) (hnumber : number < height)
    (hback : height - number ≤ maximumAllowedBlockLookBack) (hsmall : number < 2 ^ 64)
    (hs : l.stack = BitVec.ofNat 256 number :: rest) (hdepth : l.stack.length ≤ maxDepth) :
    localOp (env.atBlock store height) f .blockhash l =
      (.next, { l with stack := storedWord store number :: rest }) := by
  have hword : (BitVec.ofNat 256 number).toNat = number := by
    rw [BitVec.toNat_ofNat]
    exact mod_eq_of_lt (hsmall.trans (by norm_num))
  have hpop : pop64 l = (number, { l with stack := rest }) := by
    rw [pop64_of_cons hs (hword.trans_lt hsmall), hword]
  have hroom : ({ l with stack := rest } : Locals).stack.length < maxDepth := by
    rw [hs, List.length_cons] at hdepth
    exact hdepth
  have heq : localOp (env.atBlock store height) f .blockhash l =
      (if height ≤ (pop64 l).1 then do
        pushError .invalidBlockNumber
        return Flow.next
      else if maximumAllowedBlockLookBack < height - (pop64 l).1 then do
        pushError .blockNumberOutOfRange
        return Flow.next
      else do
        let hash ← maybe [] (blockHash store height (pop64 l).1)
        pushNext (leftPadWord256 hash) : Local Flow) (pop64 l).2 := rfl
  rw [heq, hpop, if_neg (by omega), if_neg (by omega)]
  have hread : blockHash store height number = .ok (((store.get
      (blockHashStoreKey number)).map BlockHashRecord.hash).getD []) := if_neg (by omega)
  rw [hread]
  show (Flow.next, (push (storedWord store number) { l with stack := rest }).2) = _
  rw [push_of_room hroom]

end Instruction

/-- The word of the hash of a block, zero if there is none. -/
def hashWord (hashes : Nat → Option (List Byte)) (n : Nat) : Word :=
  leftPadWord256 ((hashes n).getD [])

/-- The word of the hash of the block before a block. -/
def previousHashWord (hashes : Nat → Option (List Byte)) : Nat → Word
  | 0 => 0
  | n + 1 => hashWord hashes n

/-- `BLOCKHASH` of a block, executed in a later one, pushes the hash of the block. -/
def PushesBlockHash (env : Env) (hashes : Nat → Option (List Byte)) (height number : Nat) : Prop :=
  ∀ (f : Frame) (l : Locals) (rest : List Word), l.stack = BitVec.ofNat 256 number :: rest →
    l.stack.length ≤ maxDepth →
    localOp (env.atBlock (beginBlocks hashes height) height) f .blockhash l =
      (.next, { l with stack := hashWord hashes number :: rest })

/-- What is pushed is the hash of the block before. -/
theorem pushesBlockHash_iff (env : Env) (hashes : Nat → Option (List Byte)) (height number : Nat)
    (hnumber : number < height) (hback : height - number ≤ maximumAllowedBlockLookBack)
    (hheight : height < 2 ^ 63) :
    PushesBlockHash env hashes height number ↔
      hashWord hashes number = previousHashWord hashes number := by
  have hstored : storedWord (beginBlocks hashes height) number
      = previousHashWord hashes number := by
    unfold storedWord
    rw [get_beginBlocks]
    cases number with
    | zero => rfl
    | succ n =>
      rw [if_pos ⟨succ_ne_zero n, hnumber.le⟩, Nat.add_sub_cancel, Option.map_map]
      show _ = leftPadWord256 ((hashes n).getD [])
      cases hashes n with
      | none => rfl
      | some hash => rfl
  have hspec := fun (f : Frame) (l : Locals) (rest : List Word)
      (hs : l.stack = BitVec.ofNat 256 number :: rest) (hdepth : l.stack.length ≤ maxDepth) =>
    @localOp_blockhash env f l number height rest (beginBlocks hashes height) hnumber hback
      (by omega) hs hdepth
  rw [hstored] at hspec
  constructor
  · intro hpushes
    let l : Locals := { Locals.new with stack := [BitVec.ofNat 256 number] }
    let f : Frame := ⟨[], ⟨.call, 0, 0, 0, [], 0⟩, 0, l, .blank,
      none, false, ⟨0, 0, .empty⟩⟩
    have hdepth : l.stack.length ≤ maxDepth := by
      show 1 ≤ maxDepth
      decide
    have hboth := (hpushes f l [] rfl hdepth).symm.trans (hspec f l [] rfl hdepth)
    have hstack := congrArg (fun p => p.2.stack) hboth
    exact (List.cons.inj hstack).1
  · intro heq f l rest hs hdepth
    rw [hspec f l rest hs hdepth, heq]

/-- The hash of each block is its height. -/
def countedHashes (n : Nat) : Option (List Byte) := some [Fin.ofNat 256 n]

theorem pushesBlockHash_iff_counted : PushesBlockHash plainHost.toEnv countedHashes 5 3 ↔
      hashWord countedHashes 3 = previousHashWord countedHashes 3 :=
  pushesBlockHash_iff plainHost.toEnv countedHashes 5 3 (by decide) (by decide) (by decide)

/-- In block five, `BLOCKHASH` of three pushes the hash of block two. -/
theorem pushesBlockHash_not_counted : ¬ PushesBlockHash plainHost.toEnv countedHashes 5 3 := by
  intro h
  let l : Locals := { Locals.new with stack := [3] }
  let f : Frame := ⟨[], ⟨.call, 0, 0, 0, [], 0⟩, 0, l, .blank,
    none, false, ⟨0, 0, .empty⟩⟩
  have hstack := congrArg (fun p => p.2.stack) (h f l [] rfl (by decide))
  have hreal : (localOp (plainHost.toEnv.atBlock (beginBlocks countedHashes 5) 5) f .blockhash
      l).2.stack = [2] := by decide +kernel
  exact absurd (hreal.symm.trans hstack) (by decide +kernel)

end Shentu.CVM
