import Mathlib

/-!
Byte strings in the order of a key-value store, the little-endian bytes of a number, the
end of the range of all keys up to a given beginning, and text in base sixteen: it is read with
digits in lower or upper case, and written in lower case.
-/

namespace Shentu.Lib

abbrev Byte := Fin 256

instance neZeroByte : NeZero 256 := ⟨by decide⟩

/-- The lowest bytes of a number, the least significant one first. -/
def littleEndian : Nat → Nat → List Byte
  | 0, _ => []
  | width + 1, n => Fin.ofNat 256 n :: littleEndian width (n / 256)

@[simp] lemma length_littleEndian (width n : Nat) : (littleEndian width n).length = width := by
  induction width generalizing n with
  | zero => rfl
  | succ width ih => rw [littleEndian, List.length_cons, ih]

lemma littleEndian_inj {width a b : Nat} (ha : a < 256 ^ width) (hb : b < 256 ^ width)
    (h : littleEndian width a = littleEndian width b) : a = b := by
  induction width generalizing a b with
  | zero =>
    rw [Nat.pow_zero, Nat.lt_one_iff] at ha hb
    rw [ha, hb]
  | succ width ih =>
    rw [littleEndian, littleEndian, List.cons.injEq] at h
    have hlow : a % 256 = b % 256 := by simpa [Fin.ofNat] using congrArg Fin.val h.1
    rw [Nat.pow_succ] at ha hb
    have hhigh : a / 256 = b / 256 :=
      ih (Nat.div_lt_of_lt_mul (by omega)) (Nat.div_lt_of_lt_mul (by omega)) h.2
    omega

/-- The least byte string that is greater than all that begin with the given one: its last byte
that is not the greatest is counted up and the bytes after it are dropped. There is none if all
bytes are the greatest. -/
def prefixEndBytes : List Byte → Option (List Byte)
  | [] => none
  | b :: bs =>
    match prefixEndBytes bs with
    | some e => some (b :: e)
    | none => if h : b.val < 255 then some [⟨b.val + 1, by omega⟩] else none

/-- A key is before the end of a range, if the range has one. -/
def beforeEnd (key : List Byte) : Option (List Byte) → Prop
  | none => True
  | some e => key < e

instance (key : List Byte) (e : Option (List Byte)) : Decidable (beforeEnd key e) := by
  unfold beforeEnd
  split <;> infer_instance

lemma cons_le_cons_iff (a b : Byte) (x y : List Byte) :
    a :: x ≤ b :: y ↔ a < b ∨ a = b ∧ x ≤ y := by
  rw [← not_lt, List.cons_lt_cons_iff, not_or, not_and, not_lt, not_lt, le_iff_lt_or_eq]
  constructor
  · rintro ⟨hab | hab, hxy⟩
    · exact .inl hab
    · exact .inr ⟨hab, hxy hab.symm⟩
  · rintro (hab | ⟨hab, hxy⟩)
    · exact ⟨.inl hab, fun hba => absurd hba hab.ne'⟩
    · exact ⟨.inr hab, fun _ => hxy⟩

lemma beforeEnd_cons_iff (a b : Byte) (key p : List Byte) :
    beforeEnd (a :: key) (prefixEndBytes (b :: p)) ↔
      a < b ∨ a = b ∧ beforeEnd key (prefixEndBytes p) := by
  rw [prefixEndBytes]
  cases hend : prefixEndBytes p with
  | some e =>
    change a :: key < b :: e ↔ _
    rw [List.cons_lt_cons_iff]
    rfl
  | none =>
    have hle : a < b ∨ a = b ∧ beforeEnd key none ↔ a.val ≤ b.val := by
      rw [and_iff_left (show beforeEnd key none from trivial), Fin.lt_def, Fin.ext_iff]
      omega
    rw [hle]
    dsimp only
    split
    · change a :: key < [_] ↔ _
      rw [List.cons_lt_cons_iff, Fin.lt_def]
      simp
    · refine ⟨fun _ => ?_, fun _ => trivial⟩
      omega

/-- The keys before the end of a beginning are those that begin with it or with less. -/
lemma beforeEnd_prefixEndBytes (p key : List Byte) (h : p.length ≤ key.length) :
    beforeEnd key (prefixEndBytes p) ↔ key.take p.length ≤ p := by
  induction p generalizing key with
  | nil => simp [prefixEndBytes, beforeEnd]
  | cons b bs ih =>
    match key with
    | [] => simp at h
    | c :: cs =>
      rw [List.length_cons, List.take_succ_cons, cons_le_cons_iff, beforeEnd_cons_iff,
        ih cs (by simpa using h)]

lemma append_le_append_left_iff (p x y : List Byte) : p ++ x ≤ p ++ y ↔ x ≤ y := by
  induction p with
  | nil => rfl
  | cons b bs ih => simp [cons_le_cons_iff, ih]

lemma le_append (p x : List Byte) : p ≤ p ++ x := by
  have h := append_le_append_left_iff p [] x
  rw [List.append_nil] at h
  exact h.mpr (not_lt.mp (List.not_lt_nil x))

lemma beforeEnd_field (p x y rest : List Byte) (hlen : x.length = y.length) :
    beforeEnd (p ++ x ++ rest) (prefixEndBytes (p ++ y)) ↔ x ≤ y := by
  have htake : (p ++ x ++ rest).take (p ++ y).length = p ++ x := by
    refine List.take_left' ?_
    simp [hlen]
  rw [beforeEnd_prefixEndBytes _ _ (by simp [hlen]), htake, append_le_append_left_iff]

def hexDigits : List Char := "0123456789abcdef".toList

def hexEncode (bs : List Byte) : List Char :=
  bs.flatMap fun b => [hexDigits.getD (b.val / 16) '0', hexDigits.getD (b.val % 16) '0']

def hexValue (c : Char) : Option Nat :=
  if '0' ≤ c ∧ c ≤ '9' then some (c.toNat - '0'.toNat)
  else if 'a' ≤ c ∧ c ≤ 'f' then some (c.toNat - 'a'.toNat + 10)
  else if 'A' ≤ c ∧ c ≤ 'F' then some (c.toNat - 'A'.toNat + 10)
  else none

def hexDecode : List Char → Option (List Byte)
  | [] => some []
  | [_] => none
  | high :: low :: rest => do
    let h ← hexValue high
    let l ← hexValue low
    let bs ← hexDecode rest
    return Fin.ofNat 256 (16 * h + l) :: bs

lemma hexDecode_hexEncode (bs : List Byte) : hexDecode (hexEncode bs) = some bs := by
  have hbyte : ∀ b : Byte, ∃ h l, hexValue (hexDigits.getD (b.val / 16) '0') = some h ∧
      hexValue (hexDigits.getD (b.val % 16) '0') = some l ∧ Fin.ofNat 256 (16 * h + l) = b := by
    have hdigit : ∀ n : Fin 16, hexValue (hexDigits.getD n.val '0') = some n.val := by
      decide +kernel
    intro b
    refine ⟨b.val / 16, b.val % 16, hdigit ⟨b.val / 16, ?_⟩, hdigit ⟨b.val % 16, ?_⟩, ?_⟩
    · exact Nat.div_lt_of_lt_mul b.isLt
    · exact Nat.mod_lt _ (by omega)
    · apply Fin.ext
      have hb := b.isLt
      show (16 * (b.val / 16) + b.val % 16) % 256 = b.val
      omega
  induction bs with
  | nil => rfl
  | cons b bs ih =>
    obtain ⟨h, l, hhigh, hlow, hb⟩ := hbyte b
    show hexDecode (_ :: _ :: hexEncode bs) = some (b :: bs)
    rw [hexDecode, hhigh, hlow, ih, ← hb]
    rfl

end Shentu.Lib
