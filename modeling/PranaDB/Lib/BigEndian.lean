import Mathlib
import PranaDB.Lib.Lex

/-! # Fixed-width big-endian naturals

A natural written in `w` bytes, most significant first. Below `256 ^ w` the
byte order of the encodings is the numeric order, the encoding has exactly
`w` bytes, and reading the bytes back gives the number.
-/

namespace BigEndian
set_option autoImplicit false

def encode : Nat → Nat → List UInt8
  | 0, _ => []
  | w + 1, n => encode w (n / 256) ++ [UInt8.ofNat (n % 256)]

def decode (l : List UInt8) : Nat :=
  l.foldl (fun acc b => acc * 256 + b.toNat) 0

@[simp] theorem encode_zero (n : Nat) : encode 0 n = [] := rfl

theorem encode_succ (w n : Nat) :
    encode (w + 1) n = encode w (n / 256) ++ [UInt8.ofNat (n % 256)] := rfl

@[simp] theorem length_encode (w n : Nat) : (encode w n).length = w := by
  induction w generalizing n with
  | zero => rfl
  | succ w ih => simp [encode_succ, ih]

@[simp] theorem decode_nil : decode [] = 0 := rfl

@[simp] theorem decode_append_singleton (l : List UInt8) (b : UInt8) :
    decode (l ++ [b]) = decode l * 256 + b.toNat := by
  simp [decode, List.foldl_append]

theorem decode_encode (w n : Nat) : decode (encode w n) = n % 256 ^ w := by
  induction w generalizing n with
  | zero => simp [Nat.mod_one]
  | succ w ih =>
    have hByte : (UInt8.ofNat (n % 256)).toNat = n % 256 := by
      rw [UInt8.toNat_ofNat', Nat.mod_mod_of_dvd n (by decide)]
    rw [encode_succ, decode_append_singleton, ih, hByte, Nat.pow_succ', Nat.mod_mul]
    ring

theorem decode_encode_of_lt {w n : Nat} (h : n < 256 ^ w) : decode (encode w n) = n := by
  rw [decode_encode, Nat.mod_eq_of_lt h]

theorem decode_lt (l : List UInt8) : decode l < 256 ^ l.length := by
  induction l using List.reverseRecOn with
  | nil => simp
  | append_singleton l b ih =>
    have hb : b.toNat < 256 := b.toNat_lt
    rw [decode_append_singleton, List.length_append, List.length_singleton, Nat.pow_succ]
    omega

theorem encode_decode (l : List UInt8) : encode l.length (decode l) = l := by
  induction l using List.reverseRecOn with
  | nil => rfl
  | append_singleton l b ih =>
    have hb : b.toNat < 256 := b.toNat_lt
    have hDiv : (decode l * 256 + b.toNat) / 256 = decode l := by omega
    have hMod : (decode l * 256 + b.toNat) % 256 = b.toNat := by omega
    rw [List.length_append, List.length_singleton, decode_append_singleton, encode_succ, hDiv,
      hMod, ih, UInt8.ofNat_toNat]

theorem encode_injective {w a b : Nat} (ha : a < 256 ^ w) (hb : b < 256 ^ w)
    (h : encode w a = encode w b) : a = b := by
  rw [← decode_encode_of_lt ha, ← decode_encode_of_lt hb, h]

theorem compare_byte (x y : UInt8) : compare x y = compare x.toNat y.toNat := by
  simp only [compare, compareOfLessAndEq, UInt8.lt_iff_toNat_lt, ← UInt8.toNat_inj]

theorem compare_mul_add {B x y r s : Nat} (hr : r < B) (hs : s < B) :
    compare (x * B + r) (y * B + s) = (compare x y).then (compare r s) := by
  rcases Nat.lt_trichotomy x y with hxy | rfl | hxy
  · have hLt : x * B + r < y * B + s := by
      have : (x + 1) * B ≤ y * B := Nat.mul_le_mul_right B hxy
      rw [Nat.succ_mul] at this
      omega
    rw [Nat.compare_eq_lt.mpr hLt, Nat.compare_eq_lt.mpr hxy, Ordering.lt_then]
  · rw [Std.ReflOrd.compare_self, Ordering.eq_then]
    simp only [Nat.compare_eq_ite_lt]
    split_ifs <;> first | rfl | (exfalso; omega)
  · have hGt : y * B + s < x * B + r := by
      have : (y + 1) * B ≤ x * B := Nat.mul_le_mul_right B hxy
      rw [Nat.succ_mul] at this
      omega
    rw [Nat.compare_eq_gt.mpr hGt, Nat.compare_eq_gt.mpr hxy, Ordering.gt_then]

theorem compare_eq_div_then_mod (a b : Nat) :
    compare a b = (compare (a / 256) (b / 256)).then (compare (a % 256) (b % 256)) := by
  have hr : a % 256 < 256 := Nat.mod_lt a (by decide)
  have hs : b % 256 < 256 := Nat.mod_lt b (by decide)
  have h := compare_mul_add (x := a / 256) (y := b / 256) hr hs
  rwa [Nat.mul_comm, Nat.div_add_mod, Nat.mul_comm, Nat.div_add_mod] at h

theorem compare_encode {w a b : Nat} (ha : a < 256 ^ w) (hb : b < 256 ^ w) :
    compare (encode w a) (encode w b) = compare a b := by
  induction w generalizing a b with
  | zero =>
    have ha0 : a = 0 := by simpa using ha
    have hb0 : b = 0 := by simpa using hb
    subst ha0 hb0
    rfl
  | succ w ih =>
    have hDivA : a / 256 < 256 ^ w := by rw [Nat.pow_succ] at ha; omega
    have hDivB : b / 256 < 256 ^ w := by rw [Nat.pow_succ] at hb; omega
    have hLastA : (UInt8.ofNat (a % 256)).toNat = a % 256 := by
      rw [UInt8.toNat_ofNat', Nat.mod_mod_of_dvd a (by decide)]
    have hLastB : (UInt8.ofNat (b % 256)).toNat = b % 256 := by
      rw [UInt8.toNat_ofNat', Nat.mod_mod_of_dvd b (by decide)]
    rw [encode_succ, encode_succ, ListOrder.compare_append_of_length_eq (by simp),
      ih hDivA hDivB, List.compare_cons_cons, compare_byte, hLastA, hLastB,
      compare_eq_div_then_mod a b]
    simp

end BigEndian
