import Mathlib

/-! # Base-10 numbers in Go's `strconv`

`FormatUint` and `FormatInt` write a number in base 10; `ParseUint` and
`ParseInt` read one back, with bit size 64. A Go string is its list of
characters here: the parsers look at ASCII characters only, each of which is
one byte. `FormatUint` is taken to be core's `Nat.toDigits 10`; the loop of
`ParseUint` is the library's, which checks each character for a digit and then
the value read so far against the bound before it adds the digit.

`ParseInt` reads back what `FormatInt` writes, exactly on the numbers in the
range of `int64` (`ParseInt_decimal`), and what they write is the base-10
numeral of the number (`isDecimal_decimal`).
-/

namespace Strconv
set_option autoImplicit false

/-- `strconv.ErrSyntax` and `strconv.ErrRange`. -/
inductive NumError where
  | errSyntax
  | errRange
deriving DecidableEq, Repr

def maxUint64 : Nat := 2 ^ 64 - 1

/-- The loop of `ParseUint(s, 10, 64)` over the characters, from the value
read so far. -/
def parseUintLoop : Nat → List Char → Except NumError Nat
  | n, [] => .ok n
  | n, c :: cs =>
    if c.isDigit then
      -- `cutoff` is the least value that overflows when multiplied by the base
      if maxUint64 / 10 + 1 ≤ n then .error .errRange
      else
        let n1 := 10 * n + (c.toNat - '0'.toNat)
        if maxUint64 < n1 then .error .errRange else parseUintLoop n1 cs
    else .error .errSyntax

def ParseUint (s : List Char) : Except NumError Nat :=
  if s = [] then .error .errSyntax else parseUintLoop 0 s

def splitSign : List Char → Bool × List Char
  | '+' :: s => (false, s)
  | '-' :: s => (true, s)
  | s => (false, s)

/-- `strconv.ParseInt(s, 10, 64)`. A range error of `ParseUint` goes on with
its `maxVal`, which the bounds of `int64` then reject. -/
def ParseInt (s : List Char) : Except NumError Int :=
  if s = [] then .error .errSyntax
  else
    let (neg, digits) := splitSign s
    let parsed : Except NumError Nat :=
      match ParseUint digits with
      | .error .errRange => .ok maxUint64
      | r => r
    match parsed with
    | .error err => .error err
    | .ok un =>
      if !neg && 2 ^ 63 ≤ un then .error .errRange
      else if neg && 2 ^ 63 < un then .error .errRange
      else .ok (if neg then -(un : Int) else un)

def FormatUint (i : UInt64) : List Char := Nat.toDigits 10 i.toNat

def FormatInt (i : Int64) : List Char :=
  if i.toInt < 0 then '-' :: Nat.toDigits 10 i.toInt.natAbs else Nat.toDigits 10 i.toInt.toNat

/-- The base-10 numeral of a number: a minus sign when it is negative, then its
digits, with no leading zero. -/
def decimal (x : Int) : List Char :=
  (if x < 0 then ['-'] else []) ++ Nat.toDigits 10 x.natAbs

/-- A base-10 numeral of `x`: a minus sign when `x` is negative, then digits
whose value is the magnitude of `x`, the first of them not a zero unless it is
the only one. -/
def IsDecimal (s : List Char) (x : Int) : Prop :=
  ∃ digits, s = (if x < 0 then ['-'] else []) ++ digits ∧ digits ≠ [] ∧ (∀ c ∈ digits, c.isDigit) ∧
    (digits.head? = some '0' → digits = ['0']) ∧ Nat.ofDigitChars 10 digits 0 = x.natAbs

theorem FormatInt_eq (i : Int64) : FormatInt i = decimal i.toInt := by
  unfold FormatInt decimal
  split
  · rfl
  · rw [List.nil_append]
    congr 1
    omega

theorem FormatUint_eq (i : UInt64) : FormatUint i = decimal i.toNat := by
  simp [FormatUint, decimal]

theorem maxUint64_eq : maxUint64 = 18446744073709551615 := rfl

theorem le_ofDigitChars (l : List Char) (init : Nat) : init ≤ Nat.ofDigitChars 10 l init := by
  rw [Nat.ofDigitChars_eq_ofDigitChars_zero]
  calc init ≤ 10 ^ l.length * init := Nat.le_mul_of_pos_left init (Nat.pow_pos (by decide))
    _ ≤ _ := Nat.le_add_right _ _

theorem parseUintLoop_digits : ∀ (n : Nat) (l : List Char), (∀ c ∈ l, c.isDigit) → n ≤ maxUint64 →
    parseUintLoop n l =
      if Nat.ofDigitChars 10 l n ≤ maxUint64 then .ok (Nat.ofDigitChars 10 l n) else .error .errRange
  | n, [], _, hn => by rw [parseUintLoop, Nat.ofDigitChars_nil, if_pos hn]
  | n, c :: cs, hDigits, hn => by
    have hc := hDigits c List.mem_cons_self
    rw [parseUintLoop, if_pos hc, Nat.ofDigitChars_cons]
    have hLe := le_ofDigitChars cs (10 * n + (c.toNat - '0'.toNat))
    by_cases hCut : maxUint64 / 10 + 1 ≤ n
    · rw [if_pos hCut, if_neg (by rw [maxUint64_eq] at *; omega)]
    · rw [if_neg hCut]
      by_cases hOver : maxUint64 < 10 * n + (c.toNat - '0'.toNat)
      · rw [if_pos hOver, if_neg (by omega)]
      · rw [if_neg hOver]
        exact parseUintLoop_digits _ cs (fun c' h' => hDigits c' (List.mem_cons_of_mem c h')) (by omega)

theorem ParseUint_toDigits (n : Nat) :
    ParseUint (Nat.toDigits 10 n) = if n ≤ maxUint64 then .ok n else .error .errRange := by
  rw [ParseUint, if_neg Nat.toDigits_ne_nil,
    parseUintLoop_digits 0 _ (fun _ hc => Nat.isDigit_of_mem_toDigits (by decide) (by decide) hc) (Nat.zero_le _),
    Nat.ofDigitChars_ten_toDigits]

theorem splitSign_toDigits (n : Nat) : splitSign (Nat.toDigits 10 n) = (false, Nat.toDigits 10 n) := by
  obtain ⟨c, cs, hcs⟩ := List.exists_cons_of_ne_nil (Nat.toDigits_ne_nil : Nat.toDigits 10 n ≠ [])
  have hc : c.isDigit := Nat.isDigit_of_mem_toDigits (by decide) (by decide) (hcs ▸ List.mem_cons_self)
  have hPlus : c ≠ '+' := by
    rintro rfl
    exact absurd hc (by decide)
  have hMinus : c ≠ '-' := by
    rintro rfl
    exact absurd hc (by decide)
  rw [hcs]
  simp [splitSign, hPlus, hMinus]

theorem eq_zero_of_head?_toDigits (n : Nat) (h : (Nat.toDigits 10 n).head? = some '0') : n = 0 := by
  induction n using Nat.strongRecOn with
  | ind n ih =>
    rw [Nat.toDigits_eq_if (by decide)] at h
    split at h
    · rename_i hn
      have hChar : n.digitChar = '0' := Option.some.inj h
      have hNat := Nat.toNat_digitChar_of_lt_ten hn
      rw [hChar] at hNat
      simp at hNat
      omega
    · rename_i hn
      obtain ⟨d, ds, hds⟩ := List.exists_cons_of_ne_nil (Nat.toDigits_ne_nil : Nat.toDigits 10 (n / 10) ≠ [])
      rw [hds, List.cons_append, List.head?_cons] at h
      rw [← List.head?_cons, ← hds] at h
      have := ih (n / 10) (by omega) h
      omega

theorem isDecimal_decimal (x : Int) : IsDecimal (decimal x) x := by
  refine ⟨Nat.toDigits 10 x.natAbs, rfl, Nat.toDigits_ne_nil, ?_, ?_, Nat.ofDigitChars_ten_toDigits⟩
  · intro c hc
    exact Nat.isDigit_of_mem_toDigits (by decide) (by decide) hc
  · intro h
    rw [eq_zero_of_head?_toDigits _ h, Nat.toDigits_zero]

theorem ParseInt_of_splitSign {s digits : List Char} {neg : Bool} (hs : s ≠ [])
    (hSplit : splitSign s = (neg, digits)) {n : Nat}
    (hDigits : ParseUint digits = if n ≤ maxUint64 then .ok n else .error .errRange) :
    ParseInt s =
      if ((!neg && decide (2 ^ 63 ≤ n)) || (neg && decide (2 ^ 63 < n))) = true then .error .errRange
      else .ok (if neg then -(n : Int) else n) := by
  rw [ParseInt, if_neg hs, hSplit]
  dsimp only
  rw [hDigits]
  by_cases hMag : n ≤ maxUint64
  · rw [if_pos hMag]
    dsimp only
    generalize (!neg && decide (2 ^ 63 ≤ n)) = a
    generalize (neg && decide (2 ^ 63 < n)) = b
    cases a <;> cases b <;> rfl
  · -- `maxVal` is out of range for either sign, and so is `n`
    rw [if_neg hMag]
    dsimp only
    rw [maxUint64_eq] at hMag
    have h1 : 2 ^ 63 ≤ n := by omega
    have h2 : 2 ^ 63 < n := by omega
    have h3 : 2 ^ 63 ≤ maxUint64 := by decide
    have h4 : 2 ^ 63 < maxUint64 := by decide
    cases neg <;> simp only [decide_eq_true h1, decide_eq_true h2, decide_eq_true h3, decide_eq_true h4,
      Bool.not_false, Bool.not_true, Bool.true_and, Bool.false_and, Bool.or_true, Bool.true_or,
      Bool.false_eq_true, ↓reduceIte]

theorem ParseInt_decimal (x : Int) :
    ParseInt (decimal x) = if -2 ^ 63 ≤ x ∧ x < 2 ^ 63 then .ok x else .error .errRange := by
  by_cases hNeg : x < 0
  · have hDec : decimal x = '-' :: Nat.toDigits 10 x.natAbs := by
      rw [decimal, if_pos hNeg]
      rfl
    have hSplit : splitSign ('-' :: Nat.toDigits 10 x.natAbs) = (true, Nat.toDigits 10 x.natAbs) := rfl
    rw [hDec, ParseInt_of_splitSign (List.cons_ne_nil _ _) hSplit (ParseUint_toDigits x.natAbs)]
    simp only [Bool.not_true, Bool.false_and, Bool.false_or, Bool.true_and, decide_eq_true_eq, ↓reduceIte]
    by_cases hBig : 2 ^ 63 < x.natAbs
    · rw [if_pos hBig, if_neg (show ¬(-2 ^ 63 ≤ x ∧ x < 2 ^ 63) by omega)]
    · rw [if_neg hBig, if_pos (show -2 ^ 63 ≤ x ∧ x < 2 ^ 63 by omega)]
      congr 1
      omega
  · rw [decimal, if_neg hNeg, List.nil_append,
      ParseInt_of_splitSign Nat.toDigits_ne_nil (splitSign_toDigits _) (ParseUint_toDigits x.natAbs)]
    simp only [Bool.not_false, Bool.true_and, Bool.false_and, Bool.or_false, decide_eq_true_eq,
      Bool.false_eq_true, ↓reduceIte]
    by_cases hBig : 2 ^ 63 ≤ x.natAbs
    · rw [if_pos hBig, if_neg (show ¬(-2 ^ 63 ≤ x ∧ x < 2 ^ 63) by omega)]
    · rw [if_neg hBig, if_pos (show -2 ^ 63 ≤ x ∧ x < 2 ^ 63 by omega)]
      congr 1
      omega

end Strconv
