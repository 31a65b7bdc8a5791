import Mathlib

/-! # The binary format of decimals (`tidb/types/mydecimal.go`, `common/decimal.go`)

The vendored `MyDecimal` holds the number of digits before and after the
point, the fraction digits of a result, the sign, and nine `int32` words of
nine decimal digits, the integer words first. `WriteBin` writes a decimal in
the fixed-length binary format of a `DECIMAL(precision, frac)` column and
`FromBin` reads one back, each with the error it returns beside its result.
`common.Decimal` wraps them as `Encode` and `Decode`.

Go's `int` is `Int` with its truncating division; `int8` and `int32` are
`Int8` and `Int32`. A runtime panic (an index past the end of a slice or an
array) is `none`. `WriteBin` writes into the zero bytes `append` adds after
`buf`; `FromBin` reads into a fresh `MyDecimal{}`, as `Decode` does.
-/

namespace PranaDB
set_option autoImplicit false

structure MyDecimal where
  digitsInt : Int8
  digitsFrac : Int8
  resultFrac : Int8
  negative : Bool
  wordBuf : Vector Int32 9
deriving DecidableEq, Repr

/-- The errors `WriteBin` and `FromBin` return: `ErrBadNumber`, `ErrOverflow`
and `ErrTruncated`. -/
inductive DecimalError where
  | badNumber
  | overflow
  | truncated
deriving DecidableEq, Repr

def DecimalError.message : DecimalError → String
  | .badNumber => "Bad Number"
  | .overflow => "%s value is out of range in \x27%s\x27"
  | .truncated => "Data truncated for column \x27%s\x27 at row %d"

namespace MyDecimal

def maxWordBufLen : Int := 9
def wordBufLen : Int := 9
def digitsPerWord : Int := 9
def wordSize : Int := 4
def wordMax : UInt32 := 999999999

def MaxDecimalScale : Int := 30

/-- `zeroMyDecimal`, that is `MyDecimal{}`. -/
def zeroMyDecimal : MyDecimal := ⟨0, 0, 0, false, Vector.replicate 9 0⟩

def dig2bytes (i : Int) : Option Int :=
  if 0 ≤ i then [0, 1, 1, 2, 2, 3, 3, 4, 4, 4][i.toNat]? else none

def powers10 (i : Int) : Option Int32 :=
  if 0 ≤ i then
    [1, 10, 100, 1000, 10000, 100000, 1000000, 10000000, 100000000, 1000000000][i.toNat]?
  else none

def wordAt (d : MyDecimal) (i : Int) : Option Int32 :=
  if 0 ≤ i then d.wordBuf[i.toNat]? else none

def setWord (d : MyDecimal) (i : Int) (x : Int32) : Option MyDecimal :=
  if 0 ≤ i ∧ i < maxWordBufLen then some { d with wordBuf := d.wordBuf.setIfInBounds i.toNat x } else none

def sliceFrom (b : List UInt8) (i : Int) : Option (List UInt8) :=
  if 0 ≤ i ∧ i ≤ b.length then some (b.drop i.toNat) else none

/-- `writeWord`: the low `size` bytes of the word, most significant first. -/
def writeWord (word : Int32) (size : Int) : List UInt8 :=
  let v := word.toUInt32
  if size = 1 then [v.toUInt8]
  else if size = 2 then [(v >>> 8).toUInt8, v.toUInt8]
  else if size = 3 then [(v >>> 16).toUInt8, (v >>> 8).toUInt8, v.toUInt8]
  else if size = 4 then [(v >>> 24).toUInt8, (v >>> 16).toUInt8, (v >>> 8).toUInt8, v.toUInt8]
  else []

/-- `readWord`: the first `size` bytes as a signed big-endian integer. -/
def readWord (b : List UInt8) (size : Int) : Option Int32 :=
  if size = 1 then do
    let b0 ← b[0]?
    pure b0.toInt8.toInt32
  else if size = 2 then do
    let b0 ← b[0]?
    let b1 ← b[1]?
    pure ((b0.toInt8.toInt32 <<< 8) + b1.toUInt32.toInt32)
  else if size = 3 then do
    let b0 ← b[0]?
    let b1 ← b[1]?
    let b2 ← b[2]?
    let low := (b0.toUInt32 <<< 16) ||| (b1.toUInt32 <<< 8) ||| b2.toUInt32
    pure (if b0 &&& 128 > 0 then ((255 : UInt32) <<< 24 ||| low).toInt32 else low.toInt32)
  else if size = 4 then do
    let b0 ← b[0]?
    let b1 ← b[1]?
    let b2 ← b[2]?
    let b3 ← b[3]?
    pure (b3.toUInt32.toInt32 + (b2.toUInt32.toInt32 <<< 8) + (b1.toUInt32.toInt32 <<< 16) +
      (b0.toInt8.toInt32 <<< 24))
  else pure 0

/-- `writeWord(bin[binIdx:], word, size)` and the other writes into `bin`. -/
def writeAt (bin : List UInt8) (binIdx : Int) (bytes : List UInt8) : Option (List UInt8) :=
  if 0 ≤ binIdx ∧ binIdx.toNat + bytes.length ≤ bin.length then
    some (bin.take binIdx.toNat ++ bytes ++ bin.drop (binIdx.toNat + bytes.length))
  else none

/-- `countLeadingZeroes`: the index falls from at most 8 to -1, where Go panics. -/
def countLeadingZeroes : Nat → Int → Int32 → Option Int
  | 0, _, _ => none
  | fuel + 1, i, word => do
    if word < (← powers10 i) then
      let leading ← countLeadingZeroes fuel (i - 1) word
      pure (leading + 1)
    else pure 0

def skipZeroWords (d : MyDecimal) : Nat → Int → Int → Int → Option (Int × Int)
  | 0, _, _, _ => none
  | fuel + 1, wordIdx, digitsInt, i =>
    if digitsInt > 0 then do
      if (← d.wordAt wordIdx) = 0 then skipZeroWords d fuel (wordIdx + 1) (digitsInt - i) digitsPerWord
      else pure (wordIdx, digitsInt)
    else pure (wordIdx, digitsInt)

/-- `removeLeadingZeros`: the first word and the number of integer digits
without the leading zeros. -/
def removeLeadingZeros (d : MyDecimal) : Option (Int × Int) := do
  let (wordIdx, digitsInt) ←
    skipZeroWords d 10 0 d.digitsInt.toInt ((d.digitsInt.toInt - 1).tmod digitsPerWord + 1)
  if digitsInt > 0 then do
    let leading ← countLeadingZeroes 10 ((digitsInt - 1).tmod digitsPerWord) (← d.wordAt wordIdx)
    pure (wordIdx, digitsInt - leading)
  else pure (wordIdx, 0)

def DecimalBinSize (precision frac : Int) : Option Int := do
  let digitsInt := precision - frac
  let wordsInt := digitsInt.tdiv digitsPerWord
  let wordsFrac := frac.tdiv digitsPerWord
  let xInt := digitsInt - wordsInt * digitsPerWord
  let xFrac := frac - wordsFrac * digitsPerWord
  pure (wordsInt * wordSize + (← dig2bytes xInt) + wordsFrac * wordSize + (← dig2bytes xFrac))

def fixWordCntError (wordsInt wordsFrac : Int) : Int × Int × Option DecimalError :=
  if wordsInt + wordsFrac > wordBufLen then
    if wordsInt > wordBufLen then (wordBufLen, 0, some .overflow)
    else (wordsInt, wordBufLen - wordsInt, some .truncated)
  else (wordsInt, wordsFrac, none)

/-! ## WriteBin -/

def maskByte (mask : Int32) : UInt8 := mask.toUInt32.toUInt8

def writeWords (d : MyDecimal) (mask : Int32) :
    Nat → List UInt8 → Int → Int → Option (List UInt8 × Int × Int)
  | 0, bin, binIdx, wordIdxFrom => pure (bin, binIdx, wordIdxFrom)
  | count + 1, bin, binIdx, wordIdxFrom => do
    let x := (← d.wordAt wordIdxFrom) ^^^ mask
    let bin ← writeAt bin binIdx (writeWord x 4)
    writeWords d mask count bin (binIdx + wordSize) (wordIdxFrom + 1)

/-- The loop of `WriteBin` that widens the last fraction word while its byte
size stays `i`; it stops below `lim`, at most 9. -/
def widenTrailing (lim i : Int) : Nat → Int → Option Int
  | 0, trailingDigitsFrom => pure trailingDigitsFrom
  | fuel + 1, trailingDigitsFrom =>
    if trailingDigitsFrom < lim then do
      if (← dig2bytes trailingDigitsFrom) = i then widenTrailing lim i fuel (trailingDigitsFrom + 1)
      else pure trailingDigitsFrom
    else pure trailingDigitsFrom

def padFrac (mask : Int32) (fracSizeFrom binIdxEnd : Int) : Nat → List UInt8 → Int → Int → Option (List UInt8)
  | 0, bin, _, _ => pure bin
  | fuel + 1, bin, binIdx, fracSize =>
    if fracSize > fracSizeFrom ∧ binIdx < binIdxEnd then do
      let bin ← writeAt bin binIdx [maskByte mask]
      padFrac mask fracSizeFrom binIdxEnd fuel bin (binIdx + 1) (fracSize - 1)
    else pure bin

def flipSign : List UInt8 → Option (List UInt8)
  | [] => none
  | b :: rest => some ((b ^^^ 0x80) :: rest)

/-- The bytes `WriteBin` appends and its error: the integer digits that fit,
when there are more than the column holds, and the fraction cut to the
column's. -/
def writeBinBytes (d : MyDecimal) (precision frac : Int) : Option (List UInt8 × Option DecimalError) := do
  if precision > digitsPerWord * maxWordBufLen ∨ precision < 0 ∨ frac > MaxDecimalScale ∨ frac < 0 then
    return ([], some .badNumber)
  let mask : Int32 := if d.negative then -1 else 0
  let digitsInt := precision - frac
  let wordsInt := digitsInt.tdiv digitsPerWord
  let leadingDigits := digitsInt - wordsInt * digitsPerWord
  let wordsFrac := frac.tdiv digitsPerWord
  let trailingDigits := frac - wordsFrac * digitsPerWord
  let wordsFracFrom := d.digitsFrac.toInt.tdiv digitsPerWord
  let trailingDigitsFrom := d.digitsFrac.toInt - wordsFracFrom * digitsPerWord
  let intSize := wordsInt * wordSize + (← dig2bytes leadingDigits)
  let fracSize := wordsFrac * wordSize + (← dig2bytes trailingDigits)
  let fracSizeFrom := wordsFracFrom * wordSize + (← dig2bytes trailingDigitsFrom)
  let originIntSize := intSize
  let originFracSize := fracSize
  if intSize + fracSize < 0 then none
  let bin := List.replicate (intSize + fracSize).toNat (0 : UInt8)
  let (wordIdxFrom, digitsIntFrom) ← d.removeLeadingZeros
  let (mask, digitsInt) := if digitsIntFrom + fracSizeFrom = 0 then ((0 : Int32), (1 : Int)) else (mask, digitsInt)
  let wordsIntFrom := digitsIntFrom.tdiv digitsPerWord
  let leadingDigitsFrom := digitsIntFrom - wordsIntFrom * digitsPerWord
  let iSizeFrom := wordsIntFrom * wordSize + (← dig2bytes leadingDigitsFrom)
  let (bin, binIdx, wordIdxFrom, wordsIntFrom, leadingDigitsFrom, err) ←
    if digitsInt < digitsIntFrom then do
      let wordIdxFrom := wordIdxFrom + (wordsIntFrom - wordsInt)
      let wordIdxFrom := if leadingDigitsFrom > 0 then wordIdxFrom + 1 else wordIdxFrom
      let wordIdxFrom := if leadingDigits > 0 then wordIdxFrom - 1 else wordIdxFrom
      pure (bin, (0 : Int), wordIdxFrom, wordsInt, leadingDigits, some DecimalError.overflow)
    else if intSize > iSizeFrom then do
      let bin ← writeAt bin 0 (List.replicate (intSize - iSizeFrom).toNat (maskByte mask))
      pure (bin, intSize - iSizeFrom, wordIdxFrom, wordsIntFrom, leadingDigitsFrom, none)
    else pure (bin, 0, wordIdxFrom, wordsIntFrom, leadingDigitsFrom, none)
  let (wordsFracFrom, trailingDigitsFrom, fracSize, err) :=
    if fracSize < fracSizeFrom ∨
        (fracSize = fracSizeFrom ∧ (trailingDigits ≤ trailingDigitsFrom ∨ wordsFrac ≤ wordsFracFrom)) then
      let err := if fracSize < fracSizeFrom ∨ (fracSize = fracSizeFrom ∧ trailingDigits < trailingDigitsFrom) ∨
          (fracSize = fracSizeFrom ∧ wordsFrac < wordsFracFrom) then some DecimalError.truncated else err
      (wordsFrac, trailingDigits, fracSize, err)
    else if fracSize > fracSizeFrom ∧ trailingDigitsFrom > 0 then
      if wordsFrac = wordsFracFrom then (wordsFracFrom, trailingDigits, fracSizeFrom, err)
      else (wordsFracFrom + 1, 0, fracSize, err)
    else (wordsFracFrom, trailingDigitsFrom, fracSize, err)
  let (bin, binIdx, wordIdxFrom) ←
    if leadingDigitsFrom > 0 then do
      let i ← dig2bytes leadingDigitsFrom
      let x := ((← d.wordAt wordIdxFrom) % (← powers10 leadingDigitsFrom)) ^^^ mask
      let bin ← writeAt bin binIdx (writeWord x i)
      pure (bin, binIdx + i, wordIdxFrom + 1)
    else pure (bin, binIdx, wordIdxFrom)
  let (bin, binIdx, wordIdxFrom) ← d.writeWords mask (wordsIntFrom + wordsFracFrom).toNat bin binIdx wordIdxFrom
  let (bin, binIdx) ←
    if trailingDigitsFrom > 0 then do
      let i ← dig2bytes trailingDigitsFrom
      let lim := if wordsFracFrom < wordsFrac then digitsPerWord else trailingDigits
      let trailingDigitsFrom ← widenTrailing lim i 10 trailingDigitsFrom
      let x := ((← d.wordAt wordIdxFrom) / (← powers10 (digitsPerWord - trailingDigitsFrom))) ^^^ mask
      let bin ← writeAt bin binIdx (writeWord x i)
      pure (bin, binIdx + i)
    else pure (bin, binIdx)
  let bin ←
    if fracSize > fracSizeFrom then
      padFrac mask fracSizeFrom (originIntSize + originFracSize) (fracSize - fracSizeFrom).toNat bin binIdx fracSize
    else pure bin
  let bin ← flipSign bin
  pure (bin, err)

/-- `WriteBin`: `buf` followed by the bytes of the decimal. -/
def WriteBin (d : MyDecimal) (precision frac : Int) (buf : List UInt8) : Option (List UInt8 × Option DecimalError) :=
  (d.writeBinBytes precision frac).map fun r => (buf ++ r.1, r.2)

/-! ## FromBin -/

/-- The state of `FromBin`'s loops: the decimal read so far, the word it
writes next and the position in the bytes. -/
structure FromBinState where
  dec : MyDecimal
  wordIdx : Int
  binIdx : Int

def readAt (bin : List UInt8) (binIdx size : Int) : Option Int32 := do
  readWord (← sliceFrom bin binIdx) size

/-- The loop of `FromBin` over the integer words: a leading zero word is not
kept and takes its digits off `digitsInt`. -/
def readIntWords (bin : List UInt8) (mask : Int32) :
    Nat → FromBinState → ExceptT DecimalError Option FromBinState
  | 0, st => pure st
  | count + 1, st => do
    let word := (← readAt bin st.binIdx 4) ^^^ mask
    let dec ← st.dec.setWord st.wordIdx word
    if word.toUInt32 > wordMax then throw .badNumber
    let st : FromBinState := if st.wordIdx > 0 ∨ word ≠ 0 then ⟨dec, st.wordIdx + 1, st.binIdx⟩
      else ⟨{ dec with digitsInt := dec.digitsInt - Int8.ofInt digitsPerWord }, st.wordIdx, st.binIdx⟩
    readIntWords bin mask count { st with binIdx := st.binIdx + wordSize }

def readFracWords (bin : List UInt8) (mask : Int32) :
    Nat → FromBinState → ExceptT DecimalError Option FromBinState
  | 0, st => pure st
  | count + 1, st => do
    let word := (← readAt bin st.binIdx 4) ^^^ mask
    let dec ← st.dec.setWord st.wordIdx word
    if word.toUInt32 > wordMax then throw .badNumber
    readFracWords bin mask count ⟨dec, st.wordIdx + 1, st.binIdx + wordSize⟩

/-- `FromBin` from the copy of the bytes on: the decimal and the error of
`fixWordCntError`, or `ErrBadNumber` for a word out of range. -/
def readBin (bin : List UInt8) (mask : Int32) (precision frac : Int) :
    ExceptT DecimalError Option (MyDecimal × Option DecimalError) := do
  let digitsInt := precision - frac
  let wordsInt := digitsInt.tdiv digitsPerWord
  let leadingDigits := digitsInt - wordsInt * digitsPerWord
  let wordsFrac := frac.tdiv digitsPerWord
  let trailingDigits := frac - wordsFrac * digitsPerWord
  let wordsIntTo := if leadingDigits > 0 then wordsInt + 1 else wordsInt
  let wordsFracTo := if trailingDigits > 0 then wordsFrac + 1 else wordsFrac
  let oldWordsIntTo := wordsIntTo
  let (wordsIntTo, wordsFracTo, err) := fixWordCntError wordsIntTo wordsFracTo
  let (binIdx, trailingDigits, wordsFrac) ←
    if err.isSome then
      if wordsIntTo < oldWordsIntTo then do
        let leadingSize ← dig2bytes leadingDigits
        pure (leadingSize + (wordsInt - wordsIntTo) * wordSize, trailingDigits, wordsFrac)
      else pure ((0 : Int), (0 : Int), wordsFracTo)
    else pure (0, trailingDigits, wordsFrac)
  let dec : MyDecimal := { zeroMyDecimal with
    negative := mask != 0
    digitsInt := Int8.ofInt (wordsInt * digitsPerWord + leadingDigits)
    digitsFrac := Int8.ofInt (wordsFrac * digitsPerWord + trailingDigits) }
  let st ←
    if leadingDigits > 0 then do
      let i ← dig2bytes leadingDigits
      let word := (← readAt bin binIdx i) ^^^ mask
      let dec ← dec.setWord 0 word
      if word.toInt64.toUInt64 ≥ (← powers10 (leadingDigits + 1)).toInt64.toUInt64 then throw .badNumber
      pure (if word ≠ 0 then (⟨dec, 1, binIdx + i⟩ : FromBinState)
        else ⟨{ dec with digitsInt := dec.digitsInt - Int8.ofInt leadingDigits }, 0, binIdx + i⟩)
    else pure ⟨dec, 0, binIdx⟩
  let st ← readIntWords bin mask wordsInt.toNat st
  let st ← readFracWords bin mask wordsFrac.toNat st
  let dec ←
    if trailingDigits > 0 then do
      let i ← dig2bytes trailingDigits
      let word := ((← readAt bin st.binIdx i) ^^^ mask) * (← powers10 (digitsPerWord - trailingDigits))
      let dec ← st.dec.setWord st.wordIdx word
      if word.toUInt32 > wordMax then throw .badNumber
      pure dec
    else pure st.dec
  let dec := if dec.digitsInt = 0 ∧ dec.digitsFrac = 0 then zeroMyDecimal else dec
  pure ({ dec with resultFrac := Int8.ofInt frac }, err)

/-- `dCopy` of `FromBin`: the first `binSize` bytes of `bin` in a zeroed
buffer of 40, with the sign bit flipped. -/
def copyBin (bin : List UInt8) (binSize : Int) : Option (List UInt8) :=
  if binSize < 0 ∨ binSize > 40 then none
  else flipSign (bin.take binSize.toNat ++ List.replicate (binSize.toNat - bin.length) 0)

/-- `FromBin`: the decimal of a `DECIMAL(precision, frac)` column at the start
of `bin`, the number of bytes it takes, and the error; after an error the
decimal is zero. -/
def FromBin (bin : List UInt8) (precision frac : Int) : Option (MyDecimal × Int × Option DecimalError) :=
  match bin with
  | [] => some (zeroMyDecimal, 0, some .badNumber)
  | b0 :: _ => do
    let mask : Int32 := if b0 &&& 0x80 > 0 then 0 else -1
    let binSize ← DecimalBinSize precision frac
    let dCopy ← copyBin bin binSize
    let r ← (readBin dCopy mask precision frac).run
    pure (match r with
      | .ok (dec, err) => (dec, binSize, err)
      | .error err => (zeroMyDecimal, binSize, some err))

end MyDecimal

/-! ## common.Decimal -/

/-- The errors of `Decimal.Encode`: `ErrOverflow`, the one error whose text
holds " value is out of range in ", becomes a value-out-of-range error that
names the column type. -/
inductive DecimalEncodeError where
  | valueOutOfRange (msg : String)
  | decimal (err : DecimalError)
deriving DecidableEq, Repr

def DecimalEncodeError.message : DecimalEncodeError → String
  | .valueOutOfRange msg => "Value out of range. " ++ msg
  | .decimal err => err.message

def Decimal.Encode (d : MyDecimal) (buffer : List UInt8) (precision scale : Int) :
    Option (Except DecimalEncodeError (List UInt8)) :=
  (d.WriteBin precision scale buffer).map fun
    | (b, none) => .ok b
    | (_, some .overflow) =>
      .error (.valueOutOfRange ("decimal(" ++ toString precision ++ ", " ++ toString scale ++ ")"))
    | (_, some err) => .error (.decimal err)

/-- `Decimal.Decode` on a fresh decimal, that is `ReadDecimalFromBuffer`: the
decimal at `offset` and the offset after it. -/
def ReadDecimalFromBuffer (buffer : List UInt8) (offset : Nat) (precision scale : Int) :
    Option (Except DecimalError (MyDecimal × Nat)) := do
  let (dec, binSize, err) ← MyDecimal.FromBin (← MyDecimal.sliceFrom buffer offset) precision scale
  match err with
  | some err => pure (.error err)
  | none => pure (.ok (dec, offset + binSize.toNat))

namespace MyDecimal

def binBytes (d : MyDecimal) (precision frac : Int) : List UInt8 :=
  ((d.writeBinBytes precision frac).map (·.1)).getD []

/-- A decimal that fits a `DECIMAL(precision, frac)` column: `WriteBin` writes
it with no error. -/
def FitsBin (d : MyDecimal) (precision frac : Int) : Bool :=
  match d.writeBinBytes precision frac with
  | some (_, none) => true
  | _ => false

def RoundTrips (d : MyDecimal) (precision frac : Int) : Bool :=
  match d.writeBinBytes precision frac with
  | some (bin, none) => FromBin bin precision frac == some (d, (bin.length : Int), none)
  | _ => false

example : (⟨2, 1, 1, false, #v[1, 500000000, 0, 0, 0, 0, 0, 0, 0]⟩ : MyDecimal).writeBinBytes 3 1 =
    some ([0x81, 0x05], none) := by decide

theorem FitsBin_iff {d : MyDecimal} {precision frac : Int} :
    d.FitsBin precision frac = true ↔ d.writeBinBytes precision frac = some (d.binBytes precision frac, none) := by
  unfold FitsBin binBytes
  split <;> simp_all

theorem RoundTrips_iff {d : MyDecimal} {precision frac : Int} :
    d.RoundTrips precision frac = true ↔ d.writeBinBytes precision frac = some (d.binBytes precision frac, none) ∧
      FromBin (d.binBytes precision frac) precision frac = some (d, ((d.binBytes precision frac).length : Int), none) := by
  unfold RoundTrips binBytes
  split <;> simp_all

theorem copyBin_append (bin rest : List UInt8) : copyBin (bin ++ rest) bin.length = copyBin bin bin.length := by
  simp [copyBin]

theorem FromBin_append {bin : List UInt8} {precision frac : Int} (hNe : bin ≠ [])
    (hSize : DecimalBinSize precision frac = some (bin.length : Int)) (rest : List UInt8) :
    FromBin (bin ++ rest) precision frac = FromBin bin precision frac := by
  obtain ⟨b0, bs, rfl⟩ := List.exists_cons_of_ne_nil hNe
  have hCopy := copyBin_append (b0 :: bs) rest
  rw [List.cons_append] at hCopy
  simp only [FromBin, List.cons_append, hSize, Option.bind_eq_bind, Option.bind_some, hCopy]

theorem FromBin_ok {bin : List UInt8} {precision frac : Int} {d : MyDecimal} {n : Int}
    (h : FromBin bin precision frac = some (d, n, none)) :
    bin ≠ [] ∧ DecimalBinSize precision frac = some n := by
  cases bin with
  | nil => simp [FromBin] at h
  | cons b0 bs =>
    refine ⟨List.cons_ne_nil b0 bs, ?_⟩
    cases hSize : DecimalBinSize precision frac with
    | none => simp [FromBin, hSize] at h
    | some binSize =>
      simp only [FromBin, hSize, Option.bind_eq_bind, Option.bind_some, Option.bind_eq_some_iff] at h
      obtain ⟨dCopy, -, r, -, hR⟩ := h
      cases r <;> simp_all

end MyDecimal

theorem Decimal.Encode_bind_toOption (d : MyDecimal) (buffer : List UInt8) (precision scale : Int) :
    (Decimal.Encode d buffer precision scale).bind Except.toOption =
      match d.writeBinBytes precision scale with
      | some (bin, none) => some (buffer ++ bin)
      | _ => none := by
  unfold Decimal.Encode MyDecimal.WriteBin
  rcases d.writeBinBytes precision scale with _ | ⟨bin, _ | _ | _ | _⟩ <;> rfl

theorem Decimal.Encode_append (d : MyDecimal) (buffer : List UInt8) (precision scale : Int) :
    Decimal.Encode d buffer precision scale = (Decimal.Encode d [] precision scale).map (Except.map (buffer ++ ·)) := by
  unfold Decimal.Encode MyDecimal.WriteBin
  rcases d.writeBinBytes precision scale with _ | ⟨bin, _ | _ | _ | _⟩ <;> rfl

theorem ReadDecimalFromBuffer_of_FromBin {d : MyDecimal} {precision scale : Int} {bin : List UInt8}
    (hRead : MyDecimal.FromBin bin precision scale = some (d, (bin.length : Int), none)) (pre suf : List UInt8) :
    ReadDecimalFromBuffer (pre ++ bin ++ suf) pre.length precision scale = some (.ok (d, pre.length + bin.length)) := by
  obtain ⟨hNe, hSize⟩ := MyDecimal.FromBin_ok hRead
  have hSlice : MyDecimal.sliceFrom (pre ++ (bin ++ suf)) pre.length = some (bin ++ suf) := by
    simp only [MyDecimal.sliceFrom, List.length_append]
    rw [if_pos (by omega)]
    simp
  simp [ReadDecimalFromBuffer, hSlice, MyDecimal.FromBin_append hNe hSize, hRead]

end PranaDB
