import PranaDB.Common.Types

/-! # The packed 64-bit form of a calendar time

`ToPackedUint` lays the fields of a `CoreTime` out in disjoint bit ranges, so
it is an arithmetic mixed-radix number. For a valid time (a month below 13) its
numeric order is `compareTime` and `FromPackedUint` reads every field back.
-/

namespace PranaDB.CoreTime
set_option autoImplicit false

def packedNat (t : CoreTime) : Nat :=
  (((t.year.val * 13 + t.month.val) * 32 + t.day.val) * 131072 +
    ((t.hour.val * 64 + t.minute.val) * 64 + t.second.val)) * 16777216 + t.microsecond.val

theorem shiftLeft_or_eq {a b i : Nat} (h : b < 2 ^ i) : (a <<< i) ||| b = a * 2 ^ i + b := by
  rw [← Nat.shiftLeft_add_eq_or_of_lt h, Nat.shiftLeft_eq]

theorem hms_eq (hour minute second : Nat) (hMinute : minute < 64) (hSecond : second < 64) :
    (hour <<< 12) ||| (minute <<< 6) ||| second = (hour * 64 + minute) * 64 + second := by
  have hTwelve : hour <<< 12 = (hour <<< 6) <<< 6 := Nat.shiftLeft_add hour 6 6
  have hInner : (hour <<< 6) ||| minute = hour * 64 + minute :=
    shiftLeft_or_eq (i := 6) (by simpa using hMinute)
  rw [hTwelve, ← Nat.shiftLeft_or_distrib, hInner, shiftLeft_or_eq (i := 6) (by simpa using hSecond)]
  rfl

theorem packedNat_lt (t : CoreTime) : t.packedNat < 2 ^ 64 := by
  have := t.year.isLt; have := t.month.isLt; have := t.day.isLt; have := t.hour.isLt
  have := t.minute.isLt; have := t.second.isLt; have := t.microsecond.isLt
  unfold packedNat
  omega

@[simp] theorem packedNat_zero : zero.packedNat = 0 := rfl

theorem toNat_ToPackedUint (t : CoreTime) : t.ToPackedUint.toNat = t.packedNat := by
  unfold ToPackedUint
  split
  · rename_i hZero
    subst hZero
    rfl
  · have hDay : t.day.val < 2 ^ 5 := t.day.isLt
    have hMinute := t.minute.isLt
    have hSecond := t.second.isLt
    have hHms : (t.hour.val * 64 + t.minute.val) * 64 + t.second.val < 2 ^ 17 := by
      have := t.hour.isLt
      omega
    have hMicro : t.microsecond.val < 2 ^ 24 := by
      have := t.microsecond.isLt
      omega
    simp only
    rw [shiftLeft_or_eq hDay, hms_eq _ _ _ hMinute hSecond, shiftLeft_or_eq hHms,
      shiftLeft_or_eq hMicro, UInt64.toNat_ofNat', Nat.mod_eq_of_lt]
    · rfl
    · exact packedNat_lt t

theorem compareTime_eq (a b : CoreTime) :
    compareTime a b =
      (compare a.year.val b.year.val).then ((compare a.month.val b.month.val).then
        ((compare a.day.val b.day.val).then ((compare a.hour.val b.hour.val).then
          ((compare a.minute.val b.minute.val).then ((compare a.second.val b.second.val).then
            (compare a.microsecond.val b.microsecond.val)))))) := by
  have hDigits : ∀ t : CoreTime, t.datetimeToUint64 =
      ((((t.year.val * 100 + t.month.val) * 100 + t.day.val) * 100 + t.hour.val) * 100 +
        t.minute.val) * 100 + t.second.val := by
    intro t
    unfold datetimeToUint64
    omega
  have := a.month.isLt; have := a.day.isLt; have := a.hour.isLt; have := a.minute.isLt
  have := a.second.isLt; have := b.month.isLt; have := b.day.isLt; have := b.hour.isLt
  have := b.minute.isLt; have := b.second.isLt
  rw [compareTime, hDigits a, hDigits b]
  repeat rw [BigEndian.compare_mul_add (by omega) (by omega)]
  simp only [Ordering.then_assoc]

theorem compare_packedNat {a b : CoreTime} (ha : a.Valid) (hb : b.Valid) :
    compare a.packedNat b.packedNat = compareTime a b := by
  have := a.day.isLt; have := a.hour.isLt; have := a.minute.isLt; have := a.second.isLt
  have := a.microsecond.isLt; have := b.day.isLt; have := b.hour.isLt; have := b.minute.isLt
  have := b.second.isLt; have := b.microsecond.isLt
  have hMonthA : a.month.val < 13 := by unfold Valid at ha; omega
  have hMonthB : b.month.val < 13 := by unfold Valid at hb; omega
  rw [compareTime_eq, packedNat, packedNat]
  repeat rw [BigEndian.compare_mul_add (by omega) (by omega)]
  simp only [Ordering.then_assoc]

theorem compare_ToPackedUint {a b : CoreTime} (ha : a.Valid) (hb : b.Valid) :
    compare a.ToPackedUint.toNat b.ToPackedUint.toNat = compareTime a b := by
  rw [toNat_ToPackedUint, toNat_ToPackedUint, compare_packedNat ha hb]

theorem eq_of_compareTime_eq {a b : CoreTime} (h : compareTime a b = .eq) : a = b := by
  rw [compareTime_eq] at h
  simp only [Ordering.then_eq_eq, Nat.compare_eq_eq] at h
  obtain ⟨hYear, hMonth, hDay, hHour, hMinute, hSecond, hMicro⟩ := h
  cases a
  cases b
  simp only [CoreTime.mk.injEq]
  exact ⟨Fin.ext hYear, Fin.ext hMonth, Fin.ext hDay, Fin.ext hHour, Fin.ext hMinute,
    Fin.ext hSecond, Fin.ext hMicro⟩

theorem FromPackedUint_ToPackedUint {t : CoreTime} (ht : t.Valid) :
    FromPackedUint t.ToPackedUint = t := by
  by_cases hZero : t = zero
  · subst hZero
    rfl
  · have hPacked : t.ToPackedUint ≠ 0 := by
      intro h
      have hNat : t.packedNat = zero.packedNat := by
        rw [← toNat_ToPackedUint, h]
        rfl
      have hCmp : compareTime t zero = .eq := by
        rw [← compare_packedNat ht (by decide : zero.Valid), hNat, Std.ReflOrd.compare_self]
      exact hZero (eq_of_compareTime_eq hCmp)
    unfold FromPackedUint
    rw [if_neg hPacked]
    simp only [toNat_ToPackedUint, packedNat, Nat.shiftRight_eq_div_pow,
      Nat.and_two_pow_sub_one_eq_mod, FromDate]
    obtain ⟨year, month, day, hour, minute, second, micro⟩ := t
    have hMonth : month.val < 13 := by
      have h12 : month.val ≤ 12 := ht
      omega
    have := year.isLt; have := day.isLt; have := hour.isLt
    have := minute.isLt; have := second.isLt; have := micro.isLt
    simp only [CoreTime.mk.injEq]
    refine ⟨?_, ?_, ?_, ?_, ?_, ?_, ?_⟩ <;> apply Fin.ext <;> simp only [Fin.val_ofNat] <;> omega

end PranaDB.CoreTime
