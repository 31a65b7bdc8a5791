import PranaDB.Common.Encoding

/-! # Memcomparable strings (`common/string_key_encoding.go`)

A string is cut into groups of eight bytes, each followed by a marker byte:
255 after a full group, `255 - padCount` after the last group, which is
padded with zeros to eight bytes (an empty last group when the length is a
multiple of eight). The decoder walks the groups, checks the marker range and
the padding, and stops after the first padded group.
-/

namespace PranaDB
set_option autoImplicit false

def encGroupSize : Nat := 8
def encMarker : UInt8 := 255
def encPad : UInt8 := 0

/-- The groups of `KeyEncodeString`'s loop for the bytes still to encode: a
full group while eight or more bytes remain, then the padded last group. -/
def encodeGroups : Bytes → Bytes
  | b0 :: b1 :: b2 :: b3 :: b4 :: b5 :: b6 :: b7 :: rest =>
    [b0, b1, b2, b3, b4, b5, b6, b7, encMarker] ++ encodeGroups rest
  | data =>
    data ++ List.replicate (encGroupSize - data.length) encPad ++
      [encMarker - UInt8.ofNat (encGroupSize - data.length)]

def KeyEncodeString (buff : Bytes) (val : Bytes) : Bytes :=
  buff ++ encodeGroups val

/-- The errors of the key decoders. `outOfRange` stands for Go's runtime panic
on a slice or index past the end of the buffer. -/
inductive KeyDecodeError where
  | insufficientBytes
  | invalidMarker (groupBytes : Bytes)
  | invalidPadding (groupBytes : Bytes)
  | outOfRange
  | decimal (err : DecimalError)
deriving DecidableEq, Repr

def KeyDecodeError.message : KeyDecodeError → String
  | .insufficientBytes => "insufficient bytes to decode value"
  | .invalidMarker _ => "invalid marker byte, group bytes"
  | .invalidPadding _ => "invalid padding byte, group bytes"
  | .outOfRange => "runtime error: slice bounds out of range"
  | .decimal err => err.message

/-- The loop of `KeyDecodeString`, with the decoded bytes `res` and the offset
it advances by nine per group. -/
def decodeGroups (res : Bytes) (offset : Nat) : Bytes → Except KeyDecodeError (Bytes × Nat)
  | g0 :: g1 :: g2 :: g3 :: g4 :: g5 :: g6 :: g7 :: marker :: rest =>
    let group := [g0, g1, g2, g3, g4, g5, g6, g7]
    let padCount := encMarker - marker
    if padCount > UInt8.ofNat encGroupSize then
      .error (.invalidMarker (group ++ [marker]))
    else
      let realGroupSize := UInt8.ofNat encGroupSize - padCount
      let res := res ++ group.take realGroupSize.toNat
      if padCount != 0 then
        -- the last group: its padding must be zero bytes
        if (group.drop realGroupSize.toNat).all (· == encPad) then .ok (res, offset + 9)
        else .error (.invalidPadding (group ++ [marker]))
      else decodeGroups res (offset + 9) rest
  | _ => .error .insufficientBytes

/-- `KeyDecodeString`: the string and the offset just after its last group. -/
def KeyDecodeString (buffer : Bytes) (offset : Nat) : Except KeyDecodeError (Bytes × Nat) :=
  if offset ≤ buffer.length then decodeGroups [] offset (buffer.drop offset)
  else .error .outOfRange

/-! ## The encoder, one group at a time -/

theorem encodeGroups_full (group rest : Bytes) (hGroup : group.length = 8) :
    encodeGroups (group ++ rest) = group ++ encMarker :: encodeGroups rest := by
  match group, hGroup with
  | [b0, b1, b2, b3, b4, b5, b6, b7], _ => rfl

theorem encodeGroups_last (data : Bytes) (hData : data.length < 8) :
    encodeGroups data = data ++ List.replicate (8 - data.length) 0 ++
      [255 - UInt8.ofNat (8 - data.length)] := by
  match data, hData with
  | [], _ | [_], _ | [_, _], _ | [_, _, _], _ | [_, _, _, _], _ | [_, _, _, _, _], _
  | [_, _, _, _, _, _], _ | [_, _, _, _, _, _, _], _ => rfl

theorem groups_induction {motive : Bytes → Prop}
    (last : ∀ data : Bytes, data.length < 8 → motive data)
    (full : ∀ group rest : Bytes, group.length = 8 → motive rest → motive (group ++ rest)) :
    ∀ data, motive data := by
  intro data
  induction hLen : data.length using Nat.strongRecOn generalizing data with
  | ind n ih =>
    by_cases hShort : data.length < 8
    · exact last data hShort
    · have hSplit := List.take_append_drop 8 data
      rw [← hSplit]
      apply full
      · simp only [List.length_take]
        omega
      · exact ih _ (by simp only [List.length_drop]; omega) _ rfl

theorem padCount_marker (p : Nat) (hp : p ≤ 8) :
    encMarker - (255 - UInt8.ofNat p) = UInt8.ofNat p := by
  match p, hp with
  | 0, _ | 1, _ | 2, _ | 3, _ | 4, _ | 5, _ | 6, _ | 7, _ | 8, _ => rfl

theorem padCount_facts (p : Nat) (hp1 : 1 ≤ p) (hp : p ≤ 8) :
    ¬ UInt8.ofNat p > UInt8.ofNat encGroupSize ∧ (UInt8.ofNat p != 0) = true ∧
      (UInt8.ofNat encGroupSize - UInt8.ofNat p).toNat = 8 - p := by
  match p, hp1, hp with
  | 1, _, _ | 2, _, _ | 3, _, _ | 4, _, _ | 5, _, _ | 6, _, _ | 7, _, _ | 8, _, _ =>
    exact ⟨by decide, rfl, rfl⟩

/-! ## The decoder, one group at a time -/

theorem decodeGroups_group (res : Bytes) (offset : Nat) (group : Bytes) (hGroup : group.length = 8)
    (marker : UInt8) (rest : Bytes) :
    decodeGroups res offset (group ++ marker :: rest) =
      if encMarker - marker > UInt8.ofNat encGroupSize then
        .error (.invalidMarker (group ++ [marker]))
      else if (encMarker - marker != 0) = true then
        if (group.drop (UInt8.ofNat encGroupSize - (encMarker - marker)).toNat).all (· == encPad)
        then .ok (res ++ group.take (UInt8.ofNat encGroupSize - (encMarker - marker)).toNat,
          offset + 9)
        else .error (.invalidPadding (group ++ [marker]))
      else decodeGroups (res ++ group.take (UInt8.ofNat encGroupSize - (encMarker - marker)).toNat)
        (offset + 9) rest := by
  match group, hGroup with
  | [g0, g1, g2, g3, g4, g5, g6, g7], _ => rfl

theorem length_encodeGroups_last (data : Bytes) (hData : data.length < 8) :
    (encodeGroups data).length = 9 := by
  rw [encodeGroups_last data hData]
  simp only [List.length_append, List.length_replicate, List.length_singleton]
  omega

theorem decodeGroups_encodeGroups (s : Bytes) :
    ∀ (res : Bytes) (offset : Nat) (suf : Bytes),
      decodeGroups res offset (encodeGroups s ++ suf) =
        .ok (res ++ s, offset + (encodeGroups s).length) := by
  induction s using groups_induction with
  | last data hData =>
    intro res offset suf
    have hPad : 1 ≤ 8 - data.length ∧ 8 - data.length ≤ 8 := by omega
    obtain ⟨hRange, hLast, hReal⟩ := padCount_facts _ hPad.1 hPad.2
    have hGroup : (data ++ List.replicate (8 - data.length) 0).length = 8 := by
      simp only [List.length_append, List.length_replicate]
      omega
    rw [length_encodeGroups_last data hData, encodeGroups_last data hData, List.append_assoc,
      List.singleton_append, decodeGroups_group res offset _ hGroup,
      padCount_marker _ hPad.2, if_neg hRange, if_pos hLast, hReal,
      show 8 - (8 - data.length) = data.length by omega, List.drop_left, List.take_left]
    simp [encPad]
  | full group rest hGroup ih =>
    intro res offset suf
    rw [encodeGroups_full group rest hGroup, List.append_assoc, List.cons_append,
      decodeGroups_group res offset group hGroup]
    have hTake : group.take (UInt8.ofNat encGroupSize - (encMarker - encMarker)).toNat = group := by
      rw [show (UInt8.ofNat encGroupSize - (encMarker - encMarker)).toNat = 8 from rfl]
      exact List.take_of_length_le (by omega)
    rw [if_neg (by decide), if_neg (by decide), hTake, ih]
    simp only [List.append_assoc, List.length_append, List.length_cons, hGroup, Except.ok.injEq,
      Prod.mk.injEq, true_and]
    omega

theorem decodeGroups_short (res : Bytes) (offset : Nat) (buffer : Bytes) (hShort : buffer.length < 9) :
    decodeGroups res offset buffer = .error .insufficientBytes := by
  match buffer, hShort with
  | [], _ | [_], _ | [_, _], _ | [_, _, _], _ | [_, _, _, _], _ | [_, _, _, _, _], _
  | [_, _, _, _, _, _], _ | [_, _, _, _, _, _, _], _ | [_, _, _, _, _, _, _, _], _ => rfl

theorem encMarker_sub_padCount (marker : UInt8) : encMarker - (encMarker - marker) = marker := by
  have hLe : marker ≤ encMarker := UInt8.le_iff_toNat_le.mpr (by
    have := marker.toNat_lt
    simp only [encMarker, UInt8.reduceToNat]
    omega)
  have hLe' : encMarker - marker ≤ encMarker := UInt8.le_iff_toNat_le.mpr (by
    rw [UInt8.toNat_sub_of_le _ _ hLe]
    omega)
  apply UInt8.toNat_inj.mp
  rw [UInt8.toNat_sub_of_le _ _ hLe', UInt8.toNat_sub_of_le _ _ hLe]
  have := marker.toNat_lt
  simp only [encMarker, UInt8.reduceToNat] at *
  omega

theorem encodeGroups_of_checks (group : Bytes) (hGroup : group.length = 8) (marker : UInt8)
    (hRange : ¬ encMarker - marker > UInt8.ofNat encGroupSize)
    (hLast : (encMarker - marker != 0) = true)
    (hPadding : (group.drop (UInt8.ofNat encGroupSize - (encMarker - marker)).toNat).all
      (· == encPad) = true) :
    encodeGroups (group.take (UInt8.ofNat encGroupSize - (encMarker - marker)).toNat) =
      group ++ [marker] := by
  have hPc : (encMarker - marker).toNat ≤ 8 := by
    have := UInt8.lt_iff_toNat_lt.not.mp hRange
    simp only [encGroupSize, UInt8.reduceOfNat, UInt8.reduceToNat] at this
    omega
  have hPc1 : 1 ≤ (encMarker - marker).toNat := by
    have hNe : encMarker - marker ≠ 0 := by simpa using hLast
    have := UInt8.toNat_inj.not.mpr hNe
    simp only [UInt8.reduceToNat] at this
    omega
  have hReal : (UInt8.ofNat encGroupSize - (encMarker - marker)).toNat =
      8 - (encMarker - marker).toNat := by
    rw [UInt8.toNat_sub_of_le _ _ (UInt8.le_iff_toNat_le.mpr (by simp only [UInt8.toNat_ofNat', encGroupSize]; omega))]
    rfl
  rw [hReal] at hPadding ⊢
  have hTakeLen : (group.take (8 - (encMarker - marker).toNat)).length < 8 := by
    simp only [List.length_take]
    omega
  have hZeros : group.drop (8 - (encMarker - marker).toNat) =
      List.replicate (encMarker - marker).toNat 0 := by
    apply List.eq_replicate_iff.mpr
    refine ⟨by simp only [List.length_drop]; omega, ?_⟩
    intro b hb
    simpa [encPad] using List.all_eq_true.mp hPadding b hb
  have hPadLen : 8 - (group.take (8 - (encMarker - marker).toNat)).length =
      (encMarker - marker).toNat := by
    simp only [List.length_take]
    omega
  rw [encodeGroups_last _ hTakeLen, hPadLen, ← hZeros, List.take_append_drop, UInt8.ofNat_toNat]
  exact congrArg (fun m => group ++ [m]) (encMarker_sub_padCount marker)

theorem decodeGroups_sound (buffer : Bytes) :
    ∀ {res : Bytes} {offset : Nat} {s : Bytes} {offset' : Nat},
      decodeGroups res offset buffer = .ok (s, offset') →
      ∃ val, s = res ++ val ∧ offset' = offset + (encodeGroups val).length ∧
        encodeGroups val <+: buffer := by
  induction hLen : buffer.length using Nat.strongRecOn generalizing buffer with
  | ind n ih =>
    intro res offset s offset' h
    by_cases hShort : buffer.length < 9
    · rw [decodeGroups_short res offset buffer hShort] at h
      cases h
    · -- the first nine bytes are a group and its marker
      have hGroup : (buffer.take 8).length = 8 := by
        simp only [List.length_take]
        omega
      have hSplit : buffer = buffer.take 8 ++ (buffer.drop 8).head! :: (buffer.drop 8).tail := by
        have hNe : buffer.drop 8 ≠ [] := by
          intro hNil
          have := congrArg List.length hNil
          simp only [List.length_drop, List.length_nil] at this
          omega
        rw [List.cons_head!_tail hNe, List.take_append_drop]
      rw [hSplit, decodeGroups_group res offset _ hGroup] at h
      generalize buffer.take 8 = group at h hGroup hSplit
      generalize (buffer.drop 8).head! = marker at h hSplit
      generalize (buffer.drop 8).tail = rest at h hSplit
      subst hSplit
      split at h
      · cases h
      · rename_i hRange
        split at h
        · rename_i hLast
          split at h
          · rename_i hPadding
            cases h
            refine ⟨_, rfl, ?_, ?_⟩
            · rw [encodeGroups_of_checks group hGroup marker hRange hLast hPadding]
              simp [hGroup]
            · rw [encodeGroups_of_checks group hGroup marker hRange hLast hPadding]
              exact ⟨rest, by simp⟩
          · cases h
        · -- a full group: the marker is 255 and the decoder goes on
          rename_i hFull
          have hZero : encMarker - marker = 0 := by simpa using hFull
          have hMarker : marker = encMarker := by
            rw [← encMarker_sub_padCount marker, hZero]
            rfl
          subst hMarker
          have hTake : group.take (UInt8.ofNat encGroupSize - (encMarker - encMarker)).toNat =
              group := by
            rw [show (UInt8.ofNat encGroupSize - (encMarker - encMarker)).toNat = 8 from rfl]
            exact List.take_of_length_le (by omega)
          rw [hTake] at h
          obtain ⟨val, hVal, hOffset, hPrefix⟩ :=
            ih rest.length (by simp only [List.length_append, List.length_cons] at hLen; omega) rest rfl h
          refine ⟨group ++ val, by simp [hVal], ?_, ?_⟩
          · rw [hOffset, encodeGroups_full group val hGroup]
            simp only [List.length_append, List.length_cons]
            omega
          · rw [encodeGroups_full group val hGroup]
            obtain ⟨t, ht⟩ := hPrefix
            exact ⟨t, by simp [← ht]⟩

theorem KeyDecodeString_KeyEncodeString (pre s suf : Bytes) :
    KeyDecodeString (KeyEncodeString pre s ++ suf) pre.length =
      .ok (s, pre.length + (encodeGroups s).length) := by
  rw [KeyDecodeString, if_pos (by simp [KeyEncodeString]), KeyEncodeString, List.append_assoc,
    List.drop_left, decodeGroups_encodeGroups]
  rfl

theorem KeyDecodeString_sound {buffer : Bytes} {offset : Nat} {s : Bytes} {offset' : Nat}
    (h : KeyDecodeString buffer offset = .ok (s, offset')) :
    offset ≤ buffer.length ∧ offset' = offset + (encodeGroups s).length ∧
      encodeGroups s <+: buffer.drop offset := by
  unfold KeyDecodeString at h
  split at h
  · rename_i hOffset
    obtain ⟨val, hVal, hEnd, hPrefix⟩ := decodeGroups_sound _ h
    simp only [List.nil_append] at hVal
    subst hVal
    exact ⟨hOffset, hEnd, hPrefix⟩
  · cases h

end PranaDB
