import PranaDB.Common.StringKeyEncoding

/-! # The group encoding is memcomparable

Comparing two encoded strings byte by byte is comparing the strings, also when
one is a prefix of the other, when they contain zero bytes, and when a length
is a multiple of eight; and no encoding is a proper prefix of another one. The
zero padding sorts below any data byte of the same position, and the marker
after a last group grows with the number of data bytes in it.
-/

namespace PranaDB
set_option autoImplicit false

theorem then_gt_of_ne_lt {o : Ordering} (h : o ≠ .lt) : o.then .gt = .gt := by
  cases o <;> simp_all

theorem then_lt_of_ne_gt {o : Ordering} (h : o ≠ .gt) : o.then .lt = .lt := by
  cases o <;> simp_all

theorem zero_byte_least (x : UInt8) : compare (0 : UInt8) x ≠ .gt := by
  rw [BigEndian.compare_byte, Nat.compare_ne_gt]
  exact Nat.zero_le _

theorem compare_zeros_ne_gt (l : Bytes) : compare (List.replicate l.length (0 : UInt8)) l ≠ .gt :=
  ListOrder.compare_replicate_ne_gt zero_byte_least l

theorem compare_ne_lt_zeros (l : Bytes) : compare l (List.replicate l.length (0 : UInt8)) ≠ .lt := by
  rw [Std.OrientedOrd.eq_swap]
  intro h
  exact compare_zeros_ne_gt l (by simpa using h)

theorem toNat_marker (p : Nat) (hp : p ≤ 8) : ((255 : UInt8) - UInt8.ofNat p).toNat = 255 - p := by
  match p, hp with
  | 0, _ | 1, _ | 2, _ | 3, _ | 4, _ | 5, _ | 6, _ | 7, _ | 8, _ => rfl

theorem nine_le_length_encodeGroups (s : Bytes) : 9 ≤ (encodeGroups s).length := by
  induction s using groups_induction with
  | last data hData => rw [length_encodeGroups_last data hData]
  | full group rest hGroup _ =>
    rw [encodeGroups_full group rest hGroup]
    simp only [List.length_append, List.length_cons]
    omega

theorem compare_cons_nonempty_nil {l : Bytes} (h : l ≠ []) : compare l [] = .gt := by
  cases l with
  | nil => exact absurd rfl h
  | cons => rfl

theorem compare_encodeGroups_full_last (group rest t : Bytes) (hGroup : group.length = 8)
    (ht : t.length < 8) :
    compare (encodeGroups (group ++ rest)) (encodeGroups t) = compare (group ++ rest) t := by
  have hLastLen : (t ++ List.replicate (8 - t.length) 0).length = 8 := by
    simp only [List.length_append, List.length_replicate]
    omega
  have hMarker : compare encMarker (255 - UInt8.ofNat (8 - t.length)) = .gt := by
    rw [BigEndian.compare_byte, toNat_marker _ (by omega), Nat.compare_eq_gt]
    simp only [encMarker, UInt8.reduceToNat]
    omega
  obtain ⟨g1, g2, rfl, hg1, hg2⟩ : ∃ g1 g2 : Bytes, group = g1 ++ g2 ∧ g1.length = t.length ∧
      g2.length = 8 - t.length :=
    ⟨group.take t.length, group.drop t.length, (List.take_append_drop _ _).symm,
      by simp only [List.length_take]; omega, by simp only [List.length_drop]; omega⟩
  have hTail : g2 ++ rest ≠ [] := by
    intro h
    have := congrArg List.length h
    simp only [List.length_append, List.length_nil] at this
    omega
  have hLeft : compare (encodeGroups (g1 ++ g2 ++ rest)) (encodeGroups t) =
      ((compare g1 t).then (compare g2 (List.replicate g2.length 0))).then .gt := by
    rw [encodeGroups_full _ rest hGroup, encodeGroups_last t ht,
      ListOrder.compare_append_of_length_eq (by rw [hGroup, hLastLen]), List.compare_cons_cons,
      hMarker, Ordering.gt_then, ListOrder.compare_append_of_length_eq hg1, hg2]
  have hRight : compare (g1 ++ g2 ++ rest) t = (compare g1 t).then .gt := by
    have h := ListOrder.compare_append_of_length_eq hg1 (g2 ++ rest) []
    rw [List.append_nil, compare_cons_nonempty_nil hTail] at h
    rw [List.append_assoc, h]
  rw [hLeft, hRight, Ordering.then_assoc, then_gt_of_ne_lt (compare_ne_lt_zeros g2)]

theorem compare_encodeGroups_last_of_length_lt (s t : Bytes) (hs : s.length < t.length)
    (ht : t.length < 8) :
    compare (encodeGroups s) (encodeGroups t) = compare s t := by
  have hsLen : s.length < 8 := by omega
  have hMarker : compare (255 - UInt8.ofNat (8 - s.length) : UInt8)
      (255 - UInt8.ofNat (8 - t.length)) = .lt := by
    rw [BigEndian.compare_byte, toNat_marker _ (by omega), toNat_marker _ (by omega),
      Nat.compare_eq_lt]
    omega
  have hLastLen : (s ++ List.replicate (8 - s.length) (0 : UInt8)).length =
      (t ++ List.replicate (8 - t.length) 0).length := by
    simp only [List.length_append, List.length_replicate]
    omega
  have hLeft : compare (encodeGroups s) (encodeGroups t) =
      (compare (s ++ List.replicate (8 - s.length) 0) (t ++ List.replicate (8 - t.length) 0)).then
        .lt := by
    rw [encodeGroups_last s hsLen, encodeGroups_last t ht,
      ListOrder.compare_append_of_length_eq hLastLen, List.compare_cons_cons, hMarker,
      List.compare_nil_nil, Ordering.then_eq]
  rw [hLeft]
  generalize hq : 8 - t.length = q
  obtain ⟨t1, t2, rfl, ht1, ht2⟩ : ∃ t1 t2 : Bytes, t = t1 ++ t2 ∧ s.length = t1.length ∧
      t2 ≠ [] :=
    ⟨t.take s.length, t.drop s.length, (List.take_append_drop _ _).symm,
      by simp only [List.length_take]; omega, by
        intro h
        have := congrArg List.length h
        simp only [List.length_drop, List.length_nil] at this
        omega⟩
  have hZeros : (List.replicate (8 - s.length) (0 : UInt8)).length = (t2 ++ List.replicate q 0).length := by
    simp only [List.length_append, List.length_replicate] at hq ht ⊢
    omega
  have hRight : compare s (t1 ++ t2) = (compare s t1).then .lt := by
    have h := ListOrder.compare_append_of_length_eq ht1 [] t2
    rw [List.append_nil] at h
    rw [h]
    cases t2 with
    | nil => exact absurd rfl ht2
    | cons => rfl
  rw [hRight, List.append_assoc, ListOrder.compare_append_of_length_eq ht1, Ordering.then_assoc,
    then_lt_of_ne_gt (by
      have h := compare_zeros_ne_gt (t2 ++ List.replicate q 0)
      rwa [← hZeros, List.length_replicate] at h)]

theorem compare_encodeGroups (s t : Bytes) :
    compare (encodeGroups s) (encodeGroups t) = compare s t := by
  induction s using groups_induction generalizing t with
  | last s hs =>
    by_cases ht : t.length < 8
    · rcases Nat.lt_trichotomy s.length t.length with hLt | hEq | hGt
      · exact compare_encodeGroups_last_of_length_lt s t hLt ht
      · rw [encodeGroups_last s hs, encodeGroups_last t ht, hEq,
          ListOrder.compare_append_of_length_eq (by simp only [List.length_append,
            List.length_replicate, hEq]),
          ListOrder.compare_append_of_length_eq hEq, Std.ReflOrd.compare_self (a := List.replicate _ _),
          Std.ReflOrd.compare_self (a := [_]), Ordering.then_eq, Ordering.then_eq]
      · rw [Std.OrientedOrd.eq_swap, compare_encodeGroups_last_of_length_lt t s hGt hs,
          ← Std.OrientedOrd.eq_swap]
    · -- `t` has a full first group
      have hSplit := List.take_append_drop 8 t
      have hTake : (t.take 8).length = 8 := by
        simp only [List.length_take]
        omega
      rw [← hSplit, Std.OrientedOrd.eq_swap, compare_encodeGroups_full_last _ _ s hTake hs,
        ← Std.OrientedOrd.eq_swap]
  | full group rest hGroup ih =>
    by_cases ht : t.length < 8
    · exact compare_encodeGroups_full_last group rest t hGroup ht
    · have hSplit := List.take_append_drop 8 t
      have hTake : (t.take 8).length = 8 := by
        simp only [List.length_take]
        omega
      rw [← hSplit, encodeGroups_full group rest hGroup, encodeGroups_full _ _ hTake,
        ListOrder.compare_append_of_length_eq (by rw [hGroup, hTake]), List.compare_cons_cons,
        Std.ReflOrd.compare_self, Ordering.eq_then, ih,
        ListOrder.compare_append_of_length_eq (by rw [hGroup, hTake])]

theorem eq_of_prefix_encodeGroups (s t : Bytes) (h : encodeGroups s <+: encodeGroups t) : s = t := by
  induction s using groups_induction generalizing t with
  | last s hs =>
    by_cases ht : t.length < 8
    · -- two last groups of nine bytes each
      have hEq : encodeGroups s = encodeGroups t :=
        h.eq_of_length (by rw [length_encodeGroups_last s hs, length_encodeGroups_last t ht])
      rw [encodeGroups_last s hs, encodeGroups_last t ht] at hEq
      obtain ⟨hData, hMarkers⟩ := List.append_inj' hEq rfl
      have hPad : 8 - s.length = 8 - t.length := by
        have := congrArg UInt8.toNat (List.singleton_inj.mp hMarkers)
        rw [toNat_marker _ (by omega), toNat_marker _ (by omega)] at this
        omega
      rw [hPad] at hData
      exact List.append_inj_left' hData (by simp)
    · -- a last group against a full one: the ninth bytes are `255 - p` and 255
      have hTake : (t.take 8).length = 8 := by
        simp only [List.length_take]
        omega
      rw [← List.take_append_drop 8 t, encodeGroups_full _ _ hTake] at h
      have hNine : encodeGroups s = t.take 8 ++ [encMarker] := by
        rw [List.prefix_iff_eq_take.mp h, length_encodeGroups_last s hs,
          List.take_append, hTake, List.take_of_length_le (by omega)]
        rfl
      rw [encodeGroups_last s hs] at hNine
      have hMarker := congrArg UInt8.toNat
        (List.singleton_inj.mp (List.append_inj' hNine rfl).2)
      rw [toNat_marker _ (by omega)] at hMarker
      simp only [encMarker, UInt8.reduceToNat] at hMarker
      omega
  | full group rest hGroup ih =>
    by_cases ht : t.length < 8
    · -- a full group is longer than any last group
      have hLen := h.length_le
      rw [encodeGroups_full group rest hGroup, length_encodeGroups_last t ht] at hLen
      have := nine_le_length_encodeGroups rest
      simp only [List.length_append, List.length_cons] at hLen
      omega
    · have hTake : (t.take 8).length = 8 := by
        simp only [List.length_take]
        omega
      rw [← List.take_append_drop 8 t, encodeGroups_full group rest hGroup,
        encodeGroups_full _ _ hTake] at h
      obtain ⟨u, hu⟩ := h
      rw [List.append_assoc] at hu
      obtain ⟨hHead, hTail⟩ := List.append_inj hu (by rw [hGroup, hTake])
      have hRest : encodeGroups rest <+: encodeGroups (t.drop 8) :=
        ⟨u, by simpa using hTail⟩
      rw [← List.take_append_drop 8 t, hHead, ih _ hRest]

end PranaDB
