import Mathlib

/-! # Lexicographic comparison of concatenated codewords

`compare` on lists is the unsigned byte-string order of an ordered key-value
store: the first differing element decides, and a proper prefix comes first.
A key built by concatenating codewords compares like the tuple it encodes as
soon as each codeword family is order preserving and prefix free; this module
proves that once, for any element type and any family of codes. It also
proves that the successor of a word at its last element below the top bounds,
among the words at least as long, exactly the extensions of the word
(`interval_iff_prefix`).
-/

namespace ListOrder
set_option autoImplicit false

variable {α : Type} [Ord α]

theorem compare_append_left [Std.ReflOrd α] (p a b : List α) :
    compare (p ++ a) (p ++ b) = compare a b := by
  induction p with
  | nil => rfl
  | cons x p ih => simp only [List.cons_append, List.compare_cons_cons, Std.ReflOrd.compare_self,
      Ordering.eq_then, ih]

theorem compare_append_of_length_eq {a b : List α} (h : a.length = b.length) (x y : List α) :
    compare (a ++ x) (b ++ y) = (compare a b).then (compare x y) := by
  induction a generalizing b with
  | nil =>
    cases b with
    | nil => rfl
    | cons => simp at h
  | cons u a ih =>
    cases b with
    | nil => simp at h
    | cons v b =>
      simp only [List.cons_append, List.compare_cons_cons, Ordering.then_assoc]
      rw [ih (by simpa using h)]

theorem compare_append_of_incomparable [Std.LawfulEqOrd α] {a b : List α}
    (ha : ¬ a <+: b) (hb : ¬ b <+: a) (x y : List α) :
    compare (a ++ x) (b ++ y) = compare a b := by
  induction a generalizing b with
  | nil => exact absurd List.nil_prefix ha
  | cons u a ih =>
    cases b with
    | nil => exact absurd List.nil_prefix hb
    | cons v b =>
      simp only [List.cons_append, List.compare_cons_cons]
      by_cases huv : u = v
      · subst huv
        have hab : ¬ a <+: b := fun h => ha (List.prefix_cons_inj u |>.mpr h)
        have hba : ¬ b <+: a := fun h => hb (List.prefix_cons_inj u |>.mpr h)
        rw [ih hab hba]
      · have hne : compare u v ≠ .eq := fun h => huv (Std.LawfulEqOrd.eq_of_compare h)
        cases hc : compare u v with
        | lt => rfl
        | gt => rfl
        | eq => exact absurd hc hne

theorem compare_eq_eq_iff [Std.LawfulEqOrd α] {a b : List α} : compare a b = .eq ↔ a = b :=
  Std.LawfulEqOrd.compare_eq_iff_eq

theorem compare_replicate_ne_gt {z : α} (hz : ∀ x, compare z x ≠ .gt) (l : List α) :
    compare (List.replicate l.length z) l ≠ .gt := by
  induction l with
  | nil => simp
  | cons x l ih =>
    simp only [List.length_cons, List.replicate_succ, List.compare_cons_cons]
    cases hc : compare z x with
    | lt => simp
    | eq => simpa using ih
    | gt => exact absurd hc (hz x)

section Successor

variable [Std.LawfulEqOrd α] [Std.TransOrd α]

omit [Std.TransOrd α] in
theorem compare_prefix_ne_gt (p x : List α) : compare p (p ++ x) ≠ .gt := by
  have h := compare_append_left p [] x
  rw [List.append_nil] at h
  rw [h]
  cases x <;> simp [List.compare_nil_cons]

theorem prefix_of_compare_ne_gt {T z : List α} (hT : ∀ t ∈ T, ∀ x, compare x t ≠ .gt)
    (hLen : T.length ≤ z.length) (h : compare T z ≠ .gt) : T <+: z := by
  induction T generalizing z with
  | nil => exact List.nil_prefix
  | cons t T ih =>
    cases z with
    | nil => simp at hLen
    | cons u z =>
      rw [List.compare_cons_cons] at h
      have hut : compare u t ≠ .gt := hT t List.mem_cons_self u
      have htu : compare t u = .eq := by
        cases hc : compare t u with
        | lt => exact absurd (Std.OrientedCmp.gt_iff_lt.mpr hc) hut
        | eq => rfl
        | gt =>
          rw [hc] at h
          exact absurd rfl h
      obtain rfl := Std.LawfulEqOrd.eq_of_compare htu
      rw [htu, Ordering.eq_then] at h
      have hRest := ih (fun t' ht' => hT t' (List.mem_cons_of_mem t ht')) (by simpa using hLen) h
      exact (List.prefix_cons_inj t).mpr hRest

theorem compare_ne_lt_of_least {B z : List α} (hB : ∀ m ∈ B, ∀ x, compare m x ≠ .gt)
    (hLen : B.length ≤ z.length) : compare z B ≠ .lt := by
  induction B generalizing z with
  | nil => cases z <;> simp [List.compare_cons_nil]
  | cons m B ih =>
    cases z with
    | nil => simp at hLen
    | cons u z =>
      rw [List.compare_cons_cons]
      have hmu : compare m u ≠ .gt := hB m List.mem_cons_self u
      cases hc : compare u m with
      | lt => exact absurd (Std.OrientedCmp.gt_iff_lt.mpr hc) hmu
      | eq =>
        rw [Ordering.eq_then]
        exact ih (fun m' hm' => hB m' (List.mem_cons_of_mem m hm')) (by simpa using hLen)
      | gt => simp

omit [Std.TransOrd α] in
theorem compare_succ_lt {b c : α} (hbc : compare b c = .lt) (a T B : List α) :
    compare (a ++ b :: T) (a ++ c :: B) = .lt := by
  rw [compare_append_left, List.compare_cons_cons, hbc]
  rfl

theorem interval_iff_prefix {a T B : List α} {b c : α} (hbc : compare b c = .lt)
    (hNext : ∀ d, compare b d = .lt → compare d c ≠ .lt) (hT : ∀ t ∈ T, ∀ x, compare x t ≠ .gt)
    (hB : ∀ m ∈ B, ∀ x, compare m x ≠ .gt) (hLen : T.length = B.length) {x : List α}
    (hx : (a ++ b :: T).length ≤ x.length) :
    (compare (a ++ b :: T) x ≠ .gt ∧ compare x (a ++ c :: B) = .lt) ↔ (a ++ b :: T) <+: x := by
  constructor
  · rintro ⟨hLow, hHigh⟩
    by_cases ha : a <+: x
    · obtain ⟨y, rfl⟩ := ha
      rw [compare_append_left] at hLow hHigh
      cases y with
      | nil =>
        simp only [List.length_append, List.length_cons, List.length_nil] at hx
        omega
      | cons d z =>
        have hz : B.length ≤ z.length := by
          simp only [List.length_append, List.length_cons] at hx
          omega
        rw [List.compare_cons_cons] at hLow hHigh
        cases hbd : compare b d with
        | gt =>
          rw [hbd] at hLow
          exact absurd rfl hLow
        | eq =>
          obtain rfl := Std.LawfulEqOrd.eq_of_compare hbd
          rw [hbd, Ordering.eq_then] at hLow
          have hTz := prefix_of_compare_ne_gt hT (hLen ▸ hz) hLow
          exact (List.prefix_append_right_inj a).mpr ((List.prefix_cons_inj b).mpr hTz)
        | lt =>
          exfalso
          cases hdc : compare d c with
          | lt => exact hNext d hbd hdc
          | eq =>
            rw [hdc, Ordering.eq_then] at hHigh
            exact compare_ne_lt_of_least hB hz hHigh
          | gt =>
            rw [hdc] at hHigh
            cases hHigh
    · -- `x` leaves `a` before its end, where the two bounds still agree
      exfalso
      have hxa : ¬ x <+: a := by
        intro h
        have := h.length_le
        simp only [List.length_append, List.length_cons] at hx
        omega
      have hLow' := compare_append_of_incomparable ha hxa (b :: T) []
      have hHigh' := compare_append_of_incomparable hxa ha [] (c :: B)
      rw [List.append_nil] at hLow' hHigh'
      rw [hLow'] at hLow
      rw [hHigh'] at hHigh
      exact hLow (Std.OrientedCmp.gt_iff_lt.mpr hHigh)
  · rintro ⟨r, rfl⟩
    refine ⟨compare_prefix_ne_gt _ _, ?_⟩
    rw [List.append_assoc, List.cons_append]
    exact compare_succ_lt hbc a (T ++ r) B

end Successor

section Codes

variable {β γ : Type} (enc : γ → β → List α) (ok : γ → β → Prop) (cmp : β → β → Ordering)

def encodeAll : List γ → List β → List α
  | t :: ts, b :: bs => enc t b ++ encodeAll ts bs
  | _, _ => []

omit [Ord α] in
@[simp] theorem encodeAll_cons (t : γ) (ts : List γ) (b : β) (bs : List β) :
    encodeAll enc (t :: ts) (b :: bs) = enc t b ++ encodeAll enc ts bs := rfl

omit [Ord α] in
@[simp] theorem encodeAll_nil_left (bs : List β) : encodeAll enc [] bs = [] := rfl

/-- At every type `t` the code of the well-typed values is an order embedding
for `cmp` and no codeword is a prefix of another one. -/
structure IsOrderCode : Prop where
  compare_enc : ∀ t a b, ok t a → ok t b → compare (enc t a) (enc t b) = cmp a b
  prefix_free : ∀ t a b, ok t a → ok t b → enc t a <+: enc t b → a = b

variable {enc ok cmp}

theorem compare_encodeAll [Std.LawfulEqOrd α] (hCode : IsOrderCode enc ok cmp)
    {ts : List γ} {xs ys : List β} (hx : List.Forall₂ ok ts xs) (hy : List.Forall₂ ok ts ys)
    (u v : List α) :
    compare (encodeAll enc ts xs ++ u) (encodeAll enc ts ys ++ v) =
      (List.compareLex cmp xs ys).then (compare u v) := by
  induction hx generalizing ys with
  | nil =>
    cases hy
    rfl
  | @cons t a ts as hta _ ih =>
    cases hy with
    | @cons _ b _ bs htb hbs =>
      simp only [encodeAll_cons, List.append_assoc, List.compareLex_cons_cons]
      by_cases hab : enc t a = enc t b
      · have hEq : a = b := hCode.prefix_free t a b hta htb (hab ▸ List.prefix_refl _)
        subst hEq
        have hSelf : cmp a a = .eq := by
          rw [← hCode.compare_enc t a a hta hta]
          exact Std.ReflOrd.compare_self
        rw [compare_append_left, ih hbs, hSelf, Ordering.eq_then]
      · have hNotAB : ¬ enc t a <+: enc t b := fun h => hab (by
          rw [hCode.prefix_free t a b hta htb h])
        have hNotBA : ¬ enc t b <+: enc t a := fun h => hab (by
          rw [hCode.prefix_free t b a htb hta h])
        have hCmp : cmp a b ≠ .eq := by
          rw [← hCode.compare_enc t a b hta htb]
          exact fun h => hab (compare_eq_eq_iff.mp h)
        rw [compare_append_of_incomparable hNotAB hNotBA, hCode.compare_enc t a b hta htb]
        cases hc : cmp a b with
        | lt => rfl
        | gt => rfl
        | eq => exact absurd hc hCmp

end Codes

end ListOrder
