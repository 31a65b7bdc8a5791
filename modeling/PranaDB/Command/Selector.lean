import Mathlib

/-! # Selectors on JSON values (`command/parser/selector/selector.go`)

A selector is a path of field names and array indexes. `SelectorInjector.Select`
follows it into a value decoded from JSON, and `Inject` writes a value at it,
making the maps and arrays on the way. Go's maps and slices are references that
`Inject` updates in place; here it returns the updated value. Go's runtime
panics (an index below zero, a slice of negative length) are errors of their
own. Protobuf messages are left out.
-/

namespace PranaDB
set_option autoImplicit false

/-- A value decoded from JSON: `nil`, a scalar, a `map[string]interface{}` as
its entries and a `[]interface{}`. -/
inductive JsonValue (σ : Type) where
  | null
  | scalar (value : σ)
  | map (entries : List (String × JsonValue σ))
  | array (items : List (JsonValue σ))
deriving Repr

/-- A token of a selector; `ToSelector` sets one of the two pointers of the
source's `Path`. -/
inductive Path where
  | field (name : String)
  | numberIndex (idx : Int)
deriving DecidableEq, Repr

/-- An `Index` of the grammar: `@Number` or `@String`. -/
inductive Index where
  | number (n : Int)
  | string (s : String)
deriving DecidableEq, Repr

/-- What `ParseSelector` builds: a field, its indexes, and the selector after
the dot. -/
inductive SelectorAST where
  | mk (field : String) (index : List Index) (next : Option SelectorAST)
deriving Repr

abbrev SelectorInjector := List Path

def Index.toPath : Index → Path
  | .number n => .numberIndex n
  | .string s => .field s

def SelectorAST.ToSelector : SelectorAST → SelectorInjector
  | .mk field index next =>
    .field field :: index.map Index.toPath ++
      match next with
      | none => []
      | some next => next.ToSelector

/-- `ColumnSelector`: an optional meta key and the selector after it. -/
structure ColumnSelector where
  MetaKey : Option String
  Selector : SelectorInjector
deriving DecidableEq, Repr

/-- How `Select` and `Inject` fail. -/
inductive SelectorError where
  /-- "cannot use string to index map with number key at %q" -/
  | mapIndexedByNumber (at_ : SelectorInjector)
  /-- "cannot index array using %q at %q" -/
  | arrayIndexedByField (field : String) (at_ : SelectorInjector)
  /-- `ErrNotFound` -/
  | notFound (missingPath targetPath : SelectorInjector)
  /-- "Sink injectors that use array indexes must be declared in descending order of array index" -/
  | notDescending
  /-- Go's runtime panic on `vv[idx]` -/
  | indexOutOfRange (idx : Int)
  /-- Go's runtime panic on `make([]interface{}, len)` -/
  | makeSliceLenOutOfRange (len : Int)
deriving DecidableEq, Repr

variable {σ : Type}

def goIndex {α : Type} (vv : List α) (idx : Int) : Option α :=
  if idx < 0 then none else vv[idx.toNat]?

/-- The loop of `Select` over the tokens from the `i`-th. The type switch has
no default case: on a scalar or `nil` the loop goes on with the same value. -/
def SelectorInjector.selectLoop (s : SelectorInjector) : Nat → List Path → JsonValue σ →
    Except SelectorError (JsonValue σ)
  | _, [], obj => .ok obj
  | i, token :: tokens, obj =>
    match obj, token with
    | .map _, .numberIndex _ => .error (.mapIndexedByNumber (s.take (i + 1)))
    | .map vv, .field field =>
      match vv.lookup field with
      | none => .ok .null
      | some obj => s.selectLoop (i + 1) tokens obj
    | .array _, .field field => .error (.arrayIndexedByField field (s.take (i + 1)))
    | .array vv, .numberIndex idx =>
      if (vv.length : Int) ≤ idx then .error (.notFound (s.take (i + 1)) s)
      else
        match goIndex vv idx with
        | none => .error (.indexOutOfRange idx)
        | some obj => s.selectLoop (i + 1) tokens obj
    | _, _ => s.selectLoop (i + 1) tokens obj

def SelectorInjector.Select (s : SelectorInjector) (obj : JsonValue σ) : Except SelectorError (JsonValue σ) :=
  s.selectLoop 0 s obj

def setField (field : String) (value : JsonValue σ) : List (String × JsonValue σ) → List (String × JsonValue σ)
  | [] => [(field, value)]
  | (k, v) :: entries => if k = field then (k, value) :: entries else (k, v) :: setField field value entries

/-- The member `Inject` creates for the token after: an array of `1 + idx`
nils, or an empty map. -/
def newMember : Path → Except SelectorError (JsonValue σ)
  | .numberIndex idx =>
    if 1 + idx < 0 then .error (.makeSliceLenOutOfRange (1 + idx)) else .ok (.array (List.replicate (1 + idx).toNat .null))
  | .field _ => .ok (.map [])

/-- The member of a map `Inject` goes on into: the one stored under the field,
or a new one for the token after. -/
def mapMember (vv : List (String × JsonValue σ)) (field : String) (nextToken : Path) :
    Except SelectorError (JsonValue σ) :=
  match vv.lookup field with
  | some nestedObj => .ok nestedObj
  | none => newMember nextToken

/-- The member of an array slot `Inject` goes on into: the one stored, or a new
one for `nil`. -/
def slotMember (slot : JsonValue σ) (nextToken : Path) : Except SelectorError (JsonValue σ) :=
  match slot with
  | .null => newMember nextToken
  | nestedObj => .ok nestedObj

/-- The loop of `Inject` over the tokens from the `i`-th: the value with
`value` written at the rest of the path. -/
def SelectorInjector.injectLoop (s : SelectorInjector) (value : JsonValue σ) : Nat → List Path → JsonValue σ →
    Except SelectorError (JsonValue σ)
  | _, [], obj => .ok obj
  | i, token :: tokens, obj =>
    match obj, token with
    | .map _, .numberIndex _ => .error (.mapIndexedByNumber (s.take (i + 1)))
    | .map vv, .field field =>
      match tokens with
      | [] => .ok (.map (setField field value vv))
      | nextToken :: _ =>
        match mapMember vv field nextToken with
        | .error e => .error e
        | .ok nestedObj =>
          (s.injectLoop value (i + 1) tokens nestedObj).map fun nestedObj => .map (setField field nestedObj vv)
    | .array _, .field field => .error (.arrayIndexedByField field (s.take (i + 1)))
    | .array vv, .numberIndex idx =>
      if (vv.length : Int) ≤ idx then .error .notDescending
      else
        match goIndex vv idx with
        | none => .error (.indexOutOfRange idx)
        | some slot =>
          match tokens with
          | [] => .ok (.array (vv.set idx.toNat value))
          | nextToken :: _ =>
            match slotMember slot nextToken with
            | .error e => .error e
            | .ok nestedObj =>
              (s.injectLoop value (i + 1) tokens nestedObj).map fun nestedObj => .array (vv.set idx.toNat nestedObj)
    | _, _ => s.injectLoop value (i + 1) tokens obj

/-- `SelectorInjector.Inject`: the value after the writes. -/
def SelectorInjector.Inject (s : SelectorInjector) (obj value : JsonValue σ) : Except SelectorError (JsonValue σ) :=
  s.injectLoop value 0 s obj

/-! ## The value at a path -/

/-- The value at a path, where the path stays inside the value: `none` for a
missing key, an index out of range, a token of the wrong kind and a token
below a scalar or `nil`. -/
def JsonValue.get? : List Path → JsonValue σ → Option (JsonValue σ)
  | [], obj => some obj
  | .field field :: tokens, .map vv => (vv.lookup field).bind (get? tokens)
  | .numberIndex idx :: tokens, .array vv => (goIndex vv idx).bind (get? tokens)
  | _ :: _, _ => none

theorem goIndex_eq_some {α : Type} {vv : List α} {idx : Int} {obj : α} (h : goIndex vv idx = some obj) :
    0 ≤ idx ∧ idx < vv.length := by
  unfold goIndex at h
  split at h
  · cases h
  · obtain ⟨hLt, -⟩ := List.getElem?_eq_some_iff.mp h
    omega

theorem goIndex_of_neg {α : Type} (vv : List α) {idx : Int} (h : idx < 0) : goIndex vv idx = none := by
  rw [goIndex, if_pos h]

theorem lookup_cons (k field : String) (obj : JsonValue σ) (entries : List (String × JsonValue σ)) :
    ((k, obj) :: entries).lookup field = if field = k then some obj else entries.lookup field := by
  simp only [List.lookup]
  split <;> simp_all

@[simp] theorem lookup_cons_self (field : String) (obj : JsonValue σ) (entries : List (String × JsonValue σ)) :
    ((field, obj) :: entries).lookup field = some obj := by
  rw [lookup_cons, if_pos rfl]

theorem selectLoop_of_get? (s : SelectorInjector) :
    ∀ (i : Nat) (tokens : List Path) (obj v : JsonValue σ), obj.get? tokens = some v →
      s.selectLoop i tokens obj = .ok v
  | _, [], obj, v, h => by
    cases h
    rfl
  | i, .field field :: tokens, .map vv, v, h => by
    obtain ⟨nested, hLookup, hRest⟩ := Option.bind_eq_some_iff.mp h
    simp only [SelectorInjector.selectLoop, hLookup]
    exact selectLoop_of_get? s (i + 1) tokens nested v hRest
  | i, .numberIndex idx :: tokens, .array vv, v, h => by
    obtain ⟨nested, hIndex, hRest⟩ := Option.bind_eq_some_iff.mp h
    have hRange := goIndex_eq_some hIndex
    simp only [SelectorInjector.selectLoop, if_neg (Int.not_le.mpr hRange.2), hIndex]
    exact selectLoop_of_get? s (i + 1) tokens nested v hRest
  | _, .field _ :: _, .null, _, h | _, .field _ :: _, .scalar _, _, h | _, .field _ :: _, .array _, _, h
  | _, .numberIndex _ :: _, .null, _, h | _, .numberIndex _ :: _, .scalar _, _, h
  | _, .numberIndex _ :: _, .map _, _, h => by cases h

theorem Select_of_get? {s : SelectorInjector} {obj v : JsonValue σ} (h : obj.get? s = some v) :
    s.Select obj = .ok v :=
  selectLoop_of_get? s 0 s obj v h

/-! ## Where `Select` leaves the reference -/

theorem selectLoop_scalar (s : SelectorInjector) (v : σ) :
    ∀ (i : Nat) (tokens : List Path), s.selectLoop i tokens (.scalar v) = .ok (.scalar v)
  | _, [] => rfl
  | i, .field _ :: tokens | i, .numberIndex _ :: tokens => selectLoop_scalar s v (i + 1) tokens

/-- `Select` panics on an index below zero, which the lexer admits, and
returns a scalar for a path that goes on below it; `Inject` panics on an index
below zero. -/
theorem Select_Inject_negative_index_scalar :
    (∀ (field : String) (entries : List (String × JsonValue σ)) (items : List (JsonValue σ)) (idx : Int)
        (tokens : List Path), idx < 0 →
      SelectorInjector.Select (.field field :: .numberIndex idx :: tokens) (.map ((field, .array items) :: entries)) =
        .error (.indexOutOfRange idx)) ∧
    (∀ (field : String) (entries : List (String × JsonValue σ)) (v : σ) (tokens : List Path),
      SelectorInjector.Select (.field field :: tokens) (.map ((field, .scalar v) :: entries)) = .ok (.scalar v)) ∧
    (∀ (field : String) (idx : Int) (tokens : List Path) (value : JsonValue σ), idx < 0 →
      SelectorInjector.Inject (.field field :: .numberIndex idx :: tokens) (.map []) value =
        .error (if idx = -1 then .indexOutOfRange idx else .makeSliceLenOutOfRange (1 + idx))) := by
  refine ⟨?_, ?_, ?_⟩
  · intro field entries items idx tokens hNeg
    simp only [SelectorInjector.Select, SelectorInjector.selectLoop, lookup_cons_self,
      if_neg (by omega : ¬((items.length : Int) ≤ idx)), goIndex_of_neg items hNeg]
  · intro field entries v tokens
    simp only [SelectorInjector.Select, SelectorInjector.selectLoop, lookup_cons_self]
    exact selectLoop_scalar _ v 1 tokens
  · intro field idx tokens value hNeg
    by_cases hOne : idx = -1
    · subst hOne
      cases tokens <;> rfl
    · have hMake : 1 + idx < 0 := by omega
      simp [SelectorInjector.Inject, SelectorInjector.injectLoop, mapMember, List.lookup, newMember, hMake, hOne]

/-- The selectors of "a[-1]", "a.b" and "a[-2]" as `ParseSelector` builds them. -/
theorem Select_Inject_negative_index_scalar_at_a :
    SelectorInjector.Select (SelectorAST.mk "a" [.number (-1)] none).ToSelector
        (.map [("a", .array [.scalar (1 : Nat)])]) = .error (.indexOutOfRange (-1)) ∧
      SelectorInjector.Select (SelectorAST.mk "a" [] (some (.mk "b" [] none))).ToSelector
        (.map [("a", .scalar (5 : Nat))]) = .ok (.scalar 5) ∧
      SelectorInjector.Inject (SelectorAST.mk "a" [.number (-2)] none).ToSelector (.map [])
        (.scalar (1 : Nat)) = .error (.makeSliceLenOutOfRange (-1)) :=
  ⟨Select_Inject_negative_index_scalar.1 "a" [] [.scalar 1] (-1) [] (by decide),
    Select_Inject_negative_index_scalar.2.1 "a" [] 5 [.field "b"],
    (Select_Inject_negative_index_scalar.2.2 "a" (-2) [] (.scalar 1) (by decide)).trans rfl⟩

/-! ## Writing at a path -/

@[simp] theorem lookup_setField_self (field : String) (value : JsonValue σ) :
    ∀ entries : List (String × JsonValue σ), (setField field value entries).lookup field = some value
  | [] => lookup_cons_self field value []
  | (k, v) :: entries => by
    by_cases hk : k = field
    · rw [setField, if_pos hk, hk, lookup_cons_self]
    · rw [setField, if_neg hk, lookup_cons, if_neg (Ne.symm hk), lookup_setField_self field value entries]

theorem lookup_setField_of_ne {field other : String} (h : other ≠ field) (value : JsonValue σ) :
    ∀ entries : List (String × JsonValue σ), (setField field value entries).lookup other = entries.lookup other
  | [] => by rw [setField, lookup_cons, if_neg h]
  | (k, v) :: entries => by
    by_cases hk : k = field
    · subst hk
      rw [setField, if_pos rfl, lookup_cons, lookup_cons, if_neg h, if_neg h]
    · rw [setField, if_neg hk, lookup_cons, lookup_cons, lookup_setField_of_ne h value entries]

theorem goIndex_set_self {α : Type} {vv : List α} {idx : Int} (h0 : 0 ≤ idx) (hLt : idx < vv.length) (x : α) :
    goIndex (vv.set idx.toNat x) idx = some x := by
  rw [goIndex, if_neg (by omega), List.getElem?_set_self (by omega)]

theorem goIndex_set_of_ne {α : Type} (vv : List α) {idx other : Int} (h0 : 0 ≤ idx) (h : other ≠ idx) (x : α) :
    goIndex (vv.set idx.toNat x) other = goIndex vv other := by
  unfold goIndex
  split
  · rfl
  · rw [List.getElem?_set_ne (by omega)]

def Fresh : List Path → Prop
  | [] => True
  | .field _ :: tokens => Fresh tokens
  | .numberIndex idx :: tokens => 0 ≤ idx ∧ Fresh tokens

/-- `Inject` can write at the path in the value: each container on the way has
the token's kind, each index is in range, and the members it makes take the
rest of the path. -/
def Fits : List Path → JsonValue σ → Prop
  | [.field _], .map _ => True
  | .field field :: next :: tokens, .map vv =>
    ∃ nested, mapMember vv field next = .ok nested ∧ Fits (next :: tokens) nested
  | [.numberIndex idx], .array vv => ∃ slot, goIndex vv idx = some slot
  | .numberIndex idx :: next :: tokens, .array vv =>
    ∃ slot nested, goIndex vv idx = some slot ∧ slotMember slot next = .ok nested ∧ Fits (next :: tokens) nested
  | _, _ => False

theorem goIndex_replicate {idx : Int} (h0 : 0 ≤ idx) {len : Nat} (hLt : idx < len) :
    goIndex (List.replicate len (JsonValue.null : JsonValue σ)) idx = some .null := by
  rw [goIndex, if_neg (by omega), List.getElem?_replicate, if_pos (by omega)]

theorem fits_newMember : ∀ {next : Path} {tokens : List Path}, Fresh (next :: tokens) →
    ∃ member : JsonValue σ, newMember next = .ok member ∧ Fits (next :: tokens) member
  | .field _, [], _ => ⟨.map [], rfl, trivial⟩
  | .field _, next :: tokens, hFresh => ⟨.map [], rfl, fits_newMember hFresh⟩
  | .numberIndex idx, tokens, ⟨h0, hFresh⟩ => by
    refine ⟨.array (List.replicate (1 + idx).toNat .null), by simp [newMember]; omega, ?_⟩
    have hSlot : goIndex (List.replicate (1 + idx).toNat (JsonValue.null : JsonValue σ)) idx = some .null :=
      goIndex_replicate h0 (by omega)
    cases tokens with
    | nil => exact ⟨.null, hSlot⟩
    | cons next tokens =>
      obtain ⟨member, hMember, hFits⟩ := fits_newMember hFresh
      exact ⟨.null, member, hSlot, hMember, hFits⟩

theorem ne_null_of_fits {token : Path} {tokens : List Path} {obj : JsonValue σ} (h : Fits (token :: tokens) obj) :
    obj ≠ .null := by
  rintro rfl
  cases token <;> cases tokens <;> exact h

theorem slotMember_of_ne_null {slot : JsonValue σ} (h : slot ≠ .null) (nextToken : Path) :
    slotMember slot nextToken = .ok slot := by
  cases slot with
  | null => exact absurd rfl h
  | scalar _ | map _ | array _ => rfl

/-! ### What one write does -/

section Write

variable (s : SelectorInjector) (value : JsonValue σ)

theorem injectLoop_map_field_cons {i : Nat} {field : String} {next : Path} {tokens : List Path}
    {vv : List (String × JsonValue σ)} {obj' : JsonValue σ}
    (h : s.injectLoop value i (.field field :: next :: tokens) (.map vv) = .ok obj') :
    ∃ nested x, mapMember vv field next = .ok nested ∧ s.injectLoop value (i + 1) (next :: tokens) nested = .ok x ∧
      obj' = .map (setField field x vv) := by
  rw [SelectorInjector.injectLoop] at h
  cases hMember : mapMember vv field next with
  | error e => simp [hMember] at h
  | ok nested =>
    rw [hMember] at h
    cases hRest : s.injectLoop value (i + 1) (next :: tokens) nested with
    | error e => simp [hRest, Except.map] at h
    | ok x =>
      refine ⟨nested, x, rfl, hRest, ?_⟩
      simp only [hRest, Except.map, Except.ok.injEq] at h
      exact h.symm

theorem injectLoop_array_index_nil {i : Nat} {idx : Int} {vv : List (JsonValue σ)} {obj' : JsonValue σ}
    (h : s.injectLoop value i [.numberIndex idx] (.array vv) = .ok obj') :
    ∃ slot, goIndex vv idx = some slot ∧ obj' = .array (vv.set idx.toNat value) := by
  rw [SelectorInjector.injectLoop] at h
  split at h
  · cases h
  cases hSlot : goIndex vv idx with
  | none => simp [hSlot] at h
  | some slot =>
    simp only [hSlot, Except.ok.injEq] at h
    exact ⟨slot, rfl, h.symm⟩

theorem injectLoop_array_index_cons {i : Nat} {idx : Int} {next : Path} {tokens : List Path}
    {vv : List (JsonValue σ)} {obj' : JsonValue σ}
    (h : s.injectLoop value i (.numberIndex idx :: next :: tokens) (.array vv) = .ok obj') :
    ∃ slot nested x, goIndex vv idx = some slot ∧ slotMember slot next = .ok nested ∧
      s.injectLoop value (i + 1) (next :: tokens) nested = .ok x ∧ obj' = .array (vv.set idx.toNat x) := by
  rw [SelectorInjector.injectLoop] at h
  split at h
  · cases h
  cases hSlot : goIndex vv idx with
  | none => simp [hSlot] at h
  | some slot =>
    simp only [hSlot] at h
    cases hMember : slotMember slot next with
    | error e => simp [hMember] at h
    | ok nested =>
      rw [hMember] at h
      cases hRest : s.injectLoop value (i + 1) (next :: tokens) nested with
      | error e => simp [hRest, Except.map] at h
      | ok x =>
        refine ⟨slot, nested, x, rfl, hMember, hRest, ?_⟩
        simp only [hRest, Except.map, Except.ok.injEq] at h
        exact h.symm

theorem injectLoop_of_fits :
    ∀ (i : Nat) (tokens : List Path) (obj : JsonValue σ), Fits tokens obj →
      ∃ obj', s.injectLoop value i tokens obj = .ok obj' ∧ obj'.get? tokens = some value
  | _, [.field field], .map vv, _ => ⟨.map (setField field value vv), rfl, by simp [JsonValue.get?]⟩
  | i, .field field :: next :: tokens, .map vv, ⟨nested, hMember, hFits⟩ => by
    obtain ⟨x, hRun, hGet⟩ := injectLoop_of_fits (i + 1) (next :: tokens) nested hFits
    refine ⟨.map (setField field x vv), ?_, by simp [JsonValue.get?, hGet]⟩
    rw [SelectorInjector.injectLoop]
    simp only [hMember, hRun]
    rfl
  | _, [.numberIndex idx], .array vv, ⟨slot, hSlot⟩ => by
    have hRange := goIndex_eq_some hSlot
    refine ⟨.array (vv.set idx.toNat value), ?_, ?_⟩
    · rw [SelectorInjector.injectLoop]
      simp only [if_neg (Int.not_le.mpr hRange.2), hSlot]
    · simp [JsonValue.get?, goIndex_set_self hRange.1 hRange.2]
  | i, .numberIndex idx :: next :: tokens, .array vv, ⟨slot, nested, hSlot, hMember, hFits⟩ => by
    have hRange := goIndex_eq_some hSlot
    obtain ⟨x, hRun, hGet⟩ := injectLoop_of_fits (i + 1) (next :: tokens) nested hFits
    refine ⟨.array (vv.set idx.toNat x), ?_, ?_⟩
    · rw [SelectorInjector.injectLoop]
      simp only [if_neg (Int.not_le.mpr hRange.2), hSlot, hMember, hRun]
      rfl
    · simp [JsonValue.get?, goIndex_set_self hRange.1 hRange.2 x, hGet]

theorem injectLoop_map_field {i : Nat} {field : String} {tokens : List Path}
    {vv : List (String × JsonValue σ)} {obj' : JsonValue σ}
    (h : s.injectLoop value i (.field field :: tokens) (.map vv) = .ok obj') :
    ∃ x, obj' = .map (setField field x vv) := by
  cases tokens with
  | nil =>
    rw [SelectorInjector.injectLoop] at h
    exact ⟨value, (Except.ok.inj h).symm⟩
  | cons next tokens =>
    obtain ⟨-, x, -, -, rfl⟩ := injectLoop_map_field_cons s value h
    exact ⟨x, rfl⟩

theorem injectLoop_array_index {i : Nat} {idx : Int} {tokens : List Path} {vv : List (JsonValue σ)}
    {obj' : JsonValue σ} (h : s.injectLoop value i (.numberIndex idx :: tokens) (.array vv) = .ok obj') :
    ∃ slot x, goIndex vv idx = some slot ∧ obj' = .array (vv.set idx.toNat x) := by
  cases tokens with
  | nil =>
    obtain ⟨slot, hSlot, rfl⟩ := injectLoop_array_index_nil s value h
    exact ⟨slot, value, hSlot, rfl⟩
  | cons next tokens =>
    obtain ⟨slot, -, x, hSlot, -, -, rfl⟩ := injectLoop_array_index_cons s value h
    exact ⟨slot, x, hSlot, rfl⟩

end Write

/-! ## Writing several paths -/

theorem get?_field_cons {field : String} {tokens : List Path} {obj w : JsonValue σ}
    (h : obj.get? (.field field :: tokens) = some w) :
    ∃ vv u, obj = .map vv ∧ vv.lookup field = some u ∧ u.get? tokens = some w := by
  cases obj with
  | map vv =>
    obtain ⟨u, hLookup, hRest⟩ := Option.bind_eq_some_iff.mp h
    exact ⟨vv, u, rfl, hLookup, hRest⟩
  | null | scalar _ | array _ => cases h

theorem get?_index_cons {idx : Int} {tokens : List Path} {obj w : JsonValue σ}
    (h : obj.get? (.numberIndex idx :: tokens) = some w) :
    ∃ vv u, obj = .array vv ∧ goIndex vv idx = some u ∧ u.get? tokens = some w := by
  cases obj with
  | array vv =>
    obtain ⟨u, hIndex, hRest⟩ := Option.bind_eq_some_iff.mp h
    exact ⟨vv, u, rfl, hIndex, hRest⟩
  | null | scalar _ | map _ => cases h

theorem ne_null_of_get? {token : Path} {tokens : List Path} {obj w : JsonValue σ}
    (h : obj.get? (token :: tokens) = some w) : obj ≠ .null := by
  rintro rfl
  cases token <;> cases h

theorem mapMember_of_lookup {vv : List (String × JsonValue σ)} {field : String} {u : JsonValue σ}
    (h : vv.lookup field = some u) (nextToken : Path) : mapMember vv field nextToken = .ok u := by
  rw [mapMember, h]

theorem exists_map_of_fits {field : String} {tokens : List Path} {obj : JsonValue σ}
    (h : Fits (.field field :: tokens) obj) : ∃ vv, obj = .map vv := by
  cases obj with
  | map vv => exact ⟨vv, rfl⟩
  | null | scalar _ | array _ => cases tokens <;> exact h.elim

theorem exists_array_of_fits {idx : Int} {tokens : List Path} {obj : JsonValue σ}
    (h : Fits (.numberIndex idx :: tokens) obj) : ∃ vv slot, obj = .array vv ∧ goIndex vv idx = some slot := by
  cases obj with
  | array vv =>
    cases tokens with
    | nil =>
      obtain ⟨slot, hSlot⟩ := h
      exact ⟨vv, slot, rfl, hSlot⟩
    | cons next tokens =>
      obtain ⟨slot, -, hSlot, -⟩ := h
      exact ⟨vv, slot, rfl, hSlot⟩
  | null | scalar _ | map _ => cases tokens <;> exact h.elim

theorem fits_map_of_lookup {field : String} {tokens : List Path} {vv ww : List (String × JsonValue σ)}
    (h : ww.lookup field = vv.lookup field) (hFits : Fits (.field field :: tokens) (.map vv)) :
    Fits (.field field :: tokens) (.map ww) := by
  cases tokens with
  | nil => trivial
  | cons next tokens =>
    obtain ⟨nested, hMember, hRest⟩ := hFits
    refine ⟨nested, ?_, hRest⟩
    rw [mapMember, h]
    exact hMember

theorem fits_array_of_goIndex {idx : Int} {tokens : List Path} {vv ww : List (JsonValue σ)}
    (h : goIndex ww idx = goIndex vv idx) (hFits : Fits (.numberIndex idx :: tokens) (.array vv)) :
    Fits (.numberIndex idx :: tokens) (.array ww) := by
  cases tokens with
  | nil =>
    obtain ⟨slot, hSlot⟩ := hFits
    exact ⟨slot, h.trans hSlot⟩
  | cons next tokens =>
    obtain ⟨slot, nested, hSlot, hMember, hRest⟩ := hFits
    exact ⟨slot, nested, h.trans hSlot, hMember, hRest⟩

theorem fits_map_nil {field : String} {tokens : List Path} (h : Fresh tokens) :
    Fits (.field field :: tokens) (.map ([] : List (String × JsonValue σ))) := by
  cases tokens with
  | nil => trivial
  | cons next tokens =>
    obtain ⟨member, hMember, hFits⟩ : ∃ member : JsonValue σ, newMember next = .ok member ∧
        Fits (next :: tokens) member := fits_newMember h
    exact ⟨member, hMember, hFits⟩

/-- How two paths written one after the other part, the earlier first: after a
common part they reach two fields of one map, or two indexes of one array with
the later index below the earlier. Where they share a container they take it
as the same kind. -/
inductive Parts : List Path → List Path → Prop
  | field {f g : String} (p q : List Path) : f ≠ g → Parts (.field f :: p) (.field g :: q)
  | index {m n : Int} (p q : List Path) : n < m → Parts (.numberIndex m :: p) (.numberIndex n :: q)
  | cons (token : Path) {p q : List Path} : Parts p q → Parts (token :: p) (token :: q)

theorem Parts.exists_cons {p q : List Path} (h : Parts p q) : ∃ a b rs qs, p = a :: rs ∧ q = b :: qs := by
  cases h with
  | field p q _ => exact ⟨_, _, p, q, rfl, rfl⟩
  | index p q _ => exact ⟨_, _, p, q, rfl, rfl⟩
  | cons token _ => exact ⟨token, token, _, _, rfl, rfl⟩

theorem fits_newMember_of_parts {a b : Path} {rs qs : List Path} {mr mq : JsonValue σ}
    (hParts : Parts (a :: rs) (b :: qs)) (hr : newMember a = .ok mr) (hq : newMember b = .ok mq)
    (hFits : Fits (b :: qs) mq) : Fits (b :: qs) mr := by
  cases hParts with
  | field _ _ _ =>
    rw [newMember, Except.ok.injEq] at hr hq
    rw [← hr, hq]
    exact hFits
  | index _ _ hLt =>
    rename_i m n
    obtain ⟨vv, slot, rfl, hSlot⟩ := exists_array_of_fits hFits
    have h0 : 0 ≤ n := (goIndex_eq_some hSlot).1
    have hr' : mr = .array (List.replicate (1 + m).toNat .null) := by
      rw [newMember, if_neg (by omega), Except.ok.injEq] at hr
      exact hr.symm
    have hq' : JsonValue.array vv = .array (List.replicate (1 + n).toNat .null) := by
      rw [newMember, if_neg (by omega), Except.ok.injEq] at hq
      exact hq.symm
    rw [hr']
    apply fits_array_of_goIndex _ hFits
    rw [JsonValue.array.inj hq', goIndex_replicate h0 (by omega), goIndex_replicate h0 (by omega)]
  | cons _ _ =>
    rw [hr, Except.ok.injEq] at hq
    rw [hq]
    exact hFits

theorem fits_mapMember_of_parts {a b : Path} {rs qs : List Path} {vv : List (String × JsonValue σ)}
    {field : String} {mr mq : JsonValue σ} (hParts : Parts (a :: rs) (b :: qs))
    (hr : mapMember vv field a = .ok mr) (hq : mapMember vv field b = .ok mq) (hFits : Fits (b :: qs) mq) :
    Fits (b :: qs) mr := by
  cases hLookup : vv.lookup field with
  | none =>
    rw [mapMember, hLookup] at hr hq
    exact fits_newMember_of_parts hParts hr hq hFits
  | some u =>
    rw [mapMember_of_lookup hLookup, Except.ok.injEq] at hr hq
    rw [← hr, hq]
    exact hFits

theorem fits_slotMember_of_parts {a b : Path} {rs qs : List Path} {slot mr mq : JsonValue σ}
    (hParts : Parts (a :: rs) (b :: qs)) (hr : slotMember slot a = .ok mr) (hq : slotMember slot b = .ok mq)
    (hFits : Fits (b :: qs) mq) : Fits (b :: qs) mr := by
  by_cases hNull : slot = .null
  · subst hNull
    exact fits_newMember_of_parts hParts hr hq hFits
  · rw [slotMember_of_ne_null hNull, Except.ok.injEq] at hr hq
    rw [← hr, hq]
    exact hFits

section Writes

variable (s : SelectorInjector) (value : JsonValue σ)

theorem get?_injectLoop_of_parts {p q : List Path} (hParts : Parts p q) :
    ∀ {i : Nat} {obj obj' w : JsonValue σ}, obj.get? p = some w → s.injectLoop value i q obj = .ok obj' →
      obj'.get? p = some w := by
  induction hParts with
  | field p q hNe =>
    intro i obj obj' w hGet hRun
    obtain ⟨vv, u, rfl, hLookup, hRest⟩ := get?_field_cons hGet
    obtain ⟨x, rfl⟩ := injectLoop_map_field s value hRun
    simp only [JsonValue.get?, lookup_setField_of_ne hNe, hLookup, Option.bind_some, hRest]
  | @index m n p q hLt =>
    intro i obj obj' w hGet hRun
    obtain ⟨vv, u, rfl, hIndex, hRest⟩ := get?_index_cons hGet
    obtain ⟨slot, x, hSlot, rfl⟩ := injectLoop_array_index s value hRun
    have hNe : m ≠ n := by omega
    simp only [JsonValue.get?, goIndex_set_of_ne vv (goIndex_eq_some hSlot).1 hNe x, hIndex, Option.bind_some,
      hRest]
  | cons token hParts ih =>
    intro i obj obj' w hGet hRun
    obtain ⟨a, b, rs, qs, rfl, rfl⟩ := hParts.exists_cons
    cases token with
    | field field =>
      obtain ⟨vv, u, rfl, hLookup, hRest⟩ := get?_field_cons hGet
      obtain ⟨nested, x, hMember, hNested, rfl⟩ := injectLoop_map_field_cons s value hRun
      rw [mapMember_of_lookup hLookup, Except.ok.injEq] at hMember
      subst hMember
      simp only [JsonValue.get?, lookup_setField_self, Option.bind_some]
      exact ih hRest hNested
    | numberIndex idx =>
      obtain ⟨vv, u, rfl, hIndex, hRest⟩ := get?_index_cons hGet
      obtain ⟨slot, nested, x, hSlot, hMember, hNested, rfl⟩ := injectLoop_array_index_cons s value hRun
      rw [hIndex, Option.some.injEq] at hSlot
      subst hSlot
      rw [slotMember_of_ne_null (ne_null_of_get? hRest), Except.ok.injEq] at hMember
      subst hMember
      have hRange := goIndex_eq_some hIndex
      simp only [JsonValue.get?, goIndex_set_self hRange.1 hRange.2 x, Option.bind_some]
      exact ih hRest hNested

theorem fits_injectLoop_of_parts {r q : List Path} (hParts : Parts r q) :
    ∀ {i : Nat} {obj obj' : JsonValue σ}, Fits q obj → s.injectLoop value i r obj = .ok obj' → Fits q obj' := by
  induction hParts with
  | field r q hNe =>
    intro i obj obj' hFits hRun
    obtain ⟨vv, rfl⟩ := exists_map_of_fits hFits
    obtain ⟨x, rfl⟩ := injectLoop_map_field s value hRun
    exact fits_map_of_lookup (lookup_setField_of_ne (Ne.symm hNe) x vv) hFits
  | @index m n r q hLt =>
    intro i obj obj' hFits hRun
    obtain ⟨vv, -, rfl, -⟩ := exists_array_of_fits hFits
    obtain ⟨slot, x, hSlot, rfl⟩ := injectLoop_array_index s value hRun
    have hNe : n ≠ m := by omega
    exact fits_array_of_goIndex (goIndex_set_of_ne vv (goIndex_eq_some hSlot).1 hNe x) hFits
  | cons token hParts ih =>
    intro i obj obj' hFits hRun
    obtain ⟨a, b, rs, qs, rfl, rfl⟩ := hParts.exists_cons
    cases token with
    | field field =>
      obtain ⟨vv, rfl⟩ := exists_map_of_fits hFits
      obtain ⟨mq, hq, hFitsRest⟩ := hFits
      obtain ⟨mr, x, hr, hNested, rfl⟩ := injectLoop_map_field_cons s value hRun
      refine ⟨x, mapMember_of_lookup (lookup_setField_self field x vv) b, ?_⟩
      exact ih (fits_mapMember_of_parts hParts hr hq hFitsRest) hNested
    | numberIndex idx =>
      obtain ⟨vv, -, rfl, -⟩ := exists_array_of_fits hFits
      obtain ⟨slot, mq, hSlotQ, hq, hFitsRest⟩ := hFits
      obtain ⟨slot', mr, x, hSlot, hr, hNested, rfl⟩ := injectLoop_array_index_cons s value hRun
      rw [hSlotQ, Option.some.injEq] at hSlot
      subst hSlot
      have hFitsX := ih (fits_slotMember_of_parts hParts hr hq hFitsRest) hNested
      have hRange := goIndex_eq_some hSlotQ
      exact ⟨x, x, goIndex_set_self hRange.1 hRange.2 x, slotMember_of_ne_null (ne_null_of_fits hFitsX) b, hFitsX⟩

/-- The loop of `Sink.createKafkaMessage` that injects the value of each column
into the message value, stopping at the first error. -/
def injectAll (obj : JsonValue σ) : List (SelectorInjector × JsonValue σ) → Except SelectorError (JsonValue σ)
  | [] => .ok obj
  | (s, value) :: injections =>
    match s.Inject obj value with
    | .error e => .error e
    | .ok obj => injectAll obj injections

theorem injectAll_cons_of_ok {s : SelectorInjector} {obj obj' value : JsonValue σ}
    (h : s.Inject obj value = .ok obj') (injections : List (SelectorInjector × JsonValue σ)) :
    injectAll obj ((s, value) :: injections) = injectAll obj' injections := by
  rw [injectAll, h]

theorem injectAll_cons_inv {s : SelectorInjector} {obj obj' value : JsonValue σ}
    {injections : List (SelectorInjector × JsonValue σ)} (h : injectAll obj ((s, value) :: injections) = .ok obj') :
    ∃ obj₁, s.Inject obj value = .ok obj₁ ∧ injectAll obj₁ injections = .ok obj' := by
  cases hInject : s.Inject obj value with
  | error e =>
    rw [injectAll, hInject] at h
    cases h
  | ok obj₁ => exact ⟨obj₁, rfl, injectAll_cons_of_ok hInject injections ▸ h⟩

theorem get?_injectAll_of_parts {p : List Path} {w : JsonValue σ} :
    ∀ {obj obj' : JsonValue σ} {injections : List (SelectorInjector × JsonValue σ)},
      (∀ inj ∈ injections, Parts p inj.1) → obj.get? p = some w → injectAll obj injections = .ok obj' →
        obj'.get? p = some w
  | _, _, [], _, hGet, h => by
    rw [injectAll, Except.ok.injEq] at h
    exact h ▸ hGet
  | _, _, (s, value) :: injections, hParts, hGet, h => by
    obtain ⟨obj₁, hInject, hRun⟩ := injectAll_cons_inv h
    have hGet₁ := get?_injectLoop_of_parts s value (hParts _ List.mem_cons_self) hGet hInject
    exact get?_injectAll_of_parts (fun inj hInj => hParts inj (List.mem_cons_of_mem _ hInj)) hGet₁ hRun

theorem injectAll_get? : ∀ {obj : JsonValue σ} {injections : List (SelectorInjector × JsonValue σ)},
    (∀ inj ∈ injections, Fits inj.1 obj) → injections.Pairwise (fun a b => Parts a.1 b.1) →
      ∃ obj', injectAll obj injections = .ok obj' ∧ ∀ inj ∈ injections, obj'.get? inj.1 = some inj.2
  | obj, [], _, _ => ⟨obj, rfl, by simp⟩
  | obj, (s, value) :: injections, hFits, hPairwise => by
    obtain ⟨hParts, hPairwise⟩ := List.pairwise_cons.mp hPairwise
    obtain ⟨obj₁, hInject, hGet⟩ := injectLoop_of_fits s value 0 s obj (hFits _ List.mem_cons_self)
    have hFits₁ : ∀ inj ∈ injections, Fits inj.1 obj₁ := fun inj hInj =>
      fits_injectLoop_of_parts s value (hParts inj hInj) (hFits inj (List.mem_cons_of_mem _ hInj)) hInject
    obtain ⟨obj', hRun, hGets⟩ := injectAll_get? hFits₁ hPairwise
    refine ⟨obj', (injectAll_cons_of_ok hInject injections).trans hRun, ?_⟩
    intro inj hInj
    rcases List.mem_cons.mp hInj with rfl | hInj
    · exact get?_injectAll_of_parts hParts hGet hRun
    · exact hGets inj hInj

theorem injectAll_select {injections : List (SelectorInjector × JsonValue σ)}
    (hPaths : ∀ inj ∈ injections, ∃ field tokens, inj.1 = .field field :: tokens ∧ Fresh tokens)
    (hParts : injections.Pairwise fun a b => Parts a.1 b.1) :
    ∃ obj, injectAll (.map []) injections = .ok obj ∧ ∀ inj ∈ injections, inj.1.Select obj = .ok inj.2 := by
  have hFits : ∀ inj ∈ injections, Fits inj.1 (.map ([] : List (String × JsonValue σ))) := by
    intro inj hInj
    obtain ⟨field, tokens, hPath, hFresh⟩ := hPaths inj hInj
    rw [hPath]
    exact fits_map_nil hFresh
  obtain ⟨obj, hRun, hGets⟩ := injectAll_get? hFits hParts
  exact ⟨obj, hRun, fun inj hInj => Select_of_get? (hGets inj hInj)⟩

example : injectAll (.map []) [([.field "a", .numberIndex 1], .scalar (1 : Nat)),
    ([.field "a", .numberIndex 0, .field "b"], .scalar 2)] =
      .ok (.map [("a", .array [.map [("b", .scalar 2)], .scalar 1])]) := rfl

end Writes

end PranaDB
