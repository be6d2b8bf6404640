-- SUMMARY: JSON documents compared without regard to the order of members, and objects given by rows of optional members.
import Mathlib.Data.List.Forall2
import ZigbeeService.Lib.Json

/-!
# Equal documents

Two JSON documents say the same when they differ at most in the order of their members. An object
that is put together member by member is compared with another of the same keys row by row.
-/

namespace CLib

-- ---------------------------------------------------------------------------
-- The same document
-- ---------------------------------------------------------------------------

/-- The same document, up to the order in which objects list their members. -/
inductive SameJson : Json → Json → Prop where
  | null : SameJson .null .null
  | boolean (b : Bool) : SameJson (.boolean b) (.boolean b)
  | number (x : Rat) : SameJson (.number x) (.number x)
  | string (s : Text) : SameJson (.string s) (.string s)
  | array {xs ys : List Json} : List.Forall₂ SameJson xs ys → SameJson (.array xs) (.array ys)
  | object {ms ns : Members} :
      (∀ key, Option.Rel SameJson (assocGet key ms) (assocGet key ns)) →
      SameJson (.object ms) (.object ns)

@[simp] theorem sameJson_boolean_iff {b c : Bool} :
    SameJson (.boolean b) (.boolean c) ↔ b = c := by
  constructor
  · rintro ⟨⟩
    rfl
  · rintro rfl
    exact .boolean b

@[simp] theorem sameJson_number_iff {x y : Rat} : SameJson (.number x) (.number y) ↔ x = y := by
  constructor
  · rintro ⟨⟩
    rfl
  · rintro rfl
    exact .number x

@[simp] theorem sameJson_string_iff {s t : Text} :
    SameJson (.string s) (.string t) ↔ s = t := by
  constructor
  · rintro ⟨⟩
    rfl
  · rintro rfl
    exact .string s

theorem sameJson_array_iff {xs ys : List Json} :
    SameJson (.array xs) (.array ys) ↔ List.Forall₂ SameJson xs ys := by
  constructor
  · rintro ⟨⟩
    assumption
  · exact .array

theorem sameJson_object_iff {ms ns : Members} :
    SameJson (.object ms) (.object ns) ↔
      ∀ key, Option.Rel SameJson (assocGet key ms) (assocGet key ns) := by
  constructor
  · rintro ⟨⟩
    assumption
  · exact .object

/-- Arrays of strings are the same when the strings are. -/
theorem sameJson_strings_iff {ss ts : List Text} :
    SameJson (.array (ss.map .string)) (.array (ts.map .string)) ↔ ss = ts := by
  rw [sameJson_array_iff, List.forall₂_map_left_iff, List.forall₂_map_right_iff]
  simp only [sameJson_string_iff, List.forall₂_eq_eq_eq]

-- ---------------------------------------------------------------------------
-- Optional members
-- ---------------------------------------------------------------------------

section Rows

variable {rows rows' : List (Text × Option Json)}

/-- The members that are set one after the other, those without a value left out. -/
def membersOf (rows : List (Text × Option Json)) : Members :=
  rows.foldl (fun obj row => jsonObjectSetValue obj row.1 row.2) []

theorem assocGet_jsonObjectSetValue (key name : Text) (v : Option Json) (obj : Members) :
    assocGet key (jsonObjectSetValue obj name v) =
      if key = name then v.or (assocGet key obj) else assocGet key obj := by
  cases v with
  | none =>
    rw [jsonObjectSetValue, Option.none_or, ite_self]
  | some v =>
    rw [jsonObjectSetValue, assocGet_assocSet, Option.some_or]

/-- With distinct keys, a member is what its row says. -/
theorem assocGet_membersOf (h : (rows.map Prod.fst).Nodup) (key : Text) :
    assocGet key (membersOf rows) = (assocGet key rows).join := by
  have hfold : ∀ obj : Members, (∀ key ∈ rows.map Prod.fst, assocGet key obj = none) →
      assocGet key (rows.foldl (fun obj row => jsonObjectSetValue obj row.1 row.2) obj) =
        (assocGet key rows).join.or (assocGet key obj) := by
    induction rows with
    | nil => exact fun obj _ => rfl
    | cons row rows ih =>
      intro obj hobj
      obtain ⟨name, v⟩ := row
      rw [List.map_cons, List.nodup_cons] at h
      rw [List.map_cons, List.forall_mem_cons] at hobj
      have hrest : ∀ key ∈ rows.map Prod.fst,
          assocGet key (jsonObjectSetValue obj name v) = none := by
        intro key hkey
        have hne : key ≠ name := fun heq => h.1 (heq ▸ hkey)
        rw [assocGet_jsonObjectSetValue, if_neg hne, hobj.2 key hkey]
      rw [List.foldl_cons, ih h.2 _ hrest, assocGet_jsonObjectSetValue, assocGet_cons]
      by_cases hkey : key = name
      · rw [if_pos hkey, if_pos hkey, hkey, assocGet_eq_none.mpr h.1, hobj.1]
        simp
      · rw [if_neg hkey, if_neg hkey]
  rw [membersOf, hfold [] fun _ _ => rfl, assocGet_nil, Option.or_none]

/-- Objects with the same keys are the same exactly when they are so row by row. -/
theorem sameJson_membersOf_iff (keys : List Text) (hkeys : rows.map Prod.fst = keys)
    (hkeys' : rows'.map Prod.fst = keys) (hdistinct : keys.Nodup) :
    SameJson (.object (membersOf rows)) (.object (membersOf rows')) ↔
      List.Forall₂ (fun row row' => Option.Rel SameJson row.2 row'.2) rows rows' := by
  have hnodup : (rows.map Prod.fst).Nodup := hkeys ▸ hdistinct
  have hnodup' : (rows'.map Prod.fst).Nodup := hkeys' ▸ hdistinct
  simp only [sameJson_object_iff, assocGet_membersOf hnodup, assocGet_membersOf hnodup']
  replace hkeys := hkeys.trans hkeys'.symm
  clear hkeys' hdistinct hnodup'
  induction rows generalizing rows' with
  | nil =>
    cases rows' with
    | nil => exact iff_of_true (fun _ => .none) .nil
    | cons row rows' => cases hkeys
  | cons row rows ih =>
    cases rows' with
    | nil => cases hkeys
    | cons row' rows' =>
      obtain ⟨name, v⟩ := row
      obtain ⟨name', v'⟩ := row'
      obtain ⟨rfl, htail⟩ : name = name' ∧ rows.map Prod.fst = rows'.map Prod.fst := by
        simpa using hkeys
      rw [List.map_cons, List.nodup_cons] at hnodup
      rw [List.forall₂_cons]
      refine Iff.trans ?_ (and_congr_right' (ih hnodup.2 htail))
      have hnew : name ∉ rows'.map Prod.fst := htail ▸ hnodup.1
      constructor
      · intro h
        refine ⟨by simpa [assocGet_cons] using h name, fun key => ?_⟩
        by_cases hkey : key = name
        · rw [hkey, assocGet_eq_none.mpr hnodup.1, assocGet_eq_none.mpr hnew]
          exact .none
        · simpa [assocGet_cons, hkey] using h key
      · rintro ⟨hv, hrest⟩ key
        by_cases hkey : key = name
        · simpa [assocGet_cons, hkey] using hv
        · simpa [assocGet_cons, hkey] using hrest key

end Rows

-- ---------------------------------------------------------------------------
-- Strings that may be missing
-- ---------------------------------------------------------------------------

/-- Optional strings give the same member when they are the same once those that are not UTF-8 are
left out. -/
theorem sameJson_optString_iff {s t : Option Text} :
    Option.Rel SameJson (s.bind jsonValueInitString) (t.bind jsonValueInitString) ↔
      s.filter isValidUtf8 = t.filter isValidUtf8 := by
  have hvalue : ∀ s : Option Text,
      s.bind jsonValueInitString = (s.filter isValidUtf8).map Json.string := by
    intro s
    cases s with
    | none => rfl
    | some s =>
      rw [Option.bind_some, jsonValueInitString, Option.filter_some]
      by_cases hs : isValidUtf8 s = true <;> simp [hs]
  rw [hvalue, hvalue]
  cases s.filter isValidUtf8 <;> cases t.filter isValidUtf8 <;> simp

end CLib
