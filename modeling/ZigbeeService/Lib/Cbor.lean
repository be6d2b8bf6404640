-- SUMMARY: CBOR items, the containers of libcbor as a parameter, and looking up the members of a map.
import ZigbeeService.Lib.Text

/-!
# CBOR items

libcbor creates a definite array or map with its size and fills it entry by entry. How it does so is
a parameter; what is relied on is that a container takes the entries it was declared for, and no
others.
-/

namespace CLib

/-- What a `cbor_item_t` denotes. -/
inductive Cbor where
  | uint64 (n : UInt64)
  | bytestring (bytes : List UInt8)
  | string (s : Text)
  | array (items : List Cbor)
  | map (pairs : List (Cbor × Cbor))

/-! ## Containers -/

/-- Containers of a declared size, and the functions that create and fill them. -/
structure Definite (ε : Type) where
  Container : Type
  new : Nat → Container
  /-- The container after the call, whether or not the entry was accepted. -/
  add : Container → ε → Container
  size : Container → Nat
  entries : Container → List ε

/-- A container takes as many entries as were declared, and rejects an entry beyond them. -/
structure Definite.Bounded {ε : Type} (api : Definite ε) : Prop where
  size_new : ∀ n, api.size (api.new n) = n
  entries_new : ∀ n, api.entries (api.new n) = []
  size_add : ∀ c e, api.size (api.add c e) = api.size c
  takes : ∀ c e, (api.entries c).length < api.size c →
    api.entries (api.add c e) = api.entries c ++ [e]
  rejects : ∀ c e, api.size c ≤ (api.entries c).length → api.entries (api.add c e) = api.entries c

/-- The containers of libcbor: `cbor_new_definite_map` with `cbor_map_add`, and
`cbor_new_definite_array` with `cbor_array_push`. -/
structure Libcbor where
  map : Definite (Cbor × Cbor)
  array : Definite Cbor

/-- No entry beyond the declared size is accepted. -/
structure Libcbor.Bounded (cb : Libcbor) : Prop where
  map : cb.map.Bounded
  array : cb.array.Bounded

/-- A list that takes no more than its size. -/
structure SizedList (ε : Type) where
  size : Nat
  entries : List ε

def SizedList.add {ε : Type} (c : SizedList ε) (e : ε) : SizedList ε :=
  if c.entries.length < c.size then ⟨c.size, c.entries ++ [e]⟩ else c

/-- Containers that are lists. -/
def Definite.ofList (ε : Type) : Definite ε where
  Container := SizedList ε
  new n := ⟨n, []⟩
  add := SizedList.add
  size := SizedList.size
  entries := SizedList.entries

def Libcbor.ofList : Libcbor := ⟨.ofList _, .ofList _⟩

/-! ## Members -/

/-- The items of an array. -/
def Cbor.items? : Cbor → Option (List Cbor)
  | .array items => some items
  | _ => none

/-- Whether an item is this text. -/
def Cbor.isString (s : Text) : Cbor → Bool
  | .string t => t = s
  | _ => false

/-- The member of a map under a text. -/
def Cbor.member? (item : Cbor) (key : Text) : Option Cbor :=
  match item with
  | .map pairs => (pairs.find? fun pair => pair.1.isString key).map Prod.snd
  | _ => none

def Cbor.string? : Cbor → Option Text
  | .string s => some s
  | _ => none

def Cbor.bytestring? : Cbor → Option (List UInt8)
  | .bytestring bytes => some bytes
  | _ => none

def Cbor.uint64? : Cbor → Option UInt64
  | .uint64 n => some n
  | _ => none

/-! ## Filling -/

section Filling

variable {ε : Type} {api : Definite ε}

/-- A container that is filled leaves out what comes after its declared entries. -/
theorem Definite.Bounded.entries_foldl (h : api.Bounded) (c : api.Container) (es : List ε) :
    api.entries (es.foldl api.add c) =
      api.entries c ++ es.take (api.size c - (api.entries c).length) := by
  induction es generalizing c with
  | nil => rw [List.foldl_nil, List.take_nil, List.append_nil]
  | cons e es ih =>
    rw [List.foldl_cons, ih, h.size_add]
    by_cases hroom : (api.entries c).length < api.size c
    · have hleft : api.size c - (api.entries c).length =
          api.size c - ((api.entries c).length + 1) + 1 := by omega
      rw [h.takes c e hroom, List.length_append, List.length_singleton, hleft,
        List.take_succ_cons, List.append_assoc, List.singleton_append]
    · -- nothing is declared beyond what is there
      have hfull : api.size c - (api.entries c).length = 0 :=
        Nat.sub_eq_zero_of_le (Nat.le_of_not_lt hroom)
      rw [h.rejects c e (Nat.le_of_not_lt hroom), hfull, List.take_zero, List.take_zero]

/-- A new container holds the first entries, as many as were declared. -/
theorem Definite.Bounded.entries_fill (h : api.Bounded) (n : Nat) (es : List ε) :
    api.entries (es.foldl api.add (api.new n)) = es.take n := by
  rw [h.entries_foldl, h.size_new, h.entries_new, List.nil_append, List.length_nil, Nat.sub_zero]

theorem SizedList.add_takes {c : SizedList ε} (h : c.entries.length < c.size) (e : ε) :
    c.add e = ⟨c.size, c.entries ++ [e]⟩ := if_pos h

theorem SizedList.add_rejects {c : SizedList ε} (h : c.size ≤ c.entries.length) (e : ε) :
    c.add e = c := if_neg (Nat.not_lt.mpr h)

theorem SizedList.size_add (c : SizedList ε) (e : ε) : (c.add e).size = c.size := by
  unfold add
  split <;> rfl

theorem Definite.bounded_ofList (ε : Type) : (Definite.ofList ε).Bounded where
  size_new _ := rfl
  entries_new _ := rfl
  size_add := SizedList.size_add
  takes c e h := congrArg SizedList.entries (SizedList.add_takes (c := c) h e)
  rejects c e h := congrArg SizedList.entries (SizedList.add_rejects (c := c) h e)

theorem Libcbor.bounded_ofList : Libcbor.ofList.Bounded :=
  ⟨Definite.bounded_ofList _, Definite.bounded_ofList _⟩

end Filling

end CLib
