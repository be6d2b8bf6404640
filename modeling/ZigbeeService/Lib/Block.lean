-- SUMMARY: Blocks of bytes from malloc and realloc, the copies into them, and the strings kept in them.
import ZigbeeService.Lib.Text

/-!
# Blocks

A byte of a new block has no value until something is stored in it. Every copy is checked against the
size of the block, and a search for the end of a string against bytes without a value.
-/

namespace CLib

/-- A block; a byte that was not stored to is `none`. -/
structure Block where
  cells : List (Option UInt8)

namespace Block

-- ---------------------------------------------------------------------------
-- Operations
-- ---------------------------------------------------------------------------

def malloc (n : Nat) : Block := ⟨List.replicate n none⟩

def size (b : Block) : Nat := b.cells.length

def realloc (b : Block) (n : Nat) : Block :=
  ⟨b.cells.take n ++ List.replicate (n - b.size) none⟩

/-- `memcpy (b + i, data, …)`. -/
def memcpy (b : Block) (i : Nat) (data : List UInt8) : Checked Block :=
  if i + data.length ≤ b.size then
    .ok ⟨b.cells.take i ++ (data.map some ++ b.cells.drop (i + data.length))⟩
  else .error .outOfBounds

/-- A new block of `n` bytes, copied from the start of this one. -/
def copy (b : Block) (n : Nat) : Checked Block :=
  if n ≤ b.size then .ok ⟨b.cells.take n⟩ else .error .outOfBounds

/-- `b[i] = c`. -/
def store (b : Block) (i : Nat) (c : UInt8) : Checked Block := b.memcpy i [c]

/-- The bytes up to the first NUL. -/
def stringOf : List (Option UInt8) → Checked Text
  | [] => .error .outOfBounds
  | none :: _ => .error .uninitialised
  | some c :: cells =>
    if c = 0 then return []
    else do
      let s ← stringOf cells
      return c :: s

/-- The string at the start of the block. -/
def string (b : Block) : Checked Text := stringOf b.cells

def strcpy (b : Block) (s : Text) : Checked Block := b.memcpy 0 (s ++ [0])

def strcat (b : Block) (s : Text) : Checked Block := do
  let t ← b.string
  b.memcpy t.length (s ++ [0])

-- ---------------------------------------------------------------------------
-- Bytes with room behind them
-- ---------------------------------------------------------------------------

/-- The block starts with these bytes, and there are `k` more. -/
def Holds (b : Block) (bytes : List UInt8) (k : Nat) : Prop :=
  ∃ rest, b.cells = bytes.map some ++ rest ∧ rest.length = k

variable {b : Block} {bytes data : List UInt8} {s t : Text} {k : Nat}

theorem holds_malloc (n : Nat) : (malloc n).Holds [] n :=
  ⟨_, rfl, List.length_replicate⟩

theorem Holds.size (h : b.Holds bytes k) : b.size = bytes.length + k := by
  obtain ⟨rest, hcells, rfl⟩ := h
  rw [Block.size, hcells, List.length_append, List.length_map]

/-- A block without room is its bytes. -/
theorem holds_zero_iff : b.Holds bytes 0 ↔ b = ⟨bytes.map some⟩ := by
  constructor
  · rintro ⟨rest, hcells, hrest⟩
    rw [List.length_eq_zero_iff.mp hrest, List.append_nil] at hcells
    exact congrArg Block.mk hcells
  · rintro rfl
    exact ⟨[], (List.append_nil _).symm, rfl⟩

/-- Fewer bytes may be counted, and more room. -/
theorem Holds.forget (h : b.Holds (bytes ++ data) k) : b.Holds bytes (data.length + k) := by
  obtain ⟨rest, hcells, rfl⟩ := h
  refine ⟨data.map some ++ rest, ?_, ?_⟩
  · rw [hcells, List.map_append, List.append_assoc]
  · rw [List.length_append, List.length_map]

theorem Holds.realloc (h : b.Holds bytes k) (n : Nat) :
    (b.realloc (b.size + n)).Holds bytes (k + n) := by
  obtain ⟨rest, hcells, rfl⟩ := h
  refine ⟨rest ++ List.replicate n none, ?_, ?_⟩
  · rw [Block.realloc, Block.size, List.take_of_length_le (Nat.le_add_right _ n),
      Nat.add_sub_cancel_left]
    dsimp only
    rw [hcells, List.append_assoc]
  · rw [List.length_append, List.length_replicate]

/-- Bytes are copied behind those that are counted. -/
theorem Holds.memcpy (h : b.Holds bytes k) (hlen : data.length ≤ k) :
    ∃ b', b.memcpy bytes.length data = .ok b' ∧ b'.Holds (bytes ++ data) (k - data.length) := by
  have hsize := h.size
  obtain ⟨rest, hcells, rfl⟩ := h
  have hfits : bytes.length + data.length ≤ b.size := by omega
  refine ⟨_, if_pos hfits, rest.drop data.length, ?_, List.length_drop⟩
  have hbytes : bytes.length = (bytes.map (some : UInt8 → Option UInt8)).length :=
    (List.length_map _).symm
  dsimp only
  rw [hcells, hbytes, List.take_left, List.drop_length_add_append, List.map_append,
    List.append_assoc]

/-- Behind the copied bytes nothing changes. -/
theorem drop_memcpy {b' : Block} {i n : Nat} (h : b.memcpy i data = .ok b')
    (hn : i + data.length ≤ n) : b'.cells.drop n = b.cells.drop n := by
  unfold memcpy at h
  split at h
  · next hfits =>
    cases h
    have htake : (b.cells.take i).length = i := by
      rw [List.length_take]
      rw [Block.size] at hfits
      omega
    have hfront : (b.cells.take i ++ data.map some).length = i + data.length := by
      rw [List.length_append, htake, List.length_map]
    obtain ⟨m, rfl⟩ := Nat.exists_eq_add_of_le hn
    dsimp only
    rw [← List.append_assoc, ← hfront, List.drop_length_add_append, List.drop_drop]
  · cases h

/-- Bytes are copied over the ones at the end. -/
theorem Holds.overwrite {last : List UInt8} (h : b.Holds (bytes ++ last) k)
    (hlen : data.length ≤ last.length + k) :
    ∃ b', b.memcpy bytes.length data = .ok b' ∧
      b'.Holds (bytes ++ data) (last.length + k - data.length) :=
  h.forget.memcpy hlen

theorem Holds.take (h : b.Holds bytes k) : b.cells.take bytes.length = bytes.map some := by
  obtain ⟨rest, hcells, -⟩ := h
  have hbytes : bytes.length = (bytes.map (some : UInt8 → Option UInt8)).length :=
    (List.length_map _).symm
  rw [hcells, hbytes, List.take_left]

theorem Holds.eq_of_length (h : Holds ⟨bytes.map some⟩ data k) (hlen : bytes.length = data.length) :
    bytes = data := by
  have htake := h.take
  rw [← hlen, List.take_of_length_le (List.length_map _).le] at htake
  exact (List.map_inj_right fun _ _ => Option.some.inj).mp htake

-- ---------------------------------------------------------------------------
-- Strings
-- ---------------------------------------------------------------------------

/-- Bytes with a NUL behind them are a string up to their first NUL. -/
theorem stringOf_terminated (bytes : List UInt8) (rest : List (Option UInt8)) :
    stringOf (bytes.map some ++ some 0 :: rest) = .ok (cstring bytes) := by
  induction bytes with
  | nil => rfl
  | cons c bytes ih =>
    rw [List.map_cons, List.cons_append, stringOf]
    by_cases hc : c = 0
    · rw [if_pos hc, hc, cstring_nul]
      rfl
    · rw [if_neg hc, ih, cstring_cons hc]
      rfl

theorem stringOf_append (hs : 0 ∉ s) (rest : List (Option UInt8)) :
    stringOf (s.map some ++ some 0 :: rest) = .ok s := by
  rw [stringOf_terminated, cstring_eq hs]

/-- Without a NUL the end of a string is searched for behind the block. -/
theorem string_unterminated (hs : 0 ∉ s) : string ⟨s.map some⟩ = .error .outOfBounds := by
  rw [string]
  induction s with
  | nil => rfl
  | cons c s ih =>
    rw [List.mem_cons, not_or] at hs
    dsimp only at ih ⊢
    rw [List.map_cons, stringOf, if_neg (Ne.symm hs.1), ih hs.2]
    rfl

/-- The block holds a string, with `k` bytes behind its NUL. -/
def HoldsString (b : Block) (s : Text) (k : Nat) : Prop := 0 ∉ s ∧ b.Holds (s ++ [0]) k

theorem HoldsString.string (h : b.HoldsString s k) : b.string = .ok s := by
  obtain ⟨hs, rest, hcells, -⟩ := h
  rw [Block.string, hcells, List.map_append, List.append_assoc]
  exact stringOf_append hs rest

theorem HoldsString.size (h : b.HoldsString s k) : b.size = s.length + 1 + k := by
  rw [h.2.size, List.length_append, List.length_singleton]

theorem HoldsString.realloc (h : b.HoldsString s k) (n : Nat) :
    (b.realloc (b.size + n)).HoldsString s (k + n) :=
  ⟨h.1, h.2.realloc n⟩

theorem strcpy_malloc {n : Nat} (hs : 0 ∉ s) (hlen : s.length < n) :
    ∃ b, (malloc n).strcpy s = .ok b ∧ b.HoldsString s (n - (s.length + 1)) := by
  have hfits : (s ++ [0]).length ≤ n := by
    rw [List.length_append]
    exact hlen
  obtain ⟨b, hb, hholds⟩ := (holds_malloc n).memcpy hfits
  rw [List.length_append] at hholds
  exact ⟨b, hb, hs, hholds⟩

/-- A string is appended that there is room for. -/
theorem HoldsString.strcat (h : b.HoldsString s k) (ht : 0 ∉ t) (hlen : t.length ≤ k) :
    ∃ b', b.strcat t = .ok b' ∧ b'.HoldsString (s ++ t) (k - t.length) := by
  have hfits : (t ++ [0]).length ≤ [(0 : UInt8)].length + k := by
    rw [List.length_append, Nat.add_comm]
    exact Nat.add_le_add_left hlen 1
  obtain ⟨b', hb', hholds⟩ := h.2.overwrite hfits
  refine ⟨b', ?_, ?_, ?_⟩
  · rw [Block.strcat, h.string]
    exact hb'
  · rw [List.mem_append]
    exact not_or.mpr ⟨h.1, ht⟩
  · have hroom : [(0 : UInt8)].length + k - (t ++ [0]).length = k - t.length := by
      rw [List.length_append, Nat.add_comm, Nat.add_sub_add_right]
    rw [hroom, ← List.append_assoc] at hholds
    exact hholds

-- ---------------------------------------------------------------------------
-- Bytes written one after the other
-- ---------------------------------------------------------------------------

/-- The block after these bytes were written at its start. -/
def filled (b : Block) (bytes : List UInt8) : Block :=
  ⟨bytes.map some ++ b.cells.drop bytes.length⟩

theorem size_filled (h : bytes.length ≤ b.size) : (b.filled bytes).size = b.size := by
  simp only [Block.size, filled, List.length_append, List.length_map, List.length_drop] at h ⊢
  omega

/-- One more byte, at the next position. -/
theorem store_filled {i : Nat} (c : UInt8) (hi : i = bytes.length) (hroom : bytes.length < b.size) :
    (b.filled bytes).store i c = .ok (b.filled (bytes ++ [c])) := by
  subst hi
  have hfits : bytes.length + [c].length ≤ (b.filled bytes).size := by
    rw [size_filled hroom.le]
    exact hroom
  have hbytes : bytes.length = (bytes.map (some : UInt8 → Option UInt8)).length :=
    (List.length_map _).symm
  rw [store, memcpy, if_pos hfits]
  simp only [filled, List.map_append, List.append_assoc, List.length_append, ← List.drop_drop]
  conv_lhs => rw [hbytes, List.take_left, List.drop_left, ← hbytes]

/-- Behind what was written nothing has changed. -/
theorem drop_filled {n : Nat} (h : bytes.length ≤ n) :
    (b.filled bytes).cells.drop n = b.cells.drop n := by
  obtain ⟨k, rfl⟩ := Nat.exists_eq_add_of_le h
  have hbytes : bytes.length = (bytes.map (some : UInt8 → Option UInt8)).length :=
    (List.length_map _).symm
  simp only [filled, ← List.drop_drop]
  conv_lhs => rw [hbytes, List.drop_left, ← hbytes]

/-- A block and the position of the next byte, after these bytes were written from the start on. -/
def written (b : Block) (bytes : List UInt8) : Block × Nat := (b.filled bytes, bytes.length)

/-- `*(out++) = c`. -/
def put (c : UInt8) (out : Block × Nat) : Checked (Block × Nat) := do
  let b ← out.1.store out.2 c
  return (b, out.2 + 1)

theorem put_written (c : UInt8) (hroom : bytes.length < b.size) :
    put c (b.written bytes) = .ok (b.written (bytes ++ [c])) := by
  rw [put, written, store_filled c rfl hroom, Checked.ok_bind, written, List.length_append]
  rfl

/-- Bytes that have room are written one after the other. -/
theorem putAll_written (data : List UInt8) (hroom : bytes.length + data.length ≤ b.size) :
    data.foldlM (fun out c => put c out) (b.written bytes) = .ok (b.written (bytes ++ data)) := by
  induction data generalizing bytes with
  | nil => rw [List.append_nil]; rfl
  | cons c data ih =>
    rw [List.length_cons] at hroom
    have hrest : (bytes ++ [c]).length + data.length ≤ b.size := by
      rw [List.length_append, List.length_singleton]
      omega
    rw [List.foldlM_cons, put_written c (by omega), Checked.ok_bind, ih hrest, List.append_assoc,
      List.singleton_append]

/-- The bytes written so far, copied to a block of their own. -/
theorem copy_filled (h : bytes.length ≤ b.size) :
    (b.filled bytes).copy bytes.length = .ok ⟨bytes.map some⟩ := by
  rw [copy, if_pos (by rwa [size_filled h]), filled]
  dsimp only
  rw [List.take_left' (List.length_map _)]

end Block

/-- `a[i]`. -/
def load {α : Type} (a : List α) (i : Nat) : Checked α :=
  match a[i]? with
  | some x => .ok x
  | none => .error .outOfBounds

theorem load_eq_ok {α : Type} {a : List α} {i : Nat} {x : α} :
    load a i = .ok x ↔ a[i]? = some x := by
  unfold load
  cases a[i]? with
  | none => simp
  | some y => simp

end CLib
