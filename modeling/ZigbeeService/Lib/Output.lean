-- SUMMARY: Output that one pass counts and another writes, and what a sequence of pieces puts into the buffer.
import Mathlib.Data.UInt
import ZigbeeService.Lib.Block

/-!
# Output in two passes

The same code runs twice: without a buffer it counts the characters, with one it writes them. A
piece of it is specified by the text it puts out, and pieces that follow each other put out their
texts one behind the other.
-/

namespace CLib

/-- The buffer with the position of the next character, if there is one, and the `int` that counts
the characters. -/
structure Output where
  buffer : Option (Block × Nat)
  total : Nat

namespace Output

-- ---------------------------------------------------------------------------
-- Operations
-- ---------------------------------------------------------------------------

/-- `total += n`. -/
def add (n : Nat) (buffer : Option (Block × Nat)) (o : Output) : Checked Output :=
  if o.total + n < 2 ^ 31 then .ok ⟨buffer, o.total + n⟩ else .error .intOverflow

/-- `sprintf (buf, "%s", s)` with a buffer, and `strlen (s)` without. -/
def appendString (s : Text) (o : Output) : Checked Output :=
  match o.buffer with
  | none => o.add s.length none
  | some (b, i) => do
    let b ← b.memcpy i (s ++ [0])
    o.add s.length (some (b, i + s.length))

/-- `buf[0] = c` with a buffer. -/
def appendChar (c : UInt8) (o : Output) : Checked Output :=
  match o.buffer with
  | none => o.add 1 none
  | some (b, i) => do
    let b ← b.store i c
    o.add 1 (some (b, i + 1))

-- ---------------------------------------------------------------------------
-- What a piece puts out
-- ---------------------------------------------------------------------------

/-- Without a buffer the characters of the text are counted. -/
def Counts (w : Output → Checked Output) (s : Text) : Prop :=
  ∀ n, n + s.length < 2 ^ 31 → w ⟨none, n⟩ = .ok ⟨none, n + s.length⟩

/-- With a buffer that has room for the text and a NUL, the text is written behind what is there, and
nothing behind the NUL. -/
def Writes (w : Output → Checked Output) (s : Text) : Prop :=
  ∀ (b : Block) (bytes : List UInt8) (k n : Nat), b.Holds bytes k → s.length + 1 ≤ k →
    n + s.length < 2 ^ 31 →
    ∃ b', w ⟨some (b, bytes.length), n⟩ =
        .ok ⟨some (b', bytes.length + s.length), n + s.length⟩ ∧
      b'.Holds (bytes ++ s) (k - s.length) ∧
      b'.cells.drop (bytes.length + s.length + 1) = b.cells.drop (bytes.length + s.length + 1)

/-- The text is written with a NUL behind it. -/
def WritesString (w : Output → Checked Output) (s : Text) : Prop :=
  ∀ (b : Block) (bytes : List UInt8) (k n : Nat), b.Holds bytes k → s.length + 1 ≤ k →
    n + s.length < 2 ^ 31 →
    ∃ b', w ⟨some (b, bytes.length), n⟩ =
        .ok ⟨some (b', bytes.length + s.length), n + s.length⟩ ∧
      b'.Holds (bytes ++ s ++ [0]) (k - (s.length + 1)) ∧
      b'.cells.drop (bytes.length + s.length + 1) = b.cells.drop (bytes.length + s.length + 1)

/-- A piece of the output: its text is counted without a buffer, and written with one. -/
structure Puts (w : Output → Checked Output) (s : Text) : Prop where
  counts : Counts w s
  writes : Writes w s

/-- A piece of the output that leaves a NUL behind its text. -/
structure PutsString (w : Output → Checked Output) (s : Text) : Prop where
  counts : Counts w s
  writes : WritesString w s

variable {w w' : Output → Checked Output} {s t : Text}

theorem PutsString.puts (h : PutsString w s) : Puts w s := by
  refine ⟨h.counts, fun b bytes k n hb hk hn => ?_⟩
  obtain ⟨b', hrun, hholds, hframe⟩ := h.writes b bytes k n hb hk hn
  refine ⟨b', hrun, ?_, hframe⟩
  have hroom : [(0 : UInt8)].length + (k - (s.length + 1)) = k - s.length := by
    rw [List.length_singleton]
    omega
  rw [← hroom]
  exact hholds.forget

theorem appendString_puts (s : Text) : PutsString (appendString s) s := by
  refine ⟨fun n hn => if_pos hn, fun b bytes k n hb hk hn => ?_⟩
  have hlen : (s ++ [0]).length ≤ k := by rwa [List.length_append]
  obtain ⟨b', hcopy, hholds⟩ := hb.memcpy hlen
  rw [List.length_append, ← List.append_assoc] at hholds
  refine ⟨b', ?_, hholds, Block.drop_memcpy hcopy (by simp [Nat.add_assoc])⟩
  rw [appendString]
  dsimp only
  rw [hcopy]
  exact if_pos hn

theorem appendChar_puts (c : UInt8) : Puts (appendChar c) [c] := by
  refine ⟨fun n hn => if_pos hn, fun b bytes k n hb hk hn => ?_⟩
  have hlen : [c].length ≤ k := Nat.le_of_succ_le hk
  obtain ⟨b', hcopy, hholds⟩ := hb.memcpy hlen
  refine ⟨b', ?_, hholds, Block.drop_memcpy hcopy (Nat.le_succ _)⟩
  rw [appendChar]
  dsimp only
  rw [Block.store, hcopy]
  exact if_pos hn

/-- What a later piece leaves alone is left alone by both. -/
theorem drop_trans {b b₁ b₂ : Block} {i j k : Nat} (hij : i ≤ k) (hjk : j ≤ k)
    (h₁ : b₁.cells.drop i = b.cells.drop i) (h₂ : b₂.cells.drop j = b₁.cells.drop j) :
    b₂.cells.drop k = b.cells.drop k := by
  have hlater : ∀ {l l' : List (Option UInt8)} {n : Nat}, n ≤ k → l.drop n = l'.drop n →
      l.drop k = l'.drop k := by
    intro l l' n hn h
    obtain ⟨m, rfl⟩ := Nat.exists_eq_add_of_le hn
    rw [← List.drop_drop, h, List.drop_drop]
  exact (hlater hjk h₂).trans (hlater hij h₁)

/-- Two pieces put out their texts one behind the other. -/
theorem Puts.bind (h : Puts w s) (h' : Puts w' t) : Puts (fun o => w o >>= w') (s ++ t) := by
  constructor
  · intro n hn
    rw [List.length_append] at hn ⊢
    dsimp only
    rw [h.counts n (by omega), Checked.ok_bind, h'.counts _ (by omega), Nat.add_assoc]
  · intro b bytes k n hb hk hn
    rw [List.length_append] at hk hn ⊢
    obtain ⟨b₁, hrun, hb₁, hframe⟩ := h.writes b bytes k n hb (by omega) (by omega)
    obtain ⟨b₂, hrun', hb₂, hframe'⟩ :=
      h'.writes b₁ _ _ (n + s.length) hb₁ (by omega) (by omega)
    rw [List.length_append] at hrun' hframe'
    refine ⟨b₂, ?_, ?_, drop_trans (by omega) (by omega) hframe hframe'⟩
    · dsimp only
      rw [hrun, Checked.ok_bind, hrun', Nat.add_assoc, Nat.add_assoc]
    · rwa [List.append_assoc, Nat.sub_sub] at hb₂

theorem Puts.bind_string (h : Puts w s) (h' : PutsString w' t) :
    PutsString (fun o => w o >>= w') (s ++ t) := by
  refine ⟨(h.bind h'.puts).counts, fun b bytes k n hb hk hn => ?_⟩
  rw [List.length_append] at hk hn ⊢
  obtain ⟨b₁, hrun, hb₁, hframe⟩ := h.writes b bytes k n hb (by omega) (by omega)
  obtain ⟨b₂, hrun', hb₂, hframe'⟩ := h'.writes b₁ _ _ (n + s.length) hb₁ (by omega) (by omega)
  rw [List.length_append] at hrun' hframe'
  refine ⟨b₂, ?_, ?_, drop_trans (by omega) (by omega) hframe hframe'⟩
  · rw [hrun, Checked.ok_bind, hrun', Nat.add_assoc, Nat.add_assoc]
  · rwa [List.append_assoc bytes, Nat.sub_sub, ← Nat.add_assoc] at hb₂

theorem puts_nil : Puts (fun o => .ok o) [] := by
  refine ⟨fun n _ => rfl, fun b bytes k n hb _ _ => ⟨b, rfl, ?_, rfl⟩⟩
  rwa [List.append_nil]

/-- A loop puts out the texts of its rounds. -/
theorem puts_foldlM {α : Type} {f : Output → α → Checked Output} {text : α → Text} {l : List α}
    (h : ∀ a ∈ l, Puts (fun o => f o a) (text a)) : Puts (fun o => l.foldlM f o) (l.flatMap text) := by
  induction l with
  | nil => exact puts_nil
  | cons a l ih =>
    rw [List.forall_mem_cons] at h
    simp only [List.foldlM_cons, List.flatMap_cons]
    exact h.1.bind (ih h.2)

end Output

end CLib
