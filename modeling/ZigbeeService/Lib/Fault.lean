-- SUMMARY: The ways a C computation leaves its defined behaviour, and the computations that may do so.
import Mathlib.Tactic.Common

/-!
# Faults

A C function either returns or does something its language leaves undefined. The model keeps the
two apart: a computation is an `Except`, and the error says what went wrong.
-/

namespace CLib

/-- Why a C computation has no defined result. -/
inductive Fault where
  /-- A null pointer used as an address, or in pointer arithmetic. -/
  | nullPointer
  /-- A read, a write or a cursor outside the object it belongs to. -/
  | outOfBounds
  /-- A heap cell used before anything was stored in it. -/
  | uninitialised
  /-- An address whose block was freed. -/
  | danglingPointer
  /-- A signed counter stepped past its largest value. -/
  | intOverflow
  deriving DecidableEq, Repr

/-- A computation that returns a value or leaves the defined behaviour of C. -/
abbrev Checked := Except Fault

namespace Checked

variable {α β : Type}

@[simp] theorem pure_eq (a : α) : (pure a : Checked α) = .ok a := rfl

@[simp] theorem ok_bind (a : α) (f : α → Checked β) : ((.ok a : Checked α) >>= f) = f a := rfl

@[simp] theorem error_bind (e : Fault) (f : α → Checked β) :
    ((.error e : Checked α) >>= f) = .error e := rfl

/-- A sequence returns exactly when its first part returns and the rest does on its result. -/
theorem bind_eq_ok {x : Checked α} {f : α → Checked β} {b : β} :
    (x >>= f) = .ok b ↔ ∃ a, x = .ok a ∧ f a = .ok b := by
  cases x with
  | error e => simp
  | ok a => simp

theorem toOption_eq_some {x : Checked α} {a : α} : x.toOption = some a ↔ x = .ok a := by
  cases x with
  | error e => simp [Except.toOption]
  | ok b => simp [Except.toOption]

/-- A fold returns exactly when every round does, if that does not depend on what came before. -/
theorem foldlM_returns_iff {f : β → α → Checked β} {P : α → Prop}
    (h : ∀ b a, (∃ c, f b a = .ok c) ↔ P a) (l : List α) (b : β) :
    (∃ c, l.foldlM f b = .ok c) ↔ ∀ a ∈ l, P a := by
  induction l generalizing b with
  | nil => exact ⟨fun _ => nofun, fun _ => ⟨b, rfl⟩⟩
  | cons a l ih =>
    rw [List.forall_mem_cons, ← h b a]
    simp only [List.foldlM_cons, bind_eq_ok]
    constructor
    · rintro ⟨c, d, hd, hc⟩
      exact ⟨⟨d, hd⟩, (ih d).mp ⟨c, hc⟩⟩
    · rintro ⟨⟨d, hd⟩, hall⟩
      obtain ⟨c, hc⟩ := (ih d).mpr hall
      exact ⟨c, d, hd, hc⟩

/-- A list of calls returns exactly when every call does. -/
theorem mapM_all_iff {f : α → Checked β} {P : β → Prop} {l : List α} :
    (∃ r, l.mapM f = .ok r ∧ ∀ b ∈ r, P b) ↔ ∀ a ∈ l, ∃ b, f a = .ok b ∧ P b := by
  induction l with
  | nil => exact ⟨fun _ => nofun, fun _ => ⟨[], rfl, nofun⟩⟩
  | cons a l ih =>
    rw [List.forall_mem_cons, ← ih]
    simp only [List.mapM_cons, bind_eq_ok]
    constructor
    · rintro ⟨r, ⟨b, hb, bs, hbs, hr⟩, hall⟩
      cases hr
      rw [List.forall_mem_cons] at hall
      exact ⟨⟨b, hb, hall.1⟩, bs, hbs, hall.2⟩
    · rintro ⟨⟨b, hb, hP⟩, bs, hbs, hall⟩
      exact ⟨b :: bs, ⟨b, hb, bs, hbs, rfl⟩, List.forall_mem_cons.mpr ⟨hP, hall⟩⟩

theorem mapM_returns_iff {f : α → Checked β} {l : List α} :
    (∃ r, l.mapM f = .ok r) ↔ ∀ a ∈ l, ∃ b, f a = .ok b := by
  have h : (∃ r, l.mapM f = .ok r ∧ ∀ b ∈ r, True) ↔ _ := mapM_all_iff
  simpa only [implies_true, and_true] using h

/-- A list of calls on what was written returns what each of them does. -/
theorem mapM_map_eq_ok {γ : Type} {f : β → Checked γ} {w : α → β} {g : α → γ} {l : List α}
    (h : ∀ x ∈ l, f (w x) = .ok (g x)) : (l.map w).mapM f = .ok (l.map g) := by
  induction l with
  | nil => rfl
  | cons x l ih =>
    rw [List.forall_mem_cons] at h
    rw [List.map_cons, List.mapM_cons, h.1, ok_bind, ih h.2]
    rfl

theorem mapM_eq_ok {f : α → Checked β} {g : α → β} {l : List α}
    (h : ∀ x ∈ l, f x = .ok (g x)) : l.mapM f = .ok (l.map g) := by
  have hmap : (l.map id).mapM f = .ok (l.map g) := mapM_map_eq_ok h
  rwa [List.map_id] at hmap

/-- What is known of each result is known of the results of a list of calls. -/
theorem map_of_mapM {γ : Type} {f : α → Checked β} {g : β → γ} {k : α → γ}
    (hg : ∀ a b, f a = .ok b → g b = k a) {l : List α} {r : List β} (h : l.mapM f = .ok r) :
    r.map g = l.map k := by
  induction l generalizing r with
  | nil =>
    cases h
    rfl
  | cons a l ih =>
    rw [List.mapM_cons] at h
    obtain ⟨b, hb, h⟩ := bind_eq_ok.mp h
    obtain ⟨bs, hbs, h⟩ := bind_eq_ok.mp h
    cases h
    rw [List.map_cons, List.map_cons, hg a b hb, ih hbs]

end Checked

end CLib
