-- SUMMARY: Integer settings from the registry and from the file (config.c): which texts are taken as numbers.
import ZigbeeService.Config.File

/-!
# Integer settings

From the registry an integer is read with `strtoull` in base 0, which passes over white space, takes
a sign, stops at the first other character and knows only one error. From the file it is what the
TOML library makes of it. Both check the number against the range of the setting.
-/

namespace Zigbee

open CLib

-- ---------------------------------------------------------------------------
-- Valid settings
-- ---------------------------------------------------------------------------

/-- The number that a text denotes in the notation of C, without sign and suffix. -/
def cLiteral (text : Text) : Option Int := (numeral 0 text).map Int.ofNat

/-- A setting is the number denoted for it where that lies in the range, and anything else is
reported. -/
def Validates (max : Nat) (denoted : Option Int) (value : Nat) (err : Option EdgexError) : Prop :=
  (err = some .EDGEX_BAD_CONFIG ↔ ¬ ∃ x, denoted = some x ∧ 0 ≤ x ∧ x ≤ max) ∧
    ∀ x, denoted = some x → 0 ≤ x → x ≤ max → (value : Int) = x ∧ err = none

/-- The number at the start of a text, behind white space and a sign: 0 if there is none. -/
def leadingNumber (text : Text) : Int := (strtol0 text).1

/-- A number is out of range, also when a negative one is taken modulo `2 ^ 64`. -/
def OutOfRange (max : Nat) (x : Int) : Prop :=
  max < x ∨ x ≤ -2 ^ 64 ∨ x < 0 ∧ max < x + 2 ^ 64

instance (max : Nat) (x : Int) : Decidable (OutOfRange max x) := by
  unfold OutOfRange
  infer_instance

/-- The text is a number in the notation of C, or the number it starts with is out of range. -/
def StrictlyRead (max : Nat) (text : Text) : Prop :=
  (cLiteral text).isSome ∨ OutOfRange max (leadingNumber text)

instance (max : Nat) (text : Text) : Decidable (StrictlyRead max text) := by
  unfold StrictlyRead
  infer_instance

-- ---------------------------------------------------------------------------
-- From the registry
-- ---------------------------------------------------------------------------

section Registry

variable {max : Nat} {config : NvPairs} {key text : Text}

/-- Only a number out of range is reported. -/
theorem getNvConfigUint_eq (hmax : max < 2 ^ 64) (h : getNvConfigString config key = some text)
    (err : Option EdgexError) :
    getNvConfigUint max config key err =
      if OutOfRange max (leadingNumber text) then (0, some .EDGEX_BAD_CONFIG)
      else ((leadingNumber text % 2 ^ 64).toNat, err) := by
  have hparse : strtoull0 text =
      if (leadingNumber text).natAbs < 2 ^ 64 then some (leadingNumber text % 2 ^ 64).toNat
      else none := rfl
  rw [getNvConfigUint, h]
  dsimp only
  rw [hparse]
  generalize leadingNumber text = x
  by_cases hsize : x.natAbs < 2 ^ 64
  · rw [if_pos hsize]
    dsimp only
    have hrange : (x % 2 ^ 64).toNat ≤ max ↔ ¬ OutOfRange max x := by
      rw [OutOfRange]
      omega
    by_cases hout : OutOfRange max x
    · rw [if_pos hout, if_neg fun hle => hrange.mp hle hout]
    · rw [if_neg hout, if_pos (hrange.mpr hout)]
  · have hout : OutOfRange max x := by
      rw [OutOfRange]
      omega
    rw [if_neg hsize, if_pos hout]

/-- A text in the notation of C starts with the number it denotes. -/
theorem leadingNumber_of_cLiteral {x : Int} (h : cLiteral text = some x) :
    leadingNumber text = x ∧ 0 ≤ x := by
  obtain ⟨n, hn, hx⟩ := Option.map_eq_some_iff.mp h
  rw [leadingNumber, strtol0_of_numeral hn, ← hx]
  exact ⟨rfl, Int.natCast_nonneg n⟩

theorem getNvConfigUint_validates_iff (hmax : max < 2 ^ 64)
    (h : getNvConfigString config key = some text) :
    Validates max (cLiteral text) (getNvConfigUint max config key none).1
        (getNvConfigUint max config key none).2 ↔ StrictlyRead max text := by
  rw [getNvConfigUint_eq hmax h, StrictlyRead]
  cases hliteral : cLiteral text with
  | none =>
    -- no number is denoted, so an error is due
    have hdenotes : ¬ ∃ x, (none : Option Int) = some x ∧ 0 ≤ x ∧ x ≤ max := nofun
    by_cases hout : OutOfRange max (leadingNumber text)
    · rw [if_pos hout]
      exact iff_of_true ⟨iff_of_true rfl hdenotes, nofun⟩ (.inr hout)
    · rw [if_neg hout]
      refine iff_of_false (fun hvalid => ?_) fun hstrict => hout (hstrict.resolve_left nofun)
      cases hvalid.1.mpr hdenotes
  | some x =>
    obtain ⟨hnumber, hnonneg⟩ := leadingNumber_of_cLiteral hliteral
    have hout : OutOfRange max x ↔ ¬ x ≤ max := by
      rw [OutOfRange]
      omega
    refine iff_of_true ?_ (.inl rfl)
    rw [hnumber]
    by_cases hle : x ≤ max
    · rw [if_neg fun hcontra => hout.mp hcontra hle]
      refine ⟨iff_of_false nofun fun hnot => hnot ⟨x, rfl, hnonneg, hle⟩, ?_⟩
      intro y hy _ _
      cases hy
      exact ⟨by omega, rfl⟩
    · rw [if_pos (hout.mpr hle)]
      refine ⟨iff_of_true rfl ?_, ?_⟩
      · rintro ⟨y, hy, -, hle'⟩
        cases hy
        exact hle hle'
      · intro y hy _ hle'
        cases hy
        exact absurd hle' hle

theorem getNvConfigUint_le (err : Option EdgexError) :
    (getNvConfigUint max config key err).1 ≤ max := by
  rw [getNvConfigUint]
  cases getNvConfigString config key with
  | none => exact Nat.zero_le max
  | some value =>
    dsimp only
    cases strtoull0 value with
    | none => exact Nat.zero_le max
    | some tmp =>
      dsimp only
      by_cases htmp : tmp ≤ max
      · rw [if_pos htmp]
        exact htmp
      · rw [if_neg htmp]
        exact Nat.zero_le max

end Registry

-- ---------------------------------------------------------------------------
-- From the file
-- ---------------------------------------------------------------------------

section File

variable {max : Nat}

/-- From the file, a number is taken exactly when the TOML library gives one in the range. -/
theorem tomlRtoui_validates (lib : TomlLib) (raw : Text) (ret : Nat) :
    Validates max (lib.rtoi raw) (tomlRtoui lib max (some raw) ret none).1
      (tomlRtoui lib max (some raw) ret none).2 := by
  rw [tomlRtoui]
  cases lib.rtoi raw with
  | none => exact ⟨iff_of_true rfl nofun, nofun⟩
  | some dummy =>
    dsimp only
    by_cases hrange : 0 ≤ dummy ∧ dummy ≤ max
    · rw [if_pos hrange]
      refine ⟨iff_of_false nofun fun hnot => hnot ⟨dummy, rfl, hrange⟩, ?_⟩
      intro x hx hnonneg _
      cases hx
      exact ⟨Int.toNat_of_nonneg hnonneg, rfl⟩
    · rw [if_neg hrange]
      refine ⟨iff_of_true rfl ?_, ?_⟩
      · rintro ⟨x, hx, hx'⟩
        cases hx
        exact hrange hx'
      · intro x hx hnonneg hle
        cases hx
        exact absurd ⟨hnonneg, hle⟩ hrange

theorem tomlRtoui_le {lib : TomlLib} {raw : Option Text} {ret : Nat} (h : ret ≤ max)
    (err : Option EdgexError) : (tomlRtoui lib max raw ret err).1 ≤ max := by
  cases raw with
  | none => exact h
  | some raw =>
    rw [tomlRtoui]
    cases lib.rtoi raw with
    | none => exact h
    | some dummy =>
      dsimp only
      by_cases hrange : 0 ≤ dummy ∧ dummy ≤ max
      · rw [if_pos hrange]
        dsimp only
        omega
      · rw [if_neg hrange]
        exact h

end File

-- ---------------------------------------------------------------------------
-- Both
-- ---------------------------------------------------------------------------

/-- Of the registry's texts for an integer setting, those are validated that are strictly read: a
number in the notation of C, or a text that starts with a number out of range. What else `strtoull`
takes comes through as a number. From the file every text is validated against the TOML library. -/
theorem integerSettings_validated_iff {config : NvPairs} {key text : Text}
    (h : getNvConfigString config key = some text) :
    (Validates (2 ^ 16 - 1) (cLiteral text) (getNvConfigUint16 config key none).1.toNat
        (getNvConfigUint16 config key none).2 ↔ StrictlyRead (2 ^ 16 - 1) text) ∧
    (Validates (2 ^ 32 - 1) (cLiteral text) (getNvConfigUint32 config key none).1.toNat
        (getNvConfigUint32 config key none).2 ↔ StrictlyRead (2 ^ 32 - 1) text) ∧
    (∀ (lib : TomlLib) (ret : UInt16),
      Validates (2 ^ 16 - 1) (lib.rtoi text) (tomlRtoui16 lib (some text) ret none).1.toNat
        (tomlRtoui16 lib (some text) ret none).2) ∧
    ∀ (lib : TomlLib) (ret : UInt32),
      Validates (2 ^ 32 - 1) (lib.rtoi text) (tomlRtoui32 lib (some text) ret none).1.toNat
        (tomlRtoui32 lib (some text) ret none).2 := by
  refine ⟨?_, ?_, fun lib ret => ?_, fun lib ret => ?_⟩
  · have hle : (getNvConfigUint (2 ^ 16 - 1) config key none).1 ≤ 2 ^ 16 - 1 :=
      getNvConfigUint_le none
    rw [← getNvConfigUint_validates_iff (by decide) h, getNvConfigUint16,
      UInt16.toNat_ofNat_of_lt' (Nat.lt_of_le_of_lt hle (by decide))]
  · have hle : (getNvConfigUint (2 ^ 32 - 1) config key none).1 ≤ 2 ^ 32 - 1 :=
      getNvConfigUint_le none
    rw [← getNvConfigUint_validates_iff (by decide) h, getNvConfigUint32,
      UInt32.toNat_ofNat_of_lt' (Nat.lt_of_le_of_lt hle (by decide))]
  · have hle : (tomlRtoui lib (2 ^ 16 - 1) (some text) ret.toNat none).1 ≤ 2 ^ 16 - 1 :=
      tomlRtoui_le (Nat.le_sub_one_of_lt ret.toNat_lt) none
    rw [tomlRtoui16, UInt16.toNat_ofNat_of_lt' (Nat.lt_of_le_of_lt hle (by decide))]
    exact tomlRtoui_validates lib text ret.toNat
  · have hle : (tomlRtoui lib (2 ^ 32 - 1) (some text) ret.toNat none).1 ≤ 2 ^ 32 - 1 :=
      tomlRtoui_le (Nat.le_sub_one_of_lt ret.toNat_lt) none
    rw [tomlRtoui32, UInt32.toNat_ofNat_of_lt' (Nat.lt_of_le_of_lt hle (by decide))]
    exact tomlRtoui_validates lib text ret.toNat

/-- A port as it is put. -/
theorem integerSettings_validated_port :
    Validates (2 ^ 16 - 1) (cLiteral (lit "0xC34A"))
        (getNvConfigUint16 [(lit "Service/Port", lit "0xC34A")] (lit "Service/Port") none).1.toNat
        (getNvConfigUint16 [(lit "Service/Port", lit "0xC34A")] (lit "Service/Port") none).2 := by
  have h : getNvConfigString [(lit "Service/Port", lit "0xC34A")] (lit "Service/Port") =
      some (lit "0xC34A") := by decide
  exact (integerSettings_validated_iff h).1.mpr (by decide)

/-- A number with a unit is a port to the registry, the one in front of the unit. -/
theorem integerSettings_misread :
    cLiteral (lit "80abc") = none ∧
      getNvConfigUint16 [(lit "Service/Port", lit "80abc")] (lit "Service/Port") none = (80, none) ∧
      ¬ Validates (2 ^ 16 - 1) (cLiteral (lit "80abc"))
        (getNvConfigUint16 [(lit "Service/Port", lit "80abc")] (lit "Service/Port") none).1.toNat
        (getNvConfigUint16 [(lit "Service/Port", lit "80abc")] (lit "Service/Port") none).2 := by
  have hnone : cLiteral (lit "80abc") = none := by decide +kernel
  have hport : getNvConfigUint16 [(lit "Service/Port", lit "80abc")] (lit "Service/Port") none =
      (80, none) := by
    decide +kernel
  refine ⟨hnone, hport, fun hvalid => ?_⟩
  rw [hnone, hport] at hvalid
  cases hvalid.1.mpr nofun

end Zigbee
