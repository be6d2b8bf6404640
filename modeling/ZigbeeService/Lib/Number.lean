-- SUMMARY: Decimal output, the integer scanners of the C library, and the conversions between integer types.
import Mathlib.Data.Nat.Digits.Lemmas
import Mathlib.Data.UInt
import ZigbeeService.Lib.Text

/-!
# Numbers as text

Printing follows `printf`, scanning follows `strtol`, `strtoul`, `atoi` and the integer conversions
of `sscanf` in glibc on a machine with 64-bit `long`.
-/

namespace CLib

/-! ## Integer conversions -/

/-- Conversion to a signed type of `w` bits: keep the low bits, read them in two's complement. -/
def toSigned (w : Nat) (x : Int) : Int := x.bmod (2 ^ w)

/-- Conversion to `int`. -/
abbrev toInt32 (x : Int) : Int := toSigned 32 x

theorem toSigned_eq_self {w : Nat} {x : Int} (hw : 0 < w) (h₁ : -2 ^ (w - 1) ≤ x)
    (h₂ : x < 2 ^ (w - 1)) : toSigned w x = x := by
  obtain ⟨k, rfl⟩ : ∃ k, w = k + 1 := ⟨w - 1, by omega⟩
  simp only [Nat.add_sub_cancel] at h₁ h₂
  have hpow : ((2 ^ (k + 1) : Nat) : Int) = 2 * 2 ^ k := by push_cast; omega
  apply Int.bmod_eq_of_le <;> omega

theorem toInt32_natCast {n : Nat} (h : n < 2 ^ 31) : toInt32 n = n :=
  toSigned_eq_self (by decide) (by norm_num) (by norm_num; omega)

theorem toSigned_bounds {w : Nat} (hw : 0 < w) (x : Int) :
    -2 ^ (w - 1) ≤ toSigned w x ∧ toSigned w x < 2 ^ (w - 1) := by
  obtain ⟨k, rfl⟩ : ∃ k, w = k + 1 := ⟨w - 1, by omega⟩
  have hpow : ((2 ^ (k + 1) : Nat) : Int) = 2 * 2 ^ k := by push_cast; omega
  have hpos : 0 < 2 ^ (k + 1) := by positivity
  have h₁ := Int.le_bmod (x := x) hpos
  have h₂ := Int.bmod_lt (x := x) hpos
  rw [Nat.add_sub_cancel, toSigned]
  omega

theorem toInt32_bounds (x : Int) : -2 ^ 31 ≤ toInt32 x ∧ toInt32 x < 2 ^ 31 :=
  toSigned_bounds (by decide) x

theorem uint32_toNat_ofInt (x : Int) : (UInt32.ofInt x).toNat = (x % 2 ^ 32).toNat := by
  rw [UInt32.ofInt, UInt32.toNat_ofNat']
  omega

theorem uint32_ofInt_natCast (n : Nat) : UInt32.ofInt n = UInt32.ofNat n := by
  rw [← UInt32.toNat_inj, uint32_toNat_ofInt, UInt32.toNat_ofNat']
  omega

/-- An `int` survives the way through an unsigned word and back. -/
theorem toInt32_uint32_ofInt {x : Int} (h₁ : -2 ^ 31 ≤ x) (h₂ : x < 2 ^ 31) :
    toInt32 (UInt32.ofInt x).toNat = x := by
  have hmod : (((x % 2 ^ 32).toNat : Nat) : Int) = x % (2 ^ 32 : Nat) := by omega
  rw [uint32_toNat_ofInt, hmod, toInt32, toSigned, Int.emod_bmod]
  exact toSigned_eq_self (by decide) (by omega) (by omega)

/-! ## Decimal output -/

/-- The character of a decimal digit. -/
def digitByte (d : Nat) : UInt8 := UInt8.ofNat (48 + d)

/-- `printf ("%u", n)`. -/
def decimal (n : Nat) : Text :=
  if n = 0 then lit "0" else (Nat.digits 10 n).reverse.map digitByte

/-- `printf ("%d", x)`. -/
def decimalInt (x : Int) : Text :=
  if x < 0 then chr '-' :: decimal x.natAbs else decimal x.natAbs

/-! ## Character classes -/

/-- `isspace` in the C locale. -/
def isspace (c : UInt8) : Bool := c = 32 || (9 ≤ c && c ≤ 13)

/-- `isdigit`. -/
def isdigit (c : UInt8) : Bool := 48 ≤ c && c ≤ 57

/-- `tolower` in the C locale. -/
def tolower (c : UInt8) : UInt8 := if 65 ≤ c && c ≤ 90 then c + 32 else c

/-- `strcasecmp (s, t) == 0`. -/
def strcaseeq (s t : Text) : Bool := s.map tolower = t.map tolower

/-! ## Scanning -/

/-- The value of a digit in any base up to 36. -/
def digitVal (c : UInt8) : Option Nat :=
  if isdigit c then some (c.toNat - 48)
  else if 97 ≤ tolower c && tolower c ≤ 122 then some ((tolower c).toNat - 87)
  else none

/-- The leading digits of a text in the given base. -/
def scanDigits (base : Nat) : Text → List Nat
  | [] => []
  | c :: cs =>
    match digitVal c with
    | some d => if d < base then d :: scanDigits base cs else []
    | none => []

/-- The number a list of digits denotes, most significant first. -/
def digitsValue (base : Nat) (ds : List Nat) : Nat := Nat.ofDigits base ds.reverse

/-- An optional sign. -/
def scanSign : Text → Bool × Text
  | c :: cs => if c = chr '-' then (true, cs) else if c = chr '+' then (false, cs) else (false, c :: cs)
  | [] => (false, [])

/-- Base 0 reads the base off the text: `0x` for 16, another leading `0` for 8, else 10. The `0` of
`0x` stays in the text, so the digits of a hexadecimal number are never empty. -/
def scanBase : Nat → Text → Nat × Text
  | 0, c :: x :: cs =>
    if c = chr '0' then (if tolower x = chr 'x' then (16, c :: cs) else (8, c :: x :: cs))
    else (10, c :: x :: cs)
  | 0, s => (10, s)
  | base, s => (base, s)

/-- The integer at the start of a text, after white space and a sign, if there is one. -/
def scanInteger (base : Nat) (s : Text) : Option Int :=
  let (neg, s) := scanSign (s.dropWhile isspace)
  let (base, s) := scanBase base s
  match scanDigits base s with
  | [] => none
  | ds => some (if neg then -(digitsValue base ds : Int) else digitsValue base ds)

/-- The range check of `strtol`: out of range gives the nearest `long`. -/
def clampLong (x : Int) : Int := max (-2 ^ 63) (min (2 ^ 63 - 1) x)

/-- The range check of `strtoul`: out of range gives `ULONG_MAX`, a minus sign negates modulo
`2 ^ 64`. -/
def clampULong (x : Int) : Int := if x.natAbs < 2 ^ 64 then x % 2 ^ 64 else 2 ^ 64 - 1

/-- `atoi`: `(int) strtol (s, NULL, 10)`, zero when there is no number. -/
def atoi (s : Text) : Int :=
  match scanInteger 10 s with
  | some x => toInt32 (clampLong x)
  | none => 0

/-- `sscanf (s, "%u", …)` before the value is narrowed to the target. -/
def scanfUnsigned (s : Text) : Option Int := (scanInteger 10 s).map clampULong

/-- `sscanf (s, "%i", …)` before the value is narrowed to the target. -/
def scanfInteger (s : Text) : Option Int := (scanInteger 0 s).map clampLong

/-- What stands behind a `0x` that a hexadecimal digit follows. -/
def afterHexPrefix : Text → Option Text
  | z :: x :: cs =>
    if z = chr '0' ∧ tolower x = chr 'x' ∧ scanDigits 16 cs ≠ [] then some cs else none
  | _ => none

/-- The number behind the sign, in the base its first characters give, and what follows it. -/
def strtolDigits (t : Text) : Option (Nat × Text) :=
  let (base, u) :=
    match afterHexPrefix t with
    | some cs => (16, cs)
    | none => (if t.head? = some (chr '0') then 8 else 10, t)
  match scanDigits base u with
  | [] => none
  | ds => some (digitsValue base ds, u.drop ds.length)

/-- `strtol (s, &end, 0)`: the number before the range check, and the text at `end`. Without digits
the number is 0 and `end` is where the text starts. -/
def strtol0 (s : Text) : Int × Text :=
  let (neg, t) := scanSign (s.dropWhile isspace)
  match strtolDigits t with
  | none => (0, s)
  | some (n, rest) => (if neg then -(n : Int) else n, rest)

/-- `strtoull (s, NULL, 0)`, or nothing where it sets `errno`. A minus sign negates modulo
`2 ^ 64`. -/
def strtoull0 (s : Text) : Option Nat :=
  let x := (strtol0 s).1
  if x.natAbs < 2 ^ 64 then some (x % 2 ^ 64).toNat else none

/-- `strtoul (s, &end, 10)`: the number after the range check, and the text at `end`. -/
def strtoul10 (s : Text) : Nat × Text :=
  let (neg, t) := scanSign (s.dropWhile isspace)
  match scanDigits 10 t with
  | [] => (0, s)
  | ds =>
    ((clampULong (if neg then -(digitsValue 10 ds : Int) else digitsValue 10 ds)).toNat,
      t.drop ds.length)

/-! ## Reading back what was printed -/

theorem digitVal_digitByte {d : Nat} (hd : d < 10) : digitVal (digitByte d) = some d := by
  interval_cases d <;> decide

theorem isdigit_digitByte {d : Nat} (hd : d < 10) : isdigit (digitByte d) = true := by
  interval_cases d <;> decide

/-- A printed number is the digits of the number. -/
theorem decimal_eq_map (n : Nat) :
    ∃ ds : List Nat, decimal n = ds.map digitByte ∧ ds ≠ [] ∧ (∀ d ∈ ds, d < 10) ∧
      digitsValue 10 ds = n := by
  by_cases hn : n = 0
  · exact ⟨[0], by subst hn; decide, by simp, by simp, by simp [digitsValue, hn]⟩
  · refine ⟨(Nat.digits 10 n).reverse, by simp [decimal, hn], ?_, ?_, ?_⟩
    · simpa [Nat.digits_eq_nil_iff_eq_zero] using hn
    · intro d hd
      exact Nat.digits_lt_base (by decide) (List.mem_reverse.mp hd)
    · simp [digitsValue, Nat.ofDigits_digits]

theorem isdigit_of_mem_decimal {n : Nat} {c : UInt8} (hc : c ∈ decimal n) : isdigit c = true := by
  obtain ⟨ds, hds, -, hlt, -⟩ := decimal_eq_map n
  rw [hds, List.mem_map] at hc
  obtain ⟨d, hd, rfl⟩ := hc
  exact isdigit_digitByte (hlt d hd)

theorem decimal_ne_nil (n : Nat) : decimal n ≠ [] := by
  obtain ⟨ds, hds, hne, -, -⟩ := decimal_eq_map n
  simpa [hds] using hne

/-- A number has at most `k` digits when it is below `10 ^ k`. -/
theorem decimal_length_le_iff {n k : Nat} (hk : 0 < k) : (decimal n).length ≤ k ↔ n < 10 ^ k := by
  unfold decimal
  split
  · next hn =>
    subst hn
    exact iff_of_true hk (by positivity)
  · rw [List.length_map, List.length_reverse]
    exact Nat.digits_length_le_iff (by decide) n

/-- A printed `int64_t` fits a buffer of 32 bytes. -/
theorem decimalInt_length_lt {x : Int} (h : x.natAbs ≤ 2 ^ 63) : (decimalInt x).length < 32 := by
  have hlen : (decimal x.natAbs).length ≤ 19 := (decimal_length_le_iff (by decide)).mpr (by omega)
  unfold decimalInt
  split
  · rw [List.length_cons]
    omega
  · omega

theorem decimalInt_ne_nil (x : Int) : decimalInt x ≠ [] := by
  unfold decimalInt
  split
  · exact List.cons_ne_nil _ _
  · exact decimal_ne_nil _

/-- A printed number is ASCII. -/
theorem lt_of_mem_decimalInt {x : Int} {c : UInt8} (hc : c ∈ decimalInt x) : c < 0x80 := by
  have hdigit : ∀ d ∈ decimal x.natAbs, d < 0x80 := by
    intro d hd
    have h := isdigit_of_mem_decimal hd
    simp only [isdigit, Bool.and_eq_true, decide_eq_true_eq, UInt8.le_iff_toNat_le] at h
    rw [UInt8.lt_iff_toNat_lt]
    exact Nat.lt_of_le_of_lt h.2 (by decide)
  unfold decimalInt at hc
  split at hc
  · rcases List.mem_cons.mp hc with rfl | hmem
    · decide
    · exact hdigit c hmem
  · exact hdigit c hc

theorem scanDigits_map_digitByte {ds : List Nat} (h : ∀ d ∈ ds, d < 10) :
    scanDigits 10 (ds.map digitByte) = ds := by
  induction ds with
  | nil => rfl
  | cons d ds ih =>
    have hd : d < 10 := h d List.mem_cons_self
    simp only [List.map_cons, scanDigits, digitVal_digitByte hd, if_pos hd]
    rw [ih fun e he => h e (List.mem_cons_of_mem _ he)]

/-- White space and signs are not digits. -/
theorem isspace_eq_false_of_isdigit {c : UInt8} (h : isdigit c = true) : isspace c = false := by
  simp only [isdigit, isspace, Bool.and_eq_true, decide_eq_true_eq, UInt8.le_iff_toNat_le] at *
  simp only [Bool.or_eq_false_iff, decide_eq_false_iff_not, Bool.and_eq_false_iff, ← UInt8.toNat_inj]
  simp only [UInt8.reduceToNat] at *
  omega

theorem not_sign_of_isdigit {c : UInt8} (h : isdigit c = true) : c ≠ chr '-' ∧ c ≠ chr '+' := by
  constructor
  · rintro rfl
    exact absurd h (by decide)
  · rintro rfl
    exact absurd h (by decide)

/-- Neither white space nor a sign stands before a digit. -/
theorem scanSign_digits {c : UInt8} (h : isdigit c = true) (cs : Text) :
    scanSign ((c :: cs).dropWhile isspace) = (false, c :: cs) := by
  obtain ⟨hminus, hplus⟩ := not_sign_of_isdigit h
  rw [List.dropWhile_cons, isspace_eq_false_of_isdigit h]
  simp [scanSign, hminus, hplus]

theorem scanSign_decimalInt (x : Int) :
    scanSign ((decimalInt x).dropWhile isspace) = (decide (x < 0), decimal x.natAbs) := by
  unfold decimalInt
  by_cases hneg : x < 0
  · rw [if_pos hneg, decide_eq_true hneg]
    rfl
  · obtain ⟨c, cs, hcs⟩ := List.exists_cons_of_ne_nil (decimal_ne_nil x.natAbs)
    have hdigit : isdigit c = true := isdigit_of_mem_decimal (by rw [hcs]; exact List.mem_cons_self)
    rw [if_neg hneg, decide_eq_false hneg, hcs, scanSign_digits hdigit]

theorem decimalInt_natCast (n : Nat) : decimalInt n = decimal n := by
  rw [decimalInt, if_neg (by omega), Int.natAbs_natCast]

/-- A printed number other than 0 does not start with a 0. -/
theorem decimal_eq_map_of_ne_zero {n : Nat} (hn : n ≠ 0) :
    ∃ d ds, decimal n = (d :: ds).map digitByte ∧ d ≠ 0 ∧ (∀ e ∈ d :: ds, e < 10) ∧
      digitsValue 10 (d :: ds) = n := by
  have hne : Nat.digits 10 n ≠ [] := by simpa [Nat.digits_eq_nil_iff_eq_zero] using hn
  obtain ⟨d, ds, hds⟩ := List.exists_cons_of_ne_nil (List.reverse_ne_nil_iff.mpr hne)
  have hlast : (Nat.digits 10 n).getLast hne = d := by
    have h := List.head_reverse (l := Nat.digits 10 n) (List.reverse_ne_nil_iff.mpr hne)
    simp only [hds, List.head_cons] at h
    exact h.symm
  refine ⟨d, ds, by rw [decimal, if_neg hn, hds], ?_, ?_, ?_⟩
  · rw [← hlast]
    exact Nat.getLast_digit_ne_zero 10 hn
  · intro e he
    rw [← hds] at he
    exact Nat.digits_lt_base (by decide) (List.mem_reverse.mp he)
  · rw [digitsValue, ← hds, List.reverse_reverse, Nat.ofDigits_digits]

theorem afterHexPrefix_digits {ds : List Nat} (h : ∀ d ∈ ds, d < 10) :
    afterHexPrefix (ds.map digitByte) = none := by
  have hx : ∀ d < 10, tolower (digitByte d) ≠ chr 'x' := by decide
  match ds with
  | [] => rfl
  | [_] => rfl
  | z :: x :: ds =>
    have hxd := hx x (h x (by simp))
    simp [afterHexPrefix, hxd]

theorem strtolDigits_decimal (n : Nat) : strtolDigits (decimal n) = some (n, []) := by
  by_cases hn : n = 0
  · subst hn
    decide
  · obtain ⟨d, ds, hds, hd, hlt, hval⟩ := decimal_eq_map_of_ne_zero hn
    have hzero : ∀ d < 10, d ≠ 0 → digitByte d ≠ chr '0' := by decide
    have hhead : ((d :: ds).map digitByte).head? ≠ some (chr '0') := by
      simpa using hzero d (hlt d List.mem_cons_self) hd
    rw [hds, strtolDigits, afterHexPrefix_digits hlt]
    simp only [if_neg hhead, scanDigits_map_digitByte hlt, hval]
    rw [List.drop_eq_nil_of_le (by rw [List.length_map])]

/-- A printed number is read in base 10, also where the base is read off it. -/
theorem scanBase_decimal {base : Nat} (hbase : base = 10 ∨ base = 0) (n : Nat) :
    scanBase base (decimal n) = (10, decimal n) := by
  rcases hbase with rfl | rfl
  · rfl
  · by_cases hn : n = 0
    · subst hn
      decide
    · obtain ⟨d, ds, hds, hd, hlt, -⟩ := decimal_eq_map_of_ne_zero hn
      have hzero : ∀ d < 10, d ≠ 0 → digitByte d ≠ chr '0' := by decide
      have hfirst := hzero d (hlt d List.mem_cons_self) hd
      rw [hds]
      cases ds with
      | nil => rfl
      | cons e es => simp [scanBase, hfirst]

theorem scanInteger_decimalInt {base : Nat} (hbase : base = 10 ∨ base = 0) (x : Int) :
    scanInteger base (decimalInt x) = some x := by
  obtain ⟨ds, hds, hne, hlt, hval⟩ := decimal_eq_map x.natAbs
  obtain ⟨d, es, rfl⟩ := List.exists_cons_of_ne_nil hne
  have hscan : scanDigits 10 (decimal x.natAbs) = d :: es := by
    rw [hds, scanDigits_map_digitByte hlt]
  simp only [scanInteger, scanSign_decimalInt, scanBase_decimal hbase, hscan, hval]
  by_cases hneg : x < 0
  · rw [if_pos (decide_eq_true hneg), show -(x.natAbs : Int) = x by omega]
  · rw [if_neg (by simpa using hneg), show (x.natAbs : Int) = x by omega]

theorem scanInteger_decimal (n : Nat) : scanInteger 10 (decimal n) = some (n : Int) := by
  rw [← decimalInt_natCast, scanInteger_decimalInt (.inl rfl)]

/-- `strtol` with base 0 reads a printed number to its end. -/
theorem strtol0_decimalInt (x : Int) : strtol0 (decimalInt x) = (x, []) := by
  simp only [strtol0, scanSign_decimalInt, strtolDigits_decimal]
  by_cases hneg : x < 0
  · rw [if_pos (decide_eq_true hneg), show -(x.natAbs : Int) = x by omega]
  · rw [if_neg (by simpa using hneg), show (x.natAbs : Int) = x by omega]

theorem strtoull0_decimal {n : Nat} (h : n < 2 ^ 64) : strtoull0 (decimal n) = some n := by
  rw [strtoull0, ← decimalInt_natCast, strtol0_decimalInt]
  simp only [Int.natAbs_natCast, if_pos h]
  congr 1
  omega

theorem atoi_bounds (s : Text) : -2 ^ 31 ≤ atoi s ∧ atoi s < 2 ^ 31 := by
  unfold atoi
  split
  · exact toInt32_bounds _
  · decide

theorem atoi_decimal {n : Nat} (h : n < 2 ^ 31) : atoi (decimal n) = n := by
  have hclamp : clampLong n = n := by simp only [clampLong]; omega
  simp only [atoi, scanInteger_decimal, hclamp, toInt32_natCast h]

/-! ## Literals -/

/-- A text of digits of the base, and no more. -/
def numeralIn (base : Nat) (s : Text) : Option Nat :=
  if s ≠ [] ∧ s.all (fun c => (digitVal c).any (· < base)) then
    some (digitsValue base (s.filterMap digitVal))
  else none

/-- A number without a sign, in base 0 in the notation of C. -/
def numeral : Nat → Text → Option Nat
  | 0, c :: x :: cs =>
    if c = chr '0' then
      (if tolower x = chr 'x' then numeralIn 16 cs else numeralIn 8 (c :: x :: cs))
    else numeralIn 10 (c :: x :: cs)
  | 0, s => numeralIn 10 s
  | base, s => numeralIn base s

/-- The integer that a text denotes, when the text is an integer literal and no more. -/
def literal (base : Nat) (s : Text) : Option Int :=
  let (neg, s) := scanSign s
  (numeral base s).map fun n : Nat => if neg then -(n : Int) else n

/-- A digit stands where a number is expected. -/
def startsNumber (s : Text) : Bool := (scanSign (s.dropWhile isspace)).2.head?.any isdigit

section Literals

variable {base n : Nat} {s : Text} {x : Int}

theorem digitVal_any_ten (c : UInt8) : (digitVal c).any (· < 10) = isdigit c :=
  forall_byte (p := fun c => (digitVal c).any (· < 10) = isdigit c) (by decide +kernel) c

theorem numeralIn_eq_some :
    numeralIn base s = some n ↔
      s ≠ [] ∧ (∀ c ∈ s, (digitVal c).any (· < base)) ∧
        digitsValue base (s.filterMap digitVal) = n := by
  rw [numeralIn]
  split
  · next hs =>
    rw [List.all_eq_true] at hs
    rw [Option.some.injEq, and_iff_right hs.1, and_iff_right hs.2]
  · next hs =>
    rw [List.all_eq_true] at hs
    exact iff_of_false nofun fun hand => hs ⟨hand.1, hand.2.1⟩

/-- The scanner takes the digits in front of another character. -/
theorem scanDigits_append {rest : Text} (h : ∀ c ∈ s, (digitVal c).any (· < base))
    (hrest : scanDigits base rest = []) :
    scanDigits base (s ++ rest) = s.filterMap digitVal ∧
      (s.filterMap digitVal).length = s.length := by
  induction s with
  | nil => exact ⟨hrest, rfl⟩
  | cons c cs ih =>
    obtain ⟨d, hd, hlt⟩ := (Option.any_eq_true _ _).mp (h c List.mem_cons_self)
    obtain ⟨hscan, hlen⟩ := ih fun e he => h e (List.mem_cons_of_mem _ he)
    rw [List.cons_append, scanDigits, hd, List.filterMap_cons_some hd]
    dsimp only
    rw [if_pos (of_decide_eq_true hlt), hscan, List.length_cons, List.length_cons, hlen]
    exact ⟨rfl, rfl⟩

/-- The scanner takes a text of digits to its end. -/
theorem scanDigits_eq_filterMap (h : ∀ c ∈ s, (digitVal c).any (· < base)) :
    scanDigits base s = s.filterMap digitVal := by
  have hscan : scanDigits base (s ++ []) = s.filterMap digitVal := (scanDigits_append h rfl).1
  rwa [List.append_nil] at hscan

theorem scanDigits_of_numeralIn (h : numeralIn base s = some n) :
    scanDigits base s ≠ [] ∧ digitsValue base (scanDigits base s) = n := by
  obtain ⟨hne, hall, hval⟩ := numeralIn_eq_some.mp h
  rw [scanDigits_eq_filterMap hall]
  refine ⟨?_, hval⟩
  obtain ⟨c, cs, rfl⟩ := List.exists_cons_of_ne_nil hne
  obtain ⟨d, hd, -⟩ := (Option.any_eq_true _ _).mp (hall c List.mem_cons_self)
  rw [List.filterMap_cons_some hd]
  exact List.cons_ne_nil _ _

/-- A leading zero does not count. -/
theorem digitsValue_zero_cons (base : Nat) (ds : List Nat) :
    digitsValue base (0 :: ds) = digitsValue base ds := by
  simp [digitsValue, Nat.ofDigits_append]

/-- The scanner reads a number as what it denotes. -/
theorem scanDigits_of_numeral (h : numeral base s = some n) :
    scanDigits (scanBase base s).1 (scanBase base s).2 ≠ [] ∧
      digitsValue (scanBase base s).1 (scanDigits (scanBase base s).1 (scanBase base s).2) = n := by
  unfold numeral at h
  unfold scanBase
  split at h
  · next c x cs =>
    split at h
    · next hzero =>
      split at h
      · next hx =>
        -- the zero of the prefix stays in the text
        obtain ⟨-, hval⟩ := scanDigits_of_numeralIn h
        have hdigits : scanDigits 16 (c :: cs) = 0 :: scanDigits 16 cs := by
          rw [hzero]
          rfl
        simp only [if_pos hzero, if_pos hx, hdigits]
        exact ⟨List.cons_ne_nil _ _, by rw [digitsValue_zero_cons, hval]⟩
      · next hx =>
        simp only [if_pos hzero, if_neg hx]
        exact scanDigits_of_numeralIn h
    · next hzero =>
      simp only [if_neg hzero]
      exact scanDigits_of_numeralIn h
  · exact scanDigits_of_numeralIn h
  · exact scanDigits_of_numeralIn h

theorem scanDigits_cons_ne_nil {c : UInt8} {cs : Text} :
    scanDigits base (c :: cs) ≠ [] ↔ (digitVal c).any (· < base) = true := by
  rw [scanDigits]
  cases digitVal c with
  | none => simp
  | some d => by_cases hd : d < base <;> simp [hd]

/-- The base is 10 unless a zero comes first, which stays in the text. -/
theorem scanBase_cons (hbase : base = 10 ∨ base = 0) (c : UInt8) (cs : Text) :
    ∃ b us, scanBase base (c :: cs) = (b, c :: us) ∧ (b = 10 ∨ c = chr '0' ∧ 0 < b) := by
  rcases hbase with rfl | rfl
  · exact ⟨10, cs, rfl, .inl rfl⟩
  · cases cs with
    | nil => exact ⟨10, [], rfl, .inl rfl⟩
    | cons x cs =>
      by_cases hzero : c = chr '0'
      · simp only [scanBase, if_pos hzero]
        split
        · exact ⟨16, cs, rfl, .inr ⟨hzero, by decide⟩⟩
        · exact ⟨8, x :: cs, rfl, .inr ⟨hzero, by decide⟩⟩
      · simp only [scanBase, if_neg hzero]
        exact ⟨10, x :: cs, rfl, .inl rfl⟩

/-- A number is read exactly where it starts with a decimal digit. -/
theorem scanDigits_scanBase_ne_nil (hbase : base = 10 ∨ base = 0) (s : Text) :
    scanDigits (scanBase base s).1 (scanBase base s).2 ≠ [] ↔ s.head?.any isdigit = true := by
  cases s with
  | nil => rcases hbase with rfl | rfl <;> simp [scanBase, scanDigits]
  | cons c cs =>
    obtain ⟨b, us, hscan, hb⟩ := scanBase_cons hbase c cs
    rw [hscan, scanDigits_cons_ne_nil, List.head?_cons, Option.any_some]
    rcases hb with rfl | ⟨rfl, hpos⟩
    · rw [digitVal_any_ten]
    · have hdigit : digitVal (chr '0') = some 0 := by decide
      rw [hdigit, Option.any_some]
      exact iff_of_true (decide_eq_true hpos) (by decide)

theorem scanInteger_isSome (hbase : base = 10 ∨ base = 0) (s : Text) :
    (scanInteger base s).isSome = startsNumber s := by
  rw [Bool.eq_iff_iff, startsNumber, ← scanDigits_scanBase_ne_nil hbase]
  unfold scanInteger
  generalize scanSign (s.dropWhile isspace) = t
  dsimp only
  split
  · next hnil => exact iff_of_false (by simp) fun hne => hne hnil
  · next hne => exact iff_of_true rfl hne

/-- A literal has no white space in front. -/
theorem dropWhile_isspace_of_literal (hbase : base = 10 ∨ base = 0)
    (h : literal base s = some x) : s.dropWhile isspace = s := by
  cases s with
  | nil => rfl
  | cons c cs =>
    refine List.dropWhile_cons_of_neg fun hspace => ?_
    have hsign : scanSign (c :: cs) = (false, c :: cs) := by
      have hminus : c ≠ chr '-' := by
        rintro rfl
        exact absurd hspace (by decide)
      have hplus : c ≠ chr '+' := by
        rintro rfl
        exact absurd hspace (by decide)
      rw [scanSign, if_neg hminus, if_neg hplus]
    rw [literal, hsign] at h
    obtain ⟨n, hn, -⟩ := Option.map_eq_some_iff.mp h
    have hdigit := (scanDigits_scanBase_ne_nil hbase (c :: cs)).mp (scanDigits_of_numeral hn).1
    rw [List.head?_cons, Option.any_some] at hdigit
    exact absurd hspace (by rw [isspace_eq_false_of_isdigit hdigit]; decide)

theorem scanInteger_of_literal (hbase : base = 10 ∨ base = 0) (h : literal base s = some x) :
    scanInteger base s = some x := by
  have hspace := dropWhile_isspace_of_literal hbase h
  unfold literal at h
  unfold scanInteger
  rw [hspace]
  generalize scanSign s = t at h ⊢
  obtain ⟨neg, t⟩ := t
  obtain ⟨n, hn, hx⟩ := Option.map_eq_some_iff.mp h
  obtain ⟨hne, hval⟩ := scanDigits_of_numeral hn
  dsimp only
  split
  · next hnil => exact absurd hnil hne
  · rw [hval, hx]

/-- In front of a number there is nothing to skip. -/
theorem scanSign_of_numeral (hbase : base = 10 ∨ base = 0) (h : numeral base s = some n) :
    scanSign (s.dropWhile isspace) = (false, s) := by
  have hdigit := (scanDigits_scanBase_ne_nil hbase s).mp (scanDigits_of_numeral h).1
  cases s with
  | nil => cases hdigit
  | cons c cs => exact scanSign_digits hdigit cs

theorem strtolDigits_of_hex {cs : Text} (hhex : afterHexPrefix s = some cs)
    (h : numeralIn 16 cs = some n) : ∃ rest, strtolDigits s = some (n, rest) := by
  obtain ⟨hne, hval⟩ := scanDigits_of_numeralIn h
  obtain ⟨d, ds, hds⟩ := List.exists_cons_of_ne_nil hne
  rw [hds] at hval
  simp only [strtolDigits, hhex, hds]
  exact ⟨_, by rw [hval]⟩

theorem strtolDigits_of_plain (hhex : afterHexPrefix s = none)
    (h : numeralIn (if s.head? = some (chr '0') then 8 else 10) s = some n) :
    ∃ rest, strtolDigits s = some (n, rest) := by
  simp only [strtolDigits, hhex]
  generalize (if s.head? = some (chr '0') then 8 else 10) = base at h ⊢
  obtain ⟨hne, hval⟩ := scanDigits_of_numeralIn h
  obtain ⟨d, ds, hds⟩ := List.exists_cons_of_ne_nil hne
  rw [hds] at hval ⊢
  dsimp only
  exact ⟨_, by rw [hval]⟩

theorem strtolDigits_of_numeral (h : numeral 0 s = some n) :
    ∃ rest, strtolDigits s = some (n, rest) := by
  rcases s with _ | ⟨c, _ | ⟨x, cs⟩⟩
  · cases h
  · have hten : numeralIn 10 [c] = some n := h
    by_cases hzero : c = chr '0'
    · subst hzero
      cases hten
      exact ⟨[], rfl⟩
    · exact strtolDigits_of_plain rfl (by simpa [hzero] using hten)
  · rw [numeral] at h
    by_cases hzero : c = chr '0'
    · rw [if_pos hzero] at h
      by_cases hx : tolower x = chr 'x'
      · rw [if_pos hx] at h
        have hhex : afterHexPrefix (c :: x :: cs) = some cs :=
          if_pos ⟨hzero, hx, (scanDigits_of_numeralIn h).1⟩
        exact strtolDigits_of_hex hhex h
      · rw [if_neg hx] at h
        have hhex : afterHexPrefix (c :: x :: cs) = none := if_neg fun hand => hx hand.2.1
        exact strtolDigits_of_plain hhex (by simpa [hzero] using h)
    · rw [if_neg hzero] at h
      have hhex : afterHexPrefix (c :: x :: cs) = none := if_neg fun hand => hzero hand.1
      exact strtolDigits_of_plain hhex (by simpa [hzero] using h)

/-- `strtol` with base 0 reads a number in the notation of C as what it denotes. -/
theorem strtol0_of_numeral (h : numeral 0 s = some n) : (strtol0 s).1 = n := by
  obtain ⟨rest, hdigits⟩ := strtolDigits_of_numeral h
  simp only [strtol0, scanSign_of_numeral (.inr rfl) h, hdigits]
  rfl

/-- A text is the digits that the scanner takes and what it leaves. -/
theorem scanDigits_split (base : Nat) (s : Text) :
    ∃ ds rest, s = ds ++ rest ∧ (∀ c ∈ ds, (digitVal c).any (· < base)) ∧
      scanDigits base rest = [] := by
  induction s with
  | nil => exact ⟨[], [], rfl, List.forall_mem_nil _, rfl⟩
  | cons c cs ih =>
    by_cases hdigit : (digitVal c).any (· < base) = true
    · obtain ⟨ds, rest, rfl, hall, hrest⟩ := ih
      exact ⟨c :: ds, rest, rfl, List.forall_mem_cons.mpr ⟨hdigit, hall⟩, hrest⟩
    · refine ⟨[], c :: cs, rfl, List.forall_mem_nil _, ?_⟩
      by_contra hne
      exact hdigit (scanDigits_cons_ne_nil.mp hne)

/-- What `strtoul` makes of a number, behind white space and a sign, with another text behind it. -/
theorem strtoul10_of_numeralIn {neg : Bool} {ds rest : Text}
    (hsign : scanSign (s.dropWhile isspace) = (neg, ds ++ rest))
    (h : numeralIn 10 ds = some n) (hrest : scanDigits 10 rest = []) :
    strtoul10 s = ((clampULong (if neg then -(n : Int) else n)).toNat, rest) := by
  obtain ⟨hne, hall, hval⟩ := numeralIn_eq_some.mp h
  obtain ⟨hscan, hlen⟩ := scanDigits_append hall hrest
  obtain ⟨d, values, hvalues⟩ : ∃ d values, ds.filterMap digitVal = d :: values := by
    rw [← List.ne_nil_iff_exists_cons, ← List.length_pos_iff, hlen, List.length_pos_iff]
    exact hne
  have hdrop : (ds ++ rest).drop (d :: values).length = rest := by
    rw [← hvalues, hlen, List.drop_left]
  rw [hvalues] at hval hscan
  rw [strtoul10, hsign]
  dsimp only
  rw [hscan]
  dsimp only
  rw [hval, hdrop]

/-- Without digits `strtoul` gives 0 and leaves the whole text. -/
theorem strtoul10_of_no_digits {neg : Bool} {t : Text}
    (hsign : scanSign (s.dropWhile isspace) = (neg, t)) (h : scanDigits 10 t = []) :
    strtoul10 s = (0, s) := by
  rw [strtoul10, hsign]
  dsimp only
  rw [h]

/-- A printed number is a number. -/
theorem numeralIn_decimal (n : Nat) : numeralIn 10 (decimal n) = some n := by
  have hdigits : ∀ c ∈ decimal n, (digitVal c).any (· < 10) = true := fun c hc =>
    (digitVal_any_ten c).trans (isdigit_of_mem_decimal hc)
  obtain ⟨ds, hds, -, hlt, hval⟩ := decimal_eq_map n
  refine numeralIn_eq_some.mpr ⟨decimal_ne_nil n, hdigits, ?_⟩
  rw [← scanDigits_eq_filterMap hdigits, hds, scanDigits_map_digitByte hlt, hval]

/-! ## Texts that `strtoul` takes whole -/

/-- White space and a sign, or none, in front of `digits`. -/
def Spaced (s : Text) (neg : Bool) (digits : Text) : Prop :=
  ∃ blanks sign : Text, s = blanks ++ (sign ++ digits) ∧ (∀ c ∈ blanks, isspace c = true) ∧
    sign ∈ if neg then [[chr '-']] else [[], [chr '+']]

theorem spaced_of_scanSign {neg : Bool} {digits : Text}
    (h : scanSign (s.dropWhile isspace) = (neg, digits)) : Spaced s neg digits := by
  have hblanks : ∀ c ∈ s.takeWhile isspace, isspace c = true := fun c hc =>
    List.mem_takeWhile_imp hc
  have hsplit : s = s.takeWhile isspace ++ s.dropWhile isspace :=
    List.takeWhile_append_dropWhile.symm
  cases hrest : s.dropWhile isspace with
  | nil =>
    rw [hrest] at h hsplit
    cases h
    exact ⟨_, [], hsplit, hblanks, List.mem_cons_self⟩
  | cons c cs =>
    rw [hrest, scanSign] at h
    rw [hrest] at hsplit
    split at h
    · next hc =>
      cases h
      exact ⟨_, [chr '-'], hc ▸ hsplit, hblanks, List.mem_cons_self⟩
    · split at h
      · next hc =>
        cases h
        exact ⟨_, [chr '+'], hc ▸ hsplit, hblanks, List.mem_cons_of_mem _ List.mem_cons_self⟩
      · cases h
        exact ⟨_, [], hsplit, hblanks, List.mem_cons_self⟩

theorem Spaced.scanSign_eq {neg : Bool} {digits : Text} (h : Spaced s neg digits)
    (hn : numeralIn 10 digits = some n) : scanSign (s.dropWhile isspace) = (neg, digits) := by
  obtain ⟨blanks, sign, rfl, hblanks, hsign⟩ := h
  obtain ⟨hne, hall, -⟩ := numeralIn_eq_some.mp hn
  obtain ⟨d, ds, rfl⟩ := List.exists_cons_of_ne_nil hne
  have hdigit : isdigit d = true := by
    rw [← digitVal_any_ten]
    exact hall d List.mem_cons_self
  rw [List.dropWhile_append_of_pos hblanks]
  cases neg with
  | true =>
    rw [List.mem_singleton.mp hsign]
    rfl
  | false =>
    rcases List.mem_cons.mp hsign with rfl | hplus
    · exact scanSign_digits hdigit ds
    · rw [List.mem_singleton.mp hplus]
      rfl

/-- `strtoul` takes a whole text where that is a number behind white space and a sign, or none. -/
theorem strtoul10_whole_iff {k : Nat} (hs : s ≠ []) :
    strtoul10 s = (k, []) ↔ ∃ neg digits n, Spaced s neg digits ∧ numeralIn 10 digits = some n ∧
      k = (clampULong (if neg then -(n : Int) else n)).toNat := by
  constructor
  · intro h
    obtain ⟨neg, t, hsign⟩ : ∃ neg t, scanSign (s.dropWhile isspace) = (neg, t) := ⟨_, _, rfl⟩
    obtain ⟨digits, rest, rfl, hall, hrest⟩ := scanDigits_split 10 t
    by_cases hnone : digits = []
    · rw [hnone, List.nil_append] at hsign
      rw [strtoul10_of_no_digits hsign hrest] at h
      exact absurd (congrArg Prod.snd h) hs
    · have hdigits : numeralIn 10 digits = some (digitsValue 10 (digits.filterMap digitVal)) :=
        numeralIn_eq_some.mpr ⟨hnone, hall, rfl⟩
      rw [strtoul10_of_numeralIn hsign hdigits hrest] at h
      obtain ⟨hk, rfl⟩ := Prod.mk.inj h
      rw [List.append_nil] at hsign
      exact ⟨neg, digits, _, spaced_of_scanSign hsign, hdigits, hk.symm⟩
  · rintro ⟨neg, digits, n, hspaced, hdigits, rfl⟩
    have hsign := hspaced.scanSign_eq hdigits
    rw [← List.append_nil digits] at hsign
    exact strtoul10_of_numeralIn hsign hdigits rfl

end Literals

/-! ## Printing to a block of a computed size -/

/-- `result = malloc (size); sprintf (result, …)`. The size is converted to `size_t`; there is no
block of more than `PTRDIFF_MAX` bytes, and `malloc` returns NULL. -/
def mallocSprintf (size : Int) (text : Text) : Checked Text :=
  let n := (size % 2 ^ 64).toNat
  if n < 2 ^ 63 then sprintf n text else .error .nullPointer

section Printing

variable {text t : Text}

/-- It returns when the block has room for the text and its terminator. -/
theorem mallocSprintf_eq_ok {size : Int} (h₁ : -2 ^ 63 ≤ size) (h₂ : size < 2 ^ 63) :
    mallocSprintf size text = .ok t ↔ t = text ∧ (text.length : Int) < size := by
  unfold mallocSprintf
  dsimp only
  split
  · rw [sprintf_eq_ok]
    refine and_congr_right fun _ => ?_
    omega
  · constructor
    · nofun
    · rintro ⟨-, hlt⟩
      omega

theorem mallocSprintf_int_eq_ok {size : Int} :
    mallocSprintf (toInt32 size) text = .ok t ↔
      t = text ∧ (text.length : Int) < toInt32 size := by
  have hbounds := toInt32_bounds size
  exact mallocSprintf_eq_ok (by omega) (by omega)

theorem mallocSprintf_uint32_eq_ok {size : UInt32} :
    mallocSprintf size.toNat text = .ok t ↔ t = text ∧ text.length < size.toNat := by
  have hlt := size.toNat_lt
  rw [mallocSprintf_eq_ok (by omega) (by omega), Nat.cast_lt]

/-- A number is printed to a buffer that has room for its digits. -/
theorem sprintf_decimal_eq_ok {n k : Nat} (hk : 0 < k) :
    sprintf (k + 1) (decimal n) = .ok t ↔ t = decimal n ∧ n < 10 ^ k := by
  rw [sprintf_eq_ok, Nat.lt_succ_iff, decimal_length_le_iff hk]

end Printing

end CLib
