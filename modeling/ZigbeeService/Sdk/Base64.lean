-- SUMMARY: The base64 encoder and decoder of the SDK (base64.c).
import Mathlib.Data.List.GetD
import ZigbeeService.Lib.Text

/-!
# Base64

`edgex_b64_encode` and `edgex_b64_decode` on byte lists. The 24-bit group under construction is a
`Nat`; it never leaves the range of the source's `uint32_t`.
-/

namespace Zigbee

open CLib

/-- Classes of input bytes that are not symbols. -/
def WHITESPACE : Nat := 64
def EQUALS : Nat := 65
def INVALID : Nat := 66

/-- The value of a symbol, or the class of another byte. -/
def dec : List Nat :=
  [66, 66, 66, 66, 66, 66, 66, 66, 66, 66, 64, 66, 66, 66, 66, 66, 66, 66, 66,
   66, 66, 66, 66, 66, 66, 66, 66, 66, 66, 66, 66, 66, 66, 66, 66, 66, 66, 66,
   66, 66, 66, 66, 66, 62, 66, 66, 66, 63, 52, 53, 54, 55, 56, 57, 58, 59, 60,
   61, 66, 66, 66, 65, 66, 66, 66,  0,  1,  2,  3,  4,  5,  6,  7,  8,  9, 10,
   11, 12, 13, 14, 15, 16, 17, 18, 19, 20, 21, 22, 23, 24, 25, 66, 66, 66, 66,
   66, 66, 26, 27, 28, 29, 30, 31, 32, 33, 34, 35, 36, 37, 38, 39, 40, 41, 42,
   43, 44, 45, 46, 47, 48, 49, 50, 51] ++ List.replicate 133 66

def enc : Text := lit "ABCDEFGHIJKLMNOPQRSTUVWXYZabcdefghijklmnopqrstuvwxyz0123456789+/"

/-- `enc[n]` for a six-bit `n`. -/
def encSymbol (n : Nat) : UInt8 := enc.getD (n % 64) 0

/-- The size of the encoded text, with its terminator. -/
def edgexB64Encodesize (binsize : Nat) : Nat :=
  binsize / 3 * 4 + (if binsize % 3 = 0 then 0 else 4) + 1

def edgexB64Maxdecodesize (inp : Text) : Nat :=
  if inp.length % 4 = 0 then inp.length / 4 * 3 else inp.length / 4 * 3 + 2

/-- The loop of `edgex_b64_encode`: three bytes become four symbols, a rest of one or two bytes two
or three. -/
def encodeLoop : List UInt8 → Text
  | [] => []
  | [a] =>
    let n := a.toNat <<< 16
    [encSymbol (n >>> 18), encSymbol (n >>> 12)]
  | [a, b] =>
    let n := a.toNat <<< 16 + b.toNat <<< 8
    [encSymbol (n >>> 18), encSymbol (n >>> 12), encSymbol (n >>> 6)]
  | a :: b :: c :: rest =>
    let n := a.toNat <<< 16 + b.toNat <<< 8 + c.toNat
    encSymbol (n >>> 18) :: encSymbol (n >>> 12) :: encSymbol (n >>> 6) :: encSymbol n ::
      encodeLoop rest

/-- Pad to a multiple of four characters. -/
def padEquals (out : Text) : Text := out ++ List.replicate ((4 - out.length % 4) % 4) (chr '=')

/-- `edgex_b64_encode`: nothing when the buffer is too small. -/
def edgexB64Encode (inp : List UInt8) (outLen : Nat) : Option Text :=
  if outLen < edgexB64Encodesize inp.length then none else some (padEquals (encodeLoop inp))

/-- The end of `edgex_b64_decode`: an unfinished group of two or three symbols. -/
def decodeEnd (iter buf : Nat) (out : List UInt8) (outLen : Nat) : Bool × List UInt8 :=
  if iter = 3 then
    if out.length + 2 > outLen then (false, out)
    else (true, out ++ [UInt8.ofNat (buf >>> 10), UInt8.ofNat (buf >>> 2)])
  else if iter = 2 then
    if out.length + 1 > outLen then (false, out)
    else (true, out ++ [UInt8.ofNat (buf >>> 4)])
  else (true, out)

/-- The loop of `edgex_b64_decode`. `out` is what has been written, so the source's `len` is its
length. -/
def decodeLoop : Text → Nat → Nat → List UInt8 → Nat → Bool × List UInt8
  | [], iter, buf, out, outLen => decodeEnd iter buf out outLen
  | c :: cs, iter, buf, out, outLen =>
    let d := dec.getD c.toNat INVALID
    if d = WHITESPACE then decodeLoop cs iter buf out outLen
    else if d = INVALID then (false, out)
    else if d = EQUALS then decodeEnd iter buf out outLen
    else
      let buf := buf <<< 6 + d
      if iter + 1 = 4 then
        if out.length + 3 > outLen then (false, out)
        else
          decodeLoop cs 0 0
            (out ++ [UInt8.ofNat (buf >>> 16), UInt8.ofNat (buf >>> 8), UInt8.ofNat buf]) outLen
      else decodeLoop cs (iter + 1) buf out outLen

/-- `edgex_b64_decode`: whether it succeeded, and the bytes it wrote before it returned. -/
def edgexB64Decode (inp : Text) (outLen : Nat) : Bool × List UInt8 := decodeLoop inp 0 0 [] outLen

/-! ## The alphabet -/

theorem encSymbol_mem (n : Nat) : encSymbol n ∈ enc := by
  have hlt : n % 64 < enc.length := Nat.mod_lt _ (by decide)
  rw [encSymbol, List.getD_eq_getElem _ _ hlt]
  exact List.getElem_mem hlt

theorem mem_encodeLoop {inp : List UInt8} {c : UInt8} (hc : c ∈ encodeLoop inp) : c ∈ enc := by
  induction inp using encodeLoop.induct with
  | case1 => simp [encodeLoop] at hc
  | case2 a =>
    simp only [encodeLoop, List.mem_cons, List.not_mem_nil, or_false] at hc
    rcases hc with rfl | rfl <;> exact encSymbol_mem _
  | case3 a b =>
    simp only [encodeLoop, List.mem_cons, List.not_mem_nil, or_false] at hc
    rcases hc with rfl | rfl | rfl <;> exact encSymbol_mem _
  | case4 a b c rest ih =>
    simp only [encodeLoop, List.mem_cons] at hc
    rcases hc with rfl | rfl | rfl | rfl | hc
    · exact encSymbol_mem _
    · exact encSymbol_mem _
    · exact encSymbol_mem _
    · exact encSymbol_mem _
    · exact ih hc

/-- An encoded text consists of symbols and padding. -/
theorem mem_edgexB64Encode {inp : List UInt8} {outLen : Nat} {out : Text}
    (h : edgexB64Encode inp outLen = some out) {c : UInt8} (hc : c ∈ out) :
    c ∈ enc ∨ c = chr '=' := by
  unfold edgexB64Encode at h
  split at h
  · cases h
  · cases h
    rw [padEquals, List.mem_append, List.mem_replicate] at hc
    exact hc.imp mem_encodeLoop And.right

/-! ## Decoding what was encoded -/

theorem dec_encSymbol (n : Nat) : dec.getD (encSymbol n).toNat INVALID = n % 64 := by
  have hall : ∀ m < 64, dec.getD (encSymbol m).toNat INVALID = m := by decide +kernel
  rw [← hall (n % 64) (Nat.mod_lt _ (by decide)), encSymbol, encSymbol, Nat.mod_mod]

section Decode

variable {iter buf outLen : Nat} {out : List UInt8}

/-- A symbol adds its six bits to the group, and the fourth one completes it. -/
theorem decodeLoop_encSymbol (n : Nat) (cs : Text) (iter buf : Nat) (out : List UInt8) :
    decodeLoop (encSymbol n :: cs) iter buf out outLen =
      let buf := buf <<< 6 + n % 64
      if iter + 1 = 4 then
        if out.length + 3 > outLen then (false, out)
        else
          decodeLoop cs 0 0
            (out ++ [UInt8.ofNat (buf >>> 16), UInt8.ofNat (buf >>> 8), UInt8.ofNat buf]) outLen
      else decodeLoop cs (iter + 1) buf out outLen := by
  have hlt : n % 64 < 64 := Nat.mod_lt _ (by decide)
  have hspace : n % 64 ≠ WHITESPACE := Nat.ne_of_lt hlt
  have hinvalid : n % 64 ≠ INVALID := by rw [INVALID]; omega
  have hequals : n % 64 ≠ EQUALS := by rw [EQUALS]; omega
  rw [decodeLoop]
  simp only [dec_encSymbol, if_neg hspace, if_neg hinvalid, if_neg hequals]

theorem decodeLoop_symbol (n : Nat) (cs : Text) (hiter : iter + 1 ≠ 4) :
    decodeLoop (encSymbol n :: cs) iter buf out outLen =
      decodeLoop cs (iter + 1) (buf <<< 6 + n % 64) out outLen := by
  rw [decodeLoop_encSymbol]
  exact if_neg hiter

theorem decodeLoop_fourth (n : Nat) (cs : Text) (hroom : out.length + 3 ≤ outLen) :
    decodeLoop (encSymbol n :: cs) 3 buf out outLen =
      let buf := buf <<< 6 + n % 64
      decodeLoop cs 0 0
        (out ++ [UInt8.ofNat (buf >>> 16), UInt8.ofNat (buf >>> 8), UInt8.ofNat buf]) outLen := by
  rw [decodeLoop_encSymbol]
  exact if_neg (Nat.not_lt.mpr hroom)

/-- A byte is what remains of a number that has it in its last eight bits. -/
theorem ofNat_eq_byte {n : Nat} {b : UInt8} (h : n % 256 = b.toNat) : UInt8.ofNat n = b := by
  apply UInt8.toNat_inj.mp
  rw [UInt8.toNat_ofNat', h]

/-- Three bytes through four symbols. -/
theorem decodeLoop_group (a b c : UInt8) (cs : Text) (hroom : out.length + 3 ≤ outLen) :
    decodeLoop (encodeLoop [a, b, c] ++ cs) 0 0 out outLen =
      decodeLoop cs 0 0 (out ++ [a, b, c]) outLen := by
  have ha := a.toNat_lt
  have hb := b.toNat_lt
  have hc := c.toNat_lt
  simp only [encodeLoop, List.cons_append, List.nil_append]
  rw [decodeLoop_symbol _ _ (by decide), decodeLoop_symbol _ _ (by decide),
    decodeLoop_symbol _ _ (by decide), decodeLoop_fourth _ _ hroom]
  simp only [Nat.shiftLeft_eq, Nat.shiftRight_eq_div_pow]
  rw [ofNat_eq_byte (b := a) (by omega), ofNat_eq_byte (b := b) (by omega),
    ofNat_eq_byte (b := c) (by omega)]

/-- A text at which the decoder stops. -/
def Ends (tail : Text) : Prop :=
  ∀ iter buf out outLen, decodeLoop tail iter buf out outLen = decodeEnd iter buf out outLen

theorem ends_equals (k : Nat) : Ends (List.replicate k (chr '=')) := by
  cases k with
  | zero => exact fun _ _ _ _ => rfl
  | succ k =>
    intro iter buf out outLen
    have hdec : dec.getD (chr '=').toNat INVALID = EQUALS := by decide +kernel
    rw [List.replicate_succ, decodeLoop]
    simp only [hdec]
    rfl

/-- The symbols of a text give the text back. -/
theorem decodeLoop_encodeLoop {tail : Text} (htail : Ends tail) (inp : List UInt8)
    (hroom : out.length + inp.length ≤ outLen) :
    decodeLoop (encodeLoop inp ++ tail) 0 0 out outLen = (true, out ++ inp) := by
  induction inp using encodeLoop.induct generalizing out with
  | case1 =>
    rw [encodeLoop, List.nil_append, htail, List.append_nil]
    rfl
  | case2 a =>
    have ha := a.toNat_lt
    have hfit : ¬ out.length + 1 > outLen := Nat.not_lt.mpr hroom
    simp only [encodeLoop, List.cons_append, List.nil_append]
    rw [decodeLoop_symbol _ _ (by decide), decodeLoop_symbol _ _ (by decide), htail, decodeEnd,
      if_neg (by decide), if_pos rfl, if_neg hfit]
    simp only [Nat.shiftLeft_eq, Nat.shiftRight_eq_div_pow]
    rw [ofNat_eq_byte (b := a) (by omega)]
  | case3 a b =>
    have ha := a.toNat_lt
    have hb := b.toNat_lt
    have hfit : ¬ out.length + 2 > outLen := Nat.not_lt.mpr hroom
    simp only [encodeLoop, List.cons_append, List.nil_append]
    rw [decodeLoop_symbol _ _ (by decide), decodeLoop_symbol _ _ (by decide),
      decodeLoop_symbol _ _ (by decide), htail, decodeEnd, if_pos rfl, if_neg hfit]
    simp only [Nat.shiftLeft_eq, Nat.shiftRight_eq_div_pow]
    rw [ofNat_eq_byte (b := a) (by omega), ofNat_eq_byte (b := b) (by omega)]
  | case4 a b c rest ih =>
    have hlen : out.length + (rest.length + 3) ≤ outLen := hroom
    have hsplit : encodeLoop (a :: b :: c :: rest) = encodeLoop [a, b, c] ++ encodeLoop rest := rfl
    rw [hsplit, List.append_assoc, decodeLoop_group _ _ _ _ (by omega),
      ih (by rw [List.length_append, List.length_cons, List.length_cons, List.length_singleton];
             omega),
      List.append_assoc]
    rfl

end Decode

/-! ## What is accepted -/

/-- What stands in front of the padding. -/
def payload (s : Text) : Text := s.takeWhile (· ≠ chr '=')

def isSymbol (c : UInt8) : Bool := dec.getD c.toNat INVALID < 64

def symbolCount (s : Text) : Nat := (payload s).countP isSymbol

theorem dec_cases (c : UInt8) :
    dec.getD c.toNat INVALID = WHITESPACE ∧ c ≠ chr '=' ∨
      dec.getD c.toNat INVALID = INVALID ∧ c ≠ chr '=' ∨
      dec.getD c.toNat INVALID = EQUALS ∧ c = chr '=' ∨ isSymbol c = true ∧ c ≠ chr '=' :=
  forall_byte (p := fun c => dec.getD c.toNat INVALID = WHITESPACE ∧ c ≠ chr '=' ∨
    dec.getD c.toNat INVALID = INVALID ∧ c ≠ chr '=' ∨
    dec.getD c.toNat INVALID = EQUALS ∧ c = chr '=' ∨ isSymbol c = true ∧ c ≠ chr '=')
    (by decide +kernel) c

theorem dec_of_isSymbol {c : UInt8} (h : isSymbol c = true) :
    dec.getD c.toNat INVALID ≠ WHITESPACE ∧ dec.getD c.toNat INVALID ≠ INVALID ∧
      dec.getD c.toNat INVALID ≠ EQUALS := by
  have hlt : dec.getD c.toNat INVALID < 64 := of_decide_eq_true h
  rw [WHITESPACE, INVALID, EQUALS] at *
  omega

theorem payload_cons {c : UInt8} (hc : c ≠ chr '=') (cs : Text) :
    payload (c :: cs) = c :: payload cs :=
  List.takeWhile_cons_of_pos (by simpa using hc)

theorem symbolCount_cons {c : UInt8} (hc : c ≠ chr '=') (cs : Text) :
    symbolCount (c :: cs) = symbolCount cs + if isSymbol c then 1 else 0 := by
  rw [symbolCount, payload_cons hc, List.countP_cons, symbolCount]

/-- No byte in front of the padding is invalid. -/
def ValidPayload (s : Text) : Prop := ∀ c ∈ payload s, dec.getD c.toNat INVALID ≠ INVALID

/-- The outcome of decoding to `len` bytes: accepted when the text is valid and the bytes fit. -/
def DecodesTo (valid : Prop) (len outLen : Nat) (r : Bool × List UInt8) : Prop :=
  (r.1 = true ↔ valid ∧ len ≤ outLen) ∧ (r.1 = true → r.2.length = len)

section Accepted

variable {s : Text} {iter buf outLen len : Nat} {out : List UInt8} {valid : Prop}

theorem DecodesTo.rejected (h : ¬ (valid ∧ len ≤ outLen)) :
    DecodesTo valid len outLen (false, out) :=
  ⟨iff_of_false (by simp) h, fun hok => by cases hok⟩

/-- Of an unfinished group the whole bytes are written. -/
theorem decodeEnd_spec (hiter : iter < 4) (hout : out.length ≤ outLen) :
    DecodesTo True (out.length + iter * 3 / 4) outLen (decodeEnd iter buf out outLen) := by
  have hrest : iter = 3 ∧ iter * 3 / 4 = 2 ∨ iter = 2 ∧ iter * 3 / 4 = 1 ∨
      iter ≠ 3 ∧ iter ≠ 2 ∧ iter * 3 / 4 = 0 := by omega
  unfold decodeEnd DecodesTo
  rcases hrest with ⟨h, hlen⟩ | ⟨h, hlen⟩ | ⟨h₃, h₂, hlen⟩
  · rw [if_pos h, hlen]
    split <;> simp_all
  · rw [if_neg (by omega), if_pos h, hlen]
    split <;> simp_all
  · rw [if_neg h₃, if_neg h₂, hlen]
    simpa using hout

theorem decodeEnd_of_payload (hpayload : payload s = []) (hiter : iter < 4)
    (hout : out.length ≤ outLen) :
    DecodesTo (ValidPayload s) (out.length + (iter + symbolCount s) * 3 / 4) outLen
      (decodeEnd iter buf out outLen) := by
  have hvalid : ValidPayload s ↔ True :=
    iff_of_true (by rw [ValidPayload, hpayload]; exact List.forall_mem_nil _) trivial
  have hcount : symbolCount s = 0 := by rw [symbolCount, hpayload, List.countP_nil]
  rw [DecodesTo, hvalid, hcount, Nat.add_zero]
  exact decodeEnd_spec hiter hout

theorem validPayload_cons {c : UInt8} (hc : c ≠ chr '=') (cs : Text) :
    ValidPayload (c :: cs) ↔ dec.getD c.toNat INVALID ≠ INVALID ∧ ValidPayload cs := by
  rw [ValidPayload, payload_cons hc, List.forall_mem_cons, ValidPayload]

/-- Three bytes are written of every four symbols. -/
theorem decodeLoop_spec (hiter : iter < 4) (hout : out.length ≤ outLen) :
    DecodesTo (ValidPayload s) (out.length + (iter + symbolCount s) * 3 / 4) outLen
      (decodeLoop s iter buf out outLen) := by
  induction s generalizing iter buf out with
  | nil => exact decodeEnd_of_payload rfl hiter hout
  | cons c cs ih =>
    rw [decodeLoop]
    dsimp only
    rcases dec_cases c with ⟨hd, hne⟩ | ⟨hd, hne⟩ | ⟨hd, rfl⟩ | ⟨hd, hne⟩
    · -- white space
      have hsymbol : isSymbol c = false := by
        rw [isSymbol, hd]
        rfl
      have hvalid : ValidPayload (c :: cs) ↔ ValidPayload cs := by
        rw [validPayload_cons hne, hd]
        exact and_iff_right (by decide)
      rw [if_pos hd, symbolCount_cons hne, hsymbol, DecodesTo, hvalid]
      exact ih hiter hout
    · rw [if_neg (by rw [hd]; decide), if_pos hd]
      exact DecodesTo.rejected fun h => ((validPayload_cons hne cs).mp h.1).1 hd
    · rw [if_neg (by rw [hd]; decide), if_neg (by rw [hd]; decide), if_pos hd]
      exact decodeEnd_of_payload (List.takeWhile_cons_of_neg (by simp)) hiter hout
    · obtain ⟨hspace, hinvalid, hequals⟩ := dec_of_isSymbol hd
      have hvalid : ValidPayload (c :: cs) ↔ ValidPayload cs := by
        rw [validPayload_cons hne]
        exact and_iff_right hinvalid
      rw [if_neg hspace, if_neg hinvalid, if_neg hequals, symbolCount_cons hne, hd, if_pos rfl]
      split
      · next hfour =>
        split
        · exact DecodesTo.rejected fun h => by omega
        · have hgroup {bs : List UInt8} (hbs : bs.length = 3) : DecodesTo (ValidPayload cs)
              (out.length + (iter + (symbolCount cs + 1)) * 3 / 4) outLen
              (decodeLoop cs 0 0 (out ++ bs) outLen) := by
            have hlen : (out ++ bs).length = out.length + 3 := by rw [List.length_append, hbs]
            have hsum : out.length + (iter + (symbolCount cs + 1)) * 3 / 4 =
                (out ++ bs).length + (0 + symbolCount cs) * 3 / 4 := by omega
            rw [hsum]
            exact ih (by decide) (by omega)
          rw [DecodesTo, hvalid]
          exact hgroup rfl
      · next hfour =>
        have hsum : iter + 1 + symbolCount cs = iter + (symbolCount cs + 1) := by omega
        rw [DecodesTo, hvalid, ← hsum]
        exact ih (by omega) hout

theorem edgexB64Decode_spec (s : Text) (outLen : Nat) :
    DecodesTo (ValidPayload s) (symbolCount s * 3 / 4) outLen (edgexB64Decode s outLen) := by
  have hspec : DecodesTo (ValidPayload s) (([] : List UInt8).length + (0 + symbolCount s) * 3 / 4)
      outLen (decodeLoop s 0 0 [] outLen) := decodeLoop_spec (by decide) (Nat.zero_le outLen)
  rwa [List.length_nil, Nat.zero_add, Nat.zero_add] at hspec

theorem length_payload_le {i : Nat} (hpad : s[i]? = some (chr '=')) : (payload s).length ≤ i := by
  obtain ⟨hi, hget⟩ := List.getElem?_eq_some_iff.mp hpad
  by_contra hlt
  rw [Nat.not_le] at hlt
  have hprefix : payload s <+: s := List.takeWhile_prefix _
  have hmem : chr '=' ∈ payload s := by
    rw [← hget, ← hprefix.getElem hlt]
    exact List.getElem_mem hlt
  simpa using List.mem_takeWhile_imp hmem

/-- There are not more symbols than characters in front of a padding character. -/
theorem symbolCount_le {i : Nat} (hpad : s[i]? = some (chr '=')) : symbolCount s ≤ i :=
  List.countP_le_length.trans (length_payload_le hpad)

theorem symbolCount_eq_iff {i : Nat} (hpad : s[i]? = some (chr '=')) :
    symbolCount s = i ↔ ∀ c ∈ s.take i, isSymbol c = true := by
  obtain ⟨hi, hget⟩ := List.getElem?_eq_some_iff.mp hpad
  constructor
  · intro hcount
    have hle : symbolCount s ≤ (payload s).length := List.countP_le_length
    have hlen : (payload s).length = i := by
      have := length_payload_le hpad
      omega
    have hprefix : payload s <+: s := List.takeWhile_prefix _
    rw [← hlen, ← List.prefix_iff_eq_take.mp hprefix]
    exact List.countP_eq_length.mp (hcount.trans hlen.symm)
  · intro hall
    have hne : ∀ c ∈ s.take i, decide (c ≠ chr '=') = true := by
      intro c hc
      refine decide_eq_true ?_
      rintro rfl
      exact absurd (hall _ hc) (by decide +kernel)
    have hsplit : s.take i ++ chr '=' :: s.drop (i + 1) = s := by
      rw [← hget, ← List.drop_eq_getElem_cons hi, List.take_append_drop]
    have hpayload : payload s = s.take i := by
      conv_lhs => rw [payload, ← hsplit, List.takeWhile_append_of_pos hne]
      rw [List.takeWhile_cons_of_neg (by simp), List.append_nil]
    rw [symbolCount, hpayload, List.countP_eq_length.mpr hall, List.length_take]
    omega

end Accepted

theorem length_encodeLoop (inp : List UInt8) :
    (encodeLoop inp).length =
      inp.length / 3 * 4 + (if inp.length % 3 = 0 then 0 else inp.length % 3 + 1) := by
  induction inp using encodeLoop.induct with
  | case1 => rfl
  | case2 a => simp [encodeLoop]
  | case3 a b => simp [encodeLoop]
  | case4 a b c rest ih =>
    have hdiv : (rest.length + 3) / 3 = rest.length / 3 + 1 := Nat.add_div_right _ (by decide)
    have hmod : (rest.length + 3) % 3 = rest.length % 3 := Nat.add_mod_right _ _
    simp only [encodeLoop, List.length_cons, ih, hdiv, hmod]
    omega

/-- The encoded text fills its buffer up to the terminator. -/
theorem length_padEquals_encodeLoop (inp : List UInt8) :
    (padEquals (encodeLoop inp)).length + 1 = edgexB64Encodesize inp.length := by
  have hmod : inp.length % 3 < 3 := Nat.mod_lt _ (by decide)
  rw [padEquals, List.length_append, List.length_replicate, length_encodeLoop, edgexB64Encodesize]
  split <;> omega

/-- There is room for the decoded text in what `edgex_b64_maxdecodesize` asks for. -/
theorem length_le_edgexB64Maxdecodesize (inp : List UInt8) :
    inp.length ≤ edgexB64Maxdecodesize (padEquals (encodeLoop inp)) := by
  have hlen := length_padEquals_encodeLoop inp
  rw [edgexB64Encodesize] at hlen
  rw [edgexB64Maxdecodesize]
  split at hlen <;> split <;> omega

/-- An encoded text, decoded into a buffer with room for its bytes. -/
theorem edgexB64Decode_padEquals {inp : List UInt8} {outLen : Nat} (h : inp.length ≤ outLen) :
    edgexB64Decode (padEquals (encodeLoop inp)) outLen = (true, inp) :=
  decodeLoop_encodeLoop (ends_equals _) inp (by simpa using h)

/-- An encoded text in the buffer it needs, decoded into a buffer of the size it asks for. -/
theorem edgexB64Decode_edgexB64Encode {inp : List UInt8} {outLen : Nat} {out : Text}
    (h : edgexB64Encode inp outLen = some out) :
    edgexB64Decode out (edgexB64Maxdecodesize out) = (true, inp) := by
  unfold edgexB64Encode at h
  split at h
  · cases h
  · cases h
    exact edgexB64Decode_padEquals (length_le_edgexB64Maxdecodesize inp)

/-- The buffer of the size that `edgex_b64_encodesize` gives is large enough. -/
theorem edgexB64Encode_encodesize (inp : List UInt8) :
    edgexB64Encode inp (edgexB64Encodesize inp.length) = some (padEquals (encodeLoop inp)) :=
  if_neg (Nat.lt_irrefl _)

end Zigbee
