-- SUMMARY: The base64 encoder and decoder on the caller's buffers, with every access checked (base64.c).
import ZigbeeService.Lib.Bits
import ZigbeeService.Lib.Block
import ZigbeeService.Sdk.Base64

/-!
# Base64 in memory

`edgex_b64_encode` and `edgex_b64_decode` as they read their tables and their input by index and
store to a buffer of the caller. A buffer is a block, so a store behind its end is a fault. They
compute what the functions on byte lists compute. Sizes are natural numbers: no object is so large
that a `size_t` computed here would wrap (`edgexB64Encodesize_lt`).
-/

namespace Zigbee

open CLib Block

-- ---------------------------------------------------------------------------
-- The encoder
-- ---------------------------------------------------------------------------

/-- Up to three bytes of the data combined into 24 bits. -/
def combine (data : List UInt8) (x : Nat) : Checked UInt32 := do
  let a ← load data x
  let n := a.toUInt32 <<< 16
  let n ← if x + 1 < data.length then do
      let b ← load data (x + 1)
      pure (n + b.toUInt32 <<< 8)
    else pure n
  if x + 2 < data.length then do
    let c ← load data (x + 2)
    return n + c.toUInt32
  else return n

/-- `out[resultIndex++] = enc[(uint8_t) n & 63]`. -/
def putSymbol (n : UInt32) (out : Block × Nat) : Checked (Block × Nat) := do
  let c ← load enc (n.toUInt8 &&& 63).toNat
  put c out

def putSymbolIf (more : Bool) (n : UInt32) (out : Block × Nat) : Checked (Block × Nat) :=
  if more then putSymbol n out else return out

/-- One round of the loop: up to three bytes become two to four characters. -/
def encodeGroup (data : List UInt8) (x : Nat) (out : Block × Nat) : Checked (Block × Nat) := do
  let n ← combine data x
  let out ← putSymbol (n >>> 18) out
  let out ← putSymbol (n >>> 12) out
  let out ← putSymbolIf (x + 1 < data.length) (n >>> 6) out
  putSymbolIf (x + 2 < data.length) n out

/-- The loop over the data, three bytes at a time. -/
def encodeTo (data : List UInt8) (x : Nat) (out : Block × Nat) : Checked (Block × Nat) :=
  if x < data.length then do
    let out ← encodeGroup data x out
    encodeTo data (x + 3) out
  else return out
termination_by data.length - x

/-- Pad to a multiple of four characters. -/
def padTo (out : Block) (resultIndex : Nat) : Checked (Block × Nat) :=
  if resultIndex % 4 = 0 then return (out, resultIndex)
  else do
    let out ← out.store resultIndex (chr '=')
    padTo out (resultIndex + 1)
termination_by (4 - resultIndex % 4) % 4

/-- `edgex_b64_encode`: its result and the buffer afterwards. -/
def edgexB64EncodeTo (data : List UInt8) (out : Block) (outLen : Nat) : Checked (Bool × Block) :=
  if outLen < edgexB64Encodesize data.length then return (false, out)
  else do
    let (out, resultIndex) ← encodeTo data 0 (out, 0)
    let (out, resultIndex) ← padTo out resultIndex
    let out ← out.store resultIndex 0
    return (true, out)

-- ---------------------------------------------------------------------------
-- The decoder
-- ---------------------------------------------------------------------------

/-- What `edgex_b64_decode` leaves: its result, the buffer and `*outLen`. -/
structure Decoded where
  ok : Bool
  out : Block
  outLen : Nat

/-- `*(out++) = n & 255`. -/
def putByte (n : UInt32) (out : Block × Nat) : Checked (Block × Nat) := put (n &&& 255).toUInt8 out

/-- Behind the loop: an unfinished group of two or three symbols. -/
def decodeEndTo (iter : Nat) (buf : UInt32) (len : Nat) (out : Block × Nat) (outLen : Nat) :
    Checked Decoded :=
  if iter = 3 then
    let len := len + 2
    if len > outLen then return ⟨false, out.1, outLen⟩
    else do
      let out ← putByte (buf >>> 10) out
      let out ← putByte (buf >>> 2) out
      return ⟨true, out.1, len⟩
  else if iter = 2 then
    let len := len + 1
    if len > outLen then return ⟨false, out.1, outLen⟩
    else do
      let out ← putByte (buf >>> 4) out
      return ⟨true, out.1, len⟩
  else return ⟨true, out.1, len⟩

/-- The loop over the characters of the text. -/
def decodeTo : Text → Nat → UInt32 → Nat → Block × Nat → Nat → Checked Decoded
  | [], iter, buf, len, out, outLen => decodeEndTo iter buf len out outLen
  | ch :: inp, iter, buf, len, out, outLen => do
    let c ← load dec ch.toNat
    if c = WHITESPACE then decodeTo inp iter buf len out outLen
    else if c = INVALID then return ⟨false, out.1, outLen⟩
    else if c = EQUALS then decodeEndTo iter buf len out outLen
    else
      let buf := buf <<< 6 ||| UInt32.ofNat c
      if iter + 1 = 4 then
        let len := len + 3
        if len > outLen then return ⟨false, out.1, outLen⟩
        else do
          let out ← putByte (buf >>> 16) out
          let out ← putByte (buf >>> 8) out
          let out ← putByte buf out
          decodeTo inp 0 0 len out outLen
      else decodeTo inp (iter + 1) buf len out outLen

/-- `edgex_b64_decode`. -/
def edgexB64DecodeTo (inp : Text) (out : Block) (outLen : Nat) : Checked Decoded :=
  decodeTo inp 0 0 0 (out, 0) outLen

-- ---------------------------------------------------------------------------
-- Words and bytes
-- ---------------------------------------------------------------------------

theorem toNat_toUInt8_and (n : UInt32) : (n.toUInt8 &&& 63).toNat = n.toNat % 64 := by
  have hmask : (63 : UInt8).toNat = 2 ^ 6 - 1 := rfl
  rw [UInt8.toNat_and, hmask, Nat.and_two_pow_sub_one_eq_mod, UInt32.toNat_toUInt8]
  omega

theorem toUInt8_and (n : UInt32) : (n &&& 255).toUInt8 = UInt8.ofNat n.toNat := by
  have hmask : (255 : UInt32).toNat = 2 ^ 8 - 1 := rfl
  apply UInt8.toNat_inj.mp
  rw [UInt32.toNat_toUInt8, UInt32.toNat_and, hmask, Nat.and_two_pow_sub_one_eq_mod,
    UInt8.toNat_ofNat', Nat.mod_mod]

/-- The 24 bits that three bytes, two or one make. -/
theorem toNat_combined (a b c : UInt8) :
    (a.toUInt32 <<< 16).toNat = a.toNat <<< 16 ∧
      (a.toUInt32 <<< 16 + b.toUInt32 <<< 8).toNat = a.toNat <<< 16 + b.toNat <<< 8 ∧
      (a.toUInt32 <<< 16 + b.toUInt32 <<< 8 + c.toUInt32).toNat =
        a.toNat <<< 16 + b.toNat <<< 8 + c.toNat := by
  have ha := a.toNat_lt
  have hb := b.toNat_lt
  have hc := c.toNat_lt
  have h₁₆ : (16 : UInt32).toNat % 32 = 16 := rfl
  have h₈ : (8 : UInt32).toNat % 32 = 8 := rfl
  simp only [UInt32.toNat_add, UInt32.toNat_shiftLeft, UInt8.toNat_toUInt32, h₁₆, h₈,
    Nat.shiftLeft_eq]
  omega

/-- A symbol is shifted into the buffer of the decoder. -/
theorem toNat_shifted {buf : UInt32} {c : Nat} (hbuf : buf.toNat < 2 ^ 18) (hc : c < 64) :
    (buf <<< 6 ||| UInt32.ofNat c).toNat = buf.toNat <<< 6 + c := by
  have h₆ : (6 : UInt32).toNat % 32 = 6 := rfl
  have hshift : (buf <<< 6).toNat = buf.toNat <<< 6 := by
    rw [UInt32.toNat_shiftLeft, h₆, Nat.mod_eq_of_lt]
    rw [Nat.shiftLeft_eq]
    omega
  have hsymbol : (UInt32.ofNat c).toNat = c := by
    rw [UInt32.toNat_ofNat', Nat.mod_eq_of_lt]
    omega
  rw [UInt32.toNat_or, hshift, hsymbol]
  exact (Nat.shiftLeft_add_eq_or_of_lt hc _).symm

theorem toNat_shiftRight (n : UInt32) {k : UInt32} (hk : k.toNat < 32) :
    (n >>> k).toNat = n.toNat >>> k.toNat := by
  rw [UInt32.toNat_shiftRight, Nat.mod_eq_of_lt hk]

-- ---------------------------------------------------------------------------
-- The encoder stays in its buffer
-- ---------------------------------------------------------------------------

section Encoder

variable {b : Block} {bytes : List UInt8}

/-- From `x` on the data is what is left of it. -/
theorem lt_length_iff {data rest : List UInt8} {x : Nat} (h : data.drop x = rest) (i : Nat) :
    x + i < data.length ↔ i < rest.length := by
  rw [← h, List.length_drop]
  omega

theorem load_add {data rest : List UInt8} {x : Nat} (h : data.drop x = rest) (i : Nat) :
    load data (x + i) = load rest i := by
  rw [load, load, ← h, List.getElem?_drop]

theorem encodeGroup_drop {data rest : List UInt8} {x : Nat} (h : data.drop x = rest)
    (out : Block × Nat) : encodeGroup data x out = encodeGroup rest 0 out := by
  have hload : load data x = load rest 0 := load_add h 0
  simp only [encodeGroup, combine, hload, load_add h, lt_length_iff h, Nat.zero_add]

theorem putSymbol_written (n : UInt32) (hroom : bytes.length < b.size) :
    putSymbol n (b.written bytes) = .ok (b.written (bytes ++ [encSymbol n.toNat])) := by
  have hlt : n.toNat % 64 < enc.length := Nat.mod_lt _ (by decide)
  have hload : load enc (n.toUInt8 &&& 63).toNat = .ok (encSymbol n.toNat) := by
    rw [load_eq_ok, toNat_toUInt8_and, encSymbol, List.getD_eq_getElem _ _ hlt,
      List.getElem?_eq_getElem hlt]
  rw [putSymbol, hload, Checked.ok_bind, put_written _ hroom]

/-- A round writes the symbols of its bytes. -/
theorem encodeGroup_eq {data : List UInt8} {x : Nat} (hx : x < data.length)
    (hroom : bytes.length + (encodeLoop ((data.drop x).take 3)).length ≤ b.size) :
    encodeGroup data x (b.written bytes) =
      .ok (b.written (bytes ++ encodeLoop ((data.drop x).take 3))) := by
  rw [encodeGroup_drop rfl]
  generalize hrest : data.drop x = rest at hroom ⊢
  have hlen (n : UInt8) : (bytes ++ [n]).length = bytes.length + 1 := List.length_append
  have hlen₂ (m n : UInt8) : (bytes ++ [m] ++ [n]).length = bytes.length + 2 := by
    rw [List.length_append, hlen]
    rfl
  have hlen₃ (l m n : UInt8) : (bytes ++ [l] ++ [m] ++ [n]).length = bytes.length + 3 := by
    rw [List.length_append, hlen₂]
    rfl
  match rest with
  | [] =>
    have hdrop := congrArg List.length hrest
    rw [List.length_drop, List.length_nil] at hdrop
    omega
  | [a] =>
    have hroom₂ : bytes.length + 2 ≤ b.size := hroom
    have hcombine : combine [a] 0 = .ok (a.toUInt32 <<< 16) := rfl
    have hn := (toNat_combined a 0 0).1
    rw [encodeGroup, hcombine, Checked.ok_bind, putSymbol_written _ (by omega), Checked.ok_bind,
      putSymbol_written _ (by rw [hlen]; omega), Checked.ok_bind, toNat_shiftRight _ (by decide),
      toNat_shiftRight _ (by decide), hn, List.append_assoc]
    rfl
  | [a, c] =>
    have hroom₃ : bytes.length + 3 ≤ b.size := hroom
    have hcombine : combine [a, c] 0 = .ok (a.toUInt32 <<< 16 + c.toUInt32 <<< 8) := rfl
    have hn := (toNat_combined a c 0).2.1
    have hmore (n : UInt32) (out : Block × Nat) :
        putSymbolIf (0 + 1 < [a, c].length) n out = putSymbol n out := rfl
    rw [encodeGroup, hcombine, Checked.ok_bind, putSymbol_written _ (by omega), Checked.ok_bind,
      putSymbol_written _ (by rw [hlen]; omega), Checked.ok_bind, hmore,
      putSymbol_written _ (by rw [hlen₂]; omega), Checked.ok_bind, toNat_shiftRight _ (by decide),
      toNat_shiftRight _ (by decide), toNat_shiftRight _ (by decide), hn, List.append_assoc,
      List.append_assoc]
    rfl
  | a :: c :: d :: rest =>
    have hroom₄ : bytes.length + 4 ≤ b.size := hroom
    have hcombine : combine (a :: c :: d :: rest) 0 =
        .ok (a.toUInt32 <<< 16 + c.toUInt32 <<< 8 + d.toUInt32) := by
      simp [combine, load]
    have hn := (toNat_combined a c d).2.2
    have hsecond (n : UInt32) (out : Block × Nat) :
        putSymbolIf (0 + 1 < (a :: c :: d :: rest).length) n out = putSymbol n out := by
      simp [putSymbolIf]
    have hthird (n : UInt32) (out : Block × Nat) :
        putSymbolIf (0 + 2 < (a :: c :: d :: rest).length) n out = putSymbol n out := by
      simp [putSymbolIf]
    rw [encodeGroup, hcombine, Checked.ok_bind, putSymbol_written _ (by omega), Checked.ok_bind,
      putSymbol_written _ (by rw [hlen]; omega), Checked.ok_bind, hsecond,
      putSymbol_written _ (by rw [hlen₂]; omega), Checked.ok_bind, hthird,
      putSymbol_written _ (by rw [hlen₃]; omega), toNat_shiftRight _ (by decide),
      toNat_shiftRight _ (by decide), toNat_shiftRight _ (by decide), hn, List.append_assoc,
      List.append_assoc, List.append_assoc]
    rfl

theorem encodeLoop_take_drop (data : List UInt8) :
    encodeLoop data = encodeLoop (data.take 3) ++ encodeLoop (data.drop 3) := by
  match data with
  | [] => rfl
  | [_] => rfl
  | [_, _] => rfl
  | _ :: _ :: _ :: _ => rfl

/-- The encoder reads its data and writes the symbols of the list version. -/
theorem encodeTo_eq (data : List UInt8) (x : Nat)
    (hroom : bytes.length + (encodeLoop (data.drop x)).length ≤ b.size) :
    encodeTo data x (b.written bytes) = .ok (b.written (bytes ++ encodeLoop (data.drop x))) := by
  induction hleft : data.length - x using Nat.strong_induction_on generalizing x bytes with
  | _ left ih =>
    by_cases hx : x < data.length
    · rw [encodeLoop_take_drop, List.drop_drop, List.length_append] at hroom
      rw [encodeTo, if_pos hx, encodeGroup_eq hx (by omega), Checked.ok_bind,
        ih (data.length - (x + 3)) (by omega) _ (by rw [List.length_append]; omega) rfl,
        List.append_assoc, ← List.drop_drop, ← encodeLoop_take_drop]
    · rw [encodeTo, if_neg hx, List.drop_eq_nil_of_le (Nat.not_lt.mp hx), encodeLoop,
        List.append_nil]
      rfl

/-- The padding of the list version. -/
theorem padTo_eq (hroom : (padEquals bytes).length ≤ b.size) :
    padTo (b.filled bytes) bytes.length = .ok (b.written (padEquals bytes)) := by
  rw [padEquals, List.length_append, List.length_replicate] at hroom
  generalize hk : (4 - bytes.length % 4) % 4 = k at hroom
  rw [padEquals, hk]
  induction k generalizing bytes with
  | zero =>
    have hwhole : bytes.length % 4 = 0 := by omega
    rw [padTo, if_pos hwhole, List.replicate_zero, List.append_nil]
    rfl
  | succ k ih =>
    have hpart : bytes.length % 4 ≠ 0 := by omega
    have hlen : (bytes ++ [chr '=']).length = bytes.length + 1 := List.length_append
    have hrest : padTo (b.filled (bytes ++ [chr '='])) (bytes ++ [chr '=']).length =
        .ok (b.written ((bytes ++ [chr '=']) ++ List.replicate k (chr '='))) :=
      ih (by rw [hlen]; omega) (by rw [hlen]; omega)
    rw [hlen, List.append_assoc] at hrest
    rw [padTo, if_neg hpart, store_filled _ rfl (by omega), Checked.ok_bind]
    exact hrest

/-- `edgex_b64_encode` writes the text and its terminator, or nothing. -/
theorem edgexB64EncodeTo_eq (data : List UInt8) {outLen : Nat} (hsize : outLen ≤ b.size) :
    edgexB64EncodeTo data b outLen =
      .ok (if outLen < edgexB64Encodesize data.length then (false, b)
        else (true, b.filled (padEquals (encodeLoop data) ++ [0]))) := by
  have hlen := length_padEquals_encodeLoop data
  have hpad : (encodeLoop data).length ≤ (padEquals (encodeLoop data)).length :=
    (List.prefix_append _ _).length_le
  rw [edgexB64EncodeTo]
  by_cases hfull : outLen < edgexB64Encodesize data.length
  · rw [if_pos hfull, if_pos hfull]
    rfl
  · have hstart : encodeTo data 0 (b.written []) = .ok (b.written ([] ++ encodeLoop data)) :=
      encodeTo_eq data 0 (by simp only [List.drop_zero, List.length_nil]; omega)
    have hloop : encodeTo data 0 (b, 0) = .ok (b.written (encodeLoop data)) := hstart
    rw [if_neg hfull, if_neg hfull, hloop, Checked.ok_bind, written]
    dsimp only
    rw [padTo_eq (by omega), Checked.ok_bind, written]
    dsimp only
    rw [store_filled _ rfl (by omega), Checked.ok_bind]
    rfl

end Encoder

-- ---------------------------------------------------------------------------
-- The decoder stays in its buffer
-- ---------------------------------------------------------------------------

section Decoder

variable {b : Block} {bytes : List UInt8} {iter outLen : Nat} {buf : UInt32}

theorem load_dec (c : UInt8) : load dec c.toNat = .ok (dec.getD c.toNat INVALID) := by
  have hlen : dec.length = 256 := by
    rw [dec, List.length_append, List.length_replicate]
    rfl
  have hlt : c.toNat < dec.length := by
    rw [hlen]
    exact c.toNat_lt
  rw [load_eq_ok, List.getD_eq_getElem _ _ hlt, List.getElem?_eq_getElem hlt]

theorem putByte_written (n : UInt32) (hroom : bytes.length < b.size) :
    putByte n (b.written bytes) = .ok (b.written (bytes ++ [UInt8.ofNat n.toNat])) := by
  rw [putByte, toUInt8_and, put_written _ hroom]

/-- The outcome of decoding into a list, for the buffer. -/
def decodedInto (b : Block) (outLen : Nat) (r : Bool × List UInt8) : Decoded :=
  ⟨r.1, b.filled r.2, if r.1 then r.2.length else outLen⟩

theorem decodeEndTo_eq (hsize : outLen ≤ b.size) :
    decodeEndTo iter buf bytes.length (b.written bytes) outLen =
      .ok (decodedInto b outLen (decodeEnd iter buf.toNat bytes outLen)) := by
  have h₁₀ : (buf >>> 10).toNat = buf.toNat >>> 10 := toNat_shiftRight buf (by decide)
  have h₄ : (buf >>> 4).toNat = buf.toNat >>> 4 := toNat_shiftRight buf (by decide)
  have h₂ : (buf >>> 2).toNat = buf.toNat >>> 2 := toNat_shiftRight buf (by decide)
  have hlen (c : UInt8) : (bytes ++ [c]).length = bytes.length + 1 := List.length_append
  simp only [decodeEndTo, decodeEnd]
  by_cases h₃ : iter = 3
  · rw [if_pos h₃, if_pos h₃]
    by_cases hfull : bytes.length + 2 > outLen
    · rw [if_pos hfull, if_pos hfull]
      rfl
    · rw [if_neg hfull, if_neg hfull, putByte_written _ (by omega), Checked.ok_bind,
        putByte_written _ (by rw [hlen]; omega), Checked.ok_bind, h₁₀, h₂, List.append_assoc]
      simp [decodedInto, written]
  · rw [if_neg h₃, if_neg h₃]
    by_cases htwo : iter = 2
    · rw [if_pos htwo, if_pos htwo]
      by_cases hfull : bytes.length + 1 > outLen
      · rw [if_pos hfull, if_pos hfull]
        rfl
      · rw [if_neg hfull, if_neg hfull, putByte_written _ (by omega), Checked.ok_bind, h₄]
        simp [decodedInto, written]
    · rw [if_neg htwo, if_neg htwo]
      rfl

/-- The three bytes of a full group are written behind those that are there. -/
theorem putGroup_written {α : Type} (f : Block × Nat → Checked α)
    (hroom : bytes.length + 3 ≤ b.size) :
    (do
      let out ← putByte (buf >>> 16) (b.written bytes)
      let out ← putByte (buf >>> 8) out
      let out ← putByte buf out
      f out) =
      f (b.written (bytes ++ [UInt8.ofNat (buf.toNat >>> 16), UInt8.ofNat (buf.toNat >>> 8),
        UInt8.ofNat buf.toNat])) := by
  have h₁₆ : (buf >>> 16).toNat = buf.toNat >>> 16 := toNat_shiftRight buf (by decide)
  have h₈ : (buf >>> 8).toNat = buf.toNat >>> 8 := toNat_shiftRight buf (by decide)
  have hlen (n : UInt8) : (bytes ++ [n]).length = bytes.length + 1 := List.length_append
  have hlen₂ (m n : UInt8) : (bytes ++ [m] ++ [n]).length = bytes.length + 2 := by
    rw [List.length_append, hlen]
    rfl
  rw [putByte_written _ (by omega), Checked.ok_bind, putByte_written _ (by rw [hlen]; omega),
    Checked.ok_bind, putByte_written _ (by rw [hlen₂]; omega), Checked.ok_bind, h₁₆, h₈,
    List.append_assoc, List.append_assoc]
  rfl

/-- What is left when the table says nothing else is a symbol. -/
theorem dec_lt {c : UInt8} (hspace : dec.getD c.toNat INVALID ≠ WHITESPACE)
    (hinvalid : dec.getD c.toNat INVALID ≠ INVALID) (hequals : dec.getD c.toNat INVALID ≠ EQUALS) :
    dec.getD c.toNat INVALID < 64 := by
  rcases dec_cases c with h | h | h | h
  · exact absurd h.1 hspace
  · exact absurd h.1 hinvalid
  · exact absurd h.1 hequals
  · exact of_decide_eq_true h.1

/-- The decoder makes no access outside its tables and the first `outLen` bytes of its buffer. -/
theorem decodeTo_eq (s : Text) (hiter : iter < 4) (hbuf : buf.toNat < 2 ^ (6 * iter))
    (hfits : bytes.length ≤ outLen) (hsize : outLen ≤ b.size) :
    decodeTo s iter buf bytes.length (b.written bytes) outLen =
      .ok (decodedInto b outLen (decodeLoop s iter buf.toNat bytes outLen)) := by
  induction s generalizing iter buf bytes with
  | nil => exact decodeEndTo_eq hsize
  | cons c s ih =>
    rw [decodeTo, decodeLoop, load_dec, Checked.ok_bind]
    dsimp only
    by_cases hspace : dec.getD c.toNat INVALID = WHITESPACE
    · rw [if_pos hspace, if_pos hspace]
      exact ih hiter hbuf hfits
    by_cases hinvalid : dec.getD c.toNat INVALID = INVALID
    · rw [if_neg hspace, if_pos hinvalid, if_neg hspace, if_pos hinvalid]
      rfl
    by_cases hequals : dec.getD c.toNat INVALID = EQUALS
    · rw [if_neg hspace, if_neg hinvalid, if_pos hequals, if_neg hspace, if_neg hinvalid,
        if_pos hequals]
      exact decodeEndTo_eq hsize
    rw [if_neg hspace, if_neg hinvalid, if_neg hequals, if_neg hspace, if_neg hinvalid,
      if_neg hequals]
    have hsymbol := dec_lt hspace hinvalid hequals
    have hbuf₁₈ : buf.toNat < 2 ^ 18 :=
      hbuf.trans_le (Nat.pow_le_pow_right (by decide) (by omega))
    have hshift := toNat_shifted hbuf₁₈ hsymbol
    generalize buf <<< 6 ||| UInt32.ofNat (dec.getD c.toNat INVALID) = buf' at hshift ⊢
    rw [← hshift]
    by_cases hfour : iter + 1 = 4
    · rw [if_pos hfour, if_pos hfour]
      by_cases hfull : bytes.length + 3 > outLen
      · rw [if_pos hfull, if_pos hfull]
        rfl
      · rw [if_neg hfull, if_neg hfull, putGroup_written _ (by omega)]
        have hgroup (bs : List UInt8) (hbs : bs.length = 3) :
            decodeTo s 0 0 (bytes.length + 3) (b.written (bytes ++ bs)) outLen =
              .ok (decodedInto b outLen (decodeLoop s 0 0 (bytes ++ bs) outLen)) := by
          have hsum : bytes.length + 3 = (bytes ++ bs).length := by rw [List.length_append, hbs]
          rw [hsum]
          exact ih (by decide) (by decide) (by omega)
        exact hgroup _ rfl
    · rw [if_neg hfour, if_neg hfour]
      refine ih (by omega) ?_ hfits
      have hpow : 2 ^ (6 * (iter + 1)) = 2 ^ (6 * iter) * 64 := by rw [Nat.mul_succ, Nat.pow_add]
      rw [hshift, Nat.shiftLeft_eq, hpow]
      omega

/-- `edgex_b64_decode` is its list version, in any buffer with room for `*outLen` bytes. -/
theorem edgexB64DecodeTo_eq (s : Text) (hsize : outLen ≤ b.size) :
    edgexB64DecodeTo s b outLen = .ok (decodedInto b outLen (edgexB64Decode s outLen)) := by
  have hloop : decodeTo s 0 0 ([] : List UInt8).length (b.written []) outLen =
      .ok (decodedInto b outLen (decodeLoop s 0 (0 : UInt32).toNat [] outLen)) :=
    decodeTo_eq s (by decide) (by decide) (Nat.zero_le outLen) hsize
  exact hloop

end Decoder

-- ---------------------------------------------------------------------------
-- The bytes are the bits of the symbols
-- ---------------------------------------------------------------------------

/-- The six bits of a symbol: its position in the alphabet. -/
def symbolBits (c : UInt8) : List Bool := bits 6 (enc.idxOf c)

/-- The bits of the symbols in front of the padding, in a row. -/
def payloadBits (s : Text) : List Bool := ((payload s).filter (· ∈ enc)).flatMap symbolBits

theorem nodup_enc : enc.Nodup := by decide +kernel

/-- A symbol stands in the alphabet where the table says. -/
theorem encSymbol_dec {c : UInt8} (hc : isSymbol c = true) :
    encSymbol (dec.getD c.toNat INVALID) = c :=
  forall_byte (p := fun c => isSymbol c = true → encSymbol (dec.getD c.toNat INVALID) = c)
    (by decide +kernel) c hc

theorem isSymbol_eq (c : UInt8) : isSymbol c = decide (c ∈ enc) := by
  rw [Bool.eq_iff_iff, decide_eq_true_iff]
  constructor
  · intro hc
    rw [← encSymbol_dec hc]
    exact encSymbol_mem _
  · intro hc
    obtain ⟨n, hn, rfl⟩ := List.getElem_of_mem hc
    have hsymbol : encSymbol n = enc[n] := by
      have hmod : n % 64 = n := Nat.mod_eq_of_lt hn
      rw [encSymbol, hmod, List.getD_eq_getElem _ _ hn]
    rw [← hsymbol, isSymbol, dec_encSymbol]
    exact decide_eq_true (Nat.mod_lt _ (by decide))

theorem dec_eq_idxOf {c : UInt8} (hc : isSymbol c = true) :
    dec.getD c.toNat INVALID = enc.idxOf c := by
  have hlt : dec.getD c.toNat INVALID < enc.length := of_decide_eq_true hc
  have hmod : dec.getD c.toNat INVALID % 64 = dec.getD c.toNat INVALID := Nat.mod_eq_of_lt hlt
  have hsymbol := encSymbol_dec hc
  rw [encSymbol, hmod, List.getD_eq_getElem _ _ hlt] at hsymbol
  have hidx := List.Nodup.idxOf_getElem nodup_enc _ hlt
  rwa [hsymbol, eq_comm] at hidx

theorem payloadBits_nil {s : Text} (h : payload s = []) : payloadBits s = [] := by
  rw [payloadBits, h]
  rfl

theorem payloadBits_cons {c : UInt8} (hc : c ≠ chr '=') (s : Text) :
    payloadBits (c :: s) = (if isSymbol c then symbolBits c else []) ++ payloadBits s := by
  rw [payloadBits, payload_cons hc, List.filter_cons, ← isSymbol_eq, payloadBits]
  split
  · rw [List.flatMap_cons]
  · rw [List.nil_append]

section Bits

variable {s : Text} {iter buf outLen : Nat} {out r : List UInt8}

/-- Of the bits of an unfinished group the whole bytes are written. -/
theorem bits_decodeEnd (h : decodeEnd iter buf out outLen = (true, r)) :
    byteBits r <+: byteBits out ++ bits (6 * iter) buf := by
  unfold decodeEnd at h
  by_cases h₃ : iter = 3
  · rw [if_pos h₃] at h
    split at h
    · cases h
    · cases h
      have hbits : bits (6 * 3) buf =
          bits 8 (buf >>> 10) ++ (bits 8 (buf >>> 2) ++ bits 2 buf) := by
        rw [← bits_add 8 2 buf, ← bits_add 8 10 buf]
      have hpair : byteBits [UInt8.ofNat (buf >>> 10), UInt8.ofNat (buf >>> 2)] =
          bits 8 (buf >>> 10) ++ bits 8 (buf >>> 2) := by
        rw [← byteBits_singleton, ← byteBits_singleton, ← byteBits_append]
        rfl
      rw [h₃, hbits, byteBits_append, hpair, ← List.append_assoc (bits 8 (buf >>> 10))]
      exact (List.prefix_append_right_inj _).mpr (List.prefix_append _ _)
  · rw [if_neg h₃] at h
    by_cases h₂ : iter = 2
    · rw [if_pos h₂] at h
      split at h
      · cases h
      · cases h
        rw [h₂, byteBits_append, byteBits_singleton, bits_add 8 4 buf, ← List.append_assoc]
        exact List.prefix_append _ _
    · rw [if_neg h₂] at h
      cases h
      exact List.prefix_append _ _

/-- What is written are the first bits of all: those written before, those in the group under
construction, and those of the symbols that follow. -/
theorem bits_decodeLoop (hiter : iter < 4) (h : decodeLoop s iter buf out outLen = (true, r)) :
    byteBits r <+: byteBits out ++ bits (6 * iter) buf ++ payloadBits s := by
  induction s generalizing iter buf out with
  | nil =>
    rw [payloadBits_nil rfl, List.append_nil]
    exact bits_decodeEnd h
  | cons c s ih =>
    rw [decodeLoop] at h
    dsimp only at h
    rcases dec_cases c with ⟨hd, hne⟩ | ⟨hd, hne⟩ | ⟨hd, rfl⟩ | ⟨hd, hne⟩
    · have hsymbol : isSymbol c = false := by
        rw [isSymbol, hd]
        rfl
      rw [if_pos hd] at h
      rw [payloadBits_cons hne, hsymbol]
      exact ih hiter h
    · rw [if_neg (by rw [hd]; decide), if_pos hd] at h
      cases h
    · rw [if_neg (by rw [hd]; decide), if_neg (by rw [hd]; decide), if_pos hd] at h
      rw [payloadBits_nil (List.takeWhile_cons_of_neg (by simp)), List.append_nil]
      exact bits_decodeEnd h
    · obtain ⟨hspace, hinvalid, hequals⟩ := dec_of_isSymbol hd
      rw [if_neg hspace, if_neg hinvalid, if_neg hequals, dec_eq_idxOf hd] at h
      have hlt : enc.idxOf c < 2 ^ 6 := by
        rw [← dec_eq_idxOf hd]
        exact of_decide_eq_true hd
      have hbits : bits (6 * (iter + 1)) (buf <<< 6 + enc.idxOf c) =
          bits (6 * iter) buf ++ symbolBits c := by
        rw [Nat.mul_succ, bits_shiftLeft_add hlt, symbolBits]
      rw [payloadBits_cons hne, if_pos hd, ← List.append_assoc, List.append_assoc (byteBits out),
        ← hbits]
      generalize buf <<< 6 + enc.idxOf c = buf' at h ⊢
      split at h
      · next hfour =>
        split at h
        · cases h
        · have hgroup : byteBits [UInt8.ofNat (buf' >>> 16), UInt8.ofNat (buf' >>> 8),
              UInt8.ofNat buf'] = bits (6 * (iter + 1)) buf' := by
            have hthree : bits (6 * 4) buf' =
                bits 8 (buf' >>> 16) ++ (bits 8 (buf' >>> 8) ++ bits 8 buf') := by
              rw [← bits_add 8 8 buf', ← bits_add 8 16 buf']
            rw [hfour, hthree, ← byteBits_singleton, ← byteBits_singleton, ← byteBits_singleton,
              ← byteBits_append, ← byteBits_append]
            rfl
          have hrest := ih (by decide) h
          rw [byteBits_append, hgroup] at hrest
          simpa [bits] using hrest
      · next hfour => exact ih (by omega) h

end Bits

-- ---------------------------------------------------------------------------
-- What is accepted, and what it decodes to
-- ---------------------------------------------------------------------------

section Accepted

variable {s : Text} {b : Block} {outLen : Nat}

theorem validPayload_iff (s : Text) : ValidPayload s ↔ ∀ c ∈ payload s, c ∈ enc ∨ c = chr '\n' := by
  have hspace (c : UInt8) : dec.getD c.toNat INVALID = WHITESPACE ↔ c = chr '\n' :=
    forall_byte (p := fun c => dec.getD c.toNat INVALID = WHITESPACE ↔ c = chr '\n')
      (by decide +kernel) c
  refine forall₂_congr fun c hc => ?_
  have hequals : c ≠ chr '=' := by simpa using List.mem_takeWhile_imp hc
  rw [← hspace, ← decide_eq_true_iff (p := c ∈ enc), ← isSymbol_eq]
  rcases dec_cases c with h | h | h | h
  · exact iff_of_true (by rw [h.1]; decide) (.inr h.1)
  · refine iff_of_false (not_not_intro h.1) (not_or.mpr ⟨?_, by rw [h.1]; decide⟩)
    rw [isSymbol, h.1]
    decide
  · exact absurd h.2 hequals
  · exact iff_of_true (dec_of_isSymbol h.1).2.1 (.inl h.1)

/-- There is room for the whole bytes in what `edgex_b64_maxdecodesize` gives, whatever else stands
in the text. -/
theorem symbolCount_le_edgexB64Maxdecodesize (s : Text) :
    symbolCount s * 3 / 4 ≤ edgexB64Maxdecodesize s := by
  have hcount : symbolCount s ≤ s.length :=
    List.countP_le_length.trans (List.takeWhile_prefix _).length_le
  rw [edgexB64Maxdecodesize]
  split <;> omega

theorem decodedInto_outLen {r : Bool × List UInt8} (h : r.1 = true) :
    (decodedInto b outLen r).outLen = r.2.length :=
  if_pos h

theorem length_decodeEnd_le {iter buf : Nat} {out : List UInt8} (hout : out.length ≤ outLen) :
    (decodeEnd iter buf out outLen).2.length ≤ outLen := by
  unfold decodeEnd
  split
  · split
    · exact hout
    · simp only [List.length_append, List.length_cons, List.length_nil]
      omega
  · split
    · split
      · exact hout
      · simp only [List.length_append, List.length_cons, List.length_nil]
        omega
    · exact hout

/-- Accepted or not, the decoder does not write more than it was given room for. -/
theorem length_decodeLoop_le {iter buf : Nat} {out : List UInt8} (hout : out.length ≤ outLen) :
    (decodeLoop s iter buf out outLen).2.length ≤ outLen := by
  induction s generalizing iter buf out with
  | nil => exact length_decodeEnd_le hout
  | cons c s ih =>
    rw [decodeLoop]
    dsimp only
    split
    · exact ih hout
    split
    · exact hout
    split
    · exact length_decodeEnd_le hout
    split
    · split
      · exact hout
      · refine ih ?_
        simp only [List.length_append, List.length_cons, List.length_nil]
        omega
    · exact ih hout

end Accepted

/-- `edgex_b64_decode` on any text and any buffer. Nothing is stored behind the capacity. The text
is accepted when there are only symbols and newlines in front of the padding and their whole bytes
fit the capacity; these bytes have then been written. The capacity that `edgex_b64_maxdecodesize`
gives is never too small. -/
theorem edgexB64DecodeTo_exact (s : Text) :
    (∀ (b : Block) (c : Nat), c ≤ b.size → ∃ r, edgexB64DecodeTo s b c = .ok r ∧
      r.out.size = b.size ∧ r.out.cells.drop c = b.cells.drop c ∧
      (r.ok = true ↔ (∀ ch ∈ payload s, ch ∈ enc ∨ ch = chr '\n') ∧
        symbolCount s * 3 / 4 ≤ c) ∧
      (r.ok = true → r.outLen = symbolCount s * 3 / 4 ∧ ∃ bytes : List UInt8,
        bytes.length = r.outLen ∧ r.out.cells = bytes.map some ++ b.cells.drop r.outLen ∧
        byteBits bytes = (payloadBits s).take (8 * r.outLen))) ∧
    (∀ b : Block, edgexB64Maxdecodesize s ≤ b.size →
      ∃ r, edgexB64DecodeTo s b (edgexB64Maxdecodesize s) = .ok r ∧
        (r.ok = true ↔ ∀ ch ∈ payload s, ch ∈ enc ∨ ch = chr '\n')) := by
  have hroom := symbolCount_le_edgexB64Maxdecodesize s
  constructor
  · intro b c hc
    obtain ⟨hok, hlen⟩ := edgexB64Decode_spec s c
    have hfits : (edgexB64Decode s c).2.length ≤ c := length_decodeLoop_le (Nat.zero_le c)
    rw [validPayload_iff] at hok
    refine ⟨_, edgexB64DecodeTo_eq s hc, size_filled (hfits.trans hc), drop_filled hfits, hok, ?_⟩
    intro haccepted
    have houtLen := hlen haccepted
    rw [decodedInto_outLen haccepted]
    refine ⟨houtLen, _, rfl, rfl, ?_⟩
    have hbits : byteBits (edgexB64Decode s c).2 <+:
        byteBits [] ++ bits (6 * 0) 0 ++ payloadBits s :=
      bits_decodeLoop (by decide) (Prod.ext haccepted rfl)
    have htake := List.prefix_iff_eq_take.mp hbits
    rwa [length_byteBits] at htake
  · intro b hb
    have hok := (edgexB64Decode_spec s (edgexB64Maxdecodesize s)).1
    rw [validPayload_iff, and_iff_left hroom] at hok
    exact ⟨_, edgexB64DecodeTo_eq s hb, hok⟩

-- ---------------------------------------------------------------------------
-- The way there and back
-- ---------------------------------------------------------------------------

theorem notMem_padEquals (data : List UInt8) : 0 ∉ padEquals (encodeLoop data) := by
  intro hmem
  rcases mem_edgexB64Encode (edgexB64Encode_encodesize data) hmem with h | h
  · exact absurd h (by decide +kernel)
  · exact absurd h (by decide +kernel)

/-- Symbols, and at most two padding characters behind them. -/
theorem padEquals_encodeLoop (data : List UInt8) :
    (padEquals (encodeLoop data)).length % 4 = 0 ∧
      ∃ symbols k, padEquals (encodeLoop data) = symbols ++ List.replicate k (chr '=') ∧ k ≤ 2 ∧
        ∀ c ∈ symbols, c ∈ enc := by
  have hlen := length_encodeLoop data
  have hmod : data.length % 3 < 3 := Nat.mod_lt _ (by decide)
  refine ⟨?_, encodeLoop data, _, rfl, ?_, fun c => mem_encodeLoop⟩
  · rw [padEquals, List.length_append, List.length_replicate]
    omega
  · split at hlen <;> omega

/-- No size that is computed from the size of an object wraps. -/
theorem edgexB64Encodesize_lt {n : Nat} (h : n < 2 ^ 63) : edgexB64Encodesize n < 2 ^ 64 := by
  rw [edgexB64Encodesize]
  split <;> omega

/-- `edgex_b64_encode` into a buffer of at least the size that `edgex_b64_encodesize` asks for, and
`edgex_b64_decode` of the text that was written. In a smaller buffer nothing is written. -/
theorem edgexB64EncodeTo_roundTrip (data : List UInt8) :
    (∀ (b : Block) (outLen : Nat), outLen ≤ b.size → edgexB64Encodesize data.length ≤ outLen →
      ∃ (b' : Block) (text : Text), edgexB64EncodeTo data b outLen = .ok (true, b') ∧
        b'.cells = (text ++ [0]).map some ++ b.cells.drop (edgexB64Encodesize data.length) ∧
        (text ++ [0]).length = edgexB64Encodesize data.length ∧ b'.string = .ok text ∧
        text.length % 4 = 0 ∧
        (∃ symbols k, text = symbols ++ List.replicate k (chr '=') ∧ k ≤ 2 ∧
          ∀ c ∈ symbols, c ∈ enc) ∧
        ∀ out : Block, data.length ≤ out.size → edgexB64DecodeTo text out data.length =
          .ok ⟨true, ⟨data.map some ++ out.cells.drop data.length⟩, data.length⟩) ∧
    ∀ (b : Block) (outLen : Nat), outLen < edgexB64Encodesize data.length →
      edgexB64EncodeTo data b outLen = .ok (false, b) := by
  constructor
  · intro b outLen hsize hroom
    obtain ⟨hfour, hsymbols⟩ := padEquals_encodeLoop data
    have hlen : (padEquals (encodeLoop data) ++ [0]).length = edgexB64Encodesize data.length := by
      rw [List.length_append]
      exact length_padEquals_encodeLoop data
    refine ⟨b.filled (padEquals (encodeLoop data) ++ [0]), padEquals (encodeLoop data), ?_, ?_,
      hlen, ?_, hfour, hsymbols, ?_⟩
    · rw [edgexB64EncodeTo_eq data hsize, if_neg (Nat.not_lt.mpr hroom)]
    · rw [filled, hlen]
    · rw [Block.string, filled, List.map_append, List.append_assoc]
      exact stringOf_append (notMem_padEquals data) _
    · intro out hout
      rw [edgexB64DecodeTo_eq _ hout, edgexB64Decode_padEquals le_rfl]
      rfl
  · intro b outLen hfull
    rw [edgexB64EncodeTo, if_pos hfull]
    rfl

end Zigbee
