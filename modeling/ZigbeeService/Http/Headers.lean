-- SUMMARY: Values taken from the header lines of responses (edgex_check_rsp_hdr, rest.c).
import ZigbeeService.Lib.CharArray

/-!
# Response headers

`edgex_check_rsp_hdr` moves two cursors towards each other. Neither may pass the other, so that at
least one character is left between them, whether it belongs to a value or not.
-/

namespace Zigbee

open CLib

-- ---------------------------------------------------------------------------
-- The callback
-- ---------------------------------------------------------------------------

/-- The headers that are wanted, and their values. -/
abbrev RspHdrs := List (Text × Option Text)

/-- The characters that are left out at the end of a value. -/
def isTail (c : UInt8) : Bool := c = chr '\n' ∨ c = chr ' ' ∨ c = chr '\r'

section Callback

variable {n : Nat} (buffer : CharArray n)

/-- The first loop. `stop` is one behind `end`. -/
def skipSpaces (stop start : Nat) : Checked Nat :=
  if start + 1 < stop then do
    let c ← buffer.load start
    if c = chr ' ' then skipSpaces stop (start + 1) else return start
  else return start
termination_by stop - start

/-- The second loop. -/
def trimEnd (start : Nat) : Nat → Checked Nat
  | 0 => return 0
  | e + 1 =>
    if start < e then do
      let c ← buffer.load e
      if isTail c then trimEnd start e else return e + 1
    else return e + 1

/-- The value behind the colon, and the end of what is left of the line. -/
def headerValue (stop start : Nat) : Checked (Text × Nat) := do
  let start ← skipSpaces buffer stop start
  let stop ← trimEnd buffer start stop
  let value ← buffer.strndup start (stop - start)
  return (value, stop)

/-- One round of `edgex_check_rsp_hdr`. -/
def checkPair (stop : Nat) (i : Text × Option Text) : Checked ((Text × Option Text) × Nat) := do
  let len := i.1.length
  if len + 1 < stop then
    if ← buffer.strncmp 0 i.1 len then
      if (← buffer.load len) = chr ':' then
        let (value, stop) ← headerValue buffer stop (len + 1)
        return ((i.1, some value), stop)
      else return (i, stop)
    else return (i, stop)
  else return (i, stop)

/-- The loop of `edgex_check_rsp_hdr`. -/
def checkPairs : Nat → RspHdrs → Checked RspHdrs
  | _, [] => return []
  | stop, i :: v => do
    let (i, stop) ← checkPair buffer stop i
    let v ← checkPairs stop v
    return i :: v

/-- `edgex_check_rsp_hdr`: the number of characters, and the pairs. -/
def edgexCheckRspHdr (v : RspHdrs) : Checked (Nat × RspHdrs) := do
  let v ← checkPairs buffer n v
  return (n, v)

end Callback

-- ---------------------------------------------------------------------------
-- The cursors
-- ---------------------------------------------------------------------------

section Cursors

variable {n : Nat} {buffer : CharArray n} {start stop : Nat}

/-- Spaces are skipped up to another character. -/
theorem skipSpaces_eq {k : Nat} {c : UInt8} {rest : List UInt8} (hc : c ≠ chr ' ')
    (hdrop : buffer.bytes.drop start = List.replicate k (chr ' ') ++ c :: rest)
    (hstop : start + k < stop) :
    skipSpaces buffer stop start = .ok (start + k) := by
  induction k generalizing start with
  | zero =>
    rw [skipSpaces]
    by_cases hguard : start + 1 < stop
    · rw [if_pos hguard, CharArray.load_of_drop hdrop, Checked.ok_bind, if_neg hc]
      rfl
    · rw [if_neg hguard]
      rfl
  | succ k ih =>
    have hnext : buffer.bytes.drop (start + 1) = List.replicate k (chr ' ') ++ c :: rest := by
      rw [← List.drop_drop, hdrop]
      rfl
    rw [skipSpaces, if_pos (by omega), CharArray.load_of_drop hdrop, Checked.ok_bind, if_pos rfl,
      ih hnext (by omega)]
    exact congrArg Except.ok (by omega)

/-- The end moves back over the characters that are left out, but not to the first one. -/
theorem trimEnd_eq {before v rest : List UInt8} {c : UInt8}
    (hbytes : buffer.bytes = before ++ c :: (v ++ rest)) :
    trimEnd buffer before.length (before.length + 1 + v.length) =
      .ok (before.length + 1 + (v.rdropWhile isTail).length) := by
  induction v using List.reverseRecOn generalizing rest with
  | nil =>
    rw [List.length_nil, Nat.add_zero, trimEnd, if_neg (Nat.lt_irrefl _)]
    rfl
  | append_singleton v d ih =>
    rw [List.append_assoc, List.singleton_append] at hbytes
    have hdrop : buffer.bytes.drop (before.length + 1 + v.length) = d :: rest := by
      have hlen : before.length + 1 + v.length = (before ++ c :: v).length := by
        rw [List.length_append, List.length_cons]
        omega
      rw [hbytes, ← List.cons_append, ← List.append_assoc, hlen, List.drop_left]
    rw [List.length_append, List.length_singleton, ← Nat.add_assoc, trimEnd, if_pos (by omega),
      CharArray.load_of_drop hdrop, Checked.ok_bind]
    by_cases hd : isTail d
    · rw [if_pos hd, ih hbytes, List.rdropWhile_concat_pos _ _ _ hd]
    · rw [if_neg hd, List.rdropWhile_concat_neg _ _ _ hd, List.length_append,
        List.length_singleton]
      rfl

/-- What stands between the spaces and the end of the line, of which the first character is always
taken. -/
theorem headerValue_eq {before v : List UInt8} {k : Nat} {c : UInt8} (hc : c ≠ chr ' ')
    (hbytes : buffer.bytes = before ++ (List.replicate k (chr ' ') ++ c :: v)) :
    ∃ stop ≤ n, headerValue buffer n before.length =
      .ok (cstring (c :: v.rdropWhile isTail), stop) := by
  have hlen := buffer.length_eq
  rw [hbytes, List.length_append, List.length_append, List.length_replicate,
    List.length_cons] at hlen
  have hkept := List.rdropWhile_prefix isTail v
  have hskip : skipSpaces buffer n before.length = .ok (before.length + k) :=
    skipSpaces_eq hc (by rw [hbytes, List.drop_left]) (by omega)
  have hstart : (before ++ List.replicate k (chr ' ')).length = before.length + k := by
    rw [List.length_append, List.length_replicate]
  rw [← List.append_assoc] at hbytes
  have hline : buffer.bytes = (before ++ List.replicate k (chr ' ')) ++ c :: (v ++ []) := by
    rw [hbytes, List.append_nil]
  have htrim := trimEnd_eq hline
  have hcopy : buffer.strndup (before.length + k) ((v.rdropWhile isTail).length + 1) =
      .ok (cstring (c :: v.rdropWhile isTail)) := by
    have hle := hkept.length_le
    rw [CharArray.strndup_of_le (by omega), hbytes, ← hstart, List.drop_left, List.take_succ_cons,
      ← List.prefix_iff_eq_take.mp hkept]
  have hcount : before.length + k + 1 + (v.rdropWhile isTail).length - (before.length + k) =
      (v.rdropWhile isTail).length + 1 := by omega
  rw [hstart, (by omega : before.length + k + 1 + v.length = n)] at htrim
  refine ⟨before.length + k + 1 + (v.rdropWhile isTail).length, ?_, ?_⟩
  · have hle := hkept.length_le
    omega
  · rw [headerValue, hskip, Checked.ok_bind, htrim, Checked.ok_bind, hcount, hcopy]
    rfl

end Cursors

-- ---------------------------------------------------------------------------
-- One pair
-- ---------------------------------------------------------------------------

section Pairs

variable {n : Nat} {buffer : CharArray n} {i : Text × Option Text}

theorem strncmp_name {name : Text} (hlen : name.length ≤ n) (hname : 0 ∉ name) :
    buffer.strncmp 0 name name.length = .ok (decide (name <+: buffer.bytes)) := by
  rw [CharArray.strncmp_of_le (by omega) le_rfl hname, List.take_length, List.drop_zero]

/-- A line that does not start with the name and a colon. -/
theorem checkPair_other {stop : Nat} (hstop : stop ≤ n) (hname : 0 ∉ i.1)
    (h : ¬ i.1 ++ [chr ':'] <+: buffer.bytes) : checkPair buffer stop i = .ok (i, stop) := by
  rw [checkPair]
  by_cases hguard : i.1.length + 1 < stop
  case neg =>
    rw [if_neg hguard]
    rfl
  rw [if_pos hguard, strncmp_name (by omega) hname, Checked.ok_bind]
  by_cases hprefix : i.1 <+: buffer.bytes
  case neg =>
    rw [decide_eq_false hprefix]
    rfl
  obtain ⟨rest, hrest⟩ := hprefix
  -- the guard leaves room for one character behind the name
  have hlen := buffer.length_eq
  rw [← hrest, List.length_append] at hlen
  obtain ⟨d, rest, rfl⟩ := List.exists_cons_of_length_pos (l := rest) (by omega)
  have hd : d ≠ chr ':' := by
    rintro rfl
    exact h ⟨rest, by rw [← hrest, List.append_assoc, List.singleton_append]⟩
  have hload : buffer.load i.1.length = .ok d :=
    CharArray.load_of_drop (by rw [← hrest, List.drop_left])
  rw [decide_eq_true ⟨d :: rest, hrest⟩, if_pos rfl, hload, Checked.ok_bind, if_neg hd]
  rfl

/-- A line that starts with the name and a colon. -/
theorem checkPair_named {stop : Nat} (hstop : stop ≤ n) (hname : 0 ∉ i.1)
    (hguard : i.1.length + 1 < stop) (h : i.1 ++ [chr ':'] <+: buffer.bytes) :
    checkPair buffer stop i =
      (do
        let (value, stop) ← headerValue buffer stop (i.1.length + 1)
        return ((i.1, some value), stop)) := by
  obtain ⟨rest, hrest⟩ := h
  rw [List.append_assoc] at hrest
  have hcmp : buffer.strncmp 0 i.1 i.1.length = .ok true := by
    rw [strncmp_name (by omega) hname, decide_eq_true ⟨_, hrest⟩]
  have hload : buffer.load i.1.length = .ok (chr ':') :=
    CharArray.load_of_drop (by rw [← hrest, List.drop_left]; rfl)
  rw [checkPair]
  dsimp only
  rw [if_pos hguard, hcmp, Checked.ok_bind, if_pos rfl, hload, Checked.ok_bind, if_pos rfl]

/-- The pair gets what stands between the spaces and the end of the line. -/
theorem checkPair_match {k : Nat} {c : UInt8} {v : List UInt8} (hname : 0 ∉ i.1)
    (hc : c ≠ chr ' ')
    (hbytes : buffer.bytes = (i.1 ++ [chr ':']) ++ (List.replicate k (chr ' ') ++ c :: v)) :
    ∃ stop ≤ n, checkPair buffer n i =
      .ok ((i.1, some (cstring (c :: v.rdropWhile isTail))), stop) := by
  have hlen := congrArg List.length hbytes
  simp only [buffer.length_eq, List.length_append, List.length_cons, List.length_nil] at hlen
  obtain ⟨stop, hstop, hvalue⟩ := headerValue_eq hc hbytes
  rw [List.length_append, List.length_singleton] at hvalue
  refine ⟨stop, hstop, ?_⟩
  rw [checkPair_named le_rfl hname (by omega) ⟨_, hbytes.symm⟩, hvalue]
  rfl

theorem checkPairs_cons {stop stop' : Nat} {i i' : Text × Option Text} {v v' : RspHdrs}
    (hi : checkPair buffer stop i = .ok (i', stop')) (hv : checkPairs buffer stop' v = .ok v') :
    checkPairs buffer stop (i :: v) = .ok (i' :: v') := by
  rw [checkPairs, hi, Checked.ok_bind]
  dsimp only
  rw [hv]
  rfl

end Pairs

-- ---------------------------------------------------------------------------
-- Any line
-- ---------------------------------------------------------------------------

section AnyLine

variable {n : Nat} (buffer : CharArray n)

theorem skipSpaces_returns {stop : Nat} (hstop : stop ≤ n) (start : Nat) (hstart : start < stop) :
    ∃ r < stop, skipSpaces buffer stop start = .ok r := by
  rw [skipSpaces]
  by_cases hguard : start + 1 < stop
  case neg => exact ⟨start, hstart, by rw [if_neg hguard]; rfl⟩
  obtain ⟨c, hc⟩ := buffer.exists_load (i := start) (by omega)
  rw [if_pos hguard, hc, Checked.ok_bind]
  by_cases hspace : c = chr ' '
  · rw [if_pos hspace]
    exact skipSpaces_returns hstop (start + 1) hguard
  · rw [if_neg hspace]
    exact ⟨start, hstart, rfl⟩
termination_by stop - start

theorem trimEnd_returns (start : Nat) {stop : Nat} (hstop : stop ≤ n) :
    ∃ r ≤ stop, trimEnd buffer start stop = .ok r := by
  induction stop with
  | zero => exact ⟨0, le_rfl, rfl⟩
  | succ e ih =>
    rw [trimEnd]
    by_cases hguard : start < e
    case neg => exact ⟨e + 1, le_rfl, by rw [if_neg hguard]; rfl⟩
    obtain ⟨c, hc⟩ := buffer.exists_load hstop
    rw [if_pos hguard, hc, Checked.ok_bind]
    by_cases htail : isTail c
    · obtain ⟨r, hr, htrim⟩ := ih (Nat.le_of_succ_le hstop)
      exact ⟨r, Nat.le_succ_of_le hr, by rw [if_pos htail, htrim]⟩
    · exact ⟨e + 1, le_rfl, by rw [if_neg htail]; rfl⟩

theorem headerValue_returns {stop start : Nat} (hstop : stop ≤ n) (hstart : start < stop) :
    ∃ value stop', headerValue buffer stop start = .ok (value, stop') ∧ stop' ≤ stop := by
  obtain ⟨r, hr, hskip⟩ := skipSpaces_returns buffer hstop start hstart
  obtain ⟨stop', hstop', htrim⟩ := trimEnd_returns buffer r hstop
  have hcopy : buffer.strndup r (stop' - r) = .ok _ := CharArray.strndup_of_le (by omega)
  rw [headerValue, hskip, Checked.ok_bind, htrim, Checked.ok_bind, hcopy]
  exact ⟨_, stop', rfl, hstop'⟩

theorem checkPair_returns {stop : Nat} (hstop : stop ≤ n) {i : Text × Option Text}
    (hname : 0 ∉ i.1) :
    ∃ i' stop', checkPair buffer stop i = .ok (i', stop') ∧ i'.1 = i.1 ∧ stop' ≤ stop := by
  by_cases hprefix : i.1 ++ [chr ':'] <+: buffer.bytes
  case neg => exact ⟨i, stop, checkPair_other hstop hname hprefix, rfl, le_rfl⟩
  by_cases hguard : i.1.length + 1 < stop
  case neg => exact ⟨i, stop, by rw [checkPair, if_neg hguard]; rfl, rfl, le_rfl⟩
  obtain ⟨value, stop', hvalue, hstop'⟩ := headerValue_returns buffer hstop hguard
  refine ⟨(i.1, some value), stop', ?_, rfl, hstop'⟩
  rw [checkPair_named hstop hname hguard hprefix, hvalue]
  rfl

/-- No byte outside a line is touched, whatever the line is. -/
theorem edgexCheckRspHdr_returns {v : RspHdrs} (hv : ∀ i ∈ v, 0 ∉ i.1) :
    ∃ v', edgexCheckRspHdr buffer v = .ok (n, v') ∧ v'.map Prod.fst = v.map Prod.fst := by
  have hpairs : ∀ (v : RspHdrs) (stop : Nat), stop ≤ n → (∀ i ∈ v, 0 ∉ i.1) →
      ∃ v', checkPairs buffer stop v = .ok v' ∧ v'.map Prod.fst = v.map Prod.fst := by
    intro v
    induction v with
    | nil => exact fun _ _ _ => ⟨[], rfl, rfl⟩
    | cons i v ih =>
      intro stop hstop hv
      rw [List.forall_mem_cons] at hv
      obtain ⟨i', stop', hcheck, hname, hstop'⟩ := checkPair_returns buffer hstop hv.1
      obtain ⟨v', hchecks, hnames⟩ := ih stop' (hstop'.trans hstop) hv.2
      exact ⟨i' :: v', checkPairs_cons hcheck hchecks, by
        rw [List.map_cons, List.map_cons, hname, hnames]⟩
  obtain ⟨v', hchecks, hnames⟩ := hpairs v n le_rfl hv
  exact ⟨v', by rw [edgexCheckRspHdr, hchecks]; rfl, hnames⟩

end AnyLine

-- ---------------------------------------------------------------------------
-- Header lines
-- ---------------------------------------------------------------------------

/-- A header line: a name, a colon, spaces, a value, spaces, and the end of the line. -/
structure HeaderLine where
  name : Text
  leading : Nat
  value : Text
  trailing : Nat
  name_no_colon : chr ':' ∉ name
  value_head : value.head? ≠ some (chr ' ')
  value_last : value.getLast? ≠ some (chr ' ')

namespace HeaderLine

def text (l : HeaderLine) : Text :=
  l.name ++ chr ':' :: (List.replicate l.leading (chr ' ') ++
    (l.value ++ (List.replicate l.trailing (chr ' ') ++ lit "\r\n")))

/-- What is stored for the value of a line. -/
def stored (l : HeaderLine) : Text :=
  match l.value with
  | [] => lit "\r"
  | c :: v => cstring (c :: v.rdropWhile isTail)

/-- There is a value, without the characters that end lines and strings. -/
structure Clean (l : HeaderLine) : Prop where
  value_ne_nil : l.value ≠ []
  no_nul : 0 ∉ l.value
  no_return : chr '\r' ∉ l.value
  no_newline : chr '\n' ∉ l.value

theorem isTail_trailing (b : Nat) : ∀ c ∈ List.replicate b (chr ' ') ++ lit "\r\n", isTail c := by
  intro c hc
  rcases List.mem_append.mp hc with hc | hc
  · rw [List.eq_of_mem_replicate hc]
    decide
  · have hend : ∀ c ∈ [chr '\r', chr '\n'], isTail c :=
      List.forall_mem_cons.mpr ⟨by decide, List.forall_mem_singleton.mpr (by decide)⟩
    exact hend c hc

variable {l : HeaderLine}

theorem stored_of_clean (h : l.Clean) : l.stored = l.value := by
  obtain ⟨hne, hnul, hreturn, hnewline⟩ := h
  have hlast := l.value_last
  rw [stored]
  split
  · next hnil => exact absurd hnil hne
  · next c v hvalue =>
    rw [hvalue] at hnul hreturn hnewline hlast
    have hself : v.rdropWhile isTail = v := by
      rw [List.rdropWhile_eq_self_iff]
      intro hv htail
      have hmem : v.getLast hv ∈ c :: v := List.mem_cons_of_mem _ (List.getLast_mem hv)
      rw [isTail, decide_eq_true_eq] at htail
      rcases htail with htail | htail | htail
      · exact hnewline (htail ▸ hmem)
      · rw [List.getLast?_cons, List.getLast?_eq_some_getLast hv, htail] at hlast
        exact hlast rfl
      · exact hreturn (htail ▸ hmem)
    rw [hself, cstring_eq hnul, hvalue]

theorem clean_of_stored (h : l.stored = l.value) (hreturn : chr '\r' ∉ l.value)
    (hnewline : chr '\n' ∉ l.value) : l.Clean := by
  refine ⟨fun hnil => ?_, ?_, hreturn, hnewline⟩
  · rw [stored, hnil] at h
    cases h
  · rw [← h, stored]
    split
    · decide
    · exact nul_notMem_cstring _

end HeaderLine

section Lines

variable {n : Nat} {buffer : CharArray n} {l : HeaderLine}

/-- The pair with the name of a line gets what is stored for its value. -/
theorem checkPair_text {i : Text × Option Text} (hname : 0 ∉ i.1) (hbytes : buffer.bytes = l.text)
    (h : i.1 = l.name) :
    ∃ stop ≤ n, checkPair buffer n i = .ok ((i.1, some l.stored), stop) := by
  have hcolon : buffer.bytes = (i.1 ++ [chr ':']) ++ (List.replicate l.leading (chr ' ') ++
      (l.value ++ (List.replicate l.trailing (chr ' ') ++ lit "\r\n"))) := by
    rw [hbytes, HeaderLine.text, h, List.append_assoc, List.singleton_append]
  rw [HeaderLine.stored]
  split
  · next hnil =>
    rw [hnil, List.nil_append, ← List.append_assoc (List.replicate _ _),
      List.replicate_append_replicate] at hcolon
    exact checkPair_match hname (by decide) hcolon
  · next c v hvalue =>
    have hc : c ≠ chr ' ' := by
      rintro rfl
      exact l.value_head (by rw [hvalue]; rfl)
    rw [hvalue, List.cons_append] at hcolon
    obtain ⟨stop, hstop, hcheck⟩ := checkPair_match hname hc hcolon
    rw [rdropWhile_append_of_pos (HeaderLine.isTail_trailing l.trailing)] at hcheck
    exact ⟨stop, hstop, hcheck⟩

/-- The names in a list of pairs are C strings without a colon. -/
def HeaderNames (v : RspHdrs) : Prop := ∀ i ∈ v, 0 ∉ i.1 ∧ chr ':' ∉ i.1

/-- Lines that start with none of the names change nothing. -/
theorem checkPairs_other {stop : Nat} {v : RspHdrs} (hstop : stop ≤ n) (hv : ∀ i ∈ v, 0 ∉ i.1)
    (h : ∀ i ∈ v, ¬ i.1 ++ [chr ':'] <+: buffer.bytes) : checkPairs buffer stop v = .ok v := by
  induction v with
  | nil => rfl
  | cons i v ih =>
    rw [List.forall_mem_cons] at hv h
    exact checkPairs_cons (checkPair_other hstop hv.1 h.1) (ih hv.2 h.2)

theorem name_prefix_iff {name : Text} (hname : chr ':' ∉ name) (hbytes : buffer.bytes = l.text) :
    name ++ [chr ':'] <+: buffer.bytes ↔ name = l.name := by
  rw [hbytes]
  exact append_sep_prefix_iff _ hname l.name_no_colon

/-- The value of a line goes to the pair with its name, and only there. -/
theorem checkPairs_text {v : RspHdrs} (hv : HeaderNames v) (hnodup : (v.map Prod.fst).Nodup)
    (hbytes : buffer.bytes = l.text) :
    checkPairs buffer n v =
      .ok (v.map fun i => if i.1 = l.name then (i.1, some l.stored) else i) := by
  induction v with
  | nil => rfl
  | cons i v ih =>
    rw [HeaderNames, List.forall_mem_cons] at hv
    rw [List.map_cons, List.nodup_cons] at hnodup
    rw [List.map_cons]
    by_cases hi : i.1 = l.name
    · -- the end of the line has moved, but no other name is looked for in what is left
      have hothers : ∀ j ∈ v, j.1 ≠ l.name := fun j hj hname =>
        hnodup.1 (hi.trans hname.symm ▸ List.mem_map_of_mem hj)
      have hsame : (v.map fun i => if i.1 = l.name then (i.1, some l.stored) else i) = v :=
        (List.map_congr_left fun j hj => if_neg (hothers j hj)).trans (List.map_id v)
      obtain ⟨stop, hstop, hcheck⟩ := checkPair_text hv.1.1 hbytes hi
      have hrest := checkPairs_other hstop (fun j hj => (hv.2 j hj).1) fun j hj =>
        (name_prefix_iff (hv.2 j hj).2 hbytes).not.mpr (hothers j hj)
      rw [if_pos hi, hsame]
      exact checkPairs_cons hcheck hrest
    · have hother := (name_prefix_iff hv.1.2 hbytes).not.mpr hi
      rw [if_neg hi]
      exact checkPairs_cons (checkPair_other le_rfl hv.1.1 hother) (ih hv.2 hnodup.2)

end Lines

-- ---------------------------------------------------------------------------
-- What the callback is for
-- ---------------------------------------------------------------------------

/-- The pair with the name of the line gets its value and the others stay; no byte outside the line
is touched, and no end of a line is stored. -/
def ExtractsHeader {n : Nat} (buffer : CharArray n) (l : HeaderLine) (v : RspHdrs) : Prop :=
  ∃ v', edgexCheckRspHdr buffer v = .ok (n, v') ∧
    (v' = v.map fun i => if i.1 = l.name then (i.1, some l.value) else i) ∧
    ∀ value, (l.name, some value) ∈ v' → chr '\r' ∉ value ∧ chr '\n' ∉ value

section Extraction

variable {n : Nat} {buffer : CharArray n} {l : HeaderLine} {v : RspHdrs}

theorem edgexCheckRspHdr_text (hv : HeaderNames v) (hnodup : (v.map Prod.fst).Nodup)
    (hbytes : buffer.bytes = l.text) :
    edgexCheckRspHdr buffer v =
      .ok (n, v.map fun i => if i.1 = l.name then (i.1, some l.stored) else i) := by
  rw [edgexCheckRspHdr, checkPairs_text hv hnodup hbytes]
  rfl

theorem edgexCheckRspHdr_line (l : HeaderLine) (hv : HeaderNames v)
    (hnodup : (v.map Prod.fst).Nodup) :
    edgexCheckRspHdr (⟨l.text, rfl⟩ : CharArray l.text.length) v =
      .ok (l.text.length, v.map fun i => if i.1 = l.name then (i.1, some l.stored) else i) :=
  edgexCheckRspHdr_text hv hnodup rfl

theorem extractsHeader_iff (hv : HeaderNames v) (hnodup : (v.map Prod.fst).Nodup)
    (hbytes : buffer.bytes = l.text) :
    ExtractsHeader buffer l v ↔ (l.name ∈ v.map Prod.fst → l.Clean) := by
  constructor
  · rintro ⟨v', hcheck, hv', hbreaks⟩ hmem
    obtain ⟨i, hi, hname⟩ := List.mem_map.mp hmem
    rw [edgexCheckRspHdr_text hv hnodup hbytes] at hcheck
    have hsame := (congrArg Prod.snd (Except.ok.inj hcheck)).trans hv'
    have hstored := List.map_inj_left.mp hsame i hi
    rw [if_pos hname, if_pos hname] at hstored
    have hvalue : (l.name, some l.value) ∈ v' := by
      rw [hv']
      exact List.mem_map.mpr ⟨i, hi, by rw [if_pos hname, hname]⟩
    obtain ⟨hreturn, hnewline⟩ := hbreaks _ hvalue
    exact HeaderLine.clean_of_stored (Option.some.inj (congrArg Prod.snd hstored)) hreturn hnewline
  · intro hclean
    have hsame : (v.map fun i => if i.1 = l.name then (i.1, some l.stored) else i) =
        v.map fun i => if i.1 = l.name then (i.1, some l.value) else i := by
      refine List.map_congr_left fun i hi => ?_
      by_cases hname : i.1 = l.name
      · rw [if_pos hname, if_pos hname,
          HeaderLine.stored_of_clean (hclean (hname ▸ List.mem_map_of_mem hi))]
      · rw [if_neg hname, if_neg hname]
    refine ⟨_, (edgexCheckRspHdr_text hv hnodup hbytes).trans (by rw [hsame]), rfl, ?_⟩
    intro value hvalue
    obtain ⟨i, hi, hpair⟩ := List.mem_map.mp hvalue
    by_cases hname : i.1 = l.name
    · rw [if_pos hname] at hpair
      obtain rfl := Option.some.inj (congrArg Prod.snd hpair)
      have hclean := hclean (hname ▸ List.mem_map_of_mem hi)
      exact ⟨hclean.no_return, hclean.no_newline⟩
    · rw [if_neg hname] at hpair
      exact absurd (congrArg Prod.fst hpair) hname

end Extraction

end Zigbee
