-- SUMMARY: The handler of device URLs: which command it runs for which path, and the paths it takes for names.
import ZigbeeService.Lib.CharArray
import ZigbeeService.Sdk.AllCommand

/-!
# Device URLs

`edgex_device_handler_device` gets what follows `/api/v1/device/` in the URL. It splits this text in
place, runs a command on all devices or on one, and puts the slash back.
-/

namespace Zigbee

open CLib

/-- `edgex_http_method`. -/
inductive HttpMethod where
  | get
  | post
  | put
  | patch
  | delete
  | unknown
  deriving DecidableEq

/-- What the handler runs. -/
inductive CommandCall where
  | allCommand (cmd : Text)
  | oneCommand (id : Text) (byName : Bool) (cmd : Text)
  deriving DecidableEq

section Handler

/-- How a command is run: it may change the service, and returns a status and a reply. -/
abbrev RunCommand (σ : Type) :=
  CommandCall → HttpMethod → Text → σ → σ × Nat × Option HttpReply

variable {σ : Type} (run : RunCommand σ) (method : HttpMethod) (upload_data : Text) {n : Nat}

/-- The part of `edgex_device_handler_device` for one device, from `strchr` on. -/
def splitCommand (buf : CharArray n) (url : Nat) (byName : Bool) (svc : σ) :
    Checked (CharArray n × σ × Nat × Option HttpReply) := do
  match ← buf.strchr url (chr '/') with
  | none => return (buf, svc, MHD_HTTP_NOT_FOUND, none)
  | some cmd =>
    if (← buf.strlen (cmd + 1)) = 0 then return (buf, svc, MHD_HTTP_NOT_FOUND, none)
    else
      let buf ← buf.store cmd 0
      let id ← buf.string url
      let command ← buf.string (cmd + 1)
      let (svc, result) := run (.oneCommand id byName command) method upload_data svc
      let buf ← buf.store cmd (chr '/')
      return (buf, svc, result)

/-- `edgex_device_handler_device`. -/
def edgexDeviceHandlerDevice (buf : CharArray n) (svc : σ) :
    Checked (CharArray n × σ × Nat × Option HttpReply) := do
  if (← buf.strlen 0) = 0 then return (buf, svc, MHD_HTTP_NOT_FOUND, none)
  else if ← buf.strncmp 0 (lit "all/") 4 then
    if (← buf.strlen 4) ≠ 0 then
      let cmd ← buf.string 4
      let (svc, result) := run (.allCommand cmd) method upload_data svc
      return (buf, svc, result)
    else return (buf, svc, MHD_HTTP_NOT_FOUND, none)
  else
    let byName ← buf.strncmp 0 (lit "name/") 4
    splitCommand run method upload_data buf (if byName then 5 else 0) byName svc

end Handler

-- ---------------------------------------------------------------------------
-- The grammar
-- ---------------------------------------------------------------------------

/-- The paths of the interface, and what they ask for. -/
inductive DeviceUrl : Text → CommandCall → Prop where
  | all {cmd : Text} (hcmd : cmd ≠ []) : DeviceUrl (lit "all/" ++ cmd) (.allCommand cmd)
  | name {name cmd : Text} (hname : chr '/' ∉ name) (hcmd : cmd ≠ []) :
      DeviceUrl (lit "name/" ++ (name ++ chr '/' :: cmd)) (.oneCommand name true cmd)
  | id {id cmd : Text} (hid : chr '/' ∉ id) (hcmd : cmd ≠ [])
      (hall : ¬ lit "all/" <+: id ++ chr '/' :: cmd)
      (hname : ¬ lit "name/" <+: id ++ chr '/' :: cmd) :
      DeviceUrl (id ++ chr '/' :: cmd) (.oneCommand id false cmd)

/-- The handler runs what the path asks for, and nothing when it asks for nothing. It stays inside
the text, and leaves it as it was. -/
def FollowsGrammar (tail : Text) : Prop :=
  ∀ (σ : Type) (run : RunCommand σ) (method : HttpMethod) (upload_data : Text) (svc : σ) (n : Nat)
    (buf : CharArray n), buf.bytes = tail ++ [0] →
    (∀ c, DeviceUrl tail c → edgexDeviceHandlerDevice run method upload_data buf svc =
      .ok (buf, run c method upload_data svc)) ∧
    ((∀ c, ¬ DeviceUrl tail c) → edgexDeviceHandlerDevice run method upload_data buf svc =
      .ok (buf, svc, MHD_HTTP_NOT_FOUND, none))

/-- The path is the word `name`, or asks for a device whose id begins with that word. -/
def TakenForName (tail : Text) : Prop :=
  tail = lit "name" ∨ ∃ id cmd, tail = id ++ chr '/' :: cmd ∧ chr '/' ∉ id ∧ cmd ≠ [] ∧
    lit "name" <+: id ∧ id ≠ lit "name"

section Splitting

variable {σ : Type} (run : RunCommand σ) (method : HttpMethod) (upload_data : Text) {n : Nat}
  {buf : CharArray n} {before s : Text} (byName : Bool) (svc : σ)

/-- Without a slash, or with nothing behind it, nothing is run. -/
theorem splitCommand_notFound (hbytes : buf.bytes = (before ++ s) ++ [0]) (hdata : 0 ∉ before ++ s)
    (h : ∀ l r, s = l ++ chr '/' :: r → chr '/' ∉ l → r = []) :
    splitCommand run method upload_data buf before.length byName svc =
      .ok (buf, svc, MHD_HTTP_NOT_FOUND, none) := by
  have hurl : before.length ≤ (before ++ s).length := by simp
  have hdrop : (before ++ s).drop before.length = s := List.drop_left
  by_cases hslash : chr '/' ∈ s
  · obtain ⟨l, r, hs, hl⟩ := List.eq_append_cons_of_mem hslash
    obtain rfl := h l r hs hl
    have hend : (before ++ s).length = before.length + l.length + 1 := by
      rw [hs]
      simp only [List.length_append, List.length_cons, List.length_nil]
      omega
    rw [splitCommand, CharArray.strchr_eq_some hbytes hdata hurl (hdrop.trans hs) hl,
      Checked.ok_bind]
    dsimp only
    rw [CharArray.strlen_eq hbytes hdata hend.ge, hend, Nat.sub_self, Checked.ok_bind, if_pos rfl]
    rfl
  · rw [splitCommand, CharArray.strchr_eq_none hbytes hdata hurl (by rwa [hdrop])]
    rfl

/-- Else the text is split, and restored. -/
theorem splitCommand_eq {l r : Text} (hbytes : buf.bytes = (before ++ s) ++ [0])
    (hdata : 0 ∉ before ++ s) (hs : s = l ++ chr '/' :: r) (hl : chr '/' ∉ l) (hr : r ≠ []) :
    splitCommand run method upload_data buf before.length byName svc =
      .ok (buf, run (.oneCommand l byName r) method upload_data svc) := by
  have hurl : before.length ≤ (before ++ s).length := by simp
  have hdrop : (before ++ s).drop before.length = l ++ chr '/' :: r := by rw [List.drop_left, hs]
  have hlen : (before ++ s).length = before.length + l.length + 1 + r.length := by
    rw [hs]
    simp only [List.length_append, List.length_cons]
    omega
  have hn : n = (before ++ s).length + 1 := by
    rw [← buf.length_eq, hbytes, List.length_append, List.length_singleton]
  -- the slash becomes the end of the id
  have hset : buf.bytes.set (before.length + l.length) 0 = (before ++ l) ++ 0 :: (r ++ [0]) := by
    rw [hbytes, hs, ← List.length_append]
    simp
  obtain ⟨split, hsplit⟩ : ∃ split, buf.store (before.length + l.length) 0 = .ok split :=
    ⟨⟨_, by rw [List.length_set, buf.length_eq]⟩, CharArray.store_eq_ok.mpr ⟨by omega, rfl⟩⟩
  have hsplitBytes := (CharArray.store_eq_ok.mp hsplit).2.trans hset
  have hnul := hdata
  rw [hs, List.mem_append, List.mem_append, List.mem_cons, not_or, not_or, not_or] at hnul
  have hid : split.string before.length = .ok l := by
    have hbefore : 0 ∉ before ++ l := by
      rw [List.mem_append, not_or]
      exact ⟨hnul.1, hnul.2.1⟩
    rw [CharArray.string_drop hsplitBytes hbefore (by simp), List.drop_left]
  have hcommand : split.string (before.length + l.length + 1) = .ok r := by
    have hbytes' : split.bytes = (before ++ l ++ 0 :: r) ++ 0 :: [] := by
      rw [hsplitBytes]
      simp
    have hskip : (before ++ l ++ 0 :: r).drop (before.length + l.length + 1) = r := by
      rw [← List.length_append, List.drop_length_add_append]
      rfl
    rw [CharArray.string_of_bytes hbytes' (by simp), hskip]
    exact congrArg Except.ok (cstring_eq hnul.2.2.2)
  have hback : split.store (before.length + l.length) (chr '/') = .ok buf := by
    refine CharArray.store_eq_ok.mpr ⟨by omega, ?_⟩
    rw [hbytes, hsplitBytes, hs, ← List.length_append]
    simp
  have hnonempty : (before ++ s).length - (before.length + l.length + 1) ≠ 0 := by
    rw [hlen, Nat.add_sub_cancel_left]
    exact fun hzero => hr (List.length_eq_zero_iff.mp hzero)
  rw [splitCommand, CharArray.strchr_eq_some hbytes hdata hurl hdrop hl, Checked.ok_bind]
  dsimp only
  rw [CharArray.strlen_eq hbytes hdata (by omega), Checked.ok_bind, if_neg hnonempty, hsplit,
    Checked.ok_bind, hid, Checked.ok_bind, hcommand, Checked.ok_bind, hback]
  rfl

end Splitting

-- ---------------------------------------------------------------------------
-- What the handler runs
-- ---------------------------------------------------------------------------

section Handler

variable {σ : Type} (run : RunCommand σ) (method : HttpMethod) (upload_data : Text) {n : Nat}
  {tail : Text} {buf : CharArray n} (svc : σ) (htail : 0 ∉ tail) (hbytes : buf.bytes = tail ++ [0])
include htail hbytes

theorem handler_empty (h : tail = []) :
    edgexDeviceHandlerDevice run method upload_data buf svc =
      .ok (buf, svc, MHD_HTTP_NOT_FOUND, none) := by
  rw [edgexDeviceHandlerDevice, CharArray.strlen_eq hbytes htail (Nat.zero_le _), Checked.ok_bind,
    if_pos (by rw [h]; rfl)]
  rfl

/-- A path that does not begin with the word for all devices. -/
theorem handler_one (hne : tail ≠ []) (hall : ¬ lit "all/" <+: tail) :
    edgexDeviceHandlerDevice run method upload_data buf svc =
      splitCommand run method upload_data buf (if lit "name" <+: tail then 5 else 0)
        (decide (lit "name" <+: tail)) svc := by
  have hlen : tail.length - 0 ≠ 0 := fun hzero => hne (List.length_eq_zero_iff.mp hzero)
  have hfour : buf.strncmp 0 (lit "all/") 4 = .ok false := by
    rw [CharArray.strncmp_eq hbytes (Nat.zero_le _) (by decide) (by decide)]
    exact congrArg Except.ok (decide_eq_false hall)
  have hname : buf.strncmp 0 (lit "name/") 4 = .ok (decide (lit "name" <+: tail)) :=
    CharArray.strncmp_eq hbytes (Nat.zero_le _) (by decide) (by decide)
  rw [edgexDeviceHandlerDevice, CharArray.strlen_eq hbytes htail (Nat.zero_le _), Checked.ok_bind,
    if_neg hlen, hfour, Checked.ok_bind, if_neg Bool.false_ne_true, hname, Checked.ok_bind]
  simp only [decide_eq_true_eq]

/-- A path that does. -/
theorem handler_all {cmd : Text} (h : tail = lit "all/" ++ cmd) :
    edgexDeviceHandlerDevice run method upload_data buf svc =
      .ok (buf, if cmd = [] then (svc, MHD_HTTP_NOT_FOUND, none)
        else run (.allCommand cmd) method upload_data svc) := by
  have hpre : lit "all/" <+: tail := ⟨cmd, h.symm⟩
  have hlen : tail.length = 4 + cmd.length := by rw [h, List.length_append]; rfl
  have hfour : buf.strncmp 0 (lit "all/") 4 = .ok true := by
    rw [CharArray.strncmp_eq hbytes (Nat.zero_le _) (by decide) (by decide)]
    exact congrArg Except.ok (decide_eq_true hpre)
  have hcmd : buf.string 4 = .ok cmd := by
    rw [CharArray.string_drop hbytes htail (by omega), h]
    rfl
  rw [edgexDeviceHandlerDevice, CharArray.strlen_eq hbytes htail (Nat.zero_le _), Checked.ok_bind,
    if_neg (by omega), hfour, Checked.ok_bind, if_pos rfl,
    CharArray.strlen_eq hbytes htail (by omega), Checked.ok_bind, hlen, Nat.add_sub_cancel_left]
  by_cases hnil : cmd = []
  · rw [if_pos hnil, if_neg (by simp [hnil])]
    rfl
  · rw [if_neg hnil, if_pos (by simpa using hnil), hcmd]
    rfl

end Handler

-- ---------------------------------------------------------------------------
-- The paths of the grammar
-- ---------------------------------------------------------------------------

section Grammar

variable {tail s cmd : Text} {c : CommandCall}

theorem name_of_slash (h : lit "name/" <+: tail) : lit "name" <+: tail :=
  List.IsPrefix.trans (by decide) h

theorem not_all_of_name (h : lit "name" <+: tail) : ¬ lit "all/" <+: tail := by
  intro hall
  rcases List.prefix_or_prefix_of_prefix h hall with hpre | hpre <;> exact absurd hpre (by decide)

theorem deviceUrl_all : DeviceUrl (lit "all/" ++ cmd) c ↔ cmd ≠ [] ∧ c = .allCommand cmd := by
  constructor
  · intro h
    generalize htail : lit "all/" ++ cmd = tail at h
    have hall : lit "all/" <+: tail := ⟨cmd, htail⟩
    cases h with
    | all hcmd =>
      obtain rfl := List.append_cancel_left htail
      exact ⟨hcmd, rfl⟩
    | name hname hcmd =>
      exact absurd hall (not_all_of_name (name_of_slash (List.prefix_append _ _)))
    | id hid hcmd hnot => exact absurd hall hnot
  · rintro ⟨hcmd, rfl⟩
    exact .all hcmd

/-- The command of a device, and the device. -/
def Splits (s : Text) (byName : Bool) (c : CommandCall) : Prop :=
  ∃ l r, s = l ++ chr '/' :: r ∧ chr '/' ∉ l ∧ r ≠ [] ∧ c = .oneCommand l byName r

theorem deviceUrl_name : DeviceUrl (lit "name/" ++ s) c ↔ Splits s true c := by
  constructor
  · intro h
    generalize htail : lit "name/" ++ s = tail at h
    have hpre : lit "name/" <+: tail := ⟨s, htail⟩
    cases h with
    | all hcmd =>
      exact absurd (List.prefix_append _ _) (not_all_of_name (name_of_slash hpre))
    | name hname hcmd => exact ⟨_, _, List.append_cancel_left htail, hname, hcmd, rfl⟩
    | id hid hcmd hall hnot => exact absurd hpre hnot
  · rintro ⟨l, r, rfl, hl, hr, rfl⟩
    exact .name hl hr

theorem deviceUrl_id (hall : ¬ lit "all/" <+: tail) (hname : ¬ lit "name/" <+: tail) :
    DeviceUrl tail c ↔ Splits tail false c := by
  constructor
  · intro h
    cases h with
    | all hcmd => exact absurd (List.prefix_append _ _) hall
    | name => exact absurd (List.prefix_append _ _) hname
    | id hid hcmd => exact ⟨_, _, rfl, hid, hcmd, rfl⟩
  · rintro ⟨l, r, rfl, hl, hr, rfl⟩
    exact .id hl hr hall hname

end Grammar

-- ---------------------------------------------------------------------------
-- When the handler follows the grammar
-- ---------------------------------------------------------------------------

/-- A run that only notes what is run. -/
def noteCommand : RunCommand (List CommandCall) := fun c _ _ calls => (c :: calls, 0, none)

section Follows

variable {tail s before : Text} {byName : Bool}

/-- The path is split where the grammar splits it. -/
theorem followsGrammar_of_splits (htail : 0 ∉ tail) (hparts : tail = before ++ s)
    (hhandler : ∀ (σ : Type) (run : RunCommand σ) (method : HttpMethod) (upload_data : Text)
      (svc : σ) (n : Nat) (buf : CharArray n), buf.bytes = tail ++ [0] →
        edgexDeviceHandlerDevice run method upload_data buf svc =
          splitCommand run method upload_data buf before.length byName svc)
    (hgrammar : ∀ c, DeviceUrl tail c ↔ Splits s byName c) : FollowsGrammar tail := by
  subst hparts
  intro σ run method upload_data svc n buf hbytes
  rw [hhandler σ run method upload_data svc n buf hbytes]
  constructor
  · intro c hc
    obtain ⟨l, r, hs, hl, hr, rfl⟩ := (hgrammar c).mp hc
    exact splitCommand_eq run method upload_data byName svc hbytes htail hs hl hr
  · intro hnone
    refine splitCommand_notFound run method upload_data byName svc hbytes htail fun l r hs hl => ?_
    by_contra hr
    exact hnone _ ((hgrammar _).mpr ⟨l, r, hs, hl, hr, rfl⟩)

theorem followsGrammar_all {cmd : Text} (htail : 0 ∉ tail) (h : tail = lit "all/" ++ cmd) :
    FollowsGrammar tail := by
  intro σ run method upload_data svc n buf hbytes
  rw [handler_all run method upload_data svc htail hbytes h]
  subst h
  constructor
  · intro c hc
    obtain ⟨hcmd, rfl⟩ := deviceUrl_all.mp hc
    rw [if_neg hcmd]
  · intro hnone
    have hcmd : cmd = [] := by
      by_contra hne
      exact hnone _ (deviceUrl_all.mpr ⟨hne, rfl⟩)
    rw [if_pos hcmd]

/-- The word for names, with a slash behind it. -/
theorem followsGrammar_name (htail : 0 ∉ tail) (h : tail = lit "name/" ++ s) :
    FollowsGrammar tail := by
  have hpre : lit "name" <+: tail := name_of_slash ⟨s, h.symm⟩
  have hne : tail ≠ [] := by
    rintro rfl
    cases h
  refine followsGrammar_of_splits htail h ?_ (by rw [h]; exact fun c => deviceUrl_name)
  intro σ run method upload_data svc n buf hbytes
  rw [handler_one run method upload_data svc htail hbytes hne (not_all_of_name hpre), if_pos hpre,
    decide_eq_true hpre]
  rfl

/-- Any path that does not begin with the word for names. -/
theorem followsGrammar_id (htail : 0 ∉ tail) (hne : tail ≠ []) (hall : ¬ lit "all/" <+: tail)
    (hname : ¬ lit "name" <+: tail) : FollowsGrammar tail := by
  refine followsGrammar_of_splits htail (List.nil_append tail).symm ?_
    fun c => deviceUrl_id hall fun hslash => hname (name_of_slash hslash)
  intro σ run method upload_data svc n buf hbytes
  rw [handler_one run method upload_data svc htail hbytes hne hall, if_neg hname,
    decide_eq_false hname]
  rfl

/-- Behind the word for names and a character that is no slash, the handler looks for a name. -/
theorem handler_skips {c : UInt8} {σ : Type} (run : RunCommand σ) (method : HttpMethod)
    (upload_data : Text) (svc : σ) {n : Nat} {buf : CharArray n} (htail : 0 ∉ tail)
    (h : tail = lit "name" ++ [c] ++ s) (hbytes : buf.bytes = tail ++ [0]) :
    edgexDeviceHandlerDevice run method upload_data buf svc =
      splitCommand run method upload_data buf (lit "name" ++ [c]).length true svc := by
  have hpre : lit "name" <+: tail := ⟨[c] ++ s, by rw [h, List.append_assoc]⟩
  have hne : tail ≠ [] := by
    rintro rfl
    cases h
  rw [handler_one run method upload_data svc htail hbytes hne (not_all_of_name hpre), if_pos hpre,
    decide_eq_true hpre]
  rfl

/-- A slash behind a text without one. -/
theorem split_behind {a l r : Text} (ha : chr '/' ∉ a) (hl : chr '/' ∉ l)
    (h : a ++ s = l ++ chr '/' :: r) :
    ∃ l', l = a ++ l' ∧ s = l' ++ chr '/' :: r ∧ chr '/' ∉ l' := by
  rcases List.append_eq_append_iff.mp h with ⟨l', rfl, hs⟩ | ⟨rest, rfl, hrest⟩
  · exact ⟨l', rfl, hs, fun hmem => hl (List.mem_append_right _ hmem)⟩
  · cases rest with
    | nil => exact ⟨[], by simp, hrest.symm, List.not_mem_nil⟩
    | cons x rest =>
      obtain ⟨rfl, -⟩ := List.cons_eq_cons.mp hrest
      exact absurd (List.mem_append_right _ List.mem_cons_self) ha

theorem notMem_skipped {c : UInt8} (hc : c ≠ chr '/') : chr '/' ∉ lit "name" ++ [c] := by
  rw [List.mem_append, List.mem_singleton, not_or]
  exact ⟨by decide, hc.symm⟩

theorem deviceUrl_skips {c : UInt8} (h : tail = lit "name" ++ [c] ++ s) (hc : c ≠ chr '/')
    (d : CommandCall) : DeviceUrl tail d ↔ Splits tail false d := by
  have hpre : lit "name" <+: tail := ⟨[c] ++ s, by rw [h, List.append_assoc]⟩
  refine deviceUrl_id (not_all_of_name hpre) ?_
  rintro ⟨t, ht⟩
  rw [h] at ht
  have hchars : chr '/' :: t = c :: s := @List.append_cancel_left _ (lit "name") _ _ ht
  exact hc (List.head_eq_of_cons_eq hchars).symm

/-- That is right only where nothing is to be run. -/
theorem followsGrammar_skips_iff {c : UInt8} (htail : 0 ∉ tail) (h : tail = lit "name" ++ [c] ++ s)
    (hc : c ≠ chr '/') :
    FollowsGrammar tail ↔ ∀ l r, s = l ++ chr '/' :: r → chr '/' ∉ l → r = [] := by
  constructor
  · intro hfollows l r hs hl
    by_contra hr
    -- the grammar has the id, the handler has its end as a name
    have hurl : DeviceUrl tail (.oneCommand (lit "name" ++ [c] ++ l) false r) := by
      refine (deviceUrl_skips h hc _).mpr ⟨_, r, by simp [h, hs], ?_, hr, rfl⟩
      rw [List.mem_append, not_or]
      exact ⟨notMem_skipped hc, hl⟩
    obtain ⟨buf, hbytes⟩ : ∃ buf : CharArray (tail.length + 1), buf.bytes = tail ++ [0] :=
      ⟨⟨tail ++ [0], by simp⟩, rfl⟩
    have hnoted := (hfollows _ noteCommand .get [] [] _ buf hbytes).1 _ hurl
    rw [handler_skips noteCommand .get [] [] htail h hbytes] at hnoted
    subst h
    rw [splitCommand_eq noteCommand .get [] true [] hbytes htail hs hl hr] at hnoted
    simp [noteCommand] at hnoted
  · intro hnone σ run method upload_data svc n buf hbytes
    have hno (d : CommandCall) : ¬ DeviceUrl tail d := by
      rw [deviceUrl_skips h hc]
      rintro ⟨l, r, ht, hl, hr, -⟩
      obtain ⟨l', -, hs, hl'⟩ := split_behind (notMem_skipped hc) hl (h.symm.trans ht)
      exact hr (hnone l' r hs hl')
    refine ⟨fun d hd => absurd hd (hno d), fun _ => ?_⟩
    rw [handler_skips run method upload_data svc htail h hbytes]
    subst h
    exact splitCommand_notFound run method upload_data true svc hbytes htail hnone

/-- Behind the word for names alone, the handler reads past the end. -/
theorem handler_nameOnly {σ : Type} (run : RunCommand σ) (method : HttpMethod) (upload_data : Text)
    (svc : σ) :
    edgexDeviceHandlerDevice run method upload_data ⟨lit "name" ++ [0], rfl⟩ svc =
      .error .outOfBounds := rfl

theorem not_followsGrammar_nameOnly : ¬ FollowsGrammar (lit "name") := by
  intro hfollows
  have hno (c : CommandCall) : ¬ DeviceUrl (lit "name") c := by
    rw [deviceUrl_id (by decide) (by decide)]
    rintro ⟨l, r, h, -, -, -⟩
    have hmem : chr '/' ∈ lit "name" := by
      rw [h]
      exact List.mem_append_right _ List.mem_cons_self
    exact absurd hmem (by decide)
  have hnoted := (hfollows _ noteCommand .get [] [] _ ⟨lit "name" ++ [0], rfl⟩ rfl).2 hno
  rw [handler_nameOnly] at hnoted
  cases hnoted

/-- The handler follows the grammar on all paths but those that it takes for names. -/
theorem followsGrammar_iff (htail : 0 ∉ tail) : FollowsGrammar tail ↔ ¬ TakenForName tail := by
  by_cases hname : lit "name" <+: tail
  · obtain ⟨t, ht⟩ := hname
    cases t with
    | nil =>
      rw [List.append_nil] at ht
      subst ht
      exact iff_of_false not_followsGrammar_nameOnly (not_not_intro (.inl rfl))
    | cons c s =>
      have hskip : tail = lit "name" ++ [c] ++ s := by rw [← ht, List.append_assoc]; rfl
      have hnot : tail ≠ lit "name" := by
        rw [← ht]
        simp
      by_cases hc : c = chr '/'
      · subst hc
        refine iff_of_true (followsGrammar_name (s := s) htail hskip) ?_
        rintro (heq | ⟨id, cmd, h, hid, -, ⟨id', rfl⟩, hne⟩)
        · exact hnot heq
        · -- the id would hold the slash
          have hchars : chr '/' :: s = id' ++ chr '/' :: cmd :=
            @List.append_cancel_left _ (lit "name") _ _ (ht.trans (h.trans (List.append_assoc _ _ _)))
          cases id' with
          | nil => simp at hne
          | cons x id' =>
            obtain ⟨rfl, -⟩ := List.cons_eq_cons.mp hchars
            simp at hid
      · rw [followsGrammar_skips_iff htail hskip hc]
        constructor
        · rintro hnone (heq | ⟨id, cmd, h, hid, hcmd, -, -⟩)
          · exact hnot heq
          · obtain ⟨l, -, hs, hl⟩ := split_behind (notMem_skipped hc) hid (hskip.symm.trans h)
            exact hcmd (hnone l cmd hs hl)
        · intro htaken l r hs hl
          by_contra hr
          refine htaken (.inr ⟨lit "name" ++ [c] ++ l, r, by simp [hskip, hs], ?_, hr, ?_, by simp⟩)
          · rw [List.mem_append, not_or]
            exact ⟨notMem_skipped hc, hl⟩
          · rw [List.append_assoc]
            exact List.prefix_append _ _
  · have hother : ¬ TakenForName tail := by
      rintro (rfl | ⟨id, cmd, rfl, -, -, hpre, -⟩)
      · exact hname List.prefix_rfl
      · exact hname (hpre.trans (List.prefix_append _ _))
    refine iff_of_true ?_ hother
    by_cases hne : tail = []
    · intro σ run method upload_data svc n buf hbytes
      subst hne
      refine ⟨fun c hc => ?_, fun _ => handler_empty run method upload_data svc htail hbytes rfl⟩
      obtain ⟨l, r, h, -⟩ := (deviceUrl_id (by decide) (by decide)).mp hc
      simp at h
    · by_cases hall : lit "all/" <+: tail
      · obtain ⟨cmd, h⟩ := hall
        exact followsGrammar_all htail h.symm
      · exact followsGrammar_id htail hne hall hname

/-- A name. -/
theorem followsGrammar_lamp : FollowsGrammar (lit "name/Lamp/Switch") := by
  refine (followsGrammar_iff (by decide)).mpr ?_
  rintro (heq | ⟨id, cmd, h, hid, -, -, hne⟩)
  · exact absurd heq (by decide)
  · exact hne (append_sep_inj (v := lit "name") (r := lit "Lamp/Switch") (by decide) hid h).1.symm

/-- An id that begins with the word for names. -/
theorem named_not_followsGrammar : ¬ FollowsGrammar (lit "named-1/Switch") := by
  intro hfollows
  have hnone := (followsGrammar_skips_iff (s := lit "-1/Switch") (c := chr 'd') (by decide) rfl
    (by decide)).mp hfollows (lit "-1") (lit "Switch") rfl (by decide)
  exact absurd hnone (by decide)

end Follows

end Zigbee
