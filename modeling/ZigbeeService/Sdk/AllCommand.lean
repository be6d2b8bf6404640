-- SUMMARY: A command for all devices: the replies are collected in one array, JSON or CBOR (device.c).
import ZigbeeService.Lib.Block
import ZigbeeService.Sdk.RunOne

/-!
# All devices

`allCommand`. The reply grows in a block that is made larger for each event. The text of a JSON event
and the bytes of a CBOR event come from the libraries that serialise them.
-/

namespace Zigbee

open CLib

-- ---------------------------------------------------------------------------
-- The functions
-- ---------------------------------------------------------------------------

/-- `edgex_event_encoding`. -/
inductive EventEncoding where
  | json
  | cbor
  deriving DecidableEq

/-- `edgex_event_cooked`, as the libraries have serialised it. -/
inductive SerialEvent where
  | json (text : Text)
  | cbor (data : List UInt8)
  deriving DecidableEq

/-- `json_serialize_to_string` and `cbor_serialize_alloc`. -/
structure Serializers where
  json : Json → Text
  cbor : Cbor → List UInt8
  json_text : ∀ v, 0 ∉ json v

def Serializers.event (ser : Serializers) : EventCooked → SerialEvent
  | .json jevent => .json (ser.json jevent)
  | .cbor cevent => .cbor (ser.cbor cevent)

/-- What `runOne` returns to `allCommand` for one device. -/
structure OneReply where
  retOne : Nat
  ereply : Option SerialEvent
  ok : ereply ≠ none → retOne = MHD_HTTP_OK
  text : ∀ t, ereply = some (.json t) → 0 ∉ t

/-- The variables of `allCommand`. The number of devices that have replied does not wrap. -/
structure AllState where
  ret : Nat
  nret : Nat
  buff : Block
  enc : EventEncoding
  bsize : Nat

/-- What `allCommand` hands to the server: the first `replySize` bytes of a block. -/
structure HttpReply where
  reply : Block
  replySize : Nat
  replyType : Text

/-- The `switch` in the loop of `allCommand`. -/
def appendReply (s : AllState) : SerialEvent → Checked AllState
  | .json json => do
    let bsize := s.bsize + (json.length + if s.nret ≠ 0 then 1 else 0)
    let buff := s.buff.realloc bsize
    let buff ← if s.nret ≠ 0 then buff.strcat (lit ",") else pure buff
    let buff ← buff.strcat json
    return { s with nret := s.nret + 1, buff, enc := .json, bsize }
  | .cbor data => do
    let buff := s.buff.realloc (s.bsize + data.length)
    let buff ← if s.nret = 0 then buff.store 0 0o374 else pure buff
    let buff ← buff.memcpy (s.bsize - 2) data
    return { s with nret := s.nret + 1, buff, enc := .cbor, bsize := s.bsize + data.length }

/-- One round of the loop of `allCommand`. -/
def allCommandRound (s : AllState) (r : OneReply) : Checked AllState := do
  let s ← match r.ereply with
    | none => pure s
    | some ereply => appendReply s ereply
  return if s.ret ≠ MHD_HTTP_OK then { s with ret := r.retOne } else s

/-- `allCommand`, after the loop. -/
def finishReply (s : AllState) : Checked (Nat × Option HttpReply) :=
  if s.ret = MHD_HTTP_OK then
    match s.enc with
    | .json => do
      let buff ← s.buff.strcat (lit "]")
      let text ← buff.string
      return (s.ret, some ⟨buff, text.length, lit "application/json"⟩)
    | .cbor => do
      let buff ← s.buff.store (s.bsize - 2) 0o377
      let buff ← buff.store (s.bsize - 1) 0
      return (s.ret, some ⟨buff, s.bsize - 1, lit "application/cbor"⟩)
  else return (s.ret, none)

def MHD_HTTP_NOT_FOUND : Nat := 404

/-- `allCommand`, with the replies of the devices of its queue. -/
def allCommand (replies : List OneReply) : Checked (Nat × Option HttpReply) := do
  let buff ← (Block.malloc 3).strcpy (lit "[")
  let s ← replies.foldlM allCommandRound ⟨MHD_HTTP_NOT_FOUND, 0, buff, .json, 3⟩
  finishReply s

section RunOne

variable (ft : FloatText) {L : Type} (ld : LongDouble L) (cb : Libcbor) (parson : Parson)
  (userfns : UserFns)
  (svc : DeviceConfig) (dev : DeviceInfo) (timenow : UInt64) (command : CmdInfo)
  (upload_data : Text) (upload_data_size : Nat)

/-- An event only comes with the status of success. -/
theorem runOne_event_ok {retOne : Nat} {event : EventCooked}
    (h : (runOne ft ld cb parson userfns svc dev timenow command upload_data
      upload_data_size).outcome = .ok (retOne, some event)) : retOne = MHD_HTTP_OK := by
  unfold runOne at h
  split at h
  · cases h
  split at h
  · cases h
  split at h
  · cases h
  split at h
  · unfold edgexDeviceRunget at h
    split at h
    · cases h
    dsimp only at h
    split at h
    · cases h
    split at h
    · cases h
    · cases h
      rfl
    · cases h
  split at h
  · cases h
  unfold edgexDeviceRunput at h
  split at h
  · cases h
  dsimp only at h
  split at h
  · cases h
  split at h
  · cases h
  · cases h

/-- The reply of one device, unless `runOne` meets undefined arithmetic. -/
def oneReply (ser : Serializers) : Defined OneReply :=
  match h : (runOne ft ld cb parson userfns svc dev timenow command upload_data
      upload_data_size).outcome with
  | .error e => .error e
  | .ok (retOne, none) => .ok ⟨retOne, none, fun hne => absurd rfl hne, nofun⟩
  | .ok (retOne, some event) =>
    .ok
      { retOne
        ereply := some (ser.event event)
        ok := fun _ => runOne_event_ok ft ld cb parson userfns svc dev timenow command upload_data
          upload_data_size h
        text := by
          intro t ht
          cases event with
          | json jevent =>
            cases ht
            exact ser.json_text jevent
          | cbor cevent => cases ht }

end RunOne

-- ---------------------------------------------------------------------------
-- Specification
-- ---------------------------------------------------------------------------

/-- A well-formed array of these events. A JSON array has JSON texts between brackets, an array of
CBOR has CBOR items between the start of an array of indefinite length and a break. -/
inductive IsArray : List SerialEvent → List UInt8 → Prop where
  | json (texts : List Text) :
      IsArray (texts.map .json) (lit "[" ++ ((lit ",").intercalate texts ++ lit "]"))
  | cbor (items : List (List UInt8)) :
      IsArray (items.map .cbor) (0x9f :: (items.flatten ++ [0xff]))

/-- These are the bytes of the reply. -/
def HttpReply.HasBytes (r : HttpReply) (bytes : List UInt8) : Prop :=
  r.replySize = bytes.length ∧ r.reply.cells.take r.replySize = bytes.map some

/-- The events of the devices, in the order of the queue. -/
def events (replies : List OneReply) : List SerialEvent := replies.filterMap OneReply.ereply

/-- Every access is within bounds, and a success is an array of the events. -/
def RepliesArray (replies : List OneReply) : Prop :=
  ∃ ret reply, allCommand replies = .ok (ret, reply) ∧
    (ret = MHD_HTTP_OK → ∃ r bytes, reply = some r ∧ IsArray (events replies) bytes ∧
      r.HasBytes bytes)

-- ---------------------------------------------------------------------------
-- The loop
-- ---------------------------------------------------------------------------

theorem events_cons (r : OneReply) (replies : List OneReply) :
    events (r :: replies) = r.ereply.toList ++ events replies := by
  unfold events
  cases h : r.ereply with
  | none => rw [List.filterMap_cons_none h, Option.toList_none, List.nil_append]
  | some event => rw [List.filterMap_cons_some h, Option.toList_some, List.singleton_append]

section Loop

variable {α : Type} {event : α → SerialEvent} {State : AllState → List α → Prop} {Good : α → Prop}

/-- One round, for events of one kind: a state that says which of them are in the block. -/
theorem allCommandRound_collects
    (happend : ∀ {s xs x}, State s xs → Good x → ∃ s', appendReply s (event x) = .ok s' ∧
      State s' (xs ++ [x]))
    (hret : ∀ {s xs} ret, State s xs → State { s with ret := ret } xs)
    {r : OneReply} (hr : ∀ e, r.ereply = some e → ∃ x, e = event x ∧ Good x)
    {s : AllState} {xs : List α} (h : State s xs) :
    ∃ s' new, allCommandRound s r = .ok s' ∧ r.ereply.toList = new.map event ∧
      State s' (xs ++ new) := by
  have hnext {s : AllState} {xs : List α} (h : State s xs) :
      State (if s.ret ≠ MHD_HTTP_OK then { s with ret := r.retOne } else s) xs := by
    split
    · exact hret r.retOne h
    · exact h
  unfold allCommandRound
  cases hreply : r.ereply with
  | none => exact ⟨_, [], rfl, rfl, by rw [List.append_nil]; exact hnext h⟩
  | some e =>
    obtain ⟨x, rfl, hx⟩ := hr e hreply
    obtain ⟨s', hs', hstate⟩ := happend h hx
    exact ⟨_, [x], Checked.bind_eq_ok.mpr ⟨s', hs', rfl⟩, rfl, hnext hstate⟩

theorem foldlM_collects
    (happend : ∀ {s xs x}, State s xs → Good x → ∃ s', appendReply s (event x) = .ok s' ∧
      State s' (xs ++ [x]))
    (hret : ∀ {s xs} ret, State s xs → State { s with ret := ret } xs)
    {replies : List OneReply}
    (hall : ∀ r ∈ replies, ∀ e, r.ereply = some e → ∃ x, e = event x ∧ Good x)
    {s : AllState} {xs : List α} (h : State s xs) :
    ∃ s' new, replies.foldlM allCommandRound s = .ok s' ∧ events replies = new.map event ∧
      State s' (xs ++ new) := by
  induction replies generalizing s xs with
  | nil => exact ⟨s, [], rfl, rfl, by rwa [List.append_nil]⟩
  | cons r replies ih =>
    rw [List.forall_mem_cons] at hall
    obtain ⟨s₁, new, hs₁, hevent, hstate⟩ := allCommandRound_collects happend hret hall.1 h
    obtain ⟨s', news, hs', hevents, hstate'⟩ := ih hall.2 hstate
    refine ⟨s', new ++ news, ?_, ?_, ?_⟩
    · rw [List.foldlM_cons]
      exact Checked.bind_eq_ok.mpr ⟨s₁, hs₁, hs'⟩
    · rw [events_cons, hevent, hevents, List.map_append]
    · rwa [← List.append_assoc]

end Loop

-- ---------------------------------------------------------------------------
-- Replies in JSON
-- ---------------------------------------------------------------------------

/-- The array of the texts, up to its closing bracket. -/
def openArray (texts : List Text) : Text := lit "[" ++ (lit ",").intercalate texts

theorem openArray_singleton (t : Text) : openArray [t] = openArray [] ++ t := by
  simp [openArray]

theorem openArray_concat {texts : List Text} (h : texts ≠ []) (t : Text) :
    openArray (texts ++ [t]) = openArray texts ++ lit "," ++ t := by
  rw [openArray, openArray, intercalate_concat _ h, List.append_assoc, List.append_assoc]

/-- The block holds the array of the texts, and has a byte for the closing bracket. -/
structure JsonState (s : AllState) (texts : List Text) : Prop where
  nret : s.nret = texts.length
  enc : s.enc = .json
  bsize : s.bsize = s.buff.size
  holds : s.buff.HoldsString (openArray texts) 1

theorem JsonState.append {s : AllState} {texts : List Text} {t : Text} (h : JsonState s texts)
    (ht : 0 ∉ t) : ∃ s', appendReply s (.json t) = .ok s' ∧ JsonState s' (texts ++ [t]) := by
  have hsize := h.holds.size
  have hgrown := h.holds.realloc (t.length + if s.nret ≠ 0 then 1 else 0)
  rw [← h.bsize] at hgrown
  by_cases hfirst : texts = []
  · subst hfirst
    have hzero : ¬ s.nret ≠ 0 := fun hne => hne h.nret
    rw [if_neg hzero, Nat.add_zero] at hgrown
    obtain ⟨buff, hbuff, hholds⟩ := hgrown.strcat ht (Nat.le_add_left _ _)
    rw [Nat.add_sub_cancel, ← openArray_singleton] at hholds
    refine ⟨⟨s.ret, s.nret + 1, buff, .json, s.bsize + t.length⟩, ?_, ?_⟩
    · simp only [appendReply, if_neg hzero, Nat.add_zero, Checked.pure_eq, Checked.ok_bind, hbuff]
    · refine ⟨congrArg (· + 1) h.nret, rfl, ?_, hholds⟩
      dsimp only
      rw [hholds.size, openArray_singleton, List.length_append, h.bsize, hsize]
      omega
  · have hmore : s.nret ≠ 0 := by
      rw [h.nret]
      exact fun hlen => hfirst (List.length_eq_zero_iff.mp hlen)
    rw [if_pos hmore] at hgrown
    have hcomma : (lit ",").length ≤ 1 + (t.length + 1) := Nat.le_add_right 1 _
    obtain ⟨buff, hbuff, hholds⟩ := hgrown.strcat (by decide) hcomma
    have hroom : t.length ≤ 1 + (t.length + 1) - (lit ",").length := by
      rw [show (lit ",").length = 1 from rfl]
      omega
    obtain ⟨buff', hbuff', hholds'⟩ := hholds.strcat ht hroom
    have hleft : 1 + (t.length + 1) - (lit ",").length - t.length = 1 := by
      rw [show (lit ",").length = 1 from rfl]
      omega
    rw [hleft, ← openArray_concat hfirst] at hholds'
    refine ⟨⟨s.ret, s.nret + 1, buff', .json, s.bsize + (t.length + 1)⟩, ?_, ?_⟩
    · simp only [appendReply, if_pos hmore, Checked.ok_bind, hbuff, hbuff']
      rfl
    · refine ⟨?_, rfl, ?_, hholds'⟩
      · rw [List.length_append, ← h.nret]
        rfl
      · dsimp only
        rw [hholds'.size, openArray_concat hfirst, List.length_append, List.length_append, h.bsize,
          hsize, show (lit ",").length = 1 from rfl]
        omega

theorem JsonState.finish {s : AllState} {texts : List Text} (h : JsonState s texts) :
    ∃ reply, finishReply s = .ok (s.ret, reply) ∧
      (s.ret = MHD_HTTP_OK → ∃ r, reply = some r ∧ r.HasBytes (openArray texts ++ lit "]")) := by
  unfold finishReply
  by_cases hret : s.ret = MHD_HTTP_OK
  · obtain ⟨buff, hbuff, hholds⟩ := h.holds.strcat (t := lit "]") (by decide) (Nat.le_refl 1)
    rw [if_pos hret, h.enc]
    refine ⟨some ⟨buff, (openArray texts ++ lit "]").length, lit "application/json"⟩, ?_, ?_⟩
    · simp only [hbuff, Checked.ok_bind, hholds.string, Checked.pure_eq]
    · intro _
      exact ⟨_, rfl, rfl, hholds.2.forget.take⟩
  · rw [if_neg hret]
    exact ⟨none, rfl, fun hok => absurd hok hret⟩

/-- The array as it is before the first event. -/
theorem jsonState_init : ∃ buff, (Block.malloc 3).strcpy (lit "[") = .ok buff ∧
    JsonState ⟨MHD_HTTP_NOT_FOUND, 0, buff, .json, 3⟩ [] := by
  obtain ⟨buff, hbuff, hholds⟩ := Block.strcpy_malloc (s := lit "[") (n := 3) (by decide) (by decide)
  exact ⟨buff, hbuff, rfl, rfl, hholds.size.symm, hholds⟩

-- ---------------------------------------------------------------------------
-- Replies in CBOR
-- ---------------------------------------------------------------------------

/-- The block holds the items behind a first byte, and has two more. The first event puts the start
of an array there. -/
structure CborState (s : AllState) (items : List (List UInt8)) : Prop where
  nret : s.nret = items.length
  enc : items ≠ [] → s.enc = .cbor
  bsize : s.bsize = s.buff.size
  holds : ∃ c, (items ≠ [] → c = 0o374) ∧ s.buff.Holds (c :: items.flatten) 2

theorem CborState.append {s : AllState} {items : List (List UInt8)} (h : CborState s items)
    (data : List UInt8) : ∃ s', appendReply s (.cbor data) = .ok s' ∧
      CborState s' (items ++ [data]) := by
  obtain ⟨c, hc, hholds⟩ := h.holds
  have hsize := hholds.size
  have hgrown := hholds.realloc data.length
  rw [← h.bsize] at hgrown
  -- the start of the array is stored with the first event
  obtain ⟨buff, hbuff, hstarted⟩ : ∃ buff,
      (if s.nret = 0 then (s.buff.realloc (s.bsize + data.length)).store 0 0o374
        else pure (s.buff.realloc (s.bsize + data.length))) = .ok buff ∧
      buff.Holds (0o374 :: items.flatten) (2 + data.length) := by
    by_cases hfirst : items = []
    · subst hfirst
      have hhead : (s.buff.realloc (s.bsize + data.length)).Holds ([] ++ [c]) (2 + data.length) :=
        hgrown
      have hfits : [(0o374 : UInt8)].length ≤ [c].length + (2 + data.length) :=
        Nat.le_add_right _ _
      obtain ⟨buff, hbuff, hstart⟩ := hhead.overwrite hfits
      have hroom : [c].length + (2 + data.length) - [(0o374 : UInt8)].length = 2 + data.length :=
        Nat.add_sub_cancel_left 1 _
      rw [hroom] at hstart
      exact ⟨buff, (if_pos h.nret).trans hbuff, hstart⟩
    · have hmore : ¬ s.nret = 0 := by
        rw [h.nret]
        exact fun hlen => hfirst (List.length_eq_zero_iff.mp hlen)
      rw [hc hfirst] at hgrown
      exact ⟨_, if_neg hmore, hgrown⟩
  obtain ⟨buff', hbuff', hholds'⟩ := hstarted.memcpy (Nat.le_add_left data.length 2)
  have hindex : s.bsize - 2 = (0o374 :: items.flatten : List UInt8).length := by
    rw [h.bsize, hsize, Nat.add_sub_cancel, List.length_cons, List.length_cons]
  rw [Nat.add_sub_cancel] at hholds'
  have hflat : (0o374 :: items.flatten : List UInt8) ++ data =
      0o374 :: (items ++ [data]).flatten := by
    rw [List.flatten_append, List.flatten_singleton, List.cons_append]
  rw [hflat] at hholds'
  refine ⟨⟨s.ret, s.nret + 1, buff', .cbor, s.bsize + data.length⟩, ?_, ?_⟩
  · simp only [appendReply, hindex]
    split at hbuff
    · next hzero =>
      simp only [if_pos hzero, hbuff, Checked.ok_bind, hbuff']
      rfl
    · next hmore =>
      cases hbuff
      simp only [if_neg hmore, Checked.pure_eq, Checked.ok_bind, hbuff']
  · refine ⟨?_, fun _ => rfl, ?_, 0o374, fun _ => rfl, hholds'⟩
    · rw [List.length_append, ← h.nret]
      rfl
    · dsimp only
      rw [hholds'.size, ← hflat, List.length_append, h.bsize, hsize, List.length_cons,
        List.length_cons]
      omega

/-- The first byte of the reply does not start an array. -/
theorem CborState.finish {s : AllState} {items : List (List UInt8)} (h : CborState s items)
    (hne : items ≠ []) (hret : s.ret = MHD_HTTP_OK) :
    ∃ r, finishReply s = .ok (s.ret, some r) ∧
      r.HasBytes (0o374 :: (items.flatten ++ [0o377])) := by
  obtain ⟨c, hc, hholds⟩ := h.holds
  rw [hc hne] at hholds
  have hsize := hholds.size
  have hone : [(0o377 : UInt8)].length ≤ 2 := by decide
  obtain ⟨buff, hbuff, hbreak⟩ := hholds.memcpy hone
  have hlast : [(0 : UInt8)].length ≤ 2 - [(0o377 : UInt8)].length := by decide
  obtain ⟨buff', hbuff', hend⟩ := hbreak.memcpy hlast
  have hindex : s.bsize - 2 = (0o374 :: items.flatten : List UInt8).length := by
    rw [h.bsize, hsize, Nat.add_sub_cancel]
  have hindex' : s.bsize - 1 = (0o374 :: items.flatten ++ [0o377] : List UInt8).length := by
    rw [h.bsize, hsize, List.length_append]
    rfl
  unfold finishReply
  rw [if_pos hret, h.enc hne]
  refine ⟨⟨buff', s.bsize - 1, lit "application/cbor"⟩, ?_, ?_, ?_⟩
  · simp only [Block.store, hindex, hbuff, Checked.ok_bind, hindex', hbuff', Checked.pure_eq]
  · exact hindex'
  · dsimp only
    rw [hindex']
    exact hend.forget.take

-- ---------------------------------------------------------------------------
-- The status
-- ---------------------------------------------------------------------------

theorem appendReply_ret {s s' : AllState} {e : SerialEvent} (h : appendReply s e = .ok s') :
    s'.ret = s.ret := by
  -- in every branch the block is written twice, and the status is the old one
  have hwritten {x : Checked Block} {y : Block → Checked Block} {next : Block → AllState}
      (h : (x >>= fun buff => y buff >>= fun buff => pure (next buff)) = .ok s')
      (hnext : ∀ buff, (next buff).ret = s.ret) : s'.ret = s.ret := by
    obtain ⟨buff, -, h⟩ := Checked.bind_eq_ok.mp h
    obtain ⟨buff', -, h⟩ := Checked.bind_eq_ok.mp h
    cases h
    exact hnext buff'
  cases e with
  | json t =>
    simp only [appendReply] at h
    split at h
    · exact hwritten h fun _ => rfl
    · exact hwritten h fun _ => rfl
  | cbor data =>
    simp only [appendReply] at h
    split at h
    · exact hwritten h fun _ => rfl
    · exact hwritten h fun _ => rfl

theorem allCommandRound_ret {s s' : AllState} {r : OneReply} (h : allCommandRound s r = .ok s') :
    s'.ret = if s.ret ≠ MHD_HTTP_OK then r.retOne else s.ret := by
  have hround {s₁ : AllState} (hret : s₁.ret = s.ret)
      (h : (pure (if s₁.ret ≠ MHD_HTTP_OK then { s₁ with ret := r.retOne } else s₁) :
        Checked AllState) = .ok s') :
      s'.ret = if s.ret ≠ MHD_HTTP_OK then r.retOne else s.ret := by
    cases h
    rw [← hret]
    split
    · rfl
    · rfl
  unfold allCommandRound at h
  cases hreply : r.ereply with
  | none =>
    rw [hreply] at h
    exact hround rfl h
  | some e =>
    rw [hreply] at h
    obtain ⟨s₁, hs₁, h⟩ := Checked.bind_eq_ok.mp h
    exact hround (appendReply_ret hs₁) h

/-- One success is enough. -/
theorem foldlM_ret {replies : List OneReply} {s s' : AllState}
    (h : replies.foldlM allCommandRound s = .ok s')
    (hok : s.ret = MHD_HTTP_OK ∨ ∃ r ∈ replies, r.retOne = MHD_HTTP_OK) :
    s'.ret = MHD_HTTP_OK := by
  induction replies generalizing s with
  | nil =>
    cases h
    rcases hok with hok | ⟨r, hr, -⟩
    · exact hok
    · cases hr
  | cons r replies ih =>
    rw [List.foldlM_cons] at h
    obtain ⟨s₁, hs₁, h⟩ := Checked.bind_eq_ok.mp h
    have hret := allCommandRound_ret hs₁
    refine ih h ?_
    by_cases hs : s.ret = MHD_HTTP_OK
    · rw [if_neg (not_not.mpr hs)] at hret
      exact .inl (hret.trans hs)
    · rw [if_pos hs] at hret
      rcases hok with hok | ⟨q, hq, hqok⟩
      · exact absurd hok hs
      · rcases List.mem_cons.mp hq with rfl | hq
        · exact .inl (hret.trans hqok)
        · exact .inr ⟨q, hq, hqok⟩

theorem finishReply_ret {s : AllState} {ret : Nat} {reply : Option HttpReply}
    (h : finishReply s = .ok (ret, reply)) : ret = s.ret := by
  unfold finishReply at h
  split at h
  · split at h
    · obtain ⟨buff, -, h⟩ := Checked.bind_eq_ok.mp h
      obtain ⟨text, -, h⟩ := Checked.bind_eq_ok.mp h
      cases h
      rfl
    · obtain ⟨buff, -, h⟩ := Checked.bind_eq_ok.mp h
      obtain ⟨buff', -, h⟩ := Checked.bind_eq_ok.mp h
      cases h
      rfl
  · cases h
    rfl

/-- A device that replies with an event does so with the status of success. -/
theorem exists_retOne_ok {replies : List OneReply} (h : events replies ≠ []) :
    ∃ r ∈ replies, r.retOne = MHD_HTTP_OK := by
  obtain ⟨e, he⟩ := List.exists_mem_of_ne_nil _ h
  obtain ⟨r, hr, hreply⟩ := List.mem_filterMap.mp he
  refine ⟨r, hr, r.ok ?_⟩
  rw [hreply]
  exact Option.some_ne_none e

theorem allCommand_ret {replies : List OneReply} {ret : Nat} {reply : Option HttpReply}
    (h : allCommand replies = .ok (ret, reply)) (hevents : events replies ≠ []) :
    ret = MHD_HTTP_OK := by
  obtain ⟨buff, -, h⟩ := Checked.bind_eq_ok.mp h
  obtain ⟨s, hs, h⟩ := Checked.bind_eq_ok.mp h
  rw [finishReply_ret h]
  exact foldlM_ret hs (.inr (exists_retOne_ok hevents))

-- ---------------------------------------------------------------------------
-- The exact condition
-- ---------------------------------------------------------------------------

theorem HttpReply.HasBytes.unique {r : HttpReply} {bytes bytes' : List UInt8}
    (h : r.HasBytes bytes) (h' : r.HasBytes bytes') : bytes = bytes' :=
  List.map_injective_iff.mpr (Option.some_injective UInt8) (h.2.symm.trans h'.2)

/-- No device replies in CBOR. -/
def AllJson (replies : List OneReply) : Prop :=
  ∀ r ∈ replies, ∀ data, r.ereply ≠ some (.cbor data)

theorem repliesArray_of_allJson {replies : List OneReply} (h : AllJson replies) :
    RepliesArray replies := by
  obtain ⟨buff, hbuff, hinit⟩ := jsonState_init
  have hall : ∀ r ∈ replies, ∀ e, r.ereply = some e → ∃ t, e = .json t ∧ 0 ∉ t := by
    intro r hr e he
    cases e with
    | json t => exact ⟨t, rfl, r.text t he⟩
    | cbor data => exact absurd he (h r hr data)
  obtain ⟨s, texts, hs, hevents, hstate⟩ := foldlM_collects JsonState.append
    (fun ret h => ⟨h.nret, h.enc, h.bsize, h.holds⟩) hall hinit
  rw [List.nil_append] at hstate
  obtain ⟨reply, hfinish, hbytes⟩ := hstate.finish
  refine ⟨s.ret, reply, ?_, fun hret => ?_⟩
  · rw [allCommand, hbuff, Checked.ok_bind, hs, Checked.ok_bind, hfinish]
  · obtain ⟨r, rfl, hr⟩ := hbytes hret
    refine ⟨r, _, rfl, ?_, hr⟩
    rw [hevents, openArray, List.append_assoc]
    exact .json texts

/-- Replies in CBOR only: the accesses are within bounds, and all but the first byte of the array is
as it should be. -/
theorem allCommand_cbor {replies : List OneReply} {items : List (List UInt8)}
    (hevents : events replies = items.map .cbor) (hne : items ≠ []) :
    ∃ r, allCommand replies = .ok (MHD_HTTP_OK, some r) ∧
      r.HasBytes (0o374 :: (items.flatten ++ [0o377])) := by
  obtain ⟨buff, hbuff, hinit⟩ := jsonState_init
  have hstart : CborState ⟨MHD_HTTP_NOT_FOUND, 0, buff, .json, 3⟩ [] :=
    ⟨rfl, fun h => absurd rfl h, hinit.bsize, chr '[', fun h => absurd rfl h, hinit.holds.2.forget⟩
  have hall : ∀ r ∈ replies, ∀ e, r.ereply = some e → ∃ data, e = .cbor data ∧ True := by
    intro r hr e he
    have hmem : e ∈ items.map SerialEvent.cbor := by
      rw [← hevents]
      exact List.mem_filterMap.mpr ⟨r, hr, he⟩
    obtain ⟨data, -, rfl⟩ := List.mem_map.mp hmem
    exact ⟨data, rfl, trivial⟩
  obtain ⟨s, items', hs, hevents', hstate⟩ := foldlM_collects
    (fun h _ => h.append _) (fun ret h => ⟨h.nret, h.enc, h.bsize, h.holds⟩) hall hstart
  have hitems : items' = items := by
    have hinj : Function.Injective SerialEvent.cbor := fun _ _ h => SerialEvent.cbor.inj h
    exact List.map_injective_iff.mpr hinj (hevents'.symm.trans hevents)
  rw [hitems, List.nil_append] at hstate
  have hsome : events replies ≠ [] := by
    rw [hevents]
    exact fun hnil => hne (List.map_eq_nil_iff.mp hnil)
  have hret : s.ret = MHD_HTTP_OK := foldlM_ret hs (.inr (exists_retOne_ok hsome))
  obtain ⟨r, hfinish, hbytes⟩ := hstate.finish hne hret
  refine ⟨r, ?_, hbytes⟩
  rw [allCommand, hbuff, Checked.ok_bind, hs, Checked.ok_bind, hfinish, hret]

/-- A reply with an event in CBOR is no array of the events. -/
theorem not_repliesArray {replies : List OneReply} {data : List UInt8}
    (hmem : .cbor data ∈ events replies) : ¬ RepliesArray replies := by
  rintro ⟨ret, reply, hrun, harray⟩
  have hret := allCommand_ret hrun (List.ne_nil_of_mem hmem)
  obtain ⟨r, bytes, rfl, hbytes, hr⟩ := harray hret
  generalize hevents : events replies = evs at hbytes hmem
  cases hbytes with
  | json texts =>
    obtain ⟨t, -, ht⟩ := List.mem_map.mp hmem
    cases ht
  | cbor items =>
    have hne : items ≠ [] := by
      rintro rfl
      cases hmem
    obtain ⟨r', hrun', hr'⟩ := allCommand_cbor hevents hne
    rw [hrun] at hrun'
    cases hrun'
    have hstart := hr.unique hr'
    rw [List.cons.injEq] at hstart
    exact absurd hstart.1 (by decide)

/-- The reply is an array of the events exactly when no device replies in CBOR. -/
theorem allCommand_array_iff (replies : List OneReply) :
    RepliesArray replies ↔ AllJson replies := by
  refine ⟨fun harray r hr data hdata => ?_, repliesArray_of_allJson⟩
  exact not_repliesArray (List.mem_filterMap.mpr ⟨r, hr, hdata⟩) harray

/-! ### A picture -/

/-- The event with a picture of three bytes, as it is encoded. -/
def pictureEvent : List UInt8 :=
  0xa3 :: 0x66 :: lit "device" ++ 0x64 :: lit "plug" ++
    0x66 :: lit "origin" ++ [0x1b, 0, 0, 0, 0, 0, 0, 3, 0xe8] ++
    0x68 :: lit "readings" ++ 0x81 :: 0xa2 ::
      (0x6b :: lit "binaryValue" ++ [0x43, 1, 2, 3] ++ 0x64 :: lit "name" ++ 0x67 :: lit "Picture")

def pictureReply : OneReply := ⟨MHD_HTTP_OK, some (.cbor pictureEvent), fun _ => rfl, nofun⟩

/-- The array starts with a byte that starts no item. -/
theorem pictureReply_not_array :
    (∃ r, allCommand [pictureReply] = .ok (MHD_HTTP_OK, some r) ∧
      r.HasBytes (0xfc :: (pictureEvent ++ [0xff]))) ∧ ¬ RepliesArray [pictureReply] := by
  have hitems : events [pictureReply] = [pictureEvent].map .cbor := rfl
  have hmem : .cbor pictureEvent ∈ events [pictureReply] := by
    rw [hitems]
    exact List.mem_singleton_self _
  obtain ⟨r, hrun, hr⟩ := allCommand_cbor hitems (List.cons_ne_nil _ _)
  rw [List.flatten_singleton] at hr
  exact ⟨⟨r, hrun, hr⟩, not_repliesArray hmem⟩

end Zigbee
