-- SUMMARY: Requests that the service makes: their headers, and responses put together from what curl delivers (rest.c).
import ZigbeeService.Http.Headers
import ZigbeeService.Lib.Block
import ZigbeeService.Rest.Records

/-!
# The HTTP client

`edgex_run_curl` with curl as a parameter. Curl delivers the lines of the header and chunks of the body
by callbacks, in whatever pieces and whatever order they arrive.
-/

namespace Zigbee

open CLib Block

-- ---------------------------------------------------------------------------
-- Request headers
-- ---------------------------------------------------------------------------

def MAX_TOKEN_LEN : Nat := 600

def EDGEX_AUTH_HDR : Text := lit "Authorization: Bearer "

def EDGEX_CRLID_HDR : Text := lit "correlation-id"

/-- `edgex_add_hdr`. Curl keeps a copy of the header. -/
def edgexAddHdr (slist : List Text) (name value : Text) : Checked (List Text) := do
  let bearer ← (malloc (name.length + value.length + 3)).strcpy name
  let bearer ← bearer.strcat (lit ": ")
  let bearer ← bearer.strcat value
  let hdr ← bearer.string
  return slist ++ [hdr]

/-- `edgex_add_crlid_hdr`, for the correlation id of the thread. -/
def edgexAddCrlidHdr (crlid : Option Text) (slist : List Text) : Checked (List Text) :=
  match crlid with
  | some id => edgexAddHdr slist EDGEX_CRLID_HDR id
  | none => return slist

/-- `edgex_add_other_hdrs`. -/
def edgexAddOtherHdrs (slist : List Text) (hdrs : NvPairs) : Checked (List Text) :=
  hdrs.foldlM (fun s h => edgexAddHdr s h.1 h.2) slist

/-- `edgex_add_auth_hdr`. -/
def edgexAddAuthHdr (jwtToken : Option Text) (slist : List Text) : Checked (List Text) :=
  match jwtToken with
  | some token => do
    let token := token.take MAX_TOKEN_LEN
    let bearer ← (malloc (EDGEX_AUTH_HDR.length + 1 + token.length)).strcpy EDGEX_AUTH_HDR
    let bearer ← bearer.strcat token
    let hdr ← bearer.string
    return slist ++ [hdr]
  | none => return slist

-- ---------------------------------------------------------------------------
-- Responses
-- ---------------------------------------------------------------------------

/-- `edgex_ctx`, apart from the options that are handed to curl as they are. -/
structure EdgexCtx where
  jwtToken : Option Text
  reqhdrs : NvPairs
  rsphdrs : RspHdrs
  buff : Option Block
  size : Nat

/-- `edgex_http_write_cb`. -/
def edgexHttpWriteCb (ctx : EdgexCtx) (contents : List UInt8) : Checked EdgexCtx := do
  let size := ctx.size + contents.length
  let buff := match ctx.buff with
    | none => malloc (size + 1)
    | some buff => buff.realloc (size + 1)
  let buff ← buff.memcpy ctx.size contents
  let buff ← buff.store size 0
  return { ctx with buff := some buff, size := size }

/-- What curl calls back with: a line of the header, or a chunk of the body. -/
inductive CurlEvent where
  | header {n : Nat} (buffer : CharArray n)
  | chunk (contents : List UInt8)

/-- A callback. Without a `writefunc` chunks are discarded. -/
def EdgexCtx.receive (writefunc : Bool) (ctx : EdgexCtx) : CurlEvent → Checked EdgexCtx
  | .header buffer => do
    let r ← edgexCheckRspHdr buffer ctx.rsphdrs
    return { ctx with rsphdrs := r.2 }
  | .chunk contents => if writefunc then edgexHttpWriteCb ctx contents else return ctx

/-- `CURLcode`. -/
inductive CurlCode where
  | CURLE_OK
  | CURLE_ABORTED_BY_CALLBACK
  | other
  deriving DecidableEq, Repr

/-- `edgex_error`, as far as requests set it. -/
inductive HttpError where
  | EDGEX_OK
  | EDGEX_HTTP_CONFLICT
  | EDGEX_HTTP_ERROR
  deriving DecidableEq, Repr

/-- What `curl_easy_perform` is called with. -/
structure CurlRequest where
  customrequest : Text
  url : Text
  headers : List Text
  data : List UInt8

/-- What `curl_easy_perform` does: its callbacks, its result, and the response code. -/
structure CurlTransfer where
  events : List CurlEvent
  rc : CurlCode
  responseCode : Int

/-- How `edgex_run_curl` ends: the status it returns, and `*err`. -/
def CurlTransfer.outcome (t : CurlTransfer) : Int × HttpError :=
  match t.rc with
  | .CURLE_OK =>
    if t.responseCode = 409 then (t.responseCode, .EDGEX_HTTP_CONFLICT)
    else if t.responseCode < 200 ∨ t.responseCode ≥ 300 then (t.responseCode, .EDGEX_HTTP_ERROR)
    else (t.responseCode, .EDGEX_OK)
  | .CURLE_ABORTED_BY_CALLBACK => (0, .EDGEX_OK)
  | .other => (0, .EDGEX_HTTP_ERROR)

/-- The list of headers that `edgex_run_curl` sets up. -/
def requestHeaders (ctx : EdgexCtx) (crlid : Option Text) (slist : List Text) :
    Checked (List Text) := do
  let slist ← edgexAddAuthHdr ctx.jwtToken slist
  let slist ← edgexAddCrlidHdr crlid slist
  edgexAddOtherHdrs slist ctx.reqhdrs

/-- `edgex_run_curl`. -/
def edgexRunCurl (perform : CurlRequest → CurlTransfer) (ctx : EdgexCtx) (crlid : Option Text)
    (req : CurlRequest) (writefunc : Bool) : Checked (EdgexCtx × Int × HttpError) := do
  let ctx := { ctx with buff := none, size := 0 }
  let headers ← requestHeaders ctx crlid req.headers
  let transfer := perform { req with headers := headers }
  let ctx ← transfer.events.foldlM (EdgexCtx.receive writefunc) ctx
  return (ctx, transfer.outcome)

-- ---------------------------------------------------------------------------
-- Uploads
-- ---------------------------------------------------------------------------

/-- `put_data`. -/
structure PutData where
  data : Text
  offset : Nat
  remaining : Nat

/-- `read_callback` for a buffer of `maxSize` bytes: the bytes that are copied to it. -/
def readCallback (maxSize : Nat) (pd : PutData) : Checked (List UInt8 × PutData) :=
  let transferred := if pd.remaining < maxSize then pd.remaining else maxSize
  if transferred > 0 then
    if pd.offset + transferred ≤ pd.data.length then
      return ((pd.data.drop pd.offset).take transferred,
        ⟨pd.data, pd.offset + transferred, pd.remaining - transferred⟩)
    else .error .outOfBounds
  else return ([], pd)

/-- The bytes that curl reads with buffers of these sizes. -/
def readAll : List Nat → PutData → Checked (List UInt8 × PutData)
  | [], pd => return ([], pd)
  | maxSize :: sizes, pd => do
    let (bytes, pd) ← readCallback maxSize pd
    let (rest, pd) ← readAll sizes pd
    return (bytes ++ rest, pd)

/-- `edgex_http_put`, where curl reads the data with buffers of these sizes. -/
def edgexHttpPut (perform : CurlRequest → CurlTransfer) (sizes : List Nat) (ctx : EdgexCtx)
    (crlid : Option Text) (url data : Text) (writefunc : Bool) :
    Checked (EdgexCtx × Int × HttpError) := do
  let (body, _) ← readAll sizes ⟨data, 0, data.length⟩
  let slist ← edgexAddHdr [] (lit "Content-Type") (lit "application/json")
  edgexRunCurl perform ctx crlid ⟨lit "PUT", url, slist, body⟩ writefunc

-- ---------------------------------------------------------------------------
-- Headers fit
-- ---------------------------------------------------------------------------

/-- A header as it is sent. -/
def headerText (name value : Text) : Text := name ++ (lit ": " ++ value)

theorem edgexAddHdr_eq (slist : List Text) {name value : Text} (hname : 0 ∉ name)
    (hvalue : 0 ∉ value) :
    edgexAddHdr slist name value = .ok (slist ++ [headerText name value]) := by
  obtain ⟨b₁, h₁, hb₁⟩ := strcpy_malloc (n := name.length + value.length + 3) hname (by omega)
  have hcolon : 0 ∉ lit ": " := by decide
  have hroom : (lit ": ").length ≤ name.length + value.length + 3 - (name.length + 1) := by
    have htwo : (lit ": ").length = 2 := rfl
    omega
  obtain ⟨b₂, h₂, hb₂⟩ := hb₁.strcat hcolon hroom
  obtain ⟨b₃, h₃, hb₃⟩ := hb₂.strcat hvalue (by
    have htwo : (lit ": ").length = 2 := rfl
    omega)
  rw [edgexAddHdr, h₁, Checked.ok_bind, h₂, Checked.ok_bind, h₃, Checked.ok_bind, hb₃.string,
    Checked.ok_bind, List.append_assoc]
  rfl

/-- The header that carries a token, of which at most `MAX_TOKEN_LEN` characters are sent. -/
def authHeaders (jwtToken : Option Text) : List Text :=
  jwtToken.toList.map fun token => EDGEX_AUTH_HDR ++ token.take MAX_TOKEN_LEN

theorem edgexAddAuthHdr_eq (slist : List Text) {jwtToken : Option Text}
    (h : ∀ token ∈ jwtToken, 0 ∉ token) :
    edgexAddAuthHdr jwtToken slist = .ok (slist ++ authHeaders jwtToken) := by
  cases jwtToken with
  | none => exact congrArg Except.ok (List.append_nil slist).symm
  | some token =>
    have htoken : 0 ∉ token.take MAX_TOKEN_LEN := fun hmem =>
      h token rfl (List.mem_of_mem_take hmem)
    have hauth : 0 ∉ EDGEX_AUTH_HDR := by decide
    have hsize : EDGEX_AUTH_HDR.length <
        EDGEX_AUTH_HDR.length + 1 + (token.take MAX_TOKEN_LEN).length := by omega
    obtain ⟨b₁, h₁, hb₁⟩ := strcpy_malloc hauth hsize
    obtain ⟨b₂, h₂, hb₂⟩ := hb₁.strcat htoken (by omega)
    rw [edgexAddAuthHdr, h₁, Checked.ok_bind, h₂, Checked.ok_bind, hb₂.string]
    rfl

/-- All texts that a request puts into its headers are C strings. -/
structure EdgexCtx.RequestTexts (ctx : EdgexCtx) (crlid : Option Text) : Prop where
  token : ∀ token ∈ ctx.jwtToken, 0 ∉ token
  crlid : ∀ id ∈ crlid, 0 ∉ id
  reqhdrs : ∀ h ∈ ctx.reqhdrs, 0 ∉ h.1 ∧ 0 ∉ h.2

/-- The headers behind those of the kind of request. -/
def extraHeaders (ctx : EdgexCtx) (crlid : Option Text) : List Text :=
  authHeaders ctx.jwtToken ++ (crlid.toList.map (headerText EDGEX_CRLID_HDR) ++
    ctx.reqhdrs.map fun h => headerText h.1 h.2)

theorem edgexAddOtherHdrs_eq {hdrs : NvPairs} (h : ∀ h ∈ hdrs, 0 ∉ h.1 ∧ 0 ∉ h.2)
    (slist : List Text) :
    edgexAddOtherHdrs slist hdrs = .ok (slist ++ hdrs.map fun h => headerText h.1 h.2) := by
  induction hdrs generalizing slist with
  | nil => exact congrArg Except.ok (List.append_nil slist).symm
  | cons hdr hdrs ih =>
    rw [List.forall_mem_cons] at h
    have hrest := ih h.2 (slist ++ [headerText hdr.1 hdr.2])
    rw [edgexAddOtherHdrs] at hrest ⊢
    rw [List.foldlM_cons, edgexAddHdr_eq slist h.1.1 h.1.2, Checked.ok_bind, hrest,
      List.append_assoc]
    rfl

/-- Every header fits the block it is written to. -/
theorem requestHeaders_eq {ctx : EdgexCtx} {crlid : Option Text} (h : ctx.RequestTexts crlid)
    (slist : List Text) :
    requestHeaders ctx crlid slist = .ok (slist ++ extraHeaders ctx crlid) := by
  have hcrlid : ∀ slist, edgexAddCrlidHdr crlid slist =
      .ok (slist ++ crlid.toList.map (headerText EDGEX_CRLID_HDR)) := by
    intro slist
    cases hid : crlid with
    | none => exact congrArg Except.ok (List.append_nil slist).symm
    | some id => exact edgexAddHdr_eq slist (by decide) (h.crlid id hid)
  rw [requestHeaders, edgexAddAuthHdr_eq slist h.token, Checked.ok_bind, hcrlid, Checked.ok_bind,
    edgexAddOtherHdrs_eq h.reqhdrs, List.append_assoc, List.append_assoc, extraHeaders]

-- ---------------------------------------------------------------------------
-- Responses are put together
-- ---------------------------------------------------------------------------

/-- The chunks among the events. -/
def chunksOf (events : List CurlEvent) : List (List UInt8) :=
  events.filterMap fun
    | .header _ => none
    | .chunk contents => some contents

/-- The header lines among the events. -/
def linesOf (events : List CurlEvent) : List ((n : Nat) × CharArray n) :=
  events.filterMap fun
    | .header buffer => some ⟨_, buffer⟩
    | .chunk _ => none

/-- The buffer after these chunks. -/
def responseBuffer : List (List UInt8) → Option Block
  | [] => none
  | chunk :: chunks => some ⟨((chunk :: chunks).flatten ++ [0]).map some⟩

/-- The context after these chunks. -/
def EdgexCtx.holding (ctx : EdgexCtx) (chunks : List (List UInt8)) : EdgexCtx :=
  { ctx with buff := responseBuffer chunks, size := chunks.flatten.length }

theorem responseBuffer_concat (chunks : List (List UInt8)) (contents : List UInt8) :
    responseBuffer (chunks ++ [contents]) =
      some ⟨(chunks.flatten ++ contents ++ [0]).map some⟩ := by
  cases chunks with
  | nil => rw [List.nil_append, responseBuffer, List.flatten_singleton]; rfl
  | cons chunk chunks =>
    rw [List.cons_append, responseBuffer, ← List.cons_append, List.flatten_append,
      List.flatten_singleton]

theorem store_nul {b : Block} {bytes : List UInt8} (h : b.Holds bytes 1) :
    b.store bytes.length 0 = .ok ⟨(bytes ++ [0]).map some⟩ := by
  have hroom : [(0 : UInt8)].length ≤ 1 := le_rfl
  obtain ⟨b', hb', hholds⟩ := h.memcpy hroom
  rw [store, hb', holds_zero_iff.mp hholds]

/-- A chunk goes behind the ones before it, over the NUL. -/
theorem edgexHttpWriteCb_holding (ctx : EdgexCtx) (chunks : List (List UInt8))
    (contents : List UInt8) :
    edgexHttpWriteCb (ctx.holding chunks) contents = .ok (ctx.holding (chunks ++ [contents])) := by
  have hsize : chunks.flatten.length + contents.length =
      (chunks.flatten ++ contents).length := List.length_append.symm
  have hcopied : ∃ b, (match responseBuffer chunks with
      | none => malloc (chunks.flatten.length + contents.length + 1)
      | some buff => buff.realloc (chunks.flatten.length + contents.length + 1)).memcpy
        chunks.flatten.length contents = .ok b ∧ b.Holds (chunks.flatten ++ contents) 1 := by
    cases chunks with
    | nil =>
      have hroom : contents.length ≤ contents.length + 1 := Nat.le_succ _
      obtain ⟨b, hb, hholds⟩ := (holds_malloc (contents.length + 1)).memcpy hroom
      rw [List.nil_append, Nat.add_sub_cancel_left] at hholds
      exact ⟨b, by rw [← hb]; simp [responseBuffer], hholds⟩
    | cons chunk chunks =>
      have hbody : Block.Holds ⟨((chunk :: chunks).flatten ++ [0]).map some⟩
          ((chunk :: chunks).flatten ++ [0]) 0 := holds_zero_iff.mpr rfl
      have hroom : contents.length ≤ [(0 : UInt8)].length + (0 + contents.length) := by simp
      obtain ⟨b, hb, hholds⟩ := (hbody.realloc contents.length).overwrite hroom
      rw [hbody.size, List.length_append, List.length_singleton, Nat.add_zero,
        Nat.add_right_comm] at hb
      rw [List.length_singleton, Nat.zero_add, Nat.add_sub_cancel] at hholds
      exact ⟨b, hb, hholds⟩
  obtain ⟨b, hb, hholds⟩ := hcopied
  rw [edgexHttpWriteCb]
  dsimp only [EdgexCtx.holding]
  rw [hb, Checked.ok_bind, hsize, store_nul hholds, responseBuffer_concat, List.flatten_append,
    List.flatten_singleton]
  rfl

/-- The header pairs after these lines. -/
def checkHeaderLines (v : RspHdrs) (lines : List ((n : Nat) × CharArray n)) : Checked RspHdrs :=
  lines.foldlM (fun v line => do
    let r ← edgexCheckRspHdr line.2 v
    return r.2) v

/-- Lines never take a header name away, so that they can all be checked. -/
theorem checkHeaderLines_returns {v : RspHdrs} (hv : ∀ i ∈ v, 0 ∉ i.1)
    (lines : List ((n : Nat) × CharArray n)) :
    ∃ v', checkHeaderLines v lines = .ok v' ∧ v'.map Prod.fst = v.map Prod.fst := by
  induction lines generalizing v with
  | nil => exact ⟨v, rfl, rfl⟩
  | cons line lines ih =>
    obtain ⟨v₁, hcheck, hnames⟩ := edgexCheckRspHdr_returns line.2 hv
    have hv₁ : ∀ i ∈ v₁, 0 ∉ i.1 := by
      intro i hi
      have hmem : i.1 ∈ v.map Prod.fst := hnames ▸ List.mem_map_of_mem hi
      obtain ⟨j, hj, hname⟩ := List.mem_map.mp hmem
      exact hname ▸ hv j hj
    obtain ⟨v', hrest, hnames'⟩ := ih hv₁
    refine ⟨v', ?_, hnames'.trans hnames⟩
    rw [checkHeaderLines] at hrest ⊢
    rw [List.foldlM_cons, hcheck, Checked.ok_bind]
    exact hrest

/-- Lines and chunks do not touch what the others leave. -/
theorem receive_events {writefunc : Bool} {ctx : EdgexCtx} {events : List CurlEvent} {v : RspHdrs}
    {chunks : List (List UInt8)} (hlines : checkHeaderLines ctx.rsphdrs (linesOf events) = .ok v) :
    events.foldlM (EdgexCtx.receive writefunc) (ctx.holding chunks) =
      .ok ({ ctx with rsphdrs := v }.holding
        (if writefunc then chunks ++ chunksOf events else chunks)) := by
  induction events generalizing ctx chunks with
  | nil =>
    cases hlines
    cases writefunc with
    | false => rfl
    | true => rw [if_pos rfl, chunksOf, List.filterMap_nil, List.append_nil]; rfl
  | cons event events ih =>
    cases event with
    | header buffer =>
      obtain ⟨v₁, hcheck, hrest⟩ := Checked.bind_eq_ok.mp hlines
      obtain ⟨⟨n, v₂⟩, hline, heq⟩ := Checked.bind_eq_ok.mp hcheck
      cases heq
      have hnext := @ih { ctx with rsphdrs := v₂ } chunks hrest
      rw [List.foldlM_cons, EdgexCtx.receive]
      dsimp only [EdgexCtx.holding] at hnext ⊢
      rw [hline]
      exact hnext
    | chunk contents =>
      rw [List.foldlM_cons, EdgexCtx.receive]
      cases writefunc with
      | false => exact ih hlines
      | true =>
        have hnext := @ih ctx (chunks ++ [contents]) hlines
        rw [if_pos rfl, edgexHttpWriteCb_holding, Checked.ok_bind, hnext, if_pos rfl, if_pos rfl,
          List.append_assoc]
        rfl

-- ---------------------------------------------------------------------------
-- Whole requests
-- ---------------------------------------------------------------------------

/-- Curl is given the headers of the request, the token, the correlation id and the other headers, in
this order. However it splits the body and mixes its chunks with header lines, the buffer ends up as
the body with a NUL behind it, and the header pairs as the lines alone leave them. -/
theorem edgexRunCurl_response (perform : CurlRequest → CurlTransfer) (ctx : EdgexCtx)
    (crlid : Option Text) (req : CurlRequest) (writefunc : Bool)
    (htexts : ctx.RequestTexts crlid) (hnames : ∀ i ∈ ctx.rsphdrs, 0 ∉ i.1) :
    ∃ t v, t = perform { req with headers := req.headers ++ extraHeaders ctx crlid } ∧
      checkHeaderLines ctx.rsphdrs (linesOf t.events) = .ok v ∧
      edgexRunCurl perform ctx crlid req writefunc =
        .ok ({ ctx with rsphdrs := v }.holding (if writefunc then chunksOf t.events else []),
          t.outcome) := by
  obtain ⟨v, hlines, -⟩ := checkHeaderLines_returns hnames
    (linesOf (perform { req with headers := req.headers ++ extraHeaders ctx crlid }).events)
  refine ⟨_, v, rfl, hlines, ?_⟩
  have htexts' : EdgexCtx.RequestTexts { ctx with buff := none, size := 0 } crlid :=
    ⟨htexts.token, htexts.crlid, htexts.reqhdrs⟩
  have hrun := @receive_events writefunc ctx _ v [] hlines
  rw [edgexRunCurl, requestHeaders_eq htexts', Checked.ok_bind]
  exact Checked.bind_eq_ok.mpr ⟨_, hrun, rfl⟩

/-- A response in three pieces, of which one is empty. -/
def threeChunks : CurlTransfer where
  events := [.chunk (lit "[1"), .header ⟨lit "correlation-id: 7\r\n", rfl⟩, .chunk [],
    .chunk (lit "]")]
  rc := .CURLE_OK
  responseCode := 200

/-- A context with a token that is too long. -/
def longToken : EdgexCtx where
  jwtToken := some (List.replicate 700 (chr 'a'))
  reqhdrs := []
  rsphdrs := [(EDGEX_CRLID_HDR, none)]
  buff := none
  size := 0

theorem longToken_requestTexts : longToken.RequestTexts none where
  token := by
    intro token htoken
    cases htoken
    exact fun hmem => absurd (List.eq_of_mem_replicate hmem) (by decide)
  crlid := nofun
  reqhdrs := List.forall_mem_nil _

theorem edgexRunCurl_threeChunks :
    ∃ t v, t = threeChunks ∧ checkHeaderLines longToken.rsphdrs (linesOf t.events) = .ok v ∧
      edgexRunCurl (fun _ => threeChunks) longToken none ⟨lit "GET", [], [], []⟩ true =
        .ok ({ longToken with rsphdrs := v }.holding (if true then chunksOf t.events else []),
          t.outcome) :=
  edgexRunCurl_response (fun _ => threeChunks) longToken none ⟨lit "GET", [], [], []⟩ true
    longToken_requestTexts (List.forall_mem_singleton.mpr (by decide))

/-- What is read with buffers of any sizes is what they have room for from the start of the data, and
no byte behind the data is touched. -/
theorem readAll_eq (sizes : List Nat) (data : Text) (offset : Nat) (h : offset ≤ data.length) :
    readAll sizes ⟨data, offset, data.length - offset⟩ =
      .ok ((data.drop offset).take sizes.sum,
        ⟨data, min data.length (offset + sizes.sum),
          data.length - min data.length (offset + sizes.sum)⟩) := by
  induction sizes generalizing offset with
  | nil =>
    rw [List.sum_nil, List.take_zero, Nat.add_zero, min_eq_right h]
    rfl
  | cons maxSize sizes ih =>
    have htransferred : (if data.length - offset < maxSize then data.length - offset else maxSize) =
        min (data.length - offset) maxSize := by
      rw [min_def]
      split <;> split <;> omega
    have hcallback : readCallback maxSize ⟨data, offset, data.length - offset⟩ =
        .ok ((data.drop offset).take (min (data.length - offset) maxSize),
          ⟨data, offset + min (data.length - offset) maxSize,
            data.length - (offset + min (data.length - offset) maxSize)⟩) := by
      simp only [readCallback, htransferred]
      by_cases hpos : min (data.length - offset) maxSize > 0
      · rw [if_pos hpos, if_pos (by omega), Nat.sub_sub]
        rfl
      · rw [if_neg hpos, Nat.eq_zero_of_not_pos hpos]
        rfl
    have hrest := ih (offset + min (data.length - offset) maxSize) (by omega)
    have htake : (data.drop offset).take (min (data.length - offset) maxSize) ++
        (data.drop (offset + min (data.length - offset) maxSize)).take sizes.sum =
          (data.drop offset).take (maxSize + sizes.sum) := by
      rw [← List.drop_drop, ← List.take_add, List.take_eq_take_iff, List.length_drop]
      omega
    have hmin : min data.length (offset + min (data.length - offset) maxSize + sizes.sum) =
        min data.length (offset + (maxSize + sizes.sum)) := by omega
    rw [readAll, hcallback, Checked.ok_bind]
    dsimp only
    rw [hrest, List.sum_cons, Checked.ok_bind]
    dsimp only
    rw [htake, hmin]
    rfl

/-- With buffers of any sizes that have room for the data together, a PUT sends all of it, as it stands
and once. -/
theorem edgexHttpPut_sends (perform : CurlRequest → CurlTransfer) (sizes : List Nat) (ctx : EdgexCtx)
    (crlid : Option Text) (url data : Text) (writefunc : Bool) (h : data.length ≤ sizes.sum) :
    edgexHttpPut perform sizes ctx crlid url data writefunc =
      edgexRunCurl perform ctx crlid
        ⟨lit "PUT", url, [lit "Content-Type: application/json"], data⟩ writefunc := by
  have hread := readAll_eq sizes data 0 (Nat.zero_le _)
  rw [Nat.sub_zero, List.drop_zero, List.take_of_length_le h] at hread
  have hheader : edgexAddHdr [] (lit "Content-Type") (lit "application/json") =
      .ok [lit "Content-Type: application/json"] := edgexAddHdr_eq [] (by decide) (by decide)
  rw [edgexHttpPut, hread, Checked.ok_bind, hheader]
  rfl

/-- Five bytes through buffers of two, none and four. -/
theorem edgexHttpPut_threeReads :
    edgexHttpPut (fun _ => threeChunks) [2, 0, 4] longToken none [] (lit "[1,2]") true =
      edgexRunCurl (fun _ => threeChunks) longToken none
        ⟨lit "PUT", [], [lit "Content-Type: application/json"], lit "[1,2]"⟩ true :=
  edgexHttpPut_sends _ _ _ _ _ _ _ (by decide)

end Zigbee
