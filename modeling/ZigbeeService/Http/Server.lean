-- SUMMARY: The HTTP server of the service: how a request is put together from chunks, routed and answered (rest-server.c).
import ZigbeeService.Sdk.DeviceUrl

/-!
# The HTTP server

`http_handler` is called several times for each request: once to begin, once for each chunk of the
body, and once to answer. Handlers are registered for a URL, or for all URLs that start with one.
-/

namespace Zigbee

open CLib

-- ---------------------------------------------------------------------------
-- Methods and handlers
-- ---------------------------------------------------------------------------

/-- The values of `edgex_http_method`. -/
def HttpMethod.bits : HttpMethod → UInt32
  | .get => 1
  | .post => 2
  | .put => 4
  | .patch => 8
  | .delete => 16
  | .unknown => 1024

/-- `method_from_string`. -/
def methodFromString (str : Text) : HttpMethod :=
  if str = lit "GET" then .get
  else if str = lit "POST" then .post
  else if str = lit "PUT" then .put
  else if str = lit "PATCH" then .patch
  else if str = lit "DELETE" then .delete
  else .unknown

/-- What a handler is called with, but for its context. -/
structure HandlerCall where
  url : Text
  method : HttpMethod
  uploadData : Option Block
  uploadDataSize : Nat

/-- What a handler returns, and what it leaves in `*reply`, `*reply_size` and `*reply_type`. -/
structure HandlerResult where
  status : Nat
  reply : Option Block
  replySize : Nat
  replyType : Option Text

/-- `handler_list`: one entry. The context is the service, which the handler may change. -/
structure HandlerEntry (σ : Type) where
  url : Text
  methods : UInt32
  handler : HandlerCall → σ → Checked (σ × HandlerResult)

-- ---------------------------------------------------------------------------
-- URLs
-- ---------------------------------------------------------------------------

/-- The loop of `normalizeUrl` from `upos` on. -/
def normalizeLoop : Text → Block × Nat → Checked (Block × Nat)
  | [], res => return res
  | c :: upos, res => do
    let res ← Block.put c res
    if c = chr '/' then normalizeLoop (upos.dropWhile (· = chr '/')) res
    else normalizeLoop upos res
termination_by upos => upos.length
decreasing_by
  · exact Nat.lt_succ_of_le (List.length_dropWhile_le _ _)
  · exact Nat.lt_succ_self _

/-- `normalizeUrl`. -/
def normalizeUrl (url : Text) : Checked Block := do
  let (res, rpos) ← normalizeLoop url (Block.malloc (url.length + 1), 0)
  res.store rpos 0

-- ---------------------------------------------------------------------------
-- Routes
-- ---------------------------------------------------------------------------

section Routes

variable {σ : Type}

/-- The test of the search: a URL that ends with a slash stands for all that start with it. -/
def HandlerEntry.serves (h : HandlerEntry σ) (nurl : Text) : Checked Bool :=
  match h.url.getLast? with
  | none => .error .outOfBounds
  | some c => return if c = chr '/' then h.url.isPrefixOf nurl else nurl = h.url

/-- The search through the list of handlers. -/
def findHandler (nurl : Text) : List (HandlerEntry σ) → Checked (Option (HandlerEntry σ))
  | [] => return none
  | h :: handlers => do
    if ← h.serves nurl then return some h else findHandler nurl handlers

/-- What is done about a request. -/
inductive Route (σ : Type) where
  /-- List available handlers. -/
  | listing
  | notFound
  | notAllowed
  /-- The handler, with what follows its own URL. -/
  | handler (h : HandlerEntry σ) (url : Text)

/-- The choice that `http_handler` makes. -/
def routeRequest (handlers : List (HandlerEntry σ)) (url : Text) (method : HttpMethod) :
    Checked (Route σ) :=
  if url = [] ∨ url = lit "/" then return if method = .get then .listing else .notAllowed
  else do
    let nurl ← normalizeUrl url
    let nurl ← nurl.string
    match ← findHandler nurl handlers with
    | none => return .notFound
    | some h =>
      return if method.bits &&& h.methods ≠ 0 then .handler h (nurl.drop h.url.length)
        else .notAllowed

-- ---------------------------------------------------------------------------
-- Requests
-- ---------------------------------------------------------------------------

/-- A chunk of the body, and the byte that follows it in the buffer of the server. -/
structure Chunk where
  data : List UInt8
  behind : UInt8
  nonempty : data ≠ []

/-- `http_context_t`. Its size does not wrap. -/
structure HttpContext where
  mData : Option Block
  mSize : Nat

/-- The context that the first call creates. -/
def HttpContext.fresh : HttpContext := ⟨none, 0⟩

/-- The transfer of a chunk. -/
def HttpContext.transfer (ctx : HttpContext) (chunk : Chunk) : Checked HttpContext := do
  let size := ctx.mSize + chunk.data.length + 1
  let mData := match ctx.mData with
    | none => Block.malloc size
    | some mData => mData.realloc size
  -- one byte more than there is in the chunk
  let mData ← mData.memcpy ctx.mSize (chunk.data ++ [chunk.behind])
  return ⟨some mData, ctx.mSize + chunk.data.length⟩

/-- The response that is queued. -/
structure HttpResponse where
  status : Nat
  contentType : Text
  reply : Block
  replySize : Nat

/-- A connection: `*context`, the service, the handler that was called and with what, and the
response. -/
structure Connection (σ : Type) where
  context : Option HttpContext
  svc : σ
  called : Option (HandlerEntry σ × HandlerCall)
  response : Option HttpResponse

/-- The list of available handlers, and its length. -/
def listHandlers (handlers : List (HandlerEntry σ)) : Checked (Block × Nat) := do
  let replySize := (handlers.map fun h => h.url.length + 1).sum
  let buff ← (Block.malloc (replySize + 1)).store 0 0
  let buff ← handlers.foldlM
    (fun buff h => do
      let buff ← buff.strcat h.url
      buff.strcat (lit "\n")) buff
  return (buff, replySize)

/-- Send reply. -/
def respond (svc : σ) (called : Option (HandlerEntry σ × HandlerCall)) (r : HandlerResult) :
    Connection σ where
  context := none
  svc := svc
  called := called
  response := some {
    status := r.status
    contentType := r.replyType.getD (lit "text/plain")
    reply := r.reply.getD ⟨[some 0]⟩
    replySize := if r.reply = none then 0 else r.replySize }

/-- The handler is called, and its reply is sent. -/
def HandlerEntry.answer (h : HandlerEntry σ) (call : HandlerCall) (svc : σ) :
    Checked (Connection σ) := do
  let (svc, result) ← h.handler call svc
  return respond svc (some (h, call)) result

/-- The last call. -/
def answerRequest (handlers : List (HandlerEntry σ)) (url methodname : Text) (ctx : HttpContext)
    (svc : σ) : Checked (Connection σ) := do
  let method := methodFromString methodname
  match ← routeRequest handlers url method with
  | .listing =>
    let (buff, replySize) ← listHandlers handlers
    return respond svc none ⟨MHD_HTTP_OK, some buff, replySize, none⟩
  | .notFound => return respond svc none ⟨MHD_HTTP_NOT_FOUND, none, 0, none⟩
  | .notAllowed => return respond svc none ⟨MHD_HTTP_METHOD_NOT_ALLOWED, none, 0, none⟩
  | .handler h url => h.answer ⟨url, method, ctx.mData, ctx.mSize⟩ svc

/-- `http_handler`. Without a chunk `*upload_data_size` is 0. -/
def httpHandler (handlers : List (HandlerEntry σ)) (url methodname : Text) (conn : Connection σ)
    (chunk : Option Chunk) : Checked (Connection σ) :=
  match conn.context, chunk with
  | none, _ => return { conn with context := some .fresh }
  | some ctx, some chunk => do
    let ctx ← ctx.transfer chunk
    return { conn with context := some ctx }
  | some ctx, none => answerRequest handlers url methodname ctx conn.svc

/-- All calls for one request. -/
def httpRequest (handlers : List (HandlerEntry σ)) (url methodname : Text) (chunks : List Chunk)
    (svc : σ) : Checked (Connection σ) :=
  (none :: chunks.map some ++ [none]).foldlM (httpHandler handlers url methodname)
    ⟨none, svc, none, none⟩

end Routes

end Zigbee
