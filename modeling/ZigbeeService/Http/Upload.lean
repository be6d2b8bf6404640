-- SUMMARY: Bodies put together from chunks, and when a handler finds a NUL behind them (rest-server.c).
import ZigbeeService.Http.Routing

/-!
# Uploads

Every chunk is copied over the byte behind the ones before it, together with the byte that follows
the chunk in the buffer of the server. The last of these bytes stays, and stands where handlers
expect the end of a string.
-/

namespace Zigbee

open CLib

-- ---------------------------------------------------------------------------
-- What the context holds
-- ---------------------------------------------------------------------------

def bodyOf (chunks : List Chunk) : List UInt8 := chunks.flatMap Chunk.data

/-- The byte behind the last chunk. -/
def lastBehind (chunks : List Chunk) : Option UInt8 := chunks.getLast?.map Chunk.behind

/-- The context after a body, of which only the byte behind the last chunk is known besides. -/
def HttpContext.received (body : List UInt8) : Option UInt8 → HttpContext
  | none => .fresh
  | some behind => ⟨some ⟨(body ++ [behind]).map some⟩, body.length⟩

theorem bodyOf_concat (chunks : List Chunk) (chunk : Chunk) :
    bodyOf (chunks ++ [chunk]) = bodyOf chunks ++ chunk.data := by
  rw [bodyOf, List.flatMap_append, List.flatMap_singleton]
  rfl

theorem lastBehind_concat (chunks : List Chunk) (chunk : Chunk) :
    lastBehind (chunks ++ [chunk]) = some chunk.behind := by
  rw [lastBehind, List.getLast?_concat]
  rfl

/-- The first chunk. -/
theorem fresh_transfer (chunk : Chunk) :
    HttpContext.fresh.transfer chunk = .ok (.received chunk.data (some chunk.behind)) := by
  have hlen : (chunk.data ++ [chunk.behind]).length = chunk.data.length + 1 := List.length_append
  obtain ⟨b, hb, hholds⟩ := (Block.holds_malloc (chunk.data.length + 1)).memcpy hlen.le
  rw [hlen, Nat.sub_self, List.nil_append, Block.holds_zero_iff] at hholds
  rw [List.length_nil] at hb
  simp only [HttpContext.transfer, HttpContext.fresh, Nat.zero_add, hb, hholds, Checked.ok_bind,
    HttpContext.received]
  rfl

/-- A chunk after others is copied over the byte behind them. -/
theorem received_transfer (body : List UInt8) (behind : UInt8) (chunk : Chunk) :
    (HttpContext.received body (some behind)).transfer chunk =
      .ok (.received (body ++ chunk.data) (some chunk.behind)) := by
  have hbody : Block.Holds ⟨(body ++ [behind]).map some⟩ (body ++ [behind]) 0 :=
    Block.holds_zero_iff.mpr rfl
  have hsize : body.length + chunk.data.length + 1 =
      Block.size ⟨(body ++ [behind]).map some⟩ + chunk.data.length := by
    rw [hbody.size, List.length_append, List.length_singleton]
    omega
  have hlen : (chunk.data ++ [chunk.behind]).length =
      [behind].length + (0 + chunk.data.length) := by
    rw [List.length_append, List.length_singleton, List.length_singleton]
    omega
  obtain ⟨b, hb, hholds⟩ := (hbody.realloc chunk.data.length).overwrite hlen.le
  rw [← hlen, Nat.sub_self, ← List.append_assoc, Block.holds_zero_iff] at hholds
  simp only [HttpContext.transfer, HttpContext.received, hsize, hb, hholds, Checked.ok_bind,
    List.length_append]
  rfl

theorem received_mSize (chunks : List Chunk) :
    (HttpContext.received (bodyOf chunks) (lastBehind chunks)).mSize = (bodyOf chunks).length := by
  cases chunks using List.reverseRecOn with
  | nil => rfl
  | append_singleton chunks last =>
    rw [lastBehind_concat]
    rfl

/-- After any number of chunks, of any sizes. -/
theorem transfer_received (chunks : List Chunk) :
    chunks.foldlM HttpContext.transfer .fresh =
      .ok (.received (bodyOf chunks) (lastBehind chunks)) := by
  induction chunks using List.reverseRecOn with
  | nil => rfl
  | append_singleton chunks chunk ih =>
    rw [List.foldlM_append, ih, Checked.ok_bind, List.foldlM_cons, bodyOf_concat,
      lastBehind_concat]
    cases chunks using List.reverseRecOn with
    | nil =>
      have hfirst := fresh_transfer chunk
      rw [lastBehind, List.getLast?_nil, Option.map_none, HttpContext.received, hfirst]
      rfl
    | append_singleton chunks last =>
      rw [lastBehind_concat, received_transfer]
      rfl

-- ---------------------------------------------------------------------------
-- What handlers are called with
-- ---------------------------------------------------------------------------

/-- The data are the body with a NUL behind it. -/
def HoldsBody (mData : Option Block) (body : List UInt8) : Prop :=
  ∃ b k, mData = some b ∧ b.Holds (body ++ [0]) k

theorem received_holdsBody_iff (body : List UInt8) (behind : Option UInt8) :
    HoldsBody (HttpContext.received body behind).mData body ↔ behind = some 0 := by
  cases behind with
  | none =>
    constructor
    · rintro ⟨b, k, hb, -⟩
      cases hb
    · intro h
      cases h
  | some behind =>
    constructor
    · rintro ⟨b, k, hb, hholds⟩
      cases hb
      have hlen : (body ++ [behind]).length = (body ++ [0]).length := by
        rw [List.length_append, List.length_append]
        rfl
      have hbytes := List.append_cancel_left (hholds.eq_of_length hlen)
      rw [List.head_eq_of_cons_eq hbytes]
    · rintro h
      cases h
      exact ⟨_, 0, rfl, Block.holds_zero_iff.mpr rfl⟩

section Requests

variable {σ : Type} (handlers : List (HandlerEntry σ)) (url methodname : Text)

/-- The calls that bring chunks. -/
theorem httpHandler_chunks (chunks : List Chunk) (ctx : HttpContext) (svc : σ) :
    (chunks.map some).foldlM (httpHandler handlers url methodname) ⟨some ctx, svc, none, none⟩ =
      (do
        let ctx ← chunks.foldlM HttpContext.transfer ctx
        return ⟨some ctx, svc, none, none⟩) := by
  induction chunks generalizing ctx with
  | nil => rfl
  | cons chunk chunks ih =>
    have hcall : httpHandler handlers url methodname ⟨some ctx, svc, none, none⟩ (some chunk) =
        (do
          let ctx ← ctx.transfer chunk
          return ⟨some ctx, svc, none, none⟩) := rfl
    rw [List.map_cons, List.foldlM_cons, List.foldlM_cons, hcall]
    cases ctx.transfer chunk with
    | error e => rfl
    | ok ctx => exact ih ctx

/-- The last call answers with what the calls before it have put together. -/
theorem httpRequest_received (chunks : List Chunk) (svc : σ) :
    httpRequest handlers url methodname chunks svc =
      answerRequest handlers url methodname (.received (bodyOf chunks) (lastBehind chunks))
        svc := by
  have hfirst : httpHandler handlers url methodname ⟨none, svc, none, none⟩ none =
      .ok ⟨some .fresh, svc, none, none⟩ := rfl
  rw [httpRequest, List.cons_append, List.foldlM_cons, hfirst, Checked.ok_bind,
    List.foldlM_append, httpHandler_chunks, transfer_received, Checked.ok_bind]
  exact bind_pure (answerRequest handlers url methodname _ svc)

/-- The handler of a request is called with the size of the body, whatever the chunks are, and with
the body and a NUL behind it exactly when there is a NUL behind the last chunk. -/
theorem httpRequest_holdsBody_iff (chunks : List Chunk) (svc : σ) (h : HandlerEntry σ) (tail : Text)
    (hroute : routeRequest handlers url (methodFromString methodname) = .ok (.handler h tail)) :
    ∃ ctx,
      chunks.foldlM HttpContext.transfer .fresh = .ok ctx ∧
      httpRequest handlers url methodname chunks svc =
        h.answer ⟨tail, methodFromString methodname, ctx.mData, ctx.mSize⟩ svc ∧
      ctx.mSize = (bodyOf chunks).length ∧
      (HoldsBody ctx.mData (bodyOf chunks) ↔ lastBehind chunks = some 0) := by
  refine ⟨_, transfer_received chunks, ?_, received_mSize chunks, received_holdsBody_iff _ _⟩
  rw [httpRequest_received, answerRequest, hroute]
  rfl

end Requests

-- ---------------------------------------------------------------------------
-- The callback
-- ---------------------------------------------------------------------------

def callbackHandler : HandlerEntry Unit where
  url := lit "/api/v1/callback"
  methods := HttpMethod.put.bits ||| HttpMethod.post.bits ||| HttpMethod.delete.bits
  handler _ svc := .ok (svc, ⟨MHD_HTTP_OK, none, 0, none⟩)

theorem routeRequest_callback :
    routeRequest [callbackHandler] (lit "/api/v1/callback") (methodFromString (lit "POST")) =
      .ok (.handler callbackHandler []) := by
  rw [routeRequest_of_not_root _ _ (by decide)]
  rfl

/-- An empty array in one chunk, and what follows it. -/
def arrayChunk (behind : UInt8) : Chunk := ⟨lit "[]", behind, nofun⟩

theorem httpRequest_holdsBody_array :
    ∃ ctx,
      [arrayChunk 0].foldlM HttpContext.transfer .fresh = .ok ctx ∧
      httpRequest [callbackHandler] (lit "/api/v1/callback") (lit "POST") [arrayChunk 0] () =
        callbackHandler.answer ⟨[], .post, ctx.mData, ctx.mSize⟩ () ∧
      ctx.mSize = 2 ∧ HoldsBody ctx.mData (lit "[]") := by
  obtain ⟨ctx, hctx, hrequest, hsize, hbody⟩ := httpRequest_holdsBody_iff [callbackHandler]
    (lit "/api/v1/callback") (lit "POST") [arrayChunk 0] () callbackHandler []
    routeRequest_callback
  exact ⟨ctx, hctx, hrequest, hsize, hbody.mpr rfl⟩

/-- The block for the array, with a carriage return behind it. -/
def unterminated : Block := ⟨(lit "[]\r").map some⟩

theorem httpRequest_unterminated :
    httpRequest [callbackHandler] (lit "/api/v1/callback") (lit "POST") [arrayChunk (chr '\r')] () =
      .ok (respond () (some (callbackHandler, ⟨[], .post, some unterminated, 2⟩))
        ⟨MHD_HTTP_OK, none, 0, none⟩) ∧
    ¬ HoldsBody (some unterminated) (bodyOf [arrayChunk (chr '\r')]) ∧
    unterminated.string = .error .outOfBounds := by
  refine ⟨?_, fun hbody => ?_, Block.string_unterminated (by decide)⟩
  · rw [httpRequest_received, answerRequest, routeRequest_callback]
    rfl
  · have hbehind := (received_holdsBody_iff (lit "[]") (some (chr '\r'))).mp hbody
    exact absurd hbehind (by decide)

end Zigbee
