-- SUMMARY: Every request is answered, and the list of handlers fits its buffer (rest-server.c).
import ZigbeeService.Http.Upload

/-!
# Answers

A request for the root is answered with the URLs of the handlers, one on each line, written into a
buffer of the size that a first pass over them counts.
-/

namespace Zigbee

open CLib

variable {σ : Type} {handlers : List (HandlerEntry σ)}

-- ---------------------------------------------------------------------------
-- The list of handlers
-- ---------------------------------------------------------------------------

/-- The URLs, each with the end of its line. -/
def listing (handlers : List (HandlerEntry σ)) : Text :=
  handlers.flatMap fun h => h.url ++ lit "\n"

theorem length_listing (handlers : List (HandlerEntry σ)) :
    (listing handlers).length = (handlers.map fun h => h.url.length + 1).sum := by
  rw [listing, List.length_flatMap]
  exact congrArg List.sum (List.map_congr_left fun h _ => List.length_append)

/-- The second pass, with room for what it still writes. -/
theorem strcat_listing (h : ∀ e ∈ handlers, 0 ∉ e.url) {buff : Block} {s : Text} {k : Nat}
    (hbuff : buff.HoldsString s k) (hroom : (listing handlers).length ≤ k) :
    ∃ buff', handlers.foldlM
        (fun buff h => do
          let buff ← buff.strcat h.url
          buff.strcat (lit "\n")) buff = .ok buff' ∧
      buff'.HoldsString (s ++ listing handlers) (k - (listing handlers).length) := by
  induction handlers generalizing buff s k with
  | nil => exact ⟨buff, rfl, by rwa [listing, List.flatMap_nil, List.append_nil]⟩
  | cons e handlers ih =>
    rw [List.forall_mem_cons] at h
    have hlisting : listing (e :: handlers) = e.url ++ (lit "\n" ++ listing handlers) := by
      rw [listing, List.flatMap_cons, List.append_assoc]
      rfl
    rw [hlisting, List.length_append, List.length_append] at hroom
    obtain ⟨b₁, hb₁, hs₁⟩ := hbuff.strcat h.1 (by omega)
    obtain ⟨b₂, hb₂, hs₂⟩ := hs₁.strcat (by decide : 0 ∉ lit "\n") (by omega)
    obtain ⟨b₃, hb₃, hs₃⟩ := ih h.2 hs₂ (by omega)
    refine ⟨b₃, ?_, ?_⟩
    · rw [List.foldlM_cons, hb₁, Checked.ok_bind, hb₂]
      exact hb₃
    · rwa [List.append_assoc, List.append_assoc, Nat.sub_sub, Nat.sub_sub, ← List.length_append,
        ← List.length_append, ← hlisting] at hs₃

/-- The list is a string that fills its buffer, and the size reported is its length. -/
theorem listHandlers_holds (h : ∀ e ∈ handlers, 0 ∉ e.url) :
    ∃ buff, listHandlers handlers = .ok (buff, (listing handlers).length) ∧
      buff.HoldsString (listing handlers) 0 := by
  obtain ⟨b₁, hb₁, hholds⟩ :=
    (Block.holds_malloc ((listing handlers).length + 1)).memcpy (Nat.le_add_left [0].length _)
  have hempty : b₁.HoldsString [] (listing handlers).length := ⟨by simp, hholds⟩
  obtain ⟨b₂, hb₂, hlisting⟩ := strcat_listing h hempty le_rfl
  rw [List.nil_append, Nat.sub_self] at hlisting
  refine ⟨b₂, ?_, hlisting⟩
  have hstore : (Block.malloc ((listing handlers).length + 1)).store 0 0 = .ok b₁ := hb₁
  rw [listHandlers, ← length_listing, hstore, Checked.ok_bind, hb₂]
  rfl

-- ---------------------------------------------------------------------------
-- Requests
-- ---------------------------------------------------------------------------

/-- A handler that can be registered: its URL is a string and not empty, and calls of it return. -/
structure HandlerEntry.Registrable (e : HandlerEntry σ) : Prop where
  url_ne_nil : e.url ≠ []
  url_cstring : 0 ∉ e.url
  returns : ∀ call svc, ∃ r, e.handler call svc = .ok r

theorem HandlerEntry.Registrable.answers {e : HandlerEntry σ} (h : e.Registrable)
    (call : HandlerCall) (svc : σ) :
    ∃ r : σ × HandlerResult, e.answer call svc = .ok (respond r.1 (some (e, call)) r.2) := by
  obtain ⟨r, hr⟩ := h.returns call svc
  exact ⟨r, by rw [HandlerEntry.answer, hr]; rfl⟩

/-- A connection that has been answered. A GET of the root gets the URLs of the handlers. Only a
handler that is registered for the method is called, with the size of the whole body, and without a
call the service is as it was. -/
structure Connection.Answered (conn : Connection σ) (handlers : List (HandlerEntry σ)) (url : Text)
    (method : HttpMethod) (chunks : List Chunk) (svc : σ) : Prop where
  context : conn.context = none
  response : conn.response.isSome
  root : url = [] ∨ url = lit "/" → method = .get →
    ∃ buff : Block, buff.HoldsString (listing handlers) 0 ∧
      conn.response = some ⟨MHD_HTTP_OK, lit "text/plain", buff, (listing handlers).length⟩
  uncalled : conn.called = none → conn.svc = svc
  called : ∀ e call, conn.called = some (e, call) →
    e ∈ handlers ∧ method.bits &&& e.methods ≠ 0 ∧ call.method = method ∧
      call.uploadDataSize = (bodyOf chunks).length

/-- The root lists the handlers for a GET. -/
theorem routeRequest_root {url : Text} {r : Route σ} (hroot : url = [] ∨ url = lit "/")
    (hr : routeRequest handlers url .get = .ok r) : r = .listing := by
  rw [routeRequest, if_pos hroot] at hr
  exact (Except.ok.inj hr).symm

/-- An answer to anything but a GET of the root, for which no handler is called. -/
theorem respond_answered {url : Text} {method : HttpMethod} {r : Route σ}
    (hr : routeRequest handlers url method = .ok r) (hlisting : r ≠ .listing)
    (chunks : List Chunk) (svc : σ) (result : HandlerResult) :
    (respond svc none result).Answered handlers url method chunks svc where
  context := rfl
  response := rfl
  root hroot hget := absurd (routeRequest_root hroot (hget ▸ hr)) hlisting
  uncalled _ := rfl
  called _ _ hcall := by cases hcall

/-- Every request is answered, whatever its URL, method and chunks are. -/
theorem httpRequest_answers (h : ∀ e ∈ handlers, e.Registrable) (url methodname : Text)
    (chunks : List Chunk) (svc : σ) :
    ∃ conn, httpRequest handlers url methodname chunks svc = .ok conn ∧
      conn.Answered handlers url (methodFromString methodname) chunks svc := by
  obtain ⟨r, hr, hmem⟩ := routeRequest_returns (fun e he => (h e he).url_ne_nil) url
    (methodFromString methodname)
  rw [httpRequest_received, answerRequest]
  dsimp only
  rw [hr, Checked.ok_bind]
  cases r with
  | listing =>
    obtain ⟨buff, hbuff, hlisting⟩ := listHandlers_holds fun e he => (h e he).url_cstring
    refine ⟨_, by rw [hbuff]; rfl, ?_⟩
    exact
      { context := rfl
        response := rfl
        root := fun _ _ => ⟨buff, hlisting, rfl⟩
        uncalled := fun _ => rfl
        called := fun e call hcall => by cases hcall }
  | notFound => exact ⟨_, rfl, respond_answered hr (fun hr => by cases hr) chunks svc _⟩
  | notAllowed => exact ⟨_, rfl, respond_answered hr (fun hr => by cases hr) chunks svc _⟩
  | handler e tail =>
    obtain ⟨he, hmethod⟩ := hmem e tail rfl
    obtain ⟨result, hanswer⟩ := (h e he).answers _ svc
    refine ⟨_, hanswer, ?_⟩
    exact
      { context := rfl
        response := rfl
        root := fun hroot hget => by cases routeRequest_root hroot (hget ▸ hr)
        uncalled := fun hnone => by cases hnone
        called := fun e' call hcall => by
          cases hcall
          exact ⟨he, hmethod, rfl, received_mSize chunks⟩ }

/-- The listing of one handler, behind a body in two chunks. -/
theorem httpRequest_answers_callback :
    ∃ conn, httpRequest [callbackHandler] (lit "/") (lit "GET")
        [arrayChunk 0, arrayChunk (chr '\r')] () = .ok conn ∧
      conn.Answered [callbackHandler] (lit "/") (methodFromString (lit "GET"))
        [arrayChunk 0, arrayChunk (chr '\r')] () :=
  httpRequest_answers
    (List.forall_mem_singleton.mpr ⟨by decide, by decide, fun _ svc => ⟨⟨svc, _⟩, rfl⟩⟩)
    (lit "/") (lit "GET") _ ()

end Zigbee
