-- SUMMARY: Normalised URLs: runs of slashes make no difference to the routes of requests (rest-server.c).
import ZigbeeService.Lib.Runs
import ZigbeeService.Http.Server

/-!
# Routing

`normalizeUrl` writes the URL with one slash for each run of them. Everything the server does with
the URL of a request, once it is not the root, depends on what was written only.
-/

namespace Zigbee

open CLib

-- ---------------------------------------------------------------------------
-- What is written
-- ---------------------------------------------------------------------------

/-- The write cursor is never ahead of the read cursor. -/
theorem normalizeLoop_written (b : Block) : ∀ (upos : Text) (bytes : List UInt8),
    bytes.length + upos.length < b.size →
      normalizeLoop upos (b.written bytes) = .ok (b.written (bytes ++ collapse (chr '/') upos))
  | [], bytes, _ => by
    rw [normalizeLoop, collapse, List.append_nil]
    rfl
  | c :: upos, bytes, hroom => by
    have hdrop : (upos.dropWhile (· = chr '/')).length ≤ upos.length :=
      List.length_dropWhile_le _ upos
    have hlen : (bytes ++ [c]).length = bytes.length + 1 := List.length_append
    rw [List.length_cons] at hroom
    rw [normalizeLoop, Block.put_written c (by omega), Checked.ok_bind]
    by_cases hc : c = chr '/'
    · rw [if_pos hc, normalizeLoop_written b _ (bytes ++ [c]) (by omega), hc, collapse_sep_cons,
        List.append_assoc]
      rfl
    · rw [if_neg hc, normalizeLoop_written b upos (bytes ++ [c]) (by omega),
        collapse_cons_of_ne hc, List.append_assoc]
      rfl
termination_by upos => upos.length

/-- The block for a URL, with what `normalizeUrl` writes there. -/
theorem normalizeUrl_eq (url : Text) :
    normalizeUrl url =
      .ok ((Block.malloc (url.length + 1)).filled (collapse (chr '/') url ++ [0])) := by
  have hsize : (Block.malloc (url.length + 1)).size = url.length + 1 := List.length_replicate
  have hloop := normalizeLoop_written (Block.malloc (url.length + 1)) url [] (by
    rw [hsize, List.length_nil]
    omega)
  have hstart : (Block.malloc (url.length + 1)).written [] = (Block.malloc (url.length + 1), 0) :=
    rfl
  have hlen := length_collapse_le (chr '/') url
  rw [hstart, List.nil_append] at hloop
  rw [normalizeUrl, hloop, Checked.ok_bind]
  exact Block.store_filled 0 rfl (by omega)

theorem string_normalizeUrl (url : Text) :
    (normalizeUrl url >>= Block.string) = .ok (cstring (collapse (chr '/') url)) := by
  rw [normalizeUrl_eq, Checked.ok_bind, Block.string, Block.filled, List.map_append,
    List.append_assoc]
  exact Block.stringOf_terminated _ _

-- ---------------------------------------------------------------------------
-- What requests are routed by
-- ---------------------------------------------------------------------------

section Routes

variable {σ : Type} (handlers : List (HandlerEntry σ)) {u v : Text}

/-- What is done about a request, given the normalised URL. -/
def routeNormalized (nurl : Text) (method : HttpMethod) : Checked (Route σ) := do
  match ← findHandler nurl handlers with
  | none => return .notFound
  | some h =>
    return if method.bits &&& h.methods ≠ 0 then .handler h (nurl.drop h.url.length)
      else .notAllowed

theorem routeRequest_of_not_root (method : HttpMethod) (h : ¬ (u = [] ∨ u = lit "/")) :
    routeRequest handlers u method =
      routeNormalized handlers (cstring (collapse (chr '/') u)) method := by
  rw [routeRequest, if_neg h, ← bind_assoc, string_normalizeUrl]
  rfl

theorem findHandler_returns {handlers : List (HandlerEntry σ)} (h : ∀ e ∈ handlers, e.url ≠ [])
    (nurl : Text) : ∃ r, findHandler nurl handlers = .ok r ∧ ∀ e ∈ r, e ∈ handlers := by
  induction handlers with
  | nil => exact ⟨none, rfl, nofun⟩
  | cons e handlers ih =>
    rw [List.forall_mem_cons] at h
    obtain ⟨r, hr, hmem⟩ := ih h.2
    have hserves : ∃ b, e.serves nurl = .ok b := by
      rw [HandlerEntry.serves, List.getLast?_eq_some_getLast h.1]
      exact ⟨_, rfl⟩
    obtain ⟨b, hb⟩ := hserves
    rw [findHandler, hb, Checked.ok_bind]
    cases b with
    | true => exact ⟨some e, rfl, by rintro e' ⟨rfl⟩; exact List.mem_cons_self⟩
    | false => exact ⟨r, hr, fun e' he' => List.mem_cons_of_mem _ (hmem e' he')⟩

/-- There is a route for every request, and if it goes to a handler, this is registered, and for the
method. -/
theorem routeRequest_returns {handlers : List (HandlerEntry σ)} (h : ∀ e ∈ handlers, e.url ≠ [])
    (url : Text) (method : HttpMethod) :
    ∃ r, routeRequest handlers url method = .ok r ∧
      ∀ e tail, r = .handler e tail → e ∈ handlers ∧ method.bits &&& e.methods ≠ 0 := by
  by_cases hroot : url = [] ∨ url = lit "/"
  · rw [routeRequest, if_pos hroot]
    refine ⟨_, rfl, fun e tail hr => ?_⟩
    split at hr <;> cases hr
  · obtain ⟨r, hr, hmem⟩ := findHandler_returns h (cstring (collapse (chr '/') url))
    rw [routeRequest_of_not_root handlers method hroot, routeNormalized, hr, Checked.ok_bind]
    cases r with
    | none => exact ⟨.notFound, rfl, nofun⟩
    | some e =>
      refine ⟨_, rfl, fun e' tail hr => ?_⟩
      split at hr
      · next hmethod =>
        cases hr
        exact ⟨hmem e rfl, hmethod⟩
      · cases hr

/-- URLs with the same runs have the same route, if they are the root together. -/
theorem routeRequest_sameRuns (method : HttpMethod) (h : SameRuns (chr '/') u v)
    (hroot : u = lit "/" ↔ v = lit "/") :
    routeRequest handlers u method = routeRequest handlers v method := by
  have hempty : u = [] ↔ v = [] := by
    rw [← List.head?_eq_none_iff, ← List.head?_eq_none_iff, ← head?_collapse (chr '/') u,
      h.collapse_eq, head?_collapse]
  have hiff : (u = [] ∨ u = lit "/") ↔ (v = [] ∨ v = lit "/") := or_congr hempty hroot
  by_cases hv : v = [] ∨ v = lit "/"
  · rw [routeRequest, routeRequest, if_pos hv, if_pos (hiff.mpr hv)]
  · rw [routeRequest_of_not_root handlers method hv,
      routeRequest_of_not_root handlers method fun hu => hv (hiff.mp hu), h.collapse_eq]

/-- The URL of a request is used for its route only. -/
theorem httpRequest_congr
    (h : ∀ method, routeRequest handlers u method = routeRequest handlers v method)
    (methodname : Text) (chunks : List Chunk) (svc : σ) :
    httpRequest handlers u methodname chunks svc =
      httpRequest handlers v methodname chunks svc := by
  have hcall : httpHandler handlers u methodname = httpHandler handlers v methodname := by
    funext conn chunk
    simp only [httpHandler, answerRequest, h]
  rw [httpRequest, httpRequest, hcall]

end Routes

/-- A normalised URL has one slash for each run of them, fits in the block for the URL, and stays as
it is. URLs that differ in the lengths of their runs only get the same answers, unless one of them
is the root. -/
theorem normalizeUrl_routes :
    (∀ url : Text, ∃ nurl b,
      normalizeUrl url = .ok b ∧
      b.size = url.length + 1 ∧
      b.Holds (nurl ++ [0]) (url.length - nurl.length) ∧
      SameRuns (chr '/') url nurl ∧
      SingleRuns (chr '/') nurl ∧
      normalizeUrl nurl = .ok ⟨(nurl ++ [0]).map some⟩) ∧
    ∀ {σ : Type} (handlers : List (HandlerEntry σ)) (u v : Text),
      SameRuns (chr '/') u v → (u = lit "/" ↔ v = lit "/") →
      (∀ method, routeRequest handlers u method = routeRequest handlers v method) ∧
      ∀ methodname chunks svc,
        httpRequest handlers u methodname chunks svc =
          httpRequest handlers v methodname chunks svc := by
  constructor
  · intro url
    have hlen := length_collapse_le (chr '/') url
    have hbytes : (collapse (chr '/') url ++ [0]).length = (collapse (chr '/') url).length + 1 :=
      List.length_append
    have hsize : (Block.malloc (url.length + 1)).size = url.length + 1 := List.length_replicate
    refine ⟨collapse (chr '/') url, _, normalizeUrl_eq url, ?_, ⟨_, rfl, ?_⟩,
      sameRuns_collapse _ url, singleRuns_collapse _ url, ?_⟩
    · rw [Block.size_filled (by omega), hsize]
    · rw [Block.malloc, List.length_drop, List.length_replicate]
      omega
    · have hfull : (Block.malloc ((collapse (chr '/') url).length + 1)).cells.drop
          (collapse (chr '/') url ++ [0]).length = [] :=
        List.drop_eq_nil_iff.mpr (by rw [Block.malloc, List.length_replicate, hbytes])
      rw [normalizeUrl_eq, collapse_idem, Block.filled, hfull, List.append_nil]
  · intro σ handlers u v h hroot
    have hroute := fun method => routeRequest_sameRuns handlers method h hroot
    exact ⟨hroute, httpRequest_congr handlers hroute⟩

/-- A handler for all URLs below one. -/
def deviceHandler : HandlerEntry Unit where
  url := lit "/api/v1/device/"
  methods := HttpMethod.get.bits
  handler _ svc := .ok (svc, ⟨MHD_HTTP_OK, none, 0, none⟩)

theorem normalizeUrl_routes_device :
    (∀ method, routeRequest [deviceHandler] (lit "//api/v1///device/all//reading") method =
      routeRequest [deviceHandler] (lit "/api/v1/device/all/reading") method) ∧
    ∀ methodname chunks svc,
      httpRequest [deviceHandler] (lit "//api/v1///device/all//reading") methodname chunks svc =
        httpRequest [deviceHandler] (lit "/api/v1/device/all/reading") methodname chunks svc := by
  have hcollapse : collapse (chr '/') (lit "//api/v1///device/all//reading") =
      lit "/api/v1/device/all/reading" := by decide
  exact normalizeUrl_routes.2 [deviceHandler] _ _ (hcollapse ▸ sameRuns_collapse _ _) (by decide)

end Zigbee
