-- SUMMARY: The handlers that the service registers while it starts, and what requests find of them (service.c).
import Mathlib.Data.List.Find
import ZigbeeService.Http.Routing

/-!
# The service's routes

The server answers requests from the moment it is created, while `startConfigured` still registers
handlers. Every handler goes to the front of the list, and the first one that serves a URL is taken.
-/

namespace Zigbee

open CLib

-- ---------------------------------------------------------------------------
-- The registrations of startConfigured
-- ---------------------------------------------------------------------------

def EDGEX_DEV_API_PING : Text := lit "/api/v1/ping"

def EDGEX_DEV_API_DISCOVERY : Text := lit "/api/v1/discovery"

def EDGEX_DEV_API_DEVICE : Text := lit "/api/v1/device/"

def EDGEX_DEV_API_CALLBACK : Text := lit "/api/v1/callback"

def EDGEX_DEV_API_CONFIG : Text := lit "/api/v1/config"

def EDGEX_DEV_API_METRICS : Text := lit "/api/v1/metrics"

section Registrations

variable {σ : Type}

/-- A `http_method_handler_fn`. -/
abbrev HandlerFn (σ : Type) := HandlerCall → σ → Checked (σ × HandlerResult)

/-- `edgex_rest_server_register_handler`. -/
def edgexRestServerRegisterHandler (handlers : List (HandlerEntry σ)) (url : Text)
    (methods : UInt32) (handler : HandlerFn σ) : List (HandlerEntry σ) :=
  ⟨url, methods, handler⟩ :: handlers

/-- The functions that are registered. -/
structure ServiceHandlers (σ : Type) where
  callback : HandlerFn σ
  device : HandlerFn σ
  discovery : HandlerFn σ
  metrics : HandlerFn σ
  config : HandlerFn σ
  ping : HandlerFn σ

/-- The arguments of the calls in `startConfigured`, in their order. -/
def registrations (h : ServiceHandlers σ) : List (HandlerEntry σ) :=
  [⟨EDGEX_DEV_API_CALLBACK, HttpMethod.put.bits ||| HttpMethod.post.bits ||| HttpMethod.delete.bits,
      h.callback⟩,
    ⟨EDGEX_DEV_API_DEVICE, HttpMethod.get.bits ||| HttpMethod.put.bits ||| HttpMethod.post.bits,
      h.device⟩,
    ⟨EDGEX_DEV_API_DISCOVERY, HttpMethod.post.bits, h.discovery⟩,
    ⟨EDGEX_DEV_API_METRICS, HttpMethod.get.bits, h.metrics⟩,
    ⟨EDGEX_DEV_API_CONFIG, HttpMethod.get.bits, h.config⟩,
    ⟨EDGEX_DEV_API_PING, HttpMethod.get.bits, h.ping⟩]

/-- The list of handlers after the first `n` calls. -/
def registered (h : ServiceHandlers σ) (n : Nat) : List (HandlerEntry σ) :=
  ((registrations h).take n).foldl
    (fun handlers e => edgexRestServerRegisterHandler handlers e.url e.methods e.handler) []

theorem registered_eq (h : ServiceHandlers σ) (n : Nat) :
    registered h n = ((registrations h).take n).reverse := by
  have hfold : ∀ (es acc : List (HandlerEntry σ)),
      es.foldl (fun handlers e =>
        edgexRestServerRegisterHandler handlers e.url e.methods e.handler) acc =
          es.reverse ++ acc := by
    intro es
    induction es with
    | nil => exact fun _ => rfl
    | cons e es ih =>
      intro acc
      rw [List.foldl_cons, ih, List.reverse_cons, List.append_assoc]
      rfl
  rw [registered, hfold, List.append_nil]

end Registrations

-- ---------------------------------------------------------------------------
-- Lists in which no two entries serve a URL
-- ---------------------------------------------------------------------------

section Exclusive

variable {σ : Type} {handlers hs : List (HandlerEntry σ)} {nurl : Text} {e : HandlerEntry σ}

/-- The URLs that an entry stands for. -/
def HandlerEntry.Serves (e : HandlerEntry σ) (nurl : Text) : Prop :=
  if e.url.getLast? = some (chr '/') then e.url <+: nurl else nurl = e.url

instance (e : HandlerEntry σ) (nurl : Text) : Decidable (e.Serves nurl) :=
  inferInstanceAs (Decidable (if e.url.getLast? = some (chr '/') then e.url <+: nurl
    else nurl = e.url))

theorem HandlerEntry.serves_eq (hne : e.url ≠ []) (nurl : Text) :
    e.serves nurl = .ok (decide (e.Serves nurl)) := by
  rw [HandlerEntry.serves, List.getLast?_eq_some_getLast hne]
  simp only [HandlerEntry.Serves, List.getLast?_eq_some_getLast hne, Option.some_inj]
  split
  · exact congrArg Except.ok (Bool.eq_iff_iff.mpr (by rw [List.isPrefixOf_iff_prefix]; simp))
  · rfl

theorem findHandler_eq (hne : ∀ e ∈ handlers, e.url ≠ []) (nurl : Text) :
    findHandler nurl handlers = .ok (handlers.find? fun e => e.Serves nurl) := by
  induction handlers with
  | nil => rfl
  | cons e handlers ih =>
    rw [List.forall_mem_cons] at hne
    rw [findHandler, HandlerEntry.serves_eq hne.1, Checked.ok_bind, ih hne.2, List.find?_cons]
    by_cases h : e.Serves nurl
    · rw [decide_eq_true h]
      rfl
    · rw [decide_eq_false h]
      rfl

/-- No URL is served by two of the entries. -/
def Exclusive (handlers : List (HandlerEntry σ)) : Prop :=
  ∀ e ∈ handlers, ∀ e' ∈ handlers, ∀ nurl, e.Serves nurl → e'.Serves nurl → e = e'

theorem find?_serves (hexcl : Exclusive handlers) (he : e ∈ handlers) (hserves : e.Serves nurl) :
    handlers.find? (fun e => e.Serves nurl) = some e := by
  cases hfind : handlers.find? fun e => e.Serves nurl with
  | none =>
    have hnot := List.find?_eq_none.mp hfind e he
    exact absurd (decide_eq_true hserves) hnot
  | some e' =>
    have hserves' : e'.Serves nurl := by simpa using List.find?_some hfind
    rw [hexcl e he e' (List.mem_of_find?_eq_some hfind) nurl hserves hserves']

/-- Where the entries exclude each other, a list that holds some of them finds what all of them find,
or nothing. -/
theorem find?_of_subset (hexcl : Exclusive handlers) (hsub : hs ⊆ handlers) (nurl : Text) :
    hs.find? (fun e => e.Serves nurl) = handlers.find? (fun e => e.Serves nurl) ∨
      hs.find? (fun e => e.Serves nurl) = none := by
  cases hfind : hs.find? fun e => e.Serves nurl with
  | none => exact .inr rfl
  | some e =>
    have hserves : e.Serves nurl := by simpa using List.find?_some hfind
    exact .inl (find?_serves hexcl (hsub (List.mem_of_find?_eq_some hfind)) hserves).symm

theorem find?_of_subset_of_subset (hexcl : Exclusive handlers) (hsub : hs ⊆ handlers)
    (hsup : handlers ⊆ hs) (nurl : Text) :
    hs.find? (fun e => e.Serves nurl) = handlers.find? (fun e => e.Serves nurl) := by
  have hexcl' : Exclusive hs := fun e he e' he' => hexcl e (hsub he) e' (hsub he')
  cases hfind : handlers.find? fun e => e.Serves nurl with
  | none =>
    rw [List.find?_eq_none] at hfind ⊢
    exact fun e he => hfind e (hsub he)
  | some e =>
    have hserves : e.Serves nurl := by simpa using List.find?_some hfind
    exact find?_serves hexcl' (hsup (List.mem_of_find?_eq_some hfind)) hserves

end Exclusive

-- ---------------------------------------------------------------------------
-- The service's handlers
-- ---------------------------------------------------------------------------

section Service

variable {σ : Type} (h : ServiceHandlers σ)

/-- One of the URLs stands for all that start with it, and no other URL starts with it. -/
theorem registrations_url {e : HandlerEntry σ} (he : e ∈ registrations h) :
    e.url = EDGEX_DEV_API_DEVICE ∨
      (e.url.getLast? ≠ some (chr '/') ∧ ¬ EDGEX_DEV_API_DEVICE <+: e.url ∧ e.url ≠ []) := by
  have hurls : ∀ url ∈ [EDGEX_DEV_API_CALLBACK, EDGEX_DEV_API_DEVICE, EDGEX_DEV_API_DISCOVERY,
      EDGEX_DEV_API_METRICS, EDGEX_DEV_API_CONFIG, EDGEX_DEV_API_PING],
      url = EDGEX_DEV_API_DEVICE ∨
        (url.getLast? ≠ some (chr '/') ∧ ¬ EDGEX_DEV_API_DEVICE <+: url ∧ url ≠ []) := by
    decide +kernel
  exact hurls e.url (List.mem_map_of_mem he)

theorem registrations_url_ne_nil : ∀ e ∈ registrations h, e.url ≠ [] := by
  intro e he
  rcases registrations_url h he with hdevice | ⟨-, -, hne⟩
  · rw [hdevice]
    decide
  · exact hne

theorem registrations_url_injective {e e' : HandlerEntry σ} (he : e ∈ registrations h)
    (he' : e' ∈ registrations h) (hurl : e.url = e'.url) : e = e' := by
  have hnodup : ((registrations h).map HandlerEntry.url).Nodup := by
    simp only [registrations, List.map_cons, List.map_nil]
    decide
  exact List.inj_on_of_nodup_map hnodup he he' hurl

/-- Five of the handlers stand for one URL each, the sixth for all that start with its own. -/
theorem registrations_exclusive : Exclusive (registrations h) := by
  intro e he e' he' nurl hserves hserves'
  refine registrations_url_injective h he he' ?_
  have hslash : EDGEX_DEV_API_DEVICE.getLast? = some (chr '/') := by decide
  rcases registrations_url h he with hdevice | ⟨hlast, hnot, -⟩ <;>
    rcases registrations_url h he' with hdevice' | ⟨hlast', hnot', -⟩
  · exact hdevice.trans hdevice'.symm
  · rw [HandlerEntry.Serves, hdevice, if_pos hslash] at hserves
    rw [HandlerEntry.Serves, if_neg hlast'] at hserves'
    exact absurd (hserves' ▸ hserves) hnot'
  · rw [HandlerEntry.Serves, if_neg hlast] at hserves
    rw [HandlerEntry.Serves, hdevice', if_pos hslash] at hserves'
    exact absurd (hserves ▸ hserves') hnot
  · rw [HandlerEntry.Serves, if_neg hlast] at hserves
    rw [HandlerEntry.Serves, if_neg hlast'] at hserves'
    exact hserves.symm.trans hserves'

/-- The entry that the calls of `/api/v1/device/` go to. -/
def deviceEntry : HandlerEntry σ where
  url := EDGEX_DEV_API_DEVICE
  methods := HttpMethod.get.bits ||| HttpMethod.put.bits ||| HttpMethod.post.bits
  handler := h.device

/-- The entry for a normalised URL: that of the devices for all below theirs, else the one with this
URL. -/
def serviceHandler (nurl : Text) : Option (HandlerEntry σ) :=
  if EDGEX_DEV_API_DEVICE <+: nurl then some (deviceEntry h)
  else (registrations h).find? fun e => e.url = nurl

theorem find?_registrations (nurl : Text) :
    (registrations h).find? (fun e => e.Serves nurl) = serviceHandler h nurl := by
  have hslash : EDGEX_DEV_API_DEVICE.getLast? = some (chr '/') := by decide
  have hmem : deviceEntry h ∈ registrations h := .tail _ (.head _)
  by_cases hdevice : EDGEX_DEV_API_DEVICE <+: nurl
  · rw [serviceHandler, if_pos hdevice]
    refine find?_serves (registrations_exclusive h) hmem ?_
    rw [HandlerEntry.Serves, deviceEntry, if_pos hslash]
    exact hdevice
  · rw [serviceHandler, if_neg hdevice]
    refine List.find?_congr fun e he => decide_eq_decide.mpr ?_
    rcases registrations_url h he with hurl | ⟨hlast, -, -⟩
    · rw [HandlerEntry.Serves, hurl, if_pos hslash]
      exact ⟨fun hp => absurd hp hdevice, fun heq => absurd (heq ▸ List.prefix_rfl) hdevice⟩
    · rw [HandlerEntry.Serves, if_neg hlast]
      exact eq_comm

end Service

-- ---------------------------------------------------------------------------
-- Requests
-- ---------------------------------------------------------------------------

section Requests

variable {σ : Type}

/-- What is done about a request once the search has ended. -/
def routeTo (nurl : Text) (method : HttpMethod) : Option (HandlerEntry σ) → Route σ
  | none => .notFound
  | some e =>
    if method.bits &&& e.methods ≠ 0 then .handler e (nurl.drop e.url.length) else .notAllowed

theorem routeNormalized_eq {handlers : List (HandlerEntry σ)} (hne : ∀ e ∈ handlers, e.url ≠ [])
    (nurl : Text) (method : HttpMethod) :
    routeNormalized handlers nurl method =
      .ok (routeTo nurl method (handlers.find? fun e => e.Serves nurl)) := by
  rw [routeNormalized, findHandler_eq hne, Checked.ok_bind]
  cases handlers.find? fun e => e.Serves nurl <;> rfl

variable (h : ServiceHandlers σ) {hs : List (HandlerEntry σ)} {url : Text}

/-- The route of a request when some of the handlers are registered. -/
theorem routeRequest_of_subset (hsub : hs ⊆ registrations h) (method : HttpMethod)
    (hurl : ¬ (url = [] ∨ url = lit "/")) :
    routeRequest hs url method = .ok (routeTo (cstring (collapse (chr '/') url)) method
      (hs.find? fun e => e.Serves (cstring (collapse (chr '/') url)))) := by
  rw [routeRequest_of_not_root hs method hurl]
  exact routeNormalized_eq (fun e he => registrations_url_ne_nil h e (hsub he)) _ method

theorem registered_subset (n : Nat) : registered h n ⊆ registrations h := by
  rw [registered_eq]
  exact fun e he => List.mem_of_mem_take (List.mem_reverse.mp he)

theorem registrations_subset : registrations h ⊆ registered h 6 := by
  rw [registered_eq]
  exact fun e he => List.mem_reverse.mpr he

end Requests

/-- While the service starts, a request is answered as it will be once the service has started, or
as one that no handler is registered for. From then on the order of the registrations makes no
difference: below `/api/v1/device/` everything goes to one handler, and a URL with another handler
is that handler's whole URL. -/
theorem service_routes_startup {σ : Type} (h : ServiceHandlers σ) (url : Text)
    (method : HttpMethod) :
    (∀ n, routeRequest (registered h n) url method = routeRequest (registered h 6) url method ∨
      routeRequest (registered h n) url method = .ok .notFound) ∧
    (∀ hs, hs.Perm (registered h 6) →
      routeRequest hs url method = routeRequest (registered h 6) url method) ∧
    (¬ (url = [] ∨ url = lit "/") →
      routeRequest (registered h 6) url method =
        .ok (routeTo (cstring (collapse (chr '/') url)) method
          (serviceHandler h (cstring (collapse (chr '/') url))))) := by
  have hexcl := registrations_exclusive h
  by_cases hurl : url = [] ∨ url = lit "/"
  · have hroot : ∀ hs : List (HandlerEntry σ), routeRequest hs url method =
        routeRequest (registered h 6) url method := by
      intro hs
      rw [routeRequest, routeRequest, if_pos hurl, if_pos hurl]
    exact ⟨fun n => .inl (hroot _), fun hs _ => hroot hs, fun hnot => absurd hurl hnot⟩
  · -- The search of a list with all the registrations ends as that of `registrations`.
    have hall : ∀ hs, hs ⊆ registrations h → registrations h ⊆ hs →
        routeRequest hs url method = .ok (routeTo (cstring (collapse (chr '/') url)) method
          (serviceHandler h (cstring (collapse (chr '/') url)))) := by
      intro hs hsub hsup
      rw [routeRequest_of_subset h hsub method hurl, find?_of_subset_of_subset hexcl hsub hsup,
        find?_registrations]
    have hsix := hall _ (registered_subset h 6) (registrations_subset h)
    refine ⟨fun n => ?_, fun hs hperm => ?_, fun _ => hsix⟩
    · have hsub := registered_subset h n
      rw [hsix, routeRequest_of_subset h hsub method hurl]
      rcases find?_of_subset hexcl hsub (cstring (collapse (chr '/') url)) with heq | hnone
      · rw [heq, find?_registrations]
        exact .inl rfl
      · rw [hnone]
        exact .inr rfl
    · rw [hsix]
      exact hall hs (fun e he => registered_subset h 6 (hperm.subset he))
        fun e he => hperm.symm.subset (registrations_subset h he)

end Zigbee
