-- SUMMARY: The polling of the Consul store, and the index that goes from the headers of a response into the next URL (consul.c).
import ZigbeeService.Config.Consul
import ZigbeeService.Http.Headers

/-!
# Polling the Consul store

`poll_consul` asks the store again and again, each time with the index that the header
`X-Consul-Index` of the last response gave. Requests themselves, the time they take and the sleep
after one that failed are not part of the model: what each round gets is given.
-/

namespace Zigbee

open CLib

-- ---------------------------------------------------------------------------
-- The loop
-- ---------------------------------------------------------------------------

def URL_BUF_SIZE : Nat := 512

def X_CONSUL_INDEX : Text := lit "X-Consul-Index"

/-- What `edgex_http_get` brings in one round: the header lines, whether it failed, the data, and
whether `updatedone` was set by then. -/
structure PollResponse where
  headers : List Text
  failed : Bool
  buff : Option Text
  updatedone : Bool

/-- The state of `poll_consul`, with the URLs it has requested and the settings it has handed to
the updater. -/
structure Poll where
  url : Text
  index : RspHdrs
  requests : List Text
  updates : List NvPairs

def Poll.start (url : Text) : Poll := ⟨url, [(X_CONSUL_INDEX, none)], [], []⟩

/-- The header lines of one response. -/
def checkLines (headers : List Text) (v : RspHdrs) : Checked RspHdrs :=
  headers.foldlM
    (fun v line => do
      let (_, v) ← edgexCheckRspHdr ⟨line, rfl⟩ v
      return v) v

/-- The URL of the next request. Without an index it stays as it is. -/
def Poll.nextUrl (urltail : Nat) (s : Poll) : Checked Text :=
  match s.index.findSome? Prod.snd with
  | none => return s.url
  | some value => sprintf URL_BUF_SIZE (s.url.take urltail ++ (lit "&index=" ++ value))

/-- One round of `poll_consul`. -/
def Poll.round (parson : Parson) (urltail : Nat) (s : Poll) (r : PollResponse) : Checked Poll := do
  let url ← s.nextUrl urltail
  let index ← checkLines r.headers [(X_CONSUL_INDEX, none)]
  let (conf, err) := match r.buff with
    | none => ([], none)
    | some json => readPairs parson json
  let updates := if r.updatedone ∨ r.failed ∨ err ≠ none then s.updates else s.updates ++ [conf]
  return ⟨url, index, s.requests ++ [url], updates⟩

/-- The loop of `poll_consul`. -/
def Poll.rounds (parson : Parson) (urltail : Nat) : List PollResponse → Poll → Checked Poll
  | [], s => return s
  | r :: rs, s => do
    let s ← s.round parson urltail r
    if r.updatedone then return s else rounds parson urltail rs s

/-- `poll_consul`, up to the last response that has come. -/
def pollConsul (parson : Parson) (url : Text) (rs : List PollResponse) : Checked Poll :=
  Poll.rounds parson url.length rs (.start url)

-- ---------------------------------------------------------------------------
-- The index
-- ---------------------------------------------------------------------------

/-- No end of a line. -/
def NoBreaks (s : Text) : Prop := chr '\r' ∉ s ∧ chr '\n' ∉ s

/-- A line of another header, or one with an index that is not empty and ends where it should. -/
def IndexLine (line : Text) : Prop :=
  ¬ X_CONSUL_INDEX ++ [chr ':'] <+: line ∨ ∃ l : HeaderLine, l.Clean ∧ line = l.text

/-- The index of a poll, with nothing in it that ends lines. -/
def IndexClean (v : RspHdrs) : Prop :=
  ∃ value, v = [(X_CONSUL_INDEX, value)] ∧ ∀ s ∈ value, NoBreaks s

theorem headerNames_index (value : Option Text) : HeaderNames [(X_CONSUL_INDEX, value)] := by
  have hname : 0 ∉ X_CONSUL_INDEX ∧ chr ':' ∉ X_CONSUL_INDEX := by decide
  intro i hi
  rw [List.mem_singleton.mp hi]
  exact hname

theorem checkLine_clean {line : Text} {v : RspHdrs} (hline : IndexLine line) (hv : IndexClean v) :
    ∃ v', edgexCheckRspHdr ⟨line, rfl⟩ v = .ok (line.length, v') ∧ IndexClean v' := by
  obtain ⟨value, rfl, hvalue⟩ := hv
  rcases hline with hother | ⟨l, hclean, rfl⟩
  · have hsame : checkPairs (⟨line, rfl⟩ : CharArray line.length) line.length
        [(X_CONSUL_INDEX, value)] = .ok [(X_CONSUL_INDEX, value)] :=
      checkPairs_other le_rfl (by simpa using (headerNames_index value _ List.mem_cons_self).1)
        (by simpa using hother)
    exact ⟨_, by rw [edgexCheckRspHdr, hsame]; rfl, value, rfl, hvalue⟩
  · have hcheck := edgexCheckRspHdr_line l (headerNames_index value) (List.nodup_singleton _)
    refine ⟨_, hcheck, ?_⟩
    by_cases hname : X_CONSUL_INDEX = l.name
    · refine ⟨some l.value, ?_, ?_⟩
      · rw [List.map_singleton, if_pos hname, HeaderLine.stored_of_clean hclean]
      · rintro s ⟨rfl⟩
        exact ⟨hclean.no_return, hclean.no_newline⟩
    · exact ⟨value, by rw [List.map_singleton, if_neg hname], hvalue⟩

theorem checkLines_clean {headers : List Text} {v : RspHdrs}
    (hheaders : ∀ line ∈ headers, IndexLine line) (hv : IndexClean v) :
    ∃ v', checkLines headers v = .ok v' ∧ IndexClean v' := by
  induction headers generalizing v with
  | nil => exact ⟨v, rfl, hv⟩
  | cons line headers ih =>
    rw [List.forall_mem_cons] at hheaders
    obtain ⟨v₁, hcheck, hv₁⟩ := checkLine_clean hheaders.1 hv
    obtain ⟨v₂, hchecks, hv₂⟩ := ih hheaders.2 hv₁
    refine ⟨v₂, ?_, hv₂⟩
    rw [checkLines, List.foldlM_cons, hcheck]
    exact hchecks

-- ---------------------------------------------------------------------------
-- The URLs
-- ---------------------------------------------------------------------------

/-- The URL of the poll, with nothing behind it that ends lines. -/
def CleanUrl (base url : Text) : Prop := ∃ suffix, url = base ++ suffix ∧ NoBreaks suffix

/-- What holds between the rounds of a poll. -/
structure Poll.Clean (base : Text) (s : Poll) : Prop where
  url : CleanUrl base s.url
  index : IndexClean s.index
  requests : ∀ request ∈ s.requests, CleanUrl base request

theorem Poll.clean_start (base : Text) : (Poll.start base).Clean base where
  url := ⟨[], (List.append_nil base).symm, by simp [NoBreaks]⟩
  index := ⟨none, rfl, nofun⟩
  requests := List.forall_mem_nil _

theorem Poll.Clean.nextUrl {base url : Text} {s : Poll} (h : s.Clean base)
    (hurl : s.nextUrl base.length = .ok url) : CleanUrl base url := by
  obtain ⟨value, hindex, hvalue⟩ := h.index
  rw [Poll.nextUrl, hindex] at hurl
  cases value with
  | none =>
    cases hurl
    exact h.url
  | some value =>
    obtain ⟨suffix, hbase, -⟩ := h.url
    obtain ⟨rfl, -⟩ := sprintf_eq_ok.mp hurl
    have hlit : NoBreaks (lit "&index=") := ⟨by decide, by decide⟩
    obtain ⟨hreturn, hnewline⟩ := hvalue value rfl
    refine ⟨lit "&index=" ++ value, by rw [hbase, List.take_left], ?_, ?_⟩
    · rw [List.mem_append]
      exact not_or.mpr ⟨hlit.1, hreturn⟩
    · rw [List.mem_append]
      exact not_or.mpr ⟨hlit.2, hnewline⟩

variable {parson : Parson} {base : Text} {s s' : Poll}

theorem Poll.Clean.round {r : PollResponse} (h : s.Clean base)
    (hlines : ∀ line ∈ r.headers, IndexLine line)
    (hround : s.round parson base.length r = .ok s') : s'.Clean base := by
  obtain ⟨url, hurl, hround⟩ := Checked.bind_eq_ok.mp hround
  have hclean := h.nextUrl hurl
  obtain ⟨index, hindex, hround⟩ := Checked.bind_eq_ok.mp hround
  obtain ⟨v, hv, hindexClean⟩ := checkLines_clean hlines ⟨none, rfl, nofun⟩
  obtain rfl := Except.ok.inj (hindex.symm.trans hv)
  cases hround
  refine ⟨hclean, hindexClean, fun request hrequest => ?_⟩
  rcases List.mem_append.mp hrequest with hold | hnew
  · exact h.requests request hold
  · rw [List.mem_singleton.mp hnew]
    exact hclean

theorem Poll.Clean.rounds {rs : List PollResponse} (h : s.Clean base)
    (hlines : ∀ r ∈ rs, ∀ line ∈ r.headers, IndexLine line)
    (hrun : Poll.rounds parson base.length rs s = .ok s') : s'.Clean base := by
  induction rs generalizing s with
  | nil =>
    cases hrun
    exact h
  | cons r rs ih =>
    rw [List.forall_mem_cons] at hlines
    obtain ⟨s₁, hround, hrun⟩ := Checked.bind_eq_ok.mp hrun
    have hclean := h.round hlines.1 hround
    by_cases hdone : r.updatedone
    · rw [if_pos hdone] at hrun
      cases hrun
      exact hclean
    · rw [if_neg hdone] at hrun
      exact ih hclean hlines.2 hrun

/-- A header gets the value of its line exactly when the line has a value, and one that holds
nothing that ends lines or strings. If all index headers are like that, no request of a poll goes to
a URL with the end of a line behind the one that was polled first. -/
theorem extractsHeader_polls_clean (parson : Parson) :
    (∀ (n : Nat) (buffer : CharArray n) (l : HeaderLine) (v : RspHdrs),
      HeaderNames v → (v.map Prod.fst).Nodup → buffer.bytes = l.text →
      (ExtractsHeader buffer l v ↔ (l.name ∈ v.map Prod.fst → l.Clean))) ∧
    ∀ (url : Text) (rs : List PollResponse) (s : Poll),
      (∀ r ∈ rs, ∀ line ∈ r.headers, IndexLine line) →
      pollConsul parson url rs = .ok s →
      ∀ request ∈ s.requests, ∃ suffix, request = url ++ suffix ∧
        chr '\r' ∉ suffix ∧ chr '\n' ∉ suffix := by
  refine ⟨fun n buffer l v => extractsHeader_iff, fun url rs s hlines hrun => ?_⟩
  exact ((Poll.clean_start url).rounds hlines hrun).requests

-- ---------------------------------------------------------------------------
-- Two rounds
-- ---------------------------------------------------------------------------

def storeUrl : Text := lit "http://consul:8500/v1/kv/edgex/core/1.0/device-zigbee?recurse=true"

/-- A response with the index in it, and one that comes when the service stops. -/
def indexResponses (l : HeaderLine) : List PollResponse :=
  [⟨[l.text], false, none, false⟩, ⟨[], false, none, true⟩]

/-- The poll after the two. -/
def indexPoll (l : HeaderLine) : Poll where
  url := storeUrl ++ (lit "&index=" ++ l.stored)
  index := [(X_CONSUL_INDEX, none)]
  requests := [storeUrl, storeUrl ++ (lit "&index=" ++ l.stored)]
  updates := [[]]

theorem pollConsul_indexResponses (parson : Parson) {l : HeaderLine}
    (hname : X_CONSUL_INDEX = l.name)
    (hfit : (storeUrl ++ (lit "&index=" ++ l.stored)).length < URL_BUF_SIZE) :
    pollConsul parson storeUrl (indexResponses l) = .ok (indexPoll l) := by
  have hcheck := edgexCheckRspHdr_line l (headerNames_index none) (List.nodup_singleton _)
  have hlines : checkLines [l.text] [(X_CONSUL_INDEX, none)] =
      .ok [(X_CONSUL_INDEX, some l.stored)] := by
    rw [checkLines, List.foldlM_cons, hcheck, List.map_singleton, if_pos hname]
    rfl
  have hfirst : (Poll.start storeUrl).round parson storeUrl.length ⟨[l.text], false, none, false⟩ =
      .ok ⟨storeUrl, [(X_CONSUL_INDEX, some l.stored)], [storeUrl], [[]]⟩ := by
    rw [Poll.round, hlines]
    rfl
  have hnext : Poll.nextUrl storeUrl.length
      ⟨storeUrl, [(X_CONSUL_INDEX, some l.stored)], [storeUrl], [[]]⟩ =
      .ok (storeUrl ++ (lit "&index=" ++ l.stored)) := by
    have hurl : sprintf URL_BUF_SIZE (storeUrl ++ (lit "&index=" ++ l.stored)) = .ok _ :=
      sprintf_eq_ok.mpr ⟨rfl, hfit⟩
    rwa [← List.take_length (l := storeUrl)] at hurl
  have hsecond : Poll.round parson storeUrl.length
      ⟨storeUrl, [(X_CONSUL_INDEX, some l.stored)], [storeUrl], [[]]⟩ ⟨[], false, none, true⟩ =
      .ok (indexPoll l) := by
    rw [Poll.round, hnext]
    rfl
  rw [pollConsul, indexResponses, Poll.rounds, hfirst, Checked.ok_bind, if_neg Bool.false_ne_true,
    Poll.rounds, hsecond]
  rfl

def indexHeader (value : Text) (hhead : value.head? ≠ some (chr ' '))
    (hlast : value.getLast? ≠ some (chr ' ')) : HeaderLine where
  name := X_CONSUL_INDEX
  leading := 1
  value := value
  trailing := 0
  name_no_colon := by decide
  value_head := hhead
  value_last := hlast

/-- `X-Consul-Index: 17`. -/
def seventeen : HeaderLine := indexHeader (lit "17") (by decide) (by decide)

theorem clean_seventeen : seventeen.Clean where
  value_ne_nil := by decide
  no_nul := by decide
  no_return := by decide
  no_newline := by decide

/-- A header without a value. -/
def emptyIndex : HeaderLine := indexHeader [] (by decide) (by decide)

theorem extractsHeader_polls_seventeen :
    ExtractsHeader ⟨seventeen.text, rfl⟩ seventeen [(X_CONSUL_INDEX, none), (lit "ETag", none)] ∧
    ∀ request ∈ (indexPoll seventeen).requests, ∃ suffix, request = storeUrl ++ suffix ∧
      chr '\r' ∉ suffix ∧ chr '\n' ∉ suffix := by
  obtain ⟨hextracts, hpolls⟩ := extractsHeader_polls_clean (.knowing .null)
  have hnames : HeaderNames [(X_CONSUL_INDEX, none), (lit "ETag", none)] := by
    simp only [HeaderNames, List.forall_mem_cons]
    exact ⟨by decide, by decide, List.forall_mem_nil _⟩
  constructor
  · exact (hextracts _ _ _ _ hnames (by decide) rfl).mpr fun _ => clean_seventeen
  · refine hpolls storeUrl (indexResponses seventeen) _ ?_
      (pollConsul_indexResponses _ rfl (by decide))
    simp only [indexResponses, List.forall_mem_cons]
    exact ⟨⟨.inr ⟨_, clean_seventeen, rfl⟩, List.forall_mem_nil _⟩, List.forall_mem_nil _,
      List.forall_mem_nil _⟩

/-- Without a value the carriage return is stored, and goes into the next URL. -/
theorem emptyIndex_not_extracted :
    ¬ ExtractsHeader ⟨emptyIndex.text, rfl⟩ emptyIndex [(X_CONSUL_INDEX, none)] ∧
    edgexCheckRspHdr ⟨emptyIndex.text, rfl⟩ [(X_CONSUL_INDEX, none)] =
      .ok (18, [(X_CONSUL_INDEX, some (lit "\r"))]) ∧
    pollConsul (.knowing .null) storeUrl (indexResponses emptyIndex) = .ok (indexPoll emptyIndex) ∧
    storeUrl ++ lit "&index=\r" ∈ (indexPoll emptyIndex).requests := by
  have hnodup : ([(X_CONSUL_INDEX, none)].map (Prod.fst : Text × Option Text → Text)).Nodup :=
    List.nodup_singleton _
  refine ⟨fun hextracts => ?_, ?_, pollConsul_indexResponses _ rfl (by decide), ?_⟩
  · have hclean := (extractsHeader_iff (headerNames_index none) hnodup rfl).mp hextracts
      List.mem_cons_self
    exact hclean.value_ne_nil rfl
  · exact edgexCheckRspHdr_line emptyIndex (headerNames_index none) hnodup
  · exact List.mem_cons_of_mem _ List.mem_cons_self

end Zigbee
