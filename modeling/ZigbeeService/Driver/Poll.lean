-- SUMMARY: random_get_handler on its own: when it finds a reply that waits on QueueGetHandler, and how its polls run in the driver.
import ZigbeeService.Driver.Answers
import ZigbeeService.Message.Malformed

/-!
# Polling for a reply

The poll loop looks at the first line only, and takes it off the queue only when it accepts it. A
line that it does not accept stays in the way of all that come behind it.
-/

namespace Zigbee

open CLib

variable {ft : FloatText} {devname : Text} {requests : List CommandRequest}

/-! ## The handler -/

/-- The poll loop, with `count` polls left. The result is that of the handler, together with the
readings and the queue. -/
def pollLoop (ft : FloatText) (devname : Text) (requests : List CommandRequest) :
    Nat → List CommandResult → Fifo Text → Checked (Bool × List CommandResult × Fifo Text)
  | 0, readings, queue => .ok (false, readings, queue)
  | count + 1, readings, queue =>
    match queue.front with
    | none => pollLoop ft devname requests count readings queue
    | some strGet => do
      let (result, readings) ← userRepgetEventRead ft readings devname requests strGet
      if result then .ok (true, readings, queue.drop)
      else pollLoop ft devname requests count readings queue

/-- What `random_get_handler` returns, and what it leaves behind. -/
structure GetReturn where
  result : Bool
  readings : List CommandResult
  queueTX : Fifo Text
  queueGetHandler : Fifo Text

/-- `random_get_handler`, while no other thread touches the queues. -/
def randomGetHandler (ft : FloatText) (queueTX queueGetHandler : Fifo Text) (devname : Text)
    (requests : List CommandRequest) : Checked GetReturn := do
  let strRequest ← userGethandlerWrite devname requests
  let readings := List.replicate requests.length CommandResult.zero
  let (result, readings, queue) ←
    pollLoop ft devname requests pollCount readings queueGetHandler
  .ok ⟨result, readings, queueTX.push strRequest, queue⟩

/-! ## What the polls find -/

theorem pollLoop_succ_some {count : Nat} {readings : List CommandResult} {queue : Fifo Text}
    {strGet : Text} {out : Bool × List CommandResult × Fifo Text}
    (hfront : queue.front = some strGet) :
    pollLoop ft devname requests (count + 1) readings queue = .ok out ↔
      ∃ result stored, userRepgetEventRead ft readings devname requests strGet =
          .ok (result, stored) ∧
        (if result then .ok (true, stored, queue.drop)
          else pollLoop ft devname requests count stored queue) = .ok out := by
  simp only [pollLoop, hfront, Checked.bind_eq_ok, Prod.exists]

/-- A loop that ends with true has accepted the first line. -/
theorem pollLoop_true {count : Nat} {readings out : List CommandResult} {queue queue' : Fifo Text}
    (h : pollLoop ft devname requests count readings queue = .ok (true, out, queue')) :
    ∃ strGet readings', queue.front = some strGet ∧ readings'.length = readings.length ∧
      userRepgetEventRead ft readings' devname requests strGet = .ok (true, out) := by
  induction count generalizing readings with
  | zero => cases h
  | succ count ih =>
    cases hfront : queue.front with
    | none =>
      simp only [pollLoop, hfront] at h
      obtain ⟨strGet, readings', hsome, -⟩ := ih h
      rw [hfront] at hsome
      cases hsome
    | some strGet =>
      obtain ⟨result, stored, hread, h⟩ := (pollLoop_succ_some hfront).mp h
      cases result with
      | true =>
        cases h
        exact ⟨strGet, readings, rfl, rfl, hread⟩
      | false =>
        obtain ⟨strGet', readings', hsome, hlen, hread'⟩ := ih h
        exact ⟨strGet', readings', hfront ▸ hsome,
          hlen.trans (userRepgetEventRead_length hread), hread'⟩

/-- A first line that is never accepted keeps the loop going to its end, and stays. -/
theorem pollLoop_rejected {strGet : Text} {queue : Fifo Text} (hfront : queue.front = some strGet)
    (hread : ∀ readings, userRepgetEventRead ft readings devname requests strGet =
      .ok (false, readings)) (count : Nat) (readings : List CommandResult) :
    pollLoop ft devname requests count readings queue = .ok (false, readings, queue) := by
  induction count with
  | zero => rfl
  | succ count ih => exact (pollLoop_succ_some hfront).mpr ⟨false, readings, hread readings, ih⟩

/-- The readings that a handler stores when it accepts the reply. -/
def StoresReply (ft : FloatText) (devname : Text) (requests : List CommandRequest)
    (strGet : Text) (readings : List CommandResult) : Prop :=
  userRepgetEventRead ft (List.replicate requests.length CommandResult.zero) devname requests
    strGet = .ok (true, readings)

/-- The handler returns true with the values of a reply that was waiting for it. -/
def FindsReply (ft : FloatText) (queueTX queueGetHandler : Fifo Text) (devname : Text)
    (requests : List CommandRequest) : Prop :=
  ∃ out, randomGetHandler ft queueTX queueGetHandler devname requests = .ok out ∧
    out.result = true ∧
    ∃ strGet ∈ queueGetHandler.items, StoresReply ft devname requests strGet out.readings

/-- Wherever replies for a handler are waiting, it finds one exactly when the first line is one, and
the names of the resources fit the buffer of its request. -/
theorem findsReply_iff {queueTX queueGetHandler : Fifo Text} :
    FindsReply ft queueTX queueGetHandler devname requests ↔
      (fields (requests.map CommandRequest.resname)).length < 100 ∧
        ∃ strGet, queueGetHandler.front = some strGet ∧ ∃ readings,
          StoresReply ft devname requests strGet readings := by
  constructor
  · rintro ⟨out, hout, hresult, -⟩
    obtain ⟨strRequest, hwrite, h⟩ := Checked.bind_eq_ok.mp hout
    obtain ⟨⟨result, readings, queue⟩, hloop, h⟩ := Checked.bind_eq_ok.mp h
    cases h
    subst hresult
    obtain ⟨strGet, readings', hfront, hlen, hread⟩ := pollLoop_true hloop
    exact ⟨(userGethandlerWrite_eq_ok.mp hwrite).2, strGet, hfront,
      userRepgetEventRead_true_congr hlen hread⟩
  · rintro ⟨hfit, strGet, hfront, readings, hstores⟩
    have hwrite := userGethandlerWrite_eq_ok.mpr ⟨Eq.refl (fields ([[UserCmd.get.code], devname,
      lit "100", decimal requests.length] ++ requests.map CommandRequest.resname)), hfit⟩
    have hloop : pollLoop ft devname requests pollCount
        (List.replicate requests.length CommandResult.zero) queueGetHandler =
          .ok (true, readings, queueGetHandler.drop) :=
      (pollLoop_succ_some hfront).mpr ⟨true, readings, hstores, rfl⟩
    refine ⟨_, Checked.bind_eq_ok.mpr ⟨_, hwrite, Checked.bind_eq_ok.mpr ⟨_, hloop, rfl⟩⟩, rfl,
      strGet, List.mem_of_head? hfront, hstores⟩

/-! ## Replies of other devices -/

/-- A reply of another device is rejected, and leaves the readings alone. -/
theorem Reply.Sent.rejected {r : Reply} (hr : r.Sent) (hname : ¬ valueWord <:+ r.dev)
    (hdev : r.dev ≠ devname) (readings : List CommandResult) :
    userRepgetEventRead ft readings devname requests (repgetMessage r) = .ok (false, readings) := by
  have hcount : (UInt32.ofNat r.values.length).toNat = r.values.length := by
    have hlen := hr.length
    have hvalues := length_le_length_fields r.values
    simp only [repgetMessage, eventMessage, fields_append, List.length_append] at hlen
    rw [UInt32.toNat_ofNat']
    exact Nat.mod_eq_of_lt (by omega)
  refine Checked.bind_eq_ok.mpr ⟨_, hr.takeEvent hname, ?_⟩
  rw [if_pos hdev]
  exact Checked.bind_eq_ok.mpr ⟨(), SensorEvent.Complete.freeEvent hcount.symm, rfl⟩

/-- A reply of another device at the front blocks a handler, whatever waits behind it, and is still
there when the handler gives up. -/
theorem randomGetHandler_blocked (ft : FloatText) (queueTX : Fifo Text)
    {queueGetHandler : Fifo Text} {r : Reply} (hr : r.Sent)
    (hname : ¬ valueWord <:+ r.dev) (hdev : r.dev ≠ devname)
    (hfront : queueGetHandler.front = some (repgetMessage r)) {strRequest : Text}
    (hwrite : userGethandlerWrite devname requests = .ok strRequest) :
    randomGetHandler ft queueTX queueGetHandler devname requests =
      .ok ⟨false, List.replicate requests.length CommandResult.zero, queueTX.push strRequest,
        queueGetHandler⟩ :=
  Checked.bind_eq_ok.mpr ⟨strRequest, hwrite, Checked.bind_eq_ok.mpr
    ⟨_, pollLoop_rejected hfront (hr.rejected hname hdev) pollCount _, rfl⟩⟩

/-- The reply to RandomDevice1 is second, behind one of another device that nobody collected. -/
theorem findsReply_second :
    let other : Reply := ⟨0, lit "RandomDevice2", 60, [lit "35"]⟩
    let own : Reply := ⟨1, lit "RandomDevice1", 61, [lit "30"]⟩
    let queue : Fifo Text := ⟨10, [repgetMessage other, repgetMessage own], by decide, by decide⟩
    let requests : List CommandRequest := [⟨lit "SensorOne", .int32⟩]
    other.Sent ∧ own.Sent ∧
      (∃ strGet ∈ queue.items, ∃ readings,
        StoresReply FloatText.empty (lit "RandomDevice1") requests strGet readings) ∧
      ¬ FindsReply FloatText.empty (Fifo.empty 10 (by decide)) queue (lit "RandomDevice1")
        requests := by
  intro other own queue requests
  have hother : other.Sent := ⟨by decide, by decide, by decide⟩
  refine ⟨hother, ⟨by decide, by decide, by decide⟩, ?_, ?_⟩
  · refine ⟨repgetMessage own, by decide, [⟨61, .int32, ⟨30, [], []⟩⟩], ?_⟩
    unfold StoresReply
    decide
  · rintro ⟨out, hout, hresult, -⟩
    have hwrite : userGethandlerWrite (lit "RandomDevice1") requests =
        .ok (lit "b#RandomDevice1#100#1#SensorOne#") := by decide
    have hfront : queue.front = some (repgetMessage other) := rfl
    rw [randomGetHandler_blocked _ _ hother (by decide) (by decide) hfront hwrite] at hout
    cases hout
    cases hresult

/-! ## The polls in the driver -/

section Driver

variable {s s' : State} {i : Nat} {c : GetCall}

/-- The action that handler `i` takes next. -/
def Phase.next (i : Nat) : Phase → Option Action
  | .polling 0 => some (.giveUp i)
  | .polling (_ + 1) => some (.lock i)
  | .holding _ => some (.peek i)
  | .peeked _ none => some (.unlock i)
  | .peeked _ (some _) => some (.parse i)
  | .parsed _ _ false => some (.unlock i)
  | .parsed _ _ true => some (.clear i)
  | .cleared _ => some (.unlock i)
  | .returned _ => none

theorem Phase.Unlocks.next {phase phase' : Phase} (h : phase.Unlocks phase') (i : Nat) :
    phase.next i = some (.unlock i) := by
  cases h <;> rfl

def State.next (s : State) (i : Nat) : Option Action := (s.call i).bind fun c => c.phase.next i

theorem State.next_eq (hcall : s.call i = some c) : s.next i = c.phase.next i := by
  rw [State.next, hcall, Option.bind_some]

/-- A handler has no choice. -/
theorem step_next {a : Action} (ha : a.poller = some i) (h : step ft s a = some s') :
    s.next i = some a := by
  cases a with
  | lock j =>
    cases ha
    obtain ⟨c, count, hcall, -, hphase, -⟩ := stepLock_eq_some h
    rw [State.next_eq hcall, hphase]
    rfl
  | peek j =>
    cases ha
    obtain ⟨c, count, hcall, hphase, -⟩ := stepPeek_eq_some h
    rw [State.next_eq hcall, hphase]
    rfl
  | parse j =>
    cases ha
    obtain ⟨c, count, strGet, result, readings, hcall, hphase, -, -⟩ := stepParse_eq_some h
    rw [State.next_eq hcall, hphase]
    rfl
  | clear j =>
    cases ha
    obtain ⟨c, count, strGet, hcall, hphase, -⟩ := stepClear_eq_some h
    rw [State.next_eq hcall, hphase]
    rfl
  | unlock j =>
    cases ha
    obtain ⟨c, phase, hcall, hphase, -⟩ := stepUnlock_eq_some h
    rw [State.next_eq hcall]
    exact hphase.next i
  | giveUp j =>
    cases ha
    obtain ⟨c, hcall, hphase, -⟩ := stepGiveUp_eq_some h
    rw [State.next_eq hcall, hphase]
    rfl
  | get | put | discover | addDevice | txTake | txWrite | reply | line => cases ha

/-- The step left the queues as they were. -/
structure SameQueues (s t : State) : Prop where
  get : t.queueGetHandler = s.queueGetHandler
  tx : t.queueTX = s.queueTX

/-- The start of a poll: the handler holds the lock and has the first line. -/
theorem run_look {count : Nat} (howner : s.owner = none) (hcall : s.call i = some c)
    (hphase : c.phase = .polling (count + 1)) :
    ∃ t, Machine.run (step ft) s [.lock i, .peek i] = some t ∧ SameQueues s t ∧
      t.call i = some { c with phase := .peeked count s.queueGetHandler.queue.front } := by
  let held := { s with owner := some i }.setThread i (.get { c with phase := .holding count })
  have hlock : step ft s (.lock i) = some held := by
    simp [step, stepLock, hcall, howner, hphase, held]
  let looked := held.setThread i
    (.get { c with phase := .peeked count s.queueGetHandler.queue.front })
  have hpeek : step ft held (.peek i) = some looked := by
    simp [step, stepPeek, held, looked]
  refine ⟨looked, ?_, ⟨rfl, rfl⟩, State.call_setThread_self _ _ _⟩
  simp [Machine.run, hlock, hpeek]

theorem run_parse {count : Nat} {strGet : Tagged Line} {result : Bool}
    {readings : List CommandResult} (hcall : s.call i = some c)
    (hphase : c.phase = .peeked count (some strGet))
    (hread : userRepgetEventRead ft c.readings c.devname c.requests strGet.val.text =
      .ok (result, readings)) :
    ∃ t, step ft s (.parse i) = some t ∧ SameQueues s t ∧
      t.call i = some { c with readings := readings, phase := .parsed count strGet result } := by
  refine ⟨s.setThread i
      (.get { c with readings := readings, phase := .parsed count strGet result }),
    ?_, ⟨rfl, rfl⟩, State.call_setThread_self _ _ _⟩
  simp [step, stepParse, hcall, hphase, hread]

theorem run_unlock (ft : FloatText) {count : Nat} (hcall : s.call i = some c)
    (hphase : c.phase = .peeked count none ∨ ∃ strGet, c.phase = .parsed count strGet false) :
    ∃ t, step ft s (.unlock i) = some t ∧ SameQueues s t ∧ t.owner = none ∧
      t.call i = some { c with phase := .polling count } := by
  refine ⟨{ s with owner := none }.setThread i (.get { c with phase := .polling count }), ?_,
    ⟨rfl, rfl⟩, rfl, State.call_setThread_self _ _ _⟩
  rcases hphase with hphase | ⟨strGet, hphase⟩ <;> simp [step, stepUnlock, hcall, hphase]

/-- A whole poll that does not find a reply. -/
theorem run_poll_false {count : Nat} {stored : List CommandResult} (howner : s.owner = none)
    (hcall : s.call i = some c) (hphase : c.phase = .polling (count + 1))
    (hread : s.queueGetHandler.queue.front = none ∧ stored = c.readings ∨
      ∃ strGet, s.queueGetHandler.queue.front = some strGet ∧
        userRepgetEventRead ft c.readings c.devname c.requests strGet.val.text =
          .ok (false, stored)) :
    ∃ acts t, (∀ a ∈ acts, a.poller = some i) ∧ Machine.run (step ft) s acts = some t ∧
      SameQueues s t ∧ t.owner = none ∧
      t.call i = some { c with readings := stored, phase := .polling count } := by
  obtain ⟨looked, hlook, hsame, hcall₁⟩ := run_look howner hcall hphase
  rcases hread with ⟨hfront, rfl⟩ | ⟨strGet, hfront, hread⟩
  · obtain ⟨freed, hunlock, hfreed, hfree, hd⟩ := run_unlock ft hcall₁ (.inl (by rw [hfront]))
    refine ⟨[.lock i, .peek i] ++ [.unlock i], freed, by simp [Action.poller], ?_,
      ⟨hfreed.get.trans hsame.get, hfreed.tx.trans hsame.tx⟩, hfree, hd⟩
    exact Machine.run_append_eq_some.mpr
      ⟨looked, hlook, Machine.run_cons_eq_some.mpr ⟨freed, hunlock, rfl⟩⟩
  · obtain ⟨parsed, hparse, hparsed, hcall₂⟩ := run_parse hcall₁ (by rw [hfront]) hread
    obtain ⟨freed, hunlock, hfreed, hfree, hd⟩ := run_unlock ft hcall₂ (.inr ⟨strGet, rfl⟩)
    refine ⟨[.lock i, .peek i] ++ [.parse i, .unlock i], freed, by simp [Action.poller], ?_,
      ⟨hfreed.get.trans (hparsed.get.trans hsame.get),
        hfreed.tx.trans (hparsed.tx.trans hsame.tx)⟩, hfree, hd⟩
    exact Machine.run_append_eq_some.mpr ⟨looked, hlook, Machine.run_cons_eq_some.mpr
      ⟨parsed, hparse, Machine.run_cons_eq_some.mpr ⟨freed, hunlock, rfl⟩⟩⟩

/-- A whole poll that finds the reply and removes it. -/
theorem run_poll_true {count : Nat} {strGet : Tagged Line} {readings : List CommandResult}
    (howner : s.owner = none) (hcall : s.call i = some c)
    (hphase : c.phase = .polling (count + 1))
    (hfront : s.queueGetHandler.queue.front = some strGet)
    (hread : userRepgetEventRead ft c.readings c.devname c.requests strGet.val.text =
      .ok (true, readings)) :
    ∃ acts t, (∀ a ∈ acts, a.poller = some i) ∧ Machine.run (step ft) s acts = some t ∧
      t.queueGetHandler = s.queueGetHandler.take ∧ t.queueTX = s.queueTX ∧
      t.call i = some { c with readings := readings, phase := .returned true } := by
  obtain ⟨looked, hlook, hsame, hcall₁⟩ := run_look howner hcall hphase
  obtain ⟨parsed, hparse, hparsed, hcall₂⟩ := run_parse hcall₁ (by rw [hfront]) hread
  let cleared := { parsed with
    queueGetHandler := parsed.queueGetHandler.take
    claims := parsed.claims ++ [(i, strGet)] }.setThread i
      (.get { c with readings := readings, phase := .cleared strGet })
  have hclear : step ft parsed (.clear i) = some cleared := by
    simp [step, stepClear, hcall₂, cleared]
  let freed := { cleared with owner := none }.setThread i
    (.get { c with readings := readings, phase := .returned true })
  have hunlock : step ft cleared (.unlock i) = some freed := by
    simp [step, stepUnlock, cleared, freed]
  have hrest : Machine.run (step ft) parsed [.clear i, .unlock i] = some freed := by
    simp [Machine.run, hclear, hunlock]
  have hget : freed.queueGetHandler = parsed.queueGetHandler.take := rfl
  have htx : freed.queueTX = parsed.queueTX := rfl
  refine ⟨[.lock i, .peek i] ++ [.parse i, .clear i, .unlock i], freed, by simp [Action.poller], ?_,
    by rw [hget, hparsed.get, hsame.get], by rw [htx, hparsed.tx, hsame.tx],
    State.call_setThread_self _ _ _⟩
  exact Machine.run_append_eq_some.mpr
    ⟨looked, hlook, Machine.run_cons_eq_some.mpr ⟨parsed, hparse, hrest⟩⟩

/-- Handler `i` on its own leads from `s` to a state in which its call `c` has returned. -/
def ReturnsAlone (ft : FloatText) (s : State) (i : Nat) (c : GetCall) (result : Bool)
    (readings : List CommandResult) (queue : Fifo Text) : Prop :=
  ∃ acts s', (∀ a ∈ acts, a.poller = some i) ∧ Machine.run (step ft) s acts = some s' ∧
    s'.call i = some { c with readings := readings, phase := .returned result } ∧
    s'.lines = queue ∧ s'.queueTX = s.queueTX

/-- The poll loop is a run of the steps of its handler. -/
theorem pollLoop_run {count : Nat} {result : Bool} {readings : List CommandResult}
    {queue : Fifo Text} (howner : s.owner = none) (hcall : s.call i = some c)
    (hphase : c.phase = .polling count)
    (h : pollLoop ft c.devname c.requests count c.readings s.lines =
      .ok (result, readings, queue)) :
    ReturnsAlone ft s i c result readings queue := by
  induction count generalizing s c with
  | zero =>
    cases h
    refine ⟨[.giveUp i], s.setThread i (.get { c with phase := .returned false }),
      by simp [Action.poller], ?_, State.call_setThread_self _ _ _, rfl, rfl⟩
    simp [Machine.run, step, stepGiveUp, hcall, hphase]
  | succ count ih =>
    -- a poll that finds nothing is followed by the rest of the loop
    have hgo {stored : List CommandResult}
        (hread : s.queueGetHandler.queue.front = none ∧ stored = c.readings ∨
          ∃ strGet, s.queueGetHandler.queue.front = some strGet ∧
            userRepgetEventRead ft c.readings c.devname c.requests strGet.val.text =
              .ok (false, stored))
        (hloop : pollLoop ft c.devname c.requests count stored s.lines =
          .ok (result, readings, queue)) : ReturnsAlone ft s i c result readings queue := by
      obtain ⟨first, freed, hfirst, hrun, hsame, hfree, hd⟩ :=
        run_poll_false howner hcall hphase hread
      have hlines : freed.lines = s.lines := by rw [State.lines, hsame.get, State.lines]
      rw [← hlines] at hloop
      obtain ⟨acts, s', hacts, hrest, hs', hqueue, htx⟩ := ih hfree hd rfl hloop
      exact ⟨first ++ acts, s', fun a ha => (List.mem_append.mp ha).elim (hfirst a) (hacts a),
        Machine.run_append_eq_some.mpr ⟨freed, hrun, hrest⟩, hs', hqueue, htx.trans hsame.tx⟩
    have htexts : s.lines.front = s.queueGetHandler.queue.front.map fun line => line.val.text := by
      rw [State.lines, Fifo.map_front]
    cases hfront : s.queueGetHandler.queue.front with
    | none =>
      rw [hfront, Option.map_none] at htexts
      simp only [pollLoop, htexts] at h
      exact hgo (.inl ⟨hfront, rfl⟩) h
    | some strGet =>
      rw [hfront, Option.map_some] at htexts
      obtain ⟨accepted, stored, hread, h⟩ := (pollLoop_succ_some htexts).mp h
      cases accepted with
      | false => exact hgo (.inr ⟨strGet, hfront, hread⟩) h
      | true =>
        cases h
        obtain ⟨acts, s', hacts, hrun, hget, htx, hs'⟩ :=
          run_poll_true howner hcall hphase hfront hread
        refine ⟨acts, s', hacts, hrun, hs', ?_, htx⟩
        rw [State.lines, hget, State.lines, Fifo.map_drop]
        rfl

/-- When no other thread comes in between, a GET handler of the driver does what
`random_get_handler` does, and nothing else. -/
theorem randomGetHandler_run {out : GetReturn} (howner : s.owner = none)
    (hidle : s.threads i = .idle)
    (h : randomGetHandler ft s.texts s.lines devname requests = .ok out) :
    ∃ s' c', s'.call i = some c' ∧ c'.phase = .returned out.result ∧ c'.readings = out.readings ∧
      s'.lines = out.queueGetHandler ∧ s'.texts = out.queueTX ∧
      (∃ acts, (∀ a ∈ acts, a.poller = some i) ∧
        Machine.run (step ft) s (.get i devname requests :: acts) = some s') ∧
      ∀ acts s'' d result, (∀ a ∈ acts, a.poller = some i) →
        Machine.run (step ft) s (.get i devname requests :: acts) = some s'' →
        s''.call i = some d → d.phase = .returned result → s'' = s' := by
  obtain ⟨strRequest, hwrite, h⟩ := Checked.bind_eq_ok.mp h
  obtain ⟨⟨result, readings, queue⟩, hloop, h⟩ := Checked.bind_eq_ok.mp h
  cases h
  let started := (s.enQueueTX strRequest).setThread i (.get
    { devname := devname
      requests := requests
      command := s.queueTX.log.length
      readings := List.replicate requests.length CommandResult.zero
      phase := .polling pollCount })
  have hget : step ft s (.get i devname requests) = some started := by
    simp only [step, stepGet, hidle, hwrite, started]
  obtain ⟨acts, s', hacts, hrun, hcall, hlines, hqueue⟩ :=
    pollLoop_run (s := started) howner (State.call_setThread_self _ _ _) rfl hloop
  refine ⟨s', _, hcall, rfl, rfl, hlines, ?_,
    ⟨acts, hacts, Machine.run_cons_eq_some.mpr ⟨started, hget, hrun⟩⟩, ?_⟩
  · rw [State.texts, hqueue]
    exact (Fifo.map_push _ _ _).symm
  · intro acts' s'' d result' hacts' hrun' hd hphase
    obtain ⟨t, ht, hrun'⟩ := Machine.run_cons_eq_some.mp hrun'
    obtain rfl := Option.some.inj (hget.symm.trans ht)
    have hend : s'.next i = none := State.next_eq hcall
    have hend' : s''.next i = none := by rw [State.next_eq hd, hphase]; rfl
    have hsame : acts = acts' := by
      refine Machine.run_unique (State.next · i) ?_ hacts hacts' hrun hrun' hend hend'
      exact step_next
    rw [hsame, hrun'] at hrun
    exact Option.some.inj hrun

end Driver

end Zigbee
