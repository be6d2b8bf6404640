-- SUMMARY: Whether a GET is answered by a reply to itself, over every interleaving of handlers, devices and delays.
import ZigbeeService.Driver.Replies

/-!
# Answers

Replies carry nothing that tells which request they answer: a handler accepts any line that names
its device and has values of the right types. A GET gets its own reply as long as nothing of another
GET to that device is left in the system when it starts.
-/

namespace Zigbee

open CLib

variable {ft : FloatText} {s s' : State} {a : Action} {i : Nat} {c : GetCall}

/-! ## Who is asked -/

/-- Device `dev` takes the command for a GET addressed to it. -/
def Asks (dev : Text) (command : Tagged Text) : Prop :=
  ∃ resnames, receiveProccessEdgex dev command.val = some (.get resnames)

/-- Only a command that starts with the code of GET asks anybody. -/
theorem Asks.head {dev : Text} {command : Tagged Text} (h : Asks dev command) :
    (command.val.splitOn hash)[0]? = some [UserCmd.get.code] ∧
      (command.val.splitOn hash)[1]? = some dev := by
  obtain ⟨resnames, h⟩ := h
  simp only [receiveProccessEdgex, Option.bind_eq_bind, Option.bind_eq_some_iff] at h
  obtain ⟨name, hname, cmd, hcmd, h⟩ := h
  split at h
  case isFalse => cases h
  case isTrue hdev =>
    subst hdev
    split at h
    case isTrue hget => exact ⟨hget ▸ hcmd, hname⟩
    case isFalse =>
      split at h
      · simp only [deviceRepputEdgex, Option.bind_eq_bind, Option.bind_eq_some_iff] at h
        obtain ⟨_, -, h⟩ := h
        cases h
      · repeat' split at h
        all_goals cases h

/-- A device name that a command is split into holds no separator. -/
theorem Asks.hash_notMem {dev : Text} {command : Tagged Text} (h : Asks dev command) :
    hash ∉ dev :=
  notMem_of_mem_splitOn (List.mem_of_getElem? h.head.2)

theorem splitOn_code {code : UInt8} (rest : Text) (hcode : hash ≠ code) :
    ((code :: hash :: rest).splitOn hash) = [code] :: rest.splitOn hash := by
  have hnot : hash ∉ [code] := by simpa using hcode
  exact List.splitOn_append_cons_self_of_not_mem hnot rest

theorem not_asks_of_code {code : UInt8} {tag : Nat} {rest : Text} (hcode : hash ≠ code)
    (hget : code ≠ UserCmd.get.code) (dev : Text) : ¬ Asks dev ⟨tag, code :: hash :: rest⟩ := by
  intro h
  have hhead := h.head.1
  rw [splitOn_code rest hcode] at hhead
  simp [hget] at hhead

/-- A PUT command asks nobody. -/
theorem not_asks_put {devname msg : Text} {requests : List CommandRequest}
    {values : List CommandResult} {tag : Nat}
    (h : userPuthandlerWrite ft devname requests values = .ok msg) (dev : Text) :
    ¬ Asks dev ⟨tag, msg⟩ := by
  obtain ⟨fullValue, -, h⟩ := Checked.bind_eq_ok.mp h
  obtain ⟨rfl, -⟩ := sprintf_eq_ok.mp h
  simp only [fields_cons, List.cons_append, List.nil_append]
  exact not_asks_of_code (by decide) (by decide) dev

/-- A GET command to a device without a `#` in its name asks that device only. -/
theorem asks_get {devname dev msg : Text} {requests : List CommandRequest} {tag : Nat}
    (h : userGethandlerWrite devname requests = .ok msg) (hdev : hash ∉ devname)
    (hasks : Asks dev ⟨tag, msg⟩) : dev = devname := by
  obtain ⟨rfl, -⟩ := userGethandlerWrite_eq_ok.mp h
  have hname := hasks.head.2
  simp only [fields_cons, List.cons_append, List.nil_append] at hname
  rw [splitOn_code _ (by decide), List.splitOn_append_cons_self_of_not_mem hdev] at hname
  exact (Option.some.inj hname).symm

/-- A list of fields has a piece for each of them, even when they hold separators. -/
theorem length_lt_length_splitOn_fields (fs : List Text) :
    fs.length < ((fields fs).splitOn hash).length := by
  induction fs with
  | nil => simp
  | cons f fs ih =>
    have hpos := List.length_pos_of_ne_nil (List.splitOn_ne_nil hash f)
    rw [fields_cons, List.splitOn_append_cons_self, List.length_append, List.length_cons]
    omega

/-- The device of a GET reports as many values as there are requests. -/
theorem receiveProccessEdgex_get_length {devname msg : Text} {requests : List CommandRequest}
    {resnames : List Text} (hdev : hash ∉ devname)
    (hmsg : userGethandlerWrite devname requests = .ok msg)
    (hrecv : receiveProccessEdgex devname msg = some (.get resnames)) :
    resnames.length = requests.length := by
  obtain ⟨rfl, -⟩ := userGethandlerWrite_eq_ok.mp hmsg
  have hpieces := length_lt_length_splitOn_fields (requests.map CommandRequest.resname)
  have hsplit : (fields ([[UserCmd.get.code], devname, lit "100", decimal requests.length] ++
      requests.map CommandRequest.resname)).splitOn hash =
      [[UserCmd.get.code], devname, lit "100", decimal requests.length] ++
        (fields (requests.map CommandRequest.resname)).splitOn hash := by
    simp only [fields_cons, List.cons_append, List.nil_append]
    rw [splitOn_code _ (by decide), List.splitOn_append_cons_self_of_not_mem hdev,
      List.splitOn_append_cons_self_of_not_mem (by decide),
      List.splitOn_append_cons_self_of_not_mem (isDecimal_decimal _).hash_notMem]
  generalize (fields (requests.map CommandRequest.resname)).splitOn hash = pieces at hpieces hsplit
  rw [List.length_map] at hpieces
  have hlen : (pieces.take requests.length).length = requests.length := by
    rw [List.length_take]
    omega
  have hvalues : arrValues ([[UserCmd.get.code], devname, lit "100", decimal requests.length] ++
      pieces) = some (pieces.take requests.length) := by
    have hslice : pySlice ([[UserCmd.get.code], devname, lit "100", decimal requests.length] ++
        pieces.take requests.length ++ pieces.drop requests.length) 4
          (4 + (pieces.take requests.length).length) = pieces.take requests.length :=
      pySlice_header rfl
    rw [List.append_assoc, List.take_append_drop, hlen] at hslice
    simp [arrValues, pyInt_decimal, ← hslice]
  rw [receiveProccessEdgex, hsplit] at hrecv
  simp only [List.cons_append, List.nil_append, List.getElem?_cons_zero, List.getElem?_cons_succ,
    Option.bind_eq_bind, Option.bind_some, if_true] at hrecv hvalues
  simp only [deviceRepgetEdgex, hvalues, Option.bind_eq_bind, Option.bind_some, Option.some.injEq,
    DeviceRequest.get.injEq] at hrecv
  rw [← hrecv, hlen]

/-! ## Reading a reply -/

/-- A reply that a device can send. -/
structure Reply.Sent (r : Reply) : Prop where
  dev : hash ∉ r.dev
  values : ∀ v ∈ r.values, hash ∉ v
  length : (repgetMessage r).length < 2 ^ 31

/-- The name of a reply is read right, whatever it is. -/
theorem Reply.Sent.takeEvent_name {r : Reply} (hr : r.Sent) {ev : SensorEvent}
    (h : takeEvent (repgetMessage r) = .ok ev) : ev.name = r.dev := by
  have hsplit : repgetMessage r =
      fields [r.dev, decimal r.origin, lit "repget", decimal r.values.length] ++
        (valueWord ++ hash :: (fields r.values ++ lit "\n")) := by
    simp [repgetMessage, eventMessage]
  have hfields : ∀ f ∈ [r.dev, decimal r.origin, lit "repget", decimal r.values.length],
      hash ∉ f := by
    simpa using ⟨hr.dev, (isDecimal_decimal _).hash_notMem, by decide,
      (isDecimal_decimal _).hash_notMem⟩
  have hlen := hr.length
  rw [hsplit] at h hlen
  rw [takeEvent_header hlen hfields] at h
  obtain ⟨value, -, h⟩ := Checked.bind_eq_ok.mp h
  cases h
  rfl

/-- The whole reply is read right when the name does not end in `value`. -/
theorem Reply.Sent.takeEvent {r : Reply} (hr : r.Sent) (hname : ¬ valueWord <:+ r.dev) :
    Zigbee.takeEvent (repgetMessage r) = .ok
      { name := r.dev
        origin := UInt64.ofInt (atoi (decimal r.origin))
        commandDevice := lit "repget"
        size := UInt32.ofNat r.values.length
        value := some ⟨r.values.length, r.values, le_rfl⟩ } :=
  takeEvent_eventMessage (lit "\n") hr.length hr.dev (isDecimal_decimal _) (by decide) hr.values
    hname (by decide)

/-- The readings of the call are the values of the reply, at the types of the requests. -/
def HasValues (ft : FloatText) (c : GetCall) (r : Reply) : Prop :=
  ReadingsOf ft (UInt64.ofInt (atoi (decimal r.origin))) c.requests r.values c.readings

/-- A handler that accepts a reply is the one for its device, and stores its values. -/
theorem Reply.Sent.accepted {r : Reply} (hr : r.Sent) {readings : List CommandResult}
    (hlen : readings.length = c.requests.length) (hname : ¬ valueWord <:+ c.devname)
    (h : userRepgetEventRead ft readings c.devname c.requests (repgetMessage r) =
      .ok (true, c.readings)) : r.dev = c.devname ∧ HasValues ft c r := by
  obtain ⟨ev, hev, hevname, hread⟩ := userRepgetEventRead_true h
  have hdev : r.dev = c.devname := (hr.takeEvent_name hev).symm.trans hevname
  rw [hr.takeEvent (hdev ▸ hname)] at hev
  cases hev
  have hreadings := readReadings_readingsOf rfl hlen hread
  rw [List.drop_zero] at hreadings
  exact ⟨hdev, hreadings⟩

/-! ## Starting alone -/

namespace Phase

def active : Phase → Bool
  | .returned _ => false
  | _ => true

/-- The handler has accepted a line. -/
def succeeded : Phase → Bool
  | .parsed _ _ true | .cleared _ | .returned true => true
  | _ => false

theorem Unlocks.active {phase phase' : Phase} (h : phase.Unlocks phase') :
    phase.active = true := by
  cases h <;> rfl

/-- Unlocking the queue is no success by itself. -/
theorem Unlocks.succeeded {phase phase' : Phase} (h : phase.Unlocks phase')
    (hsucc : phase'.succeeded = true) : phase.succeeded = true := by
  cases h with
  | empty count => cases hsucc
  | rejected count strGet => cases hsucc
  | accepted strGet => rfl

end Phase

/-- The commands that a device may still answer. -/
def State.commands (s : State) : List (Tagged Text) :=
  s.queueTX.queue.items ++ s.strTx.toList ++ s.air

/-- A GET starts while no other one to its device is running, no command that its device would
answer is under way, and no reply of its device waits on the queue. Its device has a name that
messages carry unharmed. -/
def StartsAlone (s : State) : Action → Prop
  | .get _ devname _ =>
    (hash ∉ devname ∧ ¬ valueWord <:+ devname) ∧
      (∀ j c, s.call j = some c → c.phase.active = true → c.devname ≠ devname) ∧
      (∀ e ∈ s.commands, ¬ Asks devname e) ∧
      ∀ l ∈ s.queueGetHandler.queue.items, ∀ r, l.val.reply = some r → r.dev ≠ devname
  | _ => True

/-- The device of the call produced a reply to its command, with a value for each request, and the
readings are the values of that reply. -/
def Answered (ft : FloatText) (s : State) (c : GetCall) : Prop :=
  ∃ r ∈ s.replies, r.command = c.command ∧ r.dev = c.devname ∧
    r.values.length = c.requests.length ∧ HasValues ft c r

/-! ## Invariants -/

/-- Whatever the device of the call may answer or has answered belongs to the call. -/
structure Own (s : State) (c : GetCall) : Prop where
  commands : ∀ e ∈ s.commands, Asks c.devname e →
    e.tag = c.command ∧ userGethandlerWrite c.devname c.requests = .ok e.val
  lines : ∀ l ∈ s.queueGetHandler.queue.items, ∀ r, l.val.reply = some r → r.dev = c.devname →
    r.command = c.command ∧ r.values.length = c.requests.length

structure CallAnswers (ft : FloatText) (s : State) (c : GetCall) : Prop where
  name : hash ∉ c.devname ∧ ¬ valueWord <:+ c.devname
  length : c.readings.length = c.requests.length
  own : c.phase.active = true → Own s c
  answered : c.phase.succeeded = true → Answered ft s c

/-- What holds of the answers in every state that a run reaches in which GETs start alone and only
devices send lines. -/
structure AnswersInv (ft : FloatText) (s : State) : Prop where
  base : RepliesInv ft s
  lines : ∀ l ∈ s.queueGetHandler.queue.items,
    ∃ r ∈ s.replies, l.val = ⟨repgetMessage r, some r⟩ ∧ r.Sent
  calls : ∀ i c, s.call i = some c → CallAnswers ft s c
  alone : ∀ i j c d, s.call i = some c → s.call j = some d → c.phase.active = true →
    d.phase.active = true → c.devname = d.devname → i = j

theorem AnswersInv.init (ft : FloatText) : AnswersInv ft State.init where
  base := RepliesInv.init ft
  lines := by intro l h; cases h
  calls := by intro i c h; cases h
  alone := by intro i j c d h; cases h

theorem Answered.mono (h : Answered ft s c) (hreplies : s.replies ⊆ s'.replies) :
    Answered ft s' c := by
  obtain ⟨r, hr, hanswer⟩ := h
  exact ⟨r, hreplies hr, hanswer⟩

theorem CallAnswers.frame (h : CallAnswers ft s c)
    (hown : c.phase.active = true → Own s c → Own s' c) (hreplies : s.replies ⊆ s'.replies) :
    CallAnswers ft s' c where
  name := h.name
  length := h.length
  own := fun hactive => hown hactive (h.own hactive)
  answered := fun hsucc => (h.answered hsucc).mono hreplies

theorem State.mem_commands_enQueueTX {str : Text} {e : Tagged Text}
    (h : e ∈ (s.enQueueTX str).commands) : e ∈ s.commands ∨ e = s.queueTX.next str := by
  simp only [State.commands, State.enQueueTX, Ledger.push_queue, Fifo.push_items,
    List.mem_append, List.mem_singleton] at h ⊢
  rcases h with ((h | h) | h) | h
  · exact .inl (.inl (.inl (Fifo.room_subset _ h)))
  · exact .inr h
  · exact .inl (.inl (.inr h))
  · exact .inl (.inr h)

/-! ## Steps -/

/-- Steps that add no line, no reply and no command that asks anybody. -/
theorem AnswersInv.quiet (hs : AnswersInv ft s) (hbase : RepliesInv ft s')
    (hcommands : ∀ e ∈ s'.commands, e ∈ s.commands ∨ ∀ dev, ¬ Asks dev e)
    (hqueue : s'.queueGetHandler = s.queueGetHandler) (hreplies : s'.replies = s.replies)
    (hcall : ∀ i, s'.call i = s.call i) : AnswersInv ft s' where
  base := hbase
  lines := by rw [hqueue, hreplies]; exact hs.lines
  calls := by
    intro i c hc
    rw [hcall] at hc
    refine (hs.calls i c hc).frame (fun _ hown => ⟨fun e he hasks => ?_, ?_⟩) ?_
    · exact hown.commands e ((hcommands e he).resolve_right fun h => h _ hasks) hasks
    · rw [hqueue]
      exact hown.lines
    · rw [hreplies]
      exact List.Subset.refl _
  alone := by simp only [hcall]; exact hs.alone

/-- A command that asks nobody is put on the queue. -/
theorem AnswersInv.enQueueTX {str : Text} (hs : AnswersInv ft s) (hbase : RepliesInv ft s')
    (hasks : ∀ tag dev, ¬ Asks dev ⟨tag, str⟩)
    (hcommands : s'.commands = (s.enQueueTX str).commands)
    (hqueue : s'.queueGetHandler = s.queueGetHandler) (hreplies : s'.replies = s.replies)
    (hcall : ∀ i, s'.call i = s.call i) : AnswersInv ft s' := by
  refine hs.quiet hbase (fun e he => ?_) hqueue hreplies hcall
  rw [hcommands] at he
  refine (State.mem_commands_enQueueTX he).imp_right fun h => ?_
  rw [h]
  exact hasks _

/-- A GET starts alone. -/
theorem AnswersInv.get {devname : Text} {requests : List CommandRequest} (hs : AnswersInv ft s)
    (hbase : RepliesInv ft s') (hg : StartsAlone s (.get i devname requests))
    (h : stepGet s i devname requests = some s') : AnswersInv ft s' := by
  obtain ⟨strRequest, hidle, hwrite, rfl⟩ := stepGet_eq_some h
  obtain ⟨hname, hothers, hcommands, hlines⟩ := hg
  have hnew : ∀ {c}, ((s.enQueueTX strRequest).setThread i (.get c)).call i = some c :=
    State.call_setThread_self _ _ _
  have hold : ∀ {j c}, j ≠ i → ((s.enQueueTX strRequest).setThread i (.get c)).call j = s.call j :=
    fun hij => State.call_setThread_ne _ _ hij
  exact
    { base := hbase
      lines := hs.lines
      calls := by
        intro j d hd
        by_cases hij : j = i
        · subst hij
          rw [hnew] at hd
          cases hd
          refine ⟨hname, List.length_replicate, fun _ => ⟨fun e he hasks => ?_, ?_⟩, ?_⟩
          · rcases State.mem_commands_enQueueTX he with he | rfl
            · exact absurd hasks (hcommands e he)
            · exact ⟨rfl, hwrite⟩
          · exact fun l hl r hr hdev => absurd hdev (hlines l hl r hr)
          · exact fun hsucc => by cases hsucc
        · rw [hold hij] at hd
          refine (hs.calls j d hd).frame (fun hactive hown => ⟨fun e he hasks => ?_, hown.lines⟩)
            (List.Subset.refl _)
          rcases State.mem_commands_enQueueTX he with he | rfl
          · exact hown.commands e he hasks
          · exact absurd (asks_get hwrite hname.1 hasks) (hothers j d hd hactive)
      alone := by
        intro j k d d' hd hd' hactive hactive' hdev
        by_cases hj : j = i
        · by_cases hk : k = i
          · rw [hj, hk]
          · subst hj
            rw [hnew] at hd
            cases hd
            rw [hold hk] at hd'
            exact absurd hdev.symm (hothers k d' hd' hactive')
        · rw [hold hj] at hd
          by_cases hk : k = i
          · subst hk
            rw [hnew] at hd'
            cases hd'
            exact absurd hdev (hothers j d hd hactive)
          · rw [hold hk] at hd'
            exact hs.alone j k d d' hd hd' hactive hactive' hdev }

/-- A device answers a command: it is the command of the handler that waits for the device. -/
theorem AnswersInv.reply {command : Tagged Text} {dev : Text} {origin : Nat} {values : List Text}
    (hs : AnswersInv ft s) (hbase : RepliesInv ft s')
    (h : stepReply s command dev origin values = some s') : AnswersInv ft s' := by
  obtain ⟨resnames, hrecv, hair, hcount, hvalues, hlen, -, rfl⟩ := stepReply_eq_some h
  have hasks : Asks dev command := ⟨resnames, hrecv⟩
  have hmem : command ∈ s.commands := List.mem_append_right _ hair
  exact
    { base := hbase
      lines := by
        intro l hl
        rcases Fifo.mem_push.mp hl with hl | rfl
        · obtain ⟨r, hr, hline⟩ := hs.lines l (Fifo.room_subset _ hl)
          exact ⟨r, List.mem_append_left _ hr, hline⟩
        · exact ⟨_, List.mem_append_right _ (List.mem_singleton_self _), rfl,
            hasks.hash_notMem, hvalues, hlen⟩
      calls := by
        intro i c hc
        refine (hs.calls i c hc).frame
          (fun hactive hown => ⟨fun e he => ?_, fun l hl r hr hdev => ?_⟩)
          (List.subset_append_left _ _)
        · refine hown.commands e ?_
          rcases List.mem_append.mp he with he | he
          · exact List.mem_append_left _ he
          · exact List.mem_append_right _ (List.mem_of_mem_erase he)
        · rcases Fifo.mem_push.mp hl with hl | rfl
          · exact hown.lines l (Fifo.room_subset _ hl) r hr hdev
          · cases hr
            subst hdev
            obtain ⟨htag, hwrite⟩ := hown.commands command hmem hasks
            refine ⟨htag, hcount.trans ?_⟩
            exact receiveProccessEdgex_get_length (hs.calls i c hc).name.1 hwrite hrecv
      alone := hs.alone }

/-- A step of a poll, which may take a line off the queue. -/
theorem AnswersInv.poll {c' : GetCall} (hs : AnswersInv ft s) (hbase : RepliesInv ft s')
    (hcall : s.call i = some c) (hself : s'.call i = some c')
    (hother : ∀ j, j ≠ i → s'.call j = s.call j)
    (hqueue : s'.queueGetHandler.queue.items ⊆ s.queueGetHandler.queue.items)
    (hcommands : s'.commands = s.commands) (hreplies : s'.replies = s.replies)
    (hsame : c'.devname = c.devname ∧ c'.requests = c.requests ∧ c'.command = c.command)
    (hlen : c'.readings.length = c.readings.length)
    (hactive : c'.phase.active = true → c.phase.active = true)
    (hanswered : c'.phase.succeeded = true → Answered ft s c') : AnswersInv ft s' := by
  obtain ⟨hdev, hreqs, hcommand⟩ := hsame
  have hc := hs.calls i c hcall
  have hsub : s.replies ⊆ s'.replies := by rw [hreplies]; exact List.Subset.refl _
  -- a call that is active was so before
  have hbefore : ∀ j d, s'.call j = some d → d.phase.active = true →
      ∃ e, s.call j = some e ∧ e.phase.active = true ∧ e.devname = d.devname := by
    intro j d hd h
    by_cases hij : j = i
    · subst hij
      obtain rfl := Option.some.inj (hself.symm.trans hd)
      exact ⟨c, hcall, hactive h, hdev.symm⟩
    · rw [hother j hij] at hd
      exact ⟨d, hd, h, rfl⟩
  exact
    { base := hbase
      lines := by rw [hreplies]; exact fun l hl => hs.lines l (hqueue hl)
      calls := by
        intro j d hd
        by_cases hij : j = i
        · subst hij
          obtain rfl := Option.some.inj (hself.symm.trans hd)
          refine ⟨hdev ▸ hc.name, by rw [hlen, hc.length, hreqs], fun h => ?_,
            fun h => (hanswered h).mono hsub⟩
          have hown := hc.own (hactive h)
          constructor
          · rw [hcommands, hdev, hreqs, hcommand]
            exact hown.commands
          · rw [hdev, hreqs, hcommand]
            exact fun l hl => hown.lines l (hqueue hl)
        · rw [hother j hij] at hd
          refine (hs.calls j d hd).frame (fun _ hown => ⟨?_, fun l hl => ?_⟩) hsub
          · rw [hcommands]
            exact hown.commands
          · exact hown.lines l (hqueue hl)
      alone := by
        intro j k d d' hd hd' h h' heq
        obtain ⟨e, he, hact, hname⟩ := hbefore j d hd h
        obtain ⟨e', he', hact', hname'⟩ := hbefore k d' hd' h'
        exact hs.alone j k e e' he he' hact hact' (by rw [hname, hname', heq]) }

/-- A handler accepts a line: it is the reply to its own command. -/
theorem AnswersInv.answered {strGet : Tagged Line} {readings : List CommandResult}
    (hs : AnswersInv ft s) (hcall : s.call i = some c) (hactive : c.phase.active = true)
    (hfront : c.phase.strGet = some strGet)
    (hread : userRepgetEventRead ft c.readings c.devname c.requests strGet.val.text =
      .ok (true, readings)) {phase : Phase} :
    Answered ft s { c with readings := readings, phase := phase } := by
  have hc := hs.calls i c hcall
  have hmem : strGet ∈ s.queueGetHandler.queue.items :=
    List.mem_of_head? ((hs.base.calls i c hcall).front strGet hfront)
  obtain ⟨r, hr, hline, hsent⟩ := hs.lines strGet hmem
  rw [hline] at hread
  obtain ⟨hdev, hvalues⟩ := hsent.accepted
    (c := { c with readings := readings, phase := phase }) hc.length hc.name.2 hread
  obtain ⟨hcommand, hcount⟩ := (hc.own hactive).lines strGet hmem r (by rw [hline]) hdev
  exact ⟨r, hr, hcommand, hdev, hcount, hvalues⟩

theorem AnswersInv.parse (hs : AnswersInv ft s) (hbase : RepliesInv ft s')
    (h : stepParse ft s i = some s') : AnswersInv ft s' := by
  obtain ⟨c, count, strGet, result, readings, hcall, hphase, hread, rfl⟩ := stepParse_eq_some h
  have hactive : c.phase.active = true := by rw [hphase]; rfl
  refine hs.poll hbase hcall (State.call_setThread_self _ _ _)
    (fun j hj => State.call_setThread_ne _ _ hj) (List.Subset.refl _) rfl rfl ⟨rfl, rfl, rfl⟩
    (userRepgetEventRead_length hread) (fun _ => hactive) (fun hsucc => ?_)
  cases result with
  | false => cases hsucc
  | true => exact hs.answered hcall hactive (by rw [hphase]; rfl) hread

theorem AnswersInv.step (hs : AnswersInv ft s) (hg : StartsAlone s a)
    (hline : ∀ text, a ≠ .line text) (h : step ft s a = some s') : AnswersInv ft s' := by
  have hbase := hs.base.step h
  cases a with
  | get i devname requests => exact hs.get hbase hg h
  | lock i =>
    obtain ⟨c, count, hcall, -, hphase, rfl⟩ := stepLock_eq_some h
    exact hs.poll hbase hcall (State.call_setThread_self _ _ _)
      (fun j hj => State.call_setThread_ne _ _ hj) (List.Subset.refl _) rfl rfl ⟨rfl, rfl, rfl⟩ rfl
      (fun _ => by rw [hphase]; rfl) (fun hsucc => by cases hsucc)
  | peek i =>
    obtain ⟨c, count, hcall, hphase, rfl⟩ := stepPeek_eq_some h
    exact hs.poll hbase hcall (State.call_setThread_self _ _ _)
      (fun j hj => State.call_setThread_ne _ _ hj) (List.Subset.refl _) rfl rfl ⟨rfl, rfl, rfl⟩ rfl
      (fun _ => by rw [hphase]; rfl) (fun hsucc => by cases hsucc)
  | parse i => exact hs.parse hbase h
  | clear i =>
    obtain ⟨c, count, strGet, hcall, hphase, rfl⟩ := stepClear_eq_some h
    exact hs.poll hbase hcall (State.call_setThread_self _ _ _)
      (fun j hj => State.call_setThread_ne _ _ hj) (List.tail_subset _) rfl rfl ⟨rfl, rfl, rfl⟩ rfl
      (fun _ => by rw [hphase]; rfl)
      (fun _ => (hs.calls i c hcall).answered (by rw [hphase]; rfl))
  | unlock i =>
    obtain ⟨c, phase, hcall, hphase, rfl⟩ := stepUnlock_eq_some h
    have hc := hs.calls i c hcall
    refine hs.poll hbase hcall (State.call_setThread_self _ _ _)
      (fun j hj => State.call_setThread_ne _ _ hj) (List.Subset.refl _) rfl rfl ⟨rfl, rfl, rfl⟩ rfl
      (fun _ => hphase.active) (fun hsucc => hc.answered (hphase.succeeded hsucc))
  | giveUp i =>
    obtain ⟨c, hcall, hphase, rfl⟩ := stepGiveUp_eq_some h
    exact hs.poll hbase hcall (State.call_setThread_self _ _ _)
      (fun j hj => State.call_setThread_ne _ _ hj) (List.Subset.refl _) rfl rfl ⟨rfl, rfl, rfl⟩ rfl
      (fun _ => by rw [hphase]; rfl) (fun hsucc => by cases hsucc)
  | put i devname requests values =>
    obtain ⟨strRequest, hidle, hwrite, rfl⟩ := stepPut_eq_some h
    refine hs.enQueueTX hbase (fun tag => not_asks_put hwrite) rfl rfl rfl fun j => ?_
    by_cases hij : j = i
    · subst hij
      rw [State.call_setThread_put, State.call_idle hidle]
    · rw [State.call_setThread_ne _ _ hij]
      rfl
  | discover =>
    cases h
    exact hs.enQueueTX hbase (fun tag => not_asks_of_code (by decide) (by decide)) rfl rfl rfl
      fun _ => rfl
  | addDevice devname mac addr =>
    cases h
    exact hs.enQueueTX hbase (fun tag => not_asks_of_code (by decide) (by decide)) rfl rfl rfl
      fun _ => rfl
  | txTake =>
    obtain ⟨strTx, hnone, hfront, rfl⟩ := stepTxTake_eq_some h
    obtain ⟨es, hes⟩ := List.head?_eq_some_iff.mp hfront
    refine hs.quiet hbase (fun e he => .inl ?_) rfl rfl fun _ => rfl
    simpa [State.commands, hes, hnone, or_assoc, or_left_comm] using he
  | txWrite =>
    obtain ⟨strTx, hsome, rfl⟩ := stepTxWrite_eq_some h
    refine hs.quiet hbase (fun e he => .inl ?_) rfl rfl fun _ => rfl
    simpa [State.commands, hsome, or_assoc, or_comm, or_left_comm] using he
  | reply command dev origin values => exact hs.reply hbase h
  | line text => exact absurd rfl (hline text)

/-! ## Runs -/

/-- When only devices send lines and every GET starts alone, a GET that returned true has the values
of a reply of its device to its own command: in every run, and whatever the delays. -/
theorem gets_answered {acts : List Action} (hlines : ∀ text, .line text ∉ acts)
    (hg : Machine.Guarded (Zigbee.step ft) StartsAlone State.init acts)
    (hrun : Machine.run (Zigbee.step ft) State.init acts = some s) :
    ∀ i c, s.call i = some c → c.phase = .returned true → Answered ft s c := by
  have hno : ∀ a ∈ acts, ∀ text, a ≠ .line text := fun a ha text h => hlines text (h ▸ ha)
  have hs : AnswersInv ft s := (hg.and_forall_mem hno).invariant
    (fun hs hguard h => hs.step hguard.1 hguard.2 h) hrun (AnswersInv.init ft)
  exact fun i c hcall hphase => (hs.calls i c hcall).answered (by rw [hphase]; rfl)

/-- In the beginning every GET to a proper name is alone. -/
theorem StartsAlone.init {devname : Text} {requests : List CommandRequest}
    (hname : hash ∉ devname ∧ ¬ valueWord <:+ devname) :
    StartsAlone State.init (.get i devname requests) := by
  refine ⟨hname, fun j c h => ?_, fun e he => ?_, fun l hl => ?_⟩
  · cases h
  · cases he
  · cases hl

theorem gets_answered_demo :
    ∃ s c, Machine.run (Zigbee.step FloatText.empty) State.init demoExchange = some s ∧
      s.call 0 = some c ∧ c.phase = .returned true ∧ Answered FloatText.empty s c := by
  have hphase : ((Machine.run (Zigbee.step FloatText.empty) State.init demoExchange).bind
      (·.call 0)).map GetCall.phase = some (.returned true) := by decide
  obtain ⟨c, hc, hphase⟩ := Option.map_eq_some_iff.mp hphase
  obtain ⟨s, hs, hcall⟩ := Option.bind_eq_some_iff.mp hc
  have hg : Machine.Guarded (Zigbee.step FloatText.empty) StartsAlone State.init demoExchange := by
    refine ⟨StartsAlone.init (by decide), fun t _ => ?_⟩
    refine Machine.Guarded.of_forall_mem (fun u a ha => ?_) t
    simp only [List.mem_cons, List.not_mem_nil, or_false] at ha
    rcases ha with rfl | rfl | rfl | rfl | rfl | rfl | rfl | rfl <;> trivial
  exact ⟨s, c, hs, hcall, hphase,
    gets_answered (fun text h => by simp [demoExchange] at h) hg hs 0 c hcall hphase⟩

/-- Two handlers ask one device for different resources. The second one takes the reply to the first
while its own command has not left the queue. -/
theorem get_answered_by_other :
    let acts : List Action :=
      [.get 0 (lit "RandomDevice1") [⟨lit "SensorOne", .int32⟩],
        .get 1 (lit "RandomDevice1") [⟨lit "SensorTwo", .int32⟩], .txTake, .txWrite,
        .reply ⟨0, lit "b#RandomDevice1#100#1#SensorOne#"⟩ (lit "RandomDevice1") 60 [lit "30"],
        .lock 1, .peek 1, .parse 1, .clear 1, .unlock 1]
    ∃ s c, Machine.run (Zigbee.step FloatText.empty) State.init acts = some s ∧
      s.call 1 = some c ∧ c.phase = .returned true ∧ ¬ Answered FloatText.empty s c := by
  intro acts
  have hfacts : (Machine.run (Zigbee.step FloatText.empty) State.init acts).bind
      (fun s => (s.call 1).map fun c => (c.phase, c.command, s.replies.map Reply.command)) =
      some (.returned true, 1, [0]) := by decide
  obtain ⟨s, hs, hfacts⟩ := Option.bind_eq_some_iff.mp hfacts
  obtain ⟨c, hcall, hfacts⟩ := Option.map_eq_some_iff.mp hfacts
  simp only [Prod.mk.injEq] at hfacts
  obtain ⟨hphase, hcommand, hreplies⟩ := hfacts
  refine ⟨s, c, hs, hcall, hphase, ?_⟩
  rintro ⟨r, hr, heq, -⟩
  have hmem := List.mem_map_of_mem (f := Reply.command) hr
  rw [hreplies, List.mem_singleton, heq, hcommand] at hmem
  cases hmem

end Zigbee
