-- SUMMARY: The driver as a step machine: concurrent GET and PUT handlers, the TX thread, the devices behind the radio and the RX thread.
import ZigbeeService.Command.Codec
import ZigbeeService.Lib.Ledger
import ZigbeeService.Lib.Machine
import ZigbeeService.Message.Reading

/-!
# The driver

The threads of the driver share two queues. `QueueTX` carries commands to the TX thread, and each of
its calls holds the queue's mutex from begin to end, so a call is one step. `QueueGetHandler`
carries lines from the RX thread to the GET handlers, which lock it around their own sequence of
calls, so each of these is a step of its own, and who holds the lock is part of the state.

Entries are numbered. The numbers, and the notes of what a line answers, are there to say what
became of an entry: no step depends on them.
-/

namespace Zigbee

open CLib

/-! ## States -/

/-- What a device answered: the number of the command, and the contents of the reply. -/
structure Reply where
  command : Nat
  dev : Text
  origin : Nat
  values : List Text
  deriving DecidableEq

/-- A line for the GET handlers. It is a reply to a command unless it came from somewhere else. -/
structure Line where
  text : Text
  reply : Option Reply
  deriving DecidableEq

/-- How far a call of `random_get_handler` has come. `count` is the number of polls it has left. -/
inductive Phase where
  /-- Between two polls. -/
  | polling (count : Nat)
  /-- Behind `lock_queue`. -/
  | holding (count : Nat)
  /-- Behind `readQNode`. -/
  | peeked (count : Nat) (strGet : Option (Tagged Line))
  /-- Behind `user_repget_event_read`. -/
  | parsed (count : Nat) (strGet : Tagged Line) (result : Bool)
  /-- Behind `clearQNode`. -/
  | cleared (strGet : Tagged Line)
  | returned (result : Bool)
  deriving DecidableEq

/-- A call of `random_get_handler`: its arguments, the number of the command it sent, and what it
has stored in the readings. -/
structure GetCall where
  devname : Text
  requests : List CommandRequest
  command : Nat
  readings : List CommandResult
  phase : Phase
  deriving DecidableEq

inductive Thread where
  | idle
  | get (call : GetCall)
  /-- A call of `random_put_handler` that sent a command and returned its result. -/
  | put (command : Nat) (result : Bool)
  deriving DecidableEq

structure State where
  queueTX : Ledger Text
  /-- What TX has dequeued and not written yet. -/
  strTx : Option (Tagged Text)
  /-- What TX has written to the radio, oldest first. -/
  written : List (Tagged Text)
  /-- The commands that were sent and that no device has answered. -/
  air : List (Tagged Text)
  queueGetHandler : Ledger Line
  /-- Who holds the mutex of `QueueGetHandler`. -/
  owner : Option Nat
  /-- The handlers that took a line off `QueueGetHandler`, each with the line it had parsed. -/
  claims : List (Nat × Tagged Line)
  /-- The replies of the devices. -/
  replies : List Reply
  threads : Nat → Thread

/-- The queues are created with a capacity of 10. -/
def State.init : State where
  queueTX := Ledger.empty 10 (Nat.succ_pos 9)
  strTx := none
  written := []
  air := []
  queueGetHandler := Ledger.empty 10 (Nat.succ_pos 9)
  owner := none
  claims := []
  replies := []
  threads := fun _ => .idle

namespace State

def setThread (s : State) (i : Nat) (t : Thread) : State :=
  { s with threads := Function.update s.threads i t }

/-- `enQueue (QueueTX, str)`. -/
def enQueueTX (s : State) (str : Text) : State := { s with queueTX := s.queueTX.push str }

/-- The RX thread puts a line on `QueueGetHandler`, which it can only do while no handler holds the
lock. -/
def enQueueGet (s : State) (line : Line) : Option State :=
  if s.owner = none then some { s with queueGetHandler := s.queueGetHandler.push line } else none

/-- The texts on `QueueTX`. -/
def texts (s : State) : Fifo Text := s.queueTX.queue.map Tagged.val

/-- The texts on `QueueGetHandler`. -/
def lines (s : State) : Fifo Text := s.queueGetHandler.queue.map fun line => line.val.text

/-- The call that thread `i` is in. -/
def call (s : State) (i : Nat) : Option GetCall :=
  match s.threads i with
  | .get c => some c
  | _ => none

end State

/-! ## Steps of the handlers -/

/-- The polls of one call. -/
def pollCount : Nat := 5000

/-- `random_get_handler` up to its poll loop. The caller's readings are zeroed. A request that does
not fit its buffer has no next state. -/
def stepGet (s : State) (i : Nat) (devname : Text) (requests : List CommandRequest) :
    Option State :=
  match s.threads i, userGethandlerWrite devname requests with
  | .idle, .ok strRequest =>
    some ((s.enQueueTX strRequest).setThread i (.get
      { devname := devname
        requests := requests
        command := s.queueTX.log.length
        readings := List.replicate requests.length CommandResult.zero
        phase := .polling pollCount }))
  | _, _ => none

/-- `lock_queue`, at the start of a poll. -/
def stepLock (s : State) (i : Nat) : Option State :=
  match s.call i, s.owner with
  | some c, none =>
    match c.phase with
    | .polling (count + 1) =>
      some ({ s with owner := some i }.setThread i (.get { c with phase := .holding count }))
    | _ => none
  | _, _ => none

/-- `readQNode`. -/
def stepPeek (s : State) (i : Nat) : Option State :=
  match s.call i with
  | some c =>
    match c.phase with
    | .holding count =>
      some (s.setThread i (.get { c with phase := .peeked count s.queueGetHandler.queue.front }))
    | _ => none
  | none => none

/-- `user_repget_event_read`. A fault has no next state. -/
def stepParse (ft : FloatText) (s : State) (i : Nat) : Option State :=
  match s.call i with
  | some c =>
    match c.phase with
    | .peeked count (some strGet) =>
      match userRepgetEventRead ft c.readings c.devname c.requests strGet.val.text with
      | .ok (result, readings) =>
        some (s.setThread i
          (.get { c with readings := readings, phase := .parsed count strGet result }))
      | .error _ => none
    | _ => none
  | none => none

/-- `clearQNode`. -/
def stepClear (s : State) (i : Nat) : Option State :=
  match s.call i with
  | some c =>
    match c.phase with
    | .parsed _ strGet true =>
      some ({ s with
        queueGetHandler := s.queueGetHandler.take
        claims := s.claims ++ [(i, strGet)] }.setThread i
          (.get { c with phase := .cleared strGet }))
    | _ => none
  | none => none

/-- `unlock_queue`: at the end of a poll, or on the way out with a reply. -/
def stepUnlock (s : State) (i : Nat) : Option State :=
  match s.call i with
  | some c =>
    match c.phase with
    | .peeked count none | .parsed count _ false =>
      some ({ s with owner := none }.setThread i (.get { c with phase := .polling count }))
    | .cleared _ =>
      some ({ s with owner := none }.setThread i (.get { c with phase := .returned true }))
    | _ => none
  | none => none

/-- The end of the poll loop. -/
def stepGiveUp (s : State) (i : Nat) : Option State :=
  match s.call i with
  | some c =>
    match c.phase with
    | .polling 0 => some (s.setThread i (.get { c with phase := .returned false }))
    | _ => none
  | none => none

/-- `random_put_handler`. -/
def stepPut (ft : FloatText) (s : State) (i : Nat) (devname : Text)
    (requests : List CommandRequest) (values : List CommandResult) : Option State :=
  match s.threads i, userPuthandlerWrite ft devname requests values with
  | .idle, .ok strRequest =>
    some ((s.enQueueTX strRequest).setThread i (.put s.queueTX.log.length true))
  | _, _ => none

/-! ## Steps of the other threads and of the devices -/

/-- TX dequeues a command. -/
def stepTxTake (s : State) : Option State :=
  match s.strTx, s.queueTX.queue.front with
  | none, some strTx => some { s with queueTX := s.queueTX.take, strTx := some strTx }
  | _, _ => none

/-- TX writes the command it holds. -/
def stepTxWrite (s : State) : Option State :=
  match s.strTx with
  | some strTx =>
    some { s with strTx := none, written := s.written ++ [strTx], air := s.air ++ [strTx] }
  | none => none

/-- The layout of `template_repget`, behind its command and up to the end of its line. -/
def repgetMessage (r : Reply) : Text :=
  eventMessage r.dev (decimal r.origin) (lit "repget") r.values ++ lit "\n"

/-- Device `dev` answers a GET command that was sent to it, with a value for each resource, and the
RX thread puts the reply on `QueueGetHandler`. -/
def stepReply (s : State) (command : Tagged Text) (dev : Text) (origin : Nat)
    (values : List Text) : Option State :=
  match receiveProccessEdgex dev command.val with
  | some (.get resnames) =>
    let reply : Reply := ⟨command.tag, dev, origin, values⟩
    if command ∈ s.air ∧ values.length = resnames.length ∧ (∀ v ∈ values, hash ∉ v) ∧
        (repgetMessage reply).length < 2 ^ 31 then
      { s with
        air := s.air.erase command
        replies := s.replies ++ [reply] }.enQueueGet ⟨repgetMessage reply, some reply⟩
    else none
  | _ => none

/-! ## The machine -/

inductive Action where
  | get (i : Nat) (devname : Text) (requests : List CommandRequest)
  | lock (i : Nat)
  | peek (i : Nat)
  | parse (i : Nat)
  | clear (i : Nat)
  | unlock (i : Nat)
  | giveUp (i : Nat)
  | put (i : Nat) (devname : Text) (requests : List CommandRequest) (values : List CommandResult)
  /-- `random_discover` asks for new devices. -/
  | discover
  /-- `user_add_new_device` sends a new device its identity. -/
  | addDevice (devname mac addr : Text)
  | txTake
  | txWrite
  | reply (command : Tagged Text) (dev : Text) (origin : Nat) (values : List Text)
  /-- RX reads a line for the GET handlers that no device sent as a reply. -/
  | line (text : Text)
  deriving DecidableEq

def step (ft : FloatText) (s : State) : Action → Option State
  | .get i devname requests => stepGet s i devname requests
  | .lock i => stepLock s i
  | .peek i => stepPeek s i
  | .parse i => stepParse ft s i
  | .clear i => stepClear s i
  | .unlock i => stepUnlock s i
  | .giveUp i => stepGiveUp s i
  | .put i devname requests values => stepPut ft s i devname requests values
  | .discover => some (s.enQueueTX (lit "d#newdevice#"))
  | .addDevice devname mac addr =>
    some (s.enQueueTX (fields [[UserCmd.addDevice.code], devname, mac, addr, addr]))
  | .txTake => stepTxTake s
  | .txWrite => stepTxWrite s
  | .reply command dev origin values => stepReply s command dev origin values
  | .line text => s.enQueueGet ⟨text, none⟩

/-! ## What a step can do -/

namespace State

@[simp] theorem setThread_owner (s : State) (i : Nat) (t : Thread) :
    (s.setThread i t).owner = s.owner := rfl

@[simp] theorem setThread_claims (s : State) (i : Nat) (t : Thread) :
    (s.setThread i t).claims = s.claims := rfl

@[simp] theorem setThread_queueGetHandler (s : State) (i : Nat) (t : Thread) :
    (s.setThread i t).queueGetHandler = s.queueGetHandler := rfl

@[simp] theorem call_setThread_self (s : State) (i : Nat) (c : GetCall) :
    (s.setThread i (.get c)).call i = some c := by
  simp [call, setThread]

@[simp] theorem call_setThread_put (s : State) (i n : Nat) (b : Bool) :
    (s.setThread i (.put n b)).call i = none := by
  simp [call, setThread]

theorem call_setThread_ne {i j : Nat} (s : State) (t : Thread) (h : j ≠ i) :
    (s.setThread i t).call j = s.call j := by
  simp [call, setThread, Function.update_of_ne h]

theorem call_idle {s : State} {i : Nat} (h : s.threads i = .idle) : s.call i = none := by
  simp [call, h]

theorem enQueueGet_eq_some {s s' : State} {line : Line} (h : s.enQueueGet line = some s') :
    s.owner = none ∧ s' = { s with queueGetHandler := s.queueGetHandler.push line } := by
  unfold enQueueGet at h
  split at h
  · next howner => exact ⟨howner, (Option.some.inj h).symm⟩
  · cases h

end State

variable {ft : FloatText} {s s' : State} {i : Nat}

theorem stepGet_eq_some {devname : Text} {requests : List CommandRequest}
    (h : stepGet s i devname requests = some s') :
    ∃ strRequest, s.threads i = .idle ∧ userGethandlerWrite devname requests = .ok strRequest ∧
      s' = (s.enQueueTX strRequest).setThread i (.get
        ⟨devname, requests, s.queueTX.log.length,
          List.replicate requests.length CommandResult.zero, .polling pollCount⟩) := by
  unfold stepGet at h
  split at h
  · next strRequest hidle hwrite => exact ⟨strRequest, hidle, hwrite, (Option.some.inj h).symm⟩
  · cases h

theorem stepLock_eq_some (h : stepLock s i = some s') :
    ∃ c count, s.call i = some c ∧ s.owner = none ∧ c.phase = .polling (count + 1) ∧
      s' = { s with owner := some i }.setThread i (.get { c with phase := .holding count }) := by
  unfold stepLock at h
  split at h
  case h_2 => cases h
  case h_1 c hcall howner =>
    split at h
    · next count hphase => exact ⟨c, count, hcall, howner, hphase, (Option.some.inj h).symm⟩
    · cases h

theorem stepPeek_eq_some (h : stepPeek s i = some s') :
    ∃ c count, s.call i = some c ∧ c.phase = .holding count ∧
      s' = s.setThread i
        (.get { c with phase := .peeked count s.queueGetHandler.queue.front }) := by
  unfold stepPeek at h
  split at h
  case h_2 => cases h
  case h_1 c hcall =>
    split at h
    · next count hphase => exact ⟨c, count, hcall, hphase, (Option.some.inj h).symm⟩
    · cases h

theorem stepParse_eq_some (h : stepParse ft s i = some s') :
    ∃ c count strGet result readings, s.call i = some c ∧ c.phase = .peeked count (some strGet) ∧
      userRepgetEventRead ft c.readings c.devname c.requests strGet.val.text =
        .ok (result, readings) ∧
      s' = s.setThread i
        (.get { c with readings := readings, phase := .parsed count strGet result }) := by
  unfold stepParse at h
  split at h
  case h_2 => cases h
  case h_1 c hcall =>
    split at h
    case h_2 => cases h
    case h_1 count strGet hphase =>
      split at h
      · next result readings hread =>
        exact ⟨c, count, strGet, result, readings, hcall, hphase, hread, (Option.some.inj h).symm⟩
      · cases h

theorem stepClear_eq_some (h : stepClear s i = some s') :
    ∃ c count strGet, s.call i = some c ∧ c.phase = .parsed count strGet true ∧
      s' = { s with
        queueGetHandler := s.queueGetHandler.take
        claims := s.claims ++ [(i, strGet)] }.setThread i
          (.get { c with phase := .cleared strGet }) := by
  unfold stepClear at h
  split at h
  case h_2 => cases h
  case h_1 c hcall =>
    split at h
    · next count strGet hphase => exact ⟨c, count, strGet, hcall, hphase, (Option.some.inj h).symm⟩
    · cases h

/-- The phases between which `unlock_queue` leads. -/
inductive Phase.Unlocks : Phase → Phase → Prop where
  | empty (count : Nat) : Unlocks (.peeked count none) (.polling count)
  | rejected (count : Nat) (strGet : Tagged Line) :
      Unlocks (.parsed count strGet false) (.polling count)
  | accepted (strGet : Tagged Line) : Unlocks (.cleared strGet) (.returned true)

theorem stepUnlock_eq_some (h : stepUnlock s i = some s') :
    ∃ c phase, s.call i = some c ∧ c.phase.Unlocks phase ∧
      s' = { s with owner := none }.setThread i (.get { c with phase := phase }) := by
  unfold stepUnlock at h
  split at h
  case h_2 => cases h
  case h_1 c hcall =>
    split at h
    · next count hphase =>
      exact ⟨c, _, hcall, hphase ▸ .empty count, (Option.some.inj h).symm⟩
    · next count strGet hphase =>
      exact ⟨c, _, hcall, hphase ▸ .rejected count strGet, (Option.some.inj h).symm⟩
    · next strGet hphase =>
      exact ⟨c, _, hcall, hphase ▸ .accepted strGet, (Option.some.inj h).symm⟩
    · cases h

theorem stepGiveUp_eq_some (h : stepGiveUp s i = some s') :
    ∃ c, s.call i = some c ∧ c.phase = .polling 0 ∧
      s' = s.setThread i (.get { c with phase := .returned false }) := by
  unfold stepGiveUp at h
  split at h
  case h_2 => cases h
  case h_1 c hcall =>
    split at h
    · next hphase => exact ⟨c, hcall, hphase, (Option.some.inj h).symm⟩
    · cases h

theorem stepPut_eq_some {devname : Text} {requests : List CommandRequest}
    {values : List CommandResult} (h : stepPut ft s i devname requests values = some s') :
    ∃ strRequest, s.threads i = .idle ∧
      userPuthandlerWrite ft devname requests values = .ok strRequest ∧
      s' = (s.enQueueTX strRequest).setThread i (.put s.queueTX.log.length true) := by
  unfold stepPut at h
  split at h
  · next strRequest hidle hwrite => exact ⟨strRequest, hidle, hwrite, (Option.some.inj h).symm⟩
  · cases h

theorem stepTxTake_eq_some (h : stepTxTake s = some s') :
    ∃ strTx, s.strTx = none ∧ s.queueTX.queue.front = some strTx ∧
      s' = { s with queueTX := s.queueTX.take, strTx := some strTx } := by
  unfold stepTxTake at h
  split at h
  · next strTx hnone hfront => exact ⟨strTx, hnone, hfront, (Option.some.inj h).symm⟩
  · cases h

theorem stepTxWrite_eq_some (h : stepTxWrite s = some s') :
    ∃ strTx, s.strTx = some strTx ∧
      s' = { s with strTx := none, written := s.written ++ [strTx], air := s.air ++ [strTx] } := by
  unfold stepTxWrite at h
  split at h
  · next strTx hsome => exact ⟨strTx, hsome, (Option.some.inj h).symm⟩
  · cases h

/-- A reply takes its command out of the air, and is put on the queue while nobody holds the
lock. -/
theorem stepReply_eq_some {command : Tagged Text} {dev : Text} {origin : Nat}
    {values : List Text} (h : stepReply s command dev origin values = some s') :
    ∃ resnames, receiveProccessEdgex dev command.val = some (.get resnames) ∧
      command ∈ s.air ∧ values.length = resnames.length ∧ (∀ v ∈ values, hash ∉ v) ∧
      (repgetMessage ⟨command.tag, dev, origin, values⟩).length < 2 ^ 31 ∧ s.owner = none ∧
      s' = { s with
        air := s.air.erase command
        replies := s.replies ++ [⟨command.tag, dev, origin, values⟩]
        queueGetHandler := s.queueGetHandler.push
          ⟨repgetMessage ⟨command.tag, dev, origin, values⟩,
            some ⟨command.tag, dev, origin, values⟩⟩ } := by
  unfold stepReply at h
  split at h
  case h_2 => cases h
  case h_1 resnames hrecv =>
    dsimp only at h
    split at h
    case isFalse => cases h
    case isTrue hsend =>
      obtain ⟨hair, hcount, hvalues, hlen⟩ := hsend
      obtain ⟨howner, rfl⟩ := State.enQueueGet_eq_some h
      exact ⟨resnames, hrecv, hair, hcount, hvalues, hlen, howner, rfl⟩

/-- The handler whose poll the action is part of. -/
def Action.poller : Action → Option Nat
  | .lock i | .peek i | .parse i | .clear i | .unlock i | .giveUp i => some i
  | _ => none

/-- A step of a poll concerns the handler, the lock and the lines, and leaves the arguments of the
call alone. -/
theorem step_poller {a : Action} (h : step ft s a = some s') (ha : a.poller = some i) :
    ∃ c c' owner queue claims, s.call i = some c ∧
      s' = { s with owner := owner, queueGetHandler := queue, claims := claims }.setThread i
        (.get c') ∧
      (queue = s.queueGetHandler ∨ queue = s.queueGetHandler.take) ∧
      c'.devname = c.devname ∧ c'.requests = c.requests ∧ c'.command = c.command := by
  cases a with
  | lock j =>
    cases ha
    obtain ⟨c, count, hcall, -, -, rfl⟩ := stepLock_eq_some h
    exact ⟨c, _, _, _, _, hcall, rfl, .inl rfl, rfl, rfl, rfl⟩
  | peek j =>
    cases ha
    obtain ⟨c, count, hcall, -, rfl⟩ := stepPeek_eq_some h
    exact ⟨c, _, s.owner, s.queueGetHandler, s.claims, hcall, rfl, .inl rfl, rfl, rfl, rfl⟩
  | parse j =>
    cases ha
    obtain ⟨c, count, strGet, result, readings, hcall, -, -, rfl⟩ := stepParse_eq_some h
    exact ⟨c, _, s.owner, s.queueGetHandler, s.claims, hcall, rfl, .inl rfl, rfl, rfl, rfl⟩
  | clear j =>
    cases ha
    obtain ⟨c, count, strGet, hcall, -, rfl⟩ := stepClear_eq_some h
    exact ⟨c, _, _, _, _, hcall, rfl, .inr rfl, rfl, rfl, rfl⟩
  | unlock j =>
    cases ha
    obtain ⟨c, phase, hcall, -, rfl⟩ := stepUnlock_eq_some h
    exact ⟨c, _, _, _, _, hcall, rfl, .inl rfl, rfl, rfl, rfl⟩
  | giveUp j =>
    cases ha
    obtain ⟨c, hcall, -, rfl⟩ := stepGiveUp_eq_some h
    exact ⟨c, _, s.owner, s.queueGetHandler, s.claims, hcall, rfl, .inl rfl, rfl, rfl, rfl⟩
  | get | put | discover | addDevice | txTake | txWrite | reply | line => cases ha

end Zigbee
