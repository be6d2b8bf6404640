-- SUMMARY: The linked queue of user_queue.c, and its refinement of a bounded drop-oldest FIFO.
import Mathlib.Data.UInt
import ZigbeeService.Lib.Fifo
import ZigbeeService.Lib.LinkedList
import ZigbeeService.Lib.Machine
import ZigbeeService.Lib.Text

/-!
# The linked queue

The functions of `user_queue.c` on a heap of nodes. A queue is shared by threads, but each function
holds the queue's mutex from its first access to its last (`readQNode` and `clearQNode` leave the
locking to their caller), so what a call does is a function of the queue it finds.
-/

namespace Zigbee

open CLib LinkedList

/-- `QNode`: the entry's own copy of its string, and the next node. -/
abbrev QNode := LinkedList.Node Text

/-- `Queue`, without its mutex. -/
structure Queue where
  cap : UInt16
  size : UInt16
  front : Option Addr
  rear : Option Addr
  deriving DecidableEq

/-- A queue and the heap its nodes live in. -/
structure QueueMem where
  mem : Heap Text
  q : Queue

/-! ## The functions of user_queue.c -/

def newNode (malloc : Malloc Text) (mem : Heap Text) (str : Text) : Addr × Heap Text :=
  let temp := malloc.pick mem
  (temp, mem.insert temp ⟨str, none⟩)

def createQueue (cap : UInt16) : QueueMem :=
  { mem := ∅, q := { cap := cap, size := 0, front := none, rear := none } }

/-- Move the front one node ahead, and free the node it leaves. -/
def dropFront (s : QueueMem) (temp : Addr) (node : QNode) : QueueMem :=
  let q := { s.q with front := node.next, size := s.q.size - 1 }
  { mem := s.mem.erase temp
    q := if q.front = none then { q with rear := none } else q }

def clearQNode (s : QueueMem) : Checked QueueMem :=
  match s.q.front with
  | none => .ok s
  | some temp =>
    match s.mem.lookup temp with
    | none => .error .danglingPointer
    | some node => .ok (dropFront s temp node)

/-- The second half of `enQueue`: hang the new node behind the rear, or start the list with it. -/
def linkNode (s : QueueMem) (temp : Addr) : Checked QueueMem :=
  let q := { s.q with size := s.q.size + 1 }
  match q.rear with
  | none => .ok { s with q := { q with front := some temp, rear := some temp } }
  | some rear =>
    match s.mem.lookup rear with
    | none => .error .danglingPointer
    | some node =>
      .ok { mem := s.mem.insert rear { node with next := some temp }
            q := { q with rear := some temp } }

/-- The overflow path of `enQueue`: a full queue loses its first node. -/
def evictIfFull (s : QueueMem) : Checked QueueMem :=
  if s.q.size = s.q.cap then clearQNode s else .ok s

def enQueue (malloc : Malloc Text) (s : QueueMem) (str : Text) : Checked QueueMem := do
  let (temp, mem) := newNode malloc s.mem str
  let s ← evictIfFull { s with mem := mem }
  linkNode s temp

def readQNode (s : QueueMem) : Checked (Option Text) :=
  match s.q.front with
  | none => .ok none
  | some front =>
    match s.mem.lookup front with
    | none => .error .danglingPointer
    | some node => .ok (some node.val)

def sizeQueue (s : QueueMem) : UInt16 := s.q.size

def deQueue (s : QueueMem) : Checked (Option Text × QueueMem) :=
  match s.q.front with
  | none => .ok (none, s)
  | some temp =>
    match s.mem.lookup temp with
    | none => .error .danglingPointer
    | some node => .ok (some node.val, dropFront s temp node)

/-! ## The shape invariant -/

/-- The list of the queue is `ns`, and its counter counts them. -/
structure QueueMem.Holds (s : QueueMem) (ns : List (Addr × Text)) : Prop where
  isList : IsList s.mem s.q.front s.q.rear ns
  size_eq : s.q.size.toNat = ns.length

namespace QueueMem.Holds

variable {s : QueueMem} {ns : List (Addr × Text)}

theorem createQueue (cap : UInt16) : (Zigbee.createQueue cap).Holds [] where
  isList := IsList.empty
  size_eq := rfl

/-- Taking the first node off the list. -/
theorem dropFront {a : Addr} {v : Text} (hs : s.Holds ((a, v) :: ns)) :
    s.q.front = some a ∧ ∃ node : QNode, s.mem.lookup a = some node ∧ node.val = v ∧
      (Zigbee.dropFront s a node).Holds ns ∧ (Zigbee.dropFront s a node).q.cap = s.q.cap := by
  obtain ⟨hfront, next, hlook, hl⟩ := hs.isList.pop
  have hsize := hs.size_eq
  rw [List.length_cons] at hsize
  have hpred : (s.q.size - 1).toNat = ns.length := by
    have hle : 1 ≤ s.q.size := by rw [UInt16.le_iff_toNat_le]; simp; omega
    rw [UInt16.toNat_sub_of_le _ _ hle]
    simp; omega
  refine ⟨hfront, ⟨v, next⟩, hlook, rfl, ⟨?_, ?_⟩, ?_⟩
  · cases next <;> simpa [Zigbee.dropFront] using hl
  · cases next <;> simpa [Zigbee.dropFront] using hpred
  · cases next <;> rfl

/-- `clearQNode` drops the first node, if there is one, and touches no other. -/
theorem clearQNode (hs : s.Holds ns) :
    ∃ s', Zigbee.clearQNode s = .ok s' ∧ s'.Holds ns.tail ∧ s'.q.cap = s.q.cap ∧
      ∀ t, t ∉ ns.map Prod.fst → s'.mem.lookup t = s.mem.lookup t := by
  cases ns with
  | nil =>
    have hfront : s.q.front = none := hs.isList.front_eq_none_iff.mpr rfl
    exact ⟨s, by simp [Zigbee.clearQNode, hfront], hs, rfl, fun _ _ => rfl⟩
  | cons n ns =>
    obtain ⟨a, v⟩ := n
    obtain ⟨hfront, node, hlook, -, hdrop, hcap⟩ := hs.dropFront
    refine ⟨_, by simp only [Zigbee.clearQNode, hfront, hlook], hdrop, hcap, fun t ht => ?_⟩
    rw [List.map_cons, List.mem_cons, not_or] at ht
    exact Finmap.lookup_erase_ne ht.1

/-- Making room leaves the nodes that the abstract queue keeps, and touches no node outside the
list. -/
theorem evictIfFull {f : Fifo Text} (hs : s.Holds ns) (hitems : ns.map Prod.snd = f.items)
    (hcap : s.q.cap.toNat = f.cap) :
    ∃ s' ms, Zigbee.evictIfFull s = .ok s' ∧ s'.Holds ms ∧ s'.q.cap = s.q.cap ∧
      ms.map Prod.snd = f.room ∧ (∀ a ∈ ms.map Prod.fst, a ∈ ns.map Prod.fst) ∧
      ∀ t, t ∉ ns.map Prod.fst → s'.mem.lookup t = s.mem.lookup t := by
  have hfull : s.q.size = s.q.cap ↔ f.items.length = f.cap := by
    rw [← UInt16.toNat_inj, hs.size_eq, hcap, ← hitems, List.length_map]
  unfold Zigbee.evictIfFull Fifo.room
  by_cases hsz : s.q.size = s.q.cap
  · rw [if_pos hsz, if_pos (hfull.mp hsz)]
    obtain ⟨s', hok, hs', hcap', hframe⟩ := hs.clearQNode
    refine ⟨s', ns.tail, hok, hs', hcap', by rw [← hitems, List.map_tail], fun a ha => ?_, hframe⟩
    rw [List.map_tail] at ha
    exact List.mem_of_mem_tail ha
  · rw [if_neg hsz, if_neg (fun h => hsz (hfull.mpr h))]
    exact ⟨s, ns, rfl, hs, rfl, hitems, fun _ h => h, fun _ _ => rfl⟩

/-- Linking a fresh node to the end of the list, where the counter has room for one more. -/
theorem linkNode {t : Addr} {w : Text} (hs : s.Holds ns) (hroom : ns.length + 1 < 2 ^ 16)
    (ht : t ∉ ns.map Prod.fst) (htlook : s.mem.lookup t = some ⟨w, none⟩) :
    ∃ s', Zigbee.linkNode s t = .ok s' ∧ s'.Holds (ns ++ [(t, w)]) ∧ s'.q.cap = s.q.cap := by
  have hsize : (s.q.size + 1).toNat = ns.length + 1 := by
    rw [UInt16.toNat_add, hs.size_eq]
    exact Nat.mod_eq_of_lt hroom
  cases hrear : s.q.rear with
  | none =>
    obtain rfl : ns = [] := hs.isList.rear_eq_none_iff.mp hrear
    refine ⟨{ s with q := { s.q with size := s.q.size + 1, front := some t, rear := some t } },
      by simp only [Zigbee.linkNode, hrear], ⟨IsList.push_empty htlook, ?_⟩, rfl⟩
    simpa using hsize
  | some rear =>
    have hl := hs.isList
    rw [hrear] at hl
    obtain ⟨node, hlook, hpush⟩ := hl.push ht htlook
    refine ⟨{ mem := s.mem.insert rear { node with next := some t }
              q := { s.q with size := s.q.size + 1, rear := some t } },
      by simp only [Zigbee.linkNode, hrear, hlook], ⟨hpush, ?_⟩, rfl⟩
    simpa using hsize

end QueueMem.Holds

/-! ## Refinement -/

/-- The linked queue `s` stores the abstract queue `f`. -/
def QueueMem.Refines (s : QueueMem) (f : Fifo Text) : Prop :=
  s.q.cap.toNat = f.cap ∧ ∃ ns, s.Holds ns ∧ ns.map Prod.snd = f.items

namespace QueueMem.Refines

variable {s : QueueMem} {f : Fifo Text}

theorem clearQNode (hr : s.Refines f) :
    ∃ s', Zigbee.clearQNode s = .ok s' ∧ s'.Refines f.drop := by
  obtain ⟨hcap, ns, hs, hitems⟩ := hr
  obtain ⟨s', hok, hs', hcap', -⟩ := hs.clearQNode
  exact ⟨s', hok, by rw [hcap', hcap]; rfl, ns.tail, hs', by simp [← hitems]⟩

theorem enQueue (malloc : Malloc Text) (hr : s.Refines f) (str : Text) :
    ∃ s', Zigbee.enQueue malloc s str = .ok s' ∧ s'.Refines (f.push str) := by
  obtain ⟨hcap, ns, hs, hitems⟩ := hr
  have hlen : ns.length = f.items.length := by rw [← hitems, List.length_map]
  set t := malloc.pick s.mem with ht
  have hfresh : t ∉ ns.map Prod.fst :=
    fun hmem => malloc.fresh s.mem (hs.isList.chain.mem_heap hmem)
  -- The node is allocated first, so the eviction cannot free it.
  have hs₁ : QueueMem.Holds { s with mem := s.mem.insert t ⟨str, none⟩ } ns :=
    ⟨hs.isList.insert_fresh (malloc.fresh s.mem) _, hs.size_eq⟩
  obtain ⟨s₂, ms, hok₂, hs₂, hcap₂, hms, hsub, hframe⟩ := hs₁.evictIfFull hitems hcap
  have hlook₂ : s₂.mem.lookup t = some ⟨str, none⟩ := by
    rw [hframe t hfresh, Finmap.lookup_insert]
  have hroom : ms.length < f.cap := by
    have h := f.room_length_lt
    rwa [← hms, List.length_map] at h
  have hword : f.cap < 2 ^ 16 := hcap ▸ s.q.cap.toNat_lt
  obtain ⟨s₃, hok₃, hs₃, hcap₃⟩ :=
    hs₂.linkNode (by omega) (fun hmem => hfresh (hsub t hmem)) hlook₂
  refine ⟨s₃, ?_, ?_, ms ++ [(t, str)], hs₃, ?_⟩
  · simp only [Zigbee.enQueue, newNode, ← ht, hok₂, Checked.ok_bind, hok₃]
  · rw [hcap₃, hcap₂, hcap, Fifo.push_cap]
  · rw [List.map_append, hms, Fifo.push_items]
    rfl

theorem readQNode (hr : s.Refines f) : Zigbee.readQNode s = .ok f.front := by
  obtain ⟨-, ns, hs, hitems⟩ := hr
  cases ns with
  | nil =>
    have hfront : s.q.front = none := hs.isList.front_eq_none_iff.mpr rfl
    simp [Zigbee.readQNode, hfront, Fifo.front, ← hitems]
  | cons n ns =>
    obtain ⟨hfront, node, hlook, hval, -, -⟩ := hs.dropFront
    simp [Zigbee.readQNode, hfront, hlook, hval, Fifo.front, ← hitems]

theorem deQueue (hr : s.Refines f) :
    ∃ s', Zigbee.deQueue s = .ok (f.front, s') ∧ s'.Refines f.drop := by
  obtain ⟨hcap, ns, hs, hitems⟩ := hr
  cases ns with
  | nil =>
    have hfront : s.q.front = none := hs.isList.front_eq_none_iff.mpr rfl
    refine ⟨s, ?_, hcap, [], hs, ?_⟩
    · simp [Zigbee.deQueue, hfront, Fifo.front, ← hitems]
    · simp [← hitems]
  | cons n ns =>
    obtain ⟨hfront, node, hlook, hval, hdrop, hcap'⟩ := hs.dropFront
    refine ⟨_, ?_, by rw [hcap', hcap]; rfl, ns, hdrop, by simp [← hitems]⟩
    simp only [Zigbee.deQueue, hfront, hlook, hval, Fifo.front, ← hitems, List.map_cons,
      List.head?_cons]

theorem sizeQueue (hr : s.Refines f) : (Zigbee.sizeQueue s).toNat = f.items.length := by
  obtain ⟨-, ns, hs, hitems⟩ := hr
  rw [← hitems, List.length_map]
  exact hs.size_eq

end QueueMem.Refines

/-! ## Runs -/

/-- A call of one of the queue functions. -/
inductive QueueOp where
  | enQueue (str : Text)
  | deQueue
  | readQNode
  | clearQNode
  | sizeQueue
  deriving DecidableEq

/-- What a call returns: nothing, a string or NULL, or a size. -/
inductive QueueResult where
  | done
  | text (str : Option Text)
  | size (n : Nat)
  deriving DecidableEq

/-- One call on the linked queue. -/
def queueStep (malloc : Malloc Text) (s : QueueMem) : QueueOp → Checked (QueueMem × QueueResult)
  | .enQueue str => do .ok (← enQueue malloc s str, .done)
  | .deQueue => do
    let (str, s) ← deQueue s
    .ok (s, .text str)
  | .readQNode => do .ok (s, .text (← readQNode s))
  | .clearQNode => do .ok (← clearQNode s, .done)
  | .sizeQueue => .ok (s, .size (sizeQueue s).toNat)

/-- What the same call should do: a queue of strings that drops its oldest entry when full. -/
def fifoStep (f : Fifo Text) : QueueOp → Fifo Text × QueueResult
  | .enQueue str => (f.push str, .done)
  | .deQueue => (f.drop, .text f.front)
  | .readQNode => (f, .text f.front)
  | .clearQNode => (f.drop, .done)
  | .sizeQueue => (f, .size f.items.length)

/-- One call keeps the linked queue and the abstract queue in step. -/
theorem queueStep_refines (malloc : Malloc Text) {s : QueueMem} {f : Fifo Text} (op : QueueOp)
    (hr : s.Refines f) :
    ∃ s', queueStep malloc s op = .ok (s', (fifoStep f op).2) ∧ s'.Refines (fifoStep f op).1 := by
  cases op with
  | enQueue str =>
    obtain ⟨s', hok, hr'⟩ := hr.enQueue malloc str
    exact ⟨s', by simp [queueStep, fifoStep, hok], hr'⟩
  | deQueue =>
    obtain ⟨s', hok, hr'⟩ := hr.deQueue
    exact ⟨s', by simp [queueStep, fifoStep, hok], hr'⟩
  | readQNode => exact ⟨s, by simp [queueStep, fifoStep, hr.readQNode], hr⟩
  | clearQNode =>
    obtain ⟨s', hok, hr'⟩ := hr.clearQNode
    exact ⟨s', by simp [queueStep, fifoStep, hok], hr'⟩
  | sizeQueue => exact ⟨s, by simp [queueStep, fifoStep, hr.sizeQueue], hr⟩

theorem runSpec_fifoStep_cap (f : Fifo Text) (ops : List QueueOp) :
    (Machine.runSpec fifoStep f ops).1.cap = f.cap := by
  induction ops generalizing f with
  | nil => rfl
  | cons op ops ih =>
    have hstep : (fifoStep f op).1.cap = f.cap := by cases op <;> rfl
    simpa [Machine.runSpec, hstep] using ih (fifoStep f op).1

/-- Every sequence of calls on a new queue of capacity at least one succeeds with the results of a
bounded drop-oldest FIFO, and leaves a list of exactly `size` nodes between `front` and `rear`
that holds the entries of the FIFO in order. -/
theorem linkedQueue_refines_fifo (malloc : Malloc Text) (cap : UInt16) (hcap : 0 < cap.toNat)
    (ops : List QueueOp) :
    let spec := Machine.runSpec fifoStep (Fifo.empty cap.toNat hcap) ops
    ∃ s, Machine.runOut (queueStep malloc) (createQueue cap) ops = .ok (s, spec.2) ∧
      (∃ ns, IsList s.mem s.q.front s.q.rear ns ∧ ns.length = s.q.size.toNat ∧
        ns.map Prod.snd = spec.1.items) ∧
      (s.q.front = none ↔ s.q.rear = none) ∧ (s.q.rear = none ↔ s.q.size = 0) ∧
      s.q.cap = cap ∧ s.q.size.toNat ≤ cap.toNat := by
  intro spec
  have hinit : (createQueue cap).Refines (Fifo.empty cap.toNat hcap) :=
    ⟨rfl, [], QueueMem.Holds.createQueue cap, rfl⟩
  obtain ⟨s, hrun, hcap', ns, hs, hitems⟩ :=
    Machine.runOut_refines (queueStep_refines malloc) ops hinit
  have hspec : spec.1.cap = cap.toNat := runSpec_fifoStep_cap _ ops
  have hle : s.q.size.toNat ≤ cap.toNat := by
    rw [← hspec, hs.size_eq, ← List.length_map (f := Prod.snd), hitems]
    exact spec.1.length_le
  refine ⟨s, hrun, ⟨ns, hs.isList, hs.size_eq.symm, hitems⟩, ?_, ?_, ?_, hle⟩
  · rw [hs.isList.front_eq_none_iff, hs.isList.rear_eq_none_iff]
  · rw [hs.isList.rear_eq_none_iff, ← UInt16.toNat_inj, hs.size_eq, ← List.length_eq_zero_iff]
    rfl
  · rw [← UInt16.toNat_inj, hcap', hspec]

/-- A queue of capacity one: the second entry pushes the first one out. -/
theorem linkedQueue_refines_fifo_one :
    let ops := [.enQueue (lit "a"), .enQueue (lit "b"), .sizeQueue, .deQueue, .deQueue]
    0 < (1 : UInt16).toNat ∧
      (Machine.runOut (queueStep (Malloc.bump Text)) (createQueue 1) ops).map Prod.snd =
        .ok [.done, .done, .size 1, .text (some (lit "b")), .text none] := by
  intro ops
  have hcap : 0 < (1 : UInt16).toNat := by decide
  obtain ⟨s, hrun, -⟩ := linkedQueue_refines_fifo (Malloc.bump Text) 1 hcap ops
  refine ⟨hcap, ?_⟩
  rw [hrun]
  rfl

end Zigbee
