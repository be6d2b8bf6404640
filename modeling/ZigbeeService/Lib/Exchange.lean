-- SUMMARY: Programs that look things up in a shared store and add to it by requests that may be lost, and their rules.
import ZigbeeService.Lib.Fault

/-!
# Exchanges

A store is asked and told by requests. Before each request others may have changed the store; the
request may be lost, or carried out without an answer. What others do is a relation between stores,
and an assertion that is to survive a request has to be stable under it. The keys that the program
itself has added are kept in the order in which the store accepted them.
-/

namespace CLib

/-- What becomes of a request. -/
inductive Fate where
  | answered
  | lost
  /-- It is carried out, but the answer does not arrive. -/
  | unanswered
  deriving DecidableEq

/-- What others do before a request, and what becomes of it. -/
structure Turn (σ : Type) where
  others : σ → σ
  fate : Fate

/-- The store, the requests to come, and the keys that were added. -/
structure Net (σ κ : Type) where
  store : σ
  turns : List (Turn σ)
  added : List κ

/-- A program that makes requests. -/
abbrev Exchange (σ κ ε : Type) := ExceptT ε (StateM (Net σ κ))

namespace Exchange

variable {σ κ ε α β : Type}

/-- Ask the store. When no request is left to make, the program has been stopped. -/
def ask (e : ε) (query : σ → α) : Exchange σ κ ε α := fun net =>
  match net.turns with
  | [] => (.error e, net)
  | turn :: turns =>
    let store := turn.others net.store
    (if turn.fate = .answered then .ok (query store) else .error e, { net with store, turns })

/-- Ask the store to add something, for which these keys are noted. It may refuse. -/
def tell (e refused : ε) (keys : List κ) (add : σ → Option (σ × α)) : Exchange σ κ ε α := fun net =>
  match net.turns with
  | [] => (.error e, net)
  | turn :: turns =>
    let store := turn.others net.store
    if turn.fate = .lost then (.error e, { net with store, turns })
    else
      match add store with
      | none => (.error (if turn.fate = .answered then refused else e), { net with store, turns })
      | some (store, a) =>
        (if turn.fate = .answered then .ok a else .error e,
          { store, turns, added := net.added ++ keys })

/-- Go on without the result of a program that fails. -/
def attempt (m : Exchange σ κ ε α) : Exchange σ κ ε (Option α) := fun net =>
  match m net with
  | (.ok a, net) => (.ok (some a), net)
  | (.error _, net) => (.ok none, net)

/-- A computation without requests. -/
def ofChecked (fault : Fault → ε) (x : Checked α) : Exchange σ κ ε α := fun net =>
  (match x with
    | .ok a => .ok a
    | .error f => .error (fault f), net)

theorem ofChecked_ok_bind (fault : Fault → ε) (a : α) (f : α → Exchange σ κ ε β) :
    ofChecked fault (.ok a) >>= f = f a := rfl

theorem ofChecked_error_bind (fault : Fault → ε) (e : Fault) (f : α → Exchange σ κ ε β) :
    ofChecked fault (.error e) >>= f = throw (fault e) := rfl

-- ---------------------------------------------------------------------------
-- Triples
-- ---------------------------------------------------------------------------

/-- An assertion about the store and what was added to it. -/
abbrev Assertion (σ κ : Type) := σ → List κ → Prop

/-- Others change the store as the relation says. -/
def Honest (R : σ → σ → Prop) (net : Net σ κ) : Prop := ∀ turn ∈ net.turns, ∀ s, R s (turn.others s)

/-- The assertion survives what others do. -/
def Stable (R : σ → σ → Prop) (P : Assertion σ κ) : Prop :=
  ∀ s s' added, R s s' → P s added → P s' added

theorem Stable.and {R : σ → σ → Prop} {P Q : Assertion σ κ} (hP : Stable R P) (hQ : Stable R Q) :
    Stable R fun s added => P s added ∧ Q s added :=
  fun s s' added hstep h => ⟨hP s s' added hstep h.1, hQ s s' added hstep h.2⟩

/-- Where `P` holds, `Q` holds of what the program returns, and `E` where it fails. -/
structure Triple (R : σ → σ → Prop) (P : Assertion σ κ) (m : Exchange σ κ ε α)
    (Q : α → Assertion σ κ) (E : Assertion σ κ) : Prop where
  honest : ∀ net, Honest R net → Honest R (m net).2
  ok : ∀ net a net', Honest R net → P net.store net.added → m net = (.ok a, net') →
    Q a net'.store net'.added
  error : ∀ net e net', Honest R net → P net.store net.added → m net = (.error e, net') →
    E net'.store net'.added

variable {R : σ → σ → Prop} {P P' E E' : Assertion σ κ} {Q Q' : α → Assertion σ κ}
  {m : Exchange σ κ ε α}

theorem bind_run {f : α → Exchange σ κ ε β} (net : Net σ κ) :
    (m >>= f) net = match m net with
      | (.ok a, net') => f a net'
      | (.error e, net') => (.error e, net') := by
  show (ExceptT.bindCont f (m net).1) (m net).2 = _
  rcases m net with ⟨r, net'⟩
  cases r <;> rfl

/-- A request that has added nothing. -/
structure Failed (net net' : Net σ κ) : Prop where
  added : net'.added = net.added
  turns : net'.turns ⊆ net.turns
  store : net'.store = net.store ∨ ∃ turn ∈ net.turns, net'.store = turn.others net.store

/-- A request to add something fails, or the store has accepted it. -/
theorem tell_cases (e refused : ε) (keys : List κ) (add : σ → Option (σ × α)) (net : Net σ κ) :
    (∃ err net', tell e refused keys add net = (.error err, net') ∧ Failed net net') ∨
      ∃ r turn store a turns, tell e refused keys add net =
          (r, { store, turns, added := net.added ++ keys }) ∧ net.turns = turn :: turns ∧
        add (turn.others net.store) = some (store, a) ∧ ∀ b, r = .ok b → b = a := by
  obtain ⟨store, turns, added⟩ := net
  cases turns with
  | nil => exact .inl ⟨e, _, rfl, rfl, List.Subset.refl _, .inl rfl⟩
  | cons turn turns =>
    have hfailed : Failed ⟨store, turn :: turns, added⟩ ⟨turn.others store, turns, added⟩ :=
      ⟨rfl, List.subset_cons_self _ _, .inr ⟨turn, List.mem_cons_self, rfl⟩⟩
    simp only [tell]
    by_cases hlost : turn.fate = .lost
    · rw [if_pos hlost]
      exact .inl ⟨e, _, rfl, hfailed⟩
    · rw [if_neg hlost]
      cases hresult : add (turn.others store) with
      | none => exact .inl ⟨_, _, rfl, hfailed⟩
      | some result =>
        refine .inr ⟨_, turn, result.1, result.2, turns, rfl, rfl, hresult, fun b hb => ?_⟩
        split_ifs at hb
        cases hb
        rfl

namespace Triple

theorem pure {a : α} (h : ∀ s added, P s added → Q a s added) :
    Triple R P (pure a : Exchange σ κ ε α) Q E where
  honest _ hnet := hnet
  ok _ _ _ _ hP hrun := by cases hrun; exact h _ _ hP
  error _ _ _ _ _ hrun := by cases hrun

theorem throw {e : ε} (h : ∀ s added, P s added → E s added) :
    Triple R P (throw e : Exchange σ κ ε α) Q E where
  honest _ hnet := hnet
  ok _ _ _ _ _ hrun := by cases hrun
  error _ _ _ _ hP hrun := by cases hrun; exact h _ _ hP

theorem bind {f : α → Exchange σ κ ε β} {Q' : β → Assertion σ κ} (hm : Triple R P m Q E)
    (hf : ∀ a, Triple R (Q a) (f a) Q' E) : Triple R P (m >>= f) Q' E where
  honest net hnet := by
    rw [bind_run]
    have hnet' := hm.honest net hnet
    rcases hrun : m net with ⟨r, net'⟩
    rw [hrun] at hnet'
    cases r with
    | ok a => exact (hf a).honest net' hnet'
    | error e => exact hnet'
  ok net b net' hnet hP hrun := by
    rw [bind_run] at hrun
    have hnet' := hm.honest net hnet
    rcases hfirst : m net with ⟨r, net₁⟩
    rw [hfirst] at hrun hnet'
    cases r with
    | ok a => exact (hf a).ok net₁ b net' hnet' (hm.ok net a net₁ hnet hP hfirst) hrun
    | error e => cases hrun
  error net e net' hnet hP hrun := by
    rw [bind_run] at hrun
    have hnet' := hm.honest net hnet
    rcases hfirst : m net with ⟨r, net₁⟩
    rw [hfirst] at hrun hnet'
    cases r with
    | ok a => exact (hf a).error net₁ e net' hnet' (hm.ok net a net₁ hnet hP hfirst) hrun
    | error e' =>
      cases hrun
      exact hm.error net e net' hnet hP hfirst

theorem pre (hm : Triple R P m Q E) (h : ∀ s added, P' s added → P s added) :
    Triple R P' m Q E where
  honest := hm.honest
  ok net a net' hnet hP hrun := hm.ok net a net' hnet (h _ _ hP) hrun
  error net e net' hnet hP hrun := hm.error net e net' hnet (h _ _ hP) hrun

theorem post (hm : Triple R P m Q E) (h : ∀ a s added, Q a s added → Q' a s added) :
    Triple R P m Q' E where
  honest := hm.honest
  ok net a net' hnet hP hrun := h _ _ _ (hm.ok net a net' hnet hP hrun)
  error := hm.error

theorem fails (hm : Triple R P m Q E) (h : ∀ s added, E s added → E' s added) :
    Triple R P m Q E' where
  honest := hm.honest
  ok := hm.ok
  error net e net' hnet hP hrun := h _ _ (hm.error net e net' hnet hP hrun)

theorem honest_tail {net : Net σ κ} {turn : Turn σ} {turns : List (Turn σ)} {store : σ}
    {added : List κ} (hnet : Honest R net) (hturns : net.turns = turn :: turns) :
    Honest R ⟨store, turns, added⟩ := fun t ht =>
  hnet t (hturns ▸ List.mem_cons_of_mem _ ht)

/-- What is answered holds of the store at that time. -/
theorem ask {e : ε} {query : σ → α} (hstable : Stable R P) :
    Triple R P (ask e query : Exchange σ κ ε α) (fun a s added => P s added ∧ query s = a) P where
  honest net hnet := by
    unfold Exchange.ask
    rcases hturns : net.turns with _ | ⟨turn, turns⟩
    · exact hnet
    · exact honest_tail hnet hturns
  ok net a net' hnet hP hrun := by
    unfold Exchange.ask at hrun
    rcases hturns : net.turns with _ | ⟨turn, turns⟩
    · rw [hturns] at hrun
      cases hrun
    · have hstep := hnet turn (hturns ▸ List.mem_cons_self) net.store
      rw [hturns] at hrun
      dsimp only at hrun
      split_ifs at hrun
      · cases hrun
        exact ⟨hstable _ _ _ hstep hP, rfl⟩
      · cases hrun
  error net e net' hnet hP hrun := by
    unfold Exchange.ask at hrun
    rcases hturns : net.turns with _ | ⟨turn, turns⟩
    · rw [hturns] at hrun
      cases hrun
      exact hP
    · have hstep := hnet turn (hturns ▸ List.mem_cons_self) net.store
      rw [hturns] at hrun
      dsimp only at hrun
      split_ifs at hrun
      · cases hrun
      · cases hrun
        exact hstable _ _ _ hstep hP

/-- What is accepted is added, whether the program gets to know it or not. -/
theorem tell {e refused : ε} {keys : List κ} {add : σ → Option (σ × α)} (hstable : Stable R P)
    (hadd : ∀ s added s' a, P s added → add s = some (s', a) →
      Q a s' (added ++ keys) ∧ E s' (added ++ keys))
    (hfail : ∀ s added, P s added → E s added) :
    Triple R P (tell e refused keys add : Exchange σ κ ε α) Q E where
  honest net hnet := by
    rcases tell_cases e refused keys add net with ⟨err, net', hrun, htell⟩ |
      ⟨r, turn, store, a, turns, hrun, hturns, hresult, hr⟩
    · rw [hrun]
      exact fun t ht => hnet t (htell.turns ht)
    · rw [hrun]
      exact honest_tail hnet hturns
  ok net a net' hnet hP hrun' := by
    rcases tell_cases e refused keys add net with ⟨err, net', hrun, htell⟩ |
      ⟨r, turn, store, b, turns, hrun, hturns, hresult, hr⟩
    · rw [hrun] at hrun'
      cases hrun'
    · have hP' := hstable _ _ _ (hnet turn (hturns ▸ List.mem_cons_self) net.store) hP
      rw [hrun] at hrun'
      cases hrun'
      rw [hr a rfl]
      exact (hadd _ _ _ _ hP' hresult).1
  error net err net' hnet hP hrun' := by
    rcases tell_cases e refused keys add net with ⟨err, net', hrun, htell⟩ |
      ⟨r, turn, store, b, turns, hrun, hturns, hresult, hr⟩
    · rw [hrun] at hrun'
      cases hrun'
      rw [htell.added]
      rcases htell.store with hstore | ⟨turn, hturn, hstore⟩
      · rw [hstore]
        exact hfail _ _ hP
      · rw [hstore]
        exact hfail _ _ (hstable _ _ _ (hnet turn hturn net.store) hP)
    · have hP' := hstable _ _ _ (hnet turn (hturns ▸ List.mem_cons_self) net.store) hP
      rw [hrun] at hrun'
      cases hrun'
      exact (hadd _ _ _ _ hP' hresult).2

theorem attempt {A : Option α → Assertion σ κ} {B : Assertion σ κ} (hm : Triple R P m Q E)
    (hok : ∀ a s added, Q a s added → A (some a) s added)
    (herror : ∀ s added, E s added → A none s added) : Triple R P (attempt m) A B where
  honest net hnet := by
    have hnet' := hm.honest net hnet
    unfold Exchange.attempt
    rcases hrun : m net with ⟨r, net'⟩
    rw [hrun] at hnet'
    cases r with
    | ok a => exact hnet'
    | error e => exact hnet'
  ok net a net' hnet hP hrun := by
    unfold Exchange.attempt at hrun
    rcases hfirst : m net with ⟨r, net₁⟩
    rw [hfirst] at hrun
    cases r with
    | ok a =>
      cases hrun
      exact hok _ _ _ (hm.ok net a _ hnet hP hfirst)
    | error e =>
      cases hrun
      exact herror _ _ (hm.error net e _ hnet hP hfirst)
  error net e net' hnet hP hrun := by
    unfold Exchange.attempt at hrun
    rcases hfirst : m net with ⟨r, net₁⟩
    rw [hfirst] at hrun
    cases r with
    | ok a => cases hrun
    | error e => cases hrun

/-- However the program ends. -/
theorem after {I : Assertion σ κ} (hm : Triple R P m Q E)
    (hQ : ∀ a s added, Q a s added → I s added)
    (hE : ∀ s added, E s added → I s added) {net : Net σ κ} (hnet : Honest R net)
    (hP : P net.store net.added) : Honest R (m net).2 ∧ I (m net).2.store (m net).2.added := by
  refine ⟨hm.honest net hnet, ?_⟩
  rcases hrun : m net with ⟨r, net'⟩
  cases r with
  | ok a => exact hQ a _ _ (hm.ok net a net' hnet hP hrun)
  | error e => exact hE _ _ (hm.error net e net' hnet hP hrun)

end Triple

end Exchange

end CLib
