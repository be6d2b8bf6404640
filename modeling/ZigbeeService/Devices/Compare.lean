-- SUMMARY: Comparing lists by name: what an equal comparison says about lists without a name twice.
import Mathlib.Data.List.Perm.Basic
import ZigbeeService.Devices.Map
import ZigbeeService.Rest.DeviceRoundTrip

/-!
# Comparing lists

`LIST_EQUAL_FUNCTION` counts both lists and then looks each element of the first up in the second.
When no name comes twice and the counters do not wrap, that is equality of maps.
-/

namespace Zigbee

open CLib

/-- Names without a repetition, and no more of them than an `unsigned` counts. -/
structure NamedOnce (names : List Text) : Prop where
  nodup : names.Nodup
  counted : names.length < 2 ^ 32

section Lists

variable {α : Type} {name : α → Text} {cmp : α → α → Bool} {l₁ l₂ : List α}

/-- The first element of a name. -/
def findName (name : α → Text) (l : List α) (key : Text) : Option α :=
  l.find? fun x => name x = key

theorem findName_eq_some {l : List α} (hnodup : (l.map name).Nodup) {key : Text} {x : α} :
    findName name l key = some x ↔ x ∈ l ∧ name x = key := by
  constructor
  · intro h
    exact ⟨List.mem_of_find?_eq_some h, by simpa using List.find?_some h⟩
  · rintro ⟨hx, rfl⟩
    induction l with
    | nil => cases hx
    | cons y l ih =>
      rw [List.map_cons, List.nodup_cons] at hnodup
      rw [findName, List.find?_cons]
      rcases List.mem_cons.mp hx with rfl | hmem
      · simp
      · have hne : name y ≠ name x := fun h => hnodup.1 (h ▸ List.mem_map_of_mem hmem)
        simp only [hne, decide_false]
        exact ih hnodup.2 hmem

theorem findName_eq_none {l : List α} {key : Text} :
    findName name l key = none ↔ key ∉ l.map name := by
  rw [findName, List.find?_eq_none, List.mem_map]
  constructor
  · rintro h ⟨x, hx, rfl⟩
    exact h x hx (by simp)
  · intro h x hx hname
    exact h ⟨x, hx, by simpa using hname⟩

/-- As many elements, as far as they are counted, and each is found in the other list, comparing
equal. -/
theorem listEqual_eq_true : listEqual name cmp l₁ l₂ = true ↔
    UInt32.ofNat l₁.length = UInt32.ofNat l₂.length ∧
      ∀ x ∈ l₁, ∃ y, findName name l₂ (name x) = some y ∧ cmp x y = true := by
  simp only [listEqual, Bool.decide_and, Bool.and_eq_true, decide_eq_true_eq, List.all_eq_true]
  refine and_congr_right fun _ => forall₂_congr fun x _ => ?_
  have hfind : (l₂.find? fun found => name x = name found) = findName name l₂ (name x) := by
    refine congrArg (fun p => l₂.find? p) (funext fun y => ?_)
    simp only [eq_comm]
  rw [hfind]
  cases findName name l₂ (name x) with
  | none => simp
  | some y => simp

/-- Lists that compare equal have the same names, and equal elements under them. -/
theorem listEqual_cases (h₁ : NamedOnce (l₁.map name)) (h₂ : NamedOnce (l₂.map name))
    (h : listEqual name cmp l₁ l₂ = true) (key : Text) :
    (findName name l₁ key = none ∧ findName name l₂ key = none) ∨
      ∃ x y, findName name l₁ key = some x ∧ findName name l₂ key = some y ∧ cmp x y = true := by
  obtain ⟨hlen, hall⟩ := listEqual_eq_true.mp h
  have hsub : l₁.map name ⊆ l₂.map name := by
    intro key hkey
    obtain ⟨x, hx, rfl⟩ := List.mem_map.mp hkey
    obtain ⟨y, hy, -⟩ := hall x hx
    obtain ⟨hy, hname⟩ := (findName_eq_some h₂.nodup).mp hy
    exact List.mem_map.mpr ⟨y, hy, hname⟩
  have hsame : (l₂.map name).length ≤ (l₁.map name).length := by
    have hlt₁ := h₁.counted
    have hlt₂ := h₂.counted
    rw [List.length_map] at hlt₁ hlt₂
    rw [← UInt32.toNat_inj, UInt32.toNat_ofNat', UInt32.toNat_ofNat'] at hlen
    rw [List.length_map, List.length_map]
    omega
  have hperm : (l₁.map name).Perm (l₂.map name) :=
    (List.subperm_of_subset h₁.nodup hsub).perm_of_length_le hsame
  cases hx : findName name l₁ key with
  | some x =>
    obtain ⟨hmem, rfl⟩ := (findName_eq_some h₁.nodup).mp hx
    obtain ⟨y, hy, hcmp⟩ := hall x hmem
    exact .inr ⟨x, y, rfl, hy, hcmp⟩
  | none =>
    have hnot : key ∉ l₂.map name := fun hmem =>
      findName_eq_none.mp hx (hperm.mem_iff.mpr hmem)
    exact .inl ⟨rfl, findName_eq_none.mpr hnot⟩

theorem rel_none_iff {r : α → α → Prop} {x y : Option α} (h : Option.Rel r x y) :
    x = none ↔ y = none := by
  cases h with
  | none => exact Iff.rfl
  | some _ => exact iff_of_false nofun nofun

/-- Lists with the same names, and equal elements under them, compare equal. -/
theorem listEqual_of_rel (h₁ : (l₁.map name).Nodup) (h₂ : (l₂.map name).Nodup)
    (h : ∀ key, Option.Rel (fun x y => cmp x y = true) (findName name l₁ key)
      (findName name l₂ key)) :
    listEqual name cmp l₁ l₂ = true := by
  have hmem (key : Text) : key ∈ l₁.map name ↔ key ∈ l₂.map name := by
    rw [← not_iff_not, ← findName_eq_none, ← findName_eq_none]
    exact rel_none_iff (h key)
  have hlen := ((List.perm_ext_iff_of_nodup h₁ h₂).mpr hmem).length_eq
  rw [List.length_map, List.length_map] at hlen
  refine listEqual_eq_true.mpr ⟨by rw [hlen], fun x hx => ?_⟩
  have hkey := h (name x)
  rw [(findName_eq_some h₁).mpr ⟨hx, rfl⟩] at hkey
  cases hfound : findName name l₂ (name x) with
  | none =>
    rw [hfound] at hkey
    cases hkey
  | some y =>
    rw [hfound] at hkey
    cases hkey with
    | some hcmp => exact ⟨y, rfl, hcmp⟩

/-- The order does not count. -/
theorem findName_perm {l l' : List α} (hnodup : (l.map name).Nodup) (hperm : l.Perm l')
    (key : Text) : findName name l key = findName name l' key := by
  have hnodup' : (l'.map name).Nodup := (hperm.map name).nodup_iff.mp hnodup
  refine Option.ext fun x => ?_
  rw [findName_eq_some hnodup, findName_eq_some hnodup', hperm.mem_iff]

end Lists

/-- Names of protocols, and of properties within one, without a repetition: as JSON objects have
them. -/
def ProtocolsNamed (ps : List Protocol) : Prop :=
  NamedOnce (ps.map Protocol.name) ∧ ∀ p ∈ ps, NamedOnce (p.properties.map Prod.fst)

theorem protocolsNamed_nil : ProtocolsNamed [] :=
  ⟨⟨List.nodup_nil, by decide⟩, List.forall_mem_nil _⟩

theorem assocGet_eq_findName (l : NvPairs) (key : Text) :
    assocGet key l = (findName Prod.fst l key).map Prod.snd := by
  induction l with
  | nil => rfl
  | cons p l ih =>
    obtain ⟨k, v⟩ := p
    rw [assocGet_cons, findName, List.find?_cons, ih]
    by_cases hk : key = k
    · subst hk
      simp
    · have hk' : ¬ k = key := fun h => hk h.symm
      simp [hk, hk', findName]

theorem assocGet_protocolPairs (ps : List Protocol) (key : Text) :
    assocGet key (protocolPairs ps) = (findName Protocol.name ps key).map Protocol.properties := by
  induction ps with
  | nil => rfl
  | cons p ps ih =>
    have hcons : protocolPairs (p :: ps) = (p.name, p.properties) :: protocolPairs ps := rfl
    have hfind : findName Protocol.name (p :: ps) key =
        if p.name = key then some p else findName Protocol.name ps key := by
      rw [findName, List.find?_cons]
      by_cases hk : p.name = key <;> simp [hk, findName]
    rw [hcons, assocGet_cons, ih, hfind]
    by_cases hk : key = p.name
    · rw [if_pos hk, if_pos hk.symm]
      rfl
    · rw [if_neg hk, if_neg fun h => hk h.symm]

/-- Pairs that compare equal are the same map. -/
theorem sameMap_of_edgexNvpairsEqual {l₁ l₂ : NvPairs} (h₁ : NamedOnce (l₁.map Prod.fst))
    (h₂ : NamedOnce (l₂.map Prod.fst)) (h : edgexNvpairsEqual l₁ l₂ = true) : SameMap l₁ l₂ := by
  intro key
  rw [assocGet_eq_findName, assocGet_eq_findName]
  obtain ⟨hp, hq⟩ | ⟨p, q, hp, hq, hcmp⟩ := listEqual_cases h₁ h₂ h key
  · rw [hp, hq]
  · rw [hp, hq]
    exact congrArg some (by simpa using hcmp)

/-- Protocols that compare equal are the same map of maps. -/
theorem sameProtocols_of_edgexProtocolsEqual {l₁ l₂ : List Protocol} (h₁ : ProtocolsNamed l₁)
    (h₂ : ProtocolsNamed l₂) (h : edgexProtocolsEqual l₁ l₂ = true) : SameProtocols l₁ l₂ := by
  intro key
  rw [assocGet_protocolPairs, assocGet_protocolPairs]
  obtain ⟨hp, hq⟩ | ⟨p, q, hp, hq, hcmp⟩ := listEqual_cases h₁.1 h₂.1 h key
  · rw [hp, hq]
    exact .none
  · rw [hp, hq]
    have hmem := ((findName_eq_some h₁.1.nodup).mp hp).1
    have hmem' := ((findName_eq_some h₂.1.nodup).mp hq).1
    exact .some (sameMap_of_edgexNvpairsEqual (h₁.2 p hmem) (h₂.2 q hmem') hcmp)

/-- Pairs compare equal exactly when they are the same map. -/
theorem edgexNvpairsEqual_iff {l₁ l₂ : NvPairs} (h₁ : NamedOnce (l₁.map Prod.fst))
    (h₂ : NamedOnce (l₂.map Prod.fst)) : edgexNvpairsEqual l₁ l₂ = true ↔ SameMap l₁ l₂ := by
  refine ⟨sameMap_of_edgexNvpairsEqual h₁ h₂,
    fun h => listEqual_of_rel h₁.nodup h₂.nodup fun key => ?_⟩
  have hkey := h key
  rw [assocGet_eq_findName, assocGet_eq_findName] at hkey
  cases hp : findName Prod.fst l₁ key with
  | none =>
    rw [hp, Option.map_none, eq_comm, Option.map_eq_none_iff] at hkey
    rw [hkey]
    exact .none
  | some p =>
    rw [hp, Option.map_some, eq_comm, Option.map_eq_some_iff] at hkey
    obtain ⟨q, hq, hvalue⟩ := hkey
    rw [hq]
    exact .some (decide_eq_true hvalue.symm)

/-- Protocols compare equal exactly when they are the same map of maps. -/
theorem edgexProtocolsEqual_iff {l₁ l₂ : List Protocol} (h₁ : ProtocolsNamed l₁)
    (h₂ : ProtocolsNamed l₂) : edgexProtocolsEqual l₁ l₂ = true ↔ SameProtocols l₁ l₂ := by
  refine ⟨sameProtocols_of_edgexProtocolsEqual h₁ h₂,
    fun h => listEqual_of_rel h₁.1.nodup h₂.1.nodup fun key => ?_⟩
  have hkey := h key
  rw [assocGet_protocolPairs, assocGet_protocolPairs] at hkey
  cases hp : findName Protocol.name l₁ key with
  | none =>
    have hnone : (findName Protocol.name l₂ key).map Protocol.properties = none :=
      (rel_none_iff hkey).mp (by rw [hp]; rfl)
    rw [Option.map_eq_none_iff.mp hnone]
    exact .none
  | some p =>
    cases hq : findName Protocol.name l₂ key with
    | none =>
      rw [hp, hq] at hkey
      cases hkey
    | some q =>
      rw [hp, hq, Option.map_some, Option.map_some, Option.rel_some_some] at hkey
      have hmem := ((findName_eq_some h₁.1.nodup).mp hp).1
      have hmem' := ((findName_eq_some h₂.1.nodup).mp hq).1
      exact .some ((edgexNvpairsEqual_iff (h₁.2 p hmem) (h₂.2 q hmem')).mpr hkey)

theorem SameProtocols.refl (ps : List Protocol) : SameProtocols ps ps := by
  intro key
  cases assocGet key (protocolPairs ps) with
  | none => exact .none
  | some l => exact .some fun _ => rfl

theorem SameProtocols.symm {l₁ l₂ : List Protocol} (h : SameProtocols l₁ l₂) :
    SameProtocols l₂ l₁ := by
  intro key
  have hkey := h key
  revert hkey
  generalize assocGet key (protocolPairs l₁) = a, assocGet key (protocolPairs l₂) = b
  intro hkey
  cases hkey with
  | none => exact .none
  | some hsame => exact .some fun name => (hsame name).symm

theorem SameProtocols.trans {l₁ l₂ l₃ : List Protocol} (h : SameProtocols l₁ l₂)
    (h' : SameProtocols l₂ l₃) : SameProtocols l₁ l₃ := by
  intro key
  have hkey := h key
  have hkey' := h' key
  revert hkey hkey'
  generalize assocGet key (protocolPairs l₁) = a, assocGet key (protocolPairs l₂) = b,
    assocGet key (protocolPairs l₃) = c
  intro hkey hkey'
  cases hkey with
  | none =>
    cases hkey'
    exact .none
  | some hsame =>
    cases hkey' with
    | some hsame' => exact .some fun name => (hsame name).trans (hsame' name)

/-- The order of the protocols does not count. -/
theorem SameProtocols.of_perm {l l' : List Protocol} (hnamed : ProtocolsNamed l)
    (hperm : l.Perm l') : SameProtocols l l' := by
  intro key
  rw [assocGet_protocolPairs, assocGet_protocolPairs, ← findName_perm hnamed.1.nodup hperm]
  have hrefl := SameProtocols.refl l key
  rwa [assocGet_protocolPairs] at hrefl

theorem edgexProtocolsDup_eq (ps : List Protocol) : edgexProtocolsDup ps = ps.reverse := by
  rw [edgexProtocolsDup, List.foldl_flip_cons_eq_append', List.append_nil]

/-- The copy is the same map, in the other order. -/
theorem sameProtocols_edgexProtocolsDup {ps : List Protocol} (h : ProtocolsNamed ps) :
    SameProtocols (edgexProtocolsDup ps) ps := by
  intro key
  have hkeys : ((protocolPairs ps).map Prod.fst).Nodup := by
    rw [protocolPairs, List.map_map]
    exact h.1.nodup
  have hsame : assocGet key (protocolPairs (edgexProtocolsDup ps)) =
      assocGet key (protocolPairs ps) := by
    rw [edgexProtocolsDup_eq, protocolPairs, List.map_reverse]
    exact assocGet_reverse hkeys key
  rw [hsame]
  cases assocGet key (protocolPairs ps) with
  | none => exact .none
  | some l => exact .some fun _ => rfl

theorem ProtocolsNamed.dup {ps : List Protocol} (h : ProtocolsNamed ps) :
    ProtocolsNamed (edgexProtocolsDup ps) := by
  rw [edgexProtocolsDup_eq]
  refine ⟨?_, fun p hp => h.2 p (List.mem_reverse.mp hp)⟩
  rw [List.map_reverse]
  exact ⟨List.nodup_reverse.mpr h.1.nodup, by rw [List.length_reverse]; exact h.1.counted⟩

/-- Protocol lists without a name twice. -/
abbrev NamedProtocols := { ps : List Protocol // ProtocolsNamed ps }

/-- On such lists the comparison decides whether two are the same map of maps. It does not look at
the order, and is an equivalence. -/
theorem edgexProtocolsEqual_decides :
    (∀ l₁ l₂ : NamedProtocols, edgexProtocolsEqual l₁ l₂ = true ↔ SameProtocols l₁ l₂) ∧
    (∀ l₁ l₁' l₂ l₂' : NamedProtocols, l₁.1.Perm l₁'.1 → l₂.1.Perm l₂'.1 →
      edgexProtocolsEqual l₁ l₂ = edgexProtocolsEqual l₁' l₂') ∧
    Equivalence fun l₁ l₂ : NamedProtocols => edgexProtocolsEqual l₁ l₂ = true := by
  have hiff (l₁ l₂ : NamedProtocols) :
      edgexProtocolsEqual l₁ l₂ = true ↔ SameProtocols l₁ l₂ :=
    edgexProtocolsEqual_iff l₁.2 l₂.2
  refine ⟨hiff, fun l₁ l₁' l₂ l₂' hperm hperm' => ?_, ?_⟩
  · rw [Bool.eq_iff_iff, hiff, hiff]
    have hsame := SameProtocols.of_perm l₁.2 hperm
    have hsame' := SameProtocols.of_perm l₂.2 hperm'
    constructor
    · intro h
      exact (hsame.symm.trans h).trans hsame'
    · intro h
      exact (hsame.trans h).trans hsame'.symm
  · constructor
    · intro l
      exact (hiff l l).mpr (.refl _)
    · intro l₁ l₂ h
      exact (hiff l₂ l₁).mpr ((hiff l₁ l₂).mp h).symm
    · intro l₁ l₂ l₃ h h'
      exact (hiff l₁ l₃).mpr (((hiff l₁ l₂).mp h).trans ((hiff l₂ l₃).mp h'))

end Zigbee
