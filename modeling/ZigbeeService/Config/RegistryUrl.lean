-- SUMMARY: The URLs that name a registry, and where they say it is (registry.c).
import ZigbeeService.Config.Registry

/-!
# URLs of registries

A URL gives the name of an implementation and a location. The implementation for Consul takes a host
and a port; the port is read by `strtoul` and narrowed to 16 bits.
-/

namespace Zigbee

open CLib

-- ---------------------------------------------------------------------------
-- Hosts and ports
-- ---------------------------------------------------------------------------

/-- A text that is read as a port: a number behind white space and a sign, or none, out of which 16
bits are kept. -/
def PortText (text : Text) (port : UInt16) : Prop :=
  ∃ neg digits n, Spaced text neg digits ∧ numeralIn 10 digits = some n ∧
    port = UInt16.ofNat (clampULong (if neg then -(n : Int) else n)).toNat

theorem PortText.ne_nil {text : Text} {port : UInt16} (h : PortText text port) : text ≠ [] := by
  obtain ⟨neg, digits, n, ⟨blanks, sign, rfl, -, -⟩, hdigits, -⟩ := h
  have hne := (numeralIn_eq_some.mp hdigits).1
  simp [hne]

theorem strchr_eq_some {s t : Text} {c : UInt8} :
    strchr s c = some t ↔ ∃ field rest, s = field ++ t ∧ t = c :: rest ∧ c ∉ field := by
  rw [strchr]
  constructor
  · intro h
    by_cases hmem : c ∈ s
    · obtain ⟨field, rest, rfl, hnot⟩ := List.eq_append_cons_of_mem hmem
      rw [strstr_sep hnot] at h
      cases h
      exact ⟨field, rest, rfl, rfl, hnot⟩
    · rw [← List.nil_append [c], strstr_eq_none hmem] at h
      cases h
  · rintro ⟨field, rest, rfl, rfl, hnot⟩
    exact strstr_sep hnot

/-- The text before what was found. -/
theorem strndup_before (before t : Text) :
    strndup (before ++ t) ((before ++ t).length - t.length) = before := by
  have hlen : ((before ++ t).length : Int) - t.length = (before.length : Nat) := by
    rw [List.length_append]
    omega
  rw [hlen, strndup_natCast, List.take_left]

/-- The host ends at the first colon, and all that follows has to be the port. -/
theorem parseSimpleUrl_iff {location : Text} {hp : HostPort} :
    edgexRegistryParseSimpleUrl location = some hp ↔
      ∃ text, location = hp.host ++ chr ':' :: text ∧ chr ':' ∉ hp.host ∧
        PortText text hp.port := by
  rw [edgexRegistryParseSimpleUrl]
  cases hcolon : strchr location (chr ':') with
  | none =>
    refine iff_of_false nofun ?_
    rintro ⟨text, rfl, hnot, -⟩
    rw [strchr, strstr_sep hnot] at hcolon
    cases hcolon
  | some colon =>
    obtain ⟨field, text, rfl, rfl, hnot⟩ := strchr_eq_some.mp hcolon
    have hcut : ∀ {host rest : Text}, field ++ chr ':' :: text = host ++ chr ':' :: rest →
        chr ':' ∉ host → field = host ∧ text = rest := fun heq hnot' =>
      append_sep_inj hnot hnot' heq
    simp only [List.drop_succ_cons, List.drop_zero, strndup_before]
    by_cases htext : text = []
    · rw [if_pos htext]
      refine iff_of_false nofun ?_
      rintro ⟨rest, heq, hnot', hport⟩
      exact hport.ne_nil ((hcut heq hnot').2 ▸ htext)
    · rw [if_neg htext]
      constructor
      · intro h
        obtain ⟨hrest, hhp⟩ := Option.ite_none_right_eq_some.mp h
        cases hhp
        obtain ⟨neg, digits, n, hspaced, hdigits, hk⟩ :=
          (strtoul10_whole_iff htext).mp (Prod.ext rfl hrest)
        exact ⟨text, rfl, hnot, neg, digits, n, hspaced, hdigits, congrArg UInt16.ofNat hk⟩
      · rintro ⟨rest, heq, hnot', neg, digits, n, hspaced, hdigits, hport⟩
        obtain ⟨rfl, rfl⟩ := hcut heq hnot'
        have hall := (strtoul10_whole_iff htext).mpr ⟨neg, digits, n, hspaced, hdigits, rfl⟩
        rw [hall, if_pos rfl, ← hport]

-- ---------------------------------------------------------------------------
-- Registries
-- ---------------------------------------------------------------------------

section Registries

variable {loc ops : Type}

/-- `edgex_registry_get_registry`, as one operation. -/
def Registries.getRegistry (regs : Registries loc ops) (url : Text) :
    Option (EdgexRegistry loc ops) :=
  match strstr (lit "://") url with
  | none => none
  | some delim => regs.open (strndup url (url.length - delim.length)) (delim.drop 3)

/-- The call takes effect as this operation. -/
theorem getRegistry_apply (consulimpl : RegistryImpl loc ops) (regs : Registries loc ops)
    (url : Text) :
    (∀ op, (RegistryCall.getRegistry url : RegistryCall loc ops).op = some op →
      op.apply consulimpl regs = (regs, .registry (regs.getRegistry url))) ∧
    ((RegistryCall.getRegistry url : RegistryCall loc ops).op = none →
      regs.getRegistry url = none) := by
  rw [RegistryCall.op, Registries.getRegistry]
  cases strstr (lit "://") url with
  | none => exact ⟨nofun, fun _ => rfl⟩
  | some delim => exact ⟨by rintro op ⟨rfl⟩; rfl, nofun⟩

/-- What is found by a search starts with what was searched for. -/
theorem prefix_of_strstr {needle s t : Text} (h : strstr needle s = some t) : needle <+: t := by
  induction s with
  | nil =>
    rw [strstr] at h
    split at h
    · next hnil =>
      cases h
      exact hnil ▸ List.nil_prefix
    · cases h
  | cons c s ih =>
    rw [strstr] at h
    split at h
    · next hc =>
      cases h
      exact hc
    · exact ih h

/-- `reginit`'s implementation for Consul, with its other functions. -/
def consulRegistry (o : ops) : RegistryImpl HostPort ops := ⟨edgexRegistryParseSimpleUrl, o⟩

theorem getRegistry_initial_iff {consulimpl : RegistryImpl loc ops} {url : Text}
    {reg : EdgexRegistry loc ops} :
    (Registries.initial consulimpl).getRegistry url = some reg ↔
      reg.impl = consulimpl ∧ ∃ location, url = lit "consul://" ++ location ∧
        consulimpl.parser location = some reg.location := by
  rw [Registries.getRegistry]
  cases hdelim : strstr (lit "://") url with
  | none =>
    refine iff_of_false nofun ?_
    rintro ⟨-, location, rfl, -⟩
    cases hdelim
  | some delim =>
    obtain ⟨location, rfl⟩ := prefix_of_strstr hdelim
    obtain ⟨name, rfl⟩ := strstr_suffix hdelim
    simp only [strndup_before, Registries.open, Registries.initial]
    constructor
    · intro h
      obtain ⟨impl, himpl, h⟩ := Option.bind_eq_some_iff.mp h
      obtain ⟨hname, himpl⟩ := Option.ite_none_right_eq_some.mp himpl
      obtain ⟨l, hl, h⟩ := Option.bind_eq_some_iff.mp h
      cases himpl
      cases h
      exact ⟨rfl, location, by rw [hname]; rfl, hl⟩
    · rintro ⟨himpl, location', hurl, hparse⟩
      obtain ⟨l, impl⟩ := reg
      cases himpl
      have hfound : strstr (lit "://") (lit "consul://" ++ location') =
          some (lit "://" ++ location') := rfl
      rw [hurl, hfound] at hdelim
      obtain rfl := List.append_cancel_left (Option.some.inj hdelim)
      have hname : name = lit "consul" := by
        have hurl : name ++ (lit "://" ++ location') = lit "consul" ++ (lit "://" ++ location') :=
          hurl
        exact List.append_cancel_right hurl
      have hparse : impl.parser ((lit "://" ++ location').drop 3) = some l := hparse
      rw [if_pos hname, Option.bind_eq_bind, Option.bind_some, hparse]
      rfl

end Registries

/-- Where nothing was added, a URL names a registry if it is that of Consul with a host up to the
first colon and a port behind it; the port is taken modulo `2 ^ 16`, so every port that is printed
is read back. -/
theorem getRegistry_consul_iff {ops : Type} (o : ops) :
    (∀ url reg, (Registries.initial (consulRegistry o)).getRegistry url = some reg ↔
      reg.impl = consulRegistry o ∧
        ∃ text, url = lit "consul://" ++ (reg.location.host ++ chr ':' :: text) ∧
          chr ':' ∉ reg.location.host ∧ PortText text reg.location.port) ∧
    ∀ host n, chr ':' ∉ host → n < 2 ^ 64 →
      (Registries.initial (consulRegistry o)).getRegistry
        (lit "consul://" ++ (host ++ chr ':' :: decimal n)) =
          some ⟨⟨host, UInt16.ofNat n⟩, consulRegistry o⟩ := by
  have hiff : ∀ url reg, (Registries.initial (consulRegistry o)).getRegistry url = some reg ↔
      reg.impl = consulRegistry o ∧
        ∃ text, url = lit "consul://" ++ (reg.location.host ++ chr ':' :: text) ∧
          chr ':' ∉ reg.location.host ∧ PortText text reg.location.port := by
    intro url reg
    rw [getRegistry_initial_iff]
    refine and_congr_right fun _ => ?_
    constructor
    · rintro ⟨location, rfl, hparse⟩
      obtain ⟨text, rfl, hnot, hport⟩ := parseSimpleUrl_iff.mp hparse
      exact ⟨text, rfl, hnot, hport⟩
    · rintro ⟨text, rfl, hnot, hport⟩
      exact ⟨_, rfl, parseSimpleUrl_iff.mpr ⟨text, rfl, hnot, hport⟩⟩
  refine ⟨hiff, fun host n hnot hn => (hiff _ _).mpr ⟨rfl, decimal n, rfl, hnot, ?_⟩⟩
  have hspaced : Spaced (decimal n) false (decimal n) :=
    ⟨[], [], rfl, List.forall_mem_nil _, List.mem_cons_self⟩
  refine ⟨false, decimal n, n, hspaced, numeralIn_decimal n, ?_⟩
  have hclamp : (clampULong (n : Int)).toNat = n := by
    rw [clampULong, if_pos (by omega)]
    omega
  rw [if_neg Bool.false_ne_true, hclamp]

end Zigbee
