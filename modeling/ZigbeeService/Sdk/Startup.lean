-- SUMMARY: The loops in which the service waits for core-data and core-metadata (service.c), and when they report the truth.
import ZigbeeService.Lib.Arith

/-!
# Waiting for the other services

`startConfigured` pings core-data, then core-metadata, and counts down its retries in between. The
count starts as the setting `ConnectRetries`, an unsigned number that is stored in an `int`, and is
not 0 at the end if the service was found.
-/

namespace Zigbee

open CLib

-- ---------------------------------------------------------------------------
-- The loops
-- ---------------------------------------------------------------------------

/-- `while (!ping && --retries)`, after `n` pings: how many there are at the end, and what is left
of `retries`. The outcomes of the pings are given. -/
def waitLoop (ping : Nat → Bool) (n : Nat) (retries : Int) : Defined (Nat × Int) :=
  if ping n then .ok (n + 1, retries)
  else if retries ≤ -2 ^ 31 then .error .overflow
  else if retries - 1 = 0 then .ok (n + 1, 0)
  else waitLoop ping (n + 1) (retries - 1)
termination_by (retries + 2 ^ 31).toNat

/-- What comes of a loop: the pings that were sent, and whether the service is reported as found. -/
structure Wait where
  pings : Nat
  found : Bool
  deriving DecidableEq

/-- One loop with the test behind it. -/
def waitFor (connectretries : UInt32) (ping : Nat → Bool) : Defined Wait := do
  let (pings, retries) ← waitLoop ping 0 (toInt32 connectretries.toNat)
  .ok ⟨pings, retries ≠ 0⟩

/-- The part of `startConfigured` that waits. Without core-data there is no second loop. -/
def startConfiguredWaits (connectretries : UInt32) (dataPing metadataPing : Nat → Bool) :
    Defined (Wait × Option Wait) := do
  let data ← waitFor connectretries dataPing
  if data.found then
    let metadata ← waitFor connectretries metadataPing
    .ok (data, some metadata)
  else .ok (data, none)

-- ---------------------------------------------------------------------------
-- What is asked of them
-- ---------------------------------------------------------------------------

/-- At most as many pings as retries, at least one being allowed, and the service is reported as
found exactly when one of them succeeded. -/
def Wait.Truthful (connectretries : UInt32) (ping : Nat → Bool) (w : Wait) : Prop :=
  w.pings ≤ max 1 connectretries.toNat ∧ (w.found = true ↔ ∃ i < w.pings, ping i = true)

/-- Both loops end, and report the truth. -/
def WaitsTruthfully (connectretries : UInt32) (dataPing metadataPing : Nat → Bool) : Prop :=
  ∃ data metadata, startConfiguredWaits connectretries dataPing metadataPing =
      .ok (data, metadata) ∧
    data.Truthful connectretries dataPing ∧
    ∀ w ∈ metadata, w.Truthful connectretries metadataPing

/-- A ping succeeds before the count, which is negative from the start, falls below its range. -/
def AnswersInTime (connectretries : UInt32) (ping : Nat → Bool) : Prop :=
  ∃ i ≤ connectretries.toNat - 2 ^ 31, ping i = true

-- ---------------------------------------------------------------------------
-- One loop
-- ---------------------------------------------------------------------------

section Loop

variable {ping : Nat → Bool} {n k : Nat} {retries : Int}

/-- The first success ends the loop, if the count has not come to an end before. -/
theorem waitLoop_success (hfail : ∀ i < k, ping (n + i) = false) (hping : ping (n + k) = true)
    (hlow : -2 ^ 31 ≤ retries - k) (hcount : retries ≤ 0 ∨ k < retries) :
    waitLoop ping n retries = .ok (n + k + 1, retries - k) := by
  induction k generalizing n retries with
  | zero =>
    rw [Nat.add_zero] at hping
    rw [waitLoop, if_pos hping, Nat.add_zero, Int.natCast_zero, Int.sub_zero]
  | succ k ih =>
    have hfirst : ping n = false := hfail 0 (Nat.succ_pos k)
    have hrest : waitLoop ping (n + 1) (retries - 1) = .ok (n + 1 + k + 1, retries - 1 - k) := by
      refine ih (fun i hi => ?_) ?_ (by omega) (by omega)
      · rw [Nat.add_right_comm]
        exact hfail (i + 1) (Nat.succ_lt_succ hi)
      · rw [Nat.add_right_comm]
        exact hping
    rw [waitLoop, hfirst, if_neg Bool.false_ne_true, if_neg (by omega), if_neg (by omega), hrest]
    congr 2
    · omega
    · omega

/-- Without a success a positive count comes to 0. -/
theorem waitLoop_exhausted (hfail : ∀ i < k + 1, ping (n + i) = false) :
    waitLoop ping n (k + 1 : Nat) = .ok (n + k + 1, 0) := by
  induction k generalizing n with
  | zero =>
    have hfirst : ping n = false := hfail 0 Nat.one_pos
    rw [waitLoop, hfirst, if_neg Bool.false_ne_true, if_neg (by omega), if_pos (by omega),
      Nat.add_zero]
  | succ k ih =>
    have hfirst : ping n = false := hfail 0 (Nat.succ_pos _)
    have hcount : ((k + 1 + 1 : Nat) : Int) - 1 = (k + 1 : Nat) := by omega
    have hrest : waitLoop ping (n + 1) (k + 1 : Nat) = .ok (n + 1 + k + 1, 0) := by
      refine ih fun i hi => ?_
      rw [Nat.add_right_comm]
      exact hfail (i + 1) (Nat.succ_lt_succ hi)
    rw [waitLoop, hfirst, if_neg Bool.false_ne_true, if_neg (by omega), hcount,
      if_neg (by omega), hrest, Nat.add_right_comm n 1 k]
    rfl

/-- Without a success a count that is not positive falls below its range. -/
theorem waitLoop_overflow (hfail : ∀ i < k + 1, ping (n + i) = false)
    (hretries : retries = -2 ^ 31 + k) (hcount : retries ≤ 0) :
    waitLoop ping n retries = .error .overflow := by
  induction k generalizing n retries with
  | zero =>
    have hfirst : ping n = false := hfail 0 Nat.one_pos
    rw [waitLoop, hfirst, if_neg Bool.false_ne_true, if_pos (by omega)]
  | succ k ih =>
    have hfirst : ping n = false := hfail 0 (Nat.succ_pos _)
    have hrest : waitLoop ping (n + 1) (retries - 1) = .error .overflow := by
      refine ih (fun i hi => ?_) (by omega) (by omega)
      rw [Nat.add_right_comm]
      exact hfail (i + 1) (Nat.succ_lt_succ hi)
    rw [waitLoop, hfirst, if_neg Bool.false_ne_true, if_neg (by omega), if_neg (by omega), hrest]

end Loop

/-- Among the first pings either none succeeds, or there is a first that does. -/
theorem first_success (ping : Nat → Bool) (count : Nat) :
    (∀ i < count, ping (0 + i) = false) ∨
      ∃ k < count, (∀ i < k, ping (0 + i) = false) ∧ ping (0 + k) = true := by
  by_cases hany : ∃ k, k < count ∧ ping k = true
  · obtain ⟨hlt, hping⟩ := Nat.find_spec hany
    refine .inr ⟨Nat.find hany, hlt, fun i hi => ?_, by rwa [Nat.zero_add]⟩
    have hnot := Nat.find_min hany hi
    rw [Nat.zero_add, ← Bool.not_eq_true]
    exact fun htrue => hnot ⟨Nat.lt_trans hi hlt, htrue⟩
  · refine .inl fun i hi => ?_
    rw [Nat.zero_add, ← Bool.not_eq_true]
    exact fun htrue => hany ⟨i, hi, htrue⟩

section Wait

variable {connectretries : UInt32} {ping : Nat → Bool}

theorem waitFor_of_left {n : Nat} {retries left : Int}
    (hint : toInt32 connectretries.toNat = retries)
    (h : waitLoop ping 0 retries = .ok (n, left)) (hleft : left ≠ 0) :
    waitFor connectretries ping = .ok ⟨n, true⟩ := by
  rw [waitFor, hint, h, Defined.ok_bind]
  dsimp only
  rw [decide_eq_true hleft]

theorem waitFor_of_none_left {n : Nat} {retries : Int}
    (hint : toInt32 connectretries.toNat = retries)
    (h : waitLoop ping 0 retries = .ok (n, 0)) : waitFor connectretries ping = .ok ⟨n, false⟩ := by
  rw [waitFor, hint, h]
  rfl

/-- What is reported after a success is true. -/
theorem truthful_of_success {k : Nat} (hping : ping (0 + k) = true)
    (hk : k < connectretries.toNat) : Wait.Truthful connectretries ping ⟨0 + k + 1, true⟩ := by
  rw [Nat.zero_add] at hping ⊢
  exact ⟨Nat.le_trans hk (Nat.le_max_right 1 _), iff_of_true rfl ⟨k, Nat.lt_succ_self k, hping⟩⟩

/-- A number of retries that fits an `int` is kept to, and what is reported is true. -/
theorem waitFor_truthful (hpos : 0 < connectretries.toNat) (hlt : connectretries.toNat < 2 ^ 31)
    (ping : Nat → Bool) :
    ∃ w, waitFor connectretries ping = .ok w ∧ w.Truthful connectretries ping := by
  have hint : toInt32 connectretries.toNat = connectretries.toNat := toInt32_natCast hlt
  rcases first_success ping connectretries.toNat with hfail | ⟨k, hk, hfail, hping⟩
  · obtain ⟨m, hm⟩ : ∃ m, connectretries.toNat = m + 1 := ⟨connectretries.toNat - 1, by omega⟩
    rw [hm] at hfail
    have hloop := waitLoop_exhausted hfail
    rw [← hm, Nat.zero_add] at hloop
    refine ⟨_, waitFor_of_none_left hint hloop, ?_, ?_⟩
    · rw [hm]
      exact Nat.le_max_right 1 (m + 1)
    · refine iff_of_false Bool.false_ne_true ?_
      rintro ⟨i, hi, htrue⟩
      have hfalse := hfail i hi
      rw [Nat.zero_add, htrue] at hfalse
      cases hfalse
  · have hloop : waitLoop ping 0 connectretries.toNat =
        .ok (0 + k + 1, (connectretries.toNat : Int) - k) :=
      waitLoop_success hfail hping (by omega) (.inr (by omega))
    exact ⟨_, waitFor_of_left hint hloop (by omega), truthful_of_success hping hk⟩

/-- Without retries a first ping that succeeds is reported as a failure, and a first ping that fails
is followed by more than one. -/
theorem waitFor_zero {w : Wait} (h : waitFor 0 ping = .ok w) : ¬ w.Truthful 0 ping := by
  have hint : toInt32 (0 : UInt32).toNat = 0 := by decide
  rintro ⟨hpings, hfound⟩
  rcases first_success ping (2 ^ 31 + 1) with hfail | ⟨k, hk, hfail, hping⟩
  · have hloop : waitLoop ping 0 0 = .error .overflow :=
      waitLoop_overflow (k := 2 ^ 31) hfail (by norm_num) (by omega)
    rw [waitFor, hint, hloop, Defined.error_bind] at h
    cases h
  · have hloop : waitLoop ping 0 0 = .ok (0 + k + 1, 0 - k) :=
      waitLoop_success hfail hping (by omega) (.inl (by omega))
    by_cases hk : k = 0
    · subst hk
      cases h.symm.trans (waitFor_of_none_left hint hloop)
      cases hfound.mpr ⟨0, Nat.one_pos, hping⟩
    · cases h.symm.trans (waitFor_of_left hint hloop (by omega))
      rw [Nat.zero_add] at hpings
      have hle : k + 1 ≤ 1 := hpings
      omega

theorem toInt32_of_large {n : Nat} (hge : 2 ^ 31 ≤ n) (hlt : n < 2 ^ 32) :
    toInt32 n = (n : Int) - 2 ^ 32 := by
  rw [toInt32, toSigned, Int.bmod_def]
  omega

/-- More retries than an `int` holds are a negative count, which only a success ends. -/
theorem waitFor_large (hge : 2 ^ 31 ≤ connectretries.toNat) (ping : Nat → Bool) :
    (AnswersInTime connectretries ping ∧ ∃ w, waitFor connectretries ping = .ok w ∧
        w.Truthful connectretries ping ∧ w.found = true) ∨
      ¬ AnswersInTime connectretries ping ∧
        waitFor connectretries ping = .error .overflow := by
  have hlt := connectretries.toNat_lt
  have hint := toInt32_of_large hge hlt
  rcases first_success ping (connectretries.toNat - 2 ^ 31 + 1) with hfail | ⟨k, hk, hfail, hping⟩
  · refine .inr ⟨?_, ?_⟩
    · rintro ⟨i, hi, htrue⟩
      have hfalse := hfail i (Nat.lt_succ_of_le hi)
      rw [Nat.zero_add, htrue] at hfalse
      cases hfalse
    · rw [waitFor, hint, waitLoop_overflow hfail (by omega) (by omega), Defined.error_bind]
  · have hloop : waitLoop ping 0 (connectretries.toNat - 2 ^ 32) =
        .ok (0 + k + 1, (connectretries.toNat - 2 ^ 32 : Int) - k) :=
      waitLoop_success hfail hping (by omega) (.inl (by omega))
    have hfirst : ping k = true := by rwa [Nat.zero_add] at hping
    exact .inl ⟨⟨k, Nat.le_of_lt_succ hk, hfirst⟩, _, waitFor_of_left hint hloop (by omega),
      truthful_of_success hping (by omega), rfl⟩

end Wait

-- ---------------------------------------------------------------------------
-- Both loops
-- ---------------------------------------------------------------------------

section Both

variable {connectretries : UInt32} {dataPing metadataPing : Nat → Bool}

/-- The second loop is only asked for where the first reports success. -/
theorem waitsTruthfully_iff :
    WaitsTruthfully connectretries dataPing metadataPing ↔
      ∃ data, waitFor connectretries dataPing = .ok data ∧ data.Truthful connectretries dataPing ∧
        (data.found = true → ∃ metadata, waitFor connectretries metadataPing = .ok metadata ∧
          metadata.Truthful connectretries metadataPing) := by
  constructor
  · rintro ⟨data, metadata, h, htruth, htruth'⟩
    obtain ⟨w, hw, h⟩ := Defined.bind_eq_ok.mp h
    by_cases hfound : w.found = true
    · rw [if_pos hfound] at h
      obtain ⟨w', hw', h⟩ := Defined.bind_eq_ok.mp h
      cases h
      exact ⟨data, hw, htruth, fun _ => ⟨w', hw', htruth' w' rfl⟩⟩
    · rw [if_neg hfound] at h
      cases h
      exact ⟨data, hw, htruth, fun htrue => absurd htrue hfound⟩
  · rintro ⟨data, hw, htruth, hsecond⟩
    by_cases hfound : data.found = true
    · obtain ⟨metadata, hw', htruth'⟩ := hsecond hfound
      refine ⟨data, some metadata, ?_, htruth, ?_⟩
      · rw [startConfiguredWaits, hw, Defined.ok_bind, if_pos hfound, hw', Defined.ok_bind]
      · intro w hmem
        cases hmem
        exact htruth'
    · refine ⟨data, none, ?_, htruth, nofun⟩
      rw [startConfiguredWaits, hw, Defined.ok_bind, if_neg hfound]

/-- For a negative count both services have to answer. -/
theorem waitsTruthfully_large_iff (hge : 2 ^ 31 ≤ connectretries.toNat) :
    WaitsTruthfully connectretries dataPing metadataPing ↔
      AnswersInTime connectretries dataPing ∧ AnswersInTime connectretries metadataPing := by
  rw [waitsTruthfully_iff]
  constructor
  · rintro ⟨data, hw, -, hsecond⟩
    rcases waitFor_large hge dataPing with ⟨hdata, w, hw', -, hfound⟩ | ⟨-, hfault⟩
    · cases hw.symm.trans hw'
      obtain ⟨metadata, hmetadata, -⟩ := hsecond hfound
      rcases waitFor_large hge metadataPing with ⟨hanswer, -⟩ | ⟨-, hfault⟩
      · exact ⟨hdata, hanswer⟩
      · cases hmetadata.symm.trans hfault
    · cases hw.symm.trans hfault
  · rintro ⟨hdata, hmetadata⟩
    have hwaits : ∀ ping, AnswersInTime connectretries ping → ∃ w,
        waitFor connectretries ping = .ok w ∧ w.Truthful connectretries ping := by
      intro ping hanswer
      rcases waitFor_large hge ping with ⟨-, w, hw, htruth, -⟩ | ⟨hnot, -⟩
      · exact ⟨w, hw, htruth⟩
      · exact absurd hanswer hnot
    obtain ⟨data, hw, htruth⟩ := hwaits dataPing hdata
    exact ⟨data, hw, htruth, fun _ => hwaits metadataPing hmetadata⟩

end Both

/-- The service waits as it should exactly for 1 to `INT_MAX` retries, and for more if both services
answer before the negative count falls below its range. -/
theorem startConfigured_waits_iff (connectretries : UInt32) (dataPing metadataPing : Nat → Bool) :
    WaitsTruthfully connectretries dataPing metadataPing ↔
      0 < connectretries.toNat ∧ connectretries.toNat < 2 ^ 31 ∨
        2 ^ 31 ≤ connectretries.toNat ∧ AnswersInTime connectretries dataPing ∧
          AnswersInTime connectretries metadataPing := by
  by_cases hzero : connectretries.toNat = 0
  · have hretries : connectretries = 0 := UInt32.toNat_inj.mp hzero
    refine iff_of_false ?_ (by omega)
    rw [waitsTruthfully_iff, hretries]
    rintro ⟨data, hw, htruth, -⟩
    exact waitFor_zero hw htruth
  · have hpos := Nat.pos_of_ne_zero hzero
    by_cases hsmall : connectretries.toNat < 2 ^ 31
    · refine iff_of_true (waitsTruthfully_iff.mpr ?_) (.inl ⟨hpos, hsmall⟩)
      obtain ⟨data, hw, htruth⟩ := waitFor_truthful hpos hsmall dataPing
      exact ⟨data, hw, htruth, fun _ => waitFor_truthful hpos hsmall metadataPing⟩
    · have hge := Nat.not_lt.mp hsmall
      rw [waitsTruthfully_large_iff hge, or_iff_right fun hand => hsmall hand.2,
        and_iff_right hge]

/-- Services that answer at once are reported as down when no retries are configured, and with
`INT_MAX + 1` retries a first ping that fails is one too many. -/
theorem startConfigured_waits_wrong :
    (startConfiguredWaits 0 (fun _ => true) (fun _ => true) = .ok (⟨1, false⟩, none) ∧
      ¬ WaitsTruthfully 0 (fun _ => true) (fun _ => true)) ∧
    (startConfiguredWaits 2147483648 (fun _ => false) (fun _ => true) = .error .overflow ∧
      ¬ WaitsTruthfully 2147483648 (fun _ => false) (fun _ => true)) := by
  have hdown : startConfiguredWaits 0 (fun _ => true) (fun _ => true) =
      .ok (⟨1, false⟩, none) := by
    have hint : toInt32 (0 : UInt32).toNat = 0 := by decide
    have hloop : waitLoop (fun _ => true) 0 0 = .ok (1, 0) := by
      rw [waitLoop, if_pos rfl]
    rw [startConfiguredWaits, waitFor_of_none_left hint hloop]
    rfl
  have hfault : startConfiguredWaits 2147483648 (fun _ => false) (fun _ => true) =
      .error .overflow := by
    have hint : toInt32 (2147483648 : UInt32).toNat = -2 ^ 31 := by decide
    have hloop : waitLoop (fun _ => false) 0 (-2 ^ 31) = .error .overflow := by
      rw [waitLoop, if_neg Bool.false_ne_true, if_pos (by decide)]
    rw [startConfiguredWaits, waitFor, hint, hloop]
    rfl
  refine ⟨⟨hdown, ?_⟩, hfault, ?_⟩
  · rintro ⟨data, metadata, h, htruth, -⟩
    cases hdown.symm.trans h
    cases htruth.2.mpr ⟨0, Nat.one_pos, rfl⟩
  · rintro ⟨data, metadata, h, -⟩
    cases hfault.symm.trans h

end Zigbee
