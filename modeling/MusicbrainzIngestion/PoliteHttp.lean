import MusicbrainzIngestion.DownloadRetry
import MusicbrainzIngestion.Base.FixedWidth

/-! The client every request to the upstream goes through: a gap between requests, a wait
after each throttled response, and a limit on how many of those one call sits out. -/

namespace MusicbrainzIngestion.PoliteHttp
open Base

structure PoliteConfig where
  minGap : Duration
  maxRetryAfter : Duration
  maxThrottleRetries : BitVec 32
  requestTimeout : Duration
  readTimeout : Duration
deriving DecidableEq

def PoliteConfig.musicbrainz : PoliteConfig where
  minGap := .fromSecs 2
  maxRetryAfter := .fromSecs (30 * 60)
  maxThrottleRetries := 5
  requestTimeout := .fromSecs 120
  readTimeout := .fromSecs 120

/-- A response with its headers, their names in lower case, in the order received. -/
structure HttpResponse extends DownloadResponse where
  headers : List (String × List UInt8)

namespace HttpResponse

/-- 429 or 503. -/
def throttled (r : HttpResponse) : Bool := r.status == 429 || r.status == 503

def header (r : HttpResponse) (name : String) : Option (List UInt8) :=
  (r.headers.find? fun h => h.1 == name).map Prod.snd

def statusText (r : HttpResponse) : String := toString r.status ++ " " ++ r.reason

end HttpResponse

/-- `HeaderValue::to_str`: visible ASCII, spaces and tabs. -/
def toStr (value : List UInt8) : Option String :=
  if value.all fun b => b == 9 || (32 ≤ b && b < 127) then
    some (String.ofList (value.map fun b => Char.ofNat b.toNat))
  else none

def retryAfterText (r : HttpResponse) : Option String :=
  ((r.header "retry-after").bind toStr).map Text.trim

def parseRetryAfter (r : HttpResponse) : Option Duration :=
  ((retryAfterText r).bind (parseUnsigned 64)).map .fromSecs

/-- The saturating product comes after the shift. -/
def retryDelay (serverWait : Option Duration) (attempt : BitVec 32) (maximum : Duration) :
    Computed Duration :=
  match serverWait with
  | some wait => .exact (wait.min maximum)
  | none => (Computed.shl (1 : BitVec 64) (saturatingSub attempt 1).toNat).map fun factor =>
      (Duration.fromSecs (saturatingMul 30 factor)).min maximum

/-- How long to sleep before a request that comes `elapsed` after the one before it. -/
def waitForPoliteGap (cfg : PoliteConfig) (elapsed : Option Duration) : Option Duration :=
  match elapsed with
  | none => none
  | some t => if h : t.nanos < cfg.minGap.nanos then some (cfg.minGap.sub t (Nat.le_of_lt h)) else none

/-! ## The loop -/

/-- What one turn of the loop meets: the time since the client's last request, if it made
one, and what comes of sending the next. -/
structure Exchange where
  elapsed : Option Duration
  reply : Except String HttpResponse

inductive Outcome
  | looping
  | returned (result : Except Error HttpResponse)
  | panicked

/-- A call of `get` so far; `overflowed` records whether a step of its arithmetic did. -/
structure GetRun where
  throttledAttempts : BitVec 32 := 0
  sent : Nat := 0
  gaps : List Duration := []
  waits : List Duration := []
  overflowed : Bool := false
  outcome : Outcome := .looping

def rateLimited (cfg : PoliteConfig) (url : String) (r : HttpResponse) : Error :=
  let hint := match parseRetryAfter r with
    | some wait => "Some(" ++ wait.debugText ++ ")"
    | none => "None"
  ["Rate limited by " ++ url ++ ": HTTP " ++ r.statusText ++ " after " ++
    toString cfg.maxThrottleRetries.toNat ++ " retries (last Retry-After hint: " ++ hint ++ ")"]

def sendFailed (url e : String) : Error := ["HTTP GET failed for " ++ url, e]

namespace GetRun

def finish (s : GetRun) (result : Except Error HttpResponse) : GetRun :=
  { s with outcome := .returned result }

/-- Go on with what an arithmetic step gives, unless the build stops there. -/
def compute {α : Type} (build : Build) (s : GetRun) (c : Computed α) (next : α → GetRun → GetRun) :
    GetRun :=
  let s := { s with overflowed := s.overflowed || c.overflowed }
  match build.run c with
  | none => { s with outcome := .panicked }
  | some a => next a s

/-- After a throttled response: count it, choose the wait, and only then look at the limit. -/
def backOff (build : Build) (cfg : PoliteConfig) (url : String) (response : HttpResponse)
    (s : GetRun) : GetRun :=
  s.compute build (.add s.throttledAttempts 1) fun attempts s =>
    let s := { s with throttledAttempts := attempts }
    s.compute build (retryDelay (parseRetryAfter response) attempts cfg.maxRetryAfter)
      fun chosenWait s =>
        if cfg.maxThrottleRetries < attempts then s.finish (.error (rateLimited cfg url response))
        else { s with waits := s.waits ++ [chosenWait] }

def turn (build : Build) (cfg : PoliteConfig) (url : String) (x : Exchange) (s : GetRun) : GetRun :=
  match s.outcome with
  | .returned _ => s
  | .panicked => s
  | .looping =>
    let s := { s with gaps := s.gaps ++ (waitForPoliteGap cfg x.elapsed).toList, sent := s.sent + 1 }
    match x.reply with
    | .error e => s.finish (.error (sendFailed url e))
    | .ok response =>
      if !response.throttled then s.finish (.ok response) else s.backOff build cfg url response

end GetRun

/-- `PoliteClient::get`, cut off after `n` turns of its loop. -/
def get (build : Build) (cfg : PoliteConfig) (url : String) (net : Nat → Exchange) : Nat → GetRun
  | 0 => {}
  | n + 1 => (get build cfg url net n).turn build cfg url (net n)

/-! ## The delay -/

/-- The number of seconds the header states, of any size. -/
def statedSeconds (r : HttpResponse) : Option Nat := (retryAfterText r).bind unsignedValue

/-- The wait owed after the throttled response with index `k`, in nanoseconds. -/
def owedWait (cfg : PoliteConfig) (k : Nat) (r : HttpResponse) : Nat :=
  match statedSeconds r with
  | some h => min (h * nanosPerSec) cfg.maxRetryAfter.nanos
  | none => min (30 * 2 ^ k * nanosPerSec) cfg.maxRetryAfter.nanos

/-- The seconds of the default delay, as far as 64 bits hold them. -/
def defaultSecs (k : Nat) : Nat := min (30 * 2 ^ k) (2 ^ 64 - 1)

theorem parse_of_stated {r : HttpResponse} {h : Nat} (hr : statedSeconds r = some h)
    (hh : h < 2 ^ 64) : ∃ d, parseRetryAfter r = some d ∧ d.nanos = h * nanosPerSec := by
  obtain ⟨s, hs, hv⟩ := Option.bind_eq_some_iff.mp hr
  refine ⟨.fromSecs (BitVec.ofNat 64 h), ?_, ?_⟩
  · rw [parseRetryAfter, hs, Option.bind_some, parseUnsigned_of_value hv hh, Option.map_some]
  · rw [Duration.fromSecs_nanos, BitVec.toNat_ofNat, Nat.mod_eq_of_lt hh]

theorem parse_eq_none_iff {r : HttpResponse} :
    parseRetryAfter r = none ↔ ∀ h, statedSeconds r = some h → 2 ^ 64 ≤ h := by
  unfold parseRetryAfter statedSeconds
  rw [Option.map_eq_none_iff]
  cases retryAfterText r with
  | none => simp
  | some s => exact parseUnsigned_eq_none

theorem retryDelay_exact_iff (serverWait : Option Duration) (attempt : BitVec 32)
    (maximum : Duration) :
    (retryDelay serverWait attempt maximum).overflowed = false ↔
      (serverWait = none → attempt.toNat - 1 < 64) := by
  cases serverWait with
  | some wait => simp [retryDelay]
  | none => simp [retryDelay, saturatingSub_toNat]

theorem retryDelay_stated {r : HttpResponse} {h : Nat} (hr : statedSeconds r = some h)
    (hh : h < 2 ^ 64) (attempt : BitVec 32) (maximum : Duration) :
    (retryDelay (parseRetryAfter r) attempt maximum).value.nanos =
      min (h * nanosPerSec) maximum.nanos := by
  obtain ⟨d, hd, hnanos⟩ := parse_of_stated hr hh
  rw [hd, ← hnanos]
  exact Duration.min_nanos d maximum

theorem retryDelay_default (attempt : BitVec 32) (maximum : Duration) (h : attempt.toNat - 1 < 64) :
    (retryDelay none attempt maximum).value.nanos =
      min (defaultSecs (attempt.toNat - 1) * nanosPerSec) maximum.nanos := by
  have hamount : (saturatingSub attempt 1).toNat = attempt.toNat - 1 := saturatingSub_toNat attempt 1
  have hfactor : (Computed.shl (1 : BitVec 64) (saturatingSub attempt 1).toNat).value.toNat =
      2 ^ (attempt.toNat - 1) := by
    rw [Computed.shl_one_toNat (by omega), hamount]
  have hthirty : (30 : BitVec 64).toNat = 30 := rfl
  rw [retryDelay, Computed.map_value, Duration.min_nanos, Duration.fromSecs_nanos,
    saturatingMul_toNat, hfactor, hthirty]
  rfl

/-- The default delay is short of the owed one from the 61st response on. -/
theorem defaultSecs_eq {k : Nat} (h : k < 60) : defaultSecs k = 30 * 2 ^ k := by
  have hpow : 2 ^ k ≤ 2 ^ 59 := Nat.pow_le_pow_right (by decide) (by omega)
  have hfits : 30 * 2 ^ 59 ≤ 2 ^ 64 - 1 := by decide
  exact Nat.min_eq_left (by omega)

theorem defaultSecs_saturated {k : Nat} (h : 60 ≤ k) :
    defaultSecs k = 2 ^ 64 - 1 ∧ 2 ^ 64 ≤ 30 * 2 ^ k := by
  have hpow : 2 ^ 60 ≤ 2 ^ k := Nat.pow_le_pow_right (by decide) h
  have hover : 2 ^ 64 ≤ 30 * 2 ^ 60 := by decide
  exact ⟨Nat.min_eq_right (by omega), by omega⟩

/-- The delay chosen after the throttled response with index `k`, in nanoseconds. -/
def chosenDelay (cfg : PoliteConfig) (k : Nat) (r : HttpResponse) : Nat :=
  (retryDelay (parseRetryAfter r) (BitVec.ofNat 32 (k + 1)) cfg.maxRetryAfter).value.nanos

/-- Neither the count nor the shift goes out of range. -/
structure Fits (k : Nat) (r : HttpResponse) : Prop where
  counted : k + 1 < 2 ^ 32
  shifted : (∀ h, statedSeconds r = some h → 2 ^ 64 ≤ h) → k < 64

theorem Fits.attempt_toNat {k : Nat} {r : HttpResponse} (h : Fits k r) :
    (BitVec.ofNat 32 (k + 1)).toNat = k + 1 := by
  rw [BitVec.toNat_ofNat, Nat.mod_eq_of_lt h.counted]

theorem Fits.chosenDelay_default {k : Nat} {r : HttpResponse} (h : Fits k r) (cfg : PoliteConfig)
    (hnone : ∀ n, statedSeconds r = some n → 2 ^ 64 ≤ n) :
    chosenDelay cfg k r = min (defaultSecs k * nanosPerSec) cfg.maxRetryAfter.nanos := by
  have hk : (BitVec.ofNat 32 (k + 1)).toNat - 1 = k := by
    rw [h.attempt_toNat]
    rfl
  have hdelay := retryDelay_default (BitVec.ofNat 32 (k + 1)) cfg.maxRetryAfter
    (by rw [hk]; exact h.shifted hnone)
  rw [chosenDelay, parse_eq_none_iff.mpr hnone, hdelay, hk]

/-- When the chosen delay is the owed one. -/
structure Capped (cfg : PoliteConfig) (k : Nat) (r : HttpResponse) : Prop where
  unstated : statedSeconds r = none → 60 ≤ k →
    cfg.maxRetryAfter.nanos ≤ (2 ^ 64 - 1) * nanosPerSec
  unread : ∀ h, statedSeconds r = some h → 2 ^ 64 ≤ h →
    cfg.maxRetryAfter.nanos ≤ defaultSecs k * nanosPerSec

/-- No maximum reaches 2^64 seconds. -/
theorem min_max_of_le (cfg : PoliteConfig) {n : Nat} (h : 2 ^ 64 ≤ n) :
    min (n * nanosPerSec) cfg.maxRetryAfter.nanos = cfg.maxRetryAfter.nanos := by
  have hlt := cfg.maxRetryAfter.inRange
  have hle : 2 ^ 64 * nanosPerSec ≤ n * nanosPerSec := Nat.mul_le_mul_right nanosPerSec h
  exact Nat.min_eq_right (by omega)

theorem unread_of_none {r : HttpResponse} (hr : statedSeconds r = none) (h : Nat)
    (hs : statedSeconds r = some h) : 2 ^ 64 ≤ h := by
  rw [hr] at hs
  cases hs

theorem unread_of_large {r : HttpResponse} {n : Nat} (hr : statedSeconds r = some n)
    (hn : 2 ^ 64 ≤ n) (h : Nat) (hs : statedSeconds r = some h) : 2 ^ 64 ≤ h := by
  rw [hr] at hs
  cases hs
  exact hn

/-- Where the maximum is owed, a default delay is right if the maximum is not above it. -/
theorem Fits.delay_max_iff {k : Nat} {r : HttpResponse} (h : Fits k r) (cfg : PoliteConfig)
    (hnone : ∀ n, statedSeconds r = some n → 2 ^ 64 ≤ n)
    (howed : owedWait cfg k r = cfg.maxRetryAfter.nanos) :
    chosenDelay cfg k r = owedWait cfg k r ↔
      cfg.maxRetryAfter.nanos ≤ defaultSecs k * nanosPerSec := by
  rw [howed, h.chosenDelay_default cfg hnone, min_eq_right_iff]

/-- A delay that is stated and can be read. -/
theorem delay_read (cfg : PoliteConfig) (k : Nat) {r : HttpResponse} {n : Nat}
    (hs : statedSeconds r = some n) (hn : n < 2 ^ 64) : chosenDelay cfg k r = owedWait cfg k r := by
  rw [chosenDelay, retryDelay_stated hs hn, owedWait, hs]

/-- A delay that is stated, of more seconds than can be read. -/
theorem Fits.delay_unread_iff {k : Nat} {r : HttpResponse} (h : Fits k r) (cfg : PoliteConfig)
    {n : Nat} (hs : statedSeconds r = some n) (hn : 2 ^ 64 ≤ n) :
    chosenDelay cfg k r = owedWait cfg k r ↔
      cfg.maxRetryAfter.nanos ≤ defaultSecs k * nanosPerSec := by
  refine h.delay_max_iff cfg (unread_of_large hs hn) ?_
  rw [owedWait, hs]
  exact min_max_of_le cfg hn

/-- A delay that is not stated: early the default is exact, later it saturates. -/
theorem Fits.delay_unstated_iff {k : Nat} {r : HttpResponse} (h : Fits k r) (cfg : PoliteConfig)
    (hs : statedSeconds r = none) :
    chosenDelay cfg k r = owedWait cfg k r ↔
      (60 ≤ k → cfg.maxRetryAfter.nanos ≤ (2 ^ 64 - 1) * nanosPerSec) := by
  by_cases hk : k < 60
  · have hearly : chosenDelay cfg k r = owedWait cfg k r := by
      rw [h.chosenDelay_default cfg (unread_of_none hs), defaultSecs_eq hk, owedWait, hs]
    refine iff_of_true hearly ?_
    intro hle
    omega
  · obtain ⟨hdefault, hover⟩ := defaultSecs_saturated (k := k) (by omega)
    have howed : owedWait cfg k r = cfg.maxRetryAfter.nanos := by
      rw [owedWait, hs]
      exact min_max_of_le cfg hover
    rw [h.delay_max_iff cfg (unread_of_none hs) howed, hdefault]
    constructor
    · intro hle _
      exact hle
    · intro hle
      exact hle (by omega)

theorem Fits.delay_owed_iff {k : Nat} {r : HttpResponse} (h : Fits k r) (cfg : PoliteConfig) :
    chosenDelay cfg k r = owedWait cfg k r ↔ Capped cfg k r := by
  constructor
  · intro howed
    constructor
    · intro hs
      exact (h.delay_unstated_iff cfg hs).mp howed
    · intro n hs hn
      exact (h.delay_unread_iff cfg hs hn).mp howed
  · intro hcap
    cases hs : statedSeconds r with
    | none => exact (h.delay_unstated_iff cfg hs).mpr (hcap.unstated hs)
    | some n =>
      by_cases hn : n < 2 ^ 64
      · exact delay_read cfg k hs hn
      · have hlarge : 2 ^ 64 ≤ n := by omega
        exact (h.delay_unread_iff cfg hs hlarge).mpr (hcap.unread n hs hlarge)

/-! ## One turn -/

def ThrottledAt (net : Nat → Exchange) (k : Nat) (r : HttpResponse) : Prop :=
  (net k).reply = .ok r ∧ r.throttled = true

def ThrottledBefore (net : Nat → Exchange) (k : Nat) : Prop := ∀ j < k, ∃ r, ThrottledAt net j r

section
variable (build : Build) (cfg : PoliteConfig) (url : String) (net : Nat → Exchange)

/-- A call that has sat out `k` throttled responses. -/
structure SatOut (k : Nat) (s : GetRun) : Prop where
  looping : s.outcome = .looping
  counted : s.throttledAttempts.toNat = k
  sent : s.sent = k
  slept : s.waits.length = k
  waited : ∀ j w, s.waits[j]? = some w → ∃ r, ThrottledAt net j r ∧ w.nanos = chosenDelay cfg j r
  exact : s.overflowed = false

/-- How a call ends with the reply of index `k`. -/
inductive EndsWith (k : Nat) : Except Error HttpResponse → Prop
  | accepted {r : HttpResponse} : (net k).reply = .ok r → r.throttled = false → EndsWith k (.ok r)
  | sendFailed {e : String} : (net k).reply = .error e → EndsWith k (.error (sendFailed url e))
  | rateLimited {r : HttpResponse} : k = cfg.maxThrottleRetries.toNat → ThrottledAt net k r →
      EndsWith k (.error (rateLimited cfg url r))

/-- A call that ended with the reply of index `k`, after as many waits. -/
structure Ended (k : Nat) (result : Except Error HttpResponse) (s : GetRun) : Prop where
  outcome : s.outcome = .returned result
  ends : EndsWith cfg url net k result
  sent : s.sent = k + 1
  slept : s.waits.length = k
  waited : ∀ j w, s.waits[j]? = some w → ∃ r, ThrottledAt net j r ∧ w.nanos = chosenDelay cfg j r
  exact : s.overflowed = false

theorem getElem?_snoc {α : Type} {l : List α} {a x : α} {j : Nat} (h : (l ++ [a])[j]? = some x) :
    l[j]? = some x ∨ j = l.length ∧ x = a := by
  rcases Nat.lt_trichotomy j l.length with hj | rfl | hj
  · rw [List.getElem?_append_left hj] at h
    exact .inl h
  · rw [List.getElem?_concat_length] at h
    cases h
    exact .inr ⟨rfl, rfl⟩
  · rw [List.getElem?_eq_none (by simp; omega)] at h
    cases h

theorem satOut_start : SatOut cfg net 0 {} :=
  ⟨rfl, rfl, rfl, rfl, fun j w h => by simp at h, rfl⟩

theorem compute_exact {α : Type} {s : GetRun} {c : Computed α} (hc : c.overflowed = false)
    (next : α → GetRun → GetRun) : s.compute build c next = next c.value s := by
  unfold GetRun.compute
  rw [build.run_exact hc, hc, Bool.or_false]

variable {build cfg url net} {k : Nat} {s : GetRun}

theorem SatOut.attempt (h : SatOut cfg net k s) {r : HttpResponse} (hfits : Fits k r) :
    (Computed.add s.throttledAttempts 1).overflowed = false ∧
      (Computed.add s.throttledAttempts 1).value = BitVec.ofNat 32 (k + 1) := by
  have hone : (1 : BitVec 32).toNat = 1 := rfl
  have hcounted := hfits.counted
  have hlt : s.throttledAttempts.toNat + (1 : BitVec 32).toNat < 2 ^ 32 := by
    rw [h.counted, hone]
    exact hcounted
  refine ⟨decide_eq_false (by omega), BitVec.eq_of_toNat_eq ?_⟩
  rw [Computed.add_toNat hlt, h.counted, hone, hfits.attempt_toNat]

theorem Fits.delay_exact {r : HttpResponse} (hfits : Fits k r) (cfg : PoliteConfig) :
    (retryDelay (parseRetryAfter r) (BitVec.ofNat 32 (k + 1)) cfg.maxRetryAfter).overflowed =
      false := by
  refine (retryDelay_exact_iff _ _ _).mpr fun hnone => ?_
  rw [hfits.attempt_toNat]
  exact hfits.shifted (parse_eq_none_iff.mp hnone)

/-- The turn of a throttled response whose arithmetic stays in range. -/
theorem SatOut.turn_throttled (build : Build) (url : String) (h : SatOut cfg net k s)
    {r : HttpResponse} (hr : ThrottledAt net k r) (hfits : Fits k r)
    (hk : k ≤ cfg.maxThrottleRetries.toNat) :
    (k < cfg.maxThrottleRetries.toNat ∧ SatOut cfg net (k + 1) (s.turn build cfg url (net k))) ∨
      Ended cfg url net k (.error (rateLimited cfg url r)) (s.turn build cfg url (net k)) := by
  obtain ⟨hadd, hattempt⟩ := h.attempt hfits
  have hdelay := hfits.delay_exact cfg
  rw [GetRun.turn, h.looping]
  simp only [hr.1, hr.2, Bool.not_true, Bool.false_eq_true, if_false]
  rw [GetRun.backOff, compute_exact build hadd, hattempt, compute_exact build hdelay]
  by_cases hlimit : cfg.maxThrottleRetries < BitVec.ofNat 32 (k + 1)
  · right
    have hlt : cfg.maxThrottleRetries.toNat < k + 1 := by
      rw [← hfits.attempt_toNat]
      exact hlimit
    rw [if_pos hlimit]
    refine ⟨rfl, .rateLimited (by omega) hr, ?_, h.slept, h.waited, h.exact⟩
    exact congrArg (· + 1) h.sent
  · left
    have hlt : k + 1 ≤ cfg.maxThrottleRetries.toNat := by
      rw [← hfits.attempt_toNat]
      exact BitVec.not_lt.mp hlimit
    rw [if_neg hlimit]
    refine ⟨hlt, rfl, hfits.attempt_toNat, congrArg (· + 1) h.sent, ?_, fun j w hw => ?_, h.exact⟩
    · simp [h.slept]
    · rcases getElem?_snoc hw with hold | ⟨rfl, rfl⟩
      · exact h.waited j w hold
      · rw [h.slept]
        exact ⟨r, hr, rfl⟩

/-- The turn of any other reply ends the call. -/
theorem SatOut.turn_other (build : Build) (url : String) (h : SatOut cfg net k s)
    (hother : ∀ r, ¬ ThrottledAt net k r) :
    ∃ result, Ended cfg url net k result (s.turn build cfg url (net k)) := by
  have hsent : s.sent + 1 = k + 1 := congrArg (· + 1) h.sent
  rw [GetRun.turn, h.looping]
  cases hreply : (net k).reply with
  | error e =>
    exact ⟨.error (sendFailed url e), rfl, .sendFailed hreply, hsent, h.slept, h.waited, h.exact⟩
  | ok r =>
    have hr : r.throttled = false := by
      cases hr : r.throttled with
      | false => rfl
      | true => exact absurd ⟨hreply, hr⟩ (hother r)
    simp only [hr, Bool.not_false, if_true]
    exact ⟨.ok r, rfl, .accepted hreply hr, hsent, h.slept, h.waited, h.exact⟩

theorem Ended.turn {result : Except Error HttpResponse} (build : Build)
    (h : Ended cfg url net k result s) (x : Exchange) : s.turn build cfg url x = s := by
  rw [GetRun.turn, h.outcome]

/-- An overflow stays on record. -/
theorem compute_keeps {α : Type} (build : Build) {c : Computed α} {next : α → GetRun → GetRun}
    (hnext : ∀ a t, t.overflowed = true → (next a t).overflowed = true)
    (h : s.overflowed = true ∨ c.overflowed = true) :
    (s.compute build c next).overflowed = true := by
  have hset : (s.overflowed || c.overflowed) = true := Bool.or_eq_true_iff.mpr h
  unfold GetRun.compute
  cases build.run c with
  | none => exact hset
  | some a => exact hnext a _ hset

/-- Nothing overflowed in the turn of a throttled response only if it could not. -/
theorem SatOut.fits_of_exact (h : SatOut cfg net k s) {r : HttpResponse} (hr : ThrottledAt net k r)
    (hexact : (s.turn build cfg url (net k)).overflowed = false) : Fits k r := by
  have hone : (1 : BitVec 32).toNat = 1 := rfl
  rw [GetRun.turn, h.looping] at hexact
  simp only [hr.1, hr.2, Bool.not_true, Bool.false_eq_true, if_false] at hexact
  have hlimit : ∀ attempts chosenWait (t : GetRun), t.overflowed = true →
      (if cfg.maxThrottleRetries < attempts then t.finish (.error (rateLimited cfg url r))
        else { t with waits := t.waits ++ [chosenWait] }).overflowed = true := by
    intro attempts chosenWait t ht
    split <;> exact ht
  have hdelays : ∀ attempts (t : GetRun), t.overflowed = true →
      (GetRun.compute build { t with throttledAttempts := attempts }
        (retryDelay (parseRetryAfter r) attempts cfg.maxRetryAfter) fun chosenWait s =>
          if cfg.maxThrottleRetries < attempts then s.finish (.error (rateLimited cfg url r))
          else { s with waits := s.waits ++ [chosenWait] }).overflowed = true :=
    fun attempts t ht => compute_keeps build (hlimit attempts) (.inl ht)
  cases hadd : (Computed.add s.throttledAttempts 1).overflowed with
  | true =>
    rw [GetRun.backOff, compute_keeps build hdelays (.inr hadd)] at hexact
    cases hexact
  | false =>
    have hcounted : k + 1 < 2 ^ 32 := by
      have hlt := of_decide_eq_false hadd
      rw [h.counted, hone] at hlt
      omega
    have hattempts : (Computed.add s.throttledAttempts 1).value.toNat = k + 1 := by
      rw [Computed.add_toNat (by rw [h.counted, hone]; exact hcounted), h.counted, hone]
    rw [GetRun.backOff, compute_exact build hadd] at hexact
    refine ⟨hcounted, fun hnone => ?_⟩
    cases hdelay : (retryDelay (parseRetryAfter r) (Computed.add s.throttledAttempts 1).value
        cfg.maxRetryAfter).overflowed with
    | true =>
      rw [compute_keeps build (hlimit _) (.inr hdelay)] at hexact
      cases hexact
    | false =>
      have hshift := (retryDelay_exact_iff _ _ _).mp hdelay (parse_eq_none_iff.mpr hnone)
      rw [hattempts] at hshift
      exact hshift

end

/-! ## Whole calls -/

section
variable (build : Build) (cfg : PoliteConfig) (url : String) (net : Nat → Exchange)

/-- While the arithmetic stays in range a call sits out throttled responses, up to its end. -/
theorem get_cases (n : Nat)
    (hfits : ∀ k r, k < n → k ≤ cfg.maxThrottleRetries.toNat → ThrottledBefore net k →
      ThrottledAt net k r → Fits k r) :
    (n ≤ cfg.maxThrottleRetries.toNat ∧ ThrottledBefore net n ∧
      SatOut cfg net n (get build cfg url net n)) ∨
    ∃ k result, k < n ∧ k ≤ cfg.maxThrottleRetries.toNat ∧ ThrottledBefore net k ∧
      Ended cfg url net k result (get build cfg url net n) := by
  induction n with
  | zero => exact .inl ⟨Nat.zero_le _, fun j hj => by omega, satOut_start cfg net⟩
  | succ n ih =>
    rcases ih fun k r hk => hfits k r (by omega) with
      ⟨hn, hbefore, hsat⟩ | ⟨k, result, hk, hmax, hbefore, hended⟩
    · by_cases hthrottled : ∃ r, ThrottledAt net n r
      · obtain ⟨r, hr⟩ := hthrottled
        rcases hsat.turn_throttled build url hr (hfits n r (by omega) hn hbefore hr) hn with
          ⟨hlt, hnext⟩ | hended
        · refine .inl ⟨hlt, fun j hj => ?_, hnext⟩
          rcases Nat.lt_succ_iff_lt_or_eq.mp hj with hj | rfl
          · exact hbefore j hj
          · exact ⟨r, hr⟩
        · exact .inr ⟨n, _, by omega, hn, hbefore, hended⟩
      · obtain ⟨result, hended⟩ :=
          hsat.turn_other build url fun r hr => hthrottled ⟨r, hr⟩
        exact .inr ⟨n, result, by omega, hn, hbefore, hended⟩
    · refine .inr ⟨k, result, by omega, hmax, hbefore, ?_⟩
      rw [get, hended.turn build]
      exact hended

/-- What one call owes, whatever the network replies. -/
structure ThrottleLaw (run : Nat → GetRun) : Prop where
  bounded : ∀ n, (run n).sent ≤ cfg.maxThrottleRetries.toNat + 1
  returns : ∃ n result, (run n).outcome = .returned result
  ends : ∀ n result, (run n).outcome = .returned result → ∃ k ≤ cfg.maxThrottleRetries.toNat,
    ThrottledBefore net k ∧ EndsWith cfg url net k result ∧ (run n).sent = k + 1 ∧
      (run n).waits.length = k
  waits : ∀ n k w, (run n).waits[k]? = some w →
    ∃ r, ThrottledAt net k r ∧ w.nanos = owedWait cfg k r
  increasing : ∀ n i j v w r r', i ≤ j → (run n).waits[i]? = some v → (run n).waits[j]? = some w →
    ThrottledAt net i r → statedSeconds r = none → ThrottledAt net j r' → statedSeconds r' = none →
    v.nanos ≤ w.nanos
  exact : ∀ n, (run n).overflowed = false

/-- What a throttled response must keep to: 32 bits count it, fewer than 65 came up to it unless
its delay can be read, and where its delay is slept, the maximum is not above one that
saturates or stands in for a stated delay. -/
structure Handled (k : Nat) (r : HttpResponse) : Prop where
  fits : Fits k r
  capped : k < cfg.maxThrottleRetries.toNat → Capped cfg k r

theorem ThrottledAt.unique {net : Nat → Exchange} {k : Nat} {r r' : HttpResponse}
    (h : ThrottledAt net k r) (h' : ThrottledAt net k r') : r = r' := by
  have hreply := h.1.symm.trans h'.1
  cases hreply
  rfl

theorem owedWait_le {i j : Nat} (hij : i ≤ j) {r r' : HttpResponse} (hr : statedSeconds r = none)
    (hr' : statedSeconds r' = none) : owedWait cfg i r ≤ owedWait cfg j r' := by
  have hpow : 2 ^ i ≤ 2 ^ j := Nat.pow_le_pow_right (by decide) hij
  have hsecs : 30 * 2 ^ i * nanosPerSec ≤ 30 * 2 ^ j * nanosPerSec :=
    Nat.mul_le_mul_right nanosPerSec (by omega)
  rw [owedWait, owedWait, hr, hr']
  exact min_le_min_right _ hsecs

theorem EndsWith.not_throttled {cfg : PoliteConfig} {url : String} {net : Nat → Exchange} {k : Nat}
    {result : Except Error HttpResponse} (h : EndsWith cfg url net k result)
    (hk : k < cfg.maxThrottleRetries.toNat) (r : HttpResponse) : ¬ ThrottledAt net k r := by
  rintro ⟨hreply, hthrottled⟩
  cases h with
  | accepted hr hstatus =>
    rw [hr] at hreply
    cases hreply
    rw [hstatus] at hthrottled
    cases hthrottled
  | sendFailed he =>
    rw [he] at hreply
    cases hreply
  | rateLimited hlast _ => omega

/-- What is slept is owed, once the replies before the end are handled. -/
theorem waits_owed {run : GetRun} {k : Nat} (hk : k ≤ cfg.maxThrottleRetries.toNat)
    (hbefore : ThrottledBefore net k) (hslept : run.waits.length = k)
    (hwaited : ∀ j w, run.waits[j]? = some w →
      ∃ r, ThrottledAt net j r ∧ w.nanos = chosenDelay cfg j r)
    (hhandled : ∀ k r, k ≤ cfg.maxThrottleRetries.toNat → ThrottledBefore net k →
      ThrottledAt net k r → Handled cfg k r) {j : Nat} {w : Duration} (hw : run.waits[j]? = some w) :
    ∃ r, ThrottledAt net j r ∧ w.nanos = owedWait cfg j r := by
  obtain ⟨r, hr, hnanos⟩ := hwaited j w hw
  have hj : j < k := by
    have hlt := (List.getElem?_eq_some_iff.mp hw).1
    omega
  have hr' := hhandled j r (by omega) (fun i hi => hbefore i (by omega)) hr
  refine ⟨r, hr, ?_⟩
  rw [hnanos]
  exact (hr'.fits.delay_owed_iff cfg).mpr (hr'.capped (by omega))

theorem handled_of_law (law : ThrottleLaw cfg url net (get build cfg url net)) :
    ∀ k r, k ≤ cfg.maxThrottleRetries.toNat → ThrottledBefore net k → ThrottledAt net k r →
      Handled cfg k r := by
  intro k
  induction k using Nat.strong_induction_on with
  | _ k ih =>
    intro r hk hbefore hr
    have hsat : SatOut cfg net k (get build cfg url net k) := by
      rcases get_cases build cfg url net k fun j r hj hmax hb hr => (ih j hj r hmax hb hr).fits with
        ⟨-, -, hsat⟩ | ⟨j, result, hj, -, -, hended⟩
      · exact hsat
      · obtain ⟨r, hr⟩ := hbefore j hj
        exact absurd hr (hended.ends.not_throttled (by omega) r)
    have hfits : Fits k r := hsat.fits_of_exact hr (law.exact (k + 1))
    refine ⟨hfits, fun hlt => (hfits.delay_owed_iff cfg).mp ?_⟩
    rcases hsat.turn_throttled build url hr hfits hk with ⟨-, hnext⟩ | hended
    · obtain ⟨w, hw⟩ : ∃ w, (get build cfg url net (k + 1)).waits[k]? = some w := by
        refine ⟨_, List.getElem?_eq_getElem ?_⟩
        have hslept : (get build cfg url net (k + 1)).waits.length = k + 1 := hnext.slept
        omega
      obtain ⟨r', hr', hchosen⟩ := hnext.waited k w hw
      obtain ⟨r'', hr'', howed⟩ := law.waits (k + 1) k w hw
      rw [hr.unique hr', ← hchosen, howed, hr'.unique hr'']
    · exact absurd hr (hended.ends.not_throttled hlt r)

theorem law_of_handled
    (hhandled : ∀ k r, k ≤ cfg.maxThrottleRetries.toNat → ThrottledBefore net k →
      ThrottledAt net k r → Handled cfg k r) :
    ThrottleLaw cfg url net (get build cfg url net) := by
  have hcases := fun n => get_cases build cfg url net n
    fun k r _ hk hbefore hr => (hhandled k r hk hbefore hr).fits
  have hwaits : ∀ n k w, (get build cfg url net n).waits[k]? = some w →
      ∃ r, ThrottledAt net k r ∧ w.nanos = owedWait cfg k r := by
    intro n k w hw
    rcases hcases n with ⟨hn, hbefore, hsat⟩ | ⟨j, result, -, hj, hbefore, hended⟩
    · exact waits_owed cfg net hn hbefore hsat.slept hsat.waited hhandled hw
    · exact waits_owed cfg net hj hbefore hended.slept hended.waited hhandled hw
  refine ⟨fun n => ?_, ?_, fun n result hresult => ?_, hwaits, ?_, fun n => ?_⟩
  · rcases hcases n with ⟨hn, -, hsat⟩ | ⟨k, result, -, hk, -, hended⟩
    · rw [hsat.sent]
      omega
    · rw [hended.sent]
      omega
  · rcases hcases (cfg.maxThrottleRetries.toNat + 1) with ⟨hn, -, -⟩ | ⟨k, result, -, -, -, hended⟩
    · omega
    · exact ⟨_, result, hended.outcome⟩
  · rcases hcases n with ⟨-, -, hsat⟩ | ⟨k, result', -, hk, hbefore, hended⟩
    · rw [hsat.looping] at hresult
      cases hresult
    · rw [hended.outcome] at hresult
      cases hresult
      exact ⟨k, hk, hbefore, hended.ends, hended.sent, hended.slept⟩
  · intro n i j v w r r' hij hv hw hr hnone hr' hnone'
    obtain ⟨ri, hri, hvi⟩ := hwaits n i v hv
    obtain ⟨rj, hrj, hwj⟩ := hwaits n j w hw
    rw [hvi, hwj, hri.unique hr, hrj.unique hr']
    exact owedWait_le cfg hij hnone hnone'
  · rcases hcases n with ⟨-, -, hsat⟩ | ⟨k, result, -, -, -, hended⟩
    · exact hsat.exact
    · exact hended.exact

/-- A call of `get` keeps the law exactly when each throttled response it comes to, up to the
one that ends the loop, can be handled. -/
theorem throttling_bounded_iff :
    ThrottleLaw cfg url net (get build cfg url net) ↔
      ∀ k r, k ≤ cfg.maxThrottleRetries.toNat → ThrottledBefore net k → ThrottledAt net k r →
        Handled cfg k r :=
  ⟨handled_of_law build cfg url net, law_of_handled build cfg url net⟩

end

/-- The client the downloader is built with keeps the law with every upstream whose delays
can be read. -/
theorem musicbrainz_keeps_law (build : Build) (url : String) (net : Nat → Exchange)
    (hread : ∀ k r h, ThrottledAt net k r → statedSeconds r = some h → h < 2 ^ 64) :
    ThrottleLaw .musicbrainz url net (get build .musicbrainz url net) := by
  have hmax : PoliteConfig.musicbrainz.maxThrottleRetries.toNat = 5 := rfl
  refine law_of_handled build .musicbrainz url net fun k r hk _ hr => ?_
  rw [hmax] at hk
  refine ⟨⟨by omega, fun _ => by omega⟩, fun _ => ⟨fun _ hlate => by omega, fun h hh hlarge => ?_⟩⟩
  have hlt := hread k r h hr hh
  omega

/-- A limit of 64 retries, and an upstream that answers 429 without a delay for good. -/
def patientConfig : PoliteConfig := { PoliteConfig.musicbrainz with maxThrottleRetries := 64 }

def alwaysThrottled (n : Nat) : Exchange where
  elapsed := if n = 0 then none else some (.fromSecs 1800)
  reply := .ok ⟨⟨429, "Too Many Requests", ⟨[], none⟩⟩, []⟩

/-- The delay computed for the response that ends the loop shifts by 64, in a build that stops
there and in one that does not. -/
theorem throttling_not_bounded :
    (¬ ThrottleLaw patientConfig "https://data.metabrainz.org" alwaysThrottled
      (get .checked patientConfig "https://data.metabrainz.org" alwaysThrottled)) ∧
    ¬ ThrottleLaw patientConfig "https://data.metabrainz.org" alwaysThrottled
      (get .wrapping patientConfig "https://data.metabrainz.org" alwaysThrottled) := by
  have hover : ∀ build,
      (get build patientConfig "https://data.metabrainz.org" alwaysThrottled 65).overflowed = true := by
    intro build
    cases build <;> decide +kernel
  constructor
  · intro law
    have hexact := law.exact 65
    rw [hover] at hexact
    cases hexact
  · intro law
    have hexact := law.exact 65
    rw [hover] at hexact
    cases hexact

end MusicbrainzIngestion.PoliteHttp
