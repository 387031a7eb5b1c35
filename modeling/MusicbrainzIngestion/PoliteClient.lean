import MusicbrainzIngestion.PoliteHttp
import MusicbrainzIngestion.Base.Machine
import MusicbrainzIngestion.Base.Spacing

/-! One polite client and the calls of `get` that share it. The time of the last request is
behind a mutex that is held across the sleep before the next one; a call goes from await to
await, and in between others go on and the clock does. -/

namespace MusicbrainzIngestion
open Base PoliteHttp

namespace PoliteClient

/-- Where a call of `get` is. -/
inductive Place where
  | waiting
  | sleeping (elapsed : Option Duration) (till : Nat)
  | sending (elapsed : Option Duration)
  | backingOff (till : Nat)
  | over

/-- A call, with what the turns of its loop have met. -/
structure Call where
  url : String
  run : GetRun
  exchanges : List Exchange
  place : Place

inductive Event where
  | requested
  | throttled (wait : Duration)

structure Entry (ι : Type) where
  caller : ι
  time : Nat
  event : Event

inductive Label (ι : Type) where
  | call (i : ι) (url : String)
  | lock (i : ι)
  | wake (i : ι)
  | reply (i : ι) (reply : Except String HttpResponse)
  | resume (i : ι)
  | cancel (i : ι)
  | tick (now : Duration)

end PoliteClient

/-- `log` has what the calls did, the latest first. -/
structure PoliteClient (ι : Type) where
  now : Duration
  lastRequest : Option Duration
  mutex : Option ι
  calls : ι → Option PoliteClient.Call
  log : List (PoliteClient.Entry ι)

namespace PoliteClient

variable {ι : Type} [DecidableEq ι] (build : Build) (cfg : PoliteConfig)

/-! ## Small steps of the state -/

/-- `Instant::elapsed`, which is zero for a later time. -/
def elapsed (s : PoliteClient ι) : Option Duration :=
  s.lastRequest.map fun t =>
    ⟨s.now.nanos - t.nanos, Nat.lt_of_le_of_lt (Nat.sub_le _ _) s.now.inRange⟩

def setCall (s : PoliteClient ι) (i : ι) (c : Call) : PoliteClient ι :=
  { s with calls := Function.update s.calls i (some c) }

def record (s : PoliteClient ι) (i : ι) (event : Event) : PoliteClient ι :=
  { s with log := ⟨i, s.now.nanos, event⟩ :: s.log }

/-- The gap is over: the time is noted, the mutex given up and the request sent. -/
def send (s : PoliteClient ι) (i : ι) (c : Call) (elapsed : Option Duration) : PoliteClient ι :=
  { (s.setCall i { c with place := .sending elapsed }).record i .requested with
    lastRequest := some s.now, mutex := none }

/-! ## A call -/

def call (s : PoliteClient ι) (i : ι) (url : String) : Option (PoliteClient ι) :=
  match s.calls i with
  | none => some (s.setCall i ⟨url, {}, [], .waiting⟩)
  | some _ => none

def lock (s : PoliteClient ι) (i : ι) : Option (PoliteClient ι) :=
  match s.calls i, s.mutex with
  | some c, none =>
    match c.place with
    | .waiting =>
      match waitForPoliteGap cfg s.elapsed with
      | none => some (s.send i c s.elapsed)
      | some toWait => some { s.setCall i
          { c with place := .sleeping s.elapsed (s.now.nanos + toWait.nanos) } with mutex := some i }
    | _ => none
  | _, _ => none

def wake (s : PoliteClient ι) (i : ι) : Option (PoliteClient ι) :=
  match s.calls i with
  | some c =>
    match c.place with
    | .sleeping elapsed till => if till ≤ s.now.nanos then some (s.send i c elapsed) else none
    | _ => none
  | none => none

/-- The rest of a turn of the loop; it ends the call or begins the wait the turn has chosen. -/
def reply (s : PoliteClient ι) (i : ι) (reply : Except String HttpResponse) :
    Option (PoliteClient ι) :=
  match s.calls i with
  | some c =>
    match c.place with
    | .sending elapsed =>
      let exchange : Exchange := ⟨elapsed, reply⟩
      let run := c.run.turn build cfg c.url exchange
      let exchanges := c.exchanges ++ [exchange]
      match run.outcome, run.waits.getLast? with
      | .looping, some wait =>
        some ((s.setCall i { c with
          run := run, exchanges := exchanges
          place := .backingOff (s.now.nanos + wait.nanos) }).record i (.throttled wait))
      | _, _ => some (s.setCall i { c with run := run, exchanges := exchanges, place := .over })
    | _ => none
  | none => none

def resume (s : PoliteClient ι) (i : ι) : Option (PoliteClient ι) :=
  match s.calls i with
  | some c =>
    match c.place with
    | .backingOff till =>
      if till ≤ s.now.nanos then some (s.setCall i { c with place := .waiting }) else none
    | _ => none
  | none => none

/-- The future of a call is dropped, and its guard with it. -/
def cancel (s : PoliteClient ι) (i : ι) : Option (PoliteClient ι) :=
  match s.calls i with
  | some c => some { s.setCall i { c with place := .over } with
      mutex := if s.mutex = some i then none else s.mutex }
  | none => none

/-- The clock does not go back. -/
def tick (s : PoliteClient ι) (now : Duration) : Option (PoliteClient ι) :=
  if s.now.nanos ≤ now.nanos then some { s with now := now } else none

/-! ## The machine -/

def step (s : PoliteClient ι) : Label ι → Option (PoliteClient ι)
  | .call i url => s.call i url
  | .lock i => s.lock cfg i
  | .wake i => s.wake i
  | .reply i reply => s.reply build cfg i reply
  | .resume i => s.resume i
  | .cancel i => s.cancel i
  | .tick now => s.tick now

def new (now : Duration) : PoliteClient ι where
  now := now
  lastRequest := none
  mutex := none
  calls _ := none
  log := []

def machine : Machine (PoliteClient ι) (Label ι) where
  init s := ∃ now, s = new now
  step := step build cfg

end PoliteClient

end MusicbrainzIngestion
