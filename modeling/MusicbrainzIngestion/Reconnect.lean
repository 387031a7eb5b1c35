import Mathlib.Logic.Function.Basic
import MusicbrainzIngestion.Base.Work
import MusicbrainzIngestion.Types

/-! The connection to the broker, shared by the callers of one queue. A call of
`get_channel` takes the channel it finds connected; one that finds none queues for the
mutex, looks again and reconnects, with a bounded number of attempts. Each label is one
piece of one call that no other call can come between, or something that befalls the
connection. -/

namespace MusicbrainzIngestion
open Base

namespace MessageQueue

/-- Channels are numbered in the order in which they are opened, each on a connection of its own. -/
abbrev ChannelId := Nat

/-- Where a call of `get_channel` is. From `rechecking` on it has the mutex. -/
inductive Call where
  | looking
  | queued
  | rechecking
  | connecting (retryCount backoff : Nat)
  | sleeping (retryCount backoff : Nat)
  | storing (channel : ChannelId)
  | collecting
  | returned (result : Except Error ChannelId)

inductive Label (ι : Type) where
  | call (i : ι)
  | look (i : ι)
  | lock (i : ι)
  | recheck (i : ι)
  | tryConnect (i : ι) (fault : Option Error)
  | wake (i : ι)
  | store (i : ι)
  | collect (i : ι)
  | cancel (i : ι)
  | lose (channel : ChannelId)
  | closeChannel
  | closeConnection

end MessageQueue

/-- `lost` has the channels that are no longer connected; `reconnects` is the counter of the
telemetry, `failures` and `cancelled` are the reconnections that came to nothing, and
`attempts` is what all of them tried. -/
structure MessageQueue (ι : Type) where
  connection : Option MessageQueue.ChannelId
  channel : Option MessageQueue.ChannelId
  reconnectMutex : Option ι
  calls : ι → Option MessageQueue.Call
  opened : Nat
  lost : List MessageQueue.ChannelId
  reconnects : Nat
  failures : Nat
  cancelled : Nat
  attempts : Nat

namespace MessageQueue

variable {ι : Type} [DecidableEq ι] (maxRetries : Nat)

/-! ## Small steps of the state -/

def setCall (s : MessageQueue ι) (i : ι) (call : Call) : MessageQueue ι :=
  { s with calls := Function.update s.calls i (some call) }

def unlock (s : MessageQueue ι) : MessageQueue ι := { s with reconnectMutex := none }

def connectedChannel (s : MessageQueue ι) : Option ChannelId :=
  s.channel.filter fun c => !s.lost.contains c

/-! ## A call -/

def call (s : MessageQueue ι) (i : ι) : Option (MessageQueue ι) :=
  match s.calls i with
  | none | some (.returned _) => some (s.setCall i .looking)
  | _ => none

def look (s : MessageQueue ι) (i : ι) : Option (MessageQueue ι) :=
  match s.calls i with
  | some .looking =>
    match s.connectedChannel with
    | some c => some (s.setCall i (.returned (.ok c)))
    | none => some (s.setCall i .queued)
  | _ => none

def lock (s : MessageQueue ι) (i : ι) : Option (MessageQueue ι) :=
  match s.calls i, s.reconnectMutex with
  | some .queued, none => some { s.setCall i .rechecking with reconnectMutex := some i }
  | _, _ => none

/-- Another caller may have reconnected meanwhile. -/
def recheck (s : MessageQueue ι) (i : ι) : Option (MessageQueue ι) :=
  match s.calls i with
  | some .rechecking =>
    match s.connectedChannel with
    | some c => some (s.setCall i (.returned (.ok c))).unlock
    | none => some { s.setCall i (.connecting 0 1) with reconnects := s.reconnects + 1 }
  | _ => none

/-- One attempt: it stores the new connection, or counts up and sleeps before the next. -/
def tryConnect (s : MessageQueue ι) (i : ι) (fault : Option Error) : Option (MessageQueue ι) :=
  match s.calls i with
  | some (.connecting retryCount backoff) =>
    let t := { s with attempts := s.attempts + 1 }
    match fault with
    | none => some {
        t.setCall i (.storing s.opened) with connection := some s.opened, opened := s.opened + 1 }
    | some e =>
      if maxRetries ≤ retryCount + 1 then
        some { (t.setCall i (.returned (.error
          ("Failed to connect to AMQP broker after retries" :: e)))).unlock with
            failures := s.failures + 1 }
      else some (t.setCall i (.sleeping (retryCount + 1) backoff))
  | _ => none

def wake (s : MessageQueue ι) (i : ι) : Option (MessageQueue ι) :=
  match s.calls i with
  | some (.sleeping retryCount backoff) =>
    some (s.setCall i (.connecting retryCount (min (backoff * 2) 30)))
  | _ => none

def store (s : MessageQueue ι) (i : ι) : Option (MessageQueue ι) :=
  match s.calls i with
  | some (.storing c) => some { s.setCall i .collecting with channel := some c }
  | _ => none

/-- The channel just stored is returned without looking whether it is still connected. -/
def collect (s : MessageQueue ι) (i : ι) : Option (MessageQueue ι) :=
  match s.calls i with
  | some .collecting =>
    match s.channel with
    | some c => some (s.setCall i (.returned (.ok c))).unlock
    | none => some (s.setCall i (.returned (.error
        ["Failed to get channel after reconnection"]))).unlock
  | _ => none

/-- Is this call a reconnection that has not opened a channel? -/
def Call.reconnects : Call → Bool
  | .connecting _ _ | .sleeping _ _ => true
  | _ => false

/-- The channel that only the call knows of. -/
def Call.unstored : Call → List ChannelId
  | .storing c => [c]
  | _ => []

/-- The future of a call is dropped, and with it its guard and a channel not stored yet. -/
def cancel (s : MessageQueue ι) (i : ι) : Option (MessageQueue ι) :=
  match s.calls i with
  | none | some (.returned _) => none
  | some call => some { s with
      calls := Function.update s.calls i none
      reconnectMutex := if s.reconnectMutex = some i then none else s.reconnectMutex
      lost := call.unstored ++ s.lost
      cancelled := if call.reconnects then s.cancelled + 1 else s.cancelled }

/-! ## The connection -/

def lose (s : MessageQueue ι) (c : ChannelId) : Option (MessageQueue ι) :=
  if c < s.opened then some { s with lost := c :: s.lost } else none

def closeChannel (s : MessageQueue ι) : MessageQueue ι :=
  { s with channel := none, lost := s.channel.toList ++ s.lost }

/-- What runs on a connection that is closed is lost. -/
def closeConnection (s : MessageQueue ι) : MessageQueue ι :=
  { s with connection := none, lost := s.connection.toList ++ s.lost }

/-! ## The machine -/

def step (s : MessageQueue ι) : Label ι → Option (MessageQueue ι)
  | .call i => s.call i
  | .look i => s.look i
  | .lock i => s.lock i
  | .recheck i => s.recheck i
  | .tryConnect i fault => s.tryConnect maxRetries i fault
  | .wake i => s.wake i
  | .store i => s.store i
  | .collect i => s.collect i
  | .cancel i => s.cancel i
  | .lose c => s.lose c
  | .closeChannel => some s.closeChannel
  | .closeConnection => some s.closeConnection

/-- A queue as `new` returns it: its first connection made, and nobody has called. -/
def new : MessageQueue ι where
  connection := some 0
  channel := some 0
  reconnectMutex := none
  calls _ := none
  opened := 1
  lost := []
  reconnects := 0
  failures := 0
  cancelled := 0
  attempts := 0

def machine : Machine (MessageQueue ι) (Label ι) where
  init s := s = new
  step := step maxRetries

end MessageQueue

end MusicbrainzIngestion
