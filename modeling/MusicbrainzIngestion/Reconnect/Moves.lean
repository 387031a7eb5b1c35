import MusicbrainzIngestion.Reconnect

/-! What one step of the callers, or of the connection, can do. -/

namespace MusicbrainzIngestion
open Base

namespace MessageQueue

variable {ι : Type} [DecidableEq ι]

/-- What a step can do, with what it found. -/
inductive Move (maxRetries : Nat) (s : MessageQueue ι) : Label ι → MessageQueue ι → Prop where
  | calls {i : ι} (hc : s.calls i = none ∨ ∃ result, s.calls i = some (.returned result)) :
    Move maxRetries s (.call i) (s.setCall i .looking)
  | finds {i : ι} {c : ChannelId} (hc : s.calls i = some .looking)
    (hchannel : s.connectedChannel = some c) :
    Move maxRetries s (.look i) (s.setCall i (.returned (.ok c)))
  | misses {i : ι} (hc : s.calls i = some .looking) (hchannel : s.connectedChannel = none) :
    Move maxRetries s (.look i) (s.setCall i .queued)
  | locks {i : ι} (hc : s.calls i = some .queued) (hm : s.reconnectMutex = none) :
    Move maxRetries s (.lock i) { s.setCall i .rechecking with reconnectMutex := some i }
  | findsAgain {i : ι} {c : ChannelId} (hc : s.calls i = some .rechecking)
    (hchannel : s.connectedChannel = some c) :
    Move maxRetries s (.recheck i) (s.setCall i (.returned (.ok c))).unlock
  | reconnects {i : ι} (hc : s.calls i = some .rechecking) (hchannel : s.connectedChannel = none) :
    Move maxRetries s (.recheck i)
      { s.setCall i (.connecting 0 1) with reconnects := s.reconnects + 1 }
  | connects {i : ι} {n b : Nat} (hc : s.calls i = some (.connecting n b)) :
    Move maxRetries s (.tryConnect i none)
      { s.setCall i (.storing s.opened) with
        connection := some s.opened, opened := s.opened + 1, attempts := s.attempts + 1 }
  | givesUp {i : ι} {n b : Nat} {e e' : Error} (hc : s.calls i = some (.connecting n b))
    (hlast : maxRetries ≤ n + 1) :
    Move maxRetries s (.tryConnect i (some e))
      { (s.setCall i (.returned (.error e'))).unlock with
        failures := s.failures + 1, attempts := s.attempts + 1 }
  | sleeps {i : ι} {n b : Nat} {e : Error} (hc : s.calls i = some (.connecting n b))
    (hmore : n + 1 < maxRetries) :
    Move maxRetries s (.tryConnect i (some e))
      { s.setCall i (.sleeping (n + 1) b) with attempts := s.attempts + 1 }
  | wakes {i : ι} {n b : Nat} (hc : s.calls i = some (.sleeping n b)) :
    Move maxRetries s (.wake i) (s.setCall i (.connecting n (min (b * 2) 30)))
  | stores {i : ι} {c : ChannelId} (hc : s.calls i = some (.storing c)) :
    Move maxRetries s (.store i) { s.setCall i .collecting with channel := some c }
  | collects {i : ι} {result : Except Error ChannelId} (hc : s.calls i = some .collecting)
    (hr : ∀ c, result = .ok c → s.channel = some c) :
    Move maxRetries s (.collect i) (s.setCall i (.returned result)).unlock
  | cancels {i : ι} {c : Call} (hc : s.calls i = some c) (hopen : ∀ result, c ≠ .returned result) :
    Move maxRetries s (.cancel i) { s with
      calls := Function.update s.calls i none
      reconnectMutex := if s.reconnectMutex = some i then none else s.reconnectMutex
      lost := c.unstored ++ s.lost
      cancelled := if c.reconnects then s.cancelled + 1 else s.cancelled }
  | loses {c : ChannelId} (hc : c < s.opened) :
    Move maxRetries s (.lose c) { s with lost := c :: s.lost }
  | closesChannel : Move maxRetries s .closeChannel s.closeChannel
  | closesConnection : Move maxRetries s .closeConnection s.closeConnection

variable {maxRetries : Nat} {s t : MessageQueue ι} {l : Label ι}

theorem tryConnect_move {i : ι} {fault : Option Error} (h : s.tryConnect maxRetries i fault = some t) :
    Move maxRetries s (.tryConnect i fault) t := by
  unfold tryConnect at h
  split at h
  · next n b hc =>
    dsimp only at h
    split at h
    · cases h
      exact .connects hc
    · split at h <;> cases h
      · next hlast => exact .givesUp hc hlast
      · next hmore => exact .sleeps hc (by omega)
  · cases h

theorem step_move (h : step maxRetries s l = some t) : Move maxRetries s l t := by
  cases l with
  | tryConnect i fault => exact tryConnect_move h
  | call i =>
    simp only [step, call] at h
    split at h <;> cases h
    · next hc => exact .calls (.inl hc)
    · next result hc => exact .calls (.inr ⟨result, hc⟩)
  | look i =>
    simp only [step, look] at h
    split at h
    · next hc =>
      split at h <;> cases h
      · next hchannel => exact .finds hc hchannel
      · next hchannel => exact .misses hc hchannel
    · cases h
  | lock i =>
    simp only [step, lock] at h
    split at h <;> cases h
    next hc hm => exact .locks hc hm
  | recheck i =>
    simp only [step, recheck] at h
    split at h
    · next hc =>
      split at h <;> cases h
      · next hchannel => exact .findsAgain hc hchannel
      · next hchannel => exact .reconnects hc hchannel
    · cases h
  | wake i =>
    simp only [step, wake] at h
    split at h <;> cases h
    next hc => exact .wakes hc
  | store i =>
    simp only [step, store] at h
    split at h <;> cases h
    next hc => exact .stores hc
  | collect i =>
    simp only [step, collect] at h
    split at h
    · next hc =>
      split at h <;> cases h
      · next hchannel => exact .collects hc fun c heq => by cases heq; exact hchannel
      · exact .collects hc fun c heq => by cases heq
    · cases h
  | cancel i =>
    simp only [step, cancel] at h
    split at h <;> cases h
    next hopen hc => exact .cancels hc hopen
  | lose c =>
    simp only [step, lose] at h
    split at h <;> cases h
    next hc => exact .loses hc
  | closeChannel =>
    cases h
    exact .closesChannel
  | closeConnection =>
    cases h
    exact .closesConnection

end MessageQueue

end MusicbrainzIngestion
