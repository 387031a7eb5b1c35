import MusicbrainzIngestion.Types

/-! Publishing with confirms. A publish counts as delivered only when the broker
acknowledged it and did not return it as unroutable; every publish is recorded
with what became of it, in the order in which they were made. -/

namespace MusicbrainzIngestion
open Base

/-- What becomes of one publish, at whatever stage it stops. -/
inductive Reply where
  | noChannel (error : String)
  | notWritten (error : String)
  | timedOut
  | unconfirmed (error : String)
  | confirmation (acked : Bool) (returned : Option (Nat × String))
deriving DecidableEq

def exchangeName (exchangePrefix : String) (dt : DataType) : String :=
  exchangePrefix ++ "-" ++ dt.asStr

/-- Decide whether a publisher confirm actually proves delivery. -/
def checkConfirmation (exchange : String) (acked : Bool) (returned : Option (Nat × String)) :
    Except Error Unit :=
  match returned with
  | some (replyCode, replyText) =>
    .error ["Message to exchange '" ++ exchange ++ "' was returned as unroutable (" ++
      toString replyCode ++ " " ++ replyText ++ ") — no consumer queue is bound"]
  | none =>
    if acked then .ok () else .error ["Message was not acknowledged by broker"]

/-- The result of one publish. -/
def publishResult (exchange : String) : Reply → Except Error Unit
  | .noChannel e => .error [e]
  | .notWritten e => .error ["Failed to publish message", e]
  | .timedOut => .error ["Timed out after 30s waiting for publisher confirm"]
  | .unconfirmed e => .error ["Failed to confirm message delivery", e]
  | .confirmation acked returned => checkConfirmation exchange acked returned

/-- Acknowledged and not returned. -/
def Reply.delivered (r : Reply) : Bool := decide (r = .confirmation true none)

theorem publishResult_ok (exchange : String) (r : Reply) :
    publishResult exchange r = .ok () ↔ r.delivered = true := by
  cases r with
  | confirmation acked returned =>
    cases returned with
    | none => cases acked <;> simp [publishResult, checkConfirmation, Reply.delivered]
    | some returned => simp [publishResult, checkConfirmation, Reply.delivered]
  | noChannel e => simp [publishResult, Reply.delivered]
  | notWritten e => simp [publishResult, Reply.delivered]
  | timedOut => simp [publishResult, Reply.delivered]
  | unconfirmed e => simp [publishResult, Reply.delivered]

theorem publishResult_error {exchange : String} {r : Reply} {e : Error}
    (h : publishResult exchange r = .error e) : r.delivered = false := by
  rw [← Bool.not_eq_true, ← publishResult_ok exchange, h]
  exact fun h => nomatch h

/-- One publish: where, what, what became of it and when. -/
structure Attempt where
  exchange : DataType
  message : Message
  reply : Reply
  time : DateTime

namespace Attempt

def confirmed (a : Attempt) : Prop := a.reply.delivered = true

def isData (a : Attempt) : Bool :=
  match a.message with
  | .data _ => true
  | _ => false

end Attempt

/-- These messages were published to this exchange, in this order, and every one was
confirmed. -/
def Burst (exchange : DataType) (messages : List Message) (attempts : List Attempt) : Prop :=
  attempts.map Attempt.message = messages ∧ ∀ a ∈ attempts, a.exchange = exchange ∧ a.confirmed

theorem Burst.nil (exchange : DataType) : Burst exchange [] [] := ⟨rfl, by simp⟩

theorem Burst.snoc {exchange : DataType} {messages : List Message} {attempts : List Attempt}
    (h : Burst exchange messages attempts) {a : Attempt} (he : a.exchange = exchange)
    (hc : a.confirmed) : Burst exchange (messages ++ [a.message]) (attempts ++ [a]) := by
  refine ⟨by rw [List.map_append, h.1]; rfl, fun b hb => ?_⟩
  rcases List.mem_append.mp hb with hb | hb
  · exact h.2 b hb
  · rw [List.mem_singleton.mp hb]
    exact ⟨he, hc⟩

/-- The text `send_extraction_complete` keeps for an exchange that failed. -/
def announceError (dt : DataType) (e : Error) : String := dt.asStr ++ ": " ++ e.headD ""

/-- The result of announcing to every exchange: all are attempted before an error returns. -/
def announceResult (errors : List String) : Except Error Unit :=
  if errors = [] then .ok ()
  else .error ["Failed to send extraction_complete to " ++ toString errors.length ++
    " exchange(s): " ++ Text.joinWith "; " errors]

end MusicbrainzIngestion
