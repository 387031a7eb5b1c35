import Mathlib.Data.List.Basic

/-! A bounded single-producer single-consumer channel. Either end can be dropped;
dropping the sender lets the receiver drain what is buffered, dropping the
receiver loses it. Sends and receives that have to wait are reported as such, so
a scheduler retries them instead of the channel blocking. -/

namespace Base

universe u

structure Channel (α : Type u) where
  capacity : Nat
  buffer : List α
  senderAlive : Bool
  receiverAlive : Bool
deriving DecidableEq

namespace Channel

variable {α : Type u}

def new (capacity : Nat) : Channel α :=
  { capacity, buffer := [], senderAlive := true, receiverAlive := true }

inductive Send (α : Type u) where
  | sent (c : Channel α)
  | full
  | closed

inductive Recv (α : Type u) where
  | received (a : α) (c : Channel α)
  | empty
  | closed

def send (c : Channel α) (a : α) : Send α :=
  if c.receiverAlive = false then .closed
  else if c.buffer.length < c.capacity then .sent { c with buffer := c.buffer ++ [a] }
  else .full

def recv (c : Channel α) : Recv α :=
  match c.buffer with
  | a :: rest => .received a { c with buffer := rest }
  | [] => if c.senderAlive then .empty else .closed

def dropSender (c : Channel α) : Channel α := { c with senderAlive := false }

def dropReceiver (c : Channel α) : Channel α := { c with receiverAlive := false }

@[simp] theorem dropSender_buffer (c : Channel α) : c.dropSender.buffer = c.buffer := rfl
@[simp] theorem dropReceiver_buffer (c : Channel α) : c.dropReceiver.buffer = c.buffer := rfl

theorem send_sent {c d : Channel α} {a : α} (h : c.send a = .sent d) :
    c.receiverAlive = true ∧ d = { c with buffer := c.buffer ++ [a] } := by
  unfold send at h
  split at h
  · cases h
  · next halive =>
    split at h
    · cases h
      exact ⟨by simpa using halive, rfl⟩
    · cases h

theorem send_closed {c : Channel α} {a : α} (h : c.send a = .closed) :
    c.receiverAlive = false := by
  unfold send at h
  split at h
  · assumption
  · split at h <;> cases h

theorem recv_received {c d : Channel α} {a : α} (h : c.recv = .received a d) :
    c.buffer = a :: d.buffer ∧ d = { c with buffer := d.buffer } := by
  unfold recv at h
  split at h
  · next hb =>
    cases h
    exact ⟨hb, rfl⟩
  · split at h <;> cases h

theorem recv_closed {c : Channel α} (h : c.recv = .closed) :
    c.buffer = [] ∧ c.senderAlive = false := by
  unfold recv at h
  split at h
  · cases h
  · next hb =>
    split at h
    · cases h
    · next hs => exact ⟨hb, by simpa using hs⟩

end Channel

end Base
