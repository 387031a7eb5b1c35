import Mathlib.Order.Basic

/-! An edge-triggered notification. A waiter is woken by every notification sent after it was
created, whether it was polled or not; nothing is kept for a waiter created later. -/

namespace Base

structure Notify where
  calls : Nat

/-- A waiter, with the number of notifications sent before it was created. -/
structure Notified where
  since : Nat

namespace Notify

def notified (n : Notify) : Notified := ⟨n.calls⟩

def notifyWaiters (n : Notify) : Notify := ⟨n.calls + 1⟩

end Notify

namespace Notified

def ready (w : Notified) (n : Notify) : Bool := w.since != n.calls

/-- The waiter was created from this notification. -/
def Of (w : Notified) (n : Notify) : Prop := w.since ≤ n.calls

@[simp] theorem ready_notified (n : Notify) : n.notified.ready n = false := bne_self_eq_false _

theorem of_notified (n : Notify) : n.notified.Of n := Nat.le_refl _

theorem Of.notifyWaiters {w : Notified} {n : Notify} (h : w.Of n) : w.Of n.notifyWaiters :=
  Nat.le_succ_of_le h

/-- A waiter that exists is woken. -/
theorem Of.ready_notifyWaiters {w : Notified} {n : Notify} (h : w.Of n) :
    w.ready n.notifyWaiters = true :=
  bne_iff_ne.mpr (Nat.ne_of_lt (Nat.lt_succ_of_le h))

end Notified

end Base
