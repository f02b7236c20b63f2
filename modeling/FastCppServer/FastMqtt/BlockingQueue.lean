import FastCppServer.Lib.Fifo

/-!
# The blocking queue

`BlockingQueue.hpp`. Every operation holds the mutex of the queue from its first to its last access,
but for the wait of a `Pop`, so it is a function on the queue; `pop` is what a timed `Pop` does each
time it looks at the queue.
-/

namespace FastMqtt

open Fifo

/-- A capacity of 0 is no limit. -/
structure BlockingQueue (α : Type) where
  items : List α := []
  maxSize : Nat := 0
  shutdown : Bool := false

namespace BlockingQueue

variable {α : Type}

/-- `Push`: whether the queue takes the item. -/
def push (q : BlockingQueue α) (a : α) : BlockingQueue α × Bool :=
  if q.shutdown then (q, false)
  else if q.maxSize ≠ 0 ∧ q.maxSize ≤ q.items.length then (q, false)
  else ({ q with items := q.items ++ [a] }, true)

inductive PopResult (α : Type) where
  | popped (a : α) (q : BlockingQueue α)
  | refused
  | waiting

/-- A timed `Pop` looks at the queue, when its time is over for the last time. -/
def pop (q : BlockingQueue α) (expired : Bool) : PopResult α :=
  match q.items with
  | a :: items => .popped a { q with items }
  | [] => if q.shutdown ∨ expired then .refused else .waiting

/-- `Shutdown`. -/
def close (q : BlockingQueue α) : BlockingQueue α := { q with shutdown := true }

theorem push_true {q q' : BlockingQueue α} {a : α} (h : q.push a = (q', true)) :
    q'.items = q.items ++ [a] := by
  unfold push at h
  split at h
  · cases h
  split at h
  · cases h
  · cases h
    rfl

theorem pop_popped {q q' : BlockingQueue α} {a : α} {expired : Bool}
    (h : q.pop expired = .popped a q') : q.items = a :: q'.items := by
  unfold pop at h
  split at h
  next hq =>
    cases h
    exact hq
  next => split at h <;> cases h

end BlockingQueue

end FastMqtt
