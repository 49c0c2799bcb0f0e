import ShowControl.Act
import ShowControl.Signal

/-! The channel that brings signals to a show: first in, first out. A closed channel takes no more
signals, and a full one none until there is room. -/

set_option autoImplicit false
namespace ShowControl

structure Channel (α : Type) where
  /-- How many signals may wait; any number if the capacity is not positive. -/
  capacity : Int
  queue : List (Signal α)
  closed : Bool
  /-- The number of signals turned away because the channel was closed or full. -/
  dropped : Nat

namespace Channel

variable {α : Type}

def ofCapacity (capacity : Int) : Channel α := ⟨capacity, [], false, 0⟩

def full (c : Channel α) : Bool := 0 < c.capacity && c.capacity ≤ c.queue.length

def put (signal : Signal α) : Act (Channel α) Bool := do
  let c ← get
  if c.closed then
    modify fun c => { c with dropped := c.dropped + 1 }
    Act.debug s!"Channel closed, dropping {signal.kind} from {signal.source.text}"
    return false
  else if c.full then
    modify fun c => { c with dropped := c.dropped + 1 }
    Act.warn s!"Signal queue full, dropping {signal.kind} from {signal.source.text}"
    return false
  else
    modify fun c => { c with queue := c.queue ++ [signal] }
    return true

def take : Act (Channel α) (Option (Signal α)) := do
  let c ← get
  match c.queue with
  | [] => return none
  | signal :: rest =>
    modify fun c => { c with queue := rest }
    return some signal

def close : Act (Channel α) Nat := do
  let c ← get
  let waiting := c.queue.length
  modify fun c => { c with queue := [], closed := true }
  if 0 < waiting then Act.debug s!"Discarded {waiting} queued signal(s) on close"
  return waiting

def putCallback (source : Handle) (event : Option String) : Act (Channel α) Bool :=
  put (.callback source event)

def putStop (reason : Option String) : Act (Channel α) Bool := put (.stop reason)

/-- Puts in progress, which is never below zero. A value that is no number is passed over. -/
def putProgress [Number α] (source : Handle) (value : α) : Act (Channel α) Bool := do
  if Number.isUndefined value then
    Act.warn s!"Ignoring NaN progress from {source.text}"
    return false
  else put (.progress source (some (Number.atLeast 0 value)))

end Channel

end ShowControl
