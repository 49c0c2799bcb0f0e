import ShowControl.Show.Run

/-! The decision loop of a show.

The loop waits for signals and ticks in between. Time has no part in it here: what counts is the order
in which signals and ticks come. -/

set_option autoImplicit false
namespace ShowControl.Show

variable {α : Type}

/-- Notes a fault. A show that is not in its last phase yet is ended by it. -/
def fail (fault : Fault) : Act (Show α) Unit := do
  Act.log .error s!"Scheduler failed: {fault.message}"
  modify fun s => { s with failure := some fault }
  if (← get).phase ≠ .terminated then finish s!"error: {fault.message}" true

def guarded (x : Act (Show α) Unit) : Act (Show α) Unit := do
  match ← Act.attempt x with
  | .ok () => return ()
  | .error fault => fail fault

def settle : Act (Show α) Bool := do
  let s ← get
  match s.failure with
  | some fault => throw fault
  | none => return s.phase = .terminated

variable [Number α]

def handleWaiting : Nat → Act (Show α) Unit
  | 0 => return ()
  | n + 1 => do
    if (← get).running then
      match ← onChannel Channel.take with
      | none => return ()
      | some signal =>
        handle signal
        handleWaiting n

def takeUp : Act (Show α) Unit := do
  begin
  handleWaiting (← get).channel.queue.length

def breakOff (seconds : α) : Act (Show α) Bool := do
  let shown := Number.brief seconds
  Act.warn s!"Run still active after {shown}s, stopping"
  let _ ← onChannel (Channel.putStop (some "timeout"))
  guarded (handleWaiting (← get).channel.queue.length)
  -- A fault in what was handled last is not lost.
  let _ ← settle
  return false

/-- Builds the show and lets the loop run for some time. If the time is longer than that from one tick
to the next, there is a tick after the signals. A show that is still running is stopped then, and the
answer is false. -/
def loop (seconds : α) : Act (Show α) Bool := do
  let _ ← build
  guarded do
    takeUp
    if (← get).config.tickSeconds < seconds then
      let _ ← tick
  if ← settle then return true else breakOff seconds

def loopUntilStopped (reason : String) : Act (Show α) Bool := do
  let _ ← build
  guarded do
    takeUp
    terminate (stopReason (some reason))
  settle

end ShowControl.Show
