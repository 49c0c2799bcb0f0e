import ShowControl.Show.Loop
import ShowControl.Show.Playback

/-! Rehearsing a show: the decision loop and the simulated clocks in the order of their times.

The clocks run twenty times a second, the loop ticks at its own interval, and signals are handled as
soon as they are there. The times are counted, not waited for. -/

set_option autoImplicit false
namespace ShowControl

structure Schedule (α : Type) where
  tick : α
  step : α

namespace Rehearsal

variable {α : Type} [Number α]

def stepSeconds : α :=
  let ten : α := Config.ten
  1 / (ten + ten)

/-- Plays up to a time, or until the show is over; the answer is whether it is. At most `n` ticks and
runs of the clocks are made. -/
def playUntil (limit : Option α) : Nat → Schedule α → Act (Rehearsal α) Bool
  | 0, _ => return false
  | n + 1, due => do
    onShow (Show.handleWaiting (← get).playing.channel.queue.length)
    let r ← get
    if !r.playing.running then return true
    else if limit.any fun limit => limit ≤ Number.atMost due.step due.tick then return false
    else if due.tick ≤ due.step then
      let _ ← onShow Show.tick
      playUntil limit n { due with tick := due.tick + r.playing.config.tickSeconds }
    else
      step stepSeconds
      playUntil limit n { due with step := due.step + stepSeconds }

/-- Builds the show and plays it with simulated clocks. A show that is still running after the time
limit is stopped, and the answer is false. -/
def rehearse (n : Nat) (limit : Option α) : Act (Rehearsal α) Bool := do
  let _ ← onShow Show.build
  let config := (← get).playing.config
  let shown := Number.brief config.simulatedSeconds
  Act.info s!"Simulated playback started ({shown}s per clock)"
  let played ← Act.attempt do
    onShow Show.begin
    playUntil limit n ⟨config.tickSeconds, stepSeconds⟩
  if let .error fault := played then onShow (Show.fail fault)
  if ← onShow Show.settle then return true
  else match limit with
    | some limit => onShow (Show.breakOff limit)
    | none => return false

end Rehearsal

end ShowControl
