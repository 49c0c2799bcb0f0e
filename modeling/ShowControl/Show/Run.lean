import ShowControl.Show.Basic

/-! Running a show.

The `pre` cues fire when the show begins. Progress fires every cue of its clock up to the threshold
that it has come to; an event fires its cues each time, a terminal event once. A show is over when it
is ended, or when nothing that it waits for is left. -/

set_option autoImplicit false
namespace ShowControl.Show

variable {α : Type}

def enterPhase (phase : Phase) : Act (Show α) Unit := do
  let s ← get
  if s.phase = phase then return ()
  else
    Act.info s!"Scheduler {s.phase.name} -> {phase.name}"
    modify fun s => { s with phase, phases := s.phases ++ [phase] }

def finish (reason : String) (cancel : Bool) : Act (Show α) Unit := do
  modify fun s => { s with reason := some reason }
  enterPhase .draining
  if cancel then
    let _ ← onAnimator Animator.cancelAll
  let _ ← onChannel Channel.close
  enterPhase .terminated
  Act.info s!"Run ended: {reason}"

def terminate (reason : String) : Act (Show α) Unit := do
  if (← get).isOver then return () else finish reason true

def checkDrain : Act (Show α) Unit := do
  let s ← get
  if s.running && s.pending.isEmpty && s.desk.animator.count = 0 then
    finish "timeline complete" false

variable [Number α]

def dispatch (cue : Cue α) : Act (Show α) Unit := do
  modify fun s => { s with dispatched := s.dispatched ++ [cue] }
  Act.info s!"Trigger fired: {cue.describe} (line {cue.line})"
  let result ← onDesk (Desk.execute cue.group)
  modify fun s => { s with completed := s.completed ++ [(cue, result)] }
  if result.terminate then terminate s!"terminate on line {cue.line}"

def dispatchAll : List (Cue α) → Act (Show α) Unit
  | [] => return ()
  | cue :: rest => do
    if (← get).running then
      dispatch cue
      dispatchAll rest

def begin : Act (Show α) Unit := do
  let s ← get
  if s.phase = .idle then
    enterPhase .running
    dispatchAll s.program.preCues
    checkDrain

/-- Goes along the timeline of a clock and fires the cues up to the first threshold that the progress
has not come to. Cues that have fired are passed over. -/
def dispatchUpTo (value : α) : List (α × Cue α) → Act (Show α) Unit
  | [] => return ()
  | (threshold, cue) :: rest => do
    if (← get).hasFired cue then dispatchUpTo value rest
    else if value < threshold then return ()
    else
      dispatch cue
      if (← get).running then dispatchUpTo value rest

def handleProgress (clock : String) (value : Option α) : Act (Show α) Unit := do
  -- Noted also if no cue waits for it, as moves are timed on it.
  onGraph (Graph.recordProgress clock value)
  match value with
  | none => throw (.host (.noValue .display))
  | some value =>
    let shown := Number.brief value
    Act.debug s!"Progress {clock} = {shown}"
    dispatchUpTo value ((← get).program.timelineOn clock)

/-- Fires the cues on an event. An event without a name has none. -/
def handleCallback (node : String) (event : Option String) : Act (Show α) Unit := do
  match event with
  | none => Act.info s!"Callback None from {node}"
  | some event =>
    let s ← get
    if s.terminal event && s.ended.contains (node, event) then
      Act.debug s!"Terminal event {event} from {node} already handled"
    else
      if s.terminal event then modify fun s => { s with ended := s.ended ++ [(node, event)] }
      Act.info s!"Callback {event} from {node}"
      dispatchAll (s.program.callbackCuesOn node event)

def stopReason (reason : Option String) : String :=
  match reason with
  | none | some "" => "stop requested"
  | some reason => reason

def handle (signal : Signal α) : Act (Show α) Unit := do
  let s ← get
  if s.running then
    match signal with
    | .stop reason => terminate (stopReason reason)
    | .progress source value =>
      match s.graph.resolve source with
      | none => Act.warn s!"Signal from unknown node {source.quoted} ignored"
      | some name => handleProgress name value
    | .callback source event =>
      match s.graph.resolve source with
      | none => Act.warn s!"Signal from unknown node {source.quoted} ignored"
      | some name => handleCallback name event
  else Act.debug s!"Ignoring {signal.kind} signal in state {s.phase.name}"

def tick : Act (Show α) (List String) := do
  if (← get).running then
    let retired ← onDesk (Desk.stage.advance)
    checkDrain
    return retired
  else return []

def pump : Nat → Act (Show α) (List (Signal α))
  | 0 => return []
  | n + 1 => do
    match ← onChannel Channel.take with
    | none => return []
    | some signal =>
      handle signal
      let others ← pump n
      return signal :: others

end ShowControl.Show
