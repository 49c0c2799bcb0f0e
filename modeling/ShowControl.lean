import ShowControl.Main
import ShowControl.Proofs.Animation.Advance
import ShowControl.Proofs.Graph.Atomicity
import ShowControl.Proofs.Graph.Record
import ShowControl.Proofs.Show.Build
import ShowControl.Proofs.Show.Drain
import ShowControl.Proofs.Show.Firing
import ShowControl.Proofs.Show.Safety
import ShowControl.Proofs.Show.Opening
import ShowControl.Proofs.Show.Events
import ShowControl.Proofs.Show.Loop
import ShowControl.Proofs.Show.Ending
import ShowControl.Proofs.Show.Clocks
import ShowControl.Proofs.Show.Conflict
import ShowControl.Proofs.Script.Arity
import ShowControl.Proofs.Script.Lines
import ShowControl.Proofs.Script.Binding
import ShowControl.Proofs.Graph.Typing
import ShowControl.Proofs.Animation.Range
import ShowControl.Proofs.Show.Playback
import ShowControl.Proofs.Show.Stream
import ShowControl.Proofs.Show.Seek
import ShowControl.Proofs.Script.Construct
import ShowControl.Proofs.Script.Parameters
import ShowControl.Proofs.Script.Placement
import ShowControl.Proofs.Script.Stop
import ShowControl.Proofs.Script.Vocabulary
import ShowControl.Proofs.Script.Misfit
import ShowControl.Proofs.Show.Channel
import ShowControl.Proofs.Pipeline.Reference
import ShowControl.Proofs.Pipeline.Medium
