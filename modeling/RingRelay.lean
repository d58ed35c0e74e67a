import RingRelay.Endpoint.Script
import RingRelay.Main
import RingRelay.Ring.Bulk
import RingRelay.Proofs.Endpoint.Pauses
import RingRelay.Proofs.Endpoint.Served
import RingRelay.Proofs.Endpoint.Settled
import RingRelay.Proofs.Ring.Contents
import RingRelay.Proofs.Ring.Flow
import RingRelay.Proofs.Ring.Operation
import RingRelay.Proofs.Ring.Queue
import RingRelay.Proofs.Ring.Same
import RingRelay.Proofs.Relay.Conservation
import RingRelay.Proofs.Relay.Polls
import RingRelay.Proofs.Relay.Pending
import RingRelay.Proofs.Relay.Advances
import RingRelay.Proofs.Relay.EndOfStream
import RingRelay.Proofs.Relay.Accounting
import RingRelay.Proofs.Relay.Emptying
import RingRelay.Proofs.Relay.Unready
import RingRelay.Proofs.Relay.Termination
import RingRelay.Proofs.Relay.Same
import RingRelay.Proofs.Guarded.Word
import RingRelay.Proofs.Guarded.Bare
import RingRelay.Proofs.Guarded.InPlace
import RingRelay.Proofs.Guarded.Transfer
import RingRelay.Proofs.Guarded.Relay
import RingRelay.Proofs.Guarded.Session
import RingRelay.Proofs.Guarded.Passes
import RingRelay.Proofs.Guarded.Exact
import RingRelay.Proofs.Ring.TwoReads
import RingRelay.Proofs.Ring.TwoWrites
import RingRelay.Proofs.Ring.Placement
import RingRelay.Proofs.Ring.Paths
import RingRelay.Proofs.Ring.Geometry
import RingRelay.Proofs.Text.Utf8
import RingRelay.Proofs.Text.Numeral
import RingRelay.Proofs.Config.Layer
import RingRelay.Proofs.Config.Precedence
import RingRelay.Proofs.Files.Growth
import RingRelay.Proofs.Relay.Failures
import RingRelay.Proofs.Program.Course
import RingRelay.Proofs.Relay.Copying
import RingRelay.Proofs.Program.ExitCodes
import RingRelay.Proofs.Program.Identity
import RingRelay.Proofs.Ring.Answers
import RingRelay.Proofs.Ring.Record
import RingRelay.Proofs.Relay.Remains
import RingRelay.Proofs.Relay.Schedule
import RingRelay.Proofs.Relay.Record
import RingRelay.Proofs.Config.Override
import RingRelay.Proofs.Config.Rendering
import RingRelay.Proofs.Command.Written
import RingRelay.Proofs.Program.Causes
