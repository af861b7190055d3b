import NetnsWatch.Digest
import NetnsWatch.Main
import NetnsWatch.Ring.Drain
import NetnsWatch.Supervisor.Rehearsal
import NetnsWatch.Proofs.Ring.Window
import NetnsWatch.Proofs.Ring.Frame
import NetnsWatch.Proofs.Ring.Contents
import NetnsWatch.Proofs.Ring.Fifo
import NetnsWatch.Proofs.Ring.Integrity
import NetnsWatch.Proofs.Ring.Containment
import NetnsWatch.Proofs.Ring.Draining
import NetnsWatch.Proofs.Ring.Standstill
import NetnsWatch.Proofs.Ring.Reservation
import NetnsWatch.Proofs.Ring.Damage
import NetnsWatch.Proofs.Supervisor.Course
import NetnsWatch.Proofs.Supervisor.Joining
import NetnsWatch.Proofs.Correlator.History
import NetnsWatch.Proofs.Correlator.Tracks
import NetnsWatch.Proofs.Correlator.Policy
import NetnsWatch.Proofs.Session.Step
import NetnsWatch.Proofs.Session.Verdict
import NetnsWatch.Proofs.Session.Records
import NetnsWatch.Proofs.Session.Round
import NetnsWatch.Proofs.Session.Damage
import NetnsWatch.Proofs.Session.Flow
import NetnsWatch.Proofs.Session.Pipeline
import NetnsWatch.Proofs.Session.SelfTest
import NetnsWatch.Proofs.Session.WindDown
import NetnsWatch.Proofs.Session.Shutdown
import NetnsWatch.Proofs.Event.RoundTrip
import NetnsWatch.Proofs.Correlator.Noise
import NetnsWatch.Proofs.Correlator.SoleAssignment
import NetnsWatch.Proofs.Session.Ledger
import NetnsWatch.Proofs.Session.Stamps
import NetnsWatch.Proofs.Session.Completion
import NetnsWatch.Proofs.Session.Telling
import NetnsWatch.Proofs.Nsid.Payload
import NetnsWatch.Proofs.Nsid.ControlWalk
import NetnsWatch.Proofs.Nsid.ControlEntries
import NetnsWatch.Proofs.Nsid.Datagram
import NetnsWatch.Proofs.Correlator.Expiry
import NetnsWatch.Proofs.Nsid.Truncation
import NetnsWatch.Proofs.Text.Duration
import NetnsWatch.Proofs.Entry.Line
import NetnsWatch.Proofs.Nsid.Progress
import NetnsWatch.Proofs.Session.Batches
import NetnsWatch.Proofs.Session.Tally
import NetnsWatch.Proofs.Event.Pairs
import NetnsWatch.Proofs.Event.Naming
import NetnsWatch.Proofs.Correlator.Pending
import NetnsWatch.Proofs.Entry.Printing
