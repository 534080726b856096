import RoundTrip.Disk.Changes
import RoundTrip.Main
import RoundTrip.Proofs.Lookup
import RoundTrip.Proofs.Confinement
import RoundTrip.Proofs.Edit
import RoundTrip.Proofs.Artifact
import RoundTrip.Proofs.Command
import RoundTrip.Proofs.Course
import RoundTrip.Proofs.Verdict
import RoundTrip.Proofs.Counting
import RoundTrip.Proofs.Run
import RoundTrip.Proofs.Agreement
import RoundTrip.Proofs.Discovery
import RoundTrip.Proofs.Frame
import RoundTrip.Proofs.Walk
import RoundTrip.Proofs.Path
import RoundTrip.Proofs.Workspace
import RoundTrip.Proofs.Restoration
import RoundTrip.Proofs.Guard
import RoundTrip.Proofs.Faults
import RoundTrip.Proofs.Cleanup
import RoundTrip.Proofs.Calls
import RoundTrip.Proofs.Tools
import RoundTrip.Proofs.Journal
import RoundTrip.Proofs.Phases
import RoundTrip.Proofs.Setup
import RoundTrip.Proofs.Exit
import RoundTrip.Proofs.Resolved
import RoundTrip.Proofs.Truncation
import RoundTrip.Proofs.Descent
import RoundTrip.Proofs.Search
import RoundTrip.Proofs.Clock
import RoundTrip.Proofs.Twins
import RoundTrip.Proofs.Calm
import RoundTrip.Proofs.Isolation
import RoundTrip.Proofs.Abreast
import RoundTrip.Proofs.Lockstep
import RoundTrip.Proofs.Probes
import RoundTrip.Proofs.Scenario
import RoundTrip.Proofs.SideBySide
import RoundTrip.Proofs.Streams
import RoundTrip.Proofs.Utf8
import RoundTrip.Proofs.Words
import RoundTrip.Proofs.Splitter
import RoundTrip.Proofs.Conservation
import RoundTrip.Proofs.NameList
import RoundTrip.Proofs.Rounds
import RoundTrip.Proofs.Document
import RoundTrip.Proofs.Quoting
import RoundTrip.Proofs.Written
import RoundTrip.Proofs.Retention
import RoundTrip.Proofs.Console
import RoundTrip.Proofs.CommandLine
import RoundTrip.Proofs.Diagnostic
import RoundTrip.Proofs.FileNames
