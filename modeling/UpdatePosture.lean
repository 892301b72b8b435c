import UpdatePosture.Main
import UpdatePosture.Proofs.Apt.ChunkSize
import UpdatePosture.Proofs.Apt.Details
import UpdatePosture.Proofs.Apt.Installed
import UpdatePosture.Proofs.Apt.Available
import UpdatePosture.Proofs.Apt.FilesRoundTrip
import UpdatePosture.Proofs.Apt.PolicyRoundTrip
import UpdatePosture.Proofs.Apt.Provenance
import UpdatePosture.Proofs.Apt.Sizes
import UpdatePosture.Proofs.Listing
import UpdatePosture.Proofs.Session
import UpdatePosture.Proofs.Version.Order
import UpdatePosture.Proofs.Tool.Machine
import UpdatePosture.Proofs.Json.Token
import UpdatePosture.Proofs.Json.Value
import UpdatePosture.Proofs.Json.Record
import UpdatePosture.Proofs.ReadBack
import UpdatePosture.Proofs.Session.Tasks
import UpdatePosture.Proofs.Subscription
import UpdatePosture.Proofs.Subscription.Reading
import UpdatePosture.Proofs.Session.Requests
import UpdatePosture.Proofs.Settings
import UpdatePosture.Proofs.Settings.Assignments
import UpdatePosture.Proofs.Program
import UpdatePosture.Proofs.Report.Summary
import UpdatePosture.Proofs.Version.Fragment
import UpdatePosture.Proofs.Version.LockStep
import UpdatePosture.Proofs.Version.Spelling
import UpdatePosture.Proofs.Version.Suffix
import UpdatePosture.Proofs.Version.Display
import UpdatePosture.Proofs.OriginTable
import UpdatePosture.Proofs.Update
import UpdatePosture.Proofs.Version.Grammar
