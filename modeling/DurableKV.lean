import DurableKV.Consensus.Scripted
import DurableKV.Contention
import DurableKV.Event
import DurableKV.LiveDisk
import DurableKV.Main
import DurableKV.Proofs.Json.Number
import DurableKV.Proofs.Json.RoundTrip
import DurableKV.Proofs.Json.Depth
import DurableKV.Proofs.Json.Bound
import DurableKV.Proofs.Json.Canonical
import DurableKV.Proofs.Json.Printable
import DurableKV.Proofs.Json.Range
import DurableKV.Proofs.Json.Members
import DurableKV.Proofs.Json.Rearrangement
import DurableKV.Proofs.Entry
import DurableKV.Proofs.Log.Record
import DurableKV.Proofs.Log.Scan
import DurableKV.Proofs.Log.WellFormed
import DurableKV.Proofs.Log.Replay
import DurableKV.Proofs.Recovery
import DurableKV.Proofs.Replica
import DurableKV.Proofs.Disk
import DurableKV.Proofs.CrashRecovery
import DurableKV.Proofs.Restart
import DurableKV.Proofs.Service
import DurableKV.Proofs.Validation
import DurableKV.Proofs.Asking
import DurableKV.Proofs.Ideal
import DurableKV.Proofs.Refinement
import DurableKV.Proofs.Replies
import DurableKV.Proofs.Submission
import DurableKV.Proofs.Halting
import DurableKV.Proofs.FirstCommitter
import DurableKV.Proofs.Convergence
import DurableKV.Proofs.Creation
import DurableKV.Proofs.Host
import DurableKV.Proofs.Log.Cut
import DurableKV.Proofs.Log.Sessions
import DurableKV.Proofs.Positions
import DurableKV.Proofs.Inspection
import DurableKV.Proofs.Requests
import DurableKV.Proofs.Lines
import DurableKV.Proofs.Serving
import DurableKV.Proofs.Accounting
import DurableKV.Proofs.Clients
import DurableKV.Proofs.Isolation
import DurableKV.Proofs.Staging
import DurableKV.Proofs.Following
import DurableKV.Proofs.Commit
import DurableKV.Proofs.Versions
import DurableKV.Proofs.Commutation
import DurableKV.Proofs.Log.Damage
import DurableKV.Proofs.Checksum
import DurableKV.Proofs.Log.Codec
import DurableKV.Proofs.Log.Tampering
import DurableKV.Proofs.Foreign
import DurableKV.Proofs.StrayFields
import DurableKV.Proofs.Operation
