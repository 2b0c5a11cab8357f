import GridProof.Lib.Runs
import GridProof.Lib.Nested
import GridProof.Escrow.Accounting
import GridProof.Escrow.Drain
import GridProof.Firmware.Meter
import GridProof.Lib.Calendar
import GridProof.Lib.Sha256
import GridProof.Firmware.Payload
import GridProof.Firmware.Honesty
import GridProof.Lib.Table
import GridProof.Pipeline.Domain
import GridProof.Pipeline.Scoring
import GridProof.Pipeline.Database
import GridProof.Pipeline.Operations
import GridProof.Pipeline.Approvals
import GridProof.Pipeline.Review
import GridProof.Pipeline.ReviewQueue
import GridProof.Lib.OrderedMap
import GridProof.Pipeline.Memory
import GridProof.Pipeline.Recompute
import GridProof.Lib.Snapshot
import GridProof.Pipeline.Statements
import GridProof.Pipeline.LostApproval
import GridProof.Blockchain.Attestation
import GridProof.Blockchain.Sweeps
import GridProof.Blockchain.Encoding
import GridProof.Blockchain.World
import GridProof.Blockchain.WellFormed
import GridProof.Blockchain.Agreement
import GridProof.Blockchain.Submission
import GridProof.Lib.WriteOnce
import GridProof.Blockchain.Ledger
import GridProof.Auth.Sessions
import GridProof.Auth.Minting
import GridProof.Ingestion.Evidence
import GridProof.Detection.Rules
import GridProof.Ingestion.Database
import GridProof.Ingestion.Duplicates
import GridProof.Lib.NumberText
import GridProof.Ingestion.Signature
import GridProof.Lib.Recount
import GridProof.Pipeline.Previews
import GridProof.Detection.Heartbeat
import GridProof.Ingestion.Delivery
import GridProof.Ingestion.ExactlyOnce
import GridProof.Lib.Limit
import GridProof.Ingestion.Contested
import GridProof.Ingestion.Attempts
import GridProof.Ingestion.Retry
import GridProof.Detection.Gaps
import GridProof.Ingestion.Sweep
import GridProof.Ingestion.GapBounds
import GridProof.Ingestion.SweepModes
import GridProof.Ingestion.MemorySweep
import GridProof.Ingestion.Silences
import GridProof.Ingestion.Overlaps
import GridProof.Lib.PrefixCode
import GridProof.Pipeline.Binding
import GridProof.Pipeline.Worker
import GridProof.Lib.Comparator
import GridProof.Pipeline.ApprovalOrder
import GridProof.Pipeline.TextOrder
import GridProof.Lib.Script
import GridProof.Pipeline.Agents
import GridProof.Pipeline.Guardrail
import GridProof.Ingestion.Demo
import GridProof.Ingestion.Unseen
import GridProof.Blockchain.Intervals
import GridProof.Escrow.Cooldown
import GridProof.Escrow.Exit
import GridProof.Escrow.Floor
import GridProof.Blockchain.Acceptance
import GridProof.Ingestion.Providers
import GridProof.Ingestion.ToolContext
import GridProof.Blockchain.Resubmission
import GridProof.Pipeline.Alerts
import GridProof.Ingestion.Silencing
import GridProof.Ingestion.Broadcast
import GridProof.Blockchain.Indexing
import GridProof.Firmware.Partition
import GridProof.Firmware.PowerLoss
import GridProof.Firmware.Forwarding
import GridProof.Firmware.Ledger
import GridProof.Demo.Authorization
import GridProof.Demo.Forgetting
import GridProof.Firmware.Verified
import GridProof.Auth.Registration
import GridProof.Detection.Bands
import GridProof.Detection.GapConfidence
import GridProof.Firmware.Modbus
import GridProof.Lib.ShiftRegister
import GridProof.Firmware.Checksum
import GridProof.Firmware.Relay
import GridProof.Ingestion.BadSignature
import GridProof.Ingestion.Denial
import GridProof.Lib.DateText
import GridProof.Lib.Acknowledged
import GridProof.Uplink.Cloud
import GridProof.Uplink.Arrival
import GridProof.Uplink.Exchange
import GridProof.Uplink.Delivered
import GridProof.Uplink.Unrefused
import GridProof.Uplink.Draining
import GridProof.Lib.JsonLayout
import GridProof.Lib.AbiWord
import GridProof.Lib.Owned
import GridProof.Deployment.Script
import GridProof.Deployment.Verifier
import GridProof.Deployment.Rendering
import GridProof.Deployment.Manifest
import GridProof.Deployment.Verdict
import GridProof.Deployment.Zones
import GridProof.Registry.SelfService
import GridProof.Registry.Matches
import GridProof.Notifications.Outbox
import GridProof.Notifications.Honest
import GridProof.Lib.Visited
import GridProof.Provenance.Evidenced
import GridProof.Provenance.Counted
import GridProof.Provenance.Grid
import GridProof.Provenance.Tasks
import GridProof.Provenance.Attested
