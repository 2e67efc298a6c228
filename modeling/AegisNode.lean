import AegisNode.Text
import AegisNode.Paths
import AegisNode.Clock
import AegisNode.Schema
import AegisNode.Policy
import AegisNode.GoManifest
import AegisNode.Conformance
import AegisNode.Extends
import AegisNode.Confinement
import AegisNode.Bytes
import AegisNode.HashChain
import AegisNode.Json
import AegisNode.JsonText
import AegisNode.BufWriter
import AegisNode.Ledger
import AegisNode.TamperEvidence
import AegisNode.WriterVerifier
import AegisNode.Atomicity
import AegisNode.ReplayViewer
import AegisNode.Traced
import AegisNode.Grants
import AegisNode.Aggregate
import AegisNode.Backend
import AegisNode.Regex
import AegisNode.Adversarial
import AegisNode.Engine
import AegisNode.Mediator
import AegisNode.Frames
import AegisNode.Approval
import AegisNode.Entries
import AegisNode.Faultless
import AegisNode.Sha2
import AegisNode.LocalCa
import AegisNode.Reference
import AegisNode.Mediation
import AegisNode.AroundApproval
import AegisNode.GrantSafety
import AegisNode.Quota
import AegisNode.PreValidation
import AegisNode.Turn
import AegisNode.Routing
import AegisNode.Audit
import AegisNode.Attestation
import AegisNode.Refusals
import AegisNode.Traceability
import AegisNode.Chronicle
import AegisNode.TurnLoop
import AegisNode.TurnTrace
import AegisNode.FaultlessTurn
import AegisNode.ReferenceTurn
import AegisNode.Conversation
import AegisNode.Identifiers
import AegisNode.DeclarationOrder
import AegisNode.PullHistory
import AegisNode.WebChannel
import AegisNode.TtyChannel
import AegisNode.Ui
import AegisNode.Evidence
import AegisNode.TurnEvents
import AegisNode.Binding
import AegisNode.TurnBinding
import AegisNode.Brackets
import AegisNode.Narrowing
import AegisNode.Resolution
import AegisNode.Yaml
import AegisNode.Durations
import AegisNode.TurnLifetime
import AegisNode.MalformedCalls
import AegisNode.ForkConfinement
import AegisNode.UrlReading
import AegisNode.UrlDecisions
import AegisNode.Transport
import AegisNode.Resolutions
import AegisNode.Execution
import AegisNode.TurnBounds
import AegisNode.LiteRt
import AegisNode.Untrusted
import AegisNode.ExecArguments
import AegisNode.Budget
import AegisNode.Catalog
import AegisNode.CallBlocks
import AegisNode.StdioMcp
import AegisNode.Mediations
import AegisNode.Reasoning
import AegisNode.Svid
import AegisNode.Snapshots
import AegisNode.Calendar
import AegisNode.References
import AegisNode.Format
import AegisNode.Annotations
import AegisNode.Positions
import AegisNode.Totals
import AegisNode.Nesting
import AegisNode.FileChannel
import AegisNode.TimedGrants
import AegisNode.ChatFrames
import AegisNode.ChatStream
import AegisNode.Lint
import AegisNode.Validate
import AegisNode.ValidateBridge
import AegisNode.LiveValidate
import AegisNode.MtlsChannel
import AegisNode.Gates
import AegisNode.CaDirectory
import AegisNode.Generation
import AegisNode.Prefilter
