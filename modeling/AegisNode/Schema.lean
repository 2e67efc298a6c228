import AegisNode.Clock
import AegisNode.Paths

/-!
The permission manifest as the Rust mirror of the schema holds it, and the
constraints the JSON schema puts on the parts the decisions read.
-/
namespace AegisNode.Schema
open Paths

/-! ### Tool classes -/

/-- Per-session cap of a tool class; `none` means no cap. -/
structure AggregateQuota where
  maxCallsPerSession : Option UInt64
  deriving DecidableEq,Repr

inductive ApprovalTier where
  | Advisory
  | Validating
  | Blocking
  | Escalating
  deriving DecidableEq,Repr

instance : Inhabited ApprovalTier := ⟨.Validating⟩

structure ApprovalPolicy where
  tier : ApprovalTier
  grantTtlSeconds : UInt64
  deriving DecidableEq,Repr

structure Filesystem where
  read : List String
  write : List String
  quota : Option AggregateQuota
  approval : Option ApprovalPolicy
  deriving DecidableEq,Repr

inductive NetworkMode where
  | Deny
  | Allow
  deriving DecidableEq,Repr

inductive NetworkProtocol where
  | Http
  | Https
  | Tcp
  | Udp
  deriving DecidableEq,Repr

structure NetworkAllowEntry where
  host : String
  port : Option UInt16
  protocol : Option NetworkProtocol
  deriving DecidableEq,Repr

inductive NetworkPolicy where
  | Mode (mode : NetworkMode)
  | Allowlist (allowlist : List NetworkAllowEntry)
  deriving DecidableEq,Repr

structure Network where
  outbound : Option NetworkPolicy
  inbound : Option NetworkPolicy
  quota : Option AggregateQuota
  approval : Option ApprovalPolicy
  deriving DecidableEq,Repr

/-- Exec settings; the grants themselves are in `execGrants`. -/
structure Exec where
  quota : Option AggregateQuota
  approval : Option ApprovalPolicy
  deriving DecidableEq,Repr

structure ApiGrant where
  name : String
  methods : List String
  deriving DecidableEq,Repr

/-! ### MCP servers -/

inductive PreValidateKind where
  | FilesystemRead
  | FilesystemWrite
  | FilesystemDelete
  | NetworkOutbound
  deriving DecidableEq,Repr

structure PreValidateClause where
  kind : PreValidateKind
  arg : Option String
  argArray : Option String
  deriving DecidableEq,Repr

/-- An entry of `allowed_tools`: a bare name, or a name with clauses. -/
inductive AllowedTool where
  | Name (name : String)
  | WithPreValidate (name : String) (preValidate : List PreValidateClause)
  deriving DecidableEq,Repr

def AllowedTool.name : AllowedTool → String
  | .Name name => name
  | .WithPreValidate name _ => name

def AllowedTool.preValidate : AllowedTool → List PreValidateClause
  | .Name _ => []
  | .WithPreValidate _ clauses => clauses

structure McpServerGrant where
  serverName : String
  serverUri : String
  allowedTools : List AllowedTool
  quota : Option AggregateQuota
  approval : Option ApprovalPolicy
  deriving DecidableEq,Repr

structure Tools where
  filesystem : Option Filesystem
  network : Option Network
  apis : List ApiGrant
  mcp : List McpServerGrant
  exec : Option Exec
  deriving DecidableEq,Repr

/-! ### Grants -/

inductive WriteAction where
  | Write
  | Delete
  | Update
  | Create
  deriving DecidableEq,Repr

structure WriteGrant where
  resource : String
  actions : List WriteAction
  duration : Option String
  expiresAt : Option String
  approvalRequired : Bool
  deriving DecidableEq,Repr

structure ExecGrant where
  program : String
  argsMatch : Option String
  deriving DecidableEq,Repr

inductive ApprovalClass where
  | AnyWrite
  | AnyDelete
  | AnyNetworkOutbound
  | AnyExec
  deriving DecidableEq,Repr

/-- The manifest fields that decisions, narrowing and sessions read. -/
structure Manifest where
  extendsRefs : List String
  tools : Tools
  writeGrants : List WriteGrant
  approvalRequiredFor : List ApprovalClass
  execGrants : List ExecGrant
  deriving DecidableEq,Repr

/-- A manifest that grants nothing. -/
def closed : Manifest where
  extendsRefs := []
  tools := ⟨none,none,[],[],none⟩
  writeGrants := []
  approvalRequiredFor := []
  execGrants := []

/-! ### Schema constraints

`uniqueItems` and `format` are left out, so that what is proved of a document that
meets these constraints is proved of more documents than the schema accepts.
-/

/-- `networkPolicy`: hosts are not empty and ports are at least 1. -/
def NetworkPolicy.schemaValid : NetworkPolicy → Bool
  | .Mode _ => true
  | .Allowlist entries => entries.all (fun e => e.host ≠ "" && e.port ≠ some 0)

/-- `preValidateClause`: exactly one of `arg` and `arg_array`, not empty. -/
def PreValidateClause.schemaValid (clause : PreValidateClause) : Bool :=
  match clause.arg,clause.argArray with
  | some arg,none => arg ≠ ""
  | none,some arg => arg ≠ ""
  | _,_ => false

def McpServerGrant.schemaValid (grant : McpServerGrant) : Bool :=
  grant.serverName ≠ "" && grant.serverUri ≠ "" &&
    grant.allowedTools.all (fun tool => tool.name ≠ "" && tool.preValidate.all (·.schemaValid))

def ApiGrant.schemaValid (grant : ApiGrant) : Bool :=
  grant.name ≠ "" && grant.methods.all (· ∈ ["GET","POST","PUT","PATCH","DELETE"])

def Tools.schemaValid (tools : Tools) : Bool :=
  (tools.filesystem.all fun fs => fs.read.all (fun path => isAbsolute path) && fs.write.all (fun path => isAbsolute path)) &&
    (tools.network.all fun n => n.outbound.all (·.schemaValid) && n.inbound.all (·.schemaValid)) &&
    tools.apis.all (·.schemaValid) && tools.mcp.all (·.schemaValid)

def Manifest.schemaValid (m : Manifest) : Bool :=
  m.tools.schemaValid &&
    m.writeGrants.all (fun g => g.resource ≠ "" && g.actions ≠ []) &&
    m.execGrants.all (fun g => g.program ≠ "" && g.argsMatch ≠ some "")

/-- Every path the schema accepts in a path list starts at the root. -/
theorem schemaValid_absolute {m : Manifest} (valid : m.schemaValid = true) {fs : Filesystem}
    (present : m.tools.filesystem = some fs) {path : String} (listed : path ∈ fs.read ∨ path ∈ fs.write) :
    isAbsolute path = true := by
  simp only [Manifest.schemaValid,Tools.schemaValid,present,Option.all_some,Bool.and_eq_true,List.all_eq_true] at valid
  rcases listed with read | write
  · exact valid.1.1.1.1.1.1 path read
  · exact valid.1.1.1.1.1.2 path write

example : closed.schemaValid = true := by decide

end AegisNode.Schema
