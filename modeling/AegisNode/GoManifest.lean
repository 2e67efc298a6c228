import AegisNode.Schema
import AegisNode.Policy

/-!
The Go package `manifest`: its decoded manifest, `Decide` and the helpers of
`decide.go`. Absent optional texts are empty strings and absent ports are zero.
-/
namespace AegisNode.GoManifest
open Text Paths Clock
open Schema (ApprovalClass WriteAction)
open Policy (DecisionKind)

structure Filesystem where
  read : List String
  write : List String
  deriving DecidableEq,Repr

inductive NetworkMode where
  | Unset
  | Deny
  | Allow
  | Allowlist
  deriving DecidableEq,Repr

structure NetworkAllowEntry where
  host : String
  port : Int
  protocol : String
  deriving DecidableEq,Repr

structure NetworkPolicy where
  mode : NetworkMode
  allowlist : List NetworkAllowEntry
  deriving DecidableEq,Repr

structure Network where
  outbound : Option NetworkPolicy
  inbound : Option NetworkPolicy
  deriving DecidableEq,Repr

structure APIGrant where
  name : String
  methods : List String
  deriving DecidableEq,Repr

structure AllowedTool where
  name : String
  deriving DecidableEq,Repr

structure MCPServerGrant where
  serverName : String
  allowedTools : List AllowedTool
  deriving DecidableEq,Repr

structure Tools where
  filesystem : Option Filesystem
  network : Option Network
  apis : List APIGrant
  mcp : List MCPServerGrant
  deriving DecidableEq,Repr

structure WriteGrant where
  resource : String
  actions : List WriteAction
  duration : String
  expiresAt : String
  approvalRequired : Bool
  deriving DecidableEq,Repr

structure ExecGrant where
  program : String
  argsMatch : String
  deriving DecidableEq,Repr

structure Manifest where
  extendsRefs : List String
  tools : Tools
  writeGrants : List WriteGrant
  approvalRequiredFor : List ApprovalClass
  execGrants : List ExecGrant
  deriving DecidableEq,Repr

/-! ### Decoding -/

def protocolText : Schema.NetworkProtocol → String
  | .Http => "http"
  | .Https => "https"
  | .Tcp => "tcp"
  | .Udp => "udp"

def ofAllowEntry (e : Schema.NetworkAllowEntry) : NetworkAllowEntry where
  host := e.host
  port := (e.port.map (fun port => (port.toNat : Int))).getD 0
  protocol := (e.protocol.map protocolText).getD ""

def ofNetworkPolicy : Schema.NetworkPolicy → NetworkPolicy
  | .Mode .Deny => ⟨.Deny,[]⟩
  | .Mode .Allow => ⟨.Allow,[]⟩
  | .Allowlist allowlist => ⟨.Allowlist,allowlist.map ofAllowEntry⟩

def ofWriteGrant (g : Schema.WriteGrant) : WriteGrant where
  resource := g.resource
  actions := g.actions
  duration := g.duration.getD ""
  expiresAt := g.expiresAt.getD ""
  approvalRequired := g.approvalRequired

def ofServerGrant (s : Schema.McpServerGrant) : MCPServerGrant where
  serverName := s.serverName
  allowedTools := s.allowedTools.map (fun tool => ⟨tool.name⟩)

def ofTools (tools : Schema.Tools) : Tools where
  filesystem := tools.filesystem.map (fun fs => ⟨fs.read,fs.write⟩)
  network := tools.network.map (fun n => ⟨n.outbound.map ofNetworkPolicy,n.inbound.map ofNetworkPolicy⟩)
  apis := tools.apis.map (fun api => ⟨api.name,api.methods⟩)
  mcp := tools.mcp.map ofServerGrant

/-- The Go manifest decoded from a document. -/
def ofDocument (doc : Schema.Manifest) : Manifest where
  extendsRefs := doc.extendsRefs
  tools := ofTools doc.tools
  writeGrants := doc.writeGrants.map ofWriteGrant
  approvalRequiredFor := doc.approvalRequiredFor
  execGrants := doc.execGrants.map (fun g => ⟨g.program,g.argsMatch.getD ""⟩)

/-- `Parse`: the document is decoded if it passes the schema. -/
def parse (doc : Schema.Manifest) : Option Manifest :=
  if doc.schemaValid then some (ofDocument doc) else none

/-! ### Decisions -/

structure Decision where
  kind : DecisionKind
  reason : String
  deriving DecidableEq,Repr

def allowDecision : Decision := ⟨.Allow,""⟩
def denyDecision (reason : String) : Decision := ⟨.Deny,reason⟩
def approvalDecision (reason : String) : Decision := ⟨.RequireApproval,reason⟩

inductive QueryKind where
  | FilesystemRead
  | FilesystemWrite
  | FilesystemDelete
  | NetworkOutbound
  | NetworkInbound
  | Exec
  | MCPToolCall
  | Other (text : String)
  deriving DecidableEq,Repr

/-- One I/O attempt; unused fields are empty or zero. -/
structure Query where
  kind : QueryKind
  resourceURI : String := ""
  host : String := ""
  port : Int := 0
  protocol : String := ""
  now : Int := zeroTime
  sessionStart : Int := zeroTime
  mcpServer : String := ""
  mcpTool : String := ""
  deriving DecidableEq,Repr

/-- At or under one of the parents; the comparison is on the text. -/
def pathCovered (c : String) (parents : List String) : Bool :=
  parents.any fun p => p = c || p = "/" || (p ++ "/").toList.isPrefixOf c.toList

def hasApprovalClass (classes : List ApprovalClass) (want : ApprovalClass) : Bool := classes.any (· = want)

def upgradeForApproval (base : Decision) (classes : List ApprovalClass) (want : ApprovalClass) (reason : String) :
    Decision :=
  if base.kind = .Allow && hasApprovalClass classes want then approvalDecision reason else base

def readPaths (m : Manifest) : List String := (m.tools.filesystem.map (·.read)).getD []
def writePaths (m : Manifest) : List String := (m.tools.filesystem.map (·.write)).getD []

def decideFsRead (m : Manifest) (uri : String) : Decision :=
  if pathCovered uri (readPaths m) then allowDecision
  else denyDecision ("filesystem read of " ++ uri ++ " not granted by manifest")

def beforeExpiry (g : WriteGrant) (now : Int) : Bool :=
  if g.expiresAt = "" then true
  else match goParseRFC3339 g.expiresAt with
    | some exp => decide (now < exp)
    | none => false

def withinDuration (g : WriteGrant) (now sessionStart : Int) : Bool :=
  if g.duration = "" then true
  else match parseISO8601Duration g.duration with
    | some dur => if sessionStart = zeroTime then true else !decide (dur ≤ goSub now sessionStart)
    | none => false

/-- Without a clock anchor the time bounds are skipped. -/
def grantTimeValid (g : WriteGrant) (now sessionStart : Int) : Bool :=
  if now = zeroTime then true else beforeExpiry g now && withinDuration g now sessionStart

inductive GrantState where
  | None
  | Valid
  | Expired
  deriving DecidableEq,Repr

/-- The loop of `classifyWriteGrant` with the state found so far. -/
def classifyLoop (uri : String) (action : WriteAction) (now sessionStart : Int) (state : GrantState) :
    List WriteGrant → GrantState × Option WriteGrant
  | [] => (state,none)
  | g :: rest =>
    if g.resource ≠ uri then classifyLoop uri action now sessionStart state rest
    else if !g.actions.any (· = action) then classifyLoop uri action now sessionStart state rest
    else if grantTimeValid g now sessionStart then (.Valid,some g)
    else classifyLoop uri action now sessionStart .Expired rest

def classifyWriteGrant (m : Manifest) (uri : String) (action : WriteAction) (now sessionStart : Int) :
    GrantState × Option WriteGrant :=
  classifyLoop uri action now sessionStart .None m.writeGrants

def actionText : WriteAction → String
  | .Write => "write"
  | .Delete => "delete"
  | .Update => "update"
  | .Create => "create"

def writeGrantDecision (m : Manifest) (uri : String) (g : WriteGrant) (action : WriteAction) : Decision :=
  let cls := if action = .Delete then ApprovalClass.AnyDelete else ApprovalClass.AnyWrite
  if g.approvalRequired || hasApprovalClass m.approvalRequiredFor cls then
    approvalDecision (actionText action ++ " on " ++ uri ++ " requires approval per write_grant")
  else allowDecision

def decideFsWrite (m : Manifest) (uri : String) (now sessionStart : Int) : Decision :=
  match classifyWriteGrant m uri .Write now sessionStart with
  | (.Valid,some g) => writeGrantDecision m uri g .Write
  | (.Expired,_) => denyDecision ("filesystem write of " ++ uri ++ " blocked by expired write_grant")
  | _ =>
    if pathCovered uri (writePaths m) then
      upgradeForApproval allowDecision m.approvalRequiredFor .AnyWrite "any_write requires approval"
    else denyDecision ("filesystem write of " ++ uri ++ " not granted by manifest")

def decideFsDelete (m : Manifest) (uri : String) (now sessionStart : Int) : Decision :=
  match classifyWriteGrant m uri .Delete now sessionStart with
  | (.Valid,some g) => writeGrantDecision m uri g .Delete
  | (.Expired,_) => denyDecision ("filesystem delete of " ++ uri ++ " blocked by expired write_grant")
  | _ => denyDecision ("filesystem delete of " ++ uri ++ " not granted by any write_grant")

def matchesAllowEntry (e : NetworkAllowEntry) (host : String) (port : Int) (protocol : String) : Bool :=
  if e.host ≠ host then false
  else if e.port ≠ 0 && e.port ≠ port then false
  else if e.protocol ≠ "" && e.protocol ≠ protocol then false
  else true

def evalNetwork (p : Option NetworkPolicy) (host : String) (port : Int) (protocol direction : String) : Decision :=
  match p with
  | none => denyDecision ("network " ++ direction ++ " denied: manifest has no policy")
  | some p =>
    if p.mode = .Allow then allowDecision
    else if p.mode = .Deny || p.mode = .Unset then
      denyDecision ("network " ++ direction ++ " denied: manifest sets deny")
    else if p.allowlist.any (matchesAllowEntry · host port protocol) then allowDecision
    else denyDecision ("network " ++ direction ++ " " ++ host ++ ":" ++ toString port ++ " not in manifest allowlist")

def parentPolicy (n : Option Network) (outbound : Bool) : Option NetworkPolicy :=
  n.bind (fun n => if outbound then n.outbound else n.inbound)

def decideNetwork (m : Manifest) (outbound : Bool) (host : String) (port : Int) (protocol : String) : Decision :=
  let dir := if outbound then "outbound" else "inbound"
  let base := evalNetwork (parentPolicy m.tools.network outbound) host port protocol dir
  if outbound then
    upgradeForApproval base m.approvalRequiredFor .AnyNetworkOutbound "any_network_outbound requires approval"
  else base

def programMatches (grant query : String) : Bool :=
  if '/' ∈ grant.toList then grant = query else base query.toList = grant.toList

def decideExec (m : Manifest) (program : String) : Decision :=
  if m.execGrants.any (fun g => programMatches g.program program) then
    upgradeForApproval allowDecision m.approvalRequiredFor .AnyExec "any_exec requires approval"
  else denyDecision ("exec of " ++ program ++ " not granted by manifest")

/-- The first entry of a server decides. -/
def decideMCPTool (m : Manifest) (server tool : String) : Decision :=
  match m.tools.mcp.find? (fun s => s.serverName = server) with
  | some s =>
    if s.allowedTools.any (fun t => t.name = tool) then allowDecision
    else denyDecision ("mcp tool call " ++ goQuote server ++ "/" ++ goQuote tool ++
      " not granted: tool not in allowed_tools")
  | none => denyDecision ("mcp tool call to server " ++ goQuote server ++ " not granted: server not in tools.mcp[]")

def queryKindText : QueryKind → String
  | .FilesystemRead => "filesystem_read"
  | .FilesystemWrite => "filesystem_write"
  | .FilesystemDelete => "filesystem_delete"
  | .NetworkOutbound => "network_outbound"
  | .NetworkInbound => "network_inbound"
  | .Exec => "exec"
  | .MCPToolCall => "mcp_tool_call"
  | .Other text => text

/-- `Manifest.Decide`. -/
def decide (m : Manifest) (q : Query) : Decision :=
  match q.kind with
  | .FilesystemRead => decideFsRead m q.resourceURI
  | .FilesystemWrite => decideFsWrite m q.resourceURI q.now q.sessionStart
  | .FilesystemDelete => decideFsDelete m q.resourceURI q.now q.sessionStart
  | .NetworkOutbound => decideNetwork m true q.host q.port q.protocol
  | .NetworkInbound => decideNetwork m false q.host q.port q.protocol
  | .Exec => decideExec m q.resourceURI
  | .MCPToolCall => decideMCPTool m q.mcpServer q.mcpTool
  | kind => denyDecision ("unknown query kind " ++ goQuote (queryKindText kind))

end AegisNode.GoManifest
