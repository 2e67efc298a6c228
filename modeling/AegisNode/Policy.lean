import AegisNode.Schema

/-!
The Rust policy engine: `Policy::check_*` over a loaded manifest. A check that
may panic on a duration answers in `Checked`.
-/
namespace AegisNode.Policy
open Text Paths Clock Schema

/-- The answer to one permission check. -/
inductive Decision where
  | Allow
  | Deny (reason : String)
  | RequireApproval (reason : String)
  deriving DecidableEq,Repr

/-- The kind both engines must agree on. -/
inductive DecisionKind where
  | Allow
  | Deny
  | RequireApproval
  deriving DecidableEq,Repr

def Decision.kind : Decision → DecisionKind
  | .Allow => .Allow
  | .Deny _ => .Deny
  | .RequireApproval _ => .RequireApproval

/-- Protocol of a connection; `Any` is for callers that do not know it. -/
inductive NetworkProto where
  | Http
  | Https
  | Tcp
  | Udp
  | Any
  deriving DecidableEq,Repr

/-- `Policy::from_yaml_bytes` on a parsed document: `extends` is refused. -/
def fromDocument (doc : Manifest) : Option Manifest :=
  if doc.extendsRefs = [] then some doc else none

/-! ### Paths and programs -/

/-- At or under one of the parents; the comparison is on the text. -/
def pathsCover (path : String) (parents : List String) : Bool :=
  parents.any fun parent => parent = path || parent = "/" || (parent ++ "/").toList.isPrefixOf path.toList

def programMatches (grantProgram query : String) : Bool :=
  if '/' ∈ grantProgram.toList then components grantProgram = components query
  else fileName query = some grantProgram.toList

/-! ### Network -/

def protoCompatible : NetworkProtocol → NetworkProto → Bool
  | _,.Any => true
  | .Http,.Http => true
  | .Https,.Https => true
  | .Tcp,.Tcp => true
  | .Udp,.Udp => true
  | _,_ => false

def matchesAllowEntry (e : NetworkAllowEntry) (host : String) (port : UInt16) (protocol : NetworkProto) : Bool :=
  e.host = host && e.port.all (· = port) && e.protocol.all (protoCompatible · protocol)

def networkDecision (policy : Option NetworkPolicy) (host : String) (port : UInt16) (protocol : NetworkProto)
    (direction : String) : Decision :=
  match policy with
  | none => .Deny ("network " ++ direction ++ " denied: manifest has no policy")
  | some (.Mode .Allow) => .Allow
  | some (.Mode .Deny) => .Deny ("network " ++ direction ++ " denied: manifest sets deny")
  | some (.Allowlist allowlist) =>
    if allowlist.any (matchesAllowEntry · host port protocol) then .Allow
    else .Deny ("network " ++ direction ++ " " ++ host ++ ":" ++ toString port.toNat ++ " not in manifest allowlist")

/-! ### Write grants -/

/-- `expires_at` lies ahead, if the grant has one; what cannot be read does not. -/
def beforeExpiry [Chrono] (grant : WriteGrant) (now : Int) : Bool :=
  match grant.expiresAt with
  | none => true
  | some expires => match Chrono.parse expires with
    | some exp => decide (now < exp)
    | none => false

/-- The session is younger than `duration`, if the grant has one. -/
def withinDuration (grant : WriteGrant) (now sessionStart : Int) : Checked Bool :=
  match grant.duration with
  | none => .ok true
  | some durStr => match parseIso8601Duration durStr with
    | .error panic => .error panic
    | .ok (some dur) => .ok (decide (now-sessionStart < dur))
    | .ok none => .ok false

def grantTimeValid [Chrono] (grant : WriteGrant) (now sessionStart : Int) : Checked Bool :=
  if beforeExpiry grant now then withinDuration grant now sessionStart else .ok false

/-- Whether a grant names the resource for the action. -/
def names (path : String) (want : WriteAction) (g : WriteGrant) : Bool := g.resource = path && g.actions.contains want

inductive ExplicitGrant where
  | None
  | Valid (grant : WriteGrant)
  | Expired
  deriving DecidableEq,Repr

/-- The first grant of a list that is in its time window. -/
def findValid [Chrono] (now sessionStart : Int) : List WriteGrant → Checked (Option WriteGrant)
  | [] => .ok none
  | g :: rest =>
    match grantTimeValid g now sessionStart with
    | .error panic => .error panic
    | .ok true => .ok (some g)
    | .ok false => findValid now sessionStart rest

def classifyWriteGrant [Chrono] (m : Manifest) (path : String) (want : WriteAction) (now sessionStart : Int) :
    Checked ExplicitGrant :=
  let matching := m.writeGrants.filter (names path want)
  if matching = [] then .ok .None
  else match findValid now sessionStart matching with
    | .error panic => .error panic
    | .ok (some g) => .ok (.Valid g)
    | .ok none => .ok .Expired

def actionDebug : WriteAction → String
  | .Write => "Write"
  | .Delete => "Delete"
  | .Update => "Update"
  | .Create => "Create"

def writeDecision (m : Manifest) (path : String) (g : WriteGrant) (action : WriteAction) : Decision :=
  let cls := match action with
    | .Delete => ApprovalClass.AnyDelete
    | _ => ApprovalClass.AnyWrite
  if g.approvalRequired || m.approvalRequiredFor.contains cls then
    .RequireApproval (actionDebug action ++ " on " ++ path ++ " requires approval per write_grant")
  else .Allow

def upgradeForApproval (m : Manifest) (base : Decision) (cls : ApprovalClass) (reason : String) : Decision :=
  match base with
  | .Allow => if m.approvalRequiredFor.contains cls then .RequireApproval reason else .Allow
  | other => other

/-! ### The checks -/

def readPaths (m : Manifest) : List String := (m.tools.filesystem.map (·.read)).getD []
def writePaths (m : Manifest) : List String := (m.tools.filesystem.map (·.write)).getD []

def checkFilesystemRead (m : Manifest) (path : String) : Decision :=
  if pathsCover path (readPaths m) then .Allow
  else .Deny ("filesystem read of " ++ path ++ " not granted by manifest")

/-- An explicit grant is decisive; without one the path list is asked. -/
def checkFilesystemWrite [Chrono] (m : Manifest) (path : String) (now sessionStart : Int) : Checked Decision :=
  match classifyWriteGrant m path .Write now sessionStart with
  | .error panic => .error panic
  | .ok (.Valid g) => .ok (writeDecision m path g .Write)
  | .ok .Expired => .ok (.Deny ("filesystem write of " ++ path ++ " blocked by expired write_grant"))
  | .ok .None =>
    if pathsCover path (writePaths m) then
      .ok (upgradeForApproval m .Allow .AnyWrite "any_write requires approval")
    else .ok (.Deny ("filesystem write of " ++ path ++ " not granted by manifest"))

def checkFilesystemDelete [Chrono] (m : Manifest) (path : String) (now sessionStart : Int) : Checked Decision :=
  match classifyWriteGrant m path .Delete now sessionStart with
  | .error panic => .error panic
  | .ok (.Valid g) => .ok (writeDecision m path g .Delete)
  | .ok .Expired => .ok (.Deny ("filesystem delete of " ++ path ++ " blocked by expired write_grant"))
  | .ok .None => .ok (.Deny ("filesystem delete of " ++ path ++ " not granted by any write_grant"))

def outbound (m : Manifest) : Option NetworkPolicy := m.tools.network.bind (·.outbound)
def inbound (m : Manifest) : Option NetworkPolicy := m.tools.network.bind (·.inbound)

def checkNetworkOutbound (m : Manifest) (host : String) (port : UInt16) (protocol : NetworkProto) : Decision :=
  upgradeForApproval m (networkDecision (outbound m) host port protocol "outbound") .AnyNetworkOutbound
    "any_network_outbound requires approval"

def checkNetworkInbound (m : Manifest) (host : String) (port : UInt16) (protocol : NetworkProto) : Decision :=
  networkDecision (inbound m) host port protocol "inbound"

def checkExec (m : Manifest) (program : String) : Decision :=
  if m.execGrants.any (fun g => programMatches g.program program) then
    upgradeForApproval m .Allow .AnyExec "any_exec requires approval"
  else .Deny ("exec of " ++ program ++ " not granted by manifest")

/-- The grant of a server: the first entry with its name. -/
def serverGrant (m : Manifest) (serverName : String) : Option McpServerGrant :=
  m.tools.mcp.find? (fun s => s.serverName = serverName)

def checkMcpTool (m : Manifest) (serverName toolName : String) : Decision :=
  match serverGrant m serverName with
  | none => .Deny ("mcp tool call to server " ++ rustDebug serverName ++ " not granted: server not in tools.mcp[]")
  | some server =>
    if server.allowedTools.any (fun t => t.name = toolName) then .Allow
    else .Deny ("mcp tool call " ++ rustDebug serverName ++ "/" ++ rustDebug toolName ++
      " not granted: tool not in allowed_tools")

/-! ### What the decisions say -/

theorem pathsCover_iff {path : String} {parents : List String} : pathsCover path parents = true ↔
    ∃ parent ∈ parents, parent = path ∨ parent = "/" ∨ (parent ++ "/").toList <+: path.toList := by
  simp [pathsCover,or_assoc,List.isPrefixOf_iff_prefix]

theorem checkFilesystemRead_allow {m : Manifest} {path : String} :
    checkFilesystemRead m path = .Allow ↔ pathsCover path (readPaths m) = true := by
  unfold checkFilesystemRead
  split <;> simp_all

theorem upgradeForApproval_allow {m : Manifest} {base : Decision} {cls : ApprovalClass} {reason : String} :
    upgradeForApproval m base cls reason = .Allow ↔ base = .Allow ∧ cls ∉ m.approvalRequiredFor := by
  cases base <;> simp [upgradeForApproval]

theorem upgradeForApproval_kind {m : Manifest} {base : Decision} {cls : ApprovalClass} {reason : String} :
    (upgradeForApproval m base cls reason).kind =
      if base.kind = .Allow ∧ cls ∈ m.approvalRequiredFor then .RequireApproval else base.kind := by
  by_cases required : cls ∈ m.approvalRequiredFor <;>
    cases base <;> simp [upgradeForApproval,Decision.kind,required]

theorem findValid_none [Chrono] {now sessionStart : Int} {grants : List WriteGrant} :
    findValid now sessionStart grants = .ok none ↔
      ∀ g ∈ grants, grantTimeValid g now sessionStart = .ok false := by
  induction grants with
  | nil => simp [findValid]
  | cons g rest ih =>
    rw [findValid]
    cases valid : grantTimeValid g now sessionStart with
    | error panic => simp [valid]
    | ok inWindow => cases inWindow <;> simp [valid,ih]

/-- An MCP check never asks for approval. -/
theorem checkMcpTool_allow_or_deny (m : Manifest) (serverName toolName : String) :
    checkMcpTool m serverName toolName = .Allow ∨ ∃ reason, checkMcpTool m serverName toolName = .Deny reason := by
  unfold checkMcpTool
  split
  · exact .inr ⟨_,rfl⟩
  · split
    · exact .inl rfl
    · exact .inr ⟨_,rfl⟩

theorem checkMcpTool_allow {m : Manifest} {serverName toolName : String} :
    checkMcpTool m serverName toolName = .Allow ↔
      ∃ grant, serverGrant m serverName = some grant ∧ ∃ tool ∈ grant.allowedTools, tool.name = toolName := by
  unfold checkMcpTool
  cases serverGrant m serverName with
  | none => simp
  | some grant =>
    simp only [Option.some.injEq,exists_eq_left']
    split <;> simp_all

end AegisNode.Policy
