import AegisNode.Engine

/-!
The per-call mediation of a session: rebind, policy decision, approval, quota,
effect, access entry; the pre-validation of MCP calls; and runs of calls.
-/
namespace AegisNode.Mediator
open Text Paths Clock Json Schema Policy Grants Aggregate Traced Engine
open Ledger hiding Error

/-! ### Resources and arguments -/

inductive AccessType where
  | Read
  | Write
  | Delete
  | NetworkOutbound
  | Exec
  | McpToolCall
  deriving DecidableEq,Repr

def AccessType.name : AccessType → String
  | .Read => "read"
  | .Write => "write"
  | .Delete => "delete"
  | .NetworkOutbound => "network_outbound"
  | .Exec => "exec"
  | .McpToolCall => "mcp_tool_call"

/-- `Path::join` with an absolute or empty right side treated as Rust does. -/
def joinPath (dir path : String) : String :=
  if isAbsolute path then path
  else if dir = "" ∨ dir.toList.getLast? = some '/' then dir ++ path
  else dir ++ "/" ++ path

def protoText : NetworkProto → String
  | .Http => "http"
  | .Https => "https"
  | .Udp => "udp"
  | .Tcp => "tcp"
  | .Any => "tcp"

def networkUri (host : String) (port : UInt16) (proto : NetworkProto) : String :=
  protoText proto ++ "://" ++ host ++ ":" ++ toString port.toNat

def mcpUri (serverName toolName : String) : String := "mcp://" ++ serverName ++ "/" ++ toolName

def execUri (program : String) : String := "exec://" ++ program

/-- `serde_json::json!` on an object. -/
def object (fields : List (String × Value)) : Value := .Object (Map.insertAll [] fields)

def pathArgs (path : String) : Value := object [("path",.String path)]

def writeArgs [Sha256] (path : String) (contents : List UInt8) : Value :=
  object [("path",.String path),("contentsSha256",.String (Bytes.hexEncode (Sha256.digest contents).bytes))]

def connectArgs (host : String) (port : UInt16) (proto : NetworkProto) : Value :=
  object [("host",.String host),("port",.Number (.PosInt port.toUInt64)),("protocol",.String (protoText proto))]

def execArgs (program : String) (args : List String) : Value :=
  object [("program",.String program),("args",.Array (args.map .String))]

/-! ### Approval policies -/

/-- `DEFAULT_GRANT_TTL_SECS` and `DEFAULT_TIMEOUT`, in seconds. -/
def defaultGrantTtlSecs : Nat := 300
def defaultTimeout : Nat := 60

def approvalPolicyFor (m : Manifest) : ToolClass → Option ApprovalPolicy
  | .Filesystem => m.tools.filesystem.bind (·.approval)
  | .Network => m.tools.network.bind (·.approval)
  | .Exec => m.tools.exec.bind (·.approval)
  | .Mcp server => (m.tools.mcp.find? (fun s => s.serverName = server)).bind (·.approval)

def tierFor (m : Manifest) (toolClass : ToolClass) : ApprovalTier :=
  ((approvalPolicyFor m toolClass).map (·.tier)).getD default

def ttlSecsFor (m : Manifest) (toolClass : ToolClass) : Nat :=
  ((approvalPolicyFor m toolClass).map (·.grantTtlSeconds.toNat)).getD defaultGrantTtlSecs

/-- The operation an approval is asked for. -/
structure Operation where
  resourceUri : String
  accessKind : String
  toolClass : ToolClass
  toolName : String
  canonicalArgs : Value

section
variable [Chrono] [Serde] [Sha256] [World]

/-! ### Entries -/

def accessFields (resourceUri : String) (accessType : AccessType) (bytes : UInt64) (reasoningStepId : Option String) :
    List (String × Scalar) :=
  [("resourceUri",.Text resourceUri),("accessType",.Text accessType.name),("bytesAccessed",.Count bytes)] ++
    optional "reasoningStepId" reasoningStepId

def emitSuccess (resourceUri : String) (accessType : AccessType) (bytes : UInt64) (reasoningStepId : Option String) :
    Run Unit := do
  let now ← utcNow
  if resourceUri = "" then deny (.AccessLog .EmptyResourceUri)
  else emit (fun e => .AccessLog (.Ledger e)) .Access now (payloadOf
    (accessFields resourceUri accessType bytes reasoningStepId))

def emitDeny (resourceUri accessKind reason : String) : Run Unit := do
  let now ← utcNow
  emitViolation reason (some resourceUri) (some accessKind) now

def emitApprovalRequest (req : ApprovalRequest) : Run Unit := do
  let asked ← utcNow
  let now ← utcNow
  emit .Ledger .ApprovalRequest now (payloadOf
    ([("actionSummary",.Text req.actionSummary),("resourceUri",.Text req.resourceUri),("accessType",.Text req.accessType)] ++
      optional "reasoningStepId" req.reasoningStepId ++
      [("expiresAt",.Text (Chrono.rfc3339 (asked+req.timeout*second)))]))

def emitApprovalGranted (req : ApprovalRequest) (approverIdentity : String) (decidedAt : Int) : Run Unit := do
  let now ← utcNow
  emit .Ledger .ApprovalGranted now (payloadOf
    ([("approverId",.Text approverIdentity),("decision",.Text "granted"),("decidedAt",.Text (Chrono.rfc3339 decidedAt))] ++
      optional "reasoningStepId" req.reasoningStepId))

def emitApprovalRejected (req : ApprovalRequest) (reason : String) (decidedAt : Int) : Run Unit := do
  let now ← utcNow
  emit .Ledger .ApprovalRejected now (payloadOf
    ([("decision",.Text "rejected"),("decidedAt",.Text (Chrono.rfc3339 decidedAt)),("violationReason",.Text reason)] ++
      optional "reasoningStepId" req.reasoningStepId))

def emitApprovalTimedOut (req : ApprovalRequest) (expiredAt : Int) : Run Unit := do
  let now ← utcNow
  emit .Ledger .ApprovalTimedOut now (payloadOf
    ([("decision",.Text "timed_out"),("decidedAt",.Text (Chrono.rfc3339 expiredAt))] ++
      optional "reasoningStepId" req.reasoningStepId))

/-- The three `approval_decision` entries share their last fields. -/
def emitApprovalDecision (first : List (String × Scalar)) (op : Operation) (reasoningStepId : Option String)
    (last : List (String × Scalar)) : Run Unit := do
  let now ← utcNow
  emit .Ledger .ApprovalDecision now (payloadOf
    (first ++ [("resourceUri",.Text op.resourceUri),("accessType",.Text op.accessKind)] ++
      optional "reasoningStepId" reasoningStepId ++ last))

def emitApprovalDecisionAdvisory (op : Operation) (reasoningStepId : Option String) : Run Unit :=
  emitApprovalDecision [("decision",.Text "auto_advisory"),("toolName",.Text op.toolName),
    ("grantArgHashHex",.Text (Bytes.hexEncode (canonicalArgHash op.canonicalArgs).bytes))] op reasoningStepId []

def consumedOutcome : GrantDecision → String
  | .Allow => "auto_consumed_allow"
  | .Deny _ => "auto_consumed_deny"

def cachedReason : GrantDecision → Option String
  | .Allow => none
  | .Deny reason => some reason

def emitApprovalDecisionAutoConsumed (op : Operation) (reasoningStepId : Option String) (grant : ApprovalGrant) : Run Unit :=
  emitApprovalDecision [("decision",.Text (consumedOutcome grant.decision)),("toolName",.Text op.toolName),
    ("sourceGrantId",.Text grant.grantId.toString),("grantArgHashHex",.Text grant.argHashHex)] op reasoningStepId
    (optional "denyReason" (cachedReason grant.decision))

def emitApprovalDecisionGranted (op : Operation) (reasoningStepId : Option String) (grant : ApprovalGrant)
    (approverIdentity : String) (ttlSecs : Nat) : Run Unit :=
  emitApprovalDecision [("decision",.Text "grant_issued"),("toolName",.Text op.toolName),
    ("sourceGrantId",.Text grant.grantId.toString),("grantArgHashHex",.Text grant.argHashHex),
    ("grantTtlSeconds",.Count (UInt64.ofNat ttlSecs)),("approverId",.Text approverIdentity)] op reasoningStepId []

/-! ### Approval -/

/-- `ApprovalGrant::allow` and `deny`, stored in the session's table. -/
def storeGrant (op : Operation) (ttlSecs : Nat) (decision : GrantDecision) : Run ApprovalGrant := do
  let grantId ← newUuid
  let issuedAt ← systemNow
  let grant : ApprovalGrant :=
    ⟨grantId,issuedAt,ttlSecs*1000000000,op.toolName,canonicalArgHash op.canonicalArgs,decision⟩
  update (fun s => { s with grantTable := insert s.grantTable grant })
  return grant

/-- A live grant answers for the operator. -/
def autoConsume (op : Operation) (reasoningStepId : Option String) (grant : ApprovalGrant) : Run Decision := do
  emitApprovalDecisionAutoConsumed op reasoningStepId grant
  match grant.decision with
  | .Allow => return .Allow
  | .Deny reason => deny (.Denied ("approval grant denied: " ++ reason))

/-- What the operator answered is recorded and kept as a grant. -/
def takeOutcome (op : Operation) (reasoningStepId : Option String) (ttlSecs : Nat) (req : ApprovalRequest) :
    ApprovalOutcome → Run Decision
  | .Granted approverIdentity decidedAt => do
    emitApprovalGranted req approverIdentity decidedAt
    let grant ← storeGrant op ttlSecs .Allow
    emitApprovalDecisionGranted op reasoningStepId grant approverIdentity ttlSecs
    return .Allow
  | .Rejected reason decidedAt => do
    emitApprovalRejected req reason decidedAt
    let _ ← storeGrant op ttlSecs (.Deny reason)
    deny (.Denied ("approval rejected: " ++ reason))
  | .TimedOut expiredAt => do
    emitApprovalTimedOut req expiredAt
    deny (.Denied "approval timed out")

def requestFor (s : Session) (op : Operation) (reasoningStepId : Option String) (summary : String) : ApprovalRequest where
  actionSummary := summary
  resourceUri := op.resourceUri
  accessType := op.accessKind
  sessionId := s.sessionId
  reasoningStepId := reasoningStepId
  timeout := defaultTimeout

/-- Asks the channel. -/
def askOperator (op : Operation) (reasoningStepId : Option String) (summary : String) (ttlSecs : Nat)
    (channel : ApprovalChannel) : Run Decision := do
  let req ← reads (fun s => requestFor s op reasoningStepId summary)
  emitApprovalRequest req
  let outcome ← ask (channel.requestApproval · req) (fun outcome => [.Approval req outcome])
  let outcome ← orFail (fun e => .Denied ("approval channel: " ++ e)) outcome
  takeOutcome op reasoningStepId ttlSecs req outcome

/-- Without a channel the decision stands. -/
def askAttached (op : Operation) (reasoningStepId : Option String) (summary : String) (ttlSecs : Nat) :
    Option ApprovalChannel → Run Decision
  | none => return .RequireApproval summary
  | some channel => askOperator op reasoningStepId summary ttlSecs channel

/-- What follows the lookup of a live grant. -/
def consult (op : Operation) (reasoningStepId : Option String) (summary : String) (ttlSecs : Nat) :
    Option ApprovalGrant → Run Decision
  | some grant => autoConsume op reasoningStepId grant
  | none => do
    let channel ← reads (·.approvalChannel)
    askAttached op reasoningStepId summary ttlSecs channel

/-- The approval of an operation: advisory, from a live grant, or by the operator. -/
def approve (op : Operation) (reasoningStepId : Option String) (summary : String) : Run Decision := do
  let tier ← reads (fun s => tierFor s.policy op.toolClass)
  let ttlSecs ← reads (fun s => ttlSecsFor s.policy op.toolClass)
  if tier = .Advisory then do
    emitApprovalDecisionAdvisory op reasoningStepId
    return .Allow
  else do
    let now ← systemNow
    let grant ← reads (fun s => lookup s.grantTable op.toolName op.canonicalArgs now)
    consult op reasoningStepId summary ttlSecs grant

def routeThroughApproval (decision : Decision) (op : Operation) (reasoningStepId : Option String) : Run Decision :=
  match decision with
  | .RequireApproval summary => approve op reasoningStepId summary
  | other => pure other

/-! ### Filesystem and exec -/

/-- A relative path is completed with the current directory, if there is one. -/
def fileUri (path : String) : Run String :=
  if isAbsolute path then pure ("file://" ++ path)
  else do
    let dir ← currentDir
    match dir with
    | some dir => return "file://" ++ joinPath dir path
    | none => return "file://" ++ path

/-- What tells the four mediators of one shape apart. -/
structure Gated (α : Type) where
  decision : Run Decision
  resourceUri : Run String
  accessType : AccessType
  toolClass : ToolClass
  toolName : String
  canonicalArgs : Value
  effect : Effect
  answer : Nat → Except IoError α
  bytes : α → UInt64

def Gated.operation {α : Type} (g : Gated α) (resourceUri : String) : Operation :=
  ⟨resourceUri,g.accessType.name,g.toolClass,g.toolName,g.canonicalArgs⟩

/-- The effect of an allowed call, between the quota and the access entry. -/
def dispatch {α : Type} (g : Gated α) (resourceUri : String) (reasoningStepId : Option String) : Run α := do
  enforceAggregateQuota g.toolClass resourceUri g.accessType.name
  let answer ← perform g.effect g.answer
  let value ← orFail .Io answer
  emitSuccess resourceUri g.accessType (g.bytes value) reasoningStepId
  return value

/-- What the decision after the approval leads to. -/
def settle {α : Type} (g : Gated α) (resourceUri : String) (reasoningStepId : Option String) : Decision → Run α
  | .Allow => dispatch g resourceUri reasoningStepId
  | .Deny reason => do
    emitDeny resourceUri g.accessType.name reason
    deny (.Denied reason)
  | .RequireApproval reason => deny (.RequireApproval reason)

end

section
variable [Chrono] [Serde] [Sha256] [Identity] [World]

def mediateGated {α : Type} (g : Gated α) (reasoningStepId : Option String) : Run α := do
  rebind
  let decision ← g.decision
  let resourceUri ← g.resourceUri
  let decision ← routeThroughApproval decision (g.operation resourceUri) reasoningStepId
  settle g resourceUri reasoningStepId decision

def readDecision (path : String) : Run Decision := reads (fun s => checkFilesystemRead s.policy path)

def writeDecisionNow (path : String) : Run Decision := do
  let now ← utcNow
  let checked ← reads (fun s => checkFilesystemWrite s.policy path now s.sessionStart)
  orPanic checked

def deleteDecisionNow (path : String) : Run Decision := do
  let now ← utcNow
  let checked ← reads (fun s => checkFilesystemDelete s.policy path now s.sessionStart)
  orPanic checked

def filesystemRead (path : String) : Gated (List UInt8) where
  decision := readDecision path
  resourceUri := fileUri path
  accessType := .Read
  toolClass := .Filesystem
  toolName := "filesystem__read"
  canonicalArgs := pathArgs path
  effect := .FsRead path
  answer := (World.readFile · path)
  bytes := fun bytes => UInt64.ofNat bytes.length

def mediateFilesystemRead (path : String) (reasoningStepId : Option String) : Run (List UInt8) :=
  mediateGated (filesystemRead path) reasoningStepId

/-- The contents are part of the arguments: other bytes are another operation. -/
def filesystemWrite (path : String) (contents : List UInt8) : Gated Unit where
  decision := writeDecisionNow path
  resourceUri := fileUri path
  accessType := .Write
  toolClass := .Filesystem
  toolName := "filesystem__write"
  canonicalArgs := writeArgs path contents
  effect := .FsWrite path contents
  answer := (World.writeFile · path contents)
  bytes := fun _ => UInt64.ofNat contents.length

def mediateFilesystemWrite (path : String) (contents : List UInt8) (reasoningStepId : Option String) : Run Unit :=
  mediateGated (filesystemWrite path contents) reasoningStepId

def filesystemDelete (path : String) : Gated Unit where
  decision := deleteDecisionNow path
  resourceUri := fileUri path
  accessType := .Delete
  toolClass := .Filesystem
  toolName := "filesystem__delete"
  canonicalArgs := pathArgs path
  effect := .FsRemove path
  answer := (World.removeFile · path)
  bytes := fun _ => 0

def mediateFilesystemDelete (path : String) (reasoningStepId : Option String) : Run Unit :=
  mediateGated (filesystemDelete path) reasoningStepId

def execDecision (program : String) : Run Decision := reads (fun s => checkExec s.policy program)

def execRun (program : String) (args : List String) : Gated Output where
  decision := execDecision program
  resourceUri := pure (execUri program)
  accessType := .Exec
  toolClass := .Exec
  toolName := "exec__run"
  canonicalArgs := execArgs program args
  effect := .Spawn program args
  answer := (World.output · program args)
  bytes := fun _ => 0

def mediateExec (program : String) (args : List String) (reasoningStepId : Option String) : Run Output :=
  mediateGated (execRun program args) reasoningStepId

/-! ### Network -/

/-- Every attempt goes into the network log. -/
def logConnection (host : String) (port : UInt16) (proto : NetworkProto) (decision : NetworkConnectionDecision) : Run Unit := do
  let now ← utcNow
  update (fun s => { s with networkLog := s.networkLog ++ [⟨host,port,protoText proto,decision,now⟩] })

def connectDecision (host : String) (port : UInt16) (proto : NetworkProto) : Run Decision :=
  reads (fun s => checkNetworkOutbound s.policy host port proto)

def networkConnect (host : String) (port : UInt16) (proto : NetworkProto) : Operation :=
  ⟨networkUri host port proto,"network_outbound",.Network,"network__connect",connectArgs host port proto⟩

/-- What follows the approval; no quota is charged here. -/
def finishConnect (initial : Decision) (host : String) (port : UInt16) (proto : NetworkProto)
    (reasoningStepId : Option String) : Except Error Decision → Run Unit
  | .error error => do
    logConnection host port proto .Denied
    deny error
  | .ok .Allow => do
    let answer ← perform (.Connect host port) (World.connect · host port)
    let _ ← orFail .Io answer
    emitSuccess (networkUri host port proto) .NetworkOutbound 0 reasoningStepId
    logConnection host port proto (if initial.kind = .RequireApproval then .Approved else .Allowed)
  | .ok (.Deny reason) => do
    emitDeny (networkUri host port proto) "network_outbound" reason
    logConnection host port proto .Denied
    deny (.Denied reason)
  | .ok (.RequireApproval reason) => do
    logConnection host port proto .Denied
    deny (.RequireApproval reason)

def mediateNetworkConnect (host : String) (port : UInt16) (proto : NetworkProto) (reasoningStepId : Option String) :
    Run Unit := do
  rebind
  let initial ← connectDecision host port proto
  let routed ← attempt caught (routeThroughApproval initial (networkConnect host port proto) reasoningStepId)
  finishConnect initial host port proto reasoningStepId routed

end

/-! ### Pre-validation of MCP arguments -/

def jsonTypeName : Value → String
  | .Null => "null"
  | .Bool _ => "bool"
  | .Number _ => "number"
  | .String _ => "string"
  | .Array _ => "array"
  | .Object _ => "object"

/-- The strings of an array, from index `i` on. -/
def arrayStrings (fault : String → Error) (i : Nat) : List Value → Except Error (List String)
  | [] => .ok []
  | elem :: rest =>
    match asStr elem with
    | none => .error (fault ("array element " ++ toString i ++ " is " ++ jsonTypeName elem ++ ", expected string"))
    | some s => (arrayStrings fault (i+1) rest).map (s :: ·)

def extractClauseValues (args : Value) (serverName toolName : String) (clause : PreValidateClause) :
    Except Error (List String) :=
  let fault (arg reason : String) := Error.McpPreValidateMalformedArg serverName toolName arg reason
  match clause.arg,clause.argArray with
  | some key,none =>
    match getField args key with
    | none => .error (fault key "required by pre_validate clause but missing from tool args")
    | some v =>
      match asStr v with
      | none => .error (fault key ("expected JSON string, got " ++ jsonTypeName v))
      | some s => .ok [s]
  | none,some key =>
    match getField args key with
    | none => .error (fault key "required by pre_validate clause but missing from tool args")
    | some v =>
      match asArray v with
      | none => .error (fault key ("expected JSON array (arg_array clause), got " ++ jsonTypeName v))
      | some items => arrayStrings (fault key) 0 items
  | some _,some _ => .error (fault "<both>"
      "pre_validate clause has both `arg` and `arg_array` set; schema oneOf is supposed to refuse this")
  | none,none => .error (fault "<neither>"
      "pre_validate clause has neither `arg` nor `arg_array`; schema oneOf is supposed to require one")

/-- `str::parse::<u16>`: an optional plus sign and at least one digit. -/
def parseU16 (text : List Char) : Option UInt16 :=
  let digits := match text with
    | '+' :: rest => rest
    | _ => text
  (decimal? digits).bind (fun n => if n < 2^16 then some (UInt16.ofNat n) else none)

/-- The text before the first `sep`, or all of it. -/
def upTo (sep : Char) (text : List Char) : List Char := text.takeWhile (· ≠ sep)

/-- `str::rsplit_once` on one character. -/
def rsplitOnce (sep : Char) (text : List Char) : Option (List Char × List Char) :=
  (splitOnce [sep] text.reverse).map (fun halves => (halves.2.reverse,halves.1.reverse))

/-- The scheme's default port and the text after the scheme. -/
def stripScheme (raw : List Char) : Option (Option UInt16 × List Char) :=
  if ("https://".toList).isPrefixOf raw then some (some 443,raw.drop 8)
  else if ("http://".toList).isPrefixOf raw then some (some 80,raw.drop 7)
  else if (splitOnce "://".toList raw).isSome then none
  else some (none,raw)

def parsePreValidateUrl (raw serverName toolName argName : String) : Except Error (String × UInt16) :=
  let fault (reason : String) := Error.McpPreValidateMalformedArg serverName toolName argName reason
  match stripScheme raw.toList with
  | none => .error (fault ("unsupported URL scheme in " ++ rustDebug raw ++
      " (Phase 1 supports http/https or bare host:port)"))
  | some (defaultPort,afterScheme) =>
    let hostPort := upTo '?' (upTo '/' afterScheme)
    if hostPort = [] then .error (fault ("empty host in " ++ rustDebug raw))
    else match rsplitOnce ':' hostPort with
    | some (host,portStr) =>
      match parseU16 portStr with
      | none => .error (fault ("port component " ++ rustDebug (String.ofList portStr) ++ " in " ++ rustDebug raw ++
          " is not a valid u16"))
      | some port =>
        if host = [] then .error (fault ("empty host before port in " ++ rustDebug raw))
        else .ok (String.ofList host,port)
    | none =>
      match defaultPort with
      | none => .error (fault ("no port in " ++ rustDebug raw ++
          " and no scheme to imply a default (try host:port)"))
      | some port => .ok (String.ofList hostPort,port)

def clauseArgName (clause : PreValidateClause) : String := (clause.arg.or clause.argArray).getD "?"

section
variable [Chrono] [Serde] [Sha256] [Identity] [World]

/-- The policy's answer for one extracted value. -/
def clauseDecision (serverName toolName : String) (clause : PreValidateClause) (value : String) : Run Decision :=
  match clause.kind with
  | .FilesystemRead => readDecision value
  | .FilesystemWrite => writeDecisionNow value
  | .FilesystemDelete => deleteDecisionNow value
  | .NetworkOutbound => do
    let target ← orFail id (parsePreValidateUrl value serverName toolName (clauseArgName clause))
    connectDecision target.1 target.2 .Tcp

def preValidateUri (serverName toolName : String) (clause : PreValidateClause) (value : String) : String :=
  "mcp-prevalidate://" ++ serverName ++ "/" ++ toolName ++ "?" ++ clauseArgName clause ++ "=" ++ value

def preValidateValue (serverName toolName : String) (clause : PreValidateClause) (value : String) : Run Unit := do
  let decision ← clauseDecision serverName toolName clause value
  match decision with
  | .Allow => pure ()
  | .Deny reason => do
    emitDeny (preValidateUri serverName toolName clause value) "mcp_pre_validate" reason
    deny (.Denied reason)
  | .RequireApproval reason => deny (.RequireApproval reason)

def preValidateValues (serverName toolName : String) (clause : PreValidateClause) : List String → Run Unit
  | [] => pure ()
  | value :: rest => do
    preValidateValue serverName toolName clause value
    preValidateValues serverName toolName clause rest

def runMcpPreValidate (serverName toolName : String) (args : Value) : List PreValidateClause → Run Unit
  | [] => pure ()
  | clause :: rest => do
    let values ← orFail id (extractClauseValues args serverName toolName clause)
    preValidateValues serverName toolName clause values
    runMcpPreValidate serverName toolName args rest

/-! ### MCP -/

/-- The clauses of the first entry with the tool's name. -/
def declaredClauses (grant : McpServerGrant) (toolName : String) : List PreValidateClause :=
  ((grant.allowedTools.find? (fun t => t.name = toolName)).map (·.preValidate)).getD []

def serverNotGranted (serverName : String) : String :=
  "mcp tool call to server " ++ rustDebug serverName ++ " not granted: server not in tools.mcp[]"

/-- Hands the call to the client, if the session has one. -/
def callAttached (serverName serverUri toolName : String) (args : Value) (reasoningStepId : Option String) :
    Option McpClient → Run Value
  | none => do
    emitDeny (mcpUri serverName toolName) "mcp_tool_call" "no mcp client configured for session"
    deny (.Denied "no mcp client configured for session")
  | some client => do
    let answer ← perform (.CallTool serverName serverUri toolName args) (client.callTool · serverUri toolName args)
    let value ← orFail (fun e => .Denied ("mcp client: " ++ e)) answer
    emitSuccess (mcpUri serverName toolName) .McpToolCall
      (UInt64.ofNat (Bytes.encode (Serde.toString value)).length) reasoningStepId
    return value

def callClient (serverName serverUri toolName : String) (args : Value) (reasoningStepId : Option String) : Run Value := do
  let client ← reads (·.mcpClient)
  callAttached serverName serverUri toolName args reasoningStepId client

/-- What follows the allowlist check. -/
def dispatchMcp (grant : McpServerGrant) (serverName toolName : String) (args : Value) (reasoningStepId : Option String) :
    Run Value := do
  runMcpPreValidate serverName toolName args (declaredClauses grant toolName)
  enforceAggregateQuota (.Mcp serverName) (mcpUri serverName toolName) "mcp_tool_call"
  callClient serverName grant.serverUri toolName args reasoningStepId

/-- An allowed tool needs the entry of its server. -/
def mcpAllowed (serverName toolName : String) (args : Value) (reasoningStepId : Option String) : Run Value := do
  let grant ← reads (fun s => serverGrant s.policy serverName)
  match grant with
  | none => do
    emitDeny (mcpUri serverName toolName) "mcp_tool_call" (serverNotGranted serverName)
    deny (.Denied (serverNotGranted serverName))
  | some grant => dispatchMcp grant serverName toolName args reasoningStepId

def mediateMcpToolCall (serverName toolName : String) (args : Value) (reasoningStepId : Option String) : Run Value := do
  rebind
  let decision ← reads (fun s => checkMcpTool s.policy serverName toolName)
  match decision with
  | .Deny reason => do
    emitDeny (mcpUri serverName toolName) "mcp_tool_call" reason
    deny (.Denied reason)
  | .RequireApproval reason => deny (.RequireApproval reason)
  | .Allow => mcpAllowed serverName toolName args reasoningStepId

end

/-! ### Runs -/

/-- One call of a mediator. -/
inductive Call where
  | FilesystemRead (path : String) (reasoningStepId : Option String)
  | FilesystemWrite (path : String) (contents : List UInt8) (reasoningStepId : Option String)
  | FilesystemDelete (path : String) (reasoningStepId : Option String)
  | NetworkConnect (host : String) (port : UInt16) (proto : NetworkProto) (reasoningStepId : Option String)
  | McpToolCall (serverName toolName : String) (args : Value) (reasoningStepId : Option String)
  | Exec (program : String) (args : List String) (reasoningStepId : Option String)

section
variable [Chrono] [Serde] [Sha256] [Identity] [World]

/-- The call without the value it returns. -/
def mediate : Call → Run Unit
  | .FilesystemRead path rsid => do let _ ← mediateFilesystemRead path rsid
  | .FilesystemWrite path contents rsid => mediateFilesystemWrite path contents rsid
  | .FilesystemDelete path rsid => mediateFilesystemDelete path rsid
  | .NetworkConnect host port proto rsid => mediateNetworkConnect host port proto rsid
  | .McpToolCall serverName toolName args rsid => do let _ ← mediateMcpToolCall serverName toolName args rsid
  | .Exec program args rsid => do let _ ← mediateExec program args rsid

/-- The session after the calls, whatever each of them came to. -/
def afterCalls (s : Session) (calls : List Call) : Session := calls.foldl (fun s call => (mediate call s).state) s

/-- The calls with the events of each. -/
def history (s : Session) : List Call → List (Call × List Event)
  | [] => []
  | call :: rest => (call,(mediate call s).events) :: history (mediate call s).state rest

theorem afterCalls_concat (s : Session) (calls : List Call) (call : Call) :
    afterCalls s (calls ++ [call]) = (mediate call (afterCalls s calls)).state := by
  rw [afterCalls,List.foldl_append]
  rfl

theorem history_calls (s : Session) (calls : List Call) : (history s calls).map (·.1) = calls := by
  induction calls generalizing s with
  | nil => rfl
  | cons call rest ih => rw [history,List.map_cons,ih]

theorem history_mem {s : Session} {calls : List Call} {call : Call} {events : List Event}
    (ran : (call,events) ∈ history s calls) :
    ∃ before after,calls = before ++ call :: after ∧ events = (mediate call (afterCalls s before)).events := by
  induction calls generalizing s with
  | nil => cases ran
  | cons first rest ih =>
    rcases List.mem_cons.mp ran with same | later
    · cases same
      exact ⟨[],rest,rfl,rfl⟩
    · obtain ⟨before,after,rfl,same⟩ := ih later
      exact ⟨first :: before,after,rfl,same⟩

theorem history_concat (s : Session) (calls : List Call) (call : Call) :
    history s (calls ++ [call]) = history s calls ++ [(call,(mediate call (afterCalls s calls)).events)] := by
  induction calls generalizing s with
  | nil => rfl
  | cons first rest ih =>
    rw [List.cons_append,history,ih]
    rfl

end

end AegisNode.Mediator
