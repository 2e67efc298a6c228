import AegisNode.Mediator

/-!
The tools of a turn: the catalog that the model is shown, and the dispatch of a
call it emits to one of the mediators.
-/
namespace AegisNode.Turn
open Text Clock Json Schema Policy Traced Adversarial Backend Engine Mediator
open Ledger hiding Error

/-- What the model is told about its call. -/
inductive ToolCallResult where
  | Success (value : Value)
  | Denied (reason : String)
  | RequiresApproval (reason : String)
  | Unroutable (reason : String)

/-- The verdict is that of the pre-filter, when it has run. -/
structure ToolCallOutcome where
  name : String
  arguments : Value
  result : ToolCallResult
  classifierVerdict : Option ClassifierVerdict

/-! ### Names -/

def formatMcpName (serverName toolName : String) : String := serverName ++ "__" ++ toolName

/-- Cuts at the first `__`, which must have text on both sides. -/
def splitMcpName (name : String) : Option (String × String) :=
  match splitOnce "__".toList name.toList with
  | some (serverName,toolName) =>
    if serverName = [] ∨ toolName = [] then none else some (String.ofList serverName,String.ofList toolName)
  | none => none

/-! ### The catalog -/

def textSchema : Value := object [("type",.String "string")]

/-- The schema of an object with these properties. -/
def argumentsOf (properties : List (String × Value)) (required : List String) : Value :=
  object [("type",.String "object"),("properties",object properties),("required",.Array (required.map .String))]

def readDecl (paths : List String) : ToolDecl where
  name := "filesystem__read"
  description := "Read a file. Allowed paths (or paths under them): " ++ String.intercalate ", " paths
  argumentsSchema := argumentsOf
    [("path",object [("type",.String "string"),("description",.String "Absolute path of the file to read.")])] ["path"]

def writeDecl (paths : List String) (grants : Nat) : ToolDecl where
  name := "filesystem__write"
  description := "Write contents to a file. Coverage: " ++ (if paths = [] then "<none>" else String.intercalate ", " paths) ++
    " (broad) and " ++ toString grants ++ " write_grant(s) (narrow)."
  argumentsSchema := argumentsOf [("path",textSchema),("contents",textSchema)] ["path","contents"]

def connectDecl : ToolDecl where
  name := "network__connect"
  description := "Open an outbound network connection. Subject to tools.network.outbound policy."
  argumentsSchema := argumentsOf
    [("host",textSchema),("port",object [("type",.String "integer")]),
     ("protocol",object [("type",.String "string"),("enum",.Array [.String "tcp",.String "udp"])])] ["host","port"]

def execDecl (programs : List String) : ToolDecl where
  name := "exec__run"
  description := "Run a permitted program. Allowed programs: " ++ String.intercalate ", " programs
  argumentsSchema := argumentsOf
    [("program",textSchema),("args",object [("type",.String "array"),("items",textSchema)])] ["program"]

def mcpDecl (server : McpServerGrant) (tool : AllowedTool) : ToolDecl where
  name := formatMcpName server.serverName tool.name
  description := "MCP tool " ++ tool.name ++ " on server " ++ server.serverName ++ " (URI: " ++ server.serverUri ++ ")"
  argumentsSchema := object [("type",.String "object")]

def filesystemDecls (manifest : Manifest) : List ToolDecl :=
  match manifest.tools.filesystem with
  | none => []
  | some fs =>
    (if fs.read = [] then [] else [readDecl fs.read]) ++
      (if fs.write = [] ∧ manifest.writeGrants = [] then [] else [writeDecl fs.write manifest.writeGrants.length])

def networkDecls (manifest : Manifest) : List ToolDecl :=
  if (manifest.tools.network.bind (·.outbound)).isSome then [connectDecl] else []

def execDecls (manifest : Manifest) : List ToolDecl :=
  if manifest.execGrants = [] then [] else [execDecl (manifest.execGrants.map (·.program))]

/-- One entry for each tool of each server entry. -/
def mcpDecls (manifest : Manifest) : List ToolDecl :=
  manifest.tools.mcp.flatMap (fun server => server.allowedTools.map (mcpDecl server))

def toolCatalog (manifest : Manifest) : List ToolDecl :=
  filesystemDecls manifest ++ networkDecls manifest ++ execDecls manifest ++ mcpDecls manifest

/-! ### Arguments and answers -/

def pathArg (args : Value) (key : String) : Except Error String :=
  match (getField args key).bind asStr with
  | some path => .ok path
  | none => .error (.UnroutableToolCall ("missing or non-string " ++ rustDebug key ++ " argument"))

def stringArg (args : Value) (key : String) : Except Error String := pathArg args key

def u16Arg (args : Value) (key : String) : Except Error UInt16 :=
  match (getField args key).bind asU64 with
  | none => .error (.UnroutableToolCall ("missing or non-integer " ++ rustDebug key ++ " argument"))
  | some raw =>
    if raw.toNat < 2^16 then .ok raw.toUInt16
    else .error (.UnroutableToolCall (rustDebug key ++ " argument out of u16 range: " ++ toString raw.toNat))

def countValue (n : Nat) : Value := .Number (.PosInt (UInt64.ofNat n))

def readResponse (bytes : List UInt8) : Value :=
  match Bytes.decode bytes with
  | some text => object [("contents",.String text),("bytes",countValue bytes.length)]
  | none => object [("contents",.Null),("bytes",countValue bytes.length),("binary",.Bool true)]

/-- How many continuation bytes follow a first byte, and the range of the first of
    them. -/
def utf8Lead (b : UInt8) : Option (Nat × UInt8 × UInt8) :=
  if 0xc2 ≤ b ∧ b ≤ 0xdf then some (1,0x80,0xbf)
  else if b = 0xe0 then some (2,0xa0,0xbf)
  else if b = 0xed then some (2,0x80,0x9f)
  else if 0xe1 ≤ b ∧ b ≤ 0xef then some (2,0x80,0xbf)
  else if b = 0xf0 then some (3,0x90,0xbf)
  else if 0xf1 ≤ b ∧ b ≤ 0xf3 then some (3,0x80,0xbf)
  else if b = 0xf4 then some (3,0x80,0x8f)
  else none

/-- The continuation bytes that stand at the front, at most `n`. -/
def continuation (n : Nat) (low high : UInt8) : List UInt8 → List UInt8
  | [] => []
  | b :: rest =>
    match n with
    | 0 => []
    | n+1 => if low ≤ b ∧ b ≤ high then b :: continuation n 0x80 0xbf rest else []

/-- The character of a first byte that announces `n` others. -/
def utf8Char (lead : UInt8) (others : List UInt8) : Char :=
  let high := match others.length with
    | 1 => lead.toNat%2^5
    | 2 => lead.toNat%2^4
    | _ => lead.toNat%2^3
  Char.ofNat (others.foldl (fun value b => value*2^6+b.toNat%2^6) high)

/-- `String::from_utf8_lossy`; the first argument is at least the number of bytes. -/
def fromUtf8Lossy : Nat → List UInt8 → List Char
  | 0,_ => []
  | _+1,[] => []
  | fuel+1,b :: rest =>
    if b < 0x80 then Char.ofNat b.toNat :: fromUtf8Lossy fuel rest
    else match utf8Lead b with
    | none => Char.ofNat 0xfffd :: fromUtf8Lossy fuel rest
    | some (n,low,high) =>
      let others := continuation n low high rest
      (if others.length = n then utf8Char b others else Char.ofNat 0xfffd) :: fromUtf8Lossy fuel (rest.drop others.length)

def lossyText (bytes : List UInt8) : Value := .String (String.ofList (fromUtf8Lossy bytes.length bytes))

/-- An exit code is a 32-bit integer; a program that a signal ended has none. -/
def exitValue : Option Int → Value
  | none => .Null
  | some code =>
    if negative : -2^63 ≤ code ∧ code < 0 then .Number (.NegInt code negative) else countValue code.toNat

def execResponse (program : String) (output : Output) : Value :=
  object [("program",.String program),("exit",exitValue output.exitCode),("stdout",lossyText output.stdout),
    ("stderr",lossyText output.stderr)]

/-! ### Dispatch -/

section
variable [Chrono] [Serde] [Sha256] [Identity] [World]

def dispatchNativeFilesystem (toolName : String) (args : Value) (reasoningStepId : Option String) : Run Value := do
  let path ← orFail id (pathArg args "path")
  if toolName = "read" then do
    let bytes ← mediateFilesystemRead path reasoningStepId
    return readResponse bytes
  else if toolName = "write" then do
    let contents ← orFail id (stringArg args "contents")
    mediateFilesystemWrite path (Bytes.encode contents) reasoningStepId
    return object [("path",.String path),("bytes",countValue (Bytes.encode contents).length)]
  else if toolName = "delete" then do
    mediateFilesystemDelete path reasoningStepId
    return object [("path",.String path),("deleted",.Bool true)]
  else deny (.UnroutableToolCall ("filesystem__" ++ toolName))

def protocolOf (text : String) : Except Error NetworkProto :=
  if text = "tcp" then .ok .Tcp
  else if text = "udp" then .ok .Udp
  else .error (.UnroutableToolCall ("network__connect (unknown protocol " ++ rustDebug text ++ ")"))

def dispatchNativeNetwork (toolName : String) (args : Value) (reasoningStepId : Option String) : Run Value := do
  if toolName = "connect" then do
    let host ← orFail id (stringArg args "host")
    let port ← orFail id (u16Arg args "port")
    let protocol := ((getField args "protocol").bind asStr).getD "tcp"
    let proto ← orFail id (protocolOf protocol)
    mediateNetworkConnect host port proto reasoningStepId
    return object [("host",.String host),("port",countValue port.toNat),("protocol",.String protocol),("connected",.Bool true)]
  else deny (.UnroutableToolCall ("network__" ++ toolName))

/-- Arguments that are not strings are left out. -/
def execArguments (args : Value) : List String :=
  (((getField args "args").bind asArray).getD []).filterMap asStr

def dispatchNativeExec (toolName : String) (args : Value) (reasoningStepId : Option String) : Run Value := do
  if toolName = "run" then do
    let program ← orFail id (pathArg args "program")
    let output ← mediateExec program (execArguments args) reasoningStepId
    return execResponse program output
  else deny (.UnroutableToolCall ("exec__" ++ toolName))

/-- Where a name leads. -/
inductive Route where
  | Filesystem (toolName : String)
  | Network (toolName : String)
  | Exec (toolName : String)
  | Mcp (serverName toolName : String)
  deriving DecidableEq,Repr

/-- A native namespace goes before an MCP server of that name. -/
def routeOf (name : String) : Option Route :=
  (splitMcpName name).map fun halves =>
    if halves.1 = "filesystem" then .Filesystem halves.2
    else if halves.1 = "network" then .Network halves.2
    else if halves.1 = "exec" then .Exec halves.2
    else .Mcp halves.1 halves.2

def runRoute (args : Value) (reasoningStepId : Option String) : Route → Run Value
  | .Filesystem toolName => dispatchNativeFilesystem toolName args reasoningStepId
  | .Network toolName => dispatchNativeNetwork toolName args reasoningStepId
  | .Exec toolName => dispatchNativeExec toolName args reasoningStepId
  | .Mcp serverName toolName => mediateMcpToolCall serverName toolName args reasoningStepId

/-- Refusals are told to the model; other errors end the run. -/
def toolCallResult : Except Error Value → Run ToolCallResult
  | .ok value => return .Success value
  | .error (.Denied reason) => return .Denied reason
  | .error (.RequireApproval reason) => return .RequiresApproval reason
  | .error (.UnroutableToolCall name) => return .Unroutable ("native dispatch refused: " ++ name)
  | .error other => deny other

def dispatchToolCall (call : ToolCall) (reasoningStepId : Option String) : Run ToolCallOutcome :=
  match routeOf call.name with
  | none =>
    return ⟨call.name,call.arguments,
      .Unroutable ("tool name " ++ rustDebug call.name ++ " not in <namespace>__<tool> shape"),none⟩
  | some route => do
    let dispatched ← attempt caught (runRoute call.arguments reasoningStepId route)
    let result ← toolCallResult dispatched
    return ⟨call.name,call.arguments,result,none⟩

/-! ### The calls of a dispatch -/

/-- The call of a mediator that a route leads to with these arguments, or why there is
    none. -/
def callOf (args : Value) (reasoningStepId : Option String) : Route → Except Error Call
  | .Filesystem toolName =>
    match pathArg args "path" with
    | .error error => .error error
    | .ok path =>
      if toolName = "read" then .ok (.FilesystemRead path reasoningStepId)
      else if toolName = "write" then
        (stringArg args "contents").map (fun contents => .FilesystemWrite path (Bytes.encode contents) reasoningStepId)
      else if toolName = "delete" then .ok (.FilesystemDelete path reasoningStepId)
      else .error (.UnroutableToolCall ("filesystem__" ++ toolName))
  | .Network toolName =>
    if toolName = "connect" then
      match stringArg args "host",u16Arg args "port",protocolOf (((getField args "protocol").bind asStr).getD "tcp") with
      | .error error,_,_ => .error error
      | .ok _,.error error,_ => .error error
      | .ok _,.ok _,.error error => .error error
      | .ok host,.ok port,.ok proto => .ok (.NetworkConnect host port proto reasoningStepId)
    else .error (.UnroutableToolCall ("network__" ++ toolName))
  | .Exec toolName =>
    if toolName = "run" then
      (pathArg args "program").map (fun program => .Exec program (execArguments args) reasoningStepId)
    else .error (.UnroutableToolCall ("exec__" ++ toolName))
  | .Mcp serverName toolName => .ok (.McpToolCall serverName toolName args reasoningStepId)

/-- The mediator of the call, or the error of the arguments. -/
def mediated (args : Value) (reasoningStepId : Option String) (route : Route) : Run Unit :=
  match callOf args reasoningStepId route with
  | .error error => deny error
  | .ok call => mediate call

/-- A dispatch does what the mediator of its call does, but for the value. -/
theorem runRoute_alike (args : Value) (rsid : Option String) (route : Route) :
    Alike (runRoute args rsid route) (mediated args rsid route) := by
  have refused : ∀ {p : Run Value} {error : Error} {s : Session},p s = ⟨.error (.Err error),s,[]⟩ →
      (p s).events = ((deny error : Run Unit) s).events ∧ (p s).state = ((deny error : Run Unit) s).state ∧
        (p s).result.map (fun _ => ()) = ((deny error : Run Unit) s).result.map (fun _ => ()) := by
    intro p error s same
    rw [same]
    exact ⟨rfl,rfl,rfl⟩
  cases route with
  | Filesystem toolName =>
    intro s
    rw [runRoute,dispatchNativeFilesystem,mediated,callOf]
    cases path : pathArg args "path" with
    | error error => exact refused orFail_error_bind
    | ok path =>
      rw [orFail_ok_bind]
      dsimp only
      split_ifs with read write delete
      · exact ((alike_return _ _).trans (alike_return _ _).symm) s
      · cases contents : stringArg args "contents" with
        | error error => exact refused orFail_error_bind
        | ok contents =>
          rw [orFail_ok_bind]
          exact alike_return _ _ s
      · exact alike_return _ _ s
      · exact refused rfl
  | Network toolName =>
    intro s
    rw [runRoute,dispatchNativeNetwork,mediated,callOf]
    split_ifs with connect
    · cases host : stringArg args "host" with
      | error error => exact refused orFail_error_bind
      | ok host =>
        rw [orFail_ok_bind]
        cases port : u16Arg args "port" with
        | error error => exact refused orFail_error_bind
        | ok port =>
          rw [orFail_ok_bind]
          cases proto : protocolOf (((getField args "protocol").bind asStr).getD "tcp") with
          | error error => exact refused orFail_error_bind
          | ok proto =>
            rw [orFail_ok_bind]
            exact alike_return _ _ s
    · exact refused rfl
  | Exec toolName =>
    intro s
    rw [runRoute,dispatchNativeExec,mediated,callOf]
    split_ifs with run
    · cases program : pathArg args "program" with
      | error error => exact refused orFail_error_bind
      | ok program =>
        rw [orFail_ok_bind]
        exact ((alike_return _ _).trans (alike_return _ _).symm) s
    · exact refused rfl
  | Mcp serverName toolName => exact (alike_return _ _).symm

/-- What the model is told of the error of a mediator. -/
theorem dispatch_stops {call : ToolCall} {rsid : Option String} {route : Route} {mediatedCall : Call} {error : Error}
    {result : ToolCallResult} {s t : Session} {events : List Event} (routed : routeOf call.name = some route)
    (called : callOf call.arguments rsid route = .ok mediatedCall) (stops : Stops (mediate mediatedCall) s (.Err error) t events)
    (told : toolCallResult (.error error) = pure result) :
    Runs (dispatchToolCall call rsid) s ⟨call.name,call.arguments,result,none⟩ t events := by
  have mediates : Stops (mediated call.arguments rsid route) s (.Err error) t events := by
    rw [mediated,called]
    exact stops
  have attempted : Runs (attempt caught (runRoute call.arguments rsid route)) s (.error error) t events :=
    runs_attempt_error.mpr ⟨_,rfl,(runRoute_alike call.arguments rsid route).symm.stops mediates⟩
  rw [dispatchToolCall,routed,← List.append_nil events]
  refine attempted.continues.runs ?_
  rw [told]
  exact (runs_pure.mpr ⟨rfl,rfl,rfl⟩ : Runs (pure result) t result t []).then_pure _

end

/-- Arguments that lead nowhere are told to the model as such. -/
theorem callOf_error {args : Value} {rsid : Option String} {route : Route} {error : Error}
    (refused : callOf args rsid route = .error error) : ∃ name,error = .UnroutableToolCall name := by
  have text : ∀ {key : String} {error : Error},pathArg args key = .error error → ∃ name,error = .UnroutableToolCall name := by
    intro key error missing
    unfold pathArg at missing
    split at missing
    · cases missing
    · cases missing
      exact ⟨_,rfl⟩
  cases route with
  | Filesystem toolName =>
    rw [callOf] at refused
    cases path : pathArg args "path" with
    | error other =>
      rw [path] at refused
      cases refused
      exact text path
    | ok path =>
      rw [path] at refused
      dsimp only at refused
      split_ifs at refused
      · cases contents : stringArg args "contents" with
        | error other =>
          rw [contents] at refused
          cases refused
          exact text contents
        | ok contents =>
          rw [contents] at refused
          cases refused
      · cases refused
        exact ⟨_,rfl⟩
  | Network toolName =>
    rw [callOf] at refused
    split_ifs at refused
    · split at refused
      · rename_i host
        cases refused
        exact text host
      · rename_i port
        cases refused
        unfold u16Arg at port
        split at port
        · cases port
          exact ⟨_,rfl⟩
        · split_ifs at port
          cases port
          exact ⟨_,rfl⟩
      · rename_i proto
        cases refused
        unfold protocolOf at proto
        split_ifs at proto
        cases proto
        exact ⟨_,rfl⟩
      · cases refused
    · cases refused
      exact ⟨_,rfl⟩
  | Exec toolName =>
    rw [callOf] at refused
    split_ifs at refused
    · cases program : pathArg args "program" with
      | error other =>
        rw [program] at refused
        cases refused
        exact text program
      | ok program =>
        rw [program] at refused
        cases refused
    · cases refused
      exact ⟨_,rfl⟩
  | Mcp serverName toolName => cases refused

end AegisNode.Turn
