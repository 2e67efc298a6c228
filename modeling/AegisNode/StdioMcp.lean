import AegisNode.JsonText
import Mathlib.Data.List.DropRight

/-!
The MCP client on the pipes of its child processes: the requests of a connection, the
frames that each of them reads, and the answers that the calls return.
-/
namespace AegisNode.StdioMcp
open Text Json
set_option linter.unusedSectionVars false

structure JsonRpcError where
  code : Int
  message : String
  data : Option Value

structure JsonRpcResponse where
  jsonrpc : String
  id : Option UInt64
  result : Option Value
  error : Option JsonRpcError

inductive Error where
  | ServerError (code : Int) (message : String)
  | UnsupportedTransport (serverUri : String)
  | Spawn (serverUri : String) (source : String)
  | Protocol (detail : String)
  deriving DecidableEq,Repr

/-- What `read_line` gives: an error, or a line, which is empty at the end of the output. -/
inductive Reading where
  | Failed (e : String)
  | Line (text : String)

/-- The child processes: what the n-th spawn gives, and for the n-th child what the writes
    to its input and the reads from its output give, one after the other. -/
class Children where
  spawn : Nat → String → List String → Except String Unit
  write : Nat → Nat → Value → Except String Unit
  readLine : Nat → Nat → Reading

/-- The third-party `serde_json::from_str::<JsonRpcResponse>` with its error text. -/
class Frames where
  fromStr : String → Except String JsonRpcResponse

/-- A connection to a child, with the messages written to it and the lines read from it. -/
structure StdioConnection where
  child : Nat
  nextId : UInt64
  written : Nat
  read : Nat

/-- The connections by server, and how many children have been spawned. -/
structure StdioMcpClient where
  connections : String → Option StdioConnection
  spawned : Nat

def StdioMcpClient.new : StdioMcpClient := ⟨fun _ => none,0⟩

def StdioMcpClient.insert (client : StdioMcpClient) (serverUri : String) (conn : StdioConnection) : StdioMcpClient :=
  { client with connections := Function.update client.connections serverUri (some conn) }

/-- A request that has ended: its id, the lines from `first` up to `next` that it read, and
    what it took for its answer. -/
structure Exchange where
  child : Nat
  id : UInt64
  first : Nat
  next : Nat
  answer : Except Error JsonRpcResponse

/-! ### Messages -/

def jsonRpcRequest (id : UInt64) (method : String) (params : Value) : Value :=
  .Object [("jsonrpc",.String "2.0"),("id",.Number (.PosInt id)),("method",.String method),("params",params)]

/-- The parameters of the handshake, with the version of the package. -/
def initializeParams (version : String) : Value :=
  .Object [("protocolVersion",.String "2024-11-05"),("capabilities",.Object [("tools",.Object [])]),
    ("clientInfo",.Object [("name",.String "aegis-node"),("version",.String version)])]

def initialized : Value := .Object [("jsonrpc",.String "2.0"),("method",.String "notifications/initialized")]

def callParams (toolName : String) (args : Value) : Value := .Object [("name",.String toolName),("arguments",args)]

/-- `str::split_whitespace` -/
def splitWhitespace (text : List Char) : List String :=
  ((text.splitOnP isWhiteSpace).filter (· ≠ [])).map String.ofList

def parseStdioUri (serverUri : String) : Except Error (String × List String) :=
  match stripPrefix "stdio:".toList serverUri.toList with
  | none => .error (.UnsupportedTransport serverUri)
  | some rest =>
    match splitWhitespace rest with
    | [] => .error (.UnsupportedTransport serverUri)
    | path :: args => .ok (path,args)

/-- A line without the newlines at its end. -/
def frameText (line : String) : String := String.ofList (line.toList.rdropWhile (· = '\n'))

section
variable [Frames]

def readMessage : Reading → Except Error JsonRpcResponse
  | .Failed e => .error (.Protocol ("read: " ++ e))
  | .Line line =>
    if line = "" then .error (.Protocol "server closed stdout before reply")
    else (Frames.fromStr (frameText line)).mapError fun e => .Protocol ("decode: " ++ e ++ "; raw: " ++ rustDebug line)

variable [Children]

/-- Reads lines until one carries the id, and answers with it and the lines read so far;
    nothing if that takes more than `fuel` lines. -/
def readResponseForId (child : Nat) (expectedId : UInt64) : (fuel position : Nat) → Option (Except Error JsonRpcResponse × Nat)
  | 0,_ => none
  | fuel+1,position =>
    match readMessage (Children.readLine child position) with
    | .error e => some (.error e,position+1)
    | .ok resp => if resp.id = some expectedId then some (.ok resp,position+1) else readResponseForId child expectedId fuel (position+1)

/-- A request and the wait for its answer. -/
def request (fuel : Nat) (conn : StdioConnection) (method : String) (params : Value) : Option (Exchange × StdioConnection) :=
  let id := conn.nextId
  let sent := { conn with nextId := conn.nextId+1, written := conn.written+1 }
  match Children.write conn.child conn.written (jsonRpcRequest id method params) with
  | .error e => some (⟨conn.child,id,conn.read,conn.read,.error (.Protocol e)⟩,sent)
  | .ok () => (readResponseForId conn.child id fuel conn.read).map fun answered =>
      (⟨conn.child,id,conn.read,answered.2,answered.1⟩,{ sent with read := answered.2 })

/-- The connection, or why there is none, with the request that was made. -/
def initializeHandshake (version : String) (fuel : Nat) (conn : StdioConnection) :
    Option (Exchange × Except Error StdioConnection) :=
  (request fuel conn "initialize" (initializeParams version)).map fun answered =>
    match answered.1.answer with
    | .error e => (answered.1,.error e)
    | .ok resp =>
      match resp.error with
      | some err => (answered.1,.error (.ServerError err.code err.message))
      | none =>
        match Children.write answered.2.child answered.2.written initialized with
        | .error e => (answered.1,.error (.Protocol e))
        | .ok () => (answered.1,.ok { answered.2 with written := answered.2.written+1 })

/-- The connection of a server, with the request that opened it if it is new. -/
def ensureConnection (version : String) (fuel : Nat) (client : StdioMcpClient) (serverUri : String) :
    Option (StdioMcpClient × List Exchange × Except Error StdioConnection) :=
  match client.connections serverUri with
  | some conn => some (client,[],.ok conn)
  | none =>
    match parseStdioUri serverUri with
    | .error e => some (client,[],.error e)
    | .ok (path,args) =>
      let spawned := { client with spawned := client.spawned+1 }
      match Children.spawn client.spawned path args with
      | .error e => some (spawned,[],.error (.Spawn serverUri e))
      | .ok () => (initializeHandshake version fuel ⟨client.spawned,0,0,0⟩).map fun opened =>
          match opened.2 with
          | .error e => (spawned,[opened.1],.error e)
          | .ok conn => (spawned.insert serverUri conn,[opened.1],.ok conn)

/-- What a call makes of its answer. -/
def settle (answer : Except Error JsonRpcResponse) : Except Error Value := do
  let resp ← answer
  match resp.error with
  | some err => .error (.ServerError err.code err.message)
  | none =>
    match resp.result with
    | some value => .ok value
    | none => .error (.Protocol "response missing both result and error")

/-- A call that has returned: its own request, if it came to make one, and all requests
    that were made. -/
structure Returned where
  client : StdioMcpClient
  exchanges : List Exchange
  own : Option Exchange
  result : Except Error Value

def callTool (version : String) (fuel : Nat) (client : StdioMcpClient) (serverUri toolName : String) (args : Value) :
    Option Returned := do
  let (client,exchanges,ensured) ← ensureConnection version fuel client serverUri
  match ensured with
  | .error e => return ⟨client,exchanges,none,.error e⟩
  | .ok conn =>
    let (own,conn) ← request fuel conn "tools/call" (callParams toolName args)
    return ⟨client.insert serverUri conn,exchanges ++ [own],some own,settle own.answer⟩

/-- The calls that have returned one after the other on a new client, and the requests
    that they made. -/
inductive Calls (version : String) : StdioMcpClient → List Exchange → List Returned → Prop where
  | New : Calls version .new [] []
  | Call {client : StdioMcpClient} {log : List Exchange} {returned : List Returned} {last : Returned} (earlier : Calls version client log returned)
      (fuel : Nat) (serverUri toolName : String) (args : Value) (returns : callTool version fuel client serverUri toolName args = some last) :
      Calls version last.client (log ++ last.exchanges) (returned ++ [last])

end

/-! ### Frames -/

section
variable [Serde]

/-- The line is a frame with these fields. -/
def Frame (line : String) (fields : Map) : Prop := line ≠ "" ∧ Serde.fromStr (frameText line) = .ok (.Object fields)

/-- A frame that answers a request: one without a method. -/
def IsResponse (line : String) : Prop := ∃ fields,Frame line fields ∧ Map.get fields "method" = none

/-- A notification, or a request of the server. -/
def Unsolicited (line : String) : Prop := ∃ fields,Frame line fields ∧ (Map.get fields "method").isSome

variable [Frames] [Children]

/-- The last line that the request read is a response with its id and this result. -/
def Answered (e : Exchange) (value : Value) : Prop :=
  e.first < e.next ∧ ∃ line,Children.readLine e.child (e.next-1) = .Line line ∧ IsResponse line ∧
    ∃ resp,Frames.fromStr (frameText line) = .ok resp ∧ resp.id = some e.id ∧ resp.error = none ∧ resp.result = some value

/-- How the answers of calls go with their requests: the ids of a connection increase, no
    two requests read the same line, a call succeeds with the result of its own response,
    and no notification or request of the server ends a request. -/
structure Paired (log : List Exchange) (returned : List Returned) : Prop where
  increasing : log.Pairwise fun earlier later => earlier.child = later.child → earlier.id < later.id
  apart : log.Pairwise fun earlier later => earlier.child = later.child → earlier.next ≤ later.first
  requests : (returned.filterMap (·.own)).Sublist log
  own : ∀ call ∈ returned,∀ value,call.result = .ok value → ∃ e,call.own = some e ∧ Answered e value
  unended : ∀ e ∈ log,e.first < e.next → ∀ line,Children.readLine e.child (e.next-1) = .Line line → ¬ Unsolicited line

/-- Nothing in the way of a request: there are ids left after its own, what it reads that
    is not a response does not carry its id, and notifications and requests of the server
    can be read as responses. -/
structure Undisturbed (e : Exchange) : Prop where
  remains : e.id.toNat+1 < 2^64
  foreign : ∀ k,e.first ≤ k → k < e.next → ∀ line,Children.readLine e.child k = .Line line → ¬ IsResponse line →
    ∀ resp,Frames.fromStr (frameText line) = .ok resp → resp.id ≠ some e.id
  readable : ∀ k,e.first ≤ k → k < e.next → ∀ line,Children.readLine e.child k = .Line line → Unsolicited line →
    ∃ resp,Frames.fromStr (frameText line) = .ok resp

/-! ### One request -/

/-- How a request ends: unwritten, at a line that cannot be read, or at one with its id. -/
inductive Ends (e : Exchange) : Prop where
  | Unwritten (detail : String) (unread : e.next = e.first) (failed : e.answer = .error (.Protocol detail))
  | Broken (error : Error) (reads : e.first < e.next) (failed : readMessage (Children.readLine e.child (e.next-1)) = .error error)
      (answer : e.answer = .error error)
  | Matched (resp : JsonRpcResponse) (reads : e.first < e.next)
      (read : readMessage (Children.readLine e.child (e.next-1)) = .ok resp) (own : resp.id = some e.id) (answer : e.answer = .ok resp)

theorem readResponseForId_ends {child : Nat} {id : UInt64} {fuel position next : Nat} {answer : Except Error JsonRpcResponse}
    (answered : readResponseForId child id fuel position = some (answer,next)) :
    position < next ∧ readMessage (Children.readLine child (next-1)) = answer ∧ ∀ resp,answer = .ok resp → resp.id = some id := by
  induction fuel generalizing position with
  | zero => cases answered
  | succ fuel ih =>
    rw [readResponseForId] at answered
    split at answered
    · rename_i e failed
      cases answered
      exact ⟨by omega,by simpa using failed,nofun⟩
    · rename_i resp read
      split_ifs at answered with own
      · cases answered
        exact ⟨by omega,by simpa using read,fun other same => by cases same; exact own⟩
      · obtain ⟨later,rest⟩ := ih answered
        exact ⟨by omega,rest⟩

/-- What a request changes of its connection. -/
structure Makes (conn : StdioConnection) (e : Exchange) (after : StdioConnection) : Prop where
  child : e.child = conn.child
  id : e.id = conn.nextId
  first : e.first = conn.read
  order : e.first ≤ e.next
  same : after.child = conn.child
  nextId : after.nextId = conn.nextId+1
  read : after.read = e.next
  ends : Ends e

theorem request_makes {fuel : Nat} {conn after : StdioConnection} {method : String} {params : Value} {e : Exchange}
    (requested : request fuel conn method params = some (e,after)) : Makes conn e after := by
  unfold request at requested
  dsimp only at requested
  split at requested
  · rename_i detail failed
    cases requested
    exact ⟨rfl,rfl,rfl,le_rfl,rfl,rfl,rfl,.Unwritten detail rfl rfl⟩
  · obtain ⟨⟨answer,next⟩,answered,same⟩ := Option.map_eq_some_iff.mp requested
    cases same
    obtain ⟨reads,last,own⟩ := readResponseForId_ends answered
    refine ⟨rfl,rfl,rfl,le_of_lt reads,rfl,rfl,rfl,?_⟩
    cases answer with
    | error error => exact .Broken error reads last rfl
    | ok resp => exact .Matched resp reads last (own resp rfl) rfl

/-- A line that can be read is the text of a frame. -/
theorem readMessage_ok {reading : Reading} {resp : JsonRpcResponse} (read : readMessage reading = .ok resp) :
    ∃ line,reading = .Line line ∧ Frames.fromStr (frameText line) = .ok resp := by
  cases reading with
  | Failed e => cases read
  | Line line =>
    rw [readMessage] at read
    split_ifs at read
    refine ⟨line,rfl,?_⟩
    cases decoded : Frames.fromStr (frameText line) with
    | error e =>
      rw [decoded] at read
      cases read
    | ok resp' =>
      rw [decoded] at read
      simpa [Except.mapError] using read

/-! ### A run of calls -/

/-- The requests of the log are behind this connection. -/
def Behind (log : List Exchange) (conn : StdioConnection) : Prop :=
  ∀ e ∈ log,e.child = conn.child → e.id < conn.nextId ∧ e.next ≤ conn.read

/-- Ids and lines go up along the log. -/
def Ordered (log : List Exchange) : Prop :=
  log.Pairwise fun earlier later => earlier.child = later.child → earlier.id < later.id ∧ earlier.next ≤ later.first

/-- What holds between two calls. -/
structure Standing (client : StdioMcpClient) (log : List Exchange) : Prop where
  born : ∀ e ∈ log,e.child < client.spawned
  ordered : Ordered log
  held : ∀ uri conn,client.connections uri = some conn → conn.child < client.spawned ∧ Behind log conn
  distinct : ∀ uri uri' conn conn',client.connections uri = some conn → client.connections uri' = some conn' →
    conn.child = conn'.child → uri = uri'

theorem ordered_append {log : List Exchange} {e : Exchange} {conn after : StdioConnection} (ordered : Ordered log)
    (behind : Behind log conn) (makes : Makes conn e after) : Ordered (log ++ [e]) := by
  refine List.pairwise_append.mpr ⟨ordered,List.pairwise_singleton _ _,?_⟩
  intro earlier member later last same
  cases List.mem_singleton.mp last
  rw [makes.child] at same
  rw [makes.id,makes.first]
  exact behind earlier member same

/-- The next id has not wrapped round. -/
theorem id_grows {id : UInt64} (remains : id.toNat+1 < 2^64) : id < id+1 := by
  rw [UInt64.lt_iff_toNat_lt,UInt64.toNat_add]
  have one : (1 : UInt64).toNat = 1 := rfl
  rw [one,Nat.mod_eq_of_lt remains]
  omega

theorem behind_after {log : List Exchange} {e : Exchange} {conn after : StdioConnection} (behind : Behind log conn)
    (makes : Makes conn e after) (remains : e.id.toNat+1 < 2^64) : Behind (log ++ [e]) after := by
  rw [makes.id] at remains
  have grows := id_grows remains
  intro earlier member same
  rw [makes.same] at same
  rw [makes.nextId,makes.read]
  rcases List.mem_append.mp member with old | new
  · obtain ⟨lower,read⟩ := behind earlier old same
    refine ⟨UInt64.lt_trans lower grows,?_⟩
    have := makes.first
    have := makes.order
    omega
  · cases List.mem_singleton.mp new
    rw [makes.id]
    exact ⟨grows,le_rfl⟩

/-- A request to another child changes nothing for a connection. -/
theorem behind_other {log : List Exchange} {e : Exchange} {conn : StdioConnection} (behind : Behind log conn)
    (other : e.child ≠ conn.child) : Behind (log ++ [e]) conn := by
  intro earlier member same
  rcases List.mem_append.mp member with old | new
  · exact behind earlier old same
  · cases List.mem_singleton.mp new
    exact absurd same other

/-- The invariant after a request of a connection that stands in the client or is put there. -/
theorem standing_request {client : StdioMcpClient} {log : List Exchange} {serverUri : String} {conn after : StdioConnection} {e : Exchange}
    (standing : Standing client log) (here : client.connections serverUri = some conn) (makes : Makes conn e after)
    (remains : e.id.toNat+1 < 2^64) : Standing (client.insert serverUri after) (log ++ [e]) := by
  obtain ⟨below,behind⟩ := standing.held serverUri conn here
  have children : ∀ uri held,(client.insert serverUri after).connections uri = some held →
      (uri = serverUri ∧ held = after) ∨ (uri ≠ serverUri ∧ client.connections uri = some held) := by
    intro uri held found
    simp only [StdioMcpClient.insert,Function.update_apply] at found
    split_ifs at found with same
    · exact .inl ⟨same,(Option.some.inj found).symm⟩
    · exact .inr ⟨same,found⟩
  refine ⟨?_,ordered_append standing.ordered behind makes,?_,?_⟩
  · intro earlier member
    rcases List.mem_append.mp member with old | new
    · exact standing.born earlier old
    · cases List.mem_singleton.mp new
      rw [makes.child]
      exact below
  · intro uri held found
    rcases children uri held found with ⟨rfl,rfl⟩ | ⟨other,stood⟩
    · exact ⟨by rw [makes.same]; exact below,behind_after behind makes remains⟩
    · obtain ⟨bound,behind⟩ := standing.held uri held stood
      refine ⟨bound,behind_other behind fun same => other ?_⟩
      rw [makes.child] at same
      exact (standing.distinct _ _ _ _ here stood same).symm
  · intro uri uri' held held' found found' same
    rcases children uri held found with ⟨rfl,rfl⟩ | ⟨other,stood⟩ <;>
      rcases children uri' held' found' with ⟨rfl,rfl⟩ | ⟨other',stood'⟩
    · rfl
    · rw [makes.same] at same
      exact standing.distinct _ _ _ _ here stood' same
    · rw [makes.same] at same
      exact standing.distinct _ _ _ _ stood here same
    · exact standing.distinct _ _ _ _ stood stood' same

/-- A child is spawned for a server that has no connection yet. -/
theorem standing_spawned {client : StdioMcpClient} {log : List Exchange} (standing : Standing client log) (serverUri : String) :
    Standing ({ client with spawned := client.spawned+1 }.insert serverUri ⟨client.spawned,0,0,0⟩) log := by
  have children : ∀ uri held,({ client with spawned := client.spawned+1 }.insert serverUri ⟨client.spawned,0,0,0⟩).connections uri =
      some held → (uri = serverUri ∧ held = ⟨client.spawned,0,0,0⟩) ∨ client.connections uri = some held := by
    intro uri held found
    simp only [StdioMcpClient.insert,Function.update_apply] at found
    split_ifs at found with same
    · exact .inl ⟨same,(Option.some.inj found).symm⟩
    · exact .inr found
  refine ⟨fun e member => Nat.lt_succ_of_lt (standing.born e member),standing.ordered,?_,?_⟩
  · intro uri held found
    rcases children uri held found with ⟨rfl,rfl⟩ | stood
    · refine ⟨Nat.lt_succ_self _,fun e member same => ?_⟩
      have := standing.born e member
      rw [same] at this
      exact absurd this (lt_irrefl _)
    · obtain ⟨bound,behind⟩ := standing.held uri held stood
      exact ⟨Nat.lt_succ_of_lt bound,behind⟩
  · intro uri uri' held held' found found' same
    rcases children uri held found with ⟨rfl,rfl⟩ | stood <;> rcases children uri' held' found' with ⟨rfl,rfl⟩ | stood'
    · rfl
    · have := (standing.held uri' held' stood').1
      rw [← same] at this
      exact absurd this (lt_irrefl _)
    · have := (standing.held uri held stood).1
      rw [same] at this
      exact absurd this (lt_irrefl _)
    · exact standing.distinct _ _ _ _ stood stood' same

/-- The invariant without the connection of one server. -/
theorem standing_dropped {client : StdioMcpClient} {log : List Exchange} {serverUri : String} {conn : StdioConnection}
    (absent : client.connections serverUri = none) (standing : Standing (client.insert serverUri conn) log) : Standing client log := by
  have children : ∀ uri held,client.connections uri = some held → (client.insert serverUri conn).connections uri = some held := by
    intro uri held found
    have other : uri ≠ serverUri := by
      rintro rfl
      rw [absent] at found
      cases found
    simp only [StdioMcpClient.insert,Function.update_apply,if_neg other,found]
  exact ⟨standing.born,standing.ordered,fun uri held found => standing.held uri held (children uri held found),
    fun uri uri' held held' found found' => standing.distinct uri uri' held held' (children uri held found) (children uri' held' found')⟩

theorem insert_insert (client : StdioMcpClient) (serverUri : String) (conn after : StdioConnection) :
    (client.insert serverUri conn).insert serverUri after = client.insert serverUri after := by
  simp [StdioMcpClient.insert]

theorem insert_connections (client : StdioMcpClient) (serverUri : String) (conn : StdioConnection) :
    (client.insert serverUri conn).connections serverUri = some conn := by
  simp [StdioMcpClient.insert]

/-- What is known after the requests of a step. -/
structure Stands (client : StdioMcpClient) (log made : List Exchange) : Prop where
  standing : (∀ e ∈ made,e.id.toNat+1 < 2^64) → Standing client (log ++ made)
  ends : ∀ e ∈ made,Ends e

variable {version : String} {fuel : Nat}

/-- The handshake leaves its connection as its request did. -/
theorem initializeHandshake_makes {conn : StdioConnection} {e : Exchange} {opened : Except Error StdioConnection}
    (shaken : initializeHandshake version fuel conn = some (e,opened)) :
    ∃ after,Makes conn e after ∧ ∀ kept,opened = .ok kept → Makes conn e kept := by
  obtain ⟨⟨made,after⟩,requested,same⟩ := Option.map_eq_some_iff.mp shaken
  have makes := request_makes requested
  dsimp only at same
  split at same
  · cases same
    exact ⟨after,makes,nofun⟩
  · split at same
    · cases same
      exact ⟨after,makes,nofun⟩
    · split at same
      · cases same
        exact ⟨after,makes,nofun⟩
      · cases same
        refine ⟨after,makes,fun kept opens => ?_⟩
        cases opens
        exact ⟨makes.child,makes.id,makes.first,makes.order,makes.same,makes.nextId,makes.read,makes.ends⟩

theorem ensureConnection_stands {client client' : StdioMcpClient} {log made : List Exchange} {serverUri : String}
    {ensured : Except Error StdioConnection} (standing : Standing client log)
    (ensures : ensureConnection version fuel client serverUri = some (client',made,ensured)) :
    Stands client' log made ∧ ∀ conn,ensured = .ok conn → client'.connections serverUri = some conn := by
  unfold ensureConnection at ensures
  split at ensures
  · rename_i conn found
    cases ensures
    exact ⟨⟨fun _ => by simpa using standing,nofun⟩,fun other same => by cases same; exact found⟩
  · rename_i absent
    have spawned := standing_spawned standing serverUri
    have here := insert_connections { client with spawned := client.spawned+1 } serverUri ⟨client.spawned,0,0,0⟩
    have unconnected : { client with spawned := client.spawned+1 }.connections serverUri = none := absent
    split at ensures
    · cases ensures
      exact ⟨⟨fun _ => by simpa using standing,nofun⟩,nofun⟩
    · dsimp only at ensures
      split at ensures
      · cases ensures
        exact ⟨⟨fun _ => by simpa using standing_dropped unconnected spawned,nofun⟩,nofun⟩
      · obtain ⟨⟨e,opened⟩,shaken,same⟩ := Option.map_eq_some_iff.mp ensures
        obtain ⟨after,makes,keeps⟩ := initializeHandshake_makes shaken
        have one : ∀ e' ∈ [e],Ends e' := fun e' member => by
          cases List.mem_singleton.mp member
          exact makes.ends
        dsimp only at same
        split at same
        · cases same
          refine ⟨⟨fun remains => ?_,one⟩,nofun⟩
          have stands := standing_request spawned here makes (remains e List.mem_cons_self)
          rw [insert_insert] at stands
          exact standing_dropped unconnected stands
        · rename_i conn
          cases same
          refine ⟨⟨fun remains => ?_,one⟩,fun other opens => ?_⟩
          · have stands := standing_request spawned here (keeps conn rfl) (remains e List.mem_cons_self)
            rwa [insert_insert] at stands
          · cases opens
            exact insert_connections _ _ _

/-- How a call returns: without a request of its own, or with what it makes of its answer. -/
inductive CallEnds (last : Returned) : Prop where
  | Unconnected (error : Error) (own : last.own = none) (result : last.result = .error error)
  | Requested (earlier : List Exchange) (e : Exchange) (exchanges : last.exchanges = earlier ++ [e]) (own : last.own = some e)
      (result : last.result = settle e.answer)

theorem callTool_stands {client : StdioMcpClient} {log : List Exchange} {serverUri toolName : String} {args : Value} {last : Returned}
    (standing : Standing client log) (returns : callTool version fuel client serverUri toolName args = some last) :
    Stands last.client log last.exchanges ∧ CallEnds last := by
  unfold callTool at returns
  obtain ⟨⟨client',made,ensured⟩,ensures,rest⟩ := Option.bind_eq_some_iff.mp returns
  obtain ⟨stands,connected⟩ := ensureConnection_stands standing ensures
  dsimp only at rest
  split at rest
  · rename_i e
    cases rest
    exact ⟨stands,.Unconnected e rfl rfl⟩
  · rename_i conn
    obtain ⟨⟨e,after⟩,requested,same⟩ := Option.bind_eq_some_iff.mp rest
    cases same
    have makes := request_makes requested
    refine ⟨⟨fun remains => ?_,fun other member => ?_⟩,.Requested made e rfl rfl rfl⟩
    · have before := stands.standing fun other member => remains other (List.mem_append_left _ member)
      have stood := standing_request before (connected conn rfl) makes (remains e (List.mem_append_right _ List.mem_cons_self))
      rwa [List.append_assoc] at stood
    · rcases List.mem_append.mp member with old | new
      · exact stands.ends other old
      · cases List.mem_singleton.mp new
        exact makes.ends

theorem settle_ok {answer : Except Error JsonRpcResponse} {value : Value} (settled : settle answer = .ok value) :
    ∃ resp,answer = .ok resp ∧ resp.error = none ∧ resp.result = some value := by
  cases answer with
  | error e => cases settled
  | ok resp =>
    simp only [settle,bind,Except.bind] at settled
    split at settled
    · cases settled
    · rename_i none
      split at settled
      · rename_i found
        cases settled
        exact ⟨resp,rfl,none,found⟩
      · cases settled

/-- An undisturbed request with its answer has read its own response. -/
theorem ends_answered {e : Exchange} {value : Value} (ends : Ends e) (undisturbed : Undisturbed e) (settled : settle e.answer = .ok value) :
    Answered e value := by
  obtain ⟨resp,answered,success,result⟩ := settle_ok settled
  cases ends with
  | Unwritten detail _ failed =>
    rw [failed] at answered
    cases answered
  | Broken error _ _ failed =>
    rw [failed] at answered
    cases answered
  | Matched other reads read own answer =>
    rw [answer] at answered
    cases answered
    obtain ⟨line,lined,decoded⟩ := readMessage_ok read
    refine ⟨reads,line,lined,?_,resp,decoded,own,success,result⟩
    by_contra foreign
    exact undisturbed.foreign (e.next-1) (by omega) (by omega) line lined foreign resp decoded own

/-- No notification and no request of the server ends an undisturbed request. -/
theorem ends_solicited {e : Exchange} (ends : Ends e) (undisturbed : Undisturbed e) (reads : e.first < e.next) {line : String}
    (lined : Children.readLine e.child (e.next-1) = .Line line) : ¬ Unsolicited line := by
  intro unsolicited
  obtain ⟨resp,decoded⟩ := undisturbed.readable (e.next-1) (by omega) (by omega) line lined unsolicited
  cases ends with
  | Unwritten detail unread _ => omega
  | Broken error _ failed _ =>
    rw [lined,readMessage] at failed
    split_ifs at failed with closed
    · obtain ⟨fields,frame,-⟩ := unsolicited
      exact frame.1 closed
    · rw [decoded] at failed
      cases failed
  | Matched other _ read own _ =>
    obtain ⟨line',lined',decoded'⟩ := readMessage_ok read
    rw [lined] at lined'
    cases lined'
    obtain ⟨fields,⟨-,parsed⟩,method⟩ := unsolicited
    refine undisturbed.foreign (e.next-1) (by omega) (by omega) line lined ?_ other decoded' own
    rintro ⟨fields',⟨-,parsed'⟩,methodless⟩
    rw [parsed] at parsed'
    cases parsed'
    rw [methodless] at method
    cases method

/-- What a run of calls comes to. -/
structure Run (client : StdioMcpClient) (log : List Exchange) (returned : List Returned) : Prop where
  standing : Standing client log
  ends : ∀ e ∈ log,Ends e
  requests : (returned.filterMap (·.own)).Sublist log
  calls : ∀ call ∈ returned,CallEnds call

theorem calls_run {client : StdioMcpClient} {log : List Exchange} {returned : List Returned} (calls : Calls version client log returned)
    (remains : ∀ e ∈ log,e.id.toNat+1 < 2^64) : Run client log returned := by
  induction calls with
  | New => exact ⟨⟨nofun,List.Pairwise.nil,nofun,nofun⟩,nofun,List.Sublist.slnil,nofun⟩
  | @Call client log returned last earlier fuel serverUri toolName args returns ih =>
    have run := ih fun e member => remains e (List.mem_append_left _ member)
    obtain ⟨stands,ends⟩ := callTool_stands run.standing returns
    refine ⟨stands.standing fun e member => remains e (List.mem_append_right _ member),?_,?_,?_⟩
    · intro e member
      rcases List.mem_append.mp member with old | new
      · exact run.ends e old
      · exact stands.ends e new
    · rw [List.filterMap_append]
      refine run.requests.append ?_
      cases ends with
      | Unconnected error own result => simp [own]
      | Requested before e exchanges own result => simp [own,exchanges]
    · intro call member
      rcases List.mem_append.mp member with old | new
      · exact run.calls call old
      · cases List.mem_singleton.mp new
        exact ends

/-- In a run of calls whose requests are undisturbed every answer goes with its own
    request. -/
theorem calls_paired {client : StdioMcpClient} {log : List Exchange} {returned : List Returned} (calls : Calls version client log returned)
    (undisturbed : ∀ e ∈ log,Undisturbed e) : Paired log returned := by
  have run := calls_run calls fun e member => (undisturbed e member).remains
  refine ⟨?_,?_,run.requests,?_,?_⟩
  · exact run.standing.ordered.imp fun ordered same => (ordered same).1
  · exact run.standing.ordered.imp fun ordered same => (ordered same).2
  · intro call member value succeeds
    cases run.calls call member with
    | Unconnected error own result =>
      rw [result] at succeeds
      cases succeeds
    | Requested before e exchanges own result =>
      rw [result] at succeeds
      have made : e ∈ returned.filterMap (·.own) := List.mem_filterMap.mpr ⟨call,member,own⟩
      have logged := run.requests.subset made
      exact ⟨e,own,ends_answered (run.ends e logged) (undisturbed e logged) succeeds⟩
  · intro e member reads line lined
    exact ends_solicited (run.ends e member) (undisturbed e member) reads lined

end

/-! ### A server -/

/-- An optional field: absent, null, or read. -/
def optional {α : Type} (read : Value → Except String α) : Option Value → Except String (Option α)
  | none => .ok none
  | some .Null => .ok none
  | some v => (read v).map some

def decodeString : Option Value → Except String String
  | some (.String s) => .ok s
  | some _ => .error "invalid type"
  | none => .error "missing field"

def decodeError : Value → Except String JsonRpcError
  | .Object fields => do
    let code ← match Map.get fields "code" with
      | some (.Number (.PosInt n)) => if n.toNat < 2^63 then .ok (n.toNat : Int) else .error "invalid value"
      | some (.Number (.NegInt n _)) => .ok n
      | _ => .error "invalid type"
    let message ← decodeString (Map.get fields "message")
    let data ← optional .ok (Map.get fields "data")
    return ⟨code,message,data⟩
  | _ => .error "invalid type"

/-- A JSON value read as a response: a method and other unknown fields are ignored. -/
def decodeResponse : Value → Except String JsonRpcResponse
  | .Object fields => do
    let jsonrpc ← decodeString (Map.get fields "jsonrpc")
    let id ← optional (fun v => match v with
      | .Number (.PosInt n) => .ok n
      | _ => .error "invalid type") (Map.get fields "id")
    let result ← optional .ok (Map.get fields "result")
    let error ← optional decodeError (Map.get fields "error")
    return ⟨jsonrpc,id,result,error⟩
  | _ => .error "invalid type"

@[reducible] def frames : Frames := ⟨fun text => (JsonText.serde.fromStr text).bind decodeResponse⟩

/-- A child that reads everything and has these lines to give. -/
@[reducible] def speaking (lines : List String) : Children where
  spawn := fun _ _ _ => .ok ()
  write := fun _ _ _ => .ok ()
  readLine := fun _ n => .Line (lines.getD n "")

def welcome : String := "\x7b\"id\":0,\"jsonrpc\":\"2.0\",\"result\":\x7b\x7d\x7d"
def answer : String := "\x7b\"id\":1,\"jsonrpc\":\"2.0\",\"result\":\x7b\x7d\x7d"
def ping : String := "\x7b\"id\":1,\"jsonrpc\":\"2.0\",\"method\":\"ping\"\x7d"

/-- The first call of a client. -/
def firstCall (lines : List String) : Option Returned :=
  @callTool frames (speaking lines) "0" 2 .new "stdio:/bin/files" "read" (.Object [])

/-- The children, ids and lines of the requests of a call, and whether it succeeds. -/
def shape (last : Returned) : List (Nat × UInt64 × Nat × Nat) × Bool :=
  (last.exchanges.map fun e => (e.child,e.id,e.first,e.next),last.result.toBool)

theorem firstCall_answer : (firstCall [welcome,answer]).map shape = some ([(0,0,0,1),(0,1,1,2)],true) := by decide +kernel

theorem firstCall_ping : (firstCall [welcome,ping,answer]).map shape = some ([(0,0,0,1),(0,1,1,2)],false) := by decide +kernel

/-- A line that is an object with or without a method. -/
def methodOf (line : String) : Option Bool :=
  match JsonText.serde.fromStr (frameText line) with
  | .ok (.Object fields) => some (Map.get fields "method").isSome
  | _ => none

theorem methodOf_some {line : String} {method : Bool} (nonempty : line ≠ "") (read : methodOf line = some method) :
    ∃ fields,@Frame JsonText.serde line fields ∧ (Map.get fields "method").isSome = method := by
  unfold methodOf at read
  split at read
  · rename_i fields parsed
    exact ⟨fields,⟨nonempty,parsed⟩,Option.some.inj read⟩
  · cases read

theorem response_line {line : String} (nonempty : line ≠ "") (read : methodOf line = some false) : @IsResponse JsonText.serde line := by
  obtain ⟨fields,frame,method⟩ := methodOf_some nonempty read
  exact ⟨fields,frame,by simpa using method⟩

theorem no_frame : ∃ e,frames.fromStr (frameText "") = .error e := by
  have empty : (frames.fromStr (frameText "")).toBool = false := by decide +kernel
  cases read : frames.fromStr (frameText "") with
  | error e => exact ⟨e,rfl⟩
  | ok resp =>
    rw [read] at empty
    cases empty

/-- Requests to a child that gives these two responses are undisturbed. -/
theorem welcome_undisturbed {e : Exchange} (remains : e.id.toNat+1 < 2^64) :
    @Undisturbed JsonText.serde frames (speaking [welcome,answer]) e := by
  have welcomed : @IsResponse JsonText.serde welcome := response_line (by decide) (by decide +kernel)
  have answered : @IsResponse JsonText.serde answer := response_line (by decide) (by decide +kernel)
  have lines : ∀ k line,(speaking [welcome,answer]).readLine e.child k = .Line line → @IsResponse JsonText.serde line ∨ line = "" := by
    intro k line given
    match k with
    | 0 => cases given; exact .inl welcomed
    | 1 => cases given; exact .inl answered
    | _+2 => cases given; exact .inr rfl
  refine @Undisturbed.mk JsonText.serde frames (speaking [welcome,answer]) e remains ?_ ?_
  · intro k _ _ line given foreign resp read
    rcases lines k line given with response | rfl
    · exact absurd response foreign
    · obtain ⟨e,failed⟩ := no_frame
      exact nomatch failed.symm.trans read
  · intro k _ _ line given unsolicited
    obtain ⟨fields,frame,method⟩ := unsolicited
    rcases lines k line given with ⟨fields',frame',methodless⟩ | rfl
    · have same := frame.2.symm.trans frame'.2
      cases same
      rw [methodless] at method
      cases method
    · exact absurd rfl frame.1

theorem shape_ids {last : Returned} {rows : List (Nat × UInt64 × Nat × Nat)} {success : Bool} (shaped : shape last = (rows,success)) :
    ∀ e ∈ last.exchanges,(e.child,e.id,e.first,e.next) ∈ rows := by
  intro e member
  have all : last.exchanges.map (fun e => (e.child,e.id,e.first,e.next)) = rows := congrArg Prod.fst shaped
  rw [← all]
  exact List.mem_map.mpr ⟨e,member,rfl⟩

theorem calls_paired_answer :
    let _ := JsonText.serde
    let _ := frames
    let _ := speaking [welcome,answer]
    ∃ last,Calls "0" last.client last.exchanges [last] ∧ last.result.toBool = true ∧ Paired last.exchanges [last] := by
  intro _ _ _
  obtain ⟨last,returns,shaped⟩ := Option.map_eq_some_iff.mp firstCall_answer
  have calls := Calls.Call .New 2 "stdio:/bin/files" "read" (.Object []) returns
  refine ⟨last,calls,congrArg Prod.snd shaped,calls_paired calls fun e member => welcome_undisturbed ?_⟩
  have row := shape_ids shaped e member
  simp only [List.mem_cons,Prod.mk.injEq,List.not_mem_nil,or_false] at row
  rcases row with ⟨-,id,-⟩ | ⟨-,id,-⟩ <;> rw [id] <;> decide

/-- A request of the server with the id of a call ends the call. -/
theorem ping_ends_call :
    let _ := JsonText.serde
    let _ := frames
    let _ := speaking [welcome,ping,answer]
    ¬ ∀ (client : StdioMcpClient) (log : List Exchange) (returned : List Returned),Calls "0" client log returned → Paired log returned := by
  intro _ _ _ every
  obtain ⟨last,returns,shaped⟩ := Option.map_eq_some_iff.mp firstCall_ping
  have calls := Calls.Call .New 2 "stdio:/bin/files" "read" (.Object []) returns
  have rows : last.exchanges.map (fun e => (e.child,e.id,e.first,e.next)) = [(0,0,0,1),(0,1,1,2)] := congrArg Prod.fst shaped
  obtain ⟨e,member,row⟩ : ∃ e ∈ last.exchanges,(e.child,e.id,e.first,e.next) = (0,1,1,2) :=
    List.mem_map.mp (by rw [rows]; decide)
  simp only [Prod.mk.injEq] at row
  obtain ⟨-,-,first,next⟩ := row
  obtain ⟨fields,frame,method⟩ := methodOf_some (show ping ≠ "" by decide) (show methodOf ping = some true by decide +kernel)
  refine (every _ _ _ calls).unended e member (by omega) ping ?_ ⟨fields,frame,method⟩
  rw [next]
  rfl

end AegisNode.StdioMcp
