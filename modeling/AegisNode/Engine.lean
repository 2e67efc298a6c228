import AegisNode.Adversarial
import AegisNode.Aggregate
import AegisNode.Backend
import AegisNode.Grants
import AegisNode.Policy
import AegisNode.Traced

/-!
A booted session: its state, the world it asks for the time, for files and for
effects, the entries it writes, the identity rebind and the aggregate-quota gate.
-/
namespace AegisNode.Engine
open Paths Clock Json Schema Policy Ledger Grants Aggregate Traced Adversarial Backend

/-! ### Identity -/

structure DigestTriple where
  model : Digest
  manifest : Digest
  config : Digest
  deriving DecidableEq,Repr

inductive DigestField where
  | Model
  | Manifest
  | Config
  | ChatTemplate
  deriving DecidableEq,Repr

def DigestField.name : DigestField → String
  | .Model => "model"
  | .Manifest => "manifest"
  | .Config => "config"
  | .ChatTemplate => "chat_template"

structure DigestMismatch where
  field : DigestField
  bound : Digest
  live : Digest
  deriving DecidableEq,Repr

def DigestMismatch.text (mismatch : DigestMismatch) : String :=
  mismatch.field.name ++ " digest changed (bound=" ++ Bytes.hexEncode mismatch.bound.bytes ++ ", live=" ++
    Bytes.hexEncode mismatch.live.bytes ++ ")"

structure X509Svid where
  spiffeUri : String
  certPem : String
  keyPem : String
  deriving DecidableEq,Repr

/-- X.509: what a certificate binds, and the local CA that issues it. A certificate for
    a turn has an audience and a lifetime in seconds. -/
class Identity where
  extractDigestTriple : String → Except String DigestTriple
  extractChatTemplate : String → Except String (Option Digest)
  extractTurnBinding : String → Except String (Option String)
  certThumbprintHex : String → Except String String
  issueSvid : (identityDir workloadName instanceName : String) → DigestTriple → Option Digest → Except String X509Svid
  issueTurnSvid : Nat → (identityDir workloadName instanceName : String) → DigestTriple → Option Digest →
    (audience : String) → (turnTtl : Nat) → Checked (Except String X509Svid)

/-- The first field that drifted: model, then manifest, then config. -/
def mismatch? (bound live : DigestTriple) : Option DigestMismatch :=
  if bound.model ≠ live.model then some ⟨.Model,bound.model,live.model⟩
  else if bound.manifest ≠ live.manifest then some ⟨.Manifest,bound.manifest,live.manifest⟩
  else if bound.config ≠ live.config then some ⟨.Config,bound.config,live.config⟩
  else none

def verifyDigestBinding [Identity] (certPem : String) (live : DigestTriple) : Except String (Option DigestMismatch) :=
  match Identity.extractDigestTriple certPem with
  | .error error => .error error
  | .ok bound => .ok (mismatch? bound live)

def zeroDigest : Digest := genesisPrevHash

def verifyChatTemplateBinding [Identity] (certPem : String) (live : Option Digest) :
    Except String (Option DigestMismatch) :=
  match Identity.extractChatTemplate certPem with
  | .error error => .error error
  | .ok none => .ok none
  | .ok (some bound) =>
    match live with
    | none => .ok (some ⟨.ChatTemplate,bound,zeroDigest⟩)
    | some live => if bound = live then .ok none else .ok (some ⟨.ChatTemplate,bound,live⟩)

/-! ### Errors -/

inductive PolicyError where
  | Io (error : IoError)
  | Yaml (error : String)
  | ExtendsUnsupported (parents : Nat)
  | Ledger (error : Ledger.Error)
  | Identity (error : String)
  | IdentityRebind (mismatch : DigestMismatch)
  deriving DecidableEq,Repr

inductive AccessLogError where
  | EmptyResourceUri
  | EmptyReasoningInput
  | Ledger (error : Ledger.Error)
  deriving DecidableEq,Repr

/-- The bound of a run that was reached. -/
inductive TurnCapKind where
  | Turns
  | Tokens
  | Wallclock
  deriving DecidableEq,Repr

inductive Error where
  | Io (error : IoError)
  | Identity (error : String)
  | Policy (error : PolicyError)
  | Ledger (error : Ledger.Error)
  | SvidSelfCheck (field : String)
  | ChatTemplateSidecar (path detail : String)
  | NoBackendConfigured
  | BackendInfer (error : BackendError)
  | UnroutableToolCall (name : String)
  | ReservedMcpServerName (name : String)
  | AccessLog (error : AccessLogError)
  | McpPreValidateMalformedArg (server tool arg reason : String)
  | Denied (reason : String)
  | RequireApproval (reason : String)
  | TurnCapExceeded (bound : TurnCapKind) (atTurn maxTurns : UInt32) (tokensConsumed maxTokens : UInt64)
      (wallclockSeconds : UInt64) (maxSeconds : UInt64)
  deriving DecidableEq,Repr

/-- How a call ends without a value: an error for its caller, or a panic. -/
inductive Stop where
  | Err (error : Error)
  | Panic (panic : Panic)
  deriving DecidableEq,Repr

/-- A panic is not an error that a caller can match. -/
def caught : Stop → Option Error
  | .Err error => some error
  | .Panic _ => none

/-! ### The world -/

structure ApprovalRequest where
  actionSummary : String
  resourceUri : String
  accessType : String
  sessionId : String
  reasoningStepId : Option String
  timeout : Nat
  deriving DecidableEq,Repr

inductive ApprovalOutcome where
  | Granted (approverIdentity : String) (decidedAt : Int)
  | Rejected (reason : String) (decidedAt : Int)
  | TimedOut (expiredAt : Int)
  deriving DecidableEq,Repr

/-- A channel answers its n-th question; an error comes with its text. -/
structure ApprovalChannel where
  requestApproval : Nat → ApprovalRequest → Except String ApprovalOutcome

structure McpClient where
  callTool : Nat → (serverUri toolName : String) → Value → Except String Value

structure Output where
  exitCode : Option Int
  stdout : List UInt8
  stderr : List UInt8
  deriving DecidableEq,Repr

/-- What lies outside the runtime. Each answer may depend on how many questions the
    session asked before, and so on everything that happened. -/
class World where
  instant : Nat → Nat
  utcNow : Nat → Int
  systemNow : Nat → Int
  uuid : Nat → Uuid
  entryUuid : Nat → Uuid
  currentDir : Nat → Option String
  fileBytes : Nat → (path : String) → Except IoError (List UInt8)
  manifestDocument : Nat → (path : String) → Except PolicyError Manifest
  sidecarText : Nat → (path : String) → Except String String
  createLedger : Nat → (path : String) → Except IoError (List BufWriter.Answer)
  readFile : Nat → (path : String) → Except IoError (List UInt8)
  writeFile : Nat → (path : String) → List UInt8 → Except IoError Unit
  removeFile : Nat → (path : String) → Except IoError Unit
  connect : Nat → (host : String) → UInt16 → Except IoError Unit
  output : Nat → (program : String) → (args : List String) → Except IoError Output

/-- An external side effect. -/
inductive Effect where
  | FsRead (path : String)
  | FsWrite (path : String) (contents : List UInt8)
  | FsRemove (path : String)
  | Connect (host : String) (port : UInt16)
  | CallTool (serverName serverUri toolName : String) (args : Value)
  | Spawn (program : String) (args : List String)

/-- What a session leaves behind, in the order in which it happens. -/
inductive Event where
  | UtcNow (t : Int)
  | SystemNow (t : Int)
  | Hashed (path : String) (bytes : Except IoError (List UInt8))
  | Append (entry : Entry) (result : Checked (Except Ledger.Error EntryRecord))
  | Approval (request : ApprovalRequest) (outcome : Except String ApprovalOutcome)
  | Performed (tick : Nat) (effect : Effect)
  | Inferred (request : InferRequest) (response : Except BackendError InferResponse)
  | IssuedTurnSvid (audience : String) (live : DigestTriple) (svid : X509Svid)

/-! ### The session -/

inductive NetworkConnectionDecision where
  | Allowed
  | Approved
  | Denied
  deriving DecidableEq,Repr

structure NetworkConnectionMeta where
  host : String
  port : UInt16
  protocol : String
  decision : NetworkConnectionDecision
  timestamp : Int
  deriving DecidableEq,Repr

/-- `Session`; `tick` counts the questions asked of the world. -/
structure Session where
  policy : Manifest
  ledger : LedgerWriter
  svidCertPem : String
  svidKeyPem : String
  boundDigests : DigestTriple
  boundChatTemplate : Option Digest
  spiffeUri : String
  agentIdentityHash : Digest
  sessionId : String
  sessionStart : Int
  manifestPath : String
  modelPath : String
  configPath : Option String
  identityDir : String
  workloadName : String
  instanceName : String
  approvalChannel : Option ApprovalChannel
  networkLog : List NetworkConnectionMeta
  mcpClient : Option McpClient
  loadedModel : Option LoadedModel
  adversarialClassifier : AdversarialClassifier
  aggregateState : SessionAggregateState
  currentTurnSvid : Option X509Svid
  grantTable : SessionGrantTable
  tick : Nat

/-- The session after one more question. -/
def Session.next (s : Session) : Session := { s with tick := s.tick+1 }

/-- The session with another state of its ledger. -/
def Session.wrote (s : Session) (ledger : LedgerWriter) : Session := { s with ledger := ledger }

@[simp] theorem Session.next_policy (s : Session) : s.next.policy = s.policy := rfl
@[simp] theorem Session.next_ledger (s : Session) : s.next.ledger = s.ledger := rfl
@[simp] theorem Session.next_grantTable (s : Session) : s.next.grantTable = s.grantTable := rfl
@[simp] theorem Session.next_approvalChannel (s : Session) : s.next.approvalChannel = s.approvalChannel := rfl
@[simp] theorem Session.next_tick (s : Session) : s.next.tick = s.tick+1 := rfl
@[simp] theorem Session.wrote_tick (s : Session) (ledger : LedgerWriter) : (s.wrote ledger).tick = s.tick := rfl
@[simp] theorem Session.wrote_ledger (s : Session) (ledger : LedgerWriter) : (s.wrote ledger).ledger = ledger := rfl

abbrev Run := Prog Session Stop Event

def deny {α : Type} (error : Error) : Run α := fail (.Err error)

/-- `?` on a result whose error becomes one of ours. -/
def orFail {ε α : Type} (wrap : ε → Error) (result : Except ε α) : Run α :=
  ofExcept (result.mapError (fun e => .Err (wrap e)))

def orPanic {α : Type} (result : Checked α) : Run α := ofExcept (result.mapError .Panic)

/-- The answer to the next question. -/
def ask {α : Type} (answer : Nat → α) (event : α → List Event) : Run α := fun s =>
  ⟨.ok (answer s.tick),s.next,event (answer s.tick)⟩

theorem ask_bind {α β : Type} {answer : Nat → α} {event : α → List Event} {g : α → Run β} {s : Session} :
    (ask answer event >>= g) s =
      ⟨(g (answer s.tick) s.next).result,(g (answer s.tick) s.next).state,
        event (answer s.tick) ++ (g (answer s.tick) s.next).events⟩ :=
  bind_ok (show (ask answer event s).result = .ok (answer s.tick) from rfl)

theorem orFail_ok_bind {ε α β : Type} {wrap : ε → Error} {a : α} {g : α → Run β} {s : Session} :
    (orFail wrap (.ok a) >>= g) s = g a s := by
  rw [bind_ok (show (orFail wrap (.ok a) s).result = .ok a from rfl)]
  rfl

theorem orFail_error_bind {ε α β : Type} {wrap : ε → Error} {error : ε} {g : α → Run β} {s : Session} :
    (orFail wrap (.error error) >>= g) s = ⟨.error (.Err (wrap error)),s,[]⟩ :=
  bind_error (show (orFail wrap (.error error : Except ε α) s).result = .error (.Err (wrap error)) from rfl)

theorem runs_deny {α : Type} {error : Error} {a : α} {s t : Session} {events : List Event} :
    ¬ Runs (deny error : Run α) s a t events := runs_fail

theorem runs_orFail {ε α : Type} {wrap : ε → Error} {result : Except ε α} {a : α} {s t : Session} {events : List Event} :
    Runs (orFail wrap result) s a t events ↔ result = .ok a ∧ t = s ∧ events = [] := by
  rw [orFail,runs_ofExcept]
  cases result <;> simp [Except.mapError]

theorem runs_orPanic {α : Type} {result : Checked α} {a : α} {s t : Session} {events : List Event} :
    Runs (orPanic result) s a t events ↔ result = .ok a ∧ t = s ∧ events = [] := by
  rw [orPanic,runs_ofExcept]
  cases result <;> simp [Except.mapError]

theorem runs_ask {α : Type} {answer : Nat → α} {event : α → List Event} {a : α} {s t : Session} {events : List Event} :
    Runs (ask answer event) s a t events ↔
      a = answer s.tick ∧ t = s.next ∧ events = event (answer s.tick) := by
  rw [Runs,ask,Outcome.mk.injEq,Except.ok.injEq,eq_comm (a := answer s.tick),eq_comm (b := t),eq_comm (b := events)]

theorem runs_orFail_bind {ε α β : Type} {wrap : ε → Error} {result : Except ε α} {g : α → Run β} {b : β} {s t : Session}
    {events : List Event} :
    Runs (orFail wrap result >>= g) s b t events ↔ ∃ a,result = .ok a ∧ Runs (g a) s b t events := by
  rw [runs_bind]
  constructor
  · rintro ⟨a,m,left,right,first,second,rfl⟩
    obtain ⟨done,rfl,rfl⟩ := runs_orFail.mp first
    exact ⟨a,done,second⟩
  · rintro ⟨a,done,second⟩
    exact ⟨a,s,[],events,runs_orFail.mpr ⟨done,rfl,rfl⟩,second,rfl⟩

theorem runs_ask_bind {α β : Type} {answer : Nat → α} {event : α → List Event} {g : α → Run β} {b : β} {s t : Session}
    {events : List Event} : Runs (ask answer event >>= g) s b t events ↔
      ∃ rest,Runs (g (answer s.tick)) s.next b t rest ∧ events = event (answer s.tick) ++ rest := by
  rw [runs_bind]
  constructor
  · rintro ⟨a,m,left,right,first,second,rfl⟩
    obtain ⟨rfl,rfl,rfl⟩ := runs_ask.mp first
    exact ⟨right,second,rfl⟩
  · rintro ⟨rest,second,rfl⟩
    exact ⟨_,_,_,rest,runs_ask.mpr ⟨rfl,rfl,rfl⟩,second,rfl⟩

theorem stops_deny {α : Type} {error : Error} {e : Stop} {s t : Session} {events : List Event} :
    Stops (deny error : Run α) s e t events ↔ e = .Err error ∧ t = s ∧ events = [] := stops_fail

theorem stops_orFail_bind {ε α β : Type} {wrap : ε → Error} {result : Except ε α} {g : α → Run β} {e : Stop}
    {s t : Session} {events : List Event} : Stops (orFail wrap result >>= g) s e t events ↔
      (∃ error,result = .error error ∧ e = .Err (wrap error) ∧ t = s ∧ events = []) ∨
      ∃ a,result = .ok a ∧ Stops (g a) s e t events := by
  rw [stops_bind,orFail,stops_ofExcept]
  cases result with
  | error error =>
    constructor
    · rintro (⟨failed,rest⟩ | ⟨_,_,_,_,runs,-⟩)
      · cases failed
        exact .inl ⟨error,rfl,rfl,rest⟩
      · cases (runs_ofExcept.mp runs).1
    · rintro (⟨_,same,rfl,rest⟩ | ⟨_,other,-⟩)
      · cases same
        exact .inl ⟨rfl,rest⟩
      · cases other
  | ok a =>
    constructor
    · rintro (⟨failed,-⟩ | ⟨b,m,left,right,first,second,rfl⟩)
      · cases failed
      · obtain ⟨same,rfl,rfl⟩ := runs_ofExcept.mp first
        cases same
        exact .inr ⟨a,rfl,second⟩
    · rintro (⟨_,other,-⟩ | ⟨b,same,second⟩)
      · cases other
      · cases same
        exact .inr ⟨a,s,[],events,runs_ofExcept.mpr ⟨rfl,rfl,rfl⟩,second,rfl⟩

theorem stops_ask_bind {α β : Type} {answer : Nat → α} {event : α → List Event} {g : α → Run β} {e : Stop} {s t : Session}
    {events : List Event} : Stops (ask answer event >>= g) s e t events ↔
      ∃ rest,Stops (g (answer s.tick)) s.next e t rest ∧ events = event (answer s.tick) ++ rest := by
  rw [stops_bind]
  constructor
  · rintro (asked | ⟨a,m,left,right,first,second,rfl⟩)
    · cases asked
    · obtain ⟨rfl,rfl,rfl⟩ := runs_ask.mp first
      exact ⟨right,second,rfl⟩
  · rintro ⟨rest,second,rfl⟩
    exact .inr ⟨_,_,_,rest,runs_ask.mpr ⟨rfl,rfl,rfl⟩,second,rfl⟩

/-- Performs an effect; the answer is what it came to. -/
def perform {α : Type} (effect : Effect) (answer : Nat → α) : Run α := fun s =>
  ⟨.ok (answer s.tick),s.next,[.Performed s.tick effect]⟩

theorem perform_bind {α β : Type} {effect : Effect} {answer : Nat → α} {g : α → Run β} {s : Session} :
    (perform effect answer >>= g) s =
      ⟨(g (answer s.tick) s.next).result,(g (answer s.tick) s.next).state,
        .Performed s.tick effect :: (g (answer s.tick) s.next).events⟩ :=
  bind_ok (show (perform effect answer s).result = .ok (answer s.tick) from rfl)

theorem runs_perform_bind {α β : Type} {effect : Effect} {answer : Nat → α} {g : α → Run β} {b : β} {s t : Session}
    {events : List Event} : Runs (perform effect answer >>= g) s b t events ↔
      ∃ rest,Runs (g (answer s.tick)) s.next b t rest ∧ events = .Performed s.tick effect :: rest := by
  rw [runs_bind]
  constructor
  · rintro ⟨a,m,left,right,first,second,rfl⟩
    cases first
    exact ⟨right,second,rfl⟩
  · rintro ⟨rest,second,rfl⟩
    exact ⟨_,_,_,rest,rfl,second,rfl⟩

theorem stops_perform_bind {α β : Type} {effect : Effect} {answer : Nat → α} {g : α → Run β} {e : Stop} {s t : Session}
    {events : List Event} : Stops (perform effect answer >>= g) s e t events ↔
      ∃ rest,Stops (g (answer s.tick)) s.next e t rest ∧ events = .Performed s.tick effect :: rest := by
  rw [stops_bind]
  constructor
  · rintro (asked | ⟨a,m,left,right,first,second,rfl⟩)
    · cases asked
    · cases first
      exact ⟨right,second,rfl⟩
  · rintro ⟨rest,second,rfl⟩
    exact .inr ⟨_,_,_,rest,rfl,second,rfl⟩

section
variable [World]

def utcNow : Run Int := ask World.utcNow (fun t => [.UtcNow t])

def systemNow : Run Int := ask World.systemNow (fun t => [.SystemNow t])

def newUuid : Run Uuid := ask World.uuid (fun _ => [])

def currentDir : Run (Option String) := ask World.currentDir (fun _ => [])

end

/-! ### Ledger entries -/

/-- The values of the payloads the runtime writes. -/
inductive Scalar where
  | Text (s : String)
  | Count (n : UInt64)
  | Number (n : Json.Number)
  | Json (v : Value)

def Scalar.value : Scalar → Value
  | .Text s => .String s
  | .Count n => .Number (.PosInt n)
  | .Number n => .Number n
  | .Json v => normal v

theorem Scalar.ordered_value (scalar : Scalar) : ordered scalar.value := by
  cases scalar with
  | Json v => exact ordered_normal v
  | _ => rfl

/-- A payload of the given fields, inserted in their order. -/
def payloadOf (fields : List (String × Scalar)) : Payload where
  fields := Map.insertAll [] (fields.map (fun field => (field.1,field.2.value)))
  sorted := by
    apply fieldsOrdered_insertAll _ rfl
    intro field member
    obtain ⟨⟨key,scalar⟩,_,rfl⟩ := List.mem_map.mp member
    exact scalar.ordered_value

/-- A field that is left out when there is no value for it. -/
def optional (key : String) (value : Option String) : List (String × Scalar) :=
  match value with
  | some text => [(key,.Text text)]
  | none => []

section
variable [Chrono] [Serde] [Sha256]

def appendEntry (entry : Entry) : Run (Except Ledger.Error EntryRecord) := fun s =>
  let out := Ledger.append s.ledger entry
  ⟨out.1.mapError .Panic,s.wrote out.2,[.Append entry out.1]⟩

theorem runs_appendEntry {entry : Entry} {result : Except Ledger.Error EntryRecord} {s t : Session} {events : List Event} :
    Runs (appendEntry entry) s result t events ↔ ∃ ledger,Ledger.append s.ledger entry = (.ok result,ledger) ∧
      t = s.wrote ledger ∧ events = [.Append entry (.ok result)] := by
  rw [Runs,appendEntry]
  obtain ⟨out,ledger⟩ := Ledger.append s.ledger entry
  dsimp only
  rw [Outcome.mk.injEq]
  cases out with
  | error panic => simp [Except.mapError]
  | ok other =>
    simp only [Except.mapError,Except.ok.injEq,Prod.mk.injEq]
    constructor
    · rintro ⟨rfl,rfl,rfl⟩
      exact ⟨ledger,⟨rfl,rfl⟩,rfl,rfl⟩
    · rintro ⟨_,⟨rfl,rfl⟩,rfl,rfl⟩
      exact ⟨rfl,rfl,rfl⟩

theorem stops_appendEntry {entry : Entry} {e : Stop} {s t : Session} {events : List Event} :
    Stops (appendEntry entry) s e t events ↔ ∃ panic ledger,Ledger.append s.ledger entry = (.error panic,ledger) ∧
      e = .Panic panic ∧ t = s.wrote ledger ∧ events = [.Append entry (.error panic)] := by
  rw [Stops,appendEntry]
  obtain ⟨out,ledger⟩ := Ledger.append s.ledger entry
  dsimp only
  rw [Outcome.mk.injEq]
  cases out with
  | ok result => simp [Except.mapError]
  | error panic =>
    simp only [Except.mapError,Except.error.injEq,Prod.mk.injEq]
    constructor
    · rintro ⟨rfl,rfl,rfl⟩
      exact ⟨panic,ledger,⟨rfl,rfl⟩,rfl,rfl,rfl⟩
    · rintro ⟨_,_,⟨rfl,rfl⟩,rfl,rfl,rfl⟩
      exact ⟨rfl,rfl,rfl⟩

/-- Appends an entry of this session; `wrap` names the crate that reports a
    failure. -/
def emit (wrap : Ledger.Error → Error) (entryType : EntryType) (timestamp : Int) (payload : Payload) : Run Unit := do
  let sessionId ← reads (·.sessionId)
  let agentHash ← reads (·.agentIdentityHash)
  let result ← appendEntry ⟨sessionId,entryType,agentHash,timestamp,payload⟩
  let _ ← orFail wrap result

/-- The entry of this session that `emit` appends. -/
def entryOf (s : Session) (entryType : EntryType) (timestamp : Int) (payload : Payload) : Entry :=
  ⟨s.sessionId,entryType,s.agentIdentityHash,timestamp,payload⟩

/-- How a failed append ends the call. -/
def appendStop (wrap : Ledger.Error → Error) : Checked (Except Ledger.Error EntryRecord) → Option Stop
  | .error panic => some (.Panic panic)
  | .ok (.error error) => some (.Err (wrap error))
  | .ok (.ok _) => none

theorem runs_emit {wrap : Ledger.Error → Error} {entryType : EntryType} {timestamp : Int} {payload : Payload} {u : Unit}
    {s t : Session} {events : List Event} : Runs (emit wrap entryType timestamp payload) s u t events ↔
      ∃ record ledger,Ledger.append s.ledger (entryOf s entryType timestamp payload) = (.ok (.ok record),ledger) ∧
        t = s.wrote ledger ∧ events = [.Append (entryOf s entryType timestamp payload) (.ok (.ok record))] := by
  rw [emit,runs_reads_bind,runs_reads_bind,runs_bind]
  constructor
  · rintro ⟨result,m,left,right,first,second,rfl⟩
    obtain ⟨ledger,appended,rfl,rfl⟩ := runs_appendEntry.mp first
    obtain ⟨record,rfl,last⟩ := runs_orFail_bind.mp second
    obtain ⟨-,rfl,rfl⟩ := runs_pure.mp last
    exact ⟨record,ledger,appended,rfl,rfl⟩
  · rintro ⟨record,ledger,appended,rfl,rfl⟩
    refine ⟨.ok record,s.wrote ledger,_,[],runs_appendEntry.mpr ⟨ledger,appended,rfl,rfl⟩,?_,rfl⟩
    exact runs_orFail_bind.mpr ⟨record,rfl,runs_pure.mpr ⟨rfl,rfl,rfl⟩⟩

theorem stops_emit {wrap : Ledger.Error → Error} {entryType : EntryType} {timestamp : Int} {payload : Payload} {e : Stop}
    {s t : Session} {events : List Event} : Stops (emit wrap entryType timestamp payload) s e t events ↔
      ∃ result ledger,Ledger.append s.ledger (entryOf s entryType timestamp payload) = (result,ledger) ∧
        appendStop wrap result = some e ∧ t = s.wrote ledger ∧
        events = [.Append (entryOf s entryType timestamp payload) result] := by
  rw [emit,stops_reads_bind,stops_reads_bind,stops_bind]
  constructor
  · rintro (first | ⟨result,m,left,right,first,second,rfl⟩)
    · obtain ⟨panic,ledger,appended,rfl,rfl,rfl⟩ := stops_appendEntry.mp first
      exact ⟨.error panic,ledger,appended,rfl,rfl,rfl⟩
    · obtain ⟨ledger,appended,rfl,rfl⟩ := runs_appendEntry.mp first
      rcases stops_orFail_bind.mp second with ⟨error,rfl,rfl,rfl,rfl⟩ | ⟨record,-,last⟩
      · exact ⟨.ok (.error error),ledger,appended,rfl,rfl,rfl⟩
      · exact (stops_pure last).elim
  · rintro ⟨result,ledger,appended,stopped,rfl,rfl⟩
    match result with
    | .error panic =>
      cases stopped
      exact .inl (stops_appendEntry.mpr ⟨panic,ledger,appended,rfl,rfl,rfl⟩)
    | .ok (.error error) =>
      cases stopped
      refine .inr ⟨.error error,s.wrote ledger,_,[],runs_appendEntry.mpr ⟨ledger,appended,rfl,rfl⟩,?_,rfl⟩
      exact stops_orFail_bind.mpr (.inl ⟨error,rfl,rfl,rfl,rfl⟩)
    | .ok (.ok record) => cases stopped

/-- The shape of most entries: the time is read first, and the entry is taken or not. -/
theorem stamped_cases [World] (wrap : Ledger.Error → Error) (entryType : EntryType) (payload : Payload) (s : Session) :
    (∃ t record,Runs (utcNow >>= fun now => emit wrap entryType now payload) s () t [.UtcNow (World.utcNow s.tick),
        .Append (entryOf s.next entryType (World.utcNow s.tick) payload) (.ok (.ok record))]) ∨
      ∃ stop t result,Stops (utcNow >>= fun now => emit wrap entryType now payload) s stop t [.UtcNow (World.utcNow s.tick),
        .Append (entryOf s.next entryType (World.utcNow s.tick) payload) result] ∧ ∀ record,result ≠ .ok (.ok record) := by
  rcases runs_or_stops (utcNow >>= fun now => emit wrap entryType now payload) s with ⟨_,runs⟩ | ⟨stop,stops⟩
  · obtain ⟨rest,emitted,read⟩ := runs_ask_bind.mp runs
    obtain ⟨record,ledger,-,-,rfl⟩ := runs_emit.mp emitted
    rw [read] at runs
    exact .inl ⟨_,record,runs⟩
  · obtain ⟨rest,emitted,read⟩ := stops_ask_bind.mp stops
    obtain ⟨result,ledger,-,lost,-,rfl⟩ := stops_emit.mp emitted
    rw [read] at stops
    refine .inr ⟨stop,_,result,stops,?_⟩
    rintro record rfl
    cases lost

def violationPayload (reason : String) (resourceUri accessType : Option String) : Payload :=
  payloadOf ([("violationReason",.Text reason)] ++ optional "resourceUri" resourceUri ++ optional "accessType" accessType)

/-- `aegis_policy::emit_violation`. -/
def emitViolation (reason : String) (resourceUri accessType : Option String) (timestamp : Int) : Run Unit :=
  emit (fun e => .Policy (.Ledger e)) .Violation timestamp (violationPayload reason resourceUri accessType)

end

/-! ### The identity rebind -/

section
variable [Chrono] [Serde] [Sha256] [Identity] [World]

/-- The SHA-256 of a file's bytes. -/
def sha256File (path : String) : Run Digest := do
  let bytes ← ask (World.fileBytes · path) (fun bytes => [.Hashed path bytes])
  let bytes ← orFail .Io bytes
  return Sha256.digest bytes

/-- Without a config file its digest is that of nothing. -/
def configDigest : Option String → Run Digest
  | some path => sha256File path
  | none => pure (Sha256.digest [])

def computeLiveDigests : Run DigestTriple := do
  let modelPath ← reads (·.modelPath)
  let model ← sha256File modelPath
  let manifestPath ← reads (·.manifestPath)
  let manifest ← sha256File manifestPath
  let configPath ← reads (·.configPath)
  let config ← configDigest configPath
  return ⟨model,manifest,config⟩

/-- `aegis_policy::check_identity_binding`. -/
def checkIdentityBinding (certPem : String) (live : DigestTriple) (timestamp : Int) : Run Unit := do
  let found ← orFail (fun e => .Policy (.Identity e)) (verifyDigestBinding certPem live)
  match found with
  | none => pure ()
  | some mismatch => do
    emitViolation ("identity digest binding violated: " ++ mismatch.text) (some ("digest-binding://" ++ mismatch.field.name))
      none timestamp
    deny (.Policy (.IdentityRebind mismatch))

def rebind : Run Unit := do
  let live ← computeLiveDigests
  let certPem ← reads (·.svidCertPem)
  let now ← utcNow
  checkIdentityBinding certPem live now

end

/-! ### The aggregate-quota gate -/

section
variable [Chrono] [Serde] [Sha256] [World]

def writeAggregateCapViolation (breach : AggregateCapExceeded) (resourceUri accessKind : String) : Run Unit := do
  let now ← utcNow
  emit .Ledger .Violation now (payloadOf
    [("violationKind",.Text "AggregateCapExceeded"),
     ("violationReason",.Text ("aggregate cap exceeded: class=" ++ breach.toolClass.label ++ " bound=" ++ breach.bound ++
       " observed=" ++ toString breach.observed.toNat ++ " cap=" ++ toString breach.cap.toNat)),
     ("resourceUri",.Text resourceUri),
     ("accessType",.Text accessKind),
     ("toolClass",.Text breach.toolClass.label),
     ("capBound",.Text breach.bound),
     ("observed",.Count breach.observed),
     ("cap",.Count breach.cap)])

/-- Charges one call to its class, or denies it. -/
def enforceAggregateQuota (toolClass : ToolClass) (resourceUri accessKind : String) : Run Unit := do
  let quota ← reads (fun s => quotaFor s.policy toolClass)
  let state ← reads (·.aggregateState)
  match checkAndIncrement state toolClass quota with
  | .ok (_,counted) => update (fun s => { s with aggregateState := counted })
  | .error breach => do
    writeAggregateCapViolation breach resourceUri accessKind
    deny (.Denied ("aggregate cap exceeded for " ++ breach.toolClass.label ++ ": " ++ toString breach.observed.toNat ++ "/" ++
      toString breach.cap.toNat ++ " " ++ breach.bound))

end

/-! ### Boot -/

/-- An MCP server may not take one of these names. -/
def reservedNativeNamespaces : List String := ["filesystem","network","exec"]

structure BootConfig where
  sessionId : String
  manifestPath : String
  modelPath : String
  configPath : Option String
  chatTemplateSidecar : Option String
  identityDir : String
  workloadName : String
  instanceName : String
  ledgerPath : String
  ledgerSchema : Option LedgerSchemaVersion
  deriving DecidableEq,Repr

/-- Surrounding white space goes. -/
def trim (text : String) : String :=
  String.ofList ((text.toList.dropWhile Text.isWhiteSpace).reverse.dropWhile Text.isWhiteSpace).reverse

def stopErr {ε α : Type} (wrap : ε → Error) (result : Except ε α) : Except Stop α := result.mapError (fun e => .Err (wrap e))

theorem stopErr_ok {ε α : Type} {wrap : ε → Error} {result : Except ε α} {a : α} :
    stopErr wrap result = .ok a ↔ result = .ok a := by
  cases result <;> simp [stopErr,Except.mapError]

section
variable [Chrono] [Serde] [Sha256] [Identity] [World]

/-- A sidecar is 64 hexadecimal digits. -/
def sidecarDigest (path text : String) : Except Error Digest :=
  let trimmed := trim text
  match Bytes.hexDecode trimmed with
  | some bytes =>
    if length : bytes.length = 32 then .ok ⟨bytes,length⟩
    else .error (.ChatTemplateSidecar path ("expected 64-char hex SHA-256, got " ++ Text.rustDebug trimmed))
  | none => .error (.ChatTemplateSidecar path ("expected 64-char hex SHA-256, got " ++ Text.rustDebug trimmed))

/-- `Policy::from_yaml_file`. -/
def loadPolicy (tick : Nat) (path : String) : Except PolicyError Manifest :=
  match World.manifestDocument tick path with
  | .error error => .error error
  | .ok doc =>
    match fromDocument doc with
    | some policy => .ok policy
    | none => .error (.ExtendsUnsupported doc.extendsRefs.length)

def bootDigest (tick : Nat) (path : String) : Except Stop Digest :=
  (stopErr Error.Io (World.fileBytes tick path)).map Sha256.digest

def rejectReserved (policy : Manifest) : Except Stop Unit :=
  match policy.tools.mcp.find? (fun server => reservedNativeNamespaces.contains server.serverName) with
  | some server => .error (.Err (.ReservedMcpServerName server.serverName))
  | none => .ok ()

def bootConfigDigest (tick : Nat) : Option String → Except Stop Digest
  | some path => bootDigest tick path
  | none => .ok (Sha256.digest [])

def bootChatTemplate (tick : Nat) : Option String → Except Stop (Option Digest)
  | none => .ok none
  | some path =>
    match World.sidecarText tick path with
    | .error detail => .error (.Err (.ChatTemplateSidecar path ("read failed: " ++ detail)))
    | .ok text => (stopErr id (sidecarDigest path text)).map some

def noDrift : Option DigestMismatch → Except Stop Unit
  | some mismatch => .error (.Err (.SvidSelfCheck mismatch.field.name))
  | none => .ok ()

def sessionStartPayload (svid : X509Svid) (bound : DigestTriple) (chatTemplate : Option Digest) : Payload :=
  payloadOf ([("spiffeId",.Text svid.spiffeUri),
    ("modelDigestHex",.Text (Bytes.hexEncode bound.model.bytes)),
    ("manifestDigestHex",.Text (Bytes.hexEncode bound.manifest.bytes)),
    ("configDigestHex",.Text (Bytes.hexEncode bound.config.bytes))] ++
    optional "chatTemplateDigestHex" (chatTemplate.map (fun d => Bytes.hexEncode d.bytes)))

variable [PerlWord]

/-- `Session::boot`; its questions are the first ones of the session. -/
def boot (cfg : BootConfig) : Except Stop Session := do
  let policy ← stopErr Error.Policy (loadPolicy 1 cfg.manifestPath)
  rejectReserved policy
  let model ← bootDigest 2 cfg.modelPath
  let manifest ← bootDigest 3 cfg.manifestPath
  let config ← bootConfigDigest 4 cfg.configPath
  let chatTemplate ← bootChatTemplate 5 cfg.chatTemplateSidecar
  let svid ← stopErr Error.Identity
    (Identity.issueSvid cfg.identityDir cfg.workloadName cfg.instanceName ⟨model,manifest,config⟩ chatTemplate)
  let drift ← stopErr Error.Identity (verifyDigestBinding svid.certPem ⟨model,manifest,config⟩)
  noDrift drift
  let templateDrift ← stopErr Error.Identity (verifyChatTemplateBinding svid.certPem chatTemplate)
  noDrift templateDrift
  let answers ← stopErr (fun e => Error.Ledger (.Io e)) (World.createLedger 6 cfg.ledgerPath)
  let agentHash := Sha256.digest (Bytes.encode svid.spiffeUri)
  let started := Ledger.append (create cfg.sessionId World.entryUuid (cfg.ledgerSchema.getD .V1) answers)
    ⟨cfg.sessionId,.SessionStart,agentHash,World.utcNow 7,sessionStartPayload svid ⟨model,manifest,config⟩ chatTemplate⟩
  let result ← started.1.mapError .Panic
  let _ ← stopErr Error.Ledger result
  return {
    policy := policy
    ledger := started.2
    svidCertPem := svid.certPem
    svidKeyPem := svid.keyPem
    boundDigests := ⟨model,manifest,config⟩
    boundChatTemplate := chatTemplate
    spiffeUri := svid.spiffeUri
    agentIdentityHash := agentHash
    sessionId := cfg.sessionId
    sessionStart := World.utcNow 0
    manifestPath := cfg.manifestPath
    modelPath := cfg.modelPath
    configPath := cfg.configPath
    identityDir := cfg.identityDir
    workloadName := cfg.workloadName
    instanceName := cfg.instanceName
    approvalChannel := none
    networkLog := []
    mcpClient := none
    loadedModel := none
    adversarialClassifier := defaultClassifier
    aggregateState := ∅
    currentTurnSvid := none
    grantTable := ∅
    tick := 8 }

/-- What a booted session has gone through. -/
structure Booted (cfg : BootConfig) (s : Session) : Prop where
  loaded : loadPolicy 1 cfg.manifestPath = .ok s.policy
  unreserved : rejectReserved s.policy = .ok ()
  grants : s.grantTable = ∅
  counts : s.aggregateState = ∅

theorem boot_booted {cfg : BootConfig} {s : Session} (boots : boot cfg = .ok s) : Booted cfg s := by
  rw [boot,Ledger.bind_ok] at boots
  obtain ⟨policy,loaded,boots⟩ := boots
  rw [Ledger.bind_ok] at boots
  obtain ⟨_,unreserved,boots⟩ := boots
  simp only [Ledger.bind_ok] at boots
  obtain ⟨_,-,_,-,_,-,_,-,_,-,_,-,_,-,_,-,_,-,_,-,_,-,_,-,last⟩ := boots
  cases last
  exact ⟨stopErr_ok.mp loaded,unreserved,rfl,rfl⟩

/-- `with_approval_channel` and `with_mcp_client`. -/
def attach (s : Session) (channel : Option ApprovalChannel) (client : Option McpClient) : Session :=
  { s with approvalChannel := channel,mcpClient := client }

end

end AegisNode.Engine
