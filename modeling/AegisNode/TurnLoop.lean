import AegisNode.Turn

/-!
The agent loop: the bounds of a run, the entries and the identity of each turn, the
model's answers dispatched call by call, and the conversation they add up to.
-/
namespace AegisNode.TurnLoop
open Bytes Clock Json Schema Policy Aggregate Traced Adversarial Engine Mediator Turn
open Backend hiding ToolCall
open Ledger hiding Error

/-! ### Floats -/

/-- A float that is not negative: `size / 2^scale`. -/
structure Binary where
  size : Nat
  scale : Nat
  deriving DecidableEq,Repr

/-- The float with so many binary digits nearest to a fraction, ties to even. -/
def nearest (digits num den : Nat) : Binary :=
  let shift := digits+den.log2+1
  let scaled := num*2^shift
  let drop := (scaled/den).log2+1-digits
  let unit := den*2^drop
  let below := scaled/unit
  let rest := scaled%unit
  let size := if unit < 2*rest ∨ (unit = 2*rest ∧ below%2 = 1) then below+1 else below
  ⟨size*2^drop,shift⟩

/-- The bits of an `f64`. -/
def Binary.bits (x : Binary) : UInt64 :=
  if x.size = 0 then 0
  else
    let top := x.size.log2
    UInt64.ofNat ((top+1023-x.scale)*2^52+(x.size-2^top)*2^52/2^top)

def add (x y : Binary) : Binary := nearest 53 (x.size*2^y.scale+y.size*2^x.scale) (2^(x.scale+y.scale))

/-- `{:.1}`, ties to even. -/
def oneDecimal (x : Binary) : String :=
  let unit := 2^x.scale
  let below := 10*x.size/unit
  let rest := 10*x.size%unit
  let tenths := if unit < 2*rest ∨ (unit = 2*rest ∧ below%2 = 1) then below+1 else below
  toString (tenths/10) ++ "." ++ toString (tenths%10)

/-- `Number::from_f64`. -/
def fromF64 (x : Binary) : Option Number :=
  if finite : finiteBits x.bits then some (.Float x.bits finite) else none

example : (nearest 53 85 100).bits = 0x3feb333333333333 := by decide

/-! ### Durations -/

def nanosPerSec : Nat := 1000000000

def asSecs (elapsed : Nat) : Nat := elapsed/nanosPerSec

/-- `Duration::as_secs_f64`. -/
def asSecsF64 (elapsed : Nat) : Binary :=
  add (nearest 53 (asSecs elapsed) 1) (nearest 53 (elapsed%nanosPerSec) nanosPerSec)

def asMillis (elapsed : Nat) : Nat := elapsed/1000000

/-! ### Bounds and outcomes -/

structure TurnLimits where
  maxTurns : UInt32
  maxTokens : UInt64
  maxSeconds : UInt64
  deriving DecidableEq,Repr

/-- `TurnLimits::default`. -/
def defaultLimits : TurnLimits := ⟨10,18446744073709551615,300⟩

/-- `{:?}` of a bound. -/
def capDebug : TurnCapKind → String
  | .Turns => "Turns"
  | .Tokens => "Tokens"
  | .Wallclock => "Wallclock"

/-- The same in lower case. -/
def capText : TurnCapKind → String
  | .Turns => "turns"
  | .Tokens => "tokens"
  | .Wallclock => "wallclock"

inductive SessionTermination where
  | Done
  deriving DecidableEq,Repr

structure TurnOutcome where
  assistantText : Option String
  toolCalls : List ToolCallOutcome
  reasoningStepId : String

structure SessionRunResult where
  turns : List TurnOutcome
  termination : SessionTermination
  tokensConsumed : UInt64
  wallclock : Nat

/-- `u64::saturating_add`. -/
def saturatingAdd (left right : UInt64) : UInt64 := UInt64.ofNat (min (left.toNat+right.toNat) (2^64-1))

/-! ### Provenance and results -/

/-- Names without a namespace count as a server that is not known. -/
def originOf (toolName : String) : ToolOrigin :=
  match splitMcpName toolName with
  | some (ns,tool) =>
    if ns = "filesystem" then .Filesystem
    else if ns = "network" then .NetworkOutbound
    else if ns = "exec" then .Exec
    else .McpServer ns tool
  | none => .McpServer "unknown" toolName

def toolCallResultToValue : ToolCallResult → Value
  | .Success v => object [("status",.String "success"),("value",v)]
  | .Denied reason => object [("status",.String "denied"),("reason",.String reason)]
  | .RequiresApproval reason => object [("status",.String "requires_approval"),("reason",.String reason)]
  | .Unroutable reason => object [("status",.String "unroutable"),("reason",.String reason)]

section
variable [Serde] [Sha256]

def sha256HexOfJson (value : Value) : String := hexEncode (Sha256.digest (encode (Serde.toString value))).bytes

def sha256HexOfMessages (messages : List ChatMessage) : String :=
  hexEncode (Sha256.digest (encode (messagesText messages))).bytes

end

/-! ### The entries of a turn -/

def turnNumber (turn : Nat) : Scalar := .Count (UInt64.ofNat turn)

def turnAudience (sessionId : String) (turn : Nat) : String := "aegis-turn://" ++ sessionId ++ "/" ++ toString turn

def toolCallIdOf (turn callIndex : Nat) : String := "turn-" ++ toString turn ++ "-call-" ++ toString callIndex

def optionalCount (key : String) (value : Option UInt64) : List (String × Scalar) :=
  match value with
  | some n => [(key,.Count n)]
  | none => []

def turnStartFields (turn : Nat) (model : Digest) (contextDigestHex svidThumbprintHex spiffeIdAud : String) :
    List (String × Scalar) :=
  [("turnNumber",turnNumber turn),("modelDigestHex",.Text (hexEncode model.bytes)),
   ("contextDigestHex",.Text contextDigestHex),("svidThumbprintHex",.Text svidThumbprintHex),
   ("spiffeIdAud",.Text spiffeIdAud)]

def reasoningStepFields (stepId : Uuid) (input reasoning : String) (toolsConsidered : List String)
    (toolSelected : Option String) : List (String × Scalar) :=
  [("reasoningStepId",.Text stepId.toString),("input",.Text input),("reasoning",.Text reasoning),
   ("toolsConsidered",.Json (.Array (toolsConsidered.map .String)))] ++ Engine.optional "toolSelected" toolSelected

def toolCallFields (turn : Nat) (toolCallId toolName : String) (origin : ToolOrigin) (requestArgsHex : String) :
    List (String × Scalar) :=
  [("turnNumber",turnNumber turn),("toolCallId",.Text toolCallId),("toolName",.Text toolName),
   ("toolOrigin",.Text origin.text),("requestArgsHex",.Text requestArgsHex)]

def inlineThresholdBytes : Nat := 32*1024

/-- A result is inlined up to the threshold, and named by its hash and size above it. -/
def resultField [Serde] (resultHashHex : String) (result : Value) : String × Scalar :=
  let approxSize := (encode (Serde.toString result)).length
  if approxSize ≤ inlineThresholdBytes then ("resultPayload",.Json result)
  else ("resultPayloadRef",.Text ("pending-sidecar:" ++ resultHashHex ++ "." ++ toString approxSize ++ "b"))

def toolResultFields [Serde] (turn : Nat) (toolCallId resultHashHex : String) (result : Value) : List (String × Scalar) :=
  [("turnNumber",turnNumber turn),("toolCallId",.Text toolCallId),("resultHashHex",.Text resultHashHex),
   resultField resultHashHex result]

def adversarialFields (verdict : ClassifierVerdict) (classifierName : String) (origin : ToolOrigin) : List (String × Scalar) :=
  [("violationKind",.Text "AdversarialContent"),
   ("violationReason",.Text ("adversarial pre-filter flagged tool result: " ++ verdict.asStr ++ " (reason=" ++
     verdict.reason ++ ", score=" ++ scoreText verdict.score ++ ")")),
   ("classifierVerdict",.Text verdict.asStr),("classifierName",.Text classifierName)] ++
  (match fromF64 (nearest 24 verdict.score 100) with
   | some score => [("classifierScore",.Number score)]
   | none => []) ++
  [("classifierReason",.Text verdict.reason),("toolOrigin",.Text origin.text)]

/-- A tool class that was called or has a quota block. -/
structure QuotaSnapshot where
  toolClass : String
  calls : UInt64
  maxCallsPerSession : Option UInt64
  deriving DecidableEq,Repr

def declaredClasses (manifest : Manifest) : List ToolClass :=
  (if (manifest.tools.filesystem.bind (·.quota)).isSome then [.Filesystem] else []) ++
  (if (manifest.tools.network.bind (·.quota)).isSome then [.Network] else []) ++
  (if (manifest.tools.exec.bind (·.quota)).isSome then [.Exec] else []) ++
  (manifest.tools.mcp.filter (·.quota.isSome)).map (fun grant => .Mcp grant.serverName)

/-- `SessionAggregateState::snapshots`, sorted by label. -/
def snapshots (state : SessionAggregateState) (manifest : Manifest) : List QuotaSnapshot :=
  let classes := (declaredClasses manifest).foldl (fun found declared => if declared ∈ found then found else found ++ [declared])
    state.keys
  (classes.mergeSort (fun left right => left.label ≤ right.label)).map (fun toolClass =>
    ⟨toolClass.label,snapshot state toolClass,capOf (quotaFor manifest toolClass)⟩)

def QuotaSnapshot.value (taken : QuotaSnapshot) : Value :=
  object [("class",.String taken.toolClass),("calls",.Number (.PosInt taken.calls)),
    ("max_calls_per_session",match taken.maxCallsPerSession with
      | some cap => .Number (.PosInt cap)
      | none => .Null)]

def turnEndFields (turn : Nat) (tokensIn tokensOut : Option UInt64) (tokensCumulative wallclockMsCumulative : UInt64)
    (taken : List QuotaSnapshot) : List (String × Scalar) :=
  [("turnNumber",turnNumber turn)] ++ optionalCount "tokensIn" tokensIn ++ optionalCount "tokensOut" tokensOut ++
  [("tokensCumulative",.Count tokensCumulative),("wallclockMsCumulative",.Count wallclockMsCumulative),
   ("quotaSnapshots",.Json (.Array (taken.map (·.value))))]

def turnCapFields (bound : TurnCapKind) (atTurn : Nat) (limits : TurnLimits) (tokensConsumed : UInt64)
    (wallclockSeconds : Binary) : List (String × Scalar) :=
  [("violationKind",.Text "TurnCapExceeded"),
   ("violationReason",.Text ("turn cap exceeded: bound=" ++ capDebug bound ++ ", turn " ++ toString atTurn ++ "/" ++
     toString limits.maxTurns.toNat ++ ", tokens " ++ toString tokensConsumed.toNat ++ "/" ++
     toString limits.maxTokens.toNat ++ ", wallclock " ++ oneDecimal wallclockSeconds ++ "s/" ++
     toString limits.maxSeconds.toNat ++ "s")),
   ("capBound",.Text (capText bound)),("atTurn",turnNumber atTurn),("maxTurns",turnNumber limits.maxTurns.toNat),
   ("tokensConsumed",.Count tokensConsumed),("maxTokens",.Count limits.maxTokens)] ++
  (match fromF64 wallclockSeconds with
   | some seconds => [("wallclockSeconds",.Number seconds)]
   | none => []) ++
  [("maxSeconds",.Count limits.maxSeconds)]

section
variable [Chrono] [Serde] [Sha256] [World]

/-- Appends an entry of this moment. -/
def emitNow (wrap : Ledger.Error → Error) (entryType : EntryType) (fields : List (String × Scalar)) : Run Unit := do
  let now ← utcNow
  emit wrap entryType now (payloadOf fields)

def writeTurnStart (turn : Nat) (contextDigestHex svidThumbprintHex spiffeIdAud : String) : Run Unit := do
  let bound ← reads (·.boundDigests)
  emitNow .Ledger .TurnStart (turnStartFields turn bound.model contextDigestHex svidThumbprintHex spiffeIdAud)

def recordReasoningStep (input reasoning : String) (toolsConsidered : List String) (toolSelected : Option String) :
    Run Uuid := do
  let stepId ← newUuid
  let now ← utcNow
  if input = "" then deny (.AccessLog .EmptyReasoningInput)
  else do
    emit (fun e => .AccessLog (.Ledger e)) .ReasoningStep now
      (payloadOf (reasoningStepFields stepId input reasoning toolsConsidered toolSelected))
    return stepId

def writeToolCallEntry (turn : Nat) (toolCallId toolName : String) (origin : ToolOrigin) (requestArgsHex : String) : Run Unit :=
  emitNow .Ledger .ToolCall (toolCallFields turn toolCallId toolName origin requestArgsHex)

def writeToolResultEntry (turn : Nat) (toolCallId resultHashHex : String) (result : Value) : Run Unit :=
  emitNow .Ledger .ToolResult (toolResultFields turn toolCallId resultHashHex result)

/-- A clean result is no violation. -/
def writeAdversarialViolation (verdict : ClassifierVerdict) (classifierName : String) (origin : ToolOrigin) : Run Unit :=
  if verdict = .Clean then pure () else emitNow .Ledger .Violation (adversarialFields verdict classifierName origin)

def writeTurnEnd (turn : Nat) (tokensIn tokensOut : Option UInt64) (tokensCumulative wallclockMsCumulative : UInt64) :
    Run Unit := do
  let taken ← reads (fun s => snapshots s.aggregateState s.policy)
  emitNow .Ledger .TurnEnd (turnEndFields turn tokensIn tokensOut tokensCumulative wallclockMsCumulative taken)

def writeTurnCapViolation (bound : TurnCapKind) (atTurn : Nat) (limits : TurnLimits) (tokensConsumed : UInt64)
    (wallclockSeconds : Binary) : Run Unit :=
  emitNow .Ledger .Violation (turnCapFields bound atTurn limits tokensConsumed wallclockSeconds)

end

/-! ### The identity of a turn -/

/-- Sixty seconds more than what is left of the budget. -/
def turnTtl (wallclockRemainingSeconds : Nat) : Nat :=
  min (max (min (wallclockRemainingSeconds+60) (2^64-1)) 60) (2^63-1)

section
variable [Chrono] [Serde] [Sha256] [Identity] [World]

/-- What is left when the local CA has issued a certificate. -/
def issuedEvent (audience : String) (live : DigestTriple) : Checked (Except String X509Svid) → List Event
  | .ok (.ok svid) => [.IssuedTurnSvid audience live svid]
  | _ => []

/-- The certificate becomes that of the turn, and its thumbprint is returned. -/
def keepTurnSvid (svid : X509Svid) : Run String := do
  let thumbprint ← orFail .Identity (Identity.certThumbprintHex svid.certPem)
  update (fun s => { s with currentTurnSvid := some svid })
  return thumbprint

def issueTurnSvid (audience : String) (wallclockRemainingSeconds : Nat) : Run String := do
  let live ← computeLiveDigests
  let identityDir ← reads (·.identityDir)
  let workloadName ← reads (·.workloadName)
  let instanceName ← reads (·.instanceName)
  let chatTemplate ← reads (·.boundChatTemplate)
  let issued ← ask (fun tick => Identity.issueTurnSvid tick identityDir workloadName instanceName live chatTemplate audience
    (turnTtl wallclockRemainingSeconds)) (issuedEvent audience live)
  let issued ← orPanic issued
  let svid ← orFail .Identity issued
  keepTurnSvid svid

def dropTurnSvid : Run Unit := update (fun s => { s with currentTurnSvid := none })

/-! ### One turn -/

/-- `set_loaded_model`. -/
def setLoadedModel (s : Session) (model : LoadedModel) : Session := { s with loadedModel := some model }

def instantNow : Run Nat := ask World.instant (fun _ => [])

/-- `Instant::elapsed`, in nanoseconds. -/
def elapsedSince (started : Nat) : Run Nat := do
  let now ← instantNow
  return now-started

/-- Asks the model. -/
def infer (messages : List ChatMessage) (tools : List ToolDecl) : Run InferResponse := do
  let loaded ← reads (·.loadedModel)
  let model ← orFail (fun _ : Unit => Error.NoBackendConfigured) (loaded.elim (.error ()) .ok)
  let response ← ask (model.infer · ⟨messages,tools⟩) (fun response => [.Inferred ⟨messages,tools⟩ response])
  orFail .BackendInfer response

/-- Dispatches one call between its two entries, if the turn is recorded. -/
def runCall (stepId : String) (recorded : Option Nat) (callIndex : Nat) (call : Backend.ToolCall) : Run ToolCallOutcome :=
  match recorded with
  | none => dispatchToolCall call (some stepId)
  | some turn => do
    writeToolCallEntry turn (toolCallIdOf turn callIndex) call.name (originOf call.name) (sha256HexOfJson call.arguments)
    let outcome ← dispatchToolCall call (some stepId)
    let result := toolCallResultToValue outcome.result
    writeToolResultEntry turn (toolCallIdOf turn callIndex) (sha256HexOfJson result) result
    return outcome

def runCalls (stepId : String) (recorded : Option Nat) (callIndex : Nat) : List Backend.ToolCall → Run (List ToolCallOutcome)
  | [] => pure []
  | call :: rest => do
    let outcome ← runCall stepId recorded callIndex call
    let outcomes ← runCalls stepId recorded (callIndex+1) rest
    return outcome :: outcomes

/-- Entries of turns stand in ledgers of the second version only. -/
def recordedTurn (turn : Option Nat) (version : LedgerSchemaVersion) : Option Nat :=
  if version = .V2 then turn else none

/-- What follows the answer of the model. -/
def dispatchAnswer (originalPrompt : String) (turn : Option Nat) (tools : List ToolDecl) (response : InferResponse) :
    Run (TurnOutcome × Option UInt64) := do
  let stepUuid ← recordReasoningStep originalPrompt response.reasoning (tools.map (·.name))
    (response.toolCalls.head?.map (·.name))
  let version ← reads (·.ledger.schemaVersion)
  let outcomes ← runCalls stepUuid.toString (recordedTurn turn version) 0 response.toolCalls
  return (⟨response.assistantText,outcomes,stepUuid.toString⟩,response.tokensUsed)

def runOneTurn (messages : List ChatMessage) (originalPrompt : String) (turn : Option Nat) :
    Run (TurnOutcome × Option UInt64) := do
  let tools ← reads (fun s => toolCatalog s.policy)
  let response ← infer messages tools
  dispatchAnswer originalPrompt turn tools response

/-- `Session::run_turn`. -/
def runTurn (userMessage : String) : Run TurnOutcome := do
  let answered ← runOneTurn [⟨.User,userMessage⟩] userMessage none
  return answered.1

/-! ### The conversation -/

/-- A result with its verdict and where it came from. -/
structure Judged where
  outcome : ToolCallOutcome
  verdict : ClassifierVerdict
  origin : ToolOrigin

def judge (classifier : AdversarialClassifier) (outcome : ToolCallOutcome) : Judged :=
  let origin := originOf outcome.name
  ⟨outcome,classifier.classify (encode (Serde.toString (toolCallResultToValue outcome.result))) origin,origin⟩

def writeIfFlagged (classifierName : String) (judged : Judged) : Run Unit :=
  if judged.verdict.flagged then writeAdversarialViolation judged.verdict classifierName judged.origin else pure ()

def writeFlagged (classifierName : String) : List Judged → Run Unit
  | [] => pure ()
  | judged :: rest => do
    writeIfFlagged classifierName judged
    writeFlagged classifierName rest

def Judged.stamped (judged : Judged) : ToolCallOutcome :=
  ⟨judged.outcome.name,judged.outcome.arguments,judged.outcome.result,some judged.verdict⟩

/-- What the model is shown of a call: its name, its arguments and its result. -/
def toolBody (outcome : ToolCallOutcome) : String :=
  Serde.toString (object [("tool",.String outcome.name),("args",outcome.arguments),
    ("result",toolCallResultToValue outcome.result)])

def toolMessage (classifierName : String) (judged : Judged) : ChatMessage where
  role := .Tool
  content :=
    if judged.verdict.flagged then
      wrapFlagged (encode (toolBody judged.outcome)) judged.verdict judged.origin classifierName
    else toolBody judged.outcome

def assistantMessages (assistantText : Option String) : List ChatMessage :=
  if assistantText.getD "" = "" then [] else [⟨.Assistant,assistantText.getD ""⟩]

/-! ### The loop -/

structure Progress where
  messages : List ChatMessage
  turns : List TurnOutcome
  tokensConsumed : UInt64

/-- The conversation after one more turn. -/
def Progress.grown (progress : Progress) (outcome : TurnOutcome) (used : Option UInt64) (classifierName : String)
    (judged : List Judged) : Progress where
  messages := progress.messages ++ assistantMessages outcome.assistantText ++ judged.map (toolMessage classifierName)
  turns := progress.turns ++ [⟨outcome.assistantText,judged.map (·.stamped),outcome.reasoningStepId⟩]
  tokensConsumed := saturatingAdd progress.tokensConsumed (used.getD 0)

/-- The bound that keeps the next turn from starting. -/
def tripped (limits : TurnLimits) (tokensConsumed : UInt64) (elapsed : Nat) : Option TurnCapKind :=
  if limits.maxSeconds.toNat ≤ asSecs elapsed then some .Wallclock
  else if limits.maxTokens ≤ tokensConsumed then some .Tokens
  else none

def emitCapAndBuildErr {α : Type} (bound : TurnCapKind) (atTurn : Nat) (limits : TurnLimits) (tokensConsumed : UInt64)
    (elapsed : Nat) : Run α := do
  writeTurnCapViolation bound atTurn limits tokensConsumed (asSecsF64 elapsed)
  deny (.TurnCapExceeded bound (UInt32.ofNat atTurn) limits.maxTurns tokensConsumed limits.maxTokens (asSecsF64 elapsed).bits
    limits.maxSeconds)

/-- The identity and the first entry of a turn. -/
def openTurn (limits : TurnLimits) (started turn : Nat) (messages : List ChatMessage) : Run Unit := do
  let audience ← reads (fun s => turnAudience s.sessionId turn)
  let elapsed ← elapsedSince started
  let thumbprint ← issueTurnSvid audience (limits.maxSeconds.toNat-asSecs elapsed)
  writeTurnStart turn (sha256HexOfMessages messages) thumbprint audience

def closeTurn (started turn : Nat) (used : Option UInt64) (tokensConsumed : UInt64) : Run Unit := do
  let elapsed ← elapsedSince started
  writeTurnEnd turn none used tokensConsumed (UInt64.ofNat (min (asMillis elapsed) (2^64-1)))
  dropTurnSvid

/-- A part that only ledgers of the second version have. -/
def whenV2 (v2 : Bool) (part : Run Unit) : Run Unit := if v2 then part else pure ()

/-- What follows the calls of a turn: the verdicts on their results, the conversation they
    add to, and the last entry. -/
def concludeTurn (started : Nat) (v2 : Bool) (turn : Nat) (progress : Progress) (outcome : TurnOutcome)
    (used : Option UInt64) : Run (Progress × Bool) := do
  let classifier ← reads (·.adversarialClassifier)
  let judged := outcome.toolCalls.map (judge classifier)
  writeFlagged classifier.name judged
  let grown := progress.grown outcome used classifier.name judged
  whenV2 v2 (closeTurn started turn used grown.tokensConsumed)
  return (grown,outcome.toolCalls.isEmpty)

/-- A turn of the loop, and whether it is the last one. -/
def oneTurn (prompt : String) (limits : TurnLimits) (started : Nat) (v2 : Bool) (turn : Nat) (progress : Progress) :
    Run (Progress × Bool) := do
  whenV2 v2 (openTurn limits started turn progress.messages)
  let answered ← runOneTurn progress.messages prompt (some turn)
  concludeTurn started v2 turn progress answered.1 answered.2

/-- The turns from `turn` on, of which `left` are allowed. -/
def turnLoop (prompt : String) (limits : TurnLimits) (started : Nat) (v2 : Bool) : Nat → Nat → Progress → Run SessionRunResult
  | 0,_,progress => do
    let elapsed ← elapsedSince started
    emitCapAndBuildErr .Turns limits.maxTurns.toNat limits progress.tokensConsumed elapsed
  | left+1,turn,progress => do
    let elapsed ← elapsedSince started
    match tripped limits progress.tokensConsumed elapsed with
    | some bound => emitCapAndBuildErr bound turn limits progress.tokensConsumed elapsed
    | none => do
      let played ← oneTurn prompt limits started v2 turn progress
      if played.2 then do
        let wallclock ← elapsedSince started
        return ⟨played.1.turns,.Done,played.1.tokensConsumed,wallclock⟩
      else turnLoop prompt limits started v2 left (turn+1) played.1

/-- `Session::run`. -/
def run (prompt : String) (limits : TurnLimits) : Run SessionRunResult := do
  let started ← instantNow
  let version ← reads (·.ledger.schemaVersion)
  turnLoop prompt limits started (version = .V2) limits.maxTurns.toNat 1 ⟨[⟨.User,prompt⟩],[],0⟩

end

end AegisNode.TurnLoop
