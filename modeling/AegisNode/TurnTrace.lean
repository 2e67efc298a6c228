import AegisNode.Chronicle
import AegisNode.TurnLoop

/-!
What a run of the agent loop leaves: the turns one after another and how the last one
ends, and of each turn the entries, the question to the model and the identity, in their
order, however far the turn came.
-/
namespace AegisNode.TurnTrace
open Bytes Clock Json Schema Policy Aggregate Traced Adversarial Engine Mediator Frames Entries Turn TurnLoop Chronicle
open Backend hiding ToolCall
open Ledger hiding Error
set_option linter.unusedSectionVars false

/-! ### The loop is made of steps -/

section
variable [Chrono] [Serde] [Sha256] [World]

@[simp] theorem made_emitNow {wrap : Ledger.Error → Error} (ordinary : ∀ e,Ordinary (.Err (wrap e))) (entryType : EntryType)
    (fields : List (String × Scalar)) : Made Step (emitNow wrap entryType fields) := made_record ordinary _ _

@[simp] theorem made_elapsedSince (started : Nat) : Made Step (elapsedSince started) :=
  made_bind (.Step (.Ask _ _ (by simp))) fun _ => made_pure _

@[simp] theorem made_recordReasoningStep (input reasoning : String) (toolsConsidered : List String)
    (toolSelected : Option String) : Made Step (recordReasoningStep input reasoning toolsConsidered toolSelected) := by
  refine made_bind made_newUuid fun stepId => ?_
  refine made_bind made_utcNow fun now => ?_
  split_ifs
  · exact made_deny (by simp)
  · exact made_bind (made_emit (by simp) _ _ _) fun _ => made_pure _

@[simp] theorem made_infer (messages : List ChatMessage) (tools : List ToolDecl) : Made Step (infer messages tools) := by
  refine made_bind (made_reads _) fun loaded => ?_
  refine made_bind (made_orFail (by simp)) fun model => ?_
  exact made_bind (.Step (.Ask _ _ (by simp [handed?]))) fun response => made_orFail (by simp)

@[simp] theorem made_writeFlagged (classifierName : String) (judged : List Judged) :
    Made Step (writeFlagged classifierName judged) := by
  induction judged with
  | nil => exact made_pure _
  | cons first rest ih =>
    refine made_bind ?_ fun _ => ih
    unfold writeIfFlagged writeAdversarialViolation
    split_ifs <;> simp

variable [Identity]

@[simp] theorem made_issueTurnSvid (audience : String) (remaining : Nat) : Made Step (issueTurnSvid audience remaining) := by
  refine made_bind made_computeLiveDigests fun live => ?_
  refine made_bind (made_reads _) fun identityDir => ?_
  refine made_bind (made_reads _) fun workloadName => ?_
  refine made_bind (made_reads _) fun instanceName => ?_
  refine made_bind (made_reads _) fun chatTemplate => ?_
  refine made_bind (.Step (.Ask _ _ ?_)) fun issued => ?_
  · intro issued
    unfold issuedEvent
    split <;> simp [handed?]
  refine made_bind (made_orPanic issued) fun issued => ?_
  refine made_bind (made_orFail (by simp)) fun svid => ?_
  refine made_bind (made_orFail (by simp)) fun thumbprint => ?_
  exact made_bind (.Step (.Change (fun _ => rfl) fun _ => rfl)) fun _ => made_pure _

@[simp] theorem made_runCalls (stepId : String) (recorded : Option Nat) (callIndex : Nat) (calls : List Backend.ToolCall) :
    Made Step (runCalls stepId recorded callIndex calls) := by
  induction calls generalizing callIndex with
  | nil => exact made_pure _
  | cons call rest ih =>
    refine made_bind ?_ fun outcome => made_bind (ih _) fun _ => made_pure _
    cases recorded with
    | none => exact made_dispatchToolCall _ _
    | some turn =>
      refine made_bind (made_emitNow (by simp) _ _) fun _ => ?_
      refine made_bind (made_dispatchToolCall _ _) fun outcome => ?_
      exact made_bind (made_emitNow (by simp) _ _) fun _ => made_pure _

@[simp] theorem made_dispatchAnswer (prompt : String) (turn : Option Nat) (tools : List ToolDecl) (response : InferResponse) :
    Made Step (dispatchAnswer prompt turn tools response) := by
  refine made_bind (made_recordReasoningStep _ _ _ _) fun stepUuid => ?_
  refine made_bind (made_reads _) fun version => ?_
  exact made_bind (made_runCalls _ _ _ _) fun outcomes => made_pure _

@[simp] theorem made_runOneTurn (messages : List ChatMessage) (prompt : String) (turn : Option Nat) :
    Made Step (runOneTurn messages prompt turn) := by
  refine made_bind (made_reads _) fun tools => ?_
  exact made_bind (made_infer _ _) fun response => made_dispatchAnswer _ _ _ response

@[simp] theorem made_openTurn (limits : TurnLimits) (started turn : Nat) (messages : List ChatMessage) :
    Made Step (openTurn limits started turn messages) := by
  refine made_bind (made_reads _) fun audience => ?_
  refine made_bind (made_elapsedSince _) fun elapsed => ?_
  refine made_bind (made_issueTurnSvid _ _) fun thumbprint => ?_
  exact made_bind (made_reads _) fun bound => made_emitNow (by simp) _ _

@[simp] theorem made_closeTurn (started turn : Nat) (used : Option UInt64) (tokensConsumed : UInt64) :
    Made Step (closeTurn started turn used tokensConsumed) := by
  refine made_bind (made_elapsedSince _) fun elapsed => ?_
  refine made_bind (made_bind (made_reads _) fun taken => made_emitNow (by simp) _ _) fun _ => ?_
  exact .Step (.Change (fun _ => rfl) fun _ => rfl)

@[simp] theorem made_whenV2 (v2 : Bool) {part : Run Unit} (made : Made Step part) : Made Step (whenV2 v2 part) := by
  cases v2
  · exact made_pure _
  · exact made

@[simp] theorem made_concludeTurn (started : Nat) (v2 : Bool) (turn : Nat) (progress : Progress) (outcome : TurnOutcome)
    (used : Option UInt64) : Made Step (concludeTurn started v2 turn progress outcome used) := by
  refine made_bind (made_reads _) fun classifier => ?_
  refine made_bind (made_writeFlagged _ _) fun _ => ?_
  exact made_bind (made_whenV2 v2 (made_closeTurn _ _ _ _)) fun _ => made_pure _

variable (prompt : String) (limits : TurnLimits) (started : Nat) (v2 : Bool)

@[simp] theorem made_oneTurn (turn : Nat) (progress : Progress) : Made Step (oneTurn prompt limits started v2 turn progress) := by
  refine made_bind (made_whenV2 v2 (made_openTurn _ _ _ _)) fun _ => ?_
  exact made_bind (made_runOneTurn _ _ _) fun answered => made_concludeTurn _ _ _ _ _ _

/-- The steps of a whole run, which bounds may end. -/
abbrev Bounded := Does fun _ => True

theorem made_bounded {α : Type} {p : Run α} (made : Made Step p) : Made Bounded p := made_mono (fun _ _ => trivial) made

theorem made_emitCapAndBuildErr {α : Type} (bound : TurnCapKind) (atTurn : Nat) (tokensConsumed : UInt64) (elapsed : Nat) :
    Made Bounded (emitCapAndBuildErr bound atTurn limits tokensConsumed elapsed : Run α) :=
  .Bind (made_bounded (made_emitNow (by simp) _ _)) fun _ _ _ => .Step (.Silent _ fun _ _ _ => trivial)

theorem made_turnLoop (left turn : Nat) (progress : Progress) :
    Made Bounded (turnLoop prompt limits started v2 left turn progress) := by
  have reading := made_bounded (made_elapsedSince started)
  induction left generalizing turn progress with
  | zero => exact .Bind reading fun elapsed _ _ => made_emitCapAndBuildErr limits _ _ _ elapsed
  | succ left ih =>
    refine .Bind reading fun elapsed _ _ => ?_
    cases tripped limits progress.tokensConsumed elapsed with
    | some bound => exact made_emitCapAndBuildErr limits _ _ _ elapsed
    | none =>
      refine .Bind (made_bounded (made_oneTurn _ _ _ _ _ _)) fun played _ _ => ?_
      split_ifs
      · exact .Bind reading fun _ _ _ => made_bounded (made_pure _)
      · exact ih _ _

theorem made_run : Made Bounded (run prompt limits) := by
  refine .Bind (.Step (.Ask _ _ (by simp))) fun started _ _ => ?_
  exact .Bind (made_bounded (made_reads _)) fun version _ _ => made_turnLoop _ _ _ _ _ _ _

end

/-! ### Sights -/

/-- What the loop shows of itself: the entries it hands to the ledger, its questions to the
    model, and the identities that were issued to it. -/
inductive Sight where
  | Wrote (entry : Entry)
  | Asked (request : InferRequest) (response : Except BackendError InferResponse)
  | Issued (audience : String) (live : DigestTriple) (svid : X509Svid)

def sight? : Event → Option Sight
  | .Append entry _ => some (.Wrote entry)
  | .Inferred request response => some (.Asked request response)
  | .IssuedTurnSvid audience live svid => some (.Issued audience live svid)
  | _ => none

def sights (events : List Event) : List Sight := events.filterMap sight?

@[simp] theorem sights_nil : sights [] = [] := rfl

@[simp] theorem sights_append (left right : List Event) : sights (left ++ right) = sights left ++ sights right :=
  List.filterMap_append

theorem sights_unwritten {events : List Event} (each : ∀ e ∈ events,Unwritten e) : sights events = [] := by
  rw [sights,List.filterMap_eq_nil_iff]
  intro e member
  have unwritten := each e member
  cases e <;> first | rfl | exact unwritten.elim

/-- An entry of the kind, with these fields. -/
def Entered (entryType : EntryType) (fields : List (String × Scalar)) (sight : Sight) : Prop :=
  ∃ entry,sight = .Wrote entry ∧ entry.entryType = entryType ∧ entry.payload = payloadOf fields

/-- An entry of a mediated call with the reasoning step. -/
def Mediated [Serde] [Sha256] (stepId : String) (sight : Sight) : Prop :=
  ∃ about entryType fields,Written (some stepId) about entryType fields ∧ Entered entryType fields sight

section
variable [Chrono] [Serde] [Sha256]

theorem emit_sights (wrap : Ledger.Error → Error) (entryType : EntryType) (timestamp : Int) (payload : Payload) (s : Session) :
    sights (emit wrap entryType timestamp payload s).events = [.Wrote (entryOf s entryType timestamp payload)] := by
  rw [emit,reads_bind,reads_bind]
  cases ended : (appendEntry (entryOf s entryType timestamp payload) s).result with
  | error stop =>
    rw [entryOf] at ended
    rw [bind_error ended]
    rfl
  | ok result =>
    rw [entryOf] at ended
    rw [bind_ok ended,sights_append]
    cases result <;> rfl

variable [World]

/-- Whatever the append comes to, it was the one entry. -/
theorem emitNow_sights (wrap : Ledger.Error → Error) (entryType : EntryType) (fields : List (String × Scalar)) (s : Session) :
    ∃ written,Entered entryType fields written ∧ sights (emitNow wrap entryType fields s).events = [written] := by
  have written : sights (emitNow wrap entryType fields s).events =
      [.Wrote (entryOf s.next entryType (World.utcNow s.tick) (payloadOf fields))] := by
    rw [emitNow,utcNow,ask_bind,sights_append,emit_sights]
    rfl
  exact ⟨_,⟨_,rfl,rfl,rfl⟩,written⟩

/-! ### One call -/

variable [Identity]

theorem dispatch_mediated (call : Backend.ToolCall) (stepId : String) (s : Session) :
    ∀ sight ∈ sights (dispatchToolCall call (some stepId) s).events,Mediated stepId sight := by
  have records : Respects (Each fun e => ∃ about,Records (Written (some stepId) about) e)
      (dispatchToolCall call (some stepId)) := by
    refine respects_dispatchToolCall (each_composes _) (fun mediatedCall own => ?_) call
    rw [← own]
    exact each_mono (fun e held => ⟨_,held⟩) (records_mediate mediatedCall)
  intro sight member
  obtain ⟨e,among,seen⟩ := List.mem_filterMap.mp member
  obtain ⟨about,recorded⟩ := records s e among
  cases e with
  | Append entry result =>
    cases seen
    obtain ⟨fields,written,payload⟩ := recorded
    exact ⟨about,_,fields,written,entry,rfl,rfl,payload⟩
  | Inferred request response => exact recorded.elim
  | IssuedTurnSvid audience live svid => exact recorded.elim
  | _ => cases seen

def answeredWith (call : Backend.ToolCall) (result : ToolCallResult) : ToolCallOutcome :=
  ⟨call.name,call.arguments,result,none⟩

/-- The outcome of a dispatch repeats the call. -/
theorem dispatch_outcome {call : Backend.ToolCall} {rsid : Option String} {s t : Session} {outcome : ToolCallOutcome}
    {events : List Event} (runs : Runs (dispatchToolCall call rsid) s outcome t events) :
    outcome = answeredWith call outcome.result := by
  unfold dispatchToolCall at runs
  split at runs
  · obtain ⟨rfl,-,-⟩ := runs_pure.mp runs
    rfl
  · obtain ⟨_,_,_,_,-,told,-⟩ := runs_bind.mp runs
    obtain ⟨_,_,_,_,-,last,-⟩ := runs_bind.mp told
    obtain ⟨rfl,-,-⟩ := runs_pure.mp last
    rfl

def calledFields (turn callIndex : Nat) (call : Backend.ToolCall) : List (String × Scalar) :=
  toolCallFields turn (toolCallIdOf turn callIndex) call.name (originOf call.name) (sha256HexOfJson call.arguments)

def resultedFields (turn callIndex : Nat) (result : ToolCallResult) : List (String × Scalar) :=
  toolResultFields turn (toolCallIdOf turn callIndex) (sha256HexOfJson (toolCallResultToValue result))
    (toolCallResultToValue result)

/-- The recorded calls of a turn from an index on, with their results, as far as they
    came: the last one may lack its second entry. -/
inductive CallsSeen (stepId : String) (turn : Nat) :
    Nat → List Backend.ToolCall → List ToolCallResult → List Sight → Prop where
  | Ended {callIndex : Nat} {calls : List Backend.ToolCall} : CallsSeen stepId turn callIndex calls [] []
  | Broken {callIndex : Nat} {call : Backend.ToolCall} {rest : List Backend.ToolCall} {opening : Sight} {within : List Sight}
      (opens : Entered .ToolCall (calledFields turn callIndex call) opening)
      (mediated : ∀ sight ∈ within,Mediated stepId sight) :
      CallsSeen stepId turn callIndex (call :: rest) [] (opening :: within)
  | Paired {callIndex : Nat} {call : Backend.ToolCall} {rest : List Backend.ToolCall} {opening closing : Sight}
      {within later : List Sight} {result : ToolCallResult} {results : List ToolCallResult}
      (opens : Entered .ToolCall (calledFields turn callIndex call) opening)
      (mediated : ∀ sight ∈ within,Mediated stepId sight)
      (closes : Entered .ToolResult (resultedFields turn callIndex result) closing)
      (others : CallsSeen stepId turn (callIndex+1) rest results later) :
      CallsSeen stepId turn callIndex (call :: rest) (result :: results) (opening :: within ++ closing :: later)

/-- A recorded call leaves its two entries around those of the dispatch, unless it breaks
    off. -/
theorem runCall_seen (stepId : String) (turn callIndex : Nat) (call : Backend.ToolCall) (s : Session) :
    ∃ opening within,Entered .ToolCall (calledFields turn callIndex call) opening ∧
      (∀ sight ∈ within,Mediated stepId sight) ∧
      (((∃ stop,(runCall stepId (some turn) callIndex call s).result = .error stop) ∧
          sights (runCall stepId (some turn) callIndex call s).events = opening :: within) ∨
        ∃ result closing,Entered .ToolResult (resultedFields turn callIndex result) closing ∧
          sights (runCall stepId (some turn) callIndex call s).events = opening :: within ++ [closing] ∧
          ∀ outcome,(runCall stepId (some turn) callIndex call s).result = .ok outcome → outcome = answeredWith call result) := by
  obtain ⟨opening,opens,first⟩ := emitNow_sights .Ledger .ToolCall (calledFields turn callIndex call) s
  have called : runCall stepId (some turn) callIndex call = (do
      emitNow .Ledger .ToolCall (calledFields turn callIndex call)
      let outcome ← dispatchToolCall call (some stepId)
      emitNow .Ledger .ToolResult (resultedFields turn callIndex outcome.result)
      return outcome) := rfl
  rw [called]
  cases started : (emitNow .Ledger .ToolCall (calledFields turn callIndex call) s).result with
  | error stop =>
    refine ⟨opening,[],opens,by simp,.inl ?_⟩
    rw [bind_error started]
    exact ⟨⟨stop,rfl⟩,first⟩
  | ok _ =>
    rw [bind_ok started]
    generalize (emitNow .Ledger .ToolCall (calledFields turn callIndex call) s).state = m
    refine ⟨opening,sights (dispatchToolCall call (some stepId) m).events,opens,dispatch_mediated call stepId m,?_⟩
    cases dispatched : (dispatchToolCall call (some stepId) m).result with
    | error stop =>
      left
      rw [bind_error dispatched,sights_append,first]
      exact ⟨⟨stop,rfl⟩,rfl⟩
    | ok outcome =>
      right
      have same := dispatch_outcome (runs_of_result dispatched)
      rw [bind_ok dispatched]
      generalize (dispatchToolCall call (some stepId) m).state = u
      obtain ⟨closing,closes,last⟩ := emitNow_sights .Ledger .ToolResult (resultedFields turn callIndex outcome.result) u
      refine ⟨outcome.result,closing,closes,?_,?_⟩
      · rw [sights_append,sights_append,first,bind_pure_events.1,last]
        rfl
      · intro other returned
        cases ended : (emitNow .Ledger .ToolResult (resultedFields turn callIndex outcome.result) u).result with
        | error stop =>
          rw [bind_error ended] at returned
          cases returned
        | ok _ =>
          rw [bind_ok ended] at returned
          cases returned
          exact same

theorem runCalls_seen (stepId : String) (turn callIndex : Nat) (calls : List Backend.ToolCall) (s : Session) :
    ∃ results,CallsSeen stepId turn callIndex calls results
        (sights (runCalls stepId (some turn) callIndex calls s).events) ∧
      ∀ outcomes,(runCalls stepId (some turn) callIndex calls s).result = .ok outcomes →
        results.length = calls.length ∧ outcomes = List.zipWith answeredWith calls results := by
  induction calls generalizing callIndex s with
  | nil =>
    refine ⟨[],.Ended,fun outcomes returned => ?_⟩
    cases returned
    exact ⟨rfl,rfl⟩
  | cons call rest ih =>
    obtain ⟨opening,within,opens,mediated,⟨⟨stop,broken⟩,seen⟩ | ⟨result,closing,closes,seen,answered⟩⟩ :=
      runCall_seen stepId turn callIndex call s
    · refine ⟨[],?_,?_⟩ <;> rw [runCalls,bind_error broken]
      · rw [seen]
        exact .Broken opens mediated
      · intro outcomes returned
        cases returned
    · cases first : (runCall stepId (some turn) callIndex call s).result with
      | error stop =>
        refine ⟨[result],?_,?_⟩ <;> rw [runCalls,bind_error first]
        · rw [seen]
          exact .Paired opens mediated closes .Ended
        · intro outcomes returned
          cases returned
      | ok outcome =>
        rw [runCalls,bind_ok first]
        generalize (runCall stepId (some turn) callIndex call s).state = m
        obtain ⟨results,others,returns⟩ := ih (callIndex+1) m
        refine ⟨result :: results,?_,?_⟩
        · rw [sights_append,(alike_return _ _ m).1,seen,List.append_assoc]
          exact .Paired opens mediated closes others
        · intro outcomes returned
          cases later : (runCalls stepId (some turn) (callIndex+1) rest m).result with
          | error stop =>
            rw [bind_error later] at returned
            cases returned
          | ok found =>
            rw [bind_ok later] at returned
            cases returned
            obtain ⟨length,rfl⟩ := returns found later
            rw [answered outcome first]
            exact ⟨by simp [length],rfl⟩

/-! ### One turn -/

/-- The model is asked once, unless there is none. -/
theorem infer_cases (messages : List ChatMessage) (tools : List ToolDecl) (s : Session) :
    (s.loadedModel = none ∧ infer messages tools s = ⟨.error (.Err .NoBackendConfigured),s,[]⟩) ∨
    ∃ model,s.loadedModel = some model ∧
      ((∃ error,model.infer s.tick ⟨messages,tools⟩ = .error error ∧
          infer messages tools s = ⟨.error (.Err (.BackendInfer error)),s.next,[.Inferred ⟨messages,tools⟩ (.error error)]⟩) ∨
        ∃ response,model.infer s.tick ⟨messages,tools⟩ = .ok response ∧
          infer messages tools s = ⟨.ok response,s.next,[.Inferred ⟨messages,tools⟩ (.ok response)]⟩) := by
  rw [infer,reads_bind]
  cases loaded : s.loadedModel with
  | none => exact .inl ⟨rfl,orFail_error_bind⟩
  | some model =>
    refine .inr ⟨model,rfl,?_⟩
    rw [Option.elim_some,orFail_ok_bind,ask_bind]
    cases answer : model.infer s.tick ⟨messages,tools⟩ with
    | error error => exact .inl ⟨error,rfl,rfl⟩
    | ok response => exact .inr ⟨response,rfl,rfl⟩

/-- The reasoning is one entry, unless there is nothing it answers to. -/
theorem recordReasoningStep_seen (input reasoning : String) (toolsConsidered : List String) (toolSelected : Option String)
    (s : Session) :
    (input = "" ∧ (∃ stop,(recordReasoningStep input reasoning toolsConsidered toolSelected s).result = .error stop) ∧
      sights (recordReasoningStep input reasoning toolsConsidered toolSelected s).events = []) ∨
    input ≠ "" ∧ ∃ stepUuid written,
      Entered .ReasoningStep (reasoningStepFields stepUuid input reasoning toolsConsidered toolSelected) written ∧
      sights (recordReasoningStep input reasoning toolsConsidered toolSelected s).events = [written] ∧
      ∀ other,(recordReasoningStep input reasoning toolsConsidered toolSelected s).result = .ok other → other = stepUuid := by
  rw [recordReasoningStep,newUuid,ask_bind,utcNow,ask_bind]
  by_cases empty : input = ""
  · rw [if_pos empty]
    exact .inl ⟨empty,⟨_,rfl⟩,rfl⟩
  · rw [if_neg empty]
    have seen := emit_sights (fun e => .AccessLog (.Ledger e)) .ReasoningStep (World.utcNow s.next.tick)
      (payloadOf (reasoningStepFields (World.uuid s.tick) input reasoning toolsConsidered toolSelected)) s.next.next
    have reasons : Entered .ReasoningStep (reasoningStepFields (World.uuid s.tick) input reasoning toolsConsidered toolSelected)
        (.Wrote (entryOf s.next.next .ReasoningStep (World.utcNow s.next.tick)
          (payloadOf (reasoningStepFields (World.uuid s.tick) input reasoning toolsConsidered toolSelected)))) :=
      ⟨_,rfl,rfl,rfl⟩
    refine .inr ⟨empty,World.uuid s.tick,_,reasons,?_,?_⟩
    · dsimp only
      rw [sights_append,sights_append,bind_pure_events.1,seen]
      rfl
    · intro other returned
      dsimp only at returned
      obtain ⟨_,_,_,_,-,last,-⟩ := runs_bind.mp (runs_of_result returned)
      exact (runs_pure.mp last).1

def requestOf (messages : List ChatMessage) (s : Session) : InferRequest := ⟨messages,toolCatalog s.policy⟩

def reasonedFields (prompt : String) (tools : List ToolDecl) (response : InferResponse) (stepUuid : Uuid) :
    List (String × Scalar) :=
  reasoningStepFields stepUuid prompt response.reasoning (tools.map (·.name)) (response.toolCalls.head?.map (·.name))

/-- The model answered, the reasoning was written and the calls came so far. -/
structure Dispatched (request : InferRequest) (prompt : String) (turn : Nat) (response : InferResponse) (stepUuid : Uuid)
    (results : List ToolCallResult) (reasoned : Sight) (calls : List Sight) : Prop where
  reasons : Entered .ReasoningStep (reasonedFields prompt request.tools response stepUuid) reasoned
  called : CallsSeen stepUuid.toString turn 0 response.toolCalls results calls

/-- What the model and its calls leave in a recorded turn, however far they came. -/
inductive AnswerSeen (request : InferRequest) (prompt : String) (turn : Nat) : List Sight → Prop where
  | Unasked : AnswerSeen request prompt turn []
  | Failed (error : BackendError) : AnswerSeen request prompt turn [.Asked request (.error error)]
  | Unreasoned (response : InferResponse) : AnswerSeen request prompt turn [.Asked request (.ok response)]
  | Dispatched {response : InferResponse} {stepUuid : Uuid} {results : List ToolCallResult} {reasoned : Sight}
      {calls : List Sight} (dispatched : Dispatched request prompt turn response stepUuid results reasoned calls) :
      AnswerSeen request prompt turn (.Asked request (.ok response) :: reasoned :: calls)

/-- A complete answer: each call has its result. -/
structure Answered (request : InferRequest) (prompt : String) (turn : Nat) (response : InferResponse)
    (results : List ToolCallResult) (outcome : TurnOutcome) (seen : List Sight) : Prop where
  length : results.length = response.toolCalls.length
  text : outcome.assistantText = response.assistantText
  calls : outcome.toolCalls = List.zipWith answeredWith response.toolCalls results
  parts : ∃ stepUuid reasoned called,Dispatched request prompt turn response stepUuid results reasoned called ∧
    seen = .Asked request (.ok response) :: reasoned :: called

theorem dispatchAnswer_seen (request : InferRequest) (prompt : String) (turn : Nat) (response : InferResponse) {s : Session}
    (version : s.ledger.schemaVersion = .V2) :
    ((∃ stop,(dispatchAnswer prompt (some turn) request.tools response s).result = .error stop) ∧
      sights (dispatchAnswer prompt (some turn) request.tools response s).events = []) ∨
    ∃ stepUuid results reasoned calls,Dispatched request prompt turn response stepUuid results reasoned calls ∧
      sights (dispatchAnswer prompt (some turn) request.tools response s).events = reasoned :: calls ∧
      ∀ outcome used,(dispatchAnswer prompt (some turn) request.tools response s).result = .ok (outcome,used) →
        used = response.tokensUsed ∧ results.length = response.toolCalls.length ∧
        outcome.assistantText = response.assistantText ∧
        outcome.toolCalls = List.zipWith answeredWith response.toolCalls results := by
  have chronicles := chronicles_made (made_recordReasoningStep prompt response.reasoning (request.tools.map (·.name))
    (response.toolCalls.head?.map (·.name))) s
  rw [dispatchAnswer]
  rcases recordReasoningStep_seen prompt response.reasoning (request.tools.map (·.name))
    (response.toolCalls.head?.map (·.name)) s with ⟨-,⟨stop,stopped⟩,seen⟩ | ⟨-,stepUuid,reasoned,reasons,seen,same⟩
  · left
    rw [bind_error stopped]
    exact ⟨⟨stop,rfl⟩,seen⟩
  right
  cases recorded : (recordReasoningStep prompt response.reasoning (request.tools.map (·.name))
    (response.toolCalls.head?.map (·.name)) s).result with
  | error stop =>
    rw [bind_error recorded]
    exact ⟨stepUuid,[],reasoned,[],⟨reasons,.Ended⟩,seen,by simp⟩
  | ok other =>
    cases same other recorded
    rw [bind_ok recorded,reads_bind,chronicles.version,version]
    generalize (recordReasoningStep prompt response.reasoning (request.tools.map (·.name))
      (response.toolCalls.head?.map (·.name)) s).state = m
    obtain ⟨results,called,returns⟩ := runCalls_seen stepUuid.toString turn 0 response.toolCalls m
    refine ⟨stepUuid,results,reasoned,_,⟨reasons,called⟩,?_,?_⟩
    · rw [sights_append,(alike_return _ _ m).1,seen]
      rfl
    · intro outcome used returned
      obtain ⟨outcomes,_,_,_,first,last,-⟩ := runs_bind.mp (runs_of_result returned)
      obtain ⟨same,-,-⟩ := runs_pure.mp last
      cases same
      obtain ⟨length,rfl⟩ := returns outcomes first.result
      exact ⟨rfl,length,rfl,rfl⟩

theorem runOneTurn_seen (messages : List ChatMessage) (prompt : String) (turn : Nat) {s : Session}
    (version : s.ledger.schemaVersion = .V2) :
    AnswerSeen (requestOf messages s) prompt turn (sights (runOneTurn messages prompt (some turn) s).events) ∧
    ∀ outcome used,(runOneTurn messages prompt (some turn) s).result = .ok (outcome,used) →
      ∃ response results,used = response.tokensUsed ∧
        Answered (requestOf messages s) prompt turn response results outcome
          (sights (runOneTurn messages prompt (some turn) s).events) := by
  rw [runOneTurn,reads_bind]
  rcases infer_cases messages (toolCatalog s.policy) s with
    ⟨-,asked⟩ | ⟨model,-,⟨error,-,asked⟩ | ⟨response,-,asked⟩⟩
  · rw [bind_error (show (infer messages (toolCatalog s.policy) s).result = _ by rw [asked]),asked]
    exact ⟨.Unasked,by simp⟩
  · rw [bind_error (show (infer messages (toolCatalog s.policy) s).result = _ by rw [asked]),asked]
    exact ⟨.Failed error,by simp⟩
  rw [bind_ok (show (infer messages (toolCatalog s.policy) s).result = _ by rw [asked]),asked]
  have next : s.next.ledger.schemaVersion = .V2 := version
  rcases dispatchAnswer_seen (requestOf messages s) prompt turn response next with
    ⟨⟨stop,stopped⟩,seen⟩ | ⟨stepUuid,results,reasoned,calls,dispatched,seen,returns⟩
  · rw [requestOf] at stopped seen
    dsimp only at stopped seen ⊢
    rw [sights_append,seen]
    refine ⟨.Unreasoned response,fun outcome used returned => ?_⟩
    rw [stopped] at returned
    cases returned
  · have whole : sights ([.Inferred ⟨messages,toolCatalog s.policy⟩ (.ok response)] ++
        (dispatchAnswer prompt (some turn) (toolCatalog s.policy) response s.next).events) =
        .Asked (requestOf messages s) (.ok response) :: reasoned :: calls := by
      rw [sights_append]
      exact congrArg (.Asked (requestOf messages s) (.ok response) :: ·) seen
    dsimp only
    rw [whole]
    refine ⟨.Dispatched dispatched,fun outcome used returned => ?_⟩
    obtain ⟨same,length,text,outcomes⟩ := returns outcome used returned
    exact ⟨response,results,same,length,text,outcomes,stepUuid,reasoned,calls,dispatched,rfl⟩

theorem elapsedSince_bind {α : Type} {started : Nat} {g : Nat → Run α} {s : Session} :
    (elapsedSince started >>= g) s = g (World.instant s.tick-started) s.next := by
  rw [elapsedSince,bind_assoc,instantNow,ask_bind]
  rfl

/-! ### The identity of a turn -/

theorem keepTurnSvid_seen (svid : X509Svid) (s : Session) : sights (keepTurnSvid svid s).events = [] ∧
    (((∃ stop,(keepTurnSvid svid s).result = .error stop) ∧
        (keepTurnSvid svid s).state.currentTurnSvid = s.currentTurnSvid) ∨
      ∃ thumbprint,(keepTurnSvid svid s).result = .ok thumbprint) := by
  rw [keepTurnSvid]
  cases Identity.certThumbprintHex svid.certPem with
  | error error => exact ⟨rfl,.inl ⟨⟨_,rfl⟩,rfl⟩⟩
  | ok thumbprint => exact ⟨rfl,.inr ⟨thumbprint,rfl⟩⟩

/-- The digests can be taken, and the CA issues a certificate for them. -/
def Issuable (audience : String) (remaining : Nat) (s : Session) : Prop :=
  ∃ live m events svid,Runs computeLiveDigests s live m events ∧
    Identity.issueTurnSvid m.tick s.identityDir s.workloadName s.instanceName live s.boundChatTemplate audience
      (turnTtl remaining) = .ok (.ok svid)

theorem issueTurnSvid_seen (audience : String) (remaining : Nat) (s : Session) :
    (¬ Issuable audience remaining s ∧ (∃ stop,(issueTurnSvid audience remaining s).result = .error stop) ∧
      sights (issueTurnSvid audience remaining s).events = [] ∧
      (issueTurnSvid audience remaining s).state.currentTurnSvid = s.currentTurnSvid) ∨
    Issuable audience remaining s ∧
    ∃ tick live svid,Identity.issueTurnSvid tick s.identityDir s.workloadName s.instanceName live s.boundChatTemplate audience
        (turnTtl remaining) = .ok (.ok svid) ∧
      sights (issueTurnSvid audience remaining s).events = [.Issued audience live svid] ∧
      (((∃ stop,(issueTurnSvid audience remaining s).result = .error stop) ∧
          (issueTurnSvid audience remaining s).state.currentTurnSvid = s.currentTurnSvid) ∨
        ∃ thumbprint,(issueTurnSvid audience remaining s).result = .ok thumbprint) := by
  have silent := sights_unwritten (unwritten_computeLiveDigests s)
  have same := (logs_computeLiveDigests s).same
  rw [issueTurnSvid]
  cases hashed : (computeLiveDigests s).result with
  | error stop =>
    left
    rw [bind_error hashed]
    refine ⟨?_,⟨stop,rfl⟩,silent,by rw [same]⟩
    rintro ⟨live,m,events,svid,runs,-⟩
    rw [runs.result] at hashed
    cases hashed
  | ok live =>
    have runs := runs_of_result hashed
    rw [bind_ok hashed]
    generalize (computeLiveDigests s).state = m at same runs
    rw [reads_bind,reads_bind,reads_bind,reads_bind,ask_bind]
    have fields : m.identityDir = s.identityDir ∧ m.workloadName = s.workloadName ∧ m.instanceName = s.instanceName ∧
        m.boundChatTemplate = s.boundChatTemplate ∧ m.currentTurnSvid = s.currentTurnSvid := by
      rw [same]
      exact ⟨rfl,rfl,rfl,rfl,rfl⟩
    obtain ⟨dir,workload,instanceName,template,current⟩ := fields
    rw [dir,workload,instanceName,template]
    dsimp only
    rw [sights_append,sights_append,silent]
    have refused : (∀ svid,Identity.issueTurnSvid m.tick s.identityDir s.workloadName s.instanceName live s.boundChatTemplate
        audience (turnTtl remaining) ≠ .ok (.ok svid)) → ¬ Issuable audience remaining s := by
      rintro never ⟨live',m',events,svid,runs',issued⟩
      have both := runs.symm.trans runs'
      cases both
      exact never svid issued
    match issued : Identity.issueTurnSvid m.tick s.identityDir s.workloadName s.instanceName live s.boundChatTemplate audience
      (turnTtl remaining) with
    | .error panic =>
      refine .inl ⟨refused ?_,⟨_,rfl⟩,rfl,current⟩
      intro svid other
      rw [issued] at other
      cases other
    | .ok (.error error) =>
      refine .inl ⟨refused ?_,⟨_,rfl⟩,rfl,current⟩
      intro svid other
      rw [issued] at other
      cases other
    | .ok (.ok svid) =>
      obtain ⟨unseen,kept⟩ := keepTurnSvid_seen svid m.next
      have issues : [] ++ (sights (issuedEvent audience live (.ok (.ok svid))) ++ sights (keepTurnSvid svid m.next).events) =
          [.Issued audience live svid] := by
        rw [unseen]
        rfl
      refine .inr ⟨⟨live,m,_,svid,runs,issued⟩,m.tick,live,svid,issued,issues,?_⟩
      rcases kept with ⟨stop,current'⟩ | thumbprint
      · exact .inl ⟨stop,current'.trans current⟩
      · exact .inr thumbprint

/-! ### A whole turn -/

/-- The identity and the first entry of a turn. -/
structure Opens (s : Session) (turn : Nat) (messages : List ChatMessage) (issued opening : Sight) : Prop where
  issues : ∃ live svid,issued = .Issued (turnAudience s.sessionId turn) live svid
  opens : ∃ thumbprint,Entered .TurnStart (turnStartFields turn s.boundDigests.model (sha256HexOfMessages messages) thumbprint
    (turnAudience s.sessionId turn)) opening

/-- What is left of the time at the next reading of the clock. -/
def remainingOf (limits : TurnLimits) (started : Nat) (s : Session) : Nat :=
  limits.maxSeconds.toNat-asSecs (World.instant s.tick-started)

theorem openTurn_seen (limits : TurnLimits) (started turn : Nat) (messages : List ChatMessage) (s : Session) :
    ((∃ stop,(openTurn limits started turn messages s).result = .error stop) ∧
      ((¬ Issuable (turnAudience s.sessionId turn) (remainingOf limits started s) s.next ∧
          sights (openTurn limits started turn messages s).events = []) ∨
        Issuable (turnAudience s.sessionId turn) (remainingOf limits started s) s.next ∧
        ∃ live svid,sights (openTurn limits started turn messages s).events = [.Issued (turnAudience s.sessionId turn) live svid]) ∧
      (openTurn limits started turn messages s).state.currentTurnSvid = s.currentTurnSvid) ∨
    Issuable (turnAudience s.sessionId turn) (remainingOf limits started s) s.next ∧
    ∃ issued opening,Opens s turn messages issued opening ∧
      sights (openTurn limits started turn messages s).events = [issued,opening] := by
  rw [openTurn,reads_bind,elapsedSince_bind,remainingOf]
  generalize limits.maxSeconds.toNat-asSecs (World.instant s.tick-started) = remaining
  rcases issueTurnSvid_seen (turnAudience s.sessionId turn) remaining s.next with
    ⟨unissuable,⟨stop,stopped⟩,seen,current⟩ |
      ⟨issuable,tick,live,svid,-,seen,⟨⟨stop,stopped⟩,current⟩ | ⟨thumbprint,kept⟩⟩
  · left
    rw [bind_error stopped]
    exact ⟨⟨stop,rfl⟩,.inl ⟨unissuable,seen⟩,current⟩
  · left
    rw [bind_error stopped]
    exact ⟨⟨stop,rfl⟩,.inr ⟨issuable,live,svid,seen⟩,current⟩
  · right
    have stays := stays_made (made_issueTurnSvid (turnAudience s.sessionId turn) remaining) s.next
    rw [bind_ok kept]
    generalize (issueTurnSvid (turnAudience s.sessionId turn) remaining s.next).state = m at stays
    have bound : m.boundDigests = s.boundDigests := by
      rw [stays]
      rfl
    obtain ⟨opening,opens,wrote⟩ := emitNow_sights .Ledger .TurnStart (turnStartFields turn m.boundDigests.model
      (sha256HexOfMessages messages) thumbprint (turnAudience s.sessionId turn)) m
    rw [bound] at opens
    refine ⟨issuable,_,opening,⟨⟨live,svid,rfl⟩,thumbprint,opens⟩,?_⟩
    rw [sights_append,seen,writeTurnStart,reads_bind,wrote]
    rfl

def flaggedOf (judged : List Judged) : List Judged := judged.filter (·.verdict.flagged)

/-- The violations of some of the flagged results, in their order. -/
def FlagsSeen (classifierName : String) (flagged : List Judged) (seen : List Sight) : Prop :=
  List.Forall₂ (fun judged sight => Entered .Violation (adversarialFields judged.verdict classifierName judged.origin) sight)
    flagged seen

theorem writeFlagged_seen (classifierName : String) (judged : List Judged) (s : Session) :
    ∃ flagged,flagged <+: flaggedOf judged ∧
      FlagsSeen classifierName flagged (sights (writeFlagged classifierName judged s).events) ∧
      ((writeFlagged classifierName judged s).result = .ok () → flagged = flaggedOf judged) := by
  induction judged generalizing s with
  | nil => exact ⟨[],List.prefix_refl _,.nil,fun _ => rfl⟩
  | cons first rest ih =>
    rw [writeFlagged,writeIfFlagged,flaggedOf,List.filter_cons]
    split_ifs with flagged
    · have unclean : first.verdict ≠ .Clean := by
        intro clean
        rw [clean] at flagged
        cases flagged
      rw [writeAdversarialViolation,if_neg unclean]
      obtain ⟨violation,violates,wrote⟩ :=
        emitNow_sights .Ledger .Violation (adversarialFields first.verdict classifierName first.origin) s
      cases ended : (emitNow .Ledger .Violation (adversarialFields first.verdict classifierName first.origin) s).result with
      | error stop =>
        rw [bind_error ended]
        refine ⟨[first],List.prefix_cons_inj first |>.mpr List.nil_prefix,?_,by simp⟩
        dsimp only
        rw [wrote]
        exact .cons violates .nil
      | ok _ =>
        rw [bind_ok ended]
        obtain ⟨others,early,seen,all⟩ :=
          ih (emitNow .Ledger .Violation (adversarialFields first.verdict classifierName first.origin) s).state
        refine ⟨first :: others,(List.prefix_cons_inj first).mpr early,?_,fun done => by rw [all done]; rfl⟩
        rw [sights_append,wrote]
        exact .cons violates seen
    · exact ih s

theorem closeTurn_seen (started turn : Nat) (used : Option UInt64) (tokensConsumed : UInt64) (s : Session) :
    ∃ ms taken closing,Entered .TurnEnd (turnEndFields turn none used tokensConsumed ms taken) closing ∧
      sights (closeTurn started turn used tokensConsumed s).events = [closing] ∧
      ((closeTurn started turn used tokensConsumed s).result = .ok () →
        (closeTurn started turn used tokensConsumed s).state.currentTurnSvid = none) := by
  rw [closeTurn,elapsedSince_bind]
  generalize UInt64.ofNat (min (asMillis (World.instant s.tick-started)) (2^64-1)) = ms
  generalize s.next = m
  rw [writeTurnEnd]
  obtain ⟨closing,closes,wrote⟩ := emitNow_sights .Ledger .TurnEnd
    (turnEndFields turn none used tokensConsumed ms (snapshots m.aggregateState m.policy)) m
  refine ⟨ms,snapshots m.aggregateState m.policy,closing,closes,?_⟩
  rw [bind_assoc,reads_bind]
  cases ended : (emitNow .Ledger .TurnEnd
    (turnEndFields turn none used tokensConsumed ms (snapshots m.aggregateState m.policy)) m).result with
  | error stop =>
    rw [bind_error ended]
    exact ⟨wrote,by simp⟩
  | ok _ =>
    rw [bind_ok ended,sights_append,wrote]
    exact ⟨rfl,fun _ => rfl⟩

def judgedOf (s : Session) (outcome : TurnOutcome) : List Judged := outcome.toolCalls.map (judge s.adversarialClassifier)

/-- What a recorded turn leaves, however far it came. -/
inductive TurnSeen (s : Session) (prompt : String) (turn : Nat) (messages : List ChatMessage) : List Sight → Prop where
  | Unissued : TurnSeen s prompt turn messages []
  | Unopened (live : DigestTriple) (svid : X509Svid) :
      TurnSeen s prompt turn messages [.Issued (turnAudience s.sessionId turn) live svid]
  | Opened {issued opening : Sight} {answer : List Sight} (opens : Opens s turn messages issued opening)
      (answers : AnswerSeen (requestOf messages s) prompt turn answer) :
      TurnSeen s prompt turn messages (issued :: opening :: answer)
  | Answered {issued opening : Sight} {answer flags : List Sight} {response : InferResponse} {results : List ToolCallResult}
      {outcome : TurnOutcome} {flagged : List Judged} (opens : Opens s turn messages issued opening)
      (answered : Answered (requestOf messages s) prompt turn response results outcome answer)
      (flagging : FlagsSeen s.adversarialClassifier.name flagged flags) :
      TurnSeen s prompt turn messages (issued :: opening :: (answer ++ flags))
  | Closed {issued opening closing : Sight} {answer flags : List Sight} {response : InferResponse}
      {results : List ToolCallResult} {outcome : TurnOutcome} {tokens ms : UInt64} {taken : List QuotaSnapshot}
      (opens : Opens s turn messages issued opening)
      (answered : Answered (requestOf messages s) prompt turn response results outcome answer)
      (flagging : FlagsSeen s.adversarialClassifier.name (flaggedOf (judgedOf s outcome)) flags)
      (closes : Entered .TurnEnd (turnEndFields turn none response.tokensUsed tokens ms taken) closing) :
      TurnSeen s prompt turn messages (issued :: opening :: (answer ++ flags ++ [closing]))

/-- What a complete turn leaves. -/
structure Completed (s : Session) (prompt : String) (turn : Nat) (messages : List ChatMessage) (response : InferResponse)
    (results : List ToolCallResult) (outcome : TurnOutcome) (seen : List Sight) : Prop where
  whole : ∃ issued opening closing answer flags tokens ms taken,Opens s turn messages issued opening ∧
    Answered (requestOf messages s) prompt turn response results outcome answer ∧
    FlagsSeen s.adversarialClassifier.name (flaggedOf (judgedOf s outcome)) flags ∧
    Entered .TurnEnd (turnEndFields turn none response.tokensUsed tokens ms taken) closing ∧
    seen = issued :: opening :: (answer ++ flags ++ [closing])

/-- After the calls come the violations, and after all of them the last entry. -/
theorem concludeTurn_seen (started turn : Nat) (progress : Progress) (outcome : TurnOutcome) (used : Option UInt64) (s : Session) :
    (∃ flagged flags,FlagsSeen s.adversarialClassifier.name flagged flags ∧
        (∃ stop,(concludeTurn started true turn progress outcome used s).result = .error stop) ∧
        sights (concludeTurn started true turn progress outcome used s).events = flags) ∨
    ∃ flags closing tokens ms taken,FlagsSeen s.adversarialClassifier.name (flaggedOf (judgedOf s outcome)) flags ∧
      Entered .TurnEnd (turnEndFields turn none used tokens ms taken) closing ∧
      sights (concludeTurn started true turn progress outcome used s).events = flags ++ [closing] ∧
      ∀ grown last,(concludeTurn started true turn progress outcome used s).result = .ok (grown,last) →
        (concludeTurn started true turn progress outcome used s).state.currentTurnSvid = none ∧
        grown = progress.grown outcome used s.adversarialClassifier.name (judgedOf s outcome) ∧
        last = outcome.toolCalls.isEmpty := by
  have concluded : concludeTurn started true turn progress outcome used s =
      (writeFlagged s.adversarialClassifier.name (judgedOf s outcome) >>= fun _ => do
        whenV2 true (closeTurn started turn used
          (progress.grown outcome used s.adversarialClassifier.name (judgedOf s outcome)).tokensConsumed)
        return (progress.grown outcome used s.adversarialClassifier.name (judgedOf s outcome),outcome.toolCalls.isEmpty)) s :=
    reads_bind
  rw [concluded]
  obtain ⟨flagged,-,flags,all⟩ := writeFlagged_seen s.adversarialClassifier.name (judgedOf s outcome) s
  cases wrote : (writeFlagged s.adversarialClassifier.name (judgedOf s outcome) s).result with
  | error stop =>
    left
    rw [bind_error wrote]
    exact ⟨flagged,_,flags,⟨stop,rfl⟩,rfl⟩
  | ok _ =>
    right
    rw [all wrote] at flags
    rw [bind_ok wrote]
    generalize (writeFlagged s.adversarialClassifier.name (judgedOf s outcome) s).state = u
    obtain ⟨ms,taken,closing,closes,last,dropped⟩ := closeTurn_seen started turn used
      (progress.grown outcome used s.adversarialClassifier.name (judgedOf s outcome)).tokensConsumed u
    refine ⟨_,closing,_,ms,taken,flags,closes,?_,?_⟩
    · rw [sights_append,whenV2,if_pos rfl,bind_pure_events.1,last]
    · intro grown played returned
      obtain ⟨_,_,_,_,first,second,-⟩ := runs_bind.mp (runs_of_result returned)
      obtain ⟨same,-,-⟩ := runs_pure.mp second
      cases same
      refine ⟨?_,rfl,rfl⟩
      rw [whenV2,if_pos rfl] at first
      rw [whenV2,if_pos rfl,bind_pure_events.2]
      exact dropped first.result

variable (prompt : String) (limits : TurnLimits) (started : Nat)

theorem oneTurn_seen (turn : Nat) (progress : Progress) {s : Session} (version : s.ledger.schemaVersion = .V2) :
    TurnSeen s prompt turn progress.messages (sights (oneTurn prompt limits started true turn progress s).events) ∧
    ∀ grown last,(oneTurn prompt limits started true turn progress s).result = .ok (grown,last) →
      (oneTurn prompt limits started true turn progress s).state.currentTurnSvid = none ∧
      ∃ response results outcome,Completed s prompt turn progress.messages response results outcome
          (sights (oneTurn prompt limits started true turn progress s).events) ∧
        grown = progress.grown outcome response.tokensUsed s.adversarialClassifier.name (judgedOf s outcome) ∧
        last = outcome.toolCalls.isEmpty := by
  rw [oneTurn,whenV2,if_pos rfl]
  have first := made_openTurn limits started turn progress.messages
  cases opened : (openTurn limits started turn progress.messages s).result with
  | error stop =>
    rw [bind_error opened]
    refine ⟨?_,by simp⟩
    rcases openTurn_seen limits started turn progress.messages s with
      ⟨-,⟨-,seen⟩ | ⟨-,live,svid,seen⟩,-⟩ | ⟨-,issued,opening,opens,seen⟩
    · rw [seen]
      exact .Unissued
    · rw [seen]
      exact .Unopened live svid
    · rw [seen]
      exact .Opened opens .Unasked
  | ok _ =>
    rw [bind_ok opened]
    obtain ⟨-,issued,opening,opens,seen⟩ := (openTurn_seen limits started turn progress.messages s).resolve_left (by
      rintro ⟨⟨stop,stopped⟩,-⟩
      rw [opened] at stopped
      cases stopped)
    have stays := stays_made first s
    have v2 := (chronicles_made first s).version.trans version
    generalize (openTurn limits started turn progress.messages s).state = m at stays v2
    have request : requestOf progress.messages m = requestOf progress.messages s := by
      rw [requestOf,stays]
      rfl
    obtain ⟨answers,returns⟩ := runOneTurn_seen progress.messages prompt turn v2
    rw [request] at answers returns
    cases ran : (runOneTurn progress.messages prompt (some turn) m).result with
    | error stop =>
      rw [bind_error ran,sights_append,seen]
      exact ⟨.Opened opens answers,by simp⟩
    | ok answered =>
      obtain ⟨outcome,used⟩ := answered
      obtain ⟨response,results,rfl,answered⟩ := returns outcome used ran
      have later := stays_made (made_runOneTurn progress.messages prompt (some turn)) m
      rw [bind_ok ran]
      generalize (runOneTurn progress.messages prompt (some turn) m).state = n at later
      have classifier : n.adversarialClassifier = s.adversarialClassifier := by rw [later,stays]
      have judges : judgedOf n outcome = judgedOf s outcome := by rw [judgedOf,classifier,judgedOf]
      rcases concludeTurn_seen started turn progress outcome response.tokensUsed n with
        ⟨flagged,flags,flagging,⟨stop,stopped⟩,last⟩ | ⟨flags,closing,tokens,ms,taken,flagging,closes,last,returns⟩
      · rw [classifier] at flagging
        dsimp only
        rw [sights_append,sights_append,seen,last]
        change TurnSeen s prompt turn progress.messages (issued :: opening ::
          (sights (runOneTurn progress.messages prompt (some turn) m).events ++ flags)) ∧ _
        refine ⟨.Answered opens answered flagging,fun grown played returned => ?_⟩
        rw [stopped] at returned
        cases returned
      · rw [classifier,judges] at flagging
        rw [classifier,judges] at returns
        dsimp only
        rw [sights_append,sights_append,seen,last]
        have whole : [issued,opening] ++ (sights (runOneTurn progress.messages prompt (some turn) m).events ++
            (flags ++ [closing])) = issued :: opening ::
              (sights (runOneTurn progress.messages prompt (some turn) m).events ++ flags ++ [closing]) := by simp
        rw [whole]
        refine ⟨.Closed opens answered flagging closes,fun grown played returned => ?_⟩
        obtain ⟨dropped,same,final⟩ := returns grown played returned
        exact ⟨dropped,response,results,outcome,
          ⟨issued,opening,closing,_,flags,tokens,ms,taken,opens,answered,flagging,closes,rfl⟩,same,final⟩

/-! ### A run -/

/-- The loop goes through turns up to another one; each of them is admitted and none is
    the last. -/
inductive Plays (v2 : Bool) : Nat → Progress → Session → List Event → Nat → Progress → Session → Prop where
  | Here {turn : Nat} {progress : Progress} {s : Session} : Plays v2 turn progress s [] turn progress s
  | Turn {turn turn' : Nat} {progress grown progress' : Progress} {s m t : Session} {left right : List Event}
      (admitted : tripped limits progress.tokensConsumed (World.instant s.tick-started) = none)
      (played : Runs (oneTurn prompt limits started v2 turn progress) s.next (grown,false) m left)
      (later : Plays v2 (turn+1) grown m right turn' progress' t) :
      Plays v2 turn progress s (left ++ right) turn' progress' t

/-- How the loop ends when so many turns are left. -/
inductive LoopEnds (v2 : Bool) (turn : Nat) (progress : Progress) (s : Session) :
    Nat → Outcome Session Stop Event SessionRunResult → Prop where
  | Exhausted : LoopEnds v2 turn progress s 0 (emitCapAndBuildErr .Turns limits.maxTurns.toNat limits progress.tokensConsumed
      (World.instant s.tick-started) s.next)
  | Tripped {left : Nat} (bound : TurnCapKind)
      (refused : tripped limits progress.tokensConsumed (World.instant s.tick-started) = some bound) :
      LoopEnds v2 turn progress s (left+1) (emitCapAndBuildErr bound turn limits progress.tokensConsumed
        (World.instant s.tick-started) s.next)
  | Broken {left : Nat} {stop : Stop} {t : Session} {events : List Event}
      (admitted : tripped limits progress.tokensConsumed (World.instant s.tick-started) = none)
      (stops : Stops (oneTurn prompt limits started v2 turn progress) s.next stop t events) :
      LoopEnds v2 turn progress s (left+1) ⟨.error stop,t,events⟩
  | Done {left : Nat} {grown : Progress} {t : Session} {events : List Event}
      (admitted : tripped limits progress.tokensConsumed (World.instant s.tick-started) = none)
      (played : Runs (oneTurn prompt limits started v2 turn progress) s.next (grown,true) t events) :
      LoopEnds v2 turn progress s (left+1)
        ⟨.ok ⟨grown.turns,.Done,grown.tokensConsumed,World.instant t.tick-started⟩,t.next,events⟩

/-- A run of the loop is some turns and an end. -/
theorem turnLoop_cases (v2 : Bool) (left turn : Nat) (progress : Progress) (s : Session) :
    ∃ spent turn' progress' m before last,spent ≤ left ∧ turn' = turn+spent ∧
      Plays prompt limits started v2 turn progress s before turn' progress' m ∧
      LoopEnds prompt limits started v2 turn' progress' m (left-spent) last ∧
      turnLoop prompt limits started v2 left turn progress s = ⟨last.result,last.state,before ++ last.events⟩ := by
  induction left generalizing turn progress s with
  | zero =>
    refine ⟨0,turn,progress,s,[],_,le_rfl,rfl,.Here,.Exhausted,?_⟩
    rw [turnLoop,elapsedSince_bind]
    rfl
  | succ left ih =>
    rw [turnLoop,elapsedSince_bind]
    cases checked : tripped limits progress.tokensConsumed (World.instant s.tick-started) with
    | some bound => exact ⟨0,turn,progress,s,[],_,Nat.zero_le _,rfl,.Here,.Tripped bound checked,rfl⟩
    | none =>
      dsimp only
      cases played : (oneTurn prompt limits started v2 turn progress s.next).result with
      | error stop =>
        rw [bind_error played]
        exact ⟨0,turn,progress,s,[],_,Nat.zero_le _,rfl,.Here,.Broken checked (stops_of_result played),rfl⟩
      | ok both =>
        obtain ⟨grown,last⟩ := both
        have runs := runs_of_result played
        rw [bind_ok played]
        cases last with
        | true =>
          rw [if_pos rfl,elapsedSince_bind]
          refine ⟨0,turn,progress,s,[],_,Nat.zero_le _,rfl,.Here,.Done checked runs,?_⟩
          exact congrArg (Outcome.mk _ _) (List.append_nil _)
        | false =>
          obtain ⟨spent,turn',progress',m,before,final,within,rfl,plays,ends,whole⟩ :=
            ih (turn+1) grown (oneTurn prompt limits started v2 turn progress s.next).state
          rw [if_neg Bool.false_ne_true]
          refine ⟨spent+1,turn+(spent+1),progress',m,_,final,Nat.succ_le_succ within,rfl,
            .Turn checked runs (by rwa [Nat.add_assoc,Nat.add_comm 1] at plays),?_,?_⟩
          · rw [Nat.add_assoc,Nat.add_comm 1] at ends
            rwa [Nat.add_sub_add_right]
          · rw [whole,List.append_assoc]

theorem Plays.kept {v2 : Bool} {turn turn' : Nat} {progress progress' : Progress} {s t : Session} {events : List Event}
    (plays : Plays prompt limits started v2 turn progress s events turn' progress' t) :
    Kept s t ∧ t.ledger.schemaVersion = s.ledger.schemaVersion := by
  induction plays with
  | Here => exact ⟨rfl,rfl⟩
  | @Turn turn turn' progress grown progress' s m t left right admitted played later ih =>
    have stays := played.respects (stays_made (made_oneTurn prompt limits started v2 turn progress))
    have version := (played.respects (chronicles_made (made_oneTurn prompt limits started v2 turn progress))).version
    refine ⟨?_,ih.2.trans version⟩
    exact @stays_composes.append s _ _ left right stays ih.1

/-- After the turns that were played the loop goes on from where they led. -/
theorem Plays.continues {v2 : Bool} {turn turn' : Nat} {progress progress' : Progress} {s t : Session} {events : List Event}
    (plays : Plays prompt limits started v2 turn progress s events turn' progress' t) : turn ≤ turn' ∧ ∀ left,
    Continues (turnLoop prompt limits started v2 (turn'-turn+left) turn progress) s (turnLoop prompt limits started v2 left turn' progress')
      t events := by
  induction plays with
  | Here =>
    refine ⟨le_rfl,fun left => ?_⟩
    rw [Nat.sub_self,Nat.zero_add]
    exact continues_refl _ _
  | @Turn turn turn' progress grown progress' s m t left right admitted played later ih =>
    obtain ⟨rising,continues⟩ := ih
    refine ⟨by omega,fun rest => ?_⟩
    have count : turn'-turn+rest = turn'-(turn+1)+rest+1 := by omega
    have next := continues rest
    rw [Continues] at next ⊢
    rw [count,turnLoop,elapsedSince_bind,admitted]
    dsimp only
    rw [bind_ok played.result,played.state,played.events,if_neg Bool.false_ne_true,next,List.append_assoc]

/-- A bound that is reached is one entry, and an error. -/
theorem emitCapAndBuildErr_seen (bound : TurnCapKind) (atTurn : Nat) (tokensConsumed : UInt64) (elapsed : Nat) (s : Session) :
    (∃ violation,Entered .Violation (turnCapFields bound atTurn limits tokensConsumed (asSecsF64 elapsed)) violation ∧
      sights (emitCapAndBuildErr bound atTurn limits tokensConsumed elapsed s :
        Outcome Session Stop Event SessionRunResult).events = [violation]) ∧
    ∃ stop,(emitCapAndBuildErr bound atTurn limits tokensConsumed elapsed s :
      Outcome Session Stop Event SessionRunResult).result = .error stop := by
  obtain ⟨violation,entered,wrote⟩ := emitNow_sights .Ledger .Violation
    (turnCapFields bound atTurn limits tokensConsumed (asSecsF64 elapsed)) s
  rw [emitCapAndBuildErr,writeTurnCapViolation]
  cases ended : (emitNow .Ledger .Violation (turnCapFields bound atTurn limits tokensConsumed (asSecsF64 elapsed)) s).result with
  | error stop =>
    rw [bind_error ended]
    exact ⟨⟨violation,entered,wrote⟩,stop,rfl⟩
  | ok _ =>
    rw [bind_ok ended,sights_append,wrote]
    exact ⟨⟨violation,entered,rfl⟩,_,rfl⟩

/-- A run is the loop from its first turn on. -/
theorem run_loops (s : Session) : run prompt limits s =
    turnLoop prompt limits (World.instant s.tick) (s.ledger.schemaVersion = .V2) limits.maxTurns.toNat 1
      ⟨[⟨.User,prompt⟩],[],0⟩ s.next := by
  rw [run,instantNow,ask_bind,reads_bind]
  rfl

end

end AegisNode.TurnTrace
