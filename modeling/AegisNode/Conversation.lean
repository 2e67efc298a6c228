import AegisNode.ReferenceTurn

/-!
The conversation of a run and what the ledger says of it: the digest of each turn's
messages, the messages the model was asked with, and the hashes of the results that the
next messages carry.
-/
namespace AegisNode.Conversation
open Bytes Clock Json Schema Policy Traced Adversarial Engine Mediator Entries Turn TurnLoop Chronicle TurnTrace
open Backend hiding ToolCall
open Ledger hiding Error
set_option linter.unusedSectionVars false

/-! ### Marks -/

/-- What can be compared: the digests that the entries name, and the questions to the
    model with their answers. -/
inductive Mark where
  | Started (contextDigestHex : Option Value)
  | Asked (messages : List ChatMessage) (response : Except BackendError InferResponse)
  | Resulted (resultHashHex : Option Value)

def mark? : Sight → Option Mark
  | .Wrote entry =>
    match entry.entryType with
    | .TurnStart => some (.Started (Map.get entry.payload.fields "contextDigestHex"))
    | .ToolResult => some (.Resulted (Map.get entry.payload.fields "resultHashHex"))
    | _ => none
  | .Asked request response => some (.Asked request.messages response)
  | .Issued _ _ _ => none

def marks (seen : List Sight) : List Mark := seen.filterMap mark?

theorem marks_append (left right : List Sight) : marks (left ++ right) = marks left ++ marks right :=
  List.filterMap_append

theorem marks_cons {sight : Sight} {rest : List Sight} {mark : Mark} (own : mark? sight = some mark) :
    marks (sight :: rest) = mark :: marks rest := List.filterMap_cons_some own

theorem marks_skip {sight : Sight} {rest : List Sight} (unmarked : mark? sight = none) : marks (sight :: rest) = marks rest :=
  List.filterMap_cons_none unmarked

theorem marks_unmarked {seen : List Sight} (unmarked : ∀ sight ∈ seen,mark? sight = none) : marks seen = [] :=
  List.filterMap_eq_nil_iff.mpr unmarked

/-! ### The conversation -/

section
variable [Serde] [Sha256]

/-- The digest of the messages stands in the first entry of their turn. -/
def started (messages : List ChatMessage) : Mark := .Started (some (.String (sha256HexOfMessages messages)))

def resulted (result : ToolCallResult) : Mark := .Resulted (some (.String (sha256HexOfJson (toolCallResultToValue result))))

/-- The message that carries a call and its result; a result is wrapped if the classifier
    flags its text. -/
def carried (classifier : AdversarialClassifier) (call : Backend.ToolCall) (result : ToolCallResult) : ChatMessage :=
  let verdict := classifier.classify (encode (Serde.toString (toolCallResultToValue result))) (originOf call.name)
  let body := Serde.toString (object [("tool",.String call.name),("args",call.arguments),("result",toolCallResultToValue result)])
  ⟨.Tool,if verdict.flagged then wrapFlagged (encode body) verdict (originOf call.name) classifier.name else body⟩

/-- The message of the model itself, unless it said nothing. -/
def said : Option String → List ChatMessage
  | none => []
  | some text => if text = "" then [] else [⟨.Assistant,text⟩]

/-- From these messages on, each turn names the digest of the messages that the model is
    asked with, and hands them on with what was said and with the results it names. Only
    the last turn may break off. -/
inductive Converses (classifier : AdversarialClassifier) : List ChatMessage → List Mark → Prop where
  | Over {messages : List ChatMessage} : Converses classifier messages []
  | Unasked {messages : List ChatMessage} : Converses classifier messages [started messages]
  | Failed {messages : List ChatMessage} (error : BackendError) :
      Converses classifier messages [started messages,.Asked messages (.error error)]
  | Broken {messages : List ChatMessage} (response : InferResponse) (results : List ToolCallResult)
      (few : results.length ≤ response.toolCalls.length) :
      Converses classifier messages (started messages :: .Asked messages (.ok response) :: results.map resulted)
  | Turn {messages : List ChatMessage} (response : InferResponse) (results : List ToolCallResult) {rest : List Mark}
      (each : results.length = response.toolCalls.length)
      (later : Converses classifier (messages ++ said response.assistantText ++
        List.zipWith (carried classifier) response.toolCalls results) rest) :
      Converses classifier messages (started messages :: .Asked messages (.ok response) :: (results.map resulted ++ rest))

/-! ### The marks of a turn -/

theorem entered_unmarked {entryType : EntryType} {fields : List (String × Scalar)} {sight : Sight}
    (entered : Entered entryType fields sight) (start : entryType ≠ .TurnStart) (result : entryType ≠ .ToolResult) :
    mark? sight = none := by
  obtain ⟨entry,rfl,rfl,-⟩ := entered
  dsimp only [mark?]
  split <;> first | contradiction | rfl

theorem entered_started {turn : Nat} {model : Digest} {messages : List ChatMessage} {thumbprint audience : String} {sight : Sight}
    (entered : Entered .TurnStart (turnStartFields turn model (sha256HexOfMessages messages) thumbprint audience) sight) :
    mark? sight = some (Conversation.started messages) := by
  obtain ⟨entry,rfl,start,payload⟩ := entered
  dsimp only [mark?]
  rw [start]
  dsimp only
  rw [payload,get_payloadOf]
  rfl

theorem entered_resulted {turn callIndex : Nat} {result : ToolCallResult} {sight : Sight}
    (entered : Entered .ToolResult (resultedFields turn callIndex result) sight) :
    mark? sight = some (Conversation.resulted result) := by
  obtain ⟨entry,rfl,start,payload⟩ := entered
  dsimp only [mark?]
  rw [start]
  dsimp only
  rw [payload,get_payloadOf,resultedFields,toolResultFields,resultField]
  split_ifs <;> rfl

theorem mediated_unmarked {stepId : String} {sight : Sight} (mediated : Mediated stepId sight) : mark? sight = none := by
  obtain ⟨about,entryType,fields,written,entered⟩ := mediated
  have apart : entryType ≠ .TurnStart ∧ entryType ≠ .ToolResult := by
    rcases written with worked | approved
    · cases worked <;> exact ⟨by decide,by decide⟩
    · cases approved <;> exact ⟨by decide,by decide⟩
  exact entered_unmarked entered apart.1 apart.2

theorem calls_marks {stepId : String} {turn callIndex : Nat} {calls : List Backend.ToolCall} {results : List ToolCallResult}
    {seen : List Sight} (called : CallsSeen stepId turn callIndex calls results seen) :
    Conversation.marks seen = results.map Conversation.resulted := by
  induction called with
  | Ended => rfl
  | Broken opens mediated =>
    rw [marks_skip (entered_unmarked opens (by decide) (by decide)),marks_unmarked fun sight member => mediated_unmarked (mediated sight member)]
    rfl
  | Paired opens mediated closes others ih =>
    rw [List.cons_append,marks_skip (entered_unmarked opens (by decide) (by decide)),marks_append,
      marks_unmarked fun sight member => mediated_unmarked (mediated sight member),marks_cons (entered_resulted closes),ih]
    rfl

theorem calls_few {stepId : String} {turn callIndex : Nat} {calls : List Backend.ToolCall} {results : List ToolCallResult}
    {seen : List Sight} (called : CallsSeen stepId turn callIndex calls results seen) : results.length ≤ calls.length := by
  induction called with
  | Ended => exact Nat.zero_le _
  | Broken opens mediated => exact Nat.zero_le _
  | Paired opens mediated closes others ih => exact Nat.succ_le_succ ih

theorem flags_marks {classifierName : String} {flagged : List Judged} {seen : List Sight}
    (flags : FlagsSeen classifierName flagged seen) : Conversation.marks seen = [] := by
  induction flags with
  | nil => rfl
  | cons first rest ih => rw [marks_skip (entered_unmarked first (by decide) (by decide)),ih]

theorem dispatched_marks {request : InferRequest} {prompt : String} {turn : Nat} {response : InferResponse} {stepUuid : Uuid}
    {results : List ToolCallResult} {reasoned : Sight} {calls : List Sight}
    (dispatched : Dispatched request prompt turn response stepUuid results reasoned calls) :
    Conversation.marks (.Asked request (.ok response) :: reasoned :: calls) =
      .Asked request.messages (.ok response) :: results.map Conversation.resulted := by
  rw [marks_cons rfl,marks_skip (entered_unmarked dispatched.reasons (by decide) (by decide)),calls_marks dispatched.called]

variable {s : Session} {turn : Nat} {messages : List ChatMessage}

theorem opens_marks {issued opening : Sight} (opens : Opens s turn messages issued opening) (rest : List Sight) :
    Conversation.marks (issued :: opening :: rest) = Conversation.started messages :: Conversation.marks rest := by
  obtain ⟨live,svid,rfl⟩ := opens.issues
  obtain ⟨thumbprint,entered⟩ := opens.opens
  rw [marks_skip rfl,marks_cons (entered_started entered)]

variable {prompt : String}

/-- A turn that breaks off is the last one. -/
theorem turn_converses {seen : List Sight} (turnSeen : TurnSeen s prompt turn messages seen) :
    Converses s.adversarialClassifier messages (Conversation.marks seen) := by
  cases turnSeen with
  | Unissued => exact .Over
  | Unopened live svid => exact .Over
  | Opened opens answers =>
    rw [opens_marks opens]
    cases answers with
    | Unasked => exact .Unasked
    | Failed error => exact .Failed error
    | Unreasoned response => exact .Broken response [] (Nat.zero_le _)
    | Dispatched dispatched =>
      rw [dispatched_marks dispatched]
      exact .Broken _ _ (calls_few dispatched.called)
  | Answered opens answered flagging =>
    obtain ⟨stepUuid,reasoned,called,dispatched,rfl⟩ := answered.parts
    rw [opens_marks opens,marks_append,dispatched_marks dispatched,flags_marks flagging,List.append_nil]
    exact .Broken _ _ (calls_few dispatched.called)
  | Closed opens answered flagging closes =>
    obtain ⟨stepUuid,reasoned,called,dispatched,rfl⟩ := answered.parts
    rw [opens_marks opens,marks_append,marks_append,dispatched_marks dispatched,flags_marks flagging,
      marks_skip (entered_unmarked closes (by decide) (by decide))]
    have nothing : Conversation.marks [] = [] := rfl
    rw [nothing,List.append_nil,List.append_nil]
    exact .Broken _ _ (calls_few dispatched.called)

end

section
variable [Chrono] [Serde] [Sha256] [World] [Identity]

/-- The messages of the next turn are those that the turn carried. -/
theorem grown_messages {classifier : AdversarialClassifier} {progress : Progress} {outcome : TurnOutcome}
    {used : Option UInt64} {response : InferResponse} {results : List ToolCallResult}
    (text : outcome.assistantText = response.assistantText)
    (calls : outcome.toolCalls = List.zipWith answeredWith response.toolCalls results) :
    (progress.grown outcome used classifier.name (outcome.toolCalls.map (judge classifier))).messages =
      progress.messages ++ said response.assistantText ++ List.zipWith (carried classifier) response.toolCalls results := by
  have spoken : assistantMessages outcome.assistantText = said response.assistantText := by
    rw [text,assistantMessages]
    cases response.assistantText <;> rfl
  rw [Progress.grown]
  dsimp only
  rw [spoken,calls,List.map_map,List.map_zipWith]
  rfl

variable {prompt : String} {limits : TurnLimits} {startedAt : Nat}

/-- A complete turn comes before the conversation with the messages it leaves. -/
theorem completed_converses {s : Session} {turn : Nat} {progress : Progress} {response : InferResponse}
    {results : List ToolCallResult} {outcome : TurnOutcome} {seen : List Sight} {rest : List Mark}
    (completed : Completed s prompt turn progress.messages response results outcome seen)
    (later : Converses s.adversarialClassifier (progress.grown outcome response.tokensUsed s.adversarialClassifier.name
      (judgedOf s outcome)).messages rest) :
    Converses s.adversarialClassifier progress.messages (Conversation.marks seen ++ rest) := by
  obtain ⟨issued,opening,closing,answer,flags,tokens,ms,taken,opens,answered,flagging,closes,rfl⟩ := completed.whole
  obtain ⟨stepUuid,reasoned,called,dispatched,rfl⟩ := answered.parts
  rw [judgedOf,grown_messages answered.text answered.calls] at later
  rw [opens_marks opens,marks_append,marks_append,dispatched_marks dispatched,flags_marks flagging,
    marks_skip (entered_unmarked closes (by decide) (by decide))]
  have nothing : Conversation.marks [] = [] := rfl
  rw [nothing,List.append_nil,List.append_nil]
  exact .Turn response results answered.length later

/-- The turns that were played come before whatever conversation follows. -/
theorem plays_converses {turn turn' : Nat} {progress progress' : Progress} {s t : Session} {events : List Event}
    {rest : List Mark} (plays : Plays prompt limits startedAt true turn progress s events turn' progress' t)
    (version : s.ledger.schemaVersion = .V2) (later : Converses s.adversarialClassifier progress'.messages rest) :
    Converses s.adversarialClassifier progress.messages (marks (sights events) ++ rest) := by
  induction plays with
  | Here => exact later
  | @Turn turn turn' progress grown progress' s m t left right admitted played others ih =>
    have next : s.next.ledger.schemaVersion = .V2 := version
    obtain ⟨-,returns⟩ := oneTurn_seen prompt limits startedAt turn progress next
    obtain ⟨-,response,results,outcome,completed,rfl,-⟩ := returns _ _ played.result
    rw [played.events] at completed
    have stays := played.respects (stays_made (made_oneTurn prompt limits startedAt true turn progress))
    have classifier : m.adversarialClassifier = s.adversarialClassifier := by
      rw [stays]
      rfl
    have v2 := (played.respects (chronicles_made (made_oneTurn prompt limits startedAt true turn progress))).version.trans next
    rw [classifier] at ih
    rw [sights_append,marks_append,List.append_assoc]
    exact completed_converses (s := s.next) completed (ih v2 later)

/-- The end of the loop adds a turn that may break off. -/
theorem ends_converses {turn left : Nat} {progress : Progress} {s : Session}
    {last : Outcome Session Stop Event SessionRunResult}
    (ends : LoopEnds prompt limits startedAt true turn progress s left last) (version : s.ledger.schemaVersion = .V2) :
    Converses s.adversarialClassifier progress.messages (marks (sights last.events)) := by
  have next : s.next.ledger.schemaVersion = .V2 := version
  have capped : ∀ (bound : TurnCapKind) (atTurn : Nat),Converses s.adversarialClassifier progress.messages
      (marks (sights (emitCapAndBuildErr bound atTurn limits progress.tokensConsumed (World.instant s.tick-startedAt) s.next :
        Outcome Session Stop Event SessionRunResult).events)) := by
    intro bound atTurn
    obtain ⟨⟨violation,entered,wrote⟩,-⟩ := emitCapAndBuildErr_seen limits bound atTurn progress.tokensConsumed
      (World.instant s.tick-startedAt) s.next
    rw [wrote,marks_skip (entered_unmarked entered (by decide) (by decide))]
    exact .Over
  cases ends with
  | Exhausted => exact capped _ _
  | Tripped bound refused => exact capped _ _
  | Broken admitted stops =>
    have seen := (oneTurn_seen prompt limits startedAt turn progress next).1
    rw [stops.events] at seen
    exact turn_converses (s := s.next) seen
  | Done admitted played =>
    have seen := (oneTurn_seen prompt limits startedAt turn progress next).1
    rw [played.events] at seen
    exact turn_converses (s := s.next) seen

end

section
open Faultless Reference ReferenceTurn

end

end AegisNode.Conversation
