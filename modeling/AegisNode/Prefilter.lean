import AegisNode.Conversation
import AegisNode.Nesting

/-!
What the pre-filter sees of a result: it reads the JSON text of it, in which strings stand
between quotes and with escapes. A flagged run of a string that is written as it stands,
and that nothing but a quote or a backslash comes before, is flagged in that text too.
-/
namespace AegisNode.Prefilter
open Bytes Clock Text Regex Json JsonText Adversarial Schema Policy Traced Engine Mediator Turn TurnLoop Chronicle TurnTrace Conversation
open Backend hiding ToolCall
open Ledger hiding Error
set_option linter.unusedSectionVars false

/-! ### Strings of a value -/

/-- The string is a leaf of the value, or a key in it. -/
inductive Holds : Value → String → Prop where
  | Leaf (s : String) : Holds (.String s) s
  | Item {items : List Value} {item : Value} {s : String} (member : item ∈ items) (holds : Holds item s) : Holds (.Array items) s
  | Field {fields : Map} {key : String} {value : Value} {s : String} (member : (key,value) ∈ fields) (holds : Holds value s) :
      Holds (.Object fields) s
  | Key {fields : Map} {key : String} {value : Value} (member : (key,value) ∈ fields) : Holds (.Object fields) key

/-- The serializer writes strings between quotes, each character with its escape. -/
def Quotes (serde : Serde) : Prop := ∀ v s,Holds v s → quoted s <:+: (serde.toString v).toList

theorem items_written {items : List Value} {item : Value} (member : item ∈ items) : write item <:+: writeItems items := by
  induction items with
  | nil => cases member
  | cons first rest ih =>
    rw [writeItems]
    rcases List.mem_cons.mp member with rfl | later
    · exact ⟨[','],writeItems rest,rfl⟩
    · exact (ih later).trans (List.suffix_append _ _).isInfix

theorem fields_written {fields : Map} {key : String} {value : Value} (member : (key,value) ∈ fields) :
    quoted key ++ ':' :: write value <:+: writeFields fields := by
  induction fields with
  | nil => cases member
  | cons first rest ih =>
    obtain ⟨name,other⟩ := first
    rw [writeFields]
    rcases List.mem_cons.mp member with same | later
    · cases same
      exact ⟨[','],writeFields rest,by simp⟩
    · exact (ih later).trans (List.suffix_append _ _).isInfix

theorem item_written {items : List Value} {item : Value} (member : item ∈ items) : write item <:+: write (.Array items) := by
  cases items with
  | nil => cases member
  | cons first rest =>
    rw [write]
    rcases List.mem_cons.mp member with rfl | later
    · exact ⟨['['],writeItems rest,rfl⟩
    · exact (items_written later).trans (List.suffix_append _ _).isInfix

theorem field_written {fields : Map} {key : String} {value : Value} (member : (key,value) ∈ fields) :
    quoted key ++ ':' :: write value <:+: write (.Object fields) := by
  cases fields with
  | nil => cases member
  | cons first rest =>
    obtain ⟨name,other⟩ := first
    rw [write]
    rcases List.mem_cons.mp member with same | later
    · cases same
      exact ⟨['\x7b'],writeFields rest,by simp⟩
    · exact (fields_written later).trans (List.suffix_append _ _).isInfix

theorem serde_quotes : Quotes serde := by
  intro v s holds
  change quoted s <:+: (String.ofList (write v)).toList
  rw [String.toList_ofList]
  induction holds with
  | Leaf s => exact List.infix_rfl
  | Item member holds ih => exact ih.trans (item_written member)
  | @Field fields key value s member holds ih =>
    have value : write value <:+: quoted key ++ ':' :: write value := ⟨quoted key ++ [':'],[],by simp⟩
    exact ih.trans (value.trans (field_written member))
  | @Key fields key value member => exact (List.prefix_append _ _).isInfix.trans (field_written member)

/-! ### Runs of characters -/

/-- The two characters that a run is written between. -/
def encloses (c : Char) : Prop := c = '"' ∨ c = '\\'

/-- Part of a string that is written as it stands, up to the next escape or the end, and
    comes first or after a quote or a backslash. -/
def IsPiece (text piece : List Char) : Prop := ∃ front back,text = front ++ piece ++ back ∧ (∀ c ∈ piece,escape c = [c]) ∧
  (∀ c,front.getLast? = some c → encloses c) ∧ ∀ c,back.head? = some c → escape c ≠ [c]

theorem escape_slash {c : Char} (escaped : escape c ≠ [c]) : ∃ rest,escape c = '\\' :: rest := by
  unfold escape at escaped ⊢
  split_ifs at escaped ⊢ <;> first | exact ⟨_,rfl⟩ | exact absurd rfl escaped

theorem written_plain {piece : List Char} (plain : ∀ c ∈ piece,escape c = [c]) : piece.flatMap escape = piece := by
  induction piece with
  | nil => rfl
  | cons c rest ih =>
    rw [List.flatMap_cons,plain c List.mem_cons_self,ih fun d member => plain d (List.mem_cons_of_mem c member)]
    rfl

theorem written_front {front : List Char} (last : ∀ c,front.getLast? = some c → encloses c) :
    ∃ left q,encloses q ∧ '"' :: front.flatMap escape = left ++ [q] := by
  rcases List.eq_nil_or_concat front with rfl | ⟨before,c,rfl⟩
  · exact ⟨[],'"',.inl rfl,rfl⟩
  · have enclosing := last c (by simp)
    have written : escape c = ['\\',c] := by
      rw [escape]
      exact if_pos enclosing
    refine ⟨'"' :: before.flatMap escape ++ ['\\'],c,enclosing,?_⟩
    rw [List.concat_eq_append,List.flatMap_append,List.flatMap_singleton,written]
    simp

theorem written_back {back : List Char} (first : ∀ c,back.head? = some c → escape c ≠ [c]) :
    ∃ q right,encloses q ∧ back.flatMap escape ++ ['"'] = q :: right := by
  cases back with
  | nil => exact ⟨'"',[],.inl rfl,rfl⟩
  | cons c rest =>
    obtain ⟨more,written⟩ := escape_slash (first c rfl)
    exact ⟨'\\',more ++ rest.flatMap escape ++ ['"'],.inr rfl,by simp [written]⟩

/-- Such a run stands in the JSON text between characters that belong to no word. -/
theorem quoted_piece {s : String} {piece : List Char} (isPiece : IsPiece s.toList piece) :
    ∃ left q r right,encloses q ∧ encloses r ∧ quoted s = left ++ q :: (piece ++ r :: right) := by
  obtain ⟨front,back,whole,plain,last,first⟩ := isPiece
  obtain ⟨left,q,opens,before⟩ := written_front last
  obtain ⟨r,right,closes,after⟩ := written_back first
  refine ⟨left,q,r,right,opens,closes,?_⟩
  have text : quoted s = '"' :: front.flatMap escape ++ piece ++ (back.flatMap escape ++ ['"']) := by
    rw [quoted,whole,List.flatMap_append,List.flatMap_append,written_plain plain]
    simp
  rw [text,before,after]
  simp

/-! ### The verdict on a result -/

section
variable [PerlWord]

/-- Neither of the two is part of a word. -/
structure PlainMarks : Prop where
  quote : PerlWord.isWord '"' = false
  backslash : PerlWord.isWord '\\' = false

theorem PlainMarks.outside (marks : PlainMarks) {c : Char} (enclosing : encloses c) : PerlWord.isWord c = false := by
  rcases enclosing with rfl | rfl
  · exact marks.quote
  · exact marks.backslash

/-- A run of some string of the result is flagged when it is read on its own. -/
def Exposes (result : ToolCallResult) : Prop := ∃ s,Holds (toolCallResultToValue result) s ∧
  ∃ piece,IsPiece s.toList piece ∧ ∀ origin,(classify (encode (String.ofList piece)) origin).flagged = true

/-- A leaf that needs no escapes exposes what it says. -/
theorem exposes_leaf {v : Value} {s : String} (holds : Holds v s) (plain : ∀ c ∈ s.toList,escape c = [c])
    (flagged : ∀ origin,(classify (encode s) origin).flagged = true) : Exposes (.Success v) := by
  refine ⟨s,?_,s.toList,⟨[],[],by simp,plain,by simp,by simp⟩,by simpa using flagged⟩
  rw [Nesting.success_value]
  have field : ("value",v) ∈ [("status",Value.String "success"),("value",v)] := by simp
  exact .Field field holds

variable [writer : Serde]

/-- The pre-filter flags every result that exposes something. -/
theorem exposed_flagged (quotes : Quotes writer) (marks : PlainMarks) {result : ToolCallResult} (exposes : Exposes result) (origin : ToolOrigin) :
    (classify (encode (Serde.toString (toolCallResultToValue result))) origin).flagged = true := by
  obtain ⟨s,holds,piece,isPiece,flagged⟩ := exposes
  obtain ⟨left,q,r,right,opens,closes,written⟩ := quoted_piece isPiece
  obtain ⟨front,back,whole⟩ := quotes _ _ holds
  have alone := flagged origin
  rw [classify_flagged,List.any_eq_true] at alone ⊢
  obtain ⟨entry,member,found⟩ := alone
  rw [String.toList_ofList] at found
  refine ⟨entry,member,?_⟩
  have inside := isMatch_inside (marks.outside opens) (marks.outside closes) (front ++ left) (right ++ back) found
  have text : (Serde.toString (toolCallResultToValue result)).toList = front ++ left ++ q :: (piece ++ r :: (right ++ back)) := by
    rw [← whole,written]
    simp
  rw [text]
  exact inside

end

/-! ### Runs -/

section
variable [Chrono] [writer : Serde] [Sha256] [World] [Identity] [PerlWord]

/-- What a turn leaves of a call whose result exposes something: a violation in the ledger,
    and the wrapped text as the message that carries it. -/
def Wrapped (classifier : AdversarialClassifier) (seen : List Sight) (call : Backend.ToolCall) (result : ToolCallResult) : Prop :=
  ∃ verdict,verdict.flagged = true ∧
    (∃ sight ∈ seen,Entered .Violation (adversarialFields verdict classifier.name (originOf call.name)) sight) ∧
    carried classifier call result =
      ⟨.Tool,wrapFlagged (encode (toolBody (answeredWith call result))) verdict (originOf call.name) classifier.name⟩

/-- The messages that a turn leaves. -/
def handedOn (classifier : AdversarialClassifier) (messages : List ChatMessage) (response : InferResponse)
    (results : List ToolCallResult) : List ChatMessage :=
  messages ++ said response.assistantText ++ List.zipWith (carried classifier) response.toolCalls results

/-- From these messages on: the model is asked with nothing else, and each turn that is gone
    through hands on the results of its calls, with those wrapped that expose something. -/
inductive Screens (classifier : AdversarialClassifier) (prompt : String) : List ChatMessage → List Sight → Prop where
  | Last {messages : List ChatMessage} {seen : List Sight}
      (asked : ∀ request answer,.Asked request answer ∈ seen → request.messages = messages) : Screens classifier prompt messages seen
  | Turn {messages : List ChatMessage} {s : Session} {turn : Nat} {response : InferResponse} {results : List ToolCallResult}
      {outcome : TurnOutcome} {first rest : List Sight} (completed : Completed s prompt turn messages response results outcome first)
      (asked : ∀ request answer,.Asked request answer ∈ first → request.messages = messages)
      (wrapped : ∀ call result,(call,result) ∈ response.toolCalls.zip results → Exposes result → Wrapped classifier first call result)
      (later : Screens classifier prompt (handedOn classifier messages response results) rest) :
      Screens classifier prompt messages (first ++ rest)

theorem entered_unasked {entryType : EntryType} {fields : List (String × Scalar)} {sight : Sight}
    (entered : Entered entryType fields sight) (request : InferRequest) (answer : Except BackendError InferResponse) :
    sight ≠ .Asked request answer := by
  obtain ⟨entry,rfl,-⟩ := entered
  exact Sight.noConfusion

/-- Only the turn's own question stands among its sights. -/
theorem calls_unasked {stepId : String} {turn callIndex : Nat} {calls : List Backend.ToolCall} {results : List ToolCallResult}
    {seen : List Sight} (called : CallsSeen stepId turn callIndex calls results seen) (request : InferRequest)
    (answer : Except BackendError InferResponse) : .Asked request answer ∉ seen := by
  induction called with
  | Ended => exact List.not_mem_nil
  | Broken opens mediated =>
    intro member
    rcases List.mem_cons.mp member with same | within
    · exact entered_unasked opens request answer same.symm
    · obtain ⟨about,entryType,fields,-,entered⟩ := mediated _ within
      exact entered_unasked entered request answer rfl
  | Paired opens mediated closes others ih =>
    intro member
    rcases List.mem_append.mp member with front | back
    · rcases List.mem_cons.mp front with same | within
      · exact entered_unasked opens request answer same.symm
      · obtain ⟨about,entryType,fields,-,entered⟩ := mediated _ within
        exact entered_unasked entered request answer rfl
    · rcases List.mem_cons.mp back with same | later
      · exact entered_unasked closes request answer same.symm
      · exact ih later

theorem answer_asked {asked request : InferRequest} {prompt : String} {turn : Nat} {seen : List Sight}
    {answer : Except BackendError InferResponse} (answers : AnswerSeen asked prompt turn seen) (member : .Asked request answer ∈ seen) :
    request = asked := by
  cases answers with
  | Unasked => cases member
  | Failed error =>
    cases List.mem_singleton.mp member
    rfl
  | Unreasoned response =>
    cases List.mem_singleton.mp member
    rfl
  | Dispatched dispatched =>
    rcases List.mem_cons.mp member with same | later
    · cases same
      rfl
    · rcases List.mem_cons.mp later with same | within
      · exact absurd same.symm (entered_unasked dispatched.reasons request answer)
      · exact absurd within (calls_unasked dispatched.called request answer)

theorem flags_unasked {classifierName : String} {flagged : List Judged} {seen : List Sight}
    (flagging : FlagsSeen classifierName flagged seen) (request : InferRequest) (answer : Except BackendError InferResponse) :
    .Asked request answer ∉ seen := by
  intro member
  induction flagging with
  | nil => cases member
  | cons entered others ih =>
    rcases List.mem_cons.mp member with same | later
    · exact entered_unasked entered request answer same.symm
    · exact ih later

theorem opens_asked {s : Session} {turn : Nat} {messages : List ChatMessage} {issued opening : Sight} {rest : List Sight}
    {request : InferRequest} {answer : Except BackendError InferResponse} (opens : Opens s turn messages issued opening)
    (member : .Asked request answer ∈ issued :: opening :: rest) : .Asked request answer ∈ rest := by
  obtain ⟨live,svid,rfl⟩ := opens.issues
  obtain ⟨thumbprint,entered⟩ := opens.opens
  rcases List.mem_cons.mp member with same | later
  · cases same
  · rcases List.mem_cons.mp later with same | within
    · exact absurd same.symm (entered_unasked entered request answer)
    · exact within

theorem answered_asked {asked request : InferRequest} {prompt : String} {turn : Nat} {response : InferResponse}
    {results : List ToolCallResult} {outcome : TurnOutcome} {seen : List Sight} {answer : Except BackendError InferResponse}
    (answered : Answered asked prompt turn response results outcome seen) (member : .Asked request answer ∈ seen) : request = asked := by
  obtain ⟨stepUuid,reasoned,called,dispatched,rfl⟩ := answered.parts
  exact answer_asked (.Dispatched dispatched) member

/-- A turn asks with the messages it was given, however far it comes. -/
theorem turn_asked {s : Session} {prompt : String} {turn : Nat} {messages : List ChatMessage} {seen : List Sight}
    (turnSeen : TurnSeen s prompt turn messages seen) {request : InferRequest} {answer : Except BackendError InferResponse}
    (member : .Asked request answer ∈ seen) : request.messages = messages := by
  suffices same : request = requestOf messages s by rw [same,requestOf]
  cases turnSeen with
  | Unissued => cases member
  | Unopened live svid => cases List.mem_singleton.mp member
  | Opened opens answers => exact answer_asked answers (opens_asked opens member)
  | Answered opens answered flagging =>
    rcases List.mem_append.mp (opens_asked opens member) with front | back
    · exact answered_asked answered front
    · exact absurd back (flags_unasked flagging request answer)
  | Closed opens answered flagging closes =>
    rcases List.mem_append.mp (opens_asked opens member) with front | back
    · rcases List.mem_append.mp front with first | flags
      · exact answered_asked answered first
      · exact absurd flags (flags_unasked flagging request answer)
    · cases List.mem_singleton.mp back
      exact absurd rfl (entered_unasked closes request answer)

theorem completed_seen {s : Session} {prompt : String} {turn : Nat} {messages : List ChatMessage} {response : InferResponse}
    {results : List ToolCallResult} {outcome : TurnOutcome} {seen : List Sight}
    (completed : Completed s prompt turn messages response results outcome seen) : TurnSeen s prompt turn messages seen := by
  obtain ⟨issued,opening,closing,answer,flags,tokens,ms,taken,opens,answered,flagging,closes,rfl⟩ := completed.whole
  exact .Closed opens answered flagging closes

theorem flags_violation {classifierName : String} {flagged : List Judged} {seen : List Sight} (flagging : FlagsSeen classifierName flagged seen)
    {judged : Judged} (member : judged ∈ flagged) :
    ∃ sight ∈ seen,Entered .Violation (adversarialFields judged.verdict classifierName judged.origin) sight := by
  induction flagging with
  | nil => cases member
  | cons entered others ih =>
    rcases List.mem_cons.mp member with rfl | later
    · exact ⟨_,List.mem_cons_self,entered⟩
    · obtain ⟨sight,among,violates⟩ := ih later
      exact ⟨sight,List.mem_cons_of_mem _ among,violates⟩

/-- Each flagged result has its violation among the sights of a turn that is gone through. -/
theorem completed_wrapped (quotes : Quotes writer) (marks : PlainMarks) {s : Session} (standard : s.adversarialClassifier = defaultClassifier)
    {prompt : String} {turn : Nat} {messages : List ChatMessage} {response : InferResponse} {results : List ToolCallResult}
    {outcome : TurnOutcome} {seen : List Sight} (completed : Completed s prompt turn messages response results outcome seen)
    {call : Backend.ToolCall} {result : ToolCallResult} (among : (call,result) ∈ response.toolCalls.zip results)
    (exposes : Exposes result) : Wrapped defaultClassifier seen call result := by
  obtain ⟨issued,opening,closing,answer,flags,tokens,ms,taken,opens,answered,flagging,closes,rfl⟩ := completed.whole
  rw [standard] at flagging
  have flagged := exposed_flagged quotes marks exposes (originOf call.name)
  have given : answeredWith call result ∈ outcome.toolCalls := by
    rw [answered.calls,← List.map_uncurry_zip_eq_zipWith]
    exact List.mem_map.mpr ⟨(call,result),among,rfl⟩
  have judged : judge defaultClassifier (answeredWith call result) ∈ flaggedOf (judgedOf s outcome) := by
    rw [flaggedOf,List.mem_filter,judgedOf,standard]
    exact ⟨List.mem_map_of_mem given,flagged⟩
  obtain ⟨sight,member,entered⟩ := flags_violation flagging judged
  refine ⟨_,flagged,⟨sight,by simp [member],entered⟩,?_⟩
  exact congrArg (ChatMessage.mk .Tool) (if_pos flagged)

variable {prompt : String} {limits : TurnLimits} {startedAt : Nat}

/-- The turns that were played screen their results, whatever comes after them. -/
theorem plays_screens (quotes : Quotes writer) (marks : PlainMarks) {turn turn' : Nat} {progress progress' : Progress} {s t : Session}
    {events : List Event} {rest : List Sight} (plays : Plays prompt limits startedAt true turn progress s events turn' progress' t)
    (version : s.ledger.schemaVersion = .V2) (standard : s.adversarialClassifier = defaultClassifier)
    (later : Screens defaultClassifier prompt progress'.messages rest) :
    Screens defaultClassifier prompt progress.messages (sights events ++ rest) := by
  induction plays with
  | Here => exact later
  | @Turn turn turn' progress grown progress' s m t left right admitted played others ih =>
    have next : s.next.ledger.schemaVersion = .V2 := version
    obtain ⟨seen,returns⟩ := oneTurn_seen prompt limits startedAt turn progress next
    obtain ⟨-,response,results,outcome,completed,rfl,-⟩ := returns _ _ played.result
    rw [played.events] at completed
    have stays := played.respects (stays_made (made_oneTurn prompt limits startedAt true turn progress))
    have classifier : m.adversarialClassifier = defaultClassifier := by
      rw [stays]
      exact standard
    have v2 := (played.respects (chronicles_made (made_oneTurn prompt limits startedAt true turn progress))).version.trans next
    obtain ⟨issued,opening,closing,answer,flags,tokens,ms,taken,opens,answered,-,-,-⟩ := completed.whole
    have grown := ih v2 classifier later
    rw [judgedOf,grown_messages answered.text answered.calls] at grown
    have same : s.next.adversarialClassifier = defaultClassifier := standard
    rw [same] at grown
    rw [sights_append,List.append_assoc]
    exact .Turn completed (fun request answer => turn_asked (completed_seen completed)) (fun call result among => completed_wrapped quotes marks same completed among) grown

/-- After them at most one turn asks, with the messages that they handed on. -/
theorem ends_asked {turn left : Nat} {progress : Progress} {s : Session} {last : Outcome Session Stop Event SessionRunResult}
    (ends : LoopEnds prompt limits startedAt true turn progress s left last) (version : s.ledger.schemaVersion = .V2)
    {request : InferRequest} {answer : Except BackendError InferResponse} (member : .Asked request answer ∈ sights last.events) :
    request.messages = progress.messages := by
  have next : s.next.ledger.schemaVersion = .V2 := version
  have capped : ∀ (bound : TurnCapKind) (atTurn : Nat),.Asked request answer ∉
      sights (emitCapAndBuildErr bound atTurn limits progress.tokensConsumed (World.instant s.tick-startedAt) s.next :
        Outcome Session Stop Event SessionRunResult).events := by
    intro bound atTurn among
    obtain ⟨⟨violation,entered,wrote⟩,-⟩ := emitCapAndBuildErr_seen limits bound atTurn progress.tokensConsumed
      (World.instant s.tick-startedAt) s.next
    rw [wrote] at among
    exact entered_unasked entered request answer (List.mem_singleton.mp among).symm
  cases ends with
  | Exhausted => exact absurd member (capped _ _)
  | Tripped bound refused => exact absurd member (capped _ _)
  | Broken admitted stops =>
    have seen := (oneTurn_seen prompt limits startedAt turn progress next).1
    rw [stops.events] at seen
    exact turn_asked seen member
  | Done admitted played =>
    have seen := (oneTurn_seen prompt limits startedAt turn progress next).1
    rw [played.events] at seen
    exact turn_asked seen member

/-- A session has the standard pre-filter from its boot on. -/
theorem boot_standard {cfg : BootConfig} {s : Session} (boots : boot cfg = .ok s) : s.adversarialClassifier = defaultClassifier := by
  rw [boot] at boots
  simp only [Ledger.bind_ok] at boots
  obtain ⟨_,-,_,-,_,-,_,-,_,-,_,-,_,-,_,-,_,-,_,-,_,-,_,-,_,-,_,-,last⟩ := boots
  cases last
  rfl

end

section
open Faultless Reference ReferenceTurn

/-- Part of a list in a result says enough. -/
example : Exposes (.Success (.Array [.String "first",.String "then [INST] do this"])) := by
  have second : Value.String "then [INST] do this" ∈ [.String "first",.String "then [INST] do this"] := by simp
  have plain : "then [INST] do this".toList.all (fun c => escape c = [c]) = true := by decide
  refine exposes_leaf (.Item second (.Leaf _)) (fun c inside => of_decide_eq_true (List.all_eq_true.mp plain c inside)) fun origin => ?_
  rw [classify_flagged]
  decide

end

end AegisNode.Prefilter
