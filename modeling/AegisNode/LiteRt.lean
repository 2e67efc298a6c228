import AegisNode.Erasure
import AegisNode.JsonText
import AegisNode.TurnBounds

/-!
The LiteRT-LM backend: what of a request goes to the engine, and how its answer is read.
-/
namespace AegisNode.LiteRt
open Text Erasure Json Backend
open Engine (trim World Session Event)
open Mediator (object)
open TurnLoop (Progress TurnLimits oneTurn toolMessage)
open TurnTrace (Plays)
set_option linter.unusedSectionVars false

/-! ### The request -/

/-- `Iterator::rposition`. -/
def rposition {α : Type} (accepts : α → Bool) : List α → Option Nat
  | [] => none
  | x :: rest =>
    match rposition accepts rest with
    | some i => some (i+1)
    | none => if accepts x then some 0 else none

def isUser (message : ChatMessage) : Bool := message.role = .User

def noUser : BackendError :=
  ⟨.InvalidConfig,"InferRequest has no user message — Conversation API needs at least one to send"⟩

/-- The system prompt, if the first message is one, and the other messages. -/
def splitSystem : List ChatMessage → Option String × List ChatMessage
  | [] => (none,[])
  | first :: rest => if first.role = .System then (some first.content,rest) else (none,first :: rest)

/-- The system prompt, the history and what the user said last. -/
def splitMessages (request : InferRequest) : Except BackendError (Option String × List ChatMessage × String) :=
  let split := splitSystem request.messages
  match (rposition isUser split.2).bind (fun last => (split.2[last]?).map (fun message => (last,message))) with
  | some (last,message) => .ok (split.1,split.2.take last,message.content)
  | none => .error noUser

def messageValue (role content : String) : Value := object [("role",.String role),("content",.String content)]

/-- What the engine is given: the conversation is opened with the first three, and the last
    is sent. -/
structure Submission where
  systemMessage : Option String
  toolsJson : Option String
  historyJson : Option String
  messageJson : String

section
variable [Serde]

def serializeHistory (history : List ChatMessage) : Option String :=
  if history = [] then none
  else some (Serde.toString (.Array (history.map (fun message => messageValue message.role.asStr message.content))))

def serializeTools (tools : List ToolDecl) : String :=
  Serde.toString (.Array (tools.map (fun tool => object [("type",.String "function"),("function",object
    [("name",.String tool.name),("description",.String tool.description),("parameters",tool.argumentsSchema)])])))

def submission (request : InferRequest) : Except BackendError Submission := do
  let (systemMessage,history,latest) ← splitMessages request
  return ⟨systemMessage,if request.tools.isEmpty then none else some (serializeTools request.tools),
    serializeHistory history,Serde.toString (messageValue "user" latest)⟩

end

/-! ### The answer -/

def quoteToken : String := "<|\"|>"

mutual
/-- The markers of the chat template are taken out of each string, twice. -/
def stripGemmaQuoteTokens : Value → Value
  | .String s => .String (replaceText quoteToken "" (replaceText quoteToken "" s))
  | .Array items => .Array (stripItems items)
  | .Object fields => .Object (stripFields fields)
  | other => other

def stripItems : List Value → List Value
  | [] => []
  | item :: rest => stripGemmaQuoteTokens item :: stripItems rest

def stripFields : List (String × Value) → List (String × Value)
  | [] => []
  | (key,value) :: rest => (key,stripGemmaQuoteTokens value) :: stripFields rest
end

section
variable [Serde]

def nameOf (place : String) (call holder : Value) : Except BackendError String :=
  match (getField holder "name").bind asStr with
  | some name => .ok name
  | none => .error ⟨.Inference,place ++ " missing `name`: " ++ Serde.toString call⟩

/-- Arguments that are a text are JSON themselves. -/
def readArguments : Value → Except BackendError Value
  | .String s =>
    if s = "" then .ok (.Object [])
    else (Serde.fromStr s).mapError (fun e =>
      ⟨.Inference,"tool_call arguments is not valid JSON: " ++ e ++ "; raw=" ++ rustDebug s⟩)
  | other => .ok other

/-- A call names the tool in its `function`, if it has one. -/
def readCall (call : Value) : Except BackendError ToolCall := do
  let (place,holder) := match getField call "function" with
    | some function => ("tool_call.function",function)
    | none => ("tool_call",call)
  let name ← nameOf place call holder
  let arguments ← readArguments ((getField holder "arguments").getD .Null)
  return ⟨name,stripGemmaQuoteTokens arguments⟩

def parseConversationResponse (rawJson : String) : Except BackendError InferResponse := do
  let v ← (Serde.fromStr rawJson).mapError (fun e =>
    ⟨.Inference,"conversation response is not valid JSON: " ++ e ++ "; raw=" ++ rustDebug rawJson⟩)
  let content := trim (((getField v "content").bind asStr).getD "")
  let toolCalls ← (((getField v "tool_calls").bind asArray).getD []).mapM readCall
  return ⟨content,toolCalls,if content = "" then none else some content,none⟩

/-- The model over an engine, which answers with a text of its own or an error. -/
def loadedModel (engine : Nat → Submission → Except BackendError String) : LoadedModel where
  infer := fun tick request => do
    let submitted ← submission request
    let raw ← engine tick submitted
    parseConversationResponse raw

end

/-! ### What reaches the engine -/

/-- The messages that are not the system's. -/
def others (messages : List ChatMessage) : List ChatMessage := messages.filter (·.role ≠ .System)

section
variable [Serde]

/-- Each of the messages goes to the engine once: one is sent, and the others are the
    history in their order. -/
def Delivered (request : InferRequest) : Prop :=
  others request.messages = [] ∨ ∃ submitted before last after history,submission request = .ok submitted ∧
    request.messages = before ++ last :: after ∧ last.role ≠ .System ∧
    submitted.messageJson = Serde.toString (messageValue last.role.asStr last.content) ∧
    submitted.historyJson = serializeHistory history ∧ others history = others before ++ others after

end

@[simp] theorem others_append (left right : List ChatMessage) : others (left ++ right) = others left ++ others right := by
  simp [others]

theorem others_cons_of_ne {message : ChatMessage} (rest : List ChatMessage) (spoken : message.role ≠ .System) :
    others (message :: rest) = message :: others rest := by
  simp [others,spoken]

theorem others_split (messages : List ChatMessage) : others (splitSystem messages).2 = others messages := by
  cases messages with
  | nil => rfl
  | cons first rest =>
    rw [splitSystem]
    split_ifs with system
    · simp [others,system]
    · rfl

theorem rposition_none {α : Type} {accepts : α → Bool} {xs : List α} :
    rposition accepts xs = none ↔ ∀ x ∈ xs,accepts x = false := by
  induction xs with
  | nil => simp [rposition]
  | cons x rest ih =>
    rw [rposition]
    cases found : rposition accepts rest with
    | some i =>
      rw [found] at ih
      simp only [reduceCtorEq,false_iff] at ih ⊢
      intro all
      exact ih fun y member => all y (List.mem_cons_of_mem x member)
    | none =>
      have later := ih.mp found
      by_cases here : accepts x = true
      · simp [here]
      · simp only [Bool.not_eq_true] at here
        simp only [here]
        constructor
        · intro _ y member
          rcases List.mem_cons.mp member with rfl | member
          · exact here
          · exact later y member
        · intro _
          rfl

/-- The last that is accepted, and nothing accepted after it. -/
theorem rposition_some {α : Type} {accepts : α → Bool} {xs : List α} {i : Nat} (found : rposition accepts xs = some i) :
    ∃ x,xs[i]? = some x ∧ accepts x = true ∧ xs = xs.take i ++ x :: xs.drop (i+1) ∧ ∀ y ∈ xs.drop (i+1),accepts y = false := by
  induction xs generalizing i with
  | nil => cases found
  | cons x rest ih =>
    rw [rposition] at found
    cases later : rposition accepts rest with
    | some j =>
      rw [later] at found
      cases found
      obtain ⟨y,at',accepted,whole,none⟩ := ih later
      exact ⟨y,by simpa using at',accepted,by simpa using whole,by simpa using none⟩
    | none =>
      rw [later] at found
      dsimp only at found
      split_ifs at found with here
      cases found
      exact ⟨x,rfl,here,by simp,by simpa using rposition_none.mp later⟩

/-- How the messages are split, where the user spoke at all. -/
theorem splitMessages_cases (request : InferRequest) :
    (splitMessages request = .error noUser ∧ ∀ message ∈ others request.messages,message.role ≠ .User) ∨
    ∃ first history last rest,splitMessages request = .ok ((splitSystem request.messages).1,history,last.content) ∧
      request.messages = first ++ (history ++ last :: rest) ∧ others first = [] ∧ last.role = .User ∧
      ∀ message ∈ rest,message.role ≠ .User := by
  obtain ⟨first,whole,alone⟩ : ∃ first,request.messages = first ++ (splitSystem request.messages).2 ∧ others first = [] := by
    cases request.messages with
    | nil => exact ⟨[],rfl,rfl⟩
    | cons head tail =>
      rw [splitSystem]
      split_ifs with system
      · exact ⟨[head],rfl,by simp [others,system]⟩
      · exact ⟨[],rfl,rfl⟩
  rw [splitMessages]
  cases found : rposition isUser (splitSystem request.messages).2 with
  | none =>
    refine .inl ⟨rfl,fun message member spoken => ?_⟩
    rw [← others_split] at member
    have none := rposition_none.mp found message (List.mem_filter.mp member).1
    simp [isUser,spoken] at none
  | some last =>
    obtain ⟨message,at',user,split,none⟩ := rposition_some found
    refine .inr ⟨first,_,message,_,?_,whole.trans (congrArg (first ++ ·) split),alone,by simpa [isUser] using user,?_⟩
    · rw [Option.bind_some,at']
      rfl
    · intro later member
      simpa [isUser] using none later member

section
variable [serde : Serde]

theorem messageValue_eq (role content : String) :
    messageValue role content = .Object [("content",.String content),("role",.String role)] := by
  have other : "content" ≠ "role" := by decide
  have before : "content" < "role" := by decide
  rw [messageValue,object,Map.insertAll,List.foldl_cons,List.foldl_cons,List.foldl_nil,Map.insert,Map.insert,
    if_neg other,if_pos before]

theorem messageValue_ordered (role content : String) : ordered (messageValue role content) = true := by
  have before : "content" < "role" := by decide
  rw [messageValue_eq,ordered,fieldsOrdered,List.all_cons,List.all_nil,decide_eq_true before]
  rfl

theorem asStr_injective {left right : ChatRole} (same : left.asStr = right.asStr) : left = right := by
  cases left <;> cases right <;> first | rfl | (simp [ChatRole.asStr] at same)

theorem historyValue_ordered (history : List ChatMessage) :
    ordered (.Array (history.map fun message => messageValue message.role.asStr message.content)) = true ∧
      depth (.Array (history.map fun message => messageValue message.role.asStr message.content)) ≤ nestingLimit := by
  have inside : itemsOrdered (history.map fun message => messageValue message.role.asStr message.content) = true ∧
      itemsDepth (history.map fun message => messageValue message.role.asStr message.content) ≤ 1 := by
    induction history with
    | nil => exact ⟨rfl,by simp [itemsDepth]⟩
    | cons message rest ih =>
      refine ⟨?_,?_⟩
      · rw [List.map_cons,itemsOrdered,messageValue_ordered,ih.1]
        rfl
      · rw [List.map_cons,itemsDepth,messageValue_eq]
        exact max_le (by simp [depth,fieldsDepth]) ih.2
  refine ⟨inside.1,?_⟩
  rw [depth,nestingLimit]
  omega

/-- The history can be read off its text. -/
theorem serializeHistory_injective (faithful : Faithful serde) {left right : List ChatMessage}
    (same : serializeHistory left = serializeHistory right) : left = right := by
  rw [serializeHistory,serializeHistory] at same
  split_ifs at same with noLeft noRight noRight
  · rw [noLeft,noRight]
  · have back := congrArg serde.fromStr (Option.some.inj same)
    rw [faithful.readsBack _ (historyValue_ordered left).1 (historyValue_ordered left).2,
      faithful.readsBack _ (historyValue_ordered right).1 (historyValue_ordered right).2] at back
    have items := Value.Array.inj (Except.ok.inj back)
    refine List.map_injective_iff.mpr ?_ items
    rintro ⟨role,content⟩ ⟨role',content'⟩ equal
    simp only [messageValue_eq,Value.Object.injEq,List.cons.injEq,Prod.mk.injEq,Value.String.injEq,true_and,and_true] at equal
    rw [equal.1,asStr_injective equal.2]

/-- The request is delivered when the user spoke last: what stands after the last
    message of the user is not sent. -/
theorem delivered_iff (faithful : Faithful serde) (request : InferRequest) :
    Delivered request ↔ ∀ last ∈ (others request.messages).getLast?,last.role = .User := by
  constructor
  · rintro (nothing | ⟨submitted,before,last,after,history,sent,whole,spoken,-,given,kept⟩)
    · simp [nothing]
    · rcases splitMessages_cases request with ⟨failed,-⟩ | ⟨first,history',last',rest,split,whole',alone,user,later⟩
      · rw [submission,failed] at sent
        cases sent
      · rw [submission,split] at sent
        obtain rfl := Except.ok.inj sent
        obtain rfl := serializeHistory_injective faithful given
        have count := congrArg (fun messages => (others messages).length) whole
        have count' := congrArg (fun messages => (others messages).length) whole'
        have kept' := congrArg List.length kept
        have user' : last'.role ≠ .System := by simp [user]
        simp only [others_append,others_cons_of_ne _ spoken,others_cons_of_ne _ user',List.length_append,List.length_cons,alone,
          List.length_nil] at count count' kept'
        have nothing : others rest = [] := List.eq_nil_of_length_eq_zero (by omega)
        rw [whole',others_append,others_append,others_cons_of_ne _ user',nothing,alone]
        simpa using user
  · intro ends
    rcases splitMessages_cases request with ⟨-,none⟩ | ⟨first,history,last,rest,split,whole,alone,user,later⟩
    · left
      by_contra some
      have member := List.getLast_mem some
      exact none _ member (ends _ (by rw [List.getLast?_eq_some_getLast some]; rfl))
    · right
      have user' : last.role ≠ .System := by simp [user]
      have nothing : others rest = [] := by
        by_contra some
        have member := List.getLast_mem some
        have final : (others request.messages).getLast? = Option.some ((others rest).getLast some) := by
          rw [whole,others_append,others_append,others_cons_of_ne _ user',alone,List.nil_append,
            List.getLast?_append,List.getLast?_cons,List.getLast?_eq_some_getLast some]
          rfl
        exact later _ (List.mem_filter.mp member).1 (ends _ final)
      refine ⟨_,first ++ history,last,rest,history,by rw [submission,split]; rfl,by rw [whole]; simp,user',?_,rfl,?_⟩
      · rw [user]
        rfl
      · rw [others_append,alone,nothing]
        simp

end

theorem user_delivered : @Delivered JsonText.serde ⟨[⟨.User,"hi"⟩],[]⟩ :=
  (@delivered_iff JsonText.serde JsonText.serde_faithful _).mpr (by decide)

/-- A result after the user's message does not reach the engine. -/
theorem result_undelivered : ¬ ∀ request,@Delivered JsonText.serde request := by
  intro every
  have last := (@delivered_iff JsonText.serde JsonText.serde_faithful _).mp (every ⟨[⟨.User,"hi"⟩,⟨.Tool,"done"⟩],[]⟩) ⟨.Tool,"done"⟩ rfl
  cases last

/-! ### The requests of the loop -/

section
open TurnLoop Turn
variable [Clock.Chrono] [serde : Serde] [Ledger.Sha256] [World] [Engine.Identity] {prompt : String} {limits : TurnLimits} {started : Nat} {v2 : Bool}

/-- A turn that another one follows leaves a tool's result at the end. -/
theorem oneTurn_last {turn : Nat} {progress grown : Progress} {s t : Session} {events : List Event}
    (played : Traced.Runs (oneTurn prompt limits started v2 turn progress) s (grown,false) t events) :
    ∃ before content,grown.messages = before ++ [⟨.Tool,content⟩] := by
  rw [oneTurn] at played
  obtain ⟨_,_,_,_,-,later,-⟩ := Traced.runs_bind.mp played
  obtain ⟨answered,m,_,_,-,concludes,-⟩ := Traced.runs_bind.mp later
  obtain ⟨rfl,more⟩ := TurnBounds.concludeTurn_ok concludes
  have some : TurnTrace.judgedOf m answered.1 ≠ [] := by
    intro none
    rw [TurnTrace.judgedOf,List.map_eq_nil_iff] at none
    rw [none] at more
    cases more
  obtain ⟨front,final,whole⟩ := (List.eq_nil_or_concat _).resolve_left some
  exact ⟨progress.messages ++ TurnLoop.assistantMessages answered.1.assistantText ++
    front.map (toolMessage m.adversarialClassifier.name),_,by rw [Progress.grown,whole]; simp [toolMessage]; rfl⟩

theorem plays_last {turn turn' : Nat} {progress progress' : Progress} {s t : Session} {events : List Event}
    (plays : Plays prompt limits started v2 turn progress s events turn' progress' t) :
    (turn' = turn ∧ progress' = progress) ∨
      (turn < turn' ∧ ∃ before content,progress'.messages = before ++ [⟨.Tool,content⟩]) := by
  induction plays with
  | Here => exact .inl ⟨rfl,rfl⟩
  | Turn admitted played later ih =>
    right
    rcases ih with ⟨rfl,rfl⟩ | ⟨further,last⟩
    · exact ⟨Nat.lt_succ_self _,oneTurn_last played⟩
    · exact ⟨(Nat.lt_succ_self _).trans further,last⟩

/-- Of the requests of a run the first is delivered, and the results of its tools never
    reach the engine. -/
theorem run_delivered (faithful : Faithful serde) {turn : Nat} {progress : Progress} {s t : Session} {events : List Event}
    (plays : Plays prompt limits started v2 1 ⟨[⟨.User,prompt⟩],[],0⟩ s events turn progress t) (tools : List ToolDecl) :
    Delivered ⟨progress.messages,tools⟩ ↔ turn = 1 := by
  rw [delivered_iff faithful]
  rcases plays_last plays with ⟨rfl,rfl⟩ | ⟨later,before,content,last⟩
  · simp [others]
  · rw [last]
    simp [others]
    omega

end

/-! ### Stripping -/

mutual
/-- The strings in a value, keys apart. -/
def leaves : Value → List String
  | .String s => [s]
  | .Array items => itemLeaves items
  | .Object fields => fieldLeaves fields
  | _ => []

def itemLeaves : List Value → List String
  | [] => []
  | item :: rest => leaves item ++ itemLeaves rest

def fieldLeaves : List (String × Value) → List String
  | [] => []
  | field :: rest => leaves field.2 ++ fieldLeaves rest
end

mutual
/-- The values differ in tokens that were taken out of strings, and in nothing else. -/
inductive Stripped : Value → Value → Prop where
  | Same (v : Value) : Stripped v v
  | String {s t : String} (reduces : Reduces quoteToken.toList s.toList t.toList) : Stripped (.String s) (.String t)
  | Array {items rest : List Value} (each : StrippedItems items rest) : Stripped (.Array items) (.Array rest)
  | Object {fields rest : List (String × Value)} (each : StrippedFields fields rest) : Stripped (.Object fields) (.Object rest)

inductive StrippedItems : List Value → List Value → Prop where
  | Empty : StrippedItems [] []
  | Next {item left : Value} {items rest : List Value} (first : Stripped item left) (later : StrippedItems items rest) :
      StrippedItems (item :: items) (left :: rest)

inductive StrippedFields : List (String × Value) → List (String × Value) → Prop where
  | Empty : StrippedFields [] []
  | Next {key : String} {value left : Value} {fields rest : List (String × Value)} (first : Stripped value left)
      (later : StrippedFields fields rest) : StrippedFields ((key,value) :: fields) ((key,left) :: rest)
end

/-- The value is stripped of the token for good. -/
structure FixedPoint (v : Value) : Prop where
  free : ∀ leaf ∈ leaves (stripGemmaQuoteTokens v),¬ quoteToken.toList <:+: leaf.toList
  stable : stripGemmaQuoteTokens (stripGemmaQuoteTokens v) = stripGemmaQuoteTokens v
  rest : Stripped v (stripGemmaQuoteTokens v)

def stripText (s : String) : String := replaceText quoteToken "" (replaceText quoteToken "" s)

theorem stripText_toList (s : String) :
    (stripText s).toList = erase quoteToken.toList (erase quoteToken.toList s.toList) := by
  simp [stripText,replaceText,erase]

/-- The token does not end as it starts: its last character stands nowhere else in it. -/
theorem quote_unbordered : Unbordered ('<' :: ['|','"','|','>']) := by
  intro border some front back
  have last : border.getLast? = Option.some '>' := by
    obtain ⟨before,whole⟩ := back
    have ends := congrArg List.getLast? whole
    rwa [List.getLast?_append_of_ne_nil _ some] at ends
  have whole := List.prefix_iff_eq_take.mp front
  have short := front.length_le
  simp only [List.length_cons,List.length_nil] at short
  interval_cases size : border.length
  all_goals
    rw [whole] at last ⊢
    first | rfl | exact absurd last (by decide)

/-- A string keeps the token if there are tokens in its tokens, and tokens in these. -/
theorem stripText_free (s : String) :
    quoteToken.toList <:+: (stripText s).toList ↔ Nested '<' ['|','"','|','>'] 2 s.toList := by
  have token : quoteToken.toList = '<' :: ['|','"','|','>'] := rfl
  rw [stripText_toList,token,← nested_zero,nested_erase quote_unbordered,nested_erase quote_unbordered]

mutual
theorem leaves_strip : ∀ v,leaves (stripGemmaQuoteTokens v) = (leaves v).map stripText
  | .Null => rfl
  | .Bool _ => rfl
  | .Number _ => rfl
  | .String _ => rfl
  | .Array items => leaves_items items
  | .Object fields => leaves_fields fields

theorem leaves_items : ∀ items,itemLeaves (stripItems items) = (itemLeaves items).map stripText
  | [] => rfl
  | item :: rest => by
    rw [stripItems,itemLeaves,itemLeaves,List.map_append,leaves_strip item,leaves_items rest]

theorem leaves_fields : ∀ fields,fieldLeaves (stripFields fields) = (fieldLeaves fields).map stripText
  | [] => rfl
  | (key,value) :: rest => by
    rw [stripFields,fieldLeaves,fieldLeaves,List.map_append,leaves_strip value,leaves_fields rest]
end

mutual
/-- A value without the token stays. -/
theorem strip_free : ∀ v,(∀ leaf ∈ leaves v,¬ quoteToken.toList <:+: leaf.toList) → stripGemmaQuoteTokens v = v
  | .Null,_ => rfl
  | .Bool _,_ => rfl
  | .Number _,_ => rfl
  | .String s,free => by
    have absent := free s List.mem_cons_self
    have same : stripText s = s := by
      apply String.toList_injective
      rw [stripText_toList,erase,erase,replace_absent absent,replace_absent absent]
    exact congrArg Value.String same
  | .Array items,free => congrArg Value.Array (strip_free_items items free)
  | .Object fields,free => congrArg Value.Object (strip_free_fields fields free)

theorem strip_free_items : ∀ items,(∀ leaf ∈ itemLeaves items,¬ quoteToken.toList <:+: leaf.toList) →
    stripItems items = items
  | [],_ => rfl
  | item :: rest,free => by
    rw [itemLeaves] at free
    rw [stripItems,strip_free item fun leaf member => free leaf (List.mem_append_left _ member),
      strip_free_items rest fun leaf member => free leaf (List.mem_append_right _ member)]

theorem strip_free_fields : ∀ fields,(∀ leaf ∈ fieldLeaves fields,¬ quoteToken.toList <:+: leaf.toList) →
    stripFields fields = fields
  | [],_ => rfl
  | (key,value) :: rest,free => by
    rw [fieldLeaves] at free
    rw [stripFields,strip_free value fun leaf member => free leaf (List.mem_append_left _ member),
      strip_free_fields rest fun leaf member => free leaf (List.mem_append_right _ member)]
end

theorem stripText_reduces (s : String) : Reduces quoteToken.toList s.toList (stripText s).toList := by
  have some : quoteToken.toList ≠ [] := by decide
  rw [stripText_toList]
  exact (erase_reduces some s.toList).trans (erase_reduces some _)

mutual
theorem strip_stripped : ∀ v,Stripped v (stripGemmaQuoteTokens v)
  | .Null => .Same _
  | .Bool _ => .Same _
  | .Number _ => .Same _
  | .String s => .String (stripText_reduces s)
  | .Array items => .Array (strip_items items)
  | .Object fields => .Object (strip_fields fields)

theorem strip_items : ∀ items,StrippedItems items (stripItems items)
  | [] => .Empty
  | item :: rest => .Next (strip_stripped item) (strip_items rest)

theorem strip_fields : ∀ fields,StrippedFields fields (stripFields fields)
  | [] => .Empty
  | (_,value) :: rest => .Next (strip_stripped value) (strip_fields rest)
end

/-- Two rounds are enough unless tokens nest three deep in a string. -/
theorem strip_fixed_iff (v : Value) :
    FixedPoint v ↔ ∀ leaf ∈ leaves v,¬ Nested '<' ['|','"','|','>'] 2 leaf.toList := by
  have each : (∀ leaf ∈ leaves (stripGemmaQuoteTokens v),¬ quoteToken.toList <:+: leaf.toList) ↔
      ∀ leaf ∈ leaves v,¬ Nested '<' ['|','"','|','>'] 2 leaf.toList := by
    rw [leaves_strip]
    simp only [List.forall_mem_map,stripText_free]
  constructor
  · intro fixed
    exact each.mp fixed.free
  · intro shallow
    have free := each.mpr shallow
    exact ⟨free,strip_free _ free,strip_stripped v⟩

/-- Three tokens inside each other leave one. -/
theorem strip_leaves_token : ¬ ∀ v,FixedPoint v := by
  intro every
  have free := (every (.String "<|<|<|\"|>\"|>\"|>")).free "<|\"|>" (by decide)
  exact free (List.infix_refl _)

end AegisNode.LiteRt
