import AegisNode.JsonText
import AegisNode.TurnLoop

/-!
The frames in which the chat surface of `aegis ui` streams a turn, and what the page makes
of them one by one.
-/
namespace AegisNode.ChatFrames
open Json

/-! ### Turns of a backend -/

inductive TurnToolCallStatus where
  | Success (value : Value)
  | Denied (reason : String)
  | RequiresApproval (reason : String)
  | Unroutable (reason : String)

structure TurnToolCall where
  callId : String
  name : String
  args : Value
  status : TurnToolCallStatus

structure TurnResult where
  assistantText : Option String
  toolCalls : List TurnToolCall
  verifiableAnchor : Option String

/-- What comes back from the blocking thread. -/
inductive BackendReply where
  | Done (result : TurnResult)
  | Failed (message : String)
  | Panicked

/-! ### Frames of the server -/

inductive ServerFrame where
  | TurnStart (turnId : String)
  | AssistantText (turnId text : String)
  | ToolCall (turnId toolCallId name : String) (args : Value)
  | ToolResult (turnId toolCallId status : String) (value : Option Value) (reason : Option String)
  | TurnEnd (turnId : String) (verifiableAnchor : Option String)
  | Error (message : String)

def optional (key : String) (value : Option Value) : List (String × Value) := (value.map fun v => (key,v)).toList

def ServerFrame.fields : ServerFrame → List (String × Value)
  | .TurnStart turnId => [("type",.String "turn_start"),("turn_id",.String turnId)]
  | .AssistantText turnId text => [("type",.String "assistant_text"),("turn_id",.String turnId),("text",.String text)]
  | .ToolCall turnId toolCallId name args =>
    [("type",.String "tool_call"),("turn_id",.String turnId),("tool_call_id",.String toolCallId),("name",.String name),
      ("args",args)]
  | .ToolResult turnId toolCallId status value reason =>
    [("type",.String "tool_result"),("turn_id",.String turnId),("tool_call_id",.String toolCallId),("status",.String status)] ++
      optional "value" value ++ optional "reason" (reason.map .String)
  | .TurnEnd turnId verifiableAnchor =>
    [("type",.String "turn_end"),("turn_id",.String turnId)] ++ optional "verifiable_anchor" (verifiableAnchor.map .String)
  | .Error message => [("type",.String "error"),("message",.String message)]

/-- The map keeps its keys in order, whatever comes first. -/
def wireValue (frame : ServerFrame) : Value := normal (.Object (("schema",.String "v1") :: frame.fields))

def encode [Serde] (frame : ServerFrame) : String := Serde.toString (wireValue frame)

def chunkSizeChars : Nat := 80

/-- The loop of `stream_chunked`, with its buffer. -/
def chunks (buf : List Char) : List Char → List (List Char)
  | [] => if buf = [] then [] else [buf]
  | ch :: rest => if (buf ++ [ch]).length ≥ chunkSizeChars then (buf ++ [ch]) :: chunks [] rest else chunks (buf ++ [ch]) rest

def streamChunked (turnId text : String) : List ServerFrame :=
  (chunks [] text.toList).map fun chunk => .AssistantText turnId (String.ofList chunk)

def statusParts : TurnToolCallStatus → String × Option Value × Option String
  | .Success value => ("success",some value,none)
  | .Denied reason => ("denied",none,some reason)
  | .RequiresApproval reason => ("requires_approval",none,some reason)
  | .Unroutable reason => ("unroutable",none,some reason)

def callFrames (turnId : String) (call : TurnToolCall) : List ServerFrame :=
  [.ToolCall turnId call.callId call.name call.args,
    .ToolResult turnId call.callId (statusParts call.status).1 (statusParts call.status).2.1 (statusParts call.status).2.2]

def noOutput : String := "(no output from backend)"

/-- Nothing is emitted for an empty text. -/
def TurnResult.silent (result : TurnResult) : Prop := result.assistantText.getD "" = "" ∧ result.toolCalls = []

instance (result : TurnResult) : Decidable result.silent :=
  decidable_of_iff (result.assistantText.getD "" = "" ∧ result.toolCalls.isEmpty) (by simp [TurnResult.silent])

/-- The frames of `run_turn` that follow the start of the turn. -/
def replyFrames (turnId : String) : BackendReply → List ServerFrame
  | .Done result => streamChunked turnId (result.assistantText.getD "") ++ result.toolCalls.flatMap (callFrames turnId) ++
      (if result.silent then [.AssistantText turnId noOutput] else []) ++ [.TurnEnd turnId result.verifiableAnchor]
  | .Failed message => [.Error ("backend error: " ++ message),.TurnEnd turnId none]
  | .Panicked => []

/-! ### The page -/

/-- The browser: `JSON.parse`, which may throw, `JSON.stringify`, and the double that it
    reads a number as. -/
class Browser where
  jsonParse : String → Option Value
  stringify : Value → String
  double : Number → Number

section
variable [Browser]

mutual
/-- What a value is in the page. -/
def seen : Value → Value
  | .Number n => .Number (Browser.double n)
  | .Array items => .Array (seenItems items)
  | .Object fields => .Object (seenFields fields)
  | v => v

def seenItems : List Value → List Value
  | [] => []
  | item :: rest => seen item :: seenItems rest

def seenFields : List (String × Value) → List (String × Value)
  | [] => []
  | (key,value) :: rest => (key,seen value) :: seenFields rest
end

end

/-- `ServerFrame` of the page: the arguments, the value and the reason are not looked into. -/
inductive PageFrame where
  | TurnStart (turnId : String)
  | AssistantText (turnId text : String)
  | ToolCall (turnId toolCallId name : String) (args : Option Value)
  | ToolResult (turnId toolCallId status : String) (value reason : Option Value)
  | TurnEnd (turnId : String) (verifiableAnchor : Option String)
  | Error (message : String)

def toolStatuses : List String := ["success","denied","requires_approval","unroutable"]

def textField (o : Value) (key : String) : Option String := (getField o key).bind asStr

/-- `isServerFrame`, with the fields of what it takes for a frame. -/
def isServerFrame (o : Value) : Option PageFrame :=
  if textField o "schema" ≠ some "v1" then none
  else if textField o "type" = some "turn_start" then (textField o "turn_id").map .TurnStart
  else if textField o "type" = some "turn_end" then
    (textField o "turn_id").bind fun turnId =>
      match getField o "verifiable_anchor" with
      | none => some (.TurnEnd turnId none)
      | some anchor => (asStr anchor).map fun text => .TurnEnd turnId (some text)
  else if textField o "type" = some "assistant_text" then
    (textField o "turn_id").bind fun turnId => (textField o "text").map (.AssistantText turnId)
  else if textField o "type" = some "tool_call" then
    (textField o "turn_id").bind fun turnId => (textField o "tool_call_id").bind fun toolCallId =>
      (textField o "name").map fun name => .ToolCall turnId toolCallId name (getField o "args")
  else if textField o "type" = some "tool_result" then
    (textField o "turn_id").bind fun turnId => (textField o "tool_call_id").bind fun toolCallId =>
      (textField o "status").bind fun status =>
        if status ∈ toolStatuses then some (.ToolResult turnId toolCallId status (getField o "value") (getField o "reason")) else none
  else if textField o "type" = some "error" then (textField o "message").map .Error
  else none

inductive Role where
  | User
  | Assistant
  | System
  deriving DecidableEq,Repr

structure TextMessage where
  id : String
  role : Role
  text : String
  pending : Bool
  verifiableAnchor : Option String

structure ToolCallMessage where
  id : String
  turnId : String
  name : String
  args : Option Value
  status : Option String    -- nothing while the call is pending
  value : Option Value
  reason : Option Value

inductive ChatMessage where
  | Text (m : TextMessage)
  | Tool (m : ToolCallMessage)

abbrev Thread := List ChatMessage

def onText (id : String) (change : TextMessage → TextMessage) : ChatMessage → ChatMessage
  | .Text m => .Text (if m.id = id then change m else m)
  | .Tool m => .Tool m

def onTool (id : String) (change : ToolCallMessage → ToolCallMessage) : ChatMessage → ChatMessage
  | .Text m => .Text m
  | .Tool m => .Tool (if m.id = id then change m else m)

def callKey (turnId toolCallId : String) : String := turnId ++ ":" ++ toolCallId

/-- `handleFrame`; `now` is the text of `Date.now()`. -/
def handleFrame (now : String) (prev : Thread) : PageFrame → Thread
  | .TurnStart turnId => prev ++ [.Text ⟨turnId,.Assistant,"",true,none⟩]
  | .AssistantText turnId text => prev.map (onText turnId fun m => { m with text := m.text ++ text })
  | .ToolCall turnId toolCallId name args => prev ++ [.Tool ⟨callKey turnId toolCallId,turnId,name,args,none,none,none⟩]
  | .ToolResult turnId toolCallId status value reason =>
    prev.map (onTool (callKey turnId toolCallId) fun m => { m with status := some status,value := value,reason := reason })
  | .TurnEnd turnId anchor => prev.map (onText turnId fun m => { m with pending := false,verifiableAnchor := anchor })
  | .Error message => prev ++ [.Text ⟨"err-" ++ now,.System,"error: " ++ message,false,none⟩]

/-- A message that is no frame goes to a handler that the page does not set. -/
def onMessage [Browser] (now : String) (prev : Thread) (data : String) : Thread :=
  match (Browser.jsonParse data).bind isServerFrame with
  | some frame => handleFrame now prev frame
  | none => prev

def userMessage (now prompt : String) : ChatMessage := .Text ⟨"user-" ++ now,.User,prompt,false,none⟩

def clientFrame (prompt : String) : Value :=
  .Object [("schema",.String "v1"),("type",.String "user_prompt"),("prompt",.String prompt)]

/-- A turn that the backend was asked for. -/
structure Turn where
  id : String
  prompt : String
  reply : BackendReply

def Turn.frames (t : Turn) : List ServerFrame := .TurnStart t.id :: replyFrames t.id t.reply

/-! ### Reading a frame -/

theorem get_normalFields (map : Map) (fields : List (String × Value)) (key : String) :
    (Map.get (normalFields map fields) key) =
      fields.foldl (fun found field => if field.1 = key then some (normal field.2) else found) (map.get key) := by
  induction fields generalizing map with
  | nil => rfl
  | cons field rest ih => rw [normalFields,ih,get_insert,List.foldl_cons]

section
variable [Browser]

theorem get_seenFields (fields : List (String × Value)) (key : String) :
    Map.get (seenFields fields) key = (Map.get fields key).map seen := by
  induction fields with
  | nil => rfl
  | cons field rest ih =>
    rw [seenFields,get_cons,get_cons,ih]
    by_cases same : field.1 = key
    · simp [same]
    · simp [same]

/-- The frame as the page reads it. -/
def view : ServerFrame → PageFrame
  | .TurnStart turnId => .TurnStart turnId
  | .AssistantText turnId text => .AssistantText turnId text
  | .ToolCall turnId toolCallId name args => .ToolCall turnId toolCallId name (some (seen (normal args)))
  | .ToolResult turnId toolCallId status value reason =>
    .ToolResult turnId toolCallId status (value.map fun v => seen (normal v)) (reason.map .String)
  | .TurnEnd turnId anchor => .TurnEnd turnId anchor
  | .Error message => .Error message

theorem getField_wireValue (frame : ServerFrame) (key : String) :
    getField (seen (wireValue frame)) key =
      (frame.fields.foldl (fun found field => if field.1 = key then some (normal field.2) else found)
        (if "schema" = key then some (.String "v1") else none)).map seen := by
  rw [wireValue,normal,seen,getField,get_seenFields,get_normalFields,List.foldl_cons]
  rfl

/-- The statuses are those of the mediator. -/
def Known : ServerFrame → Prop
  | .ToolResult _ _ status _ _ => status ∈ toolStatuses
  | _ => True

theorem isServerFrame_wireValue {frame : ServerFrame} (known : Known frame) :
    isServerFrame (seen (wireValue frame)) = some (view frame) := by
  cases frame with
  | TurnStart turnId =>
    simp [isServerFrame,textField,getField_wireValue,ServerFrame.fields,normal,seen,asStr,view]
  | AssistantText turnId text =>
    simp [isServerFrame,textField,getField_wireValue,ServerFrame.fields,normal,seen,asStr,view]
  | ToolCall turnId toolCallId name args =>
    simp [isServerFrame,textField,getField_wireValue,ServerFrame.fields,normal,seen,asStr,view]
  | ToolResult turnId toolCallId status value reason =>
    have taken : status ∈ toolStatuses := known
    cases value <;> cases reason <;>
      simp [isServerFrame,textField,getField_wireValue,ServerFrame.fields,optional,normal,seen,asStr,view,taken]
  | TurnEnd turnId anchor =>
    cases anchor <;> simp [isServerFrame,textField,getField_wireValue,ServerFrame.fields,optional,normal,seen,asStr,view]
  | Error message =>
    simp [isServerFrame,textField,getField_wireValue,ServerFrame.fields,normal,seen,asStr,view]

end

/-! ### What a turn comes to in the page -/

theorem chunks_flatten (buf text : List Char) : (chunks buf text).flatten = buf ++ text := by
  induction text generalizing buf with
  | nil =>
    rw [chunks]
    by_cases blank : buf = []
    · simp [blank]
    · simp [blank]
  | cons ch rest ih =>
    rw [chunks]
    by_cases full : (buf ++ [ch]).length ≥ chunkSizeChars
    · rw [if_pos full,List.flatten_cons,ih]
      simp
    · rw [if_neg full,ih]
      simp

/-- The text of the bubble when the turn is over. -/
def TurnResult.bubbleText (result : TurnResult) : String :=
  if result.silent then noOutput else result.assistantText.getD ""

def bubble (turnId text : String) : ChatMessage := .Text ⟨turnId,.Assistant,text,true,none⟩

def closedBubble (turnId text : String) (anchor : Option String) : ChatMessage := .Text ⟨turnId,.Assistant,text,false,anchor⟩

section
variable [Browser]

def pendingCard (turnId : String) (call : TurnToolCall) : ChatMessage :=
  .Tool ⟨callKey turnId call.callId,turnId,call.name,some (seen (normal call.args)),none,none,none⟩

def card (turnId : String) (call : TurnToolCall) : ChatMessage :=
  .Tool ⟨callKey turnId call.callId,turnId,call.name,some (seen (normal call.args)),some (statusParts call.status).1,
    (statusParts call.status).2.1.map fun v => seen (normal v),(statusParts call.status).2.2.map .String⟩

/-- The messages of a turn that has been received as a whole. -/
def rendered (t : Turn) : Thread :=
  match t.reply with
  | .Done result => closedBubble t.id result.bubbleText result.verifiableAnchor :: result.toolCalls.map (card t.id)
  | .Failed _ => [closedBubble t.id "" none]
  | .Panicked => [bubble t.id ""]

/-- A message on the way to what it will be: texts grow while they are pending, cards wait
    for their status. -/
inductive Towards : ChatMessage → ChatMessage → Prop where
  | Done (m : ChatMessage) : Towards m m
  | Grows (turnId : String) {front text : String} (anchor : Option String) (pending : Bool)
      (begins : front.toList <+: text.toList) : Towards (bubble turnId front) (.Text ⟨turnId,.Assistant,text,pending,anchor⟩)
  | Waits (turnId : String) (call : TurnToolCall) : Towards (pendingCard turnId call) (card turnId call)

/-- The messages come in their order, and nothing is shown that is not part of the turn. -/
def Underway (shown final : Thread) : Prop := ∃ reached later,final = reached ++ later ∧ List.Forall₂ Towards shown reached

/-- The clock only names the messages about errors. -/
def receive (prev : Thread) (frame : ServerFrame) : Thread := handleFrame "" prev (view frame)

omit [Browser] in
theorem callKey_inj {turnId a b : String} (same : callKey turnId a = callKey turnId b) : a = b := by
  have texts := congrArg String.toList same
  simp only [callKey,String.toList_append,List.append_cancel_left_eq] at texts
  exact String.toList_injective texts

theorem receive_texts (turnId : String) (front : String) (texts : List (List Char)) :
    (texts.map fun chunk => ServerFrame.AssistantText turnId (String.ofList chunk)).foldl receive [bubble turnId front] =
      [bubble turnId (front ++ String.ofList texts.flatten)] := by
  induction texts generalizing front with
  | nil => simp
  | cons chunk rest ih =>
    have here : receive [bubble turnId front] (.AssistantText turnId (String.ofList chunk)) =
        [bubble turnId (front ++ String.ofList chunk)] := by simp [receive,view,handleFrame,bubble,onText]
    rw [List.map_cons,List.foldl_cons,here,ih,List.flatten_cons,String.ofList_append,String.append_assoc]

theorem receive_call (turnId text : String) (done : List TurnToolCall) (call : TurnToolCall) :
    receive (bubble turnId text :: done.map (card turnId)) (.ToolCall turnId call.callId call.name call.args) =
      bubble turnId text :: (done.map (card turnId) ++ [pendingCard turnId call]) := by
  simp [receive,view,handleFrame,pendingCard]

/-- A result reaches the card of its call alone. -/
theorem receive_result {turnId : String} {done : List TurnToolCall} {call : TurnToolCall} (text : String)
    (fresh : call.callId ∉ done.map (·.callId)) :
    receive (bubble turnId text :: (done.map (card turnId) ++ [pendingCard turnId call]))
      (.ToolResult turnId call.callId (statusParts call.status).1 (statusParts call.status).2.1 (statusParts call.status).2.2) =
      bubble turnId text :: (done ++ [call]).map (card turnId) := by
  have others : ∀ other ∈ done,callKey turnId other.callId ≠ callKey turnId call.callId := by
    intro other member same
    exact fresh (List.mem_map.mpr ⟨other,member,callKey_inj same⟩)
  simp only [receive,view,handleFrame,List.map_cons,List.map_append,List.map_map,List.map_nil]
  refine congrArg₂ List.cons rfl (congrArg₂ (· ++ ·) (List.map_congr_left ?_) ?_)
  · intro other member
    simp [Function.comp,card,onTool,others other member]
  · simp [pendingCard,card,onTool]

theorem receive_calls (turnId text : String) (done : List TurnToolCall) {calls : List TurnToolCall} (apart : ((done ++ calls).map (·.callId)).Nodup) :
    (calls.flatMap (callFrames turnId)).foldl receive (bubble turnId text :: done.map (card turnId)) =
      bubble turnId text :: (done ++ calls).map (card turnId) := by
  induction calls generalizing done with
  | nil => simp
  | cons call rest ih =>
    have fresh : call.callId ∉ done.map (·.callId) := by
      rw [List.map_append,List.map_cons] at apart
      exact fun member => (List.disjoint_of_nodup_append apart) member List.mem_cons_self
    rw [List.flatMap_cons,List.foldl_append,callFrames,List.foldl_cons,List.foldl_cons,List.foldl_nil,receive_call,
      receive_result text fresh]
    have apart' : (((done ++ [call]) ++ rest).map (·.callId)).Nodup := by simpa using apart
    rw [ih (done ++ [call]) apart']
    simp

omit [Browser] in
theorem prefix_append {α : Type} {front left right : List α} (begins : front <+: left ++ right) :
    front <+: left ∨ ∃ more,front = left ++ more ∧ more <+: right := by
  obtain ⟨tail,whole⟩ := begins
  rcases List.append_eq_append_iff.mp whole with ⟨rest,rfl,-⟩ | ⟨more,rfl,rest⟩
  · exact .inl ⟨rest,rfl⟩
  · exact .inr ⟨more,rfl,tail,rest.symm⟩

omit [Browser] in
/-- Where the calls break off: between two calls, or while the last one waits. -/
theorem prefix_calls {turnId : String} {calls : List TurnToolCall} {front : List ServerFrame}
    (begins : front <+: calls.flatMap (callFrames turnId)) :
    (∃ done rest,calls = done ++ rest ∧ front = done.flatMap (callFrames turnId)) ∨
    ∃ done call rest,calls = done ++ call :: rest ∧
      front = done.flatMap (callFrames turnId) ++ [.ToolCall turnId call.callId call.name call.args] := by
  induction calls generalizing front with
  | nil => exact .inl ⟨[],[],rfl,List.prefix_nil.mp begins⟩
  | cons call rest ih =>
    rw [List.flatMap_cons] at begins
    rcases prefix_append begins with short | ⟨more,rfl,later⟩
    · rcases List.prefix_cons_iff.mp short with rfl | ⟨tail,rfl,shorter⟩
      · exact .inl ⟨[],call :: rest,rfl,rfl⟩
      · rcases List.prefix_cons_iff.mp shorter with rfl | ⟨tail,rfl,shortest⟩
        · exact .inr ⟨[],call,rest,rfl,rfl⟩
        · cases List.prefix_nil.mp shortest
          exact .inl ⟨[call],rest,rfl,rfl⟩
    · rcases ih later with ⟨done,others,rfl,rfl⟩ | ⟨done,other,others,rfl,rfl⟩
      · exact .inl ⟨call :: done,others,rfl,by rw [List.flatMap_cons]⟩
      · exact .inr ⟨call :: done,other,others,rfl,by rw [List.flatMap_cons,List.append_assoc]⟩

theorem underway_calls {turnId front text : String} (anchor : Option String) (begins : front.toList <+: text.toList)
    (done rest : List TurnToolCall) :
    Underway (bubble turnId front :: done.map (card turnId)) (closedBubble turnId text anchor :: (done ++ rest).map (card turnId)) := by
  refine ⟨closedBubble turnId text anchor :: done.map (card turnId),rest.map (card turnId),by simp,?_⟩
  refine .cons (.Grows turnId anchor false begins) ?_
  rw [List.forall₂_map_left_iff,List.forall₂_map_right_iff]
  exact List.forall₂_same.mpr fun call _ => .Done _

theorem underway_all {turnId front text : String} (anchor : Option String) (begins : front.toList <+: text.toList)
    (calls : List TurnToolCall) :
    Underway (bubble turnId front :: calls.map (card turnId)) (closedBubble turnId text anchor :: calls.map (card turnId)) := by
  have shown := @underway_calls _ turnId _ _ anchor begins calls []
  rwa [List.append_nil] at shown

theorem underway_waiting {turnId front text : String} (anchor : Option String) (begins : front.toList <+: text.toList)
    (done : List TurnToolCall) (call : TurnToolCall) (rest : List TurnToolCall) :
    Underway (bubble turnId front :: (done.map (card turnId) ++ [pendingCard turnId call]))
      (closedBubble turnId text anchor :: (done ++ call :: rest).map (card turnId)) := by
  refine ⟨closedBubble turnId text anchor :: (done.map (card turnId) ++ [card turnId call]),rest.map (card turnId),by simp,?_⟩
  refine .cons (.Grows turnId anchor false begins) (List.rel_append ?_ (.cons (.Waits turnId call) .nil))
  rw [List.forall₂_map_left_iff,List.forall₂_map_right_iff]
  exact List.forall₂_same.mpr fun call _ => .Done _

theorem receive_stream (turnId text : String) : (streamChunked turnId text).foldl receive [bubble turnId ""] = [bubble turnId text] := by
  rw [streamChunked,receive_texts,chunks_flatten]
  simp

theorem receive_end (turnId text : String) (calls : List TurnToolCall) (anchor : Option String) :
    receive (bubble turnId text :: calls.map (card turnId)) (.TurnEnd turnId anchor) =
      closedBubble turnId text anchor :: calls.map (card turnId) := by
  simp only [receive,view,handleFrame,List.map_cons,List.map_map]
  refine congrArg₂ List.cons (by simp [bubble,closedBubble,onText]) (List.map_congr_left fun call _ => ?_)
  rfl

/-- A silent turn shows the placeholder, any other turn its text. -/
theorem receive_placeholder (turnId : String) (result : TurnResult) :
    ((if result.silent then [ServerFrame.AssistantText turnId noOutput] else []) : List ServerFrame).foldl receive
      (bubble turnId (result.assistantText.getD "") :: result.toolCalls.map (card turnId)) =
      bubble turnId result.bubbleText :: result.toolCalls.map (card turnId) := by
  by_cases silent : result.silent
  · rw [if_pos silent,TurnResult.bubbleText,if_pos silent,silent.1,silent.2]
    simp [receive,view,handleFrame,bubble,onText]
  · rw [if_neg silent,TurnResult.bubbleText,if_neg silent,List.foldl_nil]

omit [Browser] in
theorem text_begins (result : TurnResult) : (result.assistantText.getD "").toList <+: result.bubbleText.toList := by
  rw [TurnResult.bubbleText]
  by_cases silent : result.silent
  · rw [silent.1]
    exact List.nil_prefix
  · rw [if_neg silent]

/-- However much of a turn has been received, what the page shows of it is underway to the
    whole turn. -/
theorem receive_reply (turnId : String) {result : TurnResult} (apart : (result.toolCalls.map (·.callId)).Nodup)
    {front : List ServerFrame} (begins : front <+: replyFrames turnId (.Done result)) :
    Underway (front.foldl receive [bubble turnId ""])
        (closedBubble turnId result.bubbleText result.verifiableAnchor :: result.toolCalls.map (card turnId)) ∧
      (front = replyFrames turnId (.Done result) → front.foldl receive [bubble turnId ""] =
        closedBubble turnId result.bubbleText result.verifiableAnchor :: result.toolCalls.map (card turnId)) := by
  have begun : ∀ {done rest : List TurnToolCall},result.toolCalls = done ++ rest →
      (done.flatMap (callFrames turnId)).foldl receive [bubble turnId (result.assistantText.getD "")] =
        bubble turnId (result.assistantText.getD "") :: done.map (card turnId) := by
    intro done rest split
    have few : ((([] : List TurnToolCall) ++ done).map (·.callId)).Nodup := by
      rw [split,List.map_append] at apart
      exact (List.nodup_append.mp apart).1
    exact receive_calls turnId (result.assistantText.getD "") [] few
  have calls := begun (List.append_nil result.toolCalls).symm
  have whole : (replyFrames turnId (.Done result)).foldl receive [bubble turnId ""] =
      closedBubble turnId result.bubbleText result.verifiableAnchor :: result.toolCalls.map (card turnId) := by
    rw [replyFrames,List.foldl_append,List.foldl_append,List.foldl_append,receive_stream,calls,receive_placeholder,List.foldl_cons,
      List.foldl_nil,receive_end]
  refine ⟨?_,fun all => all ▸ whole⟩
  rcases prefix_append begins with begins | ⟨more,rfl,last⟩
  · rcases prefix_append begins with begins | ⟨more,rfl,last⟩
    · rcases prefix_append begins with begins | ⟨more,rfl,later⟩
      · -- the text is being streamed
        obtain ⟨texts,short,rfl⟩ : ∃ texts,texts <+: chunks [] (result.assistantText.getD "").toList ∧
            front = texts.map fun chunk => ServerFrame.AssistantText turnId (String.ofList chunk) := by
          rw [streamChunked,List.prefix_iff_eq_take,← List.map_take] at begins
          exact ⟨_,List.take_prefix _ _,begins⟩
        obtain ⟨rest,split⟩ := short
        have flat := chunks_flatten [] (result.assistantText.getD "").toList
        rw [← split,List.flatten_append,List.nil_append] at flat
        rw [receive_texts]
        refine underway_calls _ (List.IsPrefix.trans ?_ (text_begins result)) [] result.toolCalls
        exact ⟨rest.flatten,by rw [← flat]; simp⟩
      · -- the calls are being announced and answered
        rw [List.foldl_append,receive_stream]
        rcases prefix_calls later with ⟨done,rest,split,rfl⟩ | ⟨done,call,rest,split,rfl⟩
        · rw [begun split,split]
          exact underway_calls _ (text_begins result) done rest
        · rw [List.foldl_append,begun split,split,List.foldl_cons,List.foldl_nil,receive_call]
          exact underway_waiting _ (text_begins result) done call rest
    · -- a silent turn has its placeholder, or not yet
      rw [List.foldl_append,List.foldl_append,receive_stream,calls]
      by_cases silent : result.silent
      · rw [if_pos silent] at last
        rcases List.prefix_cons_iff.mp last with rfl | ⟨tail,rfl,none⟩
        · exact underway_all _ (text_begins result) result.toolCalls
        · cases List.prefix_nil.mp none
          have shown := receive_placeholder turnId result
          rw [if_pos silent] at shown
          rw [shown]
          exact underway_all _ (List.prefix_refl _) result.toolCalls
      · rw [if_neg silent] at last
        cases List.prefix_nil.mp last
        exact underway_all _ (text_begins result) result.toolCalls
  · rcases List.prefix_cons_iff.mp last with rfl | ⟨tail,rfl,none⟩
    · rw [List.append_nil,List.foldl_append,List.foldl_append,receive_stream,calls,receive_placeholder]
      exact underway_all _ (List.prefix_refl _) result.toolCalls
    · cases List.prefix_nil.mp none
      have all := whole
      rw [replyFrames] at all
      rw [all]
      exact ⟨_,[],(List.append_nil _).symm,List.forall₂_same.mpr fun m _ => .Done m⟩

end

/-! ### The messages of one turn -/

def turnOf : ServerFrame → Option String
  | .TurnStart turnId => some turnId
  | .AssistantText turnId _ => some turnId
  | .ToolCall turnId _ _ _ => some turnId
  | .ToolResult turnId _ _ _ _ => some turnId
  | .TurnEnd turnId _ => some turnId
  | .Error _ => none

/-- The frames that name the turn. -/
def own (turnId : String) (frames : List ServerFrame) : List ServerFrame := frames.filter fun frame => turnOf frame = some turnId

theorem own_append (turnId : String) (left right : List ServerFrame) :
    own turnId (left ++ right) = own turnId left ++ own turnId right := List.filter_append _ _

/-- The calls of a turn have different ids. -/
def Numbered (reply : BackendReply) : Prop := ∀ result,reply = .Done result → (result.toolCalls.map (·.callId)).Nodup

def belongs (turnId : String) : ChatMessage → Bool
  | .Text m => m.id = turnId
  | .Tool m => m.turnId = turnId

def owned (turnId : String) (thread : Thread) : Thread := thread.filter (belongs turnId)

/-- Hexadecimal digits and dashes. -/
def Uuid (id : String) : Prop := ∀ c ∈ id.toList,c.isDigit ∨ c = '-' ∨ c ∈ ['a','b','c','d','e','f']

theorem Uuid.colon {id : String} (uuid : Uuid id) : ':' ∉ id.toList := fun member => absurd (uuid ':' member) (by decide)

theorem Uuid.not_user {id : String} (uuid : Uuid id) (now : String) : "user-" ++ now ≠ id := by
  rintro rfl
  exact absurd (uuid 'u' (by simp)) (by decide)

theorem Uuid.not_error {id : String} (uuid : Uuid id) (now : String) : "err-" ++ now ≠ id := by
  rintro rfl
  exact absurd (uuid 'r' (by simp)) (by decide)

theorem Uuid.not_intro {id : String} (uuid : Uuid id) : "intro" ≠ id := by
  rintro rfl
  exact absurd (uuid 'i' (by decide)) (by decide)

/-- The frame names a turn by a UUID, or none at all. -/
def Named (frame : ServerFrame) : Prop := ∀ turnId,turnOf frame = some turnId → Uuid turnId

/-- The key of each card begins with the id of its turn. -/
def Keyed (thread : Thread) : Prop :=
  ∀ m,.Tool m ∈ thread → ':' ∉ m.turnId.toList ∧ ∃ toolCallId,m.id = callKey m.turnId toolCallId

theorem callKey_turn {turnId other a b : String} (plain : ':' ∉ turnId.toList) (plain' : ':' ∉ other.toList)
    (same : callKey turnId a = callKey other b) : turnId = other := by
  have texts := congrArg String.toList same
  have colon : ":".toList = [':'] := rfl
  simp only [callKey,String.toList_append,List.append_assoc,colon] at texts
  rcases List.append_eq_append_iff.mp texts with ⟨rest,whole,cut⟩ | ⟨rest,whole,cut⟩
  · cases rest with
    | nil => exact String.toList_injective (by rw [whole,List.append_nil])
    | cons c rest =>
      cases (List.cons.inj cut).1
      exact absurd (by rw [whole]; simp) plain'
  · cases rest with
    | nil => exact String.toList_injective (by rw [whole,List.append_nil])
    | cons c rest =>
      cases (List.cons.inj cut).1
      exact absurd (by rw [whole]; simp) plain

section
variable [Browser]

omit [Browser] in
theorem own_frames_done {t : Turn} {result : TurnResult} (done : t.reply = .Done result) : own t.id t.frames = t.frames := by
  refine List.filter_eq_self.mpr fun frame member => decide_eq_true ?_
  rw [Turn.frames,done,replyFrames,streamChunked] at member
  rcases List.mem_cons.mp member with rfl | member
  · rfl
  · rcases List.mem_append.mp member with member | member
    · rcases List.mem_append.mp member with member | member
      · rcases List.mem_append.mp member with member | member
        · obtain ⟨chunk,-,rfl⟩ := List.mem_map.mp member
          rfl
        · obtain ⟨call,-,inside⟩ := List.mem_flatMap.mp member
          rcases List.mem_cons.mp inside with rfl | inside
          · rfl
          · cases List.mem_singleton.mp inside
            rfl
      · split_ifs at member
        · cases List.mem_singleton.mp member
          rfl
        · cases member
    · cases List.mem_singleton.mp member
      rfl

/-- However many frames of a turn have arrived, its messages are underway to the whole turn. -/
theorem receive_turn {t : Turn} (numbered : Numbered t.reply) {front : List ServerFrame} (begins : front <+: own t.id t.frames) :
    Underway (front.foldl receive []) (rendered t) ∧ (front = own t.id t.frames → front.foldl receive [] = rendered t) := by
  have started : receive [] (.TurnStart t.id) = [bubble t.id ""] := rfl
  cases reply : t.reply with
  | Done result =>
    rw [own_frames_done reply,Turn.frames,reply] at begins
    rw [own_frames_done reply,Turn.frames,reply,rendered,reply]
    rcases List.prefix_cons_iff.mp begins with rfl | ⟨tail,rfl,later⟩
    · exact ⟨⟨[],_,rfl,.nil⟩,fun all => by cases all⟩
    · rw [List.foldl_cons,started]
      have received := receive_reply t.id (numbered result reply) later
      exact ⟨received.1,fun all => received.2 (List.cons.inj all).2⟩
  | Failed message =>
    have frames : own t.id t.frames = [.TurnStart t.id,.TurnEnd t.id none] := by simp [own,Turn.frames,reply,replyFrames,turnOf]
    rw [frames] at begins ⊢
    rw [rendered,reply]
    have whole : receive [bubble t.id ""] (.TurnEnd t.id none) = [closedBubble t.id "" none] := receive_end t.id "" [] none
    rcases List.prefix_cons_iff.mp begins with rfl | ⟨tail,rfl,later⟩
    · exact ⟨⟨[],_,rfl,.nil⟩,fun all => by cases all⟩
    · rcases List.prefix_cons_iff.mp later with rfl | ⟨tail,rfl,last⟩
      · exact ⟨underway_all none (List.prefix_refl _) [],fun all => by cases all⟩
      · cases List.prefix_nil.mp last
        rw [List.foldl_cons,started,List.foldl_cons,List.foldl_nil,whole]
        exact ⟨⟨_,[],rfl,.cons (.Done _) .nil⟩,fun _ => rfl⟩
  | Panicked =>
    have frames : own t.id t.frames = [.TurnStart t.id] := by simp [own,Turn.frames,reply,replyFrames,turnOf]
    rw [frames] at begins ⊢
    rw [rendered,reply]
    rcases List.prefix_cons_iff.mp begins with rfl | ⟨tail,rfl,last⟩
    · exact ⟨⟨[],_,rfl,.nil⟩,fun all => by cases all⟩
    · cases List.prefix_nil.mp last
      rw [List.foldl_cons,started,List.foldl_nil]
      exact ⟨⟨_,[],rfl,.cons (.Done _) .nil⟩,fun _ => rfl⟩

end

end AegisNode.ChatFrames
