import AegisNode.ChatFrames
import AegisNode.Identifiers
import AegisNode.Interleaving
import AegisNode.ReferenceTurn

/-!
The WebSocket of the chat surface: the page and the handler of its connection, the prompts
and the frames that are on the way between them, and what the operator sees of each turn.
-/
namespace AegisNode.ChatStream
open Json Interleaving ChatFrames

/-! ### The connection -/

/-- The derived deserializer of `ClientFrame`: the prompt of the one frame there is. -/
class ClientFrames where
  fromStr : String → Except String String

/-- The page and the handler of its connection. The handler takes one message after the
    other and sends what it owes for it before it takes the next. -/
structure Link (β : Type) where
  backend : β
  minted : Nat                    -- turn ids so far
  outbox : List String            -- on the way to the handler
  sending : List ServerFrame      -- still to be sent for the message that was taken last
  wire : List String              -- on the way to the page
  connected : Bool
  thread : Thread
  prompts : List String           -- that the page has sent
  turns : List Turn

def introText : String :=
  "Welcome to the Aegis-Node chat surface. Without `--manifest`/`--model` the backend is a stub — your prompts come back as " ++
    "\"echo: …\". Start `aegis ui --manifest <m> --model <m>` to attach a real `Session::run_turn` against an inference backend."

def intro : Thread := [.Text ⟨"intro",.System,introText,false,none⟩]

def connect {β : Type} (backend : β) : Link β := ⟨backend,0,[],[],[],true,intro,[],[]⟩

inductive Event where
  | Send (now prompt : String)    -- the operator sends what is in the box
  | Take                          -- the handler takes the next message
  | Emit                          -- the handler sends the next frame
  | Receive (now : String)        -- the next message of the server arrives
  | Break (arriving : Nat)        -- the connection breaks; so many messages still arrive

section
variable [Serde] [Browser] [ClientFrames] {β : Type} (runTurn : β → String → BackendReply × β) (uuidV7 : Nat → String)

/-- A turn whose start cannot be sent is not run. -/
def startTurn (s : Link β) (prompt : String) : Link β :=
  let turnId := uuidV7 s.minted
  let (reply,backend) := runTurn s.backend prompt
  if s.connected then { s with
      backend := backend
      minted := s.minted+1
      sending := replyFrames turnId reply
      wire := s.wire ++ [encode (.TurnStart turnId)]
      turns := s.turns ++ [⟨turnId,prompt,reply⟩] }
  else { s with minted := s.minted+1 }

/-- An event that cannot happen changes nothing. -/
def step (s : Link β) : Event → Link β
  | .Send now prompt =>
    if s.connected then { s with
      outbox := s.outbox ++ [Browser.stringify (clientFrame prompt)]
      thread := s.thread ++ [userMessage now prompt]
      prompts := s.prompts ++ [prompt] }
    else s
  | .Take =>
    match s.sending,s.outbox with
    | [],data :: rest =>
      match ClientFrames.fromStr data with
      | .error e => { s with outbox := rest,sending := [.Error ("malformed frame: " ++ e)] }
      | .ok prompt => startTurn runTurn uuidV7 { s with outbox := rest } prompt
    | _,_ => s
  | .Emit =>
    match s.sending with
    | [] => s
    | frame :: rest => if s.connected then { s with sending := rest,wire := s.wire ++ [encode frame] } else { s with sending := [] }
  | .Receive now =>
    match s.wire with
    | [] => s
    | data :: rest => { s with wire := rest,thread := onMessage now s.thread data }
  | .Break arriving => { s with connected := false,wire := s.wire.take arriving }

end

/-! ### Prompts between the frames -/

section
variable [Browser]

inductive Item where
  | Prompt (now prompt : String)
  | Frame (now : String) (frame : ServerFrame)

def place (thread : Thread) : Item → Thread
  | .Prompt now prompt => thread ++ [userMessage now prompt]
  | .Frame now frame => handleFrame now thread (view frame)

def frameOf : Item → Option ServerFrame
  | .Prompt _ _ => none
  | .Frame _ frame => some frame

def promptOf : Item → Option String
  | .Prompt _ prompt => some prompt
  | .Frame _ _ => none

omit [Browser] in
theorem keyed_map {thread : Thread} (keyed : Keyed thread) {change : ChatMessage → ChatMessage}
    (kept : ∀ m n,change m = .Tool n → ∃ old,m = .Tool old ∧ n.id = old.id ∧ n.turnId = old.turnId) : Keyed (thread.map change) := by
  intro n member
  obtain ⟨m,inside,same⟩ := List.mem_map.mp member
  obtain ⟨old,rfl,id,turnId⟩ := kept m n same
  rw [id,turnId]
  exact keyed old inside

theorem keyed_place {thread : Thread} (keyed : Keyed thread) {item : Item} (named : ∀ frame,frameOf item = some frame → Named frame) :
    Keyed (place thread item) := by
  have texts : ∀ (turnId : String) change m n,onText turnId change m = .Tool n → ∃ old,m = .Tool old ∧ n.id = old.id ∧ n.turnId = old.turnId := by
    intro turnId change m n same
    cases m with
    | Text m => cases same
    | Tool m =>
      cases same
      exact ⟨_,rfl,rfl,rfl⟩
  have appended : ∀ m : TextMessage,Keyed (thread ++ [.Text m]) := by
    intro m n member
    rcases List.mem_append.mp member with member | member
    · exact keyed n member
    · cases List.mem_singleton.mp member
  cases item with
  | Prompt now prompt => exact appended _
  | Frame now frame =>
    cases frame with
    | TurnStart turnId => exact appended _
    | AssistantText turnId text => exact keyed_map keyed (texts _ _)
    | TurnEnd turnId anchor => exact keyed_map keyed (texts _ _)
    | Error message => exact appended _
    | ToolCall turnId toolCallId name args =>
      intro n member
      rcases List.mem_append.mp member with member | member
      · exact keyed n member
      · cases List.mem_singleton.mp member
        exact ⟨(named _ rfl turnId rfl).colon,toolCallId,rfl⟩
    | ToolResult turnId toolCallId status value reason =>
      refine keyed_map keyed fun m n same => ?_
      cases m with
      | Text m => cases same
      | Tool m =>
        refine ⟨m,rfl,?_⟩
        simp only [onTool] at same
        split_ifs at same
        · cases same
          exact ⟨rfl,rfl⟩
        · cases same
          exact ⟨rfl,rfl⟩

omit [Browser] in
theorem owned_map {turnId : String} {change : ChatMessage → ChatMessage} (kept : ∀ m,belongs turnId (change m) = belongs turnId m)
    (thread : Thread) : owned turnId (thread.map change) = (owned turnId thread).map change := by
  rw [owned,List.filter_map,owned]
  exact congrArg (List.map change) (List.filter_congr fun m _ => kept m)

omit [Browser] in
theorem owned_unchanged {turnId : String} {change : ChatMessage → ChatMessage} (kept : ∀ m,belongs turnId (change m) = belongs turnId m)
    {thread : Thread} (same : ∀ m ∈ thread,belongs turnId m → change m = m) : owned turnId (thread.map change) = owned turnId thread := by
  rw [owned_map kept]
  refine (List.map_congr_left fun m member => ?_).trans (List.map_id _)
  exact same m (List.mem_filter.mp member).1 (List.mem_filter.mp member).2

omit [Browser] in
theorem owned_append {turnId : String} (thread : Thread) (m : ChatMessage) :
    owned turnId (thread ++ [m]) = owned turnId thread ++ if belongs turnId m then [m] else [] := by
  rw [owned,List.filter_append,owned,List.filter_singleton]
  cases belongs turnId m <;> rfl

omit [Browser] in
theorem belongs_onText (turnId id : String) {change : TextMessage → TextMessage} (kept : ∀ m,(change m).id = m.id) (m : ChatMessage) :
    belongs turnId (onText id change m) = belongs turnId m := by
  cases m with
  | Tool m => rfl
  | Text m =>
    rw [onText,belongs,belongs]
    split_ifs
    · rw [kept]
    · rfl

omit [Browser] in
theorem belongs_onTool (turnId id : String) {change : ToolCallMessage → ToolCallMessage} (kept : ∀ m,(change m).turnId = m.turnId)
    (m : ChatMessage) : belongs turnId (onTool id change m) = belongs turnId m := by
  cases m with
  | Text m => rfl
  | Tool m =>
    rw [onTool,belongs,belongs]
    split_ifs
    · rw [kept]
    · rfl

omit [Browser] in
/-- A change of another turn's text. -/
theorem owned_onText {turnId id : String} (other : id ≠ turnId) {change : TextMessage → TextMessage} (kept : ∀ m,(change m).id = m.id)
    (thread : Thread) : owned turnId (thread.map (onText id change)) = owned turnId thread := by
  refine owned_unchanged (belongs_onText turnId id kept) fun m _ mine => ?_
  cases m with
  | Tool m => rfl
  | Text m =>
    have here : m.id = turnId := of_decide_eq_true mine
    rw [onText,if_neg (here ▸ Ne.symm other)]

/-- Only the frames of a turn change what the thread holds of it. -/
theorem owned_place {turnId : String} (uuid : Uuid turnId) {thread : Thread} (keyed : Keyed thread) {item : Item}
    (named : ∀ frame,frameOf item = some frame → Named frame) :
    owned turnId (place thread item) = (own turnId (frameOf item).toList).foldl receive (owned turnId thread) := by
  cases item with
  | Prompt now prompt =>
    rw [place,owned_append,if_neg (by simpa [userMessage,belongs] using uuid.not_user now),List.append_nil]
    rfl
  | Frame now frame =>
    by_cases mine : turnOf frame = some turnId
    · have only : own turnId (frameOf (.Frame now frame)).toList = [frame] := by simp [own,frameOf,mine]
      rw [only,List.foldl_cons,List.foldl_nil]
      cases frame with
      | TurnStart id =>
        cases mine
        exact (owned_append _ _).trans (by simp [belongs,receive,view,handleFrame])
      | AssistantText id text =>
        simp only [place,receive,view,handleFrame]
        exact owned_map (belongs_onText turnId id (by intro m; rfl)) thread
      | ToolCall id toolCallId name args =>
        cases mine
        exact (owned_append _ _).trans (by simp [belongs,receive,view,handleFrame])
      | ToolResult id toolCallId status value reason =>
        simp only [place,receive,view,handleFrame]
        exact owned_map (belongs_onTool turnId (callKey id toolCallId) (by intro m; rfl)) thread
      | TurnEnd id anchor =>
        simp only [place,receive,view,handleFrame]
        exact owned_map (belongs_onText turnId id (by intro m; rfl)) thread
      | Error message => cases mine
    · have none_ : own turnId (frameOf (.Frame now frame)).toList = [] := by simp [own,frameOf,mine]
      rw [none_,List.foldl_nil]
      cases frame with
      | TurnStart id =>
        have other : id ≠ turnId := fun same => mine (congrArg some same)
        exact (owned_append _ _).trans (by simp [belongs,other])
      | AssistantText id text =>
        simp only [place,view,handleFrame]
        exact owned_onText (fun same => mine (congrArg some same)) (by intro m; rfl) thread
      | ToolCall id toolCallId name args =>
        have other : id ≠ turnId := fun same => mine (congrArg some same)
        exact (owned_append _ _).trans (by simp [belongs,other])
      | ToolResult id toolCallId status value reason =>
        simp only [place,view,handleFrame]
        refine owned_unchanged (belongs_onTool turnId _ (by intro m; rfl)) fun m member belonging => ?_
        cases m with
        | Text m => rfl
        | Tool m =>
          have here : m.turnId = turnId := of_decide_eq_true belonging
          obtain ⟨plain,callId,key⟩ := keyed m member
          have other : m.id ≠ callKey id toolCallId := by
            intro same
            have turn := callKey_turn plain (named _ rfl id rfl).colon (key.symm.trans same)
            exact mine (congrArg some (turn.symm.trans here))
          rw [onTool,if_neg other]
      | TurnEnd id anchor =>
        simp only [place,view,handleFrame]
        exact owned_onText (fun same => mine (congrArg some same)) (by intro m; rfl) thread
      | Error message =>
        exact (owned_append _ _).trans (by simpa [belongs] using uuid.not_error now)

theorem owned_placed {turnId : String} (uuid : Uuid turnId) {items : List Item} {thread : Thread} (keyed : Keyed thread)
    (named : ∀ item ∈ items,∀ frame,frameOf item = some frame → Named frame) :
    owned turnId (items.foldl place thread) = (own turnId (items.filterMap frameOf)).foldl receive (owned turnId thread) := by
  induction items generalizing thread with
  | nil => rfl
  | cons item rest ih =>
    have first := named item List.mem_cons_self
    rw [List.foldl_cons,ih (keyed_place keyed first) fun other member => named other (List.mem_cons_of_mem _ member),
      owned_place uuid keyed first,← List.foldl_append]
    cases item with
    | Prompt now prompt => rfl
    | Frame now frame => rw [← own_append]; rfl

/-- What the operator has sent stands in the thread in the order in which it was sent. -/
def userTexts (thread : Thread) : List String := thread.filterMap fun m =>
  match m with
  | .Text m => if m.role = .User then some m.text else none
  | .Tool _ => none

/-- The messages of the operator have ids of their own. -/
def Signed (thread : Thread) : Prop := ∀ m,.Text m ∈ thread → m.role = .User → ∃ now,m.id = "user-" ++ now

omit [Browser] in
theorem users_onText {id : String} (uuid : Uuid id) {change : TextMessage → TextMessage} (kept : ∀ m,(change m).role = m.role)
    {thread : Thread} (signed : Signed thread) :
    userTexts (thread.map (onText id change)) = userTexts thread ∧
      ((∀ m,(change m).id = m.id) → Signed (thread.map (onText id change))) := by
  constructor
  · rw [userTexts,List.filterMap_map,userTexts]
    refine List.filterMap_congr fun m member => ?_
    cases m with
    | Tool m => rfl
    | Text m =>
      by_cases same : m.id = id
      · have other : m.role ≠ .User := by
          intro user
          obtain ⟨now,key⟩ := signed m member user
          exact uuid.not_user now (key.symm.trans same)
        simp [onText,same,kept,other]
      · simp [onText,same]
  · intro ids m member user
    obtain ⟨old,inside,same⟩ := List.mem_map.mp member
    cases old with
    | Tool old => cases same
    | Text old =>
      cases same
      split_ifs at user ⊢ with here
      · rw [kept] at user
        rw [ids]
        exact signed old inside user
      · exact signed old inside user

omit [Browser] in
theorem users_onTool (id : String) (change : ToolCallMessage → ToolCallMessage) {thread : Thread} (signed : Signed thread) :
    userTexts (thread.map (onTool id change)) = userTexts thread ∧ Signed (thread.map (onTool id change)) := by
  constructor
  · rw [userTexts,List.filterMap_map,userTexts]
    refine List.filterMap_congr fun m member => ?_
    cases m <;> rfl
  · intro m member
    obtain ⟨old,inside,same⟩ := List.mem_map.mp member
    cases old with
    | Tool old => cases same
    | Text old =>
      cases same
      exact signed m inside

omit [Browser] in
theorem users_append {thread : Thread} (signed : Signed thread) {m : ChatMessage} (other : ∀ n,m = .Text n → n.role ≠ .User) :
    userTexts (thread ++ [m]) = userTexts thread ∧ Signed (thread ++ [m]) := by
  constructor
  · rw [userTexts,List.filterMap_append,userTexts]
    cases m with
    | Tool n => simp
    | Text n => simp [other n rfl]
  · intro n member user
    rcases List.mem_append.mp member with member | member
    · exact signed n member user
    · cases List.mem_singleton.mp member
      exact absurd user (other n rfl)

theorem users_place {thread : Thread} (signed : Signed thread) {item : Item} (named : ∀ frame,frameOf item = some frame → Named frame) :
    userTexts (place thread item) = userTexts thread ++ (promptOf item).toList ∧ Signed (place thread item) := by
  cases item with
  | Prompt now prompt =>
    constructor
    · simp [place,userTexts,userMessage,promptOf]
    · intro m member user
      rcases List.mem_append.mp member with member | member
      · exact signed m member user
      · cases List.mem_singleton.mp member
        exact ⟨now,rfl⟩
  | Frame now frame =>
    rw [promptOf,Option.toList_none,List.append_nil]
    cases frame with
    | TurnStart turnId => exact users_append signed fun n same user => by cases same; cases user
    | AssistantText turnId text =>
      have kept := @users_onText turnId (named _ rfl turnId rfl) (fun m => { m with text := m.text ++ text }) (fun _ => rfl) _ signed
      exact ⟨kept.1,kept.2 fun _ => rfl⟩
    | ToolCall turnId toolCallId name args => exact users_append signed fun n same => by cases same
    | ToolResult turnId toolCallId status value reason => exact users_onTool _ _ signed
    | TurnEnd turnId anchor =>
      have kept := @users_onText turnId (named _ rfl turnId rfl) (fun m => { m with pending := false,verifiableAnchor := anchor })
        (fun _ => rfl) _ signed
      exact ⟨kept.1,kept.2 fun _ => rfl⟩
    | Error message => exact users_append signed fun n same user => by cases same; cases user

theorem users_placed {items : List Item} {thread : Thread} (signed : Signed thread)
    (named : ∀ item ∈ items,∀ frame,frameOf item = some frame → Named frame) :
    userTexts (items.foldl place thread) = userTexts thread ++ items.filterMap promptOf := by
  induction items generalizing thread with
  | nil => simp
  | cons item rest ih =>
    obtain ⟨texts,signed'⟩ := users_place signed (named item List.mem_cons_self)
    rw [List.foldl_cons,ih signed' fun other member => named other (List.mem_cons_of_mem _ member),texts,List.append_assoc]
    cases item <;> rfl

end

/-! ### The run of the connection -/

section
variable [Serde] [Browser] [ClientFrames] {β : Type}

/-- The two ends of the connection read what the other one writes. -/
structure Understood : Prop where
  page : ∀ v,ordered v → Browser.jsonParse (Serde.toString v) = some (seen v)
  handler : ∀ prompt,ClientFrames.fromStr (Browser.stringify (clientFrame prompt)) = .ok prompt

/-- UUIDs are not minted twice. -/
structure Mints (uuidV7 : Nat → String) : Prop where
  apart : Function.Injective uuidV7
  uuid : ∀ n,Uuid (uuidV7 n)

variable (runTurn : β → String → BackendReply × β)

/-- The replies of a backend to one prompt after the other. -/
def answers : β → List String → List BackendReply × β
  | backend,[] => ([],backend)
  | backend,prompt :: rest =>
    let first := runTurn backend prompt
    let later := answers first.2 rest
    (first.1 :: later.1,later.2)

/-- What the thread shows of the turns. -/
structure Shows (backend : β) (s : Link β) : Prop where
  prompts : userTexts s.thread = s.prompts
  asked : s.turns.map (·.prompt) <+: s.prompts
  answered : s.turns.map (·.reply) = (answers runTurn backend (s.turns.map (·.prompt))).1
  apart : (s.turns.map (·.id)).Nodup
  underway : ∀ t ∈ s.turns,Underway (owned t.id s.thread) (rendered t)
  whole : s.connected → s.outbox = [] → s.sending = [] → s.wire = [] →
    s.turns.map (·.prompt) = s.prompts ∧ ∀ t ∈ s.turns,owned t.id s.thread = rendered t

/-- What was placed in the thread, what is on the way and what is still to be sent are the
    frames of the turns, in this order. -/
structure Follows (uuidV7 : Nat → String) (backend : β) (s : Link β) : Prop where
  frames : ∃ (items : List Item) (inFlight : List ServerFrame),
    s.thread = items.foldl place intro ∧ items.filterMap promptOf = s.prompts ∧ s.wire = inFlight.map encode ∧
    items.filterMap frameOf ++ inFlight <+: s.turns.flatMap Turn.frames ∧
    (s.connected → items.filterMap frameOf ++ inFlight ++ s.sending = s.turns.flatMap Turn.frames)
  waiting : ∃ waiting,s.outbox = waiting.map (fun prompt => Browser.stringify (clientFrame prompt)) ∧
    s.turns.map (·.prompt) <+: s.prompts ∧ (s.connected → s.turns.map (·.prompt) ++ waiting = s.prompts)
  answered : answers runTurn backend (s.turns.map (·.prompt)) = (s.turns.map (·.reply),s.backend)
  ids : (s.turns.map (·.id)).Sublist ((List.range s.minted).map uuidV7)

omit [Serde] [Browser] [ClientFrames] in
theorem answers_append (backend : β) (left : List String) (prompt : String) :
    answers runTurn backend (left ++ [prompt]) =
      let before := answers runTurn backend left
      (before.1 ++ [(runTurn before.2 prompt).1],(runTurn before.2 prompt).2) := by
  induction left generalizing backend with
  | nil => rfl
  | cons first rest ih => simp only [List.cons_append,answers,ih]

variable {runTurn} {uuidV7 : Nat → String} {backend : β}

omit [Serde] [Browser] [ClientFrames] in
theorem frames_mem {t : Turn} {frame : ServerFrame} (member : frame ∈ t.frames) :
    Known frame ∧ (turnOf frame = none ∨ turnOf frame = some t.id) := by
  rw [Turn.frames] at member
  rcases List.mem_cons.mp member with rfl | member
  · exact ⟨trivial,.inr rfl⟩
  · cases reply : t.reply with
    | Panicked =>
      rw [reply] at member
      cases member
    | Failed message =>
      rw [reply,replyFrames] at member
      rcases List.mem_cons.mp member with rfl | member
      · exact ⟨trivial,.inl rfl⟩
      · cases List.mem_singleton.mp member
        exact ⟨trivial,.inr rfl⟩
    | Done result =>
      have mine : frame ∈ own t.id t.frames := by
        rw [own_frames_done reply,Turn.frames]
        exact List.mem_cons_of_mem _ member
      refine ⟨?_,.inr (of_decide_eq_true (List.mem_filter.mp mine).2)⟩
      rw [reply,replyFrames,streamChunked] at member
      rcases List.mem_append.mp member with member | member
      · rcases List.mem_append.mp member with member | member
        · rcases List.mem_append.mp member with member | member
          · obtain ⟨chunk,-,rfl⟩ := List.mem_map.mp member
            trivial
          · obtain ⟨call,-,inside⟩ := List.mem_flatMap.mp member
            rcases List.mem_cons.mp inside with rfl | inside
            · trivial
            · cases List.mem_singleton.mp inside
              cases call.status <;> simp [Known,statusParts,toolStatuses]
        · split_ifs at member
          · cases List.mem_singleton.mp member
            trivial
          · cases member
      · cases List.mem_singleton.mp member
        trivial

omit [ClientFrames] in
theorem onMessage_encode (page : ∀ v,ordered v → Browser.jsonParse (Serde.toString v) = some (seen v)) {frame : ServerFrame}
    (known : Known frame) (now : String) (prev : Thread) : onMessage now prev (encode frame) = handleFrame now prev (view frame) := by
  rw [onMessage,encode,page (wireValue frame) (ordered_normal _),Option.bind_some,isServerFrame_wireValue known]

omit [ClientFrames] in
theorem follows_connect : Follows runTurn uuidV7 backend (connect backend) :=
  ⟨⟨[],[],rfl,rfl,rfl,List.prefix_refl _,fun _ => rfl⟩,⟨[],rfl,List.prefix_refl _,fun _ => rfl⟩,rfl,List.nil_sublist _⟩

omit [ClientFrames] in
theorem follows_start {s : Link β} {prompt : String} {waiting : List String} {items : List Item} {inFlight : List ServerFrame}
    (thread : s.thread = items.foldl place intro) (prompts : items.filterMap promptOf = s.prompts)
    (wire : s.wire = inFlight.map encode) (begins : items.filterMap frameOf ++ inFlight <+: s.turns.flatMap Turn.frames)
    (whole : s.connected → items.filterMap frameOf ++ inFlight = s.turns.flatMap Turn.frames)
    (outbox : s.outbox = waiting.map fun prompt => Browser.stringify (clientFrame prompt))
    (asked : s.turns.map (·.prompt) <+: s.prompts) (next : s.connected → s.turns.map (·.prompt) ++ prompt :: waiting = s.prompts)
    (answered : answers runTurn backend (s.turns.map (·.prompt)) = (s.turns.map (·.reply),s.backend))
    (ids : (s.turns.map (·.id)).Sublist ((List.range s.minted).map uuidV7)) :
    Follows runTurn uuidV7 backend (startTurn runTurn uuidV7 s prompt) := by
  have minted : ((List.range (s.minted+1)).map uuidV7) = (List.range s.minted).map uuidV7 ++ [uuidV7 s.minted] := by
    rw [List.range_succ,List.map_append,List.map_singleton]
  rw [startTurn]
  dsimp only
  split_ifs with connected
  · refine ⟨⟨items,inFlight ++ [.TurnStart (uuidV7 s.minted)],thread,prompts,by simp [wire],?_,fun _ => ?_⟩,⟨waiting,outbox,?_,fun _ => ?_⟩,?_,?_⟩
    · rw [List.flatMap_append,← whole connected,List.append_assoc]
      exact (List.prefix_append_right_inj _).mpr ((List.prefix_append_right_inj _).mpr ⟨_,by simp [Turn.frames]; rfl⟩)
    · rw [List.flatMap_append,← whole connected]
      simp [Turn.frames]
    · rw [List.map_append,← next connected]
      exact ⟨waiting,by simp⟩
    · rw [← next connected]
      simp
    · rw [List.map_append,List.map_singleton,answers_append,answered]
      simp
    · rw [List.map_append,minted]
      exact ids.append (List.Sublist.refl _)
  · refine ⟨⟨items,inFlight,thread,prompts,wire,begins,fun open_ => absurd open_ connected⟩,
      ⟨waiting,outbox,asked,fun open_ => absurd open_ connected⟩,answered,?_⟩
    rw [minted]
    exact ids.trans (List.sublist_append_left _ _)

theorem follows_step (understood : Understood) {s : Link β} (follows : Follows runTurn uuidV7 backend s) (event : Event) :
    Follows runTurn uuidV7 backend (step runTurn uuidV7 s event) := by
  obtain ⟨⟨items,inFlight,thread,prompts,wire,begins,whole⟩,⟨waiting,outbox,asked,next⟩,answered,ids⟩ := follows
  cases event with
  | Send now prompt =>
    rw [step]
    split_ifs with connected
    · refine ⟨⟨items ++ [.Prompt now prompt],inFlight,?_,?_,wire,?_,?_⟩,⟨waiting ++ [prompt],?_,?_,fun _ => ?_⟩,answered,ids⟩
      · rw [thread,List.foldl_append]
        rfl
      · rw [List.filterMap_append,prompts]
        rfl
      · simpa [List.filterMap_append,List.filterMap_cons,frameOf] using begins
      · simpa [List.filterMap_append,List.filterMap_cons,frameOf] using whole
      · simp [outbox]
      · exact asked.trans (List.prefix_append _ _)
      · rw [← List.append_assoc,next connected]
    · exact ⟨⟨items,inFlight,thread,prompts,wire,begins,whole⟩,⟨waiting,outbox,asked,next⟩,answered,ids⟩
  | Take =>
    rw [step]
    cases idle : s.sending with
    | cons frame rest => exact ⟨⟨items,inFlight,thread,prompts,wire,begins,whole⟩,⟨waiting,outbox,asked,next⟩,answered,ids⟩
    | nil =>
      cases waiting with
      | nil =>
        rw [List.map_nil] at outbox
        rw [outbox]
        exact ⟨⟨items,inFlight,thread,prompts,wire,begins,whole⟩,⟨[],outbox,asked,next⟩,answered,ids⟩
      | cons prompt waiting =>
        rw [List.map_cons] at outbox
        rw [outbox]
        simp only [understood.handler]
        rw [idle] at whole
        exact follows_start thread prompts wire begins (fun connected => (List.append_nil _).symm.trans (whole connected)) rfl
          asked next answered ids
  | Emit =>
    rw [step]
    cases sending : s.sending with
    | nil => exact ⟨⟨items,inFlight,thread,prompts,wire,begins,whole⟩,⟨waiting,outbox,asked,next⟩,answered,ids⟩
    | cons frame rest =>
      dsimp only
      split_ifs with connected
      · have all := whole connected
        rw [sending] at all
        refine ⟨⟨items,inFlight ++ [frame],thread,prompts,by simp [wire],?_,fun _ => ?_⟩,⟨waiting,outbox,asked,next⟩,answered,ids⟩
        · rw [← all]
          exact ⟨rest,by simp⟩
        · rw [← all]
          simp
      · exact ⟨⟨items,inFlight,thread,prompts,wire,begins,fun open_ => absurd open_ connected⟩,⟨waiting,outbox,asked,next⟩,answered,ids⟩
  | Receive now =>
    rw [step]
    cases inFlight with
    | nil =>
      rw [List.map_nil] at wire
      rw [wire]
      exact ⟨⟨items,[],thread,prompts,wire,begins,whole⟩,⟨waiting,outbox,asked,next⟩,answered,ids⟩
    | cons frame rest =>
      rw [List.map_cons] at wire
      rw [wire]
      dsimp only
      have known : Known frame := by
        obtain ⟨t,-,inside⟩ := List.mem_flatMap.mp (begins.subset (List.mem_append_right _ List.mem_cons_self))
        exact (frames_mem inside).1
      refine ⟨⟨items ++ [.Frame now frame],rest,?_,?_,rfl,?_,fun connected => ?_⟩,⟨waiting,outbox,asked,next⟩,answered,ids⟩
      · rw [onMessage_encode understood.page known,thread,List.foldl_append]
        rfl
      · rw [List.filterMap_append,prompts]
        simp [promptOf]
      · simpa [List.filterMap_append,List.filterMap_cons,frameOf] using begins
      · simpa [List.filterMap_append,List.filterMap_cons,frameOf] using whole connected
  | Break arriving =>
    rw [step]
    refine ⟨⟨items,inFlight.take arriving,thread,prompts,by simp [wire],?_,fun open_ => by cases open_⟩,
      ⟨waiting,outbox,asked,fun open_ => by cases open_⟩,answered,ids⟩
    exact ((List.prefix_append_right_inj _).mpr (List.take_prefix _ _)).trans begins

omit [Serde] [Browser] [ClientFrames] in
theorem own_other {t : Turn} {turnId : String} (other : t.id ≠ turnId) : own turnId t.frames = [] := by
  refine List.filter_eq_nil_iff.mpr fun frame member same => ?_
  rcases (frames_mem member).2 with nobody | mine
  · rw [nobody] at same
    cases of_decide_eq_true same
  · rw [mine] at same
    exact other (Option.some.inj (of_decide_eq_true same))

omit [Serde] [Browser] [ClientFrames] in
theorem own_turns {turns : List Turn} (apart : (turns.map (·.id)).Nodup) {t : Turn} (member : t ∈ turns) :
    own t.id (turns.flatMap Turn.frames) = own t.id t.frames := by
  induction turns with
  | nil => cases member
  | cons u rest ih =>
    rw [List.map_cons,List.nodup_cons] at apart
    rw [List.flatMap_cons,own_append]
    rcases List.mem_cons.mp member with rfl | member
    · have later : own t.id (rest.flatMap Turn.frames) = [] := by
        refine List.filter_eq_nil_iff.mpr fun frame inside same => ?_
        obtain ⟨u,below,framed⟩ := List.mem_flatMap.mp inside
        have other : u.id ≠ t.id := fun equal => apart.1 (List.mem_map.mpr ⟨u,below,equal⟩)
        have absent : frame ∈ own t.id u.frames := List.mem_filter.mpr ⟨framed,same⟩
        rw [own_other other] at absent
        cases absent
      rw [later,List.append_nil]
    · have other : u.id ≠ t.id := fun equal => apart.1 (List.mem_map.mpr ⟨t,member,equal.symm⟩)
      rw [own_other other,List.nil_append,ih apart.2 member]

omit [ClientFrames] in
theorem shows_follows (mints : Mints uuidV7) (numbered : ∀ backend prompt,Numbered (runTurn backend prompt).1) {s : Link β}
    (follows : Follows runTurn uuidV7 backend s) : Shows runTurn backend s := by
  obtain ⟨⟨items,inFlight,thread,prompts,wire,begins,whole⟩,⟨waiting,outbox,asked,next⟩,answered,ids⟩ := follows
  have apart : (s.turns.map (·.id)).Nodup := ids.nodup (List.Nodup.map mints.apart List.nodup_range)
  have uuids : ∀ t ∈ s.turns,Uuid t.id := by
    intro t member
    obtain ⟨n,-,same⟩ := List.mem_map.mp (ids.subset (List.mem_map.mpr ⟨t,member,rfl⟩))
    exact same ▸ mints.uuid n
  have named : ∀ item ∈ items,∀ frame,frameOf item = some frame → Named frame := by
    intro item member frame framed turnId turn
    have sent := begins.subset (List.mem_append_left _ (List.mem_filterMap.mpr ⟨item,member,framed⟩))
    obtain ⟨t,below,inside⟩ := List.mem_flatMap.mp sent
    rcases (frames_mem inside).2 with nobody | mine
    · rw [nobody] at turn
      cases turn
    · cases mine.symm.trans turn
      exact uuids t below
  have numbers : ∀ t ∈ s.turns,Numbered t.reply := by
    have replies : ∀ (prompts : List String) (backend : β),∀ reply ∈ (answers runTurn backend prompts).1,Numbered reply := by
      intro prompts
      induction prompts with
      | nil =>
        intro backend reply member
        cases member
      | cons prompt rest ih =>
        intro backend reply member
        rcases List.mem_cons.mp member with rfl | member
        · exact numbered backend prompt
        · exact ih _ reply member
    intro t member
    refine replies (s.turns.map (·.prompt)) backend t.reply ?_
    rw [answered]
    exact List.mem_map.mpr ⟨t,member,rfl⟩
  have keyed : Keyed intro := by
    intro m member
    cases List.mem_singleton.mp member
  have signed : Signed intro := by
    intro m member user
    cases List.mem_singleton.mp member
    cases user
  have shown : ∀ t ∈ s.turns,owned t.id s.thread = (own t.id (items.filterMap frameOf)).foldl receive [] := by
    intro t member
    have blank : owned t.id intro = [] := by
      simpa [owned,intro,belongs] using (uuids t member).not_intro
    rw [thread,owned_placed (uuids t member) keyed named,blank]
  have front : items.filterMap frameOf <+: s.turns.flatMap Turn.frames := (List.prefix_append _ _).trans begins
  refine ⟨?_,asked,by rw [answered],apart,?_,?_⟩
  · rw [thread,users_placed signed named,prompts]
    rfl
  · intro t member
    rw [shown t member]
    refine (receive_turn (numbers t member) ?_).1
    rw [← own_turns apart member]
    exact front.filter _
  · intro connected noOutbox noSending noWire
    rw [noOutbox] at outbox
    rw [noWire] at wire
    have none_ : waiting = [] := List.map_eq_nil_iff.mp outbox.symm
    have landed : inFlight = [] := List.map_eq_nil_iff.mp wire.symm
    have all := whole connected
    rw [landed,noSending,List.append_nil,List.append_nil] at all
    refine ⟨?_,fun t member => ?_⟩
    · rw [← next connected,none_,List.append_nil]
    · rw [shown t member,all,own_turns apart member]
      exact (receive_turn (numbers t member) (List.prefix_refl _)).2 rfl

/-- Whatever the order in which the operator writes, the handler works and messages arrive,
    and wherever the connection breaks: the thread holds the prompts as they were sent, each
    turn that was run is shown as far as its frames have arrived, with nothing of another
    turn in it, and as a whole when nothing is under way any more. -/
theorem shows_after (understood : Understood) (mints : Mints uuidV7) (numbered : ∀ backend prompt,Numbered (runTurn backend prompt).1)
    (backend : β) (events : List Event) :
    Shows runTurn backend (after (step runTurn uuidV7) (connect backend) events) :=
  shows_follows mints numbered
    (after_invariant (P := Follows runTurn uuidV7 backend) (fun _ event follows => follows_step understood follows event) follows_connect
      events)

end

/-! ### The session behind the surface -/

def convertStatus : Turn.ToolCallResult → TurnToolCallStatus
  | .Success value => .Success value
  | .Denied reason => .Denied reason
  | .RequiresApproval reason => .RequiresApproval reason
  | .Unroutable reason => .Unroutable reason

/-- The session behind its lock, which a panic poisons. -/
structure SessionBackend where
  session : Engine.Session
  poisoned : Bool

/-- The call ids of a turn are derived from the positions of the calls. -/
def turnToolCall (i : Nat) (call : Turn.ToolCallOutcome) : TurnToolCall :=
  ⟨"call-" ++ toString i,call.name,call.arguments,convertStatus call.result⟩

def turnResult (outcome : TurnLoop.TurnOutcome) : TurnResult :=
  ⟨outcome.assistantText,outcome.toolCalls.mapIdx turnToolCall,some outcome.reasoningStepId⟩

section
variable [Clock.Chrono] [Serde] [Ledger.Sha256] [Engine.Identity] [Engine.World]

/-- `display` is the text of an error. -/
def SessionBackend.runTurn (display : Engine.Error → String) (backend : SessionBackend) (prompt : String) :
    BackendReply × SessionBackend :=
  if backend.poisoned then (.Failed "session mutex poisoned: poisoned lock: another task failed inside",backend)
  else
    let outcome := TurnLoop.runTurn prompt backend.session
    match outcome.result with
    | .ok turn => (.Done (turnResult turn),⟨outcome.state,false⟩)
    | .error (.Err e) => (.Failed ("Session::run_turn: " ++ display e),⟨outcome.state,false⟩)
    | .error (.Panic _) => (.Panicked,⟨outcome.state,true⟩)

omit [Clock.Chrono] [Serde] [Ledger.Sha256] [Engine.Identity] [Engine.World] in
theorem turnResult_numbered (outcome : TurnLoop.TurnOutcome) : ((turnResult outcome).toolCalls.map (·.callId)).Nodup := by
  have ids : (turnResult outcome).toolCalls.map (·.callId) = (List.range outcome.toolCalls.length).map fun i => "call-" ++ toString i := by
    refine List.ext_getElem (by simp [turnResult]) fun i low high => ?_
    simp [turnResult,turnToolCall]
  rw [ids]
  refine List.Nodup.map (fun i j same => ?_) List.nodup_range
  have digits := congrArg String.toList same
  simp only [String.toList_append,List.append_cancel_left_eq] at digits
  exact Identifiers.toString_injective (String.toList_injective digits)

theorem runTurn_numbered (display : Engine.Error → String) (backend : SessionBackend) (prompt : String) :
    Numbered (backend.runTurn display prompt).1 := by
  intro result done
  rw [SessionBackend.runTurn] at done
  by_cases poisoned : backend.poisoned
  · rw [if_pos poisoned] at done
    cases done
  · rw [if_neg poisoned] at done
    dsimp only at done
    cases ran : (TurnLoop.runTurn prompt backend.session).result with
    | ok turn =>
      rw [ran] at done
      cases done
      exact turnResult_numbered turn
    | error stop =>
      rw [ran] at done
      cases stop <;> cases done

end

/-! ### A browser -/

mutual
theorem depth_write : ∀ v,depth v ≤ (JsonText.write v).length
  | .Null => Nat.zero_le _
  | .Bool _ => Nat.zero_le _
  | .Number _ => Nat.zero_le _
  | .String _ => Nat.zero_le _
  | .Array [] => by simp [depth,itemsDepth,JsonText.write]
  | .Array (item :: rest) => by
    have first := depth_write item
    have later := depth_writeItems rest
    simp only [depth,itemsDepth,JsonText.write,List.length_cons,List.length_append,List.cons_append]
    omega
  | .Object [] => by simp [depth,fieldsDepth,JsonText.write]
  | .Object ((key,value) :: rest) => by
    have first := depth_write value
    have later := depth_writeFields rest
    simp only [depth,fieldsDepth,JsonText.write,List.length_cons,List.length_append,List.cons_append]
    omega

theorem depth_writeItems : ∀ items,itemsDepth items ≤ (JsonText.writeItems items).length
  | [] => Nat.zero_le _
  | item :: rest => by
    have first := depth_write item
    have later := depth_writeItems rest
    simp only [itemsDepth,JsonText.writeItems,List.length_cons,List.length_append,List.cons_append]
    omega

theorem depth_writeFields : ∀ fields,fieldsDepth fields ≤ (JsonText.writeFields fields).length
  | [] => Nat.zero_le _
  | (key,value) :: rest => by
    have first := depth_write value
    have later := depth_writeFields rest
    simp only [fieldsDepth,JsonText.writeFields,List.length_cons,List.length_append,List.cons_append]
    omega
end

/-- A browser that keeps numbers as they are, and nests as deep as it has to. -/
@[reducible] def browser : Browser where
  jsonParse text :=
    match JsonText.read (text.length+1) text.length text.toList with
    | some (v,[]) => some v
    | _ => none
  stringify v := String.ofList (JsonText.write v)
  double n := n

section
attribute [local instance] browser

mutual
theorem seen_same : ∀ v,seen v = v
  | .Null => rfl
  | .Bool _ => rfl
  | .Number _ => rfl
  | .String _ => rfl
  | .Array items => by rw [seen,seenItems_same items]
  | .Object fields => by rw [seen,seenFields_same fields]

theorem seenItems_same : ∀ items,seenItems items = items
  | [] => rfl
  | item :: rest => by rw [seenItems,seen_same item,seenItems_same rest]

theorem seenFields_same : ∀ fields,seenFields fields = fields
  | [] => rfl
  | (key,value) :: rest => by rw [seenFields,seen_same value,seenFields_same rest]
end

/-- The prompt of a frame whose type is known. -/
def promptOfFrame : Except String Value → Except String String
  | .error e => .error e
  | .ok v =>
    match textField v "type",textField v "prompt" with
    | some "user_prompt",some prompt => .ok prompt
    | some "user_prompt",none => .error "missing field prompt"
    | _,_ => .error "unknown variant"

@[reducible] def clientFrames : ClientFrames := ⟨fun text => promptOfFrame (JsonText.readAll text)⟩

/-- The fields of an object are read in any order. -/
theorem readFields_any {fields : List (String × Value)} (each : ∀ field ∈ fields,ordered field.2) (fuel room : Nat)
    (enough : (JsonText.writeFields fields).length ≤ fuel) (shallow : fieldsDepth fields ≤ room) (rest : List Char) :
    JsonText.readFields fuel room (JsonText.writeFields fields ++ rest) = some (fields,rest) := by
  induction fields generalizing fuel with
  | nil =>
    rw [JsonText.writeFields] at enough ⊢
    obtain ⟨fuel,rfl⟩ : ∃ n,fuel = n+1 := ⟨fuel-1,by simp at enough; omega⟩
    rw [List.singleton_append,JsonText.readFields]
  | cons field fields ih =>
    obtain ⟨key,value⟩ := field
    rw [fieldsDepth] at shallow
    rw [JsonText.writeFields] at enough
    simp only [List.cons_append,List.length_cons,List.length_append] at enough
    obtain ⟨fuel,rfl⟩ : ∃ n,fuel = n+1 := ⟨fuel-1,by omega⟩
    have first := JsonText.read_write value fuel room _ (by omega) (by simp at shallow; omega) (each _ List.mem_cons_self)
      (JsonText.stops_fields fields rest)
    have later := ih (fun other member => each other (List.mem_cons_of_mem _ member)) fuel (by omega) (by omega)
    have named := JsonText.readKey_quoted key (JsonText.write value ++ (JsonText.writeFields fields ++ rest))
    rw [JsonText.writeFields]
    simp only [List.cons_append,List.append_assoc]
    rw [JsonText.readFields,named,Option.bind_some,first,Option.bind_some,later,Option.map_some]

theorem readAll_object {key : String} {value : Value} {fields : List (String × Value)} (first : ordered value)
    (each : ∀ field ∈ fields,ordered field.2) (shallow : depth value ≤ 126) (shallowFields : fieldsDepth fields ≤ 126) :
    JsonText.readAll (String.ofList (JsonText.write (.Object ((key,value) :: fields)))) =
      .ok (.Object (Map.insertAll [] ((key,value) :: fields))) := by
  have size : (JsonText.write value).length+(JsonText.writeFields fields).length < (JsonText.write (.Object ((key,value) :: fields))).length := by
    simp [JsonText.write]
    omega
  have one := JsonText.read_write value (JsonText.write (.Object ((key,value) :: fields))).length 126 _ (by omega) shallow first
    (JsonText.stops_fields fields [])
  have others := readFields_any each (JsonText.write (.Object ((key,value) :: fields))).length 126 (by omega) shallowFields []
  have named := JsonText.readKey_quoted key (JsonText.write value ++ (JsonText.writeFields fields ++ []))
  rw [JsonText.readAll,String.toList_ofList,String.length_ofList,nestingLimit]
  generalize (JsonText.write (.Object ((key,value) :: fields))).length = fuel at one others
  rw [JsonText.write]
  simp only [List.cons_append,List.append_assoc,List.append_nil] at one others named ⊢
  rw [JsonText.read]
  · simp only [named,Option.bind_some,one,others,Option.map_some]
  · intro other same
    simp [JsonText.quoted] at same

theorem readAll_clientFrame (prompt : String) : JsonText.readAll (String.ofList (JsonText.write (clientFrame prompt))) =
    .ok (.Object [("prompt",.String prompt),("schema",.String "v1"),("type",.String "user_prompt")]) := by
  have early : "prompt" < "schema" := by decide
  have late : "schema" < "type" := by decide
  rw [clientFrame,readAll_object (by decide) (by simp [ordered]) (by decide) (by simp [fieldsDepth,depth])]
  simp [Map.insertAll,Map.insert,early,late,not_lt_of_gt]

theorem understands :
    let _ := JsonText.serde
    let _ := clientFrames
    Understood := by
  intro _ _
  constructor
  · intro v sorted
    have text := JsonText.read_write v ((JsonText.write v).length+1) (JsonText.write v).length [] (by omega) (depth_write v) sorted
      (fun c first => by cases first)
    rw [List.append_nil] at text
    change Browser.jsonParse (String.ofList (JsonText.write v)) = _
    rw [Browser.jsonParse]
    dsimp only [browser]
    rw [String.toList_ofList,String.length_ofList,text,seen_same]
  · intro prompt
    have read : ClientFrames.fromStr (String.ofList (JsonText.write (clientFrame prompt))) =
        promptOfFrame (JsonText.readAll (String.ofList (JsonText.write (clientFrame prompt)))) := rfl
    rw [readAll_clientFrame] at read
    exact read

theorem mints_toString : Mints toString where
  apart _ _ same := Identifiers.toString_injective same
  uuid n c member := by
    rw [Nat.toString_eq_repr,Nat.toList_repr] at member
    exact .inl (Nat.isDigit_of_mem_toDigits (by decide) (by decide) member)

open scoped Reference

end

end AegisNode.ChatStream
