import AegisNode.TurnTrace

/-!
The calls that a run hands to the mediators, each with the session it meets, and the rule
that leads from what holds of each of them to what holds of the run.
-/
namespace AegisNode.Mediations
open Clock Json Schema Policy Traced Engine Mediator Turn TurnLoop TurnTrace Chronicle
open Backend hiding ToolCall
open Ledger hiding Error
set_option linter.unusedSectionVars false

/-! ### The mediated calls -/

/-- What is listed after a part, if it runs. -/
def following {α β : Type} (p : Run α) (later : α → Session → List β) (s : Session) : List β :=
  match (p s).result with
  | .ok a => later a (p s).state
  | .error _ => []

theorem following_ok {α β : Type} {p : Run α} {later : α → Session → List β} {s : Session} {a : α} (done : (p s).result = .ok a) :
    following p later s = later a (p s).state := by
  rw [following,done]

/-- The call of a mediator that a tool call leads to, if it leads to one. -/
def mediatedCall (call : Backend.ToolCall) (reasoningStepId : Option String) : Option Call :=
  (routeOf call.name).bind fun route => (callOf call.arguments reasoningStepId route).toOption

section
variable [Chrono] [Serde] [Sha256] [Identity] [World]

def dispatchMediations (call : Backend.ToolCall) (stepId : String) (s : Session) : List (Session × Call) :=
  ((mediatedCall call (some stepId)).map (s,·)).toList

def callMediations (stepId : String) (recorded : Option Nat) (callIndex : Nat) (call : Backend.ToolCall) :
    Session → List (Session × Call) :=
  match recorded with
  | none => dispatchMediations call stepId
  | some turn => following
      (writeToolCallEntry turn (toolCallIdOf turn callIndex) call.name (originOf call.name) (sha256HexOfJson call.arguments))
      fun _ => dispatchMediations call stepId

def callsMediations (stepId : String) (recorded : Option Nat) : Nat → List Backend.ToolCall → Session → List (Session × Call)
  | _,[],_ => []
  | callIndex,call :: rest,s => callMediations stepId recorded callIndex call s ++
      following (runCall stepId recorded callIndex call) (fun _ => callsMediations stepId recorded (callIndex+1) rest) s

/-- Those that follow the answer of the model. -/
def answerMediations (prompt : String) (turn : Option Nat) (tools : List ToolDecl) (response : InferResponse) :
    Session → List (Session × Call) :=
  following (recordReasoningStep prompt response.reasoning (tools.map (·.name)) (response.toolCalls.head?.map (·.name)))
    fun stepUuid m => callsMediations stepUuid.toString (recordedTurn turn m.ledger.schemaVersion) 0 response.toolCalls m

def turnMediations (messages : List ChatMessage) (prompt : String) (turn : Option Nat) (s : Session) : List (Session × Call) :=
  following (infer messages (toolCatalog s.policy)) (fun response => answerMediations prompt turn (toolCatalog s.policy) response) s

def oneTurnMediations (prompt : String) (limits : TurnLimits) (started : Nat) (v2 : Bool) (turn : Nat) (progress : Progress) :
    Session → List (Session × Call) :=
  following (whenV2 v2 (openTurn limits started turn progress.messages))
    fun _ => turnMediations progress.messages prompt (some turn)

def loopMediations (prompt : String) (limits : TurnLimits) (started : Nat) (v2 : Bool) : Nat → Nat → Progress → Session →
    List (Session × Call)
  | 0,_,_,_ => []
  | left+1,turn,progress,s =>
    match tripped limits progress.tokensConsumed (World.instant s.tick-started) with
    | some _ => []
    | none => oneTurnMediations prompt limits started v2 turn progress s.next ++
        following (oneTurn prompt limits started v2 turn progress) (fun played m =>
          if played.2 then [] else loopMediations prompt limits started v2 left (turn+1) played.1 m) s.next

/-- Those of `Session::run`. -/
def runMediations (prompt : String) (limits : TurnLimits) (s : Session) : List (Session × Call) :=
  loopMediations prompt limits (World.instant s.tick) (s.ledger.schemaVersion = .V2) limits.maxTurns.toNat 1
    ⟨[⟨.User,prompt⟩],[],0⟩ s.next

end

/-! ### Where they come from -/

/-- A call that the model of the session may ask for. -/
def Requested (s : Session) (call : Backend.ToolCall) : Prop :=
  ∃ model tick request response,s.loadedModel = some model ∧ model.infer tick request = .ok response ∧ call ∈ response.toolCalls

section
variable [Chrono] [Serde] [Sha256] [Identity] [World]

/-- The mediated call is one of those given, it meets a session like this one, and what it
    does is among the events. -/
structure Arises (given : Backend.ToolCall → Prop) (s : Session) (events : List Event) (x : Session × Call) : Prop where
  kept : Kept s x.1
  named : ∃ call stepId,given call ∧ mediatedCall call (some stepId) = some x.2
  within : (mediate x.2 x.1).events ⊆ events

variable {given : Backend.ToolCall → Prop} {x : Session × Call}

theorem Arises.after {s m : Session} {before events : List Event} (kept : Kept s m) (arises : Arises given m events x) :
    Arises given s (before ++ events) x :=
  ⟨@stays_composes.append s m x.1 [] [] kept arises.kept,arises.named,
    List.Subset.trans arises.within (List.subset_append_right _ _)⟩

theorem Arises.before {s : Session} {events later : List Event} (arises : Arises given s events x) :
    Arises given s (events ++ later) x :=
  ⟨arises.kept,arises.named,List.Subset.trans arises.within (List.subset_append_left _ _)⟩

theorem Arises.bind {α β : Type} {p : Run α} {f : α → Run β} {s : Session} (arises : Arises given s (p s).events x) :
    Arises given s ((p >>= f) s).events x := by
  obtain ⟨rest,same⟩ := bind_events p f s
  rw [same]
  exact arises.before

theorem arises_following {α β : Type} {p : Run α} {f : α → Run β} {later : α → Session → List (Session × Call)} {s : Session}
    (made : Made Step p) (next : ∀ a m,Kept s m → x ∈ later a m → Arises given m (f a m).events x) (listed : x ∈ following p later s) :
    Arises given s ((p >>= f) s).events x := by
  cases done : (p s).result with
  | error stop =>
    rw [following,done] at listed
    cases listed
  | ok a =>
    rw [following_ok done] at listed
    rw [bind_ok done]
    exact (next a _ (stays_made made s) listed).after (stays_made made s)

theorem dispatch_arises {call : Backend.ToolCall} {stepId : String} {s : Session} (own : given call)
    (listed : x ∈ dispatchMediations call stepId s) : Arises given s (dispatchToolCall call (some stepId) s).events x := by
  rw [dispatchMediations,Option.mem_toList,Option.map_eq_some_iff] at listed
  obtain ⟨mediated,leads,rfl⟩ := listed
  obtain ⟨route,routed,called⟩ := Option.bind_eq_some_iff.mp leads
  have found : callOf call.arguments (some stepId) route = .ok mediated := by
    cases leadsTo : callOf call.arguments (some stepId) route with
    | error error =>
      rw [leadsTo] at called
      cases called
    | ok other =>
      rw [leadsTo] at called
      cases called
      rfl
  have alike := (runRoute_alike call.arguments (some stepId) route s).1
  rw [Turn.mediated,found] at alike
  rw [dispatchToolCall,routed]
  refine Arises.bind ?_
  rw [(attempt_same caught (runRoute call.arguments (some stepId) route) s).1,alike]
  exact ⟨rfl,⟨call,stepId,own,leads⟩,List.Subset.refl _⟩

theorem made_runCall (stepId : String) (recorded : Option Nat) (callIndex : Nat) (call : Backend.ToolCall) :
    Made Step (runCall stepId recorded callIndex call) := by
  cases recorded with
  | none => exact made_dispatchToolCall _ _
  | some turn =>
    refine made_bind (made_emitNow (by simp) _ _) fun _ => ?_
    refine made_bind (made_dispatchToolCall _ _) fun outcome => ?_
    exact made_bind (made_emitNow (by simp) _ _) fun _ => made_pure _

theorem call_arises {stepId : String} {recorded : Option Nat} {callIndex : Nat} {call : Backend.ToolCall} {s : Session}
    (own : given call) (listed : x ∈ callMediations stepId recorded callIndex call s) :
    Arises given s (runCall stepId recorded callIndex call s).events x := by
  cases recorded with
  | none => exact dispatch_arises own listed
  | some turn =>
    exact arises_following (made_emitNow (by simp) _ _) (fun _ _ _ within => (dispatch_arises own within).bind) listed

theorem calls_arise {stepId : String} {recorded : Option Nat} {callIndex : Nat} {calls : List Backend.ToolCall} {s : Session}
    (own : ∀ call ∈ calls,given call) (listed : x ∈ callsMediations stepId recorded callIndex calls s) :
    Arises given s (runCalls stepId recorded callIndex calls s).events x := by
  induction calls generalizing callIndex s with
  | nil => cases listed
  | cons call rest ih =>
    rcases List.mem_append.mp listed with here | later
    · exact (call_arises (own call List.mem_cons_self) here).bind
    · refine arises_following (made_runCall _ _ _ _) (fun _ _ _ within => ?_) later
      exact (ih (fun other member => own other (List.mem_cons_of_mem _ member)) within).bind

theorem answer_arises {prompt : String} {turn : Option Nat} {tools : List ToolDecl} {response : InferResponse} {s : Session}
    (own : ∀ call ∈ response.toolCalls,given call) (listed : x ∈ answerMediations prompt turn tools response s) :
    Arises given s (dispatchAnswer prompt turn tools response s).events x := by
  refine arises_following (made_recordReasoningStep _ _ _ _) (fun _ _ _ within => ?_) listed
  rw [reads_bind]
  exact (calls_arise own within).bind

theorem turn_arises {messages : List ChatMessage} {prompt : String} {turn : Option Nat} {s : Session}
    (listed : x ∈ turnMediations messages prompt turn s) : Arises (Requested s) s (runOneTurn messages prompt turn s).events x := by
  rw [runOneTurn,reads_bind]
  rw [turnMediations] at listed
  rcases infer_cases messages (toolCatalog s.policy) s with ⟨-,asked⟩ | ⟨model,loaded,⟨error,-,asked⟩ | ⟨response,answers,asked⟩⟩
  · rw [following,asked] at listed
    cases listed
  · rw [following,asked] at listed
    cases listed
  · have done : (infer messages (toolCatalog s.policy) s).result = .ok response := by rw [asked]
    rw [following_ok done] at listed
    rw [bind_ok done]
    have own : ∀ call ∈ response.toolCalls,Requested s call := fun call member =>
      ⟨model,s.tick,_,response,loaded,answers,member⟩
    exact (answer_arises own listed).after (stays_made (made_infer _ _) s)

theorem Arises.of_kept {s m : Session} {events : List Event} (kept : Kept s m) (arises : Arises (Requested m) m events x) :
    Arises (Requested s) m events x := by
  refine ⟨arises.kept,?_,arises.within⟩
  obtain ⟨call,stepId,⟨model,tick,request,response,loaded,rest⟩,named⟩ := arises.named
  refine ⟨call,stepId,⟨model,tick,request,response,?_,rest⟩,named⟩
  rw [← loaded,kept]

theorem oneTurn_arises {prompt : String} {limits : TurnLimits} {started : Nat} {v2 : Bool} {turn : Nat} {progress : Progress} {s : Session}
    (listed : x ∈ oneTurnMediations prompt limits started v2 turn progress s) :
    Arises (Requested s) s (oneTurn prompt limits started v2 turn progress s).events x := by
  have made : Made Step (whenV2 v2 (openTurn limits started turn progress.messages)) := by
    unfold whenV2
    split_ifs
    · exact made_openTurn _ _ _ _
    · exact made_pure _
  exact arises_following made (fun _ _ kept within => ((turn_arises within).of_kept kept).bind) listed

theorem loop_arises {prompt : String} {limits : TurnLimits} {started : Nat} {v2 : Bool} {left turn : Nat} {progress : Progress} {s : Session}
    (listed : x ∈ loopMediations prompt limits started v2 left turn progress s) :
    Arises (Requested s) s (turnLoop prompt limits started v2 left turn progress s).events x := by
  induction left generalizing turn progress s with
  | zero => cases listed
  | succ left ih =>
    have next : Kept s s.next := rfl
    rw [turnLoop,elapsedSince_bind]
    rw [loopMediations] at listed
    cases checked : tripped limits progress.tokensConsumed (World.instant s.tick-started) with
    | some bound =>
      rw [checked] at listed
      cases listed
    | none =>
      rw [checked] at listed
      dsimp only at listed ⊢
      have inner : Arises (Requested s.next) s.next ((oneTurn prompt limits started v2 turn progress >>= fun played =>
          if played.2 then do
            let wallclock ← elapsedSince started
            return ⟨played.1.turns,.Done,played.1.tokensConsumed,wallclock⟩
          else turnLoop prompt limits started v2 left (turn+1) played.1) s.next).events x := by
        rcases List.mem_append.mp listed with here | later
        · exact (oneTurn_arises here).bind
        · refine arises_following (made_oneTurn _ _ _ _ _ _) (fun played m kept within => ?_) later
          split_ifs at within ⊢ with last
          · cases within
          · exact (ih within).of_kept kept
      have arises := inner.of_kept next
      exact ⟨@stays_composes.append s s.next x.1 [] [] next arises.kept,arises.named,arises.within⟩

/-- Every call that a run hands to a mediator is one that the model asked for, it meets
    the session of the run, and what it does is part of the run. -/
theorem run_arises {prompt : String} {limits : TurnLimits} {s : Session} (listed : x ∈ runMediations prompt limits s) :
    Arises (Requested s) s (run prompt limits s).events x := by
  rw [run_loops]
  have later := (loop_arises listed).of_kept (show Kept s s.next from rfl)
  exact ⟨@stays_composes.append s s.next x.1 [] [] rfl later.kept,later.named,later.within⟩

end

/-! ### From the calls to the run -/

section
variable [Chrono] [Serde] [Sha256] [Identity] [World] {R : Session → List Event → Session → Prop} (composes : Composes R)
include composes

/-- A part whose continuation depends on what is listed after it. -/
theorem bind_following {α β γ : Type} {p : Run α} {f : α → Run β} {later : α → Session → List γ} {P : γ → Prop}
    (first : Respects R p) (next : ∀ a s,(∀ x ∈ later a s,P x) → R s (f a s).events (f a s).state) {s : Session}
    (each : ∀ x ∈ following p later s,P x) : R s ((p >>= f) s).events ((p >>= f) s).state := by
  cases done : (p s).result with
  | error stop =>
    rw [bind_error done]
    exact first s
  | ok a =>
    rw [following_ok done] at each
    rw [bind_ok done]
    exact composes.append (first s) (next a _ each)

variable {P : Session × Call → Prop}
  (mediated : ∀ s call,P (s,call) → R s (mediate call s).events (mediate call s).state)
include mediated

theorem dispatch_follows (call : Backend.ToolCall) (stepId : String) {s : Session}
    (each : ∀ x ∈ dispatchMediations call stepId s,P x) :
    R s (dispatchToolCall call (some stepId) s).events (dispatchToolCall call (some stepId) s).state := by
  have told : ∀ dispatched,Respects R (toolCallResult dispatched) := by
    intro dispatched s
    unfold toolCallResult
    split <;> exact composes.idle s
  rw [dispatchToolCall]
  rw [dispatchMediations,mediatedCall] at each
  cases routed : routeOf call.name with
  | none => exact composes.idle s
  | some route =>
    dsimp only
    rw [routed] at each
    have inner : R s (runRoute call.arguments (some stepId) route s).events (runRoute call.arguments (some stepId) route s).state := by
      obtain ⟨events,state,-⟩ := runRoute_alike call.arguments (some stepId) route s
      rw [events,state,Turn.mediated]
      cases called : callOf call.arguments (some stepId) route with
      | error error => exact composes.idle s
      | ok mediatedCall =>
        rw [Option.bind_some,called] at each
        exact mediated s mediatedCall (each _ (List.mem_singleton_self _))
    have attempted : R s (attempt caught (runRoute call.arguments (some stepId) route) s).events
        (attempt caught (runRoute call.arguments (some stepId) route) s).state := by
      obtain ⟨events,state⟩ := attempt_same caught (runRoute call.arguments (some stepId) route) s
      rw [events,state]
      exact inner
    cases done : (attempt caught (runRoute call.arguments (some stepId) route) s).result with
    | error stop =>
      rw [bind_error done]
      exact attempted
    | ok dispatched =>
      rw [bind_ok done]
      refine composes.append attempted ?_
      exact respects_bind composes (told dispatched) (fun result => respects_pure composes _) _

variable (called : ∀ turn toolCallId toolName origin requestArgsHex,
    Respects R (writeToolCallEntry turn toolCallId toolName origin requestArgsHex))
  (returned : ∀ turn toolCallId resultHashHex result,Respects R (writeToolResultEntry turn toolCallId resultHashHex result))
include called returned

theorem call_follows (stepId : String) (recorded : Option Nat) (callIndex : Nat) (call : Backend.ToolCall) {s : Session}
    (each : ∀ x ∈ callMediations stepId recorded callIndex call s,P x) :
    R s (runCall stepId recorded callIndex call s).events (runCall stepId recorded callIndex call s).state := by
  cases recorded with
  | none => exact dispatch_follows composes mediated call stepId each
  | some turn =>
    refine bind_following composes (called _ _ _ _ _) (fun _ m within => ?_) each
    have last : ∀ outcome : ToolCallOutcome,Respects R (do
        writeToolResultEntry turn (toolCallIdOf turn callIndex) (sha256HexOfJson (toolCallResultToValue outcome.result))
          (toolCallResultToValue outcome.result)
        return outcome) := fun outcome => respects_bind composes (returned _ _ _ _) fun _ => respects_pure composes _
    have first := dispatch_follows composes mediated call stepId within
    cases done : (dispatchToolCall call (some stepId) m).result with
    | error stop =>
      rw [bind_error done]
      exact first
    | ok outcome =>
      rw [bind_ok done]
      exact composes.append first (last outcome _)

/-- The calls of a turn. -/
theorem calls_follow (stepId : String) (recorded : Option Nat) (callIndex : Nat) (calls : List Backend.ToolCall) {s : Session}
    (each : ∀ x ∈ callsMediations stepId recorded callIndex calls s,P x) :
    R s (runCalls stepId recorded callIndex calls s).events (runCalls stepId recorded callIndex calls s).state := by
  induction calls generalizing callIndex s with
  | nil => exact composes.idle s
  | cons call rest ih =>
    rw [callsMediations,List.forall_mem_append] at each
    obtain ⟨here,later⟩ := each
    have first := call_follows composes mediated called returned stepId recorded callIndex call here
    rw [runCalls]
    cases done : (runCall stepId recorded callIndex call s).result with
    | error stop =>
      rw [bind_error done]
      exact first
    | ok outcome =>
      rw [following_ok done] at later
      rw [bind_ok done]
      have alike := alike_return (runCalls stepId recorded (callIndex+1) rest) (fun outcomes => outcome :: outcomes)
        (runCall stepId recorded callIndex call s).state
      have others := ih _ later
      rw [← alike.1,← alike.2.1] at others
      exact composes.append first others

variable (inferred : ∀ messages tools,Respects R (infer messages tools))
  (reasoned : ∀ input reasoning toolsConsidered toolSelected,
    Respects R (recordReasoningStep input reasoning toolsConsidered toolSelected))
include inferred reasoned

/-- The model is asked, its reasoning is recorded, and its calls follow. -/
theorem runOneTurn_follows (messages : List ChatMessage) (prompt : String) (turn : Option Nat) {s : Session}
    (each : ∀ x ∈ turnMediations messages prompt turn s,P x) :
    R s (runOneTurn messages prompt turn s).events (runOneTurn messages prompt turn s).state := by
  rw [runOneTurn,reads_bind]
  refine bind_following composes (inferred _ _) (fun response m within => ?_) each
  refine bind_following composes (reasoned _ _ _ _) (fun stepUuid t clear => ?_) within
  rw [reads_bind]
  have calls := calls_follow composes mediated called returned stepUuid.toString (recordedTurn turn t.ledger.schemaVersion) 0
    response.toolCalls clear
  have alike := alike_return (runCalls stepUuid.toString (recordedTurn turn t.ledger.schemaVersion) 0 response.toolCalls)
    (fun outcomes => ((⟨response.assistantText,outcomes,stepUuid.toString⟩ : TurnOutcome),response.tokensUsed)) t
  rw [← alike.1,← alike.2.1] at calls
  exact calls

end

section
variable [Chrono] [Serde] [Sha256] [Identity] [World] {R : Session → List Event → Session → Prop} (composes : Composes R)
  {P : Session × Call → Prop}
  (answered : ∀ messages prompt turn s,(∀ x ∈ turnMediations messages prompt turn s,P x) →
    R s (runOneTurn messages prompt turn s).events (runOneTurn messages prompt turn s).state)
include composes answered

/-- `Session::run_turn` is one answer. -/
theorem runTurn_follows (userMessage : String) {s : Session}
    (each : ∀ x ∈ turnMediations [⟨.User,userMessage⟩] userMessage none s,P x) :
    R s (runTurn userMessage s).events (runTurn userMessage s).state := by
  have alike := alike_return (runOneTurn [⟨.User,userMessage⟩] userMessage none) (·.1) s
  rw [runTurn,alike.1,alike.2.1]
  exact answered _ _ _ s each

variable (timed : Respects R instantNow)
  (opened : ∀ limits started turn messages,Respects R (openTurn limits started turn messages))
  (concluded : ∀ started v2 turn progress outcome used,Respects R (concludeTurn started v2 turn progress outcome used))
  (capped : ∀ bound atTurn limits tokensConsumed elapsed,
    Respects R (emitCapAndBuildErr bound atTurn limits tokensConsumed elapsed : Run SessionRunResult))
include opened concluded

theorem oneTurn_follows (prompt : String) (limits : TurnLimits) (started : Nat) (v2 : Bool) (turn : Nat) (progress : Progress)
    {s : Session} (each : ∀ x ∈ oneTurnMediations prompt limits started v2 turn progress s,P x) :
    R s (oneTurn prompt limits started v2 turn progress s).events (oneTurn prompt limits started v2 turn progress s).state := by
  have opens : Respects R (whenV2 v2 (openTurn limits started turn progress.messages)) := by
    unfold whenV2
    split_ifs
    · exact opened _ _ _ _
    · exact respects_pure composes _
  refine bind_following composes opens (fun _ m within => ?_) each
  have first := answered progress.messages prompt (some turn) m within
  cases done : (runOneTurn progress.messages prompt (some turn) m).result with
  | error stop =>
    rw [bind_error done]
    exact first
  | ok answer =>
    rw [bind_ok done]
    exact composes.append first (concluded _ _ _ _ _ _ _)

include timed capped

theorem turnLoop_follows (prompt : String) (limits : TurnLimits) (started : Nat) (v2 : Bool) (left turn : Nat) (progress : Progress)
    {s : Session} (each : ∀ x ∈ loopMediations prompt limits started v2 left turn progress s,P x) :
    R s (turnLoop prompt limits started v2 left turn progress s).events
      (turnLoop prompt limits started v2 left turn progress s).state := by
  have elapsed : ∀ {α : Type} {g : Nat → Run α} {s : Session},
      R s.next (g (World.instant s.tick-started) s.next).events (g (World.instant s.tick-started) s.next).state →
      R s ((elapsedSince started >>= g) s).events ((elapsedSince started >>= g) s).state := by
    intro α g s later
    rw [elapsedSince_bind]
    exact composes.append (timed s) later
  induction left generalizing turn progress s with
  | zero => exact elapsed (capped _ _ _ _ _ _)
  | succ left ih =>
    rw [turnLoop]
    refine elapsed ?_
    rw [loopMediations] at each
    cases checked : tripped limits progress.tokensConsumed (World.instant s.tick-started) with
    | some bound => exact capped _ _ _ _ _ _
    | none =>
      rw [checked] at each
      dsimp only at each ⊢
      rw [List.forall_mem_append] at each
      obtain ⟨here,later⟩ := each
      have first := oneTurn_follows composes answered opened concluded prompt limits started v2 turn progress here
      cases done : (oneTurn prompt limits started v2 turn progress s.next).result with
      | error stop =>
        rw [bind_error done]
        exact first
      | ok played =>
        rw [following_ok done] at later
        rw [bind_ok done]
        refine composes.append first ?_
        split_ifs with last
        · exact elapsed (composes.idle _)
        · rw [if_neg last] at later
          exact ih _ _ later

/-- `Session::run`: what holds of the parts of its loop, and of each answer whose calls
    have the property, holds of it if all its calls have it. -/
theorem run_follows (prompt : String) (limits : TurnLimits) {s : Session} (each : ∀ x ∈ runMediations prompt limits s,P x) :
    R s (run prompt limits s).events (run prompt limits s).state := by
  rw [run_loops]
  have later := turnLoop_follows composes answered timed opened concluded capped prompt limits (World.instant s.tick)
    (s.ledger.schemaVersion = .V2) limits.maxTurns.toNat 1 ⟨[⟨.User,prompt⟩],[],0⟩ each
  exact composes.append (timed s) later

end

end AegisNode.Mediations
