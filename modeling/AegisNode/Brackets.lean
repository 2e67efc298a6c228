import AegisNode.ReferenceTurn

/-!
The shape of a recorded run: turns one after another, in each of them pairs of calls and
results, and the bound that ended the run last. A turn that fails between its first entry
and its calls' last one stays open.
-/
namespace AegisNode.Brackets
open Clock Json Schema Policy Traced Engine Mediator Frames Entries Turn TurnLoop Chronicle TurnTrace
open Backend hiding ToolCall
open Ledger hiding Error
set_option linter.unusedSectionVars false

/-! ### The shape -/

def Says (entry : Entry) (key : String) (value : Value) : Prop := Map.get entry.payload.fields key = some value

/-- Kinds of entries that a mediated operation writes. -/
def mediates : EntryType → Bool
  | .Access | .Violation | .ApprovalRequest | .ApprovalGranted | .ApprovalRejected | .ApprovalTimedOut
  | .ApprovalDecision => true
  | _ => false

/-- Calls from an index on, each with its result. -/
inductive Pairs (turn : Nat) : Nat → List Entry → Prop where
  | Over {callIndex : Nat} : Pairs turn callIndex []
  | Pair {callIndex : Nat} {opening closing : Entry} {within rest : List Entry} (opens : opening.entryType = .ToolCall)
      (named : Says opening "toolCallId" (.String (toolCallIdOf turn callIndex)))
      (mediated : ∀ entry ∈ within,mediates entry.entryType = true) (closes : closing.entryType = .ToolResult)
      (same : Says closing "toolCallId" (.String (toolCallIdOf turn callIndex))) (others : Pairs turn (callIndex+1) rest) :
      Pairs turn callIndex (opening :: within ++ closing :: rest)

/-- Turns from a number on, and a bound after them if one was reached. -/
inductive Bracketed : Nat → List Entry → Prop where
  | Over {turn : Nat} : Bracketed turn []
  | Capped {turn : Nat} {entry : Entry} (violates : entry.entryType = .Violation)
      (kind : Says entry "violationKind" (.String "TurnCapExceeded")) : Bracketed turn [entry]
  | Turn {turn : Nat} {opening reasoned closing : Entry} {calls flags rest : List Entry} (opens : opening.entryType = .TurnStart)
      (numbered : Says opening "turnNumber" (turnNumber turn).value) (reasons : reasoned.entryType = .ReasoningStep)
      (pairs : Pairs turn 0 calls)
      (flagging : ∀ entry ∈ flags,entry.entryType = .Violation ∧ Says entry "violationKind" (.String "AdversarialContent"))
      (closes : closing.entryType = .TurnEnd) (same : Says closing "turnNumber" (turnNumber turn).value)
      (later : Bracketed (turn+1) rest) :
      Bracketed turn (opening :: reasoned :: (calls ++ flags ++ closing :: rest))

def starting (entry : Entry) : Bool := entry.entryType = .TurnStart

def ending (entry : Entry) : Bool := entry.entryType = .TurnEnd

theorem pairs_inside {turn callIndex : Nat} {entries : List Entry} (pairs : Pairs turn callIndex entries) :
    entries.countP starting = 0 ∧ entries.countP ending = 0 := by
  induction pairs with
  | Over => exact ⟨rfl,rfl⟩
  | @Pair callIndex opening closing within rest opens named mediated closes same others ih =>
    have inside : ∀ entry ∈ within,starting entry = false ∧ ending entry = false := by
      intro entry member
      have kind := mediated entry member
      unfold starting ending
      cases other : entry.entryType <;> rw [other] at kind <;> first | exact ⟨rfl,rfl⟩ | cases kind
    have none : within.countP starting = 0 ∧ within.countP ending = 0 := by
      constructor <;> rw [List.countP_eq_zero]
      · intro entry member
        simp [(inside entry member).1]
      · intro entry member
        simp [(inside entry member).2]
    constructor
    · simp [List.countP_append,none.1,ih.1,starting,opens,closes]
    · simp [List.countP_append,none.2,ih.2,ending,opens,closes]

/-- Each turn that is opened is closed. -/
theorem bracketed_counts {turn : Nat} {entries : List Entry} (bracketed : Bracketed turn entries) :
    entries.countP starting = entries.countP ending := by
  induction bracketed with
  | Over => rfl
  | Capped violates kind => simp [starting,ending,violates]
  | @Turn turn opening reasoned closing calls flags rest opens numbered reasons pairs flagging closes same later ih =>
    obtain ⟨noStart,noEnd⟩ := pairs_inside pairs
    have flagged : flags.countP starting = 0 ∧ flags.countP ending = 0 := by
      constructor <;> rw [List.countP_eq_zero] <;> intro entry member
      · simp [starting,(flagging entry member).1]
      · simp [ending,(flagging entry member).1]
    have left : starting opening = true ∧ starting reasoned = false ∧ starting closing = false := by
      simp [starting,opens,reasons,closes]
    have right : ending opening = false ∧ ending reasoned = false ∧ ending closing = true := by
      simp [ending,opens,reasons,closes]
    simp only [List.countP_append,List.countP_cons,noStart,noEnd,flagged.1,flagged.2,left.1,left.2.1,left.2.2,right.1,
      right.2.1,right.2.2,ih]
    simp

/-! ### The entries of a turn -/

def wrote? : Sight → Option Entry
  | .Wrote entry => some entry
  | _ => none

/-- The entries among the sights. -/
def written (seen : List Sight) : List Entry := seen.filterMap wrote?

theorem written_append (left right : List Sight) : written (left ++ right) = written left ++ written right :=
  List.filterMap_append

theorem written_sights (events : List Event) : written (sights events) = appended events := by
  rw [written,sights,appended,List.filterMap_filterMap]
  congr 1
  funext e
  cases e <;> rfl

section
variable [Serde] [Sha256]

theorem entered_written {entryType : EntryType} {fields : List (String × Scalar)} {sight : Sight}
    (entered : Entered entryType fields sight) (rest : List Sight) :
    ∃ entry,written (sight :: rest) = entry :: written rest ∧ entry.entryType = entryType ∧
      ∀ key,Map.get entry.payload.fields key = fieldOf fields key := by
  obtain ⟨entry,rfl,kind,payload⟩ := entered
  refine ⟨entry,List.filterMap_cons_some rfl,kind,fun key => ?_⟩
  rw [payload,get_payloadOf]

theorem mediated_written {stepId : String} {within : List Sight} (mediated : ∀ sight ∈ within,Mediated stepId sight) :
    ∀ entry ∈ written within,mediates entry.entryType = true := by
  intro entry member
  obtain ⟨sight,among,seen⟩ := List.mem_filterMap.mp member
  obtain ⟨about,entryType,fields,kind,other,rfl,rfl,-⟩ := mediated sight among
  cases seen
  rcases kind with worked | approved
  · generalize entry.entryType = entryType at worked
    cases worked <;> rfl
  · generalize entry.entryType = entryType at approved
    cases approved <;> rfl

theorem calls_pairs {stepId : String} {turn callIndex : Nat} {calls : List Backend.ToolCall} {results : List ToolCallResult}
    {seen : List Sight} (called : CallsSeen stepId turn callIndex calls results seen)
    (each : results.length = calls.length) : Pairs turn callIndex (written seen) := by
  induction called with
  | @Ended callIndex calls =>
    exact .Over
  | Broken opens mediated => cases each
  | @Paired callIndex call rest opening closing within later result results opens mediated closes others ih =>
    obtain ⟨first,front,called,field⟩ := entered_written opens (within ++ closing :: later)
    obtain ⟨last,back,resulted,field'⟩ := entered_written closes later
    rw [List.cons_append,front,written_append,back]
    refine .Pair called ?_ (mediated_written mediated) resulted ?_ (ih (Nat.succ.inj each))
    · rw [Says,field]
      rfl
    · rw [Says,field',resultedFields,toolResultFields,resultField]
      split_ifs <;> rfl

theorem flags_written {classifierName : String} {flagged : List Judged} {seen : List Sight}
    (flags : FlagsSeen classifierName flagged seen) :
    ∀ entry ∈ written seen,entry.entryType = .Violation ∧ Says entry "violationKind" (.String "AdversarialContent") := by
  induction flags with
  | nil => simp [written]
  | @cons judged sight others rest first later ih =>
    obtain ⟨violation,front,violates,field⟩ := entered_written first rest
    rw [front]
    intro entry member
    rcases List.mem_cons.mp member with rfl | member
    · refine ⟨violates,?_⟩
      rw [Says,field,adversarialFields]
      cases fromF64 (nearest 24 judged.verdict.score 100) <;> rfl
    · exact ih entry member

variable {s : Session} {prompt : String} {turn : Nat} {messages : List ChatMessage}

/-- A complete turn before others. -/
theorem completed_bracketed {response : InferResponse} {results : List ToolCallResult} {outcome : TurnOutcome}
    {seen : List Sight} {rest : List Entry} (completed : Completed s prompt turn messages response results outcome seen)
    (later : Bracketed (turn+1) rest) : Bracketed turn (written seen ++ rest) := by
  obtain ⟨issued,opening,closing,answer,flags,tokens,ms,taken,opens,answered,flagging,closes,rfl⟩ := completed.whole
  obtain ⟨stepUuid,reasoned,called,dispatched,rfl⟩ := answered.parts
  obtain ⟨live,svid,rfl⟩ := opens.issues
  obtain ⟨thumbprint,entered⟩ := opens.opens
  obtain ⟨first,front,starts,field⟩ := entered_written entered
    (.Asked (requestOf messages s) (.ok response) :: reasoned :: called ++ flags ++ [closing])
  obtain ⟨second,front',reasons,-⟩ := entered_written dispatched.reasons (called ++ (flags ++ [closing]))
  obtain ⟨last,back,ends,field'⟩ := entered_written closes []
  have whole : written (.Issued (turnAudience s.sessionId turn) live svid :: opening ::
      (.Asked (requestOf messages s) (.ok response) :: reasoned :: called ++ flags ++ [closing])) ++ rest =
      first :: second :: (written called ++ written flags ++ last :: rest) := by
    have skip : ∀ {sight : Sight} {more : List Sight},wrote? sight = none → written (sight :: more) = written more :=
      fun none => List.filterMap_cons_none none
    rw [skip rfl,front,List.append_assoc,List.cons_append,List.cons_append,List.cons_append,skip rfl,front',written_append,written_append,back]
    simp [written]
  rw [whole]
  refine .Turn starts ?_ reasons (calls_pairs dispatched.called answered.length) (flags_written flagging) ends ?_ later
  · rw [Says,field]
    rfl
  · rw [Says,field',turnEndFields]
    cases response.tokensUsed <;> rfl

/-- The entry neither opens nor closes a turn. -/
def Inside (entry : Entry) : Prop := starting entry = false ∧ ending entry = false

theorem inside_counts {entries : List Entry} (inside : ∀ entry ∈ entries,Inside entry) :
    entries.countP starting = 0 ∧ entries.countP ending = 0 := by
  constructor <;> rw [List.countP_eq_zero] <;> intro entry member
  · simp [(inside entry member).1]
  · simp [(inside entry member).2]

theorem inside_entered {entryType : EntryType} {fields : List (String × Scalar)} {sight : Sight} {rest : List Sight}
    (entered : Entered entryType fields sight) (start : entryType ≠ .TurnStart) (last : entryType ≠ .TurnEnd)
    (inside : ∀ entry ∈ written rest,Inside entry) : ∀ entry ∈ written (sight :: rest),Inside entry := by
  obtain ⟨first,front,kind,-⟩ := entered_written entered rest
  rw [front]
  intro entry member
  rcases List.mem_cons.mp member with rfl | member
  · simp [Inside,starting,ending,kind,start,last]
  · exact inside entry member

theorem inside_mediated {stepId : String} {within : List Sight} (mediated : ∀ sight ∈ within,Mediated stepId sight) :
    ∀ entry ∈ written within,Inside entry := by
  intro entry member
  have kind := mediated_written mediated entry member
  unfold Inside starting ending
  cases other : entry.entryType <;> rw [other] at kind <;> first | exact ⟨rfl,rfl⟩ | cases kind

theorem inside_append {left right : List Sight} (first : ∀ entry ∈ written left,Inside entry)
    (second : ∀ entry ∈ written right,Inside entry) : ∀ entry ∈ written (left ++ right),Inside entry := by
  rw [written_append]
  intro entry member
  rcases List.mem_append.mp member with member | member
  · exact first entry member
  · exact second entry member

theorem calls_inside {stepId : String} {callIndex : Nat} {calls : List Backend.ToolCall} {results : List ToolCallResult}
    {seen : List Sight} (called : CallsSeen stepId turn callIndex calls results seen) : ∀ entry ∈ written seen,Inside entry := by
  induction called with
  | Ended => simp [written]
  | Broken opens mediated => exact inside_entered opens (by decide) (by decide) (inside_mediated mediated)
  | Paired opens mediated closes others ih =>
    rw [List.cons_append]
    refine inside_entered opens (by decide) (by decide) ?_
    exact inside_append (inside_mediated mediated) (inside_entered closes (by decide) (by decide) ih)

/-- An answer opens and closes no turn. -/
theorem answer_inside {request : InferRequest} {seen : List Sight} (answer : AnswerSeen request prompt turn seen) :
    ∀ entry ∈ written seen,Inside entry := by
  cases answer with
  | Unasked => simp [written]
  | Failed error => simp [written,wrote?]
  | Unreasoned response => simp [written,wrote?]
  | Dispatched dispatched =>
    have skip : ∀ {response : Except BackendError InferResponse} {more : List Sight},
        written (.Asked request response :: more) = written more := List.filterMap_cons_none rfl
    rw [skip]
    exact inside_entered dispatched.reasons (by decide) (by decide) (calls_inside dispatched.called)

end

/-! ### Clean turns -/

section
variable [Chrono] [Serde] [Sha256] [World] [Identity]

theorem emitNow_clean {wrap : Ledger.Error → Error} {entryType : EntryType} {fields : List (String × Scalar)} {s : Session}
    (clean : Clean (emitNow wrap entryType fields s).events) : (emitNow wrap entryType fields s).result = .ok () := by
  cases ended : (emitNow wrap entryType fields s).result with
  | ok _ => rfl
  | error stop =>
    obtain ⟨rest,stops,same⟩ := stops_ask_bind.mp (stops_of_result ended)
    obtain ⟨result,ledger,-,stopped,-,rfl⟩ := stops_emit.mp stops
    change (emitNow wrap entryType fields s).events = _ at same
    rw [same] at clean
    obtain ⟨record,rfl⟩ := clean _ result (List.mem_append_right _ List.mem_cons_self)
    cases stopped

theorem bind_clean {α β : Type} {p : Run α} {f : α → Run β} {s : Session} (clean : Clean ((p >>= f) s).events) :
    Clean (p s).events := by
  obtain ⟨rest,whole⟩ := bind_events p f s
  rw [whole] at clean
  exact (clean_append.mp clean).1

theorem writeFlagged_clean (classifierName : String) (judged : List Judged) {s : Session}
    (clean : Clean (writeFlagged classifierName judged s).events) : (writeFlagged classifierName judged s).result = .ok () := by
  induction judged generalizing s with
  | nil => rfl
  | cons first rest ih =>
    rw [writeFlagged] at clean ⊢
    have one : (writeIfFlagged classifierName first s).result = .ok () := by
      have front := bind_clean clean
      unfold writeIfFlagged writeAdversarialViolation at front ⊢
      split_ifs at front ⊢
      · rfl
      · exact emitNow_clean front
      · rfl
    rw [bind_ok one] at clean ⊢
    exact ih (clean_append.mp clean).2

theorem concludeTurn_clean {started turn : Nat} {progress : Progress} {outcome : TurnOutcome} {used : Option UInt64}
    {s : Session} (clean : Clean (concludeTurn started true turn progress outcome used s).events) :
    ∃ played,(concludeTurn started true turn progress outcome used s).result = .ok played := by
  rw [concludeTurn,reads_bind] at clean ⊢
  have flagged := writeFlagged_clean _ _ (bind_clean clean)
  rw [bind_ok flagged] at clean ⊢
  have front := bind_clean (clean_append.mp clean).2
  generalize (writeFlagged _ _ s).state = m at front ⊢
  have closed : (whenV2 true (closeTurn started turn used (progress.grown outcome used s.adversarialClassifier.name
      (outcome.toolCalls.map (judge s.adversarialClassifier))).tokensConsumed) m).result = .ok () := by
    rw [whenV2,if_pos rfl,closeTurn,elapsedSince_bind] at front ⊢
    have ends := bind_clean front
    rw [writeTurnEnd,reads_bind] at ends
    rw [writeTurnEnd,bind_assoc,reads_bind,bind_ok (emitNow_clean ends)]
    rfl
  rw [bind_ok closed]
  exact ⟨_,rfl⟩

/-- A turn that cannot be opened leaves nothing. -/
theorem openTurn_unopened {limits : TurnLimits} {started turn : Nat} {messages : List ChatMessage} {s t : Session} {stop : Stop}
    {events : List Event} (stops : Stops (openTurn limits started turn messages) s stop t events) (clean : Clean events) :
    appended events = [] ∧ t.currentTurnSvid = s.currentTurnSvid := by
  have whole := stops
  rw [openTurn,stops_reads_bind,Stops,elapsedSince_bind] at whole
  rcases issueTurnSvid_seen (turnAudience s.sessionId turn) (limits.maxSeconds.toNat-asSecs (World.instant s.tick-started)) s.next with
    ⟨-,⟨stop',stopped⟩,seen,current⟩ | ⟨-,tick,live,svid,-,seen,⟨⟨stop',stopped⟩,current⟩ | ⟨thumbprint,kept⟩⟩
  · rw [bind_error stopped] at whole
    cases whole
    rw [← written_sights,seen]
    exact ⟨rfl,current⟩
  · rw [bind_error stopped] at whole
    cases whole
    rw [← written_sights,seen]
    exact ⟨rfl,current⟩
  · rw [bind_ok kept] at whole
    injection whole with result state same
    rw [← same] at clean
    have starts := (clean_append.mp clean).2
    rw [writeTurnStart,reads_bind] at starts result
    rw [emitNow_clean starts] at result
    cases result

variable (prompt : String) (limits : TurnLimits) (started : Nat)

/-- The turn is admitted and opened, and then the model fails, its prompt is empty or a call
    ends the run. -/
structure BreaksAt (turn : Nat) (progress : Progress) (s : Session) : Prop where
  admitted : tripped limits progress.tokensConsumed (World.instant s.tick-started) = none
  breaks : ∃ m opening stop t events,Runs (openTurn limits started turn progress.messages) s.next () m opening ∧
    Stops (runOneTurn progress.messages prompt (some turn)) m stop t events

/-- A turn of the run does so. -/
def BreaksOff (s : Session) : Prop :=
  ∃ before turn progress m,Plays prompt limits (World.instant s.tick) true 1 ⟨[⟨.User,prompt⟩],[],0⟩ s.next before turn progress m ∧
    turn ≤ limits.maxTurns.toNat ∧ BreaksAt prompt limits (World.instant s.tick) turn progress m

/-- The first turn gets its first entry. -/
def FirstOpened (s : Session) : Prop :=
  limits.maxTurns.toNat ≠ 0 ∧ tripped limits 0 (World.instant s.next.tick-World.instant s.tick) = none ∧
  ∃ m opening,Runs (openTurn limits (World.instant s.tick) 1 [⟨.User,prompt⟩]) s.next.next () m opening

theorem oneTurn_opens (turn : Nat) (progress : Progress) (s : Session) :
    (∃ stop t events,Stops (openTurn limits started turn progress.messages) s stop t events ∧
      Stops (oneTurn prompt limits started true turn progress) s stop t events) ∨
    ∃ m opening,Runs (openTurn limits started turn progress.messages) s () m opening ∧
      Continues (oneTurn prompt limits started true turn progress) s (do
        let answered ← runOneTurn progress.messages prompt (some turn)
        concludeTurn started true turn progress answered.1 answered.2) m opening := by
  rcases runs_or_stops (openTurn limits started turn progress.messages) s with ⟨_,opens⟩ | ⟨stop,stops⟩
  · exact .inr ⟨_,_,opens,opens.continues⟩
  · exact .inl ⟨stop,_,_,stops,stops_bind.mpr (.inl stops)⟩

/-- A bound that is reached is the last entry, and leaves the certificate alone. -/
theorem capped_bracketed (bound : TurnCapKind) (turn atTurn : Nat) (tokensConsumed : UInt64) (elapsed : Nat) (s : Session) :
    Bracketed turn (appended (emitCapAndBuildErr bound atTurn limits tokensConsumed elapsed s :
      Outcome Session Stop Event SessionRunResult).events) ∧
    (emitCapAndBuildErr bound atTurn limits tokensConsumed elapsed s :
      Outcome Session Stop Event SessionRunResult).state.currentTurnSvid = s.currentTurnSvid := by
  obtain ⟨⟨violation,entered,wrote⟩,-⟩ := emitCapAndBuildErr_seen limits bound atTurn tokensConsumed elapsed s
  obtain ⟨entry,front,violates,field⟩ := entered_written entered []
  constructor
  · rw [← written_sights,wrote,front]
    refine .Capped violates ?_
    rw [Says,field,turnCapFields]
    cases fromF64 (asSecsF64 elapsed) <;> rfl
  · have logs : Respects Logs (emitCapAndBuildErr bound atTurn limits tokensConsumed elapsed : Run SessionRunResult) :=
      logs_bind (logs_emitNow fun _ => logs_emit _ _ _ _) fun _ => logs_deny _
    rw [(logs s).same]

variable {prompt limits started}

/-- A turn that fails without a fault of the ledger was not opened, or breaks off. -/
theorem oneTurn_fails {turn : Nat} {progress : Progress} {s t : Session} {stop : Stop} {events : List Event}
    (admitted : tripped limits progress.tokensConsumed (World.instant s.tick-started) = none)
    (stops : Stops (oneTurn prompt limits started true turn progress) s.next stop t events) (clean : Clean events)
    (whole : ¬ BreaksAt prompt limits started turn progress s) :
    Stops (openTurn limits started turn progress.messages) s.next stop t events := by
  rcases oneTurn_opens prompt limits started turn progress s.next with
    ⟨stop',t',events',first,same⟩ | ⟨m,opening,opens,continues⟩
  · have both := same.symm.trans stops
    cases both
    exact first
  · rcases runs_or_stops (runOneTurn progress.messages prompt (some turn)) m with ⟨answered,runs⟩ | ⟨stop',breaks⟩
    · have rest := continues.trans runs.continues
      have parts := rest.events
      rw [stops.events] at parts
      rw [parts] at clean
      obtain ⟨played,concluded⟩ := concludeTurn_clean (clean_append.mp clean).2
      have ended := congrArg Outcome.result rest
      rw [stops.result,concluded] at ended
      cases ended
    · exact absurd ⟨admitted,m,opening,stop',_,_,opens,breaks⟩ whole

/-- The turns that were played come before the rest, and leave no certificate. -/
theorem plays_bracketed {turn turn' : Nat} {progress progress' : Progress} {s t : Session} {events : List Event}
    {rest : List Entry} (plays : Plays prompt limits started true turn progress s events turn' progress' t)
    (version : s.ledger.schemaVersion = .V2) (later : Bracketed turn' rest) :
    Bracketed turn (appended events ++ rest) ∧
      (t.currentTurnSvid = none ∨ (t = s ∧ turn' = turn ∧ progress' = progress ∧ events = [])) := by
  induction plays with
  | Here => exact ⟨later,.inr ⟨rfl,rfl,rfl,rfl⟩⟩
  | @Turn turn turn' progress grown progress' s m t left right admitted played others ih =>
    have next : s.next.ledger.schemaVersion = .V2 := version
    obtain ⟨-,returns⟩ := oneTurn_seen prompt limits started turn progress next
    obtain ⟨dropped,response,results,outcome,completed,-,-⟩ := returns _ _ played.result
    rw [played.events] at completed
    rw [played.state] at dropped
    have v2 := (played.respects (chronicles_made (made_oneTurn prompt limits started true turn progress))).version.trans next
    obtain ⟨bracketed,cleared⟩ := ih v2 later
    rw [appended_append,List.append_assoc,← written_sights left]
    refine ⟨completed_bracketed completed bracketed,.inl ?_⟩
    rcases cleared with cleared | ⟨rfl,-,-,-⟩
    · exact cleared
    · exact dropped

/-- The end of a loop that does not break off keeps the shape. -/
theorem ends_bracketed {turn left : Nat} {progress : Progress} {s : Session} {last : Outcome Session Stop Event SessionRunResult}
    (ends : LoopEnds prompt limits started true turn progress s left last) (version : s.ledger.schemaVersion = .V2)
    (clean : Clean last.events) (whole : left ≠ 0 → ¬ BreaksAt prompt limits started turn progress s) :
    Bracketed turn (appended last.events) ∧ (last.state.currentTurnSvid = none ∨ last.state.currentTurnSvid = s.currentTurnSvid) := by
  have next : s.next.ledger.schemaVersion = .V2 := version
  cases ends with
  | Exhausted =>
    obtain ⟨bracketed,kept⟩ := capped_bracketed limits .Turns turn limits.maxTurns.toNat progress.tokensConsumed
      (World.instant s.tick-started) s.next
    exact ⟨bracketed,.inr kept⟩
  | Tripped bound refused =>
    obtain ⟨bracketed,kept⟩ := capped_bracketed limits bound turn turn progress.tokensConsumed
      (World.instant s.tick-started) s.next
    exact ⟨bracketed,.inr kept⟩
  | Broken admitted stops =>
    obtain ⟨nothing,kept⟩ := openTurn_unopened (oneTurn_fails admitted stops clean (whole (Nat.succ_ne_zero _))) clean
    dsimp only
    rw [nothing]
    exact ⟨.Over,.inr kept⟩
  | Done admitted played =>
    obtain ⟨-,returns⟩ := oneTurn_seen prompt limits started turn progress next
    obtain ⟨dropped,response,results,outcome,completed,-,-⟩ := returns _ _ played.result
    rw [played.events] at completed
    rw [played.state] at dropped
    have bracketed := completed_bracketed completed .Over
    rw [List.append_nil,written_sights] at bracketed
    exact ⟨bracketed,.inl dropped⟩

section
variable {turn : Nat} {progress : Progress} {s m t : Session} {opening events : List Event} {stop : Stop}

/-- A turn that breaks off ends the run. -/
theorem breaking_stops (admitted : tripped limits progress.tokensConsumed (World.instant s.tick-started) = none)
    (opens : Runs (openTurn limits started turn progress.messages) s.next () m opening)
    (stops : Stops (runOneTurn progress.messages prompt (some turn)) m stop t events) (left : Nat) :
    Stops (turnLoop prompt limits started true (left+1) turn progress) s stop t (opening ++ events) := by
  have plays : Stops (oneTurn prompt limits started true turn progress) s.next stop t (opening ++ events) :=
    (opens.continues).stops (stops_bind.mpr (.inl stops))
  rw [Stops,turnLoop,elapsedSince_bind,admitted]
  dsimp only
  rw [bind_error plays.result,plays.state,plays.events]

/-- It is opened and not closed. -/
theorem breaking_counts (version : s.ledger.schemaVersion = .V2)
    (opens : Runs (openTurn limits started turn progress.messages) s.next () m opening)
    (stops : Stops (runOneTurn progress.messages prompt (some turn)) m stop t events) :
    (appended (opening ++ events)).countP starting = 1 ∧ (appended (opening ++ events)).countP ending = 0 := by
  have next : s.next.ledger.schemaVersion = .V2 := version
  have v2 := (opens.respects (chronicles_made (made_openTurn limits started turn progress.messages))).version.trans next
  have inside := answer_inside (runOneTurn_seen progress.messages prompt turn v2).1
  rw [stops.events] at inside
  obtain ⟨noStart,noEnd⟩ := inside_counts inside
  rw [written_sights] at noStart noEnd
  obtain ⟨-,issued,first,opened,seen⟩ := (openTurn_seen limits started turn progress.messages s.next).resolve_left (by
    rintro ⟨⟨other,stopped⟩,-⟩
    rw [opens.result] at stopped
    cases stopped)
  obtain ⟨live,svid,rfl⟩ := opened.issues
  obtain ⟨thumbprint,entered⟩ := opened.opens
  obtain ⟨entry,front,starts,-⟩ := entered_written entered []
  have one : appended opening = [entry] := by
    rw [← opens.events,← written_sights,seen]
    exact front
  rw [appended_append,List.countP_append,List.countP_append,noStart,noEnd,one]
  simp [starting,ending,starts]

end

/-- Without a first turn the certificate stays as it was. -/
theorem unopened_keeps {s : Session} (clean : Clean (turnLoop prompt limits (World.instant s.tick) true limits.maxTurns.toNat 1
      ⟨[⟨.User,prompt⟩],[],0⟩ s.next).events) (unopened : ¬ FirstOpened prompt limits s) :
    (turnLoop prompt limits (World.instant s.tick) true limits.maxTurns.toNat 1 ⟨[⟨.User,prompt⟩],[],0⟩ s.next).state.currentTurnSvid =
      s.currentTurnSvid := by
  have capped := fun bound atTurn elapsed => (capped_bracketed limits bound 1 atTurn 0 elapsed s.next.next).2
  cases left : limits.maxTurns.toNat with
  | zero =>
    rw [turnLoop,elapsedSince_bind]
    exact capped _ _ _
  | succ left' =>
    rw [left] at clean
    rw [turnLoop,elapsedSince_bind] at clean ⊢
    dsimp only at clean ⊢
    cases checked : tripped limits 0 (World.instant s.next.tick-World.instant s.tick) with
    | some bound => exact capped _ _ _
    | none =>
      rw [checked] at clean
      dsimp only at clean ⊢
      rcases oneTurn_opens prompt limits (World.instant s.tick) 1 ⟨[⟨.User,prompt⟩],[],0⟩ s.next.next with
        ⟨stop,t,events,stops,fails⟩ | ⟨m,opening,opens,-⟩
      · rw [bind_error fails.result] at clean ⊢
        dsimp only at clean ⊢
        rw [fails.events] at clean
        rw [fails.state]
        exact (openTurn_unopened stops clean).2
      · exact absurd ⟨by omega,checked,m,opening,opens⟩ unopened

/-- A first turn that is opened and does not break off ends without a certificate. -/
theorem opened_clears {s : Session} {progress : Progress} {last : Outcome Session Stop Event SessionRunResult}
    (initial : progress = ⟨[⟨.User,prompt⟩],[],0⟩)
    (ends : LoopEnds prompt limits (World.instant s.tick) true 1 progress s.next limits.maxTurns.toNat last)
    (version : s.ledger.schemaVersion = .V2) (clean : Clean last.events) (opened : FirstOpened prompt limits s)
    (whole : ¬ BreaksAt prompt limits (World.instant s.tick) 1 progress s.next) : last.state.currentTurnSvid = none := by
  obtain ⟨some_,admits,m,opening,opens⟩ := opened
  generalize limits.maxTurns.toNat = left at ends some_
  cases ends with
  | Exhausted => exact absurd rfl some_
  | Tripped bound refused =>
    rw [initial,admits] at refused
    cases refused
  | Broken admitted stops =>
    have failed := oneTurn_fails admitted stops clean whole
    rw [initial] at failed
    have both := failed.symm.trans opens
    cases both
  | Done admitted played =>
    have next : s.next.next.ledger.schemaVersion = .V2 := version
    obtain ⟨-,returns⟩ := oneTurn_seen prompt limits (World.instant s.tick) 1 progress next
    obtain ⟨dropped,-⟩ := returns _ _ played.result
    rw [played.state] at dropped
    exact dropped

/-- A run of the second version whose entries are all taken has the shape and leaves no
    certificate, exactly if no turn of it breaks off and there was none before or its first
    turn was opened. -/
theorem brackets_closed (prompt : String) (limits : TurnLimits) {s : Session} (version : s.ledger.schemaVersion = .V2)
    (clean : Clean (run prompt limits s).events) :
    (Bracketed 1 (appended (run prompt limits s).events) ∧ (run prompt limits s).state.currentTurnSvid = none) ↔
      ¬ BreaksOff prompt limits s ∧ (s.currentTurnSvid = none ∨ FirstOpened prompt limits s) := by
  rw [run_loops,decide_eq_true version] at clean ⊢
  have next : s.next.ledger.schemaVersion = .V2 := version
  constructor
  · rintro ⟨bracketed,cleared⟩
    constructor
    · rintro ⟨before,turn,progress,m,plays,within,breaks⟩
      obtain ⟨rising,continues⟩ := plays.continues
      have go := continues (limits.maxTurns.toNat-turn+1)
      rw [show turn-1+(limits.maxTurns.toNat-turn+1) = limits.maxTurns.toNat by omega] at go
      obtain ⟨n,opening,stop,t,events,opens,fails⟩ := breaks.breaks
      have stops := breaking_stops breaks.admitted opens fails (limits.maxTurns.toNat-turn)
      obtain ⟨one,zero⟩ := breaking_counts (plays.kept.2.trans next) opens fails
      have counts := bracketed_counts bracketed
      have even := bracketed_counts (plays_bracketed plays next (Bracketed.Over)).1
      rw [List.append_nil] at even
      rw [go.events,stops.events,appended_append,List.countP_append,List.countP_append,even,one,zero] at counts
      omega
    · by_contra stale
      rw [not_or] at stale
      obtain ⟨bearing,unopened⟩ := stale
      rw [unopened_keeps clean unopened] at cleared
      exact bearing cleared
  · rintro ⟨whole,fresh⟩
    obtain ⟨spent,turn',progress',m,before,last,within,rfl,plays,ends,same⟩ := turnLoop_cases prompt limits
      (World.instant s.tick) true limits.maxTurns.toNat 1 ⟨[⟨.User,prompt⟩],[],0⟩ s.next
    rw [same] at clean ⊢
    have intact : limits.maxTurns.toNat-spent ≠ 0 → ¬ BreaksAt prompt limits (World.instant s.tick) (1+spent) progress' m :=
      fun more breaks => whole ⟨before,_,progress',m,plays,by omega,breaks⟩
    obtain ⟨bracketed,final⟩ := ends_bracketed ends (plays.kept.2.trans next) (clean_append.mp clean).2 intact
    obtain ⟨shape,cleared⟩ := plays_bracketed plays next bracketed
    rw [← appended_append] at shape
    refine ⟨shape,?_⟩
    dsimp only
    rcases cleared with cleared | ⟨rfl,turn,first,-⟩
    · rcases final with final | final
      · exact final
      · exact final.trans cleared
    · have none : spent = 0 := by omega
      subst none
      rcases fresh with fresh | opened
      · rcases final with final | final
        · exact final
        · exact final.trans fresh
      · rw [Nat.sub_zero] at ends intact
        exact opened_clears first ends version (clean_append.mp clean).2 opened (intact opened.1)

end

section
open Faultless FaultlessTurn Reference ReferenceTurn

/-- A run of one turn. -/
theorem brackets_closed_hello :
    let _ := calmWorld reading
    ∃ booted,boot config = .ok booted ∧
      ((Bracketed 1 (appended (run "hello" defaultLimits (setLoadedModel booted doneModel)).events) ∧
          (run "hello" defaultLimits (setLoadedModel booted doneModel)).state.currentTurnSvid = none) ↔
        ¬ BreaksOff "hello" defaultLimits (setLoadedModel booted doneModel) ∧
          ((setLoadedModel booted doneModel).currentTurnSvid = none ∨
            FirstOpened "hello" defaultLimits (setLoadedModel booted doneModel))) := by
  intro world
  obtain ⟨booted,boots,fresh,ready⟩ := calm_boots reading rfl rfl
  have standing := (fresh_standing fresh).loaded doneModel
  have room : Ready (setLoadedModel booted doneModel) (97+3) := ⟨ready.healthy,ready.own,ready.few⟩
  obtain ⟨result,t,events,runs,-,-,-,-,clean⟩ := hello_runs standing room (fun _ _ => rfl) (fun _ => rfl) rfl
  rw [← runs.events] at clean
  exact ⟨booted,boots,brackets_closed "hello" defaultLimits standing.version clean⟩

/-- Where the model fails the turn stays open, and its certificate in place. -/
theorem failing_stays_open [w : World] {s : Session} {n : Nat} {files : String → List UInt8} (standing : Standing s)
    (ready : Ready s (n+1)) (holds : ∀ tick path,w.fileBytes tick path = .ok (files path)) (still : ∀ tick,w.instant tick = 0)
    (loaded : s.loadedModel = some failingModel) :
    ∃ t events,Stops (run "hello" defaultLimits) s (.Err (.BackendInfer exhausted)) t events ∧ Clean events ∧
      ¬ Bracketed 1 (appended events) ∧ t.currentTurnSvid ≠ none := by
  have next : Standing s.next.next := ⟨standing.version,standing.sessionId,standing.names⟩
  have room : Ready s.next.next (n+1) := ⟨ready.healthy,ready.own,ready.few⟩
  obtain ⟨m,svid,before,now,entry,record,opens,silent,-,-,bearing⟩ :=
    next.opens room (fun tick _ path => holds tick path) (World.instant s.tick) [⟨.User,"hello"⟩]
  have stays := opens.respects (stays_made (made_openTurn defaultLimits (World.instant s.tick) 1 [⟨.User,"hello"⟩]))
  have model : m.loadedModel = some failingModel := by
    rw [stays]
    exact loaded
  have fails : Stops (runOneTurn [⟨.User,"hello"⟩] "hello" (some 1)) m (.Err (.BackendInfer exhausted)) m.next
      [.Inferred ⟨[⟨.User,"hello"⟩],toolCatalog m.policy⟩ (.error exhausted)] := by
    rw [runOneTurn,stops_reads_bind,stops_bind]
    left
    rcases infer_cases [⟨.User,"hello"⟩] (toolCatalog m.policy) m with
      ⟨none,-⟩ | ⟨other,given,⟨error,failed,asked⟩ | ⟨response,answered,-⟩⟩
    · rw [model] at none
      cases none
    · rw [model] at given
      cases given
      cases failed
      exact asked
    · rw [model] at given
      cases given
      cases answered
  let first : Progress := ⟨[⟨.User,"hello"⟩],[],0⟩
  have admitted : tripped defaultLimits first.tokensConsumed (World.instant s.next.tick-World.instant s.tick) = none :=
    admits still s.next.tick (World.instant s.tick)
  change Runs (openTurn defaultLimits (World.instant s.tick) 1 first.messages) s.next.next () m _ at opens
  change Stops (runOneTurn first.messages "hello" (some 1)) m _ _ _ at fails
  have stops := breaking_stops admitted opens fails 9
  have loops : run "hello" defaultLimits s =
      turnLoop "hello" defaultLimits (World.instant s.tick) true (9+1) 1 first s.next := by
    rw [run_loops,decide_eq_true standing.version]
    rfl
  have ran := loops.trans stops
  refine ⟨_,_,ran,clean_append.mpr ⟨clean_opened silent,by simp [Clean]⟩,?_,?_⟩
  · intro bracketed
    obtain ⟨one,zero⟩ := breaking_counts (s := s.next) standing.version opens fails
    have counts := bracketed_counts bracketed
    rw [one,zero] at counts
    exact Nat.one_ne_zero counts
  · rw [show m.next.currentTurnSvid = some svid from bearing]
    exact Option.some_ne_none svid

/-- The model of the concrete session fails. -/
theorem failed_model_unclosed :
    let _ := calmWorld reading
    ∃ booted t events,boot config = .ok booted ∧
      Stops (run "hello" defaultLimits) (setLoadedModel booted failingModel) (.Err (.BackendInfer exhausted)) t events ∧
      Clean events ∧ ¬ Bracketed 1 (appended events) ∧ t.currentTurnSvid ≠ none := by
  intro world
  obtain ⟨booted,boots,fresh,ready⟩ := calm_boots reading rfl rfl
  have standing := (fresh_standing fresh).loaded failingModel
  have room : Ready (setLoadedModel booted failingModel) (99+1) := ⟨ready.healthy,ready.own,ready.few⟩
  obtain ⟨t,events,shape⟩ := failing_stays_open standing room (fun _ _ => rfl) (fun _ => rfl) rfl
  exact ⟨booted,t,events,boots,shape⟩

end

end AegisNode.Brackets
