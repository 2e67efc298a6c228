import AegisNode.Brackets
import AegisNode.TurnEvents

/-!
The bounds of a run: how often the model is asked, what has been used and how late it is
when a turn starts, and what the run comes to.
-/
namespace AegisNode.TurnBounds
open Bytes Clock Json Schema Policy Traced Engine Mediator Frames Entries Turn TurnLoop Chronicle TurnTrace TurnEvents Brackets
open Backend hiding ToolCall
open Ledger hiding Error
set_option linter.unusedSectionVars false

/-! ### Answers -/

def answer? : Event → Option (Except BackendError InferResponse)
  | .Inferred _ response => some response
  | _ => none

/-- What the model answered, question by question. -/
def answers (events : List Event) : List (Except BackendError InferResponse) := events.filterMap answer?

def tokens : Except BackendError InferResponse → Nat
  | .ok response => (response.tokensUsed.getD 0).toNat
  | .error _ => 0

/-- The tokens that the answers report. -/
def tokensOf (events : List Event) : Nat := ((answers events).map tokens).sum

@[simp] theorem answers_append (left right : List Event) : answers (left ++ right) = answers left ++ answers right :=
  List.filterMap_append

theorem tokensOf_append (left right : List Event) : tokensOf (left ++ right) = tokensOf left+tokensOf right := by
  simp [tokensOf]

/-- The model is not asked. -/
def Unasking (e : Event) : Prop := answer? e = none

theorem answers_unasking {events : List Event} (each : ∀ e ∈ events,Unasking e) : answers events = [] :=
  List.filterMap_eq_nil_iff.mpr each

/-- Before the one question there is none. -/
theorem answers_before {before after : List Event} {request : InferRequest} {response : Except BackendError InferResponse}
    (one : (answers (before ++ .Inferred request response :: after)).length ≤ 1) : answers before = [] := by
  simp only [answers_append,List.length_append] at one
  change (answers before).length+((answers after).length+1) ≤ 1 at one
  apply List.eq_nil_of_length_eq_zero
  omega

theorem saturatingAdd_toNat (left right : UInt64) : (saturatingAdd left right).toNat = min (left.toNat+right.toNat) (2^64-1) := by
  rw [saturatingAdd,UInt64.toNat_ofNat']
  omega

section
variable [Chrono] [Serde] [Sha256] [Identity] [World]

theorem leaving_unasking (v2 : Bool) : LeavingParts v2 Unasking where
  unwritten e unwritten := by cases e <;> first | rfl | exact unwritten.elim
  noted _ _ _ _ _ := rfl
  issued _ := by
    intros
    rfl

/-! ### One turn -/

theorem runOneTurn_asks (messages : List ChatMessage) (prompt : String) (turn : Option Nat) (s : Session) :
    (answers (runOneTurn messages prompt turn s).events).length ≤ 1 ∧
    ∀ answered,(runOneTurn messages prompt turn s).result = .ok answered →
      ∃ response,answers (runOneTurn messages prompt turn s).events = [.ok response] ∧ answered.2 = response.tokensUsed := by
  rw [runOneTurn,reads_bind]
  rcases infer_cases messages (toolCatalog s.policy) s with
    ⟨-,asked⟩ | ⟨model,-,⟨error,-,asked⟩ | ⟨response,-,asked⟩⟩
  · rw [bind_error (congrArg Outcome.result asked),asked]
    exact ⟨Nat.zero_le _,by simp⟩
  · rw [bind_error (congrArg Outcome.result asked),asked]
    exact ⟨le_rfl,by simp⟩
  · rw [bind_ok (congrArg Outcome.result asked),asked]
    have silent := answers_unasking ((leaving_unasking true).dispatchAnswer prompt turn (toolCatalog s.policy) response s.next)
    have one : answers ([.Inferred ⟨messages,toolCatalog s.policy⟩ (.ok response)] ++
        (dispatchAnswer prompt turn (toolCatalog s.policy) response s.next).events) = [.ok response] := by
      rw [answers_append,silent]
      rfl
    dsimp only
    rw [one]
    refine ⟨le_rfl,fun answered returned => ⟨response,rfl,?_⟩⟩
    obtain ⟨stepUuid,_,_,_,-,rest,-⟩ := runs_bind.mp (runs_of_result returned)
    rw [runs_reads_bind,runs_bind] at rest
    obtain ⟨outcomes,_,_,_,-,last,-⟩ := rest
    rw [(runs_pure.mp last).1]

theorem concludeTurn_ok {started : Nat} {v2 : Bool} {turn : Nat} {progress grown : Progress} {outcome : TurnOutcome}
    {used : Option UInt64} {last : Bool} {s t : Session} {events : List Event}
    (runs : Runs (concludeTurn started v2 turn progress outcome used) s (grown,last) t events) :
    grown = progress.grown outcome used s.adversarialClassifier.name (judgedOf s outcome) ∧ last = outcome.toolCalls.isEmpty := by
  rw [concludeTurn,runs_reads_bind,runs_bind] at runs
  obtain ⟨_,_,_,_,-,closes,-⟩ := runs
  obtain ⟨_,_,_,_,-,returns,-⟩ := runs_bind.mp closes
  cases (runs_pure.mp returns).1
  exact ⟨rfl,rfl⟩

variable (prompt : String) (limits : TurnLimits) (started : Nat) (v2 : Bool)

/-- The model is asked at most once in a turn. A turn that is completed counts the tokens of
    its answer, and is the last one if it has no calls. -/
theorem oneTurn_asks (turn : Nat) (progress : Progress) (s : Session) :
    (answers (oneTurn prompt limits started v2 turn progress s).events).length ≤ 1 ∧
    ∀ grown last,(oneTurn prompt limits started v2 turn progress s).result = .ok (grown,last) →
      ∃ response outcome,answers (oneTurn prompt limits started v2 turn progress s).events = [.ok response] ∧
        grown.tokensConsumed = saturatingAdd progress.tokensConsumed (response.tokensUsed.getD 0) ∧
        grown.turns = progress.turns ++ [outcome] ∧ last = outcome.toolCalls.isEmpty := by
  have first := answers_unasking ((leaving_unasking v2).openTurn limits started turn progress.messages s)
  rw [oneTurn]
  cases opened : (whenV2 v2 (openTurn limits started turn progress.messages) s).result with
  | error stop =>
    rw [bind_error opened,first]
    exact ⟨Nat.zero_le _,by simp⟩
  | ok _ =>
    rw [bind_ok opened]
    generalize (whenV2 v2 (openTurn limits started turn progress.messages) s).state = m
    obtain ⟨one,counts⟩ := runOneTurn_asks progress.messages prompt (some turn) m
    cases ran : (runOneTurn progress.messages prompt (some turn) m).result with
    | error stop =>
      rw [bind_error ran,answers_append,first]
      exact ⟨one,by simp⟩
    | ok answered =>
      obtain ⟨response,asked,same⟩ := counts answered ran
      rw [bind_ok ran]
      generalize (runOneTurn progress.messages prompt (some turn) m).state = n
      have last := answers_unasking ((leaving_unasking v2).concludeTurn started v2 turn progress answered.1 answered.2 n)
      dsimp only
      rw [answers_append,answers_append,first,asked,last]
      refine ⟨le_rfl,fun grown final returned => ?_⟩
      obtain ⟨rfl,rfl⟩ := concludeTurn_ok (runs_of_result returned)
      refine ⟨response,_,rfl,by rw [← same]; rfl,rfl,?_⟩
      rw [judgedOf]
      cases answered.1.toolCalls <;> rfl

/-! ### Turns one after another -/

/-- Each turn that is played asks once, and what it used is counted. -/
theorem plays_asks {turn turn' : Nat} {progress progress' : Progress} {s t : Session} {events : List Event}
    (plays : Plays prompt limits started v2 turn progress s events turn' progress' t) :
    turn' = turn+(answers events).length ∧
      progress'.tokensConsumed.toNat = min (progress.tokensConsumed.toNat+tokensOf events) (2^64-1) := by
  induction plays with
  | @Here turn progress s =>
    refine ⟨rfl,?_⟩
    have bounded := progress.tokensConsumed.toNat_lt
    change _ = min (_+0) _
    omega
  | @Turn turn turn' progress grown progress' s m t left right admitted played later ih =>
    obtain ⟨counted,consumed⟩ := ih
    obtain ⟨response,outcome,asked,grows,-⟩ := (oneTurn_asks prompt limits started v2 turn progress s.next).2 grown false played.result
    rw [played.events] at asked
    have used : tokensOf left = (response.tokensUsed.getD 0).toNat := by rw [tokensOf,asked]; simp [tokens]
    constructor
    · rw [counted,answers_append,asked,List.length_append,List.length_singleton]
      omega
    · rw [consumed,grows,saturatingAdd_toNat,tokensOf_append,used]
      omega

/-- A question is asked in a turn that was admitted, before all else that the turn asks. -/
theorem plays_at {turn turn' : Nat} {progress progress' : Progress} {s t : Session} {before after : List Event}
    {request : InferRequest} {response : Except BackendError InferResponse} {events : List Event}
    (plays : Plays prompt limits started v2 turn progress s events turn' progress' t)
    (whole : events = before ++ .Inferred request response :: after) :
    ∃ asking progressAt m front inner,Plays prompt limits started v2 turn progress s front asking progressAt m ∧ asking < turn' ∧
      tripped limits progressAt.tokensConsumed (World.instant m.tick-started) = none ∧ before = front ++ inner ∧
      answers inner = [] := by
  induction plays generalizing before with
  | Here => simp at whole
  | @Turn turn turn' progress grown progress' s m t left right admitted played later ih =>
    rcases split_either whole with ⟨rest,own,-⟩ | ⟨rest,rfl,further⟩
    · have one := (oneTurn_asks prompt limits started v2 turn progress s.next).1
      rw [played.events,own] at one
      have rising := later.continues.1
      exact ⟨turn,progress,s,[],before,.Here,by omega,admitted,rfl,answers_before one⟩
    · obtain ⟨asking,progressAt,n,front,inner,plays,sooner,admits,rfl,none⟩ := ih further
      exact ⟨asking,progressAt,n,left ++ front,inner,.Turn admitted played plays,sooner,admits,(List.append_assoc _ _ _).symm,none⟩

/-! ### The end of a run -/

/-- The turn is the first one or follows others, and comes before a bound is reached. -/
structure Starts (s : Session) (turn : Nat) (progress : Progress) (m : Session) (before : List Event) : Prop where
  allowed : turn ≤ limits.maxTurns.toNat
  plays : Plays prompt limits (World.instant s.tick) (s.ledger.schemaVersion = .V2) 1 ⟨[⟨.User,prompt⟩],[],0⟩ s.next before
    turn progress m
  early : asSecs (World.instant m.tick-World.instant s.tick) < limits.maxSeconds.toNat
  few : progress.tokensConsumed.toNat < limits.maxTokens.toNat

theorem tripped_none {limits : TurnLimits} {tokensConsumed : UInt64} {elapsed : Nat} :
    tripped limits tokensConsumed elapsed = none ↔
      asSecs elapsed < limits.maxSeconds.toNat ∧ tokensConsumed.toNat < limits.maxTokens.toNat := by
  unfold tripped
  split_ifs with late many
  · simp [late]
  · simp [UInt64.le_iff_toNat_le.mp many]
  · rw [UInt64.le_iff_toNat_le] at many
    simp only [true_iff]
    omega

/-- An entry about a bound. -/
def Capping (entry : Entry) : Prop :=
  entry.entryType = .Violation ∧ Says entry "violationKind" (.String "TurnCapExceeded")

def Uncapping : Event → Prop
  | .Append entry _ => ¬ Capping entry
  | _ => True

theorem noted_uncapping {entry : Entry} {fields : List (String × Scalar)} (noted : Noted entry.entryType fields)
    (payload : entry.payload = payloadOf fields) : ¬ Capping entry := by
  rintro ⟨violates,named⟩
  rw [Says,payload,get_payloadOf] at named
  rw [violates] at noted
  generalize kind : EntryType.Violation = entryType at noted
  cases noted with
  | Called written =>
    cases written with
    | Work worked =>
      cases worked with
      | Access bytes own => cases kind
      | Denial reason own => simp [fieldOf,denialFields,Engine.optional] at named
      | Drift mismatch => simp [fieldOf,denialFields,Engine.optional] at named
      | Breach breach own => simp [fieldOf,breachFields,Scalar.value] at named
    | Approval approved => cases approved <;> cases kind
  | Marked _ marks =>
    cases kind
    simp at marks
  | Flagged verdict classifierName origin =>
    revert named
    rw [adversarialFields]
    cases fromF64 (nearest 24 verdict.score 100) <;> simp [fieldOf,Scalar.value]

theorem leaving_uncapping : LeavingTurns v2 Uncapping where
  unwritten e unwritten := by cases e <;> trivial
  noted _ _ _ noted payload := noted_uncapping noted payload
  issued _ := by
    intros
    trivial
  inferred _ _ := trivial

/-- An error about a bound follows the one entry about it. -/
theorem emitCapAndBuildErr_stops {bound named : TurnCapKind} {atTurn : Nat} {tokensConsumed : UInt64} {elapsed : Nat}
    {s t : Session} {stop : Stop} {events : List Event}
    (stops : Stops (emitCapAndBuildErr bound atTurn limits tokensConsumed elapsed : Run SessionRunResult) s stop t events)
    (about : boundOf stop = some named) : named = bound ∧ ∃ now last record,
      events = [.UtcNow now,.Append last (.ok (.ok record))] ∧ Capping last ∧
        Says last "capBound" (.String (capText bound)) := by
  rcases stops_bind.mp stops with unwritten | ⟨_,m,left,right,wrote,denied,rfl⟩
  · have ordinary := allowed_made (made_emitNow (by simp) _ _) unwritten
    rw [Ordinary,about] at ordinary
    cases ordinary
  · obtain ⟨rfl,-,rfl⟩ := stops_deny.mp denied
    cases about
    obtain ⟨rest,emitted,rfl⟩ := runs_ask_bind.mp wrote
    obtain ⟨record,ledger,-,-,rfl⟩ := runs_emit.mp emitted
    refine ⟨rfl,_,_,record,rfl,⟨rfl,?_⟩,?_⟩
    · change Map.get (payloadOf (turnCapFields bound atTurn limits tokensConsumed (asSecsF64 elapsed))).fields _ = _
      rw [get_payloadOf,turnCapFields]
      cases fromF64 (asSecsF64 elapsed) <;> rfl
    · change Map.get (payloadOf (turnCapFields bound atTurn limits tokensConsumed (asSecsF64 elapsed))).fields _ = _
      rw [get_payloadOf,turnCapFields]
      cases fromF64 (asSecsF64 elapsed) <;> rfl

variable {prompt limits started v2}

theorem emitCapAndBuildErr_unasking (bound : TurnCapKind) (atTurn : Nat) (tokensConsumed : UInt64) (elapsed : Nat) (s : Session) :
    answers (emitCapAndBuildErr bound atTurn limits tokensConsumed elapsed s :
      Outcome Session Stop Event SessionRunResult).events = [] := by
  have records : Respects (Each (Records fun _ _ => True))
      (emitCapAndBuildErr bound atTurn limits tokensConsumed elapsed : Run SessionRunResult) :=
    each_bind (records_now fun _ => records_emit trivial) fun _ => records_of_unwritten (unwritten_deny _)
  refine answers_unasking fun e member => ?_
  have recorded := records s e member
  cases e <;> first | rfl | exact recorded.elim

/-- What ends the loop asks at most once, if there is a turn left. -/
theorem ends_asks {turn left : Nat} {progress : Progress} {s : Session} {last : Outcome Session Stop Event SessionRunResult}
    (ends : LoopEnds prompt limits started v2 turn progress s left last) : (answers last.events).length ≤ min left 1 := by
  cases ends with
  | Exhausted => rw [emitCapAndBuildErr_unasking]; exact Nat.zero_le _
  | Tripped bound refused => rw [emitCapAndBuildErr_unasking]; exact Nat.zero_le _
  | Broken admitted stops =>
    have one := (oneTurn_asks prompt limits started v2 turn progress s.next).1
    rw [stops.events] at one
    dsimp only
    omega
  | Done admitted played =>
    have one := (oneTurn_asks prompt limits started v2 turn progress s.next).1
    rw [played.events] at one
    dsimp only
    omega

theorem ends_admits {turn left : Nat} {progress : Progress} {s : Session} {last : Outcome Session Stop Event SessionRunResult}
    {e : Except BackendError InferResponse} (ends : LoopEnds prompt limits started v2 turn progress s left last)
    (asks : e ∈ answers last.events) : left ≠ 0 ∧ tripped limits progress.tokensConsumed (World.instant s.tick-started) = none := by
  cases ends with
  | Exhausted =>
    rw [emitCapAndBuildErr_unasking] at asks
    cases asks
  | Tripped bound refused =>
    rw [emitCapAndBuildErr_unasking] at asks
    cases asks
  | Broken admitted stops => exact ⟨Nat.succ_ne_zero _,admitted⟩
  | Done admitted played => exact ⟨Nat.succ_ne_zero _,admitted⟩

theorem ends_named {turn left : Nat} {progress : Progress} {s : Session} {last : Outcome Session Stop Event SessionRunResult}
    {stop : Stop} {bound : TurnCapKind} (ends : LoopEnds prompt limits started v2 turn progress s left last)
    (failed : last.result = .error stop) (about : boundOf stop = some bound) : ∃ now entry record,
      last.events = [.UtcNow now,.Append entry (.ok (.ok record))] ∧ Capping entry ∧
        Says entry "capBound" (.String (capText bound)) := by
  cases ends with
  | Exhausted =>
    obtain ⟨rfl,shape⟩ := emitCapAndBuildErr_stops limits (stops_of_result failed) about
    exact shape
  | Tripped bound refused =>
    obtain ⟨rfl,shape⟩ := emitCapAndBuildErr_stops limits (stops_of_result failed) about
    exact shape
  | Broken admitted stops =>
    have ordinary := allowed_made (made_oneTurn prompt limits started v2 turn progress) stops
    cases failed
    rw [Ordinary,about] at ordinary
    cases ordinary
  | Done admitted played => cases failed

theorem plays_uncapping {turn turn' : Nat} {progress progress' : Progress} {s t : Session} {events : List Event}
    (plays : Plays prompt limits started v2 turn progress s events turn' progress' t) : ∀ e ∈ events,Uncapping e := by
  induction plays with
  | Here => simp
  | @Turn turn turn' progress grown progress' s m t left right admitted played later ih =>
    intro e member
    rcases List.mem_append.mp member with member | member
    · rw [← played.events] at member
      exact (leaving_uncapping v2).oneTurn prompt limits started turn progress s.next e member
    · exact ih e member

/-! ### Runs -/

theorem starts_consumed {s m : Session} {turn : Nat} {progress : Progress} {before : List Event}
    (starts : Starts prompt limits s turn progress m before) :
    turn = 1+(answers before).length ∧ tokensOf before = progress.tokensConsumed.toNat := by
  obtain ⟨counted,consumed⟩ := plays_asks prompt limits (World.instant s.tick) _ starts.plays
  refine ⟨counted,?_⟩
  have few := starts.few
  have bounded := limits.maxTokens.toNat_lt
  rw [consumed] at few ⊢
  change min (0+_) _ < _ at few
  change _ = min (0+_) _
  omega

/-- Each question of a run belongs to a turn that started within the bounds. -/
theorem run_starts {s : Session} {before after : List Event} {request : InferRequest}
    {response : Except BackendError InferResponse}
    (whole : (run prompt limits s).events = before ++ .Inferred request response :: after) :
    ∃ turn progress m front inner,Starts prompt limits s turn progress m front ∧ before = front ++ inner ∧ answers inner = [] := by
  obtain ⟨spent,turn,progress,m,front,last,within,rfl,plays,ends,same⟩ := turnLoop_cases prompt limits
    (World.instant s.tick) (s.ledger.schemaVersion = .V2) limits.maxTurns.toNat 1 ⟨[⟨.User,prompt⟩],[],0⟩ s.next
  rw [run_loops,same] at whole
  rcases split_either whole with ⟨rest,own,-⟩ | ⟨inner,rfl,further⟩
  · obtain ⟨asking,progressAt,n,first,inner,plays',sooner,admits,split,none⟩ := plays_at _ _ _ _ plays own
    obtain ⟨early,few⟩ := tripped_none.mp admits
    exact ⟨asking,progressAt,n,first,inner,⟨by omega,plays',early,few⟩,split,none⟩
  · have among : .Inferred request response ∈ last.events := by rw [further]; simp
    have asks : response ∈ answers last.events := List.mem_filterMap.mpr ⟨_,among,rfl⟩
    obtain ⟨more,admits⟩ := ends_admits ends asks
    obtain ⟨early,few⟩ := tripped_none.mp admits
    have one := (ends_asks ends).trans (min_le_right _ _)
    rw [further] at one
    exact ⟨1+spent,progress,m,front,inner,⟨by omega,plays,early,few⟩,rfl,answers_before one⟩

theorem run_asks (prompt : String) (limits : TurnLimits) (s : Session) :
    (answers (run prompt limits s).events).length ≤ limits.maxTurns.toNat := by
  obtain ⟨spent,turn,progress,m,front,last,within,rfl,plays,ends,same⟩ := turnLoop_cases prompt limits
    (World.instant s.tick) (s.ledger.schemaVersion = .V2) limits.maxTurns.toNat 1 ⟨[⟨.User,prompt⟩],[],0⟩ s.next
  have counted := (plays_asks prompt limits (World.instant s.tick) _ plays).1
  have final := ends_asks ends
  rw [run_loops,same,answers_append,List.length_append]
  omega

theorem run_ok_iff (prompt : String) (limits : TurnLimits) (s : Session) :
    (∃ result,(run prompt limits s).result = .ok result) ↔
      ∃ turn progress m before grown last t events outcome,Starts prompt limits s turn progress m before ∧
        Runs (oneTurn prompt limits (World.instant s.tick) (s.ledger.schemaVersion = .V2) turn progress) m.next (grown,last) t events ∧
        grown.turns = progress.turns ++ [outcome] ∧ outcome.toolCalls = [] := by
  rw [run_loops]
  constructor
  · rintro ⟨result,returned⟩
    obtain ⟨spent,turn,progress,m,front,last,within,rfl,plays,ends,same⟩ := turnLoop_cases prompt limits
      (World.instant s.tick) (s.ledger.schemaVersion = .V2) limits.maxTurns.toNat 1 ⟨[⟨.User,prompt⟩],[],0⟩ s.next
    rw [same] at returned
    generalize left : limits.maxTurns.toNat-spent = rest at ends
    cases ends with
    | Exhausted =>
      obtain ⟨-,stop,failed⟩ := emitCapAndBuildErr_seen limits .Turns limits.maxTurns.toNat progress.tokensConsumed
        (World.instant m.tick-World.instant s.tick) m.next
      cases failed.symm.trans returned
    | Tripped bound refused =>
      obtain ⟨-,stop,failed⟩ := emitCapAndBuildErr_seen limits bound (1+spent) progress.tokensConsumed
        (World.instant m.tick-World.instant s.tick) m.next
      cases failed.symm.trans returned
    | Broken admitted stops => cases returned
    | @Done rest grown t events admitted played =>
      obtain ⟨early,few⟩ := tripped_none.mp admitted
      obtain ⟨response,outcome,-,-,grows,last⟩ := (oneTurn_asks prompt limits _ _ _ progress m.next).2 grown true played.result
      exact ⟨_,progress,m,front,grown,true,t,events,outcome,⟨by omega,plays,early,few⟩,played,grows,
        List.isEmpty_iff.mp last.symm⟩
  · rintro ⟨turn,progress,m,before,grown,last,t,events,outcome,starts,played,grows,none⟩
    obtain ⟨response,outcome',-,-,grows',final⟩ := (oneTurn_asks prompt limits _ _ turn progress m.next).2 grown last played.result
    obtain ⟨-,same⟩ := List.append_inj' (grows.symm.trans grows') rfl
    cases same
    rw [none,List.isEmpty_nil] at final
    subst final
    obtain ⟨rising,continues⟩ := starts.plays.continues
    have allowed := starts.allowed
    have go := continues (limits.maxTurns.toNat-turn+1)
    rw [show turn-1+(limits.maxTurns.toNat-turn+1) = limits.maxTurns.toNat by omega] at go
    have ended : turnLoop prompt limits (World.instant s.tick) (s.ledger.schemaVersion = .V2) (limits.maxTurns.toNat-turn+1) turn
        progress m = ⟨.ok ⟨grown.turns,.Done,grown.tokensConsumed,World.instant t.tick-World.instant s.tick⟩,t.next,events⟩ := by
      rw [turnLoop,elapsedSince_bind,tripped_none.mpr ⟨starts.early,starts.few⟩]
      dsimp only
      rw [bind_ok played.result,played.state,played.events,if_pos rfl,elapsedSince_bind]
      exact congrArg (Outcome.mk _ _) (List.append_nil _)
    exact ⟨_,by rw [go,ended]⟩

theorem run_named {s : Session} {stop : Stop} {bound : TurnCapKind} (failed : (run prompt limits s).result = .error stop)
    (about : boundOf stop = some bound) :
    ∃ before now last record,(run prompt limits s).events = before ++ [.UtcNow now,.Append last (.ok (.ok record))] ∧
      (∀ e ∈ before,Uncapping e) ∧ Capping last ∧ Says last "capBound" (.String (capText bound)) := by
  obtain ⟨spent,turn,progress,m,front,last,within,rfl,plays,ends,same⟩ := turnLoop_cases prompt limits
    (World.instant s.tick) (s.ledger.schemaVersion = .V2) limits.maxTurns.toNat 1 ⟨[⟨.User,prompt⟩],[],0⟩ s.next
  rw [run_loops,same] at failed ⊢
  obtain ⟨now,entry,record,events,capping,names⟩ := ends_named ends failed about
  exact ⟨front,now,entry,record,by rw [events],plays_uncapping plays,capping,names⟩

/-- A run asks the model no more often than it has turns, and only in turns that started
    before a bound was reached. It comes to a result just when such a turn has no calls,
    and to an error about a bound only after the one entry that names it. -/
theorem run_bounded (prompt : String) (limits : TurnLimits) (s : Session) :
    (answers (run prompt limits s).events).length ≤ limits.maxTurns.toNat ∧
    (∀ before request response after,(run prompt limits s).events = before ++ .Inferred request response :: after →
      tokensOf before < limits.maxTokens.toNat ∧
      ∃ turn progress m front inner,Starts prompt limits s turn progress m front ∧ before = front ++ inner ∧ answers inner = []) ∧
    ((∃ result,(run prompt limits s).result = .ok result) ↔
      ∃ turn progress m before grown last t events outcome,Starts prompt limits s turn progress m before ∧
        Runs (oneTurn prompt limits (World.instant s.tick) (s.ledger.schemaVersion = .V2) turn progress) m.next (grown,last) t events ∧
        grown.turns = progress.turns ++ [outcome] ∧ outcome.toolCalls = []) ∧
    ∀ stop bound,(run prompt limits s).result = .error stop → boundOf stop = some bound →
      ∃ before now last record,(run prompt limits s).events = before ++ [.UtcNow now,.Append last (.ok (.ok record))] ∧
        (∀ e ∈ before,Uncapping e) ∧ Capping last ∧ Says last "capBound" (.String (capText bound)) := by
  refine ⟨run_asks prompt limits s,?_,run_ok_iff prompt limits s,fun _ _ failed about => run_named failed about⟩
  intro before request response after whole
  obtain ⟨turn,progress,m,front,inner,starts,rfl,none⟩ := run_starts whole
  refine ⟨?_,turn,progress,m,front,inner,starts,rfl,none⟩
  have nothing : tokensOf inner = 0 := by rw [tokensOf,none]; rfl
  rw [tokensOf_append,nothing,(starts_consumed starts).2]
  exact starts.few

end

/-! ### A late question -/

section
open Faultless FaultlessTurn Reference ReferenceTurn

/-- The answer tells when it was asked for. -/
def stamped (tick : Nat) : InferResponse := ⟨toString tick,[],some "done",none⟩

def stampingModel : LoadedModel := ⟨fun tick _ => .ok (stamped tick)⟩

/-- Between two looks at the clock the run has nearly all of its time. -/
@[reducible] def slowWorld : World := { calmWorld reading with instant := fun tick => tick*299*nanosPerSec }

theorem seconds : defaultLimits.maxSeconds.toNat = 300 := by decide

theorem slow_elapsed (started tick : Nat) :
    asSecs (slowWorld.instant tick-slowWorld.instant started) = (tick-started)*299 := by
  have clock : ∀ tick,slowWorld.instant tick = tick*299*nanosPerSec := fun _ => rfl
  rw [clock,clock,← Nat.sub_mul,← Nat.sub_mul,asSecs,Nat.mul_div_cancel _ (by decide)]

/-- The turn starts in time, and its identity takes what is left of it. -/
theorem slow_asks [w : World] {s : Session} {n : Nat} {files : String → List UInt8} (standing : Standing s)
    (ready : Ready s (n+1)) (holds : ∀ tick path,w.fileBytes tick path = .ok (files path))
    (slow : ∀ started tick,asSecs (w.instant tick-w.instant started) = (tick-started)*299)
    (loaded : s.loadedModel = some stampingModel) :
    ∃ tick request,.Inferred request (.ok (stamped tick)) ∈ (run "hello" defaultLimits s).events ∧
      defaultLimits.maxSeconds.toNat ≤ asSecs (World.instant tick-World.instant s.tick) := by
  have next : Standing s.next.next := ⟨standing.version,standing.sessionId,standing.names⟩
  have room : Ready s.next.next (n+1) := ⟨ready.healthy,ready.own,ready.few⟩
  obtain ⟨m,svid,before,now,entry,record,opens,-,-,later,-⟩ :=
    next.opens room (fun tick _ path => holds tick path) (World.instant s.tick) [⟨.User,"hello"⟩]
  have stays := opens.respects (stays_made (made_openTurn defaultLimits (World.instant s.tick) 1 [⟨.User,"hello"⟩]))
  have model : m.loadedModel = some stampingModel := by
    rw [stays]
    exact loaded
  have asked : (runOneTurn [⟨.User,"hello"⟩] "hello" (some 1) m).events = .Inferred (requestOf [⟨.User,"hello"⟩] m) (.ok (stamped m.tick)) ::
      (dispatchAnswer "hello" (some 1) (toolCatalog m.policy) (stamped m.tick) m.next).events := by
    rw [runOneTurn,reads_bind]
    rcases infer_cases [⟨.User,"hello"⟩] (toolCatalog m.policy) m with
      ⟨none,-⟩ | ⟨other,given,⟨error,failed,-⟩ | ⟨response,answered,asked⟩⟩
    · rw [model] at none
      cases none
    · rw [model] at given
      cases given
      cases failed
    · rw [model] at given
      cases given
      cases answered
      rw [bind_ok (congrArg Outcome.result asked),asked]
      rfl
  refine ⟨m.tick,requestOf [⟨.User,"hello"⟩] m,?_,?_⟩
  · have admitted : tripped defaultLimits 0 (World.instant s.next.tick-World.instant s.tick) = none := by
      refine tripped_none.mpr ⟨?_,by decide⟩
      have next : s.next.tick = s.tick+1 := rfl
      rw [slow,seconds,next]
      omega
    rw [run_loops,decide_eq_true standing.version]
    change _ ∈ (turnLoop "hello" defaultLimits (World.instant s.tick) true (9+1) 1 ⟨[⟨.User,"hello"⟩],[],0⟩ s.next).events
    rw [turnLoop,elapsedSince_bind,admitted]
    dsimp only
    obtain ⟨rest,played⟩ := bind_events (oneTurn "hello" defaultLimits (World.instant s.tick) true 1 ⟨[⟨.User,"hello"⟩],[],0⟩)
      (fun played => if played.2 then do
          let wallclock ← elapsedSince (World.instant s.tick)
          return ⟨played.1.turns,.Done,played.1.tokensConsumed,wallclock⟩
        else turnLoop "hello" defaultLimits (World.instant s.tick) true 9 (1+1) played.1) s.next.next
    rw [played]
    apply List.mem_append_left
    rw [oneTurn,whenV2,if_pos rfl,bind_ok opens.result,opens.state]
    apply List.mem_append_right
    obtain ⟨rest,answered⟩ := bind_events (runOneTurn [⟨.User,"hello"⟩] "hello" (some 1)) (fun answered =>
      concludeTurn (World.instant s.tick) true 1 ⟨[⟨.User,"hello"⟩],[],0⟩ answered.1 answered.2) m
    dsimp only
    rw [answered,asked]
    simp
  · have next : s.next.next.tick = s.tick+1+1 := rfl
    rw [slow,seconds]
    omega

/-- The model is asked after the time is up. -/
theorem question_after_time :
    let _ := slowWorld
    ∃ booted tick request,boot config = .ok booted ∧
      .Inferred request (.ok (stamped tick)) ∈ (run "hello" defaultLimits (setLoadedModel booted stampingModel)).events ∧
      defaultLimits.maxSeconds.toNat ≤ asSecs (World.instant tick-World.instant booted.tick) := by
  intro world
  obtain ⟨booted,boots,fresh,ready⟩ := boot_succeeds (bootable (w := slowWorld) reading rfl rfl rfl (fun _ _ _ => rfl) rfl)
    (n := 100) (by decide)
  have standing := (fresh_standing fresh).loaded stampingModel
  have room : Ready (setLoadedModel booted stampingModel) (99+1) := ⟨ready.healthy,ready.own,ready.few⟩
  obtain ⟨tick,request,among,late⟩ := slow_asks standing room (fun _ _ => rfl) slow_elapsed rfl
  exact ⟨booted,tick,request,boots,among,late⟩

end

end AegisNode.TurnBounds
