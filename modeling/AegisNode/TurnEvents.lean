import AegisNode.TurnTrace

/-!
What every event of a run is, and what may follow the identity of a turn.
-/
namespace AegisNode.TurnEvents
open Bytes Clock Json Schema Policy Traced Adversarial Engine Mediator Frames Entries Turn TurnLoop TurnTrace Chronicle
open Backend hiding ToolCall
open Ledger hiding Error
set_option linter.unusedSectionVars false

section
variable [Chrono] [Serde] [Sha256] [Identity] [World]

/-! ### Kinds of events -/

/-- The entries of a session's beginning and end are not those of its calls and turns. -/
def InTurn (entryType : EntryType) : Prop :=
  entryType ≠ .SessionStart ∧ entryType ≠ .NetworkAttestation ∧ entryType ≠ .SessionEnd

instance (entryType : EntryType) : Decidable (InTurn entryType) := inferInstanceAs (Decidable (_ ∧ _ ∧ _))

theorem inTurn_written {rsid : Option String} {about : String → String → Prop} {entryType : EntryType}
    {fields : List (String × Scalar)} (written : Written rsid about entryType fields) : InTurn entryType := by
  cases written with
  | Work worked => cases worked <;> decide
  | Approval approved => cases approved <;> decide

/-- The entries of a turn: those of its calls, those that mark what it came to, and the
    flagged results. -/
inductive Noted : EntryType → List (String × Scalar) → Prop where
  | Called {rsid : Option String} {about : String → String → Prop} {entryType : EntryType} {fields : List (String × Scalar)}
      (written : Written rsid about entryType fields) : Noted entryType fields
  | Marked {entryType : EntryType} (fields : List (String × Scalar))
      (marks : entryType ∈ [.TurnStart,.ReasoningStep,.ToolCall,.ToolResult,.TurnEnd]) : Noted entryType fields
  | Flagged (verdict : ClassifierVerdict) (classifierName : String) (origin : ToolOrigin) :
      Noted .Violation (adversarialFields verdict classifierName origin)

theorem Noted.inTurn {entryType : EntryType} {fields : List (String × Scalar)} (noted : Noted entryType fields) :
    InTurn entryType := by
  cases noted with
  | Called written => exact inTurn_written written
  | Marked _ marks =>
    simp only [List.mem_cons,List.not_mem_nil,or_false] at marks
    rcases marks with rfl | rfl | rfl | rfl | rfl <;> decide
  | Flagged verdict classifierName origin => decide

/-- A kind of events that every part of a run leaves; identities are issued by the second
    version only. -/
structure Leaving (v2 : Bool) (kind : Event → Prop) : Prop where
  unwritten : ∀ e,Unwritten e → kind e
  appended : ∀ entry result,kind (.Append entry result)
  inferred : ∀ request response,kind (.Inferred request response)
  issued : v2 = true → ∀ {tick dir workloadName instanceName audience live chatTemplate ttl svid},
    Identity.issueTurnSvid tick dir workloadName instanceName live chatTemplate audience ttl = .ok (.ok svid) →
    kind (.IssuedTurnSvid audience live svid)

/-- A kind of events that the parts of a turn leave, but for the question to the model. -/
structure LeavingParts (v2 : Bool) (kind : Event → Prop) : Prop where
  unwritten : ∀ e,Unwritten e → kind e
  noted : ∀ entry result fields,Noted entry.entryType fields → entry.payload = payloadOf fields → kind (.Append entry result)
  issued : v2 = true → ∀ {tick dir workloadName instanceName audience live chatTemplate ttl svid},
    Identity.issueTurnSvid tick dir workloadName instanceName live chatTemplate audience ttl = .ok (.ok svid) →
    kind (.IssuedTurnSvid audience live svid)

/-- The same of whole turns. -/
structure LeavingTurns (v2 : Bool) (kind : Event → Prop) : Prop extends LeavingParts v2 kind where
  inferred : ∀ request response,kind (.Inferred request response)

/-- The same of runs, which a bound may end. -/
structure LeavingRuns (v2 : Bool) (kind : Event → Prop) : Prop extends LeavingTurns v2 kind where
  capped : ∀ entry result,entry.entryType = .Violation → kind (.Append entry result)

theorem Leaving.runs {v2 : Bool} {kind : Event → Prop} (leaving : Leaving v2 kind) : LeavingRuns v2 kind where
  unwritten := leaving.unwritten
  noted entry result _ _ _ := leaving.appended entry result
  issued := leaving.issued
  inferred := leaving.inferred
  capped entry result _ := leaving.appended entry result

section
variable {v2 : Bool} {kind : Event → Prop} (leaving : LeavingParts v2 kind)
include leaving

theorem LeavingParts.silent {α : Type} {p : Run α} (unwritten : Respects (Each Unwritten) p) : Respects (Each kind) p :=
  each_mono leaving.unwritten unwritten

theorem LeavingParts.records {α : Type} {p : Run α} {kinds : EntryType → List (String × Scalar) → Prop}
    (inside : ∀ {entryType fields},kinds entryType fields → Noted entryType fields) (records : Respects (Each (Records kinds)) p) :
    Respects (Each kind) p := by
  refine each_mono (fun e recorded => ?_) records
  cases e with
  | Append entry result =>
    obtain ⟨fields,written,payload⟩ := recorded
    exact leaving.noted entry result fields (inside written) payload
  | Inferred request response => exact recorded.elim
  | IssuedTurnSvid audience live svid => exact recorded.elim
  | _ => exact leaving.unwritten _ trivial

theorem LeavingParts.emitNow {entryType : EntryType} {fields : List (String × Scalar)} (noted : Noted entryType fields)
    (wrap : Ledger.Error → Error) : Respects (Each kind) (emitNow wrap entryType fields) := by
  refine leaving.records ?_ (show Respects (Each (Records fun written held => written = entryType ∧ held = fields)) _ from
    records_now fun _ => records_emit ⟨rfl,rfl⟩)
  rintro _ _ ⟨rfl,rfl⟩
  exact noted

theorem LeavingParts.elapsedSince (started : Nat) : Respects (Each kind) (elapsedSince started) :=
  leaving.silent (each_bind (unwritten_ask (by simp)) fun now => unwritten_pure _)

theorem LeavingParts.dispatch (call : Backend.ToolCall) (stepId : Option String) :
    Respects (Each kind) (dispatchToolCall call stepId) :=
  respects_dispatchToolCall (each_composes kind) (fun mediated _ => leaving.records .Called (records_mediate mediated)) call

theorem LeavingParts.runCalls (stepId : String) (recorded : Option Nat) (callIndex : Nat) (calls : List Backend.ToolCall) :
    Respects (Each kind) (runCalls stepId recorded callIndex calls) := by
  induction calls generalizing callIndex with
  | nil => exact respects_pure (each_composes kind) _
  | cons call rest ih =>
    refine each_bind ?_ fun outcome => each_bind (ih _) fun _ => respects_pure (each_composes kind) _
    cases recorded with
    | none => exact leaving.dispatch call _
    | some turn =>
      refine each_bind (leaving.emitNow (.Marked _ (by simp)) _) fun _ => ?_
      refine each_bind (leaving.dispatch call _) fun outcome => ?_
      exact each_bind (leaving.emitNow (.Marked _ (by simp)) _) fun _ => respects_pure (each_composes kind) _

theorem LeavingParts.recordReasoningStep (input reasoning : String) (toolsConsidered : List String) (toolSelected : Option String) :
    Respects (Each kind) (recordReasoningStep input reasoning toolsConsidered toolSelected) := by
  refine each_bind (leaving.silent (unwritten_ask (by simp))) fun stepId => ?_
  refine each_bind (leaving.silent unwritten_utcNow) fun now => ?_
  split_ifs
  · exact leaving.silent (unwritten_deny _)
  · have records : ∀ wrap fields,Respects (Each (Records fun written _ => written = .ReasoningStep))
        (emit wrap .ReasoningStep now (payloadOf fields)) := fun _ _ => records_emit rfl
    refine each_bind (leaving.records ?_ (records _ _)) fun _ => respects_pure (each_composes kind) _
    rintro _ fields rfl
    exact .Marked fields (by simp)

theorem LeavingParts.dispatchAnswer (prompt : String) (turn : Option Nat) (tools : List ToolDecl) (response : InferResponse) :
    Respects (Each kind) (dispatchAnswer prompt turn tools response) := by
  refine each_bind (leaving.recordReasoningStep _ _ _ _) fun stepUuid => ?_
  refine each_bind (leaving.silent (unwritten_reads _)) fun version => ?_
  exact each_bind (leaving.runCalls _ _ _ _) fun outcomes => respects_pure (each_composes kind) _

theorem LeavingParts.writeFlagged (classifierName : String) (judged : List Judged) :
    Respects (Each kind) (writeFlagged classifierName judged) := by
  induction judged with
  | nil => exact respects_pure (each_composes kind) _
  | cons first rest ih =>
    refine each_bind ?_ fun _ => ih
    unfold writeIfFlagged writeAdversarialViolation
    split_ifs
    · exact respects_pure (each_composes kind) _
    · exact leaving.emitNow (.Flagged _ _ _) _
    · exact respects_pure (each_composes kind) _

theorem LeavingParts.issueTurnSvid (second : v2 = true) (audience : String) (remaining : Nat) :
    Respects (Each kind) (issueTurnSvid audience remaining) := by
  refine each_bind (leaving.silent unwritten_computeLiveDigests) fun live => ?_
  refine each_bind (leaving.silent (unwritten_reads _)) fun identityDir => ?_
  refine each_bind (leaving.silent (unwritten_reads _)) fun workloadName => ?_
  refine each_bind (leaving.silent (unwritten_reads _)) fun instanceName => ?_
  refine each_bind (leaving.silent (unwritten_reads _)) fun chatTemplate => ?_
  refine each_bind ?_ fun issued => ?_
  · intro s e member
    unfold ask issuedEvent at member
    split at member
    · rename_i svid answered
      cases List.mem_singleton.mp member
      exact leaving.issued second answered
    · cases member
  refine each_bind (leaving.silent (unwritten_orPanic issued)) fun issued => ?_
  refine each_bind (leaving.silent (unwritten_orFail _ _)) fun svid => ?_
  refine each_bind (leaving.silent (unwritten_orFail _ _)) fun thumbprint => ?_
  exact each_bind (leaving.silent (unwritten_update _)) fun _ => respects_pure (each_composes kind) _

theorem LeavingParts.openTurn (limits : TurnLimits) (started turn : Nat) (messages : List ChatMessage) :
    Respects (Each kind) (whenV2 v2 (openTurn limits started turn messages)) := by
  unfold whenV2
  split_ifs with second
  · refine each_bind (leaving.silent (unwritten_reads _)) fun audience => ?_
    refine each_bind (leaving.elapsedSince _) fun elapsed => ?_
    refine each_bind (leaving.issueTurnSvid second _ _) fun thumbprint => ?_
    exact each_bind (leaving.silent (unwritten_reads _)) fun bound => leaving.emitNow (.Marked _ (by simp)) _
  · exact respects_pure (each_composes kind) _

theorem LeavingParts.closeTurn (started turn : Nat) (used : Option UInt64) (tokensConsumed : UInt64) :
    Respects (Each kind) (closeTurn started turn used tokensConsumed) := by
  refine each_bind (leaving.elapsedSince _) fun elapsed => ?_
  refine each_bind (each_bind (leaving.silent (unwritten_reads _)) fun taken => leaving.emitNow (.Marked _ (by simp)) _) fun _ => ?_
  exact leaving.silent (unwritten_update _)

theorem LeavingParts.concludeTurn (started : Nat) (second : Bool) (turn : Nat) (progress : Progress) (outcome : TurnOutcome)
    (used : Option UInt64) : Respects (Each kind) (concludeTurn started second turn progress outcome used) := by
  refine each_bind (leaving.silent (unwritten_reads _)) fun classifier => ?_
  refine each_bind (leaving.writeFlagged _ _) fun _ => ?_
  refine each_bind ?_ fun _ => respects_pure (each_composes kind) _
  unfold whenV2
  split_ifs
  · exact leaving.closeTurn _ _ _ _
  · exact respects_pure (each_composes kind) _

end

section
variable {v2 : Bool} {kind : Event → Prop} (leaving : LeavingTurns v2 kind)
include leaving

theorem LeavingTurns.infer (messages : List ChatMessage) (tools : List ToolDecl) : Respects (Each kind) (infer messages tools) := by
  refine each_bind (leaving.silent (unwritten_reads _)) fun loaded => ?_
  refine each_bind (leaving.silent (unwritten_orFail _ _)) fun model => ?_
  refine each_bind ?_ fun response => leaving.silent (unwritten_orFail _ _)
  intro s e member
  cases List.mem_singleton.mp member
  exact leaving.inferred _ _

theorem LeavingTurns.runOneTurn (messages : List ChatMessage) (prompt : String) (turn : Option Nat) :
    Respects (Each kind) (runOneTurn messages prompt turn) := by
  refine each_bind (leaving.silent (unwritten_reads _)) fun tools => ?_
  exact each_bind (leaving.infer _ _) fun response => leaving.dispatchAnswer _ _ _ response

theorem LeavingTurns.oneTurn (prompt : String) (limits : TurnLimits) (started turn : Nat) (progress : Progress) :
    Respects (Each kind) (oneTurn prompt limits started v2 turn progress) := by
  refine each_bind (leaving.openTurn _ _ _ _) fun _ => ?_
  exact each_bind (leaving.runOneTurn _ _ _) fun answered => leaving.concludeTurn _ _ _ _ _ _

end

section
variable {v2 : Bool} {kind : Event → Prop} (leaving : LeavingRuns v2 kind)
include leaving

theorem LeavingRuns.emitCapAndBuildErr {α : Type} (bound : TurnCapKind) (atTurn : Nat) (limits : TurnLimits) (tokensConsumed : UInt64)
    (elapsed : Nat) : Respects (Each kind) (emitCapAndBuildErr bound atTurn limits tokensConsumed elapsed : Run α) := by
  have records : Respects (Each (Records fun written _ => written = .Violation))
      (writeTurnCapViolation bound atTurn limits tokensConsumed (asSecsF64 elapsed)) := records_now fun _ => records_emit rfl
  refine each_bind (each_mono (fun e recorded => ?_) records) fun _ => leaving.silent (unwritten_deny _)
  cases e with
  | Append entry result =>
    obtain ⟨fields,violates,-⟩ := recorded
    exact leaving.capped entry result violates
  | Inferred request response => exact recorded.elim
  | IssuedTurnSvid audience live svid => exact recorded.elim
  | _ => exact leaving.unwritten _ trivial

theorem LeavingRuns.turnLoop (prompt : String) (limits : TurnLimits) (started left turn : Nat) (progress : Progress) :
    Respects (Each kind) (turnLoop prompt limits started v2 left turn progress) := by
  induction left generalizing turn progress with
  | zero => exact each_bind (leaving.elapsedSince _) fun elapsed => leaving.emitCapAndBuildErr _ _ _ _ elapsed
  | succ left ih =>
    refine each_bind (leaving.elapsedSince _) fun elapsed => ?_
    cases tripped limits progress.tokensConsumed elapsed with
    | some bound => exact leaving.emitCapAndBuildErr _ _ _ _ elapsed
    | none =>
      refine each_bind (leaving.oneTurn _ _ _ _ _) fun played => ?_
      split_ifs
      · exact each_bind (leaving.elapsedSince _) fun _ => respects_pure (each_composes kind) _
      · exact ih _ _

end

theorem leaving_run {kind : Event → Prop} {s : Session} (leaving : LeavingRuns (s.ledger.schemaVersion = .V2) kind)
    (prompt : String) (limits : TurnLimits) : ∀ e ∈ (run prompt limits s).events,kind e := by
  rw [run_loops]
  exact leaving.turnLoop prompt limits _ _ _ _ s.next

end

/-! ### After an identity is issued -/

/-- No identity is issued. -/
def Unissued (seen : List Sight) : Prop := ∀ audience live svid,.Issued audience live svid ∉ seen

/-- The model is asked after each identity that is issued. -/
def Asking (seen : List Sight) : Prop := ∀ before audience live svid after,seen = before ++ .Issued audience live svid :: after →
  ∃ request response,.Asked request response ∈ after

/-- After an identity the model is asked, or at most the turn is opened. -/
def Opening (seen : List Sight) : Prop := ∀ before audience live svid after,seen = before ++ .Issued audience live svid :: after →
  (∃ request response,.Asked request response ∈ after) ∨ ∀ entry,.Wrote entry ∈ after → entry.entryType = .TurnStart

theorem unissued_append {left right : List Sight} (first : Unissued left) (second : Unissued right) : Unissued (left ++ right) := by
  intro audience live svid member
  rcases List.mem_append.mp member with member | member
  · exact first audience live svid member
  · exact second audience live svid member

theorem unissued_cons {sight : Sight} {rest : List Sight} (other : ∀ audience live svid,sight ≠ .Issued audience live svid)
    (later : Unissued rest) : Unissued (sight :: rest) := by
  intro audience live svid member
  rcases List.mem_cons.mp member with same | member
  · exact other audience live svid same.symm
  · exact later audience live svid member

theorem entered_other {entryType : EntryType} {fields : List (String × Scalar)} {sight : Sight}
    (entered : Entered entryType fields sight) (audience : String) (live : DigestTriple) (svid : X509Svid) :
    sight ≠ .Issued audience live svid := by
  obtain ⟨entry,rfl,-⟩ := entered
  exact Sight.noConfusion

theorem split_unissued {left right before after : List Sight} {audience : String} {live : DigestTriple} {svid : X509Svid}
    (none : Unissued left) (whole : left ++ right = before ++ .Issued audience live svid :: after) :
    ∃ rest,before = left ++ rest ∧ right = rest ++ .Issued audience live svid :: after := split_append (none _ _ _) whole

/-- The one identity of a turn comes first. -/
theorem split_headed {issued : Sight} {rest before after : List Sight} {audience : String} {live : DigestTriple} {svid : X509Svid}
    (none : Unissued rest) (whole : issued :: rest = before ++ .Issued audience live svid :: after) : after = rest := by
  cases before with
  | nil => exact (List.cons.inj whole).2.symm
  | cons first before =>
    have tail := (List.cons.inj whole).2
    exact absurd (by rw [tail]; simp) (none audience live svid)

section
variable [Chrono] [Serde] [Sha256]

theorem unissued_mediated {stepId : String} {within : List Sight} (mediated : ∀ sight ∈ within,Mediated stepId sight) :
    Unissued within := by
  intro audience live svid member
  obtain ⟨_,_,_,-,entered⟩ := mediated _ member
  exact entered_other entered _ _ _ rfl

theorem unissued_calls {stepId : String} {turn callIndex : Nat} {calls : List Backend.ToolCall} {results : List ToolCallResult}
    {seen : List Sight} (called : CallsSeen stepId turn callIndex calls results seen) : Unissued seen := by
  induction called with
  | Ended => exact fun _ _ _ member => absurd member List.not_mem_nil
  | Broken opens mediated => exact unissued_cons (entered_other opens) (unissued_mediated mediated)
  | Paired opens mediated closes others ih =>
    exact unissued_cons (entered_other opens) (unissued_append (unissued_mediated mediated) (unissued_cons (entered_other closes) ih))

theorem unissued_dispatched {request : InferRequest} {prompt : String} {turn : Nat} {response : InferResponse} {stepUuid : Uuid}
    {results : List ToolCallResult} {reasoned : Sight} {calls : List Sight}
    (dispatched : Dispatched request prompt turn response stepUuid results reasoned calls) :
    Unissued (.Asked request (.ok response) :: reasoned :: calls) :=
  unissued_cons (fun _ _ _ => Sight.noConfusion) (unissued_cons (entered_other dispatched.reasons) (unissued_calls dispatched.called))

theorem unissued_answer {request : InferRequest} {prompt : String} {turn : Nat} {seen : List Sight}
    (answer : AnswerSeen request prompt turn seen) : Unissued seen := by
  have nothing : Unissued [] := fun _ _ _ member => absurd member List.not_mem_nil
  cases answer with
  | Unasked => exact nothing
  | Failed error => exact unissued_cons (fun _ _ _ => Sight.noConfusion) nothing
  | Unreasoned response => exact unissued_cons (fun _ _ _ => Sight.noConfusion) nothing
  | Dispatched dispatched => exact unissued_dispatched dispatched

theorem unissued_flags {classifierName : String} {flagged : List Judged} {seen : List Sight}
    (flags : FlagsSeen classifierName flagged seen) : Unissued seen := by
  induction flags with
  | nil => exact fun _ _ _ member => absurd member List.not_mem_nil
  | cons violates _ ih => exact unissued_cons (entered_other violates) ih

theorem answered_asked {request : InferRequest} {prompt : String} {turn : Nat} {response : InferResponse}
    {results : List ToolCallResult} {outcome : TurnOutcome} {seen : List Sight}
    (answered : Answered request prompt turn response results outcome seen) :
    Unissued seen ∧ .Asked request (.ok response) ∈ seen := by
  obtain ⟨stepUuid,reasoned,called,dispatched,rfl⟩ := answered.parts
  exact ⟨unissued_dispatched dispatched,List.mem_cons_self⟩

variable {s : Session} {prompt : String} {turn : Nat} {messages : List ChatMessage}

theorem opens_opening {issued opening : Sight} (opens : Opens s turn messages issued opening) {answer : List Sight}
    (answers : AnswerSeen (requestOf messages s) prompt turn answer) : Opening (issued :: opening :: answer) := by
  obtain ⟨thumbprint,opened⟩ := opens.opens
  intro before audience live svid after whole
  cases split_headed (unissued_cons (entered_other opened) (unissued_answer answers)) whole
  obtain ⟨entry,rfl,start,-⟩ := opened
  cases answers with
  | Unasked =>
    right
    intro other member
    cases List.mem_singleton.mp member
    exact start
  | Failed error => exact .inl ⟨_,_,List.mem_cons_of_mem _ List.mem_cons_self⟩
  | Unreasoned response => exact .inl ⟨_,_,List.mem_cons_of_mem _ List.mem_cons_self⟩
  | Dispatched dispatched => exact .inl ⟨_,_,List.mem_cons_of_mem _ List.mem_cons_self⟩

theorem answered_asking {issued opening : Sight} (opens : Opens s turn messages issued opening) {response : InferResponse}
    {results : List ToolCallResult} {outcome : TurnOutcome} {answer later : List Sight}
    (answered : Answered (requestOf messages s) prompt turn response results outcome answer) (none : Unissued later) :
    Asking (issued :: opening :: (answer ++ later)) := by
  obtain ⟨thumbprint,opened⟩ := opens.opens
  obtain ⟨unissued,asked⟩ := answered_asked answered
  intro before audience live svid after whole
  cases split_headed (unissued_cons (entered_other opened) (unissued_append unissued none)) whole
  exact ⟨_,_,List.mem_cons_of_mem _ (List.mem_append_left _ asked)⟩

theorem Asking.opening {seen : List Sight} (asking : Asking seen) : Opening seen :=
  fun before audience live svid after whole => .inl (asking before audience live svid after whole)

theorem turn_opening {seen : List Sight} (turnSeen : TurnSeen s prompt turn messages seen) : Opening seen := by
  cases turnSeen with
  | Unissued =>
    intro before audience live svid after whole
    simp at whole
  | Unopened live svid =>
    intro before audience other others after whole
    cases split_headed (fun _ _ _ member => absurd member List.not_mem_nil) whole
    exact .inr fun entry member => absurd member List.not_mem_nil
  | Opened opens answers => exact opens_opening opens answers
  | Answered opens answered flagging => exact (answered_asking opens answered (unissued_flags flagging)).opening
  | Closed opens answered flagging closes =>
    have last := unissued_append (unissued_flags flagging) (unissued_cons (entered_other closes) fun _ _ _ member =>
      absurd member List.not_mem_nil)
    rw [List.append_assoc]
    exact (answered_asking opens answered last).opening

theorem completed_asking {response : InferResponse} {results : List ToolCallResult} {outcome : TurnOutcome} {seen : List Sight}
    (completed : Completed s prompt turn messages response results outcome seen) : Asking seen := by
  obtain ⟨issued,opening,closing,answer,flags,tokens,ms,taken,opens,answered,flagging,closes,rfl⟩ := completed.whole
  have last := unissued_append (unissued_flags flagging) (unissued_cons (entered_other closes) fun _ _ _ member =>
    absurd member List.not_mem_nil)
  rw [List.append_assoc]
  exact answered_asking opens answered last

theorem opening_append {left right : List Sight} (first : Asking left) (second : Opening right) : Opening (left ++ right) := by
  intro before audience live svid after whole
  rcases split_either whole with ⟨rest,inside,rfl⟩ | ⟨rest,-,tail⟩
  · obtain ⟨request,response,asked⟩ := first before audience live svid rest inside
    exact .inl ⟨request,response,List.mem_append_left _ asked⟩
  · exact second rest audience live svid after tail

end

section
variable [Chrono] [Serde] [Sha256] [Identity] [World] {prompt : String} {limits : TurnLimits} {started : Nat}

theorem plays_opening {turn turn' : Nat} {progress progress' : Progress} {s t : Session} {events : List Event}
    {rest : List Sight} (plays : Plays prompt limits started true turn progress s events turn' progress' t)
    (version : s.ledger.schemaVersion = .V2) (later : Opening rest) : Opening (sights events ++ rest) := by
  induction plays with
  | Here => exact later
  | @Turn turn turn' progress grown progress' s m t left right admitted played others ih =>
    have next : s.next.ledger.schemaVersion = .V2 := version
    obtain ⟨-,returns⟩ := oneTurn_seen prompt limits started turn progress next
    obtain ⟨-,response,results,outcome,completed,-⟩ := returns _ _ played.result
    rw [played.events] at completed
    have v2 := (played.respects (chronicles_made (made_oneTurn prompt limits started true turn progress))).version.trans next
    rw [sights_append,List.append_assoc]
    exact opening_append (completed_asking completed) (ih v2)

theorem ends_opening {turn left : Nat} {progress : Progress} {s : Session} {last : Outcome Session Stop Event SessionRunResult}
    (ends : LoopEnds prompt limits started true turn progress s left last) (version : s.ledger.schemaVersion = .V2) :
    Opening (sights last.events) := by
  have next : s.next.ledger.schemaVersion = .V2 := version
  have capped : ∀ (bound : TurnCapKind) (atTurn : Nat),Opening (sights (emitCapAndBuildErr bound atTurn limits
      progress.tokensConsumed (World.instant s.tick-started) s.next : Outcome Session Stop Event SessionRunResult).events) := by
    intro bound atTurn
    obtain ⟨⟨violation,entered,wrote⟩,-⟩ := emitCapAndBuildErr_seen limits bound atTurn progress.tokensConsumed
      (World.instant s.tick-started) s.next
    rw [wrote]
    intro before audience live svid after whole
    have member : Sight.Issued audience live svid ∈ [violation] := by
      rw [whole]
      simp
    exact absurd (List.mem_singleton.mp member).symm (entered_other entered _ _ _)
  cases ends with
  | Exhausted => exact capped _ _
  | Tripped bound refused => exact capped _ _
  | Broken admitted stops =>
    have seen := (oneTurn_seen prompt limits started turn progress next).1
    rw [stops.events] at seen
    exact turn_opening seen
  | Done admitted played =>
    have seen := (oneTurn_seen prompt limits started turn progress next).1
    rw [played.events] at seen
    exact turn_opening seen

/-- In every run the model is asked after an identity is issued, or at most the turn is
    opened. -/
theorem run_opening (prompt : String) (limits : TurnLimits) (s : Session) : Opening (sights (run prompt limits s).events) := by
  by_cases version : s.ledger.schemaVersion = .V2
  · rw [run_loops]
    obtain ⟨spent,turn',progress',m,before,last,-,-,plays,ends,whole⟩ := turnLoop_cases prompt limits (World.instant s.tick)
      (s.ledger.schemaVersion = .V2) limits.maxTurns.toNat 1 ⟨[⟨.User,prompt⟩],[],0⟩ s.next
    rw [decide_eq_true version] at plays ends
    rw [whole]
    dsimp only
    rw [sights_append]
    exact plays_opening plays version (ends_opening ends (plays.kept.2.trans version))
  · have leaving : Leaving (s.ledger.schemaVersion = .V2) (fun e => ∀ audience live svid,e ≠ .IssuedTurnSvid audience live svid) := by
      refine ⟨?_,fun _ _ _ _ _ => Event.noConfusion,fun _ _ _ _ _ => Event.noConfusion,?_⟩
      · rintro e unwritten audience live svid rfl
        exact unwritten
      · intro second
        exact absurd (of_decide_eq_true second) version
    intro before audience live svid after whole
    have member : Sight.Issued audience live svid ∈ sights (run prompt limits s).events := by
      rw [whole]
      simp
    obtain ⟨e,among,seen⟩ := List.mem_filterMap.mp member
    cases e with
    | IssuedTurnSvid a l v => exact absurd rfl (leaving_run leaving.runs prompt limits _ among a l v)
    | _ => cases seen

end

end AegisNode.TurnEvents
