import AegisNode.JsonText
import AegisNode.ReferenceTurn

/-!
The identifiers of a run: the numbers of its turns, the ids of its tool calls and the
audiences of its certificates. One run gives none of them twice; the next run starts
again at one.
-/
namespace AegisNode.Identifiers
open Clock Json Schema Policy Traced Engine Mediator Entries Turn TurnLoop Chronicle TurnTrace
open Backend hiding ToolCall
open Ledger hiding Error
set_option linter.unusedSectionVars false

/-! ### Identifiers -/

inductive Identifier where
  | Turn (turnNumber : Option Value)
  | Call (toolCallId : Option Value)
  | Binding (audience : String)

def identifier? : Sight → Option Identifier
  | .Wrote entry =>
    match entry.entryType with
    | .TurnStart => some (.Turn (Map.get entry.payload.fields "turnNumber"))
    | .ToolCall => some (.Call (Map.get entry.payload.fields "toolCallId"))
    | _ => none
  | .Issued audience _ _ => some (.Binding audience)
  | .Asked _ _ => none

/-- Those of the entries that were handed to the ledger, and of the certificates. -/
def identifiers (events : List Event) : List Identifier := (sights events).filterMap identifier?

theorem identifiers_append (left right : List Event) : identifiers (left ++ right) = identifiers left ++ identifiers right := by
  rw [identifiers,sights_append,List.filterMap_append]
  rfl

/-- The identifiers that a turn of a session may have. -/
inductive Belongs (sessionId : String) (turn : Nat) : Identifier → Prop where
  | Turn : Belongs sessionId turn (.Turn (some (turnNumber turn).value))
  | Call (callIndex : Nat) : Belongs sessionId turn (.Call (some (.String (toolCallIdOf turn callIndex))))
  | Binding : Belongs sessionId turn (.Binding (turnAudience sessionId turn))

/-! ### They tell the turn -/

theorem toString_injective {n m : Nat} (same : toString n = toString m) : n = m := by
  rw [Nat.toString_eq_repr,Nat.toString_eq_repr] at same
  have digits := congrArg String.toList same
  rw [Nat.toList_repr,Nat.toList_repr] at digits
  have read := JsonText.decimal?_toDigits n
  rw [digits,JsonText.decimal?_toDigits] at read
  exact (Option.some.inj read).symm

theorem turnAudience_injective {sessionId : String} {turn other : Nat}
    (same : turnAudience sessionId turn = turnAudience sessionId other) : turn = other := by
  have lists := congrArg String.toList same
  simp only [turnAudience,String.toList_append,List.append_cancel_left_eq] at lists
  exact toString_injective (String.toList_injective lists)

theorem toolCallIdOf_injective {turn callIndex other otherIndex : Nat}
    (same : toolCallIdOf turn callIndex = toolCallIdOf other otherIndex) : turn = other ∧ callIndex = otherIndex := by
  have split : ∀ turn callIndex : Nat,(toolCallIdOf turn callIndex).toList =
      "turn-".toList ++ (Nat.toDigits 10 turn ++ ("-call-".toList ++ (toString callIndex).toList)) := by
    intro turn callIndex
    simp only [toolCallIdOf,String.toList_append,Nat.toString_eq_repr,Nat.toList_repr,List.append_assoc]
  have lists := congrArg String.toList same
  rw [split,split,List.append_cancel_left_eq] at lists
  have stops : ∀ (callIndex : Nat) (c : Char),("-call-".toList ++ (toString callIndex).toList).head? = some c → JsonText.isDigit c = false := by
    intro callIndex c first
    cases first
    decide
  obtain ⟨front,back⟩ := JsonText.takeDigits (JsonText.isDigit_toDigits turn) (stops callIndex)
  obtain ⟨front',back'⟩ := JsonText.takeDigits (JsonText.isDigit_toDigits other) (stops otherIndex)
  rw [lists,front'] at front
  rw [lists,back',List.append_cancel_left_eq] at back
  have read := JsonText.decimal?_toDigits turn
  rw [← front,JsonText.decimal?_toDigits] at read
  exact ⟨(Option.some.inj read).symm,(toString_injective (String.toList_injective back)).symm⟩

theorem turnNumber_injective {turn other : Nat} (small : turn < 2^64) (small' : other < 2^64)
    (same : (turnNumber turn).value = (turnNumber other).value) : turn = other := by
  injection same with same
  injection same with same
  have numbers := congrArg UInt64.toNat same
  rwa [UInt64.toNat_ofNat_of_lt' small,UInt64.toNat_ofNat_of_lt' small'] at numbers

/-- An identifier belongs to one turn at most. -/
theorem Belongs.unique {sessionId : String} {turn other : Nat} {id : Identifier} (belongs : Belongs sessionId turn id)
    (belongs' : Belongs sessionId other id) (small : turn < 2^64) (small' : other < 2^64) : turn = other := by
  generalize same : id = id' at belongs'
  cases belongs with
  | Turn =>
    cases belongs' with
    | Turn =>
      injection same with same
      exact turnNumber_injective small small' (Option.some.inj same)
    | Call callIndex => cases same
    | Binding => cases same
  | Call callIndex =>
    cases belongs' with
    | Turn => cases same
    | Call callIndex' =>
      injection same with same
      injection same with same
      injection same with same
      exact (toolCallIdOf_injective same).1
    | Binding => cases same
  | Binding =>
    cases belongs' with
    | Turn => cases same
    | Call callIndex => cases same
    | Binding =>
      injection same with same
      exact turnAudience_injective same

/-! ### The identifiers of a turn -/

section
variable [Serde] [Sha256]

theorem entered_plain {entryType : EntryType} {fields : List (String × Scalar)} {sight : Sight}
    (entered : Entered entryType fields sight) (start : entryType ≠ .TurnStart) (call : entryType ≠ .ToolCall) :
    identifier? sight = none := by
  obtain ⟨entry,rfl,rfl,-⟩ := entered
  dsimp only [identifier?]
  split <;> first | contradiction | rfl

theorem mediated_plain {stepId : String} {sight : Sight} (mediated : Mediated stepId sight) : identifier? sight = none := by
  obtain ⟨about,entryType,fields,written,entered⟩ := mediated
  have apart : entryType ≠ .TurnStart ∧ entryType ≠ .ToolCall := by
    rcases written with worked | approved
    · cases worked <;> exact ⟨by decide,by decide⟩
    · cases approved <;> exact ⟨by decide,by decide⟩
  exact entered_plain entered apart.1 apart.2

theorem plain_sights {seen : List Sight} (plain : ∀ sight ∈ seen,identifier? sight = none) : seen.filterMap identifier? = [] :=
  List.filterMap_eq_nil_iff.mpr plain

theorem entered_call {turn callIndex : Nat} {call : Backend.ToolCall} {sight : Sight}
    (entered : Entered .ToolCall (calledFields turn callIndex call) sight) :
    identifier? sight = some (.Call (some (.String (toolCallIdOf turn callIndex)))) := by
  obtain ⟨entry,rfl,call',payload⟩ := entered
  dsimp only [identifier?]
  rw [call']
  dsimp only
  rw [payload,get_payloadOf]
  rfl

theorem entered_start {turn : Nat} {model : Digest} {context thumbprint audience : String} {sight : Sight}
    (entered : Entered .TurnStart (turnStartFields turn model context thumbprint audience) sight) :
    identifier? sight = some (.Turn (some (turnNumber turn).value)) := by
  obtain ⟨entry,rfl,start,payload⟩ := entered
  dsimp only [identifier?]
  rw [start]
  dsimp only
  rw [payload,get_payloadOf]
  rfl

/-- The ids of the calls of a turn are numbered on from an index. -/
theorem calls_identifiers {stepId : String} {turn callIndex : Nat} {calls : List Backend.ToolCall} {results : List ToolCallResult}
    {seen : List Sight} (called : CallsSeen stepId turn callIndex calls results seen) :
    ∃ n,seen.filterMap identifier? =
      (List.range' callIndex n).map (fun i => .Call (some (.String (toolCallIdOf turn i)))) := by
  induction called with
  | Ended => exact ⟨0,rfl⟩
  | Broken opens mediated =>
    refine ⟨1,?_⟩
    rw [List.filterMap_cons_some (entered_call opens),plain_sights fun sight member => mediated_plain (mediated sight member)]
    rfl
  | Paired opens mediated closes others ih =>
    obtain ⟨n,later⟩ := ih
    refine ⟨n+1,?_⟩
    rw [List.cons_append,List.filterMap_cons_some (entered_call opens),List.filterMap_append,
      plain_sights fun sight member => mediated_plain (mediated sight member),
      List.filterMap_cons_none (entered_plain closes (by decide) (by decide)),later,List.range'_succ]
    rfl

/-- No identifier twice, and all of them those of turns from `low` up to `high`. -/
structure Distinct (sessionId : String) (low high : Nat) (ids : List Identifier) : Prop where
  nodup : ids.Nodup
  belong : ∀ id ∈ ids,∃ turn,low ≤ turn ∧ turn < high ∧ Belongs sessionId turn id

theorem distinct_nil (sessionId : String) (low high : Nat) : Distinct sessionId low high [] := ⟨List.nodup_nil,by simp⟩

/-- Turns come after each other. -/
theorem Distinct.append {sessionId : String} {low middle high : Nat} {left right : List Identifier}
    (first : Distinct sessionId low middle left) (second : Distinct sessionId middle high right) (rising : low ≤ middle)
    (rising' : middle ≤ high) (small : high ≤ 2^64) : Distinct sessionId low high (left ++ right) := by
  constructor
  · rw [List.nodup_append]
    refine ⟨first.nodup,second.nodup,?_⟩
    rintro id member _ member' rfl
    obtain ⟨turn,-,below,belongs⟩ := first.belong id member
    obtain ⟨other,above,under,belongs'⟩ := second.belong id member'
    have same := belongs.unique belongs' (by omega) (by omega)
    omega
  · intro id member
    rcases List.mem_append.mp member with member | member
    · obtain ⟨turn,above,below,belongs⟩ := first.belong id member
      exact ⟨turn,above,by omega,belongs⟩
    · obtain ⟨turn,above,below,belongs⟩ := second.belong id member
      exact ⟨turn,by omega,below,belongs⟩

theorem calls_distinct (sessionId : String) (turn callIndex n : Nat) : Distinct sessionId turn (turn+1)
    ((List.range' callIndex n).map (fun i => .Call (some (.String (toolCallIdOf turn i))))) := by
  constructor
  · refine List.Nodup.map (fun i j same => ?_) List.nodup_range'
    injection same with same
    injection same with same
    injection same with same
    exact (toolCallIdOf_injective same).2
  · intro id member
    obtain ⟨i,-,rfl⟩ := List.mem_map.mp member
    exact ⟨turn,le_rfl,Nat.lt_succ_self _,.Call i⟩

variable {s : Session} {prompt : String} {turn : Nat} {messages : List ChatMessage}

/-- After the certificate and the first entry of a turn there are calls only. -/
theorem opened_distinct {issued opening : Sight} {rest : List Sight} (opens : Opens s turn messages issued opening)
    (callIndex n : Nat) (calls : rest.filterMap identifier? =
      (List.range' callIndex n).map (fun i => .Call (some (.String (toolCallIdOf turn i))))) :
    Distinct s.sessionId turn (turn+1) ((issued :: opening :: rest).filterMap identifier?) := by
  obtain ⟨live,svid,rfl⟩ := opens.issues
  obtain ⟨thumbprint,entered⟩ := opens.opens
  rw [List.filterMap_cons_some (show identifier? (.Issued _ live svid) = some (.Binding _) from rfl),
    List.filterMap_cons_some (entered_start entered),calls]
  have later := calls_distinct s.sessionId turn callIndex n
  constructor
  · rw [List.nodup_cons,List.nodup_cons]
    exact ⟨by simp,by simp,later.nodup⟩
  · intro id member
    rcases List.mem_cons.mp member with rfl | member
    · exact ⟨turn,le_rfl,Nat.lt_succ_self _,.Binding⟩
    rcases List.mem_cons.mp member with rfl | member
    · exact ⟨turn,le_rfl,Nat.lt_succ_self _,.Turn⟩
    · exact later.belong id member

theorem flags_plain {classifierName : String} {flagged : List Judged} {seen : List Sight}
    (flags : FlagsSeen classifierName flagged seen) : seen.filterMap identifier? = [] := by
  induction flags with
  | nil => rfl
  | cons first rest ih => rw [List.filterMap_cons_none (entered_plain first (by decide) (by decide)),ih]

theorem dispatched_identifiers {request : InferRequest} {response : InferResponse} {stepUuid : Uuid}
    {results : List ToolCallResult} {reasoned : Sight} {calls : List Sight}
    (dispatched : Dispatched request prompt turn response stepUuid results reasoned calls) (rest : List Sight)
    (plain : rest.filterMap identifier? = []) :
    ∃ n,(.Asked request (.ok response) :: reasoned :: calls ++ rest).filterMap identifier? =
      (List.range' 0 n).map (fun i => .Call (some (.String (toolCallIdOf turn i)))) := by
  obtain ⟨n,called⟩ := calls_identifiers dispatched.called
  refine ⟨n,?_⟩
  rw [List.filterMap_append,plain,List.append_nil,
    List.filterMap_cons_none (show identifier? (.Asked request (.ok response)) = none from rfl),
    List.filterMap_cons_none (entered_plain dispatched.reasons (by decide) (by decide)),called]

theorem turn_distinct {seen : List Sight} (turnSeen : TurnSeen s prompt turn messages seen) :
    Distinct s.sessionId turn (turn+1) (seen.filterMap identifier?) := by
  cases turnSeen with
  | Unissued => exact distinct_nil _ _ _
  | Unopened live svid =>
    constructor
    · simp [identifier?]
    · intro id member
      cases List.mem_singleton.mp member
      exact ⟨turn,le_rfl,Nat.lt_succ_self _,.Binding⟩
  | Opened opens answers =>
    cases answers with
    | Unasked => exact opened_distinct opens 0 0 rfl
    | Failed error => exact opened_distinct opens 0 0 rfl
    | Unreasoned response => exact opened_distinct opens 0 0 rfl
    | Dispatched dispatched =>
      obtain ⟨n,calls⟩ := dispatched_identifiers dispatched [] rfl
      rw [List.append_nil] at calls
      exact opened_distinct opens 0 n calls
  | Answered opens answered flagging =>
    obtain ⟨stepUuid,reasoned,called,dispatched,rfl⟩ := answered.parts
    obtain ⟨n,calls⟩ := dispatched_identifiers dispatched _ (flags_plain flagging)
    exact opened_distinct opens 0 n calls
  | Closed opens answered flagging closes =>
    obtain ⟨stepUuid,reasoned,called,dispatched,rfl⟩ := answered.parts
    obtain ⟨n,calls⟩ := dispatched_identifiers dispatched (_ ++ [_]) (by
      rw [List.filterMap_append,flags_plain flagging,List.filterMap_cons_none (entered_plain closes (by decide) (by decide))]
      rfl)
    rw [← List.append_assoc] at calls
    exact opened_distinct opens 0 n calls

end

/-! ### The identifiers of a run -/

section
variable [Chrono] [Serde] [Sha256] [Identity] [World]

/-- Ledgers of the first version get no identifiers. -/
def Unnumbered (a : Session) (events : List Event) (b : Session) : Prop :=
  b.ledger.schemaVersion = a.ledger.schemaVersion ∧ (a.ledger.schemaVersion = .V1 → identifiers events = [])

theorem unnumbered_composes : Composes Unnumbered where
  idle _ := ⟨rfl,fun _ => rfl⟩
  append := by
    intro a b c left right first second
    refine ⟨second.1.trans first.1,fun early => ?_⟩
    rw [identifiers_append,first.2 early,second.2 (first.1.trans early)]
    rfl

theorem unnumbered_made {allowed : Stop → Prop} {α : Type} {p : Run α} (made : Made (Does allowed) p) (plain : ∀ s,identifiers (p s).events = []) :
    Respects Unnumbered p := fun s => ⟨(chronicles_made made s).version,fun _ => plain s⟩

theorem unnumbered_dispatch (call : Backend.ToolCall) (stepId : String) :
    Respects Unnumbered (dispatchToolCall call (some stepId)) :=
  unnumbered_made (made_dispatchToolCall _ _) fun s =>
    plain_sights fun sight member => mediated_plain (dispatch_mediated call stepId s sight member)

theorem unnumbered_runCalls (stepId : String) (callIndex : Nat) (calls : List Backend.ToolCall) :
    Respects Unnumbered (runCalls stepId none callIndex calls) := by
  induction calls generalizing callIndex with
  | nil => exact respects_pure unnumbered_composes _
  | cons call rest ih =>
    refine respects_bind unnumbered_composes (unnumbered_dispatch call stepId) fun outcome => ?_
    exact respects_bind unnumbered_composes (ih _) fun _ => respects_pure unnumbered_composes _

theorem unnumbered_infer (messages : List ChatMessage) (tools : List ToolDecl) : Respects Unnumbered (infer messages tools) := by
  refine unnumbered_made (made_infer _ _) fun s => ?_
  rcases infer_cases messages tools s with ⟨-,asked⟩ | ⟨model,-,⟨error,-,asked⟩ | ⟨response,-,asked⟩⟩ <;> rw [asked] <;> rfl

theorem unnumbered_recordReasoningStep (input reasoning : String) (toolsConsidered : List String)
    (toolSelected : Option String) :
    Respects Unnumbered (recordReasoningStep input reasoning toolsConsidered toolSelected) := by
  refine unnumbered_made (made_recordReasoningStep _ _ _ _) fun s => ?_
  rcases recordReasoningStep_seen input reasoning toolsConsidered toolSelected s with
    ⟨-,-,seen⟩ | ⟨-,stepUuid,written,reasons,seen,-⟩
  · rw [identifiers,seen]
    rfl
  · rw [identifiers,seen,List.filterMap_cons_none (entered_plain reasons (by decide) (by decide))]
    rfl

theorem unnumbered_dispatchAnswer (prompt : String) (turn : Option Nat) (tools : List ToolDecl) (response : InferResponse) :
    Respects Unnumbered (dispatchAnswer prompt turn tools response) := by
  refine respects_bind unnumbered_composes (unnumbered_recordReasoningStep _ _ _ _) fun stepUuid s => ?_
  rw [reads_bind]
  cases version : s.ledger.schemaVersion with
  | V1 =>
    exact respects_bind unnumbered_composes (unnumbered_runCalls _ 0 response.toolCalls)
      (fun _ => respects_pure unnumbered_composes _) s
  | V2 =>
    have made := made_bind (made_runCalls stepUuid.toString (recordedTurn turn .V2) 0 response.toolCalls)
      fun outcomes => made_pure ((⟨response.assistantText,outcomes,stepUuid.toString⟩ : TurnOutcome),response.tokensUsed)
    refine ⟨(chronicles_made made s).version,fun early => ?_⟩
    rw [version] at early
    cases early

variable (prompt : String) (limits : TurnLimits) (started : Nat)

theorem unnumbered_oneTurn (turn : Nat) (progress : Progress) :
    Respects Unnumbered (oneTurn prompt limits started false turn progress) := by
  refine respects_bind unnumbered_composes (respects_pure unnumbered_composes _) fun _ => ?_
  refine respects_bind unnumbered_composes ?_ fun answered => ?_
  · refine respects_bind unnumbered_composes (respects_reads unnumbered_composes _) fun tools => ?_
    exact respects_bind unnumbered_composes (unnumbered_infer _ _) fun response => unnumbered_dispatchAnswer _ _ _ _
  · refine respects_bind unnumbered_composes (respects_reads unnumbered_composes _) fun classifier => ?_
    refine respects_bind unnumbered_composes (unnumbered_made (made_writeFlagged _ _) fun s => ?_) fun _ => ?_
    · obtain ⟨flagged,-,flags,-⟩ := writeFlagged_seen classifier.name (answered.1.toolCalls.map (judge classifier)) s
      exact flags_plain flags
    · exact respects_bind unnumbered_composes (respects_pure unnumbered_composes _) fun _ => respects_pure unnumbered_composes _

theorem capped_plain (bound : TurnCapKind) (atTurn : Nat) (tokensConsumed : UInt64) (elapsed : Nat) (s : Session) :
    identifiers (emitCapAndBuildErr bound atTurn limits tokensConsumed elapsed s :
      Outcome Session Stop Event SessionRunResult).events = [] := by
  obtain ⟨⟨violation,entered,wrote⟩,-⟩ := emitCapAndBuildErr_seen limits bound atTurn tokensConsumed elapsed s
  rw [identifiers,wrote,List.filterMap_cons_none (entered_plain entered (by decide) (by decide))]
  rfl

theorem unnumbered_turnLoop (left turn : Nat) (progress : Progress) :
    Respects Unnumbered (turnLoop prompt limits started false left turn progress) := by
  have elapsing : Respects Unnumbered (elapsedSince started) := unnumbered_made (made_elapsedSince _) fun s => rfl
  induction left generalizing turn progress with
  | zero =>
    refine respects_bind unnumbered_composes elapsing fun elapsed => ?_
    exact unnumbered_made (made_emitCapAndBuildErr limits _ _ _ elapsed) (capped_plain limits _ _ _ elapsed)
  | succ left ih =>
    refine respects_bind unnumbered_composes elapsing fun elapsed => ?_
    cases tripped limits progress.tokensConsumed elapsed with
    | some bound => exact unnumbered_made (made_emitCapAndBuildErr limits _ _ _ elapsed) (capped_plain limits _ _ _ elapsed)
    | none =>
      refine respects_bind unnumbered_composes (unnumbered_oneTurn prompt limits started _ _) fun played => ?_
      split_ifs
      · exact respects_bind unnumbered_composes elapsing fun _ => respects_pure unnumbered_composes _
      · exact ih _ _

variable {prompt limits started}

theorem plays_distinct {turn turn' : Nat} {progress progress' : Progress} {s t : Session} {events : List Event}
    (plays : Plays prompt limits started true turn progress s events turn' progress' t) (version : s.ledger.schemaVersion = .V2)
    (small : turn' ≤ 2^64) : turn ≤ turn' ∧ Distinct s.sessionId turn turn' (identifiers events) := by
  induction plays with
  | Here => exact ⟨le_rfl,distinct_nil _ _ _⟩
  | @Turn turn turn' progress grown progress' s m t left right admitted played others ih =>
    have next : s.next.ledger.schemaVersion = .V2 := version
    have first := turn_distinct (oneTurn_seen prompt limits started turn progress next).1
    rw [played.events] at first
    have stays := played.respects (stays_made (made_oneTurn prompt limits started true turn progress))
    have v2 := (played.respects (chronicles_made (made_oneTurn prompt limits started true turn progress))).version.trans next
    have same : m.sessionId = s.sessionId := by
      rw [stays]
      rfl
    obtain ⟨rising,second⟩ := ih v2 small
    rw [same] at second
    rw [identifiers_append]
    exact ⟨by omega,Distinct.append first second (Nat.le_succ turn) rising small⟩

theorem ends_distinct {turn left : Nat} {progress : Progress} {s : Session} {last : Outcome Session Stop Event SessionRunResult}
    (ends : LoopEnds prompt limits started true turn progress s left last) (version : s.ledger.schemaVersion = .V2) :
    Distinct s.sessionId turn (turn+1) (identifiers last.events) := by
  have next : s.next.ledger.schemaVersion = .V2 := version
  cases ends with
  | Exhausted =>
    rw [capped_plain]
    exact distinct_nil _ _ _
  | Tripped bound refused =>
    rw [capped_plain]
    exact distinct_nil _ _ _
  | Broken admitted stops =>
    have seen := turn_distinct (oneTurn_seen prompt limits started turn progress next).1
    rw [stops.events] at seen
    exact seen
  | Done admitted played =>
    have seen := turn_distinct (oneTurn_seen prompt limits started turn progress next).1
    rw [played.events] at seen
    exact seen

/-- One run gives no identifier twice. -/
theorem run_nodup (prompt : String) (limits : TurnLimits) (s : Session) : (identifiers (run prompt limits s).events).Nodup := by
  rw [run_loops]
  cases version : s.ledger.schemaVersion with
  | V1 =>
    rw [decide_eq_false (by decide),(unnumbered_turnLoop prompt limits _ _ _ _ s.next).2 version]
    exact List.nodup_nil
  | V2 =>
    rw [decide_eq_true rfl]
    obtain ⟨spent,turn',progress',m,before,last,within,rfl,plays,ends,whole⟩ := turnLoop_cases prompt limits
      (World.instant s.tick) true limits.maxTurns.toNat 1 ⟨[⟨.User,prompt⟩],[],0⟩ s.next
    have few := limits.maxTurns.toNat_lt
    obtain ⟨rising,first⟩ := plays_distinct plays version (by omega)
    obtain ⟨kept,same⟩ := plays.kept
    have second := ends_distinct ends (same.trans version)
    rw [show m.sessionId = s.next.sessionId by rw [kept]] at second
    rw [whole,identifiers_append]
    exact (first.append second rising (Nat.le_succ _) (by omega)).nodup

/-! ### When a run gives identifiers -/

/-- The run comes to its first turn, and the CA issues a certificate for it. -/
def Begins (limits : TurnLimits) (s : Session) : Prop :=
  s.ledger.schemaVersion = .V2 ∧ limits.maxTurns.toNat ≠ 0 ∧
  tripped limits 0 (World.instant s.next.tick-World.instant s.tick) = none ∧
  Issuable (turnAudience s.sessionId 1) (remainingOf limits (World.instant s.tick) s.next.next) s.next.next.next

/-- The first thing of a turn is its certificate. -/
theorem oneTurn_first (prompt : String) (limits : TurnLimits) (started turn : Nat) (progress : Progress) (s : Session) :
    (Issuable (turnAudience s.sessionId turn) (remainingOf limits started s) s.next ∧
      .Binding (turnAudience s.sessionId turn) ∈ identifiers (oneTurn prompt limits started true turn progress s).events) ∨
    ¬ Issuable (turnAudience s.sessionId turn) (remainingOf limits started s) s.next ∧
      (∃ stop,(oneTurn prompt limits started true turn progress s).result = .error stop) ∧
      identifiers (oneTurn prompt limits started true turn progress s).events = [] := by
  rw [oneTurn,whenV2,if_pos rfl]
  rcases openTurn_seen limits started turn progress.messages s with
    ⟨⟨stop,stopped⟩,⟨unissuable,seen⟩ | ⟨issuable,live,svid,seen⟩,-⟩ | ⟨issuable,issued,opening,opens,seen⟩
  · rw [bind_error stopped,identifiers,seen]
    exact .inr ⟨unissuable,⟨stop,rfl⟩,rfl⟩
  · rw [bind_error stopped,identifiers,seen]
    exact .inl ⟨issuable,List.mem_singleton.mpr rfl⟩
  · obtain ⟨live,svid,rfl⟩ := opens.issues
    obtain ⟨rest,whole⟩ := bind_events (openTurn limits started turn progress.messages) (fun _ => do
      let answered ← runOneTurn progress.messages prompt (some turn)
      concludeTurn started true turn progress answered.1 answered.2) s
    rw [whole,identifiers_append,identifiers,seen]
    exact .inl ⟨issuable,List.mem_append_left _ List.mem_cons_self⟩

theorem run_begins (prompt : String) (limits : TurnLimits) (s : Session) :
    (Begins limits s ∧ .Binding (turnAudience s.sessionId 1) ∈ identifiers (run prompt limits s).events) ∨
    ¬ Begins limits s ∧ identifiers (run prompt limits s).events = [] := by
  rw [run_loops]
  cases version : s.ledger.schemaVersion with
  | V1 =>
    rw [decide_eq_false (by decide)]
    refine .inr ⟨?_,(unnumbered_turnLoop prompt limits _ _ _ _ s.next).2 version⟩
    rintro ⟨v2,-⟩
    rw [version] at v2
    cases v2
  | V2 =>
    rw [decide_eq_true rfl]
    cases left : limits.maxTurns.toNat with
    | zero =>
      rw [turnLoop,elapsedSince_bind,capped_plain]
      exact .inr ⟨fun begins => begins.2.1 left,rfl⟩
    | succ left' =>
      rw [turnLoop,elapsedSince_bind]
      cases checked : tripped limits 0 (World.instant s.next.tick-World.instant s.tick) with
      | some bound =>
        dsimp only
        rw [capped_plain]
        refine .inr ⟨fun begins => ?_,rfl⟩
        rw [begins.2.2.1] at checked
        cases checked
      | none =>
        dsimp only
        rcases oneTurn_first prompt limits (World.instant s.tick) 1 ⟨[⟨.User,prompt⟩],[],0⟩ s.next.next with
          ⟨issuable,member⟩ | ⟨unissuable,⟨stop,stopped⟩,nothing⟩
        · left
          refine ⟨⟨version,by omega,checked,issuable⟩,?_⟩
          obtain ⟨rest,whole⟩ := bind_events (oneTurn prompt limits (World.instant s.tick) true 1 ⟨[⟨.User,prompt⟩],[],0⟩)
            (fun played => if played.2 then (do
              let wallclock ← elapsedSince (World.instant s.tick)
              return (⟨played.1.turns,.Done,played.1.tokensConsumed,wallclock⟩ : SessionRunResult))
              else turnLoop prompt limits (World.instant s.tick) true left' (1+1) played.1) s.next.next
          rw [whole,identifiers_append]
          exact List.mem_append_left _ member
        · rw [bind_error stopped]
          exact .inr ⟨fun begins => unissuable begins.2.2.2,nothing⟩

/-! ### Several runs of a session -/

/-- One run after another; the caller goes on after an error. -/
def runs : List (String × TurnLimits) → Run Unit
  | [] => pure ()
  | (prompt,limits) :: rest => do
    let _ ← attempt caught (run prompt limits)
    runs rest

/-- The bounds of each run and the session as it is when the run starts. -/
def starts : List (String × TurnLimits) → Session → List (TurnLimits × Session)
  | [],_ => []
  | (prompt,limits) :: rest,s =>
    (limits,s) :: match (attempt caught (run prompt limits) s).result with
      | .ok _ => starts rest (run prompt limits s).state
      | .error _ => []

/-- The run is issued an identity for its first turn. -/
def Begun (start : TurnLimits × Session) : Prop := Begins start.1 start.2

theorem runs_cons (prompt : String) (limits : TurnLimits) (rest : List (String × TurnLimits)) (s : Session) :
    identifiers (runs ((prompt,limits) :: rest) s).events = identifiers (run prompt limits s).events ++
      match (attempt caught (run prompt limits) s).result with
      | .ok _ => identifiers (runs rest (run prompt limits s).state).events
      | .error _ => [] := by
  obtain ⟨events,state⟩ := attempt_same caught (run prompt limits) s
  rw [runs]
  cases ended : (attempt caught (run prompt limits) s).result with
  | error stop => rw [bind_error ended,events,List.append_nil]
  | ok _ => rw [bind_ok ended,identifiers_append,events,state]

theorem run_sessionId (prompt : String) (limits : TurnLimits) (s : Session) :
    (run prompt limits s).state.sessionId = s.sessionId := by
  rw [stays_made (made_run prompt limits) s]

/-- The first turn of a run that begins names itself as that of any other. -/
theorem runs_begun (calls : List (String × TurnLimits)) (s : Session) :
    ((∃ start ∈ starts calls s,Begun start) ∧ .Binding (turnAudience s.sessionId 1) ∈ identifiers (runs calls s).events) ∨
    (¬ ∃ start ∈ starts calls s,Begun start) ∧ identifiers (runs calls s).events = [] := by
  induction calls generalizing s with
  | nil => exact .inr ⟨by simp [starts],rfl⟩
  | cons call rest ih =>
    obtain ⟨prompt,limits⟩ := call
    rw [runs_cons,starts]
    rcases run_begins prompt limits s with ⟨begins,member⟩ | ⟨idle,nothing⟩
    · exact .inl ⟨⟨_,List.mem_cons_self,begins⟩,List.mem_append_left _ member⟩
    rw [nothing,List.nil_append]
    cases (attempt caught (run prompt limits) s).result with
    | error stop =>
      right
      refine ⟨?_,rfl⟩
      rintro ⟨start,member,begun⟩
      cases List.mem_singleton.mp member
      exact idle begun
    | ok _ =>
      have later := ih (run prompt limits s).state
      rw [run_sessionId] at later
      rcases later with ⟨⟨start,among,begun⟩,member⟩ | ⟨idle',nothing'⟩
      · exact .inl ⟨⟨start,List.mem_cons_of_mem _ among,begun⟩,member⟩
      · right
        refine ⟨?_,nothing'⟩
        rintro ⟨start,member,begun⟩
        rcases List.mem_cons.mp member with rfl | member
        · exact idle begun
        · exact idle' ⟨start,member,begun⟩

/-- In a session no turn number, no tool-call id and no turn binding is given twice, exactly
    if at most one of its runs comes to a first turn that the CA certifies. -/
theorem identifiers_unique (calls : List (String × TurnLimits)) (s : Session) : (identifiers (runs calls s).events).Nodup ↔
    (starts calls s).Pairwise (fun first later => ¬ (Begun first ∧ Begun later)) := by
  induction calls generalizing s with
  | nil => exact iff_of_true List.nodup_nil List.Pairwise.nil
  | cons call rest ih =>
    obtain ⟨prompt,limits⟩ := call
    have alone := run_nodup prompt limits s
    rw [runs_cons,starts,List.pairwise_cons,List.nodup_append]
    cases (attempt caught (run prompt limits) s).result with
    | error stop => exact iff_of_true ⟨alone,List.nodup_nil,by simp⟩ ⟨by simp,List.Pairwise.nil⟩
    | ok _ =>
      dsimp only
      rw [ih]
      have later := runs_begun rest (run prompt limits s).state
      rw [run_sessionId] at later
      constructor
      · rintro ⟨-,pairwise,apart⟩
        refine ⟨?_,pairwise⟩
        rintro start among ⟨begins,begun⟩
        rcases run_begins prompt limits s with ⟨-,member⟩ | ⟨idle,-⟩
        · rcases later with ⟨-,member'⟩ | ⟨idle,-⟩
          · exact apart _ member _ member' rfl
          · exact idle ⟨start,among,begun⟩
        · exact idle begins
      · rintro ⟨apart,pairwise⟩
        refine ⟨alone,pairwise,?_⟩
        rcases run_begins prompt limits s with ⟨begins,-⟩ | ⟨-,nothing⟩
        · rcases later with ⟨⟨start,among,begun⟩,-⟩ | ⟨-,nothing⟩
          · exact absurd ⟨begins,begun⟩ (apart start among)
          · simp [nothing]
        · simp [nothing]

end

section
open Faultless Reference ReferenceTurn FaultlessTurn

theorem standing_begins [w : World] {s : Session} {files : String → List UInt8} (standing : Standing s)
    (holds : ∀ tick path,w.fileBytes tick path = .ok (files path)) (still : ∀ tick,w.instant tick = 0) :
    Begins defaultLimits s := by
  have certified := Standing.certified (s := s.next.next.next) ⟨standing.version,standing.sessionId,standing.names⟩ files
    (soon_turnTtl (Nat.sub_le 300 (asSecs (World.instant s.next.next.tick-World.instant s.tick))))
  refine ⟨standing.version,by decide,?_,certified.issuable fun tick _ path => holds tick path⟩
  rw [still,still]
  decide

/-- The session runs the same prompt twice, and both runs end well. -/
theorem second_run_repeats :
    let _ := calmWorld reading
    ∃ booted first second m t left right,boot config = .ok booted ∧
      Runs (run "hello" defaultLimits) (setLoadedModel booted doneModel) first m left ∧
      Runs (run "hello" defaultLimits) m second t right ∧
      ¬ (identifiers (runs [("hello",defaultLimits),("hello",defaultLimits)] (setLoadedModel booted doneModel)).events).Nodup := by
  intro world
  obtain ⟨booted,boots,fresh,ready⟩ := calm_boots reading rfl rfl
  have fresh' := fresh_standing fresh
  have standing : Standing (setLoadedModel booted doneModel) := ⟨fresh'.version,fresh'.sessionId,fresh'.names⟩
  have room : Ready (setLoadedModel booted doneModel) (94+3+3) := ⟨ready.healthy,ready.own,ready.few⟩
  obtain ⟨first,m,left,runs₁,ready₁,standing₁,loaded,-⟩ := hello_runs standing room (fun _ _ => rfl) (fun _ => rfl) rfl
  obtain ⟨second,t,right,runs₂,-⟩ := hello_runs standing₁ ready₁ (fun _ _ => rfl) (fun _ => rfl) loaded
  refine ⟨booted,first,second,m,t,left,right,boots,runs₁,runs₂,fun nodup => ?_⟩
  obtain ⟨-,member₁⟩ := (run_begins "hello" defaultLimits (setLoadedModel booted doneModel)).resolve_right fun idle =>
    idle.1 (standing_begins standing (fun _ _ => rfl) (fun _ => rfl))
  obtain ⟨-,member₂⟩ := (run_begins "hello" defaultLimits m).resolve_right fun idle =>
    idle.1 (standing_begins standing₁ (fun _ _ => rfl) (fun _ => rfl))
  have ended : (attempt caught (run "hello" defaultLimits) (setLoadedModel booted doneModel)).result = .ok (.ok first) :=
    (runs_attempt_ok.mpr runs₁).result
  have same := run_sessionId "hello" defaultLimits (setLoadedModel booted doneModel)
  rw [runs₁.state] at same
  rw [same] at member₂
  rw [runs_cons,ended] at nodup
  dsimp only at nodup
  rw [runs₁.state,runs_cons,List.nodup_append] at nodup
  exact nodup.2.2 _ member₁ _ (List.mem_append_left _ member₂) rfl

end

end AegisNode.Identifiers
