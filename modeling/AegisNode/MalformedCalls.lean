import AegisNode.PreValidation
import AegisNode.Refusals
import AegisNode.Routing
import AegisNode.TurnTrace

/-!
Calls of the model whose arguments a pre-validation clause cannot read. The error of the
clause is not among those that a dispatch tells the model, so it ends the run.
-/
namespace AegisNode.MalformedCalls
open Clock Json Schema Policy Traced Engine Mediator Frames Entries Mediation PreValidation Refusals Turn TurnLoop TurnTrace
open Routing
open Backend hiding ToolCall
open Ledger hiding Error bind_ok
set_option linter.unusedSectionVars false

/-! ### What keeps arguments from passing -/

inductive Hindrance where
  | Denied (resourceUri reason : String)
  | Unapproved (reason : String)
  | Stopped (stop : Stop)

section
variable [Chrono] [World] (serverName toolName : String)

/-- The first value that is not allowed, and the session when it is found. -/
def valuesHinder (clause : PreValidateClause) : List String → Session → Option Hindrance × Session
  | [],s => (none,s)
  | value :: rest,s =>
    let decided := clauseDecision serverName toolName clause value s
    match decided.result with
    | .error stop => (some (.Stopped stop),decided.state)
    | .ok .Allow => valuesHinder clause rest decided.state
    | .ok (.Deny reason) => (some (.Denied (preValidateUri serverName toolName clause value) reason),decided.state)
    | .ok (.RequireApproval reason) => (some (.Unapproved reason),decided.state)

def clausesHinder (args : Value) : List PreValidateClause → Session → Option Hindrance × Session
  | [],s => (none,s)
  | clause :: rest,s =>
    match extractClauseValues args serverName toolName clause with
    | .error error => (some (.Stopped (.Err error)),s)
    | .ok values =>
      match valuesHinder serverName toolName clause values s with
      | (none,t) => clausesHinder args rest t
      | hindered => hindered

variable [Serde] [Sha256]

/-- What follows a hindrance. -/
def heed : Hindrance → Run Unit
  | .Denied resourceUri reason => do
    emitDeny resourceUri "mcp_pre_validate" reason
    deny (.Denied reason)
  | .Unapproved reason => deny (.RequireApproval reason)
  | .Stopped stop => fail stop

theorem heed_ends (hindrance : Hindrance) (s : Session) : ∃ e t events,Stops (heed hindrance) s e t events := by
  cases hindrance with
  | Denied resourceUri reason =>
    rcases runs_or_stops (emitDeny resourceUri "mcp_pre_validate" reason) s with ⟨u,runs⟩ | ⟨e,stops⟩
    · exact ⟨_,_,_,stops_bind.mpr (.inr ⟨u,_,_,[],runs,stops_deny.mpr ⟨rfl,rfl,rfl⟩,rfl⟩)⟩
    · exact ⟨e,_,_,stops_bind.mpr (.inl stops)⟩
  | Unapproved reason => exact ⟨_,_,_,stops_deny.mpr ⟨rfl,rfl,rfl⟩⟩
  | Stopped stop => exact ⟨_,_,_,stops_fail.mpr ⟨rfl,rfl,rfl⟩⟩

/-- Nothing comes after a hindrance. -/
theorem heed_bind {α : Type} (hindrance : Hindrance) (f : Unit → Run α) {s t : Session} {e : Stop} {events : List Event} :
    Stops (heed hindrance >>= f) s e t events ↔ Stops (heed hindrance) s e t events := by
  obtain ⟨e',t',events',ends⟩ := heed_ends hindrance s
  have first : Stops (heed hindrance >>= f) s e' t' events' := stops_bind.mpr (.inl ends)
  rw [Stops] at first ends ⊢
  rw [Stops,first,ends]
  simp

/-- Without a hindrance the check is over, else the hindrance is heeded; nothing is written
    before. -/
def Heeds (p : Run Unit) (s : Session) (found : Option Hindrance × Session) : Prop :=
  ∃ before,(∀ e ∈ before,Unwritten e) ∧ match found.1 with
    | none => Runs p s () found.2 before
    | some hindrance => Continues p s (heed hindrance) found.2 before

theorem heeds_passed {p : Run Unit} {s t : Session} {before : List Event} (silent : ∀ e ∈ before,Unwritten e)
    (runs : Runs p s () t before) : Heeds p s (none,t) := ⟨before,silent,runs⟩

theorem heeds_stopped {p : Run Unit} {s t : Session} {stop : Stop} {before : List Event} (silent : ∀ e ∈ before,Unwritten e)
    (stops : Stops p s stop t before) : Heeds p s (some (.Stopped stop),t) := by
  refine ⟨before,silent,?_⟩
  rw [Stops] at stops
  exact stops.trans (by rw [heed,fail,List.append_nil])

theorem heeds_later {p q : Run Unit} {s m : Session} {left : List Event} {found : Option Hindrance × Session}
    (silent : ∀ e ∈ left,Unwritten e) (first : Continues p s q m left) (heeds : Heeds q m found) : Heeds p s found := by
  obtain ⟨before,later,heeds⟩ := heeds
  refine ⟨left ++ before,List.forall_mem_append.mpr ⟨silent,later⟩,?_⟩
  obtain ⟨hindrance,t⟩ := found
  cases hindrance with
  | none => exact first.runs heeds
  | some hindrance => exact first.trans heeds

theorem heeds_bind {p : Run Unit} {s m : Session} {hindrance : Hindrance} (heeds : Heeds p s (some hindrance,m)) (f : Unit → Run Unit) :
    Heeds (p >>= f) s (some hindrance,m) := by
  obtain ⟨before,silent,continues⟩ := heeds
  obtain ⟨e,t,events,ends⟩ := heed_ends hindrance m
  refine ⟨before,silent,?_⟩
  have whole : Stops (p >>= f) s e t (before ++ events) := stops_bind.mpr (.inl (Continues.stops continues ends))
  rw [Stops] at whole ends
  change (p >>= f) s = ⟨(heed hindrance m).result,(heed hindrance m).state,before ++ (heed hindrance m).events⟩
  rw [whole,ends]

/-- The loop over the values heeds the first hindrance among them. -/
theorem values_heeded (clause : PreValidateClause) (values : List String) (s : Session) :
    Heeds (preValidateValues serverName toolName clause values) s (valuesHinder serverName toolName clause values s) := by
  induction values generalizing s with
  | nil => exact heeds_passed (by simp) (runs_pure.mpr ⟨rfl,rfl,rfl⟩)
  | cons value rest ih =>
    have silent := unwritten_clauseDecision serverName toolName clause value s
    rw [preValidateValues,valuesHinder]
    cases decided : (clauseDecision serverName toolName clause value s).result with
    | error stop =>
      exact heeds_bind (heeds_stopped silent (stops_bind.mpr (.inl (stops_of_result decided)))) _
    | ok decision =>
      have decides : Continues (preValidateValue serverName toolName clause value) s _ _ _ := (runs_of_result decided).continues
      cases decision with
      | Allow => exact heeds_later silent ((runs_of_result decided).continues.bind) (ih _)
      | Deny reason => exact heeds_bind ⟨_,silent,decides⟩ _
      | RequireApproval reason => exact heeds_bind ⟨_,silent,decides⟩ _

theorem clauses_heeded (args : Value) (clauses : List PreValidateClause) (s : Session) :
    Heeds (runMcpPreValidate serverName toolName args clauses) s (clausesHinder serverName toolName args clauses s) := by
  induction clauses generalizing s with
  | nil => exact heeds_passed (by simp) (runs_pure.mpr ⟨rfl,rfl,rfl⟩)
  | cons clause rest ih =>
    rw [runMcpPreValidate,clausesHinder]
    cases extracted : extractClauseValues args serverName toolName clause with
    | error error => exact heeds_stopped (by simp) orFail_error_bind
    | ok values =>
      have heeded := values_heeded serverName toolName clause values s
      dsimp only
      rcases hinders : valuesHinder serverName toolName clause values s with ⟨none | hindrance,m⟩
      · rw [hinders] at heeded
        obtain ⟨before,silent,runs⟩ := heeded
        exact heeds_later silent (orFail_ok_bind.trans runs.continues) (ih m)
      · rw [hinders] at heeded
        obtain ⟨before,silent,continues⟩ := heeds_bind heeded fun _ => runMcpPreValidate serverName toolName args rest
        exact ⟨before,silent,orFail_ok_bind.trans continues⟩

/-! ### Faults of the session -/

/-- What ends a call for a reason of the session's own: its files, its identity or its
    ledger. -/
inductive Fault : Stop → Prop where
  | Files (error : IoError) : Fault (.Err (.Io error))
  | Bound (error : PolicyError) : Fault (.Err (.Policy error))
  | Full : Fault (.Panic .SequenceOverflow)

theorem append_panics {w : LedgerWriter} {entry : Entry} {panic : Panic} {w' : LedgerWriter}
    (failed : Ledger.append w entry = (.error panic,w')) : panic = .SequenceOverflow := by
  unfold Ledger.append at failed
  split at failed
  · cases failed
  split at failed
  · cases failed
  dsimp only at failed
  split at failed
  · cases failed
  split at failed
  · cases failed
    rfl
  · cases failed

theorem fault_append {w w' : LedgerWriter} {entry : Entry} {result : Checked (Except Ledger.Error EntryRecord)} {e : Stop}
    (appended : Ledger.append w entry = (result,w')) (stopped : appendStop (fun e => .Policy (.Ledger e)) result = some e) : Fault e := by
  match result with
  | .error panic =>
    cases stopped
    cases append_panics appended
    exact .Full
  | .ok (.error error) =>
    cases stopped
    exact .Bound _

/-- A program whose only failures are faults of the session. -/
def Faulty {α : Type} (p : Run α) : Prop := ∀ {s t : Session} {e : Stop} {events : List Event},Stops p s e t events → Fault e

theorem faulty_bind {α β : Type} {p : Run α} {f : α → Run β} (first : Faulty p) (later : ∀ a,Faulty (f a)) : Faulty (p >>= f) := by
  intro s t e events stops
  rcases stops_bind.mp stops with stops | ⟨a,m,left,right,-,stops,-⟩
  · exact first stops
  · exact later a stops

theorem faulty_pure {α : Type} (a : α) : Faulty (pure a : Run α) := fun stops => (stops_pure stops).elim

theorem faulty_ask {α : Type} (answer : Nat → α) (event : α → List Event) : Faulty (ask answer event) := by
  intro s t e events stops
  cases stops

theorem faulty_reads {α : Type} (f : Session → α) : Faulty (reads f) := by
  intro s t e events stops
  cases stops

theorem faulty_orFail {ε α : Type} {wrap : ε → Error} (faults : ∀ error,Fault (.Err (wrap error))) (result : Except ε α) :
    Faulty (orFail wrap result) := by
  intro s t e events stops
  cases result with
  | ok a => cases stops
  | error error =>
    cases stops
    exact faults error

theorem faulty_emitViolation (reason : String) (resourceUri accessType : Option String) (timestamp : Int) :
    Faulty (emitViolation reason resourceUri accessType timestamp) := by
  intro s t e events stops
  obtain ⟨result,ledger,appended,stopped,-,-⟩ := stops_emit.mp stops
  exact fault_append appended stopped

theorem faulty_sha256File (path : String) : Faulty (sha256File path) :=
  faulty_bind (faulty_ask _ _) fun bytes => faulty_bind (faulty_orFail .Files bytes) fun _ => faulty_pure _

theorem faulty_computeLiveDigests : Faulty computeLiveDigests := by
  refine faulty_bind (faulty_reads _) fun modelPath => ?_
  refine faulty_bind (faulty_sha256File modelPath) fun model => ?_
  refine faulty_bind (faulty_reads _) fun manifestPath => ?_
  refine faulty_bind (faulty_sha256File manifestPath) fun manifest => ?_
  refine faulty_bind (faulty_reads _) fun configPath => ?_
  refine faulty_bind ?_ fun _ => faulty_pure _
  cases configPath with
  | none => exact faulty_pure _
  | some path => exact faulty_sha256File path

theorem faulty_rebind [Identity] : Faulty rebind := by
  refine faulty_bind faulty_computeLiveDigests fun live => ?_
  refine faulty_bind (faulty_reads _) fun certPem => ?_
  refine faulty_bind (faulty_ask _ _) fun now => ?_
  refine faulty_bind (faulty_orFail (fun _ => .Bound _) _) fun found => ?_
  cases found with
  | none => exact faulty_pure _
  | some mismatch =>
    refine faulty_bind (faulty_emitViolation _ _ _ _) fun _ => ?_
    intro s t e events stops
    cases stops
    exact .Bound _

theorem faulty_emitDeny (resourceUri accessKind reason : String) : Faulty (emitDeny resourceUri accessKind reason) :=
  faulty_bind (faulty_ask _ _) fun now => faulty_emitViolation _ _ _ now

end

/-! ### Errors of arguments -/

/-- The error of a clause that cannot read its argument. -/
def isMalformed : Error → Bool
  | .McpPreValidateMalformedArg _ _ _ _ => true
  | _ => false

theorem arrayStrings_malformed {fault : String → Error} (malformed : ∀ reason,isMalformed (fault reason) = true) {i : Nat}
    {items : List Value} {error : Error} (failed : arrayStrings fault i items = .error error) : isMalformed error = true := by
  induction items generalizing i with
  | nil => cases failed
  | cons item rest ih =>
    rw [arrayStrings] at failed
    split at failed
    · cases failed
      exact malformed _
    · cases later : arrayStrings fault (i+1) rest with
      | error other =>
        rw [later] at failed
        cases failed
        exact ih later
      | ok items =>
        rw [later] at failed
        cases failed

theorem extract_malformed {args : Value} {serverName toolName : String} {clause : PreValidateClause} {error : Error}
    (failed : extractClauseValues args serverName toolName clause = .error error) : isMalformed error = true := by
  unfold extractClauseValues at failed
  dsimp only at failed
  split at failed
  · split at failed
    · cases failed
      rfl
    · split at failed
      · cases failed
        rfl
      · cases failed
  · split at failed
    · cases failed
      rfl
    · split at failed
      · cases failed
        rfl
      · exact arrayStrings_malformed (fun _ => rfl) failed
  · cases failed
    rfl
  · cases failed
    rfl

theorem parse_malformed {raw serverName toolName argName : String} {error : Error}
    (failed : parsePreValidateUrl raw serverName toolName argName = .error error) : isMalformed error = true := by
  unfold parsePreValidateUrl at failed
  dsimp only at failed
  split at failed
  · cases failed
    rfl
  · split_ifs at failed
    · cases failed
      rfl
    · split at failed
      · split at failed
        · cases failed
          rfl
        · split_ifs at failed
          cases failed
          rfl
      · split at failed
        · cases failed
          rfl
        · cases failed

/-! ### Panics of durations -/

theorem units_panics {count unit : Int} {panic : Panic} (failed : units count unit = .error panic) : panic = .TimeDeltaOutOfBounds := by
  unfold units at failed
  split at failed
  · cases failed
  · cases failed
    rfl

theorem timeLoop_panics {pieces : List (List Char × Char)} {tail : List Char} {total : Int} {panic : Panic}
    (failed : timeLoop total pieces tail = .error panic) : panic = .TimeDeltaOutOfBounds := by
  induction pieces generalizing total with
  | nil => cases failed
  | cons piece more ih =>
    rw [timeLoop] at failed
    split at failed
    · cases failed
    · split_ifs at failed
      split at failed
      · rename_i spent
        cases failed
        exact units_panics spent
      · split at failed
        · cases failed
        · exact ih failed

theorem parseIso8601Duration_panics {s : String} {panic : Panic} (failed : parseIso8601Duration s = .error panic) :
    panic = .TimeDeltaOutOfBounds := by
  unfold parseIso8601Duration at failed
  split at failed
  · cases failed
  · split_ifs at failed
    · exact timeLoop_panics failed
    · split at failed
      · cases failed
      · split_ifs at failed
        split at failed
        · rename_i spent
          cases failed
          exact units_panics spent
        · split at failed
          · cases failed
          · exact timeLoop_panics failed

section
variable [Chrono]

theorem grantTimeValid_panics {grant : WriteGrant} {now sessionStart : Int} {panic : Panic}
    (failed : grantTimeValid grant now sessionStart = .error panic) : panic = .TimeDeltaOutOfBounds := by
  unfold grantTimeValid at failed
  split_ifs at failed
  unfold withinDuration at failed
  split at failed
  · cases failed
  · split at failed
    · rename_i parsed
      cases failed
      exact parseIso8601Duration_panics parsed
    · cases failed
    · cases failed

theorem findValid_panics {now sessionStart : Int} {grants : List WriteGrant} {panic : Panic}
    (failed : findValid now sessionStart grants = .error panic) : panic = .TimeDeltaOutOfBounds := by
  induction grants with
  | nil => cases failed
  | cons grant rest ih =>
    rw [findValid] at failed
    split at failed
    · rename_i checked
      cases failed
      exact grantTimeValid_panics checked
    · cases failed
    · exact ih failed

theorem classifyWriteGrant_panics {m : Manifest} {path : String} {want : WriteAction} {now sessionStart : Int} {panic : Panic}
    (failed : classifyWriteGrant m path want now sessionStart = .error panic) : panic = .TimeDeltaOutOfBounds := by
  unfold classifyWriteGrant at failed
  dsimp only at failed
  split_ifs at failed
  split at failed
  · rename_i found
    cases failed
    exact findValid_panics found
  · cases failed
  · cases failed

theorem checkFilesystemWrite_panics {m : Manifest} {path : String} {now sessionStart : Int} {panic : Panic}
    (failed : checkFilesystemWrite m path now sessionStart = .error panic) : panic = .TimeDeltaOutOfBounds := by
  unfold checkFilesystemWrite at failed
  split at failed
  · rename_i classified
    cases failed
    exact classifyWriteGrant_panics classified
  · cases failed
  · cases failed
  · split_ifs at failed

theorem checkFilesystemDelete_panics {m : Manifest} {path : String} {now sessionStart : Int} {panic : Panic}
    (failed : checkFilesystemDelete m path now sessionStart = .error panic) : panic = .TimeDeltaOutOfBounds := by
  unfold checkFilesystemDelete at failed
  split at failed
  · rename_i classified
    cases failed
    exact classifyWriteGrant_panics classified
  · cases failed
  · cases failed
  · cases failed

end

/-! ### How a hindrance stops a call -/

/-- Neither a denial nor a fault of the session. -/
def Breaks : Stop → Prop
  | .Err error => isMalformed error = true
  | .Panic panic => panic = .TimeDeltaOutOfBounds

section
variable [Chrono] [World] {serverName toolName : String}

theorem orPanic_breaks {checked : Checked Decision} (panics : ∀ panic,checked = .error panic → panic = .TimeDeltaOutOfBounds)
    {s t : Session} {e : Stop} {events : List Event} (stops : Stops (orPanic checked) s e t events) : Breaks e := by
  cases checked with
  | ok decision => cases stops
  | error panic =>
    cases stops
    exact panics panic rfl

theorem clauseDecision_breaks {clause : PreValidateClause} {value : String} {s t : Session} {e : Stop} {events : List Event}
    (stops : Stops (clauseDecision serverName toolName clause value) s e t events) : Breaks e := by
  unfold clauseDecision at stops
  split at stops
  · cases stops
  · rw [writeDecisionNow,utcNow,stops_ask_bind] at stops
    obtain ⟨rest,stops,-⟩ := stops
    rw [stops_reads_bind] at stops
    exact orPanic_breaks (fun _ => checkFilesystemWrite_panics) stops
  · rw [deleteDecisionNow,utcNow,stops_ask_bind] at stops
    obtain ⟨rest,stops,-⟩ := stops
    rw [stops_reads_bind] at stops
    exact orPanic_breaks (fun _ => checkFilesystemDelete_panics) stops
  · rcases stops_orFail_bind.mp stops with ⟨error,failed,rfl,-,-⟩ | ⟨target,-,stops⟩
    · exact parse_malformed failed
    · cases stops

theorem values_breaks {clause : PreValidateClause} {values : List String} {s t : Session} {stop : Stop}
    (hinders : valuesHinder serverName toolName clause values s = (some (.Stopped stop),t)) : Breaks stop := by
  induction values generalizing s with
  | nil => cases hinders
  | cons value rest ih =>
    rw [valuesHinder] at hinders
    split at hinders
    · rename_i failed
      cases hinders
      exact clauseDecision_breaks (stops_of_result failed)
    · exact ih hinders
    · cases hinders
    · cases hinders

theorem clauses_breaks {args : Value} {clauses : List PreValidateClause} {s t : Session} {stop : Stop}
    (hinders : clausesHinder serverName toolName args clauses s = (some (.Stopped stop),t)) : Breaks stop := by
  induction clauses generalizing s with
  | nil => cases hinders
  | cons clause rest ih =>
    rw [clausesHinder] at hinders
    split at hinders
    · rename_i failed
      cases hinders
      exact extract_malformed failed
    · split at hinders
      · exact ih hinders
      · exact values_breaks hinders

end

/-! ### Malformed calls -/

/-- The clause cannot read its values from the arguments. -/
def Unreadable (args : Value) (serverName toolName : String) (clause : PreValidateClause) : Prop :=
  (∃ error,extractClauseValues args serverName toolName clause = .error error) ∨
    clause.kind = .NetworkOutbound ∧ ∃ values,extractClauseValues args serverName toolName clause = .ok values ∧
      ∃ value ∈ values,∃ error,parsePreValidateUrl value serverName toolName (clauseArgName clause) = .error error

/-- A call of the model with arguments that a clause of its tool cannot read. -/
def Malformed (policy : Manifest) (call : Backend.ToolCall) : Prop :=
  ∃ serverName toolName,routeOf call.name = some (.Mcp serverName toolName) ∧
    ∃ clause ∈ firstDeclared policy serverName toolName,Unreadable call.arguments serverName toolName clause

def RecordsDenial (reason : String) (events : List Event) : Prop :=
  ∃ entry record,.Append entry (.ok (.ok record)) ∈ events ∧ entry.entryType = .Violation ∧
    Map.get entry.payload.fields "violationReason" = some (.String reason)

section
variable [Chrono] [Serde] [Sha256] [Identity] [World]

/-- The call is denied with an entry, or the session itself is at fault. -/
def Handled (call : Backend.ToolCall) (reasoningStepId : Option String) (s : Session) : Prop :=
  (∃ reason t events,Runs (dispatchToolCall call reasoningStepId) s (answeredWith call (.Denied reason)) t events ∧
    RecordsDenial reason events) ∨
  ∃ e t events,Stops (dispatchToolCall call reasoningStepId) s e t events ∧ Fault e

/-- The identity is not bound any more, or what keeps the arguments from passing is a
    denied value that comes before. -/
def Precluded (call : Backend.ToolCall) (s : Session) : Prop :=
  ∀ serverName toolName,routeOf call.name = some (.Mcp serverName toolName) → ∀ t events,Runs rebind s () t events →
    ∃ resourceUri reason,(clausesHinder serverName toolName call.arguments (firstDeclared t.policy serverName toolName) t).1 =
      some (.Denied resourceUri reason)

theorem unreadable_fails {s : Session} {events : List Event} {args : Value} {serverName toolName : String}
    {clause : PreValidateClause} (unreadable : Unreadable args serverName toolName clause) :
    ¬ ClausePassed s events serverName toolName args clause := by
  rintro ⟨values,extracted,allowed⟩
  rcases unreadable with ⟨error,failed⟩ | ⟨kind,others,read,value,listed,error,failed⟩
  · rw [failed] at extracted
    cases extracted
  · rw [read] at extracted
    cases extracted
    have passes := allowed value listed
    rw [ValueAllowed,kind] at passes
    obtain ⟨host,port,parsed,-⟩ := passes
    rw [failed] at parsed
    cases parsed

theorem firstDeclared_granted {policy : Manifest} {serverName toolName : String} {clause : PreValidateClause}
    (listed : clause ∈ firstDeclared policy serverName toolName) :
    ∃ grant,serverGrant policy serverName = some grant ∧ firstDeclared policy serverName toolName = declaredClauses grant toolName ∧
      checkMcpTool policy serverName toolName = .Allow := by
  rw [firstDeclared] at listed ⊢
  cases granted : serverGrant policy serverName with
  | none =>
    rw [granted] at listed
    cases listed
  | some grant =>
    rw [granted] at listed
    refine ⟨grant,rfl,rfl,checkMcpTool_allow.mpr ⟨grant,granted,?_⟩⟩
    change clause ∈ declaredClauses grant toolName at listed
    rw [declaredClauses] at listed
    cases found : grant.allowedTools.find? (fun t => t.name = toolName) with
    | none =>
      rw [found] at listed
      cases listed
    | some tool => exact ⟨tool,List.mem_of_find?_eq_some found,by simpa using List.find?_some found⟩

/-- Past the rebind a malformed call is stopped by what keeps its arguments from passing. -/
theorem mediate_hindered {serverName toolName : String} {args : Value} (rsid : Option String) {s t : Session} {rebound : List Event}
    (rebinds : Runs rebind s () t rebound) {clause : PreValidateClause} (listed : clause ∈ firstDeclared s.policy serverName toolName)
    (unreadable : Unreadable args serverName toolName clause) :
    ∃ hindrance m before,clausesHinder serverName toolName args (firstDeclared t.policy serverName toolName) t = (some hindrance,m) ∧
      ∀ {e u rest},Stops (heed hindrance) m e u rest → Stops (mediateMcpToolCall serverName toolName args rsid) s e u (before ++ rest) := by
  have policy : t.policy = s.policy := by rw [(rebinds.respects logs_rebind).same]
  obtain ⟨grant,granted,declares,allows⟩ := firstDeclared_granted listed
  rw [policy,declares]
  rw [declares] at listed
  obtain ⟨before,silent,heeds⟩ := clauses_heeded serverName toolName args (declaredClauses grant toolName) t
  rcases hinders : clausesHinder serverName toolName args (declaredClauses grant toolName) t with ⟨none | hindrance,m⟩
  · rw [hinders] at heeds
    exact absurd (runMcpPreValidate_passed heeds clause listed) (unreadable_fails unreadable)
  · rw [hinders] at heeds
    refine ⟨hindrance,m,rebound ++ before,rfl,?_⟩
    intro e u rest stops
    have validates : Stops (dispatchMcp grant serverName toolName args rsid) t e u (before ++ rest) :=
      stops_bind.mpr (.inl (Continues.stops heeds stops))
    rw [List.append_assoc]
    refine stops_bind.mpr (.inr ⟨(),t,rebound,_,rebinds,?_,rfl⟩)
    rw [stops_reads_bind,policy,allows]
    dsimp only
    rw [mcpAllowed,stops_reads_bind,policy,granted]
    exact validates

variable {call : Backend.ToolCall} {serverName toolName : String} (routed : routeOf call.name = some (.Mcp serverName toolName))
  {rsid : Option String} {s t : Session} {events : List Event}
include routed

/-- A refusal is told to the model. -/
theorem dispatch_told {error : Error} {result : ToolCallResult} (stops : Stops (mediateMcpToolCall serverName toolName call.arguments rsid) s (.Err error) t events)
    (told : toolCallResult (.error error) = pure result) : Runs (dispatchToolCall call rsid) s (answeredWith call result) t events := by
  rw [dispatchToolCall_mcp routed,← List.append_nil events]
  refine (runs_attempt_error.mpr ⟨_,rfl,stops⟩ : Runs (attempt caught _) s (.error error) t events).continues.runs ?_
  rw [told]
  exact (runs_pure.mpr ⟨rfl,rfl,rfl⟩ : Runs (pure result) t result t []).then_pure _

/-- Anything else ends the dispatch. -/
theorem dispatch_untold {e : Stop} (stops : Stops (mediateMcpToolCall serverName toolName call.arguments rsid) s e t events)
    (untold : ∀ error,e = .Err error → toolCallResult (.error error) = deny error) : Stops (dispatchToolCall call rsid) s e t events := by
  rw [dispatchToolCall_mcp routed]
  cases e with
  | Panic panic => exact stops_bind.mpr (.inl (stops_attempt.mpr ⟨rfl,stops⟩))
  | Err error =>
    rw [← List.append_nil events]
    refine (runs_attempt_error.mpr ⟨_,rfl,stops⟩ : Runs (attempt caught _) s (.error error) t events).continues.stops ?_
    rw [untold error rfl]
    exact stops_bind.mpr (.inl (stops_deny.mpr ⟨rfl,rfl,rfl⟩))

end

section
variable [Chrono] [Serde] [Sha256] [World]

theorem fault_untold {e : Stop} (fault : Fault e) [Identity] : ∀ error,e = .Err error → toolCallResult (.error error) = deny error := by
  intro error same
  cases fault with
  | Files other =>
    cases same
    rfl
  | Bound other =>
    cases same
    rfl
  | Full => cases same

theorem breaks_untold {e : Stop} (breaks : Breaks e) [Identity] : ∀ error,e = .Err error → toolCallResult (.error error) = deny error := by
  rintro error rfl
  cases error with
  | McpPreValidateMalformedArg server tool arg reason => rfl
  | _ => cases breaks

theorem breaks_unfaulted {e : Stop} (breaks : Breaks e) : ¬ Fault e := by
  rintro (_ | _ | _) <;> cases breaks

theorem emitDeny_records {resourceUri accessKind reason : String} {s t : Session} {events : List Event}
    (runs : Runs (emitDeny resourceUri accessKind reason) s () t events) : RecordsDenial reason events := by
  rw [emitDeny,utcNow,runs_ask_bind] at runs
  obtain ⟨rest,runs,rfl⟩ := runs
  obtain ⟨record,ledger,-,-,rfl⟩ := runs_emit.mp runs
  refine ⟨_,record,List.mem_append_right _ (List.mem_singleton.mpr rfl),rfl,?_⟩
  exact get_payloadOf _ _

theorem RecordsDenial.mono {reason : String} {events more : List Event} (records : RecordsDenial reason events) (inside : events ⊆ more) :
    RecordsDenial reason more := by
  obtain ⟨entry,record,member,violation,named⟩ := records
  exact ⟨entry,record,inside member,violation,named⟩

end

section
variable [Chrono] [Serde] [Sha256] [Identity] [World]

/-- A malformed call is handled just when it does not come to its malformed argument. -/
theorem handled_iff {call : Backend.ToolCall} {rsid : Option String} {s : Session} (malformed : Malformed s.policy call) :
    Handled call rsid s ↔ Precluded call s := by
  obtain ⟨serverName,toolName,routed,clause,listed,unreadable⟩ := malformed
  rcases runs_or_stops rebind s with ⟨_,rebinds⟩ | ⟨e,stops⟩
  · obtain ⟨hindrance,m,before,hinders,heeded⟩ := mediate_hindered rsid rebinds listed unreadable
    have found : Precluded call s ↔ ∃ resourceUri reason,hindrance = .Denied resourceUri reason := by
      constructor
      · intro precluded
        obtain ⟨resourceUri,reason,denied⟩ := precluded serverName toolName routed _ _ rebinds
        rw [hinders] at denied
        exact ⟨resourceUri,reason,Option.some.inj denied⟩
      · rintro ⟨resourceUri,reason,rfl⟩ server tool route t events again
        cases routed.symm.trans route
        cases rebinds.symm.trans again
        exact ⟨resourceUri,reason,by rw [hinders]⟩
    rw [found]
    cases hindrance with
    | Denied resourceUri reason =>
      refine iff_of_true ?_ ⟨resourceUri,reason,rfl⟩
      rcases runs_or_stops (emitDeny resourceUri "mcp_pre_validate" reason) m with ⟨_,writes⟩ | ⟨e,stops⟩
      · have denies := heeded (stops_bind.mpr (.inr ⟨(),_,_,[],writes,stops_deny.mpr ⟨rfl,rfl,rfl⟩,rfl⟩))
        refine .inl ⟨reason,_,_,dispatch_told routed denies rfl,?_⟩
        exact (emitDeny_records writes).mono (by simp)
      · have stops' := heeded (stops_bind.mpr (.inl stops))
        have fault := faulty_emitDeny _ _ _ stops
        exact .inr ⟨e,_,_,dispatch_untold routed stops' (fault_untold fault),fault⟩
    | Unapproved reason =>
      have told : toolCallResult (.error (.RequireApproval reason)) = pure (.RequiresApproval reason) := rfl
      have tells := dispatch_told routed (heeded (stops_deny.mpr ⟨rfl,rfl,rfl⟩)) told
      refine iff_of_false ?_ (by simp)
      rintro (⟨other,t,events,runs,-⟩ | ⟨e,t,events,stops,-⟩)
      · cases tells.result.symm.trans runs.result
      · cases tells.result.symm.trans stops.result
    | Stopped stop =>
      have breaks := clauses_breaks hinders
      have ends := dispatch_untold routed (heeded (stops_fail.mpr ⟨rfl,rfl,rfl⟩)) (breaks_untold breaks)
      refine iff_of_false ?_ (by simp)
      rintro (⟨other,t,events,runs,-⟩ | ⟨e,t,events,stops,fault⟩)
      · cases ends.result.symm.trans runs.result
      · cases ends.result.symm.trans stops.result
        exact breaks_unfaulted breaks fault
  · have fault := faulty_rebind stops
    refine iff_of_true (.inr ⟨e,_,_,dispatch_untold routed (stops_bind.mpr (.inl stops)) (fault_untold fault),fault⟩) ?_
    intro server tool route t events runs
    cases stops.result.symm.trans runs.result

/-! ### The calls of a run -/

/-- Going through the calls of a turn one of them is dispatched from this session. -/
inductive Meets (stepId : String) (recorded : Option Nat) :
    Nat → List Backend.ToolCall → Session → Backend.ToolCall → Session → Prop where
  | Bare {callIndex : Nat} {call : Backend.ToolCall} {rest : List Backend.ToolCall} {s : Session} (unrecorded : recorded = none) :
      Meets stepId recorded callIndex (call :: rest) s call s
  | Entered {callIndex turn : Nat} {call : Backend.ToolCall} {rest : List Backend.ToolCall} {s t : Session} {events : List Event}
      (recording : recorded = some turn)
      (wrote : Runs (writeToolCallEntry turn (toolCallIdOf turn callIndex) call.name (originOf call.name)
        (sha256HexOfJson call.arguments)) s () t events) : Meets stepId recorded callIndex (call :: rest) s call t
  | Later {callIndex : Nat} {call other : Backend.ToolCall} {rest : List Backend.ToolCall} {s m t : Session} {outcome : ToolCallOutcome}
      {events : List Event} (ran : Runs (runCall stepId recorded callIndex call) s outcome m events)
      (later : Meets stepId recorded (callIndex+1) rest m other t) : Meets stepId recorded callIndex (call :: rest) s other t

/-- In the turn that answers these messages the call is dispatched from this session. -/
def TurnMeets (messages : List ChatMessage) (prompt : String) (turn : Option Nat) (s : Session) (stepId : String)
    (call : Backend.ToolCall) (t : Session) : Prop :=
  ∃ response m asked stepUuid m' reasoned,Runs (infer messages (toolCatalog s.policy)) s response m asked ∧
    Runs (recordReasoningStep prompt response.reasoning ((toolCatalog s.policy).map (·.name)) (response.toolCalls.head?.map (·.name)))
      m stepUuid m' reasoned ∧ stepId = stepUuid.toString ∧
    Meets stepId (recordedTurn turn m'.ledger.schemaVersion) 0 response.toolCalls m' call t

/-- In the run the call is dispatched from this session. -/
def RunMeets (prompt : String) (limits : TurnLimits) (s : Session) (stepId : String) (call : Backend.ToolCall) (t : Session) : Prop :=
  ∃ before turn progress m opened events,
    Plays prompt limits (World.instant s.tick) (s.ledger.schemaVersion = .V2) 1 ⟨[⟨.User,prompt⟩],[],0⟩ s.next before turn progress m ∧
    tripped limits progress.tokensConsumed (World.instant m.tick-World.instant s.tick) = none ∧
    Runs (whenV2 (s.ledger.schemaVersion = .V2) (openTurn limits (World.instant s.tick) turn progress.messages)) m.next () opened events ∧
    TurnMeets progress.messages prompt (some turn) opened stepId call t

/-- A program that does not fail for a malformed argument. -/
def Formed {α : Type} (p : Run α) : Prop :=
  ∀ {s t : Session} {error : Error} {events : List Event},Stops p s (.Err error) t events → isMalformed error = false

theorem formed_bind {α β : Type} {p : Run α} {f : α → Run β} (first : Formed p) (later : ∀ a,Formed (f a)) : Formed (p >>= f) := by
  intro s t error events stops
  rcases stops_bind.mp stops with stops | ⟨a,m,left,right,-,stops,-⟩
  · exact first stops
  · exact later a stops

theorem formed_pure {α : Type} (a : α) : Formed (pure a : Run α) := fun stops => (stops_pure stops).elim

theorem formed_ask {α : Type} (answer : Nat → α) (event : α → List Event) : Formed (ask answer event) := by
  intro s t error events stops
  cases stops

theorem formed_reads {α : Type} (f : Session → α) : Formed (reads f) := by
  intro s t error events stops
  cases stops

theorem formed_update (f : Session → Session) : Formed (update f) := fun stops => (stops_update stops).elim

theorem formed_deny {α : Type} {error : Error} (formed : isMalformed error = false) : Formed (deny error : Run α) := by
  intro s t other events stops
  obtain ⟨same,-,-⟩ := stops_deny.mp stops
  cases same
  exact formed

theorem formed_orFail {ε α : Type} {wrap : ε → Error} {result : Except ε α}
    (formed : ∀ error,result = .error error → isMalformed (wrap error) = false) : Formed (orFail wrap result) := by
  intro s t error events stops
  cases result with
  | ok a => cases stops
  | error other =>
    cases stops
    exact formed other rfl

theorem formed_orPanic {α : Type} (result : Checked α) : Formed (orPanic result) := by
  intro s t error events stops
  cases result <;> cases stops

theorem formed_emit {wrap : Ledger.Error → Error} (formed : ∀ error,isMalformed (wrap error) = false) (entryType : EntryType)
    (timestamp : Int) (payload : Payload) : Formed (emit wrap entryType timestamp payload) := by
  intro s t error events stops
  obtain ⟨result,ledger,-,stopped,-,-⟩ := stops_emit.mp stops
  match result with
  | .error panic => cases stopped
  | .ok (.error other) =>
    cases stopped
    exact formed other

theorem formed_emitNow {wrap : Ledger.Error → Error} (formed : ∀ error,isMalformed (wrap error) = false) (entryType : EntryType)
    (fields : List (String × Scalar)) : Formed (emitNow wrap entryType fields) :=
  formed_bind (formed_ask _ _) fun _ => formed_emit formed _ _ _

theorem formed_faulty {α : Type} {p : Run α} (faulty : Faulty p) : Formed p := by
  intro s t error events stops
  have fault := faulty stops
  cases fault <;> rfl

theorem formed_openTurn (limits : TurnLimits) (started turn : Nat) (messages : List ChatMessage) :
    Formed (openTurn limits started turn messages) := by
  refine formed_bind (formed_reads _) fun audience => ?_
  refine formed_bind (formed_bind (formed_ask _ _) fun _ => formed_pure _) fun elapsed => ?_
  refine formed_bind ?_ fun thumbprint => formed_bind (formed_reads _) fun bound => formed_emitNow (fun _ => rfl) _ _
  refine formed_bind (formed_faulty faulty_computeLiveDigests) fun live => ?_
  refine formed_bind (formed_reads _) fun identityDir => formed_bind (formed_reads _) fun workloadName => ?_
  refine formed_bind (formed_reads _) fun instanceName => formed_bind (formed_reads _) fun chatTemplate => ?_
  refine formed_bind (formed_ask _ _) fun issued => formed_bind (formed_orPanic issued) fun issued => ?_
  refine formed_bind (formed_orFail fun _ _ => rfl) fun svid => ?_
  exact formed_bind (formed_orFail fun _ _ => rfl) fun _ => formed_bind (formed_update _) fun _ => formed_pure _

theorem formed_whenV2 (v2 : Bool) {part : Run Unit} (formed : Formed part) : Formed (whenV2 v2 part) := by
  cases v2 with
  | true => exact formed
  | false => exact formed_pure _

theorem formed_infer (messages : List ChatMessage) (tools : List ToolDecl) : Formed (infer messages tools) := by
  refine formed_bind (formed_reads _) fun loaded => formed_bind (formed_orFail fun _ _ => rfl) fun model => ?_
  exact formed_bind (formed_ask _ _) fun response => formed_orFail fun _ _ => rfl

theorem formed_recordReasoningStep (input reasoning : String) (toolsConsidered : List String) (toolSelected : Option String) :
    Formed (recordReasoningStep input reasoning toolsConsidered toolSelected) := by
  refine formed_bind (formed_ask _ _) fun stepId => formed_bind (formed_ask _ _) fun now => ?_
  split_ifs
  · exact formed_deny rfl
  · exact formed_bind (formed_emit (fun _ => rfl) _ _ _) fun _ => formed_pure _

theorem formed_writeFlagged (classifierName : String) (judged : List Judged) : Formed (writeFlagged classifierName judged) := by
  induction judged with
  | nil => exact formed_pure _
  | cons first rest ih =>
    refine formed_bind ?_ fun _ => ih
    unfold writeIfFlagged writeAdversarialViolation
    split_ifs
    · exact formed_pure _
    · exact formed_emitNow (fun _ => rfl) _ _
    · exact formed_pure _

theorem formed_concludeTurn (started : Nat) (v2 : Bool) (turn : Nat) (progress : Progress) (outcome : TurnOutcome)
    (used : Option UInt64) : Formed (concludeTurn started v2 turn progress outcome used) := by
  refine formed_bind (formed_reads _) fun classifier => formed_bind (formed_writeFlagged _ _) fun _ => ?_
  refine formed_bind (formed_whenV2 v2 ?_) fun _ => formed_pure _
  refine formed_bind (formed_bind (formed_ask _ _) fun _ => formed_pure _) fun elapsed => ?_
  exact formed_bind (formed_bind (formed_reads _) fun taken => formed_emitNow (fun _ => rfl) _ _) fun _ => formed_update _

theorem formed_emitCapAndBuildErr {α : Type} (bound : TurnCapKind) (atTurn : Nat) (limits : TurnLimits) (tokensConsumed : UInt64)
    (elapsed : Nat) : Formed (emitCapAndBuildErr bound atTurn limits tokensConsumed elapsed : Run α) :=
  formed_bind (formed_emitNow (fun _ => rfl) _ _) fun _ => formed_deny rfl

/-! ### Only a malformed call fails for its arguments -/

theorem formed_perform {α : Type} (effect : Effect) (answer : Nat → α) : Formed (perform effect answer) := by
  intro s t error events stops
  cases stops

theorem formed_denial {α : Type} (resourceUri accessKind reason : String) :
    Formed (emitDeny resourceUri accessKind reason >>= fun _ => (deny (.Denied reason) : Run α)) :=
  formed_bind (formed_faulty (faulty_emitDeny _ _ _)) fun _ => formed_deny rfl

theorem formed_emitSuccess (resourceUri : String) (accessType : AccessType) (bytes : UInt64) (rsid : Option String) :
    Formed (emitSuccess resourceUri accessType bytes rsid) := by
  refine formed_bind (formed_ask _ _) fun now => ?_
  split_ifs
  · exact formed_deny rfl
  · exact formed_emit (fun _ => rfl) _ _ _

theorem formed_enforceAggregateQuota (toolClass : Aggregate.ToolClass) (resourceUri accessKind : String) :
    Formed (enforceAggregateQuota toolClass resourceUri accessKind) := by
  refine formed_bind (formed_reads _) fun quota => formed_bind (formed_reads _) fun state => ?_
  split
  · exact formed_update _
  · refine formed_bind (formed_bind (formed_ask _ _) fun now => formed_emit (fun _ => rfl) _ _ _) fun _ => ?_
    exact formed_deny rfl

theorem formed_emitApprovalDecision (first : List (String × Scalar)) (op : Operation) (rsid : Option String)
    (last : List (String × Scalar)) : Formed (emitApprovalDecision first op rsid last) :=
  formed_bind (formed_ask _ _) fun _ => formed_emit (fun _ => rfl) _ _ _

theorem formed_storeGrant (op : Operation) (ttlSecs : Nat) (decision : Grants.GrantDecision) : Formed (storeGrant op ttlSecs decision) := by
  refine formed_bind (formed_ask _ _) fun grantId => formed_bind (formed_ask _ _) fun issuedAt => ?_
  exact formed_bind (formed_update _) fun _ => formed_pure _

theorem formed_takeOutcome (op : Operation) (rsid : Option String) (ttlSecs : Nat) (req : ApprovalRequest) (outcome : ApprovalOutcome) :
    Formed (takeOutcome op rsid ttlSecs req outcome) := by
  cases outcome with
  | Granted approverIdentity decidedAt =>
    refine formed_bind (formed_bind (formed_ask _ _) fun _ => formed_emit (fun _ => rfl) _ _ _) fun _ => ?_
    refine formed_bind (formed_storeGrant _ _ _) fun grant => ?_
    exact formed_bind (formed_emitApprovalDecision _ _ _ _) fun _ => formed_pure _
  | Rejected reason decidedAt =>
    refine formed_bind (formed_bind (formed_ask _ _) fun _ => formed_emit (fun _ => rfl) _ _ _) fun _ => ?_
    exact formed_bind (formed_storeGrant _ _ _) fun grant => formed_deny rfl
  | TimedOut expiredAt =>
    refine formed_bind (formed_bind (formed_ask _ _) fun _ => formed_emit (fun _ => rfl) _ _ _) fun _ => ?_
    exact formed_deny rfl

theorem formed_consult (op : Operation) (rsid : Option String) (summary : String) (ttlSecs : Nat) (grant : Option Grants.ApprovalGrant) :
    Formed (consult op rsid summary ttlSecs grant) := by
  cases grant with
  | some grant =>
    refine formed_bind (formed_emitApprovalDecision _ _ _ _) fun _ => ?_
    split
    · exact formed_pure _
    · exact formed_deny rfl
  | none =>
    refine formed_bind (formed_reads _) fun channel => ?_
    cases channel with
    | none => exact formed_pure _
    | some channel =>
      refine formed_bind (formed_reads _) fun req => ?_
      refine formed_bind (formed_bind (formed_ask _ _) fun _ => formed_bind (formed_ask _ _) fun _ => formed_emit (fun _ => rfl) _ _ _)
        fun _ => ?_
      refine formed_bind (formed_ask _ _) fun outcome => formed_bind (formed_orFail fun _ _ => rfl) fun outcome => ?_
      exact formed_takeOutcome _ _ _ _ _

theorem formed_routeThroughApproval (decision : Decision) (op : Operation) (rsid : Option String) :
    Formed (routeThroughApproval decision op rsid) := by
  cases decision with
  | RequireApproval summary =>
    refine formed_bind (formed_reads _) fun tier => formed_bind (formed_reads _) fun ttlSecs => ?_
    split_ifs
    · exact formed_bind (formed_emitApprovalDecision _ _ _ _) fun _ => formed_pure _
    · refine formed_bind (formed_ask _ _) fun now => formed_bind (formed_reads _) fun grant => ?_
      exact formed_consult _ _ _ _ _
  | _ => exact formed_pure _

theorem formed_mediateGated {α : Type} {g : Gated α} (decides : Formed g.decision) (names : Formed g.resourceUri) (rsid : Option String) :
    Formed (mediateGated g rsid) := by
  refine formed_bind (formed_faulty faulty_rebind) fun _ => formed_bind decides fun initial => formed_bind names fun resourceUri => ?_
  refine formed_bind (formed_routeThroughApproval _ _ _) fun decision => ?_
  cases decision with
  | Allow =>
    refine formed_bind (formed_enforceAggregateQuota _ _ _) fun _ => formed_bind (formed_perform _ _) fun answer => ?_
    refine formed_bind (formed_orFail fun _ _ => rfl) fun value => ?_
    exact formed_bind (formed_emitSuccess _ _ _ _) fun _ => formed_pure _
  | Deny reason => exact formed_denial _ _ _
  | RequireApproval reason => exact formed_deny rfl

theorem formed_fileUri (path : String) : Formed (fileUri path) := by
  unfold fileUri
  split_ifs
  · exact formed_pure _
  · refine formed_bind (formed_ask _ _) fun dir => ?_
    cases dir <;> exact formed_pure _

theorem formed_writeDecisionNow (path : String) : Formed (writeDecisionNow path) :=
  formed_bind (formed_ask _ _) fun _ => formed_bind (formed_reads _) fun _ => formed_orPanic _

theorem formed_deleteDecisionNow (path : String) : Formed (deleteDecisionNow path) :=
  formed_bind (formed_ask _ _) fun _ => formed_bind (formed_reads _) fun _ => formed_orPanic _

theorem formed_logConnection (host : String) (port : UInt16) (proto : NetworkProto) (decision : NetworkConnectionDecision) :
    Formed (logConnection host port proto decision) := formed_bind (formed_ask _ _) fun _ => formed_update _

theorem formed_mediateNetworkConnect (host : String) (port : UInt16) (proto : NetworkProto) (rsid : Option String) :
    Formed (mediateNetworkConnect host port proto rsid) := by
  refine formed_bind (formed_faulty faulty_rebind) fun _ => formed_bind (formed_reads _) fun initial => ?_
  intro s t error events stops
  rcases stops_bind.mp stops with stops | ⟨routed,m,left,right,routes,stops,-⟩
  · cases (stops_attempt.mp stops).1
  · match routed with
    | .error other =>
      have formed : isMalformed other = false := by
        obtain ⟨stop,same,failed⟩ := runs_attempt_error.mp routes
        cases stop with
        | Panic panic => cases same
        | Err error =>
          cases same
          exact formed_routeThroughApproval _ _ _ failed
      exact formed_bind (formed_logConnection _ _ _ _) (fun _ => formed_deny formed) stops
    | .ok .Allow =>
      refine formed_bind (formed_perform _ _) (fun answer => ?_) stops
      refine formed_bind (formed_orFail fun _ _ => rfl) fun _ => ?_
      exact formed_bind (formed_emitSuccess _ _ _ _) fun _ => formed_logConnection _ _ _ _
    | .ok (.Deny reason) =>
      refine formed_bind (formed_faulty (faulty_emitDeny _ _ _)) (fun _ => ?_) stops
      exact formed_bind (formed_logConnection _ _ _ _) fun _ => formed_deny rfl
    | .ok (.RequireApproval reason) =>
      exact formed_bind (formed_logConnection _ _ _ _) (fun _ => formed_deny rfl) stops

theorem formed_forget {α : Type} {p : Run α} (formed : Formed p) : Formed (p >>= fun _ => (pure () : Run Unit)) :=
  formed_bind formed fun _ => formed_pure _

/-- Only the pre-validation of an MCP call fails for an argument. -/
theorem formed_mediate {call : Call} (native : ∀ serverName toolName args rsid,call ≠ .McpToolCall serverName toolName args rsid) :
    Formed (mediate call) := by
  cases call with
  | FilesystemRead path rsid => exact formed_forget (formed_mediateGated (formed_reads _) (formed_fileUri _) _)
  | FilesystemWrite path contents rsid => exact formed_mediateGated (formed_writeDecisionNow _) (formed_fileUri _) _
  | FilesystemDelete path rsid => exact formed_mediateGated (formed_deleteDecisionNow _) (formed_fileUri _) _
  | NetworkConnect host port proto rsid => exact formed_mediateNetworkConnect _ _ _ _
  | McpToolCall serverName toolName args rsid => exact absurd rfl (native serverName toolName args rsid)
  | Exec program args rsid => exact formed_forget (formed_mediateGated (formed_reads _) (formed_pure _) _)

theorem formed_callClient (serverName serverUri toolName : String) (args : Value) (rsid : Option String) :
    Formed (callClient serverName serverUri toolName args rsid) := by
  refine formed_bind (formed_reads _) fun client => ?_
  cases client with
  | none => exact formed_denial _ _ _
  | some client =>
    refine formed_bind (formed_perform _ _) fun answer => formed_bind (formed_orFail fun _ _ => rfl) fun value => ?_
    exact formed_bind (formed_emitSuccess _ _ _ _) fun _ => formed_pure _

theorem callOf_mcp {args given : Value} {rsid step : Option String} {route : Route} {serverName toolName : String}
    (called : callOf args rsid route = .ok (.McpToolCall serverName toolName given step)) :
    route = .Mcp serverName toolName ∧ given = args := by
  cases route with
  | Mcp server tool =>
    cases called
    exact ⟨rfl,rfl⟩
  | Filesystem tool =>
    rw [callOf] at called
    split at called
    · cases called
    · split_ifs at called
      · cases called
      · cases contents : stringArg args "contents" with
        | error error =>
          rw [contents] at called
          cases called
        | ok contents =>
          rw [contents] at called
          cases called
      · cases called
  | Network tool =>
    rw [callOf] at called
    split_ifs at called
    split at called <;> cases called
  | Exec tool =>
    rw [callOf] at called
    split_ifs at called
    cases program : pathArg args "program" with
    | error error =>
      rw [program] at called
      cases called
    | ok program =>
      rw [program] at called
      cases called

section
variable {serverName toolName : String} {s t : Session} {error : Error} {events : List Event}

theorem values_unreadable {args : Value} {clause : PreValidateClause} {values : List String}
    (stops : Stops (preValidateValues serverName toolName clause values) s (.Err error) t events) (malformed : isMalformed error = true)
    (extracted : ∀ value ∈ values,∃ all,extractClauseValues args serverName toolName clause = .ok all ∧ value ∈ all) :
    Unreadable args serverName toolName clause := by
  induction values generalizing s events with
  | nil => exact (stops_pure stops).elim
  | cons value rest ih =>
    rw [preValidateValues] at stops
    rcases stops_bind.mp stops with stops | ⟨_,m,left,right,-,stops,-⟩
    · rcases stops_bind.mp stops with stops | ⟨decision,m,left,right,-,stops,-⟩
      · rw [clauseDecision] at stops
        cases kind : clause.kind with
        | FilesystemRead =>
          rw [kind] at stops
          cases stops
        | FilesystemWrite =>
          rw [kind] at stops
          cases malformed.symm.trans (formed_writeDecisionNow _ stops)
        | FilesystemDelete =>
          rw [kind] at stops
          cases malformed.symm.trans (formed_deleteDecisionNow _ stops)
        | NetworkOutbound =>
          rw [kind] at stops
          rcases stops_orFail_bind.mp stops with ⟨other,failed,-,-,-⟩ | ⟨target,-,stops⟩
          · obtain ⟨all,read,listed⟩ := extracted value List.mem_cons_self
            exact .inr ⟨kind,all,read,value,listed,other,failed⟩
          · cases stops
      · cases decision with
        | Allow => exact (stops_pure stops).elim
        | Deny reason => cases malformed.symm.trans (formed_denial _ _ _ stops)
        | RequireApproval reason => cases malformed.symm.trans (formed_deny rfl stops)
    · exact ih stops fun value listed => extracted value (List.mem_cons_of_mem _ listed)

theorem clauses_unreadable {args : Value} {clauses : List PreValidateClause}
    (stops : Stops (runMcpPreValidate serverName toolName args clauses) s (.Err error) t events) (malformed : isMalformed error = true) :
    ∃ clause ∈ clauses,Unreadable args serverName toolName clause := by
  induction clauses generalizing s events with
  | nil => exact (stops_pure stops).elim
  | cons clause rest ih =>
    rw [runMcpPreValidate] at stops
    rcases stops_orFail_bind.mp stops with ⟨other,failed,-,-,-⟩ | ⟨values,read,stops⟩
    · exact ⟨clause,List.mem_cons_self,.inl ⟨other,failed⟩⟩
    · rcases stops_bind.mp stops with stops | ⟨_,m,left,right,-,stops,-⟩
      · exact ⟨clause,List.mem_cons_self,values_unreadable stops malformed fun value listed => ⟨values,read,listed⟩⟩
      · obtain ⟨other,listed,unreadable⟩ := ih stops
        exact ⟨other,List.mem_cons_of_mem _ listed,unreadable⟩

theorem mediate_unreadable {args : Value} {rsid : Option String}
    (stops : Stops (mediateMcpToolCall serverName toolName args rsid) s (.Err error) t events) (malformed : isMalformed error = true) :
    ∃ clause ∈ firstDeclared s.policy serverName toolName,Unreadable args serverName toolName clause := by
  rcases stops_bind.mp stops with stops | ⟨_,m,left,right,rebinds,stops,-⟩
  · cases malformed.symm.trans (formed_faulty faulty_rebind stops)
  have policy : m.policy = s.policy := by rw [(rebinds.respects logs_rebind).same]
  rw [stops_reads_bind,policy] at stops
  cases checked : checkMcpTool s.policy serverName toolName with
  | Deny reason =>
    rw [checked] at stops
    cases malformed.symm.trans (formed_denial _ _ _ stops)
  | RequireApproval reason =>
    rw [checked] at stops
    cases malformed.symm.trans (formed_deny rfl stops)
  | Allow =>
    rw [checked] at stops
    dsimp only at stops
    rw [mcpAllowed,stops_reads_bind,policy] at stops
    cases granted : serverGrant s.policy serverName with
    | none =>
      rw [granted] at stops
      cases malformed.symm.trans (formed_denial _ _ _ stops)
    | some grant =>
      rw [granted] at stops
      rcases stops_bind.mp stops with stops | ⟨_,m,left,right,-,stops,-⟩
      · rw [firstDeclared,granted]
        exact clauses_unreadable stops malformed
      · cases malformed.symm.trans (formed_bind (formed_enforceAggregateQuota _ _ _) (fun _ => formed_callClient _ _ _ _ _) stops)

/-- A dispatch fails for an argument only if the call is malformed. -/
theorem dispatch_malformed {call : Backend.ToolCall} {rsid : Option String}
    (stops : Stops (dispatchToolCall call rsid) s (.Err error) t events) (malformed : isMalformed error = true) : Malformed s.policy call := by
  unfold dispatchToolCall at stops
  cases routed : routeOf call.name with
  | none =>
    rw [routed] at stops
    exact (stops_pure stops).elim
  | some route =>
    rw [routed] at stops
    rcases stops_bind.mp stops with stops | ⟨dispatched,m,left,right,runs,stops,-⟩
    · cases (stops_attempt.mp stops).1
    · cases dispatched with
      | ok value =>
        rcases stops_bind.mp stops with stops | ⟨_,_,_,_,-,stops,-⟩
        · exact (stops_pure stops).elim
        · exact (stops_pure stops).elim
      | error other =>
        obtain ⟨stop,same,failed⟩ := runs_attempt_error.mp runs
        have own : other = error := by
          rcases stops_bind.mp stops with stops | ⟨_,_,_,_,-,stops,-⟩
          · cases other with
            | Denied reason => exact (stops_pure stops).elim
            | RequireApproval reason => exact (stops_pure stops).elim
            | UnroutableToolCall name => exact (stops_pure stops).elim
            | _ =>
              cases (stops_deny.mp stops).1
              rfl
          · exact (stops_pure stops).elim
        subst own
        cases stop with
        | Panic panic => cases same
        | Err inner =>
          cases same
          have mediates := (runRoute_alike call.arguments rsid route).stops failed
          rw [mediated] at mediates
          cases called : callOf call.arguments rsid route with
          | error refused =>
            rw [called] at mediates
            obtain ⟨name,rfl⟩ := callOf_error called
            cases malformed.symm.trans (formed_deny rfl mediates)
          | ok mediatedCall =>
            rw [called] at mediates
            by_cases native : ∀ serverName toolName args rsid,mediatedCall ≠ .McpToolCall serverName toolName args rsid
            · cases malformed.symm.trans (formed_mediate native mediates)
            · push Not at native
              obtain ⟨server,tool,args,step,rfl⟩ := native
              obtain ⟨rfl,rfl⟩ := callOf_mcp called
              rcases stops_bind.mp mediates with stops | ⟨_,_,_,_,-,stops,-⟩
              · exact ⟨server,tool,routed,mediate_unreadable stops malformed⟩
              · exact (stops_pure stops).elim

end

/-! ### Runs -/

section
variable {s t : Session} {error : Error} {events : List Event}

/-- Among the calls of a turn the one that fails for its arguments was dispatched. -/
theorem calls_meet {stepId : String} {recorded : Option Nat} {callIndex : Nat} {calls : List Backend.ToolCall}
    (stops : Stops (runCalls stepId recorded callIndex calls) s (.Err error) t events) (malformed : isMalformed error = true) :
    ∃ call u v later,Meets stepId recorded callIndex calls s call u ∧ Stops (dispatchToolCall call (some stepId)) u (.Err error) v later := by
  induction calls generalizing callIndex s events with
  | nil => exact (stops_pure stops).elim
  | cons call rest ih =>
    rw [runCalls] at stops
    rcases stops_bind.mp stops with stops | ⟨outcome,m,left,right,runs,stops,-⟩
    · cases recording : recorded with
      | none =>
        rw [recording] at stops
        exact ⟨call,s,t,events,.Bare rfl,stops⟩
      | some turn =>
        rw [recording] at stops
        rcases stops_bind.mp stops with stops | ⟨_,m,left,right,wrote,stops,-⟩
        · cases malformed.symm.trans (formed_emitNow (fun _ => rfl) _ _ stops)
        · rcases stops_bind.mp stops with stops | ⟨_,_,_,_,-,stops,-⟩
          · exact ⟨call,m,t,_,.Entered rfl wrote,stops⟩
          · cases malformed.symm.trans (formed_bind (formed_emitNow (fun _ => rfl) _ _) (fun _ => formed_pure _) stops)
    · rcases stops_bind.mp stops with stops | ⟨_,_,_,_,-,stops,-⟩
      · obtain ⟨other,u,v,later,meets,fails⟩ := ih stops
        exact ⟨other,u,v,later,.Later runs meets,fails⟩
      · exact (stops_pure stops).elim

theorem turn_meets {messages : List ChatMessage} {prompt : String} {turn : Option Nat}
    (stops : Stops (runOneTurn messages prompt turn) s (.Err error) t events) (malformed : isMalformed error = true) :
    ∃ stepId call u v later,TurnMeets messages prompt turn s stepId call u ∧
      Stops (dispatchToolCall call (some stepId)) u (.Err error) v later := by
  rw [runOneTurn,stops_reads_bind] at stops
  rcases stops_bind.mp stops with stops | ⟨response,m,asked,_,infers,stops,-⟩
  · cases malformed.symm.trans (formed_infer _ _ stops)
  rcases stops_bind.mp stops with stops | ⟨stepUuid,m',reasoned,_,reasons,stops,-⟩
  · cases malformed.symm.trans (formed_recordReasoningStep _ _ _ _ stops)
  rw [stops_reads_bind] at stops
  rcases stops_bind.mp stops with stops | ⟨_,_,_,_,-,stops,-⟩
  · obtain ⟨call,u,v,later,meets,fails⟩ := calls_meet stops malformed
    exact ⟨stepUuid.toString,call,u,v,later,⟨response,m,asked,stepUuid,m',reasoned,infers,reasons,rfl,meets⟩,fails⟩
  · exact (stops_pure stops).elim

theorem run_meets {prompt : String} {limits : TurnLimits} (stops : Stops (run prompt limits) s (.Err error) t events)
    (malformed : isMalformed error = true) :
    ∃ stepId call u v later,RunMeets prompt limits s stepId call u ∧ Stops (dispatchToolCall call (some stepId)) u (.Err error) v later := by
  obtain ⟨spent,turn,progress,m,before,last,-,-,plays,ends,whole⟩ := turnLoop_cases prompt limits (World.instant s.tick)
    (s.ledger.schemaVersion = .V2) limits.maxTurns.toNat 1 ⟨[⟨.User,prompt⟩],[],0⟩ s.next
  have failed : last.result = .error (.Err error) := by
    have result := stops.result
    rw [run_loops,whole] at result
    exact result
  generalize limits.maxTurns.toNat-spent = left at ends
  cases ends with
  | Exhausted => cases malformed.symm.trans (formed_emitCapAndBuildErr _ _ _ _ _ (stops_of_result failed))
  | Tripped bound refused => cases malformed.symm.trans (formed_emitCapAndBuildErr _ _ _ _ _ (stops_of_result failed))
  | Broken admitted breaks =>
    cases failed
    rcases stops_bind.mp breaks with stops | ⟨_,opened,opening,_,opens,stops,-⟩
    · cases malformed.symm.trans (formed_whenV2 _ (formed_openTurn _ _ _ _) stops)
    rcases stops_bind.mp stops with stops | ⟨_,_,_,_,-,stops,-⟩
    · obtain ⟨stepId,call,u,v,later,meets,fails⟩ := turn_meets stops malformed
      exact ⟨stepId,call,u,v,later,⟨before,turn,progress,m,opened,opening,plays,admitted,opens,meets⟩,fails⟩
    · cases malformed.symm.trans (formed_concludeTurn _ _ _ _ _ _ stops)
  | Done admitted played => cases failed

end

/-- A malformed call is handled just when something else comes before its argument; a run
    or a turn whose malformed calls all are never fails for an argument. -/
theorem malformed_handled_iff (s : Session) :
    (∀ call rsid,Malformed s.policy call → (Handled call rsid s ↔ Precluded call s)) ∧
    (∀ prompt limits,(∀ stepId call u,RunMeets prompt limits s stepId call u → Malformed u.policy call → Precluded call u) →
      ∀ error,(run prompt limits s).result = .error (.Err error) → isMalformed error = false) ∧
    ∀ userMessage,(∀ stepId call u,TurnMeets [⟨.User,userMessage⟩] userMessage none s stepId call u →
      Malformed u.policy call → Precluded call u) →
      ∀ error,(runTurn userMessage s).result = .error (.Err error) → isMalformed error = false := by
  have contained : ∀ {stepId call u v later error},Stops (dispatchToolCall call (some stepId)) u (.Err error) v later →
      (Malformed u.policy call → Precluded call u) → isMalformed error = false := by
    intro stepId call u v later error fails precluded
    by_contra other
    have malformed : isMalformed error = true := by simpa using other
    have own := dispatch_malformed fails malformed
    rcases (handled_iff own).mpr (precluded own) with ⟨reason,t,events,runs,-⟩ | ⟨e,t,events,stops,fault⟩
    · cases fails.result.symm.trans runs.result
    · cases fails.result.symm.trans stops.result
      exact breaks_unfaulted (show Breaks (.Err error) from malformed) fault
  refine ⟨fun call rsid malformed => handled_iff malformed,?_,?_⟩
  · intro prompt limits precluded error failed
    by_contra other
    obtain ⟨stepId,call,u,v,later,meets,fails⟩ := run_meets (stops_of_result failed) (by simpa using other)
    exact other (contained fails (precluded stepId call u meets))
  · intro userMessage precluded error failed
    by_contra other
    rcases stops_bind.mp (stops_of_result failed) with stops | ⟨_,_,_,_,-,stops,-⟩
    · obtain ⟨stepId,call,u,v,later,meets,fails⟩ := turn_meets stops (by simpa using other)
      exact other (contained fails (precluded stepId call u meets))
    · exact (stops_pure stops).elim

end

/-! ### A missing argument -/

section
open scoped Reference
open Reference Faultless

/-- A call without its path. -/
def pathless : Backend.ToolCall := ⟨"files__read",.Object []⟩

theorem pathless_routed : routeOf pathless.name = some (.Mcp "files" "read") := by decide

theorem pathless_hindered [Chrono] [World] {s : Session} :
    (clausesHinder "files" "read" pathless.arguments [readable] s).1 = some (.Stopped (.Err (.McpPreValidateMalformedArg "files" "read"
      "path" "required by pre_validate clause but missing from tool args"))) := rfl

/-- It is not denied. -/
theorem pathless_unhandled :
    let _ := calmWorld (serving [.WithPreValidate "read" [readable]])
    ∃ booted,boot config = .ok booted ∧ Malformed (attach booted none (some mcpClient)).policy pathless ∧
      ¬ Handled pathless (some "step") (attach booted none (some mcpClient)) := by
  intro world
  obtain ⟨booted,boots,fresh,ready⟩ := calm_boots (serving [.WithPreValidate "read" [readable]]) rfl rfl
  have policy : (attach booted none (some mcpClient)).policy = serving [.WithPreValidate "read" [readable]] := fresh.policy
  have declares : firstDeclared (serving [.WithPreValidate "read" [readable]]) "files" "read" = [readable] := by decide
  have malformed : Malformed (attach booted none (some mcpClient)).policy pathless := by
    rw [policy]
    exact ⟨"files","read",pathless_routed,readable,by rw [declares]; simp,.inl ⟨_,rfl⟩⟩
  refine ⟨booted,boots,malformed,fun handled => ?_⟩
  obtain ⟨rebound,rebinds,-⟩ := rebind_steady (fresh.steady (fun _ _ => rfl) none (some mcpClient))
  obtain ⟨resourceUri,reason,denied⟩ := (handled_iff malformed).mp handled "files" "read" pathless_routed _ _ rebinds
  rw [show (later (attach booted none (some mcpClient)) _).policy = _ from policy,declares,pathless_hindered] at denied
  cases denied

end

end AegisNode.MalformedCalls
