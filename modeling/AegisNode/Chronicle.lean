import AegisNode.Entries
import AegisNode.Turn
import AegisNode.WriterVerifier

/-!
Every part of a call is made of steps that append one entry or leave the ledger alone:
the ledger of a session is what its events append, and the identity, the policy and the
attached parts stay.
-/
namespace AegisNode.Chronicle
open Clock Json Schema Policy Grants Aggregate Traced Engine Mediator Frames Entries Turn WriterVerifier
open Ledger hiding Error
set_option linter.unusedSectionVars false

/-! ### What is appended -/

def handed? : Event → Option Entry
  | .Append entry _ => some entry
  | _ => none

/-- The entries that were handed to the ledger, in their order. -/
def appended (events : List Event) : List Entry := events.filterMap handed?

def result? : Event → Option (Checked (Except Ledger.Error EntryRecord))
  | .Append _ result => some result
  | _ => none

theorem appended_append (left right : List Event) : appended (left ++ right) = appended left ++ appended right :=
  List.filterMap_append

theorem appended_quiet {events : List Event} (quiet : ∀ e ∈ events,handed? e = none) : appended events = [] :=
  List.filterMap_eq_nil_iff.mpr quiet

section
variable [Chrono] [Serde] [Sha256]

/-- The ledger and the results are those of the entries along the events. -/
def Chronicles (a : Session) (events : List Event) (b : Session) : Prop :=
  appendAll a.ledger (appended events) = (events.filterMap result?,b.ledger)

theorem appendAll_append (w : LedgerWriter) (left right : List Entry) :
    appendAll w (left ++ right) = ((appendAll w left).1 ++ (appendAll (appendAll w left).2 right).1,
      (appendAll (appendAll w left).2 right).2) := by
  induction left generalizing w with
  | nil => rfl
  | cons entry rest ih => simp [appendAll,ih]

theorem chronicles_composes : Composes Chronicles where
  idle _ := rfl
  append := by
    intro a b c left right first second
    rw [Chronicles] at *
    rw [appended_append,appendAll_append,first,second,List.filterMap_append]

theorem append_version (w : LedgerWriter) (entry : Entry) : (Ledger.append w entry).2.schemaVersion = w.schemaVersion := by
  unfold Ledger.append
  by_cases foreign : entry.sessionId ≠ w.sessionId
  · rw [if_pos foreign]
  rw [if_neg foreign]
  cases entry.payload.fields.find? (fun field => reservedKeys.contains field.1) with
  | some field => rfl
  | none =>
    dsimp only
    cases persist w.file (entryLine w entry) with
    | mk persisted file =>
      cases persisted with
      | error error => rfl
      | ok _ =>
        dsimp only
        split_ifs <;> rfl

theorem appendAll_version (w : LedgerWriter) (entries : List Entry) :
    (appendAll w entries).2.schemaVersion = w.schemaVersion := by
  induction entries generalizing w with
  | nil => rfl
  | cons entry rest ih => rw [appendAll,ih,append_version]

theorem Chronicles.version {a b : Session} {events : List Event} (chronicles : Chronicles a events b) :
    b.ledger.schemaVersion = a.ledger.schemaVersion := by
  rw [← appendAll_version a.ledger (appended events),chronicles]

/-- Every entry that was handed to the ledger was taken. -/
def Clean (events : List Event) : Prop := ∀ entry result,.Append entry result ∈ events → ∃ record,result = .ok (.ok record)

theorem clean_append {left right : List Event} : Clean (left ++ right) ↔ Clean left ∧ Clean right := by
  constructor
  · intro clean
    exact ⟨fun entry result member => clean entry result (List.mem_append_left _ member),
      fun entry result member => clean entry result (List.mem_append_right _ member)⟩
  · rintro ⟨first,second⟩ entry result member
    rcases List.mem_append.mp member with member | member
    · exact first entry result member
    · exact second entry result member

/-! ### Steps -/

/-- The counts, the grants, the network log and the identity of a turn may change. -/
def Kept (a b : Session) : Prop := b = { a with
  ledger := b.ledger
  networkLog := b.networkLog
  aggregateState := b.aggregateState
  grantTable := b.grantTable
  currentTurnSvid := b.currentTurnSvid
  tick := b.tick }

/-- What the parts of a run do at a time; they fail in the ways that are allowed. -/
inductive Does (allowed : Stop → Prop) : (α : Type) → Run α → Prop where
  | Silent {α : Type} (value : Session → Except Stop α) (failing : ∀ s stop,value s = .error stop → allowed stop) :
      Does allowed α (fun s => ⟨value s,s,[]⟩)
  | Ask {α : Type} (answer : Nat → α) (event : α → List Event) (none : ∀ a,∀ e ∈ event a,handed? e = none) :
      Does allowed α (ask answer event)
  | Perform {α : Type} (effect : Effect) (answer : Nat → α) : Does allowed α (perform effect answer)
  | Append (entry : Entry) (panics : ∀ panic,allowed (.Panic panic)) : Does allowed _ (appendEntry entry)
  | Change {f : Session → Session} (kept : ∀ s,Kept s (f s)) (apart : ∀ s,(f s).ledger = s.ledger) :
      Does allowed Unit (update f)

/-- The bound that an error is about. -/
def boundOf : Stop → Option TurnCapKind
  | .Err (.TurnCapExceeded bound _ _ _ _ _ _) => some bound
  | _ => none

def Ordinary (stop : Stop) : Prop := boundOf stop = none

@[simp] theorem ordinary_other {stop : Stop} (other : ∀ bound atTurn maxTurns consumed maxTokens seconds maxSeconds,
    stop ≠ .Err (.TurnCapExceeded bound atTurn maxTurns consumed maxTokens seconds maxSeconds)) : Ordinary stop := by
  unfold Ordinary boundOf
  split
  · exact absurd rfl (other _ _ _ _ _ _ _)
  · rfl

/-- The parts of a call and of a turn: no bound ends them. -/
abbrev Step := Does Ordinary

theorem result_of_entry {e : Event} (none : handed? e = none) : result? e = .none := by
  cases e <;> first | rfl | cases none

variable {allowed : Stop → Prop}

theorem Does.chronicles {α : Type} {p : Run α} (step : Does allowed α p) : Respects Chronicles p := by
  intro s
  cases step with
  | Silent value failing => rfl
  | Ask answer event none =>
    have results : (event (answer s.tick)).filterMap result? = [] :=
      List.filterMap_eq_nil_iff.mpr fun e member => result_of_entry (none _ e member)
    rw [Chronicles,ask,appended_quiet (none _),results]
    rfl
  | Perform effect answer => rfl
  | Append entry panics => rfl
  | Change kept apart =>
    rw [Chronicles,update]
    exact Prod.ext rfl (apart s).symm

theorem chronicles_made {α : Type} {p : Run α} (made : Made (Does allowed) p) : Respects Chronicles p :=
  made.respects chronicles_composes Does.chronicles

/-- The session stays the same but for what a call may change. -/
def Stays (a : Session) (_ : List Event) (b : Session) : Prop := Kept a b

theorem stays_composes : Composes Stays where
  idle _ := rfl
  append := by
    intro a b c left right first second
    rw [Stays,Kept] at *
    rw [second,first]

theorem stays_made {α : Type} {p : Run α} (made : Made (Does allowed) p) : Respects Stays p := by
  refine made.respects stays_composes fun step s => ?_
  cases step with
  | Silent value failing => rfl
  | Ask answer event none => rfl
  | Perform effect answer => rfl
  | Append entry panics => rfl
  | Change kept apart => exact kept s

/-- What is made of steps fails in an allowed way. -/
theorem allowed_made {α : Type} {p : Run α} (made : Made (Does allowed) p) {s t : Session} {stop : Stop} {events : List Event}
    (stops : Stops p s stop t events) : allowed stop := by
  refine made.fails (fun step s e failed => ?_) stops
  cases step with
  | Silent value failing => exact failing s e failed
  | Ask answer event none => cases failed
  | Perform effect answer => cases failed
  | Append entry panics =>
    rw [appendEntry] at failed
    cases appended : (append s.ledger entry).1 with
    | ok result =>
      rw [appended] at failed
      cases failed
    | error panic =>
      rw [appended] at failed
      cases failed
      exact panics panic
  | Change kept apart => cases failed

/-- A step may fail in more ways. -/
theorem made_mono {wider : Stop → Prop} (more : ∀ stop,allowed stop → wider stop) {α : Type} {p : Run α}
    (made : Made (Does allowed) p) : Made (Does wider) p := by
  induction made with
  | Step own =>
    refine .Step ?_
    cases own with
    | Silent value failing => exact .Silent value fun s stop failed => more stop (failing s stop failed)
    | Ask answer event none => exact .Ask answer event none
    | Perform effect answer => exact .Perform effect answer
    | Append entry panics => exact .Append entry fun panic => more _ (panics panic)
    | Change kept apart => exact .Change kept apart
  | Bind first later ihFirst ihLater => exact .Bind ihFirst ihLater
  | Attempt caught inner ih => exact .Attempt caught ih

/-! ### Calls are made of steps -/

section
variable {α β ε : Type}

@[simp] theorem made_pure (a : α) : Made Step (pure a : Run α) := .Step (.Silent (fun _ => .ok a) (by simp))

@[simp] theorem made_deny {error : Error} (ordinary : Ordinary (.Err error)) : Made Step (deny error : Run α) := by
  refine .Step (.Silent (fun _ => .error (.Err error)) ?_)
  rintro s stop same
  cases same
  exact ordinary

@[simp] theorem made_reads (f : Session → α) : Made Step (reads f : Run α) := .Step (.Silent (fun s => .ok (f s)) (by simp))

@[simp] theorem made_orFail {wrap : ε → Error} {result : Except ε α}
    (ordinary : ∀ e,result = .error e → Ordinary (.Err (wrap e))) : Made Step (orFail wrap result) := by
  refine .Step (.Silent (fun _ => result.mapError fun e => .Err (wrap e)) fun s stop same => ?_)
  cases result with
  | ok a => cases same
  | error e =>
    cases same
    exact ordinary e rfl

@[simp] theorem made_orPanic (result : Checked α) : Made Step (orPanic result) := by
  refine .Step (.Silent (fun _ => result.mapError .Panic) fun s stop same => ?_)
  cases result with
  | ok a => cases same
  | error e =>
    cases same
    rfl

@[simp] theorem made_perform (effect : Effect) (answer : Nat → α) : Made Step (perform effect answer) :=
  .Step (.Perform effect answer)

@[simp] theorem made_bind {p : Run α} {f : α → Run β} (first : Made Step p) (later : ∀ a,Made Step (f a)) :
    Made Step (p >>= f) := .Bind first fun a _ _ => later a

@[simp] theorem made_attempt {δ : Type} (caught : Stop → Option δ) {p : Run α} (inner : Made Step p) :
    Made Step (attempt caught p) := .Attempt caught inner

end

@[simp] theorem made_emit {wrap : Ledger.Error → Error} (ordinary : ∀ e,Ordinary (.Err (wrap e))) (entryType : EntryType)
    (timestamp : Int) (payload : Payload) : Made Step (emit wrap entryType timestamp payload) := by
  refine made_bind (made_reads _) fun sessionId => ?_
  refine made_bind (made_reads _) fun agentHash => ?_
  refine made_bind (.Step (.Append _ fun _ => rfl)) fun result => ?_
  exact made_bind (made_orFail fun e _ => ordinary e) fun _ => made_pure _

section
variable [World]

@[simp] theorem made_utcNow : Made Step utcNow := .Step (.Ask _ _ (by simp [handed?]))

/-- An entry of this moment. -/
@[simp] theorem made_record {wrap : Ledger.Error → Error} (ordinary : ∀ e,Ordinary (.Err (wrap e))) (entryType : EntryType)
    (payload : Int → Payload) : Made Step (utcNow >>= fun now => emit wrap entryType now (payload now)) :=
  made_bind made_utcNow fun now => made_emit ordinary entryType now (payload now)

@[simp] theorem made_systemNow : Made Step systemNow := .Step (.Ask _ _ (by simp [handed?]))

@[simp] theorem made_newUuid : Made Step newUuid := .Step (.Ask _ _ (by simp))

@[simp] theorem made_currentDir : Made Step currentDir := .Step (.Ask _ _ (by simp))

@[simp] theorem made_fileUri (path : String) : Made Step (fileUri path) := by
  unfold fileUri
  split_ifs
  · simp
  · refine made_bind made_currentDir fun dir => ?_
    cases dir <;> simp

@[simp] theorem made_sha256File (path : String) : Made Step (sha256File path) :=
  made_bind (.Step (.Ask _ _ (by simp [handed?]))) fun _ => made_bind (made_orFail (by simp)) fun _ => made_pure _

@[simp] theorem made_configDigest (path : Option String) : Made Step (configDigest path) := by
  cases path <;> simp [configDigest]

@[simp] theorem made_computeLiveDigests : Made Step computeLiveDigests := by
  refine made_bind (made_reads _) fun modelPath => ?_
  refine made_bind (made_sha256File modelPath) fun model => ?_
  refine made_bind (made_reads _) fun manifestPath => ?_
  refine made_bind (made_sha256File manifestPath) fun manifest => ?_
  exact made_bind (made_reads _) fun configPath => made_bind (made_configDigest configPath) fun config => made_pure _

@[simp] theorem made_emitSuccess (resourceUri : String) (accessType : AccessType) (bytes : UInt64) (rsid : Option String) :
    Made Step (emitSuccess resourceUri accessType bytes rsid) := by
  refine made_bind made_utcNow fun now => ?_
  split_ifs <;> simp

@[simp] theorem made_emitDeny (resourceUri accessKind reason : String) : Made Step (emitDeny resourceUri accessKind reason) := by
  simp [emitDeny,emitViolation]

theorem made_denied {α : Type} (resourceUri accessKind reason : String) : Made Step (do
      emitDeny resourceUri accessKind reason
      (deny (.Denied reason) : Run α)) :=
  made_bind (made_emitDeny _ _ _) fun _ => made_deny (by simp)

@[simp] theorem made_enforceAggregateQuota (toolClass : ToolClass) (resourceUri accessKind : String) :
    Made Step (enforceAggregateQuota toolClass resourceUri accessKind) := by
  refine made_bind (made_reads _) fun quota => ?_
  refine made_bind (made_reads _) fun state => ?_
  cases checkAndIncrement state toolClass quota with
  | ok counted => exact .Step (.Change (fun _ => rfl) fun _ => rfl)
  | error breach => exact made_bind (made_record (by simp) _ _) fun _ => made_deny (by simp)

@[simp] theorem made_logConnection (host : String) (port : UInt16) (proto : NetworkProto) (decision : NetworkConnectionDecision) :
    Made Step (logConnection host port proto decision) :=
  made_bind made_utcNow fun _ => .Step (.Change (fun _ => rfl) fun _ => rfl)

@[simp] theorem made_storeGrant (op : Operation) (ttlSecs : Nat) (decision : GrantDecision) :
    Made Step (storeGrant op ttlSecs decision) := by
  refine made_bind made_newUuid fun grantId => ?_
  refine made_bind made_systemNow fun issuedAt => ?_
  exact made_bind (.Step (.Change (fun _ => rfl) fun _ => rfl)) (by simp)

/-! ### Approval -/

@[simp] theorem made_autoConsume (op : Operation) (rsid : Option String) (grant : ApprovalGrant) :
    Made Step (autoConsume op rsid grant) := by
  refine made_bind (by simp [emitApprovalDecisionAutoConsumed,emitApprovalDecision]) fun _ => ?_
  cases grant.decision <;> simp

@[simp] theorem made_takeOutcome (op : Operation) (rsid : Option String) (ttlSecs : Nat) (req : ApprovalRequest)
    (outcome : ApprovalOutcome) : Made Step (takeOutcome op rsid ttlSecs req outcome) := by
  cases outcome with
  | Granted approver decidedAt =>
    refine made_bind (by simp [emitApprovalGranted]) fun _ => ?_
    refine made_bind (made_storeGrant _ _ _) fun grant => ?_
    exact made_bind (by simp [emitApprovalDecisionGranted,emitApprovalDecision]) fun _ => made_pure _
  | Rejected reason decidedAt =>
    refine made_bind (by simp [emitApprovalRejected]) fun _ => ?_
    exact made_bind (made_storeGrant _ _ _) fun _ => made_deny (by simp)
  | TimedOut expiredAt => exact made_bind (by simp [emitApprovalTimedOut]) fun _ => made_deny (by simp)

@[simp] theorem made_consult (op : Operation) (rsid : Option String) (summary : String) (ttlSecs : Nat)
    (grant : Option ApprovalGrant) : Made Step (consult op rsid summary ttlSecs grant) := by
  cases grant with
  | some grant => simp [consult]
  | none =>
    refine made_bind (made_reads _) fun channel => ?_
    cases channel with
    | none => simp [askAttached]
    | some channel =>
      refine made_bind (made_reads _) fun req => ?_
      refine made_bind (made_bind made_utcNow fun _ => made_record (by simp) _ _) fun _ => ?_
      refine made_bind (.Step (.Ask _ _ (by simp [handed?]))) fun outcome => ?_
      exact made_bind (made_orFail (by simp)) fun outcome => made_takeOutcome _ _ _ _ outcome

@[simp] theorem made_routeThroughApproval (decision : Decision) (op : Operation) (rsid : Option String) :
    Made Step (routeThroughApproval decision op rsid) := by
  cases decision with
  | Allow => simp [routeThroughApproval]
  | Deny reason => simp [routeThroughApproval]
  | RequireApproval summary =>
    refine made_bind (made_reads _) fun tier => ?_
    refine made_bind (made_reads _) fun ttlSecs => ?_
    split_ifs
    · exact made_bind (made_record (by simp) _ _) fun _ => made_pure _
    · simp

theorem caught_ordinary {stop : Stop} {error : Error} (same : caught stop = some error) (ordinary : Ordinary stop) :
    Ordinary (.Err error) := by
  cases stop with
  | Err other =>
    cases same
    exact ordinary
  | Panic panic => cases same

/-! ### Arguments -/

theorem ordinary_pathArg {args : Value} {key : String} {error : Error} (failed : pathArg args key = .error error) :
    Ordinary (.Err error) := by
  unfold pathArg at failed
  split at failed <;> cases failed
  simp

theorem ordinary_u16Arg {args : Value} {key : String} {error : Error} (failed : u16Arg args key = .error error) :
    Ordinary (.Err error) := by
  unfold u16Arg at failed
  split at failed
  · cases failed
    simp
  · split_ifs at failed
    cases failed
    simp

theorem ordinary_protocolOf {text : String} {error : Error} (failed : protocolOf text = .error error) : Ordinary (.Err error) := by
  unfold protocolOf at failed
  split_ifs at failed
  cases failed
  simp

theorem ordinary_arrayStrings {fault : String → Error} (ordinary : ∀ reason,Ordinary (.Err (fault reason))) {i : Nat}
    {items : List Value} {error : Error} (failed : arrayStrings fault i items = .error error) : Ordinary (.Err error) := by
  induction items generalizing i with
  | nil => cases failed
  | cons elem rest ih =>
    rw [arrayStrings] at failed
    split at failed
    · cases failed
      exact ordinary _
    · cases later : arrayStrings fault (i+1) rest with
      | ok values =>
        rw [later] at failed
        cases failed
      | error error' =>
        rw [later] at failed
        cases failed
        exact ih later

theorem ordinary_extractClauseValues {args : Value} {serverName toolName : String} {clause : PreValidateClause} {error : Error}
    (failed : extractClauseValues args serverName toolName clause = .error error) : Ordinary (.Err error) := by
  unfold extractClauseValues at failed
  dsimp only at failed
  repeat' split at failed
  all_goals first
    | (cases failed; simp)
    | exact ordinary_arrayStrings (by simp) failed
    | cases failed

theorem ordinary_parsePreValidateUrl {raw serverName toolName argName : String} {error : Error}
    (failed : parsePreValidateUrl raw serverName toolName argName = .error error) : Ordinary (.Err error) := by
  unfold parsePreValidateUrl at failed
  dsimp only at failed
  repeat' split at failed
  all_goals first
    | (cases failed; simp)
    | cases failed

/-! ### Mediators -/

@[simp] theorem made_writeDecisionNow (path : String) : Made Step (writeDecisionNow path) := by simp [writeDecisionNow]

@[simp] theorem made_deleteDecisionNow (path : String) : Made Step (deleteDecisionNow path) := by simp [deleteDecisionNow]

/-- What follows the answer to an effect. -/
theorem made_concluded {ε α : Type} {wrap : ε → Error} (ordinary : ∀ e,Ordinary (.Err (wrap e))) (answer : Except ε α)
    (resourceUri : String) (accessType : AccessType) (bytes : α → UInt64) (rsid : Option String) : Made Step (do
      let value ← orFail wrap answer
      emitSuccess resourceUri accessType (bytes value) rsid
      return value) :=
  made_bind (made_orFail fun e _ => ordinary e) fun _ => made_bind (made_emitSuccess _ _ _ _) fun _ => made_pure _

@[simp] theorem made_settle {α : Type} (g : Gated α) (resourceUri : String) (rsid : Option String) (decision : Decision) :
    Made Step (settle g resourceUri rsid decision) := by
  cases decision with
  | Allow =>
    refine made_bind (made_enforceAggregateQuota _ _ _) fun _ => ?_
    exact made_bind (made_perform _ _) fun answer => made_concluded (by simp) answer _ _ _ _
  | Deny reason => exact made_denied _ _ _
  | RequireApproval reason => simp [settle]

theorem made_finishConnect (initial : Decision) (host : String) (port : UInt16) (proto : NetworkProto)
    (rsid : Option String) {routed : Except Error Decision} (ordinary : ∀ error,routed = .error error → Ordinary (.Err error)) :
    Made Step (finishConnect initial host port proto rsid routed) := by
  match routed with
  | .error error => exact made_bind (made_logConnection _ _ _ _) fun _ => made_deny (ordinary error rfl)
  | .ok .Allow =>
    refine made_bind (made_perform _ _) fun answer => ?_
    refine made_bind (made_orFail (by simp)) fun _ => ?_
    exact made_bind (made_emitSuccess _ _ _ _) fun _ => made_logConnection _ _ _ _
  | .ok (.Deny reason) =>
    exact made_bind (made_emitDeny _ _ _) fun _ => made_bind (made_logConnection _ _ _ _) fun _ => made_deny (by simp)
  | .ok (.RequireApproval reason) => exact made_bind (made_logConnection _ _ _ _) fun _ => made_deny (by simp)

@[simp] theorem made_preValidateValue (serverName toolName : String) (clause : PreValidateClause) (value : String) :
    Made Step (preValidateValue serverName toolName clause value) := by
  refine made_bind ?_ fun decision => ?_
  · unfold clauseDecision
    cases clause.kind with
    | NetworkOutbound => exact made_bind (made_orFail fun _ => ordinary_parsePreValidateUrl) fun _ => made_reads _
    | _ => simp [readDecision]
  · cases decision with
    | Allow => exact made_pure _
    | Deny reason => exact made_denied _ _ _
    | RequireApproval reason => exact made_deny (by simp)

@[simp] theorem made_preValidateValues (serverName toolName : String) (clause : PreValidateClause) (values : List String) :
    Made Step (preValidateValues serverName toolName clause values) := by
  induction values with
  | nil => exact made_pure _
  | cons value rest ih => exact made_bind (made_preValidateValue _ _ _ _) fun _ => ih

@[simp] theorem made_runMcpPreValidate (serverName toolName : String) (args : Value) (clauses : List PreValidateClause) :
    Made Step (runMcpPreValidate serverName toolName args clauses) := by
  induction clauses with
  | nil => exact made_pure _
  | cons clause rest ih =>
    refine made_bind (made_orFail fun _ => ordinary_extractClauseValues) fun values => ?_
    exact made_bind (made_preValidateValues _ _ _ values) fun _ => ih

@[simp] theorem made_callClient (serverName serverUri toolName : String) (args : Value) (rsid : Option String) :
    Made Step (callClient serverName serverUri toolName args rsid) := by
  refine made_bind (made_reads _) fun client => ?_
  cases client with
  | none => exact made_denied _ _ _
  | some client => exact made_bind (made_perform _ _) fun answer => made_concluded (by simp) answer _ _ _ _

@[simp] theorem made_mcpAllowed (serverName toolName : String) (args : Value) (rsid : Option String) :
    Made Step (mcpAllowed serverName toolName args rsid) := by
  refine made_bind (made_reads _) fun grant => ?_
  cases grant with
  | none => exact made_denied _ _ _
  | some grant => simp [dispatchMcp]

variable [Identity]

@[simp] theorem made_rebind : Made Step rebind := by
  refine made_bind made_computeLiveDigests fun live => ?_
  refine made_bind (made_reads _) fun certPem => ?_
  refine made_bind made_utcNow fun now => ?_
  refine made_bind (made_orFail (by simp)) fun found => ?_
  cases found with
  | none => exact made_pure _
  | some mismatch => exact made_bind (made_emit (by simp) _ _ _) fun _ => made_deny (by simp)

theorem made_mediateGated {α : Type} {g : Gated α} (decides : Made Step g.decision) (locates : Made Step g.resourceUri)
    (rsid : Option String) : Made Step (mediateGated g rsid) := by
  refine made_bind made_rebind fun _ => ?_
  refine made_bind decides fun decision => ?_
  refine made_bind locates fun resourceUri => ?_
  exact made_bind (made_routeThroughApproval _ _ _) fun decision => made_settle _ _ _ decision

theorem made_mediateMcpToolCall (serverName toolName : String) (args : Value) (rsid : Option String) :
    Made Step (mediateMcpToolCall serverName toolName args rsid) := by
  refine made_bind made_rebind fun _ => ?_
  refine made_bind (made_reads _) fun decision => ?_
  cases decision with
  | Allow => exact made_mcpAllowed _ _ _ _
  | Deny reason => exact made_denied _ _ _
  | RequireApproval reason => exact made_deny (by simp)

theorem made_mediateNetworkConnect (host : String) (port : UInt16) (proto : NetworkProto) (rsid : Option String) :
    Made Step (mediateNetworkConnect host port proto rsid) := by
  refine made_bind made_rebind fun _ => ?_
  refine made_bind (made_reads _) fun initial => ?_
  refine .Bind (made_attempt _ (made_routeThroughApproval _ _ _)) fun routed s done => made_finishConnect _ _ _ _ _ ?_
  rintro error rfl
  obtain ⟨stop,caught,stops⟩ := runs_attempt_error.mp (runs_of_result done)
  exact caught_ordinary caught (allowed_made (made_routeThroughApproval _ _ _) stops)

/-- Every route of a dispatch is made of steps. -/
theorem made_runRoute (args : Value) (rsid : Option String) (route : Route) : Made Step (runRoute args rsid route) := by
  cases route with
  | Filesystem toolName =>
    refine made_bind (made_orFail fun _ => ordinary_pathArg) fun path => ?_
    split_ifs
    · exact made_bind (made_mediateGated (made_reads _) (made_fileUri path) rsid) fun _ => made_pure _
    · refine made_bind (made_orFail fun _ => ordinary_pathArg) fun contents => ?_
      exact made_bind (made_mediateGated (made_writeDecisionNow path) (made_fileUri path) rsid) fun _ => made_pure _
    · exact made_bind (made_mediateGated (made_deleteDecisionNow path) (made_fileUri path) rsid) fun _ => made_pure _
    · exact made_deny (by simp)
  | Network toolName =>
    rw [runRoute,dispatchNativeNetwork]
    split_ifs
    · refine made_bind (made_orFail fun _ => ordinary_pathArg) fun host => ?_
      refine made_bind (made_orFail fun _ => ordinary_u16Arg) fun port => ?_
      refine made_bind (made_orFail fun _ => ordinary_protocolOf) fun proto => ?_
      exact made_bind (made_mediateNetworkConnect _ _ _ _) fun _ => made_pure _
    · exact made_deny (by simp)
  | Exec toolName =>
    rw [runRoute,dispatchNativeExec]
    split_ifs
    · refine made_bind (made_orFail fun _ => ordinary_pathArg) fun program => ?_
      exact made_bind (made_mediateGated (made_reads _) (made_pure _) rsid) fun _ => made_pure _
    · exact made_deny (by simp)
  | Mcp serverName toolName => exact made_mediateMcpToolCall _ _ _ _

@[simp] theorem made_dispatchToolCall (call : Backend.ToolCall) (rsid : Option String) :
    Made Step (dispatchToolCall call rsid) := by
  unfold dispatchToolCall
  cases routeOf call.name with
  | none => exact made_pure _
  | some route =>
    refine .Bind (made_attempt _ (made_runRoute _ _ route)) fun dispatched s done => ?_
    refine made_bind ?_ fun _ => made_pure _
    unfold toolCallResult
    split
    · exact made_pure _
    · exact made_pure _
    · exact made_pure _
    · exact made_pure _
    · obtain ⟨stop,caught,stops⟩ := runs_attempt_error.mp (runs_of_result done)
      exact made_deny (caught_ordinary caught (allowed_made (made_runRoute _ _ route) stops))

/-! ### Dispatch -/

theorem callOf_stepOf {args : Value} {rsid : Option String} {route : Route} {call : Call}
    (called : callOf args rsid route = .ok call) : stepOf call = rsid := by
  cases route with
  | Filesystem toolName =>
    rw [callOf] at called
    cases path : pathArg args "path" with
    | error error =>
      rw [path] at called
      cases called
    | ok path =>
      rw [path] at called
      dsimp only at called
      split_ifs at called
      · cases called
        rfl
      · cases contents : stringArg args "contents" with
        | error error =>
          rw [contents] at called
          cases called
        | ok contents =>
          rw [contents] at called
          cases called
          rfl
      · cases called
        rfl
  | Network toolName =>
    rw [callOf] at called
    split_ifs at called
    split at called
    · cases called
    · cases called
    · cases called
    · cases called
      rfl
  | Exec toolName =>
    rw [callOf] at called
    split_ifs at called
    cases program : pathArg args "program" with
    | error error =>
      rw [program] at called
      cases called
    | ok program =>
      rw [program] at called
      cases called
      rfl
  | Mcp serverName toolName =>
    cases called
    rfl

theorem respects_alike {α β : Type} {R : Session → List Event → Session → Prop} {p : Run α} {q : Run β} (alike : Alike p q)
    (inner : Respects R q) : Respects R p := by
  intro s
  rw [(alike s).1,(alike s).2.1]
  exact inner s

/-- What holds along the calls with the reasoning step holds along a dispatch. -/
theorem respects_dispatchToolCall {R : Session → List Event → Session → Prop} (composes : Composes R) {rsid : Option String}
    (each : ∀ call,stepOf call = rsid → Respects R (mediate call)) (call : Backend.ToolCall) :
    Respects R (dispatchToolCall call rsid) := by
  unfold dispatchToolCall
  cases routeOf call.name with
  | none => exact respects_pure composes _
  | some route =>
    refine respects_bind composes (respects_attempt (respects_alike (runRoute_alike _ _ route) ?_)) fun dispatched => ?_
    · unfold mediated
      cases called : callOf call.arguments rsid route with
      | error error => exact respects_fail composes _
      | ok other => exact each other (callOf_stepOf called)
    · refine respects_bind composes ?_ fun _ => respects_pure composes _
      unfold toolCallResult
      split <;> first | exact respects_pure composes _ | exact respects_fail composes _

end

end

end AegisNode.Chronicle
