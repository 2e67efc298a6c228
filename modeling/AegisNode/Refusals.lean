import AegisNode.Audit
import AegisNode.Turn

/-!
Refused tool calls: why a dispatch answers with a refusal, and what the ledger holds
about it then.
-/
namespace AegisNode.Refusals
open Clock Json Schema Policy Grants Aggregate Traced Engine Mediator Frames Entries Audit Turn
open Ledger hiding Error
set_option linter.unusedSectionVars false

/-! ### Explanations -/

def breachReason (breach : AggregateCapExceeded) : String :=
  "aggregate cap exceeded for " ++ breach.toolClass.label ++ ": " ++ toString breach.observed.toNat ++ "/" ++
    toString breach.cap.toNat ++ " " ++ breach.bound

/-- The entries that record a refusal, with the reason it is reported for. -/
inductive Refusal (rsid : Option String) (about : String → String → Prop) :
    String → EntryType → List (String × Scalar) → Prop where
  | Denial {uri kind : String} (reason : String) (own : about uri kind) :
      Refusal rsid about reason .Violation (denialFields reason (some uri) (some kind))
  | Breach {uri kind : String} (breach : AggregateCapExceeded) (own : about uri kind) :
      Refusal rsid about (breachReason breach) .Violation (breachFields breach uri kind)
  | Rejected (reason decidedAt : String) :
      Refusal rsid about ("approval rejected: " ++ reason) .ApprovalRejected (rejectedFields reason decidedAt rsid)
  | TimedOut (expiredAt : String) : Refusal rsid about "approval timed out" .ApprovalTimedOut (timedOutFields expiredAt rsid)
  | Consumed {op : Operation} {grant : ApprovalGrant} {reason : String} (own : about op.resourceUri op.accessKind)
      (denied : grant.decision = .Deny reason) :
      Refusal rsid about ("approval grant denied: " ++ reason) .ApprovalDecision (consumedFields op rsid grant)

/-- The refusal is in the ledger. -/
def RefusalIn (rsid : Option String) (about : String → String → Prop) (reason : String) (events : List Event) : Prop :=
  ∃ entry record fields,.Append entry (.ok (.ok record)) ∈ events ∧ entry.payload = payloadOf fields ∧
    Refusal rsid about reason entry.entryType fields

/-- Why an operation was refused: a refusal is in the ledger, with an entry that names
    the operation, or the MCP client or the approval channel failed. -/
inductive Explained (rsid : Option String) (about : String → String → Prop) (client : Option McpClient) (reason : String)
    (events : List Event) : Prop where
  | Recorded (refused : RefusalIn rsid about reason events) (named : ∃ uri kind,about uri kind ∧ Entered events uri kind)
  | ClientFailed {c : McpClient} {tick : Nat} {serverName serverUri toolName error : String} {args : Value}
      (attached : client = some c) (called : .Performed tick (.CallTool serverName serverUri toolName args) ∈ events)
      (failed : c.callTool tick serverUri toolName args = .error error) (reported : reason = "mcp client: " ++ error)
  | ChannelFailed {request : ApprovalRequest} {error : String} (asked : .Approval request (.error error) ∈ events)
      (reported : reason = "approval channel: " ++ error)

section
variable {rsid : Option String} {about : String → String → Prop} {client : Option McpClient} {reason : String}
  {events more : List Event}

theorem RefusalIn.mono (refused : RefusalIn rsid about reason events) (inside : events ⊆ more) :
    RefusalIn rsid about reason more := by
  obtain ⟨entry,record,fields,member,rest⟩ := refused
  exact ⟨entry,record,fields,inside member,rest⟩

theorem Explained.mono (explained : Explained rsid about client reason events) (inside : events ⊆ more) :
    Explained rsid about client reason more := by
  cases explained with
  | Recorded refused named =>
    obtain ⟨uri,kind,own,entered⟩ := named
    exact .Recorded (refused.mono inside) ⟨uri,kind,own,entered.mono inside⟩
  | ClientFailed attached called failed reported => exact .ClientFailed attached (inside called) failed reported
  | ChannelFailed asked reported => exact .ChannelFailed (inside asked) reported

end

/-! ### Parts of a call -/

/-- Nothing is written, and the client stays. -/
def Quietly (a : Session) (events : List Event) (b : Session) : Prop :=
  b.mcpClient = a.mcpClient ∧ ∀ e ∈ events,Unwritten e

/-- A denial is explained; nothing is written before a request for approval. -/
def Answers (rsid : Option String) (about : String → String → Prop) (e : Stop) (s : Session) (events : List Event)
    (_ : Session) : Prop :=
  (∀ reason,e = .Err (.Denied reason) → Explained rsid about s.mcpClient reason events) ∧
    ∀ reason,e = .Err (.RequireApproval reason) → ∀ x ∈ events,Unwritten x

/-- Whenever the part fails, it answers. -/
structure Fails {α : Type} (rsid : Option String) (about : String → String → Prop) (p : Run α) : Prop where
  stops : ∀ {s t : Session} {e : Stop} {events : List Event},Stops p s e t events → Answers rsid about e s events t

/-- Not a refusal. -/
def Other (error : Error) : Prop := (∀ reason,error ≠ .Denied reason) ∧ ∀ reason,error ≠ .RequireApproval reason

section
variable {rsid : Option String} {about : String → String → Prop}

theorem answers_other {error : Error} (other : Other error) (s t : Session) (events : List Event) :
    Answers rsid about (.Err error) s events t := by
  refine ⟨?_,?_⟩
  · intro reason same
    cases same
    exact (other.1 reason rfl).elim
  · intro reason same
    cases same
    exact (other.2 reason rfl).elim

theorem answers_panic (panic : Panic) (s t : Session) (events : List Event) :
    Answers rsid about (.Panic panic) s events t := by
  refine ⟨?_,?_⟩ <;> intro reason same <;> cases same

theorem answering : Endings Quietly (Answers rsid about) where
  idle s := ⟨rfl,by simp⟩
  append first second := ⟨second.1.trans first.1,List.forall_mem_append.mpr ⟨first.2,second.2⟩⟩
  late := by
    intro e a b c left right first second
    refine ⟨?_,?_⟩
    · intro reason same
      have explained := second.1 reason same
      rw [first.1] at explained
      exact explained.mono (List.subset_append_right _ _)
    · intro reason same
      exact List.forall_mem_append.mpr ⟨first.2,second.2 reason same⟩

/-- The parts of a call that write nothing when they succeed. -/
abbrev Quiets {α : Type} (rsid : Option String) (about : String → String → Prop) (p : Run α) : Prop :=
  Ends Quietly (Answers rsid about) p

theorem quiets_pure {α : Type} (a : α) : Quiets rsid about (pure a : Run α) := ends_pure answering a

theorem quiets_reads {α : Type} (f : Session → α) : Quiets rsid about (reads f : Run α) := ends_reads answering f

theorem quiets_bind {α β : Type} {p : Run α} {f : α → Run β} (first : Quiets rsid about p)
    (later : ∀ a,Quiets rsid about (f a)) : Quiets rsid about (p >>= f) := ends_bind answering first later

theorem quiets_ask {α : Type} {answer : Nat → α} {event : α → List Event} (unwritten : ∀ a,∀ e ∈ event a,Unwritten e) :
    Quiets rsid about (ask answer event) := ends_ask fun _ a => ⟨rfl,unwritten a⟩

theorem quiets_orFail {ε α : Type} {wrap : ε → Error} {result : Except ε α}
    (other : ∀ error,result = .error error → Other (wrap error)) : Quiets rsid about (orFail wrap result) :=
  ends_orFail answering fun error same s => answers_other (other error same) s s []

theorem quiets_orPanic {α : Type} (result : Checked α) : Quiets rsid about (orPanic result) := by
  refine ends_ofExcept answering fun e same s => ?_
  cases result with
  | ok a => cases same
  | error panic =>
    cases same
    exact answers_panic panic s s []

theorem quiets_failing {α : Type} {p : Run α} (fails : Fails rsid about p) (stops : ∀ s a t events,¬ Runs p s a t events) :
    Quiets rsid about p where
  runs run := (stops _ _ _ _ run).elim
  stops := fails.stops

theorem fails_bind {α β : Type} {p : Run α} {f : α → Run β} (first : Quiets rsid about p)
    (later : ∀ {s t : Session} {a : α} {events : List Event},Runs p s a t events → Fails rsid about (f a)) :
    Fails rsid about (p >>= f) where
  stops stop := by
    rcases stops_bind.mp stop with one | ⟨a,m,left,right,one,two,rfl⟩
    · exact first.stops one
    · exact answering.late (first.runs one) ((later one).stops two)

theorem fails_pure {α : Type} (a : α) : Fails rsid about (pure a : Run α) :=
  ⟨fun stop => (stops_pure stop).elim⟩

theorem fails_deny {α : Type} {error : Error} (other : Other error) : Fails rsid about (deny error : Run α) where
  stops stop := by
    obtain ⟨rfl,-,-⟩ := stops_deny.mp stop
    exact answers_other other _ _ _

/-- An operation that is left to be approved writes nothing. -/
theorem fails_unapproved {α : Type} (reason : String) : Fails rsid about (deny (.RequireApproval reason) : Run α) where
  stops stop := by
    obtain ⟨rfl,-,rfl⟩ := stops_deny.mp stop
    refine ⟨?_,by simp⟩
    intro reason same
    cases same

end

section
variable [Chrono] [Serde] [Sha256] [World] {rsid : Option String} {about : String → String → Prop}

/-! ### Entries about refusals -/

/-- One entry was appended. -/
def Wrote (entryType : EntryType) (fields : Int → List (String × Scalar)) (a : Session) (events : List Event) (b : Session) :
    Prop := b.mcpClient = a.mcpClient ∧ ∃ now entry record,events = [.UtcNow now,.Append entry (.ok (.ok record))] ∧
  entry.entryType = entryType ∧ entry.payload = payloadOf (fields now)

theorem emit_writes {wrap : Ledger.Error → Error} (other : ∀ error,Other (wrap error)) {entryType : EntryType}
    (fields : Int → List (String × Scalar)) :
    Ends (Wrote entryType fields) (Answers rsid about)
      (utcNow >>= fun now => emit wrap entryType now (payloadOf (fields now))) where
  runs run := by
    rw [utcNow,runs_ask_bind] at run
    obtain ⟨rest,run,rfl⟩ := run
    obtain ⟨record,ledger,-,rfl,rfl⟩ := runs_emit.mp run
    exact ⟨rfl,_,_,record,rfl,rfl,rfl⟩
  stops stop := by
    rw [utcNow,stops_ask_bind] at stop
    obtain ⟨rest,stop,rfl⟩ := stop
    obtain ⟨result,ledger,-,stopped,rfl,rfl⟩ := stops_emit.mp stop
    rcases result with panic | error | record
    · cases stopped
      exact answers_panic panic _ _ _
    · cases stopped
      exact answers_other (other error) _ _ _
    · cases stopped

theorem other_ledger (error : Ledger.Error) : Other (.Ledger error) := ⟨by simp,by simp⟩

theorem other_policy (error : PolicyError) : Other (.Policy error) := ⟨by simp,by simp⟩

theorem other_accessLog (error : AccessLogError) : Other (.AccessLog error) := ⟨by simp,by simp⟩

theorem other_io (error : IoError) : Other (.Io error) := ⟨by simp,by simp⟩

theorem Wrote.refusal {entryType : EntryType} {fields : Int → List (String × Scalar)} {a b : Session} {events : List Event}
    {reason : String} (wrote : Wrote entryType fields a events b)
    (refusal : ∀ now,Refusal rsid about reason entryType (fields now)) : RefusalIn rsid about reason events := by
  obtain ⟨-,now,entry,record,rfl,kind,payload⟩ := wrote
  exact ⟨entry,record,fields now,by simp,payload,kind ▸ refusal now⟩

theorem Wrote.named {entryType : EntryType} {fields : Int → List (String × Scalar)} {a b : Session} {events : List Event}
    {uri kind : String} (wrote : Wrote entryType fields a events b)
    (resource : ∀ now,fieldOf (fields now) "resourceUri" = some (.String uri))
    (access : ∀ now,fieldOf (fields now) "accessType" = some (.String kind)) : Entered events uri kind := by
  obtain ⟨-,now,entry,record,rfl,-,payload⟩ := wrote
  refine ⟨entry,record,by simp,?_⟩
  rw [Names,payload,get_payloadOf,get_payloadOf]
  exact ⟨resource now,access now⟩

/-- The refusal is written down, and then reported. -/
theorem fails_refused {α : Type} {p : Run Unit} {rest : Run α} {entryType : EntryType}
    {fields : Int → List (String × Scalar)} {uri kind reason : String}
    (writes : Ends (Wrote entryType fields) (Answers rsid about) p) (own : about uri kind)
    (refusal : ∀ now,Refusal rsid about reason entryType (fields now))
    (resource : ∀ now,fieldOf (fields now) "resourceUri" = some (.String uri))
    (access : ∀ now,fieldOf (fields now) "accessType" = some (.String kind))
    (reports : ∀ {s t : Session} {e : Stop} {events : List Event},Stops rest s e t events → e = .Err (.Denied reason)) :
    Fails rsid about (p >>= fun _ => rest) := by
  refine ⟨fun {s t e events} stops => ?_⟩
  rcases stops_bind.mp stops with one | ⟨u,m,left,right,one,two,rfl⟩
  · exact writes.stops one
  · have wrote := writes.runs one
    rw [reports two]
    refine ⟨?_,?_⟩
    · intro reason same
      cases same
      have inside : left ⊆ left ++ right := List.subset_append_left _ _
      exact .Recorded ((wrote.refusal refusal).mono inside) ⟨uri,kind,own,(wrote.named resource access).mono inside⟩
    · intro reason same
      cases same

theorem deny_reports {α : Type} {error : Error} {s t : Session} {e : Stop} {events : List Event}
    (stop : Stops (deny error : Run α) s e t events) : e = .Err error := (stops_deny.mp stop).1

theorem fails_denial {α : Type} {resourceUri accessKind : String} (own : about resourceUri accessKind) (reason : String) :
    Fails rsid about (do
      emitDeny resourceUri accessKind reason
      (deny (.Denied reason) : Run α)) :=
  fails_refused (p := emitDeny resourceUri accessKind reason)
    (emit_writes (fun _ => other_policy _) fun _ => denialFields reason (some resourceUri) (some accessKind)) own
    (fun _ => .Denial reason own) (fun _ => rfl) (fun _ => rfl) deny_reports

theorem quiets_enforceAggregateQuota {resourceUri accessKind : String} (own : about resourceUri accessKind)
    (toolClass : ToolClass) : Quiets rsid about (enforceAggregateQuota toolClass resourceUri accessKind) := by
  refine quiets_bind (quiets_reads _) fun quota => ?_
  refine quiets_bind (quiets_reads _) fun state => ?_
  cases checkAndIncrement state toolClass quota with
  | ok counted => exact ends_update fun s => ⟨rfl,by simp⟩
  | error breach =>
    refine quiets_failing ?_ ?_
    · exact fails_refused (p := writeAggregateCapViolation breach resourceUri accessKind)
        (emit_writes other_ledger fun _ => breachFields breach resourceUri accessKind) own
        (fun _ => .Breach breach own) (fun _ => rfl) (fun _ => rfl) deny_reports
    · intro s a t events run
      obtain ⟨_,_,_,_,-,stopped,-⟩ := runs_bind.mp run
      exact runs_deny stopped

/-! ### Approvals -/

theorem quiets_storeGrant (op : Operation) (ttlSecs : Nat) (decision : GrantDecision) :
    Quiets rsid about (storeGrant op ttlSecs decision) := by
  refine quiets_bind (quiets_ask (by simp)) fun grantId => ?_
  refine quiets_bind (quiets_ask (by simp [Unwritten])) fun issuedAt => ?_
  exact quiets_bind (ends_update fun s => ⟨rfl,by simp⟩) fun _ => quiets_pure _

/-- A cached answer is an allowance, or a denial that its entry records. -/
theorem fails_autoConsume {op : Operation} (own : about op.resourceUri op.accessKind) (grant : ApprovalGrant) :
    Fails rsid about (autoConsume op rsid grant) := by
  have writes : Ends (Wrote .ApprovalDecision fun _ => consumedFields op rsid grant) (Answers rsid about)
      (emitApprovalDecisionAutoConsumed op rsid grant) := emit_writes other_ledger _
  have resource : fieldOf (consumedFields op rsid grant) "resourceUri" = some (.String op.resourceUri) := by
    unfold consumedFields decisionFields fieldOf Engine.optional
    cases rsid <;> cases cachedReason grant.decision <;> simp [Scalar.value]
  have access : fieldOf (consumedFields op rsid grant) "accessType" = some (.String op.accessKind) := by
    unfold consumedFields decisionFields fieldOf Engine.optional
    cases rsid <;> cases cachedReason grant.decision <;> simp [Scalar.value]
  have refused : ∀ {reason : String},grant.decision = .Deny reason → Fails rsid about (do
      emitApprovalDecisionAutoConsumed op rsid grant
      (deny (.Denied ("approval grant denied: " ++ reason)) : Run Decision)) :=
    fun denied => fails_refused writes own (fun _ => .Consumed own denied) (fun _ => resource) (fun _ => access) deny_reports
  rw [autoConsume]
  cases denied : grant.decision with
  | Allow =>
    refine ⟨fun stops => ?_⟩
    rcases stops_bind.mp stops with one | ⟨_,_,_,_,-,two,-⟩
    · exact writes.stops one
    · exact (stops_pure two).elim
  | Deny reason => exact refused denied

/-- A denial by the operator is recorded, and so is a timeout. -/
theorem takeOutcome_denied (about : String → String → Prop) {op : Operation} {ttlSecs : Nat} {req : ApprovalRequest} (step : req.reasoningStepId = rsid)
    {outcome : ApprovalOutcome} {s t : Session} {e : Stop} {events : List Event}
    (stops : Stops (takeOutcome op rsid ttlSecs req outcome) s e t events) :
    (∀ reason,e = .Err (.Denied reason) → RefusalIn rsid about reason events) ∧
      ∀ reason,e ≠ .Err (.RequireApproval reason) := by
  subst step
  have lost : ∀ {entryType : EntryType} (fields : Int → List (String × Scalar)) {s t : Session} {e : Stop} {events : List Event},
      Stops (utcNow >>= fun now => emit .Ledger entryType now (payloadOf (fields now))) s e t events →
      (∀ reason,e = .Err (.Denied reason) → RefusalIn req.reasoningStepId about reason events) ∧
        ∀ reason,e ≠ .Err (.RequireApproval reason) := by
    intro entryType fields s t e events stop
    rw [utcNow,stops_ask_bind] at stop
    obtain ⟨rest,stop,rfl⟩ := stop
    obtain ⟨result,ledger,-,stopped,rfl,rfl⟩ := stops_emit.mp stop
    rcases result with panic | error | record
    · cases stopped
      simp
    · cases stopped
      simp
    · cases stopped
  have stored : ∀ {decision : GrantDecision} {s t : Session} {e : Stop} {events : List Event},
      ¬ Stops (storeGrant op ttlSecs decision) s e t events := by
    intro decision s t e events stop
    cases stop
  cases outcome with
  | Granted approver decidedAt =>
    rcases stops_bind.mp stops with one | ⟨_,_,_,_,-,two,rfl⟩
    · exact lost (fun _ => grantedFields approver (Chrono.rfc3339 decidedAt) req.reasoningStepId) one
    rcases stops_bind.mp two with one | ⟨grant,_,_,_,-,three,rfl⟩
    · exact (stored one).elim
    rcases stops_bind.mp three with one | ⟨_,_,_,_,-,last,-⟩
    · obtain ⟨denied,unapproved⟩ :=
        lost (fun _ => issuedFields op req.reasoningStepId grant approver ttlSecs) one
      refine ⟨?_,unapproved⟩
      intro reason same
      refine ((denied reason same).mono ?_).mono (List.subset_append_right _ _)
      exact List.subset_append_right _ _
    · exact (stops_pure last).elim
  | Rejected reason decidedAt =>
    rcases stops_bind.mp stops with one | ⟨_,_,_,_,one,two,rfl⟩
    · exact lost (fun _ => rejectedFields reason (Chrono.rfc3339 decidedAt) req.reasoningStepId) one
    rcases stops_bind.mp two with stop | ⟨_,_,_,_,-,last,rfl⟩
    · exact (stored stop).elim
    obtain ⟨rfl,-,rfl⟩ := stops_deny.mp last
    refine ⟨?_,by simp⟩
    intro reason same
    cases same
    have writes : Ends (Wrote .ApprovalRejected _) (Answers req.reasoningStepId about) _ :=
      emit_writes other_ledger fun _ => rejectedFields reason (Chrono.rfc3339 decidedAt) req.reasoningStepId
    have wrote := writes.runs one
    exact (wrote.refusal fun _ => .Rejected _ _).mono (List.subset_append_left _ _)
  | TimedOut expiredAt =>
    rcases stops_bind.mp stops with one | ⟨_,_,_,_,one,last,rfl⟩
    · exact lost (fun _ => timedOutFields (Chrono.rfc3339 expiredAt) req.reasoningStepId) one
    obtain ⟨rfl,-,rfl⟩ := stops_deny.mp last
    refine ⟨?_,by simp⟩
    intro reason same
    cases same
    have writes : Ends (Wrote .ApprovalTimedOut _) (Answers req.reasoningStepId about) _ :=
      emit_writes other_ledger fun _ => timedOutFields (Chrono.rfc3339 expiredAt) req.reasoningStepId
    have wrote := writes.runs one
    exact (wrote.refusal fun _ => .TimedOut _).mono (List.subset_append_left _ _)

/-- The request names the operation, the answer says why it is refused. -/
theorem fails_askOperator {op : Operation} (own : about op.resourceUri op.accessKind) (summary : String) (ttlSecs : Nat)
    (channel : ApprovalChannel) : Fails rsid about (askOperator op rsid summary ttlSecs channel) := by
  refine ⟨fun {s t e events} stops => ?_⟩
  rw [askOperator,stops_reads_bind] at stops
  rcases stops_bind.mp stops with one | ⟨_,m,left,right,requested,two,rfl⟩
  · rw [emitApprovalRequest,utcNow,stops_ask_bind] at one
    obtain ⟨rest,one,rfl⟩ := one
    have writes : Ends (Wrote .ApprovalRequest _) (Answers rsid about) _ :=
      emit_writes other_ledger fun _ => requestFields (requestFor s op rsid summary)
        (Chrono.rfc3339 (World.utcNow s.tick+(requestFor s op rsid summary).timeout*second))
    exact answering.late (b := s.next) ⟨rfl,by simp [Unwritten]⟩ (writes.stops one)
  have named : Entered (left ++ right) op.resourceUri op.accessKind :=
    (emitApprovalRequest_entered requested).mono (List.subset_append_left _ _)
  rw [stops_ask_bind] at two
  obtain ⟨rest,two,rfl⟩ := two
  rcases stops_orFail_bind.mp two with ⟨error,answer,rfl,rfl,rfl⟩ | ⟨outcome,-,taken⟩
  · refine ⟨?_,?_⟩
    · intro reason same
      cases same
      have asked : .Approval (requestFor s op rsid summary) (.error error) ∈ left ++
          ([.Approval (requestFor s op rsid summary) (channel.requestApproval m.tick (requestFor s op rsid summary))] ++ []) := by
        simp [answer]
      exact .ChannelFailed asked rfl
    · intro reason same
      cases same
  · obtain ⟨denied,unapproved⟩ := takeOutcome_denied about rfl taken
    refine ⟨?_,?_⟩
    · intro reason same
      refine .Recorded ((denied reason same).mono ?_) ⟨_,_,own,named⟩
      exact fun _ member => List.mem_append_right _ (List.mem_append_right _ member)
    · intro reason same
      exact (unapproved reason same).elim

theorem fails_approve {op : Operation} (own : about op.resourceUri op.accessKind) (summary : String) :
    Fails rsid about (approve op rsid summary) := by
  refine fails_bind (quiets_reads _) fun {_ _} tier _ _ => ?_
  refine fails_bind (quiets_reads _) fun {_ _} ttlSecs _ _ => ?_
  split_ifs
  · refine ⟨fun stops => ?_⟩
    rcases stops_bind.mp stops with one | ⟨_,_,_,_,-,two,-⟩
    · exact (emit_writes other_ledger fun _ => advisoryFields op rsid).stops one
    · exact (stops_pure two).elim
  refine fails_bind (quiets_ask (by simp [Unwritten])) fun {_ _} now _ _ => ?_
  refine fails_bind (quiets_reads _) fun {_ _} grant _ _ => ?_
  cases grant with
  | some grant => exact fails_autoConsume own grant
  | none =>
    refine fails_bind (quiets_reads _) fun {_ _} channel _ _ => ?_
    cases channel with
    | none => exact fails_pure _
    | some channel => exact fails_askOperator own summary ttlSecs channel

theorem takeOutcome_allows {op : Operation} {ttlSecs : Nat} {req : ApprovalRequest} {outcome : ApprovalOutcome}
    {s t : Session} {decision : Decision} {events : List Event}
    (runs : Runs (takeOutcome op rsid ttlSecs req outcome) s decision t events) : decision = .Allow := by
  cases outcome with
  | Granted approver decidedAt =>
    obtain ⟨_,_,_,_,-,runs,-⟩ := runs_bind.mp runs
    obtain ⟨_,_,_,_,-,runs,-⟩ := runs_bind.mp runs
    obtain ⟨_,_,_,_,-,runs,-⟩ := runs_bind.mp runs
    exact (runs_pure.mp runs).1
  | Rejected reason decidedAt =>
    obtain ⟨_,_,_,_,-,runs,-⟩ := runs_bind.mp runs
    obtain ⟨_,_,_,_,-,runs,-⟩ := runs_bind.mp runs
    exact (runs_deny runs).elim
  | TimedOut expiredAt =>
    obtain ⟨_,_,_,_,-,runs,-⟩ := runs_bind.mp runs
    exact (runs_deny runs).elim

/-- An approval allows, or leaves nothing written. -/
theorem approve_unwritten {op : Operation} {summary : String} {s t : Session} {decision : Decision} {events : List Event}
    (runs : Runs (approve op rsid summary) s decision t events) : decision = .Allow ∨ ∀ e ∈ events,Unwritten e := by
  rw [approve,runs_reads_bind,runs_reads_bind] at runs
  split_ifs at runs
  · obtain ⟨_,_,_,_,-,runs,-⟩ := runs_bind.mp runs
    exact .inl (runs_pure.mp runs).1
  rw [systemNow,runs_ask_bind] at runs
  obtain ⟨rest,runs,rfl⟩ := runs
  rw [runs_reads_bind,Session.next_grantTable] at runs
  cases found : lookup s.grantTable op.toolName op.canonicalArgs (World.systemNow s.tick) with
  | some grant =>
    left
    rw [found] at runs
    obtain ⟨_,_,_,_,-,runs,-⟩ := runs_bind.mp runs
    cases decided : grant.decision with
    | Allow =>
      rw [decided] at runs
      exact (runs_pure.mp runs).1
    | Deny reason =>
      rw [decided] at runs
      exact (runs_deny runs).elim
  | none =>
    rw [found,consult,runs_reads_bind] at runs
    cases attached : s.next.approvalChannel with
    | none =>
      rw [attached] at runs
      obtain ⟨-,-,rfl⟩ := runs_pure.mp runs
      right
      simp [Unwritten]
    | some channel =>
      left
      rw [attached,askAttached,askOperator,runs_reads_bind] at runs
      obtain ⟨_,_,_,_,-,runs,-⟩ := runs_bind.mp runs
      rw [runs_ask_bind] at runs
      obtain ⟨_,runs,-⟩ := runs
      obtain ⟨outcome,-,runs⟩ := runs_orFail_bind.mp runs
      exact takeOutcome_allows runs

theorem fails_routeThroughApproval (op : Operation) (own : about op.resourceUri op.accessKind) (decision : Decision) :
    Fails rsid about (routeThroughApproval decision op rsid) := by
  cases decision with
  | Allow => exact fails_pure _
  | Deny reason => exact fails_pure _
  | RequireApproval summary => exact fails_approve own summary

/-- What a completed approval hands on: leave to go on, or a decision before which
    nothing was written. -/
theorem routeThroughApproval_hands {decision initial : Decision} {op : Operation} {s t : Session} {events : List Event}
    (runs : Runs (routeThroughApproval initial op rsid) s decision t events) :
    t.mcpClient = s.mcpClient ∧ (decision = .Allow ∨ ∀ e ∈ events,Unwritten e) := by
  refine ⟨?_,?_⟩
  · rw [(runs.respects (routes_routeThroughApproval _ _ _)).same]
  · cases initial with
    | Allow => exact .inl (runs_pure.mp runs).1
    | Deny reason =>
      obtain ⟨-,-,rfl⟩ := runs_pure.mp runs
      right
      simp
    | RequireApproval summary => exact approve_unwritten runs

/-! ### Calls -/

/-- Not a refusal, and not a request for approval. -/
def Unrefused (e : Stop) : Prop := ∀ error,e = .Err error → Other error

/-- The parts that cannot refuse. -/
abbrev Unrefusing {α : Type} (p : Run α) : Prop := Ends (fun _ _ _ => True) (fun e _ _ _ => Unrefused e) p

theorem unrefusing : @Endings Session Stop Event (fun _ _ _ => True) (fun e _ _ _ => Unrefused e) :=
  ⟨fun _ => trivial,fun _ _ => trivial,fun _ second => second⟩

theorem unrefused_err {error : Error} (other : Other error) : Unrefused (.Err error) := by
  intro error' same
  cases same
  exact other

theorem unrefused_append {wrap : Ledger.Error → Error} (other : ∀ error,Other (wrap error))
    {result : Checked (Except Ledger.Error EntryRecord)} {e : Stop} (stopped : appendStop wrap result = some e) :
    Unrefused e := by
  match result with
  | .error panic =>
    cases stopped
    intro error same
    cases same
  | .ok (.error error) =>
    cases stopped
    exact unrefused_err (other error)

theorem unrefusing_emit {wrap : Ledger.Error → Error} (other : ∀ error,Other (wrap error)) (entryType : EntryType)
    (timestamp : Int) (payload : Payload) : Unrefusing (emit wrap entryType timestamp payload) :=
  ends_emit (fun _ _ _ => trivial) fun _ _ _ _ stopped => unrefused_append other stopped

theorem unrefusing_ask {α : Type} (answer : Nat → α) (event : α → List Event) : Unrefusing (ask answer event) :=
  ends_ask fun _ _ => trivial

theorem unrefusing_orFail {ε α : Type} {wrap : ε → Error} {result : Except ε α}
    (other : ∀ error,result = .error error → Other (wrap error)) : Unrefusing (orFail wrap result) :=
  ends_orFail unrefusing fun error same _ => unrefused_err (other error same)

theorem unrefusing_emitSuccess (resourceUri : String) (accessType : AccessType) (bytes : UInt64) :
    Unrefusing (emitSuccess resourceUri accessType bytes rsid) := by
  refine ends_bind unrefusing (unrefusing_ask _ _) fun now => ?_
  split_ifs
  · exact ends_fail fun _ => unrefused_err (other_accessLog _)
  · exact unrefusing_emit (fun _ => other_accessLog _) _ _ _

/-- The answer of an effect is reported or recorded. -/
theorem unrefusing_concluded {ε α : Type} (wrap : ε → Error) (answer : Except ε α) (resourceUri : String)
    (accessType : AccessType) (bytes : α → UInt64) (other : ∀ error,answer = .error error → Other (wrap error)) :
    Unrefusing (do
      let value ← orFail wrap answer
      emitSuccess resourceUri accessType (bytes value) rsid
      return value) := by
  refine ends_bind unrefusing (unrefusing_orFail other) fun value => ?_
  exact ends_bind unrefusing (unrefusing_emitSuccess _ _ _) fun _ => ends_pure unrefusing _

theorem fails_of_unrefused {s t : Session} {e : Stop} {events : List Event} (unrefused : Unrefused e) :
    Answers rsid about e s events t := by
  cases e with
  | Err error => exact answers_other (unrefused error rfl) s t events
  | Panic panic => exact answers_panic panic s t events

theorem unrefusing_perform {α : Type} (effect : Effect) (answer : Nat → α) : Unrefusing (perform effect answer) where
  runs _ := trivial
  stops stop := by cases stop

/-- An effect of the operating system does not refuse. -/
theorem unrefusing_effect {α : Type} (effect : Effect) (answer : Nat → Except IoError α) (resourceUri : String)
    (accessType : AccessType) (bytes : α → UInt64) : Unrefusing (do
      let answer ← perform effect answer
      let value ← orFail .Io answer
      emitSuccess resourceUri accessType (bytes value) rsid
      return value) :=
  ends_bind unrefusing (unrefusing_perform _ _) fun _ =>
    unrefusing_concluded _ _ _ _ _ fun error _ => other_io error

theorem fails_settle {α : Type} {g : Gated α} {resourceUri : String} (own : about resourceUri g.accessType.name)
    (decision : Decision) : Fails rsid about (settle g resourceUri rsid decision) := by
  cases decision with
  | Allow =>
    refine fails_bind (quiets_enforceAggregateQuota own _) fun {_ _} _ _ _ => ?_
    exact ⟨fun stop => fails_of_unrefused ((unrefusing_effect _ _ _ _ _).stops stop)⟩
  | Deny reason => exact fails_denial own reason
  | RequireApproval reason => exact fails_unapproved reason

/-- After an approval no request for one is left, unless nothing was written. -/
theorem fails_routed {α : Type} (op : Operation) (own : about op.resourceUri op.accessKind) (initial : Decision)
    {f : Decision → Run α} (later : ∀ decision,Fails rsid about (f decision))
    (allowed : ∀ {s t : Session} {reason : String} {events : List Event},¬ Stops (f .Allow) s (.Err (.RequireApproval reason)) t events) :
    Fails rsid about (routeThroughApproval initial op rsid >>= f) where
  stops {s t e events} stop := by
    rcases stops_bind.mp stop with one | ⟨decision,m,left,right,one,two,rfl⟩
    · exact (fails_routeThroughApproval op own initial).stops one
    obtain ⟨client,handed⟩ := routeThroughApproval_hands one
    have answers := (later decision).stops two
    refine ⟨?_,?_⟩
    · intro reason same
      have explained := answers.1 reason same
      rw [client] at explained
      exact explained.mono (List.subset_append_right _ _)
    · intro reason same
      rcases handed with rfl | unwritten
      · cases same
        exact (allowed two).elim
      · exact List.forall_mem_append.mpr ⟨unwritten,answers.2 reason same⟩

theorem unasked_quota (toolClass : ToolClass) (resourceUri accessKind : String) :
    Ends (fun _ _ _ => True) (fun e _ _ _ => ∀ reason,e ≠ .Err (.RequireApproval reason))
      (enforceAggregateQuota toolClass resourceUri accessKind) := by
  have endings : @Endings Session Stop Event (fun _ _ _ => True)
      (fun e _ _ _ => ∀ reason,e ≠ .Err (.RequireApproval reason)) :=
    ⟨fun _ => trivial,fun _ _ => trivial,fun _ second => second⟩
  refine ends_bind endings (ends_reads endings _) fun quota => ?_
  refine ends_bind endings (ends_reads endings _) fun state => ?_
  cases checkAndIncrement state toolClass quota with
  | ok counted => exact ends_update fun _ => trivial
  | error breach =>
    refine ends_bind endings (ends_bind endings (ends_ask fun _ _ => trivial) fun now => ?_) fun _ => ends_fail (by simp)
    refine ends_emit (fun _ _ _ => trivial) ?_
    intro s result ledger e stopped reason same
    exact (unrefused_append other_ledger stopped _ same).2 reason rfl

variable [Identity]

theorem unrefusing_sha256File (path : String) : Unrefusing (sha256File path) := by
  refine ends_bind unrefusing (unrefusing_ask _ _) fun bytes => ?_
  exact ends_bind unrefusing (unrefusing_orFail fun error _ => other_io error) fun _ => ends_pure unrefusing _

theorem unrefusing_rebind : Unrefusing rebind := by
  refine ends_bind unrefusing ?live fun live => ?_
  case live =>
    refine ends_bind unrefusing (ends_reads unrefusing _) fun modelPath => ?_
    refine ends_bind unrefusing (unrefusing_sha256File _) fun model => ?_
    refine ends_bind unrefusing (ends_reads unrefusing _) fun manifestPath => ?_
    refine ends_bind unrefusing (unrefusing_sha256File _) fun manifest => ?_
    refine ends_bind unrefusing (ends_reads unrefusing _) fun configPath => ?_
    refine ends_bind unrefusing ?_ fun config => ends_pure unrefusing _
    cases configPath with
    | none => exact ends_pure unrefusing _
    | some path => exact unrefusing_sha256File path
  refine ends_bind unrefusing (ends_reads unrefusing _) fun certPem => ?_
  refine ends_bind unrefusing (unrefusing_ask _ _) fun now => ?_
  refine ends_bind unrefusing (unrefusing_orFail fun error _ => other_policy _) fun found => ?_
  cases found with
  | none => exact ends_pure unrefusing _
  | some mismatch =>
    refine ends_bind unrefusing (unrefusing_emit (fun error => other_policy _) _ _ _) fun _ => ?_
    exact ends_fail fun _ => unrefused_err (other_policy _)

theorem quiets_writeDecisionNow (path : String) : Quiets rsid about (writeDecisionNow path) :=
  quiets_bind (quiets_ask (by simp [Unwritten])) fun _ => quiets_bind (quiets_reads _) fun _ => quiets_orPanic _

theorem quiets_deleteDecisionNow (path : String) : Quiets rsid about (deleteDecisionNow path) :=
  quiets_bind (quiets_ask (by simp [Unwritten])) fun _ => quiets_bind (quiets_reads _) fun _ => quiets_orPanic _

theorem quiets_fileUri (path : String) : Quiets rsid about (fileUri path) := by
  unfold fileUri
  split_ifs
  · exact quiets_pure _
  · refine quiets_bind (quiets_ask (by simp)) fun dir => ?_
    cases dir <;> exact quiets_pure _

theorem quiets_rebind : Quiets rsid about rebind where
  runs run := ⟨by rw [(run.respects logs_rebind).same],rebind_unwritten run⟩
  stops stop := fails_of_unrefused (unrefusing_rebind.stops stop)

/-- A part that decides or names and writes nothing. -/
theorem fails_mediateGated {α : Type} {g : Gated α} (decides : Quiets rsid about g.decision)
    (uri : Quiets rsid about g.resourceUri)
    (names : ∀ {s t : Session} {resourceUri : String} {events : List Event},Runs g.resourceUri s resourceUri t events →
      about resourceUri g.accessType.name) : Fails rsid about (mediateGated g rsid) := by
  refine fails_bind quiets_rebind fun {_ _} _ _ _ => ?_
  refine fails_bind decides fun {_ _} initial _ _ => ?_
  refine fails_bind uri fun {_ _} resourceUri _ named => ?_
  refine fails_routed (g.operation resourceUri) (names named) initial (fun decision => fails_settle (names named) decision) ?_
  intro s t reason events stop
  rcases stops_bind.mp stop with one | ⟨_,_,_,_,-,two,-⟩
  · exact (unasked_quota _ _ _).stops one reason rfl
  · exact ((unrefusing_effect _ _ _ _ _).stops two _ rfl).2 reason rfl

/-! ### Connections -/

theorem quiets_logConnection (host : String) (port : UInt16) (proto : NetworkProto) (decision : NetworkConnectionDecision) :
    Quiets rsid about (logConnection host port proto decision) :=
  quiets_bind (quiets_ask (by simp [Unwritten])) fun _ => ends_update fun s => ⟨rfl,by simp⟩

theorem logConnection_reports {host : String} {port : UInt16} {proto : NetworkProto} {decision : NetworkConnectionDecision}
    {error : Error} {s t : Session} {e : Stop} {events : List Event}
    (stop : Stops (do
      logConnection host port proto decision
      (deny error : Run Unit)) s e t events) : e = .Err error ∧ ∀ x ∈ events,Unwritten x := by
  cases stop
  refine ⟨rfl,?_⟩
  intro x member
  have inside : x ∈ [Event.UtcNow (World.utcNow s.tick)] := member
  cases List.mem_singleton.mp inside
  trivial

theorem fails_finishConnect {host : String} {port : UInt16} {proto : NetworkProto}
    (own : about (networkUri host port proto) "network_outbound") (initial decision : Decision) :
    Fails rsid about (finishConnect initial host port proto rsid (.ok decision)) := by
  cases decision with
  | Allow =>
    have connects : Unrefusing (finishConnect initial host port proto rsid (.ok .Allow)) := by
      refine ends_bind unrefusing (unrefusing_perform _ _) fun answer => ?_
      refine ends_bind unrefusing (unrefusing_orFail fun error _ => other_io error) fun _ => ?_
      refine ends_bind unrefusing (unrefusing_emitSuccess _ _ _) fun _ => ?_
      exact ends_bind unrefusing (unrefusing_ask _ _) fun now => ends_update fun _ => trivial
    exact ⟨fun stop => fails_of_unrefused (connects.stops stop)⟩
  | Deny reason =>
    exact fails_refused (p := emitDeny (networkUri host port proto) "network_outbound" reason)
      (emit_writes (fun _ => other_policy _)
        fun _ => denialFields reason (some (networkUri host port proto)) (some "network_outbound")) own (fun _ => .Denial reason own) (fun _ => rfl) (fun _ => rfl)
      fun stop => (logConnection_reports stop).1
  | RequireApproval reason =>
    exact fails_bind (quiets_logConnection _ _ _ _) fun {_ _} _ _ _ => fails_unapproved reason

/-- An allowed connection asks for no approval. -/
theorem finishConnect_unasked {initial : Decision} {host : String} {port : UInt16} {proto : NetworkProto} {s t : Session}
    {reason : String} {events : List Event} :
    ¬ Stops (finishConnect initial host port proto rsid (.ok .Allow)) s (.Err (.RequireApproval reason)) t events := by
  have connects : Unrefusing (finishConnect initial host port proto rsid (.ok .Allow)) := by
    refine ends_bind unrefusing (unrefusing_perform _ _) fun answer => ?_
    refine ends_bind unrefusing (unrefusing_orFail fun error _ => other_io error) fun _ => ?_
    refine ends_bind unrefusing (unrefusing_emitSuccess _ _ _) fun _ => ?_
    exact ends_bind unrefusing (unrefusing_ask _ _) fun now => ends_update fun _ => trivial
  exact fun stop => (connects.stops stop _ rfl).2 reason rfl

theorem fails_mediateNetworkConnect {host : String} {port : UInt16} {proto : NetworkProto}
    (own : about (networkUri host port proto) "network_outbound") :
    Fails rsid about (mediateNetworkConnect host port proto rsid) := by
  refine fails_bind quiets_rebind fun {_ _} _ _ _ => ?_
  refine fails_bind (quiets_reads _) fun {_ _} initial _ _ => ?_
  refine ⟨fun {s t e events} stop => ?_⟩
  rcases stops_bind.mp stop with one | ⟨routed,m,left,right,one,two,rfl⟩
  · obtain ⟨uncaught,-⟩ := stops_attempt.mp one
    cases e with
    | Err error => cases uncaught
    | Panic panic => exact answers_panic panic _ _ _
  cases routed with
  | ok decision =>
    have routes := runs_attempt_ok.mp one
    refine (fails_routed (networkConnect host port proto) own initial
      (f := fun decision => finishConnect initial host port proto rsid (.ok decision))
      (fun decision => fails_finishConnect own initial decision) finishConnect_unasked).stops ?_
    exact routes.continues.stops two
  | error error =>
    obtain ⟨stopped,known,routes⟩ := runs_attempt_error.mp one
    have same : stopped = .Err error := by
      cases stopped with
      | Err other =>
        cases known
        rfl
      | Panic panic => cases known
    rw [same] at routes
    have answers := (fails_routeThroughApproval (networkConnect host port proto) own initial).stops routes
    obtain ⟨rfl,unwritten⟩ := logConnection_reports two
    refine ⟨?_,?_⟩
    · intro reason same
      exact (answers.1 reason same).mono (List.subset_append_left _ _)
    · intro reason same
      exact List.forall_mem_append.mpr ⟨answers.2 reason same,unwritten⟩

/-! ### MCP calls -/

theorem other_malformed (server tool arg reason : String) : Other (.McpPreValidateMalformedArg server tool arg reason) :=
  ⟨by simp,by simp⟩

theorem other_arrayStrings {fault : String → Error} (other : ∀ reason,Other (fault reason)) {items : List Value} {i : Nat}
    {error : Error} (failed : arrayStrings fault i items = .error error) : Other error := by
  induction items generalizing i with
  | nil => cases failed
  | cons elem rest ih =>
    rw [arrayStrings] at failed
    split at failed
    · cases failed
      exact other _
    · cases later : arrayStrings fault (i+1) rest with
      | ok values =>
        rw [later] at failed
        cases failed
      | error error' =>
        rw [later] at failed
        cases failed
        exact ih later

theorem other_extractClauseValues {args : Value} {serverName toolName : String} {clause : PreValidateClause} {error : Error}
    (failed : extractClauseValues args serverName toolName clause = .error error) : Other error := by
  unfold extractClauseValues at failed
  dsimp only at failed
  repeat' split at failed
  all_goals first
    | (cases failed; exact other_malformed _ _ _ _)
    | exact other_arrayStrings (fun reason => other_malformed _ _ _ reason) failed
    | cases failed

theorem other_parsePreValidateUrl {raw serverName toolName argName : String} {error : Error}
    (failed : parsePreValidateUrl raw serverName toolName argName = .error error) : Other error := by
  unfold parsePreValidateUrl at failed
  dsimp only at failed
  repeat' split at failed
  all_goals first
    | (cases failed; exact other_malformed _ _ _ _)
    | cases failed

theorem quiets_clauseDecision (serverName toolName : String) (clause : PreValidateClause) (value : String) :
    Quiets rsid about (clauseDecision serverName toolName clause value) := by
  unfold clauseDecision
  cases clause.kind with
  | FilesystemRead => exact quiets_reads _
  | FilesystemWrite => exact quiets_writeDecisionNow value
  | FilesystemDelete => exact quiets_deleteDecisionNow value
  | NetworkOutbound =>
    exact quiets_bind (quiets_orFail fun error failed => other_parsePreValidateUrl failed) fun _ => quiets_reads _

theorem quiets_preValidateValue {serverName toolName : String} {clause : PreValidateClause} {value : String}
    (own : about (preValidateUri serverName toolName clause value) "mcp_pre_validate") :
    Quiets rsid about (preValidateValue serverName toolName clause value) := by
  refine quiets_bind (quiets_clauseDecision serverName toolName clause value) fun decision => ?_
  cases decision with
  | Allow => exact quiets_pure _
  | Deny reason =>
    refine quiets_failing (fails_denial own reason) ?_
    intro s a t events run
    obtain ⟨_,_,_,_,-,stopped,-⟩ := runs_bind.mp run
    exact runs_deny stopped
  | RequireApproval reason => exact quiets_failing (fails_unapproved reason) fun _ _ _ _ run => runs_deny run

theorem quiets_preValidateValues {serverName toolName : String} {clause : PreValidateClause}
    (own : ∀ value,about (preValidateUri serverName toolName clause value) "mcp_pre_validate") (values : List String) :
    Quiets rsid about (preValidateValues serverName toolName clause values) := by
  induction values with
  | nil => exact quiets_pure _
  | cons value rest ih => exact quiets_bind (quiets_preValidateValue (own value)) fun _ => ih

theorem quiets_runMcpPreValidate {serverName toolName : String}
    (own : ∀ clause value,about (preValidateUri serverName toolName clause value) "mcp_pre_validate") (args : Value)
    (clauses : List PreValidateClause) : Quiets rsid about (runMcpPreValidate serverName toolName args clauses) := by
  induction clauses with
  | nil => exact quiets_pure _
  | cons clause rest ih =>
    refine quiets_bind (quiets_orFail fun error failed => other_extractClauseValues failed) fun values => ?_
    exact quiets_bind (quiets_preValidateValues (own clause) values) fun _ => ih

/-- Without a client the call is denied; a client that fails is reported. -/
theorem fails_callClient {serverName toolName : String} (own : about (mcpUri serverName toolName) "mcp_tool_call")
    (serverUri : String) (args : Value) : Fails rsid about (callClient serverName serverUri toolName args rsid) := by
  refine ⟨fun {s t e events} stop => ?_⟩
  rw [callClient,stops_reads_bind] at stop
  cases attached : s.mcpClient with
  | none =>
    rw [attached] at stop
    exact (fails_denial own _).stops stop
  | some client =>
    rw [attached,callAttached,stops_perform_bind] at stop
    obtain ⟨rest,stop,rfl⟩ := stop
    cases answer : client.callTool s.tick serverUri toolName args with
    | error error =>
      rw [answer] at stop
      rcases stops_orFail_bind.mp stop with ⟨_,same,rfl,-,rfl⟩ | ⟨_,other,-⟩
      · cases same
        refine ⟨?_,?_⟩
        · intro reason same
          cases same
          exact .ClientFailed attached (List.mem_singleton_self _) answer rfl
        · intro reason same
          cases same
      · cases other
    | ok value =>
      rw [answer] at stop
      refine fails_of_unrefused ((unrefusing_concluded _ (.ok value) _ .McpToolCall _ fun error same => ?_).stops stop)
      cases same

theorem fails_mediateMcpToolCall {serverName toolName : String} (own : about (mcpUri serverName toolName) "mcp_tool_call")
    (validated : ∀ clause value,about (preValidateUri serverName toolName clause value) "mcp_pre_validate") (args : Value) :
    Fails rsid about (mediateMcpToolCall serverName toolName args rsid) := by
  refine fails_bind quiets_rebind fun {_ _} _ _ _ => ?_
  refine fails_bind (quiets_reads _) fun {_ _} decision _ _ => ?_
  cases decision with
  | Deny reason => exact fails_denial own reason
  | RequireApproval reason => exact fails_unapproved reason
  | Allow =>
    refine fails_bind (quiets_reads _) fun {_ _} grant _ _ => ?_
    cases grant with
    | none => exact fails_denial own _
    | some grant =>
      refine fails_bind (quiets_runMcpPreValidate validated args _) fun {_ _} _ _ _ => ?_
      refine fails_bind (quiets_enforceAggregateQuota own _) fun {_ _} _ _ _ => ?_
      exact fails_callClient own grant.serverUri args

/-! ### Dispatch -/

theorem fails_value {α : Type} {p : Run α} (fails : Fails rsid about p) : Fails rsid about (do let _ ← p) where
  stops stop := by
    rcases stops_bind.mp stop with one | ⟨_,_,_,_,-,two,-⟩
    · exact fails.stops one
    · exact (stops_pure two).elim

theorem fails_mediate (call : Call) : Fails (stepOf call) (Targets call) (mediate call) := by
  cases call with
  | FilesystemRead path rsid =>
    exact fails_value (fails_mediateGated (g := filesystemRead path) (quiets_reads _) (quiets_fileUri path)
      fun named => ⟨fileUri_target named,rfl⟩)
  | FilesystemWrite path contents rsid =>
    exact fails_mediateGated (g := filesystemWrite path contents) (quiets_writeDecisionNow path) (quiets_fileUri path)
      fun named => ⟨fileUri_target named,rfl⟩
  | FilesystemDelete path rsid =>
    exact fails_mediateGated (g := filesystemDelete path) (quiets_deleteDecisionNow path) (quiets_fileUri path)
      fun named => ⟨fileUri_target named,rfl⟩
  | NetworkConnect host port proto rsid => exact fails_mediateNetworkConnect ⟨rfl,rfl⟩
  | McpToolCall serverName toolName args rsid =>
    exact fails_value (fails_mediateMcpToolCall (.inl ⟨rfl,rfl⟩) (fun clause value => .inr ⟨clause,value,rfl,rfl⟩) args)
  | Exec program args rsid =>
    exact fails_value (fails_mediateGated (g := execRun program args) (quiets_reads _) (quiets_pure _)
      fun named => ⟨(runs_pure.mp named).1,rfl⟩)

/-- A refusal of the dispatch comes from a mediator that was called. -/
theorem dispatch_refused {call : Backend.ToolCall} {outcome : ToolCallOutcome} {s t : Session} {events : List Event}
    (runs : Runs (dispatchToolCall call rsid) s outcome t events) {error : Error}
    (refused : (∃ reason,outcome.result = .Denied reason ∧ error = .Denied reason) ∨
      ∃ reason,outcome.result = .RequiresApproval reason ∧ error = .RequireApproval reason) :
    ∃ route mediatedCall,routeOf call.name = some route ∧ callOf call.arguments rsid route = .ok mediatedCall ∧
      Stops (mediate mediatedCall) s (.Err error) t events := by
  rw [dispatchToolCall] at runs
  cases routed : routeOf call.name with
  | none =>
    rw [routed] at runs
    obtain ⟨rfl,-,-⟩ := runs_pure.mp runs
    rcases refused with ⟨reason,same,-⟩ | ⟨reason,same,-⟩ <;> cases same
  | some route =>
    rw [routed] at runs
    obtain ⟨dispatched,m,left,right,attempted,answers,whole⟩ := runs_bind.mp runs
    obtain ⟨result,_,told,rest,tells,returned,rfl⟩ := runs_bind.mp answers
    obtain ⟨rfl,rfl,rfl⟩ := runs_pure.mp returned
    -- Only the two kinds of errors are told as these two kinds of results.
    have told : dispatched = .error error ∧ t = m ∧ told = [] := by
      cases dispatched with
      | ok value =>
        obtain ⟨rfl,-,-⟩ := runs_pure.mp tells
        rcases refused with ⟨reason,same,-⟩ | ⟨reason,same,-⟩ <;> cases same
      | error dispatchedError =>
        cases dispatchedError with
        | Denied reason =>
          obtain ⟨rfl,rfl,rfl⟩ := runs_pure.mp tells
          rcases refused with ⟨reason,same,rfl⟩ | ⟨reason,same,-⟩ <;> cases same
          exact ⟨rfl,rfl,rfl⟩
        | RequireApproval reason =>
          obtain ⟨rfl,rfl,rfl⟩ := runs_pure.mp tells
          rcases refused with ⟨reason,same,-⟩ | ⟨reason,same,rfl⟩ <;> cases same
          exact ⟨rfl,rfl,rfl⟩
        | UnroutableToolCall name =>
          obtain ⟨rfl,-,-⟩ := runs_pure.mp tells
          rcases refused with ⟨reason,same,-⟩ | ⟨reason,same,-⟩ <;> cases same
        | _ => exact (runs_deny tells).elim
    obtain ⟨rfl,rfl,rfl⟩ := told
    obtain ⟨stopped,known,stops⟩ := runs_attempt_error.mp attempted
    have same : stopped = .Err error := by
      cases stopped with
      | Err other =>
        cases known
        rfl
      | Panic panic => cases known
    rw [same] at stops
    have mediates := (runRoute_alike call.arguments rsid route).stops stops
    rw [mediated] at mediates
    cases called : callOf call.arguments rsid route with
    | error refusedArgs =>
      rw [called] at mediates
      obtain ⟨name,rfl⟩ := callOf_error called
      have same := (stops_deny.mp mediates).1
      rcases refused with ⟨reason,-,rfl⟩ | ⟨reason,-,rfl⟩ <;> cases same
    | ok mediatedCall =>
      rw [called] at mediates
      refine ⟨route,mediatedCall,rfl,called,?_⟩
      rw [whole,List.append_nil,List.append_nil]
      exact mediates

/-- In every session, a dispatch that answers with a denial has an entry about it in the
    ledger, unless the MCP client or the approval channel failed; one that answers with a
    request for approval has written nothing. -/
theorem refusals_explained {call : Backend.ToolCall} {outcome : ToolCallOutcome} {s t : Session} {events : List Event}
    (runs : Runs (dispatchToolCall call rsid) s outcome t events) :
    (∀ reason,outcome.result = .Denied reason → ∃ route mediatedCall,routeOf call.name = some route ∧
      callOf call.arguments rsid route = .ok mediatedCall ∧
      Explained (stepOf mediatedCall) (Targets mediatedCall) s.mcpClient reason events) ∧
    ∀ reason,outcome.result = .RequiresApproval reason → ∀ e ∈ events,Unwritten e := by
  refine ⟨?_,?_⟩
  · intro reason denied
    obtain ⟨route,mediatedCall,routed,called,stops⟩ := dispatch_refused runs (.inl ⟨reason,denied,rfl⟩)
    exact ⟨route,mediatedCall,routed,called,((fails_mediate mediatedCall).stops stops).1 reason rfl⟩
  · intro reason asked
    obtain ⟨route,mediatedCall,-,-,stops⟩ := dispatch_refused runs (.inr ⟨reason,asked,rfl⟩)
    exact ((fails_mediate mediatedCall).stops stops).2 reason rfl

end

section
open Reference Faultless

def runTool (program : String) : Backend.ToolCall := ⟨"exec__run",execArgs program⟩

theorem runTool_routed (program : String) : routeOf (runTool program).name = some (.Exec "run") := by
  change routeOf "exec__run" = _
  decide

theorem runTool_called (program : String) :
    callOf (runTool program).arguments none (.Exec "run") = .ok (.Exec program [] none) := by
  rfl

/-- A program that the manifest does not list. -/
theorem refusals_explained_denied :
    let _ := calmWorld asking
    ∃ booted outcome t events reason,boot config = .ok booted ∧
      Runs (dispatchToolCall (runTool "/bin/rm") none) (attach booted none none) outcome t events ∧
      outcome.result = .Denied reason ∧ ∃ route mediatedCall,routeOf (runTool "/bin/rm").name = some route ∧
      callOf (runTool "/bin/rm").arguments none route = .ok mediatedCall ∧
      Explained (stepOf mediatedCall) (Targets mediatedCall) none reason events := by
  intro world
  obtain ⟨booted,boots,fresh,ready⟩ := calm_boots asking rfl rfl
  have steady := fresh.steady (fun _ _ => rfl) none none
  have policy : (attach booted none none).policy = asking := fresh.policy
  have denies : checkExec (attach booted none none).policy "/bin/rm" = .Deny "exec of /bin/rm not granted by manifest" := by
    rw [policy]
    decide
  obtain ⟨t,events,_,_,stops,-⟩ := mediateExec_denies none [] steady ((ready.attach none none).fewer (by decide : 1 ≤ 100)) denies
  have mediates := (alike_return (mediateExec "/bin/rm" [] none) fun _ => ()).symm.stops stops
  have dispatches := dispatch_stops (runTool_routed "/bin/rm") (runTool_called "/bin/rm") mediates rfl
  obtain ⟨denied,-⟩ := refusals_explained dispatches
  exact ⟨booted,_,_,_,_,boots,dispatches,rfl,denied _ rfl⟩

/-- A program that needs approval in a session without a channel: the dispatch asks for
    approval, and nothing was written. -/
theorem unapproved_unrecorded :
    let _ := calmWorld asking
    ∃ booted outcome t events reason,boot config = .ok booted ∧
      Runs (dispatchToolCall (runTool "/bin/ls") none) (attach booted none none) outcome t events ∧
      outcome.result = .RequiresApproval reason ∧ ∀ entry result,.Append entry result ∉ events := by
  intro world
  obtain ⟨booted,boots,fresh,ready⟩ := calm_boots asking rfl rfl
  have steady := fresh.steady (fun _ _ => rfl) none none
  have policy : (attach booted none none).policy = asking := fresh.policy
  have requires : checkExec (attach booted none none).policy "/bin/ls" = .RequireApproval "any_exec requires approval" := by
    rw [policy]
    decide
  obtain ⟨checked,continues,silent⟩ := mediateExec_continues none [] steady requires
  have ungranted : ∀ now,lookup (attach booted none none).grantTable "exec__run" (Mediator.execArgs "/bin/ls" []) now = none := by
    rw [show (attach booted none none).grantTable = ∅ from fresh.grants]
    exact fun _ => rfl
  have tier : tierFor (attach booted none none).policy .Exec ≠ .Advisory := by
    rw [policy]
    decide
  have asks := approve_open (s := later (attach booted none none) (fileCount (attach booted none none).configPath+1))
    ((execRun "/bin/ls" []).operation (execUri "/bin/ls")) none "any_exec requires approval" tier (ungranted _) rfl
  have stops := continues.stops (asks.continues.stops (stops_deny.mpr ⟨rfl,rfl,rfl⟩))
  have mediates := (alike_return (mediateExec "/bin/ls" [] none) fun _ => ()).symm.stops stops
  have dispatches := dispatch_stops (runTool_routed "/bin/ls") (runTool_called "/bin/ls") mediates rfl
  refine ⟨booted,_,_,_,_,boots,dispatches,rfl,?_⟩
  intro entry result member
  simp only [List.append_nil,List.mem_append,List.mem_singleton,reduceCtorEq,or_false] at member
  exact silent _ member

end

end AegisNode.Refusals
