import AegisNode.FaultlessTurn
import AegisNode.Mediations
import AegisNode.Audit
import AegisNode.Budget

/-!
The reasoning step of a turn: it is written before the turn acts, and which of the entries
that its calls write name it.
-/
namespace AegisNode.Reasoning
open Clock Json Schema Policy Grants Aggregate Traced Engine Mediator Frames Entries Audit Budget Turn TurnLoop TurnTrace Mediations
open Backend hiding ToolCall
open Ledger hiding Error
set_option linter.unusedSectionVars false

/-- The entry is no violation. -/
def Mild : Event → Prop
  | .Append entry _ => entry.entryType ≠ .Violation
  | _ => True

theorem mild_of_unwritten (e : Event) (unwritten : Unwritten e) : Mild e := by
  cases e with
  | Append entry result => exact unwritten.elim
  | _ => trivial

theorem mild_of_records {kinds : EntryType → List (String × Scalar) → Prop} (none : ∀ fields,¬ kinds .Violation fields) (e : Event)
    (records : Records kinds e) : Mild e := by
  cases e with
  | Append entry result =>
    obtain ⟨fields,kind,-⟩ := records
    intro violation
    rw [violation] at kind
    exact none fields kind
  | _ => trivial

/-! ### What objects to a call -/

section
variable [Chrono] [Serde] [Sha256] [Identity] [World]

/-- The files are found to be others than those of the certificate. -/
def Drifts (s : Session) : Prop :=
  ∃ live m events mismatch,Runs computeLiveDigests s live m events ∧ verifyDigestBinding s.svidCertPem live = .ok (some mismatch)

/-- The class of the call has no room for it. -/
def Crowded (s : Session) (toolClass : ToolClass) : Prop :=
  ¬ ∃ counted,checkAndIncrement s.aggregateState toolClass (quotaFor s.policy toolClass) = .ok counted

/-- The policy denies the call, or the call is let through to a quota that is used up. -/
inductive GateObjects {α : Type} (g : Gated α) (rsid : Option String) (s : Session) : Prop where
  | Denied {m t : Session} {before events : List Event} {reason : String} (rebinds : Runs rebind s () m before)
      (denied : Runs g.decision m (.Deny reason) t events)
  | Full {uri : String} {t : Session} {events : List Event} (passes : Runs (gate g rsid) s (uri,.Allow) t events)
      (crowded : Crowded s g.toolClass)

/-- The policy denies the value that a clause names. -/
def ValueDenied (serverName toolName : String) (clause : PreValidateClause) (value : String) (s : Session) : Prop :=
  ∃ reason t events,Runs (clauseDecision serverName toolName clause value) s (.Deny reason) t events

/-- It denies one of the values, and allows those before. -/
def ValuesDenied (serverName toolName : String) (clause : PreValidateClause) : List String → Session → Prop
  | [],_ => False
  | value :: rest,s => ValueDenied serverName toolName clause value s ∨
      ∃ t events,Runs (clauseDecision serverName toolName clause value) s .Allow t events ∧
        ValuesDenied serverName toolName clause rest t

def ClausesDenied (serverName toolName : String) (args : Value) : List PreValidateClause → Session → Prop
  | [],_ => False
  | clause :: rest,s => ∃ values,extractClauseValues args serverName toolName clause = .ok values ∧
      (ValuesDenied serverName toolName clause values s ∨
        ∃ t events,Runs (preValidateValues serverName toolName clause values) s () t events ∧
          ClausesDenied serverName toolName args rest t)

/-- An MCP call is denied by the policy or by a clause, or it is let through to a quota that
    is used up or to no client. -/
inductive McpObjects (serverName toolName : String) (args : Value) (s : Session) : Prop where
  | Denied {m : Session} {before : List Event} {reason : String} (rebinds : Runs rebind s () m before)
      (denied : checkMcpTool s.policy serverName toolName = .Deny reason)
  | Clauses {m : Session} {before : List Event} {grant : McpServerGrant} (rebinds : Runs rebind s () m before)
      (allowed : checkMcpTool s.policy serverName toolName = .Allow) (granted : serverGrant s.policy serverName = some grant)
      (denied : ClausesDenied serverName toolName args (declaredClauses grant toolName) m)
  | Full {t : Session} {events : List Event} {grant : McpServerGrant}
      (allowed : checkMcpTool s.policy serverName toolName = .Allow) (granted : serverGrant s.policy serverName = some grant)
      (passes : Runs (gateMcp grant serverName toolName args) s () t events)
      (refused : Crowded s (.Mcp serverName) ∨ s.mcpClient = none)

/-- Something objects to the call: the binding of the identity, the policy, a quota, or
    that there is no client. What an operator does not approve is no objection. -/
def Objected (s : Session) (call : Call) : Prop :=
  Drifts s ∨ match call with
    | .FilesystemRead path rsid => GateObjects (filesystemRead path) rsid s
    | .FilesystemWrite path contents rsid => GateObjects (filesystemWrite path contents) rsid s
    | .FilesystemDelete path rsid => GateObjects (filesystemDelete path) rsid s
    | .NetworkConnect host port proto _ => ∃ m before reason,Runs rebind s () m before ∧
        checkNetworkOutbound s.policy host port proto = .Deny reason
    | .McpToolCall serverName toolName args _ => McpObjects serverName toolName args s
    | .Exec program args rsid => GateObjects (execRun program args) rsid s

/-! ### Without an objection nothing is a violation -/

theorem rebind_mild {s : Session} (binds : ¬ Drifts s) : ∀ e ∈ (rebind s).events,Mild e := by
  have silent := unwritten_computeLiveDigests s
  have same := (logs_computeLiveDigests s).same
  rw [rebind]
  cases hashed : (computeLiveDigests s).result with
  | error stop =>
    rw [bind_error hashed]
    exact fun e member => mild_of_unwritten e (silent e member)
  | ok live =>
    have runs := runs_of_result hashed
    rw [bind_ok hashed]
    generalize (computeLiveDigests s).state = m at same runs
    rw [reads_bind,utcNow,ask_bind,checkIdentityBinding]
    have cert : m.svidCertPem = s.svidCertPem := by rw [same]
    refine List.forall_mem_append.mpr ⟨fun e member => mild_of_unwritten e (silent e member),?_⟩
    refine List.forall_mem_append.mpr ⟨by simp [Mild],?_⟩
    rw [cert]
    cases verified : verifyDigestBinding s.svidCertPem live with
    | error error =>
      rw [orFail_error_bind]
      simp
    | ok found =>
      rw [orFail_ok_bind]
      cases found with
      | none =>
        intro e member
        cases member
      | some mismatch => exact absurd ⟨live,m,_,mismatch,runs,verified⟩ binds

theorem mild_emitSuccess (resourceUri : String) (accessType : AccessType) (bytes : UInt64) (rsid : Option String) :
    Respects (Each Mild) (emitSuccess resourceUri accessType bytes rsid) := by
  have records : Respects (Each (Records fun written _ => written = .Access)) (emitSuccess resourceUri accessType bytes rsid) := by
    refine records_now fun now => ?_
    split_ifs
    · exact records_of_unwritten (unwritten_deny _)
    · exact records_emit rfl
  refine each_mono (mild_of_records ?_) records
  intro fields violation
  cases violation

theorem mild_routeThroughApproval (decision : Decision) (op : Operation) (rsid : Option String) :
    Respects (Each Mild) (routeThroughApproval decision op rsid) := by
  have records : Respects (Each (Records (Approved rsid Anything))) (routeThroughApproval decision op rsid) :=
    records_routeThroughApproval trivial decision
  refine each_mono (mild_of_records ?_) records
  intro fields approved
  cases approved

/-- An effect is answered, and the access to it written. -/
theorem mild_answered {ε α β : Type} (effect : Effect) (answer : Nat → Except ε α) (wrap : ε → Error) {later : α → Run β}
    (mild : ∀ value,Respects (Each Mild) (later value)) : Respects (Each Mild) (do
      let answer ← perform effect answer
      let value ← orFail wrap answer
      later value) := by
  refine each_bind ?_ fun answer => each_bind (each_mono mild_of_unwritten (unwritten_orFail wrap answer)) mild
  exact each_mono mild_of_unwritten (unwritten_perform effect answer)

/-- A quota with room writes nothing. -/
theorem quota_mild {toolClass : ToolClass} (resourceUri accessKind : String) {s : Session} (room : ¬ Crowded s toolClass) :
    (enforceAggregateQuota toolClass resourceUri accessKind s).events = [] := by
  have charges := Faultless.enforceAggregateQuota_room (room_iff.mpr (not_not.mp room)) resourceUri accessKind
  exact charges.events

/-- Approval hands on a denial only if the policy denies. -/
theorem routeThroughApproval_denies {decision : Decision} {op : Operation} {rsid : Option String} {reason : String} {s t : Session}
    {events : List Event} (runs : Runs (routeThroughApproval decision op rsid) s (.Deny reason) t events) :
    decision = .Deny reason := by
  cases decision with
  | Allow => cases (runs_pure.mp runs).1
  | Deny other => exact (runs_pure.mp runs).1.symm
  | RequireApproval summary =>
    rw [routeThroughApproval,approve,runs_reads_bind,runs_reads_bind] at runs
    split_ifs at runs
    · obtain ⟨_,_,_,_,-,last,-⟩ := runs_bind.mp runs
      cases (runs_pure.mp last).1
    · rw [systemNow,runs_ask_bind] at runs
      obtain ⟨_,runs,-⟩ := runs
      rw [runs_reads_bind] at runs
      cases found : lookup s.next.grantTable op.toolName op.canonicalArgs (World.systemNow s.tick) with
      | some grant =>
        rw [found] at runs
        obtain ⟨_,_,_,_,-,last,-⟩ := runs_bind.mp runs
        cases decided : grant.decision with
        | Allow =>
          rw [decided] at last
          cases (runs_pure.mp last).1
        | Deny cached =>
          rw [decided] at last
          exact absurd last runs_deny
      | none =>
        rw [found,consult,runs_reads_bind] at runs
        cases attached : s.next.approvalChannel with
        | none =>
          rw [attached] at runs
          cases (runs_pure.mp runs).1
        | some channel =>
          rw [attached,askAttached,askOperator,runs_reads_bind] at runs
          obtain ⟨_,_,_,_,-,runs,-⟩ := runs_bind.mp runs
          rw [runs_ask_bind] at runs
          obtain ⟨_,runs,-⟩ := runs
          obtain ⟨outcome,-,runs⟩ := runs_orFail_bind.mp runs
          cases outcome with
          | Granted approver decidedAt =>
            obtain ⟨_,_,_,_,-,runs,-⟩ := runs_bind.mp runs
            obtain ⟨_,_,_,_,-,runs,-⟩ := runs_bind.mp runs
            obtain ⟨_,_,_,_,-,last,-⟩ := runs_bind.mp runs
            cases (runs_pure.mp last).1
          | Rejected reason decidedAt =>
            obtain ⟨_,_,_,_,-,runs,-⟩ := runs_bind.mp runs
            obtain ⟨_,_,_,_,-,last,-⟩ := runs_bind.mp runs
            exact absurd last runs_deny
          | TimedOut expiredAt =>
            obtain ⟨_,_,_,_,-,last,-⟩ := runs_bind.mp runs
            exact absurd last runs_deny

/-- What is done before the charge of a call writes no violation. -/
theorem gate_mild {α : Type} {g : Gated α} (reading : Reading g) (silent : Respects (Each Unwritten) g.decision) (rsid : Option String)
    {s : Session} (binds : ¬ Drifts s) : ∀ e ∈ (gate g rsid s).events,Mild e := by
  have located : Respects (Each Mild) g.resourceUri := by
    intro s
    rw [reading.silent]
    simp [Each]
  have later : Respects (Each Mild) (do
      let decision ← g.decision
      let resourceUri ← g.resourceUri
      let decision ← routeThroughApproval decision (g.operation resourceUri) rsid
      return (resourceUri,decision)) := by
    refine each_bind (each_mono mild_of_unwritten silent) fun decision => ?_
    refine each_bind located fun resourceUri => ?_
    exact each_bind (mild_routeThroughApproval _ _ _) fun _ => respects_pure (each_composes _) _
  rw [gate]
  cases rebound : (rebind s).result with
  | error stop =>
    rw [bind_error rebound]
    exact rebind_mild binds
  | ok _ =>
    rw [bind_ok rebound]
    exact List.forall_mem_append.mpr ⟨rebind_mild binds,later _⟩

theorem gated_mild {α : Type} {g : Gated α} (reading : Reading g) (silent : Respects (Each Unwritten) g.decision) {rsid : Option String}
    {s : Session} (binds : ¬ Drifts s) (unobjected : ¬ GateObjects g rsid s) : ∀ e ∈ (mediateGated g rsid s).events,Mild e := by
  have first := gate_mild reading silent rsid binds
  rw [mediateGated_gate]
  cases through : (gate g rsid s).result with
  | error stop =>
    rw [bind_error through]
    exact first
  | ok found =>
    have runs := runs_of_result through
    rw [bind_ok through]
    obtain ⟨uri,decision⟩ := found
    refine List.forall_mem_append.mpr ⟨first,?_⟩
    cases decision with
    | RequireApproval reason =>
      intro e member
      cases member
    | Deny reason =>
      obtain ⟨_,m,before,_,rebinds,runs,-⟩ := runs_bind.mp runs
      obtain ⟨decision,_,_,_,decides,runs,-⟩ := runs_bind.mp runs
      obtain ⟨_,_,_,_,-,runs,-⟩ := runs_bind.mp runs
      obtain ⟨_,_,_,_,routes,last,-⟩ := runs_bind.mp runs
      obtain ⟨same,-,-⟩ := runs_pure.mp last
      cases same
      rw [routeThroughApproval_denies routes] at decides
      exact absurd (.Denied rebinds decides) unobjected
    | Allow =>
      have still := still_gate reading rsid s
      have room : ¬ Crowded (gate g rsid s).state g.toolClass := by
        intro crowded
        rw [Crowded,still.counts,still.policy] at crowded
        exact unobjected (.Full runs crowded)
      rw [settle,dispatch]
      cases charged : (enforceAggregateQuota g.toolClass uri g.accessType.name (gate g rsid s).state).result with
      | error stop =>
        rw [bind_error charged,quota_mild _ _ room]
        simp
      | ok _ =>
        rw [bind_ok charged,quota_mild _ _ room,List.nil_append]
        exact mild_answered g.effect g.answer .Io (fun value => each_bind (mild_emitSuccess _ _ _ _)
          fun _ => respects_pure (each_composes _) _) _

theorem connect_mild {host : String} {port : UInt16} {proto : NetworkProto} {rsid : Option String} {s : Session} (binds : ¬ Drifts s)
    (undenied : ¬ ∃ m before reason,Runs rebind s () m before ∧ checkNetworkOutbound s.policy host port proto = .Deny reason) :
    ∀ e ∈ (mediateNetworkConnect host port proto rsid s).events,Mild e := by
  have logged : ∀ decision,Respects (Each Mild) (logConnection host port proto decision) :=
    fun decision => each_mono mild_of_unwritten (unwritten_logConnection host port proto decision)
  have reported : ∀ decision (error : Error),Respects (Each Mild) (do
      logConnection host port proto decision
      (deny error : Run Unit)) := fun decision error => each_bind (logged decision) fun _ => respects_fail (each_composes _) _
  rw [mediateNetworkConnect]
  cases rebound : (rebind s).result with
  | error stop =>
    rw [bind_error rebound]
    exact rebind_mild binds
  | ok _ =>
    have rebinds := runs_of_result rebound
    have policy : (rebind s).state.policy = s.policy := by rw [(logs_rebind s).same]
    rw [bind_ok rebound]
    refine List.forall_mem_append.mpr ⟨rebind_mild binds,?_⟩
    rw [connectDecision,reads_bind,policy]
    generalize (rebind s).state = m at *
    have asked : Respects (Each Mild) (attempt caught (routeThroughApproval (checkNetworkOutbound s.policy host port proto)
        (networkConnect host port proto) rsid)) := respects_attempt (mild_routeThroughApproval _ _ _)
    cases routed : (attempt caught (routeThroughApproval (checkNetworkOutbound s.policy host port proto)
        (networkConnect host port proto) rsid) m).result with
    | error stop =>
      rw [bind_error routed]
      exact asked m
    | ok decided =>
      rw [bind_ok routed]
      refine List.forall_mem_append.mpr ⟨asked m,?_⟩
      cases decided with
      | error error => exact reported _ _ _
      | ok decision =>
        cases decision with
        | RequireApproval reason => exact reported _ _ _
        | Allow =>
          exact mild_answered (.Connect host port) (World.connect · host port) .Io
            (fun _ => each_bind (mild_emitSuccess _ _ _ _) fun _ => logged _) _
        | Deny reason =>
          have denies := routeThroughApproval_denies (runs_attempt_ok.mp (runs_of_result routed))
          exact absurd ⟨m,_,reason,rebinds,denies⟩ undenied

theorem values_mild {serverName toolName : String} {clause : PreValidateClause} (values : List String) {s : Session}
    (undenied : ¬ ValuesDenied serverName toolName clause values s) :
    ∀ e ∈ (preValidateValues serverName toolName clause values s).events,Mild e := by
  induction values generalizing s with
  | nil =>
    intro e member
    cases member
  | cons value rest ih =>
    have silent : Respects (Each Mild) (clauseDecision serverName toolName clause value) :=
      each_mono mild_of_unwritten (unwritten_clauseDecision serverName toolName clause value)
    rw [ValuesDenied,not_or] at undenied
    obtain ⟨here,later⟩ := undenied
    rw [preValidateValues,preValidateValue,bind_assoc]
    cases decided : (clauseDecision serverName toolName clause value s).result with
    | error stop =>
      rw [bind_error decided]
      exact silent s
    | ok decision =>
      have decides := runs_of_result decided
      rw [bind_ok decided]
      refine List.forall_mem_append.mpr ⟨silent s,?_⟩
      cases decision with
      | Allow => exact ih fun denied => later ⟨_,_,decides,denied⟩
      | Deny reason => exact absurd ⟨reason,_,_,decides⟩ here
      | RequireApproval reason =>
        intro e member
        cases member

theorem clauses_mild {serverName toolName : String} {args : Value} (clauses : List PreValidateClause) {s : Session}
    (undenied : ¬ ClausesDenied serverName toolName args clauses s) :
    ∀ e ∈ (runMcpPreValidate serverName toolName args clauses s).events,Mild e := by
  induction clauses generalizing s with
  | nil =>
    intro e member
    cases member
  | cons clause rest ih =>
    rw [ClausesDenied] at undenied
    rw [runMcpPreValidate]
    cases extracted : extractClauseValues args serverName toolName clause with
    | error error =>
      rw [orFail_error_bind]
      simp
    | ok values =>
      rw [orFail_ok_bind]
      have here := values_mild values fun denied => undenied ⟨values,extracted,.inl denied⟩
      cases validated : (preValidateValues serverName toolName clause values s).result with
      | error stop =>
        rw [bind_error validated]
        exact here
      | ok _ =>
        have validates := runs_of_result validated
        rw [bind_ok validated]
        refine List.forall_mem_append.mpr ⟨here,ih fun denied => ?_⟩
        exact undenied ⟨values,extracted,.inr ⟨_,_,validates,denied⟩⟩

theorem mcp_mild {serverName toolName : String} {args : Value} {rsid : Option String} {s : Session} (binds : ¬ Drifts s)
    (unobjected : ¬ McpObjects serverName toolName args s) :
    ∀ e ∈ (mediateMcpToolCall serverName toolName args rsid s).events,Mild e := by
  rw [mediateMcpToolCall]
  cases rebound : (rebind s).result with
  | error stop =>
    rw [bind_error rebound]
    exact rebind_mild binds
  | ok _ =>
    have rebinds := runs_of_result rebound
    have logs := logs_rebind s
    have policy : (rebind s).state.policy = s.policy := by rw [logs.same]
    have counts : (rebind s).state.aggregateState = s.aggregateState := by rw [logs.same]
    have client : (rebind s).state.mcpClient = s.mcpClient := by rw [logs.same]
    rw [bind_ok rebound]
    refine List.forall_mem_append.mpr ⟨rebind_mild binds,?_⟩
    rw [reads_bind,policy]
    generalize (rebind s).state = m at *
    generalize (rebind s).events = before at *
    cases decided : checkMcpTool s.policy serverName toolName with
    | Deny reason => exact absurd (.Denied rebinds decided) unobjected
    | RequireApproval reason =>
      intro e member
      cases member
    | Allow =>
      dsimp only
      rw [mcpAllowed,reads_bind,policy]
      cases granted : serverGrant s.policy serverName with
      | none =>
        rw [checkMcpTool,granted] at decided
        cases decided
      | some grant =>
        have here := clauses_mild (declaredClauses grant toolName) fun denied =>
          unobjected (.Clauses rebinds decided granted denied)
        have quiet := logs_runMcpPreValidate serverName toolName args (declaredClauses grant toolName) m
        dsimp only
        rw [dispatchMcp]
        cases validated : (runMcpPreValidate serverName toolName args (declaredClauses grant toolName) m).result with
        | error stop =>
          rw [bind_error validated]
          exact here
        | ok _ =>
          have validates := runs_of_result validated
          rw [bind_ok validated]
          refine List.forall_mem_append.mpr ⟨here,?_⟩
          generalize (runMcpPreValidate serverName toolName args (declaredClauses grant toolName) m).state = n at *
          have passes : Runs (gateMcp grant serverName toolName args) s () n _ :=
            runs_bind.mpr ⟨_,_,_,_,rebinds,validates,rfl⟩
          have unrefused : ¬ (Crowded s (.Mcp serverName) ∨ s.mcpClient = none) := fun refused =>
            unobjected (.Full decided granted passes refused)
          obtain ⟨room,attached⟩ := not_or.mp unrefused
          have roomy : ¬ Crowded n (.Mcp serverName) := by
            rw [Crowded,quiet.same,counts,policy]
            exact room
          cases charged : (enforceAggregateQuota (.Mcp serverName) (mcpUri serverName toolName) "mcp_tool_call" n).result with
          | error stop =>
            rw [bind_error charged,quota_mild _ _ roomy]
            simp
          | ok _ =>
            rw [bind_ok charged,quota_mild _ _ roomy,List.nil_append,callClient,reads_bind]
            have charges := Faultless.enforceAggregateQuota_room (room_iff.mpr (not_not.mp roomy)) (mcpUri serverName toolName)
              "mcp_tool_call"
            have same : n.mcpClient = s.mcpClient := by rw [quiet.same,client]
            rw [charges.state,same]
            cases found : s.mcpClient with
            | none => exact absurd found attached
            | some client =>
              exact mild_answered (.CallTool serverName grant.serverUri toolName args)
                (client.callTool · grant.serverUri toolName args) (fun e => .Denied ("mcp client: " ++ e))
                (fun value => each_bind (mild_emitSuccess _ _ _ _) fun _ => respects_pure (each_composes _) _) _

/-- A call that nothing objects to writes no violation. -/
theorem mediate_mild {s : Session} {call : Call} (unobjected : ¬ Objected s call) : ∀ e ∈ (mediate call s).events,Mild e := by
  obtain ⟨binds,unobjected⟩ := not_or.mp unobjected
  cases call with
  | FilesystemRead path rsid =>
    rw [mediate,bind_pure_events.1]
    exact gated_mild (reading_filesystemRead path) (unwritten_reads _) binds unobjected
  | FilesystemWrite path contents rsid =>
    exact gated_mild (reading_filesystemWrite path contents) (unwritten_writeDecisionNow path) binds unobjected
  | FilesystemDelete path rsid => exact gated_mild (reading_filesystemDelete path) (unwritten_deleteDecisionNow path) binds unobjected
  | NetworkConnect host port proto rsid => exact connect_mild binds unobjected
  | McpToolCall serverName toolName args rsid =>
    rw [mediate,bind_pure_events.1]
    exact mcp_mild binds unobjected
  | Exec program args rsid =>
    rw [mediate,bind_pure_events.1]
    exact gated_mild (reading_execRun program args) (unwritten_reads _) binds unobjected

end

/-! ### What a turn leaves -/

/-- The entries of the calls: their accesses, approvals and refusals. -/
def OfCall (entryType : EntryType) : Prop :=
  entryType ∈ [.Access,.ApprovalRequest,.ApprovalGranted,.ApprovalRejected,.ApprovalTimedOut,.ApprovalDecision,.Violation]

def Carries (stepId : String) (entry : Entry) : Prop := Map.get entry.payload.fields "reasoningStepId" = some (.String stepId)

/-- What is done for the calls of a turn, and what is written for it names the reasoning
    step. -/
def Labelled (stepId : String) : Event → Prop
  | .Append entry _ => entry.entryType ≠ .ReasoningStep ∧ (OfCall entry.entryType → Carries stepId entry)
  | .Inferred _ _ => False
  | .IssuedTurnSvid _ _ _ => False
  | _ => True

/-- The violations that no call is behind: a flagged result, and a bound that is reached. -/
def LoopViolation (entry : Entry) : Prop :=
  entry.entryType = .Violation ∧ ∃ kind ∈ ["AdversarialContent","TurnCapExceeded"],
    Map.get entry.payload.fields "violationKind" = some (.String kind)

/-- No effect and no question to an operator, and nothing that calls write. -/
def Aside : Event → Prop
  | .Append entry _ => entry.entryType ∈ [.TurnStart,.ReasoningStep,.TurnEnd] ∨ LoopViolation entry
  | .Performed _ _ => False
  | .Approval _ _ => False
  | _ => True

/-- Whatever is done for calls follows, within its turn, a reasoning step that is in the
    ledger and that all of their entries name. -/
inductive Reasoned : List Event → Prop where
  | Idle {events : List Event} (aside : ∀ e ∈ events,Aside e) : Reasoned events
  | Answered {before dispatched : List Event} {entry : Entry} {record : EntryRecord} {stepId : String} (aside : ∀ e ∈ before,Aside e)
      (reasons : entry.entryType = .ReasoningStep) (carries : Carries stepId entry) (labelled : ∀ e ∈ dispatched,Labelled stepId e) :
      Reasoned (before ++ .Append entry (.ok (.ok record)) :: dispatched)
  | Append {left right : List Event} (first : Reasoned left) (second : Reasoned right) : Reasoned (left ++ right)

theorem reasoned_composes : Composes (fun (_ : Session) events (_ : Session) => Reasoned events) where
  idle _ := .Idle (by simp)
  append first second := .Append first second

/-- A violation of a reasoned run is the loop's, or it names a reasoning step. -/
theorem Reasoned.violation {events : List Event} (reasoned : Reasoned events) {entry : Entry}
    {result : Checked (Except Ledger.Error EntryRecord)} (member : .Append entry result ∈ events) (violation : entry.entryType = .Violation) :
    LoopViolation entry ∨ ∃ stepId,Carries stepId entry := by
  have alone : Aside (.Append entry result) → LoopViolation entry := by
    rintro (listed | violates)
    · rw [violation] at listed
      simp at listed
    · exact violates
  induction reasoned with
  | Idle aside => exact .inl (alone (aside _ member))
  | Answered aside reasons carries labelled =>
    rcases List.mem_append.mp member with early | late
    · exact .inl (alone (aside _ early))
    · rcases List.mem_cons.mp late with same | inside
      · cases same
        rw [reasons] at violation
        cases violation
      · exact .inr ⟨_,(labelled _ inside).2 (by rw [violation,OfCall]; simp)⟩
  | Append first second ihFirst ihSecond =>
    rcases List.mem_append.mp member with early | late
    · exact ihFirst early
    · exact ihSecond late

section
variable [Chrono] [Serde] [Sha256]

theorem carries_optional {before : List (String × Scalar)} {stepId : String} {after : List (String × Scalar)}
    (absent : ∀ field ∈ after,field.1 ≠ "reasoningStepId") :
    fieldOf (before ++ Engine.optional "reasoningStepId" (some stepId) ++ after) "reasoningStepId" = some (.String stepId) := by
  have none : after.reverse.find? (fun field => field.1 = "reasoningStepId") = none := by
    rw [List.find?_eq_none]
    intro field member
    simpa using absent field (List.mem_reverse.mp member)
  rw [fieldOf,List.append_assoc,List.reverse_append,List.reverse_append,List.append_assoc,List.find?_append,none]
  simp [Engine.optional,Scalar.value]

/-- What an approval writes names the step. -/
theorem approved_carries {stepId : String} {about : String → String → Prop} {entryType : EntryType} {fields : List (String × Scalar)}
    (approved : Approved (some stepId) about entryType fields) : fieldOf fields "reasoningStepId" = some (.String stepId) := by
  cases approved with
  | Request expiresAt own step =>
    rw [requestFields,step]
    exact carries_optional (by simp)
  | Granted approver decidedAt =>
    rw [grantedFields,← List.append_nil (_ ++ _)]
    exact carries_optional (by simp)
  | Rejected reason decidedAt =>
    rw [rejectedFields,← List.append_nil (_ ++ _)]
    exact carries_optional (by simp)
  | TimedOut expiredAt =>
    rw [timedOutFields,← List.append_nil (_ ++ _)]
    exact carries_optional (by simp)
  | Advisory own => exact carries_optional (by simp)
  | Consumed grant own => exact carries_optional (by cases grant.decision <;> simp [Engine.optional,cachedReason])
  | Issued grant approver ttlSecs own => exact carries_optional (by simp)

/-- What a call writes names the step, but for the violations. -/
theorem written_labelled {stepId : String} {about : String → String → Prop} {e : Event} (records : Records (Written (some stepId) about) e)
    (mild : Mild e) : Labelled stepId e := by
  cases e with
  | Append entry result =>
    obtain ⟨fields,written,payload⟩ := records
    have carried : fieldOf fields "reasoningStepId" = some (.String stepId) → Carries stepId entry := by
      intro held
      rw [Carries,payload,get_payloadOf,held]
    generalize kind : entry.entryType = entryType at written
    have apart : entryType ≠ .Violation := kind ▸ mild
    rw [Labelled,kind]
    cases written with
    | Work worked =>
      cases worked with
      | Access bytes own =>
        refine ⟨by simp,fun _ => carried ?_⟩
        rw [accessFields,← List.append_nil (_ ++ _)]
        exact carries_optional (by simp)
      | Denial reason own => exact absurd rfl apart
      | Drift mismatch => exact absurd rfl apart
      | Breach breach own => exact absurd rfl apart
    | Approval approved =>
      refine ⟨?_,fun _ => carried (approved_carries approved)⟩
      rintro rfl
      cases approved
  | Inferred request response => exact records
  | IssuedTurnSvid audience live svid => exact records
  | _ => trivial

variable [World]

/-- The two entries around a call are not the call's. -/
theorem labelled_emitNow (stepId : String) {entryType : EntryType} (around : entryType = .ToolCall ∨ entryType = .ToolResult)
    (fields : List (String × Scalar)) : Respects (Each (Labelled stepId)) (emitNow .Ledger entryType fields) := by
  have records : Respects (Each (Records fun written _ => written = entryType)) (emitNow .Ledger entryType fields) :=
    records_now fun _ => records_emit rfl
  refine each_mono (fun e recorded => ?_) records
  cases e with
  | Append entry result =>
    obtain ⟨_,kind,-⟩ := recorded
    rw [Labelled,kind,OfCall]
    rcases around with rfl | rfl <;> simp
  | Inferred request response => exact recorded
  | IssuedTurnSvid audience live svid => exact recorded
  | _ => trivial

/-! ### The loop besides its calls -/

theorem aside_of_plain (e : Event) (plain : Plain e) (unwritten : Unwritten e) : Aside e := by
  cases e with
  | Append entry result => exact unwritten.elim
  | Performed tick effect => exact plain.elim
  | Approval request outcome => exact plain.elim
  | _ => trivial

theorem aside_emitNow {wrap : Ledger.Error → Error} {entryType : EntryType} {fields : List (String × Scalar)}
    (aside : entryType ∈ [.TurnStart,.ReasoningStep,.TurnEnd] ∨ entryType = .Violation ∧
      ∃ kind ∈ ["AdversarialContent","TurnCapExceeded"],fieldOf fields "violationKind" = some (.String kind)) :
    Respects (Each Aside) (emitNow wrap entryType fields) := by
  intro s
  have records : Each (Records fun written held => written = entryType ∧ held = fields) s (emitNow wrap entryType fields s).events
      (emitNow wrap entryType fields s).state := (records_now fun _ => records_emit ⟨rfl,rfl⟩) s
  have plain := (show Respects Logs (emitNow wrap entryType fields) from logs_emitNow fun _ => logs_emit _ _ _ _) s
  intro e member
  cases e with
  | Append entry result =>
    obtain ⟨_,⟨kind,rfl⟩,payload⟩ := records _ member
    rw [Aside,LoopViolation,kind,payload]
    rcases aside with listed | ⟨violation,reason,listed,held⟩
    · exact .inl listed
    · refine .inr ⟨violation,reason,listed,?_⟩
      rw [get_payloadOf,held]
  | Performed tick effect => exact plain.each _ member
  | Approval request outcome => exact plain.each _ member
  | _ => trivial

theorem aside_instantNow : Respects (Each Aside) instantNow := fun _ => by simp [instantNow,ask,Each]

theorem aside_elapsedSince (started : Nat) : Respects (Each Aside) (elapsedSince started) :=
  each_bind aside_instantNow fun _ => respects_pure (each_composes _) _

theorem aside_writeFlagged (classifierName : String) (judged : List Judged) : Respects (Each Aside) (writeFlagged classifierName judged) := by
  induction judged with
  | nil => exact respects_pure (each_composes _) _
  | cons first rest ih =>
    refine each_bind ?_ fun _ => ih
    unfold writeIfFlagged writeAdversarialViolation
    split_ifs
    · exact respects_pure (each_composes _) _
    · refine aside_emitNow (.inr ⟨rfl,"AdversarialContent",by simp,?_⟩)
      unfold adversarialFields
      split <;> simp [fieldOf,Scalar.value]
    · exact respects_pure (each_composes _) _

theorem aside_emitCapAndBuildErr {α : Type} (bound : TurnCapKind) (atTurn : Nat) (limits : TurnLimits) (tokensConsumed : UInt64)
    (elapsed : Nat) : Respects (Each Aside) (emitCapAndBuildErr bound atTurn limits tokensConsumed elapsed : Run α) := by
  refine each_bind (aside_emitNow (.inr ⟨rfl,"TurnCapExceeded",by simp,?_⟩)) fun _ => respects_fail (each_composes _) _
  unfold turnCapFields
  split <;> simp [fieldOf,Scalar.value]

variable [Identity]

theorem aside_issueTurnSvid (audience : String) (remaining : Nat) : Respects (Each Aside) (issueTurnSvid audience remaining) := by
  have live : Respects (Each Aside) computeLiveDigests := fun s e member =>
    aside_of_plain e ((logs_computeLiveDigests s).each e member) (unwritten_computeLiveDigests s e member)
  refine each_bind live fun live => ?_
  refine each_bind (respects_reads (each_composes _) _) fun identityDir => ?_
  refine each_bind (respects_reads (each_composes _) _) fun workloadName => ?_
  refine each_bind (respects_reads (each_composes _) _) fun instanceName => ?_
  refine each_bind (respects_reads (each_composes _) _) fun chatTemplate => ?_
  refine each_bind ?_ fun issued => ?_
  · intro s e member
    unfold ask issuedEvent at member
    split at member
    · cases List.mem_singleton.mp member
      trivial
    · cases member
  refine each_bind (respects_ofExcept (each_composes _) _) fun issued => ?_
  refine each_bind (respects_ofExcept (each_composes _) _) fun svid => ?_
  refine each_bind (respects_ofExcept (each_composes _) _) fun thumbprint => ?_
  exact each_bind (fun _ => by simp [Each,update]) fun _ => respects_pure (each_composes _) _

theorem aside_openTurn (limits : TurnLimits) (started turn : Nat) (messages : List ChatMessage) :
    Respects (Each Aside) (openTurn limits started turn messages) := by
  refine each_bind (respects_reads (each_composes _) _) fun audience => ?_
  refine each_bind (aside_elapsedSince _) fun elapsed => ?_
  refine each_bind (aside_issueTurnSvid _ _) fun thumbprint => ?_
  exact each_bind (respects_reads (each_composes _) _) fun bound => aside_emitNow (.inl (by simp))

theorem aside_concludeTurn (started : Nat) (v2 : Bool) (turn : Nat) (progress : Progress) (outcome : TurnOutcome)
    (used : Option UInt64) : Respects (Each Aside) (concludeTurn started v2 turn progress outcome used) := by
  refine each_bind (respects_reads (each_composes _) _) fun classifier => ?_
  refine each_bind (aside_writeFlagged _ _) fun _ => ?_
  refine each_bind ?_ fun _ => respects_pure (each_composes _) _
  unfold whenV2
  split_ifs
  · refine each_bind (aside_elapsedSince _) fun elapsed => ?_
    refine each_bind ?_ fun _ s => by simp [dropTurnSvid,update,Each]
    exact each_bind (respects_reads (each_composes _) _) fun taken => aside_emitNow (.inl (by simp))
  · exact respects_pure (each_composes _) _

/-! ### Answers -/

/-- The calls that are mediated for a turn have its reasoning step. -/
theorem callsMediations_step {stepId : String} {recorded : Option Nat} {callIndex : Nat} {calls : List Backend.ToolCall} {s : Session}
    {x : Session × Call} (listed : x ∈ callsMediations stepId recorded callIndex calls s) : stepOf x.2 = some stepId := by
  have dispatched : ∀ {call m},x ∈ dispatchMediations call stepId m → stepOf x.2 = some stepId := by
    intro call m member
    rw [dispatchMediations,Option.mem_toList,Option.map_eq_some_iff] at member
    obtain ⟨mediated,leads,rfl⟩ := member
    obtain ⟨route,-,called⟩ := Option.bind_eq_some_iff.mp leads
    cases found : callOf call.arguments (some stepId) route with
    | error error =>
      rw [found] at called
      cases called
    | ok other =>
      rw [found] at called
      cases called
      exact Chronicle.callOf_stepOf found
  have within : ∀ {α : Type} {p : Run α} {later : α → Session → List (Session × Call)} {m},x ∈ following p later m →
      ∃ a t,x ∈ later a t := by
    intro α p later m member
    unfold following at member
    split at member
    · exact ⟨_,_,member⟩
    · cases member
  induction calls generalizing callIndex s with
  | nil => cases listed
  | cons call rest ih =>
    rcases List.mem_append.mp listed with here | later
    · cases recorded with
      | none => exact dispatched here
      | some turn =>
        obtain ⟨_,_,here⟩ := within here
        exact dispatched here
    · obtain ⟨_,_,later⟩ := within later
      exact ih later

theorem calls_labelled {stepId : String} {recorded : Option Nat} {callIndex : Nat} {calls : List Backend.ToolCall} {s : Session}
    (clear : ∀ x ∈ callsMediations stepId recorded callIndex calls s,¬ Objected x.1 x.2) :
    ∀ e ∈ (runCalls stepId recorded callIndex calls s).events,Labelled stepId e := by
  have mediated : ∀ m call,¬ Objected m call ∧ stepOf call = some stepId →
      Each (Labelled stepId) m (mediate call m).events (mediate call m).state := by
    rintro m call ⟨unobjected,own⟩ e member
    have records := records_mediate call m e member
    rw [own] at records
    exact written_labelled records (mediate_mild unobjected e member)
  exact calls_follow (P := fun x => ¬ Objected x.1 x.2 ∧ stepOf x.2 = some stepId) (each_composes (Labelled stepId)) mediated
    (fun _ _ _ _ _ => labelled_emitNow stepId (.inl rfl) _) (fun _ _ _ _ => labelled_emitNow stepId (.inr rfl) _)
    stepId recorded callIndex calls fun x listed => ⟨clear x listed,callsMediations_step listed⟩

theorem aside_infer (messages : List ChatMessage) (tools : List ToolDecl) : Respects (Each Aside) (infer messages tools) := by
  refine each_bind (respects_reads (each_composes _) _) fun loaded => ?_
  refine each_bind (respects_ofExcept (each_composes _) _) fun model => ?_
  exact each_bind (fun _ => by simp [Each,ask,Aside]) fun response => respects_ofExcept (each_composes _) _

theorem aside_recordReasoningStep (input reasoning : String) (toolsConsidered : List String) (toolSelected : Option String) :
    Respects (Each Aside) (recordReasoningStep input reasoning toolsConsidered toolSelected) := by
  refine each_bind (fun _ => by simp [Each,newUuid,ask]) fun stepUuid => ?_
  refine each_bind (fun _ => by simp [Each,utcNow,ask,Aside]) fun now => ?_
  split_ifs
  · exact respects_fail (each_composes _) _
  · refine each_bind ?_ fun _ => respects_pure (each_composes _) _
    have records : Respects (Each (Records fun written _ => written = .ReasoningStep)) (emit (fun e => .AccessLog (.Ledger e)) .ReasoningStep now
        (payloadOf (reasoningStepFields stepUuid input reasoning toolsConsidered toolSelected))) := records_emit rfl
    intro m e member
    have plain := (logs_emit _ _ _ _ m).each e member
    cases e with
    | Append entry result =>
      obtain ⟨_,kind,-⟩ := records m _ member
      rw [Aside,kind]
      exact .inl (by simp)
    | Performed tick effect => exact plain
    | Approval request outcome => exact plain
    | _ => trivial

/-- The reasoning step is in the ledger, or the turn breaks off. -/
theorem recordReasoningStep_cases (input reasoning : String) (toolsConsidered : List String) (toolSelected : Option String) (s : Session) :
    (∃ stepUuid t before entry record,Runs (recordReasoningStep input reasoning toolsConsidered toolSelected) s stepUuid t
        (before ++ [.Append entry (.ok (.ok record))]) ∧ (∀ e ∈ before,Aside e) ∧ entry.entryType = .ReasoningStep ∧
        Carries stepUuid.toString entry) ∨
      ∃ stop t events,Stops (recordReasoningStep input reasoning toolsConsidered toolSelected) s stop t events ∧ ∀ e ∈ events,Aside e := by
  have carries : ∀ stepUuid entry,entry.payload = payloadOf (reasoningStepFields stepUuid input reasoning toolsConsidered toolSelected) →
      Carries stepUuid.toString entry := by
    intro stepUuid entry payload
    rw [Carries,payload,get_payloadOf]
    cases toolSelected <;> simp [reasoningStepFields,Engine.optional,fieldOf,Scalar.value]
  rcases runs_or_stops (recordReasoningStep input reasoning toolsConsidered toolSelected) s with ⟨stepUuid,runs⟩ | ⟨stop,stops⟩
  · left
    have whole := runs
    generalize (recordReasoningStep input reasoning toolsConsidered toolSelected s).state = t at *
    generalize (recordReasoningStep input reasoning toolsConsidered toolSelected s).events = events at *
    rw [recordReasoningStep,newUuid,runs_ask_bind] at runs
    obtain ⟨_,runs,rfl⟩ := runs
    rw [utcNow,runs_ask_bind] at runs
    obtain ⟨_,runs,rfl⟩ := runs
    split_ifs at runs
    · exact absurd runs runs_deny
    · obtain ⟨_,_,_,_,emitted,last,rfl⟩ := runs_bind.mp runs
      obtain ⟨rfl,-,rfl⟩ := runs_pure.mp last
      obtain ⟨record,ledger,-,-,rfl⟩ := runs_emit.mp emitted
      exact ⟨_,_,[.UtcNow _],_,record,whole,by simp [Aside],rfl,carries _ _ rfl⟩
  · right
    exact ⟨stop,_,_,stops,aside_recordReasoningStep _ _ _ _ s⟩

theorem dispatchAnswer_reasoned {prompt : String} {turn : Option Nat} {tools : List ToolDecl} {response : InferResponse} {s : Session}
    (clear : ∀ x ∈ answerMediations prompt turn tools response s,¬ Objected x.1 x.2) :
    Reasoned (dispatchAnswer prompt turn tools response s).events := by
  rw [dispatchAnswer]
  rw [answerMediations] at clear
  rcases recordReasoningStep_cases prompt response.reasoning (tools.map (·.name)) (response.toolCalls.head?.map (·.name)) s with
    ⟨stepUuid,t,before,entry,record,runs,aside,reasons,carries⟩ | ⟨stop,t,events,stops,aside⟩
  · rw [following_ok runs.result,runs.state] at clear
    rw [bind_ok runs.result,runs.state,runs.events,reads_bind]
    have labelled := calls_labelled clear
    have alike := (alike_return (runCalls stepUuid.toString (recordedTurn turn t.ledger.schemaVersion) 0 response.toolCalls)
      (fun outcomes => ((⟨response.assistantText,outcomes,stepUuid.toString⟩ : TurnOutcome),response.tokensUsed)) t).1
    rw [← alike] at labelled
    dsimp only
    rw [List.append_assoc]
    exact .Answered aside reasons carries labelled
  · rw [bind_error stops.result,stops.events]
    exact .Idle aside

theorem runOneTurn_reasoned {messages : List ChatMessage} {prompt : String} {turn : Option Nat} {s : Session}
    (clear : ∀ x ∈ turnMediations messages prompt turn s,¬ Objected x.1 x.2) : Reasoned (runOneTurn messages prompt turn s).events := by
  rw [runOneTurn,reads_bind]
  exact bind_following reasoned_composes (fun m => .Idle (aside_infer _ _ m)) (fun response m within => dispatchAnswer_reasoned within) clear

/-! ### Runs -/

/-- In a run of the loop, and in a single turn, whatever is done for a call of the model
    follows the turn's reasoning step, which is in the ledger, and every access, approval
    and violation entry of the calls names it, if nothing objects to a call. -/
theorem reasoning_labels (s : Session) :
    (∀ prompt limits,(∀ x ∈ runMediations prompt limits s,¬ Objected x.1 x.2) → Reasoned (run prompt limits s).events) ∧
    ∀ userMessage,(∀ x ∈ turnMediations [⟨.User,userMessage⟩] userMessage none s,¬ Objected x.1 x.2) →
      Reasoned (runTurn userMessage s).events := by
  refine ⟨fun prompt limits clear => ?_,fun userMessage clear => ?_⟩
  · exact run_follows reasoned_composes (P := fun x => ¬ Objected x.1 x.2) (fun _ _ _ _ within => runOneTurn_reasoned within)
      (fun m => .Idle (aside_instantNow m)) (fun _ _ _ _ m => .Idle (aside_openTurn _ _ _ _ m))
      (fun _ _ _ _ _ _ m => .Idle (aside_concludeTurn _ _ _ _ _ _ m))
      (fun _ _ _ _ _ m => .Idle (aside_emitCapAndBuildErr _ _ _ _ _ m)) prompt limits clear
  · exact runTurn_follows reasoned_composes (P := fun x => ¬ Objected x.1 x.2) (fun _ _ _ _ within => runOneTurn_reasoned within)
      userMessage clear

/-- Files that never change bind whatever a session becomes. -/
theorem steady_kept {files : String → List UInt8} {s m : Session} (kept : Chronicle.Kept s m)
    (holds : ∀ tick path,World.fileBytes tick path = .ok (files path)) (binds : Faultless.Binds files s) : Faultless.Steady m := by
  refine ⟨files,fun tick _ path => holds tick path,?_⟩
  rw [kept]
  exact binds

theorem steady_undrifting {s : Session} (steady : Faultless.Steady s) : ¬ Drifts s := by
  rintro ⟨live,m,events,mismatch,runs,drifted⟩
  obtain ⟨files,holds,binds⟩ := steady.unchanged
  obtain ⟨_,found,-⟩ := Faultless.computeLiveDigests_holds holds
  cases runs.symm.trans found
  rw [verifyDigestBinding,binds] at drifted
  simp [mismatch?] at drifted

end

section
open Reference Faultless FaultlessTurn

/-- The model reads the file again and again. -/
def readingModel : LoadedModel :=
  ⟨fun _ _ => .ok ⟨"look at the data",[⟨"filesystem__read",pathArgs "/data/a"⟩],none,none⟩⟩

theorem readCall_mediated (stepId : String) :
    mediatedCall ⟨"filesystem__read",pathArgs "/data/a"⟩ (some stepId) = some (.FilesystemRead "/data/a" (some stepId)) := by
  have routed : routeOf "filesystem__read" = some (.Filesystem "read") := by decide
  rw [mediatedCall,routed]
  rfl

theorem reasoning_labels_read :
    let _ := calmWorld reading
    ∃ booted,boot config = .ok booted ∧
      Reasoned (run "read it" defaultLimits (setLoadedModel (attach booted none none) readingModel)).events ∧
      Reasoned (runTurn "read it" (setLoadedModel (attach booted none none) readingModel)).events := by
  intro world
  obtain ⟨booted,boots,fresh,-⟩ := calm_boots reading rfl rfl
  have clear : ∀ {events x},Arises (Requested (setLoadedModel (attach booted none none) readingModel))
      (setLoadedModel (attach booted none none) readingModel) events x → ¬ Objected x.1 x.2 := by
    rintro events ⟨m,mediated⟩ ⟨kept,⟨call,stepId,⟨model,tick,request,response,loaded,answers,member⟩,named⟩,-⟩
    cases loaded
    cases answers
    cases List.mem_singleton.mp member
    rw [readCall_mediated] at named
    cases named
    dsimp only at kept
    have policy : m.policy = reading := by
      rw [kept]
      exact fresh.policy
    have steady : Steady m := steady_kept kept (fun _ _ => rfl) fresh.binds
    rintro (drifts | ⟨rebinds,denied⟩ | ⟨-,crowded⟩)
    · exact steady_undrifting steady drifts
    · obtain ⟨denial,-,-⟩ := runs_reads.mp denied
      have same := congrArg Session.policy (rebinds.respects logs_rebind).same
      rw [same] at denial
      dsimp only at denial
      rw [policy] at denial
      have allows : checkFilesystemRead reading "/data/a" = .Allow := by decide
      cases denial.trans allows
    · apply crowded
      rw [policy]
      exact ⟨_,rfl⟩
  refine ⟨booted,boots,(reasoning_labels _).1 "read it" defaultLimits fun x listed => clear (run_arises listed),?_⟩
  exact (reasoning_labels _).2 "read it" fun x listed => clear (turn_arises listed)

/-- The model removes a file. -/
def removingModel : LoadedModel :=
  ⟨fun _ _ => .ok ⟨"tidy up",[⟨"exec__run",Reference.execArgs "/bin/rm"⟩],none,none⟩⟩

theorem removeCall_mediated (stepId : String) :
    mediatedCall ⟨"exec__run",Reference.execArgs "/bin/rm"⟩ (some stepId) = some (.Exec "/bin/rm" [] (some stepId)) := by
  have routed : routeOf "exec__run" = some (.Exec "run") := by decide
  rw [mediatedCall,routed]
  rfl

/-- The violation of a call that the policy denies names no reasoning step. -/
theorem denial_unlabelled :
    let _ := calmWorld closed
    ∃ booted,boot config = .ok booted ∧
      ¬ Reasoned (runTurn "tidy up" (setLoadedModel (attach booted none none) removingModel)).events := by
  intro world
  obtain ⟨booted,boots,fresh,ready⟩ := calm_boots closed rfl rfl
  refine ⟨booted,boots,fun reasoned => ?_⟩
  generalize started : setLoadedModel (attach booted none none) removingModel = s at reasoned
  have holds : Ready s.next 2 := by
    rw [← started]
    have few := ready.fewer (by decide : 2 ≤ 100)
    exact ⟨few.healthy,few.own,few.few⟩
  have asks : Runs (infer [⟨.User,"tidy up"⟩] (toolCatalog s.policy)) s _ s.next _ :=
    infer_runs (show s.loadedModel = some removingModel by rw [← started]; rfl) rfl
  obtain ⟨record,ledger,reasons,left⟩ := recordReasoningStep_ready holds (show "tidy up" ≠ "" by decide) "tidy up"
    ((toolCatalog s.policy).map (·.name)) (some "exec__run")
  have listed : (s.next.next.next.wrote ledger,Call.Exec "/bin/rm" [] (some (World.uuid s.next.tick).toString)) ∈
      turnMediations [⟨.User,"tidy up"⟩] "tidy up" none s := by
    rw [turnMediations,following_ok asks.result,asks.state,answerMediations]
    dsimp only [List.head?_cons,Option.map_some]
    rw [following_ok reasons.result,reasons.state]
    have none : recordedTurn none (s.next.next.next.wrote ledger).ledger.schemaVersion = none := by
      unfold recordedTurn
      split_ifs <;> rfl
    rw [none]
    refine List.mem_append_left _ ?_
    rw [callMediations,dispatchMediations,removeCall_mediated]
    exact List.mem_singleton_self _
  have binds : Binds Reference.files s := started ▸ fresh.binds
  have steady : Steady (s.next.next.next.wrote ledger) := steady_kept (turn_arises listed).kept (fun _ _ => rfl) binds
  have denies : checkExec (s.next.next.next.wrote ledger).policy "/bin/rm" = .Deny "exec of /bin/rm not granted by manifest" := by
    have policy : s.policy = closed := started ▸ fresh.policy
    have kept : Chronicle.Kept s (s.next.next.next.wrote ledger) := (turn_arises listed).kept
    rw [congrArg Session.policy kept]
    dsimp only
    rw [policy]
    decide
  obtain ⟨t,events,entry,written,stops,member,violation,payload⟩ :=
    mediateExec_denies (some (World.uuid s.next.tick).toString) [] steady left denies
  have inside : .Append entry (.ok (.ok written)) ∈ (runTurn "tidy up" s).events := by
    rw [runTurn,(alike_return (runOneTurn [⟨.User,"tidy up"⟩] "tidy up" none) (·.1) s).1]
    refine (turn_arises listed).within ?_
    rw [mediate,bind_pure_events.1,stops.events]
    exact member
  have unnamed : ∀ key,key = "violationKind" ∨ key = "reasoningStepId" → Map.get entry.payload.fields key = none := by
    intro key either
    rw [payload,get_payloadOf]
    rcases either with rfl | rfl <;> simp [denialFields,Engine.optional,fieldOf]
  rcases reasoned.violation inside violation with ⟨-,kind,-,held⟩ | ⟨stepId,held⟩
  · rw [unnamed _ (.inl rfl)] at held
    cases held
  · rw [Carries,unnamed _ (.inr rfl)] at held
    cases held

end

end AegisNode.Reasoning
