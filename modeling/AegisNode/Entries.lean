import AegisNode.Frames

/-!
The entries of a mediated call: which kinds there are, what their fields say of the
call, and that a call appends no others.
-/
namespace AegisNode.Entries
open Clock Json Schema Policy Grants Aggregate Traced Engine Mediator Frames
open Ledger hiding Error
set_option linter.unusedSectionVars false

/-! ### The fields of a payload -/

/-- The value that a payload of the fields holds for a key: the last one given. -/
def fieldOf (fields : List (String × Scalar)) (key : String) : Option Value :=
  (fields.reverse.find? (fun field => field.1 = key)).map (·.2.value)

theorem get_payloadOf (fields : List (String × Scalar)) (key : String) :
    Map.get (payloadOf fields).fields key = fieldOf fields key := by
  change Map.get (Map.insertAll [] (fields.map (fun field => (field.1,field.2.value)))) key = _
  induction fields using List.reverseRecOn with
  | nil => rfl
  | append_singleton fields field ih =>
    rw [List.map_append,Map.insertAll,List.foldl_append]
    rw [Map.insertAll] at ih
    simp only [List.map_cons,List.map_nil,List.foldl_cons,List.foldl_nil,get_insert,ih,fieldOf,List.reverse_append,
      List.reverse_cons,List.reverse_nil,List.nil_append,List.singleton_append,List.find?_cons]
    by_cases same : field.1 = key <;> simp [same]

/-! ### Targets -/

section
variable [World]

/-- The ways to name a file: a relative path is completed if there is a current
    directory. -/
inductive FileTarget (path : String) : String → Prop where
  | Given : FileTarget path ("file://" ++ path)
  | Joined {tick : Nat} {dir : String} (relative : Paths.isAbsolute path = false) (current : World.currentDir tick = some dir) :
      FileTarget path ("file://" ++ joinPath dir path)

/-- A resource and a kind of access that stand for the call; an argument that is
    validated stands for it too. -/
def Targets : Call → String → String → Prop
  | .FilesystemRead path _,uri,kind => FileTarget path uri ∧ kind = "read"
  | .FilesystemWrite path _ _,uri,kind => FileTarget path uri ∧ kind = "write"
  | .FilesystemDelete path _,uri,kind => FileTarget path uri ∧ kind = "delete"
  | .NetworkConnect host port proto _,uri,kind => uri = networkUri host port proto ∧ kind = "network_outbound"
  | .McpToolCall serverName toolName _ _,uri,kind => (uri = mcpUri serverName toolName ∧ kind = "mcp_tool_call") ∨
      ∃ clause value,uri = preValidateUri serverName toolName clause value ∧ kind = "mcp_pre_validate"
  | .Exec program _ _,uri,kind => uri = execUri program ∧ kind = "exec"

theorem fileUri_target {path uri : String} {s t : Session} {events : List Event} (runs : Runs (fileUri path) s uri t events) :
    FileTarget path uri := by
  unfold fileUri at runs
  split_ifs at runs with absolute
  · obtain ⟨rfl,-,-⟩ := runs_pure.mp runs
    exact .Given
  · rw [currentDir,runs_ask_bind] at runs
    obtain ⟨rest,runs,-⟩ := runs
    cases current : World.currentDir s.tick with
    | none =>
      rw [current] at runs
      obtain ⟨rfl,-,-⟩ := runs_pure.mp runs
      exact .Given
    | some dir =>
      rw [current] at runs
      obtain ⟨rfl,-,-⟩ := runs_pure.mp runs
      exact .Joined (by simpa using absolute) current

end

/-- No resource in particular. -/
def Anything (_ _ : String) : Prop := True

/-- The reasoning step of a call. -/
def stepOf : Call → Option String
  | .FilesystemRead _ rsid => rsid
  | .FilesystemWrite _ _ rsid => rsid
  | .FilesystemDelete _ rsid => rsid
  | .NetworkConnect _ _ _ rsid => rsid
  | .McpToolCall _ _ _ rsid => rsid
  | .Exec _ _ rsid => rsid

/-! ### Kinds of entries -/

def denialFields (reason : String) (resourceUri accessType : Option String) : List (String × Scalar) :=
  [("violationReason",.Text reason)] ++ Engine.optional "resourceUri" resourceUri ++ Engine.optional "accessType" accessType

def breachFields (breach : AggregateCapExceeded) (resourceUri accessKind : String) : List (String × Scalar) :=
  [("violationKind",.Text "AggregateCapExceeded"),
   ("violationReason",.Text ("aggregate cap exceeded: class=" ++ breach.toolClass.label ++ " bound=" ++ breach.bound ++
     " observed=" ++ toString breach.observed.toNat ++ " cap=" ++ toString breach.cap.toNat)),
   ("resourceUri",.Text resourceUri),("accessType",.Text accessKind),("toolClass",.Text breach.toolClass.label),
   ("capBound",.Text breach.bound),("observed",.Count breach.observed),("cap",.Count breach.cap)]

def requestFields (req : ApprovalRequest) (expiresAt : String) : List (String × Scalar) :=
  [("actionSummary",.Text req.actionSummary),("resourceUri",.Text req.resourceUri),("accessType",.Text req.accessType)] ++
    Engine.optional "reasoningStepId" req.reasoningStepId ++ [("expiresAt",.Text expiresAt)]

def grantedFields (approver decidedAt : String) (rsid : Option String) : List (String × Scalar) :=
  [("approverId",.Text approver),("decision",.Text "granted"),("decidedAt",.Text decidedAt)] ++
    Engine.optional "reasoningStepId" rsid

def rejectedFields (reason decidedAt : String) (rsid : Option String) : List (String × Scalar) :=
  [("decision",.Text "rejected"),("decidedAt",.Text decidedAt),("violationReason",.Text reason)] ++
    Engine.optional "reasoningStepId" rsid

def timedOutFields (expiredAt : String) (rsid : Option String) : List (String × Scalar) :=
  [("decision",.Text "timed_out"),("decidedAt",.Text expiredAt)] ++ Engine.optional "reasoningStepId" rsid

def decisionFields (first : List (String × Scalar)) (op : Operation) (rsid : Option String) (last : List (String × Scalar)) :
    List (String × Scalar) :=
  first ++ [("resourceUri",.Text op.resourceUri),("accessType",.Text op.accessKind)] ++
    Engine.optional "reasoningStepId" rsid ++ last

def advisoryFields [Serde] [Sha256] (op : Operation) (rsid : Option String) : List (String × Scalar) :=
  decisionFields [("decision",.Text "auto_advisory"),("toolName",.Text op.toolName),
    ("grantArgHashHex",.Text (Bytes.hexEncode (canonicalArgHash op.canonicalArgs).bytes))] op rsid []

def consumedFields (op : Operation) (rsid : Option String) (grant : ApprovalGrant) : List (String × Scalar) :=
  decisionFields [("decision",.Text (consumedOutcome grant.decision)),("toolName",.Text op.toolName),
    ("sourceGrantId",.Text grant.grantId.toString),("grantArgHashHex",.Text grant.argHashHex)] op rsid
    (Engine.optional "denyReason" (cachedReason grant.decision))

def issuedFields (op : Operation) (rsid : Option String) (grant : ApprovalGrant) (approver : String) (ttlSecs : Nat) :
    List (String × Scalar) :=
  decisionFields [("decision",.Text "grant_issued"),("toolName",.Text op.toolName),
    ("sourceGrantId",.Text grant.grantId.toString),("grantArgHashHex",.Text grant.argHashHex),
    ("grantTtlSeconds",.Count (UInt64.ofNat ttlSecs)),("approverId",.Text approver)] op rsid []

section
variable [Serde] [Sha256]

/-- The entries that an approval with the reasoning step may write about its targets. -/
inductive Approved (rsid : Option String) (about : String → String → Prop) : EntryType → List (String × Scalar) → Prop where
  | Request {req : ApprovalRequest} (expiresAt : String) (own : about req.resourceUri req.accessType)
      (step : req.reasoningStepId = rsid) : Approved rsid about .ApprovalRequest (requestFields req expiresAt)
  | Granted (approver decidedAt : String) : Approved rsid about .ApprovalGranted (grantedFields approver decidedAt rsid)
  | Rejected (reason decidedAt : String) : Approved rsid about .ApprovalRejected (rejectedFields reason decidedAt rsid)
  | TimedOut (expiredAt : String) : Approved rsid about .ApprovalTimedOut (timedOutFields expiredAt rsid)
  | Advisory {op : Operation} (own : about op.resourceUri op.accessKind) :
      Approved rsid about .ApprovalDecision (advisoryFields op rsid)
  | Consumed {op : Operation} (grant : ApprovalGrant) (own : about op.resourceUri op.accessKind) :
      Approved rsid about .ApprovalDecision (consumedFields op rsid grant)
  | Issued {op : Operation} (grant : ApprovalGrant) (approver : String) (ttlSecs : Nat)
      (own : about op.resourceUri op.accessKind) :
      Approved rsid about .ApprovalDecision (issuedFields op rsid grant approver ttlSecs)

/-- The entries of the other parts of a call. -/
inductive Worked (rsid : Option String) (about : String → String → Prop) : EntryType → List (String × Scalar) → Prop where
  | Access {uri : String} {accessType : AccessType} (bytes : UInt64) (own : about uri accessType.name) :
      Worked rsid about .Access (accessFields uri accessType bytes rsid)
  | Denial {uri kind : String} (reason : String) (own : about uri kind) :
      Worked rsid about .Violation (denialFields reason (some uri) (some kind))
  | Drift (mismatch : DigestMismatch) : Worked rsid about .Violation
      (denialFields ("identity digest binding violated: " ++ mismatch.text)
        (some ("digest-binding://" ++ mismatch.field.name)) none)
  | Breach {uri kind : String} (breach : AggregateCapExceeded) (own : about uri kind) :
      Worked rsid about .Violation (breachFields breach uri kind)

/-- The entries that a call may write. -/
inductive Written (rsid : Option String) (about : String → String → Prop) : EntryType → List (String × Scalar) → Prop where
  | Work {entryType : EntryType} {fields : List (String × Scalar)} (worked : Worked rsid about entryType fields) :
      Written rsid about entryType fields
  | Approval {entryType : EntryType} {fields : List (String × Scalar)} (approved : Approved rsid about entryType fields) :
      Written rsid about entryType fields

end

/-- What is appended is an entry of these kinds; a call neither infers nor issues
    SVIDs. -/
def Records (kinds : EntryType → List (String × Scalar) → Prop) : Event → Prop
  | .Append entry _ => ∃ fields,kinds entry.entryType fields ∧ entry.payload = payloadOf fields
  | .Inferred _ _ => False
  | .IssuedTurnSvid _ _ _ => False
  | _ => True

/-- Nothing is appended. -/
def Unwritten : Event → Prop
  | .Append _ _ => False
  | .Inferred _ _ => False
  | .IssuedTurnSvid _ _ _ => False
  | _ => True

section
variable {kinds broader : EntryType → List (String × Scalar) → Prop}

theorem Unwritten.records (e : Event) (unwritten : Unwritten e) : Records kinds e := by
  cases e <;> first | exact unwritten | trivial

theorem records_of_unwritten {α : Type} {p : Run α} (unwritten : Respects (Each Unwritten) p) :
    Respects (Each (Records kinds)) p := each_mono Unwritten.records unwritten

theorem Records.mono (wider : ∀ {entryType fields},kinds entryType fields → broader entryType fields) (e : Event)
    (records : Records kinds e) : Records broader e := by
  cases e with
  | Append entry result =>
    obtain ⟨fields,kind,payload⟩ := records
    exact ⟨fields,wider kind,payload⟩
  | _ => exact records

end

/-! ### Parts that write nothing -/

theorem unwritten_pure {α : Type} (a : α) : Respects (Each Unwritten) (pure a : Run α) := respects_pure (each_composes _) a

theorem unwritten_deny {α : Type} (error : Error) : Respects (Each Unwritten) (deny error : Run α) :=
  respects_fail (each_composes _) _

theorem unwritten_reads {α : Type} (f : Session → α) : Respects (Each Unwritten) (reads f : Run α) :=
  respects_reads (each_composes _) f

theorem unwritten_update (f : Session → Session) : Respects (Each Unwritten) (update f : Run Unit) :=
  fun _ => by simp [Each,update]

theorem unwritten_orFail {ε α : Type} (wrap : ε → Error) (result : Except ε α) : Respects (Each Unwritten) (orFail wrap result) :=
  respects_ofExcept (each_composes _) _

theorem unwritten_orPanic {α : Type} (result : Checked α) : Respects (Each Unwritten) (orPanic result) :=
  respects_ofExcept (each_composes _) _

theorem unwritten_ask {α : Type} {answer : Nat → α} {event : α → List Event} (none : ∀ a,∀ e ∈ event a,Unwritten e) :
    Respects (Each Unwritten) (ask answer event) := fun s => none (answer s.tick)

theorem unwritten_perform {α : Type} (effect : Effect) (answer : Nat → α) : Respects (Each Unwritten) (perform effect answer) :=
  fun _ => by simp [Each,perform,Unwritten]

section
variable [World]

theorem unwritten_utcNow : Respects (Each Unwritten) utcNow := unwritten_ask (by simp [Unwritten])

theorem unwritten_systemNow : Respects (Each Unwritten) systemNow := unwritten_ask (by simp [Unwritten])

theorem unwritten_fileUri (path : String) : Respects (Each Unwritten) (fileUri path) := by
  intro s
  rw [fileUri_silent]
  simp [Each]

theorem unwritten_storeGrant [Serde] [Sha256] (op : Operation) (ttlSecs : Nat) (decision : GrantDecision) :
    Respects (Each Unwritten) (storeGrant op ttlSecs decision) := by
  refine each_bind (unwritten_ask (by simp)) fun grantId => ?_
  refine each_bind unwritten_systemNow fun issuedAt => ?_
  exact each_bind (unwritten_update _) fun _ => unwritten_pure _

theorem unwritten_logConnection (host : String) (port : UInt16) (proto : NetworkProto) (decision : NetworkConnectionDecision) :
    Respects (Each Unwritten) (logConnection host port proto decision) :=
  each_bind unwritten_utcNow fun _ => unwritten_update _

theorem unwritten_sha256File [Sha256] (path : String) : Respects (Each Unwritten) (sha256File path) := by
  refine each_bind (unwritten_ask (by simp [Unwritten])) fun bytes => ?_
  exact each_bind (unwritten_orFail _ bytes) fun _ => unwritten_pure _

theorem unwritten_computeLiveDigests [Sha256] : Respects (Each Unwritten) computeLiveDigests := by
  refine each_bind (unwritten_reads _) fun modelPath => ?_
  refine each_bind (unwritten_sha256File modelPath) fun model => ?_
  refine each_bind (unwritten_reads _) fun manifestPath => ?_
  refine each_bind (unwritten_sha256File manifestPath) fun manifest => ?_
  refine each_bind (unwritten_reads _) fun configPath => ?_
  refine each_bind ?_ fun _ => unwritten_pure _
  cases configPath with
  | none => exact unwritten_pure _
  | some path => exact unwritten_sha256File path

theorem unwritten_writeDecisionNow [Chrono] (path : String) : Respects (Each Unwritten) (writeDecisionNow path) := by
  refine each_bind unwritten_utcNow fun now => ?_
  exact each_bind (unwritten_reads _) fun checked => unwritten_orPanic checked

theorem unwritten_deleteDecisionNow [Chrono] (path : String) : Respects (Each Unwritten) (deleteDecisionNow path) := by
  refine each_bind unwritten_utcNow fun now => ?_
  exact each_bind (unwritten_reads _) fun checked => unwritten_orPanic checked

theorem unwritten_clauseDecision [Chrono] (serverName toolName : String) (clause : PreValidateClause) (value : String) :
    Respects (Each Unwritten) (clauseDecision serverName toolName clause value) := by
  unfold clauseDecision
  cases clause.kind with
  | FilesystemRead => exact unwritten_reads _
  | FilesystemWrite => exact unwritten_writeDecisionNow value
  | FilesystemDelete => exact unwritten_deleteDecisionNow value
  | NetworkOutbound => exact each_bind (unwritten_orFail _ _) fun _ => unwritten_reads _

end

/-! ### Parts that write -/

section
variable [Chrono] [Serde] [Sha256] {kinds : EntryType → List (String × Scalar) → Prop} {rsid : Option String}
  {about : String → String → Prop}

theorem records_emit {wrap : Ledger.Error → Error} {entryType : EntryType} {timestamp : Int}
    {fields : List (String × Scalar)} (written : kinds entryType fields) :
    Respects (Each (Records kinds)) (emit wrap entryType timestamp (payloadOf fields)) := by
  refine each_bind (records_of_unwritten (unwritten_reads _)) fun sessionId => ?_
  refine each_bind (records_of_unwritten (unwritten_reads _)) fun agentHash => ?_
  refine each_bind ?_ fun result => ?_
  · intro s e member
    cases List.mem_singleton.mp member
    exact ⟨fields,written,rfl⟩
  · exact each_bind (records_of_unwritten (unwritten_orFail wrap result)) fun _ => records_of_unwritten (unwritten_pure _)

variable [World]

/-- The shape of most entries: the time is read first. -/
theorem records_now {α : Type} {entry : Int → Run α} (each : ∀ now,Respects (Each (Records kinds)) (entry now)) :
    Respects (Each (Records kinds)) (utcNow >>= entry) := each_bind (records_of_unwritten unwritten_utcNow) each

theorem records_emitSuccess {resourceUri : String} {accessType : AccessType} (own : about resourceUri accessType.name)
    (bytes : UInt64) : Respects (Each (Records (Worked rsid about))) (emitSuccess resourceUri accessType bytes rsid) := by
  refine records_now fun now => ?_
  split_ifs
  · exact records_of_unwritten (unwritten_deny _)
  · exact records_emit (.Access bytes own)

theorem records_emitDeny {resourceUri accessKind : String} (own : about resourceUri accessKind) (reason : String) :
    Respects (Each (Records (Worked rsid about))) (emitDeny resourceUri accessKind reason) :=
  records_now fun _ => records_emit (.Denial reason own)

/-- A refusal is recorded and reported. -/
theorem records_refused {α : Type} {resourceUri accessKind : String} (own : about resourceUri accessKind)
    (reason : String) (error : Error) : Respects (Each (Records (Worked rsid about))) (do
      emitDeny resourceUri accessKind reason
      (deny error : Run α)) :=
  each_bind (records_emitDeny own reason) fun _ => records_of_unwritten (unwritten_deny _)

theorem records_rebind [Identity] : Respects (Each (Records (Worked rsid about))) rebind := by
  refine each_bind (records_of_unwritten unwritten_computeLiveDigests) fun live => ?_
  refine each_bind (records_of_unwritten (unwritten_reads _)) fun certPem => ?_
  refine records_now fun now => ?_
  refine each_bind (records_of_unwritten (unwritten_orFail _ _)) fun found => ?_
  cases found with
  | none => exact records_of_unwritten (unwritten_pure _)
  | some mismatch => exact each_bind (records_emit (.Drift mismatch)) fun _ => records_of_unwritten (unwritten_deny _)

theorem records_takeOutcome {op : Operation} (own : about op.resourceUri op.accessKind) (ttlSecs : Nat)
    {req : ApprovalRequest} (step : req.reasoningStepId = rsid) (outcome : ApprovalOutcome) :
    Respects (Each (Records (Approved rsid about))) (takeOutcome op rsid ttlSecs req outcome) := by
  subst step
  cases outcome with
  | Granted approver decidedAt =>
    refine each_bind (records_now fun _ => records_emit (.Granted _ _)) fun _ => ?_
    refine each_bind (records_of_unwritten (unwritten_storeGrant _ _ _)) fun grant => ?_
    refine each_bind (records_now fun _ => records_emit (.Issued grant approver ttlSecs own)) fun _ => ?_
    exact records_of_unwritten (unwritten_pure _)
  | Rejected reason decidedAt =>
    refine each_bind (records_now fun _ => records_emit (.Rejected _ _)) fun _ => ?_
    refine each_bind (records_of_unwritten (unwritten_storeGrant _ _ _)) fun _ => ?_
    exact records_of_unwritten (unwritten_deny _)
  | TimedOut expiredAt =>
    refine each_bind (records_now fun _ => records_emit (.TimedOut _)) fun _ => ?_
    exact records_of_unwritten (unwritten_deny _)

theorem records_approve {op : Operation} (own : about op.resourceUri op.accessKind) (summary : String) :
    Respects (Each (Records (Approved rsid about))) (approve op rsid summary) := by
  refine each_bind (records_of_unwritten (unwritten_reads _)) fun tier => ?_
  refine each_bind (records_of_unwritten (unwritten_reads _)) fun ttlSecs => ?_
  split_ifs
  · exact each_bind (records_now fun _ => records_emit (.Advisory own)) fun _ => records_of_unwritten (unwritten_pure _)
  refine each_bind (records_of_unwritten unwritten_systemNow) fun now => ?_
  refine each_bind (records_of_unwritten (unwritten_reads _)) fun grant => ?_
  cases grant with
  | some grant =>
    refine each_bind (records_now fun _ => records_emit (.Consumed grant own)) fun _ => ?_
    cases grant.decision with
    | Allow => exact records_of_unwritten (unwritten_pure _)
    | Deny reason => exact records_of_unwritten (unwritten_deny _)
  | none =>
    refine each_bind (records_of_unwritten (unwritten_reads _)) fun channel => ?_
    cases channel with
    | none => exact records_of_unwritten (unwritten_pure _)
    | some channel =>
      intro s
      rw [askAttached,askOperator,reads_bind]
      refine each_bind (records_now fun asked => records_now fun now => records_emit (.Request _ own rfl)) (fun _ => ?_) s
      refine each_bind (records_of_unwritten (unwritten_ask (by simp [Unwritten]))) fun outcome => ?_
      refine each_bind (records_of_unwritten (unwritten_orFail _ _)) fun outcome => ?_
      exact records_takeOutcome own ttlSecs rfl outcome

theorem records_routeThroughApproval {op : Operation} (own : about op.resourceUri op.accessKind) (decision : Decision) :
    Respects (Each (Records (Approved rsid about))) (routeThroughApproval decision op rsid) := by
  cases decision with
  | Allow => exact records_of_unwritten (unwritten_pure _)
  | Deny reason => exact records_of_unwritten (unwritten_pure _)
  | RequireApproval summary => exact records_approve own summary

theorem written_of_approved {α : Type} {p : Run α} (approved : Respects (Each (Records (Approved rsid about))) p) :
    Respects (Each (Records (Written rsid about))) p := each_mono (Records.mono .Approval) approved

theorem written_of_worked {α : Type} {p : Run α} (worked : Respects (Each (Records (Worked rsid about))) p) :
    Respects (Each (Records (Written rsid about))) p := each_mono (Records.mono .Work) worked

theorem records_enforceAggregateQuota {resourceUri accessKind : String} (own : about resourceUri accessKind)
    (toolClass : ToolClass) : Respects (Each (Records (Worked rsid about))) (enforceAggregateQuota toolClass resourceUri accessKind) := by
  refine each_bind (records_of_unwritten (unwritten_reads _)) fun quota => ?_
  refine each_bind (records_of_unwritten (unwritten_reads _)) fun state => ?_
  cases checkAndIncrement state toolClass quota with
  | ok counted => exact records_of_unwritten (unwritten_update _)
  | error breach =>
    refine each_bind (records_now fun _ => records_emit (.Breach breach own)) fun _ => ?_
    exact records_of_unwritten (unwritten_deny _)

/-- The answer of an effect is reported or recorded. -/
theorem records_concluded {ε α : Type} {resourceUri : String} {accessType : AccessType}
    (own : about resourceUri accessType.name) (wrap : ε → Error) (answer : Except ε α) (bytes : α → UInt64) :
    Respects (Each (Records (Worked rsid about))) (do
      let value ← orFail wrap answer
      emitSuccess resourceUri accessType (bytes value) rsid
      return value) := by
  refine each_bind (records_of_unwritten (unwritten_orFail _ _)) fun value => ?_
  exact each_bind (records_emitSuccess own _) fun _ => records_of_unwritten (unwritten_pure _)

theorem records_settle {α : Type} {g : Gated α} {resourceUri : String} (own : about resourceUri g.accessType.name)
    (decision : Decision) : Respects (Each (Records (Worked rsid about))) (settle g resourceUri rsid decision) := by
  cases decision with
  | Allow =>
    refine each_bind (records_enforceAggregateQuota own _) fun _ => ?_
    refine each_bind (records_of_unwritten (unwritten_perform _ _)) fun answer => ?_
    exact records_concluded own _ answer g.bytes
  | Deny reason => exact records_refused own reason _
  | RequireApproval reason => exact records_of_unwritten (unwritten_deny _)

variable [Identity]

theorem records_mediateGated {α : Type} {g : Gated α} (decides : Respects (Each Unwritten) g.decision)
    (locates : Respects (Each Unwritten) g.resourceUri)
    (own : ∀ {s resourceUri t events},Runs g.resourceUri s resourceUri t events → about resourceUri g.accessType.name) :
    Respects (Each (Records (Written rsid about))) (mediateGated g rsid) := by
  refine each_bind (written_of_worked records_rebind) fun _ => ?_
  refine each_bind (records_of_unwritten decides) fun decision => ?_
  intro s
  cases located : (g.resourceUri s).result with
  | error e =>
    rw [bind_error located]
    exact records_of_unwritten locates s
  | ok resourceUri =>
    have named := own (runs_of_result located)
    rw [bind_ok located]
    refine (each_composes _).append (records_of_unwritten locates s) ?_
    refine each_bind (written_of_approved (records_routeThroughApproval named decision)) (fun routed => ?_) _
    exact written_of_worked (records_settle named routed)

theorem records_finishConnect {host : String} {port : UInt16} {proto : NetworkProto}
    (own : about (networkUri host port proto) "network_outbound") (initial : Decision) (routed : Except Error Decision) :
    Respects (Each (Records (Worked rsid about))) (finishConnect initial host port proto rsid routed) := by
  have logs : ∀ decision,Respects (Each (Records (Worked rsid about))) (logConnection host port proto decision) :=
    fun decision => records_of_unwritten (unwritten_logConnection host port proto decision)
  cases routed with
  | error error => exact each_bind (logs _) fun _ => records_of_unwritten (unwritten_deny _)
  | ok decision =>
    cases decision with
    | Allow =>
      refine each_bind (records_of_unwritten (unwritten_perform _ _)) fun answer => ?_
      refine each_bind (records_of_unwritten (unwritten_orFail _ _)) fun _ => ?_
      exact each_bind (records_emitSuccess own _) fun _ => logs _
    | Deny reason =>
      refine each_bind (records_emitDeny own reason) fun _ => ?_
      exact each_bind (logs _) fun _ => records_of_unwritten (unwritten_deny _)
    | RequireApproval reason => exact each_bind (logs _) fun _ => records_of_unwritten (unwritten_deny _)

theorem records_mediateNetworkConnect {host : String} {port : UInt16} {proto : NetworkProto}
    (own : about (networkUri host port proto) "network_outbound") :
    Respects (Each (Records (Written rsid about))) (mediateNetworkConnect host port proto rsid) := by
  refine each_bind (written_of_worked records_rebind) fun _ => ?_
  refine each_bind (records_of_unwritten (unwritten_reads _)) fun initial => ?_
  refine each_bind (respects_attempt (written_of_approved (records_routeThroughApproval own initial))) fun routed => ?_
  exact written_of_worked (records_finishConnect own initial routed)

/-! ### MCP calls -/

variable {serverName toolName : String}

theorem records_preValidateValues
    (own : ∀ clause value,about (preValidateUri serverName toolName clause value) "mcp_pre_validate")
    (clause : PreValidateClause) (values : List String) :
    Respects (Each (Records (Worked rsid about))) (preValidateValues serverName toolName clause values) := by
  induction values with
  | nil => exact records_of_unwritten (unwritten_pure _)
  | cons value rest ih =>
    refine each_bind ?_ fun _ => ih
    refine each_bind (records_of_unwritten (unwritten_clauseDecision _ _ _ _)) fun decision => ?_
    cases decision with
    | Allow => exact records_of_unwritten (unwritten_pure _)
    | Deny reason => exact records_refused (own clause value) reason _
    | RequireApproval reason => exact records_of_unwritten (unwritten_deny _)

theorem records_runMcpPreValidate
    (own : ∀ clause value,about (preValidateUri serverName toolName clause value) "mcp_pre_validate") (args : Value)
    (clauses : List PreValidateClause) :
    Respects (Each (Records (Worked rsid about))) (runMcpPreValidate serverName toolName args clauses) := by
  induction clauses with
  | nil => exact records_of_unwritten (unwritten_pure _)
  | cons clause rest ih =>
    refine each_bind (records_of_unwritten (unwritten_orFail _ _)) fun values => ?_
    exact each_bind (records_preValidateValues own clause values) fun _ => ih

theorem records_callAttached (own : about (mcpUri serverName toolName) "mcp_tool_call") (serverUri : String) (args : Value)
    (client : Option McpClient) :
    Respects (Each (Records (Worked rsid about))) (callAttached serverName serverUri toolName args rsid client) := by
  cases client with
  | none => exact records_refused own _ _
  | some client =>
    refine each_bind (records_of_unwritten (unwritten_perform _ _)) fun answer => ?_
    exact records_concluded (show about (mcpUri serverName toolName) AccessType.McpToolCall.name from own) _ answer _

theorem records_mediateMcpToolCall (own : about (mcpUri serverName toolName) "mcp_tool_call")
    (arguments : ∀ clause value,about (preValidateUri serverName toolName clause value) "mcp_pre_validate") (args : Value) :
    Respects (Each (Records (Worked rsid about))) (mediateMcpToolCall serverName toolName args rsid) := by
  refine each_bind records_rebind fun _ => ?_
  refine each_bind (records_of_unwritten (unwritten_reads _)) fun decision => ?_
  cases decision with
  | Deny reason => exact records_refused own reason _
  | RequireApproval reason => exact records_of_unwritten (unwritten_deny _)
  | Allow =>
    refine each_bind (records_of_unwritten (unwritten_reads _)) fun grant => ?_
    cases grant with
    | none => exact records_refused own _ _
    | some grant =>
      refine each_bind (records_runMcpPreValidate arguments args _) fun _ => ?_
      refine each_bind (records_enforceAggregateQuota own _) fun _ => ?_
      refine each_bind (records_of_unwritten (unwritten_reads _)) fun client => ?_
      exact records_callAttached own _ args client

/-- A mediated call appends entries of these kinds only, about its own targets and with
    its own reasoning step. -/
theorem records_mediate (call : Call) : Respects (Each (Records (Written (stepOf call) (Targets call)))) (mediate call) := by
  have valueless : ∀ {α : Type} {p : Run α},Respects (Each (Records (Written (stepOf call) (Targets call)))) p →
      Respects (Each (Records (Written (stepOf call) (Targets call)))) (do let _ ← p) :=
    fun inner => each_bind inner fun _ => records_of_unwritten (unwritten_pure _)
  cases call with
  | FilesystemRead path rsid =>
    exact valueless (records_mediateGated (unwritten_reads _) (unwritten_fileUri path) fun runs => ⟨fileUri_target runs,rfl⟩)
  | FilesystemWrite path contents rsid =>
    exact records_mediateGated (unwritten_writeDecisionNow path) (unwritten_fileUri path) fun runs => ⟨fileUri_target runs,rfl⟩
  | FilesystemDelete path rsid =>
    exact records_mediateGated (unwritten_deleteDecisionNow path) (unwritten_fileUri path) fun runs => ⟨fileUri_target runs,rfl⟩
  | NetworkConnect host port proto rsid => exact records_mediateNetworkConnect ⟨rfl,rfl⟩
  | McpToolCall serverName toolName args rsid =>
    exact valueless (written_of_worked (records_mediateMcpToolCall (.inl ⟨rfl,rfl⟩) (fun clause value => .inr ⟨clause,value,rfl,rfl⟩)
      args))
  | Exec program args rsid =>
    exact valueless (records_mediateGated (unwritten_reads _) (unwritten_pure _) fun runs => ⟨(runs_pure.mp runs).1,rfl⟩)

end

end AegisNode.Entries
