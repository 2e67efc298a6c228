import AegisNode.Entries
import AegisNode.Mediation

/-!
The audit of effects: what a call that performed its effect leaves in the ledger, and
when one of its entries names the operation and its target.
-/
namespace AegisNode.Audit
open Clock Json Schema Policy Grants Aggregate Traced Engine Mediator Frames Approval Mediation Entries
open Ledger hiding Error
set_option linter.unusedSectionVars false

/-! ### Entries that name an operation -/

/-- The entry has the resource and the kind of access. -/
def Names (entry : Entry) (uri kind : String) : Prop :=
  Map.get entry.payload.fields "resourceUri" = some (.String uri) ∧
    Map.get entry.payload.fields "accessType" = some (.String kind)

/-- An entry with the resource and the kind of access is in the ledger. -/
def Entered (events : List Event) (uri kind : String) : Prop :=
  ∃ entry record,.Append entry (.ok (.ok record)) ∈ events ∧ Names entry uri kind

theorem Entered.mono {events more : List Event} {uri kind : String} (entered : Entered events uri kind)
    (inside : events ⊆ more) : Entered more uri kind := by
  obtain ⟨entry,record,member,names⟩ := entered
  exact ⟨entry,record,inside member,names⟩

/-- An access entry was appended, or was to be. -/
def IsAccess : Event → Prop
  | .Append entry _ => entry.entryType = .Access
  | _ => False

section
variable [World]

/-- The ledger has an entry about the call. -/
def Recorded (call : Call) (events : List Event) : Prop := ∃ uri kind,Targets call uri kind ∧ Entered events uri kind

/-- There is one access entry, it is in the ledger, and it names the call. -/
def RecordedOnce (call : Call) (events : List Event) : Prop :=
  ∃ before entry record after uri kind,events = before ++ .Append entry (.ok (.ok record)) :: after ∧
    entry.entryType = .Access ∧ Names entry uri kind ∧ Targets call uri kind ∧ ∀ e ∈ before ++ after,¬ IsAccess e

/-- The effect succeeded. -/
def answered (client : Option McpClient) (tick : Nat) : Effect → Bool
  | .FsRead path => (World.readFile tick path).isOk
  | .FsWrite path contents => (World.writeFile tick path contents).isOk
  | .FsRemove path => (World.removeFile tick path).isOk
  | .Connect host port => (World.connect tick host port).isOk
  | .CallTool _ serverUri toolName args => client.any (fun c => (c.callTool tick serverUri toolName args).isOk)
  | .Spawn program args => (World.output tick program args).isOk

end

theorem file_named [World] {path uri : String} (target : FileTarget path uri) : uri ≠ "" := by
  cases target with
  | Given => exact Faultless.fileUri_ne path
  | Joined relative current => exact Faultless.fileUri_ne _

theorem exec_named {program uri : String} (same : uri = execUri program) : uri ≠ "" := by
  rintro rfl
  have length := congrArg String.length same
  rw [execUri,String.length_append] at length
  change 0 = 7+program.length at length
  omega

/-- No append failed. -/
def AppendsSucceed (events : List Event) : Prop :=
  ∀ entry result,.Append entry result ∈ events → ∃ record,result = .ok (.ok record)

theorem names_access (uri : String) (accessType : AccessType) (bytes : UInt64) (rsid : Option String) {entry : Entry}
    (payload : entry.payload = payloadOf (accessFields uri accessType bytes rsid)) : Names entry uri accessType.name := by
  rw [Names,payload,get_payloadOf,get_payloadOf]
  cases rsid <;> exact ⟨rfl,rfl⟩

theorem not_access_of_unwritten {e : Event} (unwritten : Unwritten e) : ¬ IsAccess e := by
  cases e <;> first | exact unwritten.elim | exact id

theorem not_entered_of_unwritten {events : List Event} (unwritten : ∀ e ∈ events,Unwritten e) (uri kind : String) :
    ¬ Entered events uri kind := by
  rintro ⟨entry,record,member,-⟩
  exact unwritten _ member

/-! ### After the effect -/

/-- What follows an effect: nothing if it failed, else the access entry, which is in the
    ledger if the call is completed. -/
inductive Follows (ok : Bool) (completed : Prop) (uri kind : String) : List Event → Prop where
  | Failed (failed : ok = false) (stopped : ¬ completed) : Follows ok completed uri kind []
  | Answered {t : Int} {entry : Entry} {result : Checked (Except Ledger.Error EntryRecord)} {rest : List Event}
      (success : ok = true) (access : entry.entryType = .Access) (names : Names entry uri kind)
      (done : completed → ∃ record,result = .ok (.ok record)) (unwritten : ∀ e ∈ rest,Unwritten e) :
      Follows ok completed uri kind (.UtcNow t :: .Append entry result :: rest)

section
variable {ok : Bool} {completed : Prop} {uri kind : String} {post : List Event}

/-- After the effect an entry is in the ledger only if the effect succeeded and the
    append did. -/
theorem Follows.succeeded (follows : Follows ok completed uri kind post) {entry : Entry} {record : EntryRecord}
    (member : .Append entry (.ok (.ok record)) ∈ post) : ok = true ∧ AppendsSucceed post := by
  cases follows with
  | Failed failed stopped => cases member
  | @Answered t own result rest success access names done unwritten =>
    have other : ∀ {entry' result'},.Append entry' result' ∈ .UtcNow t :: .Append own result :: rest → result' = result := by
      intro entry' result' member'
      simp only [List.mem_cons,reduceCtorEq,Event.Append.injEq,false_or] at member'
      rcases member' with ⟨-,same⟩ | later
      · exact same
      · exact (unwritten _ later).elim
    refine ⟨success,?_⟩
    intro entry' result' member'
    exact ⟨record,(other member').trans (other member).symm⟩

/-- If both succeeded the entry that names the operation is there. -/
theorem Follows.entered (follows : Follows ok completed uri kind post) (success : ok = true) (succeed : AppendsSucceed post) :
    Entered post uri kind := by
  cases follows with
  | Failed failed stopped =>
    rw [success] at failed
    cases failed
  | @Answered t entry result rest _ access names done unwritten =>
    obtain ⟨record,rfl⟩ := succeed entry result (by simp)
    exact ⟨entry,record,by simp,names⟩

/-- A completed call has the one access entry after its effect. -/
theorem Follows.once (follows : Follows ok completed uri kind post) (done : completed) :
    ∃ t entry record rest,post = .UtcNow t :: .Append entry (.ok (.ok record)) :: rest ∧ entry.entryType = .Access ∧
      Names entry uri kind ∧ ∀ e ∈ rest,Unwritten e := by
  cases follows with
  | Failed failed stopped => exact absurd done stopped
  | Answered success access names recorded unwritten =>
    obtain ⟨record,rfl⟩ := recorded done
    exact ⟨_,_,record,_,rfl,access,names,unwritten⟩

end

section
variable [Chrono] [Serde] [Sha256] [World]

theorem emitSuccess_entry {uri : String} (named : uri ≠ "") (accessType : AccessType) (bytes : UInt64)
    (rsid : Option String) (s : Session) : ∃ entry result,entry.entryType = .Access ∧ Names entry uri accessType.name ∧
      (emitSuccess uri accessType bytes rsid s).events = [.UtcNow (World.utcNow s.tick),.Append entry result] ∧
      ((emitSuccess uri accessType bytes rsid s).result = .ok () → ∃ record,result = .ok (.ok record)) := by
  have names : Names (entryOf s.next .Access (World.utcNow s.tick) (payloadOf (accessFields uri accessType bytes rsid))) uri
      accessType.name := names_access uri accessType bytes rsid rfl
  rw [emitSuccess,utcNow,ask_bind,if_neg named]
  rcases runs_or_stops (emit (fun e => .AccessLog (.Ledger e)) .Access (World.utcNow s.tick)
    (payloadOf (accessFields uri accessType bytes rsid))) s.next with ⟨u,runs⟩ | ⟨e,stops⟩
  · obtain ⟨record,ledger,-,-,same⟩ := runs_emit.mp runs
    refine ⟨_,.ok (.ok record),rfl,names,?_,fun _ => ⟨record,rfl⟩⟩
    rw [same]
    rfl
  · obtain ⟨result,ledger,-,-,-,same⟩ := stops_emit.mp stops
    refine ⟨_,result,rfl,names,?_,?_⟩
    · rw [same]
      rfl
    · intro done
      have failed := stops.result
      rw [failed] at done
      cases done

/-- The last part of a call: the effect, its answer, the access entry, and what writes
    nothing. -/
theorem effect_follows {ε α β : Type} {effect : Effect} {answer : Nat → Except ε α} {wrap : ε → Error} {uri : String}
    (named : uri ≠ "") (accessType : AccessType) {bytes : α → UInt64} {rsid : Option String} {last : α → Run β}
    (unwritten : ∀ value,Respects (Each Unwritten) (last value)) {s : Session} {p : Run β}
    (shape : p = do
      let a ← perform effect answer
      let value ← orFail wrap a
      emitSuccess uri accessType (bytes value) rsid
      last value) : ∃ post,(p s).events = .Performed s.tick effect :: post ∧
        Follows (answer s.tick).isOk (∃ value,(p s).result = .ok value) uri accessType.name post := by
  subst shape
  rw [perform_bind]
  refine ⟨_,rfl,?_⟩
  dsimp only
  cases came : answer s.tick with
  | error error =>
    have failed : (orFail wrap (.error error : Except ε α) s.next).result = .error (.Err (wrap error)) := rfl
    rw [bind_error failed]
    refine .Failed rfl ?_
    rintro ⟨value,done⟩
    cases done
  | ok value =>
    rw [orFail_ok_bind]
    obtain ⟨entry,result,access,names,same,done⟩ := emitSuccess_entry named accessType (bytes value) rsid s.next
    rcases runs_or_stops (emitSuccess uri accessType (bytes value) rsid) s.next with ⟨u,runs⟩ | ⟨e,stops⟩
    · rw [bind_ok runs.result,same]
      exact .Answered rfl access names (fun _ => done runs.result) (unwritten value _)
    · rw [bind_error stops.result,same]
      refine .Answered rfl access names ?_ (by simp)
      rintro ⟨_,done⟩
      cases done

/-! ### Before the effect -/

theorem emit_entered {wrap : Ledger.Error → Error} {entryType : EntryType} {timestamp : Int} {fields : List (String × Scalar)}
    {uri kind : String} (resource : fieldOf fields "resourceUri" = some (.String uri))
    (access : fieldOf fields "accessType" = some (.String kind)) {u : Unit} {s t : Session} {events : List Event}
    (runs : Runs (emit wrap entryType timestamp (payloadOf fields)) s u t events) : Entered events uri kind := by
  obtain ⟨record,ledger,-,-,rfl⟩ := runs_emit.mp runs
  refine ⟨_,record,List.mem_singleton.mpr rfl,?_,?_⟩
  · exact (get_payloadOf fields "resourceUri").trans resource
  · exact (get_payloadOf fields "accessType").trans access

/-- The decision entries end in the same fields, if none of their own replaces them. -/
theorem emitApprovalDecision_entered {first last : List (String × Scalar)} {op : Operation} {rsid : Option String}
    (others : ∀ field ∈ Engine.optional "reasoningStepId" rsid ++ last,field.1 ≠ "resourceUri" ∧ field.1 ≠ "accessType")
    {u : Unit} {s t : Session} {events : List Event} (runs : Runs (emitApprovalDecision first op rsid last) s u t events) :
    Entered events op.resourceUri op.accessKind := by
  rw [emitApprovalDecision,utcNow,runs_ask_bind] at runs
  obtain ⟨rest,runs,rfl⟩ := runs
  have absent : ∀ key,key = "resourceUri" ∨ key = "accessType" →
      (Engine.optional "reasoningStepId" rsid ++ last).reverse.find? (fun field => field.1 = key) = none := by
    intro key either
    rw [List.find?_eq_none]
    intro field member
    have other := others field (List.mem_reverse.mp member)
    rcases either with rfl | rfl
    · simpa using other.1
    · simpa using other.2
  refine Entered.mono (emit_entered ?_ ?_ runs) (List.subset_append_right _ _)
  · rw [fieldOf,List.append_assoc _ _ last,List.reverse_append,List.find?_append,absent _ (.inl rfl)]
    simp [Scalar.value]
  · rw [fieldOf,List.append_assoc _ _ last,List.reverse_append,List.find?_append,absent _ (.inr rfl)]
    simp [Scalar.value]

theorem emitApprovalRequest_entered {req : ApprovalRequest} {u : Unit} {s t : Session} {events : List Event}
    (runs : Runs (emitApprovalRequest req) s u t events) : Entered events req.resourceUri req.accessType := by
  rw [emitApprovalRequest,utcNow,runs_ask_bind] at runs
  obtain ⟨rest,runs,rfl⟩ := runs
  rw [runs_ask_bind] at runs
  obtain ⟨rest,runs,rfl⟩ := runs
  refine Entered.mono (emit_entered ?_ ?_ runs) (by simp)
  · cases req.reasoningStepId <;> simp [fieldOf,Engine.optional,Scalar.value]
  · cases req.reasoningStepId <;> simp [fieldOf,Engine.optional,Scalar.value]

/-- An approval that allows has written an entry about the operation. -/
theorem approve_entered {op : Operation} {rsid : Option String} {summary : String} {s t : Session} {events : List Event}
    (runs : Runs (approve op rsid summary) s .Allow t events) : Entered events op.resourceUri op.accessKind := by
  rw [approve,runs_reads_bind,runs_reads_bind] at runs
  split_ifs at runs with tier
  · obtain ⟨_,_,_,_,emitted,-,rfl⟩ := runs_bind.mp runs
    refine (emitApprovalDecision_entered ?_ emitted).mono (List.subset_append_left _ _)
    cases rsid <;> simp [Engine.optional]
  · rw [systemNow,runs_ask_bind] at runs
    obtain ⟨rest,runs,rfl⟩ := runs
    refine Entered.mono ?_ (List.subset_append_right _ _)
    rw [runs_reads_bind,Session.next_grantTable] at runs
    cases found : lookup s.grantTable op.toolName op.canonicalArgs (World.systemNow s.tick) with
    | some grant =>
      rw [found] at runs
      obtain ⟨_,_,_,_,emitted,-,rfl⟩ := runs_bind.mp runs
      refine (emitApprovalDecision_entered ?_ emitted).mono (List.subset_append_left _ _)
      cases rsid <;> cases grant.decision <;> simp [Engine.optional,cachedReason]
    | none =>
      rw [found,consult,runs_reads_bind] at runs
      cases attached : s.next.approvalChannel with
      | none =>
        rw [attached] at runs
        cases (runs_pure.mp runs).1
      | some channel =>
        rw [attached,askAttached,askOperator,runs_reads_bind] at runs
        obtain ⟨_,_,_,_,requested,-,rfl⟩ := runs_bind.mp runs
        exact (emitApprovalRequest_entered requested).mono (List.subset_append_left _ _)

/-- The approval that leads to an effect: it writes nothing if the policy allows, and an
    entry about the operation if it requires approval; none of them is an access. -/
structure Cleared (decision : Decision) (uri kind : String) (events : List Event) : Prop where
  allowed : decision = .Allow → ∀ e ∈ events,Unwritten e
  required : decision.kind = .RequireApproval → Entered events uri kind
  either : decision = .Allow ∨ decision.kind = .RequireApproval
  noAccess : ∀ e ∈ events,¬ IsAccess e

theorem routeThroughApproval_cleared {decision : Decision} {op : Operation} {rsid : Option String} {s t : Session}
    {events : List Event} (runs : Runs (routeThroughApproval decision op rsid) s .Allow t events) :
    Cleared decision op.resourceUri op.accessKind events := by
  have records := runs.respects (records_routeThroughApproval (show Anything op.resourceUri op.accessKind from trivial) decision)
  have noAccess : ∀ e ∈ events,¬ IsAccess e := by
    intro e member access
    cases e with
    | Append entry result =>
      obtain ⟨fields,approved,-⟩ := records _ member
      rw [show entry.entryType = .Access from access] at approved
      cases approved
    | _ => exact access
  cases decision with
  | Allow =>
    obtain ⟨-,-,rfl⟩ := runs_pure.mp runs
    refine ⟨fun _ => by simp,?_,.inl rfl,noAccess⟩
    intro required
    cases required
  | Deny reason => cases (runs_pure.mp runs).1
  | RequireApproval summary =>
    refine ⟨?_,?_,.inr rfl,noAccess⟩
    · intro allowed
      cases allowed
    · exact fun _ => approve_entered runs

theorem enforceAggregateQuota_silent {toolClass : ToolClass} {resourceUri accessKind : String} {u : Unit} {s t : Session}
    {events : List Event} (runs : Runs (enforceAggregateQuota toolClass resourceUri accessKind) s u t events) :
    events = [] := by
  rw [enforceAggregateQuota,runs_reads_bind,runs_reads_bind] at runs
  cases counted : checkAndIncrement s.aggregateState toolClass (quotaFor s.policy toolClass) with
  | ok counts =>
    rw [counted] at runs
    exact (runs_update.mp runs).2
  | error breach =>
    rw [counted] at runs
    obtain ⟨_,_,_,_,-,stopped,-⟩ := runs_bind.mp runs
    exact absurd stopped runs_deny

variable [Identity]

theorem rebind_unwritten {s t : Session} {events : List Event} (runs : Runs rebind s () t events) :
    ∀ e ∈ events,Unwritten e := by
  rw [rebind,runs_bind] at runs
  obtain ⟨live,s₁,hashed,_,hashes,runs,rfl⟩ := runs
  rw [runs_reads_bind,utcNow,runs_ask_bind] at runs
  obtain ⟨rest,runs,rfl⟩ := runs
  rw [checkIdentityBinding,runs_orFail_bind] at runs
  obtain ⟨found,-,runs⟩ := runs
  cases found with
  | some mismatch =>
    obtain ⟨_,_,_,_,-,stopped,-⟩ := runs_bind.mp runs
    exact absurd stopped runs_deny
  | none =>
    obtain ⟨-,-,rfl⟩ := runs_pure.mp runs
    refine List.forall_mem_append.mpr ⟨hashes.respects unwritten_computeLiveDigests,?_⟩
    simp [Unwritten]

/-! ### Calls -/

/-- A call that performed its effect: before it nothing was written, or the approval
    was; after it comes the access entry if the effect succeeded. -/
structure Effected (call : Call) (s : Session) (ok : Bool) (completed : Prop) (pre post : List Event) : Prop where
  parts : ∃ checked decided later decision uri kind,pre = checked ++ decided ++ later ∧ Decides s call decided decision ∧
    Targets call uri kind ∧ (∀ e ∈ checked ++ decided,Unwritten e) ∧ Cleared decision uri kind later ∧
    Follows ok completed uri kind post

theorem mediateGated_effected {α : Type} {g : Gated α} {rsid : Option String} {s : Session} (call : Call)
    {pre post : List Event} {tick : Nat} {effect : Effect} (reading : Reading g)
    (silent : Respects (Each Unwritten) g.decision)
    (decides : ∀ {a b decision decided},Runs g.decision a decision b decided → Decides a call decided decision)
    (located : ∀ {a uri b events},Runs g.resourceUri a uri b events → Targets call uri g.accessType.name ∧ uri ≠ "")
    (performed : (mediateGated g rsid s).events = pre ++ .Performed tick effect :: post) :
    effect = g.effect ∧ Effected call s (g.answer tick).isOk (∃ value,(mediateGated g rsid s).result = .ok value) pre post := by
  obtain ⟨_,s₁,checked,_,rebinds,rfl,decision₁⟩ := bind_split (logs_rebind s).stores.routes.unperformed performed
  obtain ⟨decision,s₂,decided,_,decided',rfl,uri₁⟩ := bind_split (reading.decision s₁).stores.routes.unperformed decision₁
  obtain ⟨uri,s₃,nothing,_,locates,rfl,route₁⟩ := bind_split (reading.resourceUri s₂).stores.routes.unperformed uri₁
  obtain ⟨final,s₄,routed,charged,routes,rfl,settle₁⟩ :=
    bind_split (routes_routeThroughApproval decision (g.operation uri) rsid s₃).unperformed route₁
  obtain ⟨rfl,-,-⟩ := settle_performed settle₁
  obtain ⟨_,s₅,quota,rest,charges,rfl,perform₁⟩ := bind_split (counts_enforceAggregateQuota _ _ _ s₄).uneffective settle₁
  obtain rfl := enforceAggregateQuota_silent charges
  obtain ⟨targets,named⟩ := located locates
  obtain ⟨rfl,rfl,rfl⟩ := perform_first (fun answer => counts_of_logs (logs_concluded _ answer _ _ _ _)) perform₁
  have whole : Continues (mediateGated g rsid) s (Faultless.conclude g uri rsid) s₅
      (checked ++ (decided ++ (nothing ++ (routed ++ [])))) :=
    rebinds.continues.trans (decided'.continues.trans (locates.continues.trans (routes.continues.trans charges.continues)))
  obtain ⟨after,shape,follows⟩ := effect_follows (p := Faultless.conclude g uri rsid) (s := s₅) named g.accessType
    (fun value => unwritten_pure value) rfl
  have same : after = post := by
    have both := shape.symm.trans perform₁
    exact (List.cons.inj both).2
  subst same
  refine ⟨rfl,checked,decided,routed,decision,uri,g.accessType.name,?_,(decides decided').of_keeps (routes_keeps (rebinds.respects logs_rebind).stores.routes),targets,?_,
    routeThroughApproval_cleared routes,?_⟩
  · have silent : nothing = [] := by rw [← locates.events,reading.silent]
    simp [silent]
  · intro e member
    rcases List.mem_append.mp member with member | member
    · exact rebind_unwritten rebinds e member
    · exact (decided'.respects silent) e member
  · rw [whole]
    exact follows

theorem mediateNetworkConnect_effected {host : String} {port : UInt16} {proto : NetworkProto} {rsid : Option String}
    {s : Session} {pre post : List Event} {tick : Nat} {effect : Effect}
    (performed : (mediateNetworkConnect host port proto rsid s).events = pre ++ .Performed tick effect :: post) :
    effect = .Connect host port ∧ Effected (.NetworkConnect host port proto rsid) s (World.connect tick host port).isOk
      (∃ value,(mediateNetworkConnect host port proto rsid s).result = .ok value) pre post := by
  obtain ⟨_,s₁,checked,_,rebinds,rfl,decision₁⟩ := bind_split (logs_rebind s).stores.routes.unperformed performed
  rw [connectDecision,reads_bind] at decision₁
  obtain ⟨routed,s₃,asked,_,routes,rfl,finish₁⟩ :=
    bind_split (respects_attempt (routes_routeThroughApproval _ (networkConnect host port proto) rsid) s₁).unperformed decision₁
  obtain ⟨rfl,-,-⟩ := finishConnect_performed finish₁
  obtain ⟨rfl,rfl,rfl⟩ := perform_first (fun answer => counts_connected _ answer _ _ _ _ _ _) finish₁
  have whole : Continues (mediateNetworkConnect host port proto rsid) s (finishConnect _ host port proto rsid (.ok .Allow)) s₃
      (checked ++ ([] ++ asked)) :=
    rebinds.continues.trans ((runs_reads.mpr ⟨rfl,rfl,rfl⟩ : Runs (connectDecision host port proto) s₁ _ s₁ []).continues.trans
      routes.continues)
  obtain ⟨after,shape,follows⟩ := effect_follows (p := finishConnect _ host port proto rsid (.ok .Allow)) (s := s₃)
    (Faultless.networkUri_ne host port proto) .NetworkOutbound (fun _ => unwritten_logConnection _ _ _ _) rfl
  have same : after = post := (List.cons.inj (shape.symm.trans finish₁)).2
  subst same
  refine ⟨rfl,checked,[],asked,_,_,_,by simp,?_,⟨rfl,rfl⟩,?_,routeThroughApproval_cleared (runs_attempt_ok.mp routes),?_⟩
  · exact Decides.of_keeps (routes_keeps (rebinds.respects logs_rebind).stores.routes) ⟨rfl,rfl⟩
  · rw [List.append_nil]
    exact rebind_unwritten rebinds
  · rw [whole]
    exact follows

theorem preValidateValues_unwritten {serverName toolName : String} {clause : PreValidateClause} {values : List String}
    {s t : Session} {events : List Event} (runs : Runs (preValidateValues serverName toolName clause values) s () t events) :
    ∀ e ∈ events,Unwritten e := by
  induction values generalizing s events with
  | nil =>
    obtain ⟨-,-,rfl⟩ := runs_pure.mp runs
    simp
  | cons value rest ih =>
    rw [preValidateValues,runs_bind] at runs
    obtain ⟨_,m,left,right,first,second,rfl⟩ := runs
    rw [preValidateValue,runs_bind] at first
    obtain ⟨decision,m',decided,last,decides,settled,rfl⟩ := first
    have before := decides.respects (unwritten_clauseDecision serverName toolName clause value)
    cases decision with
    | Allow =>
      obtain ⟨-,-,rfl⟩ := runs_pure.mp settled
      rw [List.append_nil]
      exact List.forall_mem_append.mpr ⟨before,ih second⟩
    | Deny reason =>
      obtain ⟨_,_,_,_,-,stopped,-⟩ := runs_bind.mp settled
      exact absurd stopped runs_deny
    | RequireApproval reason => exact absurd settled runs_deny

theorem runMcpPreValidate_unwritten {serverName toolName : String} {args : Value} {clauses : List PreValidateClause}
    {s t : Session} {events : List Event} (runs : Runs (runMcpPreValidate serverName toolName args clauses) s () t events) :
    ∀ e ∈ events,Unwritten e := by
  induction clauses generalizing s events with
  | nil =>
    obtain ⟨-,-,rfl⟩ := runs_pure.mp runs
    simp
  | cons clause rest ih =>
    rw [runMcpPreValidate,runs_orFail_bind] at runs
    obtain ⟨values,-,runs⟩ := runs
    obtain ⟨_,m,left,right,first,second,rfl⟩ := runs_bind.mp runs
    exact List.forall_mem_append.mpr ⟨preValidateValues_unwritten first,ih second⟩

theorem mediateMcpToolCall_effected {serverName toolName : String} {args : Value} {rsid : Option String} {s : Session}
    {pre post : List Event} {tick : Nat} {effect : Effect}
    (performed : (mediateMcpToolCall serverName toolName args rsid s).events = pre ++ .Performed tick effect :: post) :
    Effected (.McpToolCall serverName toolName args rsid) s (answered s.mcpClient tick effect)
      (∃ value,(mediateMcpToolCall serverName toolName args rsid s).result = .ok value) pre post := by
  obtain ⟨_,s₁,checked,_,rebinds,rfl,decision₁⟩ := bind_split (logs_rebind s).stores.routes.unperformed performed
  have kept := (rebinds.respects logs_rebind).same
  rw [reads_bind] at decision₁
  cases decided : checkMcpTool s₁.policy serverName toolName with
  | Deny reason =>
    rw [decided] at decision₁
    exact ((logs_mcpRefused _ _ _ s₁).counts.elsewhere decision₁).elim
  | RequireApproval reason =>
    rw [decided] at decision₁
    exact ((logs_deny _ s₁).counts.elsewhere decision₁).elim
  | Allow =>
    rw [decided] at decision₁
    dsimp only at decision₁
    rw [mcpAllowed,reads_bind] at decision₁
    cases listed : serverGrant s₁.policy serverName with
    | none =>
      rw [listed] at decision₁
      exact ((logs_mcpRefused _ _ _ s₁).counts.elsewhere decision₁).elim
    | some grant =>
      rw [listed] at decision₁
      obtain ⟨_,s₂,validated,_,validates,rfl,quota₁⟩ :=
        bind_split (logs_runMcpPreValidate _ _ _ _ s₁).stores.routes.unperformed decision₁
      obtain ⟨_,s₃,charged,_,charges,rfl,call₁⟩ :=
        bind_split (counts_enforceAggregateQuota _ _ _ s₂).uneffective quota₁
      obtain rfl := enforceAggregateQuota_silent charges
      rw [callClient,reads_bind] at call₁
      have client : s₃.mcpClient = s.mcpClient := by
        rw [(charges.respects (counts_enforceAggregateQuota _ _ _)).same,
          (validates.respects (logs_runMcpPreValidate _ _ _ _)).same,kept]
      cases attached : s₃.mcpClient with
      | none =>
        rw [attached] at call₁
        exact ((logs_mcpRefused _ _ _ s₃).counts.elsewhere call₁).elim
      | some c =>
        rw [attached] at call₁
        obtain ⟨rfl,rfl,rfl⟩ := perform_first (fun answer => counts_of_logs (logs_concluded _ answer _ _ _ _)) call₁
        have whole : Continues (mediateMcpToolCall serverName toolName args rsid) s
            (callAttached serverName grant.serverUri toolName args rsid (some c)) s₃ (checked ++ (validated ++ ([] ++ []))) := by
          refine rebinds.continues.trans ?_
          rw [Continues,reads_bind,decided]
          dsimp only
          rw [mcpAllowed,reads_bind,listed]
          refine validates.continues.trans (charges.continues.trans ?_)
          rw [Continues,callClient,reads_bind,attached]
          rfl
        obtain ⟨after,shape,follows⟩ := effect_follows
          (p := callAttached serverName grant.serverUri toolName args rsid (some c)) (s := s₃)
          (Faultless.mcpUri_ne serverName toolName) .McpToolCall (fun value => unwritten_pure value) rfl
        have same : after = post := (List.cons.inj (shape.symm.trans call₁)).2
        subst same
        refine ⟨checked,[],validated,.Allow,_,_,by simp,⟨rfl,?_⟩,.inl ⟨rfl,rfl⟩,?_,⟨?_,?_,.inl rfl,?_⟩,?_⟩
        · rw [kept] at decided
          exact decided.symm
        · rw [List.append_nil]
          exact rebind_unwritten rebinds
        · exact fun _ => runMcpPreValidate_unwritten validates
        · intro required
          cases required
        · exact fun e member => not_access_of_unwritten (runMcpPreValidate_unwritten validates e member)
        · rw [whole,← client,attached]
          exact follows

/-- Dropping the value of a call keeps whether it is completed. -/
theorem completed_unit {α : Type} {p : Run α} {s : Session} :
    (∃ u,((do let _ ← p : Run Unit) s).result = .ok u) ↔ ∃ value,(p s).result = .ok value := by
  cases done : (p s).result with
  | error e =>
    rw [bind_error done]
    simp
  | ok a =>
    rw [bind_ok done]
    simp only [Except.ok.injEq,exists_eq',iff_true]
    exact ⟨(),rfl⟩

theorem Effected.congr {call : Call} {s : Session} {ok : Bool} {completed other : Prop} {pre post : List Event}
    (effected : Effected call s ok completed pre post) (same : completed ↔ other) : Effected call s ok other pre post := by
  rw [← propext same]
  exact effected

theorem mediate_effected {call : Call} {s : Session} {pre post : List Event} {tick : Nat} {effect : Effect}
    (performed : (mediate call s).events = pre ++ .Performed tick effect :: post) :
    Effected call s (answered s.mcpClient tick effect) (∃ u,(mediate call s).result = .ok u) pre post := by
  cases call with
  | FilesystemRead path rsid =>
    rw [mediate,bind_pure_events.1] at performed
    obtain ⟨rfl,effected⟩ := mediateGated_effected (.FilesystemRead path rsid) (reading_filesystemRead path)
      (unwritten_reads _) reads_decides (fun runs => ⟨⟨fileUri_target runs,rfl⟩,file_named (fileUri_target runs)⟩) performed
    exact effected.congr completed_unit.symm
  | FilesystemWrite path contents rsid =>
    obtain ⟨rfl,effected⟩ := mediateGated_effected (.FilesystemWrite path contents rsid)
      (reading_filesystemWrite path contents) (unwritten_writeDecisionNow path) writeDecisionNow_decides
      (fun runs => ⟨⟨fileUri_target runs,rfl⟩,file_named (fileUri_target runs)⟩) performed
    exact effected
  | FilesystemDelete path rsid =>
    obtain ⟨rfl,effected⟩ := mediateGated_effected (.FilesystemDelete path rsid) (reading_filesystemDelete path)
      (unwritten_deleteDecisionNow path) deleteDecisionNow_decides
      (fun runs => ⟨⟨fileUri_target runs,rfl⟩,file_named (fileUri_target runs)⟩) performed
    exact effected
  | NetworkConnect host port proto rsid =>
    obtain ⟨rfl,effected⟩ := mediateNetworkConnect_effected performed
    exact effected
  | McpToolCall serverName toolName args rsid =>
    rw [mediate,bind_pure_events.1] at performed
    exact (mediateMcpToolCall_effected performed).congr completed_unit.symm
  | Exec program args rsid =>
    rw [mediate,bind_pure_events.1] at performed
    obtain ⟨rfl,effected⟩ := mediateGated_effected (.Exec program args rsid) (reading_execRun program args)
      (unwritten_reads _) reads_decides (fun runs => ⟨⟨(runs_pure.mp runs).1,rfl⟩,exec_named (runs_pure.mp runs).1⟩) performed
    exact effected.congr completed_unit.symm

/-- A call that performed its effect leaves an entry about it exactly if the policy
    required approval, or the effect and the append after it succeeded; if the call
    succeeds it leaves exactly one access entry. -/
theorem audit_exact {call : Call} {s : Session} {pre post : List Event} {tick : Nat} {effect : Effect}
    (performed : (mediate call s).events = pre ++ .Performed tick effect :: post) :
    ∃ checked decided later decision,pre = checked ++ decided ++ later ∧ Decides s call decided decision ∧
      (Recorded call (mediate call s).events ↔ decision.kind = .RequireApproval ∨
        answered s.mcpClient tick effect = true ∧ AppendsSucceed post) ∧
      ((mediate call s).result = .ok () → RecordedOnce call (mediate call s).events) := by
  obtain ⟨checked,decided,later,decision,uri,kind,rfl,decides,targets,silent,cleared,follows⟩ :=
    (mediate_effected performed).parts
  refine ⟨checked,decided,later,decision,rfl,decides,⟨?_,?_⟩,?_⟩
  · rintro ⟨uri',kind',-,entry,record,member,-⟩
    rcases cleared.either with allowed | required
    · right
      rw [performed] at member
      rcases List.mem_append.mp member with before | after
      · exfalso
        rcases List.mem_append.mp before with early | late
        · exact silent _ early
        · exact cleared.allowed allowed _ late
      · rcases List.mem_cons.mp after with same | after
        · cases same
        · exact follows.succeeded after
    · exact .inl required
  · rintro (required | ⟨success,succeed⟩)
    · refine ⟨uri,kind,targets,(cleared.required required).mono ?_⟩
      intro e member
      rw [performed]
      simp [member]
    · refine ⟨uri,kind,targets,(follows.entered success succeed).mono ?_⟩
      intro e member
      rw [performed]
      simp [member]
  · intro done
    obtain ⟨t,entry,record,rest,rfl,access,names,unwritten⟩ := follows.once ⟨(),done⟩
    refine ⟨checked ++ decided ++ later ++ [.Performed tick effect,.UtcNow t],entry,record,rest,uri,kind,?_,access,names,
      targets,?_⟩
    · rw [performed]
      simp
    · intro e member
      simp only [List.append_assoc,List.mem_append,List.mem_cons,List.not_mem_nil,or_false] at member
      rcases member with member | member | member | (rfl | rfl) | member
      · exact not_access_of_unwritten (silent e (List.mem_append_left _ member))
      · exact not_access_of_unwritten (silent e (List.mem_append_right _ member))
      · exact cleared.noAccess e member
      · exact id
      · exact id
      · exact not_access_of_unwritten (unwritten e member)

end

section
open Reference Faultless

/-- A read that succeeds. -/
theorem audit_exact_read :
    let _ := calmWorld reading
    ∃ booted pre tick post checked decided later decision,boot config = .ok booted ∧
      (mediate readData (attach booted none none)).events = pre ++ .Performed tick (.FsRead "/data/a") :: post ∧
      pre = checked ++ decided ++ later ∧ Decides (attach booted none none) readData decided decision ∧
      (Recorded readData (mediate readData (attach booted none none)).events ↔ decision.kind = .RequireApproval ∨
        answered none tick (.FsRead "/data/a") = true ∧ AppendsSucceed post) := by
  intro world
  obtain ⟨booted,pre,tick,post,boots,performed⟩ := readData_performed
  obtain ⟨checked,decided,later,decision,whole,decides,recorded,-⟩ := audit_exact performed
  exact ⟨booted,pre,tick,post,checked,decided,later,decision,boots,performed,whole,decides,recorded⟩

/-- A read of a file that is not there is tried and leaves no entry. -/
theorem failed_read_unrecorded :
    let _ : World := { calmWorld reading with readFile := fun _ _ => .error (.Os 2) }
    ∃ booted pre tick post,boot config = .ok booted ∧
      (mediate readData (attach booted none none)).events = pre ++ .Performed tick (.FsRead "/data/a") :: post ∧
      ¬ Recorded readData (mediate readData (attach booted none none)).events := by
  intro world
  obtain ⟨booted,boots,fresh,ready⟩ := boot_succeeds (n := 100)
    (bootable reading rfl rfl rfl (fun _ _ _ => rfl) rfl) (by decide)
  have steady := fresh.steady (fun _ _ => rfl) none none
  have policy : (attach booted none none).policy = reading := fresh.policy
  have permits : Permits (filesystemRead "/data/a") (attach booted none none) :=
    permits_filesystemRead (by rw [policy]; decide) (by decide)
  have room : Room (attach booted none none) .Filesystem ((∅ : SessionAggregateState).insert .Filesystem 1) := by
    refine ⟨1,?_⟩
    rw [policy,show (attach booted none none).aggregateState = ∅ from fresh.counts]
    rfl
  obtain ⟨uri,u,before,-,-,silent,continues⟩ := mediateGated_continues steady permits room none
  have fails := continues.stops (conclude_fails
    (show (filesystemRead "/data/a").answer u.tick = .error (.Os 2) from rfl))
  have events : (mediate readData (attach booted none none)).events = before ++ [.Performed u.tick (.FsRead "/data/a")] := by
    rw [readData,mediate,bind_pure_events.1]
    exact fails.events
  refine ⟨booted,before,u.tick,[],boots,events,?_⟩
  rintro ⟨_,_,-,entry,record,member,-⟩
  rw [events] at member
  rcases List.mem_append.mp member with member | member
  · exact silent _ member
  · cases List.mem_singleton.mp member

end

end AegisNode.Audit
