import AegisNode.Mediator

/-!
What each part of a mediated call leaves alone: the parts that only read and log,
the approval, the quota, what follows it, and the call as a whole.
-/
namespace AegisNode.Frames
open Clock Json Schema Policy Grants Aggregate Traced Engine Mediator
open Ledger hiding Error
set_option linter.unusedSectionVars false

/-! ### Kinds of parts -/

/-- Neither an effect nor an approval nor a reading of the system clock. -/
def Plain : Event → Prop
  | .SystemNow _ => False
  | .Approval _ _ => False
  | .Performed _ _ => False
  | _ => True

/-- No effect. -/
def Quiet : Event → Prop
  | .Performed _ _ => False
  | _ => True

/-- Neither an effect nor an approval. -/
def Unanswered : Event → Prop
  | .Approval _ _ => False
  | .Performed _ _ => False
  | _ => True

/-- No approval and no reading of the system clock. -/
def Unasked : Event → Prop
  | .SystemNow _ => False
  | .Approval _ _ => False
  | _ => True

/-- A part may change some fields, copied from `b` to `a` by `change`, and leave
    events of one kind. -/
structure Leaves (change : Session → Session → Session) (kind : Event → Prop) (a : Session) (events : List Event)
    (b : Session) : Prop where
  same : b = change a b
  later : a.tick ≤ b.tick
  each : ∀ e ∈ events,kind e

/-- Reading and logging: only the ledger grows and the world is asked. -/
abbrev Logs := Leaves (fun a b => { a with ledger := b.ledger,tick := b.tick }) Plain

/-- Charging a quota also counts, and attempts to connect are logged apart. -/
abbrev Counts := Leaves (fun a b => { a with
  ledger := b.ledger
  networkLog := b.networkLog
  aggregateState := b.aggregateState
  tick := b.tick }) Plain

/-- Storing the answer of the operator changes the grants. -/
abbrev Stores :=
  Leaves (fun a b => { a with ledger := b.ledger,grantTable := b.grantTable,tick := b.tick }) Unanswered

/-- Approving has no effect. -/
abbrev Routes := Leaves (fun a b => { a with ledger := b.ledger,grantTable := b.grantTable,tick := b.tick }) Quiet

/-- What follows the approval leaves the grants alone and asks nobody. -/
abbrev Works := Leaves (fun a b => { a with
  ledger := b.ledger
  networkLog := b.networkLog
  aggregateState := b.aggregateState
  tick := b.tick }) Unasked

/-- A whole call leaves the policy, the identity and the attached parts alone. -/
abbrev Keeps := Leaves (fun a b => { a with
  ledger := b.ledger
  networkLog := b.networkLog
  aggregateState := b.aggregateState
  grantTable := b.grantTable
  tick := b.tick }) (fun _ => True)

section
variable {change wider : Session → Session → Session} {kind broader : Event → Prop}

theorem leaves_composes (idle : ∀ a,a = change a a)
    (twice : ∀ {a b c},b = change a b → c = change b c → c = change a c) : Composes (Leaves change kind) where
  idle s := ⟨idle s,le_rfl,by simp⟩
  append := by
    intro a b c left right first second
    refine ⟨twice first.same second.same,first.later.trans second.later,?_⟩
    intro e member
    rcases List.mem_append.mp member with member | member
    · exact first.each e member
    · exact second.each e member

theorem Leaves.mono {a b : Session} {events : List Event} (leaves : Leaves change kind a events b)
    (fields : b = change a b → b = wider a b) (kinds : ∀ e,kind e → broader e) : Leaves wider broader a events b :=
  ⟨fields leaves.same,leaves.later,fun e member => kinds e (leaves.each e member)⟩

end

theorem logs_composes : Composes Logs :=
  leaves_composes (fun _ => rfl) fun first second => by rw [second,first]

theorem counts_composes : Composes Counts :=
  leaves_composes (fun _ => rfl) fun first second => by rw [second,first]

theorem stores_composes : Composes Stores :=
  leaves_composes (fun _ => rfl) fun first second => by rw [second,first]

theorem routes_composes : Composes Routes :=
  leaves_composes (fun _ => rfl) fun first second => by rw [second,first]

theorem works_composes : Composes Works :=
  leaves_composes (fun _ => rfl) fun first second => by rw [second,first]

theorem keeps_composes : Composes Keeps :=
  leaves_composes (fun _ => rfl) fun first second => by rw [second,first]

theorem Plain.unanswered (e : Event) (plain : Plain e) : Unanswered e := by
  cases e <;> first | exact plain | trivial

theorem Unanswered.quiet (e : Event) (unanswered : Unanswered e) : Quiet e := by
  cases e <;> first | exact unanswered | trivial

theorem Plain.unasked (e : Event) (plain : Plain e) : Unasked e := by
  cases e <;> first | exact plain | trivial

section
variable {a b : Session} {events : List Event}

theorem Leaves.stores (logs : Logs a events b) : Stores a events b :=
  logs.mono (fun same => by rw [same]) Plain.unanswered

theorem Leaves.routes (stores : Stores a events b) : Routes a events b := stores.mono id Unanswered.quiet

theorem Leaves.counts (logs : Logs a events b) : Counts a events b := logs.mono (fun same => by rw [same]) fun _ => id

theorem Leaves.works (counts : Counts a events b) : Works a events b := counts.mono id Plain.unasked

theorem Leaves.unperformed {tick : Nat} {effect : Effect} (routes : Routes a events b) : .Performed tick effect ∉ events :=
  fun member => routes.each _ member

theorem Leaves.uneffective {tick : Nat} {effect : Effect} (counts : Counts a events b) : .Performed tick effect ∉ events :=
  fun member => counts.each _ member

/-- A part without effects is not where an effect stands. -/
theorem Leaves.elsewhere {tick : Nat} {effect : Effect} {pre post : List Event} (counts : Counts a events b)
    (split : events = pre ++ .Performed tick effect :: post) : False := by
  have member : .Performed tick effect ∈ events := by simp [split]
  exact counts.uneffective member

theorem routes_keeps (routes : Routes a events b) : Keeps a events b :=
  routes.mono (fun same => by rw [same]) fun _ _ => trivial

theorem works_keeps (works : Works a events b) : Keeps a events b :=
  works.mono (fun same => by rw [same]) fun _ _ => trivial

end

/-! ### Reading and logging -/

theorem logs_pure {α : Type} (a : α) : Respects Logs (pure a : Run α) := respects_pure logs_composes a

theorem logs_deny {α : Type} (error : Error) : Respects Logs (deny error : Run α) := respects_fail logs_composes _

theorem logs_reads {α : Type} (f : Session → α) : Respects Logs (reads f : Run α) := respects_reads logs_composes f

theorem logs_orFail {ε α : Type} (wrap : ε → Error) (result : Except ε α) : Respects Logs (orFail wrap result) :=
  respects_ofExcept logs_composes _

theorem logs_orPanic {α : Type} (result : Checked α) : Respects Logs (orPanic result) :=
  respects_ofExcept logs_composes _

theorem logs_bind {α β : Type} {p : Run α} {f : α → Run β} (first : Respects Logs p) (later : ∀ a,Respects Logs (f a)) :
    Respects Logs (p >>= f) := respects_bind logs_composes first later

theorem logs_readDecision (path : String) : Respects Logs (readDecision path) := logs_reads _

theorem logs_ask {α : Type} {answer : Nat → α} {event : α → List Event} (plain : ∀ a,∀ e ∈ event a,Plain e) :
    Respects Logs (ask answer event) :=
  fun s => ⟨rfl,Nat.le_succ s.tick,plain (answer s.tick)⟩

theorem routes_bind {α β : Type} {p : Run α} {f : α → Run β} (first : Respects Routes p)
    (later : ∀ a,Respects Routes (f a)) : Respects Routes (p >>= f) := respects_bind routes_composes first later

theorem stores_bind {α β : Type} {p : Run α} {f : α → Run β} (first : Respects Stores p)
    (later : ∀ a,Respects Stores (f a)) : Respects Stores (p >>= f) := respects_bind stores_composes first later

theorem stores_of_logs {α : Type} {p : Run α} (logs : Respects Logs p) : Respects Stores p := respects_mono Leaves.stores logs

theorem routes_of_stores {α : Type} {p : Run α} (stores : Respects Stores p) : Respects Routes p :=
  respects_mono Leaves.routes stores

theorem routes_of_logs {α : Type} {p : Run α} (logs : Respects Logs p) : Respects Routes p :=
  routes_of_stores (stores_of_logs logs)

theorem routes_ask {α : Type} {answer : Nat → α} {event : α → List Event} (quiet : ∀ a,∀ e ∈ event a,Quiet e) :
    Respects Routes (ask answer event) :=
  fun s => ⟨rfl,Nat.le_succ s.tick,quiet (answer s.tick)⟩

section
variable [World]

theorem logs_utcNow : Respects Logs utcNow := logs_ask (by simp [Plain])

/-- The shape of most entries: the time is read first. -/
theorem logs_emitNow {α : Type} {entry : Int → Run α} (each : ∀ now,Respects Logs (entry now)) :
    Respects Logs (utcNow >>= entry) := logs_bind logs_utcNow each

theorem logs_newUuid : Respects Logs newUuid := logs_ask (by simp)

theorem stores_systemNow : Respects Stores systemNow :=
  fun s => ⟨rfl,Nat.le_succ s.tick,by simp [systemNow,ask,Unanswered]⟩

theorem stores_storeGrant [Serde] [Sha256] (op : Operation) (ttlSecs : Nat) (decision : GrantDecision) :
    Respects Stores (storeGrant op ttlSecs decision) := by
  refine stores_bind (stores_of_logs logs_newUuid) fun grantId => ?_
  refine stores_bind stores_systemNow fun issuedAt => ?_
  refine stores_bind (fun s => ⟨rfl,le_rfl,by simp [update]⟩) fun _ => ?_
  exact stores_of_logs (logs_pure _)

theorem logs_currentDir : Respects Logs currentDir := logs_ask (by simp)

theorem fileUri_silent (path : String) (s : Session) : (fileUri path s).events = [] := by
  unfold fileUri
  split_ifs
  · rfl
  · have asked : (currentDir s).result = .ok (World.currentDir s.tick) := rfl
    rw [bind_ok asked]
    cases World.currentDir s.tick <;> rfl

theorem logs_fileUri (path : String) : Respects Logs (fileUri path) := by
  unfold fileUri
  split_ifs
  · exact logs_pure _
  · refine logs_bind logs_currentDir ?_
    intro dir
    cases dir <;> exact logs_pure _

end

section
variable [Chrono] [Serde] [Sha256]

theorem logs_appendEntry (entry : Entry) : Respects Logs (appendEntry entry) :=
  fun s => ⟨rfl,le_rfl,by simp [appendEntry,Plain]⟩

theorem logs_emit (wrap : Ledger.Error → Error) (entryType : EntryType) (timestamp : Int) (payload : Payload) :
    Respects Logs (emit wrap entryType timestamp payload) := by
  refine logs_bind (logs_reads _) fun sessionId => ?_
  refine logs_bind (logs_reads _) fun agentHash => ?_
  refine logs_bind (logs_appendEntry _) fun result => ?_
  exact logs_bind (logs_orFail wrap result) fun _ => logs_pure _

theorem logs_emitViolation (reason : String) (resourceUri accessType : Option String) (timestamp : Int) :
    Respects Logs (emitViolation reason resourceUri accessType timestamp) := logs_emit _ _ _ _

end

section
variable [Chrono] [Serde] [Sha256] [World]

theorem logs_emitSuccess (resourceUri : String) (accessType : AccessType) (bytes : UInt64) (rsid : Option String) :
    Respects Logs (emitSuccess resourceUri accessType bytes rsid) := by
  refine logs_emitNow fun now => ?_
  split_ifs
  · exact logs_deny _
  · exact logs_emit _ _ _ _

theorem logs_emitDeny (resourceUri accessKind reason : String) : Respects Logs (emitDeny resourceUri accessKind reason) :=
  logs_emitNow fun _ => logs_emitViolation _ _ _ _

theorem logs_emitApprovalRequest (req : ApprovalRequest) : Respects Logs (emitApprovalRequest req) :=
  logs_emitNow fun _ => logs_emitNow fun _ => logs_emit _ _ _ _

theorem logs_emitApprovalGranted (req : ApprovalRequest) (approver : String) (decidedAt : Int) :
    Respects Logs (emitApprovalGranted req approver decidedAt) := logs_emitNow fun _ => logs_emit _ _ _ _

theorem logs_emitApprovalRejected (req : ApprovalRequest) (reason : String) (decidedAt : Int) :
    Respects Logs (emitApprovalRejected req reason decidedAt) := logs_emitNow fun _ => logs_emit _ _ _ _

theorem logs_emitApprovalTimedOut (req : ApprovalRequest) (expiredAt : Int) :
    Respects Logs (emitApprovalTimedOut req expiredAt) := logs_emitNow fun _ => logs_emit _ _ _ _

theorem logs_emitApprovalDecision (first : List (String × Scalar)) (op : Operation) (rsid : Option String)
    (last : List (String × Scalar)) : Respects Logs (emitApprovalDecision first op rsid last) :=
  logs_emitNow fun _ => logs_emit _ _ _ _

theorem logs_writeAggregateCapViolation (breach : AggregateCapExceeded) (resourceUri accessKind : String) :
    Respects Logs (writeAggregateCapViolation breach resourceUri accessKind) :=
  logs_emitNow fun _ => logs_emit _ _ _ _

end

/-! ### Decisions -/

theorem reads_decides {f : Session → Decision} {a b : Session} {decision : Decision} {decided : List Event}
    (runs : Runs (reads f : Run Decision) a decision b decided) : decided = [] ∧ decision = f a := by
  obtain ⟨done,-,nothing⟩ := runs_reads.mp runs
  exact ⟨nothing,done⟩

section
variable [Chrono] [World]

theorem logs_writeDecisionNow (path : String) : Respects Logs (writeDecisionNow path) :=
  logs_emitNow fun _ => logs_bind (logs_reads _) fun checked => logs_orPanic checked

theorem logs_deleteDecisionNow (path : String) : Respects Logs (deleteDecisionNow path) :=
  logs_emitNow fun _ => logs_bind (logs_reads _) fun checked => logs_orPanic checked

theorem writeDecisionNow_decides {path : String} {a b : Session} {decision : Decision} {decided : List Event}
    (runs : Runs (writeDecisionNow path) a decision b decided) :
    ∃ now,decided = [.UtcNow now] ∧ checkFilesystemWrite a.policy path now a.sessionStart = .ok decision := by
  rw [writeDecisionNow,utcNow,runs_ask_bind] at runs
  obtain ⟨rest,runs,rfl⟩ := runs
  rw [runs_reads_bind,runs_orPanic] at runs
  obtain ⟨checked,-,rfl⟩ := runs
  exact ⟨_,rfl,checked⟩

theorem deleteDecisionNow_decides {path : String} {a b : Session} {decision : Decision} {decided : List Event}
    (runs : Runs (deleteDecisionNow path) a decision b decided) :
    ∃ now,decided = [.UtcNow now] ∧ checkFilesystemDelete a.policy path now a.sessionStart = .ok decision := by
  rw [deleteDecisionNow,utcNow,runs_ask_bind] at runs
  obtain ⟨rest,runs,rfl⟩ := runs
  rw [runs_reads_bind,runs_orPanic] at runs
  obtain ⟨checked,-,rfl⟩ := runs
  exact ⟨_,rfl,checked⟩

end

/-! ### The rebind -/

section
variable [Sha256] [World]

theorem logs_sha256File (path : String) : Respects Logs (sha256File path) := by
  refine logs_bind (logs_ask (by simp [Plain])) fun bytes => ?_
  exact logs_bind (logs_orFail _ bytes) fun _ => logs_pure _

theorem logs_configDigest (path? : Option String) : Respects Logs (configDigest path?) := by
  cases path? with
  | none => exact logs_pure _
  | some path => exact logs_sha256File path

theorem logs_computeLiveDigests : Respects Logs computeLiveDigests := by
  refine logs_bind (logs_reads _) fun modelPath => ?_
  refine logs_bind (logs_sha256File modelPath) fun model => ?_
  refine logs_bind (logs_reads _) fun manifestPath => ?_
  refine logs_bind (logs_sha256File manifestPath) fun manifest => ?_
  refine logs_bind (logs_reads _) fun configPath => ?_
  exact logs_bind (logs_configDigest configPath) fun _ => logs_pure _

end

section
variable [Chrono] [Serde] [Sha256] [Identity]

theorem logs_checkIdentityBinding (certPem : String) (live : DigestTriple) (timestamp : Int) :
    Respects Logs (checkIdentityBinding certPem live timestamp) := by
  refine logs_bind (logs_orFail _ _) fun found => ?_
  cases found with
  | none => exact logs_pure _
  | some mismatch => exact logs_bind (logs_emitViolation _ _ _ _) fun _ => logs_deny _

theorem logs_rebind [World] : Respects Logs rebind := by
  refine logs_bind logs_computeLiveDigests fun live => ?_
  refine logs_bind (logs_reads _) fun certPem => ?_
  exact logs_emitNow fun now => logs_checkIdentityBinding certPem live now

end

/-! ### Approval -/

section
variable [Chrono] [Serde] [Sha256] [World]

theorem stores_takeOutcome (op : Operation) (rsid : Option String) (ttlSecs : Nat) (req : ApprovalRequest)
    (outcome : ApprovalOutcome) : Respects Stores (takeOutcome op rsid ttlSecs req outcome) := by
  cases outcome with
  | Granted approver decidedAt =>
    refine stores_bind (stores_of_logs (logs_emitApprovalGranted _ _ _)) fun _ => ?_
    refine stores_bind (stores_storeGrant _ _ _) fun grant => ?_
    refine stores_bind (stores_of_logs (logs_emitApprovalDecision _ _ _ _)) fun _ => ?_
    exact stores_of_logs (logs_pure _)
  | Rejected reason decidedAt =>
    refine stores_bind (stores_of_logs (logs_emitApprovalRejected _ _ _)) fun _ => ?_
    exact stores_bind (stores_storeGrant _ _ _) fun _ => stores_of_logs (logs_deny _)
  | TimedOut expiredAt =>
    exact stores_bind (stores_of_logs (logs_emitApprovalTimedOut _ _)) fun _ => stores_of_logs (logs_deny _)

theorem logs_autoConsume (op : Operation) (rsid : Option String) (grant : ApprovalGrant) :
    Respects Logs (autoConsume op rsid grant) := by
  refine logs_bind (logs_emitApprovalDecision _ _ _ _) fun _ => ?_
  cases grant.decision with
  | Allow => exact logs_pure _
  | Deny reason => exact logs_deny _

theorem routes_askOperator (op : Operation) (rsid : Option String) (summary : String) (ttlSecs : Nat)
    (channel : ApprovalChannel) : Respects Routes (askOperator op rsid summary ttlSecs channel) := by
  refine routes_bind (routes_of_logs (logs_reads _)) fun req => ?_
  refine routes_bind (routes_of_logs (logs_emitApprovalRequest req)) fun _ => ?_
  refine routes_bind (routes_ask (by simp [Quiet])) fun outcome => ?_
  exact routes_bind (routes_of_logs (logs_orFail _ _)) fun outcome => routes_of_stores (stores_takeOutcome _ _ _ _ outcome)

theorem routes_consult (op : Operation) (rsid : Option String) (summary : String) (ttlSecs : Nat)
    (grant : Option ApprovalGrant) : Respects Routes (consult op rsid summary ttlSecs grant) := by
  cases grant with
  | some grant => exact routes_of_logs (logs_autoConsume _ _ _)
  | none =>
    refine routes_bind (routes_of_logs (logs_reads _)) fun channel => ?_
    cases channel with
    | none => exact routes_of_logs (logs_pure _)
    | some channel => exact routes_askOperator _ _ _ _ _

theorem routes_approve (op : Operation) (rsid : Option String) (summary : String) :
    Respects Routes (approve op rsid summary) := by
  refine routes_bind (routes_of_logs (logs_reads _)) fun tier => ?_
  refine routes_bind (routes_of_logs (logs_reads _)) fun ttlSecs => ?_
  split_ifs
  · exact routes_bind (routes_of_logs (logs_emitApprovalDecision _ _ _ _)) fun _ => routes_of_logs (logs_pure _)
  · refine routes_bind (routes_of_stores stores_systemNow) fun now => ?_
    exact routes_bind (routes_of_logs (logs_reads _)) fun grant => routes_consult _ _ _ _ grant

theorem routes_routeThroughApproval (decision : Decision) (op : Operation) (rsid : Option String) :
    Respects Routes (routeThroughApproval decision op rsid) := by
  cases decision with
  | Allow => exact routes_of_logs (logs_pure _)
  | Deny reason => exact routes_of_logs (logs_pure _)
  | RequireApproval summary => exact routes_approve op rsid summary

end

/-! ### Quota and effect -/

theorem counts_bind {α β : Type} {p : Run α} {f : α → Run β} (first : Respects Counts p)
    (later : ∀ a,Respects Counts (f a)) : Respects Counts (p >>= f) := respects_bind counts_composes first later

theorem counts_of_logs {α : Type} {p : Run α} (logs : Respects Logs p) : Respects Counts p := respects_mono Leaves.counts logs

theorem works_bind {α β : Type} {p : Run α} {f : α → Run β} (first : Respects Works p)
    (later : ∀ a,Respects Works (f a)) : Respects Works (p >>= f) := respects_bind works_composes first later

theorem works_of_counts {α : Type} {p : Run α} (counts : Respects Counts p) : Respects Works p :=
  respects_mono Leaves.works counts

theorem works_of_logs {α : Type} {p : Run α} (logs : Respects Logs p) : Respects Works p :=
  works_of_counts (counts_of_logs logs)

theorem keeps_bind {α β : Type} {p : Run α} {f : α → Run β} (first : Respects Keeps p)
    (later : ∀ a,Respects Keeps (f a)) : Respects Keeps (p >>= f) := respects_bind keeps_composes first later

theorem keeps_of_logs {α : Type} {p : Run α} (logs : Respects Logs p) : Respects Keeps p :=
  respects_mono (fun held => routes_keeps held.stores.routes) logs

theorem keeps_of_routes {α : Type} {p : Run α} (routes : Respects Routes p) : Respects Keeps p :=
  respects_mono routes_keeps routes

theorem keeps_of_works {α : Type} {p : Run α} (works : Respects Works p) : Respects Keeps p :=
  respects_mono works_keeps works

/-- What performs one effect and then only reads, logs and counts has that effect
    first. -/
theorem perform_first {α β : Type} {effect other : Effect} {answer : Nat → α} {f : α → Run β} {s : Session} {tick : Nat}
    {pre post : List Event} (later : ∀ a,Respects Counts (f a))
    (split : ((perform effect answer >>= f) s).events = pre ++ .Performed tick other :: post) :
    pre = [] ∧ other = effect ∧ tick = s.tick := by
  rw [perform_bind] at split
  cases pre with
  | nil =>
    injection split with head
    injection head with moment same
    exact ⟨rfl,same.symm,moment.symm⟩
  | cons e rest =>
    injection split with head tail
    exact (later _ _).elsewhere tail |>.elim

theorem works_perform {α : Type} (effect : Effect) (answer : Nat → α) : Respects Works (perform effect answer) :=
  fun s => ⟨rfl,Nat.le_succ s.tick,by simp [perform,Unasked]⟩

section
variable [World]

theorem counts_logConnection (host : String) (port : UInt16) (proto : NetworkProto) (decision : NetworkConnectionDecision) :
    Respects Counts (logConnection host port proto decision) :=
  counts_bind (counts_of_logs logs_utcNow) fun _ => fun _ => ⟨rfl,le_rfl,by simp [update]⟩

variable [Chrono] [Serde] [Sha256]

theorem counts_enforceAggregateQuota (toolClass : ToolClass) (resourceUri accessKind : String) :
    Respects Counts (enforceAggregateQuota toolClass resourceUri accessKind) := by
  refine counts_bind (counts_of_logs (logs_reads _)) fun quota => ?_
  refine counts_bind (counts_of_logs (logs_reads _)) fun state => ?_
  cases checkAndIncrement state toolClass quota with
  | ok counted => exact fun s => ⟨rfl,le_rfl,by simp [update]⟩
  | error breach =>
    refine counts_of_logs (logs_bind (logs_writeAggregateCapViolation breach _ _) fun _ => ?_)
    exact logs_deny _

/-- What follows the answer to an effect. -/
theorem logs_concluded {ε α : Type} (wrap : ε → Error) (answer : Except ε α) (resourceUri : String)
    (accessType : AccessType) (bytes : α → UInt64) (rsid : Option String) :
    Respects Logs (do
      let value ← orFail wrap answer
      emitSuccess resourceUri accessType (bytes value) rsid
      return value) :=
  logs_bind (logs_orFail _ _) fun _ => logs_bind (logs_emitSuccess _ _ _ _) fun _ => logs_pure _

theorem works_dispatch {α : Type} (g : Gated α) (resourceUri : String) (rsid : Option String) :
    Respects Works (dispatch g resourceUri rsid) := by
  refine works_bind (works_of_counts (counts_enforceAggregateQuota _ _ _)) fun _ => ?_
  refine works_bind (works_perform _ _) fun answer => ?_
  exact works_of_logs (logs_concluded _ answer _ _ _ _)

/-- An MCP call is refused before it reaches the client. -/
theorem logs_mcpRefused {α : Type} (serverName toolName reason : String) : Respects Logs (do
    emitDeny (mcpUri serverName toolName) "mcp_tool_call" reason
    deny (.Denied reason) : Run α) :=
  logs_bind (logs_emitDeny _ _ _) fun _ => logs_deny _

theorem works_callClient (serverName serverUri toolName : String) (args : Value) (rsid : Option String) :
    Respects Works (callClient serverName serverUri toolName args rsid) := by
  refine works_bind (works_of_logs (logs_reads _)) fun client => ?_
  cases client with
  | none => exact works_of_logs (logs_mcpRefused _ _ _)
  | some client =>
    refine works_bind (works_perform _ _) fun answer => ?_
    exact works_of_logs (logs_concluded _ answer _ _ _ _)

/-- What follows the answer to a connection. -/
theorem counts_connected {ε α : Type} (wrap : ε → Error) (answer : Except ε α) (resourceUri host : String) (port : UInt16)
    (proto : NetworkProto) (decision : NetworkConnectionDecision) (rsid : Option String) :
    Respects Counts (do
      let _ ← orFail wrap answer
      emitSuccess resourceUri .NetworkOutbound 0 rsid
      logConnection host port proto decision) := by
  refine counts_bind (counts_of_logs (logs_orFail _ _)) fun _ => ?_
  exact counts_bind (counts_of_logs (logs_emitSuccess _ _ _ _)) fun _ => counts_logConnection _ _ _ _

/-- Without an approval nothing is connected. -/
theorem counts_finishConnect (initial : Decision) (host : String) (port : UInt16) (proto : NetworkProto)
    (rsid : Option String) {routed : Except Error Decision} (refused : routed ≠ .ok .Allow) :
    Respects Counts (finishConnect initial host port proto rsid routed) := by
  match routed with
  | .error error => exact counts_bind (counts_logConnection _ _ _ _) fun _ => counts_of_logs (logs_deny _)
  | .ok .Allow => exact absurd rfl refused
  | .ok (.Deny reason) =>
    refine counts_bind (counts_of_logs (logs_emitDeny _ _ _)) fun _ => ?_
    exact counts_bind (counts_logConnection _ _ _ _) fun _ => counts_of_logs (logs_deny _)
  | .ok (.RequireApproval reason) =>
    exact counts_bind (counts_logConnection _ _ _ _) fun _ => counts_of_logs (logs_deny _)

theorem works_finishConnect (initial : Decision) (host : String) (port : UInt16) (proto : NetworkProto)
    (rsid : Option String) (routed : Except Error Decision) :
    Respects Works (finishConnect initial host port proto rsid routed) := by
  by_cases allowed : routed = .ok .Allow
  · subst allowed
    refine works_bind (works_perform _ _) fun answer => ?_
    exact works_of_counts (counts_connected _ answer _ _ _ _ _ _)
  · exact works_of_counts (counts_finishConnect _ _ _ _ _ allowed)

/-! ### Pre-validation -/

theorem logs_clauseDecision (serverName toolName : String) (clause : PreValidateClause) (value : String) :
    Respects Logs (clauseDecision serverName toolName clause value) := by
  unfold clauseDecision
  cases clause.kind with
  | FilesystemRead => exact logs_readDecision value
  | FilesystemWrite => exact logs_writeDecisionNow value
  | FilesystemDelete => exact logs_deleteDecisionNow value
  | NetworkOutbound => exact logs_bind (logs_orFail _ _) fun _ => logs_reads _

theorem logs_preValidateValue (serverName toolName : String) (clause : PreValidateClause) (value : String) :
    Respects Logs (preValidateValue serverName toolName clause value) := by
  refine logs_bind (logs_clauseDecision _ _ clause value) fun decision => ?_
  cases decision with
  | Allow => exact logs_pure _
  | Deny reason => exact logs_bind (logs_emitDeny _ _ _) fun _ => logs_deny _
  | RequireApproval reason => exact logs_deny _

theorem logs_preValidateValues (serverName toolName : String) (clause : PreValidateClause) (values : List String) :
    Respects Logs (preValidateValues serverName toolName clause values) := by
  induction values with
  | nil => exact logs_pure _
  | cons value rest ih => exact logs_bind (logs_preValidateValue _ _ clause value) fun _ => ih

theorem logs_runMcpPreValidate (serverName toolName : String) (args : Value) (clauses : List PreValidateClause) :
    Respects Logs (runMcpPreValidate serverName toolName args clauses) := by
  induction clauses with
  | nil => exact logs_pure _
  | cons clause rest ih =>
    refine logs_bind (logs_orFail _ _) fun values => ?_
    exact logs_bind (logs_preValidateValues _ _ clause values) fun _ => ih

theorem works_dispatchMcp (grant : McpServerGrant) (serverName toolName : String) (args : Value) (rsid : Option String) :
    Respects Works (dispatchMcp grant serverName toolName args rsid) := by
  refine works_bind (works_of_logs (logs_runMcpPreValidate _ _ _ _)) fun _ => ?_
  exact works_bind (works_of_counts (counts_enforceAggregateQuota _ _ _)) fun _ => works_callClient _ _ _ _ _

/-! ### Whole calls -/

/-- What a mediator does before the approval only reads and logs. -/
structure Reading {α : Type} (g : Gated α) : Prop where
  decision : Respects Logs g.decision
  resourceUri : Respects Logs g.resourceUri
  silent : ∀ s,(g.resourceUri s).events = []

theorem reading_filesystemRead (path : String) : Reading (filesystemRead path) :=
  ⟨logs_readDecision path,logs_fileUri path,fileUri_silent path⟩

theorem reading_filesystemWrite (path : String) (contents : List UInt8) : Reading (filesystemWrite path contents) :=
  ⟨logs_writeDecisionNow path,logs_fileUri path,fileUri_silent path⟩

theorem reading_filesystemDelete (path : String) : Reading (filesystemDelete path) :=
  ⟨logs_deleteDecisionNow path,logs_fileUri path,fileUri_silent path⟩

theorem reading_execRun (program : String) (args : List String) : Reading (execRun program args) :=
  ⟨logs_reads _,logs_pure _,fun _ => rfl⟩

/-- Without an approval nothing is performed. -/
theorem logs_settle {α : Type} (g : Gated α) (resourceUri : String) (rsid : Option String) {decision : Decision}
    (refused : decision ≠ .Allow) : Respects Logs (settle g resourceUri rsid decision) := by
  cases decision with
  | Allow => exact absurd rfl refused
  | Deny reason => exact logs_bind (logs_emitDeny _ _ _) fun _ => logs_deny _
  | RequireApproval reason => exact logs_deny _

theorem works_settle {α : Type} (g : Gated α) (resourceUri : String) (rsid : Option String) (decision : Decision) :
    Respects Works (settle g resourceUri rsid decision) := by
  by_cases allowed : decision = .Allow
  · subst allowed
    exact works_dispatch g resourceUri rsid
  · exact works_of_logs (logs_settle g resourceUri rsid allowed)

variable [Identity]

theorem keeps_mediateGated {α : Type} {g : Gated α} (reading : Reading g) (rsid : Option String) :
    Respects Keeps (mediateGated g rsid) := by
  refine keeps_bind (keeps_of_logs logs_rebind) fun _ => ?_
  refine keeps_bind (keeps_of_logs reading.decision) fun decision => ?_
  refine keeps_bind (keeps_of_logs reading.resourceUri) fun resourceUri => ?_
  refine keeps_bind (keeps_of_routes (routes_routeThroughApproval _ _ _)) fun decision => ?_
  exact keeps_of_works (works_settle g resourceUri rsid decision)

theorem keeps_mediateNetworkConnect (host : String) (port : UInt16) (proto : NetworkProto) (rsid : Option String) :
    Respects Keeps (mediateNetworkConnect host port proto rsid) := by
  refine keeps_bind (keeps_of_logs logs_rebind) fun _ => ?_
  refine keeps_bind (keeps_of_logs (logs_reads _)) fun initial => ?_
  refine keeps_bind (keeps_of_routes (respects_attempt (routes_routeThroughApproval _ _ _))) fun routed => ?_
  exact keeps_of_works (works_finishConnect _ _ _ _ _ routed)

theorem works_mcpAllowed (serverName toolName : String) (args : Value) (rsid : Option String) :
    Respects Works (mcpAllowed serverName toolName args rsid) := by
  refine works_bind (works_of_logs (logs_reads _)) fun grant => ?_
  cases grant with
  | none => exact works_of_logs (logs_mcpRefused _ _ _)
  | some grant => exact works_dispatchMcp grant _ _ _ _

theorem works_mediateMcpToolCall (serverName toolName : String) (args : Value) (rsid : Option String) :
    Respects Works (mediateMcpToolCall serverName toolName args rsid) := by
  refine works_bind (works_of_logs logs_rebind) fun _ => ?_
  refine works_bind (works_of_logs (logs_reads _)) fun decision => ?_
  cases decision with
  | Deny reason => exact works_of_logs (logs_mcpRefused _ _ _)
  | RequireApproval reason => exact works_of_logs (logs_deny _)
  | Allow => exact works_mcpAllowed _ _ _ _

/-- No call changes the policy, the identity or the start of the session. -/
theorem keeps_mediate (call : Call) : Respects Keeps (mediate call) := by
  have unit : ∀ {α : Type} {p : Run α},Respects Keeps p → Respects Keeps (do let _ ← p) :=
    fun kept => keeps_bind kept fun _ => keeps_of_logs (logs_pure _)
  cases call with
  | FilesystemRead path rsid => exact unit (keeps_mediateGated (reading_filesystemRead path) rsid)
  | FilesystemWrite path contents rsid => exact keeps_mediateGated (reading_filesystemWrite path contents) rsid
  | FilesystemDelete path rsid => exact keeps_mediateGated (reading_filesystemDelete path) rsid
  | NetworkConnect host port proto rsid => exact keeps_mediateNetworkConnect host port proto rsid
  | McpToolCall serverName toolName args rsid => exact unit (keeps_of_works (works_mediateMcpToolCall _ _ args rsid))
  | Exec program args rsid => exact unit (keeps_mediateGated (reading_execRun program args) rsid)

/-- Nor does a run of calls. -/
theorem keeps_afterCalls (calls : List Call) (s : Session) : Keeps s [] (afterCalls s calls) := by
  induction calls generalizing s with
  | nil => exact keeps_composes.idle s
  | cons call rest ih =>
    have step := keeps_mediate call s
    have rest := ih (mediate call s).state
    exact ⟨(keeps_composes.append step rest).same,step.later.trans rest.later,by simp⟩

end

/-! ### How parts end -/

section
variable {done : Session → List Event → Session → Prop} {failed : Stop → Session → List Event → Session → Prop}

theorem ends_orFail {ε α : Type} (endings : Endings done failed) {wrap : ε → Error} {result : Except ε α}
    (explained : ∀ error,result = .error error → ∀ s,failed (.Err (wrap error)) s [] s) :
    Ends done failed (orFail wrap result) := by
  refine ends_ofExcept endings fun e same => ?_
  cases result with
  | ok a => cases same
  | error error =>
    cases same
    exact explained error rfl

theorem ends_ask {α : Type} {answer : Nat → α} {event : α → List Event} (own : ∀ s a,done s (event a) s.next) :
    Ends done failed (ask answer event) where
  runs run := by
    obtain ⟨-,rfl,rfl⟩ := runs_ask.mp run
    exact own _ _
  stops stop := by cases stop

theorem ends_emit [Chrono] [Serde] [Sha256] {wrap : Ledger.Error → Error} {entryType : EntryType} {timestamp : Int}
    {payload : Payload}
    (recorded : ∀ s record ledger,
      done s [.Append (entryOf s entryType timestamp payload) (.ok (.ok record))] (s.wrote ledger))
    (lost : ∀ s result ledger e,appendStop wrap result = some e →
      failed e s [.Append (entryOf s entryType timestamp payload) result] (s.wrote ledger)) :
    Ends done failed (emit wrap entryType timestamp payload) where
  runs run := by
    obtain ⟨record,ledger,-,rfl,rfl⟩ := runs_emit.mp run
    exact recorded _ record ledger
  stops stop := by
    obtain ⟨result,ledger,-,stopped,rfl,rfl⟩ := stops_emit.mp stop
    exact lost _ result ledger _ stopped

end

end AegisNode.Frames
