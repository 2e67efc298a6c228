import AegisNode.Frames

/-!
What the approval of an operation comes to: when it allows, and what it leaves in
the table of grants.
-/
namespace AegisNode.Approval
open Clock Json Schema Policy Grants Aggregate Traced Engine Mediator Frames
open Ledger hiding Error

/-- Every question that was put to the operator was granted. -/
def OnlyGranted (events : List Event) : Prop :=
  ∀ request outcome,.Approval request outcome ∈ events → ∃ approver decidedAt,outcome = .ok (.Granted approver decidedAt)

theorem onlyGranted_of_unasked {events : List Event} (unasked : ∀ e ∈ events,Unasked e) : OnlyGranted events :=
  fun request outcome member => (unasked (.Approval request outcome) member).elim

theorem onlyGranted_of_unanswered {events : List Event} (unanswered : ∀ e ∈ events,Unanswered e) : OnlyGranted events :=
  fun request outcome member => (unanswered (.Approval request outcome) member).elim

theorem OnlyGranted.append {left right : List Event} (first : OnlyGranted left) (second : OnlyGranted right) :
    OnlyGranted (left ++ right) := by
  intro request outcome member
  rcases List.mem_append.mp member with member | member
  · exact first request outcome member
  · exact second request outcome member

section
variable [Serde] [Sha256] [World]

/-- How an approval that the policy requires is reached: the tier does not ask, a live
    grant for the tool and the arguments allows, or without a live grant the operator
    grants now. -/
inductive Resolved (s : Session) (op : Operation) : List Event → Prop where
  | Advisory {events : List Event} (tier : tierFor s.policy op.toolClass = .Advisory) : Resolved s op events
  | LiveGrant {tick : Nat} {grant : ApprovalGrant} {rest : List Event} (since : s.tick ≤ tick)
      (live : lookup s.grantTable op.toolName op.canonicalArgs (World.systemNow tick) = some grant)
      (allows : grant.decision = .Allow) : Resolved s op (.SystemNow (World.systemNow tick) :: rest)
  | Operator {tick : Nat} {decidedAt : Int} {request : ApprovalRequest} {approver : String} {rest : List Event}
      (since : s.tick ≤ tick)
      (none : lookup s.grantTable op.toolName op.canonicalArgs (World.systemNow tick) = none)
      (granted : .Approval request (.ok (.Granted approver decidedAt)) ∈ rest) :
      Resolved s op (.SystemNow (World.systemNow tick) :: rest)

theorem Resolved.more {s : Session} {op : Operation} {events : List Event} (resolved : Resolved s op events)
    (later : List Event) : Resolved s op (events ++ later) := by
  cases resolved with
  | Advisory tier => exact .Advisory tier
  | LiveGrant since live allows => exact .LiveGrant since live allows
  | Operator since none granted => exact .Operator since none (List.mem_append_left _ granted)

/-- Only the policy, the grants and the clock are read. -/
theorem Resolved.of_logs {a b : Session} {op : Operation} {logged events : List Event} (logs : Logs a logged b)
    (resolved : Resolved b op events) : Resolved a op events := by
  have policy : b.policy = a.policy := by rw [logs.same]
  have table : b.grantTable = a.grantTable := by rw [logs.same]
  cases resolved with
  | Advisory tier => exact .Advisory (policy ▸ tier)
  | LiveGrant since live allows => exact .LiveGrant (logs.later.trans since) (table ▸ live) allows
  | Operator since none granted => exact .Operator (logs.later.trans since) (table ▸ none) granted

variable [Chrono]

/-! ### When it allows -/

/-- The operator's answer leads on only if it grants. -/
theorem takeOutcome_granted {op : Operation} {rsid : Option String} {ttlSecs : Nat} {request : ApprovalRequest}
    {outcome : ApprovalOutcome} {decision : Decision} {s t : Session} {events : List Event}
    (runs : Runs (takeOutcome op rsid ttlSecs request outcome) s decision t events) :
    ∃ approver decidedAt,outcome = .Granted approver decidedAt := by
  cases outcome with
  | Granted approver decidedAt => exact ⟨approver,decidedAt,rfl⟩
  | Rejected reason decidedAt =>
    obtain ⟨_,_,_,_,-,runs,-⟩ := runs_bind.mp runs
    obtain ⟨_,_,_,_,-,stopped,-⟩ := runs_bind.mp runs
    exact absurd stopped runs_deny
  | TimedOut expiredAt =>
    obtain ⟨_,_,_,_,-,stopped,-⟩ := runs_bind.mp runs
    exact absurd stopped runs_deny

theorem askOperator_granted {op : Operation} {rsid : Option String} {summary : String} {ttlSecs : Nat}
    {channel : ApprovalChannel} {decision : Decision} {s t : Session} {events : List Event}
    (runs : Runs (askOperator op rsid summary ttlSecs channel) s decision t events) :
    OnlyGranted events ∧ ∃ request approver decidedAt,.Approval request (.ok (.Granted approver decidedAt)) ∈ events := by
  rw [askOperator,runs_reads_bind,runs_bind] at runs
  obtain ⟨_,s₁,requested,_,requestRuns,runs,rfl⟩ := runs
  rw [runs_ask_bind] at runs
  obtain ⟨_,runs,rfl⟩ := runs
  rw [runs_orFail_bind] at runs
  obtain ⟨outcome,answered,taken⟩ := runs
  obtain ⟨approver,decidedAt,rfl⟩ := takeOutcome_granted taken
  rw [answered]
  have before := (requestRuns.respects (logs_emitApprovalRequest _)).counts.works
  have after := taken.respects (stores_takeOutcome _ _ _ _ _)
  refine ⟨?_,_,approver,decidedAt,List.mem_append_right _ (List.mem_append_left _ (List.mem_singleton.mpr rfl))⟩
  refine (onlyGranted_of_unasked before.each).append (OnlyGranted.append ?_ (onlyGranted_of_unanswered after.each))
  intro request outcome member
  cases List.mem_singleton.mp member
  exact ⟨approver,decidedAt,rfl⟩

theorem autoConsume_allow {op : Operation} {rsid : Option String} {grant : ApprovalGrant} {decision : Decision}
    {s t : Session} {events : List Event} (runs : Runs (autoConsume op rsid grant) s decision t events) :
    grant.decision = .Allow := by
  obtain ⟨_,_,_,_,-,runs,-⟩ := runs_bind.mp runs
  cases decided : grant.decision with
  | Allow => rfl
  | Deny reason =>
    rw [decided] at runs
    exact absurd runs runs_deny

theorem approve_resolved {op : Operation} {rsid : Option String} {summary : String} {s t : Session}
    {events : List Event} (runs : Runs (approve op rsid summary) s .Allow t events) :
    OnlyGranted events ∧ Resolved s op events := by
  rw [approve,runs_reads_bind,runs_reads_bind] at runs
  split_ifs at runs with tier
  · obtain ⟨_,_,_,_,emitted,last,rfl⟩ := runs_bind.mp runs
    obtain ⟨-,-,rfl⟩ := runs_pure.mp last
    rw [List.append_nil]
    exact ⟨onlyGranted_of_unasked (emitted.respects (logs_emitApprovalDecision _ _ _ _)).counts.works.each,.Advisory tier⟩
  · rw [systemNow,runs_ask_bind] at runs
    obtain ⟨_,runs,rfl⟩ := runs
    rw [runs_reads_bind,Session.next_grantTable] at runs
    have clock : OnlyGranted [.SystemNow (World.systemNow s.tick)] :=
      onlyGranted_of_unanswered (by simp [Unanswered])
    cases found : lookup s.grantTable op.toolName op.canonicalArgs (World.systemNow s.tick) with
    | some grant =>
      rw [found] at runs
      have logged := (runs.respects (logs_autoConsume op rsid grant)).counts.works
      exact ⟨clock.append (onlyGranted_of_unasked logged.each),.LiveGrant le_rfl found (autoConsume_allow runs)⟩
    | none =>
      rw [found,consult,runs_reads_bind,Session.next_approvalChannel] at runs
      cases attached : s.approvalChannel with
      | none =>
        rw [attached] at runs
        cases (runs_pure.mp runs).1
      | some channel =>
        rw [attached] at runs
        obtain ⟨only,request,approver,decidedAt,granted⟩ := askOperator_granted runs
        exact ⟨clock.append only,.Operator le_rfl found granted⟩

/-- The routing allows what the policy allows, and what is resolved. -/
theorem routeThroughApproval_allow {decision : Decision} {op : Operation} {rsid : Option String} {s t : Session}
    {events : List Event} (runs : Runs (routeThroughApproval decision op rsid) s .Allow t events) :
    OnlyGranted events ∧
      (decision = .Allow ∨ ∃ summary,decision = .RequireApproval summary ∧ Resolved s op events) := by
  cases decision with
  | Allow =>
    obtain ⟨-,-,rfl⟩ := runs_pure.mp runs
    exact ⟨onlyGranted_of_unasked (by simp),.inl rfl⟩
  | Deny reason => cases (runs_pure.mp runs).1
  | RequireApproval summary =>
    obtain ⟨only,resolved⟩ := approve_resolved runs
    exact ⟨only,.inr ⟨summary,rfl,resolved⟩⟩

end

/-! ### What it leaves in the table -/

/-- What a grant is about. -/
structure Key where
  toolClass : ToolClass
  toolName : String
  canonicalArgs : Value

def keyOf (op : Operation) : Key := ⟨op.toolClass,op.toolName,op.canonicalArgs⟩

/-- The operator granted, nothing was asked after that, and the grant was issued at
    the time. -/
def GrantedAt (events : List Event) (issued : Int) : Prop :=
  ∃ before request approver decidedAt after,events = before ++ .Approval request (.ok (.Granted approver decidedAt)) :: after ∧
    .SystemNow issued ∈ after ∧ ∀ request outcome,.Approval request outcome ∉ after

/-- The answer was to grant, and the grant was issued at the time. -/
def AnsweredAt (outcome : ApprovalOutcome) (events : List Event) (issued : Int) : Prop :=
  (∃ approver decidedAt,outcome = .Granted approver decidedAt) ∧ .SystemNow issued ∈ events

/-- Evidence for a grant stays so among other events, while nothing else is asked. -/
structure Lasting (evidence : List Event → Int → Prop) : Prop where
  after : ∀ {events issued} (earlier : List Event),evidence events issued → evidence (earlier ++ events) issued
  before : ∀ {events later issued},evidence events issued → (∀ e ∈ later,Unasked e) → evidence (events ++ later) issued

theorem grantedAt_lasting : Lasting GrantedAt where
  after := by
    rintro events issued earlier ⟨before,request,approver,decidedAt,after,rfl,inside⟩
    exact ⟨earlier ++ before,request,approver,decidedAt,after,by rw [List.append_assoc],inside⟩
  before := by
    rintro events later issued ⟨before,request,approver,decidedAt,after,rfl,clock,none⟩ unasked
    refine ⟨before,request,approver,decidedAt,after ++ later,by simp,List.mem_append_left _ clock,?_⟩
    intro request outcome member
    rcases List.mem_append.mp member with member | member
    · exact none request outcome member
    · exact unasked _ member

theorem answeredAt_lasting (outcome : ApprovalOutcome) : Lasting (AnsweredAt outcome) where
  after := fun _ answered => ⟨answered.1,List.mem_append_right _ answered.2⟩
  before := fun answered _ => ⟨answered.1,List.mem_append_left _ answered.2⟩

section
variable [Serde] [Sha256]

/-- The grant that an answer leaves; one that allows has its evidence in the events. -/
structure Filed (key : Key) (ttlSecs : Nat) (evidence : List Event → Int → Prop) (events : List Event)
    (grant : ApprovalGrant) : Prop where
  tool : grant.boundToolName = key.toolName
  args : grant.boundArgHash = canonicalArgHash key.canonicalArgs
  ttl : grant.ttl = ttlSecs*1000000000
  allowed : grant.decision = .Allow → evidence events grant.issuedAt

/-- The table stays as it is, or one grant is filed. -/
def Files (key : Key) (ttlSecs : Nat) (evidence : List Event → Int → Prop) (a : Session) (events : List Event)
    (b : Session) : Prop :=
  b.grantTable = a.grantTable ∨ ∃ grant,b.grantTable = insert a.grantTable grant ∧ Filed key ttlSecs evidence events grant

section
variable {key : Key} {ttlSecs : Nat} {evidence : List Event → Int → Prop} {α β : Type} {p : Run α} {f : α → Run β}

theorem Filed.mono {broader : List Event → Int → Prop} {events more : List Event} {grant : ApprovalGrant}
    (filed : Filed key ttlSecs evidence events grant)
    (evident : ∀ {issued},evidence events issued → broader more issued) : Filed key ttlSecs broader more grant :=
  ⟨filed.tool,filed.args,filed.ttl,fun allow => evident (filed.allowed allow)⟩

theorem files_of_logs (logs : Respects Logs p) : Respects (Files key ttlSecs evidence) p :=
  respects_mono (fun logs => .inl (by rw [logs.same])) logs

theorem files_after (lasting : Lasting evidence) (first : Respects Logs p)
    (later : ∀ a,Respects (Files key ttlSecs evidence) (f a)) : Respects (Files key ttlSecs evidence) (p >>= f) := by
  refine respects_then (fun logs => .inl (by rw [logs.same])) ?_ first later
  intro a b c left right logs files
  have table : b.grantTable = a.grantTable := by rw [logs.same]
  rw [Files,table] at files
  rcases files with kept | ⟨grant,inserted,filed⟩
  · exact .inl kept
  · exact .inr ⟨grant,inserted,filed.mono (lasting.after left)⟩

theorem files_before (lasting : Lasting evidence) (first : Respects (Files key ttlSecs evidence) p)
    (later : ∀ a,Respects Logs (f a)) : Respects (Files key ttlSecs evidence) (p >>= f) := by
  refine respects_then (fun files => files) ?_ first later
  intro a b c left right files logs
  have table : c.grantTable = b.grantTable := by rw [logs.same]
  rw [Files,table]
  rcases files with kept | ⟨grant,inserted,filed⟩
  · exact .inl kept
  · exact .inr ⟨grant,inserted,filed.mono fun evident => lasting.before evident logs.counts.works.each⟩

end

variable [World]

theorem files_storeGrant (op : Operation) (ttlSecs : Nat) {decision : GrantDecision} {evidence : List Event → Int → Prop}
    (evident : decision = .Allow → ∀ issued,evidence [.SystemNow issued] issued) :
    Respects (Files (keyOf op) ttlSecs evidence) (storeGrant op ttlSecs decision) := by
  intro s
  right
  refine ⟨⟨World.uuid s.tick,World.systemNow (s.tick+1),ttlSecs*1000000000,op.toolName,canonicalArgHash op.canonicalArgs,
    decision⟩,rfl,rfl,rfl,rfl,?_⟩
  intro allow
  exact evident allow _

variable [Chrono]

theorem files_takeOutcome (op : Operation) (rsid : Option String) (ttlSecs : Nat) (req : ApprovalRequest)
    (outcome : ApprovalOutcome) :
    Respects (Files (keyOf op) ttlSecs (AnsweredAt outcome)) (takeOutcome op rsid ttlSecs req outcome) := by
  have lasting := answeredAt_lasting outcome
  cases outcome with
  | Granted approver decidedAt =>
    refine files_after lasting (logs_emitApprovalGranted _ _ _) fun _ => ?_
    refine files_before lasting (files_storeGrant _ _ ?_) fun grant => ?_
    · intro _ issued
      exact ⟨⟨approver,decidedAt,rfl⟩,List.mem_singleton.mpr rfl⟩
    · exact logs_bind (logs_emitApprovalDecision _ _ _ _) fun _ => logs_pure _
  | Rejected reason decidedAt =>
    refine files_after lasting (logs_emitApprovalRejected _ _ _) fun _ => ?_
    refine files_before lasting (files_storeGrant _ _ ?_) fun _ => logs_deny _
    rintro ⟨⟩
  | TimedOut expiredAt =>
    exact files_of_logs (logs_bind (logs_emitApprovalTimedOut _ _) fun _ => logs_deny _)

/-- The question itself is the evidence for what the answer leaves. -/
theorem files_askOperator (op : Operation) (rsid : Option String) (summary : String) (ttlSecs : Nat)
    (channel : ApprovalChannel) :
    Respects (Files (keyOf op) ttlSecs GrantedAt) (askOperator op rsid summary ttlSecs channel) := by
  refine files_after grantedAt_lasting (logs_reads _) fun req => ?_
  refine files_after grantedAt_lasting (logs_emitApprovalRequest req) fun _ => ?_
  intro s
  rw [ask_bind]
  cases answered : channel.requestApproval s.tick req with
  | error error => exact .inl rfl
  | ok outcome =>
    rw [orFail_ok_bind]
    have stores := stores_takeOutcome op rsid ttlSecs req outcome s.next
    rcases files_takeOutcome op rsid ttlSecs req outcome s.next with kept | ⟨grant,inserted,filed⟩
    · exact .inl kept
    · refine .inr ⟨grant,inserted,filed.mono ?_⟩
      rintro issued ⟨⟨approver,decidedAt,rfl⟩,clock⟩
      exact ⟨[],req,approver,decidedAt,_,rfl,clock,fun _ _ member => stores.each _ member⟩

theorem files_consult (op : Operation) (rsid : Option String) (summary : String) (ttlSecs : Nat) :
    Respects (Files (keyOf op) ttlSecs GrantedAt) (consult op rsid summary ttlSecs none) := by
  refine files_after grantedAt_lasting (logs_reads _) fun channel => ?_
  cases channel with
  | none => exact files_of_logs (logs_pure _)
  | some channel => exact files_askOperator op rsid summary ttlSecs channel

end

end AegisNode.Approval
