import AegisNode.GrantSafety
import AegisNode.Quota

/-!
Where cached answers come from: an allowance of the operator that a later call consumes
was published in the ledger with its id, tool and arguments. A refusal is cached as well,
and its id is in no entry.
-/
namespace AegisNode.Traceability
open Clock Json Schema Policy Grants Aggregate Traced Engine Mediator Frames Approval Mediation Entries AroundApproval GrantSafety
open Ledger hiding Error
open Quota (trace trace_concat)
set_option linter.unusedSectionVars false

/-! ### Entries about decisions -/

def field (entry : Entry) (key : String) : Option Value := Map.get entry.payload.fields key

/-- An `approval_decision` entry with the decision. -/
def Decided (entry : Entry) (decision : String) : Prop :=
  entry.entryType = .ApprovalDecision ∧ field entry "decision" = some (.String decision)

def AutoConsumed (entry : Entry) : Prop := Decided entry "auto_consumed_allow" ∨ Decided entry "auto_consumed_deny"

/-- The entry names a grant with its tool and arguments. -/
structure NamesGrant (entry : Entry) (grantId toolName argHash : String) : Prop where
  grantId : field entry "sourceGrantId" = some (.String grantId)
  toolName : field entry "toolName" = some (.String toolName)
  argHash : field entry "grantArgHashHex" = some (.String argHash)

/-- The entry that publishes a grant. -/
def Issues (entry : Entry) (grant : ApprovalGrant) : Prop :=
  Decided entry "grant_issued" ∧ NamesGrant entry grant.grantId.toString grant.boundToolName grant.argHashHex

theorem consumed_entry {entry : Entry} {op : Operation} {rsid : Option String} {grant : ApprovalGrant}
    (decision : entry.entryType = .ApprovalDecision) (payload : entry.payload = payloadOf (consumedFields op rsid grant)) :
    Decided entry (consumedOutcome grant.decision) ∧
      NamesGrant entry grant.grantId.toString op.toolName grant.argHashHex := by
  have fields : ∀ key,field entry key = fieldOf (consumedFields op rsid grant) key := by
    intro key
    rw [field,payload,get_payloadOf]
  refine ⟨⟨decision,?_⟩,?_,?_,?_⟩ <;> rw [fields] <;> unfold consumedFields decisionFields fieldOf Engine.optional <;>
    cases rsid <;> cases cachedReason grant.decision <;> simp [Scalar.value]

theorem issued_entry {entry : Entry} {op : Operation} {rsid : Option String} {grant : ApprovalGrant} {approver : String}
    {ttlSecs : Nat} (decision : entry.entryType = .ApprovalDecision)
    (payload : entry.payload = payloadOf (issuedFields op rsid grant approver ttlSecs)) (own : grant.boundToolName = op.toolName) :
    Issues entry grant := by
  have fields : ∀ key,field entry key = fieldOf (issuedFields op rsid grant approver ttlSecs) key := by
    intro key
    rw [field,payload,get_payloadOf]
  rw [Issues,own]
  refine ⟨⟨decision,?_⟩,?_,?_,?_⟩ <;> rw [fields] <;> unfold issuedFields decisionFields fieldOf Engine.optional <;>
    cases rsid <;> simp [Scalar.value]

/-- Only entries about grants have the field of their id. -/
theorem approvalDecision_of_names [Serde] [Sha256] {rsid : Option String} {about : String → String → Prop} {entry : Entry}
    {fields : List (String × Scalar)} (written : Written rsid about entry.entryType fields) (payload : entry.payload = payloadOf fields)
    {id : String} (names : field entry "sourceGrantId" = some (.String id)) : entry.entryType = .ApprovalDecision := by
  rw [field,payload,get_payloadOf] at names
  generalize entry.entryType = entryType at written ⊢
  cases written with
  | Work worked =>
    cases worked <;> unfold fieldOf at names <;> revert names
    case Access bytes own => unfold accessFields Engine.optional; cases rsid <;> simp
    case Denial reason own => simp [denialFields,Engine.optional]
    case Drift mismatch => simp [denialFields,Engine.optional]
    case Breach breach own => simp [breachFields]
  | Approval approved =>
    cases approved <;> try rfl
    all_goals unfold fieldOf at names; revert names
    case Request req expiresAt own step => unfold requestFields Engine.optional; cases req.reasoningStepId <;> simp
    case Granted approver decidedAt => unfold grantedFields Engine.optional; cases rsid <;> simp
    case Rejected reason decidedAt => unfold rejectedFields Engine.optional; cases rsid <;> simp
    case TimedOut expiredAt => unfold timedOutFields Engine.optional; cases rsid <;> simp

/-! ### Publication -/

/-- The operator allowed, and after that the grant's entry was handed to the ledger. -/
def Published (events : List Event) (grant : ApprovalGrant) : Prop :=
  ∃ before request approver decidedAt between entry result after,
    events = before ++ .Approval request (.ok (.Granted approver decidedAt)) :: (between ++ .Append entry result :: after) ∧
    (∀ e ∈ between,Unanswered e) ∧ Issues entry grant

/-- The table stays as it is, or takes one grant; one that allows is published. -/
def Publishes (a : Session) (events : List Event) (b : Session) : Prop :=
  b.grantTable = a.grantTable ∨ ∃ grant,b.grantTable = insert a.grantTable grant ∧
    (grant.decision = .Allow → Published events grant)

/-- The part of `Publishes` that follows the answer of the operator. -/
def Files (outcome : ApprovalOutcome) (a : Session) (events : List Event) (b : Session) : Prop :=
  b.grantTable = a.grantTable ∨ ∃ grant,b.grantTable = insert a.grantTable grant ∧
    (grant.decision = .Allow → (∃ approver decidedAt,outcome = .Granted approver decidedAt) ∧
      ∃ between entry result,events = between ++ [.Append entry result] ∧ (∀ e ∈ between,Unanswered e) ∧ Issues entry grant)

theorem Published.among {events : List Event} {grant : ApprovalGrant} (published : Published events grant)
    (earlier later : List Event) : Published (earlier ++ (events ++ later)) grant := by
  obtain ⟨before,request,approver,decidedAt,between,entry,result,after,rfl,unanswered,issues⟩ := published
  exact ⟨earlier ++ before,request,approver,decidedAt,between,entry,result,after ++ later,by simp,unanswered,issues⟩

section
variable {a b c : Session} {left right : List Event}

theorem Publishes.after_logs (publishes : Publishes b right c) (logs : Logs a left b) : Publishes a (left ++ right) c := by
  have table : b.grantTable = a.grantTable := by rw [logs.same]
  rw [Publishes,table] at publishes
  rcases publishes with kept | ⟨grant,inserted,published⟩
  · exact .inl kept
  · refine .inr ⟨grant,inserted,fun allow => ?_⟩
    have among := (published allow).among left []
    rwa [List.append_nil] at among

theorem Publishes.before_works (publishes : Publishes a left b) (works : Works b right c) : Publishes a (left ++ right) c := by
  have table : c.grantTable = b.grantTable := by rw [works.same]
  rw [Publishes,table]
  rcases publishes with kept | ⟨grant,inserted,published⟩
  · exact .inl kept
  · exact .inr ⟨grant,inserted,fun allow => (published allow).among [] right⟩

theorem publishes_of_works (works : Works a left b) : Publishes a left b := .inl (by rw [works.same])

end

theorem publishes_framed : Framed Publishes where
  idle apart := publishes_of_works apart.1
  after apart publishes := publishes.after_logs apart.1
  before publishes apart := publishes.before_works apart.1

section
variable {α : Type} {p : Run α}

theorem publishes_of_logs (logs : Respects Logs p) : Respects Publishes p :=
  respects_mono (fun logs => publishes_of_works logs.counts.works) logs

theorem publishes_after {β : Type} {f : α → Run β} (first : Respects Logs p) (later : ∀ a,Respects Publishes (f a)) :
    Respects Publishes (p >>= f) :=
  respects_then (R := Logs) (fun logs => publishes_of_works logs.counts.works) (fun logs publishes => publishes.after_logs logs)
    first later

theorem files_after {outcome : ApprovalOutcome} {β : Type} {f : α → Run β} (first : Respects Logs p)
    (later : ∀ a,Respects (Files outcome) (f a)) : Respects (Files outcome) (p >>= f) := by
  refine respects_then (R := Logs) (fun logs => .inl (by rw [logs.same])) ?_ first later
  intro a b c left right logs files
  have table : b.grantTable = a.grantTable := by rw [logs.same]
  rw [Files,table] at files
  rcases files with kept | ⟨grant,inserted,filed⟩
  · exact .inl kept
  · refine .inr ⟨grant,inserted,fun allow => ?_⟩
    obtain ⟨granted,between,entry,result,rfl,unanswered,issues⟩ := filed allow
    refine ⟨granted,left ++ between,entry,result,by rw [List.append_assoc],?_,issues⟩
    intro e member
    rcases List.mem_append.mp member with member | member
    · exact Plain.unanswered e (logs.each e member)
    · exact unanswered e member

end

section
variable [Chrono] [Serde] [Sha256]

/-- An entry is handed to the ledger, whatever comes of it. -/
theorem emit_hands (wrap : Ledger.Error → Error) (entryType : EntryType) (timestamp : Int) (payload : Payload) (s : Session) :
    ∃ result,(emit wrap entryType timestamp payload s).events = [.Append (entryOf s entryType timestamp payload) result] := by
  rcases runs_or_stops (emit wrap entryType timestamp payload) s with ⟨u,runs⟩ | ⟨e,stops⟩
  · obtain ⟨record,-,-,-,events⟩ := runs_emit.mp runs
    exact ⟨_,events⟩
  · obtain ⟨result,-,-,-,-,events⟩ := stops_emit.mp stops
    exact ⟨_,events⟩

variable [World]

theorem issue_files (op : Operation) (rsid : Option String) (ttlSecs : Nat) (approver : String) (decidedAt : Int) :
    Respects (Files (.Granted approver decidedAt)) (do
      let grant ← storeGrant op ttlSecs .Allow
      emitApprovalDecisionGranted op rsid grant approver ttlSecs
      return Decision.Allow) := by
  intro s
  obtain ⟨grant,m,now,stores,inserted,own⟩ : ∃ grant m now,Runs (storeGrant op ttlSecs .Allow) s grant m [.SystemNow now] ∧
      m.grantTable = insert s.grantTable grant ∧ grant.boundToolName = op.toolName :=
    ⟨_,_,_,Faultless.storeGrant_runs s op ttlSecs .Allow,rfl,rfl⟩
  obtain ⟨result,handed⟩ := emit_hands .Ledger .ApprovalDecision (World.utcNow m.tick)
    (payloadOf (issuedFields op rsid grant approver ttlSecs)) m.next
  have logs : Respects Logs (emitApprovalDecisionGranted op rsid grant approver ttlSecs >>= fun _ => pure Decision.Allow) :=
    logs_bind (logs_emitApprovalDecision _ _ _ _) fun _ => logs_pure _
  rw [bind_ok stores.result,stores.state,stores.events]
  refine .inr ⟨grant,?table,fun _ => ⟨⟨approver,decidedAt,rfl⟩,[.SystemNow now,.UtcNow (World.utcNow m.tick)],
    entryOf m.next .ApprovalDecision (World.utcNow m.tick) (payloadOf (issuedFields op rsid grant approver ttlSecs)),result,
    ?_,by simp [Unanswered],issued_entry rfl rfl own⟩⟩
  case table =>
    have kept := congrArg Session.grantTable (logs m).same
    exact kept.trans inserted
  · rw [bind_pure_events.1]
    exact congrArg (_ :: _ :: ·) handed

theorem files_takeOutcome (op : Operation) (rsid : Option String) (ttlSecs : Nat) (req : ApprovalRequest)
    (outcome : ApprovalOutcome) : Respects (Files outcome) (takeOutcome op rsid ttlSecs req outcome) := by
  cases outcome with
  | Granted approver decidedAt =>
    exact files_after (logs_emitApprovalGranted _ _ _) fun _ => issue_files op rsid ttlSecs approver decidedAt
  | Rejected reason decidedAt =>
    refine files_after (logs_emitApprovalRejected _ _ _) fun _ => ?_
    intro s
    exact .inr ⟨Faultless.grantOf s op ttlSecs (.Deny reason),rfl,fun allow => by cases allow⟩
  | TimedOut expiredAt =>
    refine files_after (logs_emitApprovalTimedOut _ _) fun _ => ?_
    exact fun s => .inl rfl

theorem publishes_askOperator (op : Operation) (rsid : Option String) (summary : String) (ttlSecs : Nat)
    (channel : ApprovalChannel) : Respects Publishes (askOperator op rsid summary ttlSecs channel) := by
  refine publishes_after (logs_reads _) fun req => ?_
  refine publishes_after (logs_emitApprovalRequest req) fun _ => ?_
  intro s
  rw [ask_bind]
  cases answered : channel.requestApproval s.tick req with
  | error error => exact .inl rfl
  | ok outcome =>
    rw [orFail_ok_bind]
    rcases files_takeOutcome op rsid ttlSecs req outcome s.next with kept | ⟨grant,inserted,filed⟩
    · exact .inl kept
    · refine .inr ⟨grant,inserted,fun allow => ?_⟩
      obtain ⟨⟨approver,decidedAt,rfl⟩,between,entry,result,same,unanswered,issues⟩ := filed allow
      exact ⟨[],req,approver,decidedAt,between,entry,result,[],by rw [same]; rfl,unanswered,issues⟩

theorem publishes_approve (op : Operation) (rsid : Option String) (summary : String) :
    Respects Publishes (approve op rsid summary) := by
  intro s
  rw [approve,reads_bind,reads_bind]
  split_ifs with tier
  · exact publishes_of_logs (logs_bind (logs_emitApprovalDecision _ _ _ _) fun _ => logs_pure _) s
  · rw [systemNow,ask_bind,reads_bind,Session.next_grantTable]
    -- The reading of the clock before the lookup is no entry.
    have clocked : Respects Publishes (consult op rsid summary (ttlSecsFor s.policy op.toolClass)
        (lookup s.grantTable op.toolName op.canonicalArgs (World.systemNow s.tick))) := by
      cases lookup s.grantTable op.toolName op.canonicalArgs (World.systemNow s.tick) with
      | some grant => exact publishes_of_logs (logs_autoConsume op rsid grant)
      | none =>
        refine publishes_after (logs_reads _) fun channel => ?_
        cases channel with
        | none => exact publishes_of_logs (logs_pure _)
        | some channel => exact publishes_askOperator op rsid summary _ channel
    rcases clocked s.next with kept | ⟨grant,inserted,published⟩
    · exact .inl kept
    · refine .inr ⟨grant,inserted,fun allow => ?_⟩
      have among := (published allow).among [.SystemNow (World.systemNow s.tick)] []
      rwa [List.append_nil] at among

/-- What a call does to the table of grants is published. -/
theorem publishes_mediate [Identity] (call : Call) : Respects Publishes (mediate call) := by
  refine framed_mediate publishes_framed fun {_ op} _ decision => ?_
  cases decision with
  | Allow => exact publishes_of_logs (logs_pure _)
  | Deny reason => exact publishes_of_logs (logs_pure _)
  | RequireApproval summary => exact publishes_approve op _ summary

/-! ### Consumption -/

/-- The first reading of the system clock. -/
def FirstReading (events : List Event) (now : Int) : Prop :=
  ∃ before after,events = before ++ .SystemNow now :: after ∧ ∀ t,.SystemNow t ∉ before

/-- An auto-consumed entry names the grant that is live for the key at the first reading
    of the clock. -/
def Consumes (named : Option Key) (a : Session) (events : List Event) (_ : Session) : Prop :=
  ∀ entry result,.Append entry result ∈ events → AutoConsumed entry → ∃ key now grant,named = some key ∧
    FirstReading events now ∧ lookup a.grantTable key.toolName key.canonicalArgs now = some grant ∧
    NamesGrant entry grant.grantId.toString key.toolName grant.argHashHex

/-- No entry is auto-consumed. -/
def Unconsumed : Event → Prop
  | .Append entry _ => ¬ AutoConsumed entry
  | _ => True

theorem AutoConsumed.decision {entry : Entry} (consumed : AutoConsumed entry) : entry.entryType = .ApprovalDecision :=
  consumed.elim And.left And.left

theorem Unapproving.unconsumed (e : Event) (unapproving : Unapproving e) : Unconsumed e := by
  cases e with
  | Append entry result =>
    intro consumed
    rcases unapproving with access | violation
    · rw [consumed.decision] at access
      cases access
    · rw [consumed.decision] at violation
      cases violation
  | _ => trivial

theorem consumes_of_unconsumed {named : Option Key} {a b : Session} {events : List Event}
    (unconsumed : ∀ e ∈ events,Unconsumed e) : Consumes named a events b :=
  fun entry result member consumed => (unconsumed (.Append entry result) member consumed).elim

theorem consumes_framed (named : Option Key) : Framed (Consumes named) where
  idle apart := consumes_of_unconsumed fun e member => Unapproving.unconsumed e (apart.2 e member)
  after := by
    intro a b c left right apart consumes entry result member consumed
    have table : b.grantTable = a.grantTable := by rw [apart.1.same]
    rcases List.mem_append.mp member with early | late
    · exact (Unapproving.unconsumed _ (apart.2 _ early) consumed).elim
    · obtain ⟨key,now,grant,same,⟨before,after,rfl,first⟩,live,names⟩ := consumes entry result late consumed
      refine ⟨key,now,grant,same,⟨left ++ before,after,by rw [List.append_assoc],?_⟩,table ▸ live,names⟩
      intro t member
      rcases List.mem_append.mp member with member | member
      · exact apart.1.each _ member
      · exact first t member
  before := by
    intro a b c left right consumes apart entry result member consumed
    rcases List.mem_append.mp member with early | late
    · obtain ⟨key,now,grant,same,⟨before,after,rfl,first⟩,live⟩ := consumes entry result early consumed
      exact ⟨key,now,grant,same,⟨before,after ++ right,by simp,first⟩,live⟩
    · exact (Unapproving.unconsumed _ (apart.2 _ late) consumed).elim

theorem unconsumed_of_unwritten {α : Type} {p : Run α} (unwritten : Respects (Each Unwritten) p) :
    Respects (Each Unconsumed) p := by
  refine each_mono (fun e quiet => ?_) unwritten
  cases e <;> first | exact quiet.elim | trivial

/-- The shape of most entries: the time is read first. -/
theorem unconsumed_stamped (wrap : Ledger.Error → Error) (entryType : EntryType) {fields : Int → List (String × Scalar)}
    (other : ∀ now,entryType = .ApprovalDecision → fieldOf (fields now) "decision" ≠ some (.String "auto_consumed_allow") ∧
      fieldOf (fields now) "decision" ≠ some (.String "auto_consumed_deny")) :
    Respects (Each Unconsumed) (utcNow >>= fun now => emit wrap entryType now (payloadOf (fields now))) := by
  refine each_bind (unconsumed_of_unwritten unwritten_utcNow) fun now => ?_
  intro s e member
  obtain ⟨result,handed⟩ := emit_hands wrap entryType now (payloadOf (fields now)) s
  rw [handed] at member
  cases List.mem_singleton.mp member
  intro consumed
  obtain ⟨allow,deny⟩ := other now consumed.decision
  rcases consumed with ⟨-,decided⟩ | ⟨-,decided⟩ <;> rw [field,entryOf,get_payloadOf] at decided
  · exact allow decided
  · exact deny decided

theorem unconsumed_takeOutcome (op : Operation) (rsid : Option String) (ttlSecs : Nat) (req : ApprovalRequest)
    (outcome : ApprovalOutcome) : Respects (Each Unconsumed) (takeOutcome op rsid ttlSecs req outcome) := by
  have stored := fun decision => unconsumed_of_unwritten (unwritten_storeGrant op ttlSecs decision)
  cases outcome with
  | Granted approver decidedAt =>
    refine each_bind (unconsumed_stamped _ _ fun _ other => by cases other) fun _ => ?_
    refine each_bind (stored _) fun grant => ?_
    refine each_bind (unconsumed_stamped _ _ fun _ _ => ?_) fun _ => unconsumed_of_unwritten (unwritten_pure _)
    cases rsid <;> simp [fieldOf,Engine.optional,Scalar.value]
  | Rejected reason decidedAt =>
    refine each_bind (unconsumed_stamped _ _ fun _ other => by cases other) fun _ => ?_
    exact each_bind (stored _) fun _ => unconsumed_of_unwritten (unwritten_deny _)
  | TimedOut expiredAt =>
    refine each_bind (unconsumed_stamped _ _ fun _ other => by cases other) fun _ => ?_
    exact unconsumed_of_unwritten (unwritten_deny _)

theorem unconsumed_consult (op : Operation) (rsid : Option String) (summary : String) (ttlSecs : Nat) :
    Respects (Each Unconsumed) (consult op rsid summary ttlSecs none) := by
  refine each_bind (unconsumed_of_unwritten (unwritten_reads _)) fun channel => ?_
  cases channel with
  | none => exact unconsumed_of_unwritten (unwritten_pure _)
  | some channel =>
    refine each_bind (unconsumed_of_unwritten (unwritten_reads _)) fun req => ?_
    refine each_bind ?request fun _ => ?_
    case request =>
      refine each_bind (unconsumed_of_unwritten unwritten_utcNow) fun asked => ?_
      exact unconsumed_stamped _ _ fun _ other => by cases other
    refine each_bind (unconsumed_of_unwritten (unwritten_ask (by simp [Unwritten]))) fun outcome => ?_
    refine each_bind (unconsumed_of_unwritten (unwritten_orFail _ _)) fun outcome => ?_
    exact unconsumed_takeOutcome op rsid ttlSecs req outcome

theorem autoConsume_names {op : Operation} {rsid : Option String} {grant : ApprovalGrant} {s : Session} {entry : Entry}
    {result : Checked (Except Ledger.Error EntryRecord)} (member : .Append entry result ∈ (autoConsume op rsid grant s).events) :
    NamesGrant entry grant.grantId.toString op.toolName grant.argHashHex := by
  have records : Respects (Each (Records fun entryType fields => entryType = .ApprovalDecision ∧
      fields = consumedFields op rsid grant)) (autoConsume op rsid grant) := by
    refine each_bind (records_now fun _ => records_emit ⟨rfl,rfl⟩) fun _ => ?_
    cases grant.decision with
    | Allow => exact records_of_unwritten (unwritten_pure _)
    | Deny reason => exact records_of_unwritten (unwritten_deny _)
  obtain ⟨fields,⟨decision,rfl⟩,payload⟩ := records s _ member
  exact (consumed_entry decision payload).2

theorem consumes_approve (op : Operation) (rsid : Option String) (summary : String) :
    Respects (Consumes (some (keyOf op))) (approve op rsid summary) := by
  intro s
  rw [approve,reads_bind,reads_bind]
  split_ifs with tier
  · refine consumes_of_unconsumed ?_
    refine each_bind (unconsumed_stamped _ _ fun _ _ => ?_) (fun _ => unconsumed_of_unwritten (unwritten_pure _)) s
    cases rsid <;> simp [fieldOf,Engine.optional,Scalar.value]
  · rw [systemNow,ask_bind,reads_bind,Session.next_grantTable]
    intro entry result member consumed
    rcases List.mem_cons.mp member with clock | member
    · cases clock
    cases found : lookup s.grantTable op.toolName op.canonicalArgs (World.systemNow s.tick) with
    | none =>
      rw [found] at member
      exact (unconsumed_consult op rsid summary _ s.next _ member consumed).elim
    | some grant =>
      rw [found] at member
      exact ⟨keyOf op,_,grant,rfl,⟨[],_,rfl,by simp⟩,found,autoConsume_names member⟩

theorem consumes_mediate [Identity] (call : Call) : Respects (Consumes (callKey call)) (mediate call) := by
  refine framed_mediate (consumes_framed _) fun {_ op} operation decision => ?_
  rw [callKey_operation operation]
  have nothing : ∀ decision,Respects (Consumes (some (keyOf op))) (pure decision : Run Decision) :=
    fun decision s => consumes_of_unconsumed (unconsumed_of_unwritten (unwritten_pure decision) s)
  cases decision with
  | Allow => exact nothing _
  | Deny reason => exact nothing _
  | RequireApproval summary => exact consumes_approve op _ summary

end

/-! ### Runs -/

section
variable [Chrono] [Serde] [Sha256] [Identity] [World]

/-- The grants in the table stand under their own key, and those that allow are published. -/
def Publicised (past : List Event) (table : SessionGrantTable) : Prop :=
  ∀ slot grant,table.lookup slot = some grant → grant.boundToolName = slot.1 ∧ (grant.decision = .Allow → Published past grant)

theorem publicised_mediate {past : List Event} {s : Session} (publicised : Publicised past s.grantTable) (call : Call) :
    Publicised (past ++ (mediate call s).events) (mediate call s).state.grantTable := by
  have kept : Publicised (past ++ (mediate call s).events) s.grantTable := by
    intro slot grant found
    obtain ⟨own,published⟩ := publicised slot grant found
    exact ⟨own,fun allow => (published allow).among [] (mediate call s).events⟩
  rcases publishes_mediate call s with same | ⟨filed,inserted,published⟩
  · rw [same]
    exact kept
  · intro slot grant found
    rw [inserted,Grants.insert] at found
    by_cases own : slot = (filed.boundToolName,filed.boundArgHash)
    · subst own
      rw [AList.lookup_insert] at found
      cases found
      refine ⟨rfl,fun allow => ?_⟩
      have among := (published allow).among past []
      rwa [List.append_nil] at among
    · rw [AList.lookup_insert_ne own] at found
      exact kept slot grant found

theorem publicised_run {start : Session} (empty : start.grantTable = ∅) (calls : List Call) :
    Publicised (trace start calls) (afterCalls start calls).grantTable := by
  induction calls using List.reverseRecOn with
  | nil =>
    intro slot grant found
    rw [show (afterCalls start []).grantTable = ∅ from empty,AList.lookup_empty] at found
    cases found
  | append_singleton calls call ih =>
    rw [trace_concat,afterCalls_concat]
    exact publicised_mediate ih call

/-- An earlier entry, appended after an answer of the operator, names the same grant with
    the same tool and arguments. -/
def Sourced (past : List Event) (entry : Entry) : Prop :=
  ∃ grantId toolName argHash,NamesGrant entry grantId toolName argHash ∧ ∃ before request outcome between source record after,
    past = before ++ .Approval request (.ok outcome) :: (between ++ .Append source (.ok (.ok record)) :: after) ∧
    (∀ e ∈ between,Unanswered e) ∧ NamesGrant source grantId toolName argHash

theorem Sourced.more {past : List Event} {entry : Entry} (sourced : Sourced past entry) (later : List Event) :
    Sourced (past ++ later) entry := by
  obtain ⟨grantId,toolName,argHash,names,before,request,outcome,between,source,record,after,rfl,rest⟩ := sourced
  exact ⟨grantId,toolName,argHash,names,before,request,outcome,between,source,record,after ++ later,by simp,rest⟩

/-- What the call finds live in the table allows, and the append of its entry did not
    fail. -/
def Traceable (past : List Event) (s : Session) (call : Call) : Prop :=
  ∀ key now grant,callKey call = some key → FirstReading (mediate call s).events now →
    lookup s.grantTable key.toolName key.canonicalArgs now = some grant →
      grant.decision = .Allow ∧ ∀ entry result,.Append entry result ∈ past → Issues entry grant → ∃ record,result = .ok (.ok record)

theorem mediate_sourced {past : List Event} {s : Session} {call : Call} (publicised : Publicised past s.grantTable)
    (traceable : Traceable past s call) {entry : Entry} {result : Checked (Except Ledger.Error EntryRecord)}
    (member : .Append entry result ∈ (mediate call s).events) (consumed : AutoConsumed entry) : Sourced past entry := by
  obtain ⟨key,now,grant,named,reading,live,names⟩ := consumes_mediate call s entry result member consumed
  obtain ⟨allow,recorded⟩ := traceable key now grant named reading live
  obtain ⟨own,published⟩ := publicised _ grant (lookup_some.mp live).1
  obtain ⟨before,request,approver,decidedAt,between,source,handed,after,rfl,unanswered,issues⟩ := published allow
  obtain ⟨record,rfl⟩ := recorded source handed (by simp) issues
  have source := issues.2
  rw [own] at source
  exact ⟨_,_,_,names,before,request,_,between,_,record,after,rfl,unanswered,source⟩

variable [Adversarial.PerlWord]

/-- In every run whose calls find no cached refusal live, and no grant whose entry was
    lost, each auto-consumed entry has its source in the ledger. -/
theorem auto_consumed_traceable {cfg : BootConfig} {booted : Session} (boots : boot cfg = .ok booted)
    (channel : Option ApprovalChannel) (client : Option McpClient) (calls : List Call)
    (traceable : ∀ before call after,calls = before ++ call :: after →
      Traceable (trace (attach booted channel client) before) (afterCalls (attach booted channel client) before) call)
    {pre post : List Event} {entry : Entry} {result : Checked (Except Ledger.Error EntryRecord)}
    (whole : trace (attach booted channel client) calls = pre ++ .Append entry result :: post) (consumed : AutoConsumed entry) :
    Sourced pre entry := by
  have empty : (attach booted channel client).grantTable = ∅ := (boot_booted boots).grants
  induction calls using List.reverseRecOn generalizing pre post with
  | nil => simp [trace,history] at whole
  | append_singleton calls call ih =>
    rw [trace_concat] at whole
    have last : Event.Append entry result ∈ (mediate call (afterCalls (attach booted channel client) calls)).events →
        Sourced (trace (attach booted channel client) calls) entry := fun member =>
      mediate_sourced (publicised_run empty calls) (traceable calls call [] rfl) member consumed
    rcases split_either whole with ⟨rest,inside,-⟩ | ⟨rest,before,after⟩
    · exact ih (fun before other after split => traceable before other (after ++ [call]) (by rw [split]; simp)) inside
    · subst before
      exact (last (by rw [after]; simp)).more rest

end

section
open Reference Faultless

/-- The first call leaves a grant of what the operator decided. -/
structure LeftGrant [World] (decision : GrantDecision) (s : Session) (grant : ApprovalGrant) : Prop where
  table : s.grantTable = Grants.insert ∅ grant
  tool : grant.boundToolName = ls.toolName
  hash : grant.boundArgHash = canonicalArgHash ls.canonicalArgs
  decided : grant.decision = decision
  live : ∀ tick,grant.isLiveAt (World.systemNow tick) = true

section
variable [w : World] {s : Session} {n : Nat} (steady : Steady s) (policy : s.policy = asking) (ungranted : s.grantTable = ∅)
  (still : ∀ tick,w.systemNow tick = 0)

include still in
theorem grantOf_live (u : Session) (decision : GrantDecision) (tick : Nat) :
    (grantOf u ls (ttlSecsFor asking .Exec) decision).isLiveAt (w.systemNow tick) = true := by
  rw [isLiveAt_iff,still tick,grantOf,still]
  change (0 : Int) < 0+((ttlSecsFor asking .Exec*1000000000 : Nat) : Int)
  decide

include steady policy ungranted still in
theorem runLs_rejected (attached : s.approvalChannel = some (answering (.Rejected "no" 0))) (ready : Ready s (n+2)) :
    ∃ grant,LeftGrant (.Deny "no") (mediate runLs s).state grant ∧ Ready (mediate runLs s).state n ∧
      ∀ entry result,.Append entry result ∈ (mediate runLs s).events → entry.entryType ≠ .ApprovalDecision := by
  obtain ⟨before,request,m,ledger,asks,requests,left⟩ := runLs_asks steady policy ungranted attached ready
  obtain ⟨entry,record,now,t,u,takes,rejected,left,table⟩ :=
    takeOutcome_rejected ls none (ttlSecsFor asking .Exec) request "no" 0 left
  have stops := asks.stops (stops_bind.mpr (.inl takes))
  have whole : Stops (mediate runLs) s _ _ _ := (alike_return (mediateExec "/bin/ls" [] none) fun _ => ()).symm.stops stops
  rw [whole.state,whole.events]
  refine ⟨grantOf u ls (ttlSecsFor asking .Exec) (.Deny "no"),
    ⟨table.trans (congrArg (Grants.insert · _) ungranted),rfl,rfl,rfl,grantOf_live still u _⟩,left,?_⟩
  intro other result member
  rcases List.mem_append.mp member with member | member
  · rw [(requests other result member).1]
    decide
  · simp only [List.mem_cons,reduceCtorEq,Event.Append.injEq,List.not_mem_nil,or_false,false_or] at member
    rw [member.1,rejected]
    decide

include steady policy ungranted still in
/-- The program does not start, but its grant is filed. -/
theorem runLs_allowed (counts : s.aggregateState = ∅) (fails : ∀ tick,w.output tick "/bin/ls" [] = .error (.Os 2))
    (attached : s.approvalChannel = some (answering (.Granted "operator" 0))) (ready : Ready s (n+3)) :
    ∃ grant,LeftGrant .Allow (mediate runLs s).state grant ∧ Ready (mediate runLs s).state n ∧
      ∀ entry result,.Append entry result ∈ (mediate runLs s).events → ∃ record,result = .ok (.ok record) := by
  obtain ⟨before,request,m,ledger,asks,requests,left⟩ := runLs_asks steady policy ungranted attached ready
  obtain ⟨granted,issued,record,record',now,now',t,u,takes,left,table⟩ :=
    takeOutcome_grants ls none (ttlSecsFor asking .Exec) request "operator" 0 left
  have room : Room t .Exec ((∅ : SessionAggregateState).insert .Exec 1) := by
    have stores := (takes.respects (stores_takeOutcome ls none _ request _)).same
    refine ⟨1,?_⟩
    rw [stores]
    change checkAndIncrement s.aggregateState .Exec (quotaFor s.policy .Exec) = _
    rw [policy,counts]
    rfl
  obtain ⟨t',settles,table',readies⟩ := settle_fails (g := execRun "/bin/ls" []) room fails (execUri "/bin/ls") none
  have stops := asks.stops (takes.continues.stops settles)
  have whole : Stops (mediate runLs) s _ _ _ := (alike_return (mediateExec "/bin/ls" [] none) fun _ => ()).symm.stops stops
  rw [whole.state,whole.events]
  refine ⟨grantOf u ls (ttlSecsFor asking .Exec) .Allow,
    ⟨(table'.trans table).trans (congrArg (Grants.insert · _) ungranted),rfl,rfl,rfl,grantOf_live still u _⟩,readies left,?_⟩
  intro other result member
  rcases List.mem_append.mp member with member | member
  · exact (requests other result member).2
  · simp only [List.mem_append,List.mem_cons,reduceCtorEq,Event.Append.injEq,List.not_mem_nil,or_false,false_or] at member
    rcases member with ⟨-,rfl⟩ | ⟨-,rfl⟩ <;> exact ⟨_,rfl⟩

include steady policy in
/-- The second call is answered by the grant that the first one left. -/
theorem runLs_twice {decision : GrantDecision} {grant : ApprovalGrant} (leaves : LeftGrant decision (mediate runLs s).state grant)
    (ready : Ready (mediate runLs s).state (n+1)) : ∃ before entry record after,
      trace s [runLs,runLs] = ((mediate runLs s).events ++ before) ++ .Append entry (.ok (.ok record)) :: after ∧
      (∀ other result,.Append other result ∉ before) ∧ Decided entry (consumedOutcome decision) := by
  have keeps := keeps_mediate runLs s
  have found : ∀ tick,lookup (mediate runLs s).state.grantTable ls.toolName ls.canonicalArgs (World.systemNow tick) = some grant := by
    intro tick
    refine lookup_some.mpr ⟨?_,leaves.live tick⟩
    rw [leaves.table,Grants.insert,leaves.tool,leaves.hash,AList.lookup_insert]
  have policy' : (mediate runLs s).state.policy = asking := by
    rw [keeps.same]
    exact policy
  obtain ⟨before,entry,record,after,events,unwritten,decided,payload⟩ := runLs_consumes (steady.keeps keeps) policy' found ready
  refine ⟨before,entry,record,after,?_,unwritten,?_⟩
  · rw [trace,history,history,history,List.flatMap_cons,List.flatMap_cons,events]
    simp
  · rw [← leaves.decided]
    exact (consumed_entry decided payload).1

end

/-- The operator allows the program once; the second time its grant answers. -/
theorem auto_consumed_traceable_allowed :
    let _ : World := { calmWorld asking with output := fun _ _ _ => .error (.Os 2) }
    ∃ booted pre entry record post,boot config = .ok booted ∧ trace (attach booted (some (answering (.Granted "operator" 0))) none)
      [runLs,runLs] = pre ++ .Append entry (.ok (.ok record)) :: post ∧ AutoConsumed entry ∧ Sourced pre entry := by
  intro world
  obtain ⟨booted,boots,fresh,ready⟩ := boot_succeeds (n := 100)
    (bootable asking rfl rfl rfl (fun _ _ _ => rfl) rfl) (by decide)
  have steady := fresh.steady (fun _ _ => rfl) (some (answering (.Granted "operator" 0))) none
  obtain ⟨grant,leaves,left,landed⟩ := runLs_allowed steady fresh.policy fresh.grants (fun _ => rfl) fresh.counts (fun _ => rfl) rfl
    ((ready.attach _ none).fewer (by decide : 4 ≤ 100))
  obtain ⟨before,entry,record,after,whole,-,decided⟩ := runLs_twice steady fresh.policy leaves left
  refine ⟨booted,_,entry,record,after,boots,whole,.inl decided,?_⟩
  refine auto_consumed_traceable boots _ none [runLs,runLs] ?_ whole (.inl decided)
  intro earlier call later split key now other named reading live
  -- The first call finds an empty table, the second the grant of the first.
  rcases earlier with _ | ⟨first,_ | ⟨second,earlier⟩⟩
  · rw [show (afterCalls (attach booted (some (answering (.Granted "operator" 0))) none) []).grantTable = ∅ from fresh.grants] at live
    cases (lookup_some.mp live).1
  · obtain ⟨rfl,rfl,-⟩ : runLs = first ∧ runLs = call ∧ later = [] := by simpa using split
    cases named
    have found := (lookup_some.mp live).1
    rw [show (afterCalls (attach booted (some (answering (.Granted "operator" 0))) none) [runLs]).grantTable = _ from leaves.table,
      Grants.insert,leaves.tool,leaves.hash] at found
    cases (AList.lookup_insert _).symm.trans found
    refine ⟨leaves.decided,fun entry result member _ => landed entry result ?_⟩
    simpa [trace,history] using member
  · simp at split

/-- The operator rejects the program once; the second time the refusal answers, and no
    entry before it has the id it names. -/
theorem cached_refusal_untraceable :
    let _ := calmWorld asking
    ∃ booted pre entry record post,boot config = .ok booted ∧ trace (attach booted (some (answering (.Rejected "no" 0))) none)
      [runLs,runLs] = pre ++ .Append entry (.ok (.ok record)) :: post ∧ AutoConsumed entry ∧ ¬ Sourced pre entry := by
  intro world
  obtain ⟨booted,boots,fresh,ready⟩ := calm_boots asking rfl rfl
  have steady := fresh.steady (fun _ _ => rfl) (some (answering (.Rejected "no" 0))) none
  obtain ⟨grant,leaves,left,undecided⟩ := runLs_rejected steady fresh.policy fresh.grants (fun _ => rfl) rfl
    ((ready.attach _ none).fewer (by decide : 3 ≤ 100))
  obtain ⟨before,entry,record,after,whole,unwritten,decided⟩ := runLs_twice steady fresh.policy leaves left
  refine ⟨booted,_,entry,record,after,boots,whole,.inr decided,?_⟩
  rintro ⟨grantId,toolName,argHash,-,first,request,outcome,between,source,record,rest,past,-,names⟩
  have member : Event.Append source (.ok (.ok record)) ∈
      (mediate runLs (attach booted (some (answering (.Rejected "no" 0))) none)).events ++ before := by
    rw [past]
    simp
  rcases List.mem_append.mp member with early | late
  · obtain ⟨fields,written,payload⟩ := records_mediate runLs _ _ early
    exact undecided _ _ early (approvalDecision_of_names written payload names.grantId)
  · exact unwritten _ _ late

end

end AegisNode.Traceability
