import AegisNode.AroundApproval
import AegisNode.Reference

/-!
Requests for an approval and the entries that resolve them: a call asks the operator
once at most, and what it writes after the request depends on whether the channel
answers and the ledger takes the entry of the answer.
-/
namespace AegisNode.Resolutions
open Clock Json Schema Policy Grants Aggregate Traced Engine Mediator Frames Entries AroundApproval
open Ledger hiding Error
set_option linter.unusedSectionVars false

/-! ### Entries -/

def isRequest (entryType : EntryType) : Bool := entryType = .ApprovalRequest

def isResolution (entryType : EntryType) : Bool :=
  entryType = .ApprovalGranted || entryType = .ApprovalRejected || entryType = .ApprovalTimedOut

/-- The entry of such a type that the ledger took. -/
def takenEntry (kind : EntryType → Bool) : Event → Option Entry
  | .Append entry (.ok (.ok _)) => if kind entry.entryType then some entry else none
  | _ => none

def taken (kind : EntryType → Bool) (events : List Event) : List Entry := events.filterMap (takenEntry kind)

theorem taken_append (kind : EntryType → Bool) (left right : List Event) :
    taken kind (left ++ right) = taken kind left ++ taken kind right := List.filterMap_append

section
variable [Chrono]

/-- The entry of a request. -/
def Requests (req : ApprovalRequest) (entry : Entry) : Prop :=
  entry.entryType = .ApprovalRequest ∧ ∃ expiresAt,entry.payload = payloadOf (requestFields req expiresAt)

/-- The entry of what the channel answered to a request. -/
def Resolves (req : ApprovalRequest) : ApprovalOutcome → Entry → Prop
  | .Granted approver decidedAt,entry => entry.entryType = .ApprovalGranted ∧
      entry.payload = payloadOf (grantedFields approver (Chrono.rfc3339 decidedAt) req.reasoningStepId)
  | .Rejected reason decidedAt,entry => entry.entryType = .ApprovalRejected ∧
      entry.payload = payloadOf (rejectedFields reason (Chrono.rfc3339 decidedAt) req.reasoningStepId)
  | .TimedOut expiredAt,entry => entry.entryType = .ApprovalTimedOut ∧
      entry.payload = payloadOf (timedOutFields (Chrono.rfc3339 expiredAt) req.reasoningStepId)

theorem Resolves.resolution {req : ApprovalRequest} {outcome : ApprovalOutcome} {entry : Entry}
    (resolves : Resolves req outcome entry) : isResolution entry.entryType = true ∧ isRequest entry.entryType = false := by
  cases outcome with
  | Granted approver decidedAt =>
    rw [resolves.1]
    decide
  | Rejected reason decidedAt =>
    rw [resolves.1]
    decide
  | TimedOut expiredAt =>
    rw [resolves.1]
    decide

/-- After the request its one resolution is written: the entry of what the channel
    answered to it. Nothing else is requested. -/
def Settled (request : Entry) (after : List Event) : Prop :=
  ∃ req outcome resolution,Requests req request ∧ .Approval req (.ok outcome) ∈ after ∧ Resolves req outcome resolution ∧
    taken isResolution after = [resolution] ∧ taken isRequest after = []

/-- Every request that a call writes is resolved by the end of the call. -/
def Closed (events : List Event) : Prop :=
  ∀ before request record after,events = before ++ .Append request (.ok (.ok record)) :: after →
    isRequest request.entryType = true → Settled request after

end

/-- The channel answers, and the ledger takes the entry of an answer. -/
def Answered : Event → Prop
  | .Approval _ outcome => ∃ answer,outcome = .ok answer
  | .Append entry result => isResolution entry.entryType = true → ∃ record,result = .ok (.ok record)
  | _ => True

/-! ### The events of a call -/

/-- Nobody is asked, and no request or resolution is appended. -/
def Idle : Event → Prop
  | .Approval _ _ => False
  | .Append entry _ => isRequest entry.entryType = false ∧ isResolution entry.entryType = false
  | _ => True

theorem Idle.answered {e : Event} (idle : Idle e) : Answered e := by
  cases e with
  | Append entry result =>
    intro resolution
    rw [idle.2] at resolution
    cases resolution
  | Approval request outcome => exact idle.elim
  | _ => trivial

theorem taken_idle {kind : EntryType → Bool} (within : ∀ entryType,kind entryType = true →
    isRequest entryType = true ∨ isResolution entryType = true) {events : List Event} (idle : ∀ e ∈ events,Idle e) :
    taken kind events = [] := by
  refine List.filterMap_eq_nil_iff.mpr fun e member => ?_
  have none := idle e member
  cases e with
  | Append entry result =>
    rcases result with panic | error | record
    · rfl
    · rfl
    · refine if_neg fun listed => ?_
      rcases within _ listed with request | resolution
      · rw [none.1] at request
        cases request
      · rw [none.2] at resolution
        cases resolution
  | _ => rfl

theorem requests_idle {events : List Event} (idle : ∀ e ∈ events,Idle e) : taken isRequest events = [] :=
  taken_idle (fun _ request => .inl request) idle

theorem resolutions_idle {events : List Event} (idle : ∀ e ∈ events,Idle e) : taken isResolution events = [] :=
  taken_idle (fun _ resolution => .inr resolution) idle

theorem closed_unasked [Chrono] {events : List Event} (none : taken isRequest events = []) : Closed events := by
  rintro before request record after rfl asks
  have listed : takenEntry isRequest (.Append request (.ok (.ok record))) = some request := if_pos asks
  rw [taken_append,show taken isRequest (.Append request (.ok (.ok record)) :: after) = request :: taken isRequest after from
    List.filterMap_cons_some listed] at none
  simp at none

section
variable [Chrono]

/-- What asking the operator comes to: the ledger refuses the request, the channel fails,
    or it answers and the entry of its answer is appended. -/
inductive Question : List Event → Prop where
  | Refused {request : Entry} {result : Checked (Except Ledger.Error EntryRecord)}
      (asks : isRequest request.entryType = true) (refused : ∀ record,result ≠ .ok (.ok record)) :
      Question [.Append request result]
  | Failed {request : Entry} {req : ApprovalRequest} (record : EntryRecord) (error : String) (asks : Requests req request) :
      Question [.Append request (.ok (.ok record)),.Approval req (.error error)]
  | Decided {request resolution : Entry} {req : ApprovalRequest} {outcome : ApprovalOutcome} (record : EntryRecord)
      (now : Int) (result : Checked (Except Ledger.Error EntryRecord)) (asks : Requests req request)
      (resolves : Resolves req outcome resolution) :
      Question [.Append request (.ok (.ok record)),.Approval req (.ok outcome),.UtcNow now,.Append resolution result]

/-- At most one question, between events that are idle. -/
def Asks (_ : Session) (events : List Event) (_ : Session) : Prop :=
  (∀ e ∈ events,Idle e) ∨ ∃ before question after,events = before ++ (question ++ after) ∧ (∀ e ∈ before,Idle e) ∧
    Question question ∧ ∀ e ∈ after,Idle e

/-! ### The property -/

/-- Nothing is requested. -/
def Unrequesting : Event → Prop
  | .Append entry _ => isRequest entry.entryType = false
  | _ => True

theorem Idle.unrequesting {e : Event} (idle : Idle e) : Unrequesting e := by
  cases e with
  | Append entry result => exact idle.1
  | _ => trivial

/-- The one request of a call decides. -/
theorem closed_at {before : List Event} {request : Entry} (record : EntryRecord) (rest : List Event) (earlier : ∀ e ∈ before,Idle e)
    (asks : isRequest request.entryType = true) (later : ∀ e ∈ rest,Unrequesting e) :
    Closed (before ++ .Append request (.ok (.ok record)) :: rest) ↔ Settled request rest := by
  constructor
  · intro closed
    exact closed before request record rest rfl asks
  · intro settled before' request' record' rest' split asks'
    have unlisted : ∀ {events : List Event},(∀ e ∈ events,Unrequesting e) → .Append request' (.ok (.ok record')) ∉ events := by
      intro events none member
      have none : isRequest request'.entryType = false := none _ member
      rw [none] at asks'
      cases asks'
    obtain ⟨-,same,rfl⟩ := (List.append_cons_inj_of_notMem (unlisted fun e member => (earlier e member).unrequesting)
      (unlisted later)).mp split
    cases same
    exact settled

theorem unsettled {request : Entry} {rest : List Event} (none : taken isResolution rest = []) : ¬ Settled request rest := by
  rintro ⟨req,outcome,resolution,-,-,-,one,-⟩
  rw [none] at one
  cases one

theorem answered_around {before question after : List Event} (earlier : ∀ e ∈ before,Idle e) (later : ∀ e ∈ after,Idle e) :
    (∀ e ∈ before ++ (question ++ after),Answered e) ↔ ∀ e ∈ question,Answered e := by
  constructor
  · intro answered e member
    exact answered e (List.mem_append_right _ (List.mem_append_left _ member))
  · intro answered e member
    rcases List.mem_append.mp member with early | member
    · exact (earlier e early).answered
    · rcases List.mem_append.mp member with asked | late
      · exact answered e asked
      · exact (later e late).answered

/-- An answer settles the request if the ledger takes its entry. -/
theorem settled_iff {request resolution : Entry} {req : ApprovalRequest} {outcome : ApprovalOutcome} {now : Int}
    {result : Checked (Except Ledger.Error EntryRecord)} {after : List Event} (asks : Requests req request)
    (resolves : Resolves req outcome resolution) (later : ∀ e ∈ after,Idle e) :
    Settled request (.Approval req (.ok outcome) :: .UtcNow now :: .Append resolution result :: after) ↔
      ∃ record,result = .ok (.ok record) := by
  obtain ⟨listed,unasked⟩ := resolves.resolution
  constructor
  · intro settled
    -- What the ledger does not take is no entry of the call.
    have unwritten : ∀ {lost : Checked (Except Ledger.Error EntryRecord)},takenEntry isResolution (.Append resolution lost) = none →
        taken isResolution (.Approval req (.ok outcome) :: .UtcNow now :: .Append resolution lost :: after) = [] := by
      intro lost none
      exact (List.filterMap_cons_none none).trans (resolutions_idle later)
    rcases result with panic | error | record
    · exact absurd settled (unsettled (unwritten rfl))
    · exact absurd settled (unsettled (unwritten rfl))
    · exact ⟨record,rfl⟩
  · rintro ⟨record,rfl⟩
    have written : takenEntry isResolution (.Append resolution (.ok (.ok record))) = some resolution := if_pos listed
    have other : takenEntry isRequest (.Append resolution (.ok (.ok record))) = none :=
      if_neg (by rw [unasked]; decide)
    refine ⟨req,outcome,resolution,asks,List.mem_cons_self,resolves,?_,?_⟩
    · refine (List.filterMap_cons_some written).trans ?_
      exact congrArg (resolution :: ·) (resolutions_idle later)
    · exact (List.filterMap_cons_none other).trans (requests_idle later)

/-- What is written is resolved exactly if the channel answers and the ledger takes the
    answer. -/
theorem Asks.closed_iff {s t : Session} {events : List Event} (asked : Asks s events t) :
    Closed events ↔ ∀ e ∈ events,Answered e := by
  rcases asked with idle | ⟨before,question,after,rfl,earlier,asked,later⟩
  · exact ⟨fun _ e member => (idle e member).answered,fun _ => closed_unasked (requests_idle idle)⟩
  rw [answered_around earlier later]
  cases asked with
  | @Refused request result asks refused =>
    have unresolved : isResolution request.entryType = false := by
      rw [of_decide_eq_true asks]
      decide
    have answered : Answered (.Append request result) := by
      intro resolution
      rw [unresolved] at resolution
      cases resolution
    refine ⟨fun _ e member => List.mem_singleton.mp member ▸ answered,fun _ => closed_unasked ?_⟩
    have lost : takenEntry isRequest (.Append request result) = none := by
      rcases result with panic | error | record
      · rfl
      · rfl
      · exact absurd rfl (refused record)
    rw [taken_append,taken_append,requests_idle earlier,requests_idle later,List.nil_append,List.append_nil]
    exact List.filterMap_cons_none lost
  | @Failed request req record error asks =>
    have alone : ¬ Settled request (.Approval req (.error error) :: after) := 
      unsettled ((List.filterMap_cons_none rfl).trans (resolutions_idle later))
    have closed := closed_at record (.Approval req (.error error) :: after) earlier
      (decide_eq_true asks.1) ?_
    · refine ⟨fun settled => absurd (closed.mp settled) alone,fun answered => ?_⟩
      obtain ⟨answer,impossible⟩ := answered (.Approval req (.error error)) (by simp)
      cases impossible
    · intro e member
      rcases List.mem_cons.mp member with rfl | member
      · trivial
      · exact (later e member).unrequesting
  | @Decided request resolution req outcome record now result asks resolves =>
    have closed := closed_at record
      (.Approval req (.ok outcome) :: .UtcNow now :: .Append resolution result :: after) earlier
      (decide_eq_true asks.1) ?_
    · refine (closed.trans (settled_iff asks resolves later)).trans ?_
      constructor
      · rintro ⟨taken,rfl⟩ e member
        simp only [List.mem_cons,List.not_mem_nil,or_false] at member
        rcases member with rfl | rfl | rfl | rfl
        · exact fun _ => ⟨record,rfl⟩
        · exact ⟨outcome,rfl⟩
        · trivial
        · exact fun _ => ⟨taken,rfl⟩
      · intro answered
        exact answered (.Append resolution result) (by simp) resolves.resolution.1
    · intro e member
      simp only [List.mem_cons] at member
      rcases member with rfl | rfl | rfl | member
      · trivial
      · trivial
      · exact resolves.resolution.2
      · exact (later e member).unrequesting

end

/-! ### The parts of a call -/

theorem idle_of {e : Event} (unapproving : Unapproving e) (unasked : Unasked e) : Idle e := by
  cases e with
  | Append entry result =>
    rcases unapproving with access | violation
    · exact ⟨by rw [access]; decide,by rw [access]; decide⟩
    · exact ⟨by rw [violation]; decide,by rw [violation]; decide⟩
  | Approval request outcome => exact unasked
  | _ => trivial

theorem apart_idle {a b : Session} {events : List Event} (apart : Apart Works a events b) : ∀ e ∈ events,Idle e :=
  fun e member => idle_of (apart.2 e member) (apart.1.each e member)

section
variable [Chrono]

theorem asks_before {a b c : Session} {left right : List Event} (asks : Asks a left b) (idle : ∀ e ∈ right,Idle e) :
    Asks a (left ++ right) c := by
  rcases asks with none | ⟨before,question,after,rfl,earlier,asked,later⟩
  · exact .inl (List.forall_mem_append.mpr ⟨none,idle⟩)
  · exact .inr ⟨before,question,after ++ right,by simp,earlier,asked,List.forall_mem_append.mpr ⟨later,idle⟩⟩

theorem asks_after {a b c : Session} {left right : List Event} (idle : ∀ e ∈ left,Idle e) (asks : Asks b right c) :
    Asks a (left ++ right) c := by
  rcases asks with none | ⟨before,question,after,rfl,earlier,asked,later⟩
  · exact .inl (List.forall_mem_append.mpr ⟨idle,none⟩)
  · exact .inr ⟨left ++ before,question,after,by simp,List.forall_mem_append.mpr ⟨idle,earlier⟩,asked,later⟩

theorem asks_framed : Framed Asks where
  idle apart := .inl (apart_idle apart)
  after apart asks := asks_after (apart_idle apart.works) asks
  before asks apart := asks_before asks (apart_idle apart)

end

section
variable [Chrono] {α β : Type} {p : Run α} {f : α → Run β}

theorem asks_idle (idle : Respects (Each Idle) p) : Respects Asks p := respects_mono .inl idle

theorem asks_then (idle : Respects (Each Idle) p) (later : ∀ a,Respects Asks (f a)) : Respects Asks (p >>= f) :=
  respects_then .inl asks_after idle later

theorem idle_unwritten (unwritten : Respects (Each Unwritten) p) (stores : Respects Stores p) : Respects (Each Idle) p := by
  intro s e member
  have none := unwritten s e member
  have unanswered := (stores s).each e member
  cases e <;> first | exact unwritten.elim | exact none.elim | exact unanswered | trivial

variable [Serde] [Sha256]

theorem idle_emit {entryType : EntryType} (other : isRequest entryType = false ∧ isResolution entryType = false)
    (wrap : Ledger.Error → Error) (timestamp : Int) (payload : Payload) :
    Respects (Each Idle) (emit wrap entryType timestamp payload) := by
  intro s e member
  rcases runs_or_stops (emit wrap entryType timestamp payload) s with ⟨_,runs⟩ | ⟨_,stops⟩
  · obtain ⟨record,ledger,-,-,events⟩ := runs_emit.mp runs
    rw [events] at member
    cases List.mem_singleton.mp member
    exact other
  · obtain ⟨result,ledger,-,-,-,events⟩ := stops_emit.mp stops
    rw [events] at member
    cases List.mem_singleton.mp member
    exact other

variable [World]

theorem idle_emitApprovalDecision (first : List (String × Scalar)) (op : Operation) (rsid : Option String)
    (last : List (String × Scalar)) : Respects (Each Idle) (emitApprovalDecision first op rsid last) :=
  each_bind (idle_unwritten unwritten_utcNow (stores_of_logs logs_utcNow)) fun now => idle_emit (by decide) _ now _

theorem idle_storeGrant (op : Operation) (ttlSecs : Nat) (decision : GrantDecision) :
    Respects (Each Idle) (storeGrant op ttlSecs decision) :=
  idle_unwritten (unwritten_storeGrant _ _ _) (stores_storeGrant _ _ _)

theorem idle_deny (error : Error) : Respects (Each Idle) (deny error : Run α) :=
  idle_unwritten (unwritten_deny _) (stores_of_logs (logs_deny _))

theorem idle_pure (a : α) : Respects (Each Idle) (pure a : Run α) :=
  idle_unwritten (unwritten_pure _) (stores_of_logs (logs_pure _))

/-- The clock is read and an entry is appended before anything else happens. -/
theorem stamped_first (wrap : Ledger.Error → Error) (entryType : EntryType) (payload : Payload) (g : Unit → Run β)
    (later : Respects (Each Idle) (g ())) (s : Session) : ∃ result after,
      (((utcNow >>= fun now => emit wrap entryType now payload) >>= g) s).events = .UtcNow (World.utcNow s.tick) ::
        .Append (entryOf s.next entryType (World.utcNow s.tick) payload) result :: after ∧ ∀ e ∈ after,Idle e := by
  rcases stamped_cases wrap entryType payload s with ⟨t,record,runs⟩ | ⟨stop,t,result,stops,-⟩
  · rw [bind_ok runs.result,runs.events]
    exact ⟨_,_,rfl,later _⟩
  · rw [bind_error stops.result,stops.events]
    exact ⟨result,[],rfl,by simp⟩

/-- An answer is recorded first. -/
theorem takeOutcome_first (op : Operation) (rsid : Option String) (ttlSecs : Nat) (req : ApprovalRequest)
    (outcome : ApprovalOutcome) (s : Session) : ∃ now resolution result after,
      (takeOutcome op rsid ttlSecs req outcome s).events = .UtcNow now :: .Append resolution result :: after ∧
      Resolves req outcome resolution ∧ ∀ e ∈ after,Idle e := by
  cases outcome with
  | Granted approver decidedAt =>
    obtain ⟨result,after,events,idle⟩ := stamped_first .Ledger .ApprovalGranted
      (payloadOf (grantedFields approver (Chrono.rfc3339 decidedAt) req.reasoningStepId))
      (fun _ => do
        let grant ← storeGrant op ttlSecs .Allow
        emitApprovalDecisionGranted op rsid grant approver ttlSecs
        return Decision.Allow)
      (each_bind (idle_storeGrant _ _ _) fun grant => each_bind (idle_emitApprovalDecision _ _ _ _) fun _ => idle_pure _) s
    exact ⟨_,_,result,after,events,⟨rfl,rfl⟩,idle⟩
  | Rejected reason decidedAt =>
    obtain ⟨result,after,events,idle⟩ := stamped_first .Ledger .ApprovalRejected
      (payloadOf (rejectedFields reason (Chrono.rfc3339 decidedAt) req.reasoningStepId))
      (fun _ => do
        let _ ← storeGrant op ttlSecs (.Deny reason)
        (deny (.Denied ("approval rejected: " ++ reason)) : Run Decision))
      (each_bind (idle_storeGrant _ _ _) fun _ => idle_deny _) s
    exact ⟨_,_,result,after,events,⟨rfl,rfl⟩,idle⟩
  | TimedOut expiredAt =>
    obtain ⟨result,after,events,idle⟩ := stamped_first .Ledger .ApprovalTimedOut
      (payloadOf (timedOutFields (Chrono.rfc3339 expiredAt) req.reasoningStepId))
      (fun _ => (deny (.Denied "approval timed out") : Run Decision)) (idle_deny _) s
    exact ⟨_,_,result,after,events,⟨rfl,rfl⟩,idle⟩

/-- The request is appended, and goes on to the operator if the ledger takes it. -/
theorem emitApprovalRequest_cases (req : ApprovalRequest) (s : Session) : ∃ first second request result,
    (emitApprovalRequest req s).events = [.UtcNow first,.UtcNow second,.Append request result] ∧ Requests req request ∧
      ((∃ record,result = .ok (.ok record) ∧ (emitApprovalRequest req s).result = .ok ()) ∨
        (∀ record,result ≠ .ok (.ok record)) ∧ ∃ stop,(emitApprovalRequest req s).result = .error stop) := by
  have whole : emitApprovalRequest req s = (utcNow >>= fun asked => utcNow >>= fun now => emit .Ledger .ApprovalRequest now
    (payloadOf (requestFields req (Chrono.rfc3339 (asked+req.timeout*second))))) s := rfl
  rw [whole,utcNow,ask_bind,ask_bind]
  generalize World.utcNow s.tick = first
  generalize World.utcNow s.next.tick = later
  dsimp only
  rcases runs_or_stops (emit .Ledger .ApprovalRequest later (payloadOf (requestFields req
    (Chrono.rfc3339 (first+req.timeout*second))))) s.next.next with ⟨_,runs⟩ | ⟨stop,stops⟩
  · obtain ⟨record,ledger,-,-,events⟩ := runs_emit.mp runs
    rw [events,runs.result]
    exact ⟨first,later,_,_,rfl,⟨rfl,_,rfl⟩,.inl ⟨record,rfl,rfl⟩⟩
  · obtain ⟨result,ledger,-,refused,-,events⟩ := stops_emit.mp stops
    rw [events,stops.result]
    refine ⟨first,later,_,_,rfl,⟨rfl,_,rfl⟩,.inr ⟨fun record taken => ?_,stop,rfl⟩⟩
    rw [taken] at refused
    cases refused

theorem asks_askOperator (op : Operation) (rsid : Option String) (summary : String) (ttlSecs : Nat)
    (channel : ApprovalChannel) : Respects Asks (askOperator op rsid summary ttlSecs channel) := by
  intro s
  rw [askOperator,reads_bind]
  generalize requestFor s op rsid summary = req
  obtain ⟨first,second,request,result,events,asks,⟨record,rfl,done⟩ | ⟨refused,stop,failed⟩⟩ := emitApprovalRequest_cases req s
  · rw [bind_ok done,events,ask_bind]
    generalize (emitApprovalRequest req s).state = m
    cases answered : channel.requestApproval m.tick req with
    | error error =>
      rw [orFail_error_bind]
      exact .inr ⟨[.UtcNow first,.UtcNow second],_,[],rfl,by simp [Idle],.Failed record error asks,by simp⟩
    | ok outcome =>
      rw [orFail_ok_bind]
      obtain ⟨now,resolution,result,after,events,resolves,idle⟩ := takeOutcome_first op rsid ttlSecs req outcome m.next
      rw [events]
      exact .inr ⟨[.UtcNow first,.UtcNow second],_,after,rfl,by simp [Idle],
        .Decided record now result asks resolves,idle⟩
  · rw [bind_error failed,events]
    exact .inr ⟨[.UtcNow first,.UtcNow second],_,[],rfl,by simp [Idle],.Refused (decide_eq_true asks.1) refused,by simp⟩

theorem asks_approve (op : Operation) (rsid : Option String) (summary : String) : Respects Asks (approve op rsid summary) := by
  refine asks_then (idle_unwritten (unwritten_reads _) (stores_of_logs (logs_reads _))) fun tier => ?_
  refine asks_then (idle_unwritten (unwritten_reads _) (stores_of_logs (logs_reads _))) fun ttlSecs => ?_
  split_ifs
  · exact asks_idle (each_bind (idle_emitApprovalDecision _ _ _ _) fun _ => idle_pure _)
  refine asks_then (idle_unwritten unwritten_systemNow stores_systemNow) fun now => ?_
  refine asks_then (idle_unwritten (unwritten_reads _) (stores_of_logs (logs_reads _))) fun grant => ?_
  cases grant with
  | some grant =>
    refine asks_idle (each_bind (idle_emitApprovalDecision _ _ _ _) fun _ => ?_)
    cases grant.decision with
    | Allow => exact idle_pure _
    | Deny reason => exact idle_deny _
  | none =>
    refine asks_then (idle_unwritten (unwritten_reads _) (stores_of_logs (logs_reads _))) fun channel => ?_
    cases channel with
    | none => exact asks_idle (idle_pure _)
    | some channel => exact asks_askOperator op rsid summary ttlSecs channel

/-- A call asks the operator once at most. -/
theorem asks_mediate [Identity] (call : Call) : Respects Asks (mediate call) := by
  refine framed_mediate asks_framed fun {_ op} _ decision => ?_
  cases decision with
  | Allow => exact asks_idle (idle_pure _)
  | Deny reason => exact asks_idle (idle_pure _)
  | RequireApproval summary => exact asks_approve op _ summary

/-- In every run each call resolves the requests it writes exactly if the channel answers
    it whenever it is asked and the ledger takes the entry of the answer; so the whole run
    does if that holds throughout. -/
theorem requests_resolved_iff [Identity] (s : Session) (calls : List Call) :
    (∀ call,Closed (mediate call s).events ↔ ∀ e ∈ (mediate call s).events,Answered e) ∧
      ((∀ played ∈ history s calls,Closed played.2) ↔ ∀ played ∈ history s calls,∀ e ∈ played.2,Answered e) := by
  have each : ∀ (start : Session) (call : Call),Closed (mediate call start).events ↔ ∀ e ∈ (mediate call start).events,Answered e :=
    fun start call => (asks_mediate call start).closed_iff
  refine ⟨each s,forall_congr' fun ⟨call,events⟩ => forall_congr' fun member => ?_⟩
  obtain ⟨before,after,-,rfl⟩ := history_mem member
  exact each _ call

end

/-! ### A channel that fails -/

section
open Reference Faultless

/-- The answer of a client that is neither `granted` nor `rejected`. -/
def malformed : String := "malformed approval response: decision must be \"granted\" or \"rejected\", got \"maybe\""

def failing : ApprovalChannel := ⟨fun _ _ => .error malformed⟩

/-- The channel is asked after its request was written. -/
theorem askOperator_fails [World] {s : Session} {n : Nat} (op : Operation) (rsid : Option String) (summary : String)
    (ttlSecs : Nat) (ready : Ready s (n+1)) :
    .Approval (requestFor s op rsid summary) (.error malformed) ∈ (askOperator op rsid summary ttlSecs failing s).events := by
  obtain ⟨record,ledger,runs,-⟩ := emitApprovalRequest_ready ready (requestFor s op rsid summary)
  rw [askOperator,reads_bind,bind_ok runs.result,runs.state,ask_bind]
  simp [failing,orFail_error_bind]

/-- The program needs an approval, and the channel is asked in vain. -/
theorem runLs_fails [World] {s : Session} {n : Nat} (steady : Steady s) (policy : s.policy = asking)
    (ungranted : s.grantTable = ∅) (attached : s.approvalChannel = some failing) (ready : Ready s (n+1)) :
    ∃ request,.Approval request (.error malformed) ∈ (mediate runLs s).events := by
  obtain ⟨checked,m,looks,-,tier⟩ := runLs_looks steady policy
  have waiting : Ready (later s m).next (n+1) := ⟨ready.healthy,ready.own,ready.few⟩
  have consults := approve_looks none "any_exec requires approval" tier
  rw [show (later s m).grantTable = ∅ from ungranted,
    show lookup ∅ ls.toolName ls.canonicalArgs (World.systemNow (later s m).tick) = none from rfl] at consults
  have asks : ∀ ttlSecs,consult ls none "any_exec requires approval" ttlSecs none (later s m).next =
      askOperator ls none "any_exec requires approval" ttlSecs failing (later s m).next := by
    intro ttlSecs
    rw [consult,reads_bind,show (later s m).next.approvalChannel = some failing from attached]
    rfl
  obtain ⟨rest,events⟩ := bind_events (approve ls none "any_exec requires approval")
    (settle (execRun "/bin/ls" []) (execUri "/bin/ls") none) (later s m)
  refine ⟨requestFor (later s m).next ls none "any_exec requires approval",?_⟩
  rw [runLs,mediate,bind_pure_events.1,looks.events,events,consults.events,asks]
  have inside := askOperator_fails ls none "any_exec requires approval" (ttlSecsFor (later s m).policy ls.toolClass) waiting
  exact List.mem_append_right _ (List.mem_append_left _ (List.mem_append_right _ inside))

/-- The operator's client answers with neither word. The request stays open. -/
theorem malformed_decision_dangles :
    let _ := calmWorld asking
    ∃ booted,boot config = .ok booted ∧ ¬ Closed (mediate runLs (attach booted (some failing) none)).events := by
  intro world
  obtain ⟨booted,boots,fresh,ready⟩ := calm_boots asking rfl rfl
  have steady := fresh.steady (fun _ _ => rfl) (some failing) none
  obtain ⟨request,asked⟩ := runLs_fails steady fresh.policy fresh.grants rfl ((ready.attach _ none).fewer (by decide : 1 ≤ 100))
  refine ⟨booted,boots,fun closed => ?_⟩
  obtain ⟨answer,impossible⟩ := (asks_mediate runLs _).closed_iff.mp closed _ asked
  cases impossible

end

end AegisNode.Resolutions
