import AegisNode.Interleaving
import AegisNode.LlamaChat
import AegisNode.Mediator

/-!
The mTLS approval channel: the loop that accepts one connection after another until an
approval authority decides the request or its deadline has passed.
-/
namespace AegisNode.MtlsChannel
open Text Engine Interleaving
open LlamaChat (trim)

/-! ### The client of a connection -/

inductive GeneralName where
  | URI (uri : String)
  | Other
  deriving DecidableEq,Repr

inductive Extension where
  | SubjectAlternativeName (generalNames : List GeneralName)
  | Other
  deriving DecidableEq,Repr

structure ClientDecision where
  decision : String
  reason : Option String
  deriving DecidableEq,Repr

/-- The third parties: the verifier of client certificates with the roots of the channel,
    and the parsers of certificates and of decisions. -/
class Tls where
  verifyClientCert : List (List UInt8) → Bool
  parseX509Certificate : List UInt8 → Option (List Extension)
  fromStr : String → Option ClientDecision

/-- A URI that may be an identity. -/
def spiffeName : GeneralName → Option String
  | .URI uri => if "spiffe://".toList.isPrefixOf uri.toList then some uri else none
  | .Other => none

def spiffeExtension : Extension → Option String
  | .SubjectAlternativeName names => names.findSome? spiffeName
  | .Other => none

section
variable [Tls]

/-- The first SPIFFE URI among the alternative names. -/
def extractSpiffeUri (der : List UInt8) : Option String :=
  (Tls.parseX509Certificate der).bind fun extensions => extensions.findSome? spiffeExtension

/-- A connection, and the certificates that its client presents. -/
structure Connection where
  number : Nat
  certificates : List (List UInt8)
  deriving DecidableEq,Repr

def approverSpiffeId (c : Connection) : Option String := c.certificates.head?.bind extractSpiffeUri

/-! ### The channel -/

/-- Where the loop of the outstanding request is. -/
inductive Phase where
  | Idle
  | Listens (request : Nat)
  | Greets (request : Nat) (c : Connection)                    -- the handshake
  | Closes (request : Nat)                                     -- shuts a connection down
  | Tells (request : Nat) (c : Connection) (approver : String) -- writes the request
  | Hears (request : Nat) (c : Connection) (approver : String) -- reads a line
  deriving DecidableEq,Repr

/-- Requests are numbered in the order in which the session puts them. -/
structure Channel where
  arrivals : Nat
  backlog : List Connection
  asked : List ApprovalRequest
  phase : Phase
  addressed : List (Nat × Connection)           -- whom the text of a request was written to
  told : List (Nat × Connection)                -- who got all of it
  decided : List (Nat × Connection × String)    -- whose line is the decision
  answered : List (Nat × Except String ApprovalOutcome)

def initial : Channel := ⟨0,[],[],.Idle,[],[],[],[]⟩

/-- What the clients, the network and the session do, in the order in which it happens. -/
inductive Event where
  | Arrive (certificates : List (List UInt8))
  | Ask (req : ApprovalRequest)
  | Accept
  | Fail (error : String)                       -- no connection can be accepted
  | Handshake (completes : Bool)
  | Shutdown
  | Write (succeeds : Bool)
  | Read (line : Option String) (utcNow : Int)  -- a line, unless reading fails
  | Expire (utcNow : Int)

def answer (s : Channel) (request : Nat) (outcome : Except String ApprovalOutcome) : Channel :=
  { s with phase := .Idle,answered := s.answered ++ [(request,outcome)] }

/-- What a line comes to, unless it is ignored. -/
def outcomeOf (approver line : String) (utcNow : Int) : Option (Except String ApprovalOutcome) :=
  if trim line.toList = [] then none
  else (Tls.fromStr (String.ofList (trim line.toList))).map fun decision =>
    if decision.decision = "granted" then .ok (.Granted approver utcNow)
    else if decision.decision = "rejected" then .ok (.Rejected (decision.reason.getD "rejected") utcNow)
    else .error ("malformed approval response: decision must be \"granted\" or \"rejected\", got " ++ rustDebug decision.decision)

/-- After the handshake. -/
def greeted (allowlist : List String) (s : Channel) (request : Nat) (c : Connection) : Channel :=
  match approverSpiffeId c with
  | none => { s with phase := .Closes request }
  | some approver =>
    if approver ∈ allowlist then { s with phase := .Tells request c approver,addressed := s.addressed ++ [(request,c)] }
    else { s with phase := .Closes request }

/-- After a line. -/
def heard (s : Channel) (request : Nat) (c : Connection) (approver line : String) (utcNow : Int) : Channel :=
  match outcomeOf approver line utcNow with
  | none => { s with phase := .Listens request }
  | some outcome => answer { s with decided := s.decided ++ [(request,c,line)] } request outcome

def outstanding : Phase → Option Nat
  | .Idle => none
  | .Listens request | .Greets request _ | .Closes request | .Tells request _ _ | .Hears request _ _ => some request

/-- An event that cannot happen changes nothing. -/
def step (allowlist : List String) (s : Channel) : Event → Channel
  | .Arrive certificates => { s with backlog := s.backlog ++ [⟨s.arrivals,certificates⟩],arrivals := s.arrivals+1 }
  | .Ask req =>
    match s.phase with
    | .Idle => { s with asked := s.asked ++ [req],phase := .Listens s.asked.length }
    | _ => s
  | .Accept =>
    match s.phase,s.backlog with
    | .Listens request,c :: backlog => { s with backlog := backlog,phase := .Greets request c }
    | _,_ => s
  | .Fail error =>
    match s.phase with
    | .Listens request => answer s request (.error ("io: " ++ error))
    | _ => s
  | .Handshake completes =>
    match s.phase with
    | .Greets request c =>
      if completes && Tls.verifyClientCert c.certificates then greeted allowlist s request c
      else { s with phase := .Listens request }
    | _ => s
  | .Shutdown =>
    match s.phase with
    | .Closes request => { s with phase := .Listens request }
    | _ => s
  | .Write succeeds =>
    match s.phase with
    | .Tells request c approver =>
      if succeeds then { s with phase := .Hears request c approver,told := s.told ++ [(request,c)] }
      else { s with phase := .Listens request }
    | _ => s
  | .Read line utcNow =>
    match s.phase with
    | .Hears request c approver =>
      match line with
      | none => { s with phase := .Listens request }
      | some line => heard s request c approver line utcNow
    | _ => s
  | .Expire utcNow =>
    match outstanding s.phase with
    | none => s
    | some request => answer s request (.ok (.TimedOut utcNow))

/-! ### Whose decision it is -/

/-- The client is an approval authority. -/
structure Authority (allowlist : List String) (c : Connection) (approver : String) : Prop where
  verified : Tls.verifyClientCert c.certificates = true
  named : approverSpiffeId c = some approver
  listed : approver ∈ allowlist

/-- The request was decided by the line of an authority that got all of the request. -/
def Decided (allowlist : List String) (s : Channel) (request : Nat) (outcome : Except String ApprovalOutcome) : Prop :=
  ∃ c line approver utcNow,(request,c,line) ∈ s.decided ∧ (request,c) ∈ s.told ∧ Authority allowlist c approver ∧
    outcomeOf approver line utcNow = some outcome

/-- The loop is with an authority that knows the request. -/
def Placed (allowlist : List String) (s : Channel) : Phase → Prop
  | .Tells request c approver => Authority allowlist c approver ∧ (request,c) ∈ s.addressed
  | .Hears request c approver => Authority allowlist c approver ∧ (request,c) ∈ s.told
  | _ => True

def numbers (pairs : List (Nat × Connection)) : List Nat := pairs.map (·.2.number)

/-- The connections that nothing was written to yet. -/
def waiting (s : Channel) : List Nat :=
  (match s.phase with
    | .Greets _ c => [c.number]
    | _ => []) ++ s.backlog.map (·.number)

structure Guarded (allowlist : List String) (s : Channel) : Prop where
  placed : Placed allowlist s s.phase
  addressed : ∀ request c,(request,c) ∈ s.addressed → ∃ approver,Authority allowlist c approver
  told : ∀ pair ∈ s.told,pair ∈ s.addressed
  decided : ∀ request c line,(request,c,line) ∈ s.decided → (request,c) ∈ s.told
  answered : ∀ request outcome,(request,outcome) ∈ s.answered →
    Decided allowlist s request outcome ∨ (∃ expiredAt,outcome = .ok (.TimedOut expiredAt)) ∨ ∃ error,outcome = .error ("io: " ++ error)
  once : (numbers s.addressed ++ waiting s).Sublist (List.range s.arrivals)
  requests : s.answered.map (·.1) ++ (outstanding s.phase).toList = List.range s.asked.length

variable {allowlist : List String}

theorem guarded_initial : Guarded allowlist initial where
  placed := trivial
  addressed _ _ member := absurd member List.not_mem_nil
  told _ member := absurd member List.not_mem_nil
  decided _ _ _ member := absurd member List.not_mem_nil
  answered _ _ member := absurd member List.not_mem_nil
  once := List.Sublist.refl _
  requests := rfl

/-- The loop goes on with the same request. -/
theorem guarded_phase {s : Channel} (guarded : Guarded allowlist s) {phase : Phase} (placed : Placed allowlist s phase)
    (same : outstanding phase = outstanding s.phase) (closed : ∀ request c,phase ≠ .Greets request c) :
    Guarded allowlist { s with phase := phase } := by
  have fewer : (waiting { s with phase := phase }).Sublist (waiting s) := by
    have none_ : waiting { s with phase := phase } = s.backlog.map (·.number) := by
      cases phase with
      | Greets request c => exact absurd rfl (closed request c)
      | _ => rfl
    rw [none_]
    exact List.sublist_append_right _ _
  exact ⟨by cases phase <;> exact placed,guarded.addressed,guarded.told,guarded.decided,guarded.answered,
    (List.Sublist.append_left fewer _).trans guarded.once,by rw [← guarded.requests,← same]⟩

/-- The outstanding request is answered. -/
theorem guarded_answer {s : Channel} (guarded : Guarded allowlist s) {request : Nat} (open_ : outstanding s.phase = some request)
    {outcome : Except String ApprovalOutcome}
    (source : Decided allowlist s request outcome ∨ (∃ expiredAt,outcome = .ok (.TimedOut expiredAt)) ∨ ∃ error,outcome = .error ("io: " ++ error)) :
    Guarded allowlist (answer s request outcome) where
  placed := trivial
  addressed := guarded.addressed
  told := guarded.told
  decided := guarded.decided
  answered r o member := by
    rcases List.mem_append.mp member with before | here
    · exact guarded.answered r o before
    · cases List.mem_singleton.mp here
      exact source
  once := (List.Sublist.append_left (List.sublist_append_right _ _) _).trans guarded.once
  requests := by
    have requests := guarded.requests
    rw [open_] at requests
    change (s.answered ++ [(request,outcome)]).map (·.1) ++ [] = List.range s.asked.length
    rw [← requests,List.append_nil,List.map_append]
    rfl

theorem guarded_greeted {s : Channel} (guarded : Guarded allowlist s) {request : Nat} {c : Connection} (phase : s.phase = .Greets request c)
    (verified : Tls.verifyClientCert c.certificates = true) : Guarded allowlist (greeted allowlist s request c) := by
  have same : outstanding s.phase = some request := by rw [phase]; rfl
  rw [greeted]
  cases named : approverSpiffeId c with
  | none => exact guarded_phase guarded trivial same.symm (fun _ _ other => by cases other)
  | some approver =>
    dsimp only
    split_ifs with listed
    · have authority : Authority allowlist c approver := ⟨verified,named,listed⟩
      have moved : numbers (s.addressed ++ [(request,c)]) ++ s.backlog.map Connection.number = numbers s.addressed ++ waiting s := by
        rw [waiting,phase,numbers,List.map_append,List.append_assoc]
        rfl
      refine ⟨⟨authority,List.mem_append_right _ List.mem_cons_self⟩,fun r d member => ?_,fun pair member => List.mem_append_left _ (guarded.told pair member),
        guarded.decided,guarded.answered,?_,?_⟩
      · rcases List.mem_append.mp member with before | here
        · exact guarded.addressed r d before
        · cases List.mem_singleton.mp here
          exact ⟨approver,authority⟩
      · change (numbers (s.addressed ++ [(request,c)]) ++ ([] ++ s.backlog.map Connection.number)).Sublist _
        rw [List.nil_append,moved]
        exact guarded.once
      · rw [← guarded.requests,same]
        rfl
    · exact guarded_phase guarded trivial same.symm (fun _ _ other => by cases other)

theorem guarded_heard {s : Channel} (guarded : Guarded allowlist s) {request : Nat} {c : Connection} {approver : String}
    (phase : s.phase = .Hears request c approver) (line : String) (utcNow : Int) : Guarded allowlist (heard s request c approver line utcNow) := by
  have same : outstanding s.phase = some request := by rw [phase]; rfl
  have placed := guarded.placed
  rw [phase] at placed
  obtain ⟨authority,told⟩ := placed
  rw [heard]
  cases came : outcomeOf approver line utcNow with
  | none => exact guarded_phase guarded trivial same.symm (fun _ _ other => by cases other)
  | some outcome =>
    have logged : Guarded allowlist { s with decided := s.decided ++ [(request,c,line)] } := by
      refine ⟨by rw [phase]; exact ⟨authority,told⟩,guarded.addressed,guarded.told,fun r d l member => ?_,fun r o member => ?_,guarded.once,guarded.requests⟩
      · rcases List.mem_append.mp member with before | here
        · exact guarded.decided r d l before
        · cases List.mem_singleton.mp here
          exact told
      · refine (guarded.answered r o member).imp_left ?_
        rintro ⟨d,l,a,t,before,rest⟩
        exact ⟨d,l,a,t,List.mem_append_left _ before,rest⟩
    exact guarded_answer logged same (.inl ⟨c,line,approver,utcNow,List.mem_append_right _ List.mem_cons_self,told,authority,came⟩)

theorem guarded_step {s : Channel} (guarded : Guarded allowlist s) (event : Event) : Guarded allowlist (step allowlist s event) := by
  cases event with
  | Arrive certificates =>
    have appended : waiting (step allowlist s (.Arrive certificates)) = waiting s ++ [s.arrivals] := by simp [waiting,step]
    refine ⟨guarded.placed,guarded.addressed,guarded.told,guarded.decided,guarded.answered,?_,guarded.requests⟩
    rw [appended,← List.append_assoc]
    exact List.range_succ ▸ guarded.once.append (List.Sublist.refl _)
  | Ask req =>
    rw [step]
    cases phase : s.phase with
    | Idle =>
      have requests := guarded.requests
      rw [phase] at requests
      refine ⟨trivial,guarded.addressed,guarded.told,guarded.decided,guarded.answered,(List.Sublist.append_left ?_ _).trans guarded.once,?_⟩
      · exact List.sublist_append_right _ _
      · change s.answered.map (·.1) ++ [s.asked.length] = List.range (s.asked ++ [req]).length
        rw [List.length_append,List.length_singleton,List.range_succ,← requests]
        exact congrArg (· ++ _) (List.append_nil _).symm
    | _ => exact guarded
  | Accept =>
    rw [step]
    cases phase : s.phase with
    | Listens request =>
      cases waits : s.backlog with
      | nil => exact guarded
      | cons c backlog =>
        have same : waiting { s with backlog := backlog,phase := .Greets request c } = waiting s := by
          rw [waiting,waiting,phase,waits]
          rfl
        have requests := guarded.requests
        rw [phase] at requests
        refine ⟨trivial,guarded.addressed,guarded.told,guarded.decided,guarded.answered,?_,requests⟩
        rw [same]
        exact guarded.once
    | _ => exact guarded
  | Fail error =>
    rw [step]
    cases phase : s.phase with
    | Listens request => exact guarded_answer guarded (by rw [phase]; rfl) (.inr (.inr ⟨error,rfl⟩))
    | _ => exact guarded
  | Handshake completes =>
    rw [step]
    cases phase : s.phase with
    | Greets request c =>
      dsimp only
      split_ifs with done
      · exact guarded_greeted guarded phase (Bool.and_eq_true_iff.mp done).2
      · exact guarded_phase guarded trivial (by rw [phase]; rfl) (fun _ _ other => by cases other)
    | _ => exact guarded
  | Shutdown =>
    rw [step]
    cases phase : s.phase with
    | Closes request => exact guarded_phase guarded trivial (by rw [phase]; rfl) (fun _ _ other => by cases other)
    | _ => exact guarded
  | Write succeeds =>
    rw [step]
    cases phase : s.phase with
    | Tells request c approver =>
      have placed := guarded.placed
      rw [phase] at placed
      dsimp only
      split_ifs with done
      · have logged : Guarded allowlist { s with told := s.told ++ [(request,c)] } := by
          refine ⟨by rw [phase]; exact placed,guarded.addressed,fun pair member => ?_,
            fun r d line member => List.mem_append_left _ (guarded.decided r d line member),fun r o member => ?_,guarded.once,guarded.requests⟩
          · rcases List.mem_append.mp member with before | here
            · exact guarded.told pair before
            · cases List.mem_singleton.mp here
              exact placed.2
          · refine (guarded.answered r o member).imp_left ?_
            rintro ⟨d,line,a,t,decided,told,rest⟩
            exact ⟨d,line,a,t,decided,List.mem_append_left _ told,rest⟩
        exact guarded_phase logged ⟨placed.1,List.mem_append_right _ List.mem_cons_self⟩ (by dsimp only; rw [phase]; rfl)
          (fun _ _ other => by cases other)
      · exact guarded_phase guarded trivial (by rw [phase]; rfl) (fun _ _ other => by cases other)
    | _ => exact guarded
  | Read line utcNow =>
    rw [step]
    cases phase : s.phase with
    | Hears request c approver =>
      cases line with
      | none => exact guarded_phase guarded trivial (by rw [phase]; rfl) (fun _ _ other => by cases other)
      | some line => exact guarded_heard guarded phase line utcNow
    | _ => exact guarded
  | Expire utcNow =>
    rw [step]
    cases open_ : outstanding s.phase with
    | none => exact guarded
    | some request => exact guarded_answer guarded open_ (.inr (.inl ⟨utcNow,rfl⟩))

theorem guarded_after (allowlist : List String) (events : List Event) : Guarded allowlist (after (step allowlist) initial events) :=
  after_invariant (P := Guarded allowlist) (fun _ event guarded => guarded_step guarded event) guarded_initial events

/-- What the decision of a line says. -/
theorem outcomeOf_some {approver line : String} {utcNow : Int} {outcome : ApprovalOutcome} (came : outcomeOf approver line utcNow = some (.ok outcome)) :
    ∃ d,Tls.fromStr (String.ofList (trim line.toList)) = some d ∧
      (d.decision = "granted" ∧ outcome = .Granted approver utcNow ∨
        d.decision = "rejected" ∧ outcome = .Rejected (d.reason.getD "rejected") utcNow) := by
  rw [outcomeOf] at came
  split_ifs at came with empty
  obtain ⟨d,read,result⟩ := Option.map_eq_some_iff.mp came
  refine ⟨d,read,?_⟩
  split_ifs at result with granted rejected
  · cases result
    exact .inl ⟨granted,rfl⟩
  · cases result
    exact .inr ⟨rejected,rfl⟩

/-- Every grant and every rejection is the decision of an approval authority that was sent the
    request; nothing of a request is written to anybody else; a connection is sent one request
    at most, and every request but the outstanding one has one outcome. -/
theorem decisions (allowlist : List String) (events : List Event) :
    let s := after (step allowlist) initial events
    (∀ request outcome,(request,.ok outcome) ∈ s.answered → (∃ expiredAt,outcome = .TimedOut expiredAt) ∨
      ∃ c line approver utcNow d,(request,c,line) ∈ s.decided ∧ (request,c) ∈ s.told ∧ Authority allowlist c approver ∧
        Tls.fromStr (String.ofList (trim line.toList)) = some d ∧
        (d.decision = "granted" ∧ outcome = .Granted approver utcNow ∨
          d.decision = "rejected" ∧ outcome = .Rejected (d.reason.getD "rejected") utcNow)) ∧
      (∀ request c,(request,c) ∈ s.addressed → ∃ approver,Authority allowlist c approver) ∧
      (∀ pair ∈ s.told,pair ∈ s.addressed) ∧ (numbers s.addressed).Nodup ∧
      s.answered.map (·.1) ++ (outstanding s.phase).toList = List.range s.asked.length := by
  have guarded := guarded_after allowlist events
  refine ⟨fun request outcome member => ?_,guarded.addressed,guarded.told,?_,guarded.requests⟩
  · rcases guarded.answered request (.ok outcome) member with ⟨c,line,approver,utcNow,decided,told,authority,came⟩ | ⟨expiredAt,late⟩ | ⟨error,failed⟩
    · obtain ⟨d,read,said⟩ := outcomeOf_some came
      exact .inr ⟨c,line,approver,utcNow,d,decided,told,authority,read,said⟩
    · cases late
      exact .inl ⟨expiredAt,rfl⟩
    · cases failed
  · exact ((List.sublist_append_left _ _).trans guarded.once).nodup List.nodup_range

/-! ### The others -/

def authority (allowlist : List String) (c : Connection) : Bool :=
  Tls.verifyClientCert c.certificates && (approverSpiffeId c).any (allowlist.contains ·)

/-- The loop is with a client that is no authority. -/
def disturbed (allowlist : List String) : Phase → Bool
  | .Closes _ => true
  | .Greets _ c | .Tells _ c _ | .Hears _ c _ => !authority allowlist c
  | _ => false

/-- The events of clients that are no authorities. -/
def hidden (allowlist : List String) (s : Channel) : Event → Bool
  | .Arrive certificates => !authority allowlist ⟨s.arrivals,certificates⟩
  | .Ask _ | .Expire _ => false
  | .Accept => disturbed allowlist s.phase || s.backlog.head?.any (!authority allowlist ·)
  | _ => disturbed allowlist s.phase

/-- The run without them. -/
def undisturbed (allowlist : List String) (s : Channel) : List Event → List Event
  | [] => []
  | e :: rest =>
    if hidden allowlist s e then undisturbed allowlist (step allowlist s e) rest
    else e :: undisturbed allowlist (step allowlist s e) rest

def unnumbered (c : Connection) : Connection := { c with number := 0 }

def seenPhase (allowlist : List String) : Phase → Phase
  | .Idle => .Idle
  | .Listens request | .Closes request => .Listens request
  | .Greets request c => if authority allowlist c then .Greets request (unnumbered c) else .Listens request
  | .Tells request c approver => if authority allowlist c then .Tells request (unnumbered c) approver else .Listens request
  | .Hears request c approver => if authority allowlist c then .Hears request (unnumbered c) approver else .Listens request

/-- The authorities that wait. -/
def queue (allowlist : List String) (backlog : List Connection) : List Connection := (backlog.filter (authority allowlist)).map unnumbered

/-- What the authorities and the session see of the channel. -/
def seen (allowlist : List String) (s : Channel) : Channel where
  arrivals := 0
  backlog := queue allowlist s.backlog
  asked := s.asked
  phase := seenPhase allowlist s.phase
  addressed := []
  told := []
  decided := []
  answered := s.answered

theorem authority_iff {c : Connection} : authority allowlist c = true ↔ ∃ approver,Authority allowlist c approver := by
  rw [authority,Bool.and_eq_true,Option.any_eq_true]
  constructor
  · rintro ⟨verified,approver,named,listed⟩
    exact ⟨approver,verified,named,by simpa using listed⟩
  · rintro ⟨approver,verified,named,listed⟩
    exact ⟨verified,approver,named,by simpa using listed⟩

@[simp] theorem authority_unnumbered (c : Connection) : authority allowlist (unnumbered c) = authority allowlist c := rfl

omit [Tls] in
@[simp] theorem unnumbered_unnumbered (c : Connection) : unnumbered (unnumbered c) = unnumbered c := rfl

@[simp] theorem queue_nil : queue allowlist [] = [] := rfl

theorem queue_append (left right : List Connection) : queue allowlist (left ++ right) = queue allowlist left ++ queue allowlist right := by
  simp [queue]

theorem queue_listed {c : Connection} (listed : authority allowlist c = true) (rest : List Connection) :
    queue allowlist (c :: rest) = unnumbered c :: queue allowlist rest := by
  simp [queue,listed]

theorem queue_unlisted {c : Connection} (unlisted : authority allowlist c = false) (rest : List Connection) :
    queue allowlist (c :: rest) = queue allowlist rest := by
  simp [queue,unlisted]

@[simp] theorem queue_queue (backlog : List Connection) : queue allowlist (queue allowlist backlog) = queue allowlist backlog := by
  induction backlog with
  | nil => rfl
  | cons c rest ih =>
    cases listed : authority allowlist c with
    | true => rw [queue_listed listed,queue_listed (by rw [authority_unnumbered,listed]),unnumbered_unnumbered,ih]
    | false => rw [queue_unlisted listed,ih]

@[simp] theorem seenPhase_seenPhase (phase : Phase) : seenPhase allowlist (seenPhase allowlist phase) = seenPhase allowlist phase := by
  cases phase with
  | Idle | Listens | Closes => rfl
  | Greets _ c | Tells _ c _ | Hears _ c _ => cases listed : authority allowlist c <;> simp [seenPhase,listed]

@[simp] theorem seenPhase_idle : seenPhase allowlist .Idle = .Idle := rfl

@[simp] theorem outstanding_seenPhase (phase : Phase) : outstanding (seenPhase allowlist phase) = outstanding phase := by
  cases phase with
  | Idle | Listens | Closes => rfl
  | Greets _ c | Tells _ c _ | Hears _ c _ => cases listed : authority allowlist c <;> simp [seenPhase,listed,outstanding]

/-- A client that is no authority is told nothing. -/
theorem greeted_other {s : Channel} {request : Nat} {c : Connection} (verified : Tls.verifyClientCert c.certificates = true)
    (other : authority allowlist c = false) : greeted allowlist s request c = { s with phase := .Closes request } := by
  rw [greeted]
  cases named : approverSpiffeId c with
  | none => rfl
  | some approver =>
    refine if_neg fun listed => ?_
    rw [authority_iff.mpr ⟨approver,verified,named,listed⟩] at other
    cases other

theorem greeted_authority {s : Channel} {request : Nat} {c : Connection} {approver : String} (known : Authority allowlist c approver) :
    greeted allowlist s request c = { s with phase := .Tells request c approver,addressed := s.addressed ++ [(request,c)] } := by
  rw [greeted,known.named]
  exact if_pos known.listed

theorem seen_hidden {s : Channel} (placed : Placed allowlist s s.phase) {event : Event} (others : hidden allowlist s event = true) :
    seen allowlist (step allowlist s event) = seen allowlist s := by
  cases event with
  | Arrive certificates =>
    have unlisted : authority allowlist ⟨s.arrivals,certificates⟩ = false := by simpa [hidden] using others
    simp [step,seen,queue_append,queue_unlisted unlisted]
  | Ask req => cases others
  | Accept =>
    cases phase : s.phase with
    | Listens request =>
      cases waits : s.backlog with
      | nil => simp [hidden,phase,waits,disturbed] at others
      | cons c backlog =>
        have unlisted : authority allowlist c = false := by simpa [hidden,phase,waits,disturbed] using others
        simp [step,seen,phase,waits,seenPhase,unlisted,queue_unlisted unlisted]
    | _ => simp [step,phase]
  | Fail error =>
    cases phase : s.phase with
    | Listens request => simp [hidden,phase,disturbed] at others
    | _ => simp [step,phase]
  | Handshake completes =>
    cases phase : s.phase with
    | Greets request c =>
      have unlisted : authority allowlist c = false := by simpa [hidden,phase,disturbed] using others
      rw [step,phase]
      dsimp only
      split_ifs with done
      · rw [greeted_other (Bool.and_eq_true_iff.mp done).2 unlisted]
        simp [seen,seenPhase,phase,unlisted]
      · simp [seen,seenPhase,phase,unlisted]
    | _ => simp [step,phase]
  | Shutdown =>
    cases phase : s.phase with
    | Closes request => simp [step,seen,phase,seenPhase]
    | _ => simp [step,phase]
  | Write succeeds =>
    cases phase : s.phase with
    | Tells request c approver =>
      have unlisted : authority allowlist c = false := by simpa [hidden,phase,disturbed] using others
      cases succeeds <;> simp [step,seen,phase,seenPhase,unlisted]
    | _ => simp [step,phase]
  | Read line utcNow =>
    cases phase : s.phase with
    | Hears request c approver =>
      have unlisted : authority allowlist c = false := by simpa [hidden,phase,disturbed] using others
      rw [phase] at placed
      rw [authority_iff.mpr ⟨approver,placed.1⟩] at unlisted
      cases unlisted
    | _ => simp [step,phase]
  | Expire utcNow => cases others

theorem seen_visible {s : Channel} {event : Event} (visible : hidden allowlist s event = false) :
    seen allowlist (step allowlist s event) = seen allowlist (step allowlist (seen allowlist s) event) := by
  cases event with
  | Arrive certificates =>
    have listed : authority allowlist ⟨s.arrivals,certificates⟩ = true := by simpa [hidden] using visible
    have listed' : authority allowlist ⟨0,certificates⟩ = true := listed
    simp [step,seen,queue_append,queue_listed listed,queue_listed listed',unnumbered]
  | Ask req =>
    cases phase : s.phase with
    | Idle => simp [step,seen,phase,seenPhase]
    | Listens | Closes => simp [step,seen,phase,seenPhase]
    | Greets _ c | Tells _ c _ | Hears _ c _ => cases listed : authority allowlist c <;> simp [step,seen,phase,seenPhase,listed]
  | Accept =>
    cases phase : s.phase with
    | Listens request =>
      cases waits : s.backlog with
      | nil => simp [step,seen,phase,seenPhase,waits]
      | cons c backlog =>
        have listed : authority allowlist c = true := by simpa [hidden,phase,waits,disturbed] using visible
        simp [step,seen,phase,seenPhase,waits,queue_listed listed,listed]
    | Idle => simp [step,seen,phase,seenPhase]
    | Closes => simp [hidden,phase,disturbed] at visible
    | Greets _ c | Tells _ c _ | Hears _ c _ =>
      have listed : authority allowlist c = true := by
        simp only [hidden,phase,disturbed,Bool.or_eq_false_iff,Bool.not_eq_false'] at visible
        exact visible.1
      simp [step,seen,phase,seenPhase,listed]
  | Fail error =>
    cases phase : s.phase with
    | Closes => simp [hidden,phase,disturbed] at visible
    | Idle | Listens => simp [step,seen,phase,seenPhase,answer]
    | Greets _ c | Tells _ c _ | Hears _ c _ =>
      have listed : authority allowlist c = true := by simpa [hidden,phase,disturbed] using visible
      simp [step,seen,phase,seenPhase,listed]
  | Handshake completes =>
    cases phase : s.phase with
    | Closes => simp [hidden,phase,disturbed] at visible
    | Idle | Listens => simp [step,seen,phase,seenPhase]
    | Tells _ c _ | Hears _ c _ =>
      have listed : authority allowlist c = true := by simpa [hidden,phase,disturbed] using visible
      simp [step,seen,phase,seenPhase,listed]
    | Greets request c =>
      have listed : authority allowlist c = true := by simpa [hidden,phase,disturbed] using visible
      obtain ⟨approver,known⟩ := authority_iff.mp listed
      have known' : Authority allowlist (unnumbered c) approver := ⟨known.verified,known.named,known.listed⟩
      cases completes with
      | false => simp [step,seen,phase,seenPhase,listed]
      | true => simp [step,seen,phase,seenPhase,listed,known.verified,known'.verified,greeted_authority known,greeted_authority known']
  | Shutdown =>
    cases phase : s.phase with
    | Closes => simp [hidden,phase,disturbed] at visible
    | Idle | Listens => simp [step,seen,phase,seenPhase]
    | Greets _ c | Tells _ c _ | Hears _ c _ =>
      have listed : authority allowlist c = true := by simpa [hidden,phase,disturbed] using visible
      simp [step,seen,phase,seenPhase,listed]
  | Write succeeds =>
    cases phase : s.phase with
    | Closes => simp [hidden,phase,disturbed] at visible
    | Idle | Listens => simp [step,seen,phase,seenPhase]
    | Greets _ c | Hears _ c _ =>
      have listed : authority allowlist c = true := by simpa [hidden,phase,disturbed] using visible
      simp [step,seen,phase,seenPhase,listed]
    | Tells request c approver =>
      have listed : authority allowlist c = true := by simpa [hidden,phase,disturbed] using visible
      cases succeeds <;> simp [step,seen,phase,seenPhase,listed]
  | Read line utcNow =>
    cases phase : s.phase with
    | Closes => simp [hidden,phase,disturbed] at visible
    | Idle | Listens => simp [step,seen,phase,seenPhase]
    | Greets _ c | Tells _ c _ =>
      have listed : authority allowlist c = true := by simpa [hidden,phase,disturbed] using visible
      simp [step,seen,phase,seenPhase,listed]
    | Hears request c approver =>
      have listed : authority allowlist c = true := by simpa [hidden,phase,disturbed] using visible
      cases line with
      | none => simp [step,seen,phase,seenPhase,listed]
      | some line =>
        cases came : outcomeOf approver line utcNow <;> simp [step,seen,phase,seenPhase,listed,heard,came,answer]
  | Expire utcNow =>
    cases open_ : outstanding s.phase <;> simp [step,seen,answer,open_]

/-- There are authorities only. -/
structure Pure (allowlist : List String) (s : Channel) : Prop where
  phase : disturbed allowlist s.phase = false
  backlog : ∀ c ∈ s.backlog,authority allowlist c = true

theorem Pure.visible {s t : Channel} (pure : Pure allowlist t) {event : Event} (visible : hidden allowlist s event = false) :
    hidden allowlist t event = false := by
  cases event with
  | Arrive certificates => exact visible
  | Accept =>
    rw [hidden,pure.phase,Bool.false_or]
    cases waits : t.backlog with
    | nil => rfl
    | cons c backlog =>
      have listed := pure.backlog c (by rw [waits]; exact List.mem_cons_self)
      simp [listed]
  | Ask | Expire => rfl
  | _ => exact pure.phase

theorem Pure.step {t : Channel} (pure : Pure allowlist t) {event : Event} (visible : hidden allowlist t event = false) :
    Pure allowlist (step allowlist t event) := by
  cases event with
  | Arrive certificates =>
    refine ⟨pure.phase,fun c member => ?_⟩
    rcases List.mem_append.mp member with before | here
    · exact pure.backlog c before
    · rw [List.mem_singleton.mp here]
      simpa [hidden] using visible
  | Ask req =>
    rw [MtlsChannel.step]
    cases phase : t.phase with
    | Idle => exact ⟨rfl,pure.backlog⟩
    | _ => exact pure
  | Accept =>
    rw [MtlsChannel.step]
    cases phase : t.phase with
    | Listens request =>
      cases waits : t.backlog with
      | nil => exact pure
      | cons c backlog =>
        have listed : ∀ d ∈ c :: backlog,authority allowlist d = true := waits ▸ pure.backlog
        exact ⟨by simp [disturbed,listed c List.mem_cons_self],fun d member => listed d (List.mem_cons_of_mem _ member)⟩
    | _ => exact pure
  | Fail error =>
    rw [MtlsChannel.step]
    cases phase : t.phase with
    | Listens request => exact ⟨rfl,pure.backlog⟩
    | _ => exact pure
  | Handshake completes =>
    rw [MtlsChannel.step]
    cases phase : t.phase with
    | Greets request c =>
      have listed : authority allowlist c = true := by simpa [phase,disturbed] using pure.phase
      obtain ⟨approver,known⟩ := authority_iff.mp listed
      dsimp only
      split_ifs
      · rw [greeted_authority known]
        exact ⟨by simp [disturbed,listed],pure.backlog⟩
      · exact ⟨rfl,pure.backlog⟩
    | _ => exact pure
  | Shutdown =>
    rw [MtlsChannel.step]
    cases phase : t.phase with
    | Closes request => exact ⟨rfl,pure.backlog⟩
    | _ => exact pure
  | Write succeeds =>
    rw [MtlsChannel.step]
    cases phase : t.phase with
    | Tells request c approver =>
      have listed : authority allowlist c = true := by simpa [phase,disturbed] using pure.phase
      cases succeeds with
      | true => exact ⟨by simp [disturbed,listed],pure.backlog⟩
      | false => exact ⟨rfl,pure.backlog⟩
    | _ => exact pure
  | Read line utcNow =>
    rw [MtlsChannel.step]
    cases phase : t.phase with
    | Hears request c approver =>
      cases line with
      | none => exact ⟨rfl,pure.backlog⟩
      | some line =>
        dsimp only
        rw [heard]
        cases outcomeOf approver line utcNow with
        | none => exact ⟨rfl,pure.backlog⟩
        | some outcome => exact ⟨rfl,pure.backlog⟩
    | _ => exact pure
  | Expire utcNow =>
    rw [MtlsChannel.step]
    cases outstanding t.phase with
    | none => exact pure
    | some request => exact ⟨rfl,pure.backlog⟩

theorem undisturbed_sublist (s : Channel) (events : List Event) : (undisturbed allowlist s events).Sublist events := by
  induction events generalizing s with
  | nil => exact List.Sublist.refl _
  | cons event rest ih =>
    rw [undisturbed]
    split_ifs
    · exact (ih _).cons _
    · exact (ih _).cons_cons _

theorem arrive_undisturbed {s : Channel} {events : List Event} {certificates : List (List UInt8)}
    (arrives : .Arrive certificates ∈ undisturbed allowlist s events) : authority allowlist ⟨0,certificates⟩ = true := by
  induction events generalizing s with
  | nil => cases arrives
  | cons event rest ih =>
    rw [undisturbed] at arrives
    split_ifs at arrives with others
    · exact ih arrives
    · rcases List.mem_cons.mp arrives with rfl | later
      · have listed : authority allowlist ⟨s.arrivals,certificates⟩ = true := by simpa [hidden] using others
        exact listed
      · exact ih later

end

end AegisNode.MtlsChannel
