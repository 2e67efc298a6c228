import AegisNode.Interleaving
import AegisNode.Mediator

/-!
The file approval channel: a session puts one request after another, and each polls the
same path until a decision stands there or its deadline has passed. The operator writes
and removes the file; the channel only reads it.
-/
namespace AegisNode.FileChannel
open Engine Mediator Interleaving

/-! ### The channel -/

structure FileResponse where
  decision : String
  approver : Option String
  reason : Option String
  deriving DecidableEq,Repr

/-- The third-party `serde_json` reads the bytes of the file. -/
class Responses where
  fromSlice : List UInt8 → Except String FileResponse

/-- What the operator wrote; each write has a number of its own. -/
structure Written where
  number : Nat
  bytes : List UInt8
  deriving DecidableEq,Repr

/-- What a request comes to; an error comes with its text. -/
def outcomeOf [Responses] (bytes : List UInt8) (utcNow : Int) : Except String ApprovalOutcome :=
  match Responses.fromSlice bytes with
  | .error error => .error ("serialization: " ++ error)
  | .ok resp =>
    if resp.decision = "granted" then .ok (.Granted (resp.approver.getD "file-channel") utcNow)
    else if resp.decision = "rejected" then .ok (.Rejected (resp.reason.getD "rejected") utcNow)
    else .error ("malformed approval response: decision must be \"granted\" or \"rejected\", got " ++ Text.rustDebug resp.decision)

/-- Where the loop of the outstanding request is. -/
inductive Phase where
  | Idle
  | Polls (request : Nat)     -- about to see whether the path exists
  | Finds (request : Nat)     -- it does, and is about to be read
  | Misses (request : Nat)    -- it does not, and the deadline is about to be checked
  deriving DecidableEq,Repr

/-- Requests are numbered in the order in which the session puts them. -/
structure Channel where
  file : Option Written
  writes : Nat
  asked : List Operation
  phase : Phase
  consumed : List (Nat × Written)    -- the requests with an outcome, and the writes it is read from
  answered : List (Nat × Except String ApprovalOutcome)

def initial : Channel := ⟨none,0,[],.Idle,[],[]⟩

/-- What the operator and the session do, in the order in which it happens. -/
inductive Event where
  | Write (bytes : List UInt8)
  | Remove
  | Ask (op : Operation)
  | Look
  | Read (utcNow : Int)
  | Fail (error : String)     -- the file cannot be read
  | Sleep                     -- the deadline has not passed
  | Expire (utcNow : Int)     -- the deadline has passed

section
variable [Responses]

/-- The request is answered from the file, which stays where it is. -/
def answer (s : Channel) (request : Nat) (written : Written) (utcNow : Int) : Channel :=
  match outcomeOf written.bytes utcNow with
  | .ok outcome => { s with
      phase := .Idle
      consumed := s.consumed ++ [(request,written)]
      answered := s.answered ++ [(request,.ok outcome)] }
  | .error error => { s with phase := .Idle,answered := s.answered ++ [(request,.error error)] }

def failed (s : Channel) (request : Nat) (error : String) : Channel :=
  { s with phase := .Idle,answered := s.answered ++ [(request,.error ("io: " ++ error))] }

/-- An event that cannot happen changes nothing. -/
def step (s : Channel) : Event → Channel
  | .Write bytes => { s with file := some ⟨s.writes,bytes⟩,writes := s.writes+1 }
  | .Remove => { s with file := none }
  | .Ask op =>
    match s.phase with
    | .Idle => { s with asked := s.asked ++ [op],phase := .Polls s.asked.length }
    | _ => s
  | .Look =>
    match s.phase with
    | .Polls request => { s with phase := if s.file.isSome then .Finds request else .Misses request }
    | _ => s
  | .Read utcNow =>
    match s.phase,s.file with
    | .Finds request,some written => answer s request written utcNow
    | .Finds request,none => failed s request "No such file or directory (os error 2)"
    | _,_ => s
  | .Fail error =>
    match s.phase with
    | .Finds request => failed s request error
    | _ => s
  | .Sleep =>
    match s.phase with
    | .Misses request => { s with phase := .Polls request }
    | _ => s
  | .Expire utcNow =>
    match s.phase with
    | .Misses request => { s with phase := .Idle,answered := s.answered ++ [(request,.ok (.TimedOut utcNow))] }
    | _ => s

end

/-! ### One decision, one request -/

/-- The writes that some request has its outcome from. -/
def used (s : Channel) : List Nat := s.consumed.map (·.2.number)

/-- No write is consumed twice, and requests that are answered from one write ask for one
    tool with one list of arguments. -/
structure OncePerRequest (s : Channel) : Prop where
  once : (used s).Nodup
  own : ∀ request other written,(request,written) ∈ s.consumed → (other,written) ∈ s.consumed →
    (s.asked[request]?.map fun op => (op.toolName,op.canonicalArgs)) = s.asked[other]?.map fun op => (op.toolName,op.canonicalArgs)

/-- When a request looks at the path, the file that an earlier one was answered from has
    been removed or replaced. -/
def Cleared (s : Channel) : Event → Prop
  | .Look => ∀ request written,s.phase = .Polls request → s.file = some written → written.number ∉ used s
  | _ => True

/-- What cleared events keep: a file that was found has answered nobody yet. -/
structure Fresh (s : Channel) : Prop where
  standing : ∀ written,s.file = some written → written.number < s.writes
  past : ∀ number ∈ used s,number < s.writes
  once : (used s).Nodup
  found : ∀ request written,s.phase = .Finds request → s.file = some written → written.number ∉ used s

theorem Fresh.oncePerRequest {s : Channel} (fresh : Fresh s) : OncePerRequest s where
  once := fresh.once
  own := by
    intro request other written first second
    cases List.inj_on_of_nodup_map fresh.once first second rfl
    rfl

/-- The loop goes on with the same file and the same answers. -/
theorem Fresh.moves {s : Channel} (fresh : Fresh s) (asked : List Operation) {phase : Phase}
    (answered : List (Nat × Except String ApprovalOutcome))
    (found : ∀ request written,phase = .Finds request → s.file = some written → written.number ∉ used s) :
    Fresh { s with asked := asked,phase := phase,answered := answered } :=
  ⟨fresh.standing,fresh.past,fresh.once,found⟩

theorem Fresh.stops {s : Channel} (fresh : Fresh s) {answered : List (Nat × Except String ApprovalOutcome)} :
    Fresh { s with phase := .Idle,answered := answered } :=
  fresh.moves _ _ fun _ _ finds => by cases finds

section
variable [Responses]

theorem fresh_answer {s : Channel} (fresh : Fresh s) {request : Nat} {written : Written} (finds : s.phase = .Finds request)
    (stands : s.file = some written) (utcNow : Int) : Fresh (answer s request written utcNow) := by
  rw [answer]
  cases outcomeOf written.bytes utcNow with
  | error error => exact fresh.stops
  | ok outcome =>
    have unused := fresh.found request written finds stands
    have uses : used { s with
        phase := .Idle
        consumed := s.consumed ++ [(request,written)]
        answered := s.answered ++ [(request,.ok outcome)] } = used s ++ [written.number] := by
      rw [used,List.map_append]
      rfl
    refine ⟨fresh.standing,?_,?_,fun _ _ finds => by cases finds⟩
    · intro number member
      rw [uses] at member
      rcases List.mem_append.mp member with member | member
      · exact fresh.past number member
      · cases List.mem_singleton.mp member
        exact fresh.standing written stands
    · rw [uses]
      exact List.nodup_append.mpr ⟨fresh.once,List.nodup_singleton _,fun number member other last same =>
        unused (List.mem_singleton.mp last ▸ same ▸ member)⟩

theorem fresh_step {s : Channel} (fresh : Fresh s) (event : Event) (cleared : Cleared s event) : Fresh (step s event) := by
  cases event with
  | Write bytes =>
    refine ⟨?_,fun number member => Nat.lt_succ_of_lt (fresh.past number member),fresh.once,?_⟩
    · intro written stands
      cases stands
      exact Nat.lt_succ_self _
    · intro request written finds stands member
      cases stands
      exact lt_irrefl _ (fresh.past _ member)
  | Remove =>
    refine ⟨?_,fresh.past,fresh.once,?_⟩
    · intro written stands
      cases stands
    · intro request written finds stands
      cases stands
  | Ask op =>
    cases phase : s.phase with
    | Idle =>
      simp only [step,phase]
      exact fresh.moves _ _ fun _ _ finds => by cases finds
    | _ => simpa only [step,phase] using fresh
  | Look =>
    cases phase : s.phase with
    | Polls request =>
      simp only [step,phase]
      refine fresh.moves _ _ fun _ written _ stands => ?_
      exact cleared request written phase stands
    | _ => simpa only [step,phase] using fresh
  | Read utcNow =>
    cases phase : s.phase with
    | Finds request =>
      cases stands : s.file with
      | none =>
        simp only [step,phase,stands]
        exact fresh.stops
      | some written =>
        simp only [step,phase,stands]
        exact fresh_answer fresh phase stands utcNow
    | _ => simpa only [step,phase] using fresh
  | Fail error =>
    cases phase : s.phase with
    | Finds request =>
      simp only [step,phase]
      exact fresh.stops
    | _ => simpa only [step,phase] using fresh
  | Sleep =>
    cases phase : s.phase with
    | Misses request =>
      simp only [step,phase]
      exact fresh.moves _ _ fun _ _ finds => by cases finds
    | _ => simpa only [step,phase] using fresh
  | Expire utcNow =>
    cases phase : s.phase with
    | Misses request =>
      simp only [step,phase]
      exact fresh.stops
    | _ => simpa only [step,phase] using fresh

omit [Responses] in
theorem fresh_initial : Fresh initial := by
  refine ⟨?_,?_,List.nodup_nil,?_⟩
  · intro written stands
    cases stands
  · intro number member
    cases member
  · intro request written finds
    cases finds

end

/-! ### Two requests -/

/-- `{"decision":"granted"}` -/
def granted : List UInt8 := Bytes.encode "\x7b\"decision\":\"granted\"\x7d"

@[reducible] def grantedOnly : Responses :=
  ⟨fun bytes => if bytes = granted then .ok ⟨"granted",none,none⟩ else .error "expected value at line 1 column 1"⟩

def runOf (program : String) : Operation :=
  ⟨execUri program,"exec",.Exec,"exec__run",execArgs program []⟩

end AegisNode.FileChannel
