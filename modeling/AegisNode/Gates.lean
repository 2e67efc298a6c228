import AegisNode.Faultless
import AegisNode.Nesting
import AegisNode.WriterVerifier

/-!
The gates in front of the filesystem and of the network: what reaches the operating
system, and what the ledger keeps of the rest.
-/
namespace AegisNode.Gates
open Clock Json Schema Policy Ledger Faultless WriterVerifier
open Engine (payloadOf violationPayload)

/-! ### The operating system -/

inductive AccessKind where
  | Read
  | Write
  | Delete
  deriving DecidableEq,Repr

def AccessKind.accessTypeStr : AccessKind → String
  | .Read => "read"
  | .Write => "write"
  | .Delete => "delete"

inductive Syscall where
  | Read (path : String)
  | Write (path : String) (contents : List UInt8)
  | OpenRead (path : String)
  | OpenWrite (path : String)        -- creates and truncates
  | RemoveFile (path : String)
  | RemoveDirAll (path : String)
  | Rename (src dst : String)
  deriving DecidableEq,Repr

/-- What is gated before a call, in this order. -/
def Syscall.accesses : Syscall → List (AccessKind × String)
  | .Read path | .OpenRead path => [(.Read,path)]
  | .Write path _ | .OpenWrite path => [(.Write,path)]
  | .RemoveFile path | .RemoveDirAll path => [(.Delete,path)]
  | .Rename src dst => [(.Delete,src),(.Write,dst)]

/-- What a program asks of the two gates. -/
inductive Request where
  | Fs (syscall : Syscall)
  | Connect (host : String) (port : UInt16) (proto : NetworkProto)
  deriving DecidableEq,Repr

/-- What reaches the operating system. -/
inductive Call where
  | Fs (syscall : Syscall)
  | ToSocketAddrs (host : String) (port : UInt16)
  | Connect (addr : String)
  deriving DecidableEq,Repr

/-- The operating system with states `σ` and answers `ω`, and the readings of the clock and
    of the current directory. -/
structure Os (σ ω : Type) where
  now : Nat → Int
  currentDir : Nat → Option String
  call : σ → Syscall → Except String ω × σ
  toSocketAddrs : σ → String → UInt16 → Except String (List String) × σ
  connect : σ → String → Except String ω × σ

def Os.perform {σ ω : Type} (out : Os σ ω) (s : σ) : Call → σ
  | .Fs syscall => (out.call s syscall).2
  | .ToSocketAddrs host port => (out.toSocketAddrs s host port).2
  | .Connect addr => (out.connect s addr).2

/-! ### The gates -/

inductive Error where
  | Io (error : String)
  | Policy (error : Ledger.Error)
  | Denied (reason : String)
  | RequireApproval (reason : String)
  deriving DecidableEq,Repr

/-- A context, with the state of the operating system and how often the clock was read. -/
structure GateContext (σ : Type) where
  policy : Manifest
  writer : LedgerWriter
  agentIdentityHash : Digest
  sessionStart : Int
  ticks : Nat
  os : σ

def absolutize (currentDir : Option String) (path : String) : String :=
  if Paths.isAbsolute path then path
  else match currentDir with
    | some dir => Mediator.joinPath dir path
    | none => path

section
variable {σ ω : Type} [Chrono] [Serde] [Sha256] (out : Os σ ω)

def check (m : Manifest) (sessionStart now : Int) : AccessKind × String → Checked Decision
  | (.Read,path) => .ok (checkFilesystemRead m path)
  | (.Write,path) => checkFilesystemWrite m path now sessionStart
  | (.Delete,path) => checkFilesystemDelete m path now sessionStart

/-- The entry of a denial. -/
def violation (g : GateContext σ) (access : AccessKind × String) (reason : String) : Entry :=
  ⟨g.writer.sessionId,.Violation,g.agentIdentityHash,out.now (g.ticks+1),
    violationPayload reason (some ("file://" ++ absolutize (out.currentDir g.ticks) access.2)) (some access.1.accessTypeStr)⟩

def gate (g : GateContext σ) (access : AccessKind × String) : Checked (Except Error Unit) × GateContext σ :=
  match check g.policy g.sessionStart (out.now g.ticks) access with
  | .error panic => (.error panic,{ g with ticks := g.ticks+1 })
  | .ok .Allow => (.ok (.ok ()),{ g with ticks := g.ticks+1 })
  | .ok (.RequireApproval reason) => (.ok (.error (.RequireApproval reason)),{ g with ticks := g.ticks+1 })
  | .ok (.Deny reason) =>
    let (result,writer) := append g.writer (violation out g access reason)
    let g := { g with ticks := g.ticks+2,writer := writer }
    match result with
    | .error panic => (.error panic,g)
    | .ok (.error error) => (.ok (.error (.Policy error)),g)
    | .ok (.ok _) => (.ok (.error (.Denied reason)),g)

/-- One gate after the other, up to the first that does not open. -/
def gateAll (g : GateContext σ) : List (AccessKind × String) → Checked (Except Error Unit) × GateContext σ
  | [] => (.ok (.ok ()),g)
  | access :: rest =>
    match gate out g access with
    | (.ok (.ok ()),g) => gateAll g rest
    | stopped => stopped

/-- The methods of `GateContext`. -/
def mediate (g : GateContext σ) (syscall : Syscall) : Checked (Except Error ω) × GateContext σ :=
  match gateAll out g syscall.accesses with
  | (.error panic,g) => (.error panic,g)
  | (.ok (.error error),g) => (.ok (.error error),g)
  | (.ok (.ok ()),g) => (.ok ((out.call g.os syscall).1.mapError .Io),{ g with os := (out.call g.os syscall).2 })

/-- `AegisTcpStream::connect`. -/
def connect (m : Manifest) (s : σ) (host : String) (port : UInt16) (proto : NetworkProto) : Except Error ω × σ :=
  match checkNetworkOutbound m host port proto with
  | .Deny reason => (.error (.Denied reason),s)
  | .RequireApproval reason => (.error (.RequireApproval reason),s)
  | .Allow =>
    match out.toSocketAddrs s host port with
    | (.error error,s) => (.error (.Io error),s)
    | (.ok [],s) => (.error (.Io ("could not resolve " ++ host ++ ":" ++ toString port.toNat)),s)
    | (.ok (addr :: _),s) => ((out.connect s addr).1.mapError .Io,(out.connect s addr).2)

def handle (g : GateContext σ) : Request → Checked (Except Error ω) × GateContext σ
  | .Fs syscall => mediate out g syscall
  | .Connect host port proto => (.ok (connect out g.policy g.os host port proto).1,{ g with os := (connect out g.policy g.os host port proto).2 })

/-- One request after the other; a panic ends the run. -/
def run (g : GateContext σ) : List Request → List (Checked (Except Error ω)) × GateContext σ
  | [] => ([],g)
  | request :: rest =>
    match handle out g request with
    | (.error panic,g) => ([.error panic],g)
    | (.ok result,g) => (.ok result :: (run g rest).1,(run g rest).2)

/-! ### The account of a run -/

/-- The gates that open, one reading of the clock each, from the `n`-th on. -/
def Opens (m : Manifest) (sessionStart : Int) : Nat → List (AccessKind × String) → Prop
  | _,[] => True
  | n,access :: rest => check m sessionStart (out.now n) access = .ok .Allow ∧ Opens m sessionStart (n+1) rest

/-- The first gate of a call that does not open, and what it decides. -/
structure Halts (g : GateContext σ) (syscall : Syscall) (n : Nat) (access : AccessKind × String) (decision : Checked Decision) : Prop where
  before : ∃ front later,syscall.accesses = front ++ access :: later ∧ Opens out g.policy g.sessionStart g.ticks front ∧ n = g.ticks+front.length
  decides : check g.policy g.sessionStart (out.now n) access = decision

/-- The results of a run, the calls that reached the operating system, and the entries that
    the ledger took. -/
inductive Ran : GateContext σ → List Request → List (Checked (Except Error ω)) → List Call → List Entry → GateContext σ → Prop where
  | Done {g : GateContext σ} : Ran g [] [] [] [] g
  | Performed {g t : GateContext σ} {syscall : Syscall} {rest : List Request} {results : List (Checked (Except Error ω))} {calls : List Call}
      {entries : List Entry} (opens : Opens out g.policy g.sessionStart g.ticks syscall.accesses)
      (later : Ran { g with ticks := g.ticks+syscall.accesses.length,os := (out.call g.os syscall).2 } rest results calls entries t) :
      Ran g (.Fs syscall :: rest) (.ok ((out.call g.os syscall).1.mapError .Io) :: results) (.Fs syscall :: calls) entries t
  | Withheld {g t : GateContext σ} {syscall : Syscall} {rest : List Request} {results : List (Checked (Except Error ω))} {calls : List Call}
      {entries : List Entry} {n : Nat} {access : AccessKind × String} {reason : String}
      (halts : Halts out g syscall n access (.ok (.RequireApproval reason))) (later : Ran { g with ticks := n+1 } rest results calls entries t) :
      Ran g (.Fs syscall :: rest) (.ok (.error (.RequireApproval reason)) :: results) calls entries t
  | Denied {g t : GateContext σ} {syscall : Syscall} {rest : List Request} {results : List (Checked (Except Error ω))} {calls : List Call}
      {entries : List Entry} {n : Nat} {access : AccessKind × String} {reason : String} {record : EntryRecord} {writer : LedgerWriter}
      (halts : Halts out g syscall n access (.ok (.Deny reason)))
      (recorded : append g.writer (violation out { g with ticks := n } access reason) = (.ok (.ok record),writer))
      (later : Ran { g with ticks := n+2,writer := writer } rest results calls entries t) :
      Ran g (.Fs syscall :: rest) (.ok (.error (.Denied reason)) :: results) calls (violation out { g with ticks := n } access reason :: entries) t
  | Overflows {g : GateContext σ} {syscall : Syscall} {rest : List Request} {n : Nat} {access : AccessKind × String} {panic : Panic}
      (halts : Halts out g syscall n access (.error panic)) : Ran g (.Fs syscall :: rest) [.error panic] [] [] { g with ticks := n+1 }
  | Unresolved {g t : GateContext σ} {host : String} {port : UInt16} {proto : NetworkProto} {rest : List Request}
      {results : List (Checked (Except Error ω))} {calls : List Call} {entries : List Entry} {error : String}
      (allowed : checkNetworkOutbound g.policy host port proto = .Allow)
      (failed : (out.toSocketAddrs g.os host port).1 = .error error ∨
        (out.toSocketAddrs g.os host port).1 = .ok [] ∧ error = "could not resolve " ++ host ++ ":" ++ toString port.toNat)
      (later : Ran { g with os := (out.toSocketAddrs g.os host port).2 } rest results calls entries t) :
      Ran g (.Connect host port proto :: rest) (.ok (.error (.Io error)) :: results) (.ToSocketAddrs host port :: calls) entries t
  | Connected {g t : GateContext σ} {host : String} {port : UInt16} {proto : NetworkProto} {rest : List Request}
      {results : List (Checked (Except Error ω))} {calls : List Call} {entries : List Entry} {addr : String} {addrs : List String}
      (allowed : checkNetworkOutbound g.policy host port proto = .Allow)
      (resolved : (out.toSocketAddrs g.os host port).1 = .ok (addr :: addrs))
      (later : Ran { g with os := (out.connect (out.toSocketAddrs g.os host port).2 addr).2 } rest results calls entries t) :
      Ran g (.Connect host port proto :: rest)
        (.ok ((out.connect (out.toSocketAddrs g.os host port).2 addr).1.mapError .Io) :: results)
        (.ToSocketAddrs host port :: .Connect addr :: calls) entries t
  | Refused {g t : GateContext σ} {host : String} {port : UInt16} {proto : NetworkProto} {rest : List Request}
      {results : List (Checked (Except Error ω))} {calls : List Call} {entries : List Entry} {reason : String}
      (denied : checkNetworkOutbound g.policy host port proto = .Deny reason) (later : Ran g rest results calls entries t) :
      Ran g (.Connect host port proto :: rest) (.ok (.error (.Denied reason)) :: results) calls entries t
  | Unapproved {g t : GateContext σ} {host : String} {port : UInt16} {proto : NetworkProto} {rest : List Request}
      {results : List (Checked (Except Error ω))} {calls : List Call} {entries : List Entry} {reason : String}
      (withheld : checkNetworkOutbound g.policy host port proto = .RequireApproval reason) (later : Ran g rest results calls entries t) :
      Ran g (.Connect host port proto :: rest) (.ok (.error (.RequireApproval reason)) :: results) calls entries t

variable {out : Os σ ω}

theorem gate_closed {g : GateContext σ} {access : AccessKind × String}
    (closed : check g.policy g.sessionStart (out.now g.ticks) access ≠ .ok .Allow) : (gate out g access).1 ≠ .ok (.ok ()) := by
  rw [gate]
  cases decided : check g.policy g.sessionStart (out.now g.ticks) access with
  | error panic => exact fun same => by cases same
  | ok decision =>
    cases decision with
    | Allow => exact absurd decided closed
    | RequireApproval reason => exact fun same => by cases same
    | Deny reason =>
      dsimp only
      cases (append g.writer (violation out g access reason)).1 with
      | error panic => exact fun same => by cases same
      | ok result => cases result <;> exact fun same => by cases same

theorem gateAll_cases (out : Os σ ω) (g : GateContext σ) (accesses : List (AccessKind × String)) :
    Opens out g.policy g.sessionStart g.ticks accesses ∧ gateAll out g accesses = (.ok (.ok ()),{ g with ticks := g.ticks+accesses.length }) ∨
      ∃ front access later,accesses = front ++ access :: later ∧ Opens out g.policy g.sessionStart g.ticks front ∧
        check g.policy g.sessionStart (out.now (g.ticks+front.length)) access ≠ .ok .Allow ∧
        gateAll out g accesses = gate out { g with ticks := g.ticks+front.length } access := by
  induction accesses generalizing g with
  | nil => exact .inl ⟨trivial,rfl⟩
  | cons access rest ih =>
    by_cases open_ : check g.policy g.sessionStart (out.now g.ticks) access = .ok .Allow
    · have first : gate out g access = (.ok (.ok ()),{ g with ticks := g.ticks+1 }) := by rw [gate,open_]
      have whole : gateAll out g (access :: rest) = gateAll out { g with ticks := g.ticks+1 } rest := by rw [gateAll,first]
      rcases ih { g with ticks := g.ticks+1 } with ⟨opens,ran⟩ | ⟨front,halting,later,split,opens,closed,ran⟩
      · refine .inl ⟨⟨open_,opens⟩,?_⟩
        rw [whole,ran,List.length_cons]
        simp only [Nat.add_assoc,Nat.add_comm 1]
      · refine .inr ⟨access :: front,halting,later,congrArg (access :: ·) split,⟨open_,opens⟩,?_,?_⟩
        · rw [List.length_cons,show g.ticks+(front.length+1) = g.ticks+1+front.length by omega]
          exact closed
        · rw [whole,ran,List.length_cons,show g.ticks+(front.length+1) = g.ticks+1+front.length by omega]
    · refine .inr ⟨[],access,rest,rfl,trivial,open_,?_⟩
      have closed := gate_closed open_
      rw [gateAll]
      generalize gate out g access = stopped at closed
      obtain ⟨result,g'⟩ := stopped
      cases result with
      | error panic => rfl
      | ok result =>
        cases result with
        | error error => rfl
        | ok _ => exact absurd rfl closed

/-- The ledger takes `n` more violations. -/
structure Takes (w : LedgerWriter) (n : Nat) : Prop where
  few : w.nextSequence.toNat+n < 2^64
  inStep : ∃ lines walk,InStep w lines walk

theorem Takes.fewer {w : LedgerWriter} {n m : Nat} (takes : Takes w n) (le : m ≤ n) : Takes w m :=
  ⟨by have few := takes.few; omega,takes.inStep⟩

omit [Chrono] [Serde] [Sha256] in
theorem violation_unreserved (g : GateContext σ) (access : AccessKind × String) (reason : String) :
    ∀ field ∈ (violation out g access reason).payload.fields,field.1 ∉ reservedKeys := by
  refine payload_unreserved (unreserved_append (unreserved_append ?_ (unreserved_optional (by decide) _)) (unreserved_optional (by decide) _))
  simp [Unreserved,reservedKeys]

omit [Chrono] [Serde] [Sha256] in
theorem violation_shallow (g : GateContext σ) (access : AccessKind × String) (reason : String) :
    fieldsDepth (violation out g access reason).payload.fields = 0 := by
  have bound := Nesting.depth_payload ([("violationReason",.Text reason)] ++
    Engine.optional "resourceUri" (some ("file://" ++ absolutize (out.currentDir g.ticks) access.2)) ++
    Engine.optional "accessType" (some access.1.accessTypeStr))
  simp only [Engine.optional,List.map_cons,List.map_nil,List.cons_append,List.nil_append,fieldsDepth,Engine.Scalar.value,depth,max_self] at bound
  exact Nat.le_zero.mp bound

/-- A violation is taken. -/
theorem append_violation (faithful : Faithful ‹Serde›) (dated : ∀ n,Chrono.parse (Chrono.rfc3339Nanos (out.now n)) = some (out.now n))
    (g : GateContext σ) {n : Nat} (takes : Takes g.writer (n+1)) (access : AccessKind × String) (reason : String) :
    ∃ record writer,append g.writer (violation out g access reason) = (.ok (.ok record),writer) ∧ Takes writer n := by
  obtain ⟨lines,walk,inStep⟩ := takes.inStep
  have few := takes.few
  have readable : Readable (violation out g access reason) := ⟨by rw [violation_shallow]; decide,dated _⟩
  have own : (violation out g access reason).sessionId = g.writer.sessionId := rfl
  obtain ⟨answers,appended,-⟩ := append_healthy inStep.healthy own (violation_unreserved g access reason) (by omega)
  rcases append_inStep faithful inStep readable (by omega) with ⟨error,rejected⟩ | ⟨record,w',lines',walk',taken,inStep',sequence,-⟩
  · rw [appended] at rejected
    cases rejected
  · refine ⟨record,w',taken,?_,lines',walk',inStep'⟩
    have one : (1 : UInt64).toNat = 1 := rfl
    rw [sequence,UInt64.toNat_add,one,Nat.mod_eq_of_lt (by omega)]
    omega

theorem run_ran (faithful : Faithful ‹Serde›) (dated : ∀ n,Chrono.parse (Chrono.rfc3339Nanos (out.now n)) = some (out.now n))
    {g : GateContext σ} {requests : List Request} (takes : Takes g.writer requests.length) :
    ∃ calls entries,Ran out g requests (run out g requests).1 calls entries (run out g requests).2 := by
  induction requests generalizing g with
  | nil => exact ⟨[],[],.Done⟩
  | cons request rest ih =>
    cases request with
    | Fs syscall =>
      have fewer := takes.fewer (Nat.le_succ _)
      rw [run,handle,mediate]
      rcases gateAll_cases out g syscall.accesses with ⟨opens,ran⟩ | ⟨front,access,later,split,opens,closed,ran⟩
      · rw [ran]
        obtain ⟨calls,entries,rest⟩ := ih (g := { g with ticks := g.ticks+syscall.accesses.length,os := (out.call g.os syscall).2 }) fewer
        exact ⟨_,_,.Performed opens rest⟩
      · rw [ran]
        have halts {decision : Checked Decision} (decides : check g.policy g.sessionStart (out.now (g.ticks+front.length)) access = decision) :
            Halts out g syscall (g.ticks+front.length) access decision := ⟨⟨front,later,split,opens,rfl⟩,decides⟩
        rw [gate]
        dsimp only
        cases decided : check g.policy g.sessionStart (out.now (g.ticks+front.length)) access with
        | error panic => exact ⟨_,_,.Overflows (halts decided)⟩
        | ok decision =>
          cases decision with
          | Allow => exact absurd decided closed
          | RequireApproval reason =>
            obtain ⟨calls,entries,rest⟩ := ih (g := { g with ticks := g.ticks+front.length+1 }) fewer
            exact ⟨_,_,.Withheld (halts decided) rest⟩
          | Deny reason =>
            obtain ⟨record,writer,appended,left⟩ := append_violation faithful dated { g with ticks := g.ticks+front.length } takes access reason
            obtain ⟨calls,entries,rest⟩ := ih (g := { g with ticks := g.ticks+front.length+2,writer := writer }) left
            dsimp only at appended ⊢
            rw [appended]
            exact ⟨_,_,.Denied (halts decided) appended rest⟩
    | Connect host port proto =>
      have fewer := takes.fewer (Nat.le_succ _)
      rw [run,handle,connect]
      cases decided : checkNetworkOutbound g.policy host port proto with
      | Deny reason =>
        obtain ⟨calls,entries,rest⟩ := ih fewer
        exact ⟨_,_,.Refused decided rest⟩
      | RequireApproval reason =>
        obtain ⟨calls,entries,rest⟩ := ih fewer
        exact ⟨_,_,.Unapproved decided rest⟩
      | Allow =>
        dsimp only
        rcases resolving : out.toSocketAddrs g.os host port with ⟨error | addrs,s⟩
        · obtain ⟨calls,entries,rest⟩ := ih (g := { g with os := (out.toSocketAddrs g.os host port).2 }) fewer
          have failed := Ran.Unresolved decided (.inl (congrArg Prod.fst resolving)) rest
          rw [resolving] at failed
          exact ⟨_,_,failed⟩
        · cases addrs with
          | nil =>
            obtain ⟨calls,entries,rest⟩ := ih (g := { g with os := (out.toSocketAddrs g.os host port).2 }) fewer
            have failed := Ran.Unresolved decided (.inr ⟨congrArg Prod.fst resolving,rfl⟩) rest
            rw [resolving] at failed
            exact ⟨_,_,failed⟩
          | cons addr addrs =>
            obtain ⟨calls,entries,rest⟩ := ih (g := { g with os := (out.connect (out.toSocketAddrs g.os host port).2 addr).2 }) fewer
            have connected := Ran.Connected decided (congrArg Prod.fst resolving) rest
            rw [resolving] at connected
            exact ⟨_,_,connected⟩

/-- What the policy has to say of a call. -/
def Permitted (out : Os σ ω) (g t : GateContext σ) : Call → Prop
  | .Fs syscall => ∃ n,g.ticks ≤ n ∧ n+syscall.accesses.length ≤ t.ticks ∧ Opens out g.policy g.sessionStart n syscall.accesses
  | .ToSocketAddrs host port => ∃ proto,checkNetworkOutbound g.policy host port proto = .Allow
  | .Connect addr => ∃ host port proto s addrs,checkNetworkOutbound g.policy host port proto = .Allow ∧
      (out.toSocketAddrs s host port).1 = .ok (addr :: addrs)

theorem Ran.os {g t : GateContext σ} {requests : List Request} {results : List (Checked (Except Error ω))} {calls : List Call} {entries : List Entry}
    (ran : Ran out g requests results calls entries t) : t.os = calls.foldl out.perform g.os := by
  induction ran with
  | Done => rfl
  | Overflows => rfl
  | Performed _ _ ih | Unresolved _ _ _ ih | Connected _ _ _ ih => exact ih
  | Withheld _ _ ih | Denied _ _ _ ih | Refused _ _ ih | Unapproved _ _ ih => exact ih

theorem Ran.appended {g t : GateContext σ} {requests : List Request} {results : List (Checked (Except Error ω))} {calls : List Call} {entries : List Entry}
    (ran : Ran out g requests results calls entries t) : (appendAll g.writer entries).2 = t.writer ∧ (appendAll g.writer entries).1.countP succeeded = entries.length := by
  induction ran with
  | Done => exact ⟨rfl,rfl⟩
  | Overflows => exact ⟨rfl,rfl⟩
  | Performed _ _ ih | Unresolved _ _ _ ih | Connected _ _ _ ih => exact ih
  | Withheld _ _ ih | Refused _ _ ih | Unapproved _ _ ih => exact ih
  | Denied _ recorded _ ih =>
    rw [appendAll,recorded]
    exact ⟨ih.1,by rw [List.countP_cons_of_pos rfl,ih.2,List.length_cons]⟩

omit [Serde] [Sha256] in
theorem Permitted.wider {g g' t : GateContext σ} {call : Call} (permitted : Permitted out g' t call) (policy : g'.policy = g.policy)
    (start : g'.sessionStart = g.sessionStart) (ticks : g.ticks ≤ g'.ticks) : Permitted out g t call := by
  rw [Permitted.eq_def] at permitted ⊢
  cases call with
  | Fs syscall =>
    obtain ⟨n,since,until_,opens⟩ := permitted
    exact ⟨n,ticks.trans since,until_,policy ▸ start ▸ opens⟩
  | ToSocketAddrs host port => exact policy ▸ permitted
  | Connect addr => exact policy ▸ permitted

theorem Ran.permitted {g t : GateContext σ} {requests : List Request} {results : List (Checked (Except Error ω))} {calls : List Call} {entries : List Entry}
    (ran : Ran out g requests results calls entries t) : g.ticks ≤ t.ticks ∧ ∀ call ∈ calls,Permitted out g t call := by
  induction ran with
  | Done => exact ⟨le_rfl,fun _ none_ => absurd none_ List.not_mem_nil⟩
  | Overflows halts =>
    obtain ⟨front,_,_,_,rfl⟩ := halts.before
    exact ⟨by dsimp only; omega,fun _ none_ => absurd none_ List.not_mem_nil⟩
  | @Performed g t syscall rest results calls entries opens later ih =>
    obtain ⟨later,permitted⟩ := ih
    dsimp only at later
    refine ⟨by omega,fun call member => ?_⟩
    rcases List.mem_cons.mp member with rfl | member
    · exact ⟨g.ticks,le_rfl,later,opens⟩
    · exact (permitted call member).wider rfl rfl (Nat.le_add_right _ _)
  | Withheld halts _ ih | Denied halts _ _ ih =>
    obtain ⟨front,_,_,_,rfl⟩ := halts.before
    obtain ⟨later,permitted⟩ := ih
    dsimp only at later
    exact ⟨by omega,fun call member => (permitted call member).wider rfl rfl (by dsimp only; omega)⟩
  | Unresolved allowed _ _ ih =>
    refine ⟨ih.1,fun call member => ?_⟩
    rcases List.mem_cons.mp member with rfl | member
    · exact ⟨_,allowed⟩
    · exact ih.2 call member
  | Connected allowed resolved _ ih =>
    refine ⟨ih.1,fun call member => ?_⟩
    rcases List.mem_cons.mp member with rfl | member
    · exact ⟨_,allowed⟩
    · rcases List.mem_cons.mp member with rfl | member
      · exact ⟨_,_,_,_,_,allowed,resolved⟩
      · exact ih.2 call member
  | Refused _ _ ih | Unapproved _ _ ih => exact ih

/-- The verifier accepts the file of a writer that it is in step with. -/
theorem inStep_verified {w : LedgerWriter} {lines : List (List UInt8)} {walk : Walk} (inStep : InStep w lines walk) :
    verifyReader w.file.disk = .ok (summary walk) ∧ (summary walk).entryCount = w.nextSequence := by
  refine ⟨?_,inStep.sequence⟩
  rw [verifyReader,inStep.written,Bytes.rawLines_terminated inStep.whole,inStep.accepted]
  rfl

theorem Ran.readable (dated : ∀ n,Chrono.parse (Chrono.rfc3339Nanos (out.now n)) = some (out.now n)) {g t : GateContext σ}
    {requests : List Request} {results : List (Checked (Except Error ω))} {calls : List Call} {entries : List Entry}
    (ran : Ran out g requests results calls entries t) : entries.length ≤ requests.length ∧ ∀ entry ∈ entries,Readable entry := by
  induction ran with
  | Done | Overflows => exact ⟨Nat.zero_le _,fun _ none_ => absurd none_ List.not_mem_nil⟩
  | Performed _ _ ih | Unresolved _ _ _ ih | Connected _ _ _ ih | Withheld _ _ ih | Refused _ _ ih | Unapproved _ _ ih =>
    exact ⟨ih.1.trans (Nat.le_succ _),ih.2⟩
  | Denied _ _ _ ih =>
    refine ⟨Nat.succ_le_succ ih.1,fun entry member => ?_⟩
    rcases List.mem_cons.mp member with rfl | member
    · exact ⟨by rw [violation_shallow]; decide,dated _⟩
    · exact ih.2 entry member

end

/-! ### A run with two denials -/

/-- The directory may be read. -/
def dataReader : Manifest := { Schema.closed with tools := ⟨some ⟨["/data"],[],none,none⟩,none,[],[],none⟩ }

/-- Every call succeeds, and the state counts them. -/
def counting : Os Nat Unit where
  now _ := 0
  currentDir _ := some "/work"
  call n _ := (.ok (),n+1)
  toSocketAddrs n _ _ := (.ok ["10.0.0.1:443"],n+1)
  connect n _ := (.ok (),n+1)

def fourRequests : List Request :=
  [.Fs (.Read "/data/a"),.Fs (.Read "secret"),.Fs (.Rename "/data/a" "/data/b"),.Connect "example.org" 443 .Https]

def atStart : GateContext Nat :=
  ⟨dataReader,create "session-fs" (fun _ => nilUuid) .V2 [],⟨List.replicate 32 0xEE,by decide⟩,0,0,0⟩

def fourRun : List (Checked (Except Error Unit)) × GateContext Nat := @run Nat Unit epochChrono JsonText.serde accessSha256 counting atStart fourRequests

end AegisNode.Gates
