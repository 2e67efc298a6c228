import AegisNode.Mediation
import AegisNode.TurnTrace

/-!
The arguments of an exec call: what the model asks for, what is run, and what the ledger
says was called.
-/
namespace AegisNode.ExecArguments
open Text Clock Json Schema Policy Traced Engine Mediator Frames Entries Faultless Turn TurnLoop TurnTrace
open Ledger hiding Error
set_option linter.unusedSectionVars false

/-! ### What is asked for -/

/-- The arguments name the program and list these texts, or have no list. -/
structure Requests (args : Value) (program : String) (argv : List String) : Prop where
  named : getField args "program" = some (.String program)
  listed : (getField args "args" = none ∧ argv = []) ∨ getField args "args" = some (.Array (argv.map .String))

section
variable [Chrono] [Serde] [Sha256] [Identity] [World]

/-- The call runs the program with the texts asked for, on record, or is told to be
    unroutable. -/
structure Honours (s : Session) (stepId : String) (recorded : Option Nat) (callIndex : Nat) (name toolName : String)
    (args : Value) : Prop where
  executes : ∀ {pre tick effect post},(runCall stepId recorded callIndex ⟨name,args⟩ s).events = pre ++ .Performed tick effect :: post →
    ∃ program argv,toolName = "run" ∧ Requests args program argv ∧ effect = .Spawn program argv ∧
      ∀ turn,recorded = some turn → ∃ opening later,sights pre = opening :: later ∧
        Entered .ToolCall (calledFields turn callIndex ⟨name,args⟩) opening
  accounts : ∀ {entry result},.Append entry result ∈ (runCall stepId recorded callIndex ⟨name,args⟩ s).events →
    entry.entryType = .Access → ∃ program argv,Requests args program argv ∧ ∃ accessType bytes,
      entry.payload = payloadOf (accessFields (execUri program) accessType bytes (some stepId))
  refuses : (¬ ∃ program argv,toolName = "run" ∧ Requests args program argv) →
    ∀ {outcome t events},Runs (runCall stepId recorded callIndex ⟨name,args⟩) s outcome t events →
      ∃ reason,outcome.result = .Unroutable reason

end

/-- The arguments of the tool are honoured in every session. -/
def Faithful (toolName : String) (args : Value) : Prop :=
  ∀ [Chrono] [Serde] [Sha256] [Identity] [World] (s : Session) (stepId : String) (recorded : Option Nat) (callIndex : Nat)
    (name : String),routeOf name = some (.Exec toolName) → Honours s stepId recorded callIndex name toolName args

/-- There is no such tool or no program, or the arguments are an array of texts, if there
    are any. -/
def WellFormed (toolName : String) (args : Value) : Prop :=
  toolName ≠ "run" ∨ (∀ program,getField args "program" ≠ some (.String program)) ∨ getField args "args" = none ∨
    ∃ argv : List String,getField args "args" = some (.Array (argv.map .String))

theorem filterMap_texts (argv : List String) : (argv.map Value.String).filterMap asStr = argv := by
  induction argv with
  | nil => rfl
  | cons text rest ih => rw [List.map_cons,List.filterMap_cons,asStr,ih]

theorem pathArg_named {args : Value} {key path : String} (found : pathArg args key = .ok path) :
    getField args key = some (.String path) := by
  unfold pathArg at found
  split at found
  · rename_i text named
    cases found
    obtain ⟨v,held,text⟩ := Option.bind_eq_some_iff.mp named
    cases v <;> cases text
    exact held
  · cases found

/-- What the dispatch makes of well-formed arguments is what they ask for. -/
theorem requests_wellFormed {args : Value} {program : String} (wellFormed : WellFormed "run" args)
    (named : pathArg args "program" = .ok program) : Requests args program (execArguments args) := by
  have held := pathArg_named named
  refine ⟨held,?_⟩
  rcases wellFormed with other | unnamed | absent | ⟨argv,listed⟩
  · exact absurd rfl other
  · exact absurd held (unnamed program)
  · rw [execArguments,absent]
    exact .inl ⟨rfl,rfl⟩
  · right
    rw [execArguments,listed,Option.bind_some,asArray,Option.getD_some,filterMap_texts]

/-! ### What a call leaves -/

section
variable [Chrono] [Serde] [Sha256] [Identity] [World]

theorem dispatch_events {call : Backend.ToolCall} {route : Route} (routed : routeOf call.name = some route) (rsid : Option String)
    (s : Session) : (dispatchToolCall call rsid s).events = (mediated call.arguments rsid route s).events := by
  have same : (attempt caught (runRoute call.arguments rsid route) s).events = (mediated call.arguments rsid route s).events := by
    rw [← (runRoute_alike call.arguments rsid route s).1]
    exact (attempt_same caught _ s).1
  rw [dispatchToolCall,routed]
  dsimp only
  cases attempted : (attempt caught (runRoute call.arguments rsid route) s).result with
  | error stop => rw [bind_error attempted,same]
  | ok dispatched =>
    have silent : ∀ t,((do
        let result ← toolCallResult dispatched
        return (⟨call.name,call.arguments,result,none⟩ : ToolCallOutcome)) t).events = [] := by
      intro t
      cases dispatched with
      | ok value => rfl
      | error error => cases error <;> rfl
    rw [bind_ok attempted,same,silent,List.append_nil]

/-- An event of the entries around a dispatch. -/
def Around : Event → Prop
  | .Performed _ _ => False
  | .Append entry _ => entry.entryType ≠ .Access
  | _ => True

theorem around_emitNow {entryType : EntryType} (other : entryType ≠ .Access) (fields : List (String × Scalar)) (s : Session) :
    ∀ e ∈ (emitNow .Ledger entryType fields s).events,Around e := by
  intro e member
  cases e with
  | Performed tick effect =>
    exact ((logs_emitNow fun now => logs_emit _ _ now _ : Respects Logs (emitNow .Ledger entryType fields)) s).counts.uneffective member
  | Append entry result =>
    obtain ⟨written,⟨_,rfl,kind,-⟩,seen⟩ := emitNow_sights .Ledger entryType fields s
    have sight : Sight.Wrote entry ∈ sights (emitNow .Ledger entryType fields s).events := List.mem_filterMap.mpr ⟨_,member,rfl⟩
    rw [seen] at sight
    cases List.mem_singleton.mp sight
    exact fun access => other (kind.symm.trans access)
  | _ => trivial

/-- A call is its dispatch, between two entries if it is recorded. -/
theorem runCall_parts (stepId : String) (recorded : Option Nat) (callIndex : Nat) (call : Backend.ToolCall) (s : Session) :
    ∃ front inner back,(runCall stepId recorded callIndex call s).events = front ++ (inner ++ back) ∧
      (inner = [] ∨ ∃ m,inner = (dispatchToolCall call (some stepId) m).events) ∧
      (∀ e ∈ front,Around e) ∧ (∀ e ∈ back,Around e) ∧ ∀ turn,recorded = some turn →
        ∃ opening,sights front = [opening] ∧ Entered .ToolCall (calledFields turn callIndex call) opening := by
  cases recorded with
  | none => exact ⟨[],_,[],(List.append_nil _).symm,.inr ⟨s,rfl⟩,by simp,by simp,by simp⟩
  | some turn =>
    have called : runCall stepId (some turn) callIndex call = (do
        emitNow .Ledger .ToolCall (calledFields turn callIndex call)
        let outcome ← dispatchToolCall call (some stepId)
        emitNow .Ledger .ToolResult (resultedFields turn callIndex outcome.result)
        return outcome) := rfl
    have opens := around_emitNow (show EntryType.ToolCall ≠ .Access by decide) (calledFields turn callIndex call) s
    obtain ⟨opening,entered,seen⟩ := emitNow_sights .Ledger .ToolCall (calledFields turn callIndex call) s
    refine ⟨(emitNow .Ledger .ToolCall (calledFields turn callIndex call) s).events,?_⟩
    rw [called]
    cases started : (emitNow .Ledger .ToolCall (calledFields turn callIndex call) s).result with
    | error stop =>
      refine ⟨[],[],?_,.inl rfl,opens,by simp,?_⟩
      · rw [bind_error started]
        simp
      · rintro _ ⟨⟩
        exact ⟨opening,seen,entered⟩
    | ok _ =>
      rw [bind_ok started]
      generalize (emitNow .Ledger .ToolCall (calledFields turn callIndex call) s).state = m
      cases dispatched : (dispatchToolCall call (some stepId) m).result with
      | error stop =>
        refine ⟨(dispatchToolCall call (some stepId) m).events,[],?_,.inr ⟨m,rfl⟩,opens,by simp,?_⟩
        · rw [bind_error dispatched]
          simp
        · rintro _ ⟨⟩
          exact ⟨opening,seen,entered⟩
      | ok outcome =>
        rw [bind_ok dispatched]
        refine ⟨(dispatchToolCall call (some stepId) m).events,_,rfl,.inr ⟨m,rfl⟩,opens,?_,?_⟩
        · rw [bind_pure_events.1]
          exact around_emitNow (by decide) _ _
        · rintro _ ⟨⟩
          exact ⟨opening,seen,entered⟩

/-- An effect of a call is one of its dispatch; if the call is recorded, its entry comes
    first. -/
theorem runCall_split {stepId : String} {recorded : Option Nat} {callIndex : Nat} {call : Backend.ToolCall} {s : Session}
    {pre post : List Event} {tick : Nat} {effect : Effect}
    (performed : (runCall stepId recorded callIndex call s).events = pre ++ .Performed tick effect :: post) :
    ∃ m inner rest,(dispatchToolCall call (some stepId) m).events = inner ++ .Performed tick effect :: rest ∧
      ∀ turn,recorded = some turn → ∃ opening later,sights pre = opening :: later ∧
        Entered .ToolCall (calledFields turn callIndex call) opening := by
  obtain ⟨front,inner,back,whole,dispatched,before,after,opens⟩ := runCall_parts stepId recorded callIndex call s
  have absent : .Performed tick effect ∉ front := fun member => before (.Performed tick effect) member
  have absent' : .Performed tick effect ∉ back := fun member => after (.Performed tick effect) member
  obtain ⟨rest,rfl,later⟩ := split_append absent (whole.symm.trans performed)
  rcases split_either later with ⟨last,own,-⟩ | ⟨last,-,outside⟩
  · rcases dispatched with rfl | ⟨m,rfl⟩
    · simp at own
    · refine ⟨m,rest,last,own,fun turn recording => ?_⟩
      obtain ⟨opening,seen,entered⟩ := opens turn recording
      exact ⟨opening,sights rest,by rw [sights_append,seen]; rfl,entered⟩
  · exact absurd (by rw [outside]; simp) absent'

/-- An access entry of a call is one of its dispatch. -/
theorem runCall_access {stepId : String} {recorded : Option Nat} {callIndex : Nat} {call : Backend.ToolCall} {s : Session}
    {entry : Entry} {result : Checked (Except Ledger.Error EntryRecord)}
    (member : .Append entry result ∈ (runCall stepId recorded callIndex call s).events) (access : entry.entryType = .Access) :
    ∃ m,.Append entry result ∈ (dispatchToolCall call (some stepId) m).events := by
  obtain ⟨front,inner,back,whole,dispatched,before,after,-⟩ := runCall_parts stepId recorded callIndex call s
  rw [whole,List.mem_append,List.mem_append] at member
  rcases member with first | inside | last
  · exact absurd access (before _ first)
  · rcases dispatched with rfl | ⟨m,rfl⟩
    · cases inside
    · exact ⟨m,inside⟩
  · exact absurd access (after _ last)

theorem mediated_exec {toolName : String} {args : Value} {rsid : Option String} {s : Session} {e : Event}
    (member : e ∈ (mediated args rsid (.Exec toolName) s).events) : toolName = "run" ∧ ∃ program,pathArg args "program" = .ok program ∧
      e ∈ (mediate (.Exec program (execArguments args) rsid) s).events := by
  rw [mediated,callOf] at member
  split_ifs at member with run
  · cases named : pathArg args "program" with
    | error error =>
      rw [named] at member
      cases member
    | ok program =>
      rw [named] at member
      exact ⟨run,program,rfl,member⟩
  · cases member

/-- A recorded access of a call is that of its program. -/
theorem access_fields {program : String} {argv : List String} {stepId : String} {entryType : EntryType}
    {fields : List (String × Scalar)} (written : Written (some stepId) (Targets (.Exec program argv (some stepId))) entryType fields)
    (access : entryType = .Access) : ∃ accessType bytes,fields = accessFields (execUri program) accessType bytes (some stepId) := by
  cases written with
  | Work worked =>
    cases worked with
    | Access bytes own =>
      obtain ⟨rfl,-⟩ := own
      exact ⟨_,bytes,rfl⟩
    | Denial reason own => cases access
    | Drift mismatch => cases access
    | Breach breach own => cases access
  | Approval approved => cases approved <;> cases access

theorem dispatch_accounts {call : Backend.ToolCall} {toolName stepId : String} (routed : routeOf call.name = some (.Exec toolName))
    (wellFormed : WellFormed toolName call.arguments) {s : Session} {entry : Entry} {result : Checked (Except Ledger.Error EntryRecord)}
    (member : .Append entry result ∈ (dispatchToolCall call (some stepId) s).events) (access : entry.entryType = .Access) :
    ∃ program argv,Requests call.arguments program argv ∧ ∃ accessType bytes,
      entry.payload = payloadOf (accessFields (execUri program) accessType bytes (some stepId)) := by
  rw [dispatch_events routed] at member
  obtain ⟨rfl,program,named,inside⟩ := mediated_exec member
  obtain ⟨fields,written,payload⟩ := records_mediate _ s _ inside
  obtain ⟨accessType,bytes,rfl⟩ := access_fields written access
  exact ⟨program,_,requests_wellFormed wellFormed named,accessType,bytes,payload⟩

/-! ### Calls that are honoured -/

theorem dispatch_executes {call : Backend.ToolCall} {toolName : String} {rsid : Option String} (routed : routeOf call.name = some (.Exec toolName))
    (wellFormed : WellFormed toolName call.arguments) {s : Session} {pre post : List Event} {tick : Nat} {effect : Effect}
    (performed : (dispatchToolCall call rsid s).events = pre ++ .Performed tick effect :: post) :
    ∃ program argv,toolName = "run" ∧ Requests call.arguments program argv ∧ effect = .Spawn program argv := by
  rw [dispatch_events routed] at performed
  obtain ⟨rfl,program,named,-⟩ := mediated_exec (e := .Performed tick effect) (by rw [performed]; simp)
  rw [mediated,callOf,if_pos rfl,named] at performed
  obtain ⟨_,_,_,-,mediated⟩ := Mediation.mediate_mediated performed
  exact ⟨program,_,rfl,requests_wellFormed wellFormed named,(Option.some.inj mediated.effect).symm⟩

/-- What cannot be a call is told to be unroutable. -/
theorem dispatch_refuses {call : Backend.ToolCall} {toolName : String} {rsid : Option String} (routed : routeOf call.name = some (.Exec toolName))
    (wellFormed : WellFormed toolName call.arguments) (unasked : ¬ ∃ program argv,toolName = "run" ∧ Requests call.arguments program argv)
    {s t : Session} {outcome : ToolCallOutcome} {events : List Event} (runs : Runs (dispatchToolCall call rsid) s outcome t events) :
    ∃ reason,outcome.result = .Unroutable reason := by
  obtain ⟨name,uncalled⟩ : ∃ name,callOf call.arguments rsid (.Exec toolName) = .error (.UnroutableToolCall name) := by
    cases called : callOf call.arguments rsid (.Exec toolName) with
    | error error =>
      obtain ⟨name,rfl⟩ := callOf_error called
      exact ⟨name,rfl⟩
    | ok other =>
      rw [callOf] at called
      split_ifs at called with run
      subst run
      cases named : pathArg call.arguments "program" with
      | error error =>
        rw [named] at called
        cases called
      | ok program => exact absurd ⟨program,_,rfl,requests_wellFormed wellFormed named⟩ unasked
  have stops : Stops (mediated call.arguments rsid (.Exec toolName)) s (.Err (.UnroutableToolCall name)) s [] := by
    rw [mediated,uncalled]
    exact stops_deny.mpr ⟨rfl,rfl,rfl⟩
  have attempted : Runs (attempt caught (runRoute call.arguments rsid (.Exec toolName))) s (.error (.UnroutableToolCall name)) s [] :=
    runs_attempt_error.mpr ⟨_,rfl,(runRoute_alike call.arguments rsid (.Exec toolName)).symm.stops stops⟩
  rw [dispatchToolCall,routed] at runs
  obtain ⟨dispatched,_,_,_,tried,told,-⟩ := runs_bind.mp runs
  cases attempted.symm.trans tried
  obtain ⟨result,_,_,_,tells,returned,-⟩ := runs_bind.mp told
  obtain ⟨rfl,-,-⟩ := runs_pure.mp tells
  obtain ⟨rfl,-,-⟩ := runs_pure.mp returned
  exact ⟨_,rfl⟩

theorem runCall_dispatches {stepId : String} {recorded : Option Nat} {callIndex : Nat} {call : Backend.ToolCall} {s t : Session}
    {outcome : ToolCallOutcome} {events : List Event} (runs : Runs (runCall stepId recorded callIndex call) s outcome t events) :
    ∃ a b inner,Runs (dispatchToolCall call (some stepId)) a outcome b inner := by
  cases recorded with
  | none => exact ⟨s,t,events,runs⟩
  | some turn =>
    obtain ⟨_,m,_,_,-,later,-⟩ := runs_bind.mp runs
    obtain ⟨found,u,inner,_,dispatched,closes,-⟩ := runs_bind.mp later
    obtain ⟨_,_,_,_,-,returned,-⟩ := runs_bind.mp closes
    obtain ⟨rfl,-,-⟩ := runs_pure.mp returned
    exact ⟨m,u,inner,dispatched⟩

end

theorem wellFormed_faithful {toolName : String} {args : Value} (wellFormed : WellFormed toolName args) : Faithful toolName args := by
  intro _ _ _ _ _ s stepId recorded callIndex name routed
  refine ⟨?_,?_,?_⟩
  · intro pre tick effect post performed
    obtain ⟨m,inner,rest,dispatched,opens⟩ := runCall_split performed
    obtain ⟨program,argv,run,requests,same⟩ := @dispatch_executes _ _ _ _ _ ⟨name,args⟩ _ _ routed wellFormed _ _ _ _ _ dispatched
    exact ⟨program,argv,run,requests,same,opens⟩
  · intro entry result member access
    obtain ⟨m,inside⟩ := runCall_access member access
    exact @dispatch_accounts _ _ _ _ _ ⟨name,args⟩ _ _ routed wellFormed _ _ _ inside access
  · intro unasked outcome t events runs
    obtain ⟨a,b,inner,dispatched⟩ := runCall_dispatches runs
    exact @dispatch_refuses _ _ _ _ _ ⟨name,args⟩ _ _ routed wellFormed unasked _ _ _ _ dispatched

/-! ### Calls that are not -/

section
open scoped Reference

def runName : String := "exec__run"

theorem runName_routed : routeOf runName = some (.Exec "run") := by decide

theorem malformed_unrequested {args : Value} (malformed : ¬ WellFormed "run" args) : ¬ ∃ program argv,"run" = "run" ∧ Requests args program argv := by
  rintro ⟨program,argv,-,requests⟩
  rcases requests.listed with ⟨absent,-⟩ | listed
  · exact malformed (.inr (.inr (.inl absent)))
  · exact malformed (.inr (.inr (.inr ⟨argv,listed⟩)))

theorem pathArg_of_named {args : Value} {key path : String} (named : getField args key = some (.String path)) :
    pathArg args key = .ok path := by
  rw [pathArg,named]
  rfl

/-- A session that grants no program denies the call, and does not tell that it is
    unroutable. -/
theorem closed_denies {args : Value} {program : String} (named : getField args "program" = some (.String program)) :
    let _ := Reference.calmWorld closed
    ∃ s outcome t events reason,Runs (dispatchToolCall ⟨runName,args⟩ (some "step")) s outcome t events ∧ outcome.result = .Denied reason := by
  intro world
  obtain ⟨booted,boots,fresh,ready⟩ := Reference.calm_boots closed rfl rfl
  have steady := fresh.steady (fun _ _ => rfl) none none
  have policy : (attach booted none none).policy = closed := fresh.policy
  have denies : checkExec (attach booted none none).policy program = .Deny ("exec of " ++ program ++ " not granted by manifest") := by
    rw [policy]
    rfl
  obtain ⟨t,events,_,_,stops,-⟩ := mediateExec_denies (some "step") (execArguments args) steady
    ((ready.attach none none).fewer (by decide : 1 ≤ 100)) denies
  have mediates := (alike_return (mediateExec program (execArguments args) (some "step")) fun _ => ()).symm.stops stops
  have called : callOf args (some "step") (.Exec "run") = .ok (.Exec program (execArguments args) (some "step")) := by
    rw [callOf,if_pos rfl,pathArg_of_named named]
    rfl
  exact ⟨_,_,_,_,_,@dispatch_stops _ _ _ _ _ ⟨runName,args⟩ _ _ _ _ _ _ _ _ runName_routed called mediates rfl,rfl⟩

/-- Arguments are honoured in every session just when they are well-formed. -/
theorem exec_faithful_iff (toolName : String) (args : Value) : Faithful toolName args ↔ WellFormed toolName args := by
  constructor
  · intro faithful
    by_contra malformed
    have run : toolName = "run" := by
      by_contra other
      exact malformed (.inl other)
    subst run
    obtain ⟨program,named⟩ : ∃ program,getField args "program" = some (.String program) := by
      by_contra unnamed
      exact malformed (.inr (.inl fun program named => unnamed ⟨program,named⟩))
    let _ := Reference.calmWorld closed
    obtain ⟨s,outcome,t,events,reason,runs,denied⟩ := closed_denies named
    obtain ⟨told,unroutable⟩ := (faithful s "step" none 0 runName runName_routed).refuses (malformed_unrequested malformed) runs
    rw [denied] at unroutable
    cases unroutable
  · exact wellFormed_faithful

/-- A manifest that grants one program. -/
def removing : Manifest := { closed with execGrants := [⟨"/bin/rm",none⟩] }

/-- A number between two texts. -/
def mixedArgs : Value :=
  .Object [("args",.Array [.String "--",.Number (.PosInt 5),.String "/tmp/a"]),("program",.String "/bin/rm")]

theorem permits_execRun [World] {s : Session} {program : String} (allowed : checkExec s.policy program = .Allow) (argv : List String) :
    Permits (execRun program argv) s := by
  refine ⟨?_,?_⟩
  · rintro t ⟨n,rfl⟩
    exact ⟨_,[],runs_reads.mpr ⟨allowed.symm,rfl,rfl⟩,asked_refl _,by simp⟩
  · rintro t ⟨n,rfl⟩
    refine ⟨execUri program,_,?_,runs_pure.mpr ⟨rfl,rfl,rfl⟩,asked_refl _⟩
    intro empty
    have length := congrArg String.length empty
    rw [execUri,String.length_append] at length
    change 7+program.length = 0 at length
    omega

/-- The number is dropped, and the program runs without it. -/
theorem number_dropped : ¬ ∀ toolName args,Faithful toolName args := by
  intro every
  let _ := Reference.calmWorld removing
  obtain ⟨booted,boots,fresh,ready⟩ := Reference.calm_boots removing rfl rfl
  have steady := fresh.steady (fun _ _ => rfl) none none
  have policy : (attach booted none none).policy = removing := fresh.policy
  have permits : Permits (execRun "/bin/rm" ["--","/tmp/a"]) (attach booted none none) :=
    permits_execRun (by rw [policy]; decide) _
  have room : Room (attach booted none none) .Exec ((∅ : Aggregate.SessionAggregateState).insert .Exec 1) := by
    refine ⟨1,?_⟩
    rw [policy,show (attach booted none none).aggregateState = ∅ from fresh.counts]
    rfl
  obtain ⟨value,t,before,tick,after,runs,-⟩ := mediateGated_runs steady permits room (fun _ => ⟨_,rfl⟩)
    ((ready.attach none none).fewer (by decide : 1 ≤ 100)) (some "step")
  have performed : (runCall "step" none 0 ⟨runName,mixedArgs⟩ (attach booted none none)).events =
      before ++ .Performed tick (.Spawn "/bin/rm" ["--","/tmp/a"]) :: after := by
    change (dispatchToolCall ⟨runName,mixedArgs⟩ (some "step") _).events = _
    rw [@dispatch_events _ _ _ _ _ ⟨runName,mixedArgs⟩ _ runName_routed]
    change (mediate (.Exec "/bin/rm" ["--","/tmp/a"] (some "step")) _).events = _
    rw [mediate,bind_pure_events.1]
    exact runs.events
  obtain ⟨program,argv,-,requests,-⟩ := (every "run" mixedArgs _ "step" none 0 runName runName_routed).executes performed
  rcases requests.listed with ⟨absent,-⟩ | listed
  · cases absent
  · have items := Value.Array.inj (Option.some.inj listed)
    rcases argv with _ | ⟨first,_ | ⟨second,rest⟩⟩
    · cases items
    · cases (List.cons.inj items).2
    · cases (List.cons.inj (List.cons.inj items).2).1

end

end AegisNode.ExecArguments
