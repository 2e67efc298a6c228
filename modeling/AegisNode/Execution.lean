import AegisNode.Attestation
import AegisNode.TurnEvents
import AegisNode.Ui

/-!
`aegis run`: a session boots, is driven by a script or by a model, and is shut down.
An execution that fails on the way is not shut down.
-/
namespace AegisNode.Execution
open Clock Json Schema Policy Traced Adversarial Backend Engine Mediator Frames Entries TurnLoop TurnEvents Chronicle
  Attestation
open Ui (Surroundings BackendKind defaultIdentityDir mapError_ok)
open Ledger hiding Error bind_ok
set_option linter.unusedSectionVars false

/-! ### Arguments -/

structure RunArgs where
  manifest : String
  model : String
  config : Option String
  chatTemplateSidecar : Option String
  identityDir : Option String
  workload : String
  instanceName : String
  ledger : Option String
  sessionId : Option String
  script : Option String
  prompt : Option String
  backend : BackendKind
  maxTurns : UInt32
  maxTokens : UInt64
  maxSeconds : UInt64

/-- `Call` of a script; its protocol is a text. -/
inductive ScriptCall where
  | FilesystemRead (path : String) (reasoningStepId : Option String)
  | FilesystemWrite (path contents : String) (reasoningStepId : Option String)
  | FilesystemDelete (path : String) (reasoningStepId : Option String)
  | NetworkOutbound (host : String) (port : UInt16) (protocol : String) (reasoningStepId : Option String)
  | Exec (program : String) (args : List String) (reasoningStepId : Option String)
  deriving DecidableEq,Repr

/-- What lies outside an execution, with what `load_script` makes of a path. -/
structure RunSurroundings extends Surroundings where
  loadScript : (path : String) → Except String (List ScriptCall)

/-- Where an execution fails. -/
inductive Failure where
  | NoDriver
  | NoConfigDir
  | Boot (stop : Stop)
  | LoadScript (detail : String)
  | LoadBackend (detail : String)
  | UnknownProtocol (protocol : String)
  | Mediation (error : Error)
  | SessionRun (error : Error)
  | Shutdown (error : Error)
  | Verify (error : VerifyError)
  | Panic (panic : Panic)

structure RunOutcome where
  sessionId : String
  ledgerPath : String
  rootHashHex : String
  entryCount : UInt64
  halted : Bool
  haltReason : Option String

/-! ### Driving a session -/

abbrev Driven := Prog Session Failure Event

def failureOf (wrap : Error → Failure) : Stop → Failure
  | .Err error => wrap error
  | .Panic panic => .Panic panic

/-- The errors of a part become those of the execution. -/
def within {α : Type} (wrap : Error → Failure) (p : Run α) : Driven α := fun s =>
  ⟨(p s).result.mapError (failureOf wrap),(p s).state,(p s).events⟩

def parseProto : String → Except Failure NetworkProto
  | "http" => .ok .Http
  | "https" => .ok .Https
  | "tcp" => .ok .Tcp
  | "udp" => .ok .Udp
  | "any" => .ok .Any
  | other => .error (.UnknownProtocol other)

def callOf : ScriptCall → Except Failure Call
  | .FilesystemRead path rsid => .ok (.FilesystemRead path rsid)
  | .FilesystemWrite path contents rsid => .ok (.FilesystemWrite path (Bytes.encode contents) rsid)
  | .FilesystemDelete path rsid => .ok (.FilesystemDelete path rsid)
  | .NetworkOutbound host port protocol rsid => (parseProto protocol).map (fun proto => .NetworkConnect host port proto rsid)
  | .Exec program args rsid => .ok (.Exec program args rsid)

/-- `Halt`, without the failures that end the execution. -/
inductive Halt where
  | Continue
  | Stop (reason : String)

def haltOf : Stop → Option Halt
  | .Err (.Denied _) => some .Continue
  | .Err (.Policy (.IdentityRebind mismatch)) =>
    some (.Stop ("identity rebind violation on " ++ mismatch.field.name ++ " digest"))
  | .Err (.RequireApproval reason) => some (.Stop ("approval required (F0-D not wired in Phase 1a): " ++ reason))
  | _ => none

def capTripped : Stop → Option TurnCapKind
  | .Err (.TurnCapExceeded bound _ _ _ _ _ _) => some bound
  | _ => none

section
variable [Chrono] [Serde] [Sha256] [Identity] [World] [PerlWord]

def dispatch (call : ScriptCall) : Driven (Except Halt Unit) := do
  let mediated ← ofExcept (callOf call)
  within .Mediation (attempt haltOf (mediate mediated))

def runCalls : List ScriptCall → Driven (Bool × Option String)
  | [] => return (false,none)
  | call :: rest => do
    match ← dispatch call with
    | .ok () => runCalls rest
    | .error .Continue => runCalls rest
    | .error (.Stop reason) => return (true,some reason)

def runScript (script : Except String (List ScriptCall)) : Driven (Bool × Option String) := do
  let calls ← ofExcept (script.mapError .LoadScript)
  runCalls calls

def runPrompt (loads : Session → Except String LoadedModel) (prompt : String) (limits : TurnLimits) :
    Driven (Bool × Option String) := do
  let loading ← reads loads
  let loaded ← ofExcept (loading.mapError .LoadBackend)
  update (fun s => setLoadedModel s loaded)
  match ← within .SessionRun (attempt capTripped (run prompt limits)) with
  | .ok _ => return (false,none)
  | .error bound => return (true,some ("turn cap exceeded (" ++ capText bound ++ ")"))

end

def RunArgs.limits (args : RunArgs) : TurnLimits := ⟨args.maxTurns,args.maxTokens,args.maxSeconds⟩

def sessionIdOf (around : RunSurroundings) (args : RunArgs) : String := args.sessionId.getD ("session-" ++ around.uuidV7Like)

def ledgerPathOf (around : RunSurroundings) (args : RunArgs) : String :=
  args.ledger.getD ("ledger-" ++ sessionIdOf around args ++ ".jsonl")

section
variable [Chrono] [Serde] [Sha256] [PerlWord]

/-- The prompt goes before the script. -/
def drive (around : RunSurroundings) (args : RunArgs) : Driven (Bool × Option String) :=
  let _ := around.world
  let _ := around.x509
  let _ := LocalCa.identity
  match args.prompt,args.script with
  | some prompt,_ => runPrompt (around.loadBackend args.backend · args.model) prompt args.limits
  | none,some script => runScript (around.loadScript script)
  | none,none => fail .NoDriver

/-- What follows the boot; at last the file is verified. -/
def conduct (around : RunSurroundings) (args : RunArgs) : Driven RunOutcome := do
  let _ := around.world
  let driven ← drive around args
  let rootHash ← within .Shutdown shutdown
  let file ← reads (fun s => s.ledger.file.disk)
  let summary ← ofExcept ((verifyReader file).mapError .Verify)
  return ⟨sessionIdOf around args,ledgerPathOf around args,Bytes.hexEncode rootHash.bytes,summary.entryCount,driven.1,driven.2⟩

def runConfig (around : RunSurroundings) (args : RunArgs) (identityDir : String) : BootConfig where
  sessionId := sessionIdOf around args
  manifestPath := args.manifest
  modelPath := args.model
  configPath := args.config
  chatTemplateSidecar := args.chatTemplateSidecar
  identityDir := identityDir
  workloadName := args.workload
  instanceName := args.instanceName
  ledgerPath := ledgerPathOf around args
  ledgerSchema := none

def runIdentityDir (around : RunSurroundings) (args : RunArgs) : Except Failure String :=
  match args.identityDir with
  | some dir => .ok dir
  | none => (defaultIdentityDir around.toSurroundings).mapError (fun _ => .NoConfigDir)

/-- The boot, and what is attached to the session. -/
def start (around : RunSurroundings) (args : RunArgs) : Except Failure Session := do
  let _ := around.world
  let _ := around.x509
  let _ := LocalCa.identity
  if args.script = none ∧ args.prompt = none then .error .NoDriver
  else do
    let dir ← runIdentityDir around args
    let booted ← (boot (runConfig around args dir)).mapError .Boot
    let client := if booted.policy.tools.mcp = [] then none else some around.stdioMcpClient
    return attach booted around.approvalFile client

/-- `execute`: its failure up to the boot, or the session that went on and what came of
    it. -/
def execute (around : RunSurroundings) (args : RunArgs) :
    Except Failure (Session × Outcome Session Failure Event RunOutcome) := do
  let session ← start around args
  return (session,conduct around args session)

end

/-! ### The property -/

/-- The last entries of the ledger are the attestation and the end of the session. -/
def Ended (events : List Event) : Prop :=
  ∃ before attestation ending,appended events = before ++ [attestation,ending] ∧
    attestation.entryType = .NetworkAttestation ∧ ending.entryType = .SessionEnd

/-- The script goes on after the call. -/
def Passes (result : Except Stop Unit) : Prop := result = .ok () ∨ ∃ reason,result = .error (.Err (.Denied reason))

/-- The script is left after the call, without an error. -/
def Halts (result : Except Stop Unit) : Prop :=
  (∃ mismatch,result = .error (.Err (.Policy (.IdentityRebind mismatch)))) ∨
    ∃ reason,result = .error (.Err (.RequireApproval reason))

/-- The turns are done, or a bound stops them. -/
def Stays {α : Type} (result : Except Stop α) : Prop :=
  (∃ a,result = .ok a) ∨ ∃ stop bound,result = .error stop ∧ capTripped stop = some bound

section
variable [Chrono] [Serde] [Sha256] [Identity] [World] [PerlWord]

/-- No call that the script comes to names an unknown protocol or ends in an error but a
    denial, an identity rebind or a required approval. -/
def Carries : List ScriptCall → Session → Prop
  | [],_ => True
  | call :: rest,s => ∃ mediated,callOf call = .ok mediated ∧
    (Halts (mediate mediated s).result ∨ Passes (mediate mediated s).result ∧ Carries rest (mediate mediated s).state)

end

/-- The model or the script can be loaded, and no error but those that are caught comes
    back. -/
def Survives [Chrono] [Serde] [Sha256] [PerlWord] (around : RunSurroundings) (args : RunArgs) (s : Session) : Prop :=
  let _ := around.world
  let _ := around.x509
  let _ := LocalCa.identity
  match args.prompt,args.script with
  | some prompt,_ => ∃ loaded,around.loadBackend args.backend s args.model = .ok loaded ∧
      Stays (run prompt args.limits (setLoadedModel s loaded)).result
  | none,some script => ∃ calls,around.loadScript script = .ok calls ∧ Carries calls s
  | none,none => False

/-! ### How an execution is driven -/

section
variable {α β : Type} {x : Except Failure α} {f : α → Driven β} {wrap : Error → Failure} {p : Run α} {s t : Session}
  {events : List Event}

theorem ofExcept_bind_ok {b : β} :
    ((ofExcept x >>= f) s).result = .ok b ↔ ∃ a,x = .ok a ∧ (f a s).result = .ok b := by
  cases x with
  | error failure =>
    rw [bind_error (show (ofExcept (.error failure) s : Outcome Session Failure Event α).result = .error failure from rfl)]
    simp
  | ok a =>
    rw [bind_ok (show (ofExcept (.ok a) s : Outcome Session Failure Event α).result = .ok a from rfl)]
    simp only [Except.ok.injEq,exists_eq_left']
    rfl

theorem within_runs {a : α} (runs : Runs p s a t events) : within wrap p s = ⟨.ok a,t,events⟩ := by
  rw [within,runs.result,runs.state,runs.events]
  rfl

theorem within_stops {stop : Stop} (stops : Stops p s stop t events) : within wrap p s = ⟨.error (failureOf wrap stop),t,events⟩ := by
  rw [within,stops.result,stops.state,stops.events]
  rfl

end

/-- An error of a call lets the script go on, halts it, or ends the execution. -/
theorem haltOf_cases (stop : Stop) :
    (haltOf stop = some .Continue ∧ Passes (.error stop) ∧ ¬ Halts (.error stop)) ∨
    (∃ reason,haltOf stop = some (.Stop reason) ∧ Halts (.error stop)) ∨
    haltOf stop = none ∧ ¬ Passes (.error stop) ∧ ¬ Halts (.error stop) := by
  unfold haltOf
  split
  · exact .inl ⟨rfl,.inr ⟨_,rfl⟩,by simp [Halts]⟩
  · exact .inr (.inl ⟨_,rfl,.inl ⟨_,rfl⟩⟩)
  · exact .inr (.inl ⟨_,rfl,.inr ⟨_,rfl⟩⟩)
  · rename_i denied drifted required
    refine .inr (.inr ⟨rfl,?_,?_⟩)
    · rintro (done | ⟨reason,same⟩)
      · cases done
      · cases same
        exact denied _ rfl
    · rintro (⟨mismatch,same⟩ | ⟨reason,same⟩)
      · cases same
        exact drifted _ rfl
      · cases same
        exact required _ rfl

section
variable [Chrono] [Serde] [Sha256] [Identity] [World] [PerlWord]

/-- What the script makes of the result of a call. -/
def answerOf : Except Stop Unit → Except Failure (Except Halt Unit)
  | .ok () => .ok (.ok ())
  | .error stop =>
    match haltOf stop with
    | some halt => .ok (.error halt)
    | none => .error (failureOf .Mediation stop)

theorem dispatch_eq {call : ScriptCall} {mediated : Call} (named : callOf call = .ok mediated) (s : Session) :
    dispatch call s = ⟨answerOf (mediate mediated s).result,(mediate mediated s).state,(mediate mediated s).events⟩ := by
  have first : (ofExcept (callOf call) s : Outcome Session Failure Event Call) = ⟨.ok mediated,s,[]⟩ := by rw [named]; rfl
  rw [dispatch,bind_ok (show (ofExcept (callOf call) s : Outcome Session Failure Event Call).result = .ok mediated by rw [first]),
    first]
  cases ended : (mediate mediated s).result with
  | ok done =>
    rw [within_runs (runs_attempt_ok.mpr (runs_of_result ended))]
    rfl
  | error stop =>
    rw [answerOf]
    cases caught : haltOf stop with
    | none =>
      rw [within_stops (stops_attempt.mpr ⟨caught,stops_of_result ended⟩)]
      rfl
    | some halt =>
      rw [within_runs (runs_attempt_error.mpr ⟨stop,caught,stops_of_result ended⟩)]
      rfl

theorem dispatch_unknown {call : ScriptCall} {failure : Failure} (named : callOf call = .error failure) (s : Session) :
    dispatch call s = ⟨.error failure,s,[]⟩ := by
  have first : (ofExcept (callOf call) s : Outcome Session Failure Event Call) = ⟨.error failure,s,[]⟩ := by rw [named]; rfl
  rw [dispatch,bind_error (show (ofExcept (callOf call) s : Outcome Session Failure Event Call).result = .error failure by rw [first]),
    first]

theorem runCalls_ok (calls : List ScriptCall) (s : Session) : (∃ v,(runCalls calls s).result = .ok v) ↔ Carries calls s := by
  induction calls generalizing s with
  | nil => exact ⟨fun _ => trivial,fun _ => ⟨_,rfl⟩⟩
  | cons call rest ih =>
    rw [runCalls,Carries]
    cases named : callOf call with
    | error failure =>
      rw [bind_error (congrArg Outcome.result (dispatch_unknown named s))]
      simp
    | ok mediated =>
      have whole := dispatch_eq named s
      simp only [Except.ok.injEq,exists_eq_left']
      cases ended : (mediate mediated s).result with
      | ok done =>
        rw [ended,answerOf] at whole
        rw [bind_ok (congrArg Outcome.result whole),whole]
        have halts : ¬ Halts (.ok done) := by simp [Halts]
        exact (ih _).trans ⟨fun carried => .inr ⟨.inl rfl,carried⟩,fun either => (either.resolve_left halts).2⟩
      | error stop =>
        rw [ended,answerOf] at whole
        rcases haltOf_cases stop with ⟨caught,passes,halts⟩ | ⟨reason,caught,halts⟩ | ⟨uncaught,passes,halts⟩
        · rw [caught] at whole
          rw [bind_ok (congrArg Outcome.result whole),whole]
          exact (ih _).trans ⟨fun carried => .inr ⟨passes,carried⟩,fun either => (either.resolve_left halts).2⟩
        · rw [caught] at whole
          rw [bind_ok (congrArg Outcome.result whole),whole]
          exact ⟨fun _ => .inl halts,fun _ => ⟨_,rfl⟩⟩
        · rw [uncaught] at whole
          rw [bind_error (congrArg Outcome.result whole)]
          constructor
          · rintro ⟨v,impossible⟩
            cases impossible
          · rintro (halted | ⟨passed,-⟩)
            · exact absurd halted halts
            · exact absurd passed passes

theorem runPrompt_ok (loads : Session → Except String LoadedModel) (prompt : String) (limits : TurnLimits) (s : Session) :
    (∃ v,(runPrompt loads prompt limits s).result = .ok v) ↔
      ∃ loaded,loads s = .ok loaded ∧ Stays (run prompt limits (setLoadedModel s loaded)).result := by
  rw [runPrompt,reads_bind]
  simp only [ofExcept_bind_ok,mapError_ok]
  rw [exists_comm]
  refine exists_congr fun loaded => ?_
  rw [exists_and_left]
  refine and_congr_right fun _ => ?_
  have set : (update (fun s => setLoadedModel s loaded) s : Outcome Session Failure Event Unit) =
      ⟨.ok (),setLoadedModel s loaded,[]⟩ := rfl
  simp only [bind_ok (congrArg Outcome.result set),set]
  cases ended : (run prompt limits (setLoadedModel s loaded)).result with
  | ok result =>
    have whole : within .SessionRun (attempt capTripped (run prompt limits)) (setLoadedModel s loaded) = _ :=
      within_runs (runs_attempt_ok.mpr (runs_of_result ended))
    simp only [bind_ok (congrArg Outcome.result whole)]
    exact ⟨fun _ => .inl ⟨_,rfl⟩,fun _ => ⟨_,rfl⟩⟩
  | error stop =>
    cases caught : capTripped stop with
    | some bound =>
      have whole : within .SessionRun (attempt capTripped (run prompt limits)) (setLoadedModel s loaded) = _ :=
        within_runs (runs_attempt_error.mpr ⟨stop,caught,stops_of_result ended⟩)
      simp only [bind_ok (congrArg Outcome.result whole)]
      exact ⟨fun _ => .inr ⟨stop,bound,rfl,caught⟩,fun _ => ⟨_,rfl⟩⟩
    | none =>
      have whole : within .SessionRun (attempt capTripped (run prompt limits)) (setLoadedModel s loaded) = _ :=
        within_stops (stops_attempt.mpr ⟨caught,stops_of_result ended⟩)
      simp only [bind_error (congrArg Outcome.result whole)]
      constructor
      · rintro ⟨v,impossible⟩
        cases impossible
      · rintro (⟨_,done⟩ | ⟨_,bound,same,tripped⟩)
        · cases done
        · cases same
          rw [caught] at tripped
          cases tripped

end

theorem drive_ok [Chrono] [Serde] [Sha256] [PerlWord] (around : RunSurroundings) (args : RunArgs) (s : Session) :
    (∃ v,(drive around args s).result = .ok v) ↔ Survives around args s := by
  let _ := around.world
  let _ := around.x509
  let _ := LocalCa.identity
  rw [drive,Survives]
  cases args.prompt with
  | some prompt => exact runPrompt_ok _ prompt args.limits s
  | none =>
    cases args.script with
    | none =>
      constructor
      · rintro ⟨v,impossible⟩
        cases impossible
      · exact False.elim
    | some script =>
      change (∃ v,(runScript (around.loadScript script) s).result = .ok v) ↔ _
      simp only [runScript,ofExcept_bind_ok,mapError_ok]
      rw [exists_comm]
      refine exists_congr fun calls => ?_
      rw [exists_and_left]
      exact and_congr_right fun _ => runCalls_ok calls s

/-! ### What is written -/

/-- No entry of the end of a session. -/
def Unclosing : Event → Prop
  | .Append entry _ => entry.entryType ≠ .SessionEnd
  | _ => True

section
variable [Chrono] [Serde] [Sha256] [Identity] [World]

theorem leaving_unclosing (v2 : Bool) : LeavingRuns v2 Unclosing where
  unwritten e unwritten := by cases e <;> trivial
  noted _ _ _ noted _ := noted.inTurn.2.2
  issued _ := by
    intros
    trivial
  inferred _ _ := trivial
  capped _ _ violates ends := by cases violates.symm.trans ends

theorem unclosing_mediate (call : Call) : Respects (Each Unclosing) (mediate call) :=
  (leaving_unclosing false).records .Called (records_mediate call)

variable [PerlWord]

theorem unclosing_runCalls (calls : List ScriptCall) : Respects (Each Unclosing) (runCalls calls) := by
  induction calls with
  | nil => exact respects_pure (each_composes _) _
  | cons call rest ih =>
    refine each_bind ?_ fun answer => ?_
    · exact each_bind (respects_ofExcept (each_composes _) _) fun mediated => respects_attempt (unclosing_mediate mediated)
    · match answer with
      | .ok () => exact ih
      | .error .Continue => exact ih
      | .error (.Stop reason) => exact respects_pure (each_composes _) _

theorem unclosing_runPrompt (loads : Session → Except String LoadedModel) (prompt : String) (limits : TurnLimits) :
    Respects (Each Unclosing) (runPrompt loads prompt limits) := by
  refine each_bind (respects_reads (each_composes _) _) fun loading => ?_
  refine each_bind (respects_ofExcept (each_composes _) _) fun loaded => ?_
  refine each_bind (fun s e member => by cases member) fun _ => ?_
  refine each_bind ?_ fun ended => ?_
  · have ran : Respects (Each Unclosing) (run prompt limits) := fun s => leaving_run (leaving_unclosing _) prompt limits
    show Respects (Each Unclosing) (attempt capTripped (run prompt limits))
    exact respects_attempt ran
  · cases ended <;> exact respects_pure (each_composes _) _

end

section
variable [Chrono] [Serde] [Sha256] [PerlWord]

theorem unclosing_drive (around : RunSurroundings) (args : RunArgs) : Respects (Each Unclosing) (drive around args) := by
  let _ := around.world
  let _ := around.x509
  let _ := LocalCa.identity
  unfold drive
  cases args.prompt with
  | some prompt => exact unclosing_runPrompt _ prompt args.limits
  | none =>
    cases args.script with
    | none => exact respects_fail (each_composes _) _
    | some script => exact each_bind (respects_ofExcept (each_composes _) _) fun calls => unclosing_runCalls calls

end

/-- What ends without the end of the session is not closed. -/
theorem unended {events : List Event} (unclosing : ∀ e ∈ events,Unclosing e) : ¬ Ended events := by
  rintro ⟨before,attestation,ending,whole,-,ends⟩
  have member : ending ∈ appended events := by rw [whole]; simp
  obtain ⟨e,among,handed⟩ := List.mem_filterMap.mp member
  cases e with
  | Append entry result =>
    cases handed
    exact unclosing _ among ends
  | _ => cases handed

section
variable [Chrono] [Serde] [Sha256] [World]

/-- An entry that is not taken is not clean. -/
theorem stamped_clean {wrap : Ledger.Error → Error} {entryType : EntryType} {payload : Payload} {s : Session}
    (clean : Clean ((utcNow >>= fun now => emit wrap entryType now payload) s).events) :
    ∃ t now entry record,Runs (utcNow >>= fun now => emit wrap entryType now payload) s () t
      [.UtcNow now,.Append entry (.ok (.ok record))] ∧ entry.entryType = entryType := by
  rcases stamped_cases wrap entryType payload s with ⟨t,record,runs⟩ | ⟨stop,t,result,stops,untaken⟩
  · exact ⟨t,_,_,record,runs,rfl⟩
  · rw [stops.events] at clean
    obtain ⟨record,taken⟩ := clean _ result (List.mem_cons_of_mem _ List.mem_cons_self)
    exact absurd taken (untaken record)

/-- A shutdown whose entries are taken ends the ledger, even if it cannot be closed. -/
theorem shutdown_ends {s : Session} (clean : Clean (shutdown s).events) : Ended (shutdown s).events := by
  have attests : emitNetworkAttestation s = (utcNow >>= fun now => emit .Ledger .NetworkAttestation now
      (payloadOf (attestationFields s.svidKeyPem s.networkLog))) s := by rw [emitNetworkAttestation,reads_bind,reads_bind]
  obtain ⟨later,first⟩ := bind_events emitNetworkAttestation (fun _ => do
    let spiffeUri ← reads (·.spiffeUri)
    let now ← utcNow
    emit .Ledger .SessionEnd now (payloadOf [("spiffeId",.Text spiffeUri)])
    closeLedger) s
  obtain ⟨t,read,attestation,record,runs,kind⟩ := stamped_clean (show Clean _ by
    rw [← attests]
    exact (clean_append.mp (first ▸ clean)).1)
  have attested : Runs emitNetworkAttestation s () t [.UtcNow read,.Append attestation (.ok (.ok record))] := attests.trans runs
  rw [shutdown,bind_ok attested.result,attested.state,attested.events,reads_bind,← bind_assoc] at clean ⊢
  dsimp only at clean ⊢
  have second := (clean_append.mp clean).2
  obtain ⟨last,ends⟩ := bind_events (utcNow >>= fun now => emit .Ledger .SessionEnd now
    (payloadOf [("spiffeId",.Text t.spiffeUri)])) (fun _ => closeLedger) t
  obtain ⟨u,read',ending,record',runs',kind'⟩ := stamped_clean (clean_append.mp (ends ▸ second)).1
  rw [bind_ok runs'.result,runs'.events]
  exact ⟨[],attestation,ending,rfl,kind,kind'⟩

end

section
variable [Chrono] [Serde] [Sha256] [PerlWord]

/-- After the driving comes the shutdown; the file is verified without writing to it. -/
theorem conduct_events (around : RunSurroundings) (args : RunArgs) {s : Session} {driven : Bool × Option String}
    (drives : (drive around args s).result = .ok driven) :
    let _ := around.world
    (conduct around args s).events = (drive around args s).events ++ (shutdown (drive around args s).state).events := by
  intro world
  rw [conduct,bind_ok drives]
  dsimp only
  refine congrArg ((drive around args s).events ++ ·) ?_
  generalize (drive around args s).state = m
  cases ended : (shutdown m).result with
  | error stop =>
    have whole : within .Shutdown shutdown m = _ := within_stops (stops_of_result ended)
    rw [bind_error (congrArg Outcome.result whole),whole]
  | ok rootHash =>
    have whole : within .Shutdown shutdown m = _ := within_runs (runs_of_result ended)
    rw [bind_ok (congrArg Outcome.result whole),whole,reads_bind]
    dsimp only
    cases verifyReader (shutdown m).state.ledger.file.disk with
    | error error => exact List.append_nil _
    | ok summary => exact List.append_nil _

theorem conduct_ended (around : RunSurroundings) (args : RunArgs) {s : Session} (clean : Clean (conduct around args s).events) :
    Ended (conduct around args s).events ↔ Survives around args s := by
  let _ := around.world
  rw [← drive_ok]
  cases driven : (drive around args s).result with
  | error failure =>
    have events : (conduct around args s).events = (drive around args s).events := by rw [conduct,bind_error driven]
    rw [events]
    constructor
    · exact fun ended => absurd ended (unended (unclosing_drive around args s))
    · rintro ⟨v,impossible⟩
      cases impossible
  | ok value =>
    have events := conduct_events around args driven
    rw [events] at clean ⊢
    obtain ⟨before,attestation,ending,whole,kinds⟩ := shutdown_ends (clean_append.mp clean).2
    refine ⟨fun _ => ⟨value,rfl⟩,fun _ => ⟨appended (drive around args s).events ++ before,attestation,ending,?_,kinds⟩⟩
    rw [appended_append,whole,List.append_assoc]

/-- The ledger of every execution that gets past its boot, and whose entries are all
    taken, ends with the attestation and the end of the session exactly if what drives
    the session can be loaded and no error comes back from it but those that are caught. -/
theorem execution_ended_iff {around : RunSurroundings} {args : RunArgs} {session : Session}
    {out : Outcome Session Failure Event RunOutcome} (ran : execute around args = .ok (session,out)) (clean : Clean out.events) :
    start around args = .ok session ∧ (Ended out.events ↔ Survives around args session) := by
  obtain ⟨started,starts,last⟩ := Ledger.bind_ok.mp ran
  cases last
  exact ⟨starts,conduct_ended around args clean⟩

end

/-! ### Two executions -/

section
open Reference Faultless

/-- One directory can be read, and the script is this one. -/
def lone (readFile : Nat → String → Except IoError (List UInt8)) (script : List ScriptCall) : RunSurroundings where
  toSurroundings := { Ui.calm Ui.bare with world := { calmWorld reading with readFile := readFile } }
  loadScript := fun _ => .ok script

def scripted : RunArgs where
  manifest := Reference.config.manifestPath
  model := Reference.config.modelPath
  config := none
  chatTemplateSidecar := none
  identityDir := some Reference.config.identityDir
  workload := Reference.config.workloadName
  instanceName := Reference.config.instanceName
  ledger := none
  sessionId := some "s"
  script := some "/home/agent/script.json"
  prompt := none
  backend := .Llama
  maxTurns := 10
  maxTokens := 18446744073709551615
  maxSeconds := 300

theorem lone_starts (readFile : Nat → String → Except IoError (List UInt8)) (script : List ScriptCall) :
    let _ := (lone readFile script).world
    let _ := LocalCa.identity
    ∃ booted,start (lone readFile script) scripted = .ok (attach booted none none) ∧
      Fresh (runConfig (lone readFile script) scripted Reference.config.identityDir) reading Reference.files booted ∧
      Ready booted 100 := by
  intro world ca
  obtain ⟨svid,issued⟩ := issues (digestsOf Reference.files Reference.config.modelPath Reference.config.manifestPath none) none
  obtain ⟨bound,template⟩ := LocalCa.issueSvid_binds x509_signs issued
  have bootable : Bootable (runConfig (lone readFile script) scripted Reference.config.identityDir) reading Reference.files :=
    { loaded := rfl
      unreserved := rfl
      unchanged := fun _ _ _ => rfl
      plain := rfl
      issued := ⟨svid,issued,bound,template⟩
      created := ⟨[],rfl,by simp⟩ }
  obtain ⟨booted,boots,fresh,ready⟩ := boot_succeeds bootable (n := 100) (by decide)
  refine ⟨booted,?_,fresh,ready⟩
  have driver : ¬ (scripted.script = none ∧ scripted.prompt = none) := by decide
  have unserved : booted.policy.tools.mcp = [] := by rw [fresh.policy]; rfl
  rw [start,if_neg driver]
  refine Ledger.bind_ok.mpr ⟨Reference.config.identityDir,rfl,Ledger.bind_ok.mpr ⟨booted,mapError_ok.mpr boots,?_⟩⟩
  rw [unserved]
  rfl

theorem shutdown_clean [World] {s : Session} {n : Nat} (ready : Ready s (n+2)) : Clean (shutdown s).events := by
  have summary : Unreserved (attestationFields s.svidKeyPem s.networkLog) := by
    simp [Unreserved,attestationFields,summaryFields,reservedKeys]
  obtain ⟨record,ledger,attests,left⟩ := stamped_ready ready .Ledger .NetworkAttestation summary
  have attested : Runs emitNetworkAttestation s () (s.next.wrote ledger) _ := runs_reads_bind.mpr (runs_reads_bind.mpr attests)
  obtain ⟨record',ledger',ends,-⟩ := stamped_ready left .Ledger .SessionEnd
    (show Unreserved [("spiffeId",.Text (s.next.wrote ledger).spiffeUri)] by simp [Unreserved,reservedKeys])
  rw [shutdown,bind_ok attested.result,attested.state,attested.events,reads_bind,← bind_assoc,bind_ok ends.result,ends.events]
  intro entry result member
  simp only [closeLedger,List.append_nil,List.mem_append,List.mem_cons,reduceCtorEq,Event.Append.injEq,List.not_mem_nil,
    or_false,false_or] at member
  rcases member with ⟨-,rfl⟩ | ⟨-,rfl⟩
  · exact ⟨record,rfl⟩
  · exact ⟨record',rfl⟩

/-- An empty script ends well. -/
theorem execution_ended_iff_idle : ∃ session out,execute (lone (fun _ _ => .ok []) []) scripted = .ok (session,out) ∧
    Clean out.events ∧ Survives (lone (fun _ _ => .ok []) []) scripted session ∧ Ended out.events := by
  let _ := (lone (fun _ _ => .ok []) []).world
  let _ := LocalCa.identity
  obtain ⟨booted,starts,-,ready⟩ := lone_starts (fun _ _ => .ok []) []
  have ran : execute (lone (fun _ _ => .ok []) []) scripted = .ok (attach booted none none,_) :=
    Ledger.bind_ok.mpr ⟨_,starts,rfl⟩
  have drives : drive (lone (fun _ _ => .ok []) []) scripted (attach booted none none) =
      ⟨.ok (false,none),attach booted none none,[]⟩ := rfl
  have clean : Clean (conduct (lone (fun _ _ => .ok []) []) scripted (attach booted none none)).events := by
    rw [conduct_events _ _ (congrArg Outcome.result drives),drives]
    exact shutdown_clean (n := 98) (ready.attach none none)
  have survives : Survives (lone (fun _ _ => .ok []) []) scripted (attach booted none none) := ⟨[],rfl,trivial⟩
  exact ⟨_,_,ran,clean,survives,(execution_ended_iff ran clean).2.mpr survives⟩

def readMissing : ScriptCall := .FilesystemRead "/data/a" none

/-- The policy allows the read of a file that is not there. Every entry is taken, and the
    ledger has neither an attestation nor an end. -/
theorem missing_file_unclosed : ∃ session out,
    execute (lone (fun _ _ => .error (.Os 2)) [readMissing]) scripted = .ok (session,out) ∧
      Clean out.events ∧ ¬ Ended out.events := by
  let _ := (lone (fun _ _ => .error (.Os 2)) [readMissing]).world
  let _ := LocalCa.identity
  obtain ⟨booted,starts,fresh,-⟩ := lone_starts (fun _ _ => .error (.Os 2)) [readMissing]
  have steady := fresh.steady (fun _ _ => rfl) none none
  have policy : (attach booted none none).policy = reading := fresh.policy
  have permits : Permits (filesystemRead "/data/a") (attach booted none none) :=
    permits_filesystemRead (by rw [policy]; decide) (by decide)
  have room : Room (attach booted none none) .Filesystem ((∅ : Aggregate.SessionAggregateState).insert .Filesystem 1) := by
    refine ⟨1,?_⟩
    rw [policy,show (attach booted none none).aggregateState = ∅ from fresh.counts]
    rfl
  obtain ⟨uri,u,before,-,-,silent,continues⟩ := mediateGated_continues steady permits room none
  have fails : Stops (mediateFilesystemRead "/data/a" none) (attach booted none none) (.Err (.Io (.Os 2))) u.next
      (before ++ [.Performed u.tick (.FsRead "/data/a")]) := continues.stops (conclude_fails rfl)
  have mediated : Stops (mediate (.FilesystemRead "/data/a" none)) (attach booted none none) _ _ _ :=
    (alike_return (mediateFilesystemRead "/data/a" none) fun _ => ()).symm.stops fails
  have dispatched := dispatch_eq (show callOf readMissing = .ok (.FilesystemRead "/data/a" none) from rfl) (attach booted none none)
  rw [mediated.result,mediated.state,mediated.events] at dispatched
  have drives : drive (lone (fun _ _ => .error (.Os 2)) [readMissing]) scripted (attach booted none none) =
      ⟨.error (.Mediation (.Io (.Os 2))),u.next,before ++ [.Performed u.tick (.FsRead "/data/a")]⟩ := by
    change runCalls [readMissing] (attach booted none none) = _
    rw [runCalls,bind_error (congrArg Outcome.result dispatched),dispatched]
    rfl
  have conducted : (conduct (lone (fun _ _ => .error (.Os 2)) [readMissing]) scripted (attach booted none none)).events =
      before ++ [.Performed u.tick (.FsRead "/data/a")] := by
    rw [conduct,bind_error (congrArg Outcome.result drives),drives]
  refine ⟨_,_,Ledger.bind_ok.mpr ⟨_,starts,rfl⟩,?_,?_⟩
  · rw [conducted]
    intro entry result member
    rcases List.mem_append.mp member with early | late
    · exact (silent _ early).elim
    · cases List.mem_singleton.mp late
  · have unclosing := unclosing_drive (lone (fun _ _ => .error (.Os 2)) [readMissing]) scripted (attach booted none none)
    rw [drives] at unclosing
    rw [conducted]
    exact unended unclosing

end

end AegisNode.Execution
