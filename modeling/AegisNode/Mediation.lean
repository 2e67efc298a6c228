import AegisNode.Approval
import AegisNode.Reference

/-!
Complete mediation: an external effect happens only after the identity rebind of
the same call, and after a policy decision, for exactly that operation, that
allows it or whose approval came from the tier, a live grant or the operator.
-/
namespace AegisNode.Mediation
open Clock Json Schema Policy Grants Aggregate Traced Engine Mediator Frames Approval
open Ledger hiding Error
set_option linter.unusedSectionVars false

/-! ### The rebind -/

section
variable [Sha256]

/-- The bytes of the file were read and have the digest. -/
def HashedAs (events : List Event) (path : String) (digest : Digest) : Prop :=
  ∃ bytes,.Hashed path (.ok bytes) ∈ events ∧ Sha256.digest bytes = digest

/-- Without a config file the digest is that of nothing. -/
def ConfigHashed (events : List Event) (digest : Digest) : Option String → Prop
  | some path => HashedAs events path digest
  | none => digest = Sha256.digest []

/-- What the live files have as digests. -/
structure LiveDigests (s : Session) (events : List Event) (triple : DigestTriple) : Prop where
  model : HashedAs events s.modelPath triple.model
  manifest : HashedAs events s.manifestPath triple.manifest
  config : ConfigHashed events triple.config s.configPath

/-- The live files have the digests that the session's SVID binds. -/
def Rebound [Identity] (s : Session) (events : List Event) : Prop :=
  ∃ bound,Identity.extractDigestTriple s.svidCertPem = .ok bound ∧ LiveDigests s events bound

theorem HashedAs.mono {events more : List Event} {path : String} {digest : Digest} (hashed : HashedAs events path digest)
    (inside : events ⊆ more) : HashedAs more path digest := by
  obtain ⟨bytes,member,same⟩ := hashed
  exact ⟨bytes,inside member,same⟩

theorem ConfigHashed.mono {events more : List Event} {path? : Option String} {digest : Digest}
    (hashed : ConfigHashed events digest path?) (inside : events ⊆ more) : ConfigHashed more digest path? := by
  cases path? with
  | none => exact hashed
  | some path => exact HashedAs.mono hashed inside

theorem LiveDigests.mono {s : Session} {events more : List Event} {triple : DigestTriple}
    (live : LiveDigests s events triple) (inside : events ⊆ more) : LiveDigests s more triple :=
  ⟨live.model.mono inside,live.manifest.mono inside,live.config.mono inside⟩

/-- Only fields that no call changes are read. -/
theorem Rebound.of_keeps [Identity] {a b : Session} {earlier events : List Event} (keeps : Keeps a earlier b)
    (rebound : Rebound b events) : Rebound a events := by
  obtain ⟨bound,extracted,live⟩ := rebound
  rw [keeps.same] at extracted live
  exact ⟨bound,extracted,⟨live.model,live.manifest,live.config⟩⟩

variable [World]

theorem sha256File_hashed {path : String} {s t : Session} {digest : Digest} {events : List Event}
    (runs : Runs (sha256File path) s digest t events) : HashedAs events path digest := by
  simp only [sha256File,runs_bind,runs_ask,runs_orFail,runs_pure] at runs
  obtain ⟨answer,_,_,_,⟨rfl,-,rfl⟩,⟨bytes,_,_,_,⟨read,-,-⟩,⟨rfl,-,-⟩,-⟩,rfl⟩ := runs
  refine ⟨bytes,?_,rfl⟩
  rw [read]
  exact List.mem_append_left _ (List.mem_singleton.mpr rfl)

theorem logs_paths {a b : Session} {events : List Event} (logs : Logs a events b) :
    b.manifestPath = a.manifestPath ∧ b.configPath = a.configPath := by
  rw [logs.same]
  exact ⟨rfl,rfl⟩

theorem configDigest_hashed {s t : Session} {path? : Option String} {digest : Digest} {events : List Event}
    (runs : Runs (configDigest path?) s digest t events) : ConfigHashed events digest path? := by
  cases path? with
  | none => exact (runs_pure.mp runs).1
  | some path => exact sha256File_hashed runs

theorem computeLiveDigests_live {s t : Session} {live : DigestTriple} {events : List Event}
    (runs : Runs computeLiveDigests s live t events) : LiveDigests s events live := by
  rw [computeLiveDigests,runs_reads_bind,runs_bind] at runs
  obtain ⟨model,s₁,modelEvents,_,modelRuns,runs,rfl⟩ := runs
  rw [runs_reads_bind,runs_bind] at runs
  obtain ⟨manifest,s₂,manifestEvents,_,manifestRuns,runs,rfl⟩ := runs
  rw [runs_reads_bind,runs_bind] at runs
  obtain ⟨config,s₃,configEvents,_,configRuns,runs,rfl⟩ := runs
  obtain ⟨rfl,-,rfl⟩ := runs_pure.mp runs
  obtain ⟨manifestPath,configPath₁⟩ := logs_paths (modelRuns.respects (logs_sha256File _))
  obtain ⟨-,configPath₂⟩ := logs_paths (manifestRuns.respects (logs_sha256File _))
  have configHashed := configDigest_hashed configRuns
  rw [configPath₂,configPath₁] at configHashed
  refine ⟨(sha256File_hashed modelRuns).mono ?_,?_,?_⟩
  · exact List.subset_append_left _ _
  · rw [← manifestPath]
    exact (sha256File_hashed manifestRuns).mono (by simp)
  · exact configHashed.mono (by simp)

variable [Chrono] [Serde] [Identity]

theorem mismatch?_none {bound live : DigestTriple} (same : mismatch? bound live = none) : bound = live := by
  unfold mismatch? at same
  split_ifs at same with model manifest config
  cases bound
  cases live
  simp only [ne_eq,not_not] at model manifest config
  rw [DigestTriple.mk.injEq]
  exact ⟨model,manifest,config⟩

theorem checkIdentityBinding_bound {certPem : String} {live : DigestTriple} {now : Int} {s t : Session}
    {events : List Event} (runs : Runs (checkIdentityBinding certPem live now) s () t events) :
    Identity.extractDigestTriple certPem = .ok live := by
  rw [checkIdentityBinding,runs_bind] at runs
  obtain ⟨found,_,_,_,verified,runs,-⟩ := runs
  obtain ⟨verified,-,-⟩ := runs_orFail.mp verified
  unfold verifyDigestBinding at verified
  split at verified
  · cases verified
  · rename_i bound extracted
    cases verified
    cases drift : mismatch? bound live with
    | none => rw [extracted,mismatch?_none drift]
    | some mismatch =>
      rw [drift] at runs
      obtain ⟨_,_,_,_,-,stopped,-⟩ := runs_bind.mp runs
      exact absurd stopped runs_deny

/-- A rebind that succeeds has hashed the live files to the digests of the SVID. -/
theorem rebind_rebound {s t : Session} {events : List Event} (runs : Runs rebind s () t events) : Rebound s events := by
  rw [rebind,runs_bind] at runs
  obtain ⟨live,s₁,hashEvents,_,hashRuns,runs,rfl⟩ := runs
  rw [runs_reads_bind,runs_bind] at runs
  obtain ⟨now,s₂,_,_,-,bound,rfl⟩ := runs
  have certPem : s₁.svidCertPem = s.svidCertPem := by rw [(hashRuns.respects logs_computeLiveDigests).same]
  have extracted := checkIdentityBinding_bound bound
  rw [certPem] at extracted
  exact ⟨live,extracted,(computeLiveDigests_live hashRuns).mono (List.subset_append_left _ _)⟩

/-! ### Calls and their effects -/

/-- The effect that a call stands for; an MCP call goes to the first entry of its
    server. -/
def effectOf (policy : Manifest) : Call → Option Effect
  | .FilesystemRead path _ => some (.FsRead path)
  | .FilesystemWrite path contents _ => some (.FsWrite path contents)
  | .FilesystemDelete path _ => some (.FsRemove path)
  | .NetworkConnect host port _ _ => some (.Connect host port)
  | .McpToolCall serverName toolName args _ =>
    (serverGrant policy serverName).map (fun grant => .CallTool serverName grant.serverUri toolName args)
  | .Exec program args _ => some (.Spawn program args)

/-- The operation whose approval a call may need; MCP calls have none. -/
def operationOf (resourceUri : String) : Call → Option Operation
  | .FilesystemRead path _ => some ((filesystemRead path).operation resourceUri)
  | .FilesystemWrite path contents _ => some ((filesystemWrite path contents).operation resourceUri)
  | .FilesystemDelete path _ => some ((filesystemDelete path).operation resourceUri)
  | .NetworkConnect host port proto _ => some (networkConnect host port proto)
  | .McpToolCall _ _ _ _ => none
  | .Exec program args _ => some ((execRun program args).operation resourceUri)

/-- The policy's decision for exactly this call; writes and deletes are decided at a
    reading of the clock. -/
def Decides (s : Session) : Call → List Event → Decision → Prop
  | .FilesystemRead path _,decided,decision => decided = [] ∧ decision = checkFilesystemRead s.policy path
  | .FilesystemWrite path _ _,decided,decision =>
    ∃ now,decided = [.UtcNow now] ∧ checkFilesystemWrite s.policy path now s.sessionStart = .ok decision
  | .FilesystemDelete path _,decided,decision =>
    ∃ now,decided = [.UtcNow now] ∧ checkFilesystemDelete s.policy path now s.sessionStart = .ok decision
  | .NetworkConnect host port proto _,decided,decision =>
    decided = [] ∧ decision = checkNetworkOutbound s.policy host port proto
  | .McpToolCall serverName toolName _ _,decided,decision =>
    decided = [] ∧ decision = checkMcpTool s.policy serverName toolName
  | .Exec program _ _,decided,decision => decided = [] ∧ decision = checkExec s.policy program

/-- What stands before an effect in its call: the rebind, the decision, and what
    resolved the decision. -/
structure Mediated (booted s : Session) (call : Call) (effect : Effect) (checked decided later : List Event) : Prop where
  effect : effectOf booted.policy call = some effect
  rebound : Rebound booted checked
  decision : ∃ decision,Decides booted call decided decision ∧ (decision = .Allow ∨
    ∃ summary,decision = .RequireApproval summary ∧
      ∃ resourceUri op,operationOf resourceUri call = some op ∧ Resolved s op later)
  granted : OnlyGranted (checked ++ decided ++ later)

theorem Decides.of_keeps {a b : Session} {call : Call} {earlier decided : List Event} {decision : Decision}
    (keeps : Keeps a earlier b) (decides : Decides b call decided decision) : Decides a call decided decision := by
  rw [keeps.same] at decides
  cases call <;> exact decides

/-! ### Where the effect of a call stands -/

theorem settle_performed {α : Type} {g : Gated α} {resourceUri : String} {rsid : Option String} {decision : Decision}
    {s : Session} {pre post : List Event} {tick : Nat} {effect : Effect}
    (performed : (settle g resourceUri rsid decision s).events = pre ++ .Performed tick effect :: post) :
    decision = .Allow ∧ effect = g.effect ∧ ∀ e ∈ pre,Plain e := by
  by_cases allowed : decision = .Allow
  · subst allowed
    refine ⟨rfl,?_⟩
    obtain ⟨_,s₁,charged,_,charges,rfl,perform₁⟩ := bind_split (counts_enforceAggregateQuota _ _ _ s).uneffective performed
    obtain ⟨rfl,same,-⟩ := perform_first (fun answer => counts_of_logs (logs_concluded _ answer _ _ _ _)) perform₁
    rw [List.append_nil]
    exact ⟨same,(charges.respects (counts_enforceAggregateQuota _ _ _)).each⟩
  · exact ((logs_settle g resourceUri rsid allowed s).counts.elsewhere performed).elim

theorem mediateGated_performed {α : Type} {g : Gated α} {rsid : Option String} {s : Session} {pre post : List Event}
    {tick : Nat} {effect : Effect} (reading : Reading g) (performed : (mediateGated g rsid s).events = pre ++ .Performed tick effect :: post) :
    ∃ checked s₁ decided s₂ decision later resourceUri,pre = checked ++ decided ++ later ∧ effect = g.effect ∧
      Runs rebind s () s₁ checked ∧ Runs g.decision s₁ decision s₂ decided ∧ OnlyGranted later ∧
      (decision = .Allow ∨ ∃ summary,decision = .RequireApproval summary ∧ Resolved s (g.operation resourceUri) later) := by
  obtain ⟨_,s₁,checked,_,rebinds,rfl,decision₁⟩ := bind_split (logs_rebind s).stores.routes.unperformed performed
  obtain ⟨decision,s₂,decided,_,decides,rfl,uri₁⟩ :=
    bind_split (reading.decision s₁).stores.routes.unperformed decision₁
  obtain ⟨resourceUri,s₃,located,_,locates,rfl,route₁⟩ :=
    bind_split (reading.resourceUri s₂).stores.routes.unperformed uri₁
  obtain ⟨final,s₄,routed,charged,routes,rfl,settle₁⟩ :=
    bind_split (routes_routeThroughApproval decision (g.operation resourceUri) rsid s₃).unperformed route₁
  obtain ⟨rfl,same,plain⟩ := settle_performed settle₁
  obtain ⟨only,allowed⟩ := routeThroughApproval_allow routes
  have silent : located = [] := by rw [← locates.events,reading.silent]
  have before := logs_composes.append (rebinds.respects logs_rebind)
    (logs_composes.append (decides.respects reading.decision) (locates.respects reading.resourceUri))
  refine ⟨checked,s₁,decided,s₂,decision,routed ++ charged,resourceUri,?_,same,rebinds,decides,?_,?_⟩
  · rw [silent,List.nil_append,List.append_assoc]
  · exact only.append (onlyGranted_of_unasked fun e member => Plain.unasked e (plain e member))
  · rcases allowed with allowed | ⟨summary,required,resolved⟩
    · exact .inl allowed
    · exact .inr ⟨summary,required,(resolved.of_logs before).more charged⟩

theorem finishConnect_performed {initial : Decision} {host : String} {port : UInt16} {proto : NetworkProto}
    {rsid : Option String} {routed : Except Error Decision} {s : Session} {pre post : List Event} {tick : Nat} {effect : Effect}
    (performed : (finishConnect initial host port proto rsid routed s).events = pre ++ .Performed tick effect :: post) :
    routed = .ok .Allow ∧ effect = .Connect host port ∧ pre = [] := by
  by_cases allowed : routed = .ok .Allow
  · subst allowed
    obtain ⟨nothing,same,-⟩ := perform_first (fun answer => counts_connected _ answer _ _ _ _ _ _) performed
    exact ⟨rfl,same,nothing⟩
  · exact ((counts_finishConnect _ _ _ _ _ allowed s).elsewhere performed).elim

theorem mediateNetworkConnect_performed {host : String} {port : UInt16} {proto : NetworkProto} {rsid : Option String}
    {s : Session} {pre post : List Event} {tick : Nat} {effect : Effect}
    (performed : (mediateNetworkConnect host port proto rsid s).events = pre ++ .Performed tick effect :: post) :
    ∃ checked s₁ decision later,pre = checked ++ later ∧ effect = .Connect host port ∧ Runs rebind s () s₁ checked ∧
      decision = checkNetworkOutbound s₁.policy host port proto ∧ OnlyGranted later ∧
      (decision = .Allow ∨ ∃ summary,decision = .RequireApproval summary ∧
        Resolved s (networkConnect host port proto) later) := by
  obtain ⟨_,s₁,checked,_,rebinds,rfl,decision₁⟩ := bind_split (logs_rebind s).stores.routes.unperformed performed
  rw [connectDecision,reads_bind] at decision₁
  obtain ⟨final,s₃,routed,_,routes,rfl,finish₁⟩ :=
    bind_split (respects_attempt (routes_routeThroughApproval _ (networkConnect host port proto) rsid) s₁).unperformed decision₁
  obtain ⟨rfl,same,rfl⟩ := finishConnect_performed finish₁
  obtain ⟨only,allowed⟩ := routeThroughApproval_allow (runs_attempt_ok.mp routes)
  rw [List.append_nil]
  refine ⟨checked,s₁,_,routed,rfl,same,rebinds,rfl,only,?_⟩
  rcases allowed with allowed | ⟨summary,required,resolved⟩
  · exact .inl allowed
  · exact .inr ⟨summary,required,resolved.of_logs (rebinds.respects logs_rebind)⟩

theorem callClient_performed {serverName serverUri toolName : String} {args : Value} {rsid : Option String} {s : Session}
    {pre post : List Event} {tick : Nat} {effect : Effect}
    (performed : (callClient serverName serverUri toolName args rsid s).events = pre ++ .Performed tick effect :: post) :
    pre = [] ∧ effect = .CallTool serverName serverUri toolName args := by
  rw [callClient,reads_bind] at performed
  cases attached : s.mcpClient with
  | none =>
    rw [attached] at performed
    exact ((logs_mcpRefused _ _ _ s).counts.elsewhere performed).elim
  | some client =>
    rw [attached] at performed
    obtain ⟨nothing,same,-⟩ := perform_first (fun answer => counts_of_logs (logs_concluded _ answer _ _ _ _)) performed
    exact ⟨nothing,same⟩

theorem mediateMcpToolCall_performed {serverName toolName : String} {args : Value} {rsid : Option String} {s : Session}
    {pre post : List Event} {tick : Nat} {effect : Effect}
    (performed : (mediateMcpToolCall serverName toolName args rsid s).events = pre ++ .Performed tick effect :: post) :
    ∃ checked s₁ grant validated s₂ charged,pre = checked ++ (validated ++ charged) ∧ Runs rebind s () s₁ checked ∧
      checkMcpTool s₁.policy serverName toolName = .Allow ∧ serverGrant s₁.policy serverName = some grant ∧
      effect = .CallTool serverName grant.serverUri toolName args ∧
      Runs (runMcpPreValidate serverName toolName args (declaredClauses grant toolName)) s₁ () s₂ validated ∧
      ∀ e ∈ charged,Plain e := by
  obtain ⟨_,s₁,checked,_,rebinds,rfl,decision₁⟩ := bind_split (logs_rebind s).stores.routes.unperformed performed
  rw [reads_bind] at decision₁
  cases decided : checkMcpTool s₁.policy serverName toolName with
  | Deny reason =>
    rw [decided] at decision₁
    exact ((logs_mcpRefused _ _ _ s₁).counts.elsewhere decision₁).elim
  | RequireApproval reason =>
    rw [decided] at decision₁
    exact ((logs_deny _ s₁).counts.elsewhere decision₁).elim
  | Allow =>
    rw [decided] at decision₁
    dsimp only at decision₁
    rw [mcpAllowed,reads_bind] at decision₁
    cases listed : serverGrant s₁.policy serverName with
    | none =>
      rw [listed] at decision₁
      exact ((logs_mcpRefused _ _ _ s₁).counts.elsewhere decision₁).elim
    | some grant =>
      rw [listed] at decision₁
      obtain ⟨_,s₂,validated,_,validates,rfl,quota₁⟩ :=
        bind_split (logs_runMcpPreValidate _ _ _ _ s₁).stores.routes.unperformed decision₁
      obtain ⟨_,s₃,charged,_,charges,rfl,call₁⟩ :=
        bind_split (counts_enforceAggregateQuota _ _ _ s₂).uneffective quota₁
      obtain ⟨rfl,same⟩ := callClient_performed call₁
      refine ⟨checked,s₁,grant,validated,s₂,charged,?_,rebinds,decided,listed,same,validates,?_⟩
      · rw [List.append_nil]
      · exact (charges.respects (counts_enforceAggregateQuota _ _ _)).each

/-! ### Complete mediation -/

theorem mediateGated_mediated {α : Type} {g : Gated α} {rsid : Option String} {s : Session} {call : Call}
    {pre post : List Event} {tick : Nat} {effect : Effect} (reading : Reading g)
    (decides : ∀ {a b decision decided},Runs g.decision a decision b decided → Decides a call decided decision)
    (effects : effectOf s.policy call = some g.effect)
    (operation : ∀ resourceUri,operationOf resourceUri call = some (g.operation resourceUri))
    (performed : (mediateGated g rsid s).events = pre ++ .Performed tick effect :: post) :
    ∃ checked decided later,pre = checked ++ decided ++ later ∧ Mediated s s call effect checked decided later := by
  obtain ⟨checked,s₁,decided,s₂,decision,later,resourceUri,rfl,rfl,rebinds,decidedBy,only,allowed⟩ :=
    mediateGated_performed reading performed
  have rebindLogs := rebinds.respects logs_rebind
  have decisionLogs := decidedBy.respects reading.decision
  refine ⟨checked,decided,later,rfl,effects,rebind_rebound rebinds,⟨decision,?_,?_⟩,?_⟩
  · exact (decides decidedBy).of_keeps (routes_keeps rebindLogs.stores.routes)
  · rcases allowed with allowed | ⟨summary,required,resolved⟩
    · exact .inl allowed
    · exact .inr ⟨summary,required,resourceUri,_,operation resourceUri,resolved⟩
  · refine (OnlyGranted.append ?_ ?_).append only
    · exact onlyGranted_of_unasked rebindLogs.counts.works.each
    · exact onlyGranted_of_unasked decisionLogs.counts.works.each

theorem mediate_mediated {call : Call} {s : Session} {pre post : List Event} {tick : Nat} {effect : Effect}
    (performed : (mediate call s).events = pre ++ .Performed tick effect :: post) :
    ∃ checked decided later,pre = checked ++ decided ++ later ∧ Mediated s s call effect checked decided later := by
  cases call with
  | FilesystemRead path rsid =>
    rw [mediate,bind_pure_events.1] at performed
    exact mediateGated_mediated (reading_filesystemRead path) reads_decides rfl (fun _ => rfl) performed
  | FilesystemWrite path contents rsid =>
    exact mediateGated_mediated (reading_filesystemWrite path contents) writeDecisionNow_decides rfl (fun _ => rfl)
      performed
  | FilesystemDelete path rsid =>
    exact mediateGated_mediated (reading_filesystemDelete path) deleteDecisionNow_decides rfl (fun _ => rfl) performed
  | NetworkConnect host port proto rsid =>
    obtain ⟨checked,s₁,decision,later,rfl,rfl,rebinds,rfl,only,allowed⟩ := mediateNetworkConnect_performed performed
    have rebindLogs := rebinds.respects logs_rebind
    refine ⟨checked,[],later,by rw [List.append_nil],rfl,rebind_rebound rebinds,
      ⟨checkNetworkOutbound s₁.policy host port proto,?_,?_⟩,?_⟩
    · exact Decides.of_keeps (routes_keeps rebindLogs.stores.routes) ⟨rfl,rfl⟩
    · rcases allowed with allowed | ⟨summary,required,resolved⟩
      · exact .inl allowed
      · exact .inr ⟨summary,required,"",_,rfl,resolved⟩
    · rw [List.append_nil]
      exact (onlyGranted_of_unasked rebindLogs.counts.works.each).append only
  | McpToolCall serverName toolName args rsid =>
    rw [mediate,bind_pure_events.1] at performed
    obtain ⟨checked,s₁,grant,validated,s₂,charged,rfl,rebinds,allowed,listed,rfl,validates,plain⟩ :=
      mediateMcpToolCall_performed performed
    have rebindLogs := rebinds.respects logs_rebind
    have policy : s₁.policy = s.policy := by rw [rebindLogs.same]
    refine ⟨checked,[],validated ++ charged,by rw [List.append_nil],?_,rebind_rebound rebinds,⟨.Allow,?_,.inl rfl⟩,?_⟩
    · rw [policy] at listed
      rw [effectOf,listed,Option.map_some]
    · rw [policy] at allowed
      exact ⟨rfl,allowed.symm⟩
    · rw [List.append_nil]
      refine OnlyGranted.append (onlyGranted_of_unasked rebindLogs.counts.works.each) (OnlyGranted.append ?_ ?_)
      · exact onlyGranted_of_unasked (validates.respects (logs_runMcpPreValidate _ _ _ _)).counts.works.each
      · exact onlyGranted_of_unasked fun e member => Plain.unasked e (plain e member)
  | Exec program args rsid =>
    rw [mediate,bind_pure_events.1] at performed
    exact mediateGated_mediated (reading_execRun program args) reads_decides rfl (fun _ => rfl) performed

/-- What stands before an effect refers to the session as it was booted. -/
theorem Mediated.of_keeps {booted s : Session} {call : Call} {effect : Effect} {earlier checked decided later : List Event}
    (keeps : Keeps booted earlier s) (mediated : Mediated s s call effect checked decided later) :
    Mediated booted s call effect checked decided later := by
  have policy : s.policy = booted.policy := by rw [keeps.same]
  obtain ⟨decision,decides,allowed⟩ := mediated.decision
  refine ⟨?_,mediated.rebound.of_keeps keeps,⟨decision,decides.of_keeps keeps,allowed⟩,mediated.granted⟩
  rw [← policy]
  exact mediated.effect

end

section
variable [Chrono] [Serde] [Sha256] [Identity] [World] [Adversarial.PerlWord]

/-- In every run of a booted session, whatever the calls, the world and the operator
    do, each effect stands in a call after the rebind of that call and after what
    allows exactly that effect. -/
theorem complete_mediation {cfg : BootConfig} {booted : Session} (_ : boot cfg = .ok booted)
    (channel : Option ApprovalChannel) (client : Option McpClient) (earlier : List Call) (call : Call)
    {pre post : List Event} {tick : Nat} {effect : Effect}
    (performed : (mediate call (afterCalls (attach booted channel client) earlier)).events =
      pre ++ .Performed tick effect :: post) :
    ∃ checked decided later,pre = checked ++ decided ++ later ∧ Mediated (attach booted channel client)
      (afterCalls (attach booted channel client) earlier) call effect checked decided later := by
  obtain ⟨checked,decided,later,whole,mediated⟩ := mediate_mediated performed
  exact ⟨checked,decided,later,whole,mediated.of_keeps (keeps_afterCalls earlier _)⟩

end

section
open Reference

/-- A read that the manifest allows. -/
theorem complete_mediation_read :
    let _ := calmWorld reading
    ∃ booted pre tick post checked decided later,boot config = .ok booted ∧
      (mediate readData (attach booted none none)).events = pre ++ .Performed tick (.FsRead "/data/a") :: post ∧
      pre = checked ++ decided ++ later ∧ Mediated (attach booted none none) (attach booted none none) readData
        (.FsRead "/data/a") checked decided later := by
  intro world
  obtain ⟨booted,pre,tick,post,boots,performed⟩ := readData_performed
  obtain ⟨checked,decided,later,whole,mediated⟩ := complete_mediation boots none none [] readData performed
  exact ⟨booted,pre,tick,post,checked,decided,later,boots,performed,whole,mediated⟩

end

end AegisNode.Mediation
