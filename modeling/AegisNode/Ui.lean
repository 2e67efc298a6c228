import AegisNode.Interleaving
import AegisNode.Pull
import AegisNode.ReferenceTurn

/-!
`aegis ui`: a session boots with the server, and each fork boots another one for a model
of the cache. A fork records its digest and its handler installs the session
afterwards, each under a lock of its own.
-/
namespace AegisNode.Ui
open Text Backend Schema Engine Mediator Interleaving LocalCa

/-! ### Boots -/

inductive BackendKind where
  | Llama
  | Litertlm
  deriving DecidableEq,Repr

/-- What lies outside one boot: the files and clocks, the directories of the user, the
    environment and the model runtimes. -/
structure Surroundings where
  world : World
  x509 : X509
  uuidV7Like : String
  configDir : Option String
  cacheDir : Option String
  currentDir : Except String String
  isFile : (path : String) → Bool
  unixSecs : Nat
  approvalFile : Option ApprovalChannel    -- the channel of `AEGIS_APPROVAL_FILE`
  stdioMcpClient : McpClient
  loadBackend : BackendKind → Session → (modelPath : String) → Except String LoadedModel

/-- `UiArgs`, the parts that a session depends on. -/
structure UiArgs where
  manifest : Option String
  model : Option String
  backend : BackendKind
  config : Option String
  chatTemplateSidecar : Option String
  identityDir : Option String
  workload : String
  instanceName : String
  ledger : Option String
  deriving DecidableEq,Repr

/-- The boot arguments that are fixed across forks. -/
structure SessionBackendFactory where
  manifest : String
  config : Option String
  chatTemplateSidecar : Option String
  identityDir : Option String
  workload : String
  instanceName : String
  backendKind : BackendKind
  deriving DecidableEq,Repr

inductive UiError where
  | NoConfigDir
  | Boot (stop : Stop)
  | LoadBackend (detail : String)
  | HalfSet

section
variable [Clock.Chrono] [Json.Serde] [Ledger.Sha256] [Adversarial.PerlWord]

def defaultIdentityDir (around : Surroundings) : Except UiError String :=
  match around.configDir with
  | some base => .ok (joinPath (joinPath base "aegis") "identity")
  | none => .error .NoConfigDir

def identityDir (around : Surroundings) (factory : SessionBackendFactory) : Except UiError String :=
  match factory.identityDir with
  | some dir => .ok dir
  | none => defaultIdentityDir around

def bootConfig (around : Surroundings) (factory : SessionBackendFactory) (modelPath : String) (ledgerPath : Option String)
    (identityDir : String) : BootConfig where
  sessionId := "session-ui-" ++ around.uuidV7Like
  manifestPath := factory.manifest
  modelPath := modelPath
  configPath := factory.config
  chatTemplateSidecar := factory.chatTemplateSidecar
  identityDir := identityDir
  workloadName := factory.workload
  instanceName := factory.instanceName
  ledgerPath := ledgerPath.getD ("ledger-ui-session-ui-" ++ around.uuidV7Like ++ ".jsonl")
  ledgerSchema := none

def bootSessionForUi (around : Surroundings) (factory : SessionBackendFactory) (modelPath : String)
    (ledgerPath : Option String) : Except UiError Session := do
  let _ := around.world
  let _ := around.x509
  let _ := LocalCa.identity
  let dir ← identityDir around factory
  let booted ← (boot (bootConfig around factory modelPath ledgerPath dir)).mapError .Boot
  let client := if booted.policy.tools.mcp = [] then none else some around.stdioMcpClient
  let session := attach booted around.approvalFile client
  let loaded ← (around.loadBackend factory.backendKind session modelPath).mapError .LoadBackend
  return TurnLoop.setLoadedModel session loaded

/-! ### The server -/

/-- A session, what lay around its boot, and the digest its model was asked for by. -/
structure SessionBackend where
  session : Session
  around : Surroundings
  digest : Option String

/-- The swap slot of the chat surface, and the digest that the factory reports. -/
structure Server where
  swap : SessionBackend
  currentDigest : Option String

/-- The parts of a path, without those that name no directory. -/
def parts (path : String) : List String :=
  ((path.toList.splitOn '/').map String.ofList).filter (fun part => part ≠ "" ∧ part ≠ ".")

def digestFromModelPath (path : String) : Option String :=
  (parts path).dropLast.getLast?.filter (fun name => name.length = 64 ∧ name.toList.all Pull.isAsciiHexdigit)

def factoryOf (args : UiArgs) (manifest : String) : SessionBackendFactory :=
  ⟨manifest,args.config,args.chatTemplateSidecar,args.identityDir,args.workload,args.instanceName,args.backend⟩

/-- Without a manifest and a model the surface runs on the stub and cannot be forked. -/
def buildChatBackend (args : UiArgs) (around : Surroundings) : Except UiError (Option (SessionBackendFactory × Server)) :=
  match args.manifest,args.model with
  | some manifest,some model => do
    let session ← bootSessionForUi around (factoryOf args manifest) model args.ledger
    let digest := digestFromModelPath model
    return some (factoryOf args manifest,⟨⟨session,around,digest⟩,digest⟩)
  | none,none => .ok none
  | _,_ => .error .HalfSet

/-! ### Forks -/

inductive ForkError where
  | NoCacheDir
  | NotInLocalCache (modelDigest expected : String)
  | LedgerPath (detail : String)
  | ForkingSession (error : UiError)
  | Panicked

structure ForkRequest where
  modelDigest : String
  around : Surroundings

def cachedModel (cacheDir modelDigest : String) : String :=
  joinPath (joinPath (joinPath (joinPath cacheDir "aegis") "models") modelDigest) "blob.bin"

def forkLedger (around : Surroundings) (dir digest8 : String) : String :=
  joinPath dir ("ledger-ui-fork-" ++ digest8 ++ "-" ++ toString around.unixSecs ++ ".jsonl")

def fork (factory : SessionBackendFactory) (request : ForkRequest) : Except ForkError SessionBackend :=
  match request.around.cacheDir with
  | none => .error .NoCacheDir
  | some cacheDir =>
    let modelPath := cachedModel cacheDir request.modelDigest
    if !request.around.isFile modelPath then .error (.NotInLocalCache request.modelDigest modelPath)
    else
      -- a cut inside a character panics
      match Bytes.decode ((Bytes.encode request.modelDigest).take 8) with
      | none => .error .Panicked
      | some digest8 => do
        let dir ← request.around.currentDir.mapError .LedgerPath
        let ledgerPath := forkLedger request.around dir digest8
        let session ← (bootSessionForUi request.around factory modelPath (some ledgerPath)).mapError .ForkingSession
        return ⟨session,request.around,some request.modelDigest⟩

/-- What becomes of the `i`-th fork request. -/
def outcome (factory : SessionBackendFactory) (requests : List ForkRequest) (i : Nat) : Option SessionBackend :=
  requests[i]?.bind (fun request => (fork factory request).toOption)

/-- The two times at which a fork touches what it shares with the others. -/
inductive Event where
  | Record (i : Nat)     -- its session has booted, and the factory records the digest
  | Install (i : Nat)    -- the handler writes the swap slot
  deriving DecidableEq,Repr

def step (factory : SessionBackendFactory) (requests : List ForkRequest) (server : Server) : Event → Server
  | .Record i =>
    match outcome factory requests i with
    | some backend => { server with currentDigest := backend.digest }
    | none => server
  | .Install i =>
    match outcome factory requests i with
    | some backend => { server with swap := backend }
    | none => server

/-! ### Chat templates -/

/-- The sidecar that `aegis pull` puts beside a model. -/
def sidecarBeside (modelPath : String) : String :=
  match Text.rsplitOnce '/' modelPath.toList with
  | some (dir,_) => String.ofList dir ++ "/chat_template.sha256.txt"
  | none => "chat_template.sha256.txt"

/-- The digest in the sidecar of a model, when the model has one. -/
def ownTemplate [World] (modelPath : String) : Except Error (Option Ledger.Digest) :=
  match World.sidecarText 5 (sidecarBeside modelPath) with
  | .ok text => (sidecarDigest (sidecarBeside modelPath) text).map some
  | .error _ => .ok none

/-- The certificate of the session binds the template of the model that the session runs. -/
def BindsOwnTemplate (backend : SessionBackend) : Prop :=
  let _ := backend.around.world
  let _ := backend.around.x509
  ∃ template,ownTemplate backend.session.modelPath = .ok template ∧
    extractChatTemplateFromPem backend.session.svidCertPem = .ok template

/-- The sidecar of the command line and that of the model hold the same digits, or neither
    is there. -/
def SharesTemplate [World] (modelPath : String) : Option String → Prop
  | none => ∀ text,World.sidecarText 5 (sidecarBeside modelPath) ≠ .ok text
  | some path => ∃ given own,World.sidecarText 5 path = .ok given ∧
      World.sidecarText 5 (sidecarBeside modelPath) = .ok own ∧ Bytes.hexDecode (trim given) = Bytes.hexDecode (trim own)

omit [Clock.Chrono] [Json.Serde] [Ledger.Sha256] [Adversarial.PerlWord] in
theorem sidecarDigest_ok {path text : String} {digest : Ledger.Digest} :
    sidecarDigest path text = .ok digest ↔ Bytes.hexDecode (trim text) = some digest.bytes := by
  unfold sidecarDigest
  cases decoded : Bytes.hexDecode (trim text) with
  | none => simp [decoded]
  | some bytes =>
    by_cases length : bytes.length = 32
    · simp only [decoded,dif_pos length,Except.ok.injEq,Option.some.injEq]
      constructor
      · rintro rfl
        rfl
      · intro same
        subst same
        rfl
    · simp only [decoded,dif_neg length,reduceCtorEq,Option.some.injEq,false_iff]
      intro same
      exact length (same ▸ digest.length)

omit [Clock.Chrono] [Json.Serde] [Ledger.Sha256] [Adversarial.PerlWord] in
theorem mapError_ok {ε δ α : Type} {wrap : ε → δ} {result : Except ε α} {a : α} :
    result.mapError wrap = .ok a ↔ result = .ok a := by
  cases result <;> simp [Except.mapError]

/-- What the certificate of a booted session was issued for. -/
theorem boot_issued [World] [Identity] {cfg : BootConfig} {s : Session} (boots : boot cfg = .ok s) :
    ∃ digests template svid,bootChatTemplate 5 cfg.chatTemplateSidecar = .ok template ∧
      Identity.issueSvid cfg.identityDir cfg.workloadName cfg.instanceName digests template = .ok svid ∧
      s.svidCertPem = svid.certPem ∧ s.modelPath = cfg.modelPath := by
  rw [boot] at boots
  simp only [Ledger.bind_ok] at boots
  obtain ⟨_,-,_,-,_,-,_,-,_,-,template,resolved,svid,issued,_,-,_,-,_,-,_,-,_,-,_,-,_,-,last⟩ := boots
  cases last
  exact ⟨_,template,svid,resolved,stopErr_ok.mp issued,rfl,rfl⟩

theorem bootSessionForUi_boots {around : Surroundings} {factory : SessionBackendFactory} {modelPath : String}
    {ledgerPath : Option String} {session : Session} (boots : bootSessionForUi around factory modelPath ledgerPath = .ok session) :
    ∃ dir booted,(let _ := around.world; let _ := around.x509; let _ := LocalCa.identity
      boot (bootConfig around factory modelPath ledgerPath dir) = .ok booted) ∧
      session.svidCertPem = booted.svidCertPem ∧ session.modelPath = booted.modelPath := by
  obtain ⟨dir,-,rest⟩ := Ledger.bind_ok.mp boots
  obtain ⟨booted,started,rest⟩ := Ledger.bind_ok.mp rest
  obtain ⟨model,-,last⟩ := Ledger.bind_ok.mp rest
  cases last
  exact ⟨dir,booted,mapError_ok.mp started,rfl,rfl⟩

theorem bootSessionForUi_succeeds {around : Surroundings} {factory : SessionBackendFactory} {modelPath dir : String}
    {ledgerPath : Option String} {policy : Manifest} {files : String → List UInt8} {model : LoadedModel}
    (located : identityDir around factory = .ok dir)
    (bootable : let _ := around.world; let _ := around.x509; let _ := LocalCa.identity
      Faultless.Bootable (bootConfig around factory modelPath ledgerPath dir) policy files)
    (loads : ∀ backend session,around.loadBackend backend session modelPath = .ok model) :
    ∃ session,bootSessionForUi around factory modelPath ledgerPath = .ok session ∧ session.modelPath = modelPath := by
  let _ := around.world
  let _ := around.x509
  let _ := LocalCa.identity
  obtain ⟨booted,boots,fresh,-⟩ := Faultless.boot_succeeds bootable (n := 1) (by decide)
  let client := if booted.policy.tools.mcp = [] then none else some around.stdioMcpClient
  refine ⟨TurnLoop.setLoadedModel (attach booted around.approvalFile client) model,?_,fresh.paths.1⟩
  rw [bootSessionForUi]
  refine Ledger.bind_ok.mpr ⟨dir,located,Ledger.bind_ok.mpr ⟨booted,mapError_ok.mpr boots,?_⟩⟩
  exact Ledger.bind_ok.mpr ⟨model,mapError_ok.mpr (loads _ _),rfl⟩

omit [Clock.Chrono] [Json.Serde] [Ledger.Sha256] [Adversarial.PerlWord] in
theorem ownTemplate_none [World] {modelPath : String} :
    ownTemplate modelPath = .ok none ↔ ∀ text,World.sidecarText 5 (sidecarBeside modelPath) ≠ .ok text := by
  rw [ownTemplate]
  cases World.sidecarText 5 (sidecarBeside modelPath) with
  | error detail => simp
  | ok text =>
    cases decoded : sidecarDigest (sidecarBeside modelPath) text with
    | error error => simp [Except.map,decoded]
    | ok digest => simp [Except.map,decoded]

omit [Clock.Chrono] [Json.Serde] [Ledger.Sha256] [Adversarial.PerlWord] in
theorem ownTemplate_some [World] {modelPath : String} {digest : Ledger.Digest} :
    ownTemplate modelPath = .ok (some digest) ↔ ∃ own,World.sidecarText 5 (sidecarBeside modelPath) = .ok own ∧
      Bytes.hexDecode (trim own) = some digest.bytes := by
  rw [ownTemplate]
  cases World.sidecarText 5 (sidecarBeside modelPath) with
  | error detail => simp
  | ok text =>
    simp only [Except.ok.injEq,exists_eq_left']
    rw [← @sidecarDigest_ok (sidecarBeside modelPath)]
    cases decoded : sidecarDigest (sidecarBeside modelPath) text with
    | error error => simp [Except.map]
    | ok digest => simp [Except.map]

omit [Clock.Chrono] [Json.Serde] [Ledger.Sha256] [Adversarial.PerlWord] in
/-- The template that a boot resolves is the one of a model when both have the same one. -/
theorem resolves_own [World] {modelPath : String} {sidecar : Option String} {template : Option Ledger.Digest}
    (resolved : bootChatTemplate 5 sidecar = .ok template) :
    ownTemplate modelPath = .ok template ↔ SharesTemplate modelPath sidecar := by
  cases sidecar with
  | none =>
    cases resolved
    exact ownTemplate_none
  | some path =>
    rw [bootChatTemplate] at resolved
    cases read : World.sidecarText 5 path with
    | error detail => simp [read] at resolved
    | ok given =>
      simp only [read] at resolved
      obtain ⟨digest,decoded,rfl⟩ : ∃ digest,sidecarDigest path given = .ok digest ∧ template = some digest := by
        cases decoded : sidecarDigest path given with
        | error error => simp [decoded,stopErr,Except.mapError,Except.map] at resolved
        | ok digest =>
          rw [decoded] at resolved
          cases resolved
          exact ⟨digest,rfl,rfl⟩
      rw [ownTemplate_some,SharesTemplate,← sidecarDigest_ok.mp decoded]
      constructor
      · rintro ⟨own,there,same⟩
        exact ⟨given,own,read,there,same.symm⟩
      · rintro ⟨text,own,again,there,same⟩
        cases read.symm.trans again
        exact ⟨own,there,same.symm⟩

/-- The session of a boot binds its own template when the command line has the same one. -/
theorem bindsOwnTemplate_iff {around : Surroundings} {factory : SessionBackendFactory} {modelPath : String}
    {ledgerPath : Option String} {session : Session} (signs : let _ := around.x509; Signs)
    (boots : bootSessionForUi around factory modelPath ledgerPath = .ok session) (digest : Option String) :
    BindsOwnTemplate ⟨session,around,digest⟩ ↔
      let _ := around.world
      SharesTemplate session.modelPath factory.chatTemplateSidecar := by
  let _ := around.world
  let _ := around.x509
  let _ := LocalCa.identity
  obtain ⟨dir,booted,started,certPem,-⟩ := bootSessionForUi_boots boots
  obtain ⟨digests,template,svid,resolved,issued,issuedPem,-⟩ := boot_issued started
  have bound := (issueSvid_binds signs issued).2
  rw [← issuedPem,← certPem] at bound
  have binds : BindsOwnTemplate ⟨session,around,digest⟩ ↔ ownTemplate session.modelPath = .ok template := by
    constructor
    · rintro ⟨own,read,extracted⟩
      cases bound.symm.trans extracted
      exact read
    · intro read
      exact ⟨template,read,bound⟩
  exact binds.trans (resolves_own resolved)

/-! ### Runs of the server -/

theorem fork_boots {factory : SessionBackendFactory} {request : ForkRequest} {backend : SessionBackend}
    (forked : fork factory request = .ok backend) : ∃ cacheDir ledgerPath session,request.around.cacheDir = some cacheDir ∧
      bootSessionForUi request.around factory (cachedModel cacheDir request.modelDigest) (some ledgerPath) = .ok session ∧
      backend = ⟨session,request.around,some request.modelDigest⟩ := by
  unfold fork at forked
  split at forked
  · cases forked
  · rename_i cacheDir found
    simp only at forked
    split_ifs at forked
    split at forked
    · cases forked
    · obtain ⟨dir,-,rest⟩ := Ledger.bind_ok.mp forked
      obtain ⟨session,boots,last⟩ := Ledger.bind_ok.mp rest
      cases last
      exact ⟨cacheDir,_,session,found,mapError_ok.mp boots,rfl⟩

theorem fork_succeeds {factory : SessionBackendFactory} {request : ForkRequest} {cacheDir dir digest8 : String} {session : Session}
    (cache : request.around.cacheDir = some cacheDir)
    (cached : request.around.isFile (cachedModel cacheDir request.modelDigest) = true)
    (cut : Bytes.decode ((Bytes.encode request.modelDigest).take 8) = some digest8)
    (located : request.around.currentDir = .ok dir)
    (boots : bootSessionForUi request.around factory (cachedModel cacheDir request.modelDigest)
      (some (forkLedger request.around dir digest8)) = .ok session) :
    fork factory request = .ok ⟨session,request.around,some request.modelDigest⟩ := by
  unfold fork
  rw [cache]
  dsimp only
  rw [cached,cut]
  exact Ledger.bind_ok.mpr ⟨dir,mapError_ok.mpr located,Ledger.bind_ok.mpr ⟨session,mapError_ok.mpr boots,rfl⟩⟩

theorem outcome_some {factory : SessionBackendFactory} {requests : List ForkRequest} {i : Nat} {backend : SessionBackend} :
    outcome factory requests i = some backend ↔ ∃ request,requests[i]? = some request ∧ fork factory request = .ok backend := by
  rw [outcome,Option.bind_eq_some_iff]
  refine exists_congr (fun request => and_congr_right (fun _ => ?_))
  cases fork factory request <;> simp [Except.toOption]

theorem buildChatBackend_boots {args : UiArgs} {around : Surroundings} {factory : SessionBackendFactory} {server : Server}
    (built : buildChatBackend args around = .ok (some (factory,server))) : ∃ model session,
      bootSessionForUi around factory model args.ledger = .ok session ∧
      factory.chatTemplateSidecar = args.chatTemplateSidecar ∧
      server = ⟨⟨session,around,digestFromModelPath model⟩,digestFromModelPath model⟩ := by
  unfold buildChatBackend at built
  split at built
  · obtain ⟨session,boots,last⟩ := Ledger.bind_ok.mp built
    cases last
    exact ⟨_,session,boots,rfl,rfl⟩
  · cases built
  · cases built

variable {factory : SessionBackendFactory} {requests : List ForkRequest}

/-- What holds of the first session and of each forked one holds of the installed one. -/
theorem installed_kept {P : SessionBackend → Prop} {server : Server} (start : P server.swap)
    (forked : ∀ i backend,outcome factory requests i = some backend → P backend) (events : List Event) :
    P (after (step factory requests) server events).swap := by
  refine after_invariant (P := fun s : Server => P s.swap) ?_ start events
  intro server event holds
  cases event with
  | Record i =>
    rw [step]
    split <;> exact holds
  | Install i =>
    rw [step]
    split
    · rename_i backend found
      exact forked i backend found
    · exact holds

theorem outcome_binds {factory : SessionBackendFactory} {around : Surroundings} {requests : List ForkRequest}
    (signs : ∀ surroundings ∈ around :: requests.map ForkRequest.around,let _ := surroundings.x509; Signs) {i : Nat}
    {backend : SessionBackend} (found : outcome factory requests i = some backend) :
    BindsOwnTemplate backend ↔
      let _ := backend.around.world
      SharesTemplate backend.session.modelPath factory.chatTemplateSidecar := by
  obtain ⟨request,listed,forked⟩ := outcome_some.mp found
  obtain ⟨cacheDir,ledgerPath,session,-,boots,rfl⟩ := fork_boots forked
  have member := List.mem_map_of_mem (f := ForkRequest.around) (List.mem_of_getElem? listed)
  exact bindsOwnTemplate_iff (signs request.around (List.mem_cons_of_mem _ member)) boots _

/-- Whatever the forks, the installed session binds the template of its model just when
    the sidecar of the command line is the same as that of the model. -/
theorem binds_own_iff {args : UiArgs} {around : Surroundings} {server : Server}
    (built : buildChatBackend args around = .ok (some (factory,server)))
    (signs : ∀ surroundings ∈ around :: requests.map ForkRequest.around,let _ := surroundings.x509; Signs) (events : List Event) :
    let installed := (after (step factory requests) server events).swap
    BindsOwnTemplate installed ↔
      let _ := installed.around.world
      SharesTemplate installed.session.modelPath args.chatTemplateSidecar := by
  obtain ⟨model,session,boots,fixed,rfl⟩ := buildChatBackend_boots built
  rw [← fixed]
  refine installed_kept (P := fun backend => BindsOwnTemplate backend ↔
    let _ := backend.around.world
    SharesTemplate backend.session.modelPath factory.chatTemplateSidecar) ?start ?forked events
  case start => exact bindsOwnTemplate_iff (signs around List.mem_cons_self) boots _
  case forked =>
    intro i backend found
    exact outcome_binds signs found

/-! ### Concurrent forks -/

/-- The reported digest is that of the installed model. -/
def Coherent (server : Server) : Prop := server.currentDigest = server.swap.digest

/-- All requests have finished: each fork that succeeds records its digest once, and
    installs its session once after that. -/
structure Finished (factory : SessionBackendFactory) (requests : List ForkRequest) (events : List Event) : Prop where
  records : ∀ i,events.count (.Record i) = if (outcome factory requests i).isSome then 1 else 0
  installs : ∀ i,events.count (.Install i) = if (outcome factory requests i).isSome then 1 else 0
  ordered : ∀ i,.Install i ∈ events → events.idxOf (.Record i) < events.idxOf (.Install i)

variable (factory requests) in
def recorded : Event → Option (Option String)
  | .Record i => (outcome factory requests i).map SessionBackend.digest
  | .Install _ => none

variable (factory requests) in
def installed : Event → Option (Option String)
  | .Record _ => none
  | .Install i => (outcome factory requests i).map SessionBackend.digest

theorem currentDigest_after (server : Server) (events : List Event) :
    (after (step factory requests) server events).currentDigest =
      ((events.filterMap (recorded factory requests)).getLast?).getD server.currentDigest := by
  rw [last_write Server.currentDigest (recorded factory requests) id,Option.map_id,id_eq]
  intro server event
  cases event with
  | Record i => cases found : outcome factory requests i <;> simp [step,recorded,found]
  | Install i => cases found : outcome factory requests i <;> simp [step,recorded,found]

theorem swapDigest_after (server : Server) (events : List Event) :
    (after (step factory requests) server events).swap.digest =
      ((events.filterMap (installed factory requests)).getLast?).getD server.swap.digest := by
  rw [last_write (fun s : Server => s.swap.digest) (installed factory requests) id,Option.map_id,
    id_eq]
  intro server event
  cases event with
  | Record i => cases found : outcome factory requests i <;> simp [step,installed,found]
  | Install i => cases found : outcome factory requests i <;> simp [step,installed,found]

/-- When all have finished, a digest was recorded just when a session was installed. -/
theorem Finished.both {events : List Event} (finished : Finished factory requests events) :
    events.filterMap (recorded factory requests) = [] ↔ events.filterMap (installed factory requests) = [] := by
  have happens : ∀ i,(Event.Record i ∈ events ↔ (outcome factory requests i).isSome) ∧
      (Event.Install i ∈ events ↔ (outcome factory requests i).isSome) := by
    intro i
    rw [← List.count_pos_iff,← List.count_pos_iff,finished.records,finished.installs]
    cases outcome factory requests i <;> simp
  simp only [List.filterMap_eq_nil_iff]
  constructor
  · intro none event member
    cases event with
    | Record i => rfl
    | Install i => simpa [recorded,installed] using none (.Record i) ((happens i).1.mpr ((happens i).2.mp member))
  · intro none event member
    cases event with
    | Record i => simpa [recorded,installed] using none (.Install i) ((happens i).2.mpr ((happens i).1.mp member))
    | Install i => rfl

end

/-! ### A server -/

open scoped Reference

/-- Boots succeed; `sidecars` are the templates that lie around. -/
def calm (sidecars : String → Except String String) : Surroundings where
  world := { Reference.calmWorld closed with sidecarText := fun _ => sidecars }
  x509 := Reference.x509
  uuidV7Like := "0"
  configDir := none
  cacheDir := some "/cache"
  currentDir := .ok "/work"
  isFile := fun _ => true
  unixSecs := 0
  approvalFile := none
  stdioMcpClient := ⟨fun _ _ _ _ => .error "no server"⟩
  loadBackend := fun _ _ _ => .ok ReferenceTurn.doneModel

/-- A server with a model and without a sidecar. -/
def args : UiArgs where
  manifest := some Reference.config.manifestPath
  model := some Reference.config.modelPath
  backend := .Llama
  config := none
  chatTemplateSidecar := none
  identityDir := some Reference.config.identityDir
  workload := Reference.config.workloadName
  instanceName := Reference.config.instanceName
  ledger := none

def fixedArgs : SessionBackendFactory := factoryOf args Reference.config.manifestPath

theorem calm_boots_ui (sidecars : String → Except String String) (modelPath : String) (ledgerPath : Option String) :
    ∃ session,bootSessionForUi (calm sidecars) fixedArgs modelPath ledgerPath = .ok session ∧ session.modelPath = modelPath := by
  refine @bootSessionForUi_succeeds _ _ _ _ _ _ _ Reference.config.identityDir _ closed Reference.files _ rfl ?_
    (fun _ _ => rfl)
  obtain ⟨svid,issued⟩ := Reference.issues (Faultless.digestsOf Reference.files modelPath Reference.config.manifestPath none) none
  obtain ⟨bound,template⟩ := issueSvid_binds Reference.x509_signs issued
  intro world x509 ca
  refine Faultless.Bootable.mk ?loaded ?unreserved ?unchanged ?plain ?issued ?created
  case loaded => rfl
  case unreserved => rfl
  case unchanged => exact fun _ _ _ => rfl
  case plain => rfl
  case issued => exact ⟨svid,issued,bound,template⟩
  case created => exact ⟨[],rfl,by simp⟩

theorem args_built (sidecars : String → Except String String) :
    ∃ server,buildChatBackend args (calm sidecars) = .ok (some (fixedArgs,server)) := by
  obtain ⟨session,boots,-⟩ := calm_boots_ui sidecars Reference.config.modelPath none
  exact ⟨_,Ledger.bind_ok.mpr ⟨session,boots,rfl⟩⟩

theorem calm_forks (sidecars : String → Except String String) {modelDigest digest8 : String}
    (cut : Bytes.decode ((Bytes.encode modelDigest).take 8) = some digest8) :
    ∃ session,fork fixedArgs ⟨modelDigest,calm sidecars⟩ = .ok ⟨session,calm sidecars,some modelDigest⟩ ∧
      session.modelPath = cachedModel "/cache" modelDigest := by
  obtain ⟨session,boots,same⟩ := calm_boots_ui sidecars (cachedModel "/cache" modelDigest)
    (some (forkLedger (calm sidecars) "/work" digest8))
  exact ⟨session,fork_succeeds rfl rfl cut rfl boots,same⟩

/-- The names of two cache entries. -/
def digestA : String := "aaaaaaaaaaaaaaaaaaaaaaaaaaaaaaaaaaaaaaaaaaaaaaaaaaaaaaaaaaaaaaaa"
def digestB : String := "bbbbbbbbbbbbbbbbbbbbbbbbbbbbbbbbbbbbbbbbbbbbbbbbbbbbbbbbbbbbbbbb"

def bare : String → Except String String := fun _ => .error "no such file"

/-- Only the second entry of the cache has a template. -/
def templated : String → Except String String := fun path =>
  if path = sidecarBeside (cachedModel "/cache" digestB) then .ok digestB else .error "no such file"

def forkBoth (sidecars : String → Except String String) : List ForkRequest := [⟨digestA,calm sidecars⟩,⟨digestB,calm sidecars⟩]

theorem outcome_pair {factory : SessionBackendFactory} {one two : ForkRequest} {first second : SessionBackend}
    (forksOne : fork factory one = .ok first) (forksTwo : fork factory two = .ok second) (i : Nat) :
    outcome factory [one,two] i = [first,second][i]? := by
  match i with
  | 0 => simp [outcome,forksOne,Except.toOption]
  | 1 => simp [outcome,forksTwo,Except.toOption]
  | _+2 => rfl

theorem cutA : Bytes.decode ((Bytes.encode digestA).take 8) = some "aaaaaaaa" := by decide +kernel
theorem cutB : Bytes.decode ((Bytes.encode digestB).take 8) = some "bbbbbbbb" := by decide +kernel

theorem forkBoth_outcomes (sidecars : String → Except String String) : ∃ first second,
    (∀ i,outcome fixedArgs (forkBoth sidecars) i = [first,second][i]?) ∧
      first.digest = some digestA ∧ second.digest = some digestB ∧
      second.around = calm sidecars ∧ second.session.modelPath = cachedModel "/cache" digestB := by
  obtain ⟨first,forksFirst,-⟩ := calm_forks sidecars cutA
  obtain ⟨second,forksSecond,path⟩ := calm_forks sidecars cutB
  exact ⟨_,_,outcome_pair forksFirst forksSecond,rfl,rfl,rfl,path⟩

theorem calm_signs (sidecars : String → Except String String) :
    ∀ surroundings ∈ calm sidecars :: (forkBoth sidecars).map ForkRequest.around,let _ := surroundings.x509; Signs := by
  intro surroundings member
  have same : surroundings = calm sidecars := by simpa [forkBoth] using member
  subst same
  exact Reference.x509_signs

theorem bare_shares {backend : SessionBackend} (around : backend.around = calm bare) :
    let _ := backend.around.world
    SharesTemplate backend.session.modelPath none := by
  obtain ⟨session,surroundings,digest⟩ := backend
  have same : surroundings = calm bare := around
  subst same
  intro world text found
  have silent : bare (sidecarBeside session.modelPath) = .ok text := found
  simp [bare] at silent

theorem after_both {factory : SessionBackendFactory} {requests : List ForkRequest} {server : Server} {first second : SessionBackend}
    (outcomes : ∀ i,outcome factory requests i = [first,second][i]?) :
    (after (step factory requests) server [.Record 0,.Install 0,.Record 1,.Install 1]).swap = second := by
  simp only [after_cons,after_nil,step,outcomes,List.getElem?_cons_zero,List.getElem?_cons_succ]

/-- Without any sidecar both forks bind what their models have. -/
theorem binds_own_iff_bare : ∃ server,buildChatBackend args (calm bare) = .ok (some (fixedArgs,server)) ∧
    BindsOwnTemplate (after (step fixedArgs (forkBoth bare)) server [.Record 0,.Install 0,.Record 1,.Install 1]).swap := by
  obtain ⟨server,built⟩ := args_built bare
  obtain ⟨first,second,outcomes,-,-,around,-⟩ := forkBoth_outcomes bare
  refine ⟨server,built,?_⟩
  have binds := binds_own_iff built (calm_signs bare) [.Record 0,.Install 0,.Record 1,.Install 1]
  rw [after_both outcomes] at binds ⊢
  exact binds.mpr (bare_shares around)

theorem templated_there : templated (sidecarBeside (cachedModel "/cache" digestB)) = .ok digestB := by
  unfold templated
  generalize sidecarBeside (cachedModel "/cache" digestB) = path
  simp

theorem templated_differs {backend : SessionBackend} (around : backend.around = calm templated)
    (path : backend.session.modelPath = cachedModel "/cache" digestB) :
    ¬ (let _ := backend.around.world; SharesTemplate backend.session.modelPath none) := by
  obtain ⟨session,surroundings,digest⟩ := backend
  have same : surroundings = calm templated := around
  have model : session.modelPath = cachedModel "/cache" digestB := path
  subst same
  intro shares
  have silent : ∀ text,templated (sidecarBeside session.modelPath) ≠ .ok text := shares
  rw [model,templated_there] at silent
  exact silent digestB rfl

/-- A fork to a model with a template binds none when the server started without one. -/
theorem fork_drops_template : ¬ ∀ (args : UiArgs) (around : Surroundings) (factory : SessionBackendFactory) (server : Server)
    (requests : List ForkRequest) (events : List Event),buildChatBackend args around = .ok (some (factory,server)) →
      (∀ surroundings ∈ around :: requests.map ForkRequest.around,let _ := surroundings.x509; Signs) →
      BindsOwnTemplate (after (step factory requests) server events).swap := by
  intro binds
  obtain ⟨server,built⟩ := args_built templated
  obtain ⟨first,second,outcomes,-,-,around,path⟩ := forkBoth_outcomes templated
  have bound := binds args (calm templated) fixedArgs server (forkBoth templated) [.Record 0,.Install 0,.Record 1,.Install 1]
    built (calm_signs templated)
  rw [after_both outcomes] at bound
  exact templated_differs around path ((outcome_binds (calm_signs templated) (outcomes 1)).mp bound)

/-! ### Two forks at once -/

theorem finished_both {factory : SessionBackendFactory} {requests : List ForkRequest} {first second : SessionBackend}
    (outcomes : ∀ i,outcome factory requests i = [first,second][i]?) {events : List Event}
    (records : ∀ i < 2,events.count (.Record i) = 1) (installs : ∀ i < 2,events.count (.Install i) = 1)
    (bounded : ∀ i,.Record i ∈ events ∨ .Install i ∈ events → i < 2)
    (ordered : ∀ i < 2,events.idxOf (.Record i) < events.idxOf (.Install i)) : Finished factory requests events := by
  refine ⟨?_,?_,fun i member => ordered i (bounded i (.inr member))⟩
  · intro i
    rw [outcomes]
    match i with
    | 0 => exact records 0 (by decide)
    | 1 => exact records 1 (by decide)
    | i+2 =>
      have absent : Event.Record (i+2) ∉ events := fun member => by have := bounded (i+2) (.inl member); omega
      exact List.count_eq_zero.mpr absent
  · intro i
    rw [outcomes]
    match i with
    | 0 => exact installs 0 (by decide)
    | 1 => exact installs 1 (by decide)
    | i+2 =>
      have absent : Event.Install (i+2) ∉ events := fun member => by have := bounded (i+2) (.inr member); omega
      exact List.count_eq_zero.mpr absent

/-- Installed in the order in which their digests are recorded. -/
theorem sequential_agrees {factory : SessionBackendFactory} {requests : List ForkRequest} {first second : SessionBackend}
    (outcomes : ∀ i,outcome factory requests i = [first,second][i]?) :
    [Event.Record 0,.Install 0,.Record 1,.Install 1].filterMap (recorded factory requests) =
      [Event.Record 0,.Install 0,.Record 1,.Install 1].filterMap (installed factory requests) := by
  simp [List.filterMap_cons,recorded,installed,outcomes]

/-- Two forks that are installed in the other order than their digests are recorded. -/
theorem overlap_incoherent {factory : SessionBackendFactory} {requests : List ForkRequest} {server : Server}
    {first second : SessionBackend} (outcomes : ∀ i,outcome factory requests i = [first,second][i]?)
    (different : first.digest ≠ second.digest) :
    ¬ Coherent (after (step factory requests) server [.Record 0,.Record 1,.Install 1,.Install 0]) := by
  intro same
  rw [Coherent,currentDigest_after,swapDigest_after] at same
  simp [List.filterMap_cons,recorded,installed,outcomes] at same
  exact different same.symm

theorem digests_differ : digestA ≠ digestB := by decide

end AegisNode.Ui
