import AegisNode.Entries

/-!
What a session does when nothing fails: its ledger takes the entries, its files are
those it was booted with, and an operation that the policy allows is performed.
-/
namespace AegisNode.Faultless
open Paths Clock Json Schema Policy Grants Aggregate Traced Engine Mediator Frames Entries
open Ledger hiding Error
set_option linter.unusedSectionVars false

/-! ### The ledger -/

/-- The ledger takes `n` more entries of the session. -/
structure Ready (s : Session) (n : Nat) : Prop where
  healthy : BufWriter.Healthy s.ledger.file
  own : s.ledger.sessionId = s.sessionId
  few : s.ledger.nextSequence.toNat+n < 2^64

/-- No field takes a key of the writer. -/
def Unreserved (fields : List (String × Scalar)) : Prop := ∀ field ∈ fields,field.1 ∉ reservedKeys

theorem Ready.fewer {s : Session} {n m : Nat} (ready : Ready s n) (le : m ≤ n) : Ready s m :=
  ⟨ready.healthy,ready.own,by have few := ready.few; omega⟩

theorem Ready.next {s : Session} {n : Nat} (ready : Ready s n) : Ready s.next n := ⟨ready.healthy,ready.own,ready.few⟩

theorem unreserved_append {left right : List (String × Scalar)} (first : Unreserved left) (second : Unreserved right) :
    Unreserved (left ++ right) := by
  intro field member
  rcases List.mem_append.mp member with member | member
  · exact first field member
  · exact second field member

theorem unreserved_optional {key : String} (other : key ∉ reservedKeys) (value : Option String) :
    Unreserved (Engine.optional key value) := by
  cases value with
  | none => simp [Unreserved,Engine.optional]
  | some text => simpa [Unreserved,Engine.optional] using other

theorem payload_unreserved {fields : List (String × Scalar)} (unreserved : Unreserved fields) :
    ∀ field ∈ (payloadOf fields).fields,field.1 ∉ reservedKeys := by
  intro field member
  rcases insertAll_keys member with ⟨given,inside,same⟩ | none
  · obtain ⟨first,listed,rfl⟩ := List.mem_map.mp inside
    rw [← same]
    exact unreserved first listed
  · cases none

section
variable [Chrono] [Serde] [Sha256]

theorem append_ready {s : Session} {n : Nat} (ready : Ready s (n+1)) (entryType : EntryType) (timestamp : Int)
    {fields : List (String × Scalar)} (unreserved : Unreserved fields) :
    ∃ record ledger,Ledger.append s.ledger (entryOf s entryType timestamp (payloadOf fields)) = (.ok (.ok record),ledger) ∧
      Ready (s.wrote ledger) n := by
  have few := ready.few
  have own : (entryOf s entryType timestamp (payloadOf fields)).sessionId = s.ledger.sessionId := ready.own.symm
  obtain ⟨answers,appended,clean⟩ := append_healthy ready.healthy own (payload_unreserved unreserved) (by omega)
  refine ⟨_,_,appended,clean,ready.own,?_⟩
  change (s.ledger.nextSequence+1).toNat+n < 2^64
  rw [UInt64.toNat_add]
  have one : (1 : UInt64).toNat = 1 := rfl
  rw [one,Nat.mod_eq_of_lt (by omega)]
  omega

theorem emit_ready {s : Session} {n : Nat} (ready : Ready s (n+1)) (wrap : Ledger.Error → Error) (entryType : EntryType)
    (timestamp : Int) {fields : List (String × Scalar)} (unreserved : Unreserved fields) :
    ∃ record ledger,Runs (emit wrap entryType timestamp (payloadOf fields)) s () (s.wrote ledger)
        [.Append (entryOf s entryType timestamp (payloadOf fields)) (.ok (.ok record))] ∧ Ready (s.wrote ledger) n := by
  obtain ⟨record,ledger,appended,left⟩ := append_ready ready entryType timestamp unreserved
  exact ⟨record,ledger,runs_emit.mpr ⟨record,ledger,appended,rfl,rfl⟩,left⟩

/-- The shape of most entries: the time is read first. -/
theorem stamped_ready [World] {s : Session} {n : Nat} (ready : Ready s (n+1)) (wrap : Ledger.Error → Error)
    (entryType : EntryType) {fields : List (String × Scalar)} (unreserved : Unreserved fields) :
    ∃ record ledger,Runs (utcNow >>= fun now => emit wrap entryType now (payloadOf fields)) s () (s.next.wrote ledger)
        [.UtcNow (World.utcNow s.tick),
         .Append (entryOf s entryType (World.utcNow s.tick) (payloadOf fields)) (.ok (.ok record))] ∧
      Ready (s.next.wrote ledger) n := by
  obtain ⟨record,ledger,runs,left⟩ := emit_ready ready.next wrap entryType (World.utcNow s.tick) unreserved
  exact ⟨record,ledger,runs_ask_bind.mpr ⟨_,runs,rfl⟩,left⟩

end

/-! ### The files -/

/-- The session after `n` more questions. -/
def later (s : Session) (n : Nat) : Session := { s with tick := s.tick+n }

@[simp] theorem later_tick (s : Session) (n : Nat) : (later s n).tick = s.tick+n := rfl

theorem next_later (s : Session) (n : Nat) : (later s n).next = later s (n+1) := rfl

theorem later_later (s : Session) (n m : Nat) : later (later s n) m = later s (n+m) := by
  rw [later,later,later,Nat.add_assoc]

/-- A session that asked some questions and did nothing else. -/
def Asked (s t : Session) : Prop := ∃ n,t = later s n

theorem asked_refl (s : Session) : Asked s s := ⟨0,rfl⟩

theorem asked_next {s t : Session} (asked : Asked s t) : Asked s t.next := by
  obtain ⟨n,rfl⟩ := asked
  exact ⟨n+1,rfl⟩

theorem Asked.trans {a b c : Session} (first : Asked a b) (second : Asked b c) : Asked a c := by
  obtain ⟨n,rfl⟩ := first
  obtain ⟨m,rfl⟩ := second
  exact ⟨n+m,later_later a n m⟩

theorem Asked.ready {s t : Session} {n : Nat} (asked : Asked s t) (ready : Ready s n) : Ready t n := by
  obtain ⟨m,rfl⟩ := asked
  exact ⟨ready.healthy,ready.own,ready.few⟩

/-- No entry, no effect and no question to the operator. -/
def Silent : Event → Prop
  | .UtcNow _ => True
  | .Hashed _ _ => True
  | _ => False

/-- The digests of a model, a manifest and an optional config file. -/
def digestsOf [Sha256] (files : String → List UInt8) (modelPath manifestPath : String) (configPath : Option String) :
    DigestTriple :=
  ⟨Sha256.digest (files modelPath),Sha256.digest (files manifestPath),Sha256.digest ((configPath.map files).getD [])⟩

/-- The files of the session hold these bytes from its next question on. -/
def Holds [World] (files : String → List UInt8) (s : Session) : Prop :=
  ∀ tick ≥ s.tick,∀ path,World.fileBytes tick path = .ok (files path)

theorem Asked.holds [World] {files : String → List UInt8} {s t : Session} (asked : Asked s t) (holds : Holds files s) :
    Holds files t := by
  obtain ⟨n,rfl⟩ := asked
  exact fun tick later => holds tick ((Nat.le_add_right s.tick n).trans later)

/-- The certificate binds the digests of these files. -/
def Binds [Sha256] [Identity] (files : String → List UInt8) (s : Session) : Prop :=
  Identity.extractDigestTriple s.svidCertPem = .ok (digestsOf files s.modelPath s.manifestPath s.configPath)

/-- The files hold what they held when the certificate was issued. -/
structure Steady [Sha256] [Identity] [World] (s : Session) : Prop where
  unchanged : ∃ files,Holds files s ∧ Binds files s

section
variable [Sha256] [World]

theorem Asked.steady [Identity] {s t : Session} (asked : Asked s t) (steady : Steady s) : Steady t := by
  obtain ⟨files,holds,binds⟩ := steady.unchanged
  have later := asked.holds holds
  obtain ⟨n,rfl⟩ := asked
  exact ⟨files,later,binds⟩

theorem sha256File_holds {files : String → List UInt8} {s : Session} (holds : Holds files s) (path : String) :
    Runs (sha256File path) s (Sha256.digest (files path)) s.next [.Hashed path (.ok (files path))] := by
  have read := holds s.tick le_rfl path
  rw [sha256File,runs_ask_bind]
  refine ⟨[],?_,by rw [read]; rfl⟩
  rw [read]
  exact runs_orFail_bind.mpr ⟨_,rfl,runs_pure.mpr ⟨rfl,rfl,rfl⟩⟩

/-- How many files are read. -/
def fileCount (configPath : Option String) : Nat := if configPath.isSome then 3 else 2

theorem configDigest_holds {files : String → List UInt8} {s : Session} (holds : Holds files s) (path? : Option String) :
    ∃ events,Runs (configDigest path?) s (Sha256.digest ((path?.map files).getD [])) (later s (fileCount path?-2)) events ∧
      ∀ e ∈ events,Silent e := by
  cases path? with
  | none => exact ⟨[],runs_pure.mpr ⟨rfl,rfl,rfl⟩,by simp⟩
  | some path => exact ⟨_,sha256File_holds holds path,by simp [Silent]⟩

theorem computeLiveDigests_holds {files : String → List UInt8} {s : Session} (holds : Holds files s) :
    ∃ events,Runs computeLiveDigests s (digestsOf files s.modelPath s.manifestPath s.configPath)
      (later s (fileCount s.configPath)) events ∧ ∀ e ∈ events,Silent e := by
  have once := asked_next (asked_refl s)
  obtain ⟨events,config,silent⟩ := configDigest_holds ((asked_next once).holds holds) s.configPath
  have count : later s.next.next (fileCount s.configPath-2) = later s (fileCount s.configPath) := by
    rw [← show later s 2 = s.next.next from rfl,later_later]
    cases s.configPath <;> rfl
  rw [count] at config
  refine ⟨[.Hashed s.modelPath (.ok (files s.modelPath)),.Hashed s.manifestPath (.ok (files s.manifestPath))] ++ events,?_,?_⟩
  · rw [computeLiveDigests,runs_reads_bind]
    refine runs_bind.mpr ⟨_,_,_,_,sha256File_holds holds s.modelPath,?_,rfl⟩
    rw [runs_reads_bind]
    refine runs_bind.mpr ⟨_,_,_,_,sha256File_holds (once.holds holds) s.manifestPath,?_,rfl⟩
    rw [runs_reads_bind]
    exact runs_bind.mpr ⟨_,_,_,[],config,runs_pure.mpr ⟨rfl,rfl,rfl⟩,(List.append_nil _).symm⟩
  · intro e member
    rcases List.mem_append.mp member with member | member
    · simp only [List.mem_cons,List.not_mem_nil,or_false] at member
      rcases member with rfl | rfl <;> trivial
    · exact silent e member

end

section
variable [Chrono] [Serde] [Sha256] [Identity] [World]

/-- The rebind passes and writes nothing. -/
theorem rebind_steady {s : Session} (steady : Steady s) :
    ∃ events,Runs rebind s () (later s (fileCount s.configPath+1)) events ∧ ∀ e ∈ events,Silent e := by
  obtain ⟨files,holds,binds⟩ := steady.unchanged
  obtain ⟨events,live,silent⟩ := computeLiveDigests_holds holds
  refine ⟨events ++ [.UtcNow (World.utcNow (s.tick+fileCount s.configPath))],?_,?_⟩
  · refine runs_bind.mpr ⟨_,_,_,_,live,?_,rfl⟩
    rw [runs_reads_bind]
    refine runs_ask_bind.mpr ⟨[],?_,rfl⟩
    rw [checkIdentityBinding,runs_orFail_bind]
    refine ⟨none,?_,runs_pure.mpr ⟨rfl,rfl,rfl⟩⟩
    rw [verifyDigestBinding,later,binds]
    simp [mismatch?]
  · intro e member
    rcases List.mem_append.mp member with member | member
    · exact silent e member
    · obtain rfl := List.mem_singleton.mp member
      trivial

end

/-! ### Boot -/

/-- The parts of the world that a boot needs: the manifest loads, the files can be read,
    the CA issues a certificate for their digests, and the ledger can be created. -/
structure Bootable [Sha256] [Identity] [World] (cfg : BootConfig) (policy : Manifest) (files : String → List UInt8) : Prop where
  loaded : loadPolicy 1 cfg.manifestPath = .ok policy
  unreserved : rejectReserved policy = .ok ()
  unchanged : ∀ tick < 8,∀ path,World.fileBytes tick path = .ok (files path)
  plain : cfg.chatTemplateSidecar = none
  issued : ∃ svid,Identity.issueSvid cfg.identityDir cfg.workloadName cfg.instanceName
      (digestsOf files cfg.modelPath cfg.manifestPath cfg.configPath) none = .ok svid ∧
    Identity.extractDigestTriple svid.certPem = .ok (digestsOf files cfg.modelPath cfg.manifestPath cfg.configPath) ∧
    Identity.extractChatTemplate svid.certPem = .ok none
  created : ∃ answers,World.createLedger 6 cfg.ledgerPath = .ok answers ∧ ∀ answer ∈ answers,answer.Succeeds

/-- A session right after its boot. -/
structure Fresh [Sha256] [Identity] [World] (cfg : BootConfig) (policy : Manifest) (files : String → List UInt8)
    (s : Session) : Prop where
  policy : s.policy = policy
  binds : Binds files s
  bound : s.boundDigests = digestsOf files s.modelPath s.manifestPath s.configPath
  sessionId : s.sessionId = cfg.sessionId
  sessionStart : s.sessionStart = World.utcNow 0
  channel : s.approvalChannel = none
  client : s.mcpClient = none
  model : s.loadedModel = none
  log : s.networkLog = []
  counts : s.aggregateState = ∅
  grants : s.grantTable = ∅
  version : s.ledger.schemaVersion = cfg.ledgerSchema.getD .V1
  paths : s.modelPath = cfg.modelPath ∧ s.manifestPath = cfg.manifestPath ∧ s.configPath = cfg.configPath
  names : s.identityDir = cfg.identityDir ∧ s.workloadName = cfg.workloadName ∧ s.instanceName = cfg.instanceName
  template : s.boundChatTemplate = none
  turnSvid : s.currentTurnSvid = none
  tick : s.tick = 8

theorem sessionStart_unreserved (svid : X509Svid) (bound : DigestTriple) (chatTemplate : Option Digest) :
    ∀ field ∈ (sessionStartPayload svid bound chatTemplate).fields,field.1 ∉ reservedKeys :=
  payload_unreserved (unreserved_append (by simp [Unreserved,reservedKeys]) (unreserved_optional (by decide) _))

section
variable [Sha256] [World] {files : String → List UInt8}

theorem bootDigest_unchanged (unchanged : ∀ tick < 8,∀ path,World.fileBytes tick path = .ok (files path)) {tick : Nat}
    (early : tick < 8) (path : String) : bootDigest tick path = .ok (Sha256.digest (files path)) := by
  rw [bootDigest,unchanged tick early]
  rfl

theorem bootConfigDigest_unchanged (unchanged : ∀ tick < 8,∀ path,World.fileBytes tick path = .ok (files path))
    (path? : Option String) : bootConfigDigest 4 path? = .ok (Sha256.digest ((path?.map files).getD [])) := by
  cases path? with
  | none => rfl
  | some path => exact bootDigest_unchanged unchanged (by decide) path

end

/-- A session whose files still hold what it was booted with passes its rebinds. -/
theorem Fresh.steady [Sha256] [Identity] [World] {cfg : BootConfig} {policy : Manifest} {files : String → List UInt8}
    {booted : Session} (fresh : Fresh cfg policy files booted) (holds : ∀ tick path,World.fileBytes tick path = .ok (files path))
    (channel : Option ApprovalChannel) (client : Option McpClient) : Steady (attach booted channel client) :=
  ⟨files,fun tick _ path => holds tick path,fresh.binds⟩

theorem Ready.attach {s : Session} {n : Nat} (ready : Ready s n) (channel : Option ApprovalChannel)
    (client : Option McpClient) : Ready (attach s channel client) n := ⟨ready.healthy,ready.own,ready.few⟩

/-- The boot succeeds, and the ledger has room for more entries. -/
theorem boot_succeeds [Chrono] [Serde] [Sha256] [Identity] [World] [Adversarial.PerlWord] {cfg : BootConfig}
    {policy : Manifest} {files : String → List UInt8} (bootable : Bootable cfg policy files) {n : Nat} (few : 1+n < 2^64) :
    ∃ booted,boot cfg = .ok booted ∧ Fresh cfg policy files booted ∧ Ready booted n := by
  obtain ⟨svid,issued,bound,untemplated⟩ := bootable.issued
  obtain ⟨answers,created,clean⟩ := bootable.created
  have binding : verifyDigestBinding svid.certPem (digestsOf files cfg.modelPath cfg.manifestPath cfg.configPath) = .ok none := by
    simp [verifyDigestBinding,bound,mismatch?]
  have template : verifyChatTemplateBinding svid.certPem none = .ok none := by
    rw [verifyChatTemplateBinding,untemplated]
  obtain ⟨left,appended,healthy⟩ := @append_healthy _ _ _
    (create cfg.sessionId World.entryUuid (cfg.ledgerSchema.getD .V1) answers)
    ⟨cfg.sessionId,.SessionStart,Sha256.digest (Bytes.encode svid.spiffeUri),World.utcNow 7,
      sessionStartPayload svid (digestsOf files cfg.modelPath cfg.manifestPath cfg.configPath) none⟩
    clean rfl (sessionStart_unreserved _ _ _) (by change 0+1 < 2^64; decide)
  rw [digestsOf] at issued binding appended
  have model := bootDigest_unchanged bootable.unchanged (show 2 < 8 by decide) cfg.modelPath
  have manifest := bootDigest_unchanged bootable.unchanged (show 3 < 8 by decide) cfg.manifestPath
  refine ⟨?booted,?boots,?fresh,?ready⟩
  case boots =>
    simp only [boot,bootable.loaded,bootable.unreserved,model,manifest,
      bootConfigDigest_unchanged bootable.unchanged,bootable.plain,bootChatTemplate,issued,binding,template,created,stopErr,
      Except.mapError,noDrift,bind,Except.bind,appended]
    rfl
  case fresh =>
    exact ⟨rfl,bound,rfl,rfl,rfl,rfl,rfl,rfl,rfl,rfl,rfl,rfl,⟨rfl,rfl,rfl⟩,⟨rfl,rfl,rfl⟩,rfl,rfl,rfl⟩
  case ready =>
    refine ⟨healthy,rfl,?_⟩
    change (0+1 : UInt64).toNat+n < 2^64
    exact few

/-! ### Operations that the policy allows -/

theorem fileUri_absolute [World] {path : String} (absolute : isAbsolute path = true) (s : Session) :
    Runs (fileUri path) s ("file://" ++ path) s [] := by
  rw [fileUri,if_pos absolute]
  exact runs_pure.mpr ⟨rfl,rfl,rfl⟩

theorem fileUri_ne (path : String) : "file://" ++ path ≠ "" := by
  intro empty
  have length := congrArg String.length empty
  rw [String.length_append] at length
  change 7+path.length = 0 at length
  omega

section
variable [Chrono] [Serde] [Sha256] [World]

/-- The policy allows the operation whenever it is asked, and its target has a name. -/
structure Permits {α : Type} (g : Gated α) (s : Session) : Prop where
  allows : ∀ t,Asked s t → ∃ u events,Runs g.decision t .Allow u events ∧ Asked t u ∧ ∀ e ∈ events,Silent e
  locates : ∀ t,Asked s t → ∃ uri u,uri ≠ "" ∧ Runs g.resourceUri t uri u [] ∧ Asked t u

/-- The last part of a mediated call: the effect and its access entry. -/
def conclude {α : Type} (g : Gated α) (resourceUri : String) (rsid : Option String) : Run α := do
  let answer ← perform g.effect g.answer
  let value ← orFail .Io answer
  emitSuccess resourceUri g.accessType (g.bytes value) rsid
  return value

/-- The quota has room for one more call of the class. -/
def Room (s : Session) (toolClass : ToolClass) (counted : SessionAggregateState) : Prop :=
  ∃ n,checkAndIncrement s.aggregateState toolClass (quotaFor s.policy toolClass) = .ok (n,counted)

theorem enforceAggregateQuota_room {s : Session} {toolClass : ToolClass} {counted : SessionAggregateState}
    (room : Room s toolClass counted) (resourceUri accessKind : String) :
    Runs (enforceAggregateQuota toolClass resourceUri accessKind) s () { s with aggregateState := counted } [] := by
  obtain ⟨n,passes⟩ := room
  rw [enforceAggregateQuota,runs_reads_bind,runs_reads_bind,passes]
  exact runs_update.mpr ⟨rfl,rfl⟩

theorem emitSuccess_ready {s : Session} {n : Nat} (ready : Ready s (n+1)) {resourceUri : String} (named : resourceUri ≠ "")
    (accessType : AccessType) (bytes : UInt64) (rsid : Option String) :
    ∃ record ledger,Runs (emitSuccess resourceUri accessType bytes rsid) s () (s.next.wrote ledger)
        [.UtcNow (World.utcNow s.tick),.Append (entryOf s .Access (World.utcNow s.tick)
          (payloadOf (accessFields resourceUri accessType bytes rsid))) (.ok (.ok record))] ∧
      Ready (s.next.wrote ledger) n := by
  have unreserved : Unreserved (accessFields resourceUri accessType bytes rsid) :=
    unreserved_append (by simp [Unreserved,reservedKeys]) (unreserved_optional (by decide) rsid)
  obtain ⟨record,ledger,runs,left⟩ :=
    stamped_ready ready (fun e => .AccessLog (.Ledger e)) .Access unreserved
  refine ⟨record,ledger,?_,left⟩
  simpa only [emitSuccess,if_neg named] using runs

theorem conclude_ready {α : Type} {g : Gated α} {s : Session} {n : Nat} (ready : Ready s (n+1)) {resourceUri : String}
    (named : resourceUri ≠ "") (rsid : Option String) {value : α} (answered : g.answer s.tick = .ok value) :
    ∃ t after,Runs (conclude g resourceUri rsid) s value t (.Performed s.tick g.effect :: after) ∧ Ready t n := by
  obtain ⟨record,ledger,emits,left⟩ := emitSuccess_ready ready.next named g.accessType (g.bytes value) rsid
  exact ⟨_,_,runs_perform_bind.mpr ⟨_,runs_orFail_bind.mpr ⟨value,answered,emits.then_pure value⟩,rfl⟩,left⟩

/-- A failed effect is the last thing that happens. -/
theorem conclude_fails {α : Type} {g : Gated α} {s : Session} {resourceUri : String} {rsid : Option String} {error : IoError}
    (answered : g.answer s.tick = .error error) :
    Stops (conclude g resourceUri rsid) s (.Err (.Io error)) s.next [.Performed s.tick g.effect] := by
  refine stops_perform_bind.mpr ⟨[],?_,rfl⟩
  rw [answered]
  exact stops_orFail_bind.mpr (.inl ⟨error,rfl,rfl,rfl,rfl⟩)

/-- An allowed operation whose effect fails writes nothing. -/
theorem settle_fails {α : Type} {g : Gated α} {s : Session} {counted : SessionAggregateState} (room : Room s g.toolClass counted)
    {error : IoError} (fails : ∀ tick,g.answer tick = .error error) (resourceUri : String) (rsid : Option String) :
    ∃ t,Stops (settle g resourceUri rsid .Allow) s (.Err (.Io error)) t [.Performed s.tick g.effect] ∧
      t.grantTable = s.grantTable ∧ ∀ {n},Ready s n → Ready t n := by
  have charges := enforceAggregateQuota_room room resourceUri g.accessType.name
  have concludes : Stops (conclude g resourceUri rsid) { s with aggregateState := counted } _ _ _ := conclude_fails (fails _)
  exact ⟨_,charges.continues.stops concludes,rfl,fun ready => ⟨ready.healthy,ready.own,ready.few⟩⟩

/-- An allowed call comes to its effect without writing anything. -/
theorem mediateGated_continues [Identity] {α : Type} {g : Gated α} {s : Session} (steady : Steady s) (permits : Permits g s)
    {counted : SessionAggregateState} (room : Room s g.toolClass counted) (rsid : Option String) :
    ∃ uri u before,uri ≠ "" ∧ Asked { s with aggregateState := counted } u ∧ (∀ e ∈ before,Silent e) ∧
      Continues (mediateGated g rsid) s (conclude g uri rsid) u before := by
  obtain ⟨checked,rebinds,silent₁⟩ := rebind_steady steady
  have asked₁ : Asked s (later s (fileCount s.configPath+1)) := ⟨_,rfl⟩
  obtain ⟨t₂,decided,allows,asked₂,silent₂⟩ := permits.allows _ asked₁
  obtain ⟨uri,t₃,named,locates,asked₃⟩ := permits.locates t₂ (asked₁.trans asked₂)
  obtain ⟨n,rfl⟩ := (asked₁.trans asked₂).trans asked₃
  have charges : Runs (enforceAggregateQuota g.toolClass uri g.accessType.name) (later s n) ()
      { later s n with aggregateState := counted } [] :=
    enforceAggregateQuota_room (s := later s n) room uri g.accessType.name
  have routes : Runs (routeThroughApproval .Allow (g.operation uri) rsid) (later s n) .Allow (later s n) [] :=
    runs_pure.mpr ⟨rfl,rfl,rfl⟩
  refine ⟨uri,{ later s n with aggregateState := counted },checked ++ (decided ++ ([] ++ ([] ++ ([] ++ [])))),named,
    ⟨n,rfl⟩,?_,?_⟩
  · intro e member
    simp only [List.append_nil] at member
    rcases List.mem_append.mp member with member | member
    · exact silent₁ e member
    · exact silent₂ e member
  · exact rebinds.continues.trans (allows.continues.trans (locates.continues.trans (routes.continues.trans
      (charges.continues.trans (continues_refl _ _)))))

/-- An allowed call that is answered returns the answer. -/
theorem mediateGated_runs [Identity] {α : Type} {g : Gated α} {s : Session} {n : Nat} (steady : Steady s)
    (permits : Permits g s) {counted : SessionAggregateState} (room : Room s g.toolClass counted)
    (answers : ∀ tick,∃ value,g.answer tick = .ok value) (ready : Ready s (n+1)) (rsid : Option String) :
    ∃ value t before tick after,Runs (mediateGated g rsid) s value t (before ++ .Performed tick g.effect :: after) ∧
      Ready t n := by
  obtain ⟨uri,u,before,named,asked,-,continues⟩ := mediateGated_continues steady permits room rsid
  obtain ⟨value,answered⟩ := answers u.tick
  have counting : Ready { s with aggregateState := counted } (n+1) := ⟨ready.healthy,ready.own,ready.few⟩
  obtain ⟨t,after,concludes,left⟩ := conclude_ready (asked.ready counting) named rsid answered
  exact ⟨value,t,before,u.tick,after,continues.runs concludes,left⟩

end

section
variable [World] {s : Session}

theorem permits_filesystemRead {path : String} (allowed : checkFilesystemRead s.policy path = .Allow)
    (absolute : isAbsolute path = true) : Permits (filesystemRead path) s := by
  refine ⟨?allows,?locates⟩
  case allows =>
    rintro t ⟨n,rfl⟩
    exact ⟨_,[],runs_reads.mpr ⟨allowed.symm,rfl,rfl⟩,asked_refl _,by simp⟩
  case locates =>
    rintro t ⟨n,rfl⟩
    exact ⟨_,_,fileUri_ne path,fileUri_absolute absolute _,asked_refl _⟩

end

/-! ### Connections and MCP calls -/

/-- Nothing that a rebind reads changes in a call. -/
theorem Steady.keeps [Sha256] [Identity] [World] {s t : Session} {events : List Event} (steady : Steady s) (keeps : Keeps s events t) : Steady t := by
  obtain ⟨files,holds,binds⟩ := steady.unchanged
  refine ⟨files,fun tick after => holds tick (keeps.later.trans after),?_⟩
  rw [keeps.same]
  exact binds

theorem networkUri_ne (host : String) (port : UInt16) (proto : NetworkProto) : networkUri host port proto ≠ "" := by
  intro empty
  have length := congrArg String.length empty
  unfold networkUri at length
  rw [String.length_append,String.length_append,String.length_append,String.length_append] at length
  change _+3+_+_+_ = 0 at length
  omega

theorem mcpUri_ne (serverName toolName : String) : mcpUri serverName toolName ≠ "" := by
  intro empty
  have length := congrArg String.length empty
  unfold mcpUri at length
  rw [String.length_append,String.length_append,String.length_append] at length
  change 6+_+_+_ = 0 at length
  omega

section
variable [Chrono] [Serde] [Sha256] [Identity] [World] {s : Session} {n : Nat} {rsid : Option String}

variable (rsid) in
/-- A connection that the policy allows comes to its effect. -/
theorem mediateNetworkConnect_continues {host : String} {port : UInt16} {proto : NetworkProto} (steady : Steady s)
    (allowed : checkNetworkOutbound s.policy host port proto = .Allow) :
    ∃ k before,Continues (mediateNetworkConnect host port proto rsid) s
      (finishConnect .Allow host port proto rsid (.ok .Allow)) (later s k) before ∧ ∀ e ∈ before,Silent e := by
  obtain ⟨checked,rebinds,silent⟩ := rebind_steady steady
  have decides : Runs (connectDecision host port proto) (later s (fileCount s.configPath+1)) .Allow
      (later s (fileCount s.configPath+1)) [] := runs_reads.mpr ⟨allowed.symm,rfl,rfl⟩
  have routes : Runs (attempt caught (routeThroughApproval .Allow (networkConnect host port proto) rsid))
      (later s (fileCount s.configPath+1)) (.ok .Allow) (later s (fileCount s.configPath+1)) [] :=
    runs_attempt_ok.mpr (runs_pure.mpr ⟨rfl,rfl,rfl⟩)
  refine ⟨_,checked ++ ([] ++ ([] ++ [])),rebinds.continues.trans (decides.continues.trans (routes.continues.trans
    (continues_refl _ _))),?_⟩
  simpa using silent

theorem finishConnect_runs {host : String} {port : UInt16} {proto : NetworkProto}
    (answered : World.connect s.tick host port = .ok ()) (ready : Ready s (n+1)) :
    ∃ t after,Runs (finishConnect .Allow host port proto rsid (.ok .Allow)) s () t (.Performed s.tick (.Connect host port) :: after) ∧
      Ready t n := by
  obtain ⟨record,ledger,emits,left⟩ := emitSuccess_ready ready.next (networkUri_ne host port proto) .NetworkOutbound 0 rsid
  have logs : Runs (logConnection host port proto .Allowed) (s.next.next.wrote ledger) ()
      { (s.next.next.wrote ledger).next with networkLog := (s.next.next.wrote ledger).networkLog ++
        [⟨host,port,protoText proto,.Allowed,World.utcNow (s.next.next.wrote ledger).tick⟩] }
      [.UtcNow (World.utcNow (s.next.next.wrote ledger).tick)] := rfl
  exact ⟨_,_,runs_perform_bind.mpr ⟨_,runs_orFail_bind.mpr ⟨(),answered,emits.continues.runs logs⟩,rfl⟩,
    ⟨left.healthy,left.own,left.few⟩⟩

variable (rsid) in
theorem mediateNetworkConnect_runs {host : String} {port : UInt16} {proto : NetworkProto} (steady : Steady s)
    (allowed : checkNetworkOutbound s.policy host port proto = .Allow)
    (answers : ∀ tick,World.connect tick host port = .ok ()) (ready : Ready s (n+1)) :
    ∃ t before tick after,Runs (mediateNetworkConnect host port proto rsid) s () t
      (before ++ .Performed tick (.Connect host port) :: after) ∧ Ready t n := by
  obtain ⟨k,before,continues,-⟩ := mediateNetworkConnect_continues rsid steady allowed
  have asked : Asked s (later s k) := ⟨k,rfl⟩
  obtain ⟨t,after,finishes,left⟩ := finishConnect_runs (answers _) (asked.ready ready)
  exact ⟨t,before,_,after,continues.runs finishes,left⟩

variable (rsid) in
/-- An MCP call that is granted comes to its client, if its arguments are valid. -/
theorem mediateMcpToolCall_continues {serverName toolName : String} {args : Value} {grant : McpServerGrant} {client : McpClient}
    (steady : Steady s) (allowed : checkMcpTool s.policy serverName toolName = .Allow)
    (listed : serverGrant s.policy serverName = some grant)
    (valid : ∀ t,Asked s t → ∃ u events,Runs (runMcpPreValidate serverName toolName args (declaredClauses grant toolName))
      t () u events ∧ Asked t u)
    {counted : SessionAggregateState} (room : Room s (.Mcp serverName) counted) (attached : s.mcpClient = some client) :
    ∃ u before,Asked { s with aggregateState := counted } u ∧ Continues (mediateMcpToolCall serverName toolName args rsid) s
      (callAttached serverName grant.serverUri toolName args rsid (some client)) u before := by
  obtain ⟨checked,rebinds,-⟩ := rebind_steady steady
  have asked : Asked s (later s (fileCount s.configPath+1)) := ⟨_,rfl⟩
  obtain ⟨u,validated,validates,asked'⟩ := valid _ asked
  obtain ⟨k,rfl⟩ := asked.trans asked'
  have charges := enforceAggregateQuota_room (s := later s k) room (mcpUri serverName toolName) "mcp_tool_call"
  refine ⟨{ later s k with aggregateState := counted },checked ++ (validated ++ ([] ++ [])),⟨k,rfl⟩,?_⟩
  refine rebinds.continues.trans ?_
  rw [Continues,reads_bind,later,allowed]
  dsimp only
  rw [mcpAllowed,reads_bind,listed]
  refine validates.continues.trans (charges.continues.trans ?_)
  rw [Continues,callClient,reads_bind,later,attached]
  rfl

variable (rsid) in
theorem callAttached_runs (serverName : String) {serverUri toolName : String} {args value : Value} {client : McpClient}
    (answered : client.callTool s.tick serverUri toolName args = .ok value) (ready : Ready s (n+1)) :
    ∃ t after,Runs (callAttached serverName serverUri toolName args rsid (some client)) s value t
      (.Performed s.tick (.CallTool serverName serverUri toolName args) :: after) ∧ Ready t n := by
  obtain ⟨record,ledger,emits,left⟩ := emitSuccess_ready ready.next (mcpUri_ne serverName toolName) .McpToolCall
    (UInt64.ofNat (Bytes.encode (Serde.toString value)).length) rsid
  exact ⟨_,_,runs_perform_bind.mpr ⟨_,runs_orFail_bind.mpr ⟨value,answered,emits.then_pure value⟩,rfl⟩,left⟩

variable (rsid) in
/-- A program comes to its approval without anything being written. -/
theorem mediateExec_continues {program : String} (args : List String) {decision : Decision} (steady : Steady s)
    (decides : checkExec s.policy program = decision) : ∃ checked,Continues (mediateExec program args rsid) s
      (routeThroughApproval decision ((execRun program args).operation (execUri program)) rsid >>=
        settle (execRun program args) (execUri program) rsid) (later s (fileCount s.configPath+1)) checked ∧
      ∀ e ∈ checked,Silent e := by
  obtain ⟨checked,rebinds,silent⟩ := rebind_steady steady
  have decided : Runs (execDecision program) (later s (fileCount s.configPath+1)) decision
      (later s (fileCount s.configPath+1)) [] := runs_reads.mpr ⟨decides.symm,rfl,rfl⟩
  have named : Runs (pure (execUri program) : Run String) (later s (fileCount s.configPath+1)) (execUri program)
      (later s (fileCount s.configPath+1)) [] := runs_pure.mpr ⟨rfl,rfl,rfl⟩
  refine ⟨checked ++ ([] ++ ([] ++ [])),rebinds.continues.trans (decided.continues.trans (named.continues.trans
    (continues_refl _ _))),?_⟩
  simpa using silent

variable (rsid) in
/-- A program that the policy denies is refused. -/
theorem mediateExec_denies {program reason : String} (args : List String) (steady : Steady s) (ready : Ready s 1)
    (denies : checkExec s.policy program = .Deny reason) :
    ∃ t events entry record,Stops (mediateExec program args rsid) s (.Err (.Denied reason)) t events ∧
      .Append entry (.ok (.ok record)) ∈ events ∧ entry.entryType = .Violation ∧
      entry.payload = payloadOf (denialFields reason (some (execUri program)) (some "exec")) := by
  obtain ⟨checked,continues,-⟩ := mediateExec_continues rsid args steady denies
  have unreserved : Unreserved (denialFields reason (some (execUri program)) (some "exec")) := by
    unfold Unreserved denialFields Engine.optional reservedKeys
    simp
  obtain ⟨record,ledger,emits,-⟩ := stamped_ready (Asked.ready ⟨_,rfl⟩ ready) (fun e => Engine.Error.Policy (.Ledger e)) .Violation
    unreserved
  have refuses : Stops (settle (execRun program args) (execUri program) rsid (.Deny reason)) _ _ _ _ :=
    (Runs.continues (p := emitDeny (execUri program) "exec" reason) emits).stops (stops_deny.mpr ⟨rfl,rfl,rfl⟩)
  have stops := continues.stops
    ((runs_pure.mpr ⟨rfl,rfl,rfl⟩ : Runs (pure (.Deny reason) : Run Decision) _ _ _ []).continues.stops refuses)
  refine ⟨_,_,entryOf (later s (fileCount s.configPath+1)) .Violation (World.utcNow (s.tick+(fileCount s.configPath+1)))
    (payloadOf (denialFields reason (some (execUri program)) (some "exec"))),record,stops,?_,rfl,rfl⟩
  simp

end

/-! ### What the operator answers -/

section
variable [Chrono] [Serde] [Sha256] [World] {s : Session} {n : Nat} {op : Operation} {rsid : Option String} {summary : String}

variable (rsid summary) in
/-- Without an advisory tier the table of grants is looked up. -/
theorem approve_looks (tier : tierFor s.policy op.toolClass ≠ .Advisory) :
    Continues (approve op rsid summary) s (consult op rsid summary (ttlSecsFor s.policy op.toolClass)
      (lookup s.grantTable op.toolName op.canonicalArgs (World.systemNow s.tick))) s.next
      [.SystemNow (World.systemNow s.tick)] := by
  rw [Continues,approve,reads_bind,reads_bind,if_neg tier,systemNow,ask_bind,reads_bind]
  rfl

variable (op rsid summary) in
/-- Without a grant and without a channel the approval is left open. -/
theorem approve_open (tier : tierFor s.policy op.toolClass ≠ .Advisory)
    (ungranted : lookup s.grantTable op.toolName op.canonicalArgs (World.systemNow s.tick) = none)
    (unattached : s.approvalChannel = none) : Runs (approve op rsid summary) s (.RequireApproval summary) s.next
      [.SystemNow (World.systemNow s.tick)] := by
  have looks := approve_looks rsid summary tier
  rw [ungranted] at looks
  have consults : Runs (consult op rsid summary (ttlSecsFor s.policy op.toolClass) none) s.next (.RequireApproval summary)
      s.next [] := by
    rw [consult,runs_reads_bind,Session.next_approvalChannel,unattached]
    exact runs_pure.mpr ⟨rfl,rfl,rfl⟩
  exact looks.runs consults

/-- The entry of a request. -/
def requestEntry (s : Session) (req : ApprovalRequest) : Entry :=
  entryOf s .ApprovalRequest (World.utcNow (s.tick+1))
    (payloadOf (requestFields req (Chrono.rfc3339 (World.utcNow s.tick+req.timeout*second))))

theorem emitApprovalRequest_ready (ready : Ready s (n+1)) (req : ApprovalRequest) :
    ∃ record ledger,Runs (emitApprovalRequest req) s () ((later s 2).wrote ledger)
        [.UtcNow (World.utcNow s.tick),.UtcNow (World.utcNow (s.tick+1)),.Append (requestEntry s req) (.ok (.ok record))] ∧
      Ready ((later s 2).wrote ledger) n := by
  have unreserved : Unreserved (requestFields req (Chrono.rfc3339 (World.utcNow s.tick+req.timeout*second))) :=
    unreserved_append (unreserved_append (by simp [Unreserved,reservedKeys]) (unreserved_optional (by decide) _))
      (by simp [Unreserved,reservedKeys])
  obtain ⟨record,ledger,runs,left⟩ := stamped_ready ready.next Error.Ledger .ApprovalRequest unreserved
  exact ⟨record,ledger,runs_ask_bind.mpr ⟨_,runs,rfl⟩,left⟩

/-- The channel is asked after the entry of the request. -/
theorem askOperator_asks {channel : ApprovalChannel} {ttlSecs : Nat} {outcome : ApprovalOutcome} (ready : Ready s (n+1))
    (answers : channel.requestApproval (s.tick+2) (requestFor s op rsid summary) = .ok outcome) :
    ∃ record u,Continues (askOperator op rsid summary ttlSecs channel) s
        (takeOutcome op rsid ttlSecs (requestFor s op rsid summary) outcome) u
        [.UtcNow (World.utcNow s.tick),.UtcNow (World.utcNow (s.tick+1)),
         .Append (requestEntry s (requestFor s op rsid summary)) (.ok (.ok record)),
         .Approval (requestFor s op rsid summary) (.ok outcome)] ∧
      Ready u n ∧ ∃ ledger,u = (later s 3).wrote ledger := by
  obtain ⟨record,ledger,runs,left⟩ := emitApprovalRequest_ready ready (requestFor s op rsid summary)
  refine ⟨record,((later s 2).wrote ledger).next,?_,left.next,ledger,rfl⟩
  rw [Continues,askOperator,reads_bind,bind_ok runs.result,runs.state,runs.events,ask_bind]
  rw [show ((later s 2).wrote ledger).tick = s.tick+2 from rfl,answers,orFail_ok_bind]
  rfl

/-- Without a live grant the operator is asked. -/
theorem approve_asks {channel : ApprovalChannel} {outcome : ApprovalOutcome} (tier : tierFor s.policy op.toolClass ≠ .Advisory)
    (ungranted : lookup s.grantTable op.toolName op.canonicalArgs (World.systemNow s.tick) = none)
    (attached : s.approvalChannel = some channel)
    (answers : channel.requestApproval (s.tick+3) (requestFor s op rsid summary) = .ok outcome) (ready : Ready s (n+1)) :
    ∃ entry record u,Continues (approve op rsid summary) s
        (takeOutcome op rsid (ttlSecsFor s.policy op.toolClass) (requestFor s op rsid summary) outcome) u
        [.SystemNow (World.systemNow s.tick),.UtcNow (World.utcNow (s.tick+1)),.UtcNow (World.utcNow (s.tick+2)),
         .Append entry (.ok (.ok record)),.Approval (requestFor s op rsid summary) (.ok outcome)] ∧
      entry.entryType = .ApprovalRequest ∧ Ready u n ∧ ∃ ledger,u = (later s 4).wrote ledger := by
  have looks := approve_looks rsid summary tier
  rw [ungranted] at looks
  obtain ⟨record,u,asks,left,ledger,rfl⟩ := askOperator_asks (s := s.next) ready.next answers
  have attaches : Continues (consult op rsid summary (ttlSecsFor s.policy op.toolClass) none) s.next
      (askOperator op rsid summary (ttlSecsFor s.policy op.toolClass) channel) s.next [] := by
    rw [Continues,consult,reads_bind,Session.next_approvalChannel,attached]
    rfl
  exact ⟨_,record,_,looks.trans (attaches.trans asks),rfl,left,ledger,rfl⟩

/-- The grant that an answer leaves. -/
def grantOf (s : Session) (op : Operation) (ttlSecs : Nat) (decision : GrantDecision) : ApprovalGrant :=
  ⟨World.uuid s.tick,World.systemNow (s.tick+1),ttlSecs*1000000000,op.toolName,canonicalArgHash op.canonicalArgs,decision⟩

/-- The session with one more grant. -/
def filed (s : Session) (grant : ApprovalGrant) : Session := { later s 2 with grantTable := insert s.grantTable grant }

variable (s op) in
theorem storeGrant_runs (ttlSecs : Nat) (decision : GrantDecision) :
    Runs (storeGrant op ttlSecs decision) s (grantOf s op ttlSecs decision) (filed s (grantOf s op ttlSecs decision))
      [.SystemNow (World.systemNow (s.tick+1))] := rfl

variable (op rsid) in
theorem takeOutcome_rejected (ttlSecs : Nat) (req : ApprovalRequest) (reason : String) (decidedAt : Int)
    (ready : Ready s (n+1)) : ∃ entry record now t u,Stops (takeOutcome op rsid ttlSecs req (.Rejected reason decidedAt)) s
        (.Err (.Denied ("approval rejected: " ++ reason))) t
        [.UtcNow (World.utcNow s.tick),.Append entry (.ok (.ok record)),.SystemNow now] ∧
      entry.entryType = .ApprovalRejected ∧ Ready t n ∧ t.grantTable = insert s.grantTable (grantOf u op ttlSecs (.Deny reason)) := by
  have unreserved : Unreserved (rejectedFields reason (Chrono.rfc3339 decidedAt) req.reasoningStepId) :=
    unreserved_append (by simp [Unreserved,reservedKeys]) (unreserved_optional (by decide) _)
  obtain ⟨record,ledger,runs,left⟩ := stamped_ready ready Error.Ledger .ApprovalRejected unreserved
  have files := storeGrant_runs (s.next.wrote ledger) op ttlSecs (.Deny reason)
  exact ⟨_,record,_,_,_,runs.continues.stops (files.continues.stops (stops_deny.mpr ⟨rfl,rfl,rfl⟩)),rfl,
    ⟨left.healthy,left.own,left.few⟩,rfl⟩

variable (op rsid) in
theorem takeOutcome_grants (ttlSecs : Nat) (req : ApprovalRequest) (approver : String) (decidedAt : Int)
    (ready : Ready s (n+2)) : ∃ granted issued record record' now now' t u,
      Runs (takeOutcome op rsid ttlSecs req (.Granted approver decidedAt)) s .Allow t
        [.UtcNow (World.utcNow s.tick),.Append granted (.ok (.ok record)),.SystemNow now,.UtcNow now',
         .Append issued (.ok (.ok record'))] ∧
      Ready t n ∧ t.grantTable = insert s.grantTable (grantOf u op ttlSecs .Allow) := by
  have granted : Unreserved (grantedFields approver (Chrono.rfc3339 decidedAt) req.reasoningStepId) :=
    unreserved_append (by simp [Unreserved,reservedKeys]) (unreserved_optional (by decide) _)
  obtain ⟨record,ledger,grants,left⟩ := stamped_ready ready Error.Ledger .ApprovalGranted granted
  have filing : Ready (filed (s.next.wrote ledger) (grantOf (s.next.wrote ledger) op ttlSecs .Allow)) (n+1) :=
    ⟨left.healthy,left.own,left.few⟩
  have issued : Unreserved (issuedFields op rsid (grantOf (s.next.wrote ledger) op ttlSecs .Allow) approver ttlSecs) :=
    unreserved_append (unreserved_append (by simp [Unreserved,reservedKeys]) (unreserved_optional (by decide) _))
      (by simp [Unreserved])
  obtain ⟨record',ledger',issues,left⟩ := stamped_ready filing Error.Ledger .ApprovalDecision issued
  have files := storeGrant_runs (s.next.wrote ledger) op ttlSecs .Allow
  exact ⟨_,_,record,record',_,_,_,_,
    grants.continues.runs (files.continues.runs (Runs.then_pure issues Decision.Allow)),left,rfl⟩

variable (op rsid) in
/-- A live grant answers with an entry of its own. -/
theorem autoConsume_answers (grant : ApprovalGrant) (ready : Ready s (n+1)) : ∃ entry record ledger,
    (autoConsume op rsid grant s).events = [.UtcNow (World.utcNow s.tick),.Append entry (.ok (.ok record))] ∧
      entry.entryType = .ApprovalDecision ∧ entry.payload = payloadOf (consumedFields op rsid grant) ∧
      (autoConsume op rsid grant s).state = s.next.wrote ledger := by
  have unreserved : Unreserved (consumedFields op rsid grant) :=
    unreserved_append (unreserved_append (by simp [Unreserved,reservedKeys]) (unreserved_optional (by decide) _))
      (unreserved_optional (by decide) _)
  obtain ⟨record,ledger,runs,-⟩ := stamped_ready ready Error.Ledger .ApprovalDecision unreserved
  refine ⟨entryOf s .ApprovalDecision (World.utcNow s.tick) (payloadOf (consumedFields op rsid grant)),record,ledger,?_⟩
  refine ⟨?_,rfl,rfl,?_⟩
  · unfold autoConsume
    refine (Continues.events (Runs.continues runs)).trans ?_
    cases grant.decision <;> rfl
  · unfold autoConsume
    refine (congrArg Outcome.state (Runs.continues runs)).trans ?_
    cases grant.decision <;> rfl

end

end AegisNode.Faultless
