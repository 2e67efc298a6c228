import AegisNode.Entries
import AegisNode.Reference

/-!
What the identity of a session is bound to. A boot reads the manifest twice: it compiles
the policy from what it finds first, and binds the digest of what it finds afterwards.
-/
namespace AegisNode.Binding
open Clock Json Ledger Schema Policy Engine Mediator LocalCa

/-! ### Boots -/

section
variable [Chrono] [Serde] [Sha256] [World] [Adversarial.PerlWord]

/-- A boot as far as its digests go. -/
theorem boot_binds [Identity] {cfg : BootConfig} {s : Session} (boots : boot cfg = .ok s) :
    ∃ template svid answers,loadPolicy 1 cfg.manifestPath = .ok s.policy ∧
      bootDigest 3 cfg.manifestPath = .ok s.boundDigests.manifest ∧
      Identity.issueSvid cfg.identityDir cfg.workloadName cfg.instanceName s.boundDigests template = .ok svid ∧
      s.svidCertPem = svid.certPem ∧
      s.ledger = (Ledger.append (create cfg.sessionId World.entryUuid (cfg.ledgerSchema.getD .V1) answers)
        ⟨cfg.sessionId,.SessionStart,s.agentIdentityHash,World.utcNow 7,sessionStartPayload svid s.boundDigests template⟩).2 := by
  rw [boot] at boots
  simp only [bind_ok] at boots
  obtain ⟨_,loaded,_,-,_,-,_,hashed,_,-,template,-,svid,issued,_,-,_,-,_,-,_,-,answers,-,_,-,_,-,last⟩ := boots
  cases last
  exact ⟨template,svid,answers,stopErr_ok.mp loaded,hashed,stopErr_ok.mp issued,rfl,rfl⟩

omit [Chrono] [Serde] [Sha256] [World] [Adversarial.PerlWord] in
theorem manifestDigest_recorded (svid : X509Svid) (bound : DigestTriple) (chatTemplate : Option Digest) :
    Map.get (sessionStartPayload svid bound chatTemplate).fields "manifestDigestHex" =
      some (.String (Bytes.hexEncode bound.manifest.bytes)) := by
  rw [sessionStartPayload,Entries.get_payloadOf]
  cases chatTemplate <;> rfl

/-- A manifest file is parsed from the bytes that are in it. -/
def Parses (fromYaml : List UInt8 → Except PolicyError Manifest) : Prop :=
  ∀ tick path,World.manifestDocument tick path =
    match World.fileBytes tick path with
    | .ok bytes => fromYaml bytes
    | .error error => .error (.Io error)

/-- The certificate of the session and its first ledger entry name the digest of the bytes
    that the policy was compiled from. -/
def AttestsPolicy [X509] (fromYaml : List UInt8 → Except PolicyError Manifest) (cfg : BootConfig) (s : Session) : Prop :=
  ∃ bytes doc,World.fileBytes 1 cfg.manifestPath = .ok bytes ∧ fromYaml bytes = .ok doc ∧ fromDocument doc = some s.policy ∧
    (∃ bound,extractDigestTripleFromPem s.svidCertPem = .ok bound ∧ bound.manifest = Sha256.digest bytes) ∧
    ∃ payload answers,s.ledger = (Ledger.append (create cfg.sessionId World.entryUuid (cfg.ledgerSchema.getD .V1) answers)
        ⟨cfg.sessionId,.SessionStart,s.agentIdentityHash,World.utcNow 7,payload⟩).2 ∧
      Map.get payload.fields "manifestDigestHex" = some (.String (Bytes.hexEncode (Sha256.digest bytes).bytes))

/-- The two reads of the manifest find bytes of one digest. -/
def ReadsAgree (cfg : BootConfig) : Prop :=
  ∃ parsed hashed,World.fileBytes 1 cfg.manifestPath = .ok parsed ∧ World.fileBytes 3 cfg.manifestPath = .ok hashed ∧
    Sha256.digest hashed = Sha256.digest parsed

omit [Chrono] [Serde] [Sha256] [Adversarial.PerlWord] in
theorem loadPolicy_compiles {fromYaml : List UInt8 → Except PolicyError Manifest} (parses : Parses fromYaml) {path : String}
    {policy : Manifest} (loaded : loadPolicy 1 path = .ok policy) :
    ∃ bytes doc,World.fileBytes 1 path = .ok bytes ∧ fromYaml bytes = .ok doc ∧ fromDocument doc = some policy := by
  rw [loadPolicy,parses] at loaded
  cases read : World.fileBytes 1 path with
  | error error => simp [read] at loaded
  | ok bytes =>
    cases parsed : fromYaml bytes with
    | error error => simp [read,parsed] at loaded
    | ok doc =>
      cases compiled : fromDocument doc with
      | none => simp [read,parsed,compiled] at loaded
      | some found =>
        simp only [read,parsed,compiled,Except.ok.injEq] at loaded
        exact ⟨bytes,doc,rfl,parsed,loaded ▸ compiled⟩

omit [Chrono] [Serde] [Adversarial.PerlWord] in
theorem bootDigest_ok {tick : Nat} {path : String} {digest : Digest} :
    bootDigest tick path = .ok digest ↔ ∃ bytes,World.fileBytes tick path = .ok bytes ∧ digest = Sha256.digest bytes := by
  rw [bootDigest]
  cases World.fileBytes tick path with
  | error error => simp [stopErr,Except.map,Except.mapError]
  | ok bytes => simp [stopErr,Except.map,Except.mapError,eq_comm]

theorem attested_agrees [X509] (signs : Signs) {fromYaml : List UInt8 → Except PolicyError Manifest} {cfg : BootConfig} {s : Session}
    (boots : let _ := LocalCa.identity; boot cfg = .ok s) (attests : AttestsPolicy fromYaml cfg s) : ReadsAgree cfg := by
  let _ := LocalCa.identity
  obtain ⟨template,svid,answers,-,hashed,issued,certPem,-⟩ := boot_binds boots
  obtain ⟨later,readLater,digest⟩ := bootDigest_ok.mp hashed
  have bound := (issueSvid_binds signs issued).1
  rw [← certPem] at bound
  obtain ⟨bytes,-,found,-,-,⟨other,extracted,same⟩,-⟩ := attests
  cases bound.symm.trans extracted
  exact ⟨bytes,later,found,readLater,digest.symm.trans same⟩

/-- A session attests the policy that it enforces just when the manifest file holds, at the
    read that is hashed, bytes of the digest it held at the read that is compiled. -/
theorem attests_policy_iff [X509] (signs : Signs) {fromYaml : List UInt8 → Except PolicyError Manifest} (parses : Parses fromYaml)
    {cfg : BootConfig} {s : Session} (boots : let _ := LocalCa.identity; boot cfg = .ok s) :
    AttestsPolicy fromYaml cfg s ↔ ReadsAgree cfg := by
  refine ⟨attested_agrees signs boots,?_⟩
  let _ := LocalCa.identity
  obtain ⟨template,svid,answers,loaded,hashed,issued,certPem,started⟩ := boot_binds boots
  obtain ⟨parsed,doc,read,yaml,compiled⟩ := loadPolicy_compiles parses loaded
  obtain ⟨later,readLater,digest⟩ := bootDigest_ok.mp hashed
  have bound := (issueSvid_binds signs issued).1
  rw [← certPem] at bound
  rintro ⟨bytes,again,found,foundLater,same⟩
  cases read.symm.trans found
  cases readLater.symm.trans foundLater
  have manifest : s.boundDigests.manifest = Sha256.digest parsed := digest.trans same
  refine ⟨parsed,doc,read,yaml,compiled,⟨_,bound,manifest⟩,_,answers,started,?_⟩
  rw [manifestDigest_recorded,manifest]

end

/-! ### Two manifests -/

section
open scoped Reference

def closedYaml : String := "schemaVersion: \"1\"\nagent: [a,\"1\"]\nidentity: [spiffe://a]\ntools: []\n"

def readingYaml : String := "schemaVersion: \"1\"\nagent: [a,\"1\"]\nidentity: [spiffe://a]\ntools: [[[/data]]]\n"

/-- The parser, on two files. -/
def fromYaml (bytes : List UInt8) : Except PolicyError Manifest :=
  if bytes = Bytes.encode closedYaml then .ok closed
  else if bytes = Bytes.encode readingYaml then .ok Reference.reading
  else .error (.Yaml "invalid manifest")

/-- The files, when the manifest is this text. -/
def filesWith (yaml path : String) : List UInt8 := if path = Reference.config.manifestPath then Bytes.encode yaml else Bytes.encode path

/-- The manifest is replaced when it has been parsed. -/
@[reducible] def replacing (first later : String) : World :=
  { Reference.calmWorld closed with
    fileBytes := fun tick path => .ok (filesWith (if tick < 2 then first else later) path)
    manifestDocument := fun tick path => fromYaml (filesWith (if tick < 2 then first else later) path) }

theorem replacing_parses (first later : String) :
    let _ := replacing first later
    Parses fromYaml := fun _ _ => rfl

/-- A boot hashes no file before its second read. -/
theorem boot_files (w : World) (fileBytes : Nat → String → Except IoError (List UInt8))
    (same : ∀ tick,1 < tick → fileBytes tick = w.fileBytes tick) (cfg : BootConfig) :
    (let _ : World := { w with fileBytes := fileBytes }; boot cfg) = boot cfg := by
  have digests : ∀ tick,1 < tick → ∀ path,
      (let _ : World := { w with fileBytes := fileBytes }; bootDigest tick path) = bootDigest tick path := by
    intro tick later path
    simp only [bootDigest,same tick later]
  have config : (let _ : World := { w with fileBytes := fileBytes }; bootConfigDigest 4 cfg.configPath) =
      bootConfigDigest 4 cfg.configPath := by
    cases cfg.configPath with
    | none => rfl
    | some path => exact digests 4 (by decide) path
  dsimp only at digests config
  simp only [boot,digests 2 (by decide),digests 3 (by decide),config]
  rfl

theorem filesWith_manifest (yaml : String) : filesWith yaml Reference.config.manifestPath = Bytes.encode yaml := by
  rw [filesWith,if_pos (Eq.refl _)]

theorem replacing_boots {first : String} {policy : Manifest} (parsed : fromYaml (Bytes.encode first) = .ok policy)
    (plain : policy.extendsRefs = []) (unreserved : rejectReserved policy = .ok ()) (later : String) :
    let _ := replacing first later
    ∃ s,boot Reference.config = .ok s := by
  intro world
  let still : World := { world with fileBytes := fun _ path => .ok (filesWith later path) }
  have bootable : @Faultless.Bootable _ _ still Reference.config policy (filesWith later) := by
    obtain ⟨svid,issued⟩ := Reference.issues (Faultless.digestsOf (filesWith later) Reference.config.modelPath
      Reference.config.manifestPath Reference.config.configPath) none
    obtain ⟨bound,template⟩ := issueSvid_binds Reference.x509_signs issued
    refine @Faultless.Bootable.mk _ _ still _ _ _ ?_ unreserved (fun _ _ _ => rfl) rfl ⟨svid,issued,bound,template⟩ ⟨[],rfl,by simp⟩
    have document : still.manifestDocument 1 Reference.config.manifestPath = .ok policy := by
      change fromYaml (filesWith first Reference.config.manifestPath) = .ok policy
      rw [filesWith_manifest,parsed]
    simp only [loadPolicy,document,fromDocument,plain,if_true]
  obtain ⟨s,boots,-⟩ := @Faultless.boot_succeeds _ _ _ _ still _ _ _ _ bootable 1 (by decide)
  refine ⟨s,Eq.trans ?_ boots⟩
  refine (boot_files world (fun _ path => .ok (filesWith later path)) ?_ Reference.config).symm
  intro tick after
  funext path
  have late : ¬ tick < 2 := by omega
  change _ = Except.ok (filesWith (if tick < 2 then first else later) path)
  rw [if_neg late]

/-- The manifest stays what it is. -/
theorem attests_policy_iff_still :
    let _ := replacing closedYaml closedYaml
    ∃ s,boot Reference.config = .ok s ∧ AttestsPolicy fromYaml Reference.config s := by
  intro world
  have parsed : fromYaml (Bytes.encode closedYaml) = .ok closed := by rw [fromYaml,if_pos (Eq.refl _)]
  obtain ⟨s,boots⟩ := replacing_boots parsed rfl rfl closedYaml
  refine ⟨s,boots,(attests_policy_iff Reference.x509_signs (replacing_parses _ _) boots).mpr ?_⟩
  exact ⟨_,_,rfl,rfl,rfl⟩

theorem sha256_bytes (bytes : List UInt8) : (Sha256.digest bytes).bytes = Sha2.digest bytes := rfl

theorem yaml_digests_differ : Sha2.digest (Bytes.encode closedYaml) ≠ Sha2.digest (Bytes.encode readingYaml) := by decide +kernel

/-- A manifest that is replaced between the two reads is attested in place of the one that
    is enforced. -/
theorem attests_other_manifest : ¬ ∀ [World] [X509] (fromYaml : List UInt8 → Except PolicyError Manifest) (cfg : BootConfig)
    (s : Session),Signs → Parses fromYaml → (let _ := LocalCa.identity; boot cfg = .ok s) → AttestsPolicy fromYaml cfg s := by
  intro attests
  have different : Bytes.encode readingYaml ≠ Bytes.encode closedYaml := by decide +kernel
  have parsed : fromYaml (Bytes.encode readingYaml) = .ok Reference.reading := by
    rw [fromYaml,if_neg different,if_pos (Eq.refl _)]
  obtain ⟨s,boots⟩ := replacing_boots parsed rfl rfl closedYaml
  let world := replacing readingYaml closedYaml
  have attested := @attests world Reference.x509 fromYaml Reference.config s Reference.x509_signs (replacing_parses _ _) boots
  obtain ⟨compiled,hashed,first,later,same⟩ := attested_agrees Reference.x509_signs boots attested
  have bytes : compiled = Bytes.encode readingYaml := by
    rw [← filesWith_manifest]
    exact (Except.ok.inj first).symm
  have others : hashed = Bytes.encode closedYaml := by
    rw [← filesWith_manifest]
    exact (Except.ok.inj later).symm
  have digests := congrArg Digest.bytes same
  rw [bytes,others,sha256_bytes,sha256_bytes] at digests
  exact yaml_digests_differ digests

end

end AegisNode.Binding
