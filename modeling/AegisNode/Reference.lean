import AegisNode.Faultless
import AegisNode.JsonText
import AegisNode.LocalCa
import AegisNode.Sha2

/-!
Concrete third parties for runs on given inputs: SHA-256, the dates of `chrono`, a CA
whose certificates hold their extensions, and a world in which everything succeeds.
-/
namespace AegisNode.Reference
open Clock Json Schema Policy Engine Mediator Faultless LocalCa

scoped instance sha256 : Ledger.Sha256 := ⟨fun bytes => ⟨Sha2.digest bytes,Sha2.digest_length bytes⟩⟩

/-- `\w` on ASCII. -/
scoped instance asciiWord : Adversarial.PerlWord := ⟨fun c => c.isAlphanum || c = '_'⟩

scoped instance serde : Serde := JsonText.serde

/-! ### Dates -/

/-- Year, month and day of a day counted from January 1, 1970, in the calendar that
    begins its years in March. -/
def civil (days : Int) : Int × Nat × Nat :=
  let shifted := days+719468
  let era := shifted/146097
  let dayOfEra := (shifted%146097).toNat
  let yearOfEra := (dayOfEra-dayOfEra/1460+dayOfEra/36524-dayOfEra/146096)/365
  let dayOfYear := dayOfEra-(365*yearOfEra+yearOfEra/4-yearOfEra/100)
  let march := (5*dayOfYear+2)/153
  let month := if march < 10 then march+3 else march-9
  (yearOfEra+era*400+(if month ≤ 2 then 1 else 0),month,dayOfYear-(153*march+2)/5+1)

def padded (width n : Nat) : String :=
  String.ofList (List.replicate (width-(toString n).length) '0') ++ toString n

/-- Years outside four digits have a sign. -/
def yearText (year : Int) : String :=
  if year < 0 then "-" ++ padded 4 year.natAbs
  else if 9999 < year then "+" ++ padded 4 year.natAbs
  else padded 4 year.natAbs

/-- The date and the time of an instant, to the second. -/
def dateTime (t : Int) : String :=
  let (year,month,dayOfMonth) := civil (t/day)
  let seconds := (t%day/second).toNat
  yearText year ++ "-" ++ padded 2 month ++ "-" ++ padded 2 dayOfMonth ++ "T" ++ padded 2 (seconds/3600) ++ ":" ++
    padded 2 (seconds/60%60) ++ ":" ++ padded 2 (seconds%60)

/-- As many groups of three digits as the fraction needs. -/
def autoFraction (nanos : Nat) : String :=
  if nanos = 0 then ""
  else if nanos%1000000 = 0 then "." ++ padded 3 (nanos/1000000)
  else if nanos%1000 = 0 then "." ++ padded 6 (nanos/1000)
  else "." ++ padded 9 nanos

scoped instance chrono : Chrono where
  parse := goParseRFC3339
  rfc3339Nanos := fun t => dateTime t ++ "." ++ padded 9 (t%second).toNat ++ "Z"
  rfc3339 := fun t => dateTime t ++ autoFraction (t%second).toNat ++ "+00:00"

example : chrono.rfc3339Nanos (1709210096*second+5) = "2024-02-29T12:34:56.000000005Z" := by decide +kernel
example : chrono.rfc3339 (-second) = "1969-12-31T23:59:59+00:00" := by decide +kernel

/-! ### Certificates -/

def subjectAltNameOid : Oid := [2,5,29,17]

/-- The identifiers a certificate of the CA uses. -/
def knownOids : List (UInt8 × Oid) :=
  [(0,subjectAltNameOid),(1,digestBindingOid),(2,chatTemplateBindingOid),(3,turnBindingOid)]

/-- Each byte behind a one, and a zero at the end. -/
def framed (bytes : List UInt8) : List UInt8 := bytes.flatMap (fun b => [1,b]) ++ [0]

def unframe : List UInt8 → Option (List UInt8 × List UInt8)
  | 1 :: b :: rest => (unframe rest).map (fun read => (b :: read.1,read.2))
  | 0 :: rest => some ([],rest)
  | _ => none

def encodeExtension (e : Oid × List UInt8) : Option (List UInt8) :=
  (knownOids.find? (fun known => known.2 = e.1)).map (fun known => known.1 :: framed e.2)

def encodeExtensions : List (Oid × List UInt8) → Option (List UInt8)
  | [] => some []
  | e :: rest => (encodeExtension e).bind (fun first => (encodeExtensions rest).map (first ++ ·))

/-- The first argument is at least the number of extensions. -/
def readExtensions : Nat → List UInt8 → Option (List (Oid × List UInt8))
  | _,[] => some []
  | 0,_ => none
  | fuel+1,code :: rest =>
    match knownOids.lookup code,unframe rest with
    | some oid,some (value,rest) => (readExtensions fuel rest).map ((oid,value) :: ·)
    | _,_ => none

theorem unframe_framed (bytes rest : List UInt8) : unframe (framed bytes ++ rest) = some (bytes,rest) := by
  induction bytes with
  | nil => rfl
  | cons b bytes ih =>
    change unframe (1 :: b :: (framed bytes ++ rest)) = _
    rw [unframe,ih]
    rfl

theorem encodeExtension_some {e : Oid × List UInt8} {bytes : List UInt8} (encoded : encodeExtension e = some bytes) :
    ∃ code,knownOids.lookup code = some e.1 ∧ bytes = code :: framed e.2 := by
  obtain ⟨known,found,rfl⟩ := Option.map_eq_some_iff.mp encoded
  have member := List.mem_of_find?_eq_some found
  have same : known.2 = e.1 := by simpa using List.find?_some found
  refine ⟨known.1,?_,rfl⟩
  rw [← same]
  simp only [knownOids,List.mem_cons,List.not_mem_nil,or_false] at member
  rcases member with rfl | rfl | rfl | rfl <;> rfl

theorem readExtensions_encodeExtensions {extensions : List (Oid × List UInt8)} {bytes : List UInt8}
    (encoded : encodeExtensions extensions = some bytes) {fuel : Nat} (enough : extensions.length ≤ fuel) :
    readExtensions fuel bytes = some extensions := by
  induction extensions generalizing bytes fuel with
  | nil =>
    cases encoded
    cases fuel <;> rfl
  | cons e rest ih =>
    obtain ⟨first,encodedFirst,encoded⟩ := Option.bind_eq_some_iff.mp encoded
    obtain ⟨later,encodedLater,rfl⟩ := Option.map_eq_some_iff.mp encoded
    obtain ⟨code,known,rfl⟩ := encodeExtension_some encodedFirst
    obtain ⟨fuel,rfl⟩ : ∃ n,fuel = n+1 := ⟨fuel-1,by rw [List.length_cons] at enough; omega⟩
    rw [List.length_cons] at enough
    rw [List.cons_append,readExtensions,known,unframe_framed]
    dsimp only
    rw [ih encodedLater (by omega)]
    rfl

theorem encodeExtensions_length {extensions : List (Oid × List UInt8)} {bytes : List UInt8}
    (encoded : encodeExtensions extensions = some bytes) : extensions.length ≤ bytes.length := by
  induction extensions generalizing bytes with
  | nil => exact Nat.zero_le _
  | cons e rest ih =>
    obtain ⟨first,encodedFirst,encoded⟩ := Option.bind_eq_some_iff.mp encoded
    obtain ⟨later,encodedLater,rfl⟩ := Option.map_eq_some_iff.mp encoded
    obtain ⟨code,-,rfl⟩ := encodeExtension_some encodedFirst
    have bound := ih encodedLater
    simp only [List.length_cons,List.length_append]
    omega

/-- Signs by writing down the extensions; the files of the CA are there. -/
scoped instance x509 : X509 where
  exists_ := fun _ _ => true
  readText := fun _ path => .ok (if path.endsWith "trust_domain" then "aegis-node.local\n" else path)
  loadIssuer := fun _ _ => .ok ()
  now := fun _ => 0
  signedBy := fun _ _ keyPem params =>
    match encodeExtensions ((subjectAltNameOid,Bytes.encode params.uri) :: params.customExtensions) with
    | some bytes => .ok (Bytes.hexEncode bytes,keyPem)
    | none => .error "unknown extension"
  pemContents := fun pem => match Bytes.hexDecode pem with
    | some bytes => .ok bytes
    | none => .error "no PEM block"
  extensions := fun der => match readExtensions der.length der with
    | some extensions => .ok extensions
    | none => .error "bad extensions"

theorem x509_signedBy {uri : String} {extensions : List (Oid × List UInt8)} {bytes : List UInt8}
    (encoded : encodeExtensions ((subjectAltNameOid,Bytes.encode uri) :: extensions) = some bytes) (tick : Nat)
    (caPem keyPem name : String) (notBefore notAfter : Int) :
    x509.signedBy tick caPem keyPem ⟨notBefore,notAfter,name,uri,extensions⟩ = .ok (Bytes.hexEncode bytes,keyPem) := by
  unfold x509
  dsimp only
  rw [encoded]

theorem x509_signs : Signs := by
  refine ⟨?_⟩
  intro tick caPem keyPem params signed issued
  unfold x509 at issued
  dsimp only at issued
  split at issued
  · rename_i bytes encoded
    cases issued
    refine ⟨[(subjectAltNameOid,Bytes.encode params.uri)],?_,by simp [subjectAltNameOid,digestBindingOid,
      chatTemplateBindingOid,turnBindingOid]⟩
    have length := encodeExtensions_length encoded
    unfold extensionsOf x509
    simp only [Bytes.hexDecode_hexEncode,bind,Except.bind,readExtensions_encodeExtensions encoded length,
      List.singleton_append]
  · cases issued

scoped instance identity : Identity := LocalCa.identity

/-! ### The world -/

def uuid (n : Nat) : Ledger.Uuid := ⟨List.replicate 8 0 ++ (List.range 8).map (fun i => UInt8.ofNat (n/256^(7-i))),by simp⟩

/-- The clocks stand still, the manifest is this one and everything succeeds. -/
@[reducible] def calmWorld (policy : Manifest) : World where
  instant := fun _ => 0
  utcNow := fun _ => 0
  systemNow := fun _ => 0
  uuid := uuid
  entryUuid := uuid
  currentDir := fun _ => some "/"
  fileBytes := fun _ path => .ok (Bytes.encode path)
  manifestDocument := fun _ _ => .ok policy
  sidecarText := fun _ _ => .error "no such file"
  createLedger := fun _ _ => .ok []
  readFile := fun _ path => .ok (Bytes.encode path)
  writeFile := fun _ _ _ => .ok ()
  removeFile := fun _ _ => .ok ()
  connect := fun _ _ _ => .ok ()
  output := fun _ _ _ => .ok ⟨some 0,[],[]⟩

def config : BootConfig where
  sessionId := "s"
  manifestPath := "/etc/aegis/manifest.yaml"
  modelPath := "/models/m.gguf"
  configPath := none
  chatTemplateSidecar := none
  identityDir := "/var/lib/aegis"
  workloadName := "agent"
  instanceName := "one"
  ledgerPath := "/var/log/aegis/s.jsonl"
  ledgerSchema := some .V2

def files (path : String) : List UInt8 := Bytes.encode path

/-- The CA of the configuration, at any time. -/
theorem loads (tick : Nat) : load tick config.identityDir = .ok ⟨config.identityDir,"aegis-node.local",
    joinPath config.identityDir "ca.crt",joinPath config.identityDir "ca.key"⟩ := by
  rw [show load tick config.identityDir = load 6 config.identityDir from rfl]
  decide +kernel

theorem named : SpiffeId.new "aegis-node.local" config.workloadName config.instanceName =
    .ok ⟨"aegis-node.local",config.workloadName,config.instanceName⟩ := by decide +kernel

theorem issues (digests : DigestTriple) (chatTemplate : Option Ledger.Digest) :
    ∃ svid,identity.issueSvid config.identityDir config.workloadName config.instanceName digests chatTemplate = .ok svid := by
  have encoded : ∀ uri,∃ bytes,encodeExtensions ((subjectAltNameOid,Bytes.encode uri) ::
      sessionExtensions digests chatTemplate) = some bytes := by
    intro uri
    cases chatTemplate <;> exact ⟨_,rfl⟩
  obtain ⟨bytes,encoded⟩ := encoded (SpiffeId.uri ⟨"aegis-node.local",config.workloadName,config.instanceName⟩)
  have signed := x509_signedBy encoded
  unfold identity LocalCa.identity issueSvidWithChatTemplate
  dsimp only
  rw [loads]
  simp only [bind,Except.bind,named,signed]
  exact ⟨_,rfl⟩

theorem expires {turnTtl : Nat} (soon : turnTtl ≤ 253402300799) (tick : Nat) :
    ∃ notAfter,expiry (x509.now tick) turnTtl = .ok notAfter := by
  unfold expiry
  dsimp only
  rw [if_pos]
  · exact ⟨_,rfl⟩
  · have one : second = 1000000000 := rfl
    rw [latestDate,one]
    change 0+((min turnTtl (2^63-1) : Nat) : Int)*1000000000 ≤ _
    omega

theorem thumbprint_hex (bytes : List UInt8) :
    certThumbprintHex (Bytes.hexEncode bytes) = .ok (Bytes.hexEncode (sha256.digest bytes).bytes) := by
  unfold certThumbprintHex x509
  dsimp only
  rw [Bytes.hexDecode_hexEncode]
  rfl

/-- The CA issues certificates for turns too. -/
theorem turn_issues (tick : Nat) (digests : DigestTriple) (chatTemplate : Option Ledger.Digest) {audience : String}
    {binding : List UInt8} (encoded : encodeTurnBinding audience = .ok binding) {turnTtl : Nat}
    (soon : turnTtl ≤ 253402300799) :
    ∃ svid thumbprint,identity.issueTurnSvid tick config.identityDir config.workloadName config.instanceName digests chatTemplate
        audience turnTtl = .ok (.ok svid) ∧ identity.certThumbprintHex svid.certPem = .ok thumbprint := by
  obtain ⟨notAfter,expiring⟩ := expires soon tick
  have extended : ∀ uri,∃ bytes,encodeExtensions ((subjectAltNameOid,Bytes.encode uri) ::
      (sessionExtensions digests chatTemplate ++ [(turnBindingOid,binding)])) = some bytes := by
    intro uri
    cases chatTemplate <;> exact ⟨_,rfl⟩
  obtain ⟨bytes,extended⟩ := extended (SpiffeId.uri ⟨"aegis-node.local",config.workloadName,config.instanceName⟩)
  have signed := x509_signedBy extended tick (joinPath config.identityDir "ca.crt") (joinPath config.identityDir "ca.key")
    config.workloadName (x509.now tick-5*minute) notAfter
  have issued := issueTurnSvid_ok ⟨config.identityDir,"aegis-node.local",joinPath config.identityDir "ca.crt",
    joinPath config.identityDir "ca.key"⟩ named expiring encoded signed
  have same : identity.issueTurnSvid tick config.identityDir config.workloadName config.instanceName digests chatTemplate
      audience turnTtl = LocalCa.issueTurnSvid tick ⟨config.identityDir,"aegis-node.local",
        joinPath config.identityDir "ca.crt",joinPath config.identityDir "ca.key"⟩ config.workloadName config.instanceName
        digests chatTemplate audience turnTtl := by
    unfold identity LocalCa.identity
    dsimp only
    rw [loads]
  rw [same,issued]
  exact ⟨_,_,rfl,thumbprint_hex bytes⟩

/-- The boot of the configuration in a world that starts out like the calm one. -/
theorem bootable [w : World] (policy : Manifest) (plain : policy.extendsRefs = []) (unreserved : rejectReserved policy = .ok ())
    (document : w.manifestDocument 1 config.manifestPath = .ok policy)
    (unchanged : ∀ tick < 8,∀ path,w.fileBytes tick path = .ok (files path))
    (created : w.createLedger 6 config.ledgerPath = .ok []) : Bootable config policy files := by
  refine ⟨?loaded,unreserved,unchanged,rfl,?issued,[],created,by simp⟩
  case loaded =>
    unfold loadPolicy
    rw [document]
    simp [fromDocument,plain]
  case issued =>
    obtain ⟨svid,issued⟩ := issues (digestsOf files config.modelPath config.manifestPath config.configPath) none
    obtain ⟨bound,template⟩ := issueSvid_binds x509_signs issued
    exact ⟨svid,issued,bound,template⟩

/-! ### A read -/

/-- A manifest that lets the session read `/data`. -/
def reading : Manifest := { closed with tools := ⟨some ⟨["/data"],[],none,none⟩,none,[],[],none⟩ }

def readData : Call := .FilesystemRead "/data/a" none

/-- A boot in the calm world. -/
theorem calm_boots (policy : Manifest) (plain : policy.extendsRefs = []) (unreserved : rejectReserved policy = .ok ()) :
    let _ := calmWorld policy
    ∃ booted,boot config = .ok booted ∧ Fresh config policy files booted ∧ Ready booted 100 := by
  intro world
  exact boot_succeeds (bootable policy plain unreserved rfl (fun _ _ _ => rfl) rfl) (by decide)

/-- The read takes place. -/
theorem readData_performed :
    let _ := calmWorld reading
    ∃ booted pre tick post,boot config = .ok booted ∧
      (mediate readData (attach booted none none)).events = pre ++ .Performed tick (.FsRead "/data/a") :: post := by
  intro world
  obtain ⟨booted,boots,fresh,ready⟩ := calm_boots reading rfl rfl
  have steady := fresh.steady (fun _ _ => rfl) none none
  have policy : (attach booted none none).policy = reading := fresh.policy
  have permits : Permits (filesystemRead "/data/a") (attach booted none none) :=
    permits_filesystemRead (by rw [policy]; decide) (by decide)
  have room : Room (attach booted none none) .Filesystem ((∅ : Aggregate.SessionAggregateState).insert .Filesystem 1) := by
    refine ⟨1,?_⟩
    rw [policy,show (attach booted none none).aggregateState = ∅ from fresh.counts]
    rfl
  obtain ⟨value,t,before,tick,after,runs,-⟩ :=
    mediateGated_runs steady permits room (fun _ => ⟨_,rfl⟩) ((ready.attach none none).fewer (by decide : 1 ≤ 100)) none
  refine ⟨booted,before,tick,after,boots,?_⟩
  rw [readData,mediate,Traced.bind_pure_events.1]
  exact runs.events

/-! ### Connections -/

/-- A manifest that lets the session connect anywhere, with one call in its quota. -/
def connecting : Manifest :=
  { closed with tools := ⟨none,some ⟨some (.Mode .Allow),none,some ⟨some 1⟩,none⟩,[],[],none⟩ }

def connectOut : Call := .NetworkConnect "example.org" 443 .Tcp none

/-- Wherever the session stands, the connection is made. -/
theorem connectOut_performed [w : World] {s : Session} {n : Nat} (steady : Steady s) (policy : s.policy = connecting)
    (answers : ∀ tick,w.connect tick "example.org" 443 = .ok ()) (ready : Ready s (n+1)) :
    ∃ before tick after,(mediate connectOut s).events = before ++ .Performed tick (.Connect "example.org" 443) :: after ∧
      Ready (mediate connectOut s).state n ∧ Steady (mediate connectOut s).state ∧
      (mediate connectOut s).state.policy = connecting := by
  have allowed : checkNetworkOutbound s.policy "example.org" 443 .Tcp = .Allow := by rw [policy]; decide
  obtain ⟨t,before,tick,after,runs,left⟩ := mediateNetworkConnect_runs none steady allowed answers ready
  have keeps := Frames.keeps_mediate connectOut s
  refine ⟨before,tick,after,runs.events,?_,steady.keeps keeps,?_⟩
  · rw [show (mediate connectOut s).state = t from runs.state]
    exact left
  · rw [keeps.same]
    exact policy

/-! ### MCP calls -/

/-- Every tool answers with nothing. -/
def mcpClient : McpClient := ⟨fun _ _ _ _ => .ok .Null⟩

/-- A server with these entries of its tools, beside the files that may be read. -/
def serving (allowedTools : List AllowedTool) : Manifest :=
  { closed with tools := ⟨some ⟨["/data"],[],none,none⟩,none,[],[⟨"files","stdio:/bin/files",allowedTools,none,none⟩],none⟩ }

def callArgs (path : String) : Value := pathArgs path

def callFiles (path : String) : Call := .McpToolCall "files" "read" (callArgs path) none

/-- The call of the tool takes place if its arguments are valid. -/
theorem callFiles_performed [w : World] {s : Session} {n : Nat} {allowedTools : List AllowedTool} (path : String)
    (steady : Steady s) (policy : s.policy = serving allowedTools) (listed : ∃ tool ∈ allowedTools,tool.name = "read")
    (counts : s.aggregateState = ∅) (attached : s.mcpClient = some mcpClient)
    (valid : ∀ t,Asked s t → ∃ u events,Traced.Runs (runMcpPreValidate "files" "read" (callArgs path)
      (declaredClauses ⟨"files","stdio:/bin/files",allowedTools,none,none⟩ "read")) t () u events ∧ Asked t u)
    (ready : Ready s (n+1)) : ∃ before tick after,(mediate (callFiles path) s).events =
      before ++ .Performed tick (.CallTool "files" "stdio:/bin/files" "read" (callArgs path)) :: after := by
  have found : serverGrant s.policy "files" = some ⟨"files","stdio:/bin/files",allowedTools,none,none⟩ := by
    rw [policy]
    rfl
  have allowed : checkMcpTool s.policy "files" "read" = .Allow := checkMcpTool_allow.mpr ⟨_,found,listed⟩
  have room : Room s (.Mcp "files") ((∅ : Aggregate.SessionAggregateState).insert (.Mcp "files") 1) := by
    refine ⟨1,?_⟩
    rw [policy,counts]
    rfl
  obtain ⟨u,before,asked,continues⟩ :=
    mediateMcpToolCall_continues none steady allowed found valid room attached
  have counting : Ready { s with aggregateState := (∅ : Aggregate.SessionAggregateState).insert (.Mcp "files") 1 } (n+1) :=
    ⟨ready.healthy,ready.own,ready.few⟩
  have answered : mcpClient.callTool u.tick "stdio:/bin/files" "read" (callArgs path) = .ok .Null := rfl
  obtain ⟨t,after,calls,-⟩ := callAttached_runs none "files" answered (asked.ready counting)
  refine ⟨before,u.tick,after,?_⟩
  rw [callFiles,mediate,Traced.bind_pure_events.1]
  exact (continues.runs calls).events

/-! ### Programs -/

/-- A manifest that lets the session run `/bin/ls` after approval. -/
def asking : Manifest := { closed with execGrants := [⟨"/bin/ls",none⟩],approvalRequiredFor := [.AnyExec] }

def execArgs (program : String) : Value := object [("program",.String program)]

def runLs : Call := .Exec "/bin/ls" [] none

/-- The operation that `runLs` asks for. -/
def ls : Operation := ⟨execUri "/bin/ls","exec",.Exec,"exec__run",Mediator.execArgs "/bin/ls" []⟩

/-- A channel that always gives this answer. -/
def answering (outcome : ApprovalOutcome) : ApprovalChannel := ⟨fun _ _ => .ok outcome⟩

/-- The call comes to its approval, where the table of grants is looked up. -/
theorem runLs_looks [w : World] {s : Session} (steady : Steady s) (policy : s.policy = asking) :
    ∃ checked m,Traced.Continues (mediateExec "/bin/ls" [] none) s
        (approve ls none "any_exec requires approval" >>= settle (execRun "/bin/ls" []) (execUri "/bin/ls") none) (later s m) checked ∧
      (∀ e ∈ checked,Silent e) ∧ tierFor (later s m).policy ls.toolClass ≠ .Advisory := by
  have requires : Policy.checkExec s.policy "/bin/ls" = .RequireApproval "any_exec requires approval" := by
    rw [policy]
    decide
  obtain ⟨checked,continues,silent⟩ := mediateExec_continues none [] steady requires
  refine ⟨checked,_,continues,silent,?_⟩
  rw [show (later s _).policy = asking from policy]
  decide

/-- Without a grant the operator is asked, and nothing but the request is written before. -/
theorem runLs_asks [w : World] {s : Session} {n : Nat} {outcome : ApprovalOutcome} (steady : Steady s) (policy : s.policy = asking)
    (ungranted : s.grantTable = ∅) (attached : s.approvalChannel = some (answering outcome)) (ready : Ready s (n+1)) :
    ∃ before request m ledger,Traced.Continues (mediateExec "/bin/ls" [] none) s
        (takeOutcome ls none (ttlSecsFor asking .Exec) request outcome >>= settle (execRun "/bin/ls" []) (execUri "/bin/ls") none)
        ((later s m).wrote ledger) before ∧
      (∀ entry result,.Append entry result ∈ before → entry.entryType = .ApprovalRequest ∧ ∃ record,result = .ok (.ok record)) ∧
      Ready ((later s m).wrote ledger) n := by
  obtain ⟨checked,m,looks,silent,tier⟩ := runLs_looks steady policy
  have asked : Asked s (later s m) := ⟨m,rfl⟩
  have none : Grants.lookup (later s m).grantTable ls.toolName ls.canonicalArgs (World.systemNow (later s m).tick) = none := by
    rw [show (later s m).grantTable = ∅ from ungranted]
    rfl
  obtain ⟨entry,record,u,asks,request,left,ledger,rfl⟩ := approve_asks tier none attached rfl (asked.ready ready)
  rw [show (later s m).policy = asking from policy] at asks
  refine ⟨_,_,m+4,ledger,looks.trans asks.bind,?_,left⟩
  intro other result member
  rcases List.mem_append.mp member with member | member
  · exact (silent _ member).elim
  · simp only [List.mem_cons,reduceCtorEq,Engine.Event.Append.injEq,List.not_mem_nil,or_false,false_or] at member
    obtain ⟨rfl,rfl⟩ := member
    exact ⟨request,record,rfl⟩

/-- A live grant answers with an entry. -/
theorem runLs_consumes [w : World] {s : Session} {n : Nat} {grant : Grants.ApprovalGrant} (steady : Steady s)
    (policy : s.policy = asking) (live : ∀ tick,Grants.lookup s.grantTable ls.toolName ls.canonicalArgs (w.systemNow tick) = some grant)
    (ready : Ready s (n+1)) : ∃ before entry record after,(mediate runLs s).events = before ++ .Append entry (.ok (.ok record)) :: after ∧
      (∀ other result,.Append other result ∉ before) ∧ entry.entryType = .ApprovalDecision ∧
      entry.payload = payloadOf (Entries.consumedFields ls none grant) := by
  obtain ⟨checked,m,comes,silent,tier⟩ := runLs_looks steady policy
  have asked : Asked s (later s m) := ⟨m,rfl⟩
  have looks := approve_looks none "any_exec requires approval" tier
  rw [show (later s m).grantTable = s.grantTable from rfl,live] at looks
  obtain ⟨entry,record,ledger,answers,decision,payload,-⟩ := autoConsume_answers ls none grant (asked.ready ready).next
  obtain ⟨rest,whole⟩ := Traced.bind_events (autoConsume ls none grant) (settle (execRun "/bin/ls" []) (execUri "/bin/ls") none)
    (later s m).next
  rw [answers] at whole
  refine ⟨checked ++ [.SystemNow (World.systemNow (later s m).tick)] ++ [.UtcNow (World.utcNow (later s m).next.tick)],entry,record,
    rest,?_,?_,decision,payload⟩
  · rw [runLs,mediate,Traced.bind_pure_events.1]
    refine (comes.trans looks.bind).events.trans ?_
    rw [consult,whole]
    simp
  · intro other result member
    simp only [List.mem_append,List.mem_singleton,reduceCtorEq,or_false] at member
    exact silent _ member

end AegisNode.Reference
