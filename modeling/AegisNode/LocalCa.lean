import AegisNode.Mediator

/-!
The local CA: SPIFFE identities, the extensions of the certificates it issues, and
what a verifier reads back from them.
-/
namespace AegisNode
open Clock Ledger Engine

structure LocalCa where
  dir : String
  trustDomain : String
  caPem : String
  keyPem : String
  deriving DecidableEq,Repr

namespace LocalCa

/-! ### The third-party crates -/

abbrev Oid := List Nat

/-- `rcgen::CertificateParams`, the parts the CA sets. -/
structure CertificateParams where
  notBefore : Int
  notAfter : Int
  commonName : String
  uri : String
  customExtensions : List (Oid × List UInt8)

/-- `rcgen`, `x509-parser` and the files of the CA. A certificate and its key come as PEM
    texts; parsing goes through the bytes of the first PEM block. -/
class X509 where
  exists_ : Nat → (path : String) → Bool
  readText : Nat → (path : String) → Except String String
  loadIssuer : (caPem keyPem : String) → Except String Unit
  now : Nat → Int
  signedBy : Nat → (caPem keyPem : String) → CertificateParams → Except String (String × String)
  pemContents : String → Except String (List UInt8)
  extensions : List UInt8 → Except String (List (Oid × List UInt8))

/-! ### SPIFFE identities -/

structure SpiffeId where
  trustDomain : String
  workloadName : String
  instanceName : String
  deriving DecidableEq,Repr

def isAsciiLower (c : Char) : Bool := 'a' ≤ c && c ≤ 'z'
def isAsciiDigit (c : Char) : Bool := '0' ≤ c && c ≤ '9'
def isAsciiUpper (c : Char) : Bool := 'A' ≤ c && c ≤ 'Z'

def trustDomainChar (c : Char) : Bool := isAsciiLower c || isAsciiDigit c || c = '.' || c = '-' || c = '_'

def segmentChar (c : Char) : Bool :=
  isAsciiLower c || isAsciiUpper c || isAsciiDigit c || c = '.' || c = '-' || c = '_' || c = '~'

def validateTrustDomain (td : String) : Except String Unit :=
  if td = "" ∨ 255 < (Bytes.encode td).length ∨ ¬ td.toList.all trustDomainChar then
    .error ("invalid trust domain " ++ Text.rustDebug td)
  else .ok ()

def invalidSpiffeId (input reason : String) : String := "invalid SPIFFE ID " ++ Text.rustDebug input ++ ": " ++ reason

def validateSegment (seg : String) : Except String Unit :=
  if seg = "" ∨ 63 < (Bytes.encode seg).length then .error (invalidSpiffeId seg "path segment must be 1..=63 chars")
  else if seg.toList.all segmentChar then .ok ()
  else .error (invalidSpiffeId seg "path segment has disallowed character")

def SpiffeId.new (trustDomain workloadName instanceName : String) : Except String SpiffeId := do
  validateTrustDomain trustDomain
  validateSegment workloadName
  validateSegment instanceName
  return ⟨trustDomain,workloadName,instanceName⟩

def SpiffeId.uri (id : SpiffeId) : String :=
  "spiffe://" ++ id.trustDomain ++ "/agent/" ++ id.workloadName ++ "/" ++ id.instanceName

/-! ### Extensions -/

def digestBindingOid : Oid := [1,3,6,1,4,1,99999,1]
def chatTemplateBindingOid : Oid := [1,3,6,1,4,1,99999,2]
def turnBindingOid : Oid := [1,3,6,1,4,1,99999,3]

def dotted (oid : Oid) : String := String.intercalate "." (oid.map toString)

def certParse (detail : String) : String := "certificate parse: " ++ detail

def invalidDigestLength (n : Nat) : String := "digest must be 32 bytes (got " ++ toString n ++ ")"

def digestFromBytes (bytes : List UInt8) : Except String Digest :=
  if length : bytes.length = 32 then .ok ⟨bytes,length⟩ else .error (invalidDigestLength bytes.length)

/-- The payload of the digest binding: model, manifest, config. -/
def encodeDigests (digests : DigestTriple) : List UInt8 :=
  digests.model.bytes ++ digests.manifest.bytes ++ digests.config.bytes

def decodeDigests (bytes : List UInt8) : Except String DigestTriple :=
  if bytes.length ≠ 96 then .error (invalidDigestLength bytes.length)
  else do
    let model ← digestFromBytes (bytes.take 32)
    let manifest ← digestFromBytes ((bytes.drop 32).take 32)
    let config ← digestFromBytes (bytes.drop 64)
    return ⟨model,manifest,config⟩

/-- Two bytes of length, the high one first, and the audience. -/
def encodeTurnBinding (audience : String) : Except String (List UInt8) :=
  let bytes := Bytes.encode audience
  if bytes = [] then .error (certParse "turn binding audience must not be empty")
  else if 2^16 ≤ bytes.length then
    .error (certParse ("turn binding audience too long: " ++ toString bytes.length ++ " bytes"))
  else .ok (UInt8.ofNat (bytes.length/256) :: UInt8.ofNat (bytes.length%256) :: bytes)

def decodeTurnBinding : List UInt8 → Except String String
  | high :: low :: rest =>
    let length := high.toNat*256+low.toNat
    if rest.length < length then .error (certParse ("turn binding length prefix " ++ toString length ++
      " exceeds remaining " ++ toString rest.length ++ " bytes"))
    else match Bytes.decode (rest.take length) with
    | some audience => .ok audience
    | none => .error (certParse "turn binding audience not utf-8")
  | short => .error (certParse ("turn binding truncated: " ++ toString short.length ++ " bytes"))

theorem decodeDigests_encodeDigests (digests : DigestTriple) : decodeDigests (encodeDigests digests) = .ok digests := by
  obtain ⟨⟨model,hm⟩,⟨manifest,hf⟩,⟨config,hc⟩⟩ := digests
  have whole : (model ++ manifest ++ config).length = 96 := by simp [hm,hf,hc]
  have first : (model ++ manifest ++ config).take 32 = model := by simp [hm]
  have second : ((model ++ manifest ++ config).drop 32).take 32 = manifest := by simp [hm,hf]
  have third : (model ++ manifest ++ config).drop 64 = config := by
    rw [List.drop_append_of_le_length (by simp [hm,hf]),List.drop_of_length_le (by simp [hm,hf]),List.nil_append]
  rw [encodeDigests,decodeDigests,if_neg (by simpa using whole),first,second,third]
  simp [digestFromBytes,hm,hf,hc,bind,Except.bind,pure,Except.pure]

theorem encodeTurnBinding_ok {audience : String} {bytes : List UInt8} : encodeTurnBinding audience = .ok bytes ↔
    audience ≠ "" ∧ (Bytes.encode audience).length < 2^16 ∧ bytes = UInt8.ofNat ((Bytes.encode audience).length/256) ::
      UInt8.ofNat ((Bytes.encode audience).length%256) :: Bytes.encode audience := by
  have empty : Bytes.encode audience = [] ↔ audience = "" :=
    ⟨fun none => Bytes.encode_injective (none.trans rfl),fun same => by rw [same]; rfl⟩
  rw [encodeTurnBinding]
  split_ifs with none long
  · exact ⟨nofun,fun fits => absurd (empty.mp none) fits.1⟩
  · exact ⟨nofun,fun fits => absurd long (by omega)⟩
  · rw [Except.ok.injEq,eq_comm]
    exact ⟨fun same => ⟨fun named => none (empty.mpr named),by omega,same⟩,fun fits => fits.2.2⟩

/-- A later version may append to the binding. -/
theorem decodeTurnBinding_append {audience : String} {bytes : List UInt8} (encoded : encodeTurnBinding audience = .ok bytes)
    (suffix : List UInt8) : decodeTurnBinding (bytes ++ suffix) = .ok audience := by
  obtain ⟨-,short,rfl⟩ := encodeTurnBinding_ok.mp encoded
  have length : (UInt8.ofNat ((Bytes.encode audience).length/256)).toNat*256+
      (UInt8.ofNat ((Bytes.encode audience).length%256)).toNat = (Bytes.encode audience).length := by
    rw [UInt8.toNat_ofNat',UInt8.toNat_ofNat']
    omega
  rw [List.cons_append,List.cons_append,decodeTurnBinding,length,if_neg (by rw [List.length_append]; omega),List.take_left,Bytes.decode_encode]

theorem decodeTurnBinding_encodeTurnBinding {audience : String} {bytes : List UInt8}
    (encoded : encodeTurnBinding audience = .ok bytes) : decodeTurnBinding bytes = .ok audience := by
  simpa using decodeTurnBinding_append encoded []

/-- The extensions of a session's certificate. -/
def sessionExtensions (digests : DigestTriple) (chatTemplate : Option Digest) : List (Oid × List UInt8) :=
  (digestBindingOid,encodeDigests digests) ::
    (chatTemplate.toList.map (fun template => (chatTemplateBindingOid,template.bytes)))

/-- The value of the first extension with the identifier. -/
def extension (oid : Oid) (extensions : List (Oid × List UInt8)) : Option (List UInt8) :=
  (extensions.find? (fun e => e.1 = oid)).map (·.2)

theorem extension_skips {oid : Oid} {standard custom : List (Oid × List UInt8)} (other : ∀ e ∈ standard,e.1 ≠ oid) :
    extension oid (standard ++ custom) = extension oid custom := by
  have none : standard.find? (fun e => e.1 = oid) = none := by
    rw [List.find?_eq_none]
    intro e member
    simpa using other e member
  rw [extension,List.find?_append,none,Option.none_or,extension]

theorem digestFromBytes_bytes (digest : Digest) : digestFromBytes digest.bytes = .ok digest := by
  rw [digestFromBytes,dif_pos digest.length]

section
variable {digests : DigestTriple} {chatTemplate : Option Digest} {standard : List (Oid × List UInt8)}
  (other : ∀ e ∈ standard,e.1 ∉ [digestBindingOid,chatTemplateBindingOid,turnBindingOid])
include other

variable (digests chatTemplate) in
theorem digestBinding_found (more : List (Oid × List UInt8)) :
    extension digestBindingOid (standard ++ (sessionExtensions digests chatTemplate ++ more)) = some (encodeDigests digests) := by
  rw [extension_skips fun e member same => other e member (by simp [same])]
  rfl

theorem chatTemplateBinding_found :
    extension chatTemplateBindingOid (standard ++ sessionExtensions digests chatTemplate) = chatTemplate.map (·.bytes) := by
  rw [extension_skips fun e member same => other e member (by simp [same])]
  cases chatTemplate <;> rfl

theorem turnBinding_found (binding : List UInt8) :
    extension turnBindingOid (standard ++ (sessionExtensions digests chatTemplate ++ [(turnBindingOid,binding)])) =
      some binding := by
  rw [extension_skips fun e member same => other e member (by simp [same])]
  cases chatTemplate <;> rfl

end

/-! ### The CA -/

section
variable [X509]

def load (tick : Nat) (dir : String) : Except String LocalCa := do
  let certPath := Mediator.joinPath dir "ca.crt"
  let keyPath := Mediator.joinPath dir "ca.key"
  let tdPath := Mediator.joinPath dir "trust_domain"
  if !(X509.exists_ tick certPath && X509.exists_ tick keyPath && X509.exists_ tick tdPath) then
    .error ("CA not initialized at " ++ dir)
  else do
    let caPem ← X509.readText tick certPath
    let keyPem ← X509.readText tick keyPath
    let tdText ← X509.readText tick tdPath
    let trustDomain := trim tdText
    let _ ← SpiffeId.new trustDomain "ca" "root"
    X509.loadIssuer caPem keyPem
    return ⟨dir,trustDomain,caPem,keyPem⟩

def issueSvidWithChatTemplate (tick : Nat) (ca : LocalCa) (workloadName instanceName : String) (digests : DigestTriple)
    (chatTemplate : Option Digest) : Except String X509Svid := do
  let id ← SpiffeId.new ca.trustDomain workloadName instanceName
  let signed ← X509.signedBy tick ca.caPem ca.keyPem
    ⟨X509.now tick-5*minute,X509.now tick+24*hour,workloadName,id.uri,sessionExtensions digests chatTemplate⟩
  return ⟨id.uri,signed.1,signed.2⟩

/-- The last nanosecond of the year 9999, the latest `OffsetDateTime`. -/
def latestDate : Int := 253402300799*second+999999999

/-- `now + turn_ttl` panics beyond the latest date. -/
def expiry (now : Int) (turnTtl : Nat) : Checked Int :=
  let end_ := now+(min turnTtl (2^63-1) : Nat)*second
  if end_ ≤ latestDate then .ok end_ else .error .DateOutOfRange

def issueTurnSvid (tick : Nat) (ca : LocalCa) (workloadName instanceName : String) (digests : DigestTriple)
    (chatTemplate : Option Digest) (audience : String) (turnTtl : Nat) : Checked (Except String X509Svid) :=
  match SpiffeId.new ca.trustDomain workloadName instanceName with
  | .error error => .ok (.error error)
  | .ok id =>
    match expiry (X509.now tick) turnTtl with
    | .error panic => .error panic
    | .ok notAfter => .ok do
      let binding ← encodeTurnBinding audience
      let signed ← X509.signedBy tick ca.caPem ca.keyPem
        ⟨X509.now tick-5*minute,notAfter,workloadName,id.uri,
          sessionExtensions digests chatTemplate ++ [(turnBindingOid,binding)]⟩
      return ⟨id.uri,signed.1,signed.2⟩

theorem issueTurnSvid_ok {tick : Nat} (ca : LocalCa) {workloadName instanceName : String} {digests : DigestTriple}
    {chatTemplate : Option Digest} {audience : String} {turnTtl : Nat} {id : SpiffeId} {notAfter : Int} {binding : List UInt8}
    {signed : String × String} (named : SpiffeId.new ca.trustDomain workloadName instanceName = .ok id)
    (expires : expiry (X509.now tick) turnTtl = .ok notAfter) (encoded : encodeTurnBinding audience = .ok binding)
    (signs : X509.signedBy tick ca.caPem ca.keyPem ⟨X509.now tick-5*minute,notAfter,workloadName,id.uri,
      sessionExtensions digests chatTemplate ++ [(turnBindingOid,binding)]⟩ = .ok signed) :
    issueTurnSvid tick ca workloadName instanceName digests chatTemplate audience turnTtl =
      .ok (.ok ⟨id.uri,signed.1,signed.2⟩) := by
  unfold issueTurnSvid
  -- the date is compared with a large number, which the kernel must not count up to
  generalize expiry (X509.now tick) turnTtl = checked at expires ⊢
  subst expires
  rw [named,encoded]
  dsimp only [bind,Except.bind]
  rw [signs]
  rfl

/-! ### Reading a certificate -/

def extensionsOf (certPem : String) : Except String (List (Oid × List UInt8)) := do
  let der ← X509.pemContents certPem
  X509.extensions der

def extractDigestTripleFromPem (certPem : String) : Except String DigestTriple := do
  let extensions ← extensionsOf certPem
  match extension digestBindingOid extensions with
  | none => .error (certParse ("missing digest-binding extension " ++ dotted digestBindingOid))
  | some value => decodeDigests value

def extractChatTemplateFromPem (certPem : String) : Except String (Option Digest) := do
  let extensions ← extensionsOf certPem
  match extension chatTemplateBindingOid extensions with
  | none => .ok none
  | some value =>
    if value.length ≠ 32 then .error (certParse ("chat-template binding extension has wrong length: expected 32, got " ++
      toString value.length))
    else (digestFromBytes value).map some

def extractTurnBindingFromPem (certPem : String) : Except String (Option String) := do
  let extensions ← extensionsOf certPem
  match extension turnBindingOid extensions with
  | none => .ok none
  | some value => (decodeTurnBinding value).map some

def certThumbprintHex [Sha256] (certPem : String) : Except String String := do
  let der ← X509.pemContents certPem
  return Bytes.hexEncode (Sha256.digest der).bytes

/-- The identity crate; a boot loads the CA when it has read its files. -/
@[reducible] def identity [Sha256] : Identity where
  extractDigestTriple := extractDigestTripleFromPem
  extractChatTemplate := extractChatTemplateFromPem
  extractTurnBinding := extractTurnBindingFromPem
  certThumbprintHex := certThumbprintHex
  issueSvid dir workloadName instanceName digests chatTemplate := do
    let ca ← load 6 dir
    issueSvidWithChatTemplate 6 ca workloadName instanceName digests chatTemplate
  issueTurnSvid tick dir workloadName instanceName digests chatTemplate audience turnTtl :=
    match load tick dir with
    | .error error => .ok (.error error)
    | .ok ca => issueTurnSvid tick ca workloadName instanceName digests chatTemplate audience turnTtl

/-! ### What a certificate tells -/

/-- A signed certificate can be read, and what the CA put into it follows extensions of
    other kinds. -/
structure Signs : Prop where
  readable : ∀ {tick caPem keyPem params signed},X509.signedBy tick caPem keyPem params = .ok signed →
    ∃ standard,extensionsOf signed.1 = .ok (standard ++ params.customExtensions) ∧
      ∀ e ∈ standard,e.1 ∉ [digestBindingOid,chatTemplateBindingOid,turnBindingOid]

/-- The certificate of a session binds its digests and its chat template. -/
theorem issueSvid_binds [Sha256] (signs : Signs) {dir workloadName instanceName : String} {digests : DigestTriple}
    {chatTemplate : Option Digest} {svid : X509Svid}
    (issued : identity.issueSvid dir workloadName instanceName digests chatTemplate = .ok svid) :
    extractDigestTripleFromPem svid.certPem = .ok digests ∧ extractChatTemplateFromPem svid.certPem = .ok chatTemplate := by
  obtain ⟨ca,-,issued⟩ := Ledger.bind_ok.mp issued
  obtain ⟨id,-,issued⟩ := Ledger.bind_ok.mp issued
  obtain ⟨signed,signs',issued⟩ := Ledger.bind_ok.mp issued
  cases issued
  obtain ⟨standard,read,other⟩ := signs.readable signs'
  constructor
  · have found := digestBinding_found digests chatTemplate other []
    rw [List.append_nil] at found
    rw [extractDigestTripleFromPem,Ledger.bind_ok]
    refine ⟨_,read,?_⟩
    dsimp only
    rw [found]
    exact decodeDigests_encodeDigests digests
  · rw [extractChatTemplateFromPem,Ledger.bind_ok]
    refine ⟨_,read,?_⟩
    dsimp only
    rw [chatTemplateBinding_found other]
    cases chatTemplate with
    | none => rfl
    | some template =>
      dsimp only [Option.map_some]
      rw [if_neg (not_not.mpr template.length),digestFromBytes_bytes]
      rfl

theorem identity_issueTurnSvid [Sha256] {tick : Nat} {dir workloadName instanceName : String} {digests : DigestTriple}
    {chatTemplate : Option Digest} {audience : String} {turnTtl : Nat} {svid : X509Svid}
    (issued : identity.issueTurnSvid tick dir workloadName instanceName digests chatTemplate audience turnTtl = .ok (.ok svid)) :
    ∃ ca,load tick dir = .ok ca ∧
      issueTurnSvid tick ca workloadName instanceName digests chatTemplate audience turnTtl = .ok (.ok svid) := by
  unfold identity at issued
  dsimp only at issued
  split at issued
  · cases issued
  · rename_i ca loaded
    exact ⟨ca,loaded,issued⟩

/-- The certificate of a turn binds the digests and the audience it was issued for. -/
theorem issueTurnSvid_binds [Sha256] (signs : Signs) {tick : Nat} {dir workloadName instanceName : String}
    {digests : DigestTriple} {chatTemplate : Option Digest} {audience : String} {turnTtl : Nat} {svid : X509Svid}
    (issued : identity.issueTurnSvid tick dir workloadName instanceName digests chatTemplate audience turnTtl = .ok (.ok svid)) :
    extractDigestTripleFromPem svid.certPem = .ok digests ∧ extractTurnBindingFromPem svid.certPem = .ok (some audience) := by
  obtain ⟨ca,-,issued⟩ := identity_issueTurnSvid issued
  unfold issueTurnSvid at issued
  split at issued
  · cases issued
  split at issued
  · cases issued
  injection issued with issued
  obtain ⟨binding,encoded,issued⟩ := Ledger.bind_ok.mp issued
  obtain ⟨signed,signs',issued⟩ := Ledger.bind_ok.mp issued
  cases issued
  obtain ⟨standard,read,other⟩ := signs.readable signs'
  constructor
  · rw [extractDigestTripleFromPem,Ledger.bind_ok]
    refine ⟨_,read,?_⟩
    dsimp only
    rw [digestBinding_found _ _ other]
    exact decodeDigests_encodeDigests digests
  · rw [extractTurnBindingFromPem,Ledger.bind_ok]
    refine ⟨_,read,?_⟩
    dsimp only
    rw [turnBinding_found other]
    dsimp only
    rw [decodeTurnBinding_encodeTurnBinding encoded]
    rfl

end

end LocalCa

end AegisNode
