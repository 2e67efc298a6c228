import AegisNode.Engine

/-!
`aegis pull`: an artifact is fetched by its pinned reference, verified and published
in the cache, or handed out from there. The files of a cache entry are published one
after the other.
-/
namespace AegisNode.Pull
open Json Text Ledger
open Engine (trim)

inductive PullError where
  | MissingTool (tool : String)
  | BadRef (reference reason : String)
  | UnpinnedRef (reference : String)
  | OrasFailed (exitCode : Option Int) (stderr : String)
  | CosignVerifyFailed (exitCode : Option Int) (stderr : String)
  | Sha256Mismatch (expected got : String)
  | ManifestFetchFailed (detail : String)
  | ChatTemplateAnnotationMissing (mediaType name : String)
  | InvalidAnnotationValue (name value : String)
  | Io (detail : String)
  deriving DecidableEq,Repr

/-! ### References -/

/-- `<registry>/<repository>[:<tag>]@sha256:<64 hexadecimal digits>`. -/
structure ParsedRef where
  registry : String
  repository : String
  tag : Option String
  sha256Hex : String
  deriving DecidableEq,Repr

/-- `char::is_ascii_hexdigit`. -/
def isAsciiHexdigit (c : Char) : Bool := ('0' ≤ c && c ≤ '9') || ('a' ≤ c && c ≤ 'f') || ('A' ≤ c && c ≤ 'F')

/-- A pin of 64 characters that are all digits has 64 bytes. -/
def ParsedRef.parse (s : String) : Except PullError ParsedRef :=
  match splitOnce ['@'] s.toList with
  | none => .error (.UnpinnedRef s)
  | some (head,digest) =>
    match stripPrefix "sha256:".toList digest with
    | none => .error (.BadRef s "digest must use the sha256: prefix")
    | some hex =>
      if hex.length ≠ 64 || !hex.all isAsciiHexdigit then .error (.BadRef s "sha256 must be 64 lowercase hex chars")
      else match splitOnce ['/'] head with
        | none => .error (.BadRef s "missing /<repo> after the registry")
        | some (registry,repoAndTag) =>
          if registry = [] then .error (.BadRef s "registry component is empty")
          else if repoAndTag = [] then .error (.BadRef s "repository component is empty")
          else
            let (repository,tag) := match rsplitOnce ':' repoAndTag with
              | some (repository,tag) => (repository,some (String.ofList tag))
              | none => (repoAndTag,none)
            if repository = [] then .error (.BadRef s "repository component is empty")
            else .ok {
              registry := String.ofList registry
              repository := String.ofList repository
              tag := tag
              sha256Hex := String.ofList (hex.map Char.toLower)
            }

def ParsedRef.canonical (parsed : ParsedRef) : String :=
  parsed.registry ++ "/" ++ parsed.repository ++ (parsed.tag.map (":" ++ ·)).getD "" ++ "@sha256:" ++ parsed.sha256Hex

/-- Everything a pull is told besides the reference. -/
structure PullConfig where
  cacheDir : String
  cosignKey : Option String
  keylessIdentity : Option String
  keylessOidcIssuer : Option String
  deriving DecidableEq,Repr

/-! ### The cache -/

inductive CosignMode where
  | Key
  | Keyless
  deriving DecidableEq,Repr

structure CosignVerification where
  verified : Bool
  mode : CosignMode
  keyPath : Option String
  keylessIdentityPattern : Option String
  keylessOidcIssuerPattern : Option String
  deriving DecidableEq,Repr

structure Provenance where
  schemaVersion : Nat
  ociRef : String
  manifestDigest : String
  blobSha256 : String
  chatTemplateSha256 : Option String
  cosign : CosignVerification
  pulledAt : String
  deriving DecidableEq,Repr

def cosignRecord (cfg : PullConfig) : CosignVerification :=
  match cfg.cosignKey with
  | some key => ⟨true,.Key,some key,none,none⟩
  | none => ⟨true,.Keyless,none,some (cfg.keylessIdentity.getD ".*"),some (cfg.keylessOidcIssuer.getD ".*")⟩

/-- The files of `<cache-dir>/<manifest-sha>/`. -/
structure Slot where
  refTxt : Option (List UInt8)
  sha256Txt : Option (List UInt8)
  chatTemplate : Option (List UInt8)
  blob : Option (List UInt8)
  provenance : Option Provenance
  deriving DecidableEq,Repr

def Slot.empty : Slot := ⟨none,none,none,none,none⟩

/-- Entries by the digest of their manifest. -/
abbrev Cache := String → Slot

/-- The file operations that publish an entry; the last two are renames. -/
inductive FileOp where
  | WriteRef (contents : List UInt8)
  | WriteSha256 (contents : List UInt8)
  | WriteChatTemplate (contents : List UInt8)
  | RenameBlob (contents : List UInt8)
  | PersistProvenance (provenance : Provenance)
  deriving DecidableEq,Repr

def FileOp.apply : FileOp → Slot → Slot
  | .WriteRef contents,slot => { slot with refTxt := some contents }
  | .WriteSha256 contents,slot => { slot with sha256Txt := some contents }
  | .WriteChatTemplate contents,slot => { slot with chatTemplate := some contents }
  | .RenameBlob contents,slot => { slot with blob := some contents }
  | .PersistProvenance provenance,slot => { slot with provenance := some provenance }

/-- An operation cut off on the way: a write may leave the file with its first bytes,
    a rename leaves nothing. -/
def FileOp.torn : FileOp → Nat → Slot → Slot
  | .WriteRef contents,written,slot => { slot with refTxt := some (contents.take written) }
  | .WriteSha256 contents,written,slot => { slot with sha256Txt := some (contents.take written) }
  | .WriteChatTemplate contents,written,slot => { slot with chatTemplate := some (contents.take written) }
  | .RenameBlob _,_,slot => slot
  | .PersistProvenance _,_,slot => slot

def applyAll (ops : List FileOp) (slot : Slot) : Slot := ops.foldl (fun slot op => op.apply slot) slot

/-! ### The tools -/

/-- `std::process::Output`. -/
structure Output where
  code : Option Int
  stdout : List UInt8
  stderr : String
  deriving DecidableEq,Repr

def Output.success (out : Output) : Bool := out.code = some 0

/-- What an execution finds outside: the tools on the path, what they answer to their
    arguments, the files `oras pull` leaves in its directory, and the time. -/
structure Outside where
  onPath : String → Bool
  orasManifestFetch : List String → Except String Output
  orasPull : String → Except String (Output × List (String × List UInt8))
  cosign : List String → Except String Output
  now : String

/-- The `:?` rendering of an exit code. -/
def codeDebug : Option Int → String
  | some code => "Some(" ++ toString code ++ ")"
  | none => "None"

def MODEL_ARTIFACT_TYPES : List String :=
  ["application/vnd.aegis-node.model.gguf.v1","application/vnd.aegis-node.model.litertlm.v1"]

def CHAT_TEMPLATE_SHA_ANNOTATION : String := "dev.aegis-node.chat-template.sha256"

def isValidSha256Hex (s : String) : Bool :=
  s.toList.length = 64 && s.toList.all fun c => isAsciiHexdigit c && !('A' ≤ c && c ≤ 'Z')

def extractChatTemplateAnnotationOf (manifest : Value) : Except PullError (Option String) :=
  let artifactType := (((getField manifest "artifactType").bind asStr).or
    (((getField manifest "config").bind (getField · "mediaType")).bind asStr)).getD ""
  match ((getField manifest "annotations").bind (getField · CHAT_TEMPLATE_SHA_ANNOTATION)).bind asStr with
  | some raw =>
    if isValidSha256Hex raw then .ok (some raw)
    else .error (.InvalidAnnotationValue CHAT_TEMPLATE_SHA_ANNOTATION raw)
  | none =>
    if MODEL_ARTIFACT_TYPES.contains artifactType then
      .error (.ChatTemplateAnnotationMissing artifactType CHAT_TEMPLATE_SHA_ANNOTATION)
    else .ok none

def requireTool (outside : Outside) (tool : String) : Except PullError Unit :=
  if outside.onPath tool then .ok () else .error (.MissingTool tool)

def runOrasPull (outside : Outside) (parsed : ParsedRef) : Except PullError (List (String × List UInt8)) :=
  match outside.orasPull parsed.canonical with
  | .error detail => .error (.Io detail)
  | .ok (out,files) => if out.success then .ok files else .error (.OrasFailed out.code out.stderr)

/-- What `cosign verify` is told: a key, or patterns for the identity and the issuer. -/
def cosignArgs (parsed : ParsedRef) (cfg : PullConfig) : List String :=
  let trust := match cfg.cosignKey with
    | some key => ["--key",key]
    | none => ["--certificate-identity-regexp",cfg.keylessIdentity.getD ".*",
        "--certificate-oidc-issuer-regexp",cfg.keylessOidcIssuer.getD ".*"]
  "verify" :: trust ++ [parsed.canonical]

def runCosignVerify (outside : Outside) (parsed : ParsedRef) (cfg : PullConfig) : Except PullError Unit :=
  match outside.cosign (cosignArgs parsed cfg) with
  | .error detail => .error (.Io detail)
  | .ok out => if out.success then .ok () else .error (.CosignVerifyFailed out.code out.stderr)

/-- The larger file wins; of equal ones the one listed first. -/
def larger (best : Option (String × List UInt8)) (file : String × List UInt8) : Option (String × List UInt8) :=
  match best with
  | none => some file
  | some held => if held.2.length < file.2.length then some file else best

def pickLargestFile (files : List (String × List UInt8)) : Except PullError (List UInt8) :=
  match files.foldl larger none with
  | some file => .ok file.2
  | none => .error (.Io "oras pull produced no files in staging dir")

section
variable [Serde]

def fromSlice (bytes : List UInt8) : Except String Value :=
  match Bytes.decode bytes with
  | some text => Serde.fromStr text
  | none => .error "invalid UTF-8"

def runOrasManifestFetch (outside : Outside) (parsed : ParsedRef) : Except PullError Value :=
  match outside.orasManifestFetch ["manifest","fetch",parsed.canonical] with
  | .error detail => .error (.Io detail)
  | .ok out =>
    if out.success then (fromSlice out.stdout).mapError fun e => .ManifestFetchFailed ("manifest is not valid JSON: " ++ e)
    else .error (.ManifestFetchFailed ("exit " ++ codeDebug out.code ++ ": " ++ trim out.stderr))

variable [Sha256]

/-! ### Pull -/

structure PulledArtifact where
  reference : ParsedRef
  blobPath : String
  sha256Hex : String
  chatTemplateSha256Hex : Option String
  deriving DecidableEq,Repr

def sha256File (bytes : List UInt8) : String := Bytes.hexEncode (Sha256.digest bytes).bytes

def blobPath (cfg : PullConfig) (parsed : ParsedRef) : String := cfg.cacheDir ++ "/" ++ parsed.sha256Hex ++ "/blob.bin"

/-- `std::fs::read_to_string` of a file that is there. -/
def readToString (bytes : List UInt8) : Except PullError String :=
  match Bytes.decode bytes with
  | some text => .ok text
  | none => .error (.Io "stream did not contain valid UTF-8")

def readChatTemplateSidecar (slot : Slot) : Except PullError (Option String) :=
  match slot.chatTemplate with
  | none => .ok none
  | some bytes => (readToString bytes).map fun raw => some (trim raw)

/-- Hands out what an earlier pull recorded, if the blob still has the recorded hash. -/
def cacheHit (cfg : PullConfig) (parsed : ParsedRef) (slot : Slot) (blob sidecar : List UInt8) :
    Except PullError PulledArtifact := do
  let recorded := trim (← readToString sidecar)
  let got := sha256File blob
  if got ≠ recorded then throw (.Sha256Mismatch recorded got)
  let chatTemplate ← readChatTemplateSidecar slot
  return ⟨parsed,blobPath cfg parsed,recorded,chatTemplate⟩

/-- Everything before the first file of the entry is written: the blob in staging and
    the annotation of the manifest. -/
def fetchVerified (outside : Outside) (parsed : ParsedRef) (cfg : PullConfig) :
    Except PullError (List UInt8 × Option String) := do
  let manifest ← runOrasManifestFetch outside parsed
  let chatTemplate ← extractChatTemplateAnnotationOf manifest
  let files ← runOrasPull outside parsed
  runCosignVerify outside parsed cfg
  let blob ← pickLargestFile files
  return (blob,chatTemplate)

/-- The sidecars first, then the blob, the provenance last. -/
def publish (outside : Outside) (parsed : ParsedRef) (cfg : PullConfig) (blob : List UInt8) (chatTemplate : Option String) :
    List FileOp :=
  [.WriteRef (Bytes.encode parsed.canonical),.WriteSha256 (Bytes.encode (sha256File blob))] ++
    (chatTemplate.map fun hex => .WriteChatTemplate (Bytes.encode hex)).toList ++
    [.RenameBlob blob,.PersistProvenance {
      schemaVersion := 1
      ociRef := parsed.canonical
      manifestDigest := parsed.sha256Hex
      blobSha256 := sha256File blob
      chatTemplateSha256 := chatTemplate
      cosign := cosignRecord cfg
      pulledAt := outside.now
    }]

def prepare (outside : Outside) (reference : String) : Except PullError ParsedRef := do
  requireTool outside "oras"
  requireTool outside "cosign"
  ParsedRef.parse reference

/-- The outcome of `pull` and the file operations it performs on the entry of its
    reference. -/
def pull (outside : Outside) (reference : String) (cfg : PullConfig) (cache : Cache) :
    Except PullError PulledArtifact × List FileOp :=
  match prepare outside reference with
  | .error error => (.error error,[])
  | .ok parsed =>
    let slot := cache parsed.sha256Hex
    match slot.blob,slot.sha256Txt with
    | some blob,some sidecar => (cacheHit cfg parsed slot blob sidecar,[])
    | _,_ =>
      match fetchVerified outside parsed cfg with
      | .error error => (.error error,[])
      | .ok (blob,chatTemplate) =>
        (.ok ⟨parsed,blobPath cfg parsed,sha256File blob,chatTemplate⟩,publish outside parsed cfg blob chatTemplate)

end

end AegisNode.Pull
