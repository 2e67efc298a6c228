import AegisNode.BufWriter
import AegisNode.Bytes
import AegisNode.Clock
import AegisNode.HashChain
import AegisNode.Json

/-!
The trajectory ledger: the writer that appends hash-chained entries, and the
verifier that walks a file and recomputes the chain.
-/
namespace AegisNode.Ledger
open Bytes Json Clock

/-! ### Hashes and identifiers -/

/-- The 32 bytes of a SHA-256 digest. -/
structure Digest where
  bytes : List UInt8
  length : bytes.length = 32
  deriving DecidableEq,Repr

/-- The third-party `sha2` crate. -/
class Sha256 where
  digest : List UInt8 → Digest

def genesisPrevHash : Digest := ⟨List.replicate 32 0,by decide⟩

/-- The 16 bytes of a UUID. -/
structure Uuid where
  bytes : List UInt8
  length : bytes.length = 16
  deriving DecidableEq,Repr

/-- The hyphenated form that `to_string` gives. -/
def Uuid.toString (id : Uuid) : String :=
  hexEncode (id.bytes.take 4) ++ "-" ++ hexEncode ((id.bytes.drop 4).take 2) ++ "-" ++
    hexEncode ((id.bytes.drop 6).take 2) ++ "-" ++ hexEncode ((id.bytes.drop 8).take 2) ++ "-" ++
    hexEncode (id.bytes.drop 10)

/-! ### Entries -/

inductive LedgerSchemaVersion where
  | V1
  | V2
  deriving DecidableEq,Repr

def ledgerContext : String := "https://aegis-node.dev/schemas/ledger/v1"
def ledgerContextV2 : String := "https://aegis-node.dev/schemas/ledger/v2"

def LedgerSchemaVersion.contextUrl : LedgerSchemaVersion → String
  | .V1 => ledgerContext
  | .V2 => ledgerContextV2

/-- Payload keys may not be any of these. -/
def reservedKeys : List String :=
  ["@context","entryId","sessionId","sequenceNumber","entryType","timestamp","agentIdentityHash","prevHash"]

inductive EntryType where
  | SessionStart
  | SessionEnd
  | ReasoningStep
  | Access
  | ApprovalRequest
  | ApprovalGranted
  | ApprovalRejected
  | ApprovalTimedOut
  | Violation
  | NetworkAttestation
  | TurnStart
  | TurnEnd
  | ToolCall
  | ToolResult
  | ApprovalDecision
  deriving DecidableEq,Repr

/-- The serialized name. -/
def EntryType.name : EntryType → String
  | .SessionStart => "session_start"
  | .SessionEnd => "session_end"
  | .ReasoningStep => "reasoning_step"
  | .Access => "access"
  | .ApprovalRequest => "approval_request"
  | .ApprovalGranted => "approval_granted"
  | .ApprovalRejected => "approval_rejected"
  | .ApprovalTimedOut => "approval_timed_out"
  | .Violation => "violation"
  | .NetworkAttestation => "network_attestation"
  | .TurnStart => "turn_start"
  | .TurnEnd => "turn_end"
  | .ToolCall => "tool_call"
  | .ToolResult => "tool_result"
  | .ApprovalDecision => "approval_decision"

/-- A `Map` of a payload: its keys, and those of the objects in it, are sorted. -/
structure Payload where
  fields : Map
  sorted : fieldsOrdered fields

structure Entry where
  sessionId : String
  entryType : EntryType
  agentIdentityHash : Digest
  timestamp : Int
  payload : Payload

structure EntryRecord where
  entryId : Uuid
  sequenceNumber : UInt64
  entryHash : Digest
  deriving DecidableEq,Repr

inductive Error where
  | Io (error : IoError)
  | SessionIdMismatch (expected got : String)
  | PayloadKeyConflict (key : String)
  deriving DecidableEq,Repr

/-! ### The writer -/

/-- `LedgerWriter`; `drawn` counts the calls of the UUID generator. -/
structure LedgerWriter where
  file : BufWriter.Writer
  sessionId : String
  nextSequence : UInt64
  prevHash : Digest
  uuidGenerator : Nat → Uuid
  drawn : Nat
  schemaVersion : LedgerSchemaVersion

/-- `create_with_uuid_generator` on a path where no file is; `answers` is what
    the operating system will do. -/
def create (sessionId : String) (uuidGenerator : Nat → Uuid) (schemaVersion : LedgerSchemaVersion)
    (answers : List BufWriter.Answer) : LedgerWriter where
  file := ⟨[],[],answers⟩
  sessionId := sessionId
  nextSequence := 0
  prevHash := genesisPrevHash
  uuidGenerator := uuidGenerator
  drawn := 0
  schemaVersion := schemaVersion

/-- Writes a line and its line feed, flushes and synchronizes. -/
def persist (file : BufWriter.Writer) (line : List UInt8) : Except IoError Unit × BufWriter.Writer :=
  match BufWriter.writeAll file line with
  | (.error error,file) => (.error error,file)
  | (.ok (),file) =>
    match BufWriter.writeAll file [lineFeed] with
    | (.error error,file) => (.error error,file)
    | (.ok (),file) =>
      match BufWriter.flush file with
      | (.error error,file) => (.error error,file)
      | (.ok (),file) => BufWriter.syncAll file

section
variable [Chrono] [Serde] [Sha256]

/-- The fields the writer owns, in the order it inserts them. -/
def chainFields (w : LedgerWriter) (entry : Entry) : List (String × Value) :=
  [("@context",.String w.schemaVersion.contextUrl),
   ("entryId",.String (w.uuidGenerator w.drawn).toString),
   ("sessionId",.String w.sessionId),
   ("sequenceNumber",.Number (.PosInt w.nextSequence)),
   ("entryType",.String entry.entryType.name),
   ("timestamp",.String (Chrono.rfc3339Nanos entry.timestamp)),
   ("agentIdentityHash",.String (hexEncode entry.agentIdentityHash.bytes)),
   ("prevHash",.String (hexEncode w.prevHash.bytes))]

/-- The object of an entry: the payload is flattened into it. -/
def entryObject (w : LedgerWriter) (entry : Entry) : Map :=
  (Map.insertAll [] (chainFields w entry)).insertAll entry.payload.fields

def entryLine (w : LedgerWriter) (entry : Entry) : List UInt8 := encode (Serde.toString (.Object (entryObject w entry)))

/-- `LedgerWriter::append`; the sequence number may overflow after the entry was
    written. -/
def append (w : LedgerWriter) (entry : Entry) : Checked (Except Error EntryRecord) × LedgerWriter :=
  if entry.sessionId ≠ w.sessionId then (.ok (.error (.SessionIdMismatch w.sessionId entry.sessionId)),w)
  else match entry.payload.fields.find? (fun field => reservedKeys.contains field.1) with
  | some field => (.ok (.error (.PayloadKeyConflict field.1)),w)
  | none =>
    let line := entryLine w entry
    let called := { w with drawn := w.drawn+1 }
    match persist w.file line with
    | (.error error,file) => (.ok (.error (.Io error)),{ called with file := file })
    | (.ok (),file) =>
      let entryHash := Sha256.digest line
      let advanced := { called with file := file,prevHash := entryHash }
      if w.nextSequence.toNat+1 = 2^64 then (.error .SequenceOverflow,advanced)
      else (.ok (.ok ⟨w.uuidGenerator w.drawn,w.nextSequence,entryHash⟩),
        { advanced with nextSequence := w.nextSequence+1 })

end

/-! ### A writer without faults -/

theorem persist_healthy {file : BufWriter.Writer} (healthy : BufWriter.Healthy file) (line : List UInt8) :
    ∃ answers,persist file line = (.ok (),⟨BufWriter.contents file ++ line ++ [lineFeed],[],answers⟩) ∧
      ∀ answer ∈ answers,answer.Succeeds := by
  obtain ⟨first,wrote,holds,clean⟩ := BufWriter.writeAll_healthy healthy line
  obtain ⟨second,ended,whole,clean⟩ := BufWriter.writeAll_healthy clean [lineFeed]
  obtain ⟨answers,flushed,clean⟩ := BufWriter.flush_healthy clean
  obtain ⟨left,synced,clean⟩ := BufWriter.syncAll_healthy (BufWriter.contents second) [] clean
  refine ⟨left,?_,clean⟩
  simp only [persist,wrote,ended,flushed,synced]
  rw [whole,holds]

/-- An entry of the session that leaves the writer's own fields alone is written. -/
theorem append_healthy [Chrono] [Serde] [Sha256] {w : LedgerWriter} {entry : Entry} (healthy : BufWriter.Healthy w.file)
    (own : entry.sessionId = w.sessionId) (free : ∀ field ∈ entry.payload.fields,field.1 ∉ reservedKeys)
    (few : w.nextSequence.toNat+1 < 2^64) :
    ∃ answers,append w entry = (.ok (.ok ⟨w.uuidGenerator w.drawn,w.nextSequence,Sha256.digest (entryLine w entry)⟩),
      { w with
        file := ⟨BufWriter.contents w.file ++ entryLine w entry ++ [lineFeed],[],answers⟩
        drawn := w.drawn+1
        prevHash := Sha256.digest (entryLine w entry)
        nextSequence := w.nextSequence+1 }) ∧ ∀ answer ∈ answers,answer.Succeeds := by
  obtain ⟨answers,persisted,clean⟩ := persist_healthy healthy (entryLine w entry)
  have conflict : entry.payload.fields.find? (fun field => reservedKeys.contains field.1) = none := by
    rw [List.find?_eq_none]
    intro field member
    simpa using free field member
  refine ⟨answers,?_,clean⟩
  rw [append,if_neg (not_not.mpr own),conflict]
  simp only [persisted,if_neg few.ne]

/-- `LedgerWriter::close` with the file it leaves. -/
def close (w : LedgerWriter) : Except Error Digest × BufWriter.Writer :=
  match BufWriter.flush w.file with
  | (.error error,file) => (.error (.Io error),file)
  | (.ok (),file) =>
    match BufWriter.syncAll file with
    | (.error error,file) => (.error (.Io error),file)
    | (.ok (),file) => (.ok w.prevHash,file)

/-! ### The verifier -/

structure VerifySummary where
  sessionId : Option String
  entryCount : UInt64
  rootHashHex : String
  firstTimestamp : Option Int
  lastTimestamp : Option Int
  schemaVersion : Option LedgerSchemaVersion
  deriving DecidableEq,Repr

inductive VerifyBreak where
  | InvalidJson (line : UInt64) (error : String)
  | MissingField (line : UInt64) (field : String)
  | BadContext (line : UInt64) (got : String)
  | SequenceMismatch (line expected got : UInt64)
  | PrevHashMismatch (line : UInt64) (expectedHex gotHex : String)
  | SessionIdMismatch (line : UInt64) (expected got : String)
  | BadTimestamp (line : UInt64) (value : String)
  | BadHexField (line : UInt64) (field value : String)
  deriving DecidableEq,Repr

/-- A line that is not UTF-8 is an error of the reader. -/
inductive VerifyError where
  | Io
  | Break (broken : VerifyBreak)
  deriving DecidableEq,Repr

/-- The variables of the loop of `verify_reader`. -/
structure Walk where
  prevHash : Digest
  nextSeq : UInt64
  sessionId : Option String
  firstTs : Option Int
  lastTs : Option Int
  detectedVersion : Option LedgerSchemaVersion
  deriving DecidableEq,Repr

def walkStart : Walk := ⟨genesisPrevHash,0,none,none,none,none⟩

def broken {α : Type} (b : VerifyBreak) : Except VerifyError α := .error (.Break b)

def requiredStr (v : Value) (field : String) (line : UInt64) : Except VerifyError String :=
  match (getField v field).bind asStr with
  | some text => .ok text
  | none => broken (.MissingField line field)

def contextVersion (url : String) : Option LedgerSchemaVersion :=
  if url = ledgerContext then some .V1 else if url = ledgerContextV2 then some .V2 else none

/-- The version of a line, which must be the one pinned by the first line. -/
def checkContext (walk : Walk) (url : String) : Except VerifyError LedgerSchemaVersion :=
  match contextVersion url with
  | none => broken (.BadContext walk.nextSeq url)
  | some version =>
    match walk.detectedVersion with
    | some pinned => if pinned ≠ version then broken (.BadContext walk.nextSeq url) else .ok pinned
    | none => .ok version

/-- The session of a line, which must be the one of the first line. -/
def checkSession (walk : Walk) (sid : String) : Except VerifyError String :=
  match walk.sessionId with
  | some existing => if existing ≠ sid then broken (.SessionIdMismatch walk.nextSeq existing sid) else .ok existing
  | none => .ok sid

def checkSequence (walk : Walk) (v : Value) : Except VerifyError Unit :=
  match (getField v "sequenceNumber").bind asU64 with
  | none => broken (.MissingField walk.nextSeq "sequenceNumber")
  | some seq => if seq ≠ walk.nextSeq then broken (.SequenceMismatch walk.nextSeq walk.nextSeq seq) else .ok ()

def checkPrevHash (walk : Walk) (prevHex : String) : Except VerifyError Unit :=
  match hexDecode prevHex with
  | none => broken (.BadHexField walk.nextSeq "prevHash" prevHex)
  | some bytes =>
    if bytes ≠ walk.prevHash.bytes then broken (.PrevHashMismatch walk.nextSeq (hexEncode walk.prevHash.bytes) prevHex)
    else .ok ()

section
variable [Chrono] [Serde] [Sha256]

def readText (bytes : List UInt8) : Except VerifyError String :=
  match decode bytes with
  | some line => .ok line
  | none => .error .Io

def readJson (walk : Walk) (line : String) : Except VerifyError Value :=
  match Serde.fromStr line with
  | .ok v => .ok v
  | .error error => broken (.InvalidJson walk.nextSeq error)

def readTimestamp (walk : Walk) (text : String) : Except VerifyError Int :=
  match Chrono.parse text with
  | some ts => .ok ts
  | none => broken (.BadTimestamp walk.nextSeq text)

/-- The body of the loop of `verify_reader`. -/
def verifyLine (walk : Walk) (bytes : List UInt8) : Except VerifyError Walk := do
  let line ← readText bytes
  let v ← readJson walk line
  let url ← requiredStr v "@context" walk.nextSeq
  let version ← checkContext walk url
  let sid ← requiredStr v "sessionId" walk.nextSeq
  let session ← checkSession walk sid
  checkSequence walk v
  let prevHex ← requiredStr v "prevHash" walk.nextSeq
  checkPrevHash walk prevHex
  let text ← requiredStr v "timestamp" walk.nextSeq
  let ts ← readTimestamp walk text
  return {
    prevHash := Sha256.digest bytes
    nextSeq := succSaturating walk.nextSeq
    sessionId := some session
    firstTs := some (walk.firstTs.getD ts)
    lastTs := some ts
    detectedVersion := some version }

def verifyLines (walk : Walk) (lines : List (List UInt8)) : Except VerifyError Walk := lines.foldlM verifyLine walk

def summary (walk : Walk) : VerifySummary where
  sessionId := walk.sessionId
  entryCount := walk.nextSeq
  rootHashHex := hexEncode walk.prevHash.bytes
  firstTimestamp := walk.firstTs
  lastTimestamp := walk.lastTs
  schemaVersion := walk.detectedVersion

def verifyReader (file : List UInt8) : Except VerifyError VerifySummary :=
  (verifyLines walkStart (rawLines file)).map summary

end

/-! ### Accepted lines -/

theorem bind_ok {α β ε : Type} {x : Except ε α} {f : α → Except ε β} {b : β} :
    x >>= f = .ok b ↔ ∃ a,x = .ok a ∧ f a = .ok b := by
  cases x with
  | error e => simp [bind,Except.bind]
  | ok a => simp [bind,Except.bind]

theorem readText_ok {bytes : List UInt8} {line : String} (accepted : readText bytes = .ok line) : decode bytes = some line := by
  unfold readText at accepted
  cases decoded : decode bytes with
  | none => rw [decoded] at accepted; cases accepted
  | some text => rw [decoded] at accepted; cases accepted; rfl

theorem readJson_ok [Serde] {walk : Walk} {line : String} {v : Value} (accepted : readJson walk line = .ok v) :
    Serde.fromStr line = .ok v := by
  unfold readJson at accepted
  cases parsed : Serde.fromStr line with
  | error e => rw [parsed] at accepted; cases accepted
  | ok value => rw [parsed] at accepted; cases accepted; rfl

theorem requiredStr_ok {v : Value} {field text : String} {line : UInt64} (accepted : requiredStr v field line = .ok text) :
    (getField v field).bind asStr = some text := by
  unfold requiredStr at accepted
  cases found : (getField v field).bind asStr with
  | none => rw [found] at accepted; cases accepted
  | some other => rw [found] at accepted; cases accepted; rfl

theorem checkPrevHash_ok {walk : Walk} {prevHex : String} (accepted : checkPrevHash walk prevHex = .ok ()) :
    hexDecode prevHex = some walk.prevHash.bytes := by
  unfold checkPrevHash at accepted
  cases decoded : hexDecode prevHex with
  | none => rw [decoded] at accepted; cases accepted
  | some bytes =>
    rw [decoded] at accepted
    by_cases same : bytes = walk.prevHash.bytes
    · rw [same]
    · simp only [if_pos same,broken] at accepted
      cases accepted

theorem checkContext_ok {walk : Walk} {url : String} {version : LedgerSchemaVersion} (accepted : checkContext walk url = .ok version) :
    url = version.contextUrl ∧ (walk.detectedVersion = none ∨ walk.detectedVersion = some version) := by
  unfold checkContext at accepted
  have known : ∀ found,contextVersion url = some found → url = found.contextUrl := by
    intro found is
    unfold contextVersion at is
    split_ifs at is with first second <;> cases is
    · exact first
    · exact second
  cases found : contextVersion url with
  | none => rw [found] at accepted; cases accepted
  | some other =>
    rw [found] at accepted
    cases pinned : walk.detectedVersion with
    | none =>
      rw [pinned] at accepted
      cases accepted
      exact ⟨known _ found,.inl rfl⟩
    | some old =>
      rw [pinned] at accepted
      dsimp only at accepted
      split_ifs at accepted with differs
      · cases accepted
      · cases accepted
        exact ⟨(known _ found).trans (congrArg LedgerSchemaVersion.contextUrl (not_not.mp differs).symm),.inr rfl⟩

theorem checkSession_ok {walk : Walk} {sid session : String} (accepted : checkSession walk sid = .ok session) :
    sid = session ∧ (walk.sessionId = none ∨ walk.sessionId = some session) := by
  unfold checkSession at accepted
  cases pinned : walk.sessionId with
  | none =>
    rw [pinned] at accepted
    cases accepted
    exact ⟨rfl,.inl rfl⟩
  | some old =>
    rw [pinned] at accepted
    dsimp only at accepted
    split_ifs at accepted with differs
    · cases accepted
    · cases accepted
      exact ⟨(not_not.mp differs).symm,.inr rfl⟩

theorem checkSequence_ok {walk : Walk} {v : Value} (accepted : checkSequence walk v = .ok ()) :
    (getField v "sequenceNumber").bind asU64 = some walk.nextSeq := by
  unfold checkSequence at accepted
  cases found : (getField v "sequenceNumber").bind asU64 with
  | none => rw [found] at accepted; cases accepted
  | some seq =>
    rw [found] at accepted
    dsimp only at accepted
    split_ifs at accepted with differs
    · cases accepted
    · rw [not_not.mp differs]

theorem readTimestamp_ok [Chrono] {walk : Walk} {text : String} {ts : Int} (accepted : readTimestamp walk text = .ok ts) :
    Chrono.parse text = some ts := by
  unfold readTimestamp at accepted
  cases parsed : Chrono.parse text with
  | none => rw [parsed] at accepted; cases accepted
  | some other => rw [parsed] at accepted; cases accepted; rfl

section
variable [Chrono] [Serde] [Sha256]

/-- A line with the expected fields is accepted. -/
theorem verifyLine_accepts (walk : Walk) {bytes : List UInt8} {line : String} (v : Value) (version : LedgerSchemaVersion)
    (session stamp : String) (ts : Int) (text : decode bytes = some line) (json : Serde.fromStr line = .ok v)
    (context : (getField v "@context").bind asStr = some version.contextUrl)
    (pinned : walk.detectedVersion = none ∨ walk.detectedVersion = some version)
    (named : (getField v "sessionId").bind asStr = some session)
    (kept : walk.sessionId = none ∨ walk.sessionId = some session)
    (numbered : (getField v "sequenceNumber").bind asU64 = some walk.nextSeq)
    (linked : ((getField v "prevHash").bind asStr).bind hexDecode = some walk.prevHash.bytes)
    (stamped : (getField v "timestamp").bind asStr = some stamp) (dated : Chrono.parse stamp = some ts) :
    verifyLine walk bytes = .ok ⟨Sha256.digest bytes,succSaturating walk.nextSeq,some session,
      some (walk.firstTs.getD ts),some ts,some version⟩ := by
  have known : contextVersion version.contextUrl = some version := by cases version <;> decide
  have first : checkContext walk version.contextUrl = .ok version := by
    rw [checkContext,known]
    rcases pinned with none | same
    · rw [none]
    · simp [same]
  have second : checkSession walk session = .ok session := by
    rw [checkSession]
    rcases kept with none | same
    · rw [none]
    · simp [same]
  have third : checkSequence walk v = .ok () := by simp [checkSequence,numbered]
  obtain ⟨prevHex,named',decoded⟩ := Option.bind_eq_some_iff.mp linked
  have fourth : checkPrevHash walk prevHex = .ok () := by simp [checkPrevHash,decoded]
  simp only [verifyLine,bind,Except.bind,pure,Except.pure,readText,text,readJson,json,requiredStr,context,named,named',stamped,
    first,second,third,fourth,readTimestamp,dated]

end

end AegisNode.Ledger
