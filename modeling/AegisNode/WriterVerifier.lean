import AegisNode.Ledger
import AegisNode.JsonText
import AegisNode.TamperEvidence

/-!
What the ledger writer writes, the verifier accepts, with the writer's own count,
head, session and schema version; and an append that is rejected changes nothing.
-/
namespace AegisNode.WriterVerifier
open Bytes Json Clock Ledger

section
variable [Chrono] [Serde] [Sha256]

/-- Appends one entry after the other; the results in their order. -/
def appendAll (w : LedgerWriter) : List Entry → List (Checked (Except Error EntryRecord)) × LedgerWriter
  | [] => ([],w)
  | entry :: rest =>
    let first := append w entry
    let later := appendAll first.2 rest
    (first.1 :: later.1,later.2)

end

def succeeded : Checked (Except Error EntryRecord) → Bool
  | .ok (.ok _) => true
  | _ => false

/-! ### One append -/

section
variable [Chrono]

/-- The payload does not touch the writer's own fields. -/
theorem get_entryObject (w : LedgerWriter) {entry : Entry} {key : String} (reserved : key ∈ reservedKeys)
    (free : ∀ field ∈ entry.payload.fields,field.1 ∉ reservedKeys) :
    getField (.Object (entryObject w entry)) key = (Map.insertAll [] (chainFields w entry)).get key := by
  rw [getField,entryObject]
  apply get_insertAll_of_absent
  rintro field member rfl
  exact free field member reserved

theorem fieldsDepth_chainFields (w : LedgerWriter) (entry : Entry) : fieldsDepth (chainFields w entry) = 0 := by
  simp [chainFields,fieldsDepth,depth]

theorem depth_entryObject (w : LedgerWriter) {entry : Entry} (shallow : fieldsDepth entry.payload.fields < nestingLimit) :
    depth (.Object (entryObject w entry)) ≤ nestingLimit := by
  have flattened := fieldsDepth_insertAll entry.payload.fields (Map.insertAll [] (chainFields w entry))
  have own := fieldsDepth_insertAll (chainFields w entry) []
  rw [fieldsDepth_chainFields] at own
  simp only [fieldsDepth,max_self] at own
  rw [depth,entryObject]
  omega

theorem ordered_entryObject (w : LedgerWriter) (entry : Entry) : ordered (.Object (entryObject w entry)) := by
  rw [ordered,entryObject]
  apply fieldsOrdered_insertAll (ordered_of_mem entry.payload.sorted)
  apply fieldsOrdered_insertAll _ rfl
  intro field member
  simp only [chainFields,List.mem_cons,List.not_mem_nil,or_false] at member
  rcases member with rfl | rfl | rfl | rfl | rfl | rfl | rfl | rfl <;> rfl

end

section
variable [Chrono] [Serde] [Sha256]

/-- The verifier's loop stands where the writer stands. -/
structure InStep (w : LedgerWriter) (lines : List (List UInt8)) (walk : Walk) : Prop where
  accepted : verifyLines walkStart lines = .ok walk
  whole : ∀ line ∈ lines,lineFeed ∉ line
  written : w.file.disk = terminated lines
  flushed : w.file.buffer = []
  healthy : BufWriter.Healthy w.file
  head : walk.prevHash = w.prevHash
  sequence : walk.nextSeq = w.nextSequence
  session : walk.sessionId = if w.nextSequence = 0 then none else some w.sessionId
  version : walk.detectedVersion = if w.nextSequence = 0 then none else some w.schemaVersion

/-- What an entry must be for its line to be read back. -/
structure Readable (entry : Entry) : Prop where
  shallow : fieldsDepth entry.payload.fields < nestingLimit
  dated : Chrono.parse (Chrono.rfc3339Nanos entry.timestamp) = some entry.timestamp

theorem verifyLine_written (faithful : Faithful ‹Serde›) {w : LedgerWriter} {lines : List (List UInt8)} {walk : Walk}
    (inStep : InStep w lines walk) {entry : Entry} (readable : Readable entry)
    (free : ∀ field ∈ entry.payload.fields,field.1 ∉ reservedKeys) :
    verifyLine walk (entryLine w entry) = .ok ⟨Sha256.digest (entryLine w entry),succSaturating walk.nextSeq,some w.sessionId,
      some (walk.firstTs.getD entry.timestamp),some entry.timestamp,some w.schemaVersion⟩ := by
  have json := faithful.readsBack _ (ordered_entryObject w entry) (depth_entryObject w readable.shallow)
  have own : ∀ key ∈ reservedKeys,getField (.Object (entryObject w entry)) key =
      (Map.insertAll [] (chainFields w entry)).get key :=
    fun key reserved => get_entryObject w reserved free
  have unset : ∀ {α : Type} {found : Option α} {value : α},found = (if w.nextSequence = 0 then none else some value) →
      found = none ∨ found = some value := by
    intro α found value is
    split_ifs at is
    · exact .inl is
    · exact .inr is
  apply verifyLine_accepts walk (.Object (entryObject w entry)) w.schemaVersion w.sessionId
    (Chrono.rfc3339Nanos entry.timestamp) entry.timestamp (decode_encode _) json _ (unset inStep.version) _ (unset inStep.session)
    _ _ _ readable.dated
  · rw [own _ (by decide)]
    simp [Map.insertAll,chainFields,get_insert,asStr]
  · rw [own _ (by decide)]
    simp [Map.insertAll,chainFields,get_insert,asStr]
  · rw [own _ (by decide),inStep.sequence]
    simp [Map.insertAll,chainFields,get_insert,asU64]
  · rw [own _ (by decide),inStep.head]
    simp [Map.insertAll,chainFields,get_insert,asStr,hexDecode_hexEncode]
  · rw [own _ (by decide)]
    simp [Map.insertAll,chainFields,get_insert,asStr]

/-- An append is rejected and changes nothing, or the verifier follows it. -/
theorem append_inStep (faithful : Faithful ‹Serde›) {w : LedgerWriter} {lines : List (List UInt8)} {walk : Walk}
    (inStep : InStep w lines walk) {entry : Entry} (readable : Readable entry) (few : w.nextSequence.toNat+1 < 2^64) :
    (∃ error,append w entry = (.ok (.error error),w)) ∨
    ∃ record w' lines' walk',append w entry = (.ok (.ok record),w') ∧ InStep w' lines' walk' ∧
      w'.nextSequence = w.nextSequence+1 ∧ w'.sessionId = w.sessionId ∧ w'.schemaVersion = w.schemaVersion := by
  by_cases foreign : entry.sessionId ≠ w.sessionId
  · exact .inl ⟨_,by rw [append,if_pos foreign]⟩
  cases conflict : entry.payload.fields.find? (fun field => reservedKeys.contains field.1) with
  | some field => exact .inl ⟨_,by rw [append,if_neg foreign,conflict]⟩
  | none =>
    right
    have free : ∀ field ∈ entry.payload.fields,field.1 ∉ reservedKeys := by
      intro field member reserved
      have none := List.find?_eq_none.mp conflict field member
      simp [reserved] at none
    obtain ⟨answers,appended,clean⟩ := append_healthy inStep.healthy (not_not.mp foreign) free few
    have line := verifyLine_written faithful inStep readable free
    have next : (w.nextSequence+1).toNat = w.nextSequence.toNat+1 := by
      rw [UInt64.toNat_add]
      exact Nat.mod_eq_of_lt few
    have nonzero : w.nextSequence+1 ≠ 0 := by
      intro zero
      rw [zero] at next
      exact absurd next (by simp)
    refine ⟨_,_,lines ++ [entryLine w entry],⟨Sha256.digest (entryLine w entry),succSaturating walk.nextSeq,some w.sessionId,
      some (walk.firstTs.getD entry.timestamp),some entry.timestamp,some w.schemaVersion⟩,appended,
      ⟨?_,?_,?_,rfl,clean,rfl,?_,?_,?_⟩,rfl,rfl,rfl⟩
    · rw [verifyLines,List.foldlM_append,bind_ok]
      exact ⟨walk,inStep.accepted,by rw [List.foldlM_cons,line]; rfl⟩
    · intro other member
      rcases List.mem_append.mp member with old | new
      · exact inStep.whole other old
      · rw [List.mem_singleton.mp new,entryLine,lineFeed_mem_encode]
        exact faithful.oneLine _
    · simp [BufWriter.contents,inStep.flushed,inStep.written,terminated]
    · change succSaturating walk.nextSeq = w.nextSequence+1
      rw [inStep.sequence,succSaturating,if_neg few.ne]
    · simp [nonzero]
    · simp [nonzero]

/-! ### Runs -/

theorem appendAll_inStep (faithful : Faithful ‹Serde›) {entries : List Entry} (readable : ∀ entry ∈ entries,Readable entry)
    {w : LedgerWriter} {lines : List (List UInt8)} {walk : Walk} (inStep : InStep w lines walk)
    (few : w.nextSequence.toNat+entries.length < 2^64) :
    ∃ lines' walk',InStep (appendAll w entries).2 lines' walk' ∧
      (appendAll w entries).2.nextSequence.toNat = w.nextSequence.toNat+(appendAll w entries).1.countP succeeded ∧
      (appendAll w entries).2.sessionId = w.sessionId ∧ (appendAll w entries).2.schemaVersion = w.schemaVersion := by
  induction entries generalizing w lines walk with
  | nil => exact ⟨lines,walk,inStep,rfl,rfl,rfl⟩
  | cons entry rest ih =>
    rw [List.length_cons] at few
    have later := fun other member => readable other (List.mem_cons_of_mem entry member)
    rcases append_inStep faithful inStep (readable entry List.mem_cons_self) (by omega) with
      ⟨error,rejected⟩ | ⟨record,w',lines',walk',appended,inStep',sequence,session,version⟩
    · obtain ⟨lines',walk',inStep',count,same⟩ := ih later inStep (by omega)
      refine ⟨lines',walk',?_,?_,?_⟩ <;> simp only [appendAll,rejected]
      · exact inStep'
      · simpa [succeeded] using count
      · exact same
    · have next : w'.nextSequence.toNat = w.nextSequence.toNat+1 := by
        rw [sequence,UInt64.toNat_add]
        apply Nat.mod_eq_of_lt
        have one : (1 : UInt64).toNat = 1 := rfl
        omega
      obtain ⟨lines'',walk'',inStep'',count,same⟩ := ih later inStep' (by omega)
      rw [session,version] at same
      refine ⟨lines'',walk'',?_,?_,?_⟩ <;> simp only [appendAll,appended]
      · exact inStep''
      · rw [count,next,List.countP_cons_of_pos (by rfl)]
        omega
      · exact same

theorem create_inStep (sessionId : String) (uuidGenerator : Nat → Uuid) (version : LedgerSchemaVersion)
    {answers : List BufWriter.Answer} (healthy : ∀ answer ∈ answers,answer.Succeeds) :
    InStep (create sessionId uuidGenerator version answers) [] walkStart where
  accepted := rfl
  whole := by simp
  written := rfl
  flushed := rfl
  healthy := healthy
  head := rfl
  sequence := rfl
  session := rfl
  version := rfl

theorem close_inStep {w : LedgerWriter} {lines : List (List UInt8)} {walk : Walk} (inStep : InStep w lines walk) :
    ∃ file,close w = (.ok w.prevHash,file) ∧ file.disk = w.file.disk := by
  obtain ⟨answers,flushed,clean⟩ := BufWriter.flush_healthy inStep.healthy
  obtain ⟨left,synced,clean⟩ := BufWriter.syncAll_healthy (BufWriter.contents w.file) [] clean
  refine ⟨⟨BufWriter.contents w.file,[],left⟩,?_,?_⟩
  · rw [close,flushed]
    simp only [synced]
  · simp [BufWriter.contents,inStep.flushed]

/-- Whatever is appended, the verifier accepts the file with the writer's count and
    head, and a file with an entry also with its session and schema version. A
    rejected append leaves the writer as it was. -/
theorem writer_verified (faithful : Faithful ‹Serde›) (sessionId : String) (uuidGenerator : Nat → Uuid)
    (version : LedgerSchemaVersion) (answers : List BufWriter.Answer) (healthy : ∀ answer ∈ answers,answer.Succeeds)
    {entries : List Entry} (readable : ∀ entry ∈ entries,Readable entry) (few : entries.length < 2^64) :
    let start := create sessionId uuidGenerator version answers
    let run := appendAll start entries
    let count := run.1.countP succeeded
    (∃ summary file,close run.2 = (.ok run.2.prevHash,file) ∧ file.disk = run.2.file.disk ∧
      verifyReader file.disk = .ok summary ∧ summary.entryCount.toNat = count ∧
      summary.rootHashHex = hexEncode run.2.prevHash.bytes ∧
      summary.sessionId = (if count = 0 then none else some sessionId) ∧
      summary.schemaVersion = (if count = 0 then none else some version)) ∧
    ∀ before entry after,entries = before ++ entry :: after →
      ∀ error,(append (appendAll start before).2 entry).1 = .ok (.error error) →
        (append (appendAll start before).2 entry).2 = (appendAll start before).2 := by
  intro start run count
  have begins : InStep start [] walkStart := create_inStep sessionId uuidGenerator version healthy
  have zero : start.nextSequence.toNat = 0 := rfl
  constructor
  · obtain ⟨lines,walk,inStep,counted,session,schema⟩ := appendAll_inStep faithful readable begins (by omega)
    obtain ⟨file,closed,disk⟩ := close_inStep inStep
    have counted : run.2.nextSequence.toNat = count := by
      rw [counted,zero,Nat.zero_add]
    have session : run.2.sessionId = sessionId := session
    have schema : run.2.schemaVersion = version := schema
    have empty : run.2.nextSequence = 0 ↔ count = 0 := by
      rw [← counted,← UInt64.toNat_inj]
      rfl
    refine ⟨summary walk,file,closed,disk,?_,?_,?_,?_,?_⟩
    · rw [disk,verifyReader,inStep.written,rawLines_terminated inStep.whole,inStep.accepted]
      rfl
    · rw [← counted,summary,inStep.sequence]
    · rw [summary,inStep.head]
    · rw [← session]
      simp only [summary,inStep.session,← empty]
      rfl
    · rw [← schema]
      simp only [summary,inStep.version,← empty]
      rfl
  · intro before entry after whole error rejected
    subst whole
    rw [List.length_append,List.length_cons] at few
    obtain ⟨lines,walk,inStep,counted,-,-⟩ := appendAll_inStep faithful
      (fun other member => readable other (List.mem_append_left _ member)) begins (by omega)
    have bound := List.countP_le_length (p := succeeded) (l := (appendAll start before).1)
    have results : ∀ (w : LedgerWriter) (entries : List Entry),(appendAll w entries).1.length = entries.length := by
      intro w entries
      induction entries generalizing w with
      | nil => rfl
      | cons entry rest ih => simp [appendAll,ih]
    rw [results] at bound
    rcases append_inStep faithful inStep (readable entry (by simp)) (by omega) with ⟨other,unchanged⟩ | ⟨record,_,_,_,appended,_⟩
    · rw [unchanged]
    · rw [appended] at rejected
      cases rejected

end

/-! ### A run with two rejected appends -/

def nilUuid : Uuid := ⟨List.replicate 16 0,by decide⟩

/-- The entry of another session, one that sets a chain field, and one that is
    written. -/
def threeEntries : List Entry :=
  [⟨"t",.Access,genesisPrevHash,0,⟨[],rfl⟩⟩,
   ⟨"s",.Access,genesisPrevHash,0,⟨[("prevHash",.String "00")],rfl⟩⟩,
   ⟨"s",.Access,genesisPrevHash,0,⟨[("accessType",.String "read"),("resourceUri",.String "file:///data/a")],rfl⟩⟩]

def accessObject : Map :=
  [("@context",.String ledgerContextV2),
   ("accessType",.String "read"),
   ("agentIdentityHash",.String "0000000000000000000000000000000000000000000000000000000000000000"),
   ("entryId",.String "00000000-0000-0000-0000-000000000000"),
   ("entryType",.String "access"),
   ("prevHash",.String "0000000000000000000000000000000000000000000000000000000000000000"),
   ("resourceUri",.String "file:///data/a"),
   ("sequenceNumber",.Number (.PosInt 0)),
   ("sessionId",.String "s"),
   ("timestamp",.String "1970-01-01T00:00:00.000000000Z")]

/-- The SHA-256 of the line of that object. -/
@[reducible] def accessSha256 : Sha256 :=
  TamperEvidence.tableSha256 [(encode (String.ofList (JsonText.write (.Object accessObject))),
    ⟨[186,211,180,16,102,226,201,156,14,189,40,41,73,14,107,99,6,199,116,60,11,88,208,76,95,35,28,24,226,249,110,96],by decide⟩)]

/-- The three appends. -/
def threeAppends : List (Checked (Except Error EntryRecord)) × LedgerWriter :=
  @appendAll epochChrono JsonText.serde accessSha256 (create "s" (fun _ => nilUuid) .V2 []) threeEntries

/-- The verifier counts the one entry of a run with two rejected appends. -/
theorem writer_verified_three :
    ∃ summary file,close threeAppends.2 = (.ok threeAppends.2.prevHash,file) ∧
      @verifyReader epochChrono JsonText.serde accessSha256 file.disk = .ok summary ∧
      summary.entryCount.toNat = threeAppends.1.countP succeeded := by
  have readable : ∀ entry ∈ threeEntries,@Readable epochChrono entry := by
    intro entry member
    simp only [threeEntries,List.mem_cons,List.not_mem_nil,or_false] at member
    rcases member with rfl | rfl | rfl <;> exact @Readable.mk epochChrono _ (by decide) (by decide)
  have few : threeEntries.length < 2^64 := by simp [threeEntries]
  unfold threeAppends
  obtain ⟨summary,file,closed,-,verified,counted,-⟩ := (@writer_verified epochChrono JsonText.serde accessSha256
    JsonText.serde_faithful "s" (fun _ => nilUuid) .V2 [] (by simp) threeEntries readable few).1
  exact ⟨summary,file,closed,verified,counted⟩

/-- A ledger without entries has neither a session nor a version to report. -/
theorem empty_ledger_unnamed :
    let _ := epochChrono
    let _ := JsonText.serde
    let _ := accessSha256
    let run := appendAll (create "s" (fun _ => nilUuid) .V2 []) []
    ¬ ∃ summary,verifyReader run.2.file.disk = .ok summary ∧ summary.sessionId = some "s" ∧
      summary.schemaVersion = some .V2 := by
  rintro _ _ _ run ⟨summary,verified,named,-⟩
  have none : verifyReader run.2.file.disk = .ok ⟨none,0,hexEncode genesisPrevHash.bytes,none,none,none⟩ := by rfl
  rw [none] at verified
  cases verified
  cases named

end AegisNode.WriterVerifier
