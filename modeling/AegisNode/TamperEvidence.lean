import AegisNode.Ledger
import AegisNode.JsonText

/-!
Tamper evidence of the ledger: the root hash that the verifier reports determines
the contents of every line of the file.
-/
namespace AegisNode.TamperEvidence
open Bytes Json Clock Ledger HashChain

theorem digest_of_bytes {left right : Digest} (same : left.bytes = right.bytes) : left = right := by
  obtain ⟨left,_⟩ := left
  obtain ⟨right,_⟩ := right
  dsimp only at same
  subst same
  rfl

section
variable [Chrono] [Serde] [Sha256]

/-- The predecessor that the bytes of a line name. -/
def namedPrev (bytes : List UInt8) : Option (List UInt8) :=
  match decode bytes with
  | none => none
  | some line =>
    match Serde.fromStr line with
    | .error _ => none
    | .ok v => ((getField v "prevHash").bind asStr).bind hexDecode

def lineHash (bytes : List UInt8) : List UInt8 := (Sha256.digest bytes).bytes

/-- An accepted line names the hash of the line before it and leaves its own. -/
theorem verifyLine_links {walk walk' : Walk} {bytes : List UInt8} (accepted : verifyLine walk bytes = .ok walk') :
    namedPrev bytes = some walk.prevHash.bytes ∧ walk'.prevHash = Sha256.digest bytes := by
  simp only [verifyLine,bind_ok] at accepted
  obtain ⟨line,text,v,json,_,_,_,_,_,_,_,_,_,_,prevHex,named,_,same,_,_,_,_,result⟩ := accepted
  cases result
  refine ⟨?_,rfl⟩
  simp only [namedPrev,readText_ok text,readJson_ok json,requiredStr_ok named,Option.bind_some,checkPrevHash_ok same]

/-- The lines of an accepted walk are chained, and it ends with their root. -/
theorem verifyLines_chained {lines : List (List UInt8)} {walk walk' : Walk} (accepted : verifyLines walk lines = .ok walk') :
    Chained lineHash namedPrev walk.prevHash.bytes lines ∧ root lineHash walk.prevHash.bytes lines = walk'.prevHash.bytes := by
  induction lines generalizing walk with
  | nil =>
    cases accepted
    exact ⟨trivial,rfl⟩
  | cons bytes rest ih =>
    rw [verifyLines,List.foldlM_cons,bind_ok] at accepted
    obtain ⟨next,first,later⟩ := accepted
    obtain ⟨named,hashed⟩ := verifyLine_links first
    obtain ⟨chained,ends⟩ := ih later
    rw [hashed] at chained ends
    exact ⟨⟨named,chained⟩,ends⟩

theorem verifyReader_chained {file : List UInt8} {summary : VerifySummary} (accepted : verifyReader file = .ok summary) :
    Chained lineHash namedPrev genesisPrevHash.bytes (rawLines file) ∧
      hexEncode (root lineHash genesisPrevHash.bytes (rawLines file)) = summary.rootHashHex := by
  unfold verifyReader at accepted
  cases walked : verifyLines walkStart (rawLines file) with
  | error e => rw [walked] at accepted; cases accepted
  | ok walk =>
    rw [walked] at accepted
    cases accepted
    obtain ⟨chained,ends⟩ := verifyLines_chained walked
    exact ⟨chained,congrArg hexEncode ends⟩

/-- Two accepted files with the same root hash have the same lines, whoever wrote
    them: the hash is taken to tell their lines apart and to give none of them the
    value of the genesis. -/
theorem root_determines_lines {file other : List UInt8} {summary otherSummary : VerifySummary}
    (accepted : verifyReader file = .ok summary) (otherAccepted : verifyReader other = .ok otherSummary)
    (sameRoot : summary.rootHashHex = otherSummary.rootHashHex)
    (injective : ∀ a ∈ rawLines file ++ rawLines other,∀ b ∈ rawLines file ++ rawLines other,
      Sha256.digest a = Sha256.digest b → a = b)
    (fresh : ∀ a ∈ rawLines file ++ rawLines other,Sha256.digest a ≠ genesisPrevHash) :
    rawLines file = rawLines other := by
  obtain ⟨chained,ends⟩ := verifyReader_chained accepted
  obtain ⟨otherChained,otherEnds⟩ := verifyReader_chained otherAccepted
  have roots : root lineHash genesisPrevHash.bytes (rawLines file) = root lineHash genesisPrevHash.bytes (rawLines other) := by
    apply hexEncode_injective
    rw [ends,otherEnds,sameRoot]
  apply chained_unique lineHash namedPrev _ _ chained otherChained roots
  · intro a first b second same
    exact injective a first b second (digest_of_bytes same)
  · intro a member same
    exact fresh a member (digest_of_bytes same)

end

/-! ### A file with and without its last line feed -/

/-- A SHA-256 for runs whose lines stand in a table. -/
@[reducible] def tableSha256 (table : List (List UInt8 × Digest)) : Sha256 where
  digest bytes := ((table.find? (fun row => row.1 = bytes)).map (·.2)).getD ⟨List.replicate 32 255,by decide⟩

/-- The object of a first entry written at the epoch. -/
def firstObject : Map :=
  [("@context",.String ledgerContext),
   ("agentIdentityHash",.String "0000000000000000000000000000000000000000000000000000000000000000"),
   ("entryId",.String "00000000-0000-0000-0000-000000000000"),
   ("entryType",.String "session_start"),
   ("prevHash",.String "0000000000000000000000000000000000000000000000000000000000000000"),
   ("sequenceNumber",.Number (.PosInt 0)),
   ("sessionId",.String "s"),
   ("timestamp",.String "1970-01-01T00:00:00.000000000Z")]

def firstLine : List UInt8 := encode (String.ofList (JsonText.write (.Object firstObject)))

def firstHash : Digest where
  bytes := [17,145,156,163,166,236,101,212,74,110,218,49,192,16,166,198,212,9,204,51,21,151,48,169,205,102,103,13,6,157,227,144]
  length := by decide

theorem firstLine_whole : lineFeed ∉ firstLine := by
  rw [firstLine,lineFeed_mem_encode,String.toList_ofList]
  exact JsonText.write_line _

theorem firstLine_parsed :
    JsonText.readAll (String.ofList (JsonText.write (.Object firstObject))) = .ok (.Object firstObject) :=
  JsonText.readAll_write _ (by decide) (by decide)

/-- The SHA-256 of the first line. -/
@[reducible] def firstSha256 : Sha256 := tableSha256 [(firstLine,firstHash)]

theorem firstLine_hashed : firstSha256.digest firstLine = firstHash := by
  change ((([(firstLine,firstHash)] : List (List UInt8 × Digest)).find? (fun row => row.1 = firstLine)).map (·.2)).getD _ = firstHash
  rw [List.find?_cons_of_pos (by simp)]
  rfl

theorem firstLine_accepted : @verifyLine epochChrono JsonText.serde firstSha256 walkStart firstLine =
    .ok ⟨firstHash,1,some "s",some 0,some 0,some .V1⟩ := by
  let _ := epochChrono
  let _ := JsonText.serde
  let _ := firstSha256
  have accepted := verifyLine_accepts walkStart (.Object firstObject) .V1 "s" "1970-01-01T00:00:00.000000000Z" 0
    (decode_encode _) firstLine_parsed (by decide) (.inl rfl) (by decide) (.inl rfl) (by decide) (by decide) (by decide)
    (by decide)
  have hashed : Sha256.digest firstLine = firstHash := firstLine_hashed
  rw [firstLine] at hashed
  rw [hashed] at accepted
  exact accepted

theorem rawLines_firstLine : rawLines firstLine = [firstLine] := by
  apply rawLines_single firstLine_whole
  intro empty
  have text := encode_injective (empty.trans (show [] = encode "" from rfl))
  obtain ⟨c,rest,start,_⟩ := JsonText.write_start (.Object firstObject)
  rw [start] at text
  exact absurd (congrArg String.toList text) (by simp)

theorem firstFile_accepted : @verifyReader epochChrono JsonText.serde firstSha256 (terminated [firstLine]) =
    .ok ⟨some "s",1,hexEncode firstHash.bytes,some 0,some 0,some .V1⟩ := by
  let _ := epochChrono
  let _ := JsonText.serde
  let _ := firstSha256
  rw [verifyReader,rawLines_terminated (by simpa using firstLine_whole),verifyLines,List.foldlM_cons,firstLine_accepted]
  rfl

theorem cutFile_accepted : @verifyReader epochChrono JsonText.serde firstSha256 firstLine =
    .ok ⟨some "s",1,hexEncode firstHash.bytes,some 0,some 0,some .V1⟩ := by
  let _ := epochChrono
  let _ := JsonText.serde
  let _ := firstSha256
  rw [verifyReader,rawLines_firstLine,verifyLines,List.foldlM_cons,firstLine_accepted]
  rfl

/-- A file keeps its lines when its last line feed is cut off. -/
theorem root_determines_first_line : rawLines (terminated [firstLine]) = rawLines firstLine := by
  let _ := epochChrono
  let _ := JsonText.serde
  let _ := firstSha256
  have lines : rawLines (terminated [firstLine]) = [firstLine] := rawLines_terminated (by simpa using firstLine_whole)
  have only : ∀ a ∈ rawLines (terminated [firstLine]) ++ rawLines firstLine,a = firstLine := by
    rw [lines,rawLines_firstLine]
    simp
  apply root_determines_lines firstFile_accepted cutFile_accepted rfl
  · intro a first b second _
    rw [only a first,only b second]
  · intro a member same
    rw [only a member,show Sha256.digest firstLine = firstHash from firstLine_hashed] at same
    exact absurd same (by decide)

end AegisNode.TamperEvidence
