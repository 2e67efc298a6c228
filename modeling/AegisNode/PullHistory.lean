import AegisNode.Pull
import AegisNode.Reference

/-!
Histories of `aegis pull` on one cache, each execution possibly cut off between or
inside its file operations: a cached blob stands with all its sidecars, the
provenance stands last, and an entry goes back to a pull that cosign accepted.
-/
namespace AegisNode.PullHistory
open Json Text Ledger Pull
open Engine (trim)
set_option linter.unusedSectionVars false

/-! ### Executions -/

/-- How far an execution got: `count` operations, and of the next one nothing, or its
    first bytes. -/
structure Stop where
  count : Nat
  written : Option Nat
  deriving DecidableEq,Repr

def performed (ops : List FileOp) (stop : Option Stop) (slot : Slot) : Slot :=
  match stop with
  | none => applyAll ops slot
  | some stop =>
    match stop.written,ops[stop.count]? with
    | some written,some op => op.torn written (applyAll (ops.take stop.count) slot)
    | _,_ => applyAll (ops.take stop.count) slot

/-- One `aegis pull`; without a stop it ran to its end. -/
structure Execution where
  outside : Outside
  reference : String
  cfg : PullConfig
  stop : Option Stop

def emptyCache : Cache := fun _ => .empty

section
variable [Serde] [Sha256]

def afterPull (cache : Cache) (e : Execution) : Cache :=
  match ParsedRef.parse e.reference with
  | .error _ => cache
  | .ok parsed =>
    Function.update cache parsed.sha256Hex
      (performed (pull e.outside e.reference e.cfg cache).2 e.stop (cache parsed.sha256Hex))

def afterPulls (cache : Cache) (history : List Execution) : Cache := history.foldl afterPull cache

end

/-! ### Cut-off operations -/

theorem applyAll_append (left right : List FileOp) (slot : Slot) :
    applyAll (left ++ right) slot = applyAll right (applyAll left slot) := List.foldl_append

/-- A cut-off run of two lists stops in the first or in the second. -/
theorem performed_append (left right : List FileOp) (stop : Option Stop) (slot : Slot) :
    (∃ stop',performed (left ++ right) stop slot = performed left stop' slot) ∨
      ∃ stop',performed (left ++ right) stop slot = performed right stop' (applyAll left slot) := by
  cases stop with
  | none =>
    right
    exact ⟨none,applyAll_append left right slot⟩
  | some stop =>
    obtain ⟨count,written⟩ := stop
    by_cases inside : count < left.length
    · left
      refine ⟨some ⟨count,written⟩,?_⟩
      simp only [performed,List.getElem?_append_left inside,List.take_append_of_le_length inside.le]
    · right
      refine ⟨some ⟨count-left.length,written⟩,?_⟩
      have beyond : left.length ≤ count := by omega
      simp only [performed,List.getElem?_append_right beyond,List.take_append,List.take_of_length_le beyond,
        applyAll_append]

theorem performed_nil (stop : Option Stop) (slot : Slot) : performed [] stop slot = slot := by
  cases stop with
  | none => rfl
  | some stop =>
    obtain ⟨count,written⟩ := stop
    cases written <;> simp [performed,applyAll]

theorem performed_cons (op : FileOp) (rest : List FileOp) (stop : Option Stop) (slot : Slot) :
    performed (op :: rest) stop slot = slot ∨ (∃ written,performed (op :: rest) stop slot = op.torn written slot) ∨
      ∃ stop',performed (op :: rest) stop slot = performed rest stop' (op.apply slot) := by
  cases stop with
  | none => exact .inr (.inr ⟨none,rfl⟩)
  | some stop =>
    obtain ⟨count,written⟩ := stop
    cases count with
    | zero =>
      cases written with
      | none => exact .inl rfl
      | some written => exact .inr (.inl ⟨written,rfl⟩)
    | succ count => exact .inr (.inr ⟨some ⟨count,written⟩,rfl⟩)

/-- What every operation keeps, whole or torn, a cut-off run of them keeps. -/
theorem performed_keeps {P : Slot → Prop} {ops : List FileOp} (whole : ∀ op ∈ ops,∀ slot,P slot → P (op.apply slot))
    (torn : ∀ op ∈ ops,∀ written slot,P slot → P (op.torn written slot)) (stop : Option Stop) {slot : Slot}
    (holds : P slot) : P (performed ops stop slot) := by
  induction ops generalizing stop slot with
  | nil =>
    rw [performed_nil]
    exact holds
  | cons op rest ih =>
    rcases performed_cons op rest stop slot with idle | ⟨written,cut⟩ | ⟨stop',later⟩
    · rw [idle]
      exact holds
    · rw [cut]
      exact torn op List.mem_cons_self written slot holds
    · rw [later]
      exact ih (fun op member => whole op (List.mem_cons_of_mem _ member))
        (fun op member => torn op (List.mem_cons_of_mem _ member)) stop' (whole op List.mem_cons_self slot holds)

/-! ### Largest files -/

/-- One file is larger than every other. -/
def UniqueLargest (files : List (String × List UInt8)) (blob : List UInt8) : Prop :=
  ∃ file ∈ files,file.2 = blob ∧ ∀ other ∈ files,other ≠ file → other.2.length < blob.length

theorem foldl_larger (files : List (String × List UInt8)) (held : String × List UInt8) :
    ∃ best ∈ held :: files,files.foldl larger (some held) = some best ∧
      ∀ file ∈ held :: files,file.2.length ≤ best.2.length := by
  induction files generalizing held with
  | nil => exact ⟨held,by simp,rfl,by simp⟩
  | cons file rest ih =>
    by_cases bigger : held.2.length < file.2.length
    · obtain ⟨best,member,found,largest⟩ := ih file
      refine ⟨best,List.mem_cons_of_mem _ member,by simpa [larger,bigger] using found,?_⟩
      intro other listed
      rcases List.mem_cons.mp listed with rfl | listed
      · exact bigger.le.trans (largest file List.mem_cons_self)
      · exact largest other listed
    · obtain ⟨best,member,found,largest⟩ := ih held
      refine ⟨best,?_,by simpa [larger,bigger] using found,?_⟩
      · rcases List.mem_cons.mp member with rfl | member
        · exact List.mem_cons_self
        · exact List.mem_cons_of_mem _ (List.mem_cons_of_mem _ member)
      · intro other listed
        have kept := largest held List.mem_cons_self
        rcases List.mem_cons.mp listed with rfl | listed
        · exact kept
        · rcases List.mem_cons.mp listed with rfl | listed
          · omega
          · exact largest other (List.mem_cons_of_mem _ listed)

/-- The order in which a directory lists its files does not matter. -/
theorem pickLargestFile_unique {files content : List (String × List UInt8)} {blob : List UInt8}
    (largest : UniqueLargest content blob) (perm : files.Perm content) : pickLargestFile files = .ok blob := by
  obtain ⟨file,member,rfl,bigger⟩ := largest
  have listed : file ∈ files := perm.mem_iff.mpr member
  cases files with
  | nil => cases listed
  | cons first rest =>
    obtain ⟨best,chosen,found,longest⟩ := foldl_larger rest first
    have same : best = file := by
      by_contra other
      have := bigger best (perm.mem_iff.mp chosen) other
      have := longest file listed
      omega
    subst same
    have picked : (first :: rest).foldl larger none = some best := found
    rw [pickLargestFile,picked]

/-! ### Recorded hashes -/

theorem trim_plain {text : String} (plain : ∀ c ∈ text.toList,isWhiteSpace c = false) : trim text = text := by
  have kept : ∀ l : List Char,(∀ c ∈ l,isWhiteSpace c = false) → l.dropWhile isWhiteSpace = l := by
    intro l none
    cases l with
    | nil => rfl
    | cons c rest => rw [List.dropWhile_cons_of_neg (by simp [none c List.mem_cons_self])]
  rw [trim,kept _ plain,kept _ (fun c member => plain c (List.mem_reverse.mp member)),List.reverse_reverse,String.ofList_toList]

theorem hexDigit_plain : ∀ n < 16,isWhiteSpace (Bytes.hexDigit n) = false := by decide

theorem trim_hexEncode (bytes : List UInt8) : trim (Bytes.hexEncode bytes) = Bytes.hexEncode bytes := by
  refine trim_plain ?_
  intro c member
  rw [Bytes.hexEncode,String.toList_ofList,List.mem_flatMap] at member
  obtain ⟨b,-,digit⟩ := member
  have bound := b.toNat_lt
  rcases List.mem_cons.mp digit with rfl | digit
  · exact hexDigit_plain _ (by omega)
  · cases List.mem_singleton.mp digit
    exact hexDigit_plain _ (by omega)

theorem isAsciiHexdigit_plain {c : Char} (hex : isAsciiHexdigit c = true) : isWhiteSpace c = false := by
  simp only [isAsciiHexdigit,Bool.or_eq_true,Bool.and_eq_true,decide_eq_true_eq,Char.le_def,UInt32.le_iff_toNat_le] at hex
  have value : c.toNat = c.val.toNat := rfl
  simp only [isWhiteSpace,value,Bool.or_eq_false_iff,Bool.and_eq_false_iff,decide_eq_false_iff_not]
  simp at hex
  omega

theorem trim_annotated {raw : String} (valid : isValidSha256Hex raw = true) : trim raw = raw := by
  refine trim_plain ?_
  intro c member
  simp only [isValidSha256Hex,Bool.and_eq_true,List.all_eq_true] at valid
  exact isAsciiHexdigit_plain (valid.2 c member).1

theorem annotation_valid {manifest : Value} {raw : String}
    (found : extractChatTemplateAnnotationOf manifest = .ok (some raw)) : isValidSha256Hex raw = true := by
  unfold extractChatTemplateAnnotationOf at found
  split at found
  · split_ifs at found with valid
    cases found
    exact valid
  · dsimp only at found
    split_ifs at found
    cases found

theorem readToString_encode (text : String) : readToString (Bytes.encode text) = .ok text := by
  rw [readToString,Bytes.decode_encode]

/-! ### Entries -/

theorem prepare_parses {outside : Outside} {reference : String} {parsed : ParsedRef}
    (prepared : prepare outside reference = .ok parsed) : ParsedRef.parse reference = .ok parsed := by
  obtain ⟨-,-,prepared⟩ := bind_ok.mp prepared
  obtain ⟨-,-,parsed⟩ := bind_ok.mp prepared
  exact parsed

section
variable [Serde] [Sha256]

/-- What a pull does: nothing to the files, or it publishes what it verified in an
    entry that is not complete. -/
theorem pull_cases (outside : Outside) (reference : String) (cfg : PullConfig) (cache : Cache) :
    (pull outside reference cfg cache).2 = [] ∨
      ∃ parsed blob chatTemplate,ParsedRef.parse reference = .ok parsed ∧
        ((cache parsed.sha256Hex).blob = none ∨ (cache parsed.sha256Hex).sha256Txt = none) ∧
        fetchVerified outside parsed cfg = .ok (blob,chatTemplate) ∧
        (pull outside reference cfg cache).2 = publish outside parsed cfg blob chatTemplate := by
  unfold pull
  cases prepared : prepare outside reference with
  | error error => exact .inl rfl
  | ok parsed =>
    have read := prepare_parses prepared
    dsimp only
    cases held : (cache parsed.sha256Hex).blob with
    | none =>
      cases fetched : fetchVerified outside parsed cfg with
      | error error => exact .inl rfl
      | ok found => exact .inr ⟨parsed,found.1,found.2,read,.inl held,fetched,rfl⟩
    | some blob =>
      cases sidecar : (cache parsed.sha256Hex).sha256Txt with
      | none =>
        cases fetched : fetchVerified outside parsed cfg with
        | error error => exact .inl rfl
        | ok found => exact .inr ⟨parsed,found.1,found.2,read,.inr sidecar,fetched,rfl⟩
      | some recorded => exact .inl rfl

/-- What the tools found under a digest: the manifest and the files. -/
structure Pinned (digest : String) (manifest : Value) (content : List (String × List UInt8)) (outside : Outside) : Prop where
  manifest : ∀ parsed v,parsed.sha256Hex = digest → runOrasManifestFetch outside parsed = .ok v → v = manifest
  content : ∀ parsed files,parsed.sha256Hex = digest → runOrasPull outside parsed = .ok files → files.Perm content

theorem fetchVerified_ok {outside : Outside} {parsed : ParsedRef} {cfg : PullConfig} {blob : List UInt8}
    {chatTemplate : Option String} (fetched : fetchVerified outside parsed cfg = .ok (blob,chatTemplate)) :
    ∃ manifest files,runOrasManifestFetch outside parsed = .ok manifest ∧
      extractChatTemplateAnnotationOf manifest = .ok chatTemplate ∧ runOrasPull outside parsed = .ok files ∧
      runCosignVerify outside parsed cfg = .ok () ∧ pickLargestFile files = .ok blob := by
  obtain ⟨manifest,fetch,fetched⟩ := bind_ok.mp fetched
  obtain ⟨template,extracted,fetched⟩ := bind_ok.mp fetched
  obtain ⟨files,pulled,fetched⟩ := bind_ok.mp fetched
  obtain ⟨verified,verifies,fetched⟩ := bind_ok.mp fetched
  obtain ⟨picked,picks,fetched⟩ := bind_ok.mp fetched
  cases fetched
  exact ⟨manifest,files,fetch,extracted,pulled,verifies,picks⟩

section
variable {digest : String} {manifest : Value} {content : List (String × List UInt8)} {blob : List UInt8}

theorem Pinned.fetched {outside : Outside} (pinned : Pinned digest manifest content outside)
    (largest : UniqueLargest content blob) {parsed : ParsedRef} (same : parsed.sha256Hex = digest) {cfg : PullConfig}
    {held : List UInt8} {chatTemplate : Option String} (fetched : fetchVerified outside parsed cfg = .ok (held,chatTemplate)) :
    held = blob ∧ extractChatTemplateAnnotationOf manifest = .ok chatTemplate := by
  obtain ⟨v,files,fetch,extracted,pulled,-,picked⟩ := fetchVerified_ok fetched
  cases pinned.manifest parsed v same fetch
  rw [pickLargestFile_unique largest (pinned.content parsed files same pulled)] at picked
  cases picked
  exact ⟨rfl,extracted⟩

/-- The provenance describes what stands beside it. -/
structure Described (digest : String) (manifest : Value) (slot : Slot) (p : Provenance) : Prop where
  manifestDigest : p.manifestDigest = digest
  reference : slot.refTxt = some (Bytes.encode p.ociRef)
  blob : ∃ blob,slot.blob = some blob ∧ sha256File blob = p.blobSha256
  sidecar : slot.sha256Txt = some (Bytes.encode p.blobSha256)
  chatTemplate : slot.chatTemplate = p.chatTemplateSha256.map Bytes.encode
  annotated : extractChatTemplateAnnotationOf manifest = .ok p.chatTemplateSha256

/-- An entry in which only the sidecars may have been written, whole or in part. -/
structure Unpublished (manifest : Value) (slot : Slot) : Prop where
  blob : slot.blob = none
  provenance : slot.provenance = none
  bare : extractChatTemplateAnnotationOf manifest = .ok none → slot.chatTemplate = none

/-- All sidecars are there. -/
structure Ready (manifest : Value) (blob : List UInt8) (chatTemplate : Option String) (slot : Slot) : Prop where
  sidecar : slot.sha256Txt = some (Bytes.encode (sha256File blob))
  template : slot.chatTemplate = chatTemplate.map Bytes.encode
  annotated : extractChatTemplateAnnotationOf manifest = .ok chatTemplate

/-- An entry as histories leave it: not yet published, or complete, and described by
    its provenance if it has one. -/
def Sound (digest : String) (manifest : Value) (blob : List UInt8) (slot : Slot) : Prop :=
  Unpublished manifest slot ∨
    slot.blob = some blob ∧ (∃ chatTemplate,Ready manifest blob chatTemplate slot) ∧
      ∀ p,slot.provenance = some p → Described digest manifest slot p

/-- The operations before the blob is renamed. -/
def sidecars (parsed : ParsedRef) (blob : List UInt8) (chatTemplate : Option String) : List FileOp :=
  [.WriteRef (Bytes.encode parsed.canonical),.WriteSha256 (Bytes.encode (sha256File blob))] ++
    (chatTemplate.map fun hex => .WriteChatTemplate (Bytes.encode hex)).toList

theorem sidecars_kinds {parsed : ParsedRef} {chatTemplate : Option String} {op : FileOp}
    (member : op ∈ sidecars parsed blob chatTemplate) : (∃ contents,op = .WriteRef contents) ∨
      (∃ contents,op = .WriteSha256 contents) ∨ chatTemplate ≠ none ∧ ∃ contents,op = .WriteChatTemplate contents := by
  rcases List.mem_append.mp member with member | member
  · rcases List.mem_cons.mp member with rfl | member
    · exact .inl ⟨_,rfl⟩
    · cases List.mem_singleton.mp member
      exact .inr (.inl ⟨_,rfl⟩)
  · cases chatTemplate with
    | none => cases member
    | some hex =>
      cases List.mem_singleton.mp member
      exact .inr (.inr ⟨by simp,_,rfl⟩)

/-- A whole write is one torn at its end. -/
theorem sidecars_whole {parsed : ParsedRef} {chatTemplate : Option String} {op : FileOp}
    (member : op ∈ sidecars parsed blob chatTemplate) : ∃ length,∀ slot,op.apply slot = op.torn length slot := by
  rcases sidecars_kinds member with ⟨contents,rfl⟩ | ⟨contents,rfl⟩ | ⟨-,contents,rfl⟩ <;>
    exact ⟨contents.length,fun slot => by rw [FileOp.apply,FileOp.torn,List.take_length]⟩

theorem sidecars_unpublished {parsed : ParsedRef} {chatTemplate : Option String}
    (annotated : extractChatTemplateAnnotationOf manifest = .ok chatTemplate) (stop : Option Stop) {slot : Slot}
    (unpublished : Unpublished manifest slot) :
    Unpublished manifest (performed (sidecars parsed blob chatTemplate) stop slot) := by
  have cut : ∀ op ∈ sidecars parsed blob chatTemplate,∀ written slot,Unpublished manifest slot →
      Unpublished manifest (op.torn written slot) := by
    intro op member written slot ⟨noBlob,noProvenance,bare⟩
    rcases sidecars_kinds member with ⟨contents,rfl⟩ | ⟨contents,rfl⟩ | ⟨templated,contents,rfl⟩
    · exact ⟨noBlob,noProvenance,bare⟩
    · exact ⟨noBlob,noProvenance,bare⟩
    · refine ⟨noBlob,noProvenance,?_⟩
      intro untemplated
      rw [annotated] at untemplated
      cases untemplated
      exact absurd rfl templated
  refine performed_keeps ?_ cut stop unpublished
  intro op member slot holds
  obtain ⟨length,whole⟩ := sidecars_whole member
  rw [whole slot]
  exact cut op member length slot holds

theorem sidecars_ready (parsed : ParsedRef) (blob : List UInt8) {chatTemplate : Option String}
    (annotated : extractChatTemplateAnnotationOf manifest = .ok chatTemplate) {slot : Slot}
    (unpublished : Unpublished manifest slot) :
    Ready manifest blob chatTemplate (applyAll (sidecars parsed blob chatTemplate) slot) ∧
      (applyAll (sidecars parsed blob chatTemplate) slot).refTxt = some (Bytes.encode parsed.canonical) := by
  cases chatTemplate with
  | none => exact ⟨⟨rfl,unpublished.bare annotated,annotated⟩,rfl⟩
  | some hex => exact ⟨⟨rfl,rfl,annotated⟩,rfl⟩

/-- A publication that is cut off anywhere leaves the entry sound. -/
theorem publish_sound {outside : Outside} {parsed : ParsedRef} {cfg : PullConfig} {chatTemplate : Option String}
    (same : parsed.sha256Hex = digest) (annotated : extractChatTemplateAnnotationOf manifest = .ok chatTemplate)
    (stop : Option Stop) {slot : Slot} (unpublished : Unpublished manifest slot) :
    Sound digest manifest blob (performed (publish outside parsed cfg blob chatTemplate) stop slot) := by
  change Sound digest manifest blob (performed (sidecars parsed blob chatTemplate ++ [_,_]) stop slot)
  rcases performed_append (sidecars parsed blob chatTemplate) _ stop slot with ⟨before,early⟩ | ⟨behind,late⟩
  · rw [early]
    exact .inl (sidecars_unpublished annotated before unpublished)
  · rw [late]
    have kept : Unpublished manifest (applyAll (sidecars parsed blob chatTemplate) slot) :=
      sidecars_unpublished annotated none unpublished
    obtain ⟨ready,reference⟩ := sidecars_ready parsed blob annotated unpublished
    generalize applyAll (sidecars parsed blob chatTemplate) slot = written at kept ready reference
    rcases performed_cons _ _ behind written with idle | ⟨length,cut⟩ | ⟨last,renamed⟩
    · rw [idle]
      exact .inl kept
    · rw [cut]
      exact .inl kept
    · rw [renamed]
      have stands : ∃ chatTemplate,Ready manifest blob chatTemplate { written with blob := some blob } :=
        ⟨chatTemplate,ready.sidecar,ready.template,ready.annotated⟩
      have bare : Sound digest manifest blob { written with blob := some blob } := by
        refine .inr ⟨rfl,stands,?_⟩
        intro p described
        rw [kept.provenance] at described
        cases described
      rcases performed_cons _ _ last { written with blob := some blob } with idle | ⟨length,cut⟩ | ⟨done,persisted⟩
      · rw [FileOp.apply,idle]
        exact bare
      · rw [FileOp.apply,cut]
        exact bare
      · rw [FileOp.apply,persisted,performed_nil]
        refine .inr ⟨rfl,⟨chatTemplate,ready.sidecar,ready.template,ready.annotated⟩,?_⟩
        rintro p ⟨⟩
        exact ⟨same,reference,⟨blob,rfl,rfl⟩,ready.sidecar,ready.template,annotated⟩

/-! ### Histories -/

theorem sound_afterPull (largest : UniqueLargest content blob) {cache : Cache}
    (sound : Sound digest manifest blob (cache digest)) {e : Execution} (pinned : Pinned digest manifest content e.outside) :
    Sound digest manifest blob (afterPull cache e digest) := by
  unfold afterPull
  cases read : ParsedRef.parse e.reference with
  | error error => exact sound
  | ok parsed =>
    by_cases same : parsed.sha256Hex = digest
    · subst same
      dsimp only
      rw [Function.update_self]
      rcases pull_cases e.outside e.reference e.cfg cache with idle | ⟨parsed',held,chatTemplate,read',miss,fetched,publishes⟩
      · rw [idle,performed_nil]
        exact sound
      · rw [read] at read'
        cases read'
        obtain ⟨rfl,annotated⟩ := pinned.fetched largest rfl fetched
        rw [publishes]
        refine publish_sound rfl annotated e.stop ?_
        rcases sound with unpublished | ⟨stands,⟨template,ready⟩,-⟩
        · exact unpublished
        · rw [stands,ready.sidecar] at miss
          simp at miss
    · dsimp only
      rw [Function.update_of_ne (Ne.symm same)]
      exact sound

theorem sound_afterPulls (largest : UniqueLargest content blob) {history : List Execution}
    (pinned : ∀ e ∈ history,Pinned digest manifest content e.outside) :
    Sound digest manifest blob (afterPulls emptyCache history digest) := by
  induction history using List.reverseRecOn with
  | nil => exact .inl ⟨rfl,rfl,fun _ => rfl⟩
  | append_singleton history e ih =>
    rw [afterPulls,List.foldl_append]
    refine sound_afterPull largest (ih fun e member => pinned e ?_) (pinned e (by simp))
    exact List.mem_append_left _ member

/-- A complete entry is handed out as it was recorded. -/
theorem cacheHit_ready {slot : Slot} {chatTemplate : Option String} (ready : Ready manifest blob chatTemplate slot)
    (cfg : PullConfig) (parsed : ParsedRef) :
    cacheHit cfg parsed slot blob (Bytes.encode (sha256File blob)) =
      .ok ⟨parsed,blobPath cfg parsed,sha256File blob,chatTemplate⟩ := by
  have recorded : trim (sha256File blob) = sha256File blob := trim_hexEncode _
  have template : readChatTemplateSidecar slot = .ok chatTemplate := by
    rw [readChatTemplateSidecar,ready.template]
    cases chatTemplate with
    | none => rfl
    | some hex =>
      simp only [Option.map_some,readToString_encode,Except.map]
      rw [trim_annotated (annotation_valid ready.annotated)]
  unfold cacheHit
  rw [readToString_encode]
  simp only [bind,Except.bind,recorded,template]
  simp [pure,Except.pure]

/-- A sound entry with a blob is handed out, whatever the settings of the caller. -/
theorem pull_found {cache : Cache} (sound : Sound digest manifest blob (cache digest)) (held : (cache digest).blob ≠ none)
    {outside : Outside} {reference : String} {parsed : ParsedRef} (prepared : prepare outside reference = .ok parsed)
    (same : parsed.sha256Hex = digest) (cfg : PullConfig) :
    ∃ chatTemplate,extractChatTemplateAnnotationOf manifest = .ok chatTemplate ∧
      pull outside reference cfg cache = (.ok ⟨parsed,blobPath cfg parsed,sha256File blob,chatTemplate⟩,[]) := by
  subst same
  rcases sound with unpublished | ⟨stands,⟨chatTemplate,ready⟩,-⟩
  · exact absurd unpublished.blob held
  · refine ⟨chatTemplate,ready.annotated,?_⟩
    simp only [pull,prepared,stands,ready.sidecar,cacheHit_ready ready]

/-- What a pull on an empty cache returns was fetched and verified. -/
theorem pull_empty {outside : Outside} {reference : String} {cfg : PullConfig} {artifact : PulledArtifact}
    (returned : (pull outside reference cfg emptyCache).1 = .ok artifact) :
    ∃ parsed blob,ParsedRef.parse reference = .ok parsed ∧
      fetchVerified outside parsed cfg = .ok (blob,artifact.chatTemplateSha256Hex) ∧ artifact.sha256Hex = sha256File blob := by
  unfold pull at returned
  cases prepared : prepare outside reference with
  | error error =>
    rw [prepared] at returned
    cases returned
  | ok parsed =>
    rw [prepared] at returned
    dsimp only [emptyCache,Slot.empty] at returned
    cases fetched : fetchVerified outside parsed cfg with
    | error error =>
      rw [fetched] at returned
      cases returned
    | ok found =>
      rw [fetched] at returned
      cases returned
      exact ⟨parsed,found.1,prepare_parses prepared,fetched,rfl⟩

/-- After any history of pulls, each cut off anywhere, a pull that finds an entry hands
    out what a pull on an empty cache would, and a provenance describes its entry. -/
theorem crash_consistent (largest : UniqueLargest content blob) {history : List Execution}
    (pinned : ∀ e ∈ history,Pinned digest manifest content e.outside) :
    (∀ outside reference cfg parsed,prepare outside reference = .ok parsed → parsed.sha256Hex = digest →
      (afterPulls emptyCache history digest).blob.isSome → (afterPulls emptyCache history digest).sha256Txt.isSome →
        ∃ artifact,pull outside reference cfg (afterPulls emptyCache history) = (.ok artifact,[]) ∧
          artifact.sha256Hex = sha256File blob ∧
          extractChatTemplateAnnotationOf manifest = .ok artifact.chatTemplateSha256Hex ∧
          ∀ fresh freshCfg uninterrupted,Pinned digest manifest content fresh →
            (pull fresh reference freshCfg emptyCache).1 = .ok uninterrupted →
              artifact.sha256Hex = uninterrupted.sha256Hex ∧
                artifact.chatTemplateSha256Hex = uninterrupted.chatTemplateSha256Hex) ∧
      ∀ p,(afterPulls emptyCache history digest).provenance = some p →
        Described digest manifest (afterPulls emptyCache history digest) p := by
  have sound := sound_afterPulls largest pinned
  constructor
  · intro outside reference cfg parsed prepared same held _
    obtain ⟨chatTemplate,annotated,pulled⟩ := pull_found sound (Option.isSome_iff_ne_none.mp held) prepared same cfg
    refine ⟨_,pulled,rfl,annotated,?_⟩
    intro fresh freshCfg uninterrupted honest returned
    obtain ⟨parsed',held',read,fetched,hash⟩ := pull_empty returned
    rw [prepare_parses prepared] at read
    cases read
    obtain ⟨rfl,annotatedToo⟩ := honest.fetched largest same fetched
    rw [annotated] at annotatedToo
    exact ⟨hash.symm,Except.ok.inj annotatedToo⟩
  · intro p described
    rcases sound with unpublished | ⟨-,-,describes⟩
    · rw [unpublished.provenance] at described
      cases described
    · exact describes p described

end

/-! ### Verification -/

/-- The execution had cosign accept a reference to this digest under its own settings. -/
def Verifies (digest : String) (e : Execution) : Prop :=
  ∃ parsed,ParsedRef.parse e.reference = .ok parsed ∧ parsed.sha256Hex = digest ∧
    runCosignVerify e.outside parsed e.cfg = .ok ()

/-- An entry holds a blob only after a pull of its digest was verified. -/
theorem blob_verified (history : List Execution) (digest : String)
    (held : (afterPulls emptyCache history digest).blob ≠ none) : ∃ e ∈ history,Verifies digest e := by
  induction history using List.reverseRecOn with
  | nil => exact absurd rfl held
  | append_singleton history e ih =>
    by_cases before : (afterPulls emptyCache history digest).blob = none
    · refine ⟨e,by simp,?_⟩
      rw [afterPulls,List.foldl_append] at held
      change (afterPull (afterPulls emptyCache history) e digest).blob ≠ none at held
      unfold afterPull at held
      cases read : ParsedRef.parse e.reference with
      | error error =>
        rw [read] at held
        exact absurd before held
      | ok parsed =>
        rw [read] at held
        dsimp only at held
        by_cases same : parsed.sha256Hex = digest
        · subst same
          rw [Function.update_self] at held
          rcases pull_cases e.outside e.reference e.cfg (afterPulls emptyCache history) with
            idle | ⟨parsed',blob,chatTemplate,read',-,fetched,-⟩
          · rw [idle,performed_nil] at held
            exact absurd before held
          · rw [read] at read'
            cases read'
            obtain ⟨-,-,-,-,-,verified,-⟩ := fetchVerified_ok fetched
            exact ⟨parsed,read,rfl,verified⟩
        · rw [Function.update_of_ne (Ne.symm same)] at held
          exact absurd before held
    · obtain ⟨e,member,verifies⟩ := ih before
      exact ⟨e,List.mem_append_left _ member,verifies⟩

/-- A pull that returns an artifact was verified under its own settings, or it found an
    entry that an earlier pull of the digest, verified under its settings, filled. -/
theorem pull_verified (history : List Execution) {outside : Outside} {reference : String} {cfg : PullConfig}
    {artifact : PulledArtifact} (returned : (pull outside reference cfg (afterPulls emptyCache history)).1 = .ok artifact) :
    ∃ parsed,ParsedRef.parse reference = .ok parsed ∧
      (runCosignVerify outside parsed cfg = .ok () ∨
        (afterPulls emptyCache history parsed.sha256Hex).blob ≠ none ∧
          (afterPulls emptyCache history parsed.sha256Hex).sha256Txt ≠ none ∧ ∃ e ∈ history,Verifies parsed.sha256Hex e) := by
  unfold pull at returned
  cases prepared : prepare outside reference with
  | error error =>
    rw [prepared] at returned
    cases returned
  | ok parsed =>
    rw [prepared] at returned
    refine ⟨parsed,prepare_parses prepared,?_⟩
    by_cases hit : (afterPulls emptyCache history parsed.sha256Hex).blob ≠ none ∧
        (afterPulls emptyCache history parsed.sha256Hex).sha256Txt ≠ none
    · exact .inr ⟨hit.1,hit.2,blob_verified history parsed.sha256Hex hit.1⟩
    · left
      have missed : ∃ found,fetchVerified outside parsed cfg = .ok found := by
        dsimp only at returned
        split at returned
        · rename_i blob sidecar held recorded
          exact absurd ⟨by rw [held]; simp,by rw [recorded]; simp⟩ hit
        · cases fetched : fetchVerified outside parsed cfg with
          | error error =>
            rw [fetched] at returned
            cases returned
          | ok found => exact ⟨found,rfl⟩
      obtain ⟨⟨blob,chatTemplate⟩,fetched⟩ := missed
      obtain ⟨-,-,-,-,-,verified,-⟩ := fetchVerified_ok fetched
      exact verified

end

/-! ### Two keys on one cache -/

section
open scoped Reference

def digestA : String := String.ofList (List.replicate 64 'a')

def pinnedRef : String := "ghcr.io/org/m@sha256:" ++ digestA

def parsedRef : ParsedRef := ⟨"ghcr.io","org/m",none,digestA⟩

def keyed (key : String) : PullConfig := ⟨"/cache",some key,none,none⟩

/-- A registry that serves one file, signed with the key `a.pub`. -/
def registry : Outside where
  onPath _ := true
  orasManifestFetch _ := .ok ⟨some 0,Bytes.encode "{}",""⟩
  orasPull _ := .ok (⟨some 0,[],""⟩,[("m.gguf",[1])])
  cosign args := if args.contains "a.pub" then .ok ⟨some 0,[],""⟩ else .ok ⟨some 1,[],"no matching signatures"⟩
  now := "2026-01-01T00:00:00.000Z"

theorem pinnedRef_parses : ParsedRef.parse pinnedRef = .ok parsedRef := by decide +kernel

theorem registry_prepares : prepare registry pinnedRef = .ok parsedRef := pinnedRef_parses

theorem registry_manifest (parsed : ParsedRef) : runOrasManifestFetch registry parsed = .ok (.Object []) := by
  have bare : fromSlice (Bytes.encode "{}") = .ok (.Object []) := by
    rw [fromSlice,Bytes.decode_encode]
    rfl
  simp only [runOrasManifestFetch,registry,Output.success,decide_true,if_true,bare]
  rfl

theorem registry_fetched : fetchVerified registry parsedRef (keyed "a.pub") = .ok ([1],none) := by
  have files : runOrasPull registry parsedRef = .ok [("m.gguf",[1])] := rfl
  have verified : runCosignVerify registry parsedRef (keyed "a.pub") = .ok () := by decide +kernel
  unfold fetchVerified
  rw [registry_manifest,files,verified]
  rfl

/-- A first pull under the key the registry signs with, cut off or not. -/
def pullA (stop : Option Stop) : Execution := ⟨registry,pinnedRef,keyed "a.pub",stop⟩

theorem pullA_entry (stop : Option Stop) : afterPulls emptyCache [pullA stop] digestA =
    performed (publish registry parsedRef (keyed "a.pub") [1] none) stop .empty := by
  simp only [afterPulls,List.foldl_cons,List.foldl_nil,afterPull,pullA,pinnedRef_parses,parsedRef,Function.update_self,pull,
    registry_prepares,emptyCache,Slot.empty]
  rw [show (⟨"ghcr.io","org/m",none,digestA⟩ : ParsedRef) = parsedRef from rfl,registry_fetched]

theorem registry_pinned : Pinned digestA (.Object []) [("m.gguf",[1])] registry where
  manifest parsed v _ fetched := by
    rw [registry_manifest] at fetched
    exact (Except.ok.inj fetched).symm
  content parsed files _ pulled := by
    cases pulled
    exact .refl _

theorem one_largest : UniqueLargest [("m.gguf",[1])] [1] := ⟨_,List.mem_singleton_self _,rfl,by simp⟩

/-- A pull cut off before the provenance was written leaves an entry that is handed out. -/
theorem crash_consistent_once :
    ∃ artifact,pull registry pinnedRef (keyed "a.pub") (afterPulls emptyCache [pullA (some ⟨3,none⟩)]) = (.ok artifact,[]) ∧
      artifact.sha256Hex = sha256File [1] := by
  have entry := pullA_entry (some ⟨3,none⟩)
  have pinned : ∀ e ∈ [pullA (some ⟨3,none⟩)],Pinned digestA (.Object []) [("m.gguf",[1])] e.outside := by
    intro e member
    cases List.mem_singleton.mp member
    exact registry_pinned
  obtain ⟨artifact,pulled,hash,-⟩ := (crash_consistent one_largest pinned).1 registry pinnedRef (keyed "a.pub") parsedRef
    registry_prepares rfl (by rw [entry]; rfl) (by rw [entry]; rfl)
  exact ⟨artifact,pulled,hash⟩

theorem pull_verified_first : ∃ artifact parsed,
    (pull registry pinnedRef (keyed "a.pub") (afterPulls emptyCache [])).1 = .ok artifact ∧
      ParsedRef.parse pinnedRef = .ok parsed ∧
        (runCosignVerify registry parsed (keyed "a.pub") = .ok () ∨
          (afterPulls emptyCache [] parsed.sha256Hex).blob ≠ none ∧
            (afterPulls emptyCache [] parsed.sha256Hex).sha256Txt ≠ none ∧ ∃ e ∈ [],Verifies parsed.sha256Hex e) := by
  have returned : (pull registry pinnedRef (keyed "a.pub") (afterPulls emptyCache [])).1 =
      .ok ⟨parsedRef,blobPath (keyed "a.pub") parsedRef,sha256File [1],none⟩ := by
    simp only [pull,registry_prepares,afterPulls,List.foldl_nil,emptyCache,Slot.empty,registry_fetched]
  obtain ⟨parsed,read,verified⟩ := pull_verified [] returned
  exact ⟨_,parsed,returned,read,verified⟩

/-- What was pulled under `a.pub` is handed out to a caller who pins `b.pub`, whose
    verification of it fails. -/
theorem other_key_served : ¬ ∀ [Serde] [Sha256] (history : List Execution) (outside : Outside) (reference : String)
    (cfg : PullConfig) (artifact : PulledArtifact) (parsed : ParsedRef),
      (pull outside reference cfg (afterPulls emptyCache history)).1 = .ok artifact →
        ParsedRef.parse reference = .ok parsed → runCosignVerify outside parsed cfg = .ok () := by
  intro verified
  have entry := pullA_entry none
  have pinned : ∀ e ∈ [pullA none],Pinned digestA (.Object []) [("m.gguf",[1])] e.outside := by
    intro e member
    cases List.mem_singleton.mp member
    exact registry_pinned
  have held : (afterPulls emptyCache [pullA none] digestA).blob ≠ none := by
    rw [entry]
    exact Option.some_ne_none _
  obtain ⟨chatTemplate,-,pulled⟩ :=
    pull_found (sound_afterPulls one_largest pinned) held registry_prepares rfl (keyed "b.pub")
  have accepted := verified [pullA none] registry pinnedRef (keyed "b.pub") _ parsedRef (by rw [pulled]) pinnedRef_parses
  revert accepted
  decide +kernel

end

end AegisNode.PullHistory
