import AegisNode.TamperEvidence

/-!
The offline replay viewer walks the hash chain in the browser. What its
`verifyChain` reports is compared with what the verifier says of the same file.
-/
namespace AegisNode.ReplayViewer
open Bytes Json Clock Ledger HashChain TamperEvidence

/-! ### The viewer -/

/-- The browser: `JSON.parse` with the message of its error, and the first sixteen
    characters of what `String` makes of a field. -/
class Browser where
  parse : String → Except String Value
  shown : Option Value → String

/-- `replace(/\r?\n$/,"")`. -/
def stripEnd : List Char → List Char
  | [] => []
  | ['\r','\n'] => []
  | ['\n'] => []
  | c :: rest => c :: stripEnd rest

/-- `split(/\r?\n/)`. -/
def splitLines : List Char → List (List Char)
  | [] => [[]]
  | '\r' :: '\n' :: rest => [] :: splitLines rest
  | '\n' :: rest => [] :: splitLines rest
  | c :: rest =>
    match splitLines rest with
    | [] => [[c]]
    | line :: lines => (c :: line) :: lines

inductive State where
  | Verified
  | Indeterminate
  | Broken
  deriving DecidableEq,Repr

structure Report where
  state : State
  count : Nat
  brokenLine : Option Nat
  reason : Option String
  rootHash : Option String
  deriving DecidableEq,Repr

section
variable [Browser] [Sha256]

def sha256Hex (text : String) : String := hexEncode (Sha256.digest (encode text)).bytes

/-- The loop of `verifyChain`; reading a field of `null` throws. -/
def walkLines (prevHash : String) (count : Nat) (endsWithSessionEnd : Bool) (i : Nat) : List String → Option Report
  | [] =>
    if endsWithSessionEnd then some ⟨.Verified,count,none,none,some prevHash⟩
    else some ⟨.Indeterminate,count,none,some "no session_end entry — capture may be truncated",some prevHash⟩
  | line :: rest =>
    if line = "" then walkLines prevHash count endsWithSessionEnd (i+1) rest
    else match Browser.parse line with
      | .error message => some ⟨.Broken,count,some (i+1),some ("line " ++ toString (i+1) ++ ": parse error: " ++ message),none⟩
      | .ok .Null => none
      | .ok parsed =>
        if (getField parsed "prevHash").bind asStr ≠ some prevHash then
          some ⟨.Broken,count,some (i+1),some ("line " ++ toString (i+1) ++ ": prevHash mismatch (expected " ++
            String.ofList (prevHash.toList.take 16) ++ "…, got " ++ Browser.shown (getField parsed "prevHash") ++ "…)"),none⟩
        else walkLines (sha256Hex line) (count+1) ((getField parsed "entryType").bind asStr = some "session_end") (i+1) rest

/-- Sixty-four zeros. -/
def genesisHex : String := hexEncode genesisPrevHash.bytes

/-- `verifyChain`; nothing when it throws. -/
def verifyChain (rawText : String) : Option Report :=
  let text := stripEnd rawText.toList
  if text = [] then some ⟨.Indeterminate,0,none,some "empty file",none⟩
  else walkLines genesisHex 0 false 0 ((splitLines text).map String.ofList)

end

/-- The lines the viewer goes through. -/
def viewerLines (rawText : String) : List String := (splitLines (stripEnd rawText.toList)).map String.ofList

/-! ### The lines of both -/

/-- A line without the carriage return before its line feed. -/
def stripReturn : List Char → List Char
  | [] => []
  | ['\r'] => []
  | c :: rest => c :: stripReturn rest

theorem splitLines_single {line : List Char} (single : '\n' ∉ line) : splitLines line = [line] := by
  induction line with
  | nil => rfl
  | cons c rest ih =>
    have first : c ≠ '\n' := fun same => single (by rw [same]; exact List.mem_cons_self)
    have later := ih (fun member => single (List.mem_cons_of_mem _ member))
    rw [splitLines]
    · rw [later]
    · rintro rest' rfl rfl
      exact single (by simp)
    · exact first

theorem splitLines_append {line : List Char} (single : '\n' ∉ line) (rest : List Char) :
    splitLines (line ++ '\n' :: rest) = stripReturn line :: splitLines rest := by
  induction line using stripReturn.induct with
  | case1 => rfl
  | case2 => rfl
  | case3 c more notReturn ih =>
    have first : c ≠ '\n' := fun same => single (by rw [same]; exact List.mem_cons_self)
    have later := ih (fun member => single (List.mem_cons_of_mem _ member))
    rw [List.cons_append,splitLines,later]
    · rw [stripReturn]
      exact notReturn
    · rintro rest' rfl ends
      cases more with
      | nil => exact notReturn rfl rfl
      | cons d more =>
        obtain ⟨rfl,-⟩ := List.cons.inj ends
        exact single (by simp)
    · exact first

theorem stripEnd_cons {c : Char} {rest : List Char} (notReturn : ¬ (c = '\r' ∧ rest = ['\n'])) (notFeed : ¬ (c = '\n' ∧ rest = [])) :
    stripEnd (c :: rest) = c :: stripEnd rest := by
  rw [stripEnd]
  · rintro rfl rfl
    exact notReturn ⟨rfl,rfl⟩
  · rintro rfl rfl
    exact notFeed ⟨rfl,rfl⟩

theorem stripEnd_single {line : List Char} (single : '\n' ∉ line) : stripEnd line = line := by
  induction line with
  | nil => rfl
  | cons c rest ih =>
    have later := ih (fun member => single (List.mem_cons_of_mem _ member))
    rw [stripEnd_cons,later]
    · rintro ⟨-,rfl⟩
      exact single (by simp)
    · rintro ⟨rfl,-⟩
      exact single (by simp)

theorem stripEnd_last {line : List Char} (single : '\n' ∉ line) : stripEnd (line ++ ['\n']) = stripReturn line := by
  induction line using stripReturn.induct with
  | case1 => rfl
  | case2 => rfl
  | case3 c rest notReturn ih =>
    have later := ih (fun member => single (List.mem_cons_of_mem _ member))
    rw [List.cons_append,stripEnd_cons,later,stripReturn]
    · exact notReturn
    · rintro ⟨rfl,ends⟩
      exact notReturn rfl (List.append_left_eq_self.mp ends)
    · rintro ⟨rfl,-⟩
      exact single (by simp)

theorem stripEnd_append (line : List Char) {rest : List Char} (some : rest ≠ []) :
    stripEnd (line ++ '\n' :: rest) = line ++ '\n' :: stripEnd rest := by
  induction line with
  | nil =>
    rw [List.nil_append,stripEnd_cons,List.nil_append]
    · rintro ⟨same,-⟩
      exact absurd same (by decide)
    · rintro ⟨-,rfl⟩
      exact some rfl
  | cons c more ih =>
    rw [List.cons_append,stripEnd_cons,ih,List.cons_append]
    · rintro ⟨-,ends⟩
      have size := congrArg List.length ends
      have long := List.length_pos_iff.mpr some
      simp at size
      omega
    · rintro ⟨-,ends⟩
      simp at ends

/-- The viewer's line is the verifier's, or that without a carriage return at its end. -/
def Viewed (raw : List UInt8) (line : String) : Prop := raw = encode line ∨ raw = encode (line ++ "\r")

theorem stripReturn_or (line : List Char) : line = stripReturn line ∨ line = stripReturn line ++ ['\r'] := by
  induction line using stripReturn.induct with
  | case1 => exact .inl rfl
  | case2 => exact .inr rfl
  | case3 c rest notReturn ih =>
    have first : stripReturn (c :: rest) = c :: stripReturn rest := by
      rw [stripReturn]
      exact notReturn
    rw [first,List.cons_append,List.cons.injEq,List.cons.injEq]
    exact ih.imp (⟨rfl,·⟩) (⟨rfl,·⟩)

theorem viewed_stripReturn (line : List Char) : Viewed (encode (String.ofList line)) (String.ofList (stripReturn line)) := by
  rcases stripReturn_or line with same | more
  · left
    rw [← same]
  · right
    rw [encode,encode,String.toList_append,String.toList_ofList,String.toList_ofList]
    exact congrArg (List.flatMap String.utf8EncodeChar) more

theorem rawLines_append {line : List UInt8} (single : lineFeed ∉ line) (rest : List UInt8) :
    rawLines (line ++ lineFeed :: rest) = line :: rawLines rest := by
  have some : rest.splitOn lineFeed ≠ [] := List.splitOn_ne_nil _ _
  obtain ⟨first,more,pieces⟩ := List.exists_cons_of_ne_nil some
  rw [rawLines,rawLines,List.splitOn_append_cons_self_of_not_mem single,pieces,List.getLast?_cons_cons]
  split_ifs <;> rfl

/-- Line by line, viewer and verifier go through the same text. -/
theorem viewed_lines {text : List Char} (some : text ≠ []) :
    List.Forall₂ Viewed (rawLines (encode (String.ofList text))) ((splitLines (stripEnd text)).map String.ofList) := by
  induction size : text.length using Nat.strong_induction_on generalizing text with
  | _ size ih =>
    by_cases feeds : '\n' ∈ text
    · obtain ⟨line,rest,rfl,single⟩ := List.eq_append_cons_of_mem feeds
      have raw : rawLines (encode (String.ofList (line ++ '\n' :: rest))) =
          encode (String.ofList line) :: rawLines (encode (String.ofList rest)) := by
        rw [← rawLines_append (by rwa [lineFeed_mem_encode,String.toList_ofList])]
        simp only [encode,String.toList_ofList,List.flatMap_append,List.flatMap_cons]
        rfl
      rw [raw]
      by_cases last : rest = []
      · subst last
        rw [stripEnd_last single,splitLines_single]
        · exact .cons (viewed_stripReturn line) .nil
        · intro member
          apply single
          rcases stripReturn_or line with same | more
          · rwa [same]
          · rw [more]
            exact List.mem_append_left _ member
      · rw [stripEnd_append line last,splitLines_append single]
        refine .cons (viewed_stripReturn line) (ih rest.length ?_ last rfl)
        rw [← size,List.length_append,List.length_cons]
        omega
    · rw [stripEnd_single feeds,splitLines_single feeds,rawLines_single]
      · exact .cons (.inl rfl) .nil
      · rwa [lineFeed_mem_encode,String.toList_ofList]
      · intro none
        have text := encode_injective (none.trans (show [] = encode "" from rfl))
        exact some (String.ofList_inj.mp text)

/-! ### What the viewer checks -/

/-- The viewer says that the chain holds, with so many entries and this root. -/
def Intact (report : Option Report) (count : Nat) (rootHash : String) : Prop :=
  ∃ found,report = some found ∧ found.state ≠ .Broken ∧ found.count = count ∧ found.rootHash = some rootHash

section
variable [Browser]

/-- The predecessor that a line names, as the browser reads it. -/
def browserPrev (line : String) : Option String :=
  match Browser.parse line with
  | .error _ => none
  | .ok parsed => (getField parsed "prevHash").bind asStr

variable [Sha256]

theorem walkLines_parsed {line : String} (some : line ≠ "") {v : Value} (parsed : Browser.parse line = .ok v) (object : v ≠ .Null)
    (prevHash : String) (count i : Nat) (ends : Bool) (rest : List String) :
    walkLines prevHash count ends i (line :: rest) =
      if (getField v "prevHash").bind asStr ≠ .some prevHash then
        .some ⟨.Broken,count,.some (i+1),.some ("line " ++ toString (i+1) ++ ": prevHash mismatch (expected " ++
          String.ofList (prevHash.toList.take 16) ++ "…, got " ++ Browser.shown (getField v "prevHash") ++ "…)"),none⟩
      else walkLines (sha256Hex line) (count+1) ((getField v "entryType").bind asStr = .some "session_end") (i+1) rest := by
  rw [walkLines,if_neg some,parsed]
  cases v with
  | Null => exact absurd rfl object
  | Bool | Number | String | Array | Object => rfl

/-- The viewer checks the links of the lines that are not blank, and nothing else. -/
theorem walkLines_intact {lines : List String} {prevHash : String} {count i : Nat} {ends : Bool} {n : Nat} {rootHash : String} :
    Intact (walkLines prevHash count ends i lines) n rootHash ↔
      Chained sha256Hex browserPrev prevHash (lines.filter (· ≠ "")) ∧ n = count+(lines.filter (· ≠ "")).length ∧
        rootHash = root sha256Hex prevHash (lines.filter (· ≠ "")) := by
  induction lines generalizing prevHash count i ends with
  | nil =>
    rw [walkLines,List.filter_nil]
    constructor
    · rintro ⟨report,found,-,rfl,hashed⟩
      split_ifs at found <;> cases found <;> cases hashed <;> exact ⟨trivial,rfl,rfl⟩
    · rintro ⟨-,rfl,rfl⟩
      split_ifs
      · exact ⟨_,rfl,nofun,rfl,rfl⟩
      · exact ⟨_,rfl,nofun,rfl,rfl⟩
  | cons line rest ih =>
    by_cases blank : line = ""
    · rw [walkLines,if_pos blank,List.filter_cons_of_neg (by simpa using blank)]
      exact ih
    rw [List.filter_cons_of_pos (by simpa using blank),List.length_cons,Chained,root]
    cases parsed : Browser.parse line with
    | error message =>
      rw [walkLines,if_neg blank,parsed,browserPrev,parsed]
      simp [Intact]
    | ok v =>
      have reads : browserPrev line = (getField v "prevHash").bind asStr := by rw [browserPrev,parsed]
      rw [reads]
      by_cases linked : (getField v "prevHash").bind asStr = some prevHash
      · have object : v ≠ .Null := by
          rintro rfl
          cases linked
        rw [walkLines_parsed blank parsed object,if_neg (not_not.mpr linked),ih,and_iff_right linked,Nat.add_right_comm,
          Nat.add_assoc]
      · by_cases object : v = .Null
        · rw [walkLines,if_neg blank,parsed,object]
          rw [object] at linked
          simp [Intact,linked]
        · rw [walkLines_parsed blank parsed object,if_pos linked]
          simp [Intact,linked]

theorem verifyChain_intact {text : String} {n : Nat} {rootHash : String} : Intact (verifyChain text) n rootHash ↔
    stripEnd text.toList ≠ [] ∧ Chained sha256Hex browserPrev genesisHex ((viewerLines text).filter (· ≠ "")) ∧
      n = ((viewerLines text).filter (· ≠ "")).length ∧ rootHash = root sha256Hex genesisHex ((viewerLines text).filter (· ≠ "")) := by
  rw [verifyChain]
  split_ifs with empty
  · simp [Intact,empty]
  · rw [and_iff_right empty,← viewerLines,walkLines_intact,Nat.zero_add]

end

/-! ### What the verifier checks -/

section
variable [Serde]

/-- The predecessor that a line names, as the verifier reads it. -/
def textPrev (bytes : List UInt8) : Option String :=
  match decode bytes with
  | none => none
  | some line =>
    match Serde.fromStr line with
    | .error _ => none
    | .ok v => (getField v "prevHash").bind asStr

theorem namedPrev_textPrev (bytes : List UInt8) : namedPrev bytes = (textPrev bytes).bind hexDecode := by
  unfold namedPrev textPrev
  cases decode bytes with
  | none => rfl
  | some line =>
    dsimp only
    cases Serde.fromStr line with
    | error => rfl
    | ok v => rfl

variable [Chrono]

/-- A line with every field the verifier asks for, besides its link. -/
structure Carries (session : String) (version : LedgerSchemaVersion) (number : UInt64) (bytes : List UInt8) (v : Value) : Prop where
  json : ∃ line,decode bytes = some line ∧ Serde.fromStr line = .ok v
  context : (getField v "@context").bind asStr = some version.contextUrl
  named : (getField v "sessionId").bind asStr = some session
  numbered : (getField v "sequenceNumber").bind asU64 = some number
  dated : ∃ stamp ts,(getField v "timestamp").bind asStr = some stamp ∧ Chrono.parse stamp = some ts

/-- Lines of one session and one schema version, numbered in order. -/
def Formed (session : String) (version : LedgerSchemaVersion) (number : UInt64) : List (List UInt8) → Prop
  | [] => True
  | bytes :: rest => (∃ v,Carries session version number bytes v) ∧ Formed session version (succSaturating number) rest

theorem Carries.textPrev {session : String} {version : LedgerSchemaVersion} {number : UInt64} {bytes : List UInt8} {v : Value}
    (carries : Carries session version number bytes v) : textPrev bytes = (getField v "prevHash").bind asStr := by
  obtain ⟨line,text,json⟩ := carries.json
  simp only [ReplayViewer.textPrev,text,json]

variable [Sha256]

/-- The hash of a line as text. -/
def hexHash (bytes : List UInt8) : String := hexEncode (lineHash bytes)

/-- The walk has seen nothing else than this session and this version. -/
def Pinned (walk : Walk) (session : String) (version : LedgerSchemaVersion) : Prop :=
  (walk.sessionId = none ∨ walk.sessionId = some session) ∧ (walk.detectedVersion = none ∨ walk.detectedVersion = some version)

theorem verifyLine_carries {walk walk' : Walk} {bytes : List UInt8} (accepted : verifyLine walk bytes = .ok walk') :
    ∃ session version,(∃ v,Carries session version walk.nextSeq bytes v) ∧ Pinned walk session version ∧
      walk'.sessionId = some session ∧ walk'.detectedVersion = some version ∧ walk'.nextSeq = succSaturating walk.nextSeq := by
  simp only [verifyLine,bind_ok] at accepted
  obtain ⟨line,text,v,json,url,context,version,known,sid,named,session,kept,_,sequence,_,_,_,_,stamp,stamped,ts,dated,result⟩ := accepted
  cases result
  obtain ⟨rfl,pinned⟩ := checkContext_ok known
  obtain ⟨rfl,same⟩ := checkSession_ok kept
  refine ⟨sid,version,⟨v,⟨line,readText_ok text,readJson_ok json⟩,requiredStr_ok context,requiredStr_ok named,
    checkSequence_ok sequence,stamp,ts,requiredStr_ok stamped,readTimestamp_ok dated⟩,⟨same,pinned⟩,rfl,rfl,rfl⟩

/-- What the verifier accepts is one session of one version, numbered in order. -/
theorem verifyLines_formed {lines : List (List UInt8)} {walk walk' : Walk} (accepted : verifyLines walk lines = .ok walk') :
    ∃ session version,Pinned walk session version ∧ Formed session version walk.nextSeq lines := by
  induction lines generalizing walk with
  | nil =>
    refine ⟨walk.sessionId.getD "",walk.detectedVersion.getD .V1,⟨?_,?_⟩,trivial⟩
    · cases walk.sessionId <;> simp
    · cases walk.detectedVersion <;> simp
  | cons bytes rest ih =>
    rw [verifyLines,List.foldlM_cons,bind_ok] at accepted
    obtain ⟨next,first,later⟩ := accepted
    obtain ⟨session,version,carries,pinned,sid,found,sequence⟩ := verifyLine_carries first
    obtain ⟨other,second,⟨sidLater,foundLater⟩,formed⟩ := ih later
    rw [sid] at sidLater
    rw [found] at foundLater
    obtain rfl : session = other := by simpa using sidLater
    obtain rfl : version = second := by simpa using foundLater
    rw [sequence] at formed
    exact ⟨session,version,pinned,carries,formed⟩

theorem verifyLines_counts {lines : List (List UInt8)} {walk walk' : Walk} (accepted : verifyLines walk lines = .ok walk')
    (few : walk.nextSeq.toNat+lines.length < 2^64) : walk'.nextSeq.toNat = walk.nextSeq.toNat+lines.length := by
  induction lines generalizing walk with
  | nil =>
    cases accepted
    rfl
  | cons bytes rest ih =>
    rw [verifyLines,List.foldlM_cons,bind_ok] at accepted
    obtain ⟨next,first,later⟩ := accepted
    obtain ⟨_,_,_,_,_,_,sequence⟩ := verifyLine_carries first
    rw [List.length_cons] at few
    have one : (1 : UInt64).toNat = 1 := rfl
    have stepped : next.nextSeq.toNat = walk.nextSeq.toNat+1 := by
      rw [sequence,succSaturating,if_neg (by omega),UInt64.toNat_add,one]
      exact Nat.mod_eq_of_lt (by omega)
    rw [ih later (by omega),stepped,List.length_cons]
    omega

/-- Lines that carry the fields and name their predecessors are accepted. -/
theorem verifyLines_accepts {lines : List (List UInt8)} {walk : Walk} {session : String} {version : LedgerSchemaVersion}
    (pinned : Pinned walk session version) (formed : Formed session version walk.nextSeq lines)
    (chained : Chained lineHash namedPrev walk.prevHash.bytes lines) : ∃ walk',verifyLines walk lines = .ok walk' := by
  induction lines generalizing walk with
  | nil => exact ⟨walk,rfl⟩
  | cons bytes rest ih =>
    obtain ⟨⟨v,carries⟩,later⟩ := formed
    obtain ⟨linked,more⟩ := chained
    rw [namedPrev_textPrev,carries.textPrev] at linked
    obtain ⟨line,text,json⟩ := carries.json
    obtain ⟨stamp,ts,stamped,dated⟩ := carries.dated
    have step := verifyLine_accepts walk v version session stamp ts text json carries.context pinned.2 carries.named pinned.1
      carries.numbered linked stamped dated
    obtain ⟨walk',rested⟩ := @ih ⟨_,_,_,_,_,_⟩ ⟨.inr rfl,.inr rfl⟩ later more
    exact ⟨walk',by rw [verifyLines,List.foldlM_cons,step]; exact rested⟩

omit [Serde] [Chrono] in
theorem root_hex (start : List UInt8) (lines : List (List UInt8)) :
    root hexHash (hexEncode start) lines = hexEncode (root lineHash start lines) := by
  induction lines generalizing start with
  | nil => rfl
  | cons bytes rest ih => exact ih (lineHash bytes)

omit [Chrono] in
/-- Names in lower case are what they decode to. -/
theorem chained_hex {start : List UInt8} {lines : List (List UInt8)} :
    Chained hexHash textPrev (hexEncode start) lines ↔ Chained lineHash namedPrev start lines ∧
      ∀ raw ∈ lines,∀ prev,namedPrev raw = some prev → textPrev raw = some (hexEncode prev) := by
  induction lines generalizing start with
  | nil => simp [Chained]
  | cons raw rest ih =>
    have later := @ih (lineHash raw)
    rw [Chained,Chained,List.forall_mem_cons]
    have here : textPrev raw = some (hexEncode start) ↔
        namedPrev raw = some start ∧ ∀ prev,namedPrev raw = some prev → textPrev raw = some (hexEncode prev) := by
      constructor
      · intro named
        have decoded : namedPrev raw = some start := by
          rw [namedPrev_textPrev,named,Option.bind_some,hexDecode_hexEncode]
        refine ⟨decoded,?_⟩
        intro prev other
        rw [decoded] at other
        cases other
        exact named
      · rintro ⟨named,lower⟩
        exact lower _ named
    rw [here,← hexHash] at *
    tauto

/-- The verifier accepts what is formed and linked, with the number of lines and the hash
    of the last one. -/
theorem verifyReader_iff {file : List UInt8} (few : (rawLines file).length < 2^64) {n : Nat} {rootHash : String} :
    (∃ summary,verifyReader file = .ok summary ∧ summary.entryCount.toNat = n ∧ summary.rootHashHex = rootHash) ↔
      (∃ session version,Formed session version 0 (rawLines file)) ∧
        Chained lineHash namedPrev genesisPrevHash.bytes (rawLines file) ∧ n = (rawLines file).length ∧
          rootHash = root hexHash (hexEncode genesisPrevHash.bytes) (rawLines file) := by
  have zero : walkStart.nextSeq.toNat = 0 := rfl
  have done : ∀ walk,verifyLines walkStart (rawLines file) = .ok walk → (summary walk).entryCount.toNat = (rawLines file).length := by
    intro walk walked
    rw [summary,verifyLines_counts walked (by omega),zero,Nat.zero_add]
  constructor
  · rintro ⟨_,accepted,rfl,rfl⟩
    obtain ⟨chained,ends⟩ := verifyReader_chained accepted
    rw [root_hex,ends]
    unfold verifyReader at accepted
    cases walked : verifyLines walkStart (rawLines file) with
    | error e => rw [walked] at accepted; cases accepted
    | ok walk =>
      rw [walked] at accepted
      cases accepted
      obtain ⟨session,version,-,formed⟩ := verifyLines_formed walked
      exact ⟨⟨session,version,formed⟩,chained,done walk walked,rfl⟩
  · rintro ⟨⟨session,version,formed⟩,chained,rfl,rfl⟩
    have pinned : Pinned walkStart session version := ⟨.inl rfl,.inl rfl⟩
    obtain ⟨walk,walked⟩ := verifyLines_accepts pinned formed chained
    have accepted : verifyReader file = .ok (summary walk) := by
      rw [verifyReader,walked]
      rfl
    refine ⟨summary walk,accepted,done walk walked,?_⟩
    rw [root_hex,(verifyReader_chained accepted).2]

end

/-! ### The two verdicts -/

/-- What the parsers have in common: the browser reads what `serde_json` reads, also
    without a carriage return at the end, with the same `prevHash`; an empty text is not
    JSON. -/
structure Alike (browser : Browser) (serde : Serde) : Prop where
  reads : ∀ line v,serde.fromStr line = .ok v →
    ∃ seen,browser.parse line = .ok seen ∧ (getField seen "prevHash").bind asStr = (getField v "prevHash").bind asStr
  trailing : ∀ line v,serde.fromStr (line ++ "\r") = .ok v →
    ∃ seen,browser.parse line = .ok seen ∧ (getField seen "prevHash").bind asStr = (getField v "prevHash").bind asStr
  empty : ∀ v,browser.parse "" ≠ .ok v

section
variable [Browser] [Chrono] [Serde] [Sha256]

/-- The viewer and the verifier say the same of a text. -/
def Agrees (text : String) : Prop :=
  ∀ n rootHash,Intact (verifyChain text) n rootHash ↔
    ∃ summary,verifyReader (encode text) = .ok summary ∧ summary.entryCount.toNat = n ∧ summary.rootHashHex = rootHash

/-- The viewer hashes what the verifier hashes; so it is unless a line ends with a
    carriage return. -/
def SameHashes (text : String) : Prop :=
  (rawLines (encode text)).map hexHash = (viewerLines text).map sha256Hex

/-- The lines that are not blank link up for the viewer. -/
def ViewerChain (text : String) : Prop :=
  stripEnd text.toList ≠ [] ∧ Chained sha256Hex browserPrev genesisHex ((viewerLines text).filter (· ≠ ""))

/-- No line is blank or ends with a carriage return, and each carries what the verifier
    asks for. -/
def Regular (text : String) : Prop :=
  (∀ line ∈ viewerLines text,line ≠ "") ∧ SameHashes text ∧ ∃ session version,Formed session version 0 (rawLines (encode text))

/-- The lines carry what the verifier asks for and link up for it. -/
def VerifierChain (text : String) : Prop :=
  (∃ session version,Formed session version 0 (rawLines (encode text))) ∧
    Chained lineHash namedPrev genesisPrevHash.bytes (rawLines (encode text))

/-- There is a line, none ends with a carriage return, and they name their predecessors
    in lower case. -/
def Plain (text : String) : Prop :=
  text ≠ "" ∧ SameHashes text ∧
    ∀ raw ∈ rawLines (encode text),∀ prev,namedPrev raw = some prev → textPrev raw = some (hexEncode prev)

omit [Sha256] in
theorem browserPrev_viewed (alike : Alike ‹Browser› ‹Serde›) {raw : List UInt8} {line session : String}
    {version : LedgerSchemaVersion} {number : UInt64} {v : Value} (viewed : Viewed raw line)
    (carries : Carries session version number raw v) : browserPrev line = textPrev raw ∧ line ≠ "" := by
  obtain ⟨text,decoded,json⟩ := carries.json
  have seen : ∃ seen,Browser.parse line = .ok seen ∧ (getField seen "prevHash").bind asStr = (getField v "prevHash").bind asStr := by
    rcases viewed with rfl | rfl
    · rw [decode_encode] at decoded
      cases decoded
      exact alike.reads _ _ json
    · rw [decode_encode] at decoded
      cases decoded
      exact alike.trailing _ _ json
  obtain ⟨seen,parsed,same⟩ := seen
  constructor
  · rw [carries.textPrev,← same,browserPrev,parsed]
  · rintro rfl
    exact alike.empty _ parsed

omit [Sha256] in
theorem some_viewed (alike : Alike ‹Browser› ‹Serde›) {raws : List (List UInt8)} {lines : List String}
    (viewed : List.Forall₂ Viewed raws lines) {session : String} {version : LedgerSchemaVersion} {number : UInt64}
    (formed : Formed session version number raws) : ∀ line ∈ lines,line ≠ "" := by
  induction viewed generalizing number with
  | nil => simp
  | cons here _ ih =>
    obtain ⟨⟨v,carries⟩,later⟩ := formed
    exact List.forall_mem_cons.mpr ⟨(browserPrev_viewed alike here carries).2,ih later⟩

/-- Line by line the viewer reads the predecessors that the verifier reads. -/
theorem chained_viewed (alike : Alike ‹Browser› ‹Serde›) {raws : List (List UInt8)} {lines : List String}
    (viewed : List.Forall₂ Viewed raws lines) (hashes : raws.map hexHash = lines.map sha256Hex) {session : String}
    {version : LedgerSchemaVersion} {number : UInt64} (formed : Formed session version number raws) (start : String) :
    (Chained hexHash textPrev start raws ↔ Chained sha256Hex browserPrev start lines) ∧
      root hexHash start raws = root sha256Hex start lines := by
  induction viewed generalizing start number with
  | nil => exact ⟨Iff.rfl,rfl⟩
  | cons here _ ih =>
    obtain ⟨⟨v,carries⟩,later⟩ := formed
    rw [List.map_cons,List.map_cons,List.cons.injEq] at hashes
    obtain ⟨same,-⟩ := browserPrev_viewed alike here carries
    obtain ⟨chains,roots⟩ := ih hashes.2 later (hexHash _)
    rw [Chained,Chained,root,root,← hashes.1,same,chains,roots]
    exact ⟨Iff.rfl,rfl⟩

/-- Where both walks hold and end with the same root, every line has one hash. -/
theorem sameHashes_of_chained (alike : Alike ‹Browser› ‹Serde›) {raws : List (List UInt8)} {lines : List String}
    (viewed : List.Forall₂ Viewed raws lines) {session : String} {version : LedgerSchemaVersion} {number : UInt64}
    (formed : Formed session version number raws) {start : List UInt8} {text : String} (chained : Chained lineHash namedPrev start raws)
    (links : Chained sha256Hex browserPrev text lines) (roots : root hexHash (hexEncode start) raws = root sha256Hex text lines) :
    raws.map hexHash = lines.map sha256Hex := by
  induction viewed generalizing start text number with
  | nil => rfl
  | cons here rest ih =>
    obtain ⟨-,later⟩ := formed
    obtain ⟨-,chained⟩ := chained
    obtain ⟨-,links⟩ := links
    rw [root,root] at roots
    rw [List.map_cons,List.map_cons,ih later chained links roots]
    congr 1
    cases rest with
    | nil => exact roots
    | cons next _ =>
      obtain ⟨⟨v,carries⟩,-⟩ := later
      rw [Chained,(browserPrev_viewed alike next carries).1] at links
      rw [Chained,namedPrev_textPrev,links.1,Option.bind_some,sha256Hex,hexDecode_hexEncode,Option.some.injEq] at chained
      rw [hexHash,← chained.1,sha256Hex]

/-- Whatever the text, the viewer and the verifier say the same of it exactly if a text that
    links up for the viewer is regular, and one that the verifier accepts is plain. -/
theorem viewer_agrees (alike : Alike ‹Browser› ‹Serde›) {text : String} (few : (rawLines (encode text)).length < 2^64) :
    Agrees text ↔ (ViewerChain text → Regular text) ∧ (VerifierChain text → Plain text) := by
  have viewed : text ≠ "" → List.Forall₂ Viewed (rawLines (encode text)) (viewerLines text) := by
    intro some
    have nonempty : text.toList ≠ [] := by simpa using some
    have lines := viewed_lines nonempty
    rwa [String.ofList_toList] at lines
  have begun : stripEnd text.toList ≠ [] → text ≠ "" := by
    rintro some rfl
    exact some rfl
  have all : (∀ line ∈ viewerLines text,line ≠ "") → (viewerLines text).filter (· ≠ "") = viewerLines text := by
    intro some
    rw [List.filter_eq_self]
    simpa using some
  constructor
  · intro agrees
    constructor
    · rintro ⟨some,links⟩
      obtain ⟨⟨session,version,formed⟩,chained,count,roots⟩ := (verifyReader_iff few).mp
        ((agrees _ _).mp (verifyChain_intact.mpr ⟨some,links,rfl,rfl⟩))
      have lines := viewed (begun some)
      have nonblank := some_viewed alike lines formed
      rw [all nonblank] at links roots
      exact ⟨nonblank,sameHashes_of_chained alike lines formed chained links roots.symm,session,version,formed⟩
    · rintro ⟨⟨session,version,formed⟩,chained⟩
      obtain ⟨some,links,count,roots⟩ := verifyChain_intact.mp
        ((agrees _ _).mpr ((verifyReader_iff few).mpr ⟨⟨session,version,formed⟩,chained,rfl,rfl⟩))
      have lines := viewed (begun some)
      have nonblank := some_viewed alike lines formed
      rw [all nonblank] at links roots
      have hashes := sameHashes_of_chained alike lines formed chained links roots
      exact ⟨begun some,hashes,(chained_hex.mp ((chained_viewed alike lines hashes formed _).1.mpr links)).2⟩
  · rintro ⟨regular,plain⟩ n rootHash
    rw [verifyChain_intact,verifyReader_iff few]
    constructor
    · rintro ⟨some,links,rfl,rfl⟩
      obtain ⟨nonblank,hashes,session,version,formed⟩ := regular ⟨some,links⟩
      have lines := viewed (begun some)
      rw [all nonblank] at links ⊢
      obtain ⟨chains,roots⟩ := chained_viewed alike lines hashes formed genesisHex
      exact ⟨⟨session,version,formed⟩,(chained_hex.mp (chains.mpr links)).1,lines.length_eq.symm,roots.symm⟩
    · rintro ⟨⟨session,version,formed⟩,chained,rfl,rfl⟩
      obtain ⟨some,hashes,lower⟩ := plain ⟨⟨session,version,formed⟩,chained⟩
      have lines := viewed some
      have nonblank := some_viewed alike lines formed
      obtain ⟨chains,roots⟩ := chained_viewed alike lines hashes formed genesisHex
      rw [all nonblank]
      refine ⟨?_,chains.mp (chained_hex.mpr ⟨chained,lower⟩),lines.length_eq,roots⟩
      intro empty
      apply nonblank ""
      · rw [viewerLines,empty]
        exact List.mem_singleton.mpr rfl
      · rfl

end

/-- A line without a line feed is the only line of both. -/
theorem viewerLines_single {line : List Char} (single : '\n' ∉ line) : viewerLines (String.ofList line) = [String.ofList line] := by
  rw [viewerLines,String.toList_ofList,stripEnd_single single,splitLines_single single]
  rfl

/-! ### A ledger of one line -/

def firstText : String := String.ofList (JsonText.write (.Object firstObject))

/-- A parser that knows one text. -/
def parseFirst (text : String) : Except String Value :=
  if text = firstText then .ok (.Object firstObject) else .error "invalid JSON"

@[reducible] def firstSerde : Serde where
  toString := JsonText.serde.toString
  fromStr := parseFirst

@[reducible] def firstBrowser : Browser where
  parse := parseFirst
  shown := fun _ => "undefined"

theorem parseFirst_ok {text : String} {v : Value} : parseFirst text = .ok v ↔ text = firstText ∧ v = .Object firstObject := by
  rw [parseFirst]
  split_ifs with same <;> simp [same,eq_comm]

theorem writeFields_last (fields : List (String × Value)) : (JsonText.writeFields fields).getLast? = some '\x7d' := by
  induction fields with
  | nil => rfl
  | cons field rest ih =>
    rw [JsonText.writeFields,List.getLast?_append,ih]
    rfl

theorem firstText_last {line : String} : line ++ "\r" ≠ firstText := by
  intro same
  have chars := congrArg (fun text => text.toList.getLast?) same
  have ends : firstText.toList.getLast? = some '\x7d' := by
    rw [firstText,String.toList_ofList,firstObject,JsonText.write,List.getLast?_append,writeFields_last]
    rfl
  rw [ends,String.toList_append] at chars
  simp at chars

theorem first_alike : Alike firstBrowser firstSerde where
  reads := by
    intro line v read
    exact ⟨v,read,rfl⟩
  trailing := by
    intro line v read
    exact absurd (parseFirst_ok.mp read).1 firstText_last
  empty := by
    intro v read
    have text := congrArg String.toList (parseFirst_ok.mp read).1
    obtain ⟨c,rest,start,-⟩ := JsonText.write_start (.Object firstObject)
    rw [firstText,String.toList_ofList,start] at text
    simp at text

/-- Of a ledger of one line the viewer and the verifier say the same. -/
theorem viewer_agrees_first : @Agrees firstBrowser epochChrono firstSerde firstSha256 firstText := by
  let _ := firstBrowser
  let _ := epochChrono
  let _ := firstSerde
  let _ := firstSha256
  have single : '\n' ∉ JsonText.write (.Object firstObject) := JsonText.write_line _
  have raws : rawLines (encode firstText) = [encode firstText] := rawLines_firstLine
  have lines : viewerLines firstText = [firstText] := viewerLines_single single
  have hashes : SameHashes firstText := by
    rw [SameHashes,raws,lines,List.map_singleton,List.map_singleton,hexHash,lineHash,sha256Hex]
  have carries : Carries "s" .V1 0 (encode firstText) (.Object firstObject) :=
    ⟨⟨firstText,decode_encode _,parseFirst_ok.mpr ⟨rfl,rfl⟩⟩,by decide,by decide,by decide,_,0,rfl,by decide⟩
  refine (viewer_agrees first_alike (by rw [raws]; decide)).mpr ⟨?_,?_⟩
  · intro _
    refine ⟨?_,hashes,"s",.V1,?_⟩
    · rw [lines]
      intro line member
      rw [List.mem_singleton.mp member]
      rintro empty
      exact first_alike.empty _ (parseFirst_ok.mpr ⟨empty.symm,rfl⟩)
    · rw [raws]
      exact ⟨⟨_,carries⟩,trivial⟩
  · intro _
    refine ⟨?_,hashes,?_⟩
    · intro empty
      exact first_alike.empty _ (parseFirst_ok.mpr ⟨empty.symm,rfl⟩)
    · rw [raws]
      intro raw member prev named
      rw [List.mem_singleton.mp member] at named ⊢
      rw [namedPrev_textPrev,carries.textPrev] at named
      rw [carries.textPrev]
      have zeros : (getField (.Object firstObject) "prevHash").bind asStr = some genesisHex := by decide
      rw [zeros,Option.bind_some,genesisHex,hexDecode_hexEncode] at named
      cases named
      exact zeros

/-! ### A line that only links -/

/-- A line with nothing but the hash of the genesis. -/
def bareObject : Map := [("prevHash",.String genesisHex)]

def bareText : String := String.ofList (JsonText.write (.Object bareObject))

@[reducible] def plainBrowser : Browser where
  parse := JsonText.serde.fromStr
  shown := fun _ => "undefined"

/-- The viewer reports an intact chain of one entry where the verifier misses the context. -/
theorem bare_line_intact :
    let _ := plainBrowser
    let _ := epochChrono
    let _ := JsonText.serde
    let _ := firstSha256
    (∃ rootHash,Intact (verifyChain bareText) 1 rootHash) ∧ verifyReader (encode bareText) = .error (.Break (.MissingField 0 "@context")) := by
  intro _ _ _ _
  have single : '\n' ∉ JsonText.write (.Object bareObject) := JsonText.write_line _
  have lines : viewerLines bareText = [bareText] := viewerLines_single single
  have parsed : JsonText.readAll bareText = .ok (.Object bareObject) := JsonText.readAll_write _ (by decide) (by decide)
  have some : bareText ≠ "" := by
    intro empty
    have text := congrArg String.toList empty
    obtain ⟨c,rest,start,-⟩ := JsonText.write_start (.Object bareObject)
    rw [bareText,String.toList_ofList,start] at text
    simp at text
  constructor
  · have only : (viewerLines bareText).filter (· ≠ "") = [bareText] := by
      rw [lines,List.filter_cons_of_pos (by simpa using some)]
      rfl
    refine ⟨_,verifyChain_intact.mpr ⟨?_,?_,?_,rfl⟩⟩
    · rw [bareText,String.toList_ofList,stripEnd_single single]
      intro empty
      exact some (congrArg String.ofList empty)
    · rw [only]
      refine ⟨?_,trivial⟩
      have reads : Browser.parse bareText = .ok (.Object bareObject) := parsed
      rw [browserPrev,reads]
      decide
    · rw [only]
      rfl
  · have raws : rawLines (encode bareText) = [encode bareText] := by
      apply rawLines_single
      · rw [lineFeed_mem_encode,bareText,String.toList_ofList]
        exact single
      · intro empty
        exact some (encode_injective (empty.trans (show [] = encode "" from rfl)))
    have read : Serde.fromStr bareText = .ok (.Object bareObject) := parsed
    have missing : (getField (.Object bareObject) "@context").bind asStr = none := by decide
    have step : verifyLine walkStart (encode bareText) = .error (.Break (.MissingField 0 "@context")) := by
      simp only [verifyLine,bind,Except.bind,readText,decode_encode,readJson,read,requiredStr,missing,broken]
      rfl
    rw [verifyReader,raws,verifyLines,List.foldlM_cons,step]
    rfl

end AegisNode.ReplayViewer
