import AegisNode.Interleaving
import AegisNode.TamperEvidence

/-!
`aegis evidence cmmc`: the ledger is verified in one pass and its entries are counted in
another, while the session it belongs to may go on writing.
-/
namespace AegisNode.Evidence
open Json Clock Bytes Ledger Interleaving

/-! ### Controls -/

structure Control where
  id : String
  family : String
  title : String
  deriving DecidableEq,Repr

def controlCatalog : List Control := [
  ⟨"3.1.1","AC","Limit system access to authorized users"⟩,
  ⟨"3.1.2","AC","Limit system access to authorized transactions"⟩,
  ⟨"3.1.3","AC","Control flow of CUI per approved authorizations"⟩,
  ⟨"3.1.7","AC","Prevent non-privileged users from executing privileged functions"⟩,
  ⟨"3.1.8","AC","Limit unsuccessful logon attempts (aggregate quota)"⟩,
  ⟨"3.1.20","AC","Verify and control connections to external systems"⟩,
  ⟨"3.3.1","AU","Create and retain audit logs"⟩,
  ⟨"3.3.2","AU","Ensure individual users uniquely identifiable in audit"⟩,
  ⟨"3.3.4","AU","Alert in event of audit logging process failure"⟩,
  ⟨"3.3.5","AU","Correlate audit records for investigation"⟩,
  ⟨"3.3.8","AU","Protect audit info from unauthorized access"⟩,
  ⟨"3.4.1","CM","Establish baseline configurations"⟩,
  ⟨"3.4.3","CM","Track changes to organizational systems"⟩,
  ⟨"3.5.4","IA","Employ replay-resistant authentication"⟩,
  ⟨"3.5.5","IA","Prevent reuse of identifiers for a defined period"⟩,
  ⟨"3.13.1","SC","Monitor and control communications at external boundaries"⟩,
  ⟨"3.13.4","SC","Prevent unauthorized information transfer via shared resources"⟩,
  ⟨"3.13.6","SC","Deny network communications by default + permit by exception"⟩,
  ⟨"3.14.1","SI","Identify, report, and correct information system flaws"⟩,
  ⟨"3.14.6","SI","Monitor system to detect attacks and indicators of potential attacks"⟩,
  ⟨"3.14.7","SI","Identify unauthorized use of organizational systems"⟩]

/-- `as_str().unwrap_or("")` of a field. -/
def textField (entry : Value) (field : String) : String := ((getField entry field).bind asStr).getD ""

def controlsFor (entry : Value) : List String :=
  match textField entry "entryType" with
  | "session_start" => ["3.4.1","3.4.3","3.3.2"]
  | "session_end" => ["3.3.1"]
  | "reasoning_step" => ["3.3.1","3.3.5"]
  | "access" => ["3.1.1","3.1.2","3.3.1"]
  | "violation" =>
    match textField entry "violationKind" with
    | "AdversarialContent" => ["3.14.1","3.14.6"]
    | "TurnCapExceeded" => ["3.13.4","3.14.1"]
    | "AggregateCapExceeded" => ["3.1.8","3.13.4","3.14.1"]
    | _ => ["3.14.1"]
  | "approval_request" | "approval_granted" | "approval_rejected" | "approval_timed_out" => ["3.1.7","3.3.1"]
  | "approval_decision" => ["3.1.7","3.3.5"]
  | "network_attestation" => ["3.1.3","3.13.1","3.13.6"]
  | "turn_start" => ["3.3.1","3.3.5","3.5.4","3.5.5"]
  | "turn_end" => ["3.3.1","3.13.4"]
  | "tool_call" | "tool_result" => ["3.3.1","3.3.5"]
  | _ => []

def inCatalog (id : String) : Option Control := controlCatalog.find? (·.id = id)

/-- Every entry maps to controls of the catalog. -/
theorem controlsFor_catalogued (entry : Value) : ∀ id ∈ controlsFor entry,(inCatalog id).isSome := by
  unfold controlsFor
  generalize textField entry "entryType" = entryType
  split
  case h_5 =>
    generalize textField entry "violationKind" = violationKind
    split <;> decide
  all_goals decide

/-! ### Counting -/

structure ControlEvidence where
  evidenceCount : Nat
  firstSequenceNumber : UInt64
  lastSequenceNumber : UInt64
  sampleEntryIds : List String
  deriving DecidableEq,Repr

/-- The accumulator of the walk, by control. -/
abbrev Accum := List (String × ControlEvidence)

def ControlEvidence.add (a : ControlEvidence) (sequenceNumber : UInt64) (entryId : String) : ControlEvidence where
  evidenceCount := a.evidenceCount+1
  firstSequenceNumber := a.firstSequenceNumber
  lastSequenceNumber := sequenceNumber
  sampleEntryIds := if a.sampleEntryIds.length < 10 ∧ entryId ≠ "" then a.sampleEntryIds ++ [entryId] else a.sampleEntryIds

/-- `entry(..).or_insert_with(..)` and the changes after it; keys stay sorted. -/
def Accum.count (id : String) (sequenceNumber : UInt64) (entryId : String) : Accum → Accum
  | [] => [(id,(⟨0,sequenceNumber,sequenceNumber,[]⟩ : ControlEvidence).add sequenceNumber entryId)]
  | (other,a) :: rest =>
    if id = other then (other,a.add sequenceNumber entryId) :: rest
    else if id < other then (id,(⟨0,sequenceNumber,sequenceNumber,[]⟩ : ControlEvidence).add sequenceNumber entryId) :: (other,a) :: rest
    else (other,a) :: Accum.count id sequenceNumber entryId rest

def countEntry (accum : Accum) (entry : Value) : Accum :=
  let sequenceNumber := ((getField entry "sequenceNumber").bind asU64).getD 0
  let entryId := textField entry "entryId"
  (controlsFor entry).foldl (fun accum id => accum.count id sequenceNumber entryId) accum

def countEntries (entries : List Value) : Accum := entries.foldl countEntry []

inductive EvidenceError where
  | NotFound
  | Verifying (error : VerifyError)
  | Reading (detail : String)
  | Parsing (entryCount : Nat) (detail : String)
  | NotInCatalog (id : String)
  deriving DecidableEq,Repr

def catalogued (a : String × ControlEvidence) : Except EvidenceError (String × Control × ControlEvidence) :=
  match inCatalog a.1 with
  | some control => .ok (a.1,control,a.2)
  | none => .error (.NotInCatalog a.1)

theorem Accum.count_keys {id : String} {sequenceNumber : UInt64} {entryId : String} {accum : Accum} :
    ∀ a ∈ accum.count id sequenceNumber entryId,a.1 = id ∨ ∃ b ∈ accum,b.1 = a.1 := by
  induction accum with
  | nil =>
    intro a member
    cases List.mem_singleton.mp member
    exact .inl rfl
  | cons first rest ih =>
    intro a member
    obtain ⟨other,found⟩ := first
    rw [Accum.count] at member
    split_ifs at member with same less
    · rcases List.mem_cons.mp member with rfl | member
      · exact .inl same.symm
      · exact .inr ⟨a,List.mem_cons_of_mem _ member,rfl⟩
    · rcases List.mem_cons.mp member with rfl | member
      · exact .inl rfl
      · exact .inr ⟨a,member,rfl⟩
    · rcases List.mem_cons.mp member with rfl | member
      · exact .inr ⟨_,List.mem_cons_self,rfl⟩
      · rcases ih a member with same | ⟨b,inside,same⟩
        · exact .inl same
        · exact .inr ⟨b,List.mem_cons_of_mem _ inside,same⟩

/-- Only controls of the catalog are counted. -/
theorem countEntries_catalogued (entries : List Value) : ∀ a ∈ countEntries entries,(inCatalog a.1).isSome := by
  have keeps : ∀ (accum : Accum) (entry : Value),(∀ a ∈ accum,(inCatalog a.1).isSome) →
      ∀ a ∈ countEntry accum entry,(inCatalog a.1).isSome := by
    intro accum entry known
    rw [countEntry]
    have listed := controlsFor_catalogued entry
    generalize controlsFor entry = ids at listed
    induction ids generalizing accum with
    | nil => exact known
    | cons id ids ih =>
      refine ih _ ?_ (fun other member => listed other (List.mem_cons_of_mem _ member))
      intro a member
      rcases Accum.count_keys a member with same | ⟨b,inside,same⟩
      · exact same ▸ listed id List.mem_cons_self
      · exact same ▸ known b inside
  rw [countEntries]
  have start : ∀ a ∈ ([] : Accum),(inCatalog a.1).isSome := fun a member => absurd member List.not_mem_nil
  generalize ([] : Accum) = accum at start
  induction entries generalizing accum with
  | nil => exact start
  | cons entry rest ih => exact ih _ (keeps accum entry start)

/-- The internal error about an unknown control never occurs. -/
theorem catalogued_counts (entries : List Value) : ∃ controls,(countEntries entries).mapM catalogued = .ok controls := by
  have known := countEntries_catalogued entries
  generalize countEntries entries = accum at known
  induction accum with
  | nil => exact ⟨[],rfl⟩
  | cons a rest ih =>
    obtain ⟨control,found⟩ := Option.isSome_iff_exists.mp (known a List.mem_cons_self)
    obtain ⟨controls,later⟩ := ih (fun b member => known b (List.mem_cons_of_mem _ member))
    refine ⟨(a.1,control,a.2) :: controls,?_⟩
    rw [List.mapM_cons,catalogued,found,later]
    rfl

/-! ### The pack -/

/-- A line of a ledger, without its line feed. -/
abbrev Line := {bytes : List UInt8 // lineFeed ∉ bytes}

structure CmmcArgs where
  since : Option Int
  until_ : Option Int
  deriving DecidableEq,Repr

structure EvidencePack where
  schemaVersion : String
  sessionId : Option String
  ledgerRootHex : String
  ledgerSchemaVersion : String
  since : Option Int
  until_ : Option Int
  generatedAt : Int
  entryCount : Nat
  controls : List (String × Control × ControlEvidence)
  controlsCovered : Nat
  deriving DecidableEq,Repr

def packSchemaVersion : String := "1"

def versionText : Option LedgerSchemaVersion → String
  | some .V1 => "v1"
  | some .V2 => "v2"
  | none => "unknown"

section
variable [Chrono] [Serde] [Sha256]

/-- An entry without a readable timestamp is in every window. -/
def inWindow (args : CmmcArgs) (entry : Value) : Bool :=
  match ((getField entry "timestamp").bind asStr).bind Chrono.parse with
  | none => true
  | some t => args.since.all (fun since => !decide (t < since)) && args.until_.all (fun until_ => !decide (until_ < t))

/-- A line of the text; a carriage return before the line feed goes. -/
def readLine (line : Line) : Except EvidenceError String :=
  match decode line.val with
  | some text => .ok (String.ofList ((Text.stripSuffix ['\r'] text.toList).getD text.toList))
  | none => .error (.Reading "stream did not contain valid UTF-8")

/-- `read_to_string` and `lines`. -/
def readLines (lines : List Line) : Except EvidenceError (List String) := lines.mapM readLine

/-- The entry of a line, if it is in the window; `entryCount` were counted before. -/
def readEntry (args : CmmcArgs) (entryCount : Nat) (text : String) : Except EvidenceError (List Value) :=
  if text = "" then .ok []
  else
    match Serde.fromStr text with
    | .error detail => .error (.Parsing entryCount detail)
    | .ok entry => .ok (if inWindow args entry then [entry] else [])

def walkEntries (args : CmmcArgs) (entryCount : Nat) : List String → Except EvidenceError (List Value)
  | [] => .ok []
  | text :: rest => do
    let entry ← readEntry args entryCount text
    let later ← walkEntries args (entryCount+entry.length) rest
    return entry ++ later

def entriesIn (args : CmmcArgs) (lines : List Line) : Except EvidenceError (List Value) := do
  let texts ← readLines lines
  walkEntries args 0 texts

/-- The second half of `build_pack`, which reads the ledger once more. -/
def packOf (args : CmmcArgs) (summary : VerifySummary) (utcNow : Int) (lines : List Line) :
    Except EvidenceError EvidencePack := do
  let entries ← entriesIn args lines
  let controls ← (countEntries entries).mapM catalogued
  return {
    schemaVersion := packSchemaVersion
    sessionId := summary.sessionId
    ledgerRootHex := summary.rootHashHex
    ledgerSchemaVersion := versionText summary.schemaVersion
    since := args.since
    until_ := args.until_
    generatedAt := utcNow
    entryCount := entries.length
    controls := controls
    controlsCovered := controls.length }

/-! ### The build beside a session -/

/-- How far the build is; `verified` are the lines that the first pass read. -/
inductive Phase where
  | Start
  | Verifying (next : Nat) (walk : Walk)
  | Reading (summary : VerifySummary) (verified : List Line)
  | Built (pack : EvidencePack) (verified : List Line)
  | Failed (error : EvidenceError)

structure Build where
  ledger : Option (List Line)
  phase : Phase

def Build.lines (b : Build) : List Line := b.ledger.getD []

inductive Event where
  | Append (line : Line)       -- the session ends a line
  | Advance (utcNow : Int)     -- the build reads a line in its first pass, or the whole ledger in the second

def step (args : CmmcArgs) (b : Build) : Event → Build
  | .Append line => { b with ledger := some (b.lines ++ [line]) }
  | .Advance utcNow =>
    match b.phase with
    | .Start =>
      match b.ledger with
      | none => { b with phase := .Failed .NotFound }
      | some _ => { b with phase := .Verifying 0 walkStart }
    | .Verifying next walk =>
      match b.lines[next]? with
      | some line =>
        match verifyLine walk line.val with
        | .ok walk => { b with phase := .Verifying (next+1) walk }
        | .error error => { b with phase := .Failed (.Verifying error) }
      | none => { b with phase := .Reading (summary walk) (b.lines.take next) }
    | .Reading summary verified =>
      match packOf args summary utcNow b.lines with
      | .ok pack => { b with phase := .Built pack verified }
      | .error error => { b with phase := .Failed error }
    | .Built _ _ => b
    | .Failed _ => b

/-- The root of the pack is that of the lines the first pass read, and the entries in the
    pack are those of these lines. -/
structure Anchored (args : CmmcArgs) (lines verified : List Line) (pack : EvidencePack) : Prop where
  part : verified <+: lines
  root : ∃ summary,verifyReader (terminated (verified.map Subtype.val)) = .ok summary ∧ pack.ledgerRootHex = summary.rootHashHex
  counted : ∃ entries,entriesIn args verified = .ok entries ∧ pack.entryCount = entries.length ∧
    (countEntries entries).mapM catalogued = .ok pack.controls

/-- The line is an entry in the window. -/
def Counts (args : CmmcArgs) (line : Line) : Prop := ∃ entry,entriesIn args [line] = .ok [entry]

/-- Between the two passes no line is appended that is an entry in the window. -/
def Careful (args : CmmcArgs) (b : Build) : Event → Prop
  | .Append line =>
    match b.phase with
    | .Reading _ _ => ¬ Counts args line
    | _ => True
  | .Advance _ => True

/-! ### Lines -/

omit [Sha256] in
theorem readEntry_length {args : CmmcArgs} {n : Nat} {text : String} {entries : List Value}
    (read : readEntry args n text = .ok entries) : entries.length ≤ 1 := by
  unfold readEntry at read
  split at read
  · cases read
    exact Nat.zero_le _
  · split at read
    · cases read
    · cases read
      split <;> simp

omit [Sha256] in
theorem walkEntries_any {args : CmmcArgs} {texts : List String} {n : Nat} {entries : List Value}
    (walked : walkEntries args n texts = .ok entries) (m : Nat) : walkEntries args m texts = .ok entries := by
  induction texts generalizing n m entries with
  | nil => exact walked
  | cons text rest ih =>
    obtain ⟨entry,read,walked⟩ := bind_ok.mp walked
    obtain ⟨later,walked,last⟩ := bind_ok.mp walked
    refine bind_ok.mpr ⟨entry,?_,bind_ok.mpr ⟨later,ih walked _,last⟩⟩
    unfold readEntry at read ⊢
    split
    · rwa [if_pos ‹_›] at read
    · rw [if_neg ‹_›] at read
      cases parsed : Serde.fromStr text with
      | error detail => simp [parsed] at read
      | ok value => simpa [parsed] using read

omit [Chrono] [Serde] [Sha256] in
theorem readLines_cons {line : Line} {rest : List Line} {texts : List String} :
    readLines (line :: rest) = .ok texts ↔ ∃ text later,readLine line = .ok text ∧ readLines rest = .ok later ∧
      texts = text :: later := by
  rw [readLines,List.mapM_cons,bind_ok]
  constructor
  · rintro ⟨text,read,more⟩
    obtain ⟨later,walked,last⟩ := bind_ok.mp more
    cases last
    exact ⟨text,later,read,walked,rfl⟩
  · rintro ⟨text,later,read,walked,rfl⟩
    exact ⟨text,read,bind_ok.mpr ⟨later,walked,rfl⟩⟩

omit [Sha256] in
theorem entriesIn_single {args : CmmcArgs} {line : Line} {entries : List Value} :
    entriesIn args [line] = .ok entries ↔ ∃ text,readLine line = .ok text ∧ readEntry args 0 text = .ok entries := by
  rw [entriesIn,bind_ok]
  constructor
  · rintro ⟨texts,all,walked⟩
    obtain ⟨text,others,read,none,rfl⟩ := readLines_cons.mp all
    cases none
    obtain ⟨entry,found,more⟩ := bind_ok.mp walked
    obtain ⟨later,nothing,last⟩ := bind_ok.mp more
    cases nothing
    cases last
    exact ⟨text,read,by rwa [List.append_nil]⟩
  · rintro ⟨text,read,found⟩
    refine ⟨[text],readLines_cons.mpr ⟨text,[],read,rfl,rfl⟩,bind_ok.mpr ⟨entries,found,bind_ok.mpr ⟨[],rfl,?_⟩⟩⟩
    rw [List.append_nil]
    rfl

omit [Sha256] in
theorem entriesIn_cons {args : CmmcArgs} {line : Line} {rest : List Line} {entries : List Value} :
    entriesIn args (line :: rest) = .ok entries ↔ ∃ first later,entriesIn args [line] = .ok first ∧
      entriesIn args rest = .ok later ∧ entries = first ++ later := by
  simp only [entriesIn_single]
  constructor
  · intro whole
    obtain ⟨texts,all,walked⟩ := bind_ok.mp whole
    obtain ⟨text,others,read,more,rfl⟩ := readLines_cons.mp all
    obtain ⟨entry,found,tail⟩ := bind_ok.mp walked
    obtain ⟨later,counted,last⟩ := bind_ok.mp tail
    cases last
    exact ⟨entry,later,⟨text,read,found⟩,bind_ok.mpr ⟨others,more,walkEntries_any counted 0⟩,rfl⟩
  · rintro ⟨entry,later,⟨text,read,found⟩,more,rfl⟩
    obtain ⟨others,more,walked⟩ := bind_ok.mp more
    refine bind_ok.mpr ⟨text :: others,readLines_cons.mpr ⟨text,others,read,more,rfl⟩,?_⟩
    exact bind_ok.mpr ⟨entry,found,bind_ok.mpr ⟨later,walkEntries_any walked _,rfl⟩⟩

omit [Sha256] in
theorem entriesIn_append {args : CmmcArgs} {left right : List Line} {entries : List Value} :
    entriesIn args (left ++ right) = .ok entries ↔ ∃ first later,entriesIn args left = .ok first ∧
      entriesIn args right = .ok later ∧ entries = first ++ later := by
  induction left generalizing entries with
  | nil =>
    constructor
    · intro whole
      exact ⟨[],entries,rfl,whole,rfl⟩
    · rintro ⟨first,later,none,whole,rfl⟩
      cases none
      exact whole
  | cons line rest ih =>
    rw [List.cons_append,entriesIn_cons]
    constructor
    · rintro ⟨first,later,head,tail,rfl⟩
      obtain ⟨middle,last,inside,after,rfl⟩ := ih.mp tail
      exact ⟨first ++ middle,last,entriesIn_cons.mpr ⟨first,middle,head,inside,rfl⟩,after,(List.append_assoc _ _ _).symm⟩
    · rintro ⟨first,later,whole,after,rfl⟩
      obtain ⟨head,middle,first,inside,rfl⟩ := entriesIn_cons.mp whole
      exact ⟨head,middle ++ later,first,ih.mpr ⟨middle,later,inside,after,rfl⟩,List.append_assoc _ _ _⟩

omit [Sha256] in
/-- Lines hold no entry in the window just when none of them is one. -/
theorem entriesIn_none {args : CmmcArgs} {lines : List Line} {entries : List Value} (read : entriesIn args lines = .ok entries) :
    entries = [] ↔ ∀ line ∈ lines,¬ Counts args line := by
  induction lines generalizing entries with
  | nil =>
    cases read
    simp
  | cons line rest ih =>
    obtain ⟨first,later,head,tail,rfl⟩ := entriesIn_cons.mp read
    rw [List.append_eq_nil_iff,ih tail,List.forall_mem_cons]
    refine and_congr_left (fun _ => ?_)
    obtain ⟨text,-,found⟩ := entriesIn_single.mp head
    constructor
    · rintro rfl ⟨entry,counted⟩
      cases head.symm.trans counted
    · intro silent
      match first,readEntry_length found with
      | [],_ => rfl
      | [entry],_ => exact absurd ⟨entry,head⟩ silent

/-! ### Runs -/

/-- The summary is what the first pass makes of the lines. -/
def Verified (summary : VerifySummary) (verified : List Line) : Prop :=
  ∃ walk,verifyLines walkStart (verified.map Subtype.val) = .ok walk ∧ summary = Ledger.summary walk

theorem Verified.reader {summary : VerifySummary} {verified : List Line} (done : Verified summary verified) :
    verifyReader (terminated (verified.map Subtype.val)) = .ok summary := by
  obtain ⟨walk,walked,rfl⟩ := done
  have whole : ∀ line ∈ verified.map Subtype.val,lineFeed ∉ line := by
    intro line member
    obtain ⟨other,-,rfl⟩ := List.mem_map.mp member
    exact other.property
  rw [verifyReader,rawLines_terminated whole,walked]
  rfl

/-- How a build and its ledger stand; `extra` are the lines that were appended between the
    two passes. -/
def Stands (args : CmmcArgs) (extra : List Line) (b : Build) : Prop :=
  match b.phase with
  | .Start => extra = []
  | .Verifying next walk => extra = [] ∧ next ≤ b.lines.length ∧
      verifyLines walkStart ((b.lines.take next).map Subtype.val) = .ok walk
  | .Reading summary verified => b.lines = verified ++ extra ∧ Verified summary verified
  | .Built pack verified => verified ++ extra <+: b.lines ∧ ∃ summary utcNow,Verified summary verified ∧
      packOf args summary utcNow (verified ++ extra) = .ok pack
  | .Failed _ => True

/-- The line that an event appends between the two passes. -/
def extends_ (b : Build) : Event → List Line
  | .Append line =>
    match b.phase with
    | .Reading _ _ => [line]
    | _ => []
  | .Advance _ => []

theorem stands_append {args : CmmcArgs} {extra : List Line} {b : Build} (stands : Stands args extra b) (line : Line) :
    Stands args (extra ++ extends_ b (.Append line)) (step args b (.Append line)) := by
  obtain ⟨ledger,phase⟩ := b
  cases phase with
  | Start => simpa [Stands,extends_,step] using stands
  | Verifying next walk =>
    obtain ⟨none,inside,walked⟩ := stands
    refine ⟨by simpa [extends_] using none,?_,?_⟩
    · change next ≤ (ledger.getD [] ++ [line]).length
      rw [List.length_append]
      exact Nat.le_add_right_of_le inside
    · change verifyLines walkStart (((ledger.getD [] ++ [line]).take next).map Subtype.val) = .ok walk
      have front : (ledger.getD [] ++ [line]).take next = (ledger.getD []).take next := List.take_append_of_le_length inside
      rw [front]
      exact walked
  | Reading summary verified =>
    obtain ⟨whole,done⟩ := stands
    refine ⟨?_,done⟩
    change ledger.getD [] ++ [line] = verified ++ (extra ++ [line])
    rw [← List.append_assoc]
    exact congrArg (· ++ [line]) whole
  | Built pack verified =>
    obtain ⟨part,summary,utcNow,done,built⟩ := stands
    have same : extra ++ extends_ ⟨ledger,.Built pack verified⟩ (.Append line) = extra := List.append_nil extra
    rw [same]
    exact ⟨part.trans (List.prefix_append _ _),summary,utcNow,done,built⟩
  | Failed error => trivial

theorem stands_advance {args : CmmcArgs} {extra : List Line} {b : Build} (stands : Stands args extra b) (utcNow : Int) :
    Stands args extra (step args b (.Advance utcNow)) := by
  obtain ⟨ledger,phase⟩ := b
  cases phase with
  | Start =>
    cases ledger with
    | none => trivial
    | some lines => exact ⟨stands,Nat.zero_le _,rfl⟩
  | Verifying next walk =>
    obtain ⟨none,inside,walked⟩ := stands
    subst none
    simp only [step]
    cases found : (Build.lines ⟨ledger,.Verifying next walk⟩)[next]? with
    | none =>
      have all : (Build.lines ⟨ledger,.Verifying next walk⟩).length ≤ next := List.getElem?_eq_none_iff.mp found
      refine ⟨?_,walk,walked,rfl⟩
      rw [List.append_nil,List.take_of_length_le all]
      rfl
    | some line =>
      dsimp only
      cases accepted : verifyLine walk line.val with
      | error error => trivial
      | ok later =>
        obtain ⟨short,same⟩ := List.getElem?_eq_some_iff.mp found
        refine ⟨rfl,short,?_⟩
        change verifyLines walkStart (((Build.lines ⟨ledger,.Verifying next walk⟩).take (next+1)).map Subtype.val) = .ok later
        rw [List.take_add_one,found,verifyLines,List.map_append,List.foldlM_append]
        refine bind_ok.mpr ⟨walk,walked,?_⟩
        simp [accepted]
  | Reading summary verified =>
    obtain ⟨whole,done⟩ := stands
    simp only [step]
    cases built : packOf args summary utcNow (Build.lines ⟨ledger,.Reading summary verified⟩) with
    | error error => trivial
    | ok pack =>
      rw [whole] at built
      exact ⟨whole ▸ List.prefix_refl _,summary,utcNow,done,built⟩
  | Built pack verified => exact stands
  | Failed error => trivial

theorem stands_step {args : CmmcArgs} {extra : List Line} {b : Build} (stands : Stands args extra b) (event : Event) :
    Stands args (extra ++ extends_ b event) (step args b event) := by
  cases event with
  | Append line => exact stands_append stands line
  | Advance utcNow =>
    rw [extends_,List.append_nil]
    exact stands_advance stands utcNow

/-- The lines that a run appends between the two passes. -/
def between (args : CmmcArgs) (b : Build) : List Event → List Line
  | [] => []
  | event :: rest => extends_ b event ++ between args (step args b event) rest

theorem stands_after {args : CmmcArgs} {events : List Event} {extra : List Line} {b : Build} (stands : Stands args extra b) :
    Stands args (extra ++ between args b events) (after (step args) b events) := by
  induction events generalizing extra b with
  | nil => rwa [between,List.append_nil]
  | cons event rest ih =>
    rw [between,← List.append_assoc]
    exact ih (stands_step stands event)

omit [Sha256] in
theorem careful_iff {args : CmmcArgs} {b : Build} {event : Event} :
    Careful args b event ↔ ∀ line ∈ extends_ b event,¬ Counts args line := by
  obtain ⟨ledger,phase⟩ := b
  cases event with
  | Advance utcNow => simp [Careful,extends_]
  | Append line => cases phase <;> simp [Careful,extends_]

theorem careful_between {args : CmmcArgs} {events : List Event} {b : Build} :
    Throughout (step args) b events (Careful args) ↔ ∀ line ∈ between args b events,¬ Counts args line := by
  induction events generalizing b with
  | nil => simp [between,throughout_nil]
  | cons event rest ih =>
    rw [throughout_cons,ih,careful_iff,between,List.forall_mem_append]

/-- A pack that was built is anchored to the root it names just when no entry in its window
    was appended between the two passes. -/
theorem anchored_iff {args : CmmcArgs} {ledger : Option (List Line)} {events : List Event} {pack : EvidencePack}
    {verified : List Line} (built : (after (step args) ⟨ledger,.Start⟩ events).phase = .Built pack verified) :
    Anchored args (after (step args) ⟨ledger,.Start⟩ events).lines verified pack ↔
      Throughout (step args) ⟨ledger,.Start⟩ events (Careful args) := by
  have start : Stands args [] ⟨ledger,.Start⟩ := rfl
  have stands : Stands args (between args ⟨ledger,.Start⟩ events) (after (step args) ⟨ledger,.Start⟩ events) := stands_after start
  rw [careful_between]
  generalize between args ⟨ledger,.Start⟩ events = extra at stands
  generalize after (step args) ⟨ledger,.Start⟩ events = b at stands built ⊢
  rw [Stands,built] at stands
  obtain ⟨part,summary,utcNow,done,packed⟩ := stands
  obtain ⟨entries,read,packed⟩ := bind_ok.mp packed
  obtain ⟨controls,listed,last⟩ := bind_ok.mp packed
  cases last
  obtain ⟨first,later,inside,after,rfl⟩ := entriesIn_append.mp read
  rw [← entriesIn_none after]
  constructor
  · rintro ⟨-,-,entries,again,same,-⟩
    cases inside.symm.trans again
    have none : later.length = 0 := by simpa using same
    exact List.length_eq_zero_iff.mp none
  · rintro rfl
    rw [List.append_nil] at listed
    exact ⟨(List.prefix_append _ _).trans part,⟨summary,done.reader,rfl⟩,first,inside,by simp,listed⟩

omit [Sha256] in
theorem packOf_succeeds {args : CmmcArgs} {lines : List Line} {entries : List Value} (read : entriesIn args lines = .ok entries)
    (summary : VerifySummary) (utcNow : Int) : ∃ pack,packOf args summary utcNow lines = .ok pack := by
  obtain ⟨controls,listed⟩ := catalogued_counts entries
  exact ⟨_,bind_ok.mpr ⟨entries,read,bind_ok.mpr ⟨controls,listed,rfl⟩⟩⟩

/-- A ledger of one line to which nothing is appended. -/
theorem quiet_builds {args : CmmcArgs} {line : Line} {walk : Walk} {pack : EvidencePack}
    (accepted : verifyLine walkStart line.val = .ok walk) (packed : packOf args (summary walk) 0 [line] = .ok pack) :
    (after (step args) ⟨some [line],.Start⟩ [.Advance 0,.Advance 0,.Advance 0,.Advance 0]).phase = .Built pack [line] := by
  simp [step,Build.lines,accepted,packed]

/-- An empty ledger whose first line comes after the first pass. -/
theorem late_builds {args : CmmcArgs} {line : Line} {pack : EvidencePack}
    (packed : packOf args (summary walkStart) 0 [line] = .ok pack) :
    (after (step args) ⟨some [],.Start⟩ [.Advance 0,.Advance 0,.Append line,.Advance 0]).phase = .Built pack [] := by
  simp [step,Build.lines,packed]

end

/-! ### A session that starts -/

open TamperEvidence

def start : Line := ⟨firstLine,firstLine_whole⟩

theorem start_val : start.val = firstLine := by rw [start]

/-- The whole ledger. -/
def always : CmmcArgs := ⟨none,none⟩

theorem start_read :
    let _ := epochChrono
    let _ := JsonText.serde
    entriesIn always [start] = .ok [.Object firstObject] := by
  intro chrono serde
  refine entriesIn_single.mpr ⟨String.ofList (JsonText.write (.Object firstObject)),?_,?_⟩
  · have text : decode start.val = some (String.ofList (JsonText.write (.Object firstObject))) := by
      rw [start_val,firstLine,decode_encode]
    have closed : Text.stripSuffix ['\r'] (JsonText.write (.Object firstObject)) = none := by decide +kernel
    rw [readLine,text]
    simp only [String.toList_ofList,closed,Option.getD_none]
  · have some : String.ofList (JsonText.write (.Object firstObject)) ≠ "" := by decide +kernel
    have parsed : Serde.fromStr (String.ofList (JsonText.write (.Object firstObject))) = .ok (.Object firstObject) := firstLine_parsed
    rw [readEntry,if_neg some,parsed]
    rfl

/-- A ledger of one entry, to which nothing is appended. -/
theorem anchored_iff_quiet :
    let _ := epochChrono
    let _ := JsonText.serde
    let _ := firstSha256
    ∃ pack,(after (step always) ⟨some [start],.Start⟩ [.Advance 0,.Advance 0,.Advance 0,.Advance 0]).phase = .Built pack [start] ∧
      Anchored always (after (step always) ⟨some [start],.Start⟩ [.Advance 0,.Advance 0,.Advance 0,.Advance 0]).lines
        [start] pack := by
  intro chrono serde sha
  have accepted : verifyLine walkStart start.val = .ok ⟨firstHash,1,some "s",some 0,some 0,some .V1⟩ := by
    rw [start_val]
    exact firstLine_accepted
  obtain ⟨pack,packed⟩ := packOf_succeeds start_read (summary ⟨firstHash,1,some "s",some 0,some 0,some .V1⟩) 0
  have built := quiet_builds accepted packed
  refine ⟨pack,built,(anchored_iff built).mpr ?_⟩
  rw [careful_between]
  intro line member
  simp [between,extends_] at member

/-- The first entry of a session, written after the first pass, is counted under the root of
    the empty ledger. -/
theorem counts_later_entry : ¬ ∀ [Chrono] [Serde] [Sha256] (args : CmmcArgs) (ledger : Option (List Line)) (events : List Event)
    (pack : EvidencePack) (verified : List Line),(after (step args) ⟨ledger,.Start⟩ events).phase = .Built pack verified →
      Anchored args (after (step args) ⟨ledger,.Start⟩ events).lines verified pack := by
  intro anchored
  let _ := epochChrono
  let _ := JsonText.serde
  let _ := firstSha256
  obtain ⟨pack,packed⟩ := packOf_succeeds start_read (summary walkStart) 0
  obtain ⟨-,-,entries,read,count,-⟩ := anchored always (some []) _ pack [] (late_builds packed)
  cases read
  obtain ⟨counted,again,rest⟩ := bind_ok.mp packed
  cases start_read.symm.trans again
  obtain ⟨controls,-,last⟩ := bind_ok.mp rest
  cases last
  cases count

end AegisNode.Evidence
