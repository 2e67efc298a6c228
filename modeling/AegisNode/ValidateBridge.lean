import AegisNode.Prose
import AegisNode.Validate

/-!
The manifest editor of the page: the handler that runs the validator on what the operator
typed, and the records that go from the validator through the handler to the page.
-/
namespace AegisNode.ValidateBridge
open Text Format Lint Validate
open LlamaChat (trim)

/-! ### Records -/

inductive Member where
  | Text (s : String)
  | Number (n : Int)

def memberText : Member → List Char
  | .Text s => jsonString s
  | .Number n => decimal n

def pairText (m : String × Member) : List Char := jsonString m.1 ++ ':' :: memberText m.2

/-- An object as the validator writes one. -/
def objectText : List (String × Member) → List Char
  | [] => ['\x7b','\x7d']
  | m :: rest => '\x7b' :: (pairText m ++ rest.flatMap (fun m => ',' :: pairText m)) ++ ['\x7d']

/-- A member that may be left out. -/
def optional (empty : Prop) [Decidable empty] (key : String) (m : Member) : List (String × Member) := if empty then [] else [(key,m)]

/-- The members of a record; those that are empty are left out. -/
def members (file : String) (f : Format.Finding) : List (String × Member) :=
  optional (file = "") "file" (.Text file) ++ (("rule_id",.Text f.ruleId) :: ("severity",.Text f.severityName) :: ("field",.Text f.field) ::
    ("message",.Text f.message) :: (optional (f.rationale = "") "rationale" (.Text f.rationale) ++
      (optional (f.line = 0) "line" (.Number f.line) ++ optional (f.col = 0) "col" (.Number f.col))))

theorem omitEmpty_members {empty : Prop} [Decidable empty] {key : String} (plain : jsonString key = '"' :: key.toList ++ ['"']) (m : Member) :
    omitEmpty empty key (memberText m) = (optional empty key m).flatMap fun m => ',' :: pairText m := by
  unfold omitEmpty optional
  split_ifs
  · rfl
  · simp [pairText,plain]

theorem jsonRecord_members (file : String) (f : Format.Finding) : jsonRecord file f = objectText (members file f) := by
  have rationale : omitEmpty (f.rationale = "") "rationale" (jsonString f.rationale) =
      (optional (f.rationale = "") "rationale" (.Text f.rationale)).flatMap fun m => ',' :: pairText m :=
    omitEmpty_members (by decide) (.Text f.rationale)
  have line : omitEmpty (f.line = 0) "line" (decimal f.line) = (optional (f.line = 0) "line" (.Number f.line)).flatMap fun m => ',' :: pairText m :=
    omitEmpty_members (by decide) (.Number f.line)
  have col : omitEmpty (f.col = 0) "col" (decimal f.col) = (optional (f.col = 0) "col" (.Number f.col)).flatMap fun m => ',' :: pairText m :=
    omitEmpty_members (by decide) (.Number f.col)
  have file' : jsonString "file" = "\"file\"".toList := by decide
  have ruleId : jsonString "rule_id" = "\"rule_id\"".toList := by decide
  have severity : jsonString "severity" = "\"severity\"".toList := by decide
  have field : jsonString "field" = "\"field\"".toList := by decide
  have message : jsonString "message" = "\"message\"".toList := by decide
  unfold jsonRecord members
  rw [rationale,line,col]
  generalize optional (f.rationale = "") _ _ = rationales
  generalize optional (f.line = 0) _ _ = lines
  generalize optional (f.col = 0) _ _ = cols
  by_cases unnamed : file = ""
  · simp [optional,unnamed,objectText,pairText,memberText,ruleId,severity,field,message]
  · simp [optional,unnamed,objectText,pairText,memberText,file',ruleId,severity,field,message]

/-! ### The handler -/

/-- A finding as the handler returns it. -/
structure Finding where
  ruleId : String
  severity : String
  field : String
  message : String
  rationale : Option String
  line : Nat
  col : Nat
  deriving DecidableEq,Repr

/-- The derived deserializer of `Finding`. -/
class FindingText where
  fromStr : String → Except String Finding

def textMember (ms : List (String × Member)) (key : String) : Option String :=
  match ms.lookup key with
  | some (.Text s) => some s
  | _ => none

/-- A `u32` that may be missing. -/
def numberMember (ms : List (String × Member)) (key : String) : Option Nat :=
  match ms.lookup key with
  | none => some 0
  | some (.Number n) => if 0 ≤ n ∧ n < 2^32 then some n.toNat else none
  | some (.Text _) => none

def rationaleMember (ms : List (String × Member)) : Option (Option String) :=
  match ms.lookup "rationale" with
  | none => some none
  | some (.Text s) => some (some s)
  | some (.Number _) => none

/-- The finding that an object stands for; members without a field are skipped. -/
def findingOf (ms : List (String × Member)) : Option Finding := do
  let ruleId ← textMember ms "rule_id"
  let severity ← textMember ms "severity"
  let field ← textMember ms "field"
  let message ← textMember ms "message"
  let rationale ← rationaleMember ms
  let line ← numberMember ms "line"
  let col ← numberMember ms "col"
  return ⟨ruleId,severity,field,message,rationale,line,col⟩

/-- The deserializer reads the objects that the validator writes. -/
def Reads [FindingText] : Prop :=
  ∀ ms : List (String × Member),(ms.map (·.1)).Nodup → (FindingText.fromStr (String.ofList (objectText ms))).toOption = findingOf ms

/-- `str::lines`. -/
def lines (text : List Char) : List (List Char) :=
  let pieces := text.splitOn '\n'
  (if pieces.getLast? = some [] then pieces.dropLast else pieces).map fun line =>
    if line.getLast? = some '\r' then line.dropLast else line

/-- The loop of `parse_findings` from line `n` on. -/
def parseLoop [FindingText] (n : Nat) : List (List Char) → Except String (List Finding)
  | [] => .ok []
  | line :: rest =>
    let trimmed := trim line
    if trimmed = [] then parseLoop (n+1) rest
    else match FindingText.fromStr (String.ofList trimmed) with
      | .ok f => (parseLoop (n+1) rest).map (f :: ·)
      | .error e => .error ("line " ++ toString (n+1) ++ ": " ++ e ++ " — raw: " ++ String.ofList trimmed)

def parseFindings [FindingText] (stdout : List Char) : Except String (List Finding) := parseLoop 0 (lines stdout)

def severityRank (s : String) : Nat := if s = "error" then 0 else if s = "warn" then 1 else if s = "info" then 2 else 3

/-- The order of `sort_findings`. -/
def before (a b : Finding) : Bool :=
  if severityRank a.severity ≠ severityRank b.severity then severityRank a.severity < severityRank b.severity
  else if a.ruleId ≠ b.ruleId then a.ruleId < b.ruleId
  else a.field < b.field

def sortFindings (findings : List Finding) : List Finding := findings.mergeSort fun a b => !before b a

/-- What findings are sorted by. -/
def key (f : Finding) : Nat ×ₗ String ×ₗ String := toLex (severityRank f.severity,toLex (f.ruleId,f.field))

theorem before_iff {a b : Finding} : before a b = true ↔ key a < key b := by
  rw [before,key,key,Prod.Lex.toLex_lt_toLex,Prod.Lex.toLex_lt_toLex]
  by_cases rank : severityRank a.severity = severityRank b.severity
  · by_cases rule : a.ruleId = b.ruleId
    · simp [rank,rule]
    · simp [rank,rule]
  · simp [rank]

theorem sortFindings_pairwise (findings : List Finding) :
    (sortFindings findings).Pairwise fun a b => severityRank a.severity ≤ severityRank b.severity := by
  have le {a b : Finding} : (!before b a) = true ↔ key a ≤ key b := by rw [Bool.not_eq_true',← Bool.not_eq_true,before_iff,not_lt]
  have pairs := @List.pairwise_mergeSort Finding (fun a b => !before b a) (fun _ _ _ first second => le.mpr ((le.mp first).trans (le.mp second)))
    (fun a b => by simpa only [Bool.or_eq_true,le] using le_total _ _) findings
  refine pairs.imp fun {a b} ordered => ?_
  rcases Prod.Lex.toLex_le_toLex.mp (le.mp ordered) with less | ⟨same,-⟩
  · exact less.le
  · exact same.le

structure ProcessOutput where
  code : Option Int
  stdout : List Char
  stderr : List Char

/-- What the handler finds outside: where a validator may be, the directory of temporary
    files, and processes. -/
structure Env where
  validateBin : Option String
  currentDir : Option String
  path : Option (List String)
  isFile : String → Bool
  writeTempfile : String → Except String String
  output : (bin : String) → (args : List String) → Except String ProcessOutput

inductive Response where
  | Status (code : Nat) (text : String)
  | Json (ok : Bool) (findings : List Finding) (binary : String)

def which (env : Env) (tool : String) : Option String :=
  env.path.bind fun dirs => (dirs.map (Mediator.joinPath · tool)).find? env.isFile

def resolveValidateBinary (env : Env) : Option String :=
  ((env.validateBin.filter env.isFile).or ((env.currentDir.map (Mediator.joinPath · "bin/aegis-validate")).filter env.isFile)).or
    (which env "aegis-validate")

def validateManifest [FindingText] (env : Env) (body : String) : Response :=
  if body = "" then .Status 400 "empty body"
  else match resolveValidateBinary env with
    | none => .Status 503 ("validator not found. Install via `make build-go-validate` (writes ./bin/aegis-validate), put `aegis-validate` on PATH, " ++
        "or set the AEGIS_VALIDATE_BIN env var to an absolute binary path.")
    | some bin =>
      match env.writeTempfile body with
      | .error e => .Status 500 ("staging tempfile: " ++ e)
      | .ok temp =>
        match env.output bin ["validate","--format","json",temp] with
        | .error e => .Status 500 ("invoking " ++ bin ++ ": " ++ e)
        | .ok output =>
          let findings := sortFindings ((parseFindings output.stdout).toOption.getD [])
          let exitCode := output.code.getD (-1)
          if exitCode = 2 then .Status 500 ("validator usage error (exit 2): " ++ String.ofList (trim output.stderr))
          else .Json (exitCode = 0) findings bin

/-! ### From the validator to the handler -/

/-- A finding of the linter as the handler returns it. -/
def shownAs (f : Format.Finding) : Finding :=
  ⟨f.ruleId,f.severityName,f.field,f.message,if f.rationale = "" then none else some f.rationale,f.line.toNat,f.col.toNat⟩

/-- Positions that fit into a `u32`. -/
def Fits (f : Format.Finding) : Prop := 0 ≤ f.line ∧ f.line < 2^32 ∧ 0 ≤ f.col ∧ f.col < 2^32

theorem mem_optional {empty : Prop} [Decidable empty] {key : String} {m : Member} {entry : String × Member} :
    entry ∈ optional empty key m ↔ ¬ empty ∧ entry = (key,m) := by
  unfold optional
  split_ifs with absent <;> simp [absent]

theorem keys_optional {empty : Prop} [Decidable empty] {key : String} {m : Member} : ((optional empty key m).map (·.1)).Sublist [key] := by
  unfold optional
  split_ifs
  · exact List.nil_sublist _
  · exact List.Sublist.refl _

theorem members_nodup (file : String) (f : Format.Finding) : ((members file f).map (·.1)).Nodup := by
  have keys : ((members file f).map (·.1)).Sublist (["file"] ++ ("rule_id" :: "severity" :: "field" :: "message" :: (["rationale"] ++ (["line"] ++ ["col"])))) := by
    unfold members
    simp only [List.map_append,List.map_cons]
    exact keys_optional.append (((((keys_optional.append (keys_optional.append keys_optional)).cons_cons _).cons_cons _).cons_cons _).cons_cons _)
  exact keys.nodup (by decide)

theorem lookup_missing {α : Type} {entries : List (String × α)} {key : String} (missing : key ∉ entries.map (·.1)) :
    entries.lookup key = none := by
  cases found : entries.lookup key with
  | none => rfl
  | some a =>
    obtain ⟨before,after,same,-⟩ := List.lookup_eq_some_iff.mp found
    exact absurd (by simp [same]) missing

theorem findingOf_members {file : String} {f : Format.Finding} (fits : Fits f) : findingOf (members file f) = some (shownAs f) := by
  obtain ⟨lineLow,lineHigh,colLow,colHigh⟩ := fits
  have present {key : String} {m : Member} (listed : (key,m) ∈ members file f) : (members file f).lookup key = some m :=
    (lookup_iff (members_nodup file f)).mpr listed
  have text (key value : String) (listed : (key,.Text value) ∈ members file f) : textMember (members file f) key = some value := by
    rw [textMember,present listed]
  have number {key : String} {n : Int} (low : 0 ≤ n) (high : n < 2^32) (listed : n ≠ 0 → (key,.Number n) ∈ members file f)
      (missing : n = 0 → key ∉ (members file f).map (·.1)) : numberMember (members file f) key = some n.toNat := by
    by_cases zero : n = 0
    · rw [numberMember,lookup_missing (missing zero),zero]
      rfl
    · rw [numberMember,present (listed zero)]
      exact if_pos ⟨low,high⟩
  have rationale : rationaleMember (members file f) = some (if f.rationale = "" then none else some f.rationale) := by
    by_cases empty : f.rationale = ""
    · rw [rationaleMember,lookup_missing fun listed => ?_,if_pos empty]
      obtain ⟨⟨key,m⟩,listed,rfl⟩ := List.mem_map.mp listed
      simp [members,mem_optional,empty] at listed
    · rw [rationaleMember,present (m := .Text f.rationale) (by simp [members,mem_optional,empty]),if_neg empty]
  have line : numberMember (members file f) "line" = some f.line.toNat := by
    refine number lineLow lineHigh (fun some => by simp [members,mem_optional,some]) fun zero listed => ?_
    obtain ⟨⟨key,m⟩,listed,rfl⟩ := List.mem_map.mp listed
    simp [members,mem_optional,zero] at listed
  have col : numberMember (members file f) "col" = some f.col.toNat := by
    refine number colLow colHigh (fun some => by simp [members,mem_optional,some]) fun zero listed => ?_
    obtain ⟨⟨key,m⟩,listed,rfl⟩ := List.mem_map.mp listed
    simp [members,mem_optional,zero] at listed
  rw [findingOf,text "rule_id" f.ruleId (by simp [members]),text "severity" f.severityName (by simp [members]),
    text "field" f.field (by simp [members]),text "message" f.message (by simp [members]),rationale,line,col]
  rfl

theorem jsonRecord_framed (file : String) (f : Format.Finding) : ∃ text,jsonRecord file f = '\x7b' :: text ++ ['\x7d'] := by
  rw [jsonRecord_members]
  cases listed : members file f with
  | nil => exact ⟨[],rfl⟩
  | cons m rest => exact ⟨_,rfl⟩

theorem splitOn_renderJSON (file : String) (findings : List Format.Finding) :
    (renderJSON file findings).splitOn '\n' = findings.map (jsonRecord file) ++ [[]] := by
  induction findings with
  | nil => simp [renderJSON]
  | cons f rest ih =>
    rw [renderJSON,List.flatMap_cons,List.append_assoc,List.singleton_append,List.splitOn_append_cons_self,
      List.splitOn_eq_singleton (jsonRecord_no_feed file f),← renderJSON,ih]
    rfl

theorem lines_renderJSON (file : String) (findings : List Format.Finding) : lines (renderJSON file findings) = findings.map (jsonRecord file) := by
  rw [lines,splitOn_renderJSON,if_pos List.getLast?_concat,List.dropLast_concat,List.map_map]
  refine List.map_congr_left fun f _ => ?_
  obtain ⟨text,framed⟩ := jsonRecord_framed file f
  have last : (jsonRecord file f).getLast? = some '\x7d' := by rw [framed,List.getLast?_concat]
  rw [Function.comp_apply,last,if_neg (by decide)]

theorem parseLoop_records [FindingText] (reads : Reads) {file : String} {findings : List Format.Finding} (fits : ∀ f ∈ findings,Fits f)
    (n : Nat) : parseLoop n (findings.map (jsonRecord file)) = .ok (findings.map shownAs) := by
  induction findings generalizing n with
  | nil => rfl
  | cons f rest ih =>
    obtain ⟨text,framed⟩ := jsonRecord_framed file f
    have trimmed : trim (jsonRecord file f) = jsonRecord file f := by rw [framed,Prose.trim_braced]
    have nonempty : jsonRecord file f ≠ [] := by rw [framed]; simp
    have read := reads (members file f) (members_nodup file f)
    rw [← jsonRecord_members,findingOf_members (fits f List.mem_cons_self)] at read
    rw [List.map_cons,parseLoop,trimmed,if_neg nonempty]
    cases found : FindingText.fromStr (String.ofList (jsonRecord file f)) with
    | error e =>
      rw [found] at read
      cases read
    | ok g =>
      rw [found] at read
      cases read
      dsimp only
      rw [ih fun other member => fits other (List.mem_cons_of_mem _ member)]
      rfl

/-- The handler reads back the findings that the validator writes. -/
theorem parseFindings_renderJSON [FindingText] (reads : Reads) (file : String) {findings : List Format.Finding}
    (fits : ∀ f ∈ findings,Fits f) : parseFindings (renderJSON file findings) = .ok (findings.map shownAs) := by
  rw [parseFindings,lines_renderJSON,parseLoop_records reads fits]

section
variable {P : Type} {nodes : P → Yaml.Node P} {decode : List UInt8 → Option P}

/-- The file of the request is where the handler wrote it. -/
def staged (host : Host) (temp body : String) : Host :=
  { host with readFile := fun path => if path = temp then .Data (Bytes.encode body) else host.readFile path }

/-- The process of the validator. -/
def validatorOutput (nodes : P → Yaml.Node P) (decode : List UInt8 → Option P) (host : Host) (temp : String) : ProcessOutput :=
  let outcome := runValidate nodes decode host { format := "json",args := [temp] }
  ⟨some outcome.exit,outcome.stdout,outcome.stderr⟩

/-- The handler has a validator, and its process is the validator's. -/
structure Works (nodes : P → Yaml.Node P) (decode : List UInt8 → Option P) (env : Env) (host : Host) (bin temp body : String) : Prop where
  elsewhere : temp ≠ ".aegis-validate.yaml"
  resolved : resolveValidateBinary env = some bin
  written : env.writeTempfile body = .ok temp
  output : env.output bin ["validate","--format","json",temp] = .ok (validatorOutput nodes decode (staged host temp body) temp)

/-- A document with fewer than `2^32` lines and columns. -/
def Small (nodes : P → Yaml.Node P) : Prop := ∀ p,(nodes p).line < 2^32 ∧ (nodes p).column < 2^32

theorem lookupPosition_small (small : Small nodes) (decoded : Option P) (field : List Char) :
    (Positions.lookupPosition nodes decoded field).1 < 2^32 ∧ (Positions.lookupPosition nodes decoded field).2 < 2^32 := by
  rw [Positions.lookupPosition.eq_def]
  split_ifs with empty
  · decide
  · cases decoded with
    | none => exact ⟨by norm_num,by norm_num⟩
    | some docNode =>
      dsimp only
      split_ifs
      · decide
      · rw [Positions.lineColAtJSONPointer]
        split_ifs <;> exact small _

theorem located_fits (small : Small nodes) (data : List UInt8) (findings : List Format.Finding) :
    ∀ f ∈ located nodes decode data findings,Fits f := by
  intro f member
  obtain ⟨found,-,rfl⟩ := List.mem_map.mp member
  obtain ⟨line,col⟩ := lookupPosition_small small (decode data) found.field.toList
  exact ⟨Int.natCast_nonneg _,by dsimp only; omega,Int.natCast_nonneg _,by dsimp only; omega⟩

/-- Positions do not change the order. -/
theorem sorted_located (data : List UInt8) (opts : Overrides) (m : Lint.Manifest) :
    sorted (located nodes decode data (lint opts m)) = located nodes decode data (lint opts m) := by
  refine List.mergeSort_of_pairwise ?_
  rw [located,List.pairwise_map]
  refine (sorted_pairwise (registry.flatMap (·.findings opts m))).imp fun {f g} below => ?_
  exact sorted_le.mpr below

/-- What the handler answers for a text that the validator takes: the findings of the linter
    with their positions, and whether one of them is an error. -/
theorem validateManifest_lint [FindingText] (reads : Reads) (small : Small nodes) {env : Env} {host : Host} {bin temp body : String}
    (works : Works nodes decode env host bin temp body) (nonempty : body ≠ "") {doc : Document} {opts : Overrides}
    (document : host.document temp (Bytes.encode body) = .ok doc) (valid : doc.schemaValid = true)
    (config : loadConfig host ".aegis-validate.yaml" = .ok opts) :
    validateManifest env body = .Json (!hasErrors (lint opts (linted doc)))
      (sortFindings ((located nodes decode (Bytes.encode body) (lint opts (linted doc))).map shownAs)) bin := by
  have parsed : parseManifest (staged host temp body) temp (Bytes.encode body) = .ok (linted doc) := by
    rw [parseManifest,show (staged host temp body).document temp (Bytes.encode body) = .ok doc from document]
    dsimp only
    rw [GoManifest.parse,if_pos valid]
    rfl
  have read : (staged host temp body).readFile temp = .Data (Bytes.encode body) := if_pos rfl
  have overrides : loadConfig (staged host temp body) ".aegis-validate.yaml" = .ok opts := by
    rw [← config,loadConfig,loadConfig,show (staged host temp body).readFile ".aegis-validate.yaml" = host.readFile ".aegis-validate.yaml" from
      if_neg works.elsewhere.symm]
    rfl
  have outcome : runValidate nodes decode (staged host temp body) { format := "json",args := [temp] } =
      ⟨if hasErrors (lint opts (linted doc)) then 1 else 0,
        renderJSON temp (located nodes decode (Bytes.encode body) (lint opts (linted doc))),[]⟩ := by
    rw [runValidate]
    dsimp only
    rw [if_neg Bool.false_ne_true,show OutputFormat.parse "json" = .ok .JSON from rfl]
    dsimp only
    rw [read]
    dsimp only
    rw [parsed]
    dsimp only
    rw [overrides]
    dsimp only
    rw [hasErrors_located,render,sorted_located]
  rw [validateManifest,if_neg nonempty,works.resolved]
  dsimp only
  rw [works.written]
  dsimp only
  rw [works.output,validatorOutput,outcome]
  dsimp only
  rw [parseFindings_renderJSON reads temp (located_fits small _ _)]
  cases hasErrors (lint opts (linted doc)) <;> rfl

/-- A text that is no manifest is answered with what the validator says of it. -/
theorem validateManifest_refused [FindingText] {env : Env} {host : Host} {bin temp body err : String}
    (works : Works nodes decode env host bin temp body) (nonempty : body ≠ "") (document : host.document temp (Bytes.encode body) = .error err) :
    validateManifest env body = .Status 500 ("validator usage error (exit 2): " ++
      String.ofList (trim (refused ("load " ++ temp ++ ": " ++ err)).stderr)) := by
  have parsed : parseManifest (staged host temp body) temp (Bytes.encode body) = .error err := by
    rw [parseManifest,show (staged host temp body).document temp (Bytes.encode body) = .error err from document]
  have read : (staged host temp body).readFile temp = .Data (Bytes.encode body) := if_pos rfl
  have outcome : runValidate nodes decode (staged host temp body) { format := "json",args := [temp] } =
      refused ("load " ++ temp ++ ": " ++ err) := by
    rw [runValidate]
    dsimp only
    rw [if_neg Bool.false_ne_true,show OutputFormat.parse "json" = .ok .JSON from rfl]
    dsimp only
    rw [read]
    dsimp only
    rw [parsed]
  rw [validateManifest,if_neg nonempty,works.resolved]
  dsimp only
  rw [works.written]
  dsimp only
  rw [works.output,validatorOutput,outcome]
  rfl

end

/-! ### A reader of records -/

def readMember : List Char → Option (Member × List Char)
  | '"' :: rest => (JsonText.readString rest).map fun found => (.Text (String.ofList found.1),found.2)
  | '-' :: rest => (decimal? (rest.takeWhile JsonText.isDigit)).map fun (n : Nat) => (.Number (-(n : Int)),rest.dropWhile JsonText.isDigit)
  | rest => (decimal? (rest.takeWhile JsonText.isDigit)).map fun (n : Nat) => (.Number n,rest.dropWhile JsonText.isDigit)

/-- The members up to the closing brace. -/
def readPairs : Nat → List Char → Option (List (String × Member))
  | 0,_ => none
  | fuel+1,text =>
    (JsonText.readKey text).bind fun key =>
      (readMember key.2).bind fun value =>
        match value.2 with
        | ',' :: rest => (readPairs fuel rest).map ((key.1,value.1) :: ·)
        | rest => if rest = ['\x7d'] then some [(key.1,value.1)] else none

def readRecord : List Char → Option (List (String × Member))
  | '\x7b' :: rest => if rest = ['\x7d'] then some [] else readPairs (rest.length+1) rest
  | _ => none

def parseRecord (text : String) : Except String Finding :=
  match (readRecord text.toList).bind findingOf with
  | some f => .ok f
  | none => .error "not a finding"

/-- Every member is a string or an integer. -/
@[reducible] def recordText : FindingText where
  fromStr := parseRecord

theorem readString_jsonEscape (c : Char) (rest : List Char) :
    JsonText.readString (jsonEscape c ++ rest) = (JsonText.readString rest).map fun text => (c :: text.1,text.2) := by
  by_cases line : c.toNat = 0x2028
  · obtain rfl : c = Char.ofNat 0x2028 := by rw [← line,Char.ofNat_toNat]
    exact JsonText.readString_unicode (by decide) rest
  · by_cases paragraph : c.toNat = 0x2029
    · obtain rfl : c = Char.ofNat 0x2029 := by rw [← paragraph,Char.ofNat_toNat]
      exact JsonText.readString_unicode (by decide) rest
    · have same : jsonEscape c = JsonText.escape c := by
        rw [jsonEscape,JsonText.escape,if_neg line,if_neg paragraph]
        split_ifs <;> first | rfl | simp_all
      rw [same,JsonText.readString_escape]

theorem readString_jsonString (s : String) (rest : List Char) : JsonText.readString (s.toList.flatMap jsonEscape ++ '"' :: rest) = some (s.toList,rest) := by
  induction s.toList with
  | nil => simp [JsonText.readString]
  | cons c text ih => rw [List.flatMap_cons,List.append_assoc,readString_jsonEscape,ih,Option.map_some]

theorem readMember_memberText (m : Member) {rest : List Char} (stops : JsonText.Stops rest) : readMember (memberText m ++ rest) = some (m,rest) := by
  have digits (n : Nat) := JsonText.takeDigits (JsonText.isDigit_toDigits n) fun c first => (stops c first).1
  cases m with
  | Text s =>
    rw [memberText,jsonString,List.cons_append,List.append_assoc,List.singleton_append,readMember,readString_jsonString]
    simp
  | Number n =>
    cases n with
    | negSucc n =>
      rw [memberText,decimal_negSucc,List.cons_append,readMember,(digits (n+1)).1,(digits (n+1)).2,JsonText.decimal?_toDigits]
      rfl
    | ofNat n =>
      obtain ⟨c,more,whole⟩ := List.exists_cons_of_ne_nil (Nat.toDigits_ne_nil (b := 10) (n := n))
      have digit := JsonText.isDigit_toDigits n c (by rw [whole]; exact List.mem_cons_self)
      have read : readMember (Nat.toDigits 10 n ++ rest) =
          (decimal? ((Nat.toDigits 10 n ++ rest).takeWhile JsonText.isDigit)).map fun (k : Nat) =>
            (.Number k,(Nat.toDigits 10 n ++ rest).dropWhile JsonText.isDigit) := by
        rw [whole,List.cons_append,readMember]
        · intro tail same
          exact absurd digit (by rw [(List.cons.inj same).1]; decide)
        · intro tail same
          exact absurd digit (by rw [(List.cons.inj same).1]; decide)
      rw [memberText,decimal_ofNat,read,(digits n).1,(digits n).2,JsonText.decimal?_toDigits]
      rfl

theorem readKey_pairText (m : String × Member) (rest : List Char) : JsonText.readKey (pairText m ++ rest) = some (m.1,memberText m.2 ++ rest) := by
  have text : pairText m ++ rest = '"' :: (m.1.toList.flatMap jsonEscape ++ '"' :: ':' :: (memberText m.2 ++ rest)) := by simp [pairText,jsonString]
  rw [text,JsonText.readKey,readString_jsonString]
  simp

theorem readPairs_written (m : String × Member) (rest : List (String × Member)) {fuel : Nat} (enough : rest.length < fuel) :
    readPairs fuel (pairText m ++ (rest.flatMap (fun m => ',' :: pairText m) ++ ['\x7d'])) = some (m :: rest) := by
  induction fuel generalizing m rest with
  | zero => exact absurd enough (Nat.not_lt_zero _)
  | succ fuel ih =>
    rw [readPairs,readKey_pairText,Option.bind_some]
    dsimp only
    cases rest with
    | nil =>
      rw [List.flatMap_nil,List.nil_append,readMember_memberText m.2 (JsonText.stops_brace []),Option.bind_some]
      rfl
    | cons next rest =>
      have later := ih next rest (Nat.lt_of_succ_lt_succ enough)
      rw [List.flatMap_cons,List.cons_append,List.cons_append,List.append_assoc,readMember_memberText m.2 (JsonText.stops_comma _),Option.bind_some]
      exact congrArg (Option.map ((m.1,m.2) :: ·)) later

theorem readRecord_objectText (ms : List (String × Member)) : readRecord (objectText ms) = some ms := by
  cases ms with
  | nil => rfl
  | cons m rest =>
    have text : objectText (m :: rest) = '\x7b' :: (pairText m ++ (rest.flatMap (fun m => ',' :: pairText m) ++ ['\x7d'])) := by simp [objectText]
    have pairs : rest.length ≤ (rest.flatMap fun m => ',' :: pairText m).length := by
      rw [List.length_flatMap]
      exact List.length_map (fun m : String × Member => (',' :: pairText m).length) ▸
        List.length_le_sum_of_one_le _ fun n member => by
          obtain ⟨m,-,rfl⟩ := List.mem_map.mp member
          exact Nat.succ_pos _
    have enough : rest.length < (pairText m ++ (rest.flatMap (fun m => ',' :: pairText m) ++ ['\x7d'])).length+1 := by
      rw [List.length_append,List.length_append]
      omega
    rw [text,readRecord,if_neg (by simp [pairText,jsonString]),readPairs_written m rest enough]

theorem reads_recordText : @Reads recordText := by
  intro ms distinct
  change (parseRecord (String.ofList (objectText ms))).toOption = findingOf ms
  rw [parseRecord,String.toList_ofList,readRecord_objectText,Option.bind_some]
  cases findingOf ms <;> rfl

end AegisNode.ValidateBridge
