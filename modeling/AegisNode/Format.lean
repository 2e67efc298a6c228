import AegisNode.Bytes
import AegisNode.Text
import AegisNode.Uri
import Mathlib.Data.Prod.Lex
import Mathlib.Data.String.Basic
import Mathlib.Data.List.TakeWhile

/-!
The four formats of `aegis validate`: what is written for a list of findings, what a
runner of workflow commands reads back, and when the order of the findings shows.
-/
namespace AegisNode.Format
open Text

/-! ### Findings -/

/-- An `int` with three named values. -/
abbrev Severity := Int

def severityInfo : Severity := 0
def severityWarn : Severity := 1
def severityError : Severity := 2

def severityString (s : Severity) : String :=
  if s = severityInfo then "info"
  else if s = severityWarn then "warn"
  else if s = severityError then "error"
  else "severity(" ++ toString s ++ ")"

@[ext]
structure Finding where
  ruleId : String
  severity : Severity
  field : String
  message : String
  rationale : String
  line : Int
  col : Int
  deriving DecidableEq,Repr

def Finding.severityName (f : Finding) : String := severityString f.severity

/-- A position that was not found shows as the first line or column. -/
def positionFor (f : Finding) : Int × Int := (if f.line = 0 then 1 else f.line,if f.col = 0 then 1 else f.col)

def filenameOr (s fallback : String) : String := if s = "" then fallback else s

def decimal (n : Int) : List Char := (toString n).toList

/-! ### Text -/

def tally (findings : List Finding) (severity : Severity) : Nat := (findings.filter (fun f => f.severity = severity)).length

def textLine (file : String) (f : Finding) : List Char :=
  (filenameOr file "<stdin>").toList ++ ":".toList ++ decimal (positionFor f).1 ++ ":".toList ++ decimal (positionFor f).2 ++
    ": ".toList ++ f.severityName.toList ++ " ".toList ++ f.ruleId.toList ++ " ".toList ++ f.field.toList ++ " — ".toList ++
    f.message.toList ++ "\n".toList

def renderText (file : String) (findings : List Finding) : List Char :=
  if findings = [] then (filenameOr file "<stdin>").toList ++ ": clean — 0 findings\n".toList
  else findings.flatMap (textLine file) ++ "\n".toList ++ decimal (tally findings severityError) ++ " error(s), ".toList ++
    decimal (tally findings severityWarn) ++ " warning(s), ".toList ++ decimal (tally findings severityInfo) ++ " info\n".toList

/-! ### GitHub annotations -/

abbrev Escapes := List (Char × List Char)

/-- What `strings.NewReplacer` of `encodeGHA` is given. -/
def ghaEscapes : Escapes :=
  [('%',['%','2','5']),('\r',['%','0','D']),('\n',['%','0','A']),(':',['%','3','A']),(',',['%','2','C'])]

def escapeChar (escapes : Escapes) (c : Char) : List Char := (escapes.lookup c).getD [c]

def escape (escapes : Escapes) (text : List Char) : List Char := text.flatMap (escapeChar escapes)

def encodeGHA (s : String) : List Char := escape ghaEscapes s.toList

def levelOf (f : Finding) : String :=
  if f.severity = severityError then "error" else if f.severity = severityWarn then "warning" else "notice"

def titleOf (f : Finding) : String := f.ruleId ++ " " ++ f.field

def githubLine (file : String) (f : Finding) : List Char :=
  "::".toList ++ (levelOf f).toList ++ " file=".toList ++ file.toList ++ ",line=".toList ++ decimal (positionFor f).1 ++
    ",col=".toList ++ decimal (positionFor f).2 ++ ",title=".toList ++ encodeGHA (titleOf f) ++ "::".toList ++
    encodeGHA f.message ++ "\n".toList

def renderGitHub (file : String) (findings : List Finding) : List Char := findings.flatMap (githubLine file)

/-! ### JUnit XML -/

/-- `xml.EscapeText`. -/
def xmlEscape (c : Char) : List Char :=
  match c with
  | '"' => "&#34;".toList
  | '\'' => "&#39;".toList
  | '&' => "&amp;".toList
  | '<' => "&lt;".toList
  | '>' => "&gt;".toList
  | '\t' => "&#x9;".toList
  | '\n' => "&#xA;".toList
  | '\r' => "&#xD;".toList
  | c => if c.toNat < 0x20 ∨ c.toNat = 0xfffe ∨ c.toNat = 0xffff then [Char.ofNat 0xfffd] else [c]

def xmlAttribute (name value : String) : List Char :=
  " ".toList ++ name.toList ++ "=\"".toList ++ value.toList.flatMap xmlEscape ++ "\"".toList

def junitFailure (f : Finding) : List Char :=
  "\n    <failure".toList ++ xmlAttribute "message" f.message ++ xmlAttribute "type" f.severityName ++ ">".toList ++
    f.rationale.toList.flatMap xmlEscape ++ "</failure>\n  ".toList

def junitTestCase (name className : String) (failure : List Char) : List Char :=
  "\n  <testcase".toList ++ xmlAttribute "name" name ++ xmlAttribute "classname" className ++ ">".toList ++ failure ++
    "</testcase>".toList

def junitCaseOf (file : String) (f : Finding) : List Char :=
  junitTestCase (f.ruleId ++ " @ " ++ f.field) (filenameOr file "<stdin>")
    (if f.severity = severityError ∨ f.severity = severityWarn then junitFailure f else [])

def junitTestSuite (tests failures errors : Nat) (cases : List Char) : List Char :=
  "<?xml version=\"1.0\" encoding=\"UTF-8\"?>\n<testsuite".toList ++ xmlAttribute "name" "aegis-validate" ++
    xmlAttribute "tests" (toString tests) ++ xmlAttribute "failures" (toString failures) ++
    xmlAttribute "errors" (toString errors) ++ ">".toList ++ cases ++ "\n</testsuite>\n".toList

def renderJUnit (file : String) (findings : List Finding) : List Char :=
  if findings = [] then junitTestSuite 1 0 0 (junitTestCase "clean" (filenameOr file "<stdin>") [])
  else junitTestSuite findings.length (tally findings severityWarn) (tally findings severityError)
    (findings.flatMap (junitCaseOf file))

/-! ### JSON records -/

/-- `encoding/json` without the escapes for HTML. -/
def jsonEscape (c : Char) : List Char :=
  if c = '"' ∨ c = '\\' then ['\\',c]
  else if c.toNat = 8 then ['\\','b']
  else if c.toNat = 12 then ['\\','f']
  else if c = '\n' then ['\\','n']
  else if c = '\r' then ['\\','r']
  else if c = '\t' then ['\\','t']
  else if c.toNat < 0x20 then ['\\','u','0','0',Bytes.hexDigit (c.toNat/16),Bytes.hexDigit (c.toNat%16)]
  else if c.toNat = 0x2028 then ['\\','u','2','0','2','8']
  else if c.toNat = 0x2029 then ['\\','u','2','0','2','9']
  else [c]

def jsonString (s : String) : List Char := '"' :: (s.toList.flatMap jsonEscape ++ ['"'])

/-- A member, left out when it is empty. -/
def omitEmpty (empty : Prop) [Decidable empty] (key : String) (value : List Char) : List Char :=
  if empty then [] else ",\"".toList ++ key.toList ++ "\":".toList ++ value

def jsonRecord (file : String) (f : Finding) : List Char :=
  "\x7b".toList ++ (if file = "" then [] else "\"file\":".toList ++ jsonString file ++ ",".toList) ++
    "\"rule_id\":".toList ++ jsonString f.ruleId ++ ",\"severity\":".toList ++ jsonString f.severityName ++
    ",\"field\":".toList ++ jsonString f.field ++ ",\"message\":".toList ++ jsonString f.message ++
    omitEmpty (f.rationale = "") "rationale" (jsonString f.rationale) ++ omitEmpty (f.line = 0) "line" (decimal f.line) ++
    omitEmpty (f.col = 0) "col" (decimal f.col) ++ "\x7d".toList

def renderJSON (file : String) (findings : List Finding) : List Char :=
  findings.flatMap (fun f => jsonRecord file f ++ ['\n'])

/-! ### Rendering -/

inductive OutputFormat where
  | Text
  | GitHub
  | JUnit
  | JSON
  deriving DecidableEq,Repr

def OutputFormat.parse (s : String) : Except String OutputFormat :=
  if s = "text" then .ok .Text
  else if s = "github" then .ok .GitHub
  else if s = "junit" then .ok .JUnit
  else if s = "json" then .ok .JSON
  else .error ("unknown format " ++ goQuote s ++ " (want text|github|junit|json)")

/-- The order of `sort.SliceStable`. -/
def less (left right : Finding) : Bool :=
  if left.field ≠ right.field then left.field < right.field else left.ruleId < right.ruleId

def sorted (findings : List Finding) : List Finding := findings.mergeSort (fun left right => !less right left)

/-- What is written to a writer that takes everything. -/
def render (file : String) (findings : List Finding) : OutputFormat → List Char
  | .Text => renderText file (sorted findings)
  | .GitHub => renderGitHub file (sorted findings)
  | .JUnit => renderJUnit file (sorted findings)
  | .JSON => renderJSON file (sorted findings)

/-! ### Sorting -/

/-- What findings are sorted by. -/
def key (f : Finding) : String ×ₗ String := toLex (f.field,f.ruleId)

theorem less_iff {left right : Finding} : less left right = true ↔ key left < key right := by
  rw [less,key,key,Prod.Lex.toLex_lt_toLex]
  by_cases same : left.field = right.field
  · simp [same]
  · simp [same]

theorem sorted_le {left right : Finding} : (!less right left) = true ↔ key left ≤ key right := by
  rw [Bool.not_eq_true',← Bool.not_eq_true,less_iff,not_lt]

theorem sorted_pairwise (findings : List Finding) : (sorted findings).Pairwise (fun left right => key left ≤ key right) := by
  have pairs := @List.pairwise_mergeSort Finding (fun left right => !less right left)
    (fun _ _ _ first second => sorted_le.mpr ((sorted_le.mp first).trans (sorted_le.mp second)))
    (fun left right => by simpa only [Bool.or_eq_true,sorted_le] using le_total _ _) findings
  exact pairs.imp fun ordered => sorted_le.mp ordered

/-- Sorting puts the first finding before those that do not sort below it. -/
theorem sorted_cons (f : Finding) (rest : List Finding) : sorted (f :: rest) =
    (sorted rest).takeWhile (fun g => key g < key f) ++ f :: (sorted rest).dropWhile (fun g => key g < key f) := by
  obtain ⟨below,above,whole,split,lower⟩ := @List.mergeSort_cons Finding (fun left right => !less right left)
    (fun _ _ _ first second => sorted_le.mpr ((sorted_le.mp first).trans (sorted_le.mp second)))
    (fun left right => by simpa only [Bool.or_eq_true,sorted_le] using le_total _ _) f rest
  have ordered : (below ++ f :: above).Pairwise (fun left right => key left ≤ key right) := whole ▸ sorted_pairwise (f :: rest)
  have upper : ∀ g ∈ above,key f ≤ key g := (List.pairwise_cons.mp (List.pairwise_append.mp ordered).2.1).1
  have lower' : ∀ g ∈ below,decide (key g < key f) = true := by
    intro g member
    have strict := lower g member
    rw [Bool.not_eq_true',← Bool.not_eq_true,sorted_le,not_le] at strict
    exact decide_eq_true strict
  have stop : above.takeWhile (fun g => key g < key f) = [] := by
    cases above with
    | nil => rfl
    | cons g more => simp [upper g List.mem_cons_self]
  have keep : above.dropWhile (fun g => key g < key f) = above := by
    cases above with
    | nil => rfl
    | cons g more => simp [upper g List.mem_cons_self]
  have cut : sorted rest = below ++ above := split
  rw [cut,List.takeWhile_append_of_pos lower',List.dropWhile_append_of_pos lower',stop,keep,List.append_nil]
  exact whole

/-- Two findings with one key stay in the order they come in. -/
theorem sorted_ties {f g : Finding} (tied : key f = key g) (rest : List Finding) : sorted (f :: g :: rest) =
    (sorted rest).takeWhile (fun h => key h < key g) ++ f :: g :: (sorted rest).dropWhile (fun h => key h < key g) := by
  have below : ∀ h ∈ (sorted rest).takeWhile (fun h => key h < key g),decide (key h < key g) = true :=
    fun h member => List.mem_takeWhile_imp (p := fun h => decide (key h < key g)) member
  rw [sorted_cons,sorted_cons,tied,List.takeWhile_append_of_pos below,List.dropWhile_append_of_pos below]
  simp

theorem sorted_perm {findings permuted : List Finding} (same : findings.Perm permuted)
    (apart : ∀ f ∈ findings,∀ g ∈ findings,key f = key g → f = g) : sorted findings = sorted permuted := by
  refine List.Perm.eq_of_pairwise (fun f g listed listed' below above => ?_) (sorted_pairwise findings) (sorted_pairwise permuted) ?_
  · have member := (List.mergeSort_perm _ _).mem_iff.mp listed
    have member' := same.mem_iff.mpr ((List.mergeSort_perm _ _).mem_iff.mp listed')
    exact apart f member g member' (le_antisymm below above)
  · exact (List.mergeSort_perm _ _).trans (same.trans (List.mergeSort_perm _ _).symm)

/-! ### Reading a record -/

/-- The character of an escape without a number. -/
def shortEscape (c : Char) : Char :=
  if c = 'b' then Char.ofNat 8 else if c = 'f' then Char.ofNat 12 else if c = 'n' then '\n' else if c = 'r' then '\r'
  else if c = 't' then '\t' else c

def numbered? : List Char → Option (Char × List Char)
  | a :: b :: c :: d :: rest => do
    let a ← Bytes.hexValue a
    let b ← Bytes.hexValue b
    let c ← Bytes.hexValue c
    let d ← Bytes.hexValue d
    return (Char.ofNat (((a*16+b)*16+c)*16+d),rest)
  | _ => none

/-- The character that a unit of a JSON string stands for, and what follows it. -/
def unit? : List Char → Option (Char × List Char)
  | [] => none
  | c :: rest =>
    if c = '"' then none
    else if c ≠ '\\' then some (c,rest)
    else match rest with
      | [] => none
      | 'u' :: rest => numbered? rest
      | c :: rest => some (shortEscape c,rest)

/-- The three forms a character is written in. -/
theorem jsonEscape_cases (c : Char) :
    (∃ e,jsonEscape c = ['\\',e] ∧ e ≠ 'u' ∧ e ≠ '\n' ∧ shortEscape e = c) ∨
    (∃ h i j k,h < 16 ∧ i < 16 ∧ j < 16 ∧ k < 16 ∧ ((h*16+i)*16+j)*16+k = c.toNat ∧
      jsonEscape c = ['\\','u',Bytes.hexDigit h,Bytes.hexDigit i,Bytes.hexDigit j,Bytes.hexDigit k]) ∨
    (jsonEscape c = [c] ∧ c ≠ '"' ∧ c ≠ '\\' ∧ c ≠ '\n') := by
  have named {n : Nat} (value : c.toNat = n) : Char.ofNat n = c := by rw [← value,Char.ofNat_toNat]
  generalize written : jsonEscape c = out
  rw [jsonEscape] at written
  split_ifs at written with quoted backspace feed newline return_ tab control line paragraph
  all_goals subst written
  · rcases quoted with rfl | rfl
    · exact Or.inl ⟨_,rfl,by decide,by decide,by decide⟩
    · exact Or.inl ⟨_,rfl,by decide,by decide,by decide⟩
  · exact Or.inl ⟨_,rfl,by decide,by decide,named backspace⟩
  · exact Or.inl ⟨_,rfl,by decide,by decide,named feed⟩
  · exact Or.inl ⟨_,rfl,by decide,by decide,newline.symm⟩
  · exact Or.inl ⟨_,rfl,by decide,by decide,return_.symm⟩
  · exact Or.inl ⟨_,rfl,by decide,by decide,tab.symm⟩
  · exact Or.inr (Or.inl ⟨0,0,c.toNat/16,c.toNat%16,by omega,by omega,by omega,by omega,by omega,rfl⟩)
  · exact Or.inr (Or.inl ⟨2,0,2,8,by omega,by omega,by omega,by omega,by omega,rfl⟩)
  · exact Or.inr (Or.inl ⟨2,0,2,9,by omega,by omega,by omega,by omega,by omega,rfl⟩)
  · rw [not_or] at quoted
    exact Or.inr (Or.inr ⟨rfl,quoted.1,quoted.2,newline⟩)

theorem unit?_jsonEscape (c : Char) (rest : List Char) : unit? (jsonEscape c ++ rest) = some (c,rest) := by
  rcases jsonEscape_cases c with ⟨e,form,unnumbered,-,rfl⟩ | ⟨h,i,j,k,hs,is,js,ks,value,form⟩ | ⟨form,quote,backslash,-⟩
  · have short : unit? ('\\' :: e :: rest) = some (shortEscape e,rest) := by
      rw [unit?.eq_def]
      simp
    rw [form]
    exact short
  · have read : numbered? (Bytes.hexDigit h :: Bytes.hexDigit i :: Bytes.hexDigit j :: Bytes.hexDigit k :: rest) = some (c,rest) := by
      rw [numbered?,Bytes.hexValue_hexDigit h hs,Bytes.hexValue_hexDigit i is,Bytes.hexValue_hexDigit j js,
        Bytes.hexValue_hexDigit k ks]
      dsimp only [Option.bind_eq_bind,Option.bind_some]
      rw [value,Char.ofNat_toNat]
      rfl
    rw [form]
    exact read
  · rw [form,List.singleton_append,unit?.eq_def]
    dsimp only
    rw [if_neg quote,if_pos backslash]

theorem jsonChars_cancel : ∀ (left right : List Char) {rest rest' : List Char},
    left.flatMap jsonEscape ++ '"' :: rest = right.flatMap jsonEscape ++ '"' :: rest' → left = right ∧ rest = rest'
  | [],[],_,_,same => ⟨rfl,(List.cons.inj same).2⟩
  | [],d :: right,rest,rest',same => by
    have read := unit?_jsonEscape d (right.flatMap jsonEscape ++ '"' :: rest')
    rw [← List.append_assoc,← List.flatMap_cons,← same] at read
    cases read
  | c :: left,[],rest,rest',same => by
    have read := unit?_jsonEscape c (left.flatMap jsonEscape ++ '"' :: rest)
    rw [← List.append_assoc,← List.flatMap_cons,same] at read
    cases read
  | c :: left,d :: right,rest,rest',same => by
    have read := unit?_jsonEscape c (left.flatMap jsonEscape ++ '"' :: rest)
    rw [← List.append_assoc,← List.flatMap_cons,same,List.flatMap_cons,List.append_assoc,unit?_jsonEscape] at read
    obtain ⟨rfl,later⟩ := Prod.mk.inj (Option.some.inj read)
    obtain ⟨rfl,rfl⟩ := jsonChars_cancel left right later.symm
    exact ⟨rfl,rfl⟩

/-- A JSON string ends where it ends. -/
theorem jsonString_cancel {left right : String} {rest rest' : List Char}
    (same : jsonString left ++ rest = jsonString right ++ rest') : left = right ∧ rest = rest' := by
  unfold jsonString at same
  rw [List.cons_append,List.cons_append,List.append_assoc,List.append_assoc,List.singleton_append,List.singleton_append] at same
  obtain ⟨chars,rest⟩ := jsonChars_cancel _ _ (List.cons.inj same).2
  exact ⟨String.toList_inj.mp chars,rest⟩

def decimalChar (c : Char) : Bool := c.isDigit || c = '-'

theorem decimal_ofNat (n : Nat) : decimal (Int.ofNat n) = Nat.toDigits 10 n := Nat.toList_repr

theorem decimal_negSucc (n : Nat) : decimal (Int.negSucc n) = '-' :: Nat.toDigits 10 (n+1) := by
  have minus : "-".toList = ['-'] := rfl
  have signed : decimal (Int.negSucc n) = ("-" ++ Nat.repr (n+1)).toList := rfl
  rw [signed,String.toList_append,minus,Nat.toList_repr,List.singleton_append]

theorem isDigit_toDigits {n : Nat} {c : Char} (member : c ∈ Nat.toDigits 10 n) : c.isDigit = true :=
  Nat.isDigit_of_mem_toDigits (by decide) (by decide) member

theorem decimal_chars (n : Int) : ∀ c ∈ decimal n,decimalChar c = true := by
  intro c member
  cases n with
  | ofNat n =>
    rw [decimal_ofNat] at member
    rw [decimalChar,isDigit_toDigits member,Bool.true_or]
  | negSucc n =>
    rw [decimal_negSucc,List.mem_cons] at member
    rcases member with rfl | member
    · rfl
    · rw [decimalChar,isDigit_toDigits member,Bool.true_or]

theorem toDigits_injective {left right : Nat} (same : Nat.toDigits 10 left = Nat.toDigits 10 right) : left = right := by
  have read := Nat.ofDigitChars_toDigits (b := 10) (n := left) (by decide) (by decide)
  rw [same,Nat.ofDigitChars_toDigits (by decide) (by decide)] at read
  exact read.symm

theorem toDigits_unsigned {n m : Nat} : Nat.toDigits 10 n ≠ '-' :: Nat.toDigits 10 m := by
  intro same
  have minus := isDigit_toDigits (n := n) (c := '-') (by rw [same]; exact List.mem_cons_self)
  exact absurd minus (by decide)

theorem decimal_injective {left right : Int} (same : decimal left = decimal right) : left = right := by
  cases left with
  | ofNat n =>
    cases right with
    | ofNat m =>
      rw [decimal_ofNat,decimal_ofNat] at same
      rw [toDigits_injective same]
    | negSucc m =>
      rw [decimal_ofNat,decimal_negSucc] at same
      exact absurd same toDigits_unsigned
  | negSucc n =>
    cases right with
    | ofNat m =>
      rw [decimal_ofNat,decimal_negSucc] at same
      exact absurd same.symm toDigits_unsigned
    | negSucc m =>
      rw [decimal_negSucc,decimal_negSucc] at same
      have next := toDigits_injective (List.cons.inj same).2
      rw [Nat.succ_injective next]

/-- A number ends before a character that no number has. -/
theorem decimal_cancel {left right : Int} {c d : Char} {rest rest' : List Char} (stop : decimalChar c = false)
    (stop' : decimalChar d = false) (same : decimal left ++ c :: rest = decimal right ++ d :: rest') :
    left = right ∧ c :: rest = d :: rest' := by
  obtain ⟨number,rest⟩ := Uri.split_unique (decimal_chars left) (decimal_chars right)
    (by rintro _ ⟨⟩; exact stop) (by rintro _ ⟨⟩; exact stop') same
  exact ⟨decimal_injective number,rest⟩

theorem severityString_head (s : Severity) : (severityString s).toList.head? =
    some (if s = 0 then 'i' else if s = 1 then 'w' else if s = 2 then 'e' else 's') := by
  unfold severityString severityInfo severityWarn severityError
  split_ifs
  · rfl
  · rfl
  · rfl
  · rw [String.toList_append,String.toList_append]
    rfl

theorem severityString_other {s : Severity} (info : s ≠ 0) (warn : s ≠ 1) (error : s ≠ 2) :
    (severityString s).toList = "severity(".toList ++ (decimal s ++ ")".toList) := by
  have named : severityString s = "severity(" ++ toString s ++ ")" := by
    unfold severityString
    rw [if_neg (show ¬ s = severityInfo from info),if_neg (show ¬ s = severityWarn from warn),
      if_neg (show ¬ s = severityError from error)]
  rw [named,String.toList_append,String.toList_append,List.append_assoc]
  rfl

theorem severityString_injective {left right : Int} (same : severityString left = severityString right) : left = right := by
  have heads := congrArg (fun name : String => name.toList.head?) same
  simp only [severityString_head,Option.some.injEq] at heads
  -- names of different kinds differ in their first letter
  split_ifs at heads with info info' warn' error' warn info' warn' error' error info' warn' error' info' warn' error'
  any_goals simp only [Char.reduceEq] at heads
  · exact info.trans info'.symm
  · exact warn.trans warn'.symm
  · exact error.trans error'.symm
  rw [← String.toList_inj,severityString_other info warn error,severityString_other info' warn' error'] at same
  have close : ")".toList = [')'] := rfl
  rw [close] at same
  exact (decimal_cancel (by decide) (by decide) (List.append_cancel_left same)).1

/-! ### A record tells its finding -/

def memberName (name : String) : List Char := ",\"".toList ++ name.toList ++ "\":".toList

section
variable {α : Type} (empty : α → Prop) [DecidablePred empty] {name : String} (value : α → List Char)

/-- A member that may be left out is told apart from what can follow it. -/
theorem omitEmpty_cancel (one : ∀ a b,empty a → empty b → a = b) {a b : α} {rest rest' : List Char}
    (value_cancel : value a ++ rest = value b ++ rest' → a = b ∧ rest = rest')
    (other : ∀ more,rest ≠ memberName name ++ more) (other' : ∀ more,rest' ≠ memberName name ++ more)
    (same : omitEmpty (empty a) name (value a) ++ rest = omitEmpty (empty b) name (value b) ++ rest') : a = b ∧ rest = rest' := by
  have present {c : α} (some : ¬ empty c) : omitEmpty (empty c) name (value c) = memberName name ++ value c := if_neg some
  have absent {c : α} (none : empty c) : omitEmpty (empty c) name (value c) = [] := if_pos none
  by_cases none : empty a
  · by_cases none' : empty b
    · rw [absent none,absent none'] at same
      exact ⟨one a b none none',same⟩
    · rw [absent none,present none',List.append_assoc] at same
      exact absurd same (other _)
  · by_cases none' : empty b
    · rw [present none,absent none',List.append_assoc] at same
      exact absurd same.symm (other' _)
    · rw [present none,present none',List.append_assoc,List.append_assoc] at same
      exact value_cancel (List.append_cancel_left same)

end

def colMember (f : Finding) : List Char := omitEmpty (f.col = 0) "col" (decimal f.col) ++ "\x7d".toList
def lineMember (f : Finding) : List Char := omitEmpty (f.line = 0) "line" (decimal f.line) ++ colMember f
def rationaleMember (f : Finding) : List Char := omitEmpty (f.rationale = "") "rationale" (jsonString f.rationale) ++ lineMember f

theorem colMember_take (f : Finding) : (colMember f).take 3 = ['}'] ∨ (colMember f).take 3 = [',','"','c'] := by
  unfold colMember omitEmpty
  split_ifs
  · exact Or.inl rfl
  · exact Or.inr rfl

theorem lineMember_take (f : Finding) : (lineMember f).take 3 = ['}'] ∨ (lineMember f).take 3 = [',','"','c'] ∨
    (lineMember f).take 3 = [',','"','l'] := by
  unfold lineMember omitEmpty
  split_ifs
  · exact (colMember_take f).imp_right Or.inl
  · exact Or.inr (Or.inr rfl)

theorem number_cancel {left right : Int} {rest rest' : List Char} (stops : ∃ c more,rest = c :: more ∧ decimalChar c = false)
    (stops' : ∃ c more,rest' = c :: more ∧ decimalChar c = false) (same : decimal left ++ rest = decimal right ++ rest') :
    left = right ∧ rest = rest' := by
  obtain ⟨c,more,rfl,stop⟩ := stops
  obtain ⟨d,more',rfl,stop'⟩ := stops'
  exact decimal_cancel stop stop' same

theorem colMember_stops (f : Finding) : ∃ c more,colMember f = c :: more ∧ decimalChar c = false := by
  unfold colMember omitEmpty
  split_ifs
  · exact ⟨'}',[],rfl,rfl⟩
  · exact ⟨',',_,rfl,rfl⟩

theorem colMember_injective {f g : Finding} (same : colMember f = colMember g) : f.col = g.col := by
  have ends : "\x7d".toList = ['}'] := rfl
  unfold colMember at same
  rw [ends] at same
  refine (omitEmpty_cancel (fun n : Int => n = 0) decimal (fun _ _ zero zero' => zero.trans zero'.symm)
    (fun numbers => decimal_cancel (by decide) (by decide) numbers) ?_ ?_ same).1
  · intro more brace
    cases brace
  · intro more brace
    cases brace

theorem lineMember_injective {f g : Finding} (same : lineMember f = lineMember g) : f.line = g.line ∧ f.col = g.col := by
  have other (h : Finding) (more : List Char) : colMember h ≠ memberName "line" ++ more := by
    intro named
    have front : (colMember h).take 3 = [',','"','l'] := by rw [named]; rfl
    rcases colMember_take h with brace | member
    · rw [brace] at front
      exact absurd front (by decide)
    · rw [member] at front
      exact absurd front (by decide)
  obtain ⟨line,rest⟩ := omitEmpty_cancel (fun n : Int => n = 0) decimal
    (fun _ _ zero zero' => zero.trans zero'.symm) (number_cancel (colMember_stops f) (colMember_stops g)) (other f) (other g) same
  exact ⟨line,colMember_injective rest⟩

theorem rationaleMember_injective {f g : Finding} (same : rationaleMember f = rationaleMember g) :
    f.rationale = g.rationale ∧ f.line = g.line ∧ f.col = g.col := by
  have other (h : Finding) (more : List Char) : lineMember h ≠ memberName "rationale" ++ more := by
    intro named
    have front : (lineMember h).take 3 = [',','"','r'] := by rw [named]; rfl
    rcases lineMember_take h with brace | member | member
    · rw [brace] at front
      exact absurd front (by decide)
    · rw [member] at front
      exact absurd front (by decide)
    · rw [member] at front
      exact absurd front (by decide)
  obtain ⟨rationale,rest⟩ := omitEmpty_cancel (fun s : String => s = "") jsonString
    (fun _ _ none none' => none.trans none'.symm) jsonString_cancel (other f) (other g) same
  exact ⟨rationale,lineMember_injective rest⟩

theorem jsonRecord_eq (file : String) (f : Finding) : jsonRecord file f =
    "\x7b".toList ++ ((if file = "" then [] else "\"file\":".toList ++ jsonString file ++ ",".toList) ++
      ("\"rule_id\":".toList ++ (jsonString f.ruleId ++ (",\"severity\":".toList ++ (jsonString f.severityName ++
        (",\"field\":".toList ++ (jsonString f.field ++ (",\"message\":".toList ++ (jsonString f.message ++
          rationaleMember f))))))))) := by
  unfold jsonRecord rationaleMember lineMember colMember
  repeat rw [List.append_assoc]

/-- Records of one rule and field differ when the findings do. -/
theorem jsonRecord_injective {file : String} {f g : Finding} (tied : key f = key g) (same : jsonRecord file f = jsonRecord file g) :
    f = g := by
  obtain ⟨field,ruleId⟩ := Prod.mk.inj (toLex.injective tied)
  rw [jsonRecord_eq,jsonRecord_eq,ruleId,field] at same
  have rest := List.append_cancel_left (List.append_cancel_left (List.append_cancel_left (List.append_cancel_left
    (List.append_cancel_left same))))
  obtain ⟨severity,rest⟩ := jsonString_cancel rest
  obtain ⟨message,rest⟩ := jsonString_cancel (List.append_cancel_left (List.append_cancel_left (List.append_cancel_left rest)))
  obtain ⟨rationale,line,col⟩ := rationaleMember_injective rest
  exact Finding.ext ruleId (severityString_injective severity) field message rationale line col

/-! ### One record a line -/

theorem hexDigit_no_feed : ∀ n < 16,Bytes.hexDigit n ≠ '\n' := by decide

theorem jsonEscape_no_feed (c : Char) : '\n' ∉ jsonEscape c := by
  have digit {n : Nat} (small : n < 16) : '\n' ≠ Bytes.hexDigit n := (hexDigit_no_feed n small).symm
  rcases jsonEscape_cases c with ⟨e,form,-,feed,-⟩ | ⟨h,i,j,k,hs,is,js,ks,-,form⟩ | ⟨form,-,-,feed⟩
  · rw [form]
    simp [Ne.symm feed]
  · rw [form]
    simp [digit hs,digit is,digit js,digit ks]
  · rw [form,List.mem_singleton]
    exact Ne.symm feed

theorem jsonString_no_feed (s : String) : '\n' ∉ jsonString s := by
  intro member
  simp only [jsonString,List.mem_cons,List.mem_append,List.mem_flatMap,List.not_mem_nil,or_false] at member
  rcases member with quote | ⟨c,-,inside⟩ | quote
  · exact absurd quote (by decide)
  · exact jsonEscape_no_feed c inside
  · exact absurd quote (by decide)

theorem decimal_no_feed (n : Int) : '\n' ∉ decimal n := fun member => absurd (decimal_chars n _ member) (by decide)

theorem omitEmpty_no_feed {empty : Prop} [Decidable empty] {name : String} {value : List Char} (plain : '\n' ∉ memberName name)
    (single : '\n' ∉ value) : '\n' ∉ omitEmpty empty name value := by
  have present : ",\"".toList ++ name.toList ++ "\":".toList ++ value = memberName name ++ value := rfl
  unfold omitEmpty
  split_ifs
  · exact List.not_mem_nil
  · rw [present,List.mem_append]
    exact fun member => member.elim plain single

theorem append_no_feed {left right : List Char} (plain : '\n' ∉ left) (plain' : '\n' ∉ right) : '\n' ∉ left ++ right :=
  fun member => (List.mem_append.mp member).elim plain plain'

theorem rationaleMember_no_feed (f : Finding) : '\n' ∉ rationaleMember f :=
  append_no_feed (omitEmpty_no_feed (by decide) (jsonString_no_feed _))
    (append_no_feed (omitEmpty_no_feed (by decide) (decimal_no_feed _))
      (append_no_feed (omitEmpty_no_feed (by decide) (decimal_no_feed _)) (by decide)))

theorem jsonRecord_no_feed (file : String) (f : Finding) : '\n' ∉ jsonRecord file f := by
  have front : '\n' ∉ (if file = "" then [] else "\"file\":".toList ++ jsonString file ++ ",".toList) := by
    split_ifs
    · exact List.not_mem_nil
    · exact append_no_feed (append_no_feed (by decide) (jsonString_no_feed file)) (by decide)
  have member (name : List Char) (value : String) {rest : List Char} (plain : '\n' ∉ name) (single : '\n' ∉ rest) :
      '\n' ∉ name ++ (jsonString value ++ rest) := append_no_feed plain (append_no_feed (jsonString_no_feed value) single)
  rw [jsonRecord_eq]
  exact append_no_feed (by decide) (append_no_feed front (member _ _ (by decide) (member _ _ (by decide)
    (member _ _ (by decide) (member _ _ (by decide) (rationaleMember_no_feed f))))))

/-! ### When the order shows -/

/-- Every order of the findings gives the same bytes in every format. -/
def Canonical (file : String) (findings : List Finding) : Prop :=
  ∀ permuted,findings.Perm permuted → ∀ kind,render file findings kind = render file permuted kind

/-- Findings with one field and one rule are the same finding. -/
def Apart (findings : List Finding) : Prop :=
  ∀ f ∈ findings,∀ g ∈ findings,f.field = g.field → f.ruleId = g.ruleId → f = g

theorem renderJSON_append (file : String) (left right : List Finding) :
    renderJSON file (left ++ right) = renderJSON file left ++ renderJSON file right := List.flatMap_append

/-- Two neighbours that are written alike in both orders are one finding. -/
theorem renderJSON_swap {file : String} {f g : Finding} (tied : key f = key g) (before after : List Finding)
    (same : renderJSON file (before ++ f :: g :: after) = renderJSON file (before ++ g :: f :: after)) : f = g := by
  rw [renderJSON_append,renderJSON_append] at same
  have lines (a b : Finding) : renderJSON file (a :: b :: after) =
      jsonRecord file a ++ '\n' :: (jsonRecord file b ++ '\n' :: renderJSON file after) := by
    simp [renderJSON]
  have pair := List.append_cancel_left same
  rw [lines,lines] at pair
  have first := splitOnce_single.mpr ⟨pair,jsonRecord_no_feed file g⟩
  rw [splitOnce_single.mpr ⟨rfl,jsonRecord_no_feed file f⟩] at first
  exact jsonRecord_injective tied (Prod.mk.inj (Option.some.inj first)).1

theorem render_canonical (file : String) (findings : List Finding) : Canonical file findings ↔ Apart findings := by
  constructor
  · intro canonical f member g member' field ruleId
    by_contra differ
    have tied : key f = key g := by rw [key,key,field,ruleId]
    have later : g ∈ findings.erase f := (List.mem_erase_of_ne (Ne.symm differ)).mpr member'
    have perm : findings.Perm (f :: g :: (findings.erase f).erase g) :=
      (List.perm_cons_erase member).trans ((List.perm_cons_erase later).cons f)
    have first := canonical _ perm .JSON
    have second := canonical _ (perm.trans (List.Perm.swap g f _)) .JSON
    simp only [render] at first second
    rw [first,sorted_ties tied,sorted_ties tied.symm,tied] at second
    exact differ (renderJSON_swap tied _ _ second)
  · intro apart permuted perm kind
    have same := sorted_perm perm fun f member g member' tied =>
      apart f member g member' (Prod.mk.inj (toLex.injective tied)).1 (Prod.mk.inj (toLex.injective tied)).2
    cases kind <;> simp only [render,same]

def systemRoot : Finding := ⟨"AEGIS001",severityError,"tools.filesystem.read","path \"/etc\" is a system root","",0,0⟩
def homeRoot : Finding := ⟨"AEGIS001",severityError,"tools.filesystem.read","path \"/root\" is a system root","",0,0⟩

/-- Two findings of one rule about one field are written in the order they come in. -/
theorem order_shows : render "m.yaml" [systemRoot,homeRoot] .Text ≠ render "m.yaml" [homeRoot,systemRoot] .Text ∧
    ¬ ∀ file findings,Canonical file findings := by
  have none : sorted [] = [] := List.mergeSort_nil
  have tied : key systemRoot = key homeRoot := rfl
  have kept : sorted [systemRoot,homeRoot] = [systemRoot,homeRoot] := by
    rw [sorted_ties tied,none]
    rfl
  have swapped : sorted [homeRoot,systemRoot] = [homeRoot,systemRoot] := by
    rw [sorted_ties tied.symm,none]
    rfl
  have differ : render "m.yaml" [systemRoot,homeRoot] .Text ≠ render "m.yaml" [homeRoot,systemRoot] .Text := by
    simp only [render,kept,swapped]
    decide +kernel
  exact ⟨differ,fun all => differ (all "m.yaml" _ _ (List.Perm.swap homeRoot systemRoot []) .Text)⟩

end AegisNode.Format
