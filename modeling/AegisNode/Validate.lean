import AegisNode.Lint
import AegisNode.Positions
import AegisNode.Conformance
import AegisNode.Mediation
import AegisNode.Passage

/-!
`aegis validate`: the command around the linter, and what a manifest that passes it means
for the decisions and for the sessions of the runtime.
-/
namespace AegisNode.Validate
open Text Paths Format Lint Policy
open Schema hiding Manifest

/-! ### The command -/

/-- A manifest document with the fields that only the linter reads. -/
structure Document extends Schema.Manifest where
  agent : Agent
  identity : Identity
  approvalAuthorities : List String
  inference : Option Inference
  deriving DecidableEq,Repr

/-- `os.ReadFile`. -/
inductive ReadFile where
  | NotExist
  | Failed (err : String)
  | Data (data : List UInt8)

/-- What the command finds outside: files, the decoders of YAML, and what the schema has to
    say about a document. -/
structure Host where
  readFile : String → ReadFile
  document : String → List UInt8 → Except String Document
  schemaError : String → List UInt8 → String
  configFile : List UInt8 → Except String (List (String × String))

structure Flags where
  format : String := "text"
  config : String := ".aegis-validate.yaml"
  listRules : Bool := false
  args : List String

/-- The exit code and what was written. -/
structure Outcome where
  exit : Nat
  stdout : List Char
  stderr : List Char

def usage : String :=
  "aegis validate — lint a Permission Manifest\n\nUsage:\n  aegis validate [flags] <manifest.yaml>\n  aegis validate --list-rules\n\nFlags:\n" ++
    "  -config string\n    \tPath to severity-override config (missing file is OK) (default \".aegis-validate.yaml\")\n" ++
    "  -format string\n    \tOutput format: text|github|junit|json (default \"text\")\n" ++
    "  -list-rules\n    \tPrint every registered rule + default severity + rationale and exit\n"

def ruleText (r : Rule) : List Char :=
  (r.id ++ " [" ++ severityString r.default ++ "]\n  " ++ r.summary ++ "\n").toList ++
    (if r.rationale ≠ "" then ("  rationale: " ++ r.rationale ++ "\n").toList else []) ++ ['\n']

/-- `Rules`. -/
def sortedRules : List Rule := registry.mergeSort fun left right => !(right.id < left.id)

def printRules : List Char := sortedRules.flatMap ruleText

/-- `LoadConfig`: without a file nothing is overridden. -/
def loadConfig (host : Host) (path : String) : Except String Overrides :=
  match host.readFile path with
  | .NotExist => .ok []
  | .Failed err => .error ("read " ++ path ++ ": " ++ err)
  | .Data data =>
    match host.configFile data with
    | .error err => .error ("parse " ++ path ++ ": " ++ err)
    | .ok entries => loadOverrides path entries

/-- `manifest.Parse`. -/
def parseManifest (host : Host) (path : String) (data : List UInt8) : Except String Lint.Manifest :=
  match host.document path data with
  | .error err => .error err
  | .ok doc =>
    match GoManifest.parse doc.toManifest with
    | none => .error (host.schemaError path data)
    | some m => .ok ⟨m,doc.agent,doc.identity,doc.approvalAuthorities,doc.inference⟩

section
variable {P : Type} (nodes : P → Yaml.Node P) (decode : List UInt8 → Option P)

/-- The findings with the positions that the nodes of the file have. -/
def located (data : List UInt8) (findings : List Finding) : List Finding :=
  findings.map fun f =>
    let found := Positions.lookupPosition nodes (decode data) f.field.toList
    { f with line := found.1,col := found.2 }

/-- The lines of an error, and the exit code of a usage error. -/
def refused (message : String) : Outcome := ⟨2,[],(message ++ "\n").toList⟩

/-- `runValidate` on flags that were parsed. -/
def runValidate (host : Host) (flags : Flags) : Outcome :=
  if flags.listRules then ⟨0,printRules,[]⟩
  else match flags.args with
    | [] => ⟨2,[],usage.toList⟩
    | [path] =>
      match OutputFormat.parse flags.format with
      | .error err => refused err
      | .ok out =>
        match host.readFile path with
        | .NotExist => refused ("load " ++ path ++ ": open " ++ path ++ ": no such file or directory")
        | .Failed err => refused ("load " ++ path ++ ": " ++ err)
        | .Data data =>
          match parseManifest host path data with
          | .error err => refused ("load " ++ path ++ ": " ++ err)
          | .ok m =>
            match loadConfig host flags.config with
            | .error err => refused err
            | .ok opts =>
              let findings := located nodes decode data (lint opts m)
              ⟨if hasErrors findings then 1 else 0,render path findings out,[]⟩
    | _ :: _ :: _ => refused "validate accepts exactly one manifest path"

/-- What stands behind a manifest that passes. -/
structure Passed (host : Host) (flags : Flags) (path : String) (data : List UInt8) (doc : Document) (opts : Overrides) : Prop where
  args : flags.args = [path]
  read : host.readFile path = .Data data
  document : host.document path data = .ok doc
  valid : doc.schemaValid = true
  config : loadConfig host flags.config = .ok opts
  clean : hasErrors (lint opts ⟨GoManifest.ofDocument doc.toManifest,doc.agent,doc.identity,doc.approvalAuthorities,doc.inference⟩) = false

theorem hasErrors_located (data : List UInt8) (findings : List Finding) :
    hasErrors (located nodes decode data findings) = hasErrors findings := by
  rw [hasErrors,hasErrors,located,List.any_map]
  rfl

theorem runValidate_passed {host : Host} {flags : Flags} (linting : flags.listRules = false)
    (passes : (runValidate nodes decode host flags).exit = 0) : ∃ path data doc opts,Passed host flags path data doc opts := by
  rw [runValidate,linting,if_neg Bool.false_ne_true] at passes
  cases args : flags.args with
  | nil => rw [args] at passes; cases passes
  | cons path rest =>
    cases rest with
    | cons _ _ => rw [args] at passes; cases passes
    | nil =>
      rw [args] at passes
      dsimp only at passes
      cases format : OutputFormat.parse flags.format with
      | error err => rw [format] at passes; cases passes
      | ok out =>
        rw [format] at passes
        dsimp only at passes
        cases read : host.readFile path with
        | NotExist => rw [read] at passes; cases passes
        | Failed err => rw [read] at passes; cases passes
        | Data data =>
          rw [read] at passes
          dsimp only at passes
          cases parsed : parseManifest host path data with
          | error err => rw [parsed] at passes; cases passes
          | ok m =>
            rw [parsed] at passes
            dsimp only at passes
            cases config : loadConfig host flags.config with
            | error err => rw [config] at passes; cases passes
            | ok opts =>
              rw [config] at passes
              dsimp only at passes
              rw [hasErrors_located] at passes
              rw [parseManifest] at parsed
              cases document : host.document path data with
              | error err => rw [document] at parsed; cases parsed
              | ok doc =>
                rw [document] at parsed
                dsimp only at parsed
                rw [GoManifest.parse] at parsed
                by_cases valid : doc.schemaValid = true
                · rw [if_pos valid] at parsed
                  cases parsed
                  refine ⟨path,data,doc,opts,args,read,document,valid,config,?_⟩
                  by_contra errors
                  rw [if_pos (by simpa using errors)] at passes
                  cases passes
                · rw [if_neg valid] at parsed
                  cases parsed

theorem runValidate_exit {host : Host} {flags : Flags} {out : OutputFormat} {path : String} {data : List UInt8} {doc : Document}
    {opts : Overrides} (linting : flags.listRules = false) (format : OutputFormat.parse flags.format = .ok out)
    (passed : Passed host flags path data doc opts) : (runValidate nodes decode host flags).exit = 0 := by
  have parsed : parseManifest host path data =
      .ok ⟨GoManifest.ofDocument doc.toManifest,doc.agent,doc.identity,doc.approvalAuthorities,doc.inference⟩ := by
    rw [parseManifest,passed.document]
    dsimp only
    rw [GoManifest.parse,if_pos passed.valid]
  rw [runValidate,linting,if_neg Bool.false_ne_true,passed.args]
  dsimp only
  rw [format]
  dsimp only
  rw [passed.read]
  dsimp only
  rw [parsed]
  dsimp only
  rw [passed.config]
  dsimp only
  rw [hasErrors_located,passed.clean]
  rfl

/-- Whatever the order of the rules, of the configuration and of the findings, the same
    report is written. -/
theorem report_canonical {rules : List Rule} (same : rules.Perm registry) {entries entries' : List (String × String)}
    (walks : entries.Perm entries') (keys : (entries.map (·.1)).Nodup) (config path : String) (data : List UInt8) (m : Lint.Manifest) :
    (loadOverrides config entries).toOption.map (lintBy rules · m) = (loadOverrides config entries').toOption.map (lint · m) ∧
      ∀ opts,Canonical path (located nodes decode data (lint opts m)) := by
  constructor
  · rw [lintBy_walks walks keys]
    refine congrArg (Option.map · _) (funext fun opts => ?_)
    exact lintBy_perm same opts m
  · intro opts
    refine (render_canonical path _).mpr fun f member g other field ruleId => ?_
    obtain ⟨found,listed,rfl⟩ := List.mem_map.mp member
    obtain ⟨found',listed',rfl⟩ := List.mem_map.mp other
    have apart := apart_findings (fun r (listed : r ∈ registry) => listed) opts m
    have here : found = found' := by
      refine apart found ?_ found' ?_ field ruleId
      · exact (List.mergeSort_perm _ _).mem_iff.mp listed
      · exact (List.mergeSort_perm _ _).mem_iff.mp listed'
    rw [here]

end

/-! ### System roots -/

/-- A walk from the root keeps no `..`. -/
theorem foldl_cleanStep {pieces kept : List (List Char)} (down : ['.','.'] ∉ kept) :
    pieces.foldl (cleanStep true) kept = walk kept pieces := by
  induction pieces generalizing kept with
  | nil => rfl
  | cons piece rest ih =>
    have same : cleanStep true kept piece = enter kept piece := by
      unfold cleanStep enter
      by_cases still : piece = [] ∨ piece = ['.']
      · rw [if_pos still,if_pos still]
      · rw [if_neg still,if_neg still]
        by_cases up : piece = ['.','.']
        · have last : kept.getLast? ≠ some ['.','.'] := fun last => down (List.mem_of_getLast? last)
          rw [if_pos up,if_pos up]
          by_cases empty : kept = []
          · rw [if_neg (fun both => both.1 empty),if_pos rfl,empty]
            rfl
          · rw [if_pos ⟨empty,last⟩]
        · rw [if_neg up,if_neg up]
    have later : ['.','.'] ∉ enter kept piece := by
      unfold enter
      split_ifs with still up
      · exact down
      · exact fun member => down (List.mem_of_mem_dropLast member)
      · intro member
        rcases List.mem_append.mp member with member | member
        · exact down member
        · exact up (List.mem_singleton.mp member).symm
    rw [List.foldl_cons,same,ih later]
    rfl

theorem clean_absolute {path : String} (absolute : isAbsolute path = true) : clean path = "/" ++ pathOf (Paths.normalize path) := by
  have walked : (segments path).foldl (cleanStep true) [] = walk [] (segments path) := foldl_cleanStep List.not_mem_nil
  simp only [clean,absolute,if_true,walked,Paths.normalize]

theorem systemRoots_flat : ∀ root ∈ systemRoots,root.toList.count '/' = 1 := by decide

/-- A system root is no deeper than one directory. -/
theorem normalize_root {path : String} (absolute : isAbsolute path = true) (root : isSystemRoot path = true) :
    (Paths.normalize path).length ≤ 1 := by
  have flat := systemRoots_flat _ (of_decide_eq_true root)
  rw [clean_absolute absolute,String.toList_append,pathOf,String.toList_ofList] at flat
  generalize Paths.normalize path = dirs at flat ⊢
  rcases dirs with _ | ⟨first,_ | ⟨second,rest⟩⟩
  · exact Nat.zero_le _
  · exact Nat.le_refl _
  · rw [List.intercalate_cons_cons] at flat
    simp at flat

/-- A spelling of a system root that does not go up. -/
structure NamesSystemRoot (path : String) : Prop where
  absolute : isAbsolute path = true
  down : ['.','.'] ∉ segments path
  root : isSystemRoot path = true

/-- What covers a system root is one. -/
theorem NamesSystemRoot.parent {path parent : String} (named : NamesSystemRoot path) (absolute : isAbsolute parent = true)
    (covers : parent = path ∨ parent = "/" ∨ (parent ++ "/").toList <+: path.toList) : isSystemRoot parent = true := by
  rcases covers with rfl | rfl | ⟨rest,same⟩
  · exact named.root
  · decide
  · obtain rfl : parent ++ "/" ++ String.ofList rest = path := String.toList_injective (by rw [String.toList_append,String.toList_ofList,same])
    have down := named.down
    rw [segments_join] at down
    have above := prefix_walk (fun up => down (List.mem_append_right _ up)) (Paths.normalize parent)
    rw [← normalize_join] at above
    have short := normalize_root named.absolute named.root
    have root := named.root
    rw [isSystemRoot,clean_absolute named.absolute] at root
    rw [isSystemRoot,clean_absolute absolute]
    cases dirs : Paths.normalize parent with
    | nil => decide
    | cons first more =>
      have equal : Paths.normalize parent = normalize (parent ++ "/" ++ String.ofList rest) := by
        refine above.eq_of_length (le_antisymm above.length_le ?_)
        rw [dirs,List.length_cons]
        omega
      rw [← dirs,equal]
      exact root

/-! ### What a manifest that passes decides -/

/-- A finding of the rule is an error. -/
def Raised (opts : Overrides) (id : String) : Prop := ∃ r ∈ registry,r.id = id ∧ r.severity opts = severityError

/-- What the decisions of the runtime are like when the rules that are raised find nothing. -/
structure Reviewed [Clock.Chrono] (opts : Overrides) (policy : Schema.Manifest) : Prop where
  reads : Raised opts "AEGIS001" → ∀ path,NamesSystemRoot path → (checkFilesystemRead policy path).kind = .Deny
  writes : Raised opts "AEGIS002" → ∀ path now sessionStart decision,NamesSystemRoot path →
    checkFilesystemWrite policy path now sessionStart = .ok decision → decision.kind ≠ .Deny → ∃ g ∈ policy.writeGrants,names path .Write g
  execs : Raised opts "AEGIS003" → ∀ program,checkExec policy program = .Allow →
    ∃ g ∈ policy.execGrants,'/' ∈ g.program.toList ∧ components g.program = components program
  egress : Raised opts "AEGIS004" → ∀ host port protocol,checkNetworkOutbound policy host port protocol = .Allow →
    ∃ allowlist,outbound policy = some (.Allowlist allowlist) ∧ allowlist.any (matchesAllowEntry · host port protocol)
  files : Raised opts "AEGIS005" → ∀ path now sessionStart decision,checkFilesystemDelete policy path now sessionStart = .ok decision →
    decision.kind ≠ .Deny → path.toList.getLast? ≠ some '/'
  ends : Raised opts "AEGIS006" → ∀ path sessionStart,∃ last,∀ now,last ≤ now → ∀ decision,
    checkFilesystemDelete policy path now sessionStart = .ok decision → decision.kind = .Deny

/-- A rule that is raised has found nothing where there are no errors. -/
theorem check_clear {opts : Overrides} {m : Lint.Manifest} (clean : hasErrors (lint opts m) = false) {r : Rule} (listed : r ∈ registry)
    (raised : r.severity opts = severityError) : r.check m = [] := by
  rw [List.eq_nil_iff_forall_not_mem]
  intro found checked
  let made : Finding := { found with
    ruleId := r.id
    rationale := if found.rationale = "" then r.rationale else found.rationale
    severity := r.severity opts }
  have member : made ∈ lint opts m :=
    (List.mergeSort_perm _ _).mem_iff.mpr (List.mem_flatMap.mpr ⟨r,listed,List.mem_map.mpr ⟨found,checked,rfl⟩⟩)
  have error : hasErrors (lint opts m) = true := List.any_eq_true.mpr ⟨made,member,decide_eq_true raised⟩
  rw [clean] at error
  cases error

theorem raised_clear {opts : Overrides} {m : Lint.Manifest} (clean : hasErrors (lint opts m) = false) {i : Nat} {r : Rule}
    (listed : registry[i]? = some r) (raised : Raised opts r.id) : r.check m = [] := by
  obtain ⟨q,listed',same,severity⟩ := raised
  rw [registry_apart listed' (List.mem_of_getElem? listed) same] at severity
  exact check_clear clean (List.mem_of_getElem? listed) severity

theorem kind_deny {decision : Decision} : decision.kind = .Deny ↔ ∃ reason,decision = .Deny reason := by
  cases decision <;> simp [Decision.kind]

theorem pathsCover_root {path : String} {parents : List String} (named : NamesSystemRoot path)
    (absolute : ∀ parent ∈ parents,isAbsolute parent = true) (clear : ∀ parent ∈ parents,isSystemRoot parent = false) :
    pathsCover path parents = false := by
  by_contra covered
  obtain ⟨parent,listed,covers⟩ := pathsCover_iff.mp (by simpa using covered)
  have root := named.parent (absolute parent listed) covers
  rw [clear parent listed] at root
  cases root

/-- The manifest that the linter sees. -/
def linted (doc : Document) : Lint.Manifest :=
  ⟨GoManifest.ofDocument doc.toManifest,doc.agent,doc.identity,doc.approvalAuthorities,doc.inference⟩

theorem listed_absolute {doc : Document} (valid : doc.schemaValid = true) :
    (∀ path ∈ readPaths doc.toManifest,isAbsolute path = true) ∧ ∀ path ∈ writePaths doc.toManifest,isAbsolute path = true := by
  cases present : doc.tools.filesystem with
  | none => simp [readPaths,writePaths,present]
  | some fs =>
    simp only [readPaths,writePaths,present,Option.map_some,Option.getD_some]
    exact ⟨fun path listed => schemaValid_absolute valid present (.inl listed),fun path listed => schemaValid_absolute valid present (.inr listed)⟩

/-- Grants that the linter sees bounded have a bound. -/
theorem bounded_ofWriteGrant {g : WriteGrant}
    (timed : ((GoManifest.ofWriteGrant g).duration = "" && (GoManifest.ofWriteGrant g).expiresAt = "") = false) :
    g.duration ≠ none ∨ g.expiresAt ≠ none := by
  by_contra both
  rw [not_or,not_not,not_not] at both
  simp [GoManifest.ofWriteGrant,both.1,both.2] at timed

section
variable [Clock.Chrono]

/-- A grant with a bound is over at some time. -/
theorem bounded_ends {g : WriteGrant} (bounded : g.duration ≠ none ∨ g.expiresAt ≠ none) (sessionStart : Int) :
    ∃ last,∀ now,last ≤ now → grantTimeValid g now sessionStart ≠ .ok true := by
  by_cases expires : g.expiresAt = none
  · obtain ⟨text,duration⟩ := Option.ne_none_iff_exists'.mp (bounded.resolve_right fun some => some expires)
    cases read : Clock.parseIso8601Duration text with
    | error panic => exact ⟨0,fun now _ => by simp [grantTimeValid,beforeExpiry,expires,withinDuration,duration,read]⟩
    | ok dur =>
      cases dur with
      | none => exact ⟨0,fun now _ => by simp [grantTimeValid,beforeExpiry,expires,withinDuration,duration,read]⟩
      | some dur =>
        refine ⟨sessionStart+dur,fun now later => ?_⟩
        have past : ¬ now-sessionStart < dur := by omega
        simp [grantTimeValid,beforeExpiry,expires,withinDuration,duration,read,past]
  · obtain ⟨text,expires⟩ := Option.ne_none_iff_exists'.mp expires
    cases read : Clock.Chrono.parse text with
    | none => exact ⟨0,fun now _ => by simp [grantTimeValid,beforeExpiry,expires,read]⟩
    | some exp =>
      refine ⟨exp,fun now later => ?_⟩
      have past : ¬ now < exp := by omega
      simp [grantTimeValid,beforeExpiry,expires,read,past]

/-- The grant that decides is listed and in its window. -/
theorem findValid_found {grants : List WriteGrant} {now sessionStart : Int} {g : WriteGrant}
    (found : findValid now sessionStart grants = .ok (some g)) : g ∈ grants ∧ grantTimeValid g now sessionStart = .ok true := by
  obtain ⟨h,member,inWindow⟩ := List.exists_of_findSome?_eq_some (Passage.findValid_some.mp found)
  obtain ⟨rfl,valid⟩ := Passage.window_ok.mp inWindow
  exact ⟨member,valid⟩

theorem all_end {grants : List WriteGrant} (bounded : ∀ g ∈ grants,g.duration ≠ none ∨ g.expiresAt ≠ none) (sessionStart : Int) :
    ∃ last,∀ now,last ≤ now → ∀ g ∈ grants,grantTimeValid g now sessionStart ≠ .ok true := by
  induction grants with
  | nil => exact ⟨0,fun _ _ g member => by cases member⟩
  | cons g rest ih =>
    obtain ⟨last,past⟩ := bounded_ends (bounded g List.mem_cons_self) sessionStart
    obtain ⟨last',past'⟩ := ih fun other member => bounded other (List.mem_cons_of_mem _ member)
    refine ⟨max last last',fun now later other member => ?_⟩
    rcases List.mem_cons.mp member with rfl | member
    · exact past now (le_trans (le_max_left _ _) later)
    · exact past' now (le_trans (le_max_right _ _) later) other member

theorem classify_valid {m : Schema.Manifest} {path : String} {want : WriteAction} {now sessionStart : Int} {g : WriteGrant}
    (classified : classifyWriteGrant m path want now sessionStart = .ok (.Valid g)) :
    g ∈ m.writeGrants ∧ names path want g = true ∧ grantTimeValid g now sessionStart = .ok true := by
  simp only [classifyWriteGrant] at classified
  by_cases unnamed : m.writeGrants.filter (names path want) = []
  · rw [if_pos unnamed] at classified
    cases classified
  rw [if_neg unnamed] at classified
  cases found : findValid now sessionStart (m.writeGrants.filter (names path want)) with
  | error panic => rw [found] at classified; cases classified
  | ok first =>
    rw [found] at classified
    cases first with
    | none => cases classified
    | some g' =>
      cases classified
      obtain ⟨member,valid⟩ := findValid_found found
      exact ⟨(List.mem_filter.mp member).1,(List.mem_filter.mp member).2,valid⟩

/-- A delete that is not denied has a grant in its window. -/
theorem delete_granted {m : Schema.Manifest} {path : String} {now sessionStart : Int} {decision : Decision}
    (decided : checkFilesystemDelete m path now sessionStart = .ok decision) (passes : decision.kind ≠ .Deny) :
    ∃ g ∈ m.writeGrants,names path .Delete g = true ∧ grantTimeValid g now sessionStart = .ok true := by
  rw [checkFilesystemDelete] at decided
  cases classified : classifyWriteGrant m path .Delete now sessionStart with
  | error panic => rw [classified] at decided; cases decided
  | ok grant =>
    rw [classified] at decided
    cases grant with
    | None => cases decided; exact absurd rfl passes
    | Expired => cases decided; exact absurd rfl passes
    | Valid g =>
      obtain ⟨member,named,valid⟩ := classify_valid classified
      exact ⟨g,member,named,valid⟩

theorem write_granted {m : Schema.Manifest} {path : String} {now sessionStart : Int} {decision : Decision}
    (decided : checkFilesystemWrite m path now sessionStart = .ok decision) (passes : decision.kind ≠ .Deny) :
    (∃ g ∈ m.writeGrants,names path .Write g = true) ∨ pathsCover path (writePaths m) = true := by
  rw [checkFilesystemWrite] at decided
  cases classified : classifyWriteGrant m path .Write now sessionStart with
  | error panic => rw [classified] at decided; cases decided
  | ok grant =>
    rw [classified] at decided
    cases grant with
    | Expired => cases decided; exact absurd rfl passes
    | Valid g =>
      obtain ⟨member,named,-⟩ := classify_valid classified
      exact .inl ⟨g,member,named⟩
    | None =>
      dsimp only at decided
      by_cases covered : pathsCover path (writePaths m) = true
      · exact .inr covered
      · rw [if_neg covered] at decided
        cases decided
        exact absurd rfl passes

omit [Clock.Chrono] in
theorem outboundMode_open {doc : Document} (policy : outbound doc.toManifest = some (.Mode .Allow)) :
    outboundMode (linted doc) = some .Allow := by
  obtain ⟨n,present,same⟩ := Option.bind_eq_some_iff.mp policy
  have here : (linted doc).tools.network = some ⟨n.outbound.map GoManifest.ofNetworkPolicy,n.inbound.map GoManifest.ofNetworkPolicy⟩ := by
    rw [linted,GoManifest.ofDocument,GoManifest.ofTools]
    dsimp only
    rw [present,Option.map_some]
  rw [outboundMode,here,Option.bind_some,same]
  rfl

theorem reviewed {opts : Overrides} {doc : Document} (valid : doc.schemaValid = true) (clean : hasErrors (lint opts (linted doc)) = false) :
    Reviewed opts doc.toManifest := by
  obtain ⟨reads,writes⟩ := listed_absolute valid
  refine ⟨fun raised path named => ?_,fun raised path now sessionStart decision named decided passes => ?_,fun raised program allowed => ?_,
    fun raised host port protocol allowed => ?_,fun raised path now sessionStart decision decided passes => ?_,fun raised path sessionStart => ?_⟩
  · have clear : ruleFilesystemRead (linted doc) = [] := raised_clear clean (i := 0) rfl raised
    rw [ruleFilesystemRead,flagged_nil,show GoManifest.readPaths (linted doc).toManifest = readPaths doc.toManifest from
      Conformance.readPaths_ofDocument _] at clear
    rw [checkFilesystemRead,if_neg (by rw [pathsCover_root named reads clear]; exact Bool.false_ne_true)]
    rfl
  · have clear : ruleFilesystemWrite (linted doc) = [] := raised_clear clean (i := 1) rfl raised
    rw [ruleFilesystemWrite,flagged_nil,show GoManifest.writePaths (linted doc).toManifest = writePaths doc.toManifest from
      Conformance.writePaths_ofDocument _] at clear
    rcases write_granted decided passes with granted | covered
    · exact granted
    · rw [pathsCover_root named writes clear] at covered
      cases covered
  · have clear : ruleExecBasenameWithoutApproval (linted doc) = [] := raised_clear clean (i := 2) rfl raised
    rw [checkExec] at allowed
    split_ifs at allowed with granted
    obtain ⟨-,unasked⟩ := upgradeForApproval_allow.mp allowed
    rw [ruleExecBasenameWithoutApproval,if_neg (show ApprovalClass.AnyExec ∉ (linted doc).approvalRequiredFor from unasked),flagged_nil] at clear
    obtain ⟨g,listed,same⟩ := List.any_eq_true.mp granted
    have slash : '/' ∈ g.program.toList := by
      simpa using clear ⟨g.program,g.argsMatch.getD ""⟩ (List.mem_map.mpr ⟨g,listed,rfl⟩)
    rw [programMatches,if_pos slash] at same
    exact ⟨g,listed,slash,of_decide_eq_true same⟩
  · have clear : ruleOutboundAllowWithoutApproval (linted doc) = [] := raised_clear clean (i := 3) rfl raised
    obtain ⟨open_,unasked⟩ := upgradeForApproval_allow.mp allowed
    have asks : ApprovalClass.AnyNetworkOutbound ∉ (linted doc).approvalRequiredFor := unasked
    rw [ruleOutboundAllowWithoutApproval,whole_nil,decide_eq_true asks,Bool.and_true,decide_eq_false_iff_not] at clear
    cases policy : outbound doc.toManifest with
    | none => rw [policy] at open_; cases open_
    | some policy' =>
      rw [policy] at open_
      cases policy' with
      | Mode mode =>
        cases mode with
        | Deny => cases open_
        | Allow => exact absurd (outboundMode_open policy) clear
      | Allowlist allowlist =>
        rw [networkDecision] at open_
        split_ifs at open_ with listed
        exact ⟨allowlist,rfl,listed⟩
  · have clear : ruleWriteGrantDirectory (linted doc) = [] := raised_clear clean (i := 4) rfl raised
    rw [ruleWriteGrantDirectory,flagged_nil] at clear
    obtain ⟨g,listed,named,-⟩ := delete_granted decided passes
    have single := clear (GoManifest.ofWriteGrant g) (List.mem_map.mpr ⟨g,listed,rfl⟩)
    obtain ⟨rfl,-⟩ : g.resource = path ∧ g.actions.contains .Delete = true := by simpa [names] using named
    exact of_decide_eq_false single
  · have clear : ruleWriteGrantEternal (linted doc) = [] := raised_clear clean (i := 5) rfl raised
    rw [ruleWriteGrantEternal,flagged_nil] at clear
    have bounded : ∀ g ∈ doc.writeGrants,g.duration ≠ none ∨ g.expiresAt ≠ none := fun g listed =>
      bounded_ofWriteGrant (clear (GoManifest.ofWriteGrant g) (List.mem_map.mpr ⟨g,listed,rfl⟩))
    obtain ⟨last,past⟩ := all_end bounded sessionStart
    refine ⟨last,fun now later decision decided => ?_⟩
    by_contra passes
    obtain ⟨g,listed,-,valid⟩ := delete_granted decided passes
    exact past now later g listed valid

end

/-! ### What the findings mean -/

/-- What the rules find is open: it is what the decisions of the runtime allow. -/
structure Exposed [Clock.Chrono] (doc : Document) : Prop where
  reads : ∀ f ∈ ruleFilesystemRead (linted doc),∃ i p,(readPaths doc.toManifest)[i]? = some p ∧ f.field = indexed "tools.filesystem.read" "" i ∧
    isSystemRoot p = true ∧ checkFilesystemRead doc.toManifest p = .Allow ∧ ∀ below,checkFilesystemRead doc.toManifest (p ++ "/" ++ below) = .Allow
  execs : ∀ f ∈ ruleExecBasenameWithoutApproval (linted doc),∃ i g,doc.execGrants[i]? = some g ∧ f.field = indexed "exec_grants" ".program" i ∧
    (g.program ≠ "." → g.program ≠ ".." → ∀ dir,checkExec doc.toManifest (dir ++ "/" ++ g.program) = .Allow)
  egress : ruleOutboundAllowWithoutApproval (linted doc) ≠ [] → ∀ host port protocol,checkNetworkOutbound doc.toManifest host port protocol = .Allow
  writes : ruleWriteWithoutApproval (linted doc) ≠ [] → writePaths doc.toManifest ≠ [] ∧ ∀ p ∈ writePaths doc.toManifest,∀ below now sessionStart,
    (∀ g ∈ doc.writeGrants,names (p ++ "/" ++ below) .Write g = false) →
      checkFilesystemWrite doc.toManifest (p ++ "/" ++ below) now sessionStart = .ok .Allow
  tools : ∀ f ∈ ruleMCPEmptyAllowedTools (linted doc),∃ i server,doc.tools.mcp[i]? = some server ∧ f.field = indexed "tools.mcp" ".allowed_tools" i ∧
    (serverGrant doc.toManifest server.serverName = some server → ∀ tool,(checkMcpTool doc.toManifest server.serverName tool).kind = .Deny)

theorem pathsCover_below {parent : String} {parents : List String} (listed : parent ∈ parents) (below : String) :
    pathsCover (parent ++ "/" ++ below) parents = true :=
  pathsCover_iff.mpr ⟨parent,listed,.inr (.inr ⟨below.toList,by simp⟩)⟩

/-- The last piece of a path below a directory. -/
theorem base_below (dir name : List Char) (nonempty : name ≠ []) (plain : '/' ∉ name) : base (dir ++ '/' :: name) = name := by
  have last : (dir ++ '/' :: name).rdropWhile (· = '/') = dir ++ '/' :: name := by
    rw [List.rdropWhile_eq_self_iff]
    intro present
    rw [List.getLast_append_of_ne_nil _ (List.cons_ne_nil _ _),List.getLast_cons nonempty]
    have other : name.getLast nonempty ≠ '/' := fun same => plain (same ▸ List.getLast_mem nonempty)
    simpa using other
  have piece : (dir ++ '/' :: name).rtakeWhile (· ≠ '/') = name := by
    rw [List.rtakeWhile,List.reverse_append,List.reverse_cons,List.append_assoc,List.takeWhile_append_of_pos]
    · simp
    · intro c member
      have other : c ≠ '/' := fun same => plain (same ▸ List.mem_reverse.mp member)
      simpa using other
  rw [base,if_neg (by simp),last]
  dsimp only
  rw [piece,if_neg nonempty]

theorem programMatches_below {grantProgram : String} (bare : '/' ∉ grantProgram.toList) (nonempty : grantProgram ≠ "")
    (dot : grantProgram ≠ ".") (dots : grantProgram ≠ "..") (dir : String) : programMatches grantProgram (dir ++ "/" ++ grantProgram) = true := by
  have path : (dir ++ "/" ++ grantProgram).toList = dir.toList ++ '/' :: grantProgram.toList := by simp
  have piece := base_below dir.toList grantProgram.toList (by simpa using nonempty) bare
  rw [← path] at piece
  rw [programMatches,if_neg bare,decide_eq_true_iff]
  refine (fileName_base ?_ ?_ bare).mpr piece
  · rw [piece]
    exact fun same => dot (String.toList_injective same)
  · rw [piece]
    exact fun same => dots (String.toList_injective same)

theorem outbound_open {doc : Document} (mode : outboundMode (linted doc) = some .Allow) : outbound doc.toManifest = some (.Mode .Allow) := by
  obtain ⟨n,present,opens⟩ := Option.bind_eq_some_iff.mp mode
  have here : doc.tools.network.map (fun n => (⟨n.outbound.map GoManifest.ofNetworkPolicy,n.inbound.map GoManifest.ofNetworkPolicy⟩ :
      GoManifest.Network)) = some n := present
  obtain ⟨n',present',rfl⟩ := Option.map_eq_some_iff.mp here
  obtain ⟨policy,same,opens⟩ := Option.map_eq_some_iff.mp opens
  obtain ⟨policy',same',rfl⟩ := Option.map_eq_some_iff.mp same
  rw [outbound,present',Option.bind_some,same']
  cases policy' with
  | Mode m =>
    cases m with
    | Deny => cases opens
    | Allow => rfl
  | Allowlist allowlist => cases opens

section
variable [Clock.Chrono] [Json.Serde] [Ledger.Sha256] [Engine.Identity] [Engine.World] [Adversarial.PerlWord]
open Engine Mediator Frames Mediation

/-- The effect was resolved by an approval in its call. -/
def Approved (s : Session) (call : Call) (pre : List Event) : Prop :=
  ∃ before later resourceUri op,pre = before ++ later ∧ operationOf resourceUri call = some op ∧ Approval.Resolved s op later

/-- What the rules that are raised say of an effect. -/
def Sanctioned (opts : Overrides) (policy : Schema.Manifest) (last : String → Int) (approved : Prop) (pre : List Event) : Effect → Prop
  | .FsRead path => Raised opts "AEGIS001" → ¬ NamesSystemRoot path
  | .FsWrite path _ => Raised opts "AEGIS002" → NamesSystemRoot path → ∃ g ∈ policy.writeGrants,names path .Write g
  | .FsRemove path => (Raised opts "AEGIS005" → path.toList.getLast? ≠ some '/') ∧
    (Raised opts "AEGIS006" → ∃ now < last path,.UtcNow now ∈ pre)
  | .Connect host port => Raised opts "AEGIS004" → approved ∨
    ∃ allowlist protocol,outbound policy = some (.Allowlist allowlist) ∧ allowlist.any (matchesAllowEntry · host port protocol)
  | .Spawn program _ => Raised opts "AEGIS003" → approved ∨
    ∃ g ∈ policy.execGrants,'/' ∈ g.program.toList ∧ components g.program = components program
  | .CallTool _ _ _ _ => True

omit [Adversarial.PerlWord] in
theorem sanctioned_mediated {opts : Overrides} {booted s : Session} (review : Reviewed opts booted.policy) {last : String → Int}
    (ends : Raised opts "AEGIS006" → ∀ path now,last path ≤ now → ∀ decision,
      checkFilesystemDelete booted.policy path now booted.sessionStart = .ok decision → decision.kind = .Deny)
    {call : Call} {effect : Effect} {checked decided later : List Event} (mediated : Mediated booted s call effect checked decided later) :
    Sanctioned opts booted.policy last (Approved s call (checked ++ decided ++ later)) (checked ++ decided ++ later) effect := by
  obtain ⟨decision,decides,allowed⟩ := mediated.decision
  have passes : decision.kind ≠ .Deny := by
    rcases allowed with rfl | ⟨summary,rfl,-⟩ <;> exact fun same => by cases same
  have approves : decision ≠ .Allow → Approved s call (checked ++ decided ++ later) := by
    intro other
    rcases allowed with rfl | ⟨summary,-,resourceUri,op,operation,resolved⟩
    · exact absurd rfl other
    · exact ⟨checked ++ decided,later,resourceUri,op,rfl,operation,resolved⟩
  have effects := mediated.effect
  cases call with
  | FilesystemRead path rsid =>
    obtain rfl := Option.some.inj effects
    intro raised named
    rw [decides.2] at passes
    exact passes (review.reads raised path named)
  | FilesystemWrite path contents rsid =>
    obtain rfl := Option.some.inj effects
    intro raised named
    obtain ⟨now,-,checks⟩ := decides
    exact review.writes raised path now _ decision named checks passes
  | FilesystemDelete path rsid =>
    obtain rfl := Option.some.inj effects
    obtain ⟨now,clock,checks⟩ := decides
    refine ⟨fun raised => review.files raised path now _ decision checks passes,fun raised => ⟨now,?_,?_⟩⟩
    · by_contra late
      exact passes (ends raised path now (not_lt.mp late) decision checks)
    · rw [clock]
      simp
  | NetworkConnect host port proto rsid =>
    obtain rfl := Option.some.inj effects
    intro raised
    by_cases allow : decision = .Allow
    · obtain ⟨allowlist,same,listed⟩ := review.egress raised host port proto (decides.2.symm.trans allow)
      exact .inr ⟨allowlist,proto,same,listed⟩
    · exact .inl (approves allow)
  | McpToolCall serverName toolName args rsid =>
    obtain ⟨grant,-,rfl⟩ := Option.map_eq_some_iff.mp effects
    trivial
  | Exec program args rsid =>
    obtain rfl := Option.some.inj effects
    intro raised
    by_cases allow : decision = .Allow
    · exact .inr (review.execs raised program (decides.2.symm.trans allow))
    · exact .inl (approves allow)

end

section
open Reference Engine

/-- A manifest that grants reads of one directory. -/
def readingDocument : Document := ⟨reading,⟨"agent"⟩,⟨"spiffe://aegis-node.local/agent/agent/one"⟩,[],none⟩

/-- There is the manifest, and no configuration. -/
def readingHost : Host where
  readFile path := if path = "m.yaml" then .Data [] else .NotExist
  document _ _ := .ok readingDocument
  schemaError _ _ := ""
  configFile _ := .ok []

def readingFlags : Flags := { args := ["m.yaml"] }

theorem report_backwards :
    (loadOverrides ".aegis-validate.yaml" [("AEGIS006","error"),("AEGIS010","warn")]).toOption.map (lintBy registry.reverse · (linted readingDocument)) =
        (loadOverrides ".aegis-validate.yaml" [("AEGIS010","warn"),("AEGIS006","error")]).toOption.map (lint · (linted readingDocument)) ∧
      ∀ opts,Canonical "m.yaml" (located Empty.elim (fun _ => none) [] (lint opts (linted readingDocument))) :=
  report_canonical Empty.elim (fun _ => none) (List.reverse_perm registry) (List.Perm.swap _ _ _) (by decide) _ _ _ _

/-- A manifest that five of the rules object to. -/
def openDocument : Document where
  toManifest := { Schema.closed with
    tools := ⟨some ⟨["/etc"],["/srv"],none,none⟩,some ⟨some (.Mode .Allow),none,none,none⟩,[],[⟨"files","stdio:/bin/files",[],none,none⟩],none⟩
    execGrants := [⟨"bash",none⟩] }
  agent := ⟨"agent"⟩
  identity := ⟨"spiffe://aegis-node.local/agent/agent/one"⟩
  approvalAuthorities := []
  inference := none

theorem lint_reading : lint [] (linted readingDocument) = [] := by
  have none_ : registry.flatMap (·.findings [] (linted readingDocument)) = [] := by decide +kernel
  rw [lint,lintBy,none_,sorted,List.mergeSort_nil]

theorem reading_passes : (runValidate Empty.elim (fun _ => none) readingHost readingFlags).exit = 0 := by
  have passed : Passed readingHost readingFlags "m.yaml" [] readingDocument [] :=
    ⟨rfl,rfl,rfl,by decide,rfl,by rw [show (⟨_,_,_,_,_⟩ : Lint.Manifest) = linted readingDocument from rfl,lint_reading]; rfl⟩
  exact runValidate_exit Empty.elim _ rfl (show OutputFormat.parse "text" = .ok .Text from rfl) passed

end

end AegisNode.Validate
