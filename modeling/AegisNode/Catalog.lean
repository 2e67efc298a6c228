import AegisNode.Turn

/-!
The catalog against the policy: which native tools the model is offered, and for which
of them some call is let through when the session starts.
-/
namespace AegisNode.Catalog
open Text Paths Clock Json Schema Policy Backend Turn

/-- The tools whose calls the native mediators take. -/
inductive NativeTool where
  | FilesystemRead
  | FilesystemWrite
  | FilesystemDelete
  | NetworkConnect
  | ExecRun
  deriving DecidableEq,Repr

def NativeTool.name : NativeTool → String
  | .FilesystemRead => "filesystem__read"
  | .FilesystemWrite => "filesystem__write"
  | .FilesystemDelete => "filesystem__delete"
  | .NetworkConnect => "network__connect"
  | .ExecRun => "exec__run"

/-- The catalog has an entry with the name of the tool. -/
def Offers (m : Manifest) (tool : NativeTool) : Prop := ∃ decl ∈ toolCatalog m,decl.name = tool.name

/-- An MCP entry has the name of the tool. -/
def Spelled (m : Manifest) (tool : NativeTool) : Prop := ∃ decl ∈ mcpDecls m,decl.name = tool.name

/-- The check of the tool at the start of the session does not deny every call. -/
def Permits [Chrono] (m : Manifest) (sessionStart : Int) : NativeTool → Prop
  | .FilesystemRead => ∃ path,(checkFilesystemRead m path).kind ≠ .Deny
  | .FilesystemWrite => ∃ path decision,
      checkFilesystemWrite m path sessionStart sessionStart = .ok decision ∧ decision.kind ≠ .Deny
  | .FilesystemDelete => ∃ path decision,
      checkFilesystemDelete m path sessionStart sessionStart = .ok decision ∧ decision.kind ≠ .Deny
  | .NetworkConnect => ∃ host port protocol,(checkNetworkOutbound m host port protocol).kind ≠ .Deny
  | .ExecRun => ∃ program,(checkExec m program).kind ≠ .Deny

/-- The manifest has something on the tool, and yet nothing that lets a call through: only
    grants that are not in force, a network policy without a host, programs that no path
    has as its file name. -/
def Idle [Chrono] (m : Manifest) (sessionStart : Int) : NativeTool → Prop
  | .FilesystemWrite => writePaths m = [] ∧ m.writeGrants ≠ [] ∧
      ∀ path grant,classifyWriteGrant m path .Write sessionStart sessionStart ≠ .ok (.Valid grant)
  | .NetworkConnect => outbound m = some (.Mode .Deny) ∨ outbound m = some (.Allowlist [])
  | .ExecRun => m.execGrants ≠ [] ∧ ∀ grant ∈ m.execGrants,grant.program = "" ∨ grant.program = "." ∨ grant.program = ".."
  | _ => False

/-! ### Entries -/

theorem offers_iff {m : Manifest} {tool : NativeTool} : Offers m tool ↔
    (∃ decl ∈ filesystemDecls m,decl.name = tool.name) ∨ (∃ decl ∈ networkDecls m,decl.name = tool.name) ∨
      (∃ decl ∈ execDecls m,decl.name = tool.name) ∨ Spelled m tool := by
  simp only [Offers,Spelled,toolCatalog,List.mem_append,or_and_right,exists_or,or_assoc]

/-- The names of the filesystem entries. -/
theorem filesystemDecls_name {m : Manifest} {name : String} : (∃ decl ∈ filesystemDecls m,decl.name = name) ↔
    (name = "filesystem__read" ∧ readPaths m ≠ []) ∨
      (name = "filesystem__write" ∧ m.tools.filesystem.isSome ∧ (writePaths m ≠ [] ∨ m.writeGrants ≠ [])) := by
  unfold filesystemDecls readPaths writePaths
  cases m.tools.filesystem with
  | none => simp
  | some fs =>
    by_cases read : fs.read = [] <;> by_cases write : fs.write = [] ∧ m.writeGrants = [] <;>
      simp [read,write,readDecl,writeDecl,eq_comm] <;> tauto

theorem networkDecls_name {m : Manifest} {name : String} : (∃ decl ∈ networkDecls m,decl.name = name) ↔
    name = "network__connect" ∧ (outbound m).isSome := by
  unfold networkDecls outbound
  split
  · rename_i set
    simp [set,connectDecl,eq_comm]
  · rename_i unset
    simp [unset]

theorem execDecls_name {m : Manifest} {name : String} : (∃ decl ∈ execDecls m,decl.name = name) ↔
    name = "exec__run" ∧ m.execGrants ≠ [] := by
  unfold execDecls
  split
  · rename_i none
    simp [none]
  · rename_i some
    simp [some,execDecl,eq_comm]

/-! ### Checks -/

theorem upgrade_denies {m : Manifest} {base : Decision} {cls : ApprovalClass} {reason : String} :
    (upgradeForApproval m base cls reason).kind = .Deny ↔ base.kind = .Deny := by
  rw [upgradeForApproval_kind]
  split
  · rename_i required
    simp [required.1]
  · rfl

theorem read_permitted [Chrono] {m : Manifest} {sessionStart : Int} :
    Permits m sessionStart .FilesystemRead ↔ readPaths m ≠ [] := by
  constructor
  · rintro ⟨path,permitted⟩ none
    apply permitted
    simp [checkFilesystemRead,none,pathsCover,Decision.kind]
  · intro some
    obtain ⟨parent,rest,paths⟩ := List.exists_cons_of_ne_nil some
    refine ⟨parent,?_⟩
    have covered : pathsCover parent (readPaths m) = true :=
      pathsCover_iff.mpr ⟨parent,by simp [paths],.inl rfl⟩
    rw [checkFilesystemRead_allow.mpr covered]
    intro denied
    cases denied

/-- A host, a port and a protocol that an entry of an allowlist accepts. -/
theorem entry_accepts (e : NetworkAllowEntry) : ∃ port protocol,matchesAllowEntry e e.host port protocol = true := by
  refine ⟨e.port.getD 0,.Any,?_⟩
  cases port : e.port <;> cases protocol : e.protocol <;> simp [matchesAllowEntry,port,protocol,protoCompatible]

theorem connect_permitted [Chrono] {m : Manifest} {sessionStart : Int} : Permits m sessionStart .NetworkConnect ↔
    (outbound m).isSome ∧ ¬ Idle m sessionStart .NetworkConnect := by
  simp only [Permits,Idle,checkNetworkOutbound,ne_eq,upgrade_denies]
  cases outbound m with
  | none => simp [networkDecision,Decision.kind]
  | some policy =>
    cases policy with
    | Mode mode =>
      cases mode with
      | Deny => simp [networkDecision,Decision.kind]
      | Allow => exact iff_of_true ⟨"",0,.Any,by simp [networkDecision,Decision.kind]⟩ (by simp)
    | Allowlist entries =>
      cases entries with
      | nil => simp [networkDecision,Decision.kind]
      | cons e rest =>
        obtain ⟨port,protocol,accepts⟩ := entry_accepts e
        refine iff_of_true ⟨e.host,port,protocol,?_⟩ (by simp)
        simp [networkDecision,accepts,Decision.kind]

/-- A path under the parent that is longer than the resource of any grant. -/
theorem unnamed_below (parent : String) (grants : List WriteGrant) (want : WriteAction) :
    ∃ path,pathsCover path [parent] = true ∧ grants.filter (names path want) = [] := by
  obtain ⟨n,longer⟩ : ∃ n,∀ g ∈ grants,g.resource.length < n := by
    induction grants with
    | nil => exact ⟨0,nofun⟩
    | cons g rest ih =>
      obtain ⟨n,longer⟩ := ih
      refine ⟨max n (g.resource.length+1),fun h member => ?_⟩
      rcases List.mem_cons.mp member with rfl | member
      · omega
      · have := longer h member
        omega
  refine ⟨parent ++ "/" ++ String.ofList (List.replicate n 'a'),?_,?_⟩
  · refine pathsCover_iff.mpr ⟨parent,List.mem_singleton_self _,.inr (.inr ?_)⟩
    exact ⟨List.replicate n 'a',by simp⟩
  · rw [List.filter_eq_nil_iff]
    intro g member named
    have same : g.resource = parent ++ "/" ++ String.ofList (List.replicate n 'a') := by
      simp only [names,Bool.and_eq_true,decide_eq_true_eq] at named
      exact named.1
    have length := longer g member
    rw [same] at length
    simp at length

theorem pathsCover_cons {path parent : String} {rest : List String} (covered : pathsCover path [parent] = true) :
    pathsCover path (parent :: rest) = true := by
  obtain ⟨only,member,covers⟩ := pathsCover_iff.mp covered
  cases List.mem_singleton.mp member
  exact pathsCover_iff.mpr ⟨parent,List.mem_cons_self,covers⟩

theorem writeDecision_permits (m : Manifest) (path : String) (g : WriteGrant) (action : WriteAction) :
    (writeDecision m path g action).kind ≠ .Deny := by
  unfold writeDecision
  cases action <;> dsimp only <;> split <;> simp [Decision.kind]

/-- Some write is let through: under a path of the list that no grant names, or where a
    grant is in force. -/
theorem write_permitted [Chrono] {m : Manifest} {sessionStart : Int} : Permits m sessionStart .FilesystemWrite ↔
    writePaths m ≠ [] ∨ ∃ path grant,classifyWriteGrant m path .Write sessionStart sessionStart = .ok (.Valid grant) := by
  constructor
  · rintro ⟨path,decision,checks,permitted⟩
    unfold checkFilesystemWrite at checks
    split at checks
    · cases checks
    · rename_i grant classified
      exact .inr ⟨path,grant,classified⟩
    · cases checks
      exact absurd rfl permitted
    · refine .inl fun none => ?_
      rw [none,if_neg (by simp [pathsCover])] at checks
      cases checks
      exact permitted rfl
  · rintro (some | ⟨path,grant,classified⟩)
    · obtain ⟨parent,rest,paths⟩ := List.exists_cons_of_ne_nil some
      obtain ⟨path,covered,unnamed⟩ := unnamed_below parent m.writeGrants .Write
      have classified : classifyWriteGrant m path .Write sessionStart sessionStart = .ok .None := by
        rw [classifyWriteGrant,if_pos unnamed]
      refine ⟨path,upgradeForApproval m .Allow .AnyWrite "any_write requires approval",?_,?_⟩
      · rw [checkFilesystemWrite,classified]
        dsimp only
        rw [paths,if_pos (pathsCover_cons covered)]
      · rw [ne_eq,upgrade_denies]
        simp [Decision.kind]
    · exact ⟨path,_,by rw [checkFilesystemWrite,classified],writeDecision_permits m path grant .Write⟩

/-- A program that no path has as its file name. -/
def Unrunnable (program : String) : Prop := program = "" ∨ program = "." ∨ program = ".."

theorem fileName_plain {name : String} (bare : '/' ∉ name.toList) (runnable : ¬ Unrunnable name) :
    fileName name = some name.toList := by
  have alone : segments name = [name.toList] := List.splitOn_eq_singleton bare
  have relative : isAbsolute name = false := by
    simp only [isAbsolute,decide_eq_false_iff_not]
    exact fun first => bare (List.mem_of_head? first)
  simp only [Unrunnable,not_or,← String.toList_inj] at runnable
  obtain ⟨nonempty,notDot,notDots⟩ := runnable
  have undotted : dotted (segments name) = false := by
    rw [alone]
    unfold dotted
    split
    · rename_i split
      exact absurd (List.head_eq_of_cons_eq split) notDot
    · rfl
  rw [fileName,components_eq,relative,undotted,alone]
  have component : component? name.toList = some (.Normal name.toList) := by
    rw [component?,if_neg (by tauto),if_neg (show ¬ name.toList = ['.','.'] from notDots)]
  simp [component]

/-- The file name of a path is never empty, `.` or `..`. -/
theorem fileName_runnable {query name : String} (named : fileName query = some name.toList) : ¬ Unrunnable name := by
  have normal : .Normal name.toList ∈ components query := by
    unfold fileName at named
    split at named
    · rename_i last found
      cases named
      exact List.mem_of_getLast? found
    · cases named
  rw [components_eq,List.mem_append] at normal
  rcases normal with start | found
  · split_ifs at start <;> simp at start
  · obtain ⟨piece,-,component⟩ := List.mem_filterMap.mp found
    simp only [component?,Option.ite_none_left_eq_some,not_or] at component
    obtain ⟨⟨nonempty,notDot⟩,component⟩ := component
    split_ifs at component with notDots
    · cases component
    · cases component
      simp only [Unrunnable,not_or,← String.toList_inj]
      exact ⟨nonempty,notDot,notDots⟩

/-- A grant matches something exactly if its program can be run. -/
theorem program_runs {program : String} : (∃ query,programMatches program query = true) ↔ ¬ Unrunnable program := by
  constructor
  · rintro ⟨query,runs⟩ unrunnable
    have bare : '/' ∉ program.toList := by
      rcases unrunnable with rfl | rfl | rfl <;> decide
    simp only [programMatches,if_neg bare,decide_eq_true_eq] at runs
    exact fileName_runnable runs unrunnable
  · intro runnable
    refine ⟨program,?_⟩
    unfold programMatches
    split
    · simp
    · rename_i bare
      simpa using fileName_plain bare runnable

theorem exec_permitted [Chrono] {m : Manifest} {sessionStart : Int} : Permits m sessionStart .ExecRun ↔
    m.execGrants ≠ [] ∧ ¬ Idle m sessionStart .ExecRun := by
  have permitted : ∀ program,(checkExec m program).kind ≠ .Deny ↔ ∃ g ∈ m.execGrants,programMatches g.program program = true := by
    intro program
    unfold checkExec
    split
    · rename_i matched
      rw [ne_eq,upgrade_denies]
      exact iff_of_true nofun (List.any_eq_true.mp matched)
    · rename_i unmatched
      exact iff_of_false (fun denied => denied rfl) fun found => unmatched (List.any_eq_true.mpr found)
  constructor
  · rintro ⟨program,some⟩
    obtain ⟨g,member,runs⟩ := (permitted program).mp some
    refine ⟨List.ne_nil_of_mem member,fun idle => ?_⟩
    exact program_runs.mp ⟨program,runs⟩ (idle.2 g member)
  · rintro ⟨some,busy⟩
    have : ∃ g ∈ m.execGrants,¬ Unrunnable g.program := by
      by_contra none
      push Not at none
      exact busy ⟨some,none⟩
    obtain ⟨g,member,runnable⟩ := this
    obtain ⟨query,runs⟩ := program_runs.mpr runnable
    exact ⟨query,(permitted query).mpr ⟨g,member,runs⟩⟩

/-! ### The catalog -/

/-- What the catalog is worth when the session starts: it misses no tool that lets a call
    through, apart from the deletions and the writes of a manifest without a filesystem
    section; and what it lists lets a call through or is idle. -/
structure Catalogued [Chrono] (m : Manifest) (sessionStart : Int) : Prop where
  complete : ∀ tool,Permits m sessionStart tool → tool ≠ .FilesystemDelete →
    (tool = .FilesystemWrite → m.tools.filesystem.isSome) → Offers m tool
  sound : ∀ tool,Offers m tool → Permits m sessionStart tool ∨ Idle m sessionStart tool ∨ Spelled m tool
  network : (outbound m).isSome → Offers m .NetworkConnect

theorem catalog_lists [Chrono] (m : Manifest) (sessionStart : Int) : Catalogued m sessionStart where
  complete tool permitted undeleting section_ := by
    rw [offers_iff,filesystemDecls_name,networkDecls_name,execDecls_name]
    cases tool with
    | FilesystemRead => exact .inl (.inl ⟨rfl,read_permitted.mp permitted⟩)
    | FilesystemWrite =>
      refine .inl (.inr ⟨rfl,section_ rfl,?_⟩)
      rcases write_permitted.mp permitted with some | ⟨path,grant,classified⟩
      · exact .inl some
      · refine .inr fun none => ?_
        rw [classifyWriteGrant,none] at classified
        cases classified
    | FilesystemDelete => exact absurd rfl undeleting
    | NetworkConnect => exact .inr (.inl ⟨rfl,(connect_permitted.mp permitted).1⟩)
    | ExecRun => exact .inr (.inr (.inl ⟨rfl,(exec_permitted.mp permitted).1⟩))
  sound tool offered := by
    rw [offers_iff,filesystemDecls_name,networkDecls_name,execDecls_name] at offered
    rcases offered with (⟨named,some⟩ | ⟨named,-,some⟩) | ⟨named,some⟩ | ⟨named,some⟩ | spelled
    · cases tool <;> first | exact absurd named (by decide) | exact .inl (read_permitted.mpr some)
    · cases tool <;> first | exact absurd named (by decide) | skip
      rw [write_permitted]
      by_cases covered : writePaths m = []
      · by_cases valid : ∃ path grant,classifyWriteGrant m path .Write sessionStart sessionStart = .ok (.Valid grant)
        · exact .inl (.inr valid)
        · push Not at valid
          exact .inr (.inl ⟨covered,some.resolve_left (not_not_intro covered),valid⟩)
      · exact .inl (.inl covered)
    · cases tool <;> first | exact absurd named (by decide) | skip
      rw [connect_permitted]
      tauto
    · cases tool <;> first | exact absurd named (by decide) | skip
      rw [exec_permitted]
      tauto
    · exact .inr (.inr spelled)
  network set := offers_iff.mpr (.inr (.inl (networkDecls_name.mpr ⟨rfl,set⟩)))

/-- A manifest that refuses every connection. -/
def unconnected : Manifest := { closed with tools := ⟨none,some ⟨some (.Mode .Deny),none,none,none⟩,[],[],none⟩ }

/-- Its catalog offers connections all the same. -/
theorem unconnected_offered :
    let _ := epochChrono
    ¬ ∀ (m : Manifest) (sessionStart : Int) (tool : NativeTool),Offers m tool ↔ Permits m sessionStart tool := by
  intro chrono every
  have offered := (catalog_lists unconnected 0).network rfl
  obtain ⟨-,busy⟩ := connect_permitted.mp ((every unconnected 0 .NetworkConnect).mp offered)
  exact busy (.inl rfl)

end AegisNode.Catalog
