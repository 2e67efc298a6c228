import AegisNode.Policy
import AegisNode.GoManifest

/-!
The two policy engines side by side: one operation asked of the Rust checks and,
as a query, of the Go `Decide`.
-/
namespace AegisNode.Conformance
open Text Paths Clock Schema Policy

/-- One I/O attempt in terms both engines understand. -/
inductive Operation where
  | FilesystemRead (path : String)
  | FilesystemWrite (path : String) (now sessionStart : Int)
  | FilesystemDelete (path : String) (now sessionStart : Int)
  | NetworkOutbound (host : String) (port : UInt16) (protocol : NetworkProto)
  | NetworkInbound (host : String) (port : UInt16) (protocol : NetworkProto)
  | Exec (program : String)
  | McpTool (server tool : String)
  deriving DecidableEq,Repr

/-- The Rust check of an operation. -/
def check [Chrono] (m : Manifest) : Operation → Checked Decision
  | .FilesystemRead path => .ok (checkFilesystemRead m path)
  | .FilesystemWrite path now sessionStart => checkFilesystemWrite m path now sessionStart
  | .FilesystemDelete path now sessionStart => checkFilesystemDelete m path now sessionStart
  | .NetworkOutbound host port protocol => .ok (checkNetworkOutbound m host port protocol)
  | .NetworkInbound host port protocol => .ok (checkNetworkInbound m host port protocol)
  | .Exec program => .ok (checkExec m program)
  | .McpTool server tool => .ok (checkMcpTool m server tool)

/-- The word a query carries for a protocol. -/
def protoText : NetworkProto → String
  | .Http => "http"
  | .Https => "https"
  | .Tcp => "tcp"
  | .Udp => "udp"
  | .Any => "any"

/-- The Go query of an operation. -/
def query : Operation → GoManifest.Query
  | .FilesystemRead path => { kind := .FilesystemRead,resourceURI := path }
  | .FilesystemWrite path now sessionStart =>
    { kind := .FilesystemWrite,resourceURI := path,now := now,sessionStart := sessionStart }
  | .FilesystemDelete path now sessionStart =>
    { kind := .FilesystemDelete,resourceURI := path,now := now,sessionStart := sessionStart }
  | .NetworkOutbound host port protocol =>
    { kind := .NetworkOutbound,host := host,port := port.toNat,protocol := protoText protocol }
  | .NetworkInbound host port protocol =>
    { kind := .NetworkInbound,host := host,port := port.toNat,protocol := protoText protocol }
  | .Exec program => { kind := .Exec,resourceURI := program }
  | .McpTool server tool => { kind := .MCPToolCall,mcpServer := server,mcpTool := tool }

/-- Rust answers, and both engines answer with the same kind. -/
def Agree [Chrono] (rust : Manifest) (go : GoManifest.Manifest) (op : Operation) : Prop :=
  (check rust op).map Decision.kind = .ok (GoManifest.decide go (query op)).kind

/-! ### Where the engines are comparable -/

/-- Both standard libraries read the bounds of a grant alike. -/
structure ComparableGrant [Chrono] (g : WriteGrant) : Prop where
  duration : ∀ text,g.duration = some text → text ≠ "" ∧ (isoRead text).1 ≤ maxDuration
  expires : ∀ text,g.expiresAt = some text → text ≠ "" ∧ Chrono.parse text = goParseRFC3339 text

/-- A clock anchor is given, and every grant that names the resource is comparable. -/
structure ComparableWrite [Chrono] (m : Manifest) (path : String) (want : WriteAction) (now sessionStart : Int) : Prop where
  clocked : now ≠ zeroTime
  started : sessionStart ≠ zeroTime
  grants : ∀ g ∈ m.writeGrants,names path want g = true → ComparableGrant g

/-- The program is spelled as a granted path or names a different file, and where
    bare names are granted its last piece is neither `.` nor `..`. -/
structure ComparableExec (m : Manifest) (program : String) : Prop where
  spelled : ∀ g ∈ m.execGrants,'/' ∈ g.program.toList → components g.program = components program → g.program = program
  named : ∀ g ∈ m.execGrants,'/' ∉ g.program.toList → base program.toList ≠ ['.'] ∧ base program.toList ≠ ['.','.']

def Comparable [Chrono] (m : Manifest) : Operation → Prop
  | .FilesystemRead _ => True
  | .FilesystemWrite path now sessionStart => ComparableWrite m path .Write now sessionStart
  | .FilesystemDelete path now sessionStart => ComparableWrite m path .Delete now sessionStart
  | .NetworkOutbound _ _ protocol => protocol ≠ .Any
  | .NetworkInbound _ _ protocol => protocol ≠ .Any
  | .Exec program => ComparableExec m program
  | .McpTool _ _ => True

/-! ### Paths and approval classes -/

private theorem any_agree {α : Type} {list : List α} {rust go : α → Bool} (same : ∀ a ∈ list,rust a = go a) :
    list.any rust = list.any go := by
  rw [Bool.eq_iff_iff,List.any_eq_true,List.any_eq_true]
  constructor
  · rintro ⟨a,member,holds⟩
    exact ⟨a,member,same a member ▸ holds⟩
  · rintro ⟨a,member,holds⟩
    exact ⟨a,member,(same a member).symm ▸ holds⟩

theorem readPaths_ofDocument (m : Manifest) : GoManifest.readPaths (GoManifest.ofDocument m) = readPaths m := by
  simp only [GoManifest.readPaths,GoManifest.ofDocument,GoManifest.ofTools,readPaths]
  cases m.tools.filesystem <;> rfl

theorem writePaths_ofDocument (m : Manifest) : GoManifest.writePaths (GoManifest.ofDocument m) = writePaths m := by
  simp only [GoManifest.writePaths,GoManifest.ofDocument,GoManifest.ofTools,writePaths]
  cases m.tools.filesystem <;> rfl

theorem hasApprovalClass_iff {classes : List ApprovalClass} {cls : ApprovalClass} :
    GoManifest.hasApprovalClass classes cls = true ↔ cls ∈ classes := by
  simp [GoManifest.hasApprovalClass]

theorem upgrade_agree {m : Manifest} (base : Decision) {goBase : GoManifest.Decision} (same : base.kind = goBase.kind)
    (cls : ApprovalClass) (reason goReason : String) :
    (upgradeForApproval m base cls reason).kind =
      (GoManifest.upgradeForApproval goBase m.approvalRequiredFor cls goReason).kind := by
  rw [upgradeForApproval_kind,same,GoManifest.upgradeForApproval]
  by_cases required : goBase.kind = .Allow ∧ cls ∈ m.approvalRequiredFor
  · rw [if_pos required,if_pos (by simpa [hasApprovalClass_iff] using required)]
    rfl
  · rw [if_neg required,if_neg (by simpa [hasApprovalClass_iff] using required)]

/-! ### Write grants -/

section
variable [Chrono]

theorem beforeExpiry_agree {g : WriteGrant} (comparable : ComparableGrant g) (now : Int) :
    beforeExpiry g now = GoManifest.beforeExpiry (GoManifest.ofWriteGrant g) now := by
  unfold beforeExpiry GoManifest.beforeExpiry GoManifest.ofWriteGrant
  cases bound : g.expiresAt with
  | none => rfl
  | some text =>
    obtain ⟨nonempty,read⟩ := comparable.expires text bound
    cases parsed : goParseRFC3339 text <;> simp only [Option.getD_some,if_neg nonempty,read,parsed]

theorem withinDuration_agree {g : WriteGrant} (comparable : ComparableGrant g) {now sessionStart : Int}
    (started : sessionStart ≠ zeroTime) :
    withinDuration g now sessionStart =
      .ok (GoManifest.withinDuration (GoManifest.ofWriteGrant g) now sessionStart) := by
  unfold withinDuration GoManifest.withinDuration GoManifest.ofWriteGrant
  cases bound : g.duration with
  | none => rfl
  | some text =>
    obtain ⟨nonempty,fits⟩ := comparable.duration text bound
    obtain ⟨rust,go⟩ := isoRead_agree fits
    simp only [Option.getD_some,rust,go,if_neg nonempty]
    by_cases formed : (isoRead text).2 = true
    · have same := goSub_le now sessionStart (isoRead_nonneg text) fits
      simp only [if_pos formed,if_neg started]
      by_cases ended : (isoRead text).1 ≤ now-sessionStart
      · rw [decide_eq_true (same.mpr ended),decide_eq_false (not_lt.mpr ended)]
        rfl
      · have running : ¬ (isoRead text).1 ≤ goSub now sessionStart := fun limit => ended (same.mp limit)
        rw [decide_eq_false running,decide_eq_true (not_le.mp ended)]
        rfl
    · simp only [if_neg formed]

theorem grantTimeValid_agree {g : WriteGrant} (comparable : ComparableGrant g) {now sessionStart : Int}
    (clocked : now ≠ zeroTime) (started : sessionStart ≠ zeroTime) :
    grantTimeValid g now sessionStart = .ok (GoManifest.grantTimeValid (GoManifest.ofWriteGrant g) now sessionStart) := by
  rw [Policy.grantTimeValid,GoManifest.grantTimeValid,if_neg clocked,beforeExpiry_agree comparable,
    withinDuration_agree comparable started]
  cases GoManifest.beforeExpiry (GoManifest.ofWriteGrant g) now <;> rfl

/-- Both loops pick the first matching grant in its window, and otherwise see
    whether any grant matched. -/
theorem classifyLoop_agree {path : String} {want : WriteAction} {now sessionStart : Int}
    (clocked : now ≠ zeroTime) (started : sessionStart ≠ zeroTime) :
    ∀ grants : List WriteGrant,(∀ g ∈ grants,names path want g = true → ComparableGrant g) →
      ∀ state,∃ found,findValid now sessionStart (grants.filter (names path want)) = .ok found ∧
        GoManifest.classifyLoop path want now sessionStart state (grants.map GoManifest.ofWriteGrant) =
          match found with
          | some g => (.Valid,some (GoManifest.ofWriteGrant g))
          | none => (if grants.filter (names path want) = [] then state else .Expired,none)
  | [],_,state => ⟨none,rfl,rfl⟩
  | g :: rest,comparable,state => by
    have later := classifyLoop_agree clocked started rest (fun g member => comparable g (List.mem_cons_of_mem _ member))
    have listed : (GoManifest.ofWriteGrant g).actions.any (· = want) = g.actions.contains want := by
      rw [Bool.eq_iff_iff,List.any_eq_true,List.contains_iff_mem]
      simp [GoManifest.ofWriteGrant]
    by_cases named : names path want g = true
    · have valid := grantTimeValid_agree (comparable g List.mem_cons_self named) clocked started
      obtain ⟨resource,action⟩ : g.resource = path ∧ g.actions.contains want = true := by simpa [names] using named
      rw [List.filter_cons_of_pos named,findValid,valid,List.map_cons,GoManifest.classifyLoop,listed,action]
      rw [if_neg (by simpa [GoManifest.ofWriteGrant] using resource),if_neg (by simp)]
      cases inWindow : GoManifest.grantTimeValid (GoManifest.ofWriteGrant g) now sessionStart with
      | true => exact ⟨some g,rfl,rfl⟩
      | false =>
        obtain ⟨found,rust,go⟩ := later .Expired
        refine ⟨found,rust,?_⟩
        rw [if_neg (by simp),go]
        cases found <;> simp
    · obtain ⟨found,rust,go⟩ := later state
      refine ⟨found,by rw [List.filter_cons_of_neg named,rust],?_⟩
      rw [List.filter_cons_of_neg named,List.map_cons,GoManifest.classifyLoop,listed,← go]
      by_cases resource : g.resource = path
      · have silent : g.actions.contains want = false := by simpa [names,resource] using named
        rw [if_neg (by simpa [GoManifest.ofWriteGrant] using resource),if_pos (by simpa using silent)]
      · rw [if_pos (by simpa [GoManifest.ofWriteGrant] using resource)]

theorem classify_agree {m : Manifest} {path : String} {want : WriteAction} {now sessionStart : Int}
    (comparable : ComparableWrite m path want now sessionStart) :
    (classifyWriteGrant m path want now sessionStart = .ok .None ∧
      GoManifest.classifyWriteGrant (GoManifest.ofDocument m) path want now sessionStart = (.None,none)) ∨
    (∃ g,classifyWriteGrant m path want now sessionStart = .ok (.Valid g) ∧
      GoManifest.classifyWriteGrant (GoManifest.ofDocument m) path want now sessionStart =
        (.Valid,some (GoManifest.ofWriteGrant g))) ∨
    (classifyWriteGrant m path want now sessionStart = .ok .Expired ∧
      GoManifest.classifyWriteGrant (GoManifest.ofDocument m) path want now sessionStart = (.Expired,none)) := by
  obtain ⟨found,rust,go⟩ :=
    classifyLoop_agree comparable.clocked comparable.started m.writeGrants comparable.grants .None
  have whole : GoManifest.classifyWriteGrant (GoManifest.ofDocument m) path want now sessionStart = _ := go
  rw [whole,classifyWriteGrant]
  by_cases silent : m.writeGrants.filter (names path want) = []
  · rw [silent] at rust
    cases rust
    exact .inl ⟨if_pos silent,by simp [silent]⟩
  · simp only [if_neg silent,rust]
    cases found with
    | some g => exact .inr (.inl ⟨g,rfl,rfl⟩)
    | none => exact .inr (.inr ⟨rfl,rfl⟩)

omit [Chrono] in
theorem writeDecision_agree (m : Manifest) (path : String) (g : WriteGrant) (action : WriteAction) :
    (writeDecision m path g action).kind =
      (GoManifest.writeGrantDecision (GoManifest.ofDocument m) path (GoManifest.ofWriteGrant g) action).kind := by
  have contains : ∀ cls,m.approvalRequiredFor.contains cls =
      GoManifest.hasApprovalClass (GoManifest.ofDocument m).approvalRequiredFor cls := by
    intro cls
    rw [Bool.eq_iff_iff,hasApprovalClass_iff]
    simp [GoManifest.ofDocument]
  unfold writeDecision GoManifest.writeGrantDecision
  cases action <;> simp only [contains,GoManifest.ofWriteGrant,reduceCtorEq,if_true,if_false] <;>
    split <;> rfl

theorem write_agree {m : Manifest} {path : String} {now sessionStart : Int}
    (comparable : ComparableWrite m path .Write now sessionStart) :
    Agree m (GoManifest.ofDocument m) (.FilesystemWrite path now sessionStart) := by
  have go : GoManifest.decide (GoManifest.ofDocument m) (query (.FilesystemWrite path now sessionStart)) =
      GoManifest.decideFsWrite (GoManifest.ofDocument m) path now sessionStart := rfl
  rw [Agree,go,check,checkFilesystemWrite,GoManifest.decideFsWrite]
  rcases classify_agree comparable with ⟨rust,go⟩ | ⟨g,rust,go⟩ | ⟨rust,go⟩
  · rw [rust,go]
    simp only [writePaths_ofDocument]
    change Except.map _ (if pathsCover path (writePaths m) = true then _ else _) =
      Except.ok (if pathsCover path (writePaths m) = true then _ else _ : GoManifest.Decision).kind
    split
    · exact congrArg Except.ok (upgrade_agree .Allow rfl .AnyWrite _ _)
    · rfl
  · rw [rust,go]
    exact congrArg Except.ok (writeDecision_agree m path g .Write)
  · rw [rust,go]
    rfl

theorem delete_agree {m : Manifest} {path : String} {now sessionStart : Int}
    (comparable : ComparableWrite m path .Delete now sessionStart) :
    Agree m (GoManifest.ofDocument m) (.FilesystemDelete path now sessionStart) := by
  have go : GoManifest.decide (GoManifest.ofDocument m) (query (.FilesystemDelete path now sessionStart)) =
      GoManifest.decideFsDelete (GoManifest.ofDocument m) path now sessionStart := rfl
  rw [Agree,go,check,checkFilesystemDelete,GoManifest.decideFsDelete]
  rcases classify_agree comparable with ⟨rust,go⟩ | ⟨g,rust,go⟩ | ⟨rust,go⟩
  · rw [rust,go]
    rfl
  · rw [rust,go]
    exact congrArg Except.ok (writeDecision_agree m path g .Delete)
  · rw [rust,go]
    rfl

end

/-! ### Network -/

theorem entry_agree {e : NetworkAllowEntry} (valid : e.port ≠ some 0) (host : String) (port : UInt16)
    {protocol : NetworkProto} (known : protocol ≠ .Any) :
    matchesAllowEntry e host port protocol =
      GoManifest.matchesAllowEntry (GoManifest.ofAllowEntry e) host port.toNat (protoText protocol) := by
  have ports : e.port.all (· = port) =
      !(decide ((GoManifest.ofAllowEntry e).port ≠ 0) && decide ((GoManifest.ofAllowEntry e).port ≠ port.toNat)) := by
    cases bound : e.port with
    | none => simp [GoManifest.ofAllowEntry,bound]
    | some entry =>
      have positive : entry.toNat ≠ 0 := fun zero => valid (by rw [bound,(UInt16.toNat_inj (b := 0)).mp zero])
      simp [GoManifest.ofAllowEntry,bound,positive,UInt16.toNat_inj]
  have protocols : e.protocol.all (protoCompatible · protocol) =
      !(decide ((GoManifest.ofAllowEntry e).protocol ≠ "") &&
        decide ((GoManifest.ofAllowEntry e).protocol ≠ protoText protocol)) := by
    cases bound : e.protocol with
    | none => simp [GoManifest.ofAllowEntry,bound]
    | some entry =>
      simp only [GoManifest.ofAllowEntry,bound,Option.all_some,Option.map_some,Option.getD_some]
      cases entry <;> cases protocol <;> first | rfl | exact absurd rfl known
  rw [matchesAllowEntry,GoManifest.matchesAllowEntry,ports,protocols]
  have host' : (GoManifest.ofAllowEntry e).host = e.host := rfl
  rw [host']
  generalize (decide ((GoManifest.ofAllowEntry e).port ≠ 0) && decide ((GoManifest.ofAllowEntry e).port ≠ port.toNat)) = a
  generalize (decide ((GoManifest.ofAllowEntry e).protocol ≠ "") &&
    decide ((GoManifest.ofAllowEntry e).protocol ≠ protoText protocol)) = b
  by_cases same : e.host = host <;> cases a <;> cases b <;> simp [same]

theorem network_agree {policy : Option NetworkPolicy} (valid : policy.all (·.schemaValid) = true) (host : String)
    (port : UInt16) {protocol : NetworkProto} (known : protocol ≠ .Any) (direction : String) :
    (networkDecision policy host port protocol direction).kind =
      (GoManifest.evalNetwork (policy.map GoManifest.ofNetworkPolicy) host port.toNat (protoText protocol) direction).kind := by
  cases policy with
  | none => rfl
  | some policy =>
    cases policy with
    | Mode mode => cases mode <;> rfl
    | Allowlist allowlist =>
      have each : ∀ e ∈ allowlist,matchesAllowEntry e host port protocol =
          GoManifest.matchesAllowEntry (GoManifest.ofAllowEntry e) host port.toNat (protoText protocol) := by
        intro e member
        simp only [Option.all_some,NetworkPolicy.schemaValid,List.all_eq_true,Bool.and_eq_true,decide_eq_true_eq] at valid
        exact entry_agree (valid e member).2 host port known
      have lists : allowlist.any (matchesAllowEntry · host port protocol) =
          (allowlist.map GoManifest.ofAllowEntry).any (GoManifest.matchesAllowEntry · host port.toNat (protoText protocol)) := by
        rw [List.any_map]
        exact any_agree each
      simp only [networkDecision,Option.map_some,GoManifest.ofNetworkPolicy,GoManifest.evalNetwork,lists,
        reduceCtorEq,if_false,decide_false,Bool.or_self,Bool.false_eq_true]
      split <;> rfl

/-! ### Programs and MCP tools -/

theorem program_agree {m : Manifest} {program : String} (comparable : ComparableExec m program) {g : ExecGrant}
    (granted : g ∈ m.execGrants) : programMatches g.program program = GoManifest.programMatches g.program program := by
  unfold programMatches GoManifest.programMatches
  by_cases slash : '/' ∈ g.program.toList
  · simp only [if_pos slash]
    rw [decide_eq_decide]
    exact ⟨comparable.spelled g granted slash,fun same => by rw [same]⟩
  · simp only [if_neg slash]
    rw [decide_eq_decide]
    obtain ⟨notDot,notDots⟩ := comparable.named g granted slash
    exact fileName_base notDot notDots slash

theorem exec_agree {m : Manifest} {program : String} (comparable : ComparableExec m program) :
    (checkExec m program).kind = (GoManifest.decideExec (GoManifest.ofDocument m) program).kind := by
  have lists : m.execGrants.any (fun g => programMatches g.program program) =
      (GoManifest.ofDocument m).execGrants.any (fun g => GoManifest.programMatches g.program program) := by
    simp only [GoManifest.ofDocument,List.any_map]
    exact any_agree (fun g member => program_agree comparable member)
  unfold checkExec GoManifest.decideExec
  rw [lists]
  split
  · exact upgrade_agree .Allow rfl .AnyExec _ _
  · rfl

theorem mcp_agree (m : Manifest) (server tool : String) :
    (checkMcpTool m server tool).kind = (GoManifest.decideMCPTool (GoManifest.ofDocument m) server tool).kind := by
  have found : (GoManifest.ofDocument m).tools.mcp.find? (fun s => s.serverName = server) =
      (serverGrant m server).map GoManifest.ofServerGrant := by
    simp only [GoManifest.ofDocument,GoManifest.ofTools,serverGrant,List.find?_map]
    rfl
  unfold checkMcpTool GoManifest.decideMCPTool
  rw [found]
  cases serverGrant m server with
  | none => rfl
  | some grant =>
    simp only [Option.map_some,GoManifest.ofServerGrant,List.any_map]
    change (if grant.allowedTools.any (fun t => t.name = tool) = true then Decision.Allow else _).kind =
      (if grant.allowedTools.any (fun t => t.name = tool) = true then GoManifest.allowDecision else _ : GoManifest.Decision).kind
    split <;> rfl

/-! ### Both engines -/

/-- On every document both loaders accept the engines answer every comparable
    operation with the same kind, and the Rust check does not panic. -/
theorem engines_agree [Chrono] {doc rust : Manifest} {go : GoManifest.Manifest} (rustLoads : fromDocument doc = some rust)
    (goLoads : GoManifest.parse doc = some go) {op : Operation} (comparable : Comparable doc op) : Agree rust go op := by
  obtain ⟨-,rfl⟩ : doc.extendsRefs = [] ∧ doc = rust := by simpa [fromDocument] using rustLoads
  obtain ⟨valid,rfl⟩ : doc.schemaValid = true ∧ GoManifest.ofDocument doc = go := by simpa [GoManifest.parse] using goLoads
  have policies : ∀ n,doc.tools.network = some n →
      n.outbound.all (·.schemaValid) = true ∧ n.inbound.all (·.schemaValid) = true := by
    intro n present
    simp only [Manifest.schemaValid,Tools.schemaValid,present,Option.all_some,Bool.and_eq_true] at valid
    exact valid.1.1.1.1.2
  have outbounds : (outbound doc).all (·.schemaValid) = true := by
    cases present : doc.tools.network with
    | none => simp [outbound,present]
    | some n => simpa [outbound,present] using (policies n present).1
  have inbounds : (inbound doc).all (·.schemaValid) = true := by
    cases present : doc.tools.network with
    | none => simp [inbound,present]
    | some n => simpa [inbound,present] using (policies n present).2
  have directions : ∀ out,GoManifest.parentPolicy (GoManifest.ofDocument doc).tools.network out =
      (if out then outbound doc else inbound doc).map GoManifest.ofNetworkPolicy := by
    intro out
    simp only [GoManifest.parentPolicy,GoManifest.ofDocument,GoManifest.ofTools,outbound,inbound]
    cases doc.tools.network <;> cases out <;> rfl
  cases op with
  | FilesystemRead path =>
    have lists := readPaths_ofDocument doc
    change Except.ok (checkFilesystemRead doc path).kind = .ok (GoManifest.decideFsRead (GoManifest.ofDocument doc) path).kind
    rw [checkFilesystemRead,GoManifest.decideFsRead,lists]
    change Except.ok (if pathsCover path (readPaths doc) = true then _ else _ : Decision).kind =
      .ok (if pathsCover path (readPaths doc) = true then _ else _ : GoManifest.Decision).kind
    split <;> rfl
  | FilesystemWrite path now sessionStart => exact write_agree comparable
  | FilesystemDelete path now sessionStart => exact delete_agree comparable
  | NetworkOutbound host port protocol =>
    refine congrArg Except.ok ?_
    change (checkNetworkOutbound doc host port protocol).kind =
      (GoManifest.decideNetwork (GoManifest.ofDocument doc) true host port.toNat (protoText protocol)).kind
    simp only [checkNetworkOutbound,GoManifest.decideNetwork,directions,if_true]
    exact upgrade_agree _ (network_agree outbounds host port comparable "outbound") .AnyNetworkOutbound _ _
  | NetworkInbound host port protocol =>
    refine congrArg Except.ok ?_
    change (checkNetworkInbound doc host port protocol).kind =
      (GoManifest.decideNetwork (GoManifest.ofDocument doc) false host port.toNat (protoText protocol)).kind
    simp only [checkNetworkInbound,GoManifest.decideNetwork,directions,Bool.false_eq_true,if_false]
    exact network_agree inbounds host port comparable "inbound"
  | Exec program => exact congrArg Except.ok (exec_agree comparable)
  | McpTool server tool => exact congrArg Except.ok (mcp_agree doc server tool)

/-- A write grant with both time bounds and a program given by its bare name. -/
def boundedDocument : Manifest :=
  { closed with
    writeGrants := [⟨"/srv/out",[.Write],some "PT1H",some "2026-01-01T00:00:00Z",false⟩]
    execGrants := [⟨"git",none⟩] }

theorem engines_agree_bounded :
    @Agree epochChrono boundedDocument (GoManifest.ofDocument boundedDocument) (.FilesystemWrite "/srv/out" minute 0) := by
  let _ := epochChrono
  have rustLoads : fromDocument boundedDocument = some boundedDocument := rfl
  refine engines_agree rustLoads rfl ⟨by decide,by decide,?_⟩
  intro g member _
  obtain rfl : g = ⟨"/srv/out",[.Write],some "PT1H",some "2026-01-01T00:00:00Z",false⟩ := List.mem_singleton.mp member
  constructor
  · rintro text ⟨⟩
    exact ⟨by decide,by decide⟩
  · rintro text ⟨⟩
    exact ⟨by decide,rfl⟩

/-- A grant that is over as soon as the session starts. -/
def overDocument : Manifest :=
  { closed with writeGrants := [⟨"/srv/out",[.Write],some "PT0S",none,false⟩] }

/-- Without a clock anchor Go skips the bounds that Rust applies. -/
theorem engines_differ :
    ¬ ∀ [Chrono] (doc rust : Manifest) (go : GoManifest.Manifest) (op : Operation),
      fromDocument doc = some rust → GoManifest.parse doc = some go → Agree rust go op := by
  intro agree
  have same := @agree epochChrono overDocument overDocument (GoManifest.ofDocument overDocument)
    (.FilesystemWrite "/srv/out" zeroTime zeroTime) rfl rfl
  exact absurd same (by unfold Agree; decide)

end AegisNode.Conformance
