import AegisNode.Format
import AegisNode.GoManifest

/-!
The Go package `validate`: the rules that a manifest is linted by, the severities that
the operator sets for them, and the findings of one pass.
-/
namespace AegisNode.Lint
open Text Paths Format
open Schema (ApprovalClass)

/-! ### The manifest -/

structure Agent where
  name : String
  deriving DecidableEq,Repr

structure Identity where
  spiffeId : String
  deriving DecidableEq,Repr

structure DeterminismKnobs where
  seed : Option UInt32
  deriving DecidableEq,Repr

structure Inference where
  determinism : Option DeterminismKnobs
  deriving DecidableEq,Repr

/-- The fields that the linter reads, with those that decisions read. -/
structure Manifest extends GoManifest.Manifest where
  agent : Agent
  identity : Identity
  approvalAuthorities : List String
  inference : Option Inference
  deriving DecidableEq,Repr

/-! ### Rules -/

structure Rule where
  id : String
  default : Severity
  summary : String
  rationale : String
  check : Manifest → List Finding

/-- A finding as a rule makes it. -/
def hit (field message : String) : Finding := ⟨"",severityInfo,field,message,"",0,0⟩

/-- One finding for each item that the rule objects to, under the index of the item. -/
def flagged {α : Type} (items : List α) (objects : α → Bool) (field : Nat → String) (message : α → String) : List Finding :=
  (items.zipIdx.filter fun entry => objects entry.1).map fun entry => hit (field entry.2) (message entry.1)

/-- One finding about the manifest as a whole. -/
def whole (objects : Bool) (field message : String) : List Finding := if objects then [hit field message] else []

def indexed (before : String) (after : String) (i : Nat) : String := before ++ "[" ++ toString i ++ "]" ++ after

def systemRoots : List String := ["/","/etc","/usr","/var","/proc","/sys","/dev","/root","/boot"]

def isSystemRoot (p : String) : Bool := clean p ∈ systemRoots

def ruleFilesystemRead (m : Manifest) : List Finding :=
  flagged (GoManifest.readPaths m.toManifest) isSystemRoot (indexed "tools.filesystem.read" "") fun p =>
    "path " ++ goQuote p ++ " is a system root; narrow to the data the agent actually needs"

def ruleFilesystemWrite (m : Manifest) : List Finding :=
  flagged (GoManifest.writePaths m.toManifest) isSystemRoot (indexed "tools.filesystem.write" "") fun p =>
    "path " ++ goQuote p ++ " is a system root; this is almost never intended"

def ruleExecBasenameWithoutApproval (m : Manifest) : List Finding :=
  if ApprovalClass.AnyExec ∈ m.approvalRequiredFor then []
  else flagged m.execGrants (fun g => '/' ∉ g.program.toList) (indexed "exec_grants" ".program") fun g =>
    "bare basename " ++ goQuote g.program ++
      " matches any path on $PATH; either pin an absolute path or add approval_required_for: [any_exec]"

def outboundMode (m : Manifest) : Option GoManifest.NetworkMode := m.tools.network.bind fun n => n.outbound.map (·.mode)

def ruleOutboundAllowWithoutApproval (m : Manifest) : List Finding :=
  whole (outboundMode m = some .Allow && ApprovalClass.AnyNetworkOutbound ∉ m.approvalRequiredFor) "tools.network.outbound"
    ("open egress (allow) is set without approval_required_for: [any_network_outbound]; " ++
      "prefer an explicit allowlist or gate through the F3 approval channel")

def ruleWriteGrantDirectory (m : Manifest) : List Finding :=
  flagged m.writeGrants (fun g => g.resource.toList.getLast? = some '/') (indexed "write_grants" ".resource") fun g =>
    goQuote g.resource ++ " ends with /; F7 grants are per-file. Name the file or move the coverage to tools.filesystem.write"

def ruleWriteGrantEternal (m : Manifest) : List Finding :=
  flagged m.writeGrants (fun g => g.duration = "" && g.expiresAt = "") (indexed "write_grants" "") fun g =>
    "grant on " ++ goQuote g.resource ++ " has no duration and no expires_at; add a time bound (e.g. duration: PT1H)"

/-- A grant that asks for approval is enough for the rule. -/
def ruleWriteWithoutApproval (m : Manifest) : List Finding :=
  whole (GoManifest.writePaths m.toManifest ≠ [] && ApprovalClass.AnyWrite ∉ m.approvalRequiredFor &&
      !m.writeGrants.any (·.approvalRequired)) "tools.filesystem.write"
    ("broad write coverage set without any_write approval class or per-grant approval_required; " ++
      "unexpected writes will land without human review")

def ruleMCPEmptyAllowedTools (m : Manifest) : List Finding :=
  flagged m.tools.mcp (fun s => s.allowedTools = []) (indexed "tools.mcp" ".allowed_tools") fun s =>
    "server " ++ goQuote s.serverName ++ " lists no allowed_tools; entry is misleading — name tools or remove the entry"

def ruleApprovalAuthoritiesEmpty (m : Manifest) : List Finding :=
  whole (m.approvalRequiredFor ≠ [] && m.approvalAuthorities = []) "approval_authorities"
    ("approval_required_for is set but approval_authorities is empty; " ++
      "mTLS signed-API approvals will be refused (TTY/file/web channels still work)")

def seedOf (m : Manifest) : Option UInt32 := m.inference.bind fun i => i.determinism.bind (·.seed)

def ruleApprovalAnyWriteWithoutSeed (m : Manifest) : List Finding :=
  whole (ApprovalClass.AnyWrite ∈ m.approvalRequiredFor && seedOf m = none) "inference.determinism.seed"
    ("approval_required_for: [any_write] is set but inference.determinism.seed is " ++
      "unset; replay verification (F8) requires byte-identical inference, which needs a " ++
      "pinned seed and temperature: 0.0")

/-- The workload of an id with the conventional layout. -/
def workloadOf (id : String) : Option String :=
  (stripPrefix "spiffe://".toList id.toList).bind fun rest =>
    match rest.splitOn '/' with
    | _ :: kind :: workload :: _ :: _ => if kind = "agent".toList then some (String.ofList workload) else none
    | _ => none

def ruleAgentNameMatchesSpiffeID (m : Manifest) : List Finding :=
  match workloadOf m.identity.spiffeId with
  | none => []
  | some workload => whole (workload ≠ m.agent.name) "agent.name"
      ("agent.name=" ++ goQuote m.agent.name ++ " doesn't match SPIFFE workload segment " ++ goQuote workload ++ " (from " ++
        goQuote m.identity.spiffeId ++ ")")

def registry : List Rule :=
  [⟨"AEGIS001",severityError,"tools.filesystem.read covers a system root (/, /etc, /usr, ...)",
      "Blanket read of system roots gives the agent access to credentials, tokens, and host config. Almost never the operator's intent. " ++
      "Narrow the path to the data the agent actually needs (e.g. /data/reports).",ruleFilesystemRead⟩,
    ⟨"AEGIS002",severityError,"tools.filesystem.write covers a system root (/, /etc, /usr, ...)",
      "Blanket write of system roots is a production-mutation footgun. F7 requires explicit write_grants for mutation; the broad rule " ++
      "should reach only directories the agent owns end-to-end.",ruleFilesystemWrite⟩,
    ⟨"AEGIS003",severityError,"exec_grant uses a bare basename without any_exec approval",
      "A bare-basename exec_grant matches that program at any path on $PATH — including a malicious binary an attacker dropped into a " ++
      "writable directory. Either pin the absolute path, or require human approval for every exec via approval_required_for: [any_exec].",
      ruleExecBasenameWithoutApproval⟩,
    ⟨"AEGIS004",severityWarn,"tools.network.outbound: allow without any_network_outbound approval",
      "Open egress (allow) lets the agent reach any host on any port. F6 recommends an explicit allowlist; if open egress is required, " ++
      "gate every connection through approval_required_for: [any_network_outbound].",ruleOutboundAllowWithoutApproval⟩,
    ⟨"AEGIS005",severityError,"write_grant resource ends with / (covers a directory, not a file)",
      "A trailing slash makes the grant cover a directory tree rather than a specific file. F7 is precise by design — name the file. If " ++
      "you need many files, list them; if you need a tree, audit explicitly via tools.filesystem.write.",ruleWriteGrantDirectory⟩,
    ⟨"AEGIS006",severityWarn,"write_grant has no duration AND no expires_at (eternal grant)",
      "Without a time bound, a write_grant lives for the life of every session that loads this manifest forever. Time-bound the grant " ++
      "(duration: PT1H or expires_at: 2026-12-31T00:00:00Z) so an old manifest doesn't carry indefinite production-mutation rights.",
      ruleWriteGrantEternal⟩,
    ⟨"AEGIS007",severityWarn,"tools.filesystem.write set but no any_write approval class",
      "Manifest grants broad write coverage but never asks for human approval. Either lift writes into explicit time-bounded write_grants, " ++
      "or add approval_required_for: [any_write] so unexpected writes go through the F3 gate.",ruleWriteWithoutApproval⟩,
    ⟨"AEGIS008",severityWarn,"tools.mcp[] entry has empty allowed_tools (no tools allowed)",
      "Closed-by-default already denies all MCP tools when the server isn't listed. An entry with allowed_tools: [] is functionally " ++
      "identical but misleading — it suggests intent to allow tools without naming any. Either name the tools or remove the entry.",
      ruleMCPEmptyAllowedTools⟩,
    ⟨"AEGIS009",severityWarn,"approval_required_for set but approval_authorities is empty",
      "approval_required_for triggers the F3 approval gate; the mTLS signed-API channel requires approval_authorities to know which SPIFFE " ++
      "IDs may sign approvals. Empty list = mTLS approvals will be refused. Acceptable if you only use TTY/file/web channels — flagged so " ++
      "the choice is intentional.",ruleApprovalAuthoritiesEmpty⟩,
    ⟨"AEGIS010",severityInfo,"agent.name doesn't match the workload segment of identity.spiffeId",
      "Convention is spiffe://<trust-domain>/agent/<workload>/<instance> with <workload> matching agent.name. Drift here is usually a " ++
      "copy-paste typo and will surprise an operator reading both fields. Not enforced — the SPIFFE path is the source of truth at runtime.",
      ruleAgentNameMatchesSpiffeID⟩,
    ⟨"AEGIS011",severityWarn,"approval_required_for: [any_write] but inference.determinism.seed is unset",
      "approval_required_for: [any_write] is the audit-reproducibility marker — an operator who gates writes through the F3 approval channel " ++
      "typically also needs the underlying inference to be replayable byte-for-byte (per F8 / ADR-010). Without inference.determinism.seed " ++
      "(and temperature: 0.0), the sampler picks a random seed each turn and the replay viewer cannot verify the trajectory. Pin both to " ++
      "make the audit complete.",ruleApprovalAnyWriteWithoutSeed⟩]

/-! ### One pass -/

/-- Severities that are not those of the rules, by rule. -/
abbrev Overrides := List (String × Severity)

def Rule.severity (r : Rule) (opts : Overrides) : Severity := (opts.lookup r.id).getD r.default

def Rule.findings (r : Rule) (opts : Overrides) (m : Manifest) : List Finding :=
  (r.check m).map fun f => { f with
    ruleId := r.id
    rationale := if f.rationale = "" then r.rationale else f.rationale
    severity := r.severity opts }

/-- `Lint` over a given list of rules. -/
def lintBy (rules : List Rule) (opts : Overrides) (m : Manifest) : List Finding := sorted (rules.flatMap (·.findings opts m))

def lint (opts : Overrides) (m : Manifest) : List Finding := lintBy registry opts m

def hasErrors (findings : List Finding) : Bool := findings.any (·.severity = severityError)

/-! ### The configuration file -/

def parseSeverity (s : String) : Except String Severity :=
  if s = "info" then .ok severityInfo
  else if s = "warn" ∨ s = "warning" then .ok severityWarn
  else if s = "error" then .ok severityError
  else .error ("unknown severity " ++ goQuote s ++ " (want info|warn|error)")

def knownRuleIDs : List String := registry.map (·.id)

/-- The loop over the `severity` map of the file, in the order in which the map is walked. -/
def loadOverrides (path : String) : List (String × String) → Except String Overrides
  | [] => .ok []
  | (ruleId,sev) :: rest =>
    if ruleId ∉ knownRuleIDs then .error (path ++ ": unknown rule " ++ goQuote ruleId)
    else match parseSeverity sev with
      | .error e => .error (path ++ ": rule " ++ ruleId ++ ": " ++ e)
      | .ok s => (loadOverrides path rest).map ((ruleId,s) :: ·)

/-! ### Findings tell rule and field -/

theorem mem_flagged {α : Type} {items : List α} {objects : α → Bool} {field : Nat → String} {message : α → String} {f : Finding} :
    f ∈ flagged items objects field message ↔ ∃ i a,items[i]? = some a ∧ objects a ∧ f = hit (field i) (message a) := by
  simp only [flagged,List.mem_map,List.mem_filter,Prod.exists,List.mem_zipIdx_iff_getElem?]
  constructor
  · rintro ⟨a,i,⟨listed,objected⟩,rfl⟩
    exact ⟨i,a,listed,objected,rfl⟩
  · rintro ⟨i,a,listed,objected,rfl⟩
    exact ⟨a,i,⟨listed,objected⟩,rfl⟩

theorem flagged_nil {α : Type} {items : List α} {objects : α → Bool} {field : Nat → String} {message : α → String} :
    flagged items objects field message = [] ↔ ∀ a ∈ items,objects a = false := by
  rw [List.eq_nil_iff_forall_not_mem]
  constructor
  · intro clear a member
    by_contra objected
    obtain ⟨i,bound,rfl⟩ := List.getElem_of_mem member
    exact clear _ (mem_flagged.mpr ⟨i,_,List.getElem?_eq_getElem bound,by simpa using objected,rfl⟩)
  · intro clear f member
    obtain ⟨i,a,listed,objected,-⟩ := mem_flagged.mp member
    rw [clear a (List.mem_of_getElem? listed)] at objected
    cases objected

theorem whole_nil {objects : Bool} {field message : String} : whole objects field message = [] ↔ objects = false := by
  cases objects <;> simp [whole]

theorem indexed_injective {before after : String} {i j : Nat} (same : indexed before after i = indexed before after j) : i = j := by
  have digits := congrArg String.toList same
  simp only [indexed,String.toList_append,Nat.toString_eq_repr,Nat.toList_repr,List.append_assoc,List.append_cancel_left_eq,
    List.append_cancel_right_eq] at digits
  exact toDigits_injective digits

/-- No two findings about one field. -/
def Distinct (findings : List Finding) : Prop := ∀ f ∈ findings,∀ g ∈ findings,f.field = g.field → f = g

theorem distinct_nil : Distinct [] := by
  intro f member
  cases member

theorem distinct_flagged {α : Type} (items : List α) (objects : α → Bool) (before after : String) (message : α → String) :
    Distinct (flagged items objects (indexed before after) message) := by
  intro f member g other field
  obtain ⟨i,a,listed,-,rfl⟩ := mem_flagged.mp member
  obtain ⟨j,b,listed',-,rfl⟩ := mem_flagged.mp other
  have here : i = j := indexed_injective field
  subst here
  rw [listed] at listed'
  cases listed'
  rfl

theorem distinct_whole (objects : Bool) (field message : String) : Distinct (whole objects field message) := by
  cases objects with
  | false => exact distinct_nil
  | true =>
    intro f member g other _
    rw [List.mem_singleton.mp member,List.mem_singleton.mp other]

theorem registry_distinct (m : Manifest) : ∀ r ∈ registry,Distinct (r.check m) := by
  intro r listed
  simp only [registry,List.mem_cons,List.not_mem_nil,or_false] at listed
  rcases listed with rfl | rfl | rfl | rfl | rfl | rfl | rfl | rfl | rfl | rfl | rfl
  · dsimp only [ruleFilesystemRead]
    exact distinct_flagged _ _ _ _ _
  · dsimp only [ruleFilesystemWrite]
    exact distinct_flagged _ _ _ _ _
  · dsimp only [ruleExecBasenameWithoutApproval]
    split_ifs
    · exact distinct_nil
    · exact distinct_flagged _ _ _ _ _
  · exact distinct_whole _ _ _
  · dsimp only [ruleWriteGrantDirectory]
    exact distinct_flagged _ _ _ _ _
  · dsimp only [ruleWriteGrantEternal]
    exact distinct_flagged _ _ _ _ _
  · exact distinct_whole _ _ _
  · dsimp only [ruleMCPEmptyAllowedTools]
    exact distinct_flagged _ _ _ _ _
  · exact distinct_whole _ _ _
  · dsimp only [ruleAgentNameMatchesSpiffeID]
    cases workloadOf m.identity.spiffeId with
    | none => exact distinct_nil
    | some workload => exact distinct_whole _ _ _
  · exact distinct_whole _ _ _

theorem registry_ids : (registry.map (·.id)).Nodup := by decide +kernel

/-- A rule is told by its id. -/
theorem registry_apart {r q : Rule} (listed : r ∈ registry) (listed' : q ∈ registry) (same : r.id = q.id) : r = q :=
  List.inj_on_of_nodup_map registry_ids listed listed' same

theorem mem_findings {r : Rule} {opts : Overrides} {m : Manifest} {f : Finding} (member : f ∈ r.findings opts m) :
    f.ruleId = r.id ∧ f.severity = r.severity opts ∧ ∃ found ∈ r.check m,f.field = found.field ∧ f = { found with
      ruleId := r.id
      rationale := if found.rationale = "" then r.rationale else found.rationale
      severity := r.severity opts } := by
  obtain ⟨found,checked,rfl⟩ := List.mem_map.mp member
  exact ⟨rfl,rfl,found,checked,rfl,rfl⟩

/-- Rule and field tell a finding. -/
theorem apart_findings {rules : List Rule} (registered : ∀ r ∈ rules,r ∈ registry) (opts : Overrides) (m : Manifest) :
    Apart (rules.flatMap (·.findings opts m)) := by
  intro f member g other field ruleId
  obtain ⟨r,listed,member⟩ := List.mem_flatMap.mp member
  obtain ⟨q,listed',other⟩ := List.mem_flatMap.mp other
  obtain ⟨id,-,found,checked,field',made⟩ := mem_findings member
  obtain ⟨id',-,found',checked',field'',made'⟩ := mem_findings other
  have same : r = q := registry_apart (registered r listed) (registered q listed') (id.symm.trans (ruleId.trans id'))
  subst same
  rw [made,made',registry_distinct m r (registered r listed) found checked found' checked' (field'.symm.trans (field.trans field''))]

/-! ### The order of the rules and of the configuration -/

theorem lintBy_perm {rules : List Rule} (same : rules.Perm registry) (opts : Overrides) (m : Manifest) :
    lintBy rules opts m = lint opts m := by
  refine sorted_perm (List.Perm.flatMap_right _ same) fun f member g other tied => ?_
  obtain ⟨field,ruleId⟩ := Prod.mk.inj (toLex.injective tied)
  exact apart_findings (fun r listed => same.mem_iff.mp listed) opts m f member g other field ruleId

theorem lookup_iff {α : Type} {entries : List (String × α)} (keys : (entries.map (·.1)).Nodup) {id : String} {a : α} :
    entries.lookup id = some a ↔ (id,a) ∈ entries := by
  induction entries with
  | nil => simp
  | cons entry rest ih =>
    obtain ⟨other,b⟩ := entry
    rw [List.map_cons,List.nodup_cons] at keys
    rw [List.lookup_cons]
    by_cases same : id = other
    · subst same
      have absent : (id,a) ∉ rest := fun member => keys.1 (List.mem_map.mpr ⟨_,member,rfl⟩)
      simp [absent,eq_comm]
    · have other : (id == other) = false := beq_eq_false_iff_ne.mpr same
      simp [other,same,ih keys.2]

theorem lookup_perm {α : Type} {entries entries' : List (String × α)} (walks : entries.Perm entries')
    (keys : (entries.map (·.1)).Nodup) (id : String) : entries.lookup id = entries'.lookup id := by
  ext a
  have keys' : (entries'.map (·.1)).Nodup := (walks.map _).nodup_iff.mp keys
  rw [lookup_iff keys,lookup_iff keys',walks.mem_iff]

/-- An entry of the file that names a rule and a severity. -/
def override? (entry : String × String) : Option (String × Severity) :=
  if entry.1 ∈ knownRuleIDs then (parseSeverity entry.2).toOption.map (entry.1,·) else none

theorem loadOverrides_toOption (path : String) (entries : List (String × String)) :
    (loadOverrides path entries).toOption = entries.mapM override? := by
  induction entries with
  | nil => rfl
  | cons entry rest ih =>
    obtain ⟨ruleId,sev⟩ := entry
    rw [List.mapM_cons,← ih,loadOverrides,override?]
    by_cases known : ruleId ∈ knownRuleIDs
    · rw [if_neg (not_not_intro known),if_pos known]
      cases parseSeverity sev with
      | error e => rfl
      | ok s => cases loadOverrides path rest <;> rfl
    · rw [if_pos known,if_neg known]
      rfl

theorem mapM_perm {α β : Type} {f : α → Option β} {items items' : List α} (same : items.Perm items') :
    ∀ {found},items.mapM f = some found → ∃ found',items'.mapM f = some found' ∧ found.Perm found' := by
  induction same with
  | nil => exact fun {found} made => ⟨found,made,List.Perm.refl _⟩
  | cons a _ ih =>
    intro found made
    rw [List.mapM_cons] at made ⊢
    obtain ⟨b,first,made⟩ := Option.bind_eq_some_iff.mp made
    obtain ⟨later,rest,same⟩ := Option.bind_eq_some_iff.mp made
    cases same
    obtain ⟨later',rest',same⟩ := ih rest
    exact ⟨b :: later',by simp [first,rest'],same.cons b⟩
  | swap a b rest =>
    intro found made
    rw [List.mapM_cons,List.mapM_cons] at made ⊢
    cases first : f b <;> cases second : f a <;> cases later : rest.mapM f <;> simp [first,second,later] at made ⊢
    subst made
    exact List.Perm.swap _ _ _
  | trans _ _ ih ih' =>
    intro found made
    obtain ⟨between,made',same⟩ := ih made
    obtain ⟨found',made'',same'⟩ := ih' made'
    exact ⟨found',made'',same.trans same'⟩

theorem keys_overrides {entries : List (String × String)} {opts : Overrides} (loaded : entries.mapM override? = some opts) :
    opts.map (·.1) = entries.map (·.1) := by
  induction entries generalizing opts with
  | nil =>
    cases loaded
    rfl
  | cons entry rest ih =>
    rw [List.mapM_cons] at loaded
    obtain ⟨first,here,loaded⟩ := Option.bind_eq_some_iff.mp loaded
    obtain ⟨later,rest',same⟩ := Option.bind_eq_some_iff.mp loaded
    cases same
    rw [override?] at here
    split_ifs at here
    obtain ⟨s,-,same⟩ := Option.map_eq_some_iff.mp here
    rw [List.map_cons,List.map_cons,ih rest',← same]

theorem lintBy_congr {opts opts' : Overrides} (same : ∀ id,opts.lookup id = opts'.lookup id) (rules : List Rule) (m : Manifest) :
    lintBy rules opts m = lintBy rules opts' m := by
  have findings : ∀ r : Rule,r.findings opts m = r.findings opts' m := fun r => by
    rw [Rule.findings,Rule.findings,Rule.severity,Rule.severity,same]
  rw [lintBy,lintBy,List.flatMap_congr fun r _ => findings r]

/-- The findings under a configuration, whatever the order in which its map is walked. -/
theorem lintBy_walks {entries entries' : List (String × String)} (walks : entries.Perm entries') (keys : (entries.map (·.1)).Nodup)
    (path : String) (rules : List Rule) (m : Manifest) :
    (loadOverrides path entries).toOption.map (lintBy rules · m) = (loadOverrides path entries').toOption.map (lintBy rules · m) := by
  rw [loadOverrides_toOption,loadOverrides_toOption]
  cases loaded : entries.mapM override? with
  | none =>
    cases loaded' : entries'.mapM override? with
    | none => rfl
    | some opts' =>
      obtain ⟨opts,found,-⟩ := mapM_perm walks.symm loaded'
      rw [loaded] at found
      cases found
  | some opts =>
    obtain ⟨opts',loaded',same⟩ := mapM_perm walks loaded
    have apart : (opts.map (·.1)).Nodup := (keys_overrides loaded).symm ▸ keys
    rw [loaded',Option.map_some,Option.map_some,lintBy_congr (lookup_perm same apart)]

end AegisNode.Lint
