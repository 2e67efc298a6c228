import AegisNode.GoManifest

/-!
Manifest inheritance in Go: `narrowsParent`, its helpers, and `LoadResolved` over
a map from paths to documents. A child must never decide less strictly than its
parent; the fields the check does not look at decide when it does.
-/
namespace AegisNode.Extends
open Text Paths Clock GoManifest
open Schema (ApprovalClass WriteAction)
open Policy (DecisionKind)

/-! ### Narrowing -/

/-- `%v` of a list of strings. -/
def listText (texts : List String) : String := "[" ++ " ".intercalate texts ++ "]"

/-- `%+v` of an allowlist entry. -/
def entryText (e : NetworkAllowEntry) : String :=
  "\x7bHost:" ++ e.host ++ " Port:" ++ toString e.port ++ " Protocol:" ++ e.protocol ++ "\x7d"

/-- The first widening: the field it is in and what is wrong. -/
structure NarrowingError where
  childPath : String
  parentPath : String
  field : String
  message : String
  deriving DecidableEq,Repr

def networkEntryIn (parents : List NetworkAllowEntry) (e : NetworkAllowEntry) : Bool := parents.any (· = e)

def modeOf (policy : NetworkPolicy) : NetworkMode := if policy.mode = .Unset then .Deny else policy.mode

def modeText : NetworkMode → String
  | .Unset => ""
  | .Deny => "deny"
  | .Allow => "allow"
  | .Allowlist => "allowlist"

/-- `networkSubset`: what makes the child more permissive, if anything does. -/
def networkSubset (child parent : Option NetworkPolicy) : Option String :=
  match child with
  | none => none
  | some child =>
    match (parent.map modeOf).getD .Deny with
    | .Allow => none
    | .Deny =>
      if modeOf child ≠ .Deny then
        some ("parent denies all but child sets " ++ goQuote (modeText (modeOf child)))
      else none
    | .Allowlist =>
      match modeOf child with
      | .Deny => none
      | .Allow => some "parent restricts to allowlist but child sets allow"
      | .Allowlist =>
        let allowed := (parent.map (·.allowlist)).getD []
        child.allowlist.findSome? fun e =>
          if networkEntryIn allowed e then none
          else some ("allowlist entry " ++ entryText e ++ " not in parent allowlist")
      | .Unset => some ("unsupported policy mode " ++ goQuote (modeText .Allowlist))
    | .Unset => some ("unsupported policy mode " ++ goQuote "")

def findAPI (grants : List APIGrant) (name : String) : Option APIGrant := grants.find? (fun g => g.name = name)
def findWriteGrant (grants : List WriteGrant) (resource : String) : Option WriteGrant :=
  grants.find? (fun g => g.resource = resource)
def findExecGrant (grants : List ExecGrant) (program : String) : Option ExecGrant :=
  grants.find? (fun g => g.program = program)

def stringSubset {α : Type} [DecidableEq α] (child parent : List α) : Bool := child.all (fun c => parent.contains c)

def pathsNarrowing (field kind : String) (child parent : List String) : Option (String × String) :=
  child.findSome? fun c =>
    if pathCovered c parent then none
    else some (field,"path " ++ goQuote c ++ " is not at-or-under any parent " ++ kind ++ " path " ++ listText parent)

def networkNarrowing (child parent : Manifest) : Option (String × String) :=
  match child.tools.network with
  | none => none
  | some network =>
    ((networkSubset network.outbound (parentPolicy parent.tools.network true)).map
        (fun message => ("tools.network.outbound",message))).or
      ((networkSubset network.inbound (parentPolicy parent.tools.network false)).map
        (fun message => ("tools.network.inbound",message)))

def apisNarrowing (child parent : Manifest) : Option (String × String) :=
  child.tools.apis.findSome? fun ca =>
    match findAPI parent.tools.apis ca.name with
    | none => some ("tools.apis[" ++ ca.name ++ "]","api " ++ goQuote ca.name ++ " is not granted by parent")
    | some pa =>
      if stringSubset ca.methods pa.methods then none
      else some ("tools.apis[" ++ ca.name ++ "].methods",
        "methods " ++ listText ca.methods ++ " exceed parent methods " ++ listText pa.methods)

/-- Only the first parent grant for the resource, and only its actions, are
    compared. -/
def writeGrantsNarrowing (child parent : Manifest) : Option (String × String) :=
  child.writeGrants.findSome? fun cw =>
    match findWriteGrant parent.writeGrants cw.resource with
    | none => some ("write_grants[" ++ cw.resource ++ "]",
        "resource " ++ goQuote cw.resource ++ " is not granted for write by parent")
    | some pw =>
      if stringSubset cw.actions pw.actions then none
      else some ("write_grants[" ++ cw.resource ++ "].actions",
        "actions " ++ listText (cw.actions.map actionText) ++ " exceed parent actions " ++
          listText (pw.actions.map actionText))

def execGrantsNarrowing (child parent : Manifest) : Option (String × String) :=
  child.execGrants.findSome? fun ce =>
    match findExecGrant parent.execGrants ce.program with
    | none => some ("exec_grants[" ++ ce.program ++ "]","program " ++ goQuote ce.program ++ " is not granted by parent")
    | some pe =>
      if pe.argsMatch ≠ "" && pe.argsMatch ≠ ce.argsMatch then
        some ("exec_grants[" ++ ce.program ++ "].args_match","parent restricts args_match to " ++
          goQuote pe.argsMatch ++ "; child must match exactly (got " ++ goQuote ce.argsMatch ++ ")")
      else none

def classText : ApprovalClass → String
  | .AnyWrite => "any_write"
  | .AnyDelete => "any_delete"
  | .AnyNetworkOutbound => "any_network_outbound"
  | .AnyExec => "any_exec"

/-- Approval classes narrow the other way: the child keeps every class. -/
def approvalNarrowing (child parent : Manifest) : Option (String × String) :=
  parent.approvalRequiredFor.findSome? fun pc =>
    if hasApprovalClass child.approvalRequiredFor pc then none
    else some ("approval_required_for",
      "parent requires approval class " ++ goQuote (classText pc) ++ " which child omits")

def narrowsParent (child parent : Manifest) (childPath parentPath : String) : Option NarrowingError :=
  ((pathsNarrowing "tools.filesystem.read" "read" (readPaths child) (readPaths parent)).or
    ((pathsNarrowing "tools.filesystem.write" "write" (writePaths child) (writePaths parent)).or
      ((networkNarrowing child parent).or
        ((apisNarrowing child parent).or
          ((writeGrantsNarrowing child parent).or
            ((execGrantsNarrowing child parent).or
              (approvalNarrowing child parent))))))).map
    fun widening => ⟨childPath,parentPath,widening.1,widening.2⟩

/-! ### What an accepted pair has in common -/

/-- The facts `narrowsParent` establishes about the sections that decisions read. -/
structure Narrows (child parent : Manifest) : Prop where
  read : ∀ c ∈ readPaths child,pathCovered c (readPaths parent) = true
  write : ∀ c ∈ writePaths child,pathCovered c (writePaths parent) = true
  network : ∀ n,child.tools.network = some n →
    networkSubset n.outbound (parentPolicy parent.tools.network true) = none ∧
      networkSubset n.inbound (parentPolicy parent.tools.network false) = none
  grants : ∀ cw ∈ child.writeGrants,∃ pw,findWriteGrant parent.writeGrants cw.resource = some pw ∧
    ∀ action ∈ cw.actions,action ∈ pw.actions
  programs : ∀ ce ∈ child.execGrants,∃ pe ∈ parent.execGrants,pe.program = ce.program
  approval : ∀ cls ∈ parent.approvalRequiredFor,cls ∈ child.approvalRequiredFor

theorem narrows_of_accepted {child parent : Manifest} {childPath parentPath : String}
    (accepted : narrowsParent child parent childPath parentPath = none) : Narrows child parent := by
  simp only [narrowsParent,Option.map_eq_none_iff,Option.or_eq_none_iff] at accepted
  obtain ⟨read,write,network,-,grants,programs,approval⟩ := accepted
  constructor
  · intro c listed
    have found := List.findSome?_eq_none_iff.mp read c listed
    simpa using found
  · intro c listed
    have found := List.findSome?_eq_none_iff.mp write c listed
    simpa using found
  · intro n present
    simpa [networkNarrowing,present,Option.or_eq_none_iff] using network
  · intro cw listed
    have found := List.findSome?_eq_none_iff.mp grants cw listed
    cases first : findWriteGrant parent.writeGrants cw.resource with
    | none => simp [first] at found
    | some pw => exact ⟨pw,rfl,by simpa [first,stringSubset] using found⟩
  · intro ce listed
    have found := List.findSome?_eq_none_iff.mp programs ce listed
    cases first : findExecGrant parent.execGrants ce.program with
    | none => simp [first] at found
    | some pe =>
      have named : pe.program = ce.program := by simpa using List.find?_some first
      exact ⟨pe,List.mem_of_find?_eq_some first,named⟩
  · intro cls listed
    have found := List.findSome?_eq_none_iff.mp approval cls listed
    simpa [hasApprovalClass] using found

/-! ### Strictness -/

def rank : DecisionKind → Nat
  | .Allow => 0
  | .RequireApproval => 1
  | .Deny => 2

/-- The child's answer is at least as strict as the parent's. -/
def AtLeastAsStrict (q : Query) (child parent : Manifest) : Prop :=
  rank (decide parent q).kind ≤ rank (decide child q).kind

theorem AtLeastAsStrict.trans {q : Query} {child middle parent : Manifest} (lower : AtLeastAsStrict q child middle)
    (upper : AtLeastAsStrict q middle parent) : AtLeastAsStrict q child parent :=
  Nat.le_trans upper lower

theorem rank_deny (kind : DecisionKind) : rank kind ≤ rank .Deny := by cases kind <;> decide

/-- What is at or under an entry that the parent covers is covered by the parent. -/
theorem pathCovered_trans {q : String} {child parent : List String} (absolute : ∀ p ∈ parent,isAbsolute p = true)
    (narrow : ∀ c ∈ child,pathCovered c parent = true) (covered : pathCovered q child = true) :
    pathCovered q parent = true := by
  simp only [pathCovered,List.any_eq_true,Bool.or_eq_true,decide_eq_true_eq,List.isPrefixOf_iff_prefix,or_assoc] at *
  obtain ⟨c,listed,under⟩ := covered
  obtain ⟨p,allowed,above⟩ := narrow c listed
  refine ⟨p,allowed,?_⟩
  rcases above with rfl | root | above
  · exact under
  · exact .inr (.inl root)
  · rcases under with rfl | rfl | under
    · exact .inr (.inr above)
    · have length := above.length_le
      have start := absolute p allowed
      have nonempty : p.toList ≠ [] := fun none => by simp [isAbsolute,none] at start
      have := List.length_pos_iff.mpr nonempty
      simp only [String.toList_append,List.length_append] at length
      rw [show "/".toList = ['/'] from rfl] at length
      simp only [List.length_singleton] at length
      omega
    · refine .inr (.inr (above.trans (List.IsPrefix.trans ?_ under)))
      simp [String.toList_append]

theorem upgrade_strict {child parent : Manifest} (narrow : Narrows child parent) {childBase parentBase : Decision}
    (allowed : childBase.kind = .Allow → parentBase.kind = .Allow) (denied : childBase.kind ≠ .RequireApproval)
    (cls : ApprovalClass) (reason : String) :
    rank (upgradeForApproval parentBase parent.approvalRequiredFor cls reason).kind ≤
      rank (upgradeForApproval childBase child.approvalRequiredFor cls reason).kind := by
  cases answer : childBase.kind with
  | Deny =>
    have same : upgradeForApproval childBase child.approvalRequiredFor cls reason = childBase := by
      simp [upgradeForApproval,answer]
    rw [same,answer]
    exact rank_deny _
  | RequireApproval => exact absurd answer denied
  | Allow =>
    have inherited := narrow.approval cls
    unfold upgradeForApproval
    simp only [allowed answer,answer,decide_true,Bool.true_and]
    by_cases required : hasApprovalClass parent.approvalRequiredFor cls = true
    · have kept : hasApprovalClass child.approvalRequiredFor cls = true := by
        simp only [hasApprovalClass,List.any_eq_true,decide_eq_true_eq,exists_eq_right] at required ⊢
        exact inherited required
      rw [if_pos required,if_pos kept]
    · rw [if_neg required,allowed answer]
      exact Nat.zero_le _

theorem evalNetwork_allow {policy : Option NetworkPolicy} {host protocol direction : String} {port : Int} :
    (evalNetwork policy host port protocol direction).kind = .Allow ↔
      ∃ p,policy = some p ∧ (p.mode = .Allow ∨
        (p.mode = .Allowlist ∧ ∃ e ∈ p.allowlist,matchesAllowEntry e host port protocol = true)) := by
  cases policy with
  | none => simp [evalNetwork,denyDecision]
  | some p =>
    simp only [evalNetwork,Option.some.injEq,exists_eq_left']
    cases mode : p.mode <;> simp [denyDecision,allowDecision]
    split <;> simp_all

theorem evalNetwork_narrows {child parent : Option NetworkPolicy} (narrow : networkSubset child parent = none)
    {host protocol direction : String} {port : Int}
    (allowed : (evalNetwork child host port protocol direction).kind = .Allow) :
    (evalNetwork parent host port protocol direction).kind = .Allow := by
  obtain ⟨c,rfl,granted⟩ := evalNetwork_allow.mp allowed
  have opened : modeOf c ≠ .Deny := by
    rcases granted with mode | ⟨mode,-⟩ <;> simp [modeOf,mode]
  cases parent with
  | none => simp [networkSubset,opened] at narrow
  | some p =>
    refine evalNetwork_allow.mpr ⟨p,rfl,?_⟩
    cases mode : p.mode with
    | Allow => exact .inl rfl
    | Deny => simp [networkSubset,modeOf,mode] at narrow opened; exact absurd (narrow opened.1) opened.2
    | Unset => simp [networkSubset,modeOf,mode] at narrow opened; exact absurd (narrow opened.1) opened.2
    | Allowlist =>
      rcases granted with whole | ⟨listed,e,member,found⟩
      · simp [networkSubset,modeOf,mode,whole] at narrow
      · simp only [networkSubset,modeOf,mode,listed,Option.map_some,Option.getD_some,reduceCtorEq,if_false,
          List.findSome?_eq_none_iff] at narrow
        have inherited := narrow e member
        refine .inr ⟨rfl,e,?_,found⟩
        simpa [networkEntryIn] using inherited

theorem evalNetwork_kind (policy : Option NetworkPolicy) (host : String) (port : Int) (protocol direction : String) :
    (evalNetwork policy host port protocol direction).kind ≠ .RequireApproval := by
  unfold evalNetwork
  cases policy with
  | none => simp [denyDecision]
  | some policy => simp only; split_ifs <;> simp [allowDecision,denyDecision]

/-! ### Write grants -/

/-- Whether a grant names the resource for the action. -/
def namesGrant (uri : String) (action : WriteAction) (g : WriteGrant) : Bool :=
  g.resource = uri && g.actions.any (· = action)

def namedGrants (m : Manifest) (uri : String) (action : WriteAction) : List WriteGrant :=
  m.writeGrants.filter (namesGrant uri action)

/-- The first grant that names the resource and is in its time window. -/
def activeGrant (m : Manifest) (uri : String) (action : WriteAction) (now sessionStart : Int) : Option WriteGrant :=
  (namedGrants m uri action).find? (fun g => grantTimeValid g now sessionStart)

/-- The state the loop ends in, from the grants that match and the one in its
    window. -/
def settle (state : GrantState) (matching : List WriteGrant) : Option WriteGrant → GrantState × Option WriteGrant
  | some g => (.Valid,some g)
  | none => (if matching = [] then state else .Expired,none)

theorem classifyLoop_eq (uri : String) (action : WriteAction) (now sessionStart : Int) :
    ∀ (grants : List WriteGrant) (state : GrantState),classifyLoop uri action now sessionStart state grants =
      settle state (grants.filter (namesGrant uri action))
        ((grants.filter (namesGrant uri action)).find? (fun g => grantTimeValid g now sessionStart))
  | [],state => rfl
  | g :: rest,state => by
    have later := classifyLoop_eq uri action now sessionStart rest
    rw [classifyLoop]
    by_cases resource : g.resource = uri
    · cases listed : g.actions.any (· = action) with
      | false =>
        have other : ¬ namesGrant uri action g = true := by simp [namesGrant,listed]
        rw [if_neg (not_not.mpr resource),if_pos (by rfl),List.filter_cons_of_neg other,later]
      | true =>
        have named : namesGrant uri action g = true := by simp [namesGrant,resource,listed]
        rw [if_neg (not_not.mpr resource),if_neg (by simp),List.filter_cons_of_pos named]
        cases valid : grantTimeValid g now sessionStart with
        | true => simp [List.find?_cons_of_pos,valid,settle]
        | false =>
          simp only [List.find?_cons,valid,Bool.false_eq_true,if_false,later]
          cases List.find? (fun g => grantTimeValid g now sessionStart) (rest.filter (namesGrant uri action)) <;>
            simp [settle]
    · have other : ¬ namesGrant uri action g = true := by simp [namesGrant,resource]
      rw [if_pos resource,List.filter_cons_of_neg other,later]

/-- The kind of a write or delete decision. -/
def writeKind (m : Manifest) (action : WriteAction) (cls : ApprovalClass) (uri : String) (now sessionStart : Int) :
    DecisionKind :=
  match activeGrant m uri action now sessionStart with
  | some g => if g.approvalRequired || hasApprovalClass m.approvalRequiredFor cls then .RequireApproval else .Allow
  | none =>
    if namedGrants m uri action = [] ∧ action = .Write ∧ pathCovered uri (writePaths m) = true then
      if hasApprovalClass m.approvalRequiredFor cls then .RequireApproval else .Allow
    else .Deny

theorem writeGrantDecision_kind (m : Manifest) (uri : String) (g : WriteGrant) (action : WriteAction) :
    (writeGrantDecision m uri g action).kind =
      if g.approvalRequired || hasApprovalClass m.approvalRequiredFor (if action = .Delete then .AnyDelete else .AnyWrite)
      then .RequireApproval else .Allow := by
  unfold writeGrantDecision
  cases action <;> simp only [reduceCtorEq,if_true,if_false] <;> split <;> rfl

theorem classifyWriteGrant_eq (m : Manifest) (uri : String) (action : WriteAction) (now sessionStart : Int) :
    classifyWriteGrant m uri action now sessionStart =
      settle .None (namedGrants m uri action) (activeGrant m uri action now sessionStart) :=
  classifyLoop_eq uri action now sessionStart m.writeGrants .None

theorem decideFsWrite_kind (m : Manifest) (uri : String) (now sessionStart : Int) :
    (decideFsWrite m uri now sessionStart).kind = writeKind m .Write .AnyWrite uri now sessionStart := by
  rw [decideFsWrite,classifyWriteGrant_eq,writeKind]
  cases activeGrant m uri .Write now sessionStart with
  | some g => exact writeGrantDecision_kind m uri g .Write
  | none =>
    by_cases silent : namedGrants m uri .Write = []
    · by_cases covered : pathCovered uri (writePaths m) = true
      · by_cases required : hasApprovalClass m.approvalRequiredFor .AnyWrite = true <;>
          simp [settle,silent,covered,required,upgradeForApproval,allowDecision,approvalDecision]
      · simp [settle,silent,covered,denyDecision]
    · simp [settle,silent,denyDecision]

theorem decideFsDelete_kind (m : Manifest) (uri : String) (now sessionStart : Int) :
    (decideFsDelete m uri now sessionStart).kind = writeKind m .Delete .AnyDelete uri now sessionStart := by
  rw [decideFsDelete,classifyWriteGrant_eq,writeKind]
  cases activeGrant m uri .Delete now sessionStart with
  | some g => exact writeGrantDecision_kind m uri g .Delete
  | none => by_cases silent : namedGrants m uri .Delete = [] <;> simp [settle,silent,denyDecision]

/-! ### When a narrowing child is strict -/

/-- The child has a grant in its window, or none at all and a path that covers. -/
def Opens (m : Manifest) (action : WriteAction) (uri : String) (now sessionStart : Int) : Prop :=
  activeGrant m uri action now sessionStart ≠ none ∨
    (namedGrants m uri action = [] ∧ action = .Write ∧ pathCovered uri (writePaths m) = true)

/-- An opened resource asks for approval. -/
def Asks (m : Manifest) (action : WriteAction) (cls : ApprovalClass) (uri : String) (now sessionStart : Int) : Prop :=
  (∃ g,activeGrant m uri action now sessionStart = some g ∧ g.approvalRequired = true) ∨ cls ∈ m.approvalRequiredFor

/-- The parent's grants for the resource are not all over, and where its first
    one in its window asks for approval so does the child. -/
structure WriteGuard (action : WriteAction) (cls : ApprovalClass) (uri : String) (now sessionStart : Int)
    (child parent : Manifest) : Prop where
  inWindow : namedGrants parent uri action = [] ∨ activeGrant parent uri action now sessionStart ≠ none
  approval : ∀ p,activeGrant parent uri action now sessionStart = some p → p.approvalRequired = true →
    Asks child action cls uri now sessionStart

/-- The first entry of a server lists the tool. -/
def ListsTool (m : Manifest) (server tool : String) : Prop :=
  ∃ s,m.tools.mcp.find? (fun s => s.serverName = server) = some s ∧ ∃ t ∈ s.allowedTools,t.name = tool

/-- What `narrowsParent` does not look at: the MCP servers, and the windows and
    approvals of write grants. -/
def Guarded (q : Query) (child parent : Manifest) : Prop :=
  match q.kind with
  | .FilesystemWrite => Opens child .Write q.resourceURI q.now q.sessionStart →
      WriteGuard .Write .AnyWrite q.resourceURI q.now q.sessionStart child parent
  | .FilesystemDelete => Opens child .Delete q.resourceURI q.now q.sessionStart →
      WriteGuard .Delete .AnyDelete q.resourceURI q.now q.sessionStart child parent
  | .MCPToolCall => ListsTool child q.mcpServer q.mcpTool → ListsTool parent q.mcpServer q.mcpTool
  | _ => True

theorem writeKind_closed {m : Manifest} {action : WriteAction} {uri : String} {now sessionStart : Int}
    (shut : ¬ Opens m action uri now sessionStart) (cls : ApprovalClass) :
    writeKind m action cls uri now sessionStart = .Deny := by
  simp only [Opens,not_or,not_not] at shut
  rw [writeKind,shut.1]
  exact if_neg shut.2

theorem writeKind_opened {m : Manifest} {action : WriteAction} {uri : String} {now sessionStart : Int}
    (opens : Opens m action uri now sessionStart) (cls : ApprovalClass) :
    (Asks m action cls uri now sessionStart ∧ writeKind m action cls uri now sessionStart = .RequireApproval) ∨
      (¬ Asks m action cls uri now sessionStart ∧ writeKind m action cls uri now sessionStart = .Allow) := by
  have listed : hasApprovalClass m.approvalRequiredFor cls = true ↔ cls ∈ m.approvalRequiredFor := by
    simp [hasApprovalClass]
  unfold Asks writeKind
  cases active : activeGrant m uri action now sessionStart with
  | some g =>
    by_cases own : g.approvalRequired = true
    · exact .inl ⟨.inl ⟨g,rfl,own⟩,by simp [own]⟩
    · by_cases required : cls ∈ m.approvalRequiredFor
      · exact .inl ⟨.inr required,by simp [listed.mpr required]⟩
      · have absent : hasApprovalClass m.approvalRequiredFor cls = false := by
          simpa using fun held => required (listed.mp held)
        exact .inr ⟨by simp [own,required],by simp [own,absent]⟩
  | none =>
    have covers := opens.resolve_left (by simp [active])
    simp only [if_pos covers]
    by_cases required : cls ∈ m.approvalRequiredFor
    · exact .inl ⟨.inr required,if_pos (listed.mpr required)⟩
    · exact .inr ⟨by simp [required],if_neg (fun held => required (listed.mp held))⟩

/-- A parent grant names whatever the child has a grant for. -/
theorem named_of_narrows {child parent : Manifest} (narrow : Narrows child parent) {uri : String} {action : WriteAction}
    {now sessionStart : Int} {c : WriteGrant} (active : activeGrant child uri action now sessionStart = some c) :
    namedGrants parent uri action ≠ [] := by
  have listed := List.mem_of_find?_eq_some active
  obtain ⟨granted,named⟩ := List.mem_filter.mp listed
  obtain ⟨resource,acts⟩ : c.resource = uri ∧ action ∈ c.actions := by simpa [namesGrant] using named
  obtain ⟨pw,found,actions⟩ := narrow.grants c granted
  have same : pw.resource = c.resource := by simpa using List.find?_some found
  refine List.ne_nil_of_mem (List.mem_filter.mpr ⟨List.mem_of_find?_eq_some found,?_⟩)
  simp only [namesGrant,same,resource,decide_true,Bool.true_and,List.any_eq_true,decide_eq_true_eq,exists_eq_right]
  exact actions action acts

/-- Strictness of a write or delete, in terms of what opens and what asks. -/
theorem writeKind_strict {child parent : Manifest} {action : WriteAction} {cls : ApprovalClass} {uri : String}
    {now sessionStart : Int} :
    rank (writeKind parent action cls uri now sessionStart) ≤ rank (writeKind child action cls uri now sessionStart) ↔
      (Opens child action uri now sessionStart → Opens parent action uri now sessionStart ∧
        (Asks parent action cls uri now sessionStart → Asks child action cls uri now sessionStart)) := by
  by_cases childOpens : Opens child action uri now sessionStart
  · by_cases parentOpens : Opens parent action uri now sessionStart
    · rcases writeKind_opened childOpens cls with ⟨childAsks,child⟩ | ⟨childAsks,child⟩ <;>
        rcases writeKind_opened parentOpens cls with ⟨parentAsks,parent⟩ | ⟨parentAsks,parent⟩ <;>
        simp [child,parent,childAsks,parentAsks,childOpens,parentOpens,rank]
    · rcases writeKind_opened childOpens cls with ⟨-,child⟩ | ⟨-,child⟩ <;>
        simp [child,writeKind_closed parentOpens,parentOpens,childOpens,rank]
  · simp [writeKind_closed childOpens,childOpens,rank_deny]

theorem write_strict_iff {child parent : Manifest} (narrow : Narrows child parent)
    (absolute : ∀ p ∈ writePaths parent,isAbsolute p = true) (action : WriteAction) (cls : ApprovalClass) (uri : String)
    (now sessionStart : Int) :
    rank (writeKind parent action cls uri now sessionStart) ≤ rank (writeKind child action cls uri now sessionStart) ↔
      (Opens child action uri now sessionStart → WriteGuard action cls uri now sessionStart child parent) := by
  rw [writeKind_strict]
  constructor
  · intro strict opens
    obtain ⟨parentOpens,asks⟩ := strict opens
    constructor
    · rcases parentOpens with active | ⟨silent,-⟩
      · exact .inr active
      · exact .inl silent
    · intro p active own
      exact asks (.inl ⟨p,active,own⟩)
  · intro guard opens
    obtain ⟨inWindow,approval⟩ := guard opens
    constructor
    · rcases inWindow with silent | active
      · rcases opens with childActive | ⟨-,write,covered⟩
        · obtain ⟨c,active⟩ := Option.ne_none_iff_exists'.mp childActive
          exact absurd silent (named_of_narrows narrow active)
        · exact .inr ⟨silent,write,pathCovered_trans absolute narrow.write covered⟩
      · exact .inl active
    · rintro (⟨p,active,own⟩ | required)
      · exact approval p active own
      · exact .inr (narrow.approval cls required)

/-! ### Every query -/

theorem decideNetwork_strict {child parent : Manifest} (narrow : Narrows child parent) (direction : Bool) (host : String)
    (port : Int) (protocol : String) :
    rank (decideNetwork parent direction host port protocol).kind ≤
      rank (decideNetwork child direction host port protocol).kind := by
  have allowed : ∀ dir,(evalNetwork (parentPolicy child.tools.network direction) host port protocol dir).kind = .Allow →
      (evalNetwork (parentPolicy parent.tools.network direction) host port protocol dir).kind = .Allow := by
    intro dir granted
    refine evalNetwork_narrows ?_ granted
    cases present : child.tools.network with
    | none => rfl
    | some n =>
      obtain ⟨out,inb⟩ := narrow.network n present
      cases direction
      · exact inb
      · exact out
  cases direction with
  | true =>
    exact upgrade_strict narrow (allowed "outbound") (evalNetwork_kind _ _ _ _ _) .AnyNetworkOutbound _
  | false =>
    change rank (evalNetwork (parentPolicy parent.tools.network false) host port protocol "inbound").kind ≤
      rank (evalNetwork (parentPolicy child.tools.network false) host port protocol "inbound").kind
    cases answer : (evalNetwork (parentPolicy child.tools.network false) host port protocol "inbound").kind with
    | Allow => rw [allowed "inbound" answer]
    | RequireApproval => exact absurd answer (evalNetwork_kind _ _ _ _ _)
    | Deny => exact rank_deny _

theorem decideExec_strict {child parent : Manifest} (narrow : Narrows child parent) (program : String) :
    rank (decideExec parent program).kind ≤ rank (decideExec child program).kind := by
  by_cases granted : child.execGrants.any (fun g => programMatches g.program program) = true
  · have inherited : parent.execGrants.any (fun g => programMatches g.program program) = true := by
      obtain ⟨ce,listed,found⟩ := List.any_eq_true.mp granted
      obtain ⟨pe,allowed,same⟩ := narrow.programs ce listed
      exact List.any_eq_true.mpr ⟨pe,allowed,by rw [same]; exact found⟩
    rw [decideExec,decideExec,if_pos granted,if_pos inherited]
    exact upgrade_strict narrow (fun _ => rfl) (by simp [allowDecision]) .AnyExec _
  · have denied : (decideExec child program).kind = .Deny := by rw [decideExec,if_neg granted]; rfl
    rw [denied]
    exact rank_deny _

theorem decideMCPTool_kind (m : Manifest) (server tool : String) :
    (ListsTool m server tool ∧ (decideMCPTool m server tool).kind = .Allow) ∨
      (¬ ListsTool m server tool ∧ (decideMCPTool m server tool).kind = .Deny) := by
  unfold decideMCPTool ListsTool
  cases found : m.tools.mcp.find? (fun s => s.serverName = server) with
  | none => exact .inr ⟨by simp,rfl⟩
  | some s =>
    by_cases listed : s.allowedTools.any (fun t => t.name = tool) = true
    · refine .inl ⟨⟨s,rfl,by simpa using listed⟩,by simp only [if_pos listed]; rfl⟩
    · refine .inr ⟨?_,by simp only [if_neg listed]; rfl⟩
      rintro ⟨_,⟨⟩,t,member,named⟩
      exact listed (List.any_eq_true.mpr ⟨t,member,by simpa using named⟩)

theorem decideMCPTool_strict_iff {child parent : Manifest} {server tool : String} :
    rank (decideMCPTool parent server tool).kind ≤ rank (decideMCPTool child server tool).kind ↔
      (ListsTool child server tool → ListsTool parent server tool) := by
  rcases decideMCPTool_kind child server tool with ⟨childLists,child⟩ | ⟨childLists,child⟩ <;>
    rcases decideMCPTool_kind parent server tool with ⟨parentLists,parent⟩ | ⟨parentLists,parent⟩ <;>
    simp [child,parent,childLists,parentLists,rank]

/-- A narrowing child is as strict as its parent exactly where the guard holds. -/
theorem narrows_strict_iff {child parent : Manifest} (narrow : Narrows child parent)
    (readAbsolute : ∀ p ∈ readPaths parent,isAbsolute p = true)
    (writeAbsolute : ∀ p ∈ writePaths parent,isAbsolute p = true) (q : Query) :
    AtLeastAsStrict q child parent ↔ Guarded q child parent := by
  unfold AtLeastAsStrict GoManifest.decide Guarded
  cases q.kind with
  | FilesystemRead =>
    refine iff_of_true ?_ trivial
    simp only [decideFsRead]
    by_cases covered : pathCovered q.resourceURI (readPaths child) = true
    · rw [if_pos (pathCovered_trans readAbsolute narrow.read covered)]
      exact Nat.zero_le _
    · rw [if_neg covered]
      exact rank_deny _
  | FilesystemWrite =>
    simp only [decideFsWrite_kind]
    exact write_strict_iff narrow writeAbsolute .Write .AnyWrite q.resourceURI q.now q.sessionStart
  | FilesystemDelete =>
    simp only [decideFsDelete_kind]
    exact write_strict_iff narrow writeAbsolute .Delete .AnyDelete q.resourceURI q.now q.sessionStart
  | NetworkOutbound => exact iff_of_true (decideNetwork_strict narrow true q.host q.port q.protocol) trivial
  | NetworkInbound => exact iff_of_true (decideNetwork_strict narrow false q.host q.port q.protocol) trivial
  | Exec => exact iff_of_true (decideExec_strict narrow q.resourceURI) trivial
  | MCPToolCall => exact decideMCPTool_strict_iff
  | Other text => exact iff_of_true (Nat.le_refl _) trivial

theorem parse_absolute {doc : Schema.Manifest} {m : Manifest} (loads : parse doc = some m) :
    (∀ p ∈ readPaths m,isAbsolute p = true) ∧ (∀ p ∈ writePaths m,isAbsolute p = true) := by
  obtain ⟨valid,rfl⟩ : doc.schemaValid = true ∧ ofDocument doc = m := by simpa [parse] using loads
  simp only [readPaths,writePaths,ofDocument,ofTools]
  cases present : doc.tools.filesystem with
  | none => simp
  | some fs =>
    constructor
    · exact fun p listed => Schema.schemaValid_absolute valid present (.inl listed)
    · exact fun p listed => Schema.schemaValid_absolute valid present (.inr listed)

/-! ### Resolution -/

/-- The documents under a working directory, by absolute path. -/
structure Files where
  cwd : String
  documents : String → Option Schema.Manifest

/-- `Load`: the document a path names, if it is there and passes the schema. -/
def load (files : Files) (path : String) : Option Manifest := (files.documents (absPath files.cwd path)).bind parse

/-- A reference is relative to the directory of the child. -/
def resolveExtendsPath (childPath ref : String) : String := if isAbsolute ref then ref else join (dir childPath) ref

inductive LoadError where
  | Unreadable (path : String)
  | Cycle (chain : List String)
  | Narrowing (error : NarrowingError)
  | OutOfFuel

structure ResolvedParent where
  manifest : Manifest
  path : String

/-- A manifest and its ancestors, closest first. -/
structure Resolved where
  child : Manifest
  path : String
  parents : List ResolvedParent

/-- The loop over the references of a child. -/
def loadParents (resolve : String → Except LoadError Resolved) (child : Manifest) (path : String) :
    List String → Except LoadError (List ResolvedParent)
  | [] => .ok []
  | ref :: rest =>
    match resolve (resolveExtendsPath path ref) with
    | .error error => .error error
    | .ok parentRes =>
      match narrowsParent child parentRes.child path (resolveExtendsPath path ref) with
      | some error => .error (.Narrowing error)
      | none =>
        match loadParents resolve child path rest with
        | .error error => .error error
        | .ok parents => .ok (⟨parentRes.child,resolveExtendsPath path ref⟩ :: parentRes.parents ++ parents)

def loadResolvedRec (files : Files) : Nat → String → List String → List String → Except LoadError Resolved
  | 0,_,_,_ => .error .OutOfFuel
  | fuel+1,path,visiting,chain =>
    let absolute := absPath files.cwd path
    if absolute ∈ visiting then .error (.Cycle (chain ++ [absolute]))
    else match load files path with
      | none => .error (.Unreadable path)
      | some child =>
        match loadParents (fun parentPath => loadResolvedRec files fuel parentPath (absolute :: visiting) (chain ++ [absolute]))
          child path child.extendsRefs with
        | .error error => .error error
        | .ok parents => .ok ⟨child,path,parents⟩

/-- `LoadResolved`, with a bound on how deep references may nest. -/
def loadResolved (files : Files) (fuel : Nat) (path : String) : Except LoadError Resolved :=
  loadResolvedRec files fuel path [] []

/-- The manifest at one path extends the one at another. -/
def Link (files : Files) (below above : String) : Prop :=
  ∃ m ref,load files below = some m ∧ ref ∈ m.extendsRefs ∧ above = resolveExtendsPath below ref

/-- Every link reachable from a path is guarded for the query. -/
def LinksGuarded (files : Files) (q : Query) (path : String) : Prop :=
  ∀ below above child parent,Relation.ReflTransGen (Link files) path below → Link files below above →
    load files below = some child → load files above = some parent → Guarded q child parent

theorem LinksGuarded.up {files : Files} {q : Query} {path above : String} (guarded : LinksGuarded files q path)
    (link : Link files path above) : LinksGuarded files q above :=
  fun below higher child parent reach => guarded below higher child parent (.head link reach)

/-- One turn of the loop: every ancestor a reference brings in is less strict. -/
theorem loadParents_strict {files : Files} {q : Query} {resolve : String → Except LoadError Resolved} {child : Manifest}
    {path : String} (loaded : load files path = some child) (guarded : LinksGuarded files q path)
    (sound : ∀ above r,LinksGuarded files q above → resolve above = .ok r →
      load files above = some r.child ∧ ∀ ancestor ∈ r.parents,AtLeastAsStrict q r.child ancestor.manifest) :
    ∀ refs : List String,(∀ ref ∈ refs,ref ∈ child.extendsRefs) → ∀ parents,
      loadParents resolve child path refs = .ok parents → ∀ ancestor ∈ parents,AtLeastAsStrict q child ancestor.manifest
  | [],_,parents,finished,ancestor,member => by
    obtain rfl : [] = parents := by simpa [loadParents] using finished
    exact absurd member (by simp)
  | ref :: rest,listed,parents,finished,ancestor,member => by
    rw [loadParents] at finished
    cases resolved : resolve (resolveExtendsPath path ref) with
    | error error => simp [resolved] at finished
    | ok parentRes =>
      cases widening : narrowsParent child parentRes.child path (resolveExtendsPath path ref) with
      | some error => simp [resolved,widening] at finished
      | none =>
        cases later : loadParents resolve child path rest with
        | error error => simp [resolved,widening,later] at finished
        | ok more =>
          simp only [resolved,widening,later,Except.ok.injEq] at finished
          subst finished
          have link : Link files path (resolveExtendsPath path ref) :=
            ⟨child,ref,loaded,listed ref List.mem_cons_self,rfl⟩
          obtain ⟨above,strict⟩ := sound _ parentRes (guarded.up link) resolved
          obtain ⟨doc,-,parsed⟩ : ∃ doc,files.documents (absPath files.cwd (resolveExtendsPath path ref)) = some doc ∧
              parse doc = some parentRes.child := by simpa [load,Option.bind_eq_some_iff] using above
          have direct : AtLeastAsStrict q child parentRes.child :=
            (narrows_strict_iff (narrows_of_accepted widening) (parse_absolute parsed).1 (parse_absolute parsed).2 q).mpr
              (guarded _ _ _ _ .refl link loaded above)
          rcases List.mem_append.mp member with inherited | other
          · rcases List.mem_cons.mp inherited with rfl | higher
            · exact direct
            · exact direct.trans (strict ancestor higher)
          · exact loadParents_strict loaded guarded sound rest
              (fun ref member => listed ref (List.mem_cons_of_mem _ member)) more later ancestor other

theorem loadResolvedRec_strict {files : Files} {q : Query} : ∀ (fuel : Nat) (path : String) (visiting chain : List String)
    (r : Resolved),LinksGuarded files q path → loadResolvedRec files fuel path visiting chain = .ok r →
      load files path = some r.child ∧ ∀ ancestor ∈ r.parents,AtLeastAsStrict q r.child ancestor.manifest
  | 0,_,_,_,_,_,finished => by simp [loadResolvedRec] at finished
  | fuel+1,path,visiting,chain,r,guarded,finished => by
    rw [loadResolvedRec] at finished
    by_cases cycle : absPath files.cwd path ∈ visiting
    · simp [cycle] at finished
    · simp only [if_neg cycle] at finished
      cases loaded : load files path with
      | none => simp [loaded] at finished
      | some child =>
        simp only [loaded] at finished
        split at finished
        · simp at finished
        · rename_i parents walked
          obtain rfl : (⟨child,path,parents⟩ : Resolved) = r := by simpa using finished
          refine ⟨rfl,?_⟩
          exact loadParents_strict loaded guarded (fun above r => loadResolvedRec_strict fuel above _ _ r)
            child.extendsRefs (fun ref member => member) parents walked

/-- A child that narrows its parent is as strict exactly where the guard holds,
    and a resolution whose links are all guarded never grants a leaf more than
    any of its ancestors. -/
theorem narrowing_strict (q : Query) :
    (∀ (childDoc parentDoc : Schema.Manifest) (child parent : Manifest) (childPath parentPath : String),
      parse childDoc = some child → parse parentDoc = some parent →
        narrowsParent child parent childPath parentPath = none →
          (AtLeastAsStrict q child parent ↔ Guarded q child parent)) ∧
    (∀ (files : Files) (fuel : Nat) (path : String) (r : Resolved),
      loadResolved files fuel path = .ok r → LinksGuarded files q path →
        ∀ ancestor ∈ r.parents,AtLeastAsStrict q r.child ancestor.manifest) := by
  constructor
  · intro childDoc parentDoc child parent childPath parentPath _ parsed accepted
    exact narrows_strict_iff (narrows_of_accepted accepted) (parse_absolute parsed).1 (parse_absolute parsed).2 q
  · intro files fuel path r finished guarded
    exact (loadResolvedRec_strict fuel path [] [] r guarded finished).2

/-- A grant that asks for approval, inherited from `org.yaml`. -/
def teamDocument : Schema.Manifest :=
  { Schema.closed with
    extendsRefs := ["org.yaml"]
    writeGrants := [⟨"/srv/out",[.Write],none,none,true⟩] }

def orgDocument : Schema.Manifest :=
  { Schema.closed with writeGrants := [⟨"/srv/out",[.Write,.Delete],none,none,true⟩] }

def teamFiles : Files where
  cwd := "/etc/aegis"
  documents := fun path =>
    if path = "/etc/aegis/team.yaml" then some teamDocument
    else if path = "/etc/aegis/org.yaml" then some orgDocument
    else none

def writeOut : Query := { kind := .FilesystemWrite,resourceURI := "/srv/out" }

private theorem load_team {path : String} {m : Manifest} (loaded : load teamFiles path = some m) :
    m = ofDocument teamDocument ∨ m = ofDocument orgDocument := by
  simp only [load,teamFiles] at loaded
  split_ifs at loaded
  · exact .inl (Option.some.inj loaded).symm
  · exact .inr (Option.some.inj loaded).symm
  · simp at loaded

/-- The inherited grant is as strict in the team's manifest as in the parent it
    resolves to. -/
theorem narrowing_strict_team :
    AtLeastAsStrict writeOut (ofDocument teamDocument) (ofDocument orgDocument) ∧
      ∃ r,loadResolved teamFiles 2 "team.yaml" = .ok r ∧ r.parents.length = 1 ∧
        ∀ ancestor ∈ r.parents,AtLeastAsStrict writeOut r.child ancestor.manifest := by
  have guard : ∀ child parent,(child = ofDocument teamDocument ∨ child = ofDocument orgDocument) →
      (parent = ofDocument teamDocument ∨ parent = ofDocument orgDocument) → Guarded writeOut child parent := by
    rintro child parent (rfl | rfl) (rfl | rfl) _ <;>
      exact ⟨.inr (by decide),fun p active own => .inl ⟨_,rfl,rfl⟩⟩
  constructor
  · exact ((narrowing_strict writeOut).1 teamDocument orgDocument _ _ "team.yaml" "org.yaml" rfl rfl rfl).mpr
      (guard _ _ (.inl rfl) (.inr rfl))
  · refine ⟨⟨ofDocument teamDocument,"team.yaml",[⟨ofDocument orgDocument,"org.yaml"⟩]⟩,rfl,rfl,?_⟩
    exact (narrowing_strict writeOut).2 teamFiles 2 "team.yaml" _ rfl
      (fun below above child parent _ _ lower upper => guard child parent (load_team lower) (load_team upper))

/-- A child that lists an MCP tool of which its parent knows nothing. -/
def mcpDocument : Schema.Manifest :=
  { Schema.closed with tools := ⟨none,none,[],[⟨"files","stdio:/bin/files",[.Name "read"],none,none⟩],none⟩ }

/-- The check accepts the child, which is granted what the parent is denied. -/
theorem narrowing_escalates :
    ¬ ∀ (q : Query) (childDoc parentDoc : Schema.Manifest) (child parent : Manifest) (childPath parentPath : String),
      parse childDoc = some child → parse parentDoc = some parent →
        narrowsParent child parent childPath parentPath = none → AtLeastAsStrict q child parent := by
  intro strict
  have escalated := strict { kind := .MCPToolCall,mcpServer := "files",mcpTool := "read" } mcpDocument Schema.closed
    (ofDocument mcpDocument) (ofDocument Schema.closed) "agent.yaml" "org.yaml" rfl rfl rfl
  exact absurd escalated (by unfold AtLeastAsStrict; decide)

end AegisNode.Extends
