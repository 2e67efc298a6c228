import AegisNode.Passage
import AegisNode.Aggregate

/-!
The order of declarations: what a manifest decides when its lists are permuted. The
decisions stay the same exactly when the grants that could decide together agree
and the entries of one MCP server list the same tools under the same cap.
-/
namespace AegisNode.DeclarationOrder
open Clock Schema Policy Aggregate FirstMatch Passage

/-! ### Permuted manifests -/

inductive PolicyPermuted : NetworkPolicy → NetworkPolicy → Prop
  | Mode (mode : NetworkMode) : PolicyPermuted (.Mode mode) (.Mode mode)
  | Allowlist {entries entries' : List NetworkAllowEntry} (perm : entries.Perm entries') :
      PolicyPermuted (.Allowlist entries) (.Allowlist entries')

structure FilesystemPermuted (fs fs' : Filesystem) : Prop where
  read : fs.read.Perm fs'.read
  write : fs.write.Perm fs'.write
  quota : fs'.quota = fs.quota
  approval : fs'.approval = fs.approval

structure NetworkPermuted (n n' : Network) : Prop where
  outbound : Option.Rel PolicyPermuted n.outbound n'.outbound
  inbound : Option.Rel PolicyPermuted n.inbound n'.inbound
  quota : n'.quota = n.quota
  approval : n'.approval = n.approval

structure ServerPermuted (s s' : McpServerGrant) : Prop where
  serverName : s'.serverName = s.serverName
  serverUri : s'.serverUri = s.serverUri
  allowedTools : s.allowedTools.Perm s'.allowedTools
  quota : s'.quota = s.quota
  approval : s'.approval = s.approval

/-- Each list in some order of its own; the servers' tools are permuted too. -/
structure Permuted (m m' : Manifest) : Prop where
  extendsRefs : m'.extendsRefs = m.extendsRefs
  filesystem : Option.Rel FilesystemPermuted m.tools.filesystem m'.tools.filesystem
  network : Option.Rel NetworkPermuted m.tools.network m'.tools.network
  apis : m'.tools.apis = m.tools.apis
  mcp : ∃ servers,m.tools.mcp.Perm servers ∧ List.Forall₂ ServerPermuted servers m'.tools.mcp
  toolsExec : m'.tools.exec = m.tools.exec
  writeGrants : m.writeGrants.Perm m'.writeGrants
  approvalRequiredFor : m'.approvalRequiredFor = m.approvalRequiredFor
  execGrants : m.execGrants.Perm m'.execGrants

theorem PolicyPermuted.refl (policy : NetworkPolicy) : PolicyPermuted policy policy := by
  cases policy with
  | Mode mode => exact .Mode mode
  | Allowlist entries => exact .Allowlist (.refl entries)

theorem rel_refl {α : Type} {r : α → α → Prop} (refl : ∀ a,r a a) (o : Option α) : Option.Rel r o o := by
  cases o with
  | none => exact .none
  | some a => exact .some (refl a)

theorem ServerPermuted.refl (s : McpServerGrant) : ServerPermuted s s := ⟨rfl,rfl,.refl _,rfl,rfl⟩

theorem Permuted.refl (m : Manifest) : Permuted m m where
  extendsRefs := rfl
  filesystem := rel_refl (fun _ => ⟨.refl _,.refl _,rfl,rfl⟩) _
  network := rel_refl (fun _ => ⟨rel_refl .refl _,rel_refl .refl _,rfl,rfl⟩) _
  apis := rfl
  mcp := ⟨_,.refl _,List.forall₂_same.mpr fun s _ => .refl s⟩
  toolsExec := rfl
  writeGrants := .refl _
  approvalRequiredFor := rfl
  execGrants := .refl _

/-- The kinds of all answers and the caps of all classes are the same. -/
structure Same [Chrono] (m m' : Manifest) : Prop where
  read : ∀ path,(checkFilesystemRead m' path).kind = (checkFilesystemRead m path).kind
  write : ∀ path now sessionStart,(checkFilesystemWrite m' path now sessionStart).map Decision.kind =
    (checkFilesystemWrite m path now sessionStart).map Decision.kind
  delete : ∀ path now sessionStart,(checkFilesystemDelete m' path now sessionStart).map Decision.kind =
    (checkFilesystemDelete m path now sessionStart).map Decision.kind
  outbound : ∀ host port protocol,
    (checkNetworkOutbound m' host port protocol).kind = (checkNetworkOutbound m host port protocol).kind
  inbound : ∀ host port protocol,
    (checkNetworkInbound m' host port protocol).kind = (checkNetworkInbound m host port protocol).kind
  exec : ∀ program,(checkExec m' program).kind = (checkExec m program).kind
  mcp : ∀ serverName toolName,(checkMcpTool m' serverName toolName).kind = (checkMcpTool m serverName toolName).kind
  caps : ∀ toolClass,capOf (quotaFor m' toolClass) = capOf (quotaFor m toolClass)

/-! ### Lookups by the first match -/

def lists (toolName : String) (s : McpServerGrant) : Bool := s.allowedTools.any fun t => t.name = toolName

/-- What the entry of a server adds to a lookup by name. -/
def entryOf {α : Type} (serverName : String) (reads : McpServerGrant → α) (s : McpServerGrant) : Option α :=
  if s.serverName = serverName then some (reads s) else none

theorem serverGrant_map {α : Type} (m : Manifest) (serverName : String) (reads : McpServerGrant → α) :
    (serverGrant m serverName).map reads = m.tools.mcp.findSome? (entryOf serverName reads) := by
  rw [serverGrant,find?_map]
  simp only [decide_eq_true_eq]
  rfl

theorem checkMcpTool_kind (m : Manifest) (serverName toolName : String) :
    (checkMcpTool m serverName toolName).kind =
      if (m.tools.mcp.findSome? (entryOf serverName (lists toolName))).getD false then .Allow else .Deny := by
  rw [← serverGrant_map,checkMcpTool]
  cases serverGrant m serverName with
  | none => rfl
  | some s =>
    simp only [Option.map_some,Option.getD_some,lists]
    rw [apply_ite Decision.kind]
    rfl

theorem capOf_quotaFor (m : Manifest) (serverName : String) :
    capOf (quotaFor m (.Mcp serverName)) =
      (m.tools.mcp.findSome? (entryOf serverName fun s => capOf s.quota)).getD none := by
  rw [← serverGrant_map,quotaFor,serverGrant]
  cases m.tools.mcp.find? (fun s => s.serverName = serverName) <;> rfl

theorem allowed_injective {a b : Bool}
    (same : (if a then DecisionKind.Allow else .Deny) = if b then DecisionKind.Allow else .Deny) : a = b := by
  cases a <;> cases b <;> simp at same ⊢

/-- A lookup in a permuted list of servers whose tools are permuted too. -/
theorem entryOf_permuted {α : Type} {serverName : String} {reads : McpServerGrant → α}
    (blind : ∀ s s',ServerPermuted s s' → reads s' = reads s) {servers servers' : List McpServerGrant}
    (alike : List.Forall₂ ServerPermuted servers servers') :
    servers'.findSome? (entryOf serverName reads) = servers.findSome? (entryOf serverName reads) := by
  refine findSome?_forall₂ (alike.imp fun s s' permuted => ?_)
  rw [entryOf,entryOf,permuted.serverName,blind s s' permuted]

theorem lists_permuted (toolName : String) (s s' : McpServerGrant) (permuted : ServerPermuted s s') :
    lists toolName s' = lists toolName s := permuted.allowedTools.any_eq.symm

theorem entryOf_some {α : Type} {serverName : String} {reads : McpServerGrant → α} {s : McpServerGrant} {a : α} :
    entryOf serverName reads s = some a ↔ s.serverName = serverName ∧ reads s = a := by
  unfold entryOf
  split_ifs with named <;> simp [named]

/-- Entries of one server that read alike are looked up alike. -/
theorem agree_entries {α : Type} {servers : List McpServerGrant} {reads : McpServerGrant → α} (serverName : String)
    (alike : ∀ s ∈ servers,∀ t ∈ servers,s.serverName = t.serverName → reads s = reads t) :
    Agree (entryOf serverName reads) servers := by
  intro s listed t other a b answers answersToo
  obtain ⟨named,rfl⟩ := entryOf_some.mp answers
  obtain ⟨namedToo,rfl⟩ := entryOf_some.mp answersToo
  exact alike s listed t other (named.trans namedToo.symm)

/-! ### What does not depend on the order -/

section
variable {m m' : Manifest} (permuted : Permuted m m')

theorem rel_cases {α β : Type} {r : α → β → Prop} {o : Option α} {o' : Option β} (related : Option.Rel r o o') :
    (o = none ∧ o' = none) ∨ ∃ a b,o = some a ∧ o' = some b ∧ r a b := by
  cases related with
  | none => exact .inl ⟨rfl,rfl⟩
  | some related => exact .inr ⟨_,_,rfl,rfl,related⟩

include permuted

theorem Permuted.readPaths : (readPaths m).Perm (readPaths m') := by
  unfold Policy.readPaths
  rcases rel_cases permuted.filesystem with ⟨absent,absent'⟩ | ⟨fs,fs',present,present',related⟩
  · rw [absent,absent']
  · rw [present,present']
    exact related.read

theorem Permuted.writePaths : (writePaths m).Perm (writePaths m') := by
  unfold Policy.writePaths
  rcases rel_cases permuted.filesystem with ⟨absent,absent'⟩ | ⟨fs,fs',present,present',related⟩
  · rw [absent,absent']
  · rw [present,present']
    exact related.write

theorem Permuted.outbound : Option.Rel PolicyPermuted (outbound m) (outbound m') := by
  unfold Policy.outbound
  rcases rel_cases permuted.network with ⟨absent,absent'⟩ | ⟨n,n',present,present',related⟩
  · rw [absent,absent']
    exact .none
  · rw [present,present']
    exact related.outbound

theorem Permuted.inbound : Option.Rel PolicyPermuted (inbound m) (inbound m') := by
  unfold Policy.inbound
  rcases rel_cases permuted.network with ⟨absent,absent'⟩ | ⟨n,n',present,present',related⟩
  · rw [absent,absent']
    exact .none
  · rw [present,present']
    exact related.inbound

omit permuted in
theorem networkDecision_permuted {policy policy' : Option NetworkPolicy} (related : Option.Rel PolicyPermuted policy policy')
    (host : String) (port : UInt16) (protocol : NetworkProto) (direction : String) :
    networkDecision policy' host port protocol direction = networkDecision policy host port protocol direction := by
  cases related with
  | none => rfl
  | some policies =>
    cases policies with
    | Mode mode => rfl
    | Allowlist perm => simp only [networkDecision,perm.any_eq]

theorem Permuted.upgrade (base : Decision) (cls : ApprovalClass) (reason : String) :
    upgradeForApproval m' base cls reason = upgradeForApproval m base cls reason := by
  unfold upgradeForApproval
  rw [permuted.approvalRequiredFor]

theorem Permuted.read (path : String) : (checkFilesystemRead m' path).kind = (checkFilesystemRead m path).kind := by
  unfold checkFilesystemRead pathsCover
  rw [permuted.readPaths.any_eq]

theorem Permuted.exec (program : String) : (checkExec m' program).kind = (checkExec m program).kind := by
  unfold checkExec
  rw [permuted.execGrants.any_eq,permuted.upgrade]

/-- Only the classes of MCP servers are looked up in a list. -/
theorem Permuted.quota {toolClass : ToolClass} (builtin : ∀ server,toolClass ≠ .Mcp server) :
    quotaFor m' toolClass = quotaFor m toolClass := by
  cases toolClass with
  | Filesystem =>
    unfold quotaFor
    rcases rel_cases permuted.filesystem with ⟨absent,absent'⟩ | ⟨fs,fs',present,present',related⟩
    · rw [absent,absent']
    · rw [present,present']
      exact related.quota
  | Network =>
    unfold quotaFor
    rcases rel_cases permuted.network with ⟨absent,absent'⟩ | ⟨n,n',present,present',related⟩
    · rw [absent,absent']
    · rw [present,present']
      exact related.quota
  | Exec =>
    unfold quotaFor
    rw [permuted.toolsExec]
  | Mcp server => exact absurd rfl (builtin server)

end

/-- A lookup of a server in a permuted manifest, where its entries read alike. -/
theorem Permuted.server {m m' : Manifest} (permuted : Permuted m m') {α : Type} {reads : McpServerGrant → α}
    (blind : ∀ s s',ServerPermuted s s' → reads s' = reads s) (serverName : String)
    (alike : ∀ s ∈ m.tools.mcp,∀ t ∈ m.tools.mcp,s.serverName = t.serverName → reads s = reads t) :
    m'.tools.mcp.findSome? (entryOf serverName reads) = m.tools.mcp.findSome? (entryOf serverName reads) := by
  obtain ⟨servers,perm,pairs⟩ := permuted.mcp
  rw [entryOf_permuted blind pairs]
  exact (agree_entries serverName alike).perm perm

theorem permuted_grants {m : Manifest} {grants : List WriteGrant} (perm : m.writeGrants.Perm grants) :
    Permuted m { m with writeGrants := grants } := { Permuted.refl m with writeGrants := perm }

theorem permuted_servers {m : Manifest} {servers : List McpServerGrant} (perm : m.tools.mcp.Perm servers) :
    Permuted m { m with tools := { m.tools with mcp := servers } } :=
  { Permuted.refl m with mcp := ⟨servers,perm,List.forall₂_same.mpr fun s _ => .refl s⟩ }

/-- What is decided when no grant is in its window. -/
def withoutGrant (m : Manifest) (path : String) : WriteAction → DecisionKind
  | .Write =>
    if m.writeGrants.any (names path .Write) then .Deny
    else if pathsCover path (writePaths m) then
      (upgradeForApproval m .Allow .AnyWrite "any_write requires approval").kind
    else .Deny
  | _ => .Deny

theorem Permuted.withoutGrant {m m' : Manifest} (permuted : Permuted m m') (path : String) (want : WriteAction) :
    withoutGrant m' path want = withoutGrant m path want := by
  cases want with
  | Write =>
    unfold DeclarationOrder.withoutGrant pathsCover
    rw [permuted.writeGrants.any_eq,permuted.writePaths.any_eq,permuted.upgrade]
  | _ => rfl

section
variable [Chrono]

/-- What a grant makes of a request, when it names it and is in its window. -/
def verdict (m : Manifest) (path : String) (want : WriteAction) (now sessionStart : Int) (g : WriteGrant) :
    Option (Checked DecisionKind) :=
  if names path want g then (window now sessionStart g).map (·.map (grantKind m · (actionClass want))) else none

theorem verdict_first (m : Manifest) (path : String) (want : WriteAction) (now sessionStart : Int) :
    m.writeGrants.findSome? (verdict m path want now sessionStart) =
      match classifyWriteGrant m path want now sessionStart with
      | .error panic => some (.error panic)
      | .ok (.Valid g) => some (.ok (grantKind m g (actionClass want)))
      | .ok _ => none := by
  unfold verdict
  rw [← findSome?_filter,← Function.comp_def,← List.map_findSome?]
  by_cases named : m.writeGrants.filter (names path want) = []
  · rw [classifyWriteGrant_none named,named]
    rfl
  · rw [classifyWriteGrant_named now sessionStart named,findValid_window]
    cases (m.writeGrants.filter (names path want)).findSome? (window now sessionStart) with
    | none => rfl
    | some answer => cases answer <;> rfl

theorem classifyWriteGrant_unnamed {m : Manifest} {path : String} {want : WriteAction} (now sessionStart : Int) :
    classifyWriteGrant m path want now sessionStart = .ok .None ↔ m.writeGrants.any (names path want) = false := by
  have empty : m.writeGrants.filter (names path want) = [] ↔ m.writeGrants.any (names path want) = false := by
    simp [List.filter_eq_nil_iff]
  rw [← empty]
  constructor
  · intro classified
    by_contra named
    rw [classifyWriteGrant_named now sessionStart named] at classified
    cases found : findValid now sessionStart (m.writeGrants.filter (names path want)) with
    | error panic => rw [found] at classified; cases classified
    | ok first => rw [found] at classified; cases first <;> cases classified
  · exact classifyWriteGrant_none

theorem checkFilesystemWrite_kind (m : Manifest) (path : String) (now sessionStart : Int) :
    (checkFilesystemWrite m path now sessionStart).map Decision.kind =
      (m.writeGrants.findSome? (verdict m path .Write now sessionStart)).getD (.ok (withoutGrant m path .Write)) := by
  rw [verdict_first,checkFilesystemWrite]
  cases classified : classifyWriteGrant m path .Write now sessionStart with
  | error panic => rfl
  | ok explicit =>
    cases explicit with
    | Valid g => exact congrArg Except.ok (writeDecision_kind m path g .Write)
    | Expired =>
      have named : m.writeGrants.any (names path .Write) = true := by
        rw [← Bool.not_eq_false,← classifyWriteGrant_unnamed now sessionStart,classified]
        simp
      simp [withoutGrant,named,Except.map,Decision.kind]
    | None =>
      have unnamed := (classifyWriteGrant_unnamed now sessionStart).mp classified
      simp only [withoutGrant,unnamed,Option.getD_none]
      by_cases covered : pathsCover path (writePaths m) = true
      · simp [covered,Except.map]
      · simp [covered,Except.map,Decision.kind]

theorem checkFilesystemDelete_kind (m : Manifest) (path : String) (now sessionStart : Int) :
    (checkFilesystemDelete m path now sessionStart).map Decision.kind =
      (m.writeGrants.findSome? (verdict m path .Delete now sessionStart)).getD (.ok (withoutGrant m path .Delete)) := by
  rw [verdict_first,checkFilesystemDelete]
  cases classifyWriteGrant m path .Delete now sessionStart with
  | error panic => rfl
  | ok explicit =>
    cases explicit with
    | Valid g => exact congrArg Except.ok (writeDecision_kind m path g .Delete)
    | Expired => rfl
    | None => rfl

/-! ### Decisions under a permutation -/

/-- Grants that could decide the same request together agree on what they make of
    it, and the entries of one server on its tools and its cap. -/
structure Uniform (m : Manifest) : Prop where
  grants : ∀ g ∈ m.writeGrants,∀ h ∈ m.writeGrants,∀ path want now sessionStart x y,want = .Write ∨ want = .Delete →
    names path want g = true → names path want h = true →
      window now sessionStart g = some x → window now sessionStart h = some y →
        x.map (grantKind m · (actionClass want)) = y.map (grantKind m · (actionClass want))
  tools : ∀ s ∈ m.tools.mcp,∀ t ∈ m.tools.mcp,s.serverName = t.serverName → ∀ toolName,lists toolName s = lists toolName t
  caps : ∀ s ∈ m.tools.mcp,∀ t ∈ m.tools.mcp,s.serverName = t.serverName → capOf s.quota = capOf t.quota

theorem verdict_some {m : Manifest} {path : String} {want : WriteAction} {now sessionStart : Int} {g : WriteGrant}
    {kind : Checked DecisionKind} : verdict m path want now sessionStart g = some kind ↔
      names path want g = true ∧ ∃ x,window now sessionStart g = some x ∧ x.map (grantKind m · (actionClass want)) = kind := by
  unfold verdict
  split_ifs with named <;> simp [named]

theorem Uniform.verdicts {m : Manifest} (uniform : Uniform m) {want : WriteAction} (action : want = .Write ∨ want = .Delete)
    (path : String) (now sessionStart : Int) : Agree (verdict m path want now sessionStart) m.writeGrants := by
  intro g listed h other kind kind' decides decidesToo
  obtain ⟨named,x,answers,rfl⟩ := verdict_some.mp decides
  obtain ⟨namedToo,y,answersToo,rfl⟩ := verdict_some.mp decidesToo
  exact uniform.grants g listed h other path want now sessionStart x y action named namedToo answers answersToo

theorem Permuted.verdict {m m' : Manifest} (permuted : Permuted m m') (path : String) (want : WriteAction)
    (now sessionStart : Int) : verdict m' path want now sessionStart = verdict m path want now sessionStart := by
  unfold DeclarationOrder.verdict grantKind
  rw [permuted.approvalRequiredFor]

theorem Uniform.same {m m' : Manifest} (uniform : Uniform m) (permuted : Permuted m m') : Same m m' where
  read := permuted.read
  write path now sessionStart := by
    rw [checkFilesystemWrite_kind,checkFilesystemWrite_kind,permuted.verdict,permuted.withoutGrant,
      (uniform.verdicts (.inl rfl) path now sessionStart).perm permuted.writeGrants]
  delete path now sessionStart := by
    rw [checkFilesystemDelete_kind,checkFilesystemDelete_kind,permuted.verdict,permuted.withoutGrant,
      (uniform.verdicts (.inr rfl) path now sessionStart).perm permuted.writeGrants]
  outbound host port protocol := by
    unfold checkNetworkOutbound
    rw [networkDecision_permuted permuted.outbound,permuted.upgrade]
  inbound host port protocol := by
    unfold checkNetworkInbound
    rw [networkDecision_permuted permuted.inbound]
  exec := permuted.exec
  mcp serverName toolName := by
    rw [checkMcpTool_kind,checkMcpTool_kind,permuted.server (lists_permuted toolName) serverName]
    intro s listed t other same
    exact uniform.tools s listed t other same toolName
  caps toolClass := by
    by_cases server : ∃ serverName,toolClass = .Mcp serverName
    · obtain ⟨serverName,rfl⟩ := server
      rw [capOf_quotaFor,capOf_quotaFor,
        permuted.server (fun s s' permuted => congrArg capOf permuted.quota) serverName uniform.caps]
    · rw [permuted.quota fun serverName same => server ⟨serverName,same⟩]

/-- Where every order decides the same, the answers of the grants agree. -/
theorem verdicts_of_same {m : Manifest} (same : ∀ m',Permuted m m' → Same m m') {want : WriteAction}
    (action : want = .Write ∨ want = .Delete) (path : String) (now sessionStart : Int) :
    Agree (verdict m path want now sessionStart) m.writeGrants := by
  rw [agree_iff_perm]
  intro grants perm
  have permuted := permuted_grants perm
  rcases action with rfl | rfl
  · have kinds := (same _ permuted).write path now sessionStart
    rw [checkFilesystemWrite_kind,checkFilesystemWrite_kind,permuted.verdict,permuted.withoutGrant] at kinds
    exact findSome?_getD perm kinds
  · have kinds := (same _ permuted).delete path now sessionStart
    rw [checkFilesystemDelete_kind,checkFilesystemDelete_kind,permuted.verdict,permuted.withoutGrant] at kinds
    exact findSome?_getD perm kinds

theorem tools_of_same {m : Manifest} (same : ∀ m',Permuted m m' → Same m m') (serverName toolName : String) :
    Agree (entryOf serverName (lists toolName)) m.tools.mcp := by
  rw [agree_iff_perm]
  intro servers perm
  have kinds := (same _ (permuted_servers perm)).mcp serverName toolName
  rw [checkMcpTool_kind,checkMcpTool_kind] at kinds
  exact findSome?_getD perm (allowed_injective kinds)

theorem caps_of_same {m : Manifest} (same : ∀ m',Permuted m m' → Same m m') (serverName : String) :
    Agree (entryOf serverName fun s => capOf s.quota) m.tools.mcp := by
  rw [agree_iff_perm]
  intro servers perm
  have caps := (same _ (permuted_servers perm)).caps (.Mcp serverName)
  rw [capOf_quotaFor,capOf_quotaFor] at caps
  exact findSome?_getD perm caps

/-- A manifest decides and caps the same in every order of its lists exactly when it
    is uniform. -/
theorem order_irrelevant_iff (m : Manifest) : (∀ m',Permuted m m' → Same m m') ↔ Uniform m := by
  constructor
  · intro same
    refine ⟨?_,?_,?_⟩
    · intro g listed h other path want now sessionStart x y action named namedToo answers answersToo
      exact verdicts_of_same same action path now sessionStart g listed h other _ _
        (verdict_some.mpr ⟨named,x,answers,rfl⟩) (verdict_some.mpr ⟨namedToo,y,answersToo,rfl⟩)
    · intro s listed t other named toolName
      exact tools_of_same same t.serverName toolName s listed t other _ _
        (entryOf_some.mpr ⟨named,rfl⟩) (entryOf_some.mpr ⟨rfl,rfl⟩)
    · intro s listed t other named
      exact caps_of_same same t.serverName s listed t other _ _
        (entryOf_some.mpr ⟨named,rfl⟩) (entryOf_some.mpr ⟨rfl,rfl⟩)
  · intro uniform m' permuted
    exact uniform.same permuted

end

/-! ### A server with two entries -/

/-- The first entry of the server lists a tool, the second one none. -/
def listedTwice : Manifest :=
  { closed with tools := { closed.tools with
      mcp := [⟨"s","stdio:s",[.Name "t"],none,none⟩,⟨"s","stdio:s",[],none,none⟩] } }

theorem order_relevant : ¬ ∀ [Chrono] (m m' : Manifest),Permuted m m' → Same m m' := by
  intro same
  let _ := epochChrono
  have kinds := (same listedTwice _ (permuted_servers (List.Perm.swap _ _ _))).mcp "s" "t"
  revert kinds
  decide

end AegisNode.DeclarationOrder
