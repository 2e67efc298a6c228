import AegisNode.Reference
import AegisNode.Turn

/-!
The names of MCP tools in the catalog: when the dispatch of a listed name reaches
exactly the server and the tool that the name was formed from.
-/
namespace AegisNode.Routing
open Text Clock Json Schema Policy Traced Backend Engine Mediator Turn
open Ledger hiding Error

/-! ### Names -/

theorem splitMcpName_some {name serverName toolName : String} (split : splitMcpName name = some (serverName,toolName)) :
    splitOnce "__".toList name.toList = some (serverName.toList,toolName.toList) ∧ serverName ≠ "" ∧ toolName ≠ "" := by
  unfold splitMcpName at split
  split at split
  · rename_i server tool cut
    split_ifs at split with empty
    cases split
    rw [not_or] at empty
    refine ⟨by simpa using cut,?_,?_⟩
    · simpa using empty.1
    · simpa using empty.2
  · cases split

/-- A formed name is cut back into its parts exactly if both are there and no `__`
    starts before the one that joins them. -/
theorem splitMcpName_formatMcpName (serverName toolName : String) :
    splitMcpName (formatMcpName serverName toolName) = some (serverName,toolName) ↔
      serverName ≠ "" ∧ toolName ≠ "" ∧ ¬ "__".toList <:+: serverName.toList ++ ['_'] := by
  have whole : (formatMcpName serverName toolName).toList = serverName.toList ++ "__".toList ++ toolName.toList := by
    rw [formatMcpName,String.toList_append,String.toList_append]
  have cut := splitOnce_append_iff (show "__".toList ≠ [] by decide) serverName.toList toolName.toList
  constructor
  · intro split
    obtain ⟨once,server,tool⟩ := splitMcpName_some split
    rw [whole] at once
    exact ⟨server,tool,cut.mp once⟩
  · rintro ⟨server,tool,first⟩
    have once := cut.mpr first
    have both : ¬ (serverName.toList = [] ∨ toolName.toList = []) := by
      rintro (none | none)
      · exact server (by simpa using none)
      · exact tool (by simpa using none)
    rw [splitMcpName,whole,once]
    dsimp only
    rw [if_neg both,String.ofList_toList,String.ofList_toList]

theorem routeOf_mcp {name serverName toolName : String} :
    routeOf name = some (.Mcp serverName toolName) ↔
      splitMcpName name = some (serverName,toolName) ∧ serverName ∉ reservedNativeNamespaces := by
  rw [routeOf,Option.map_eq_some_iff]
  constructor
  · rintro ⟨⟨server,tool⟩,split,route⟩
    split_ifs at route with filesystem network exec
    cases route
    refine ⟨split,?_⟩
    simp only [reservedNativeNamespaces,List.mem_cons,List.not_mem_nil,or_false]
    tauto
  · rintro ⟨split,free⟩
    simp only [reservedNativeNamespaces,List.mem_cons,List.not_mem_nil,or_false,not_or] at free
    exact ⟨_,split,by rw [if_neg free.1,if_neg free.2.1,if_neg free.2.2]⟩

/-! ### Listed pairs -/

/-- The MCP pairs whose names the catalog lists. -/
def listedPairs (policy : Manifest) : List (String × String) :=
  policy.tools.mcp.flatMap (fun server => server.allowedTools.map (fun tool => (server.serverName,tool.name)))

theorem mcpDecls_names (policy : Manifest) :
    (mcpDecls policy).map (·.name) = (listedPairs policy).map (fun pair => formatMcpName pair.1 pair.2) := by
  simp [mcpDecls,listedPairs,List.map_flatMap,Function.comp_def,mcpDecl]

/-- What the names of the catalog should do: each leads to its own pair, which the
    allowlist does not deny, different pairs have different names, and none leads to a
    native mediator. -/
structure RoutesFaithfully (policy : Manifest) : Prop where
  reaches : ∀ pair ∈ listedPairs policy,routeOf (formatMcpName pair.1 pair.2) = some (.Mcp pair.1 pair.2)
  granted : ∀ pair ∈ listedPairs policy,∀ reason,checkMcpTool policy pair.1 pair.2 ≠ .Deny reason
  distinct : ∀ pair ∈ listedPairs policy,∀ other ∈ listedPairs policy,pair ≠ other →
    formatMcpName pair.1 pair.2 ≠ formatMcpName other.1 other.2
  foreign : ∀ pair ∈ listedPairs policy,∀ toolName,routeOf (formatMcpName pair.1 pair.2) ≠ some (.Filesystem toolName) ∧
    routeOf (formatMcpName pair.1 pair.2) ≠ some (.Network toolName) ∧
    routeOf (formatMcpName pair.1 pair.2) ≠ some (.Exec toolName)

/-- Each listed pair has two names, the server's neither holds `__` nor ends in `_`,
    and the first entry of the server lists the tool. -/
def Separable (policy : Manifest) : Prop :=
  ∀ pair ∈ listedPairs policy,pair.1 ≠ "" ∧ pair.2 ≠ "" ∧ ¬ "__".toList <:+: pair.1.toList ++ ['_'] ∧
    ∃ grant,serverGrant policy pair.1 = some grant ∧ ∃ tool ∈ grant.allowedTools,tool.name = pair.2

theorem listedPairs_server {policy : Manifest} {pair : String × String} (listed : pair ∈ listedPairs policy) :
    ∃ server ∈ policy.tools.mcp,server.serverName = pair.1 := by
  obtain ⟨server,member,inside⟩ := List.mem_flatMap.mp listed
  obtain ⟨tool,-,rfl⟩ := List.mem_map.mp inside
  exact ⟨server,member,rfl⟩

theorem unreserved {policy : Manifest} (accepted : rejectReserved policy = .ok ()) {pair : String × String}
    (listed : pair ∈ listedPairs policy) : pair.1 ∉ reservedNativeNamespaces := by
  obtain ⟨server,member,name⟩ := listedPairs_server listed
  unfold rejectReserved at accepted
  split at accepted
  · cases accepted
  · rename_i none
    have free := List.find?_eq_none.mp none server member
    rw [name] at free
    simpa using free

section
variable [Chrono] [Serde] [Sha256] [Identity] [World]

/-- A name that leads to an MCP pair is dispatched to the mediator with that pair. -/
theorem dispatchToolCall_mcp {call : ToolCall} {serverName toolName : String}
    (route : routeOf call.name = some (.Mcp serverName toolName)) (rsid : Option String) :
    dispatchToolCall call rsid = (do
      let dispatched ← attempt caught (mediateMcpToolCall serverName toolName call.arguments rsid)
      let result ← toolCallResult dispatched
      return ⟨call.name,call.arguments,result,none⟩) := by
  unfold dispatchToolCall
  rw [route]
  rfl

variable [Adversarial.PerlWord]

/-- The catalog of a booted session routes faithfully exactly if its pairs are
    separable. -/
theorem routing_exact {cfg : BootConfig} {booted : Session} (boots : boot cfg = .ok booted) :
    RoutesFaithfully booted.policy ↔ Separable booted.policy := by
  have accepted := (boot_booted boots).unreserved
  constructor
  · intro faithful pair listed
    obtain ⟨split,-⟩ := routeOf_mcp.mp (faithful.reaches pair listed)
    obtain ⟨server,tool,first⟩ := (splitMcpName_formatMcpName pair.1 pair.2).mp split
    refine ⟨server,tool,first,checkMcpTool_allow.mp ?_⟩
    rcases checkMcpTool_allow_or_deny booted.policy pair.1 pair.2 with allow | ⟨reason,deny⟩
    · exact allow
    · exact absurd deny (faithful.granted pair listed reason)
  · intro separable
    have reaches : ∀ pair ∈ listedPairs booted.policy,
        routeOf (formatMcpName pair.1 pair.2) = some (.Mcp pair.1 pair.2) := by
      intro pair listed
      obtain ⟨server,tool,first,-⟩ := separable pair listed
      have split := (splitMcpName_formatMcpName pair.1 pair.2).mpr ⟨server,tool,first⟩
      exact routeOf_mcp.mpr ⟨split,unreserved accepted listed⟩
    refine ⟨reaches,?_,?_,?_⟩
    · intro pair listed reason deny
      obtain ⟨-,-,-,granted⟩ := separable pair listed
      rw [checkMcpTool_allow.mpr granted] at deny
      cases deny
    · intro pair listed other otherListed different same
      have route := reaches pair listed
      rw [same,reaches other otherListed] at route
      cases pair
      cases other
      cases route
      exact different rfl
    · intro pair listed toolName
      rw [reaches pair listed]
      simp

end

section
open Reference

/-- One server and one tool. -/
theorem routing_exact_one :
    let _ := calmWorld (serving [.Name "read"])
    ∃ booted,boot config = .ok booted ∧ (RoutesFaithfully booted.policy ↔ Separable booted.policy) := by
  intro world
  obtain ⟨booted,boots,-,-⟩ := calm_boots (serving [.Name "read"]) rfl rfl
  exact ⟨booted,boots,routing_exact boots⟩

/-- A server whose name holds the separator. -/
def separated : Manifest := { closed with tools := ⟨none,none,[],[⟨"a__b","stdio:/bin/ab",[.Name "c"],none,none⟩],none⟩ }

/-- The name `a__b__c` leads to the server `a`. -/
theorem routing_strays :
    let _ := calmWorld separated
    ∃ booted,boot config = .ok booted ∧ ("a__b","c") ∈ listedPairs booted.policy ∧
      routeOf (formatMcpName "a__b" "c") = some (.Mcp "a" "b__c") ∧ ¬ RoutesFaithfully booted.policy := by
  intro world
  obtain ⟨booted,boots,fresh,-⟩ := calm_boots separated rfl rfl
  have listed : ("a__b","c") ∈ listedPairs booted.policy := by
    rw [fresh.policy]
    decide
  have route : routeOf (formatMcpName "a__b" "c") = some (.Mcp "a" "b__c") := by decide
  refine ⟨booted,boots,listed,route,?_⟩
  intro faithful
  have reached := faithful.reaches ("a__b","c") listed
  rw [route] at reached
  revert reached
  decide

end

end AegisNode.Routing
