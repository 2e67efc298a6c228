import AegisNode.Extends
import AegisNode.FirstMatch

/-!
Narrowing as an order. Each section of a manifest is compared on its own; where entries
are found by their name, only the first of a name counts.
-/
namespace AegisNode.Narrowing
open Text Paths GoManifest Extends FirstMatch

/-! ### The sections -/

/-- The child's policy permits no more than the parent's. -/
def NetworkBelow (child parent : Option NetworkPolicy) : Prop :=
  ∀ c,child = some c → modeOf c = .Deny ∨ ∃ p,parent = some p ∧
    (modeOf p = .Allow ∨ modeOf p = .Allowlist ∧ modeOf c = .Allowlist ∧ ∀ e ∈ c.allowlist,e ∈ p.allowlist)

def MethodsBelow (child parent : APIGrant) : Prop := ∀ m ∈ child.methods,m ∈ parent.methods

def ActionsBelow (child parent : WriteGrant) : Prop := ∀ action ∈ child.actions,action ∈ parent.actions

def ArgsBelow (child parent : ExecGrant) : Prop := parent.argsMatch = "" ∨ parent.argsMatch = child.argsMatch

/-- All that the check compares. -/
structure Below (child parent : Manifest) : Prop where
  read : ∀ c ∈ readPaths child,pathCovered c (readPaths parent) = true
  write : ∀ c ∈ writePaths child,pathCovered c (writePaths parent) = true
  outbound : NetworkBelow (parentPolicy child.tools.network true) (parentPolicy parent.tools.network true)
  inbound : NetworkBelow (parentPolicy child.tools.network false) (parentPolicy parent.tools.network false)
  apis : FirstCovers APIGrant.name MethodsBelow child.tools.apis parent.tools.apis
  grants : FirstCovers WriteGrant.resource ActionsBelow child.writeGrants parent.writeGrants
  programs : FirstCovers ExecGrant.program ArgsBelow child.execGrants parent.execGrants
  approval : ∀ cls ∈ parent.approvalRequiredFor,cls ∈ child.approvalRequiredFor

theorem modeOf_set (policy : NetworkPolicy) : modeOf policy ≠ .Unset := by
  unfold modeOf
  split_ifs with unset
  · exact NetworkMode.noConfusion
  · exact unset

theorem networkSubset_none_iff {child parent : Option NetworkPolicy} :
    networkSubset child parent = none ↔ NetworkBelow child parent := by
  cases child with
  | none => simp [networkSubset,NetworkBelow]
  | some c =>
    have setChild := modeOf_set c
    cases parent with
    | none => simp [networkSubset,NetworkBelow]
    | some p =>
      have setParent := modeOf_set p
      simp only [networkSubset,NetworkBelow,Option.map_some,Option.getD_some,Option.some.injEq,forall_eq',exists_eq_left']
      cases parentMode : modeOf p <;> cases childMode : modeOf c <;> simp_all [networkEntryIn]

theorem pathsNarrowing_none_iff {field kind : String} {child parent : List String} :
    pathsNarrowing field kind child parent = none ↔ ∀ c ∈ child,pathCovered c parent = true := by
  simp [pathsNarrowing,List.findSome?_eq_none_iff]

theorem networkNarrowing_none_iff {child parent : Manifest} : networkNarrowing child parent = none ↔
    NetworkBelow (parentPolicy child.tools.network true) (parentPolicy parent.tools.network true) ∧
      NetworkBelow (parentPolicy child.tools.network false) (parentPolicy parent.tools.network false) := by
  rw [networkNarrowing]
  cases child.tools.network with
  | none => simp [parentPolicy,NetworkBelow]
  | some network => simp [Option.or_eq_none_iff,networkSubset_none_iff,parentPolicy]

theorem stringSubset_iff {α : Type} [DecidableEq α] {child parent : List α} :
    stringSubset child parent = true ↔ ∀ c ∈ child,c ∈ parent := by simp [stringSubset]

theorem apisNarrowing_none_iff {child parent : Manifest} : apisNarrowing child parent = none ↔
    FirstCovers APIGrant.name MethodsBelow child.tools.apis parent.tools.apis := by
  rw [apisNarrowing,List.findSome?_eq_none_iff]
  refine forall₂_congr fun ca _ => ?_
  rw [findAPI]
  cases parent.tools.apis.find? (fun g => g.name = ca.name) with
  | none => simp
  | some pa => simp [MethodsBelow,stringSubset_iff]

theorem writeGrantsNarrowing_none_iff {child parent : Manifest} : writeGrantsNarrowing child parent = none ↔
    FirstCovers WriteGrant.resource ActionsBelow child.writeGrants parent.writeGrants := by
  rw [writeGrantsNarrowing,List.findSome?_eq_none_iff]
  refine forall₂_congr fun cw _ => ?_
  rw [findWriteGrant]
  cases parent.writeGrants.find? (fun g => g.resource = cw.resource) with
  | none => simp
  | some pw => simp [ActionsBelow,stringSubset_iff]

theorem execGrantsNarrowing_none_iff {child parent : Manifest} : execGrantsNarrowing child parent = none ↔
    FirstCovers ExecGrant.program ArgsBelow child.execGrants parent.execGrants := by
  rw [execGrantsNarrowing,List.findSome?_eq_none_iff]
  refine forall₂_congr fun ce _ => ?_
  rw [findExecGrant]
  cases parent.execGrants.find? (fun g => g.program = ce.program) with
  | none => simp
  | some pe =>
    by_cases free : pe.argsMatch = ""
    · simp [ArgsBelow,free]
    · simp [ArgsBelow,free]

theorem approvalNarrowing_none_iff {child parent : Manifest} : approvalNarrowing child parent = none ↔
    ∀ cls ∈ parent.approvalRequiredFor,cls ∈ child.approvalRequiredFor := by
  simp [approvalNarrowing,List.findSome?_eq_none_iff,hasApprovalClass]

/-- The check reports nothing just when every section is below. -/
theorem accepted_iff {child parent : Manifest} {childPath parentPath : String} :
    narrowsParent child parent childPath parentPath = none ↔ Below child parent := by
  simp only [narrowsParent,Option.map_eq_none_iff,Option.or_eq_none_iff,pathsNarrowing_none_iff,networkNarrowing_none_iff,
    apisNarrowing_none_iff,writeGrantsNarrowing_none_iff,execGrantsNarrowing_none_iff,approvalNarrowing_none_iff]
  constructor
  · rintro ⟨read,write,⟨outbound,inbound⟩,apis,grants,programs,approval⟩
    exact ⟨read,write,outbound,inbound,apis,grants,programs,approval⟩
  · rintro ⟨read,write,outbound,inbound,apis,grants,programs,approval⟩
    exact ⟨read,write,⟨outbound,inbound⟩,apis,grants,programs,approval⟩

/-! ### The order -/

theorem NetworkBelow.refl (policy : Option NetworkPolicy) : NetworkBelow policy policy := by
  intro c present
  have set := modeOf_set c
  cases mode : modeOf c with
  | Unset => exact absurd mode set
  | Deny => exact .inl rfl
  | Allow => exact .inr ⟨c,present,.inl mode⟩
  | Allowlist => exact .inr ⟨c,present,.inr ⟨mode,rfl,fun e listed => listed⟩⟩

theorem NetworkBelow.trans {child middle parent : Option NetworkPolicy} (lower : NetworkBelow child middle)
    (upper : NetworkBelow middle parent) : NetworkBelow child parent := by
  intro c present
  rcases lower c present with denies | ⟨m,rfl,permits⟩
  · exact .inl denies
  · rcases upper m rfl with denies | ⟨p,rfl,higher⟩
    · rcases permits with allows | ⟨lists,-,-⟩
      · rw [denies] at allows
        cases allows
      · rw [denies] at lists
        cases lists
    · refine .inr ⟨p,rfl,?_⟩
      rcases higher with allows | ⟨lists,middleLists,all⟩
      · exact .inl allows
      · rcases permits with allows | ⟨-,childLists,some_⟩
        · rw [middleLists] at allows
          cases allows
        · exact .inr ⟨lists,childLists,fun e listed => all e (some_ e listed)⟩

theorem MethodsBelow.refl (grant : APIGrant) : MethodsBelow grant grant := fun _ listed => listed

theorem ActionsBelow.refl (grant : WriteGrant) : ActionsBelow grant grant := fun _ listed => listed

theorem ArgsBelow.refl (grant : ExecGrant) : ArgsBelow grant grant := .inr rfl

theorem ArgsBelow.trans (child middle parent : ExecGrant) (lower : ArgsBelow child middle) (upper : ArgsBelow middle parent) :
    ArgsBelow child parent := by
  rcases upper with free | same
  · exact .inl free
  · rcases lower with free | other
    · exact .inl (same.trans free)
    · exact .inr (same.trans other)

theorem Below.trans {child middle parent : Manifest} (readAbsolute : ∀ p ∈ readPaths parent,isAbsolute p = true)
    (writeAbsolute : ∀ p ∈ writePaths parent,isAbsolute p = true) (lower : Below child middle) (upper : Below middle parent) :
    Below child parent where
  read := fun c listed => pathCovered_trans readAbsolute upper.read (lower.read c listed)
  write := fun c listed => pathCovered_trans writeAbsolute upper.write (lower.write c listed)
  outbound := lower.outbound.trans upper.outbound
  inbound := lower.inbound.trans upper.inbound
  apis := lower.apis.trans (fun _ _ _ first second m listed => second m (first m listed)) upper.apis
  grants := lower.grants.trans (fun _ _ _ first second action listed => second action (first action listed)) upper.grants
  programs := lower.programs.trans ArgsBelow.trans upper.programs
  approval := fun cls required => lower.approval cls (upper.approval cls required)

/-- No entry exceeds the first one of its name. -/
structure FirstsLead (m : Manifest) : Prop where
  apis : FirstLeads APIGrant.name MethodsBelow m.tools.apis
  grants : FirstLeads WriteGrant.resource ActionsBelow m.writeGrants
  programs : FirstLeads ExecGrant.program ArgsBelow m.execGrants

theorem pathCovered_self {c : String} {paths : List String} (listed : c ∈ paths) : pathCovered c paths = true := by
  rw [pathCovered,List.any_eq_true]
  exact ⟨c,listed,by simp⟩

theorem below_self_iff {m : Manifest} : Below m m ↔ FirstsLead m := by
  have apis : FirstCovers APIGrant.name MethodsBelow m.tools.apis m.tools.apis ↔ _ := firstCovers_self_iff MethodsBelow.refl
  have grants : FirstCovers WriteGrant.resource ActionsBelow m.writeGrants m.writeGrants ↔ _ :=
    firstCovers_self_iff ActionsBelow.refl
  have programs : FirstCovers ExecGrant.program ArgsBelow m.execGrants m.execGrants ↔ _ := firstCovers_self_iff ArgsBelow.refl
  constructor
  · intro below
    exact ⟨apis.mp below.apis,grants.mp below.grants,programs.mp below.programs⟩
  · intro leads
    exact ⟨fun _ => pathCovered_self,fun _ => pathCovered_self,.refl _,.refl _,apis.mpr leads.apis,grants.mpr leads.grants,
      programs.mpr leads.programs,fun _ required => required⟩

/-- The check reports nothing, whatever the manifests are called. -/
def NarrowsParent (child parent : Manifest) : Prop :=
  ∀ childPath parentPath,narrowsParent child parent childPath parentPath = none

theorem narrowsParent_iff {child parent : Manifest} : NarrowsParent child parent ↔ Below child parent :=
  ⟨fun narrows => accepted_iff.mp (narrows "" ""),fun below _ _ => accepted_iff.mpr below⟩

/-- A manifest that passes the schema. -/
def Valid (m : Manifest) : Prop := ∃ doc,parse doc = some m

theorem narrowsParent_trans {child middle parent : Manifest} (valid : Valid parent) (lower : NarrowsParent child middle)
    (upper : NarrowsParent middle parent) : NarrowsParent child parent := by
  obtain ⟨doc,parsed⟩ := valid
  obtain ⟨readAbsolute,writeAbsolute⟩ := parse_absolute parsed
  rw [narrowsParent_iff] at lower upper ⊢
  exact Below.trans readAbsolute writeAbsolute lower upper

theorem chain_pairwise : ∀ {chain : List Manifest},(∀ m ∈ chain,Valid m) → chain.IsChain NarrowsParent →
    chain.Pairwise NarrowsParent := by
  intro chain valid linked
  induction linked with
  | nil => exact .nil
  | singleton m => exact List.pairwise_singleton _ _
  | @cons_cons child parent rest narrows linked ih =>
    have later := ih fun m listed => valid m (List.mem_cons_of_mem _ listed)
    refine List.pairwise_cons.mpr ⟨?_,later⟩
    intro ancestor listed
    rcases List.mem_cons.mp listed with rfl | higher
    · exact narrows
    · exact narrowsParent_trans (valid ancestor (List.mem_cons_of_mem _ listed)) narrows ((List.pairwise_cons.mp later).1 ancestor higher)

/-- Among manifests that pass the schema narrowing is reflexive on those whose entries do
    not exceed the first of their name, and it is transitive, so that adjacent links are
    enough. -/
theorem narrowing_preorder (manifests : List Manifest) (valid : ∀ m ∈ manifests,Valid m) :
    (∀ m ∈ manifests,(NarrowsParent m m ↔ FirstsLead m)) ∧
    (∀ a ∈ manifests,∀ b ∈ manifests,∀ c ∈ manifests,NarrowsParent a b → NarrowsParent b c → NarrowsParent a c) ∧
    (manifests.IsChain NarrowsParent ↔ manifests.Pairwise NarrowsParent) := by
  refine ⟨fun m _ => narrowsParent_iff.trans below_self_iff,?_,chain_pairwise valid,List.Pairwise.isChain⟩
  intro a _ b _ c listed lower upper
  exact narrowsParent_trans (valid c listed) lower upper

/-- Methods of one API that are granted in one entry. -/
def plainDocument : Schema.Manifest := { Schema.closed with tools := ⟨none,none,[⟨"tickets",["GET","POST"]⟩],[],none⟩ }

/-- The same methods in two entries. -/
def splitDocument : Schema.Manifest :=
  { Schema.closed with tools := ⟨none,none,[⟨"tickets",["GET"]⟩,⟨"tickets",["POST"]⟩],[],none⟩ }

theorem plain_leads : FirstsLead (ofDocument plainDocument) := by
  have single : ∀ {α : Type} {key : α → String} {below : α → α → Prop} (a : α),FirstLeads key below [a] := by
    intro α key below a before first after whole _ later listed
    have short := congrArg List.length whole
    simp only [List.length_append,List.length_cons,List.length_nil] at short
    have none : after = [] := List.length_eq_zero_iff.mp (by omega)
    rw [none] at listed
    cases listed
  have nothing : ∀ {α : Type} {key : α → String} {below : α → α → Prop},FirstLeads key below [] := by
    intro α key below before first after whole
    simp at whole
  exact ⟨single _,nothing,nothing⟩

theorem narrowing_preorder_plain :
    NarrowsParent (ofDocument plainDocument) (ofDocument plainDocument) ∧
      [ofDocument plainDocument,ofDocument plainDocument,ofDocument plainDocument].Pairwise NarrowsParent := by
  have valid : ∀ m ∈ [ofDocument plainDocument,ofDocument plainDocument,ofDocument plainDocument],Valid m := by
    intro m listed
    have same : m = ofDocument plainDocument := by simpa using listed
    exact ⟨plainDocument,same ▸ rfl⟩
  obtain ⟨reflexive,-,chains⟩ := narrowing_preorder _ valid
  have self := (reflexive _ List.mem_cons_self).mpr plain_leads
  exact ⟨self,chains.mp (by simp [self])⟩

/-- A manifest that grants one API in two entries does not narrow itself. -/
theorem split_not_below_itself :
    ¬ ((∀ m,Valid m → NarrowsParent m m) ∧
      ∀ a b c,Valid a → Valid b → Valid c → NarrowsParent a b → NarrowsParent b c → NarrowsParent a c) := by
  rintro ⟨reflexive,-⟩
  have self := reflexive (ofDocument splitDocument) ⟨splitDocument,rfl⟩ "agent.yaml" "agent.yaml"
  revert self
  decide

end AegisNode.Narrowing
