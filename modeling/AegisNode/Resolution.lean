import AegisNode.DepthFirst
import AegisNode.Extends

/-!
`LoadResolved` walks the references depth first: over finitely many files every walk ends,
what ends it is what the walk meets first, and the ancestors are listed as it enters them.
-/
namespace AegisNode.Resolution
open Paths GoManifest Extends DepthFirst

/-! ### The walk -/

/-- The files as a graph of paths. -/
def graph (files : Files) : Graph String String LoadError where
  key := absPath files.cwd
  expand := fun path => match load files path with
    | none => .error (.Unreadable path)
    | some child => .ok (child.extendsRefs.map (resolveExtendsPath path))
  refuse := fun path parentPath => match load files path,load files parentPath with
    | some child,some parent => (narrowsParent child parent path parentPath).map .Narrowing
    | _,_ => none

/-- A cycle error gives the chain and the path that is on it already. -/
def ReportsCycle {α : Type} (result : Except LoadError α) : Prop :=
  ∃ chain again,result = .error (.Cycle (chain ++ [again])) ∧ again ∈ chain

/-- Each ancestor is what its path names. -/
def Loaded (files : Files) (parents : List ResolvedParent) : Prop := ∀ p ∈ parents,load files p.path = some p.manifest

/-- A resolution as the walk went. -/
def Follows (files : Files) (path : String) (entered : List String) (result : Except LoadError Resolved) : Ending LoadError → Prop
  | .Done => ∃ r,result = .ok r ∧ load files path = some r.child ∧ r.path = path ∧
      entered = path :: r.parents.map (·.path) ∧ Loaded files r.parents
  | .Revisits => ReportsCycle result
  | .Fails error => result = .error error

def FollowsParents (files : Files) (entered : List String) (result : Except LoadError (List ResolvedParent)) :
    Ending LoadError → Prop
  | .Done => ∃ parents,result = .ok parents ∧ entered = parents.map (·.path) ∧ Loaded files parents
  | .Revisits => ReportsCycle result
  | .Fails error => result = .error error

/-- With fuel enough a resolution, and a loop over references, goes as its leg of the
    walk. -/
def FollowsLeg (files : Files) (enough : Nat) (visiting entered : List String) (ending : Ending LoadError) : Leg String → Prop
  | .Node path => ∃ result,(∀ fuel ≥ enough,loadResolvedRec files fuel path visiting visiting.reverse = result) ∧
      Follows files path entered result ending
  | .Edges path next => ∀ child refs,load files path = some child → refs.map (resolveExtendsPath path) = next →
      ∃ result,(∀ fuel ≥ enough,loadParents (fun parentPath => loadResolvedRec files fuel parentPath visiting visiting.reverse)
          child path refs = result) ∧ FollowsParents files entered result ending

section
variable {files : Files}

theorem expand_ok {path : String} {next : List String} (expands : (graph files).expand path = .ok next) :
    ∃ child,load files path = some child ∧ next = child.extendsRefs.map (resolveExtendsPath path) := by
  unfold graph at expands
  cases loaded : load files path with
  | none => simp [loaded] at expands
  | some child =>
    simp only [loaded,Except.ok.injEq] at expands
    exact ⟨child,rfl,expands.symm⟩

theorem expand_error {path : String} {error : LoadError} (blocked : (graph files).expand path = .error error) :
    load files path = none ∧ error = .Unreadable path := by
  unfold graph at blocked
  cases loaded : load files path with
  | none =>
    simp only [loaded,Except.error.injEq] at blocked
    exact ⟨rfl,blocked.symm⟩
  | some child => simp [loaded] at blocked

theorem refuse_eq {path parentPath : String} {child parent : Manifest} (below : load files path = some child)
    (above : load files parentPath = some parent) :
    (graph files).refuse path parentPath = (narrowsParent child parent path parentPath).map .Narrowing := by
  unfold graph
  simp only [below,above]

/-- An error ends the loop that asked for the resolution. -/
def passed : Except LoadError Resolved → Except LoadError (List ResolvedParent)
  | .ok _ => .ok []
  | .error error => .error error

theorem parents_stop {resolve : String → Except LoadError Resolved} {child : Manifest} {path ref : String} {rest entered : List String}
    {ending : Ending LoadError} {result : Except LoadError Resolved} (resolved : resolve (resolveExtendsPath path ref) = result)
    (stops : ending ≠ .Done) (follows : Follows files (resolveExtendsPath path ref) entered result ending) :
    loadParents resolve child path (ref :: rest) = passed result := by
  rw [loadParents,resolved]
  cases ending with
  | Done => exact absurd rfl stops
  | Revisits =>
    obtain ⟨chain,again,rfl,-⟩ := follows
    rfl
  | Fails error =>
    cases follows
    rfl

theorem passed_follows {path : String} {entered : List String} {ending : Ending LoadError} {result : Except LoadError Resolved}
    (stops : ending ≠ .Done) (follows : Follows files path entered result ending) :
    FollowsParents files entered (passed result) ending := by
  cases ending with
  | Done => exact absurd rfl stops
  | Revisits =>
    obtain ⟨chain,again,rfl,among⟩ := follows
    exact ⟨chain,again,rfl,among⟩
  | Fails error =>
    cases follows
    rfl

/-- A resolution when its parents are. -/
def resolvedWith (child : Manifest) (path : String) : Except LoadError (List ResolvedParent) → Except LoadError Resolved
  | .ok parents => .ok ⟨child,path,parents⟩
  | .error error => .error error

theorem loadResolvedRec_enters {fuel : Nat} {path : String} {visiting chain : List String} {child : Manifest}
    (fresh : absPath files.cwd path ∉ visiting) (loaded : load files path = some child) :
    loadResolvedRec files (fuel+1) path visiting chain = resolvedWith child path
      (loadParents (fun parentPath => loadResolvedRec files fuel parentPath (absPath files.cwd path :: visiting)
        (chain ++ [absPath files.cwd path])) child path child.extendsRefs) := by
  rw [loadResolvedRec]
  simp only [fresh,if_false,loaded]
  cases loadParents (fun parentPath => loadResolvedRec files fuel parentPath (absPath files.cwd path :: visiting)
    (chain ++ [absPath files.cwd path])) child path child.extendsRefs <;> rfl

theorem resolvedWith_follows {path : String} {child : Manifest} (loaded : load files path = some child) {entered : List String}
    {ending : Ending LoadError} {result : Except LoadError (List ResolvedParent)}
    (follows : FollowsParents files entered result ending) :
    Follows files path (path :: entered) (resolvedWith child path result) ending := by
  cases ending with
  | Done =>
    obtain ⟨parents,rfl,rfl,all⟩ := follows
    exact ⟨_,rfl,loaded,rfl,rfl,all⟩
  | Revisits =>
    obtain ⟨chain,again,rfl,among⟩ := follows
    exact ⟨chain,again,rfl,among⟩
  | Fails error =>
    cases follows
    rfl

/-- The parents of a reference that is accepted come before those of the others. -/
def listedWith (r : Resolved) (path : String) : Except LoadError (List ResolvedParent) → Except LoadError (List ResolvedParent)
  | .ok parents => .ok (⟨r.child,path⟩ :: r.parents ++ parents)
  | .error error => .error error

theorem loadParents_next {resolve : String → Except LoadError Resolved} {child : Manifest} {path ref : String} {rest : List String}
    {r : Resolved} (resolved : resolve (resolveExtendsPath path ref) = .ok r)
    (narrows : narrowsParent child r.child path (resolveExtendsPath path ref) = none) :
    loadParents resolve child path (ref :: rest) = listedWith r (resolveExtendsPath path ref) (loadParents resolve child path rest) := by
  rw [loadParents,resolved]
  simp only [narrows]
  cases loadParents resolve child path rest <;> rfl

theorem listedWith_follows {path : String} {r : Resolved} (above : load files path = some r.child) (all : Loaded files r.parents)
    {later : List String} {ending : Ending LoadError} {result : Except LoadError (List ResolvedParent)}
    (follows : FollowsParents files later result ending) :
    FollowsParents files ((path :: r.parents.map (·.path)) ++ later) (listedWith r path result) ending := by
  cases ending with
  | Done =>
    obtain ⟨parents,rfl,rfl,others⟩ := follows
    refine ⟨_,rfl,by simp,?_⟩
    intro p member
    rcases List.mem_append.mp member with own | other
    · rcases List.mem_cons.mp own with rfl | higher
      · exact above
      · exact all p higher
    · exact others p other
  | Revisits =>
    obtain ⟨chain,again,rfl,among⟩ := follows
    exact ⟨chain,again,rfl,among⟩
  | Fails error =>
    cases follows
    rfl

/-- With fuel enough the resolution goes as the walk. -/
theorem walk_followed {visiting : List String} {leg : Leg String} {entered : List String} {ending : Ending LoadError}
    (walks : Walks (graph files) visiting leg entered ending) :
    ∃ enough,FollowsLeg files enough visiting entered ending leg := by
  induction walks with
  | @Revisit visiting path again =>
    have among : absPath files.cwd path ∈ visiting := again
    refine ⟨1,.error (.Cycle (visiting.reverse ++ [absPath files.cwd path])),?_,_,_,rfl,List.mem_reverse.mpr among⟩
    intro fuel more
    obtain ⟨left,rfl⟩ := Nat.exists_eq_add_of_le' more
    rw [loadResolvedRec]
    simp only [among,if_true]
  | @Block visiting path error fresh blocked =>
    obtain ⟨unreadable,rfl⟩ := expand_error blocked
    have first : absPath files.cwd path ∉ visiting := fresh
    refine ⟨1,.error (.Unreadable path),?_,rfl⟩
    intro fuel more
    obtain ⟨left,rfl⟩ := Nat.exists_eq_add_of_le' more
    rw [loadResolvedRec]
    simp only [first,if_false,unreadable]
  | @Enter visiting path next entered ending fresh expands walks ih =>
    obtain ⟨child,loaded,rfl⟩ := expand_ok expands
    obtain ⟨enough,follows⟩ := ih
    obtain ⟨result,goes,follows⟩ := follows child child.extendsRefs loaded rfl
    refine ⟨enough+1,resolvedWith child path result,?_,resolvedWith_follows loaded follows⟩
    intro fuel more
    obtain ⟨left,rfl⟩ := Nat.exists_eq_add_of_le' (Nat.le_of_add_left_le more)
    rw [loadResolvedRec_enters fresh loaded,← goes left (by omega),List.reverse_cons]
    rfl
  | @Last visiting path =>
    refine ⟨0,fun child refs loaded none => ?_⟩
    cases List.map_eq_nil_iff.mp none
    exact ⟨.ok [],fun fuel _ => rfl,[],rfl,rfl,fun _ listed => absurd listed List.not_mem_nil⟩
  | @Stop visiting path first rest entered ending walks stops ih =>
    obtain ⟨enough,result,goes,follows⟩ := ih
    refine ⟨enough,fun child refs loaded same => ?_⟩
    obtain ⟨ref,others,rfl,rfl,-⟩ := List.map_eq_cons_iff.mp same
    exact ⟨passed result,fun fuel more => parents_stop (goes fuel more) stops follows,passed_follows stops follows⟩
  | @Refuse visiting path first rest entered error walks refused ih =>
    obtain ⟨enough,result,goes,r,rfl,above,-⟩ := ih
    refine ⟨enough,fun child refs loaded same => ?_⟩
    obtain ⟨ref,others,rfl,rfl,-⟩ := List.map_eq_cons_iff.mp same
    rw [refuse_eq loaded above] at refused
    obtain ⟨widening,widens,rfl⟩ := Option.map_eq_some_iff.mp refused
    refine ⟨.error (.Narrowing widening),fun fuel more => ?_,rfl⟩
    rw [loadParents,goes fuel more]
    simp only [widens]
  | @Next visiting path first rest entered later ending walks accepted others ih ihLater =>
    obtain ⟨enough,result,goes,r,rfl,above,-,rfl,all⟩ := ih
    obtain ⟨enoughLater,followsLater⟩ := ihLater
    refine ⟨max enough enoughLater,fun child refs loaded same => ?_⟩
    obtain ⟨ref,remaining,rfl,rfl,rfl⟩ := List.map_eq_cons_iff.mp same
    obtain ⟨result',goes',follows'⟩ := followsLater child remaining loaded rfl
    rw [refuse_eq loaded above,Option.map_eq_none_iff] at accepted
    refine ⟨listedWith r (resolveExtendsPath path ref) result',fun fuel more => ?_,listedWith_follows above all follows'⟩
    rw [loadParents_next (goes fuel (le_of_max_le_left more)) accepted,goes' fuel (le_of_max_le_right more)]

/-! ### Resolution -/

/-- The depth-first walk of the references from a path. -/
def Walked (files : Files) (path : String) (entered : List String) (ending : Ending LoadError) : Prop :=
  Walks (graph files) [] (.Node path) entered ending

theorem walked_exists (finite : {path | files.documents path ≠ none}.Finite) (path : String) :
    ∃ entered ending,Walked files path entered ending := by
  have known : ∀ n next,(graph files).expand n = .ok next → (graph files).key n ∈ finite.toFinset := by
    intro n next expands
    obtain ⟨child,loaded,-⟩ := expand_ok expands
    rw [Set.Finite.mem_toFinset]
    intro absent
    rw [load,show files.documents (absPath files.cwd n) = none from absent] at loaded
    cases loaded
  exact walks_exist known [] path

/-- What a walk fails for is a file or a widening. -/
theorem walked_fails {path : String} {entered : List String} {error : LoadError} (walked : Walked files path entered (.Fails error)) :
    (∃ unreadable,error = .Unreadable unreadable) ∨ ∃ widening,error = .Narrowing widening := by
  rcases walked.fails rfl with ⟨n,blocked⟩ | ⟨n,m,refused⟩
  · exact .inl ⟨n,(expand_error blocked).2⟩
  · right
    unfold graph at refused
    cases below : load files n with
    | none => simp [below] at refused
    | some child =>
      cases above : load files m with
      | none => simp [below,above] at refused
      | some parent =>
        simp only [below,above,Option.map_eq_some_iff] at refused
        obtain ⟨widening,-,rfl⟩ := refused
        exact ⟨widening,rfl⟩

end

/-- What a resolution comes to, from the walk: a cycle error just when the walk comes to a
    path of its chain first, and then there is a cycle; the ancestors in the order in which
    they were entered. -/
structure Reports (files : Files) (path : String) (entered : List String) (ending : Ending LoadError)
    (result : Except LoadError Resolved) : Prop where
  ends : result ≠ .error .OutOfFuel
  cycle : (∃ chain,result = .error (.Cycle chain)) ↔ ending = .Revisits
  real : (∃ chain,result = .error (.Cycle chain)) → Cycles (graph files) path
  other : ∀ error,ending = .Fails error → result = .error error
  succeeds : (∃ r,result = .ok r) ↔ ending = .Done
  listed : ∀ r,result = .ok r → entered = path :: r.parents.map (·.path) ∧ Loaded files r.parents

theorem reports_of_follows {files : Files} {path : String} {entered : List String} {ending : Ending LoadError}
    {result : Except LoadError Resolved} (walked : Walked files path entered ending)
    (follows : Follows files path entered result ending) : Reports files path entered ending result := by
  cases ending with
  | Done =>
    obtain ⟨r,rfl,-,-,listed,all⟩ := follows
    refine ⟨by simp,by simp,by simp,by simp,by simp,?_⟩
    rintro _ same
    cases same
    exact ⟨listed,all⟩
  | Revisits =>
    obtain ⟨chain,again,rfl,-⟩ := follows
    exact ⟨by simp,by simp,fun _ => walked.cycles,by simp,by simp,by simp⟩
  | Fails error =>
    cases follows
    rcases walked_fails walked with ⟨unreadable,rfl⟩ | ⟨widening,rfl⟩
    · exact ⟨by simp,by simp,by simp,by simp,by simp,by simp⟩
    · exact ⟨by simp,by simp,by simp,by simp,by simp,by simp⟩

/-- Over finitely many files a resolution ends, whatever refers to what, as the depth-first
    walk of the references does. -/
theorem resolution_walks {files : Files} (finite : {path | files.documents path ≠ none}.Finite) (path : String) :
    ∃ entered ending,Walked files path entered ending ∧
      (∀ entered' ending',Walked files path entered' ending' → entered' = entered ∧ ending' = ending) ∧
      ∃ enough result,(∀ fuel ≥ enough,loadResolved files fuel path = result) ∧ Reports files path entered ending result := by
  obtain ⟨entered,ending,walked⟩ := walked_exists finite path
  refine ⟨entered,ending,walked,fun _ _ again => again.unique walked,?_⟩
  obtain ⟨enough,result,goes,follows⟩ := walk_followed walked
  exact ⟨enough,result,goes,reports_of_follows walked follows⟩

theorem team_finite : {path | teamFiles.documents path ≠ none}.Finite := by
  refine Set.Finite.subset (Set.toFinite {"/etc/aegis/team.yaml","/etc/aegis/org.yaml"}) ?_
  intro path present
  simp only [teamFiles,Set.mem_ofPred_eq] at present
  split_ifs at present with team org
  · exact .inl team
  · exact .inr org
  · exact absurd rfl present

theorem resolution_walks_team :
    ∃ entered ending,Walked teamFiles "team.yaml" entered ending ∧
      ∃ enough result,(∀ fuel ≥ enough,loadResolved teamFiles fuel "team.yaml" = result) ∧
        Reports teamFiles "team.yaml" entered ending result := by
  obtain ⟨entered,ending,walked,-,reports⟩ := resolution_walks team_finite "team.yaml"
  exact ⟨entered,ending,walked,reports⟩

end AegisNode.Resolution
