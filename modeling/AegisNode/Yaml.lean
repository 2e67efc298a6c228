import AegisNode.DepthFirst
import AegisNode.Text

/-!
From YAML nodes to the values that the schema is checked against. The decoder leaves an
alias in the node graph as a pointer to what its anchor names, which may be a node that
the alias stands in; the conversion follows it all the same.
-/
namespace AegisNode.Yaml
open Text DepthFirst

/-! ### Nodes -/

inductive Kind (P : Type) where
  | Scalar (tag value : String)
  | Sequence (content : List P)
  | Mapping (content : List P)
  | Alias (target : Option P)
  | Other

/-- `yaml.Node`, of what the conversion reads. -/
structure Node (P : Type) where
  kind : Kind P
  line : Nat
  column : Nat

/-- `float64`. -/
class Float64 (F : Type) where
  ofInt : Int → F
  parseFloat : String → Option F

inductive Any (F : Type) where
  | Nil
  | Bool (value : Bool)
  | Number (value : F)
  | Text (value : String)
  | Sequence (items : List (Any F))
  | Mapping (fields : List (String × Any F))

/-- `out[key] = value`. -/
def store {F : Type} (out : List (String × Any F)) (key : String) (value : Any F) : List (String × Any F) :=
  out.filter (fun field => field.1 ≠ key) ++ [(key,value)]

def boolOf (value : String) : Option Bool :=
  if value.toLower ∈ ["true","yes","on"] then some true
  else if value.toLower ∈ ["false","no","off"] then some false
  else none

/-- `scalarToAny`. -/
def scalarToAny {F : Type} [Float64 F] (tag value : String) (line : Nat) : Except String (Any F) :=
  if tag = "!!null" ∨ tag = "" then
    if tag = "!!null" ∨ value = "null" ∨ value = "~" ∨ value = "" then .ok .Nil else .ok (.Text value)
  else if tag = "!!str" then .ok (.Text value)
  else if tag = "!!int" then
    match parseI64 value.toList with
    | some i => .ok (.Number (Float64.ofInt i))
    | none => .error ("manifest: bad integer " ++ goQuote value ++ " at line " ++ toString line)
  else if tag = "!!float" then
    match Float64.parseFloat value with
    | some x => .ok (.Number x)
    | none => .error ("manifest: bad float " ++ goQuote value ++ " at line " ++ toString line)
  else if tag = "!!bool" then
    match boolOf value with
    | some b => .ok (.Bool b)
    | none => .error ("manifest: bad bool " ++ goQuote value ++ " at line " ++ toString line)
  else .ok (.Text value)

section
variable {F P : Type} [Float64 F]

/-- The loop over a sequence; a conversion that has not ended gives nothing. -/
def sequenceToAny (convert : P → Option (Except String (Any F))) (out : List (Any F)) : List P → Option (Except String (Any F))
  | [] => some (.ok (.Sequence out))
  | c :: rest =>
    match convert c with
    | none => none
    | some (.error error) => some (.error error)
    | some (.ok v) => sequenceToAny convert (out ++ [v]) rest

def nonScalarKey (line column : Nat) : String :=
  "manifest: non-scalar map key at line " ++ toString line ++ " col " ++ toString column

/-- The loop over the keys and values of a mapping. -/
def mappingToAny (nodes : P → Node P) (convert : P → Option (Except String (Any F))) (out : List (String × Any F)) :
    List P → Option (Except String (Any F))
  | k :: v :: rest =>
    match (nodes k).kind with
    | .Scalar _ key =>
      match convert v with
      | none => none
      | some (.error error) => some (.error error)
      | some (.ok value) => mappingToAny nodes convert (store out key value) rest
    | _ => some (.error (nonScalarKey (nodes k).line (nodes k).column))
  | _ => some (.ok (.Mapping out))

/-- `nodeToAny`, with as many calls inside one another as there is fuel. -/
def nodeToAny (nodes : P → Node P) : Nat → P → Option (Except String (Any F))
  | 0,_ => none
  | fuel+1,n =>
    match (nodes n).kind with
    | .Scalar tag value => some (scalarToAny tag value (nodes n).line)
    | .Sequence content => sequenceToAny (nodeToAny nodes fuel) [] content
    | .Mapping content => mappingToAny nodes (nodeToAny nodes fuel) [] content
    | .Alias none => some (.error ("manifest: dangling alias at line " ++ toString (nodes n).line))
    | .Alias (some target) => nodeToAny nodes fuel target
    | .Other => some (.error ("manifest: unsupported YAML node kind at line " ++ toString (nodes n).line))

/-! ### The conversion as a walk -/

/-- A node is looked at as a key, or converted. -/
inductive Visit (P : Type) where
  | Key (n : P)
  | Convert (n : P)
  deriving DecidableEq

def pairs : List P → List (Visit P)
  | k :: v :: rest => .Key k :: .Convert v :: pairs rest
  | _ => []

variable (F)

/-- The nodes as a graph of what the conversion looks at next. -/
def graph (nodes : P → Node P) : Graph (Visit P) (Visit P) String where
  key := id
  expand := fun
    | .Key n => match (nodes n).kind with
      | .Scalar _ _ => .ok []
      | _ => .error (nonScalarKey (nodes n).line (nodes n).column)
    | .Convert n => match (nodes n).kind with
      | .Scalar tag value => (scalarToAny tag value (nodes n).line : Except String (Any F)).map fun _ => []
      | .Sequence content => .ok (content.map .Convert)
      | .Mapping content => .ok (pairs content)
      | .Alias none => .error ("manifest: dangling alias at line " ++ toString (nodes n).line)
      | .Alias (some target) => .ok [.Convert target]
      | .Other => .error ("manifest: unsupported YAML node kind at line " ++ toString (nodes n).line)
  refuse := fun _ _ => none

variable {F}

/-- Whether a conversion has ended, and how. -/
def view {α : Type} (result : Option (Except String α)) : Option (Except String Unit) := result.map fun r => r.map fun _ => ()

@[simp] theorem view_error {α : Type} (error : String) : view (some (.error error) : Option (Except String α)) = some (.error error) :=
  rfl

@[simp] theorem view_ok {α : Type} (a : α) : view (some (.ok a) : Option (Except String α)) = some (.ok ()) := rfl

@[simp] theorem view_none {α : Type} : view (none : Option (Except String α)) = none := rfl

theorem view_some {α : Type} {result : Option (Except String α)} : view result ≠ none ↔ result ≠ none := by
  cases result <;> simp [view]

/-- What has ended on the left has ended the same on the right. -/
def Tells {α : Type} (left right : Option α) : Prop := ∀ result,left = some result → right = some result

theorem exploreAll_cons {nodes : P → Node P} {explored : Visit P → Option (Except String Unit)} (n first : Visit P)
    (rest : List (Visit P)) :
    exploreAll (graph F nodes) explored n (first :: rest) =
      match explored first with
      | none => none
      | some (.error error) => some (.error error)
      | some (.ok _) => exploreAll (graph F nodes) explored n rest := by
  rw [exploreAll]
  cases explored first with
  | none => rfl
  | some result => cases result <;> rfl

theorem exploreAll_single {nodes : P → Node P} {explored : Visit P → Option (Except String Unit)} (n first : Visit P) :
    exploreAll (graph F nodes) explored n [first] = explored first := by
  rw [exploreAll_cons]
  cases explored first with
  | none => rfl
  | some result => cases result <;> rfl

theorem sequence_tells {nodes : P → Node P} {convert : P → Option (Except String (Any F))}
    {explored : Visit P → Option (Except String Unit)} (tells : ∀ c,Tells (explored (.Convert c)) (view (convert c)))
    (n : Visit P) (content : List P) (out : List (Any F)) :
    Tells (exploreAll (graph F nodes) explored n (content.map .Convert)) (view (sequenceToAny convert out content)) := by
  induction content generalizing out with
  | nil => exact fun result done => done
  | cons c rest ih =>
    intro result done
    rw [List.map_cons,exploreAll_cons] at done
    rw [sequenceToAny]
    cases explores : explored (.Convert c) with
    | none => simp [explores] at done
    | some answer =>
      have same := tells c answer explores
      rw [explores] at done
      cases converts : convert c with
      | none => simp [converts,view] at same
      | some value =>
        simp only [converts,view,Option.map_some,Option.some.injEq] at same
        subst same
        cases value with
        | error error => exact done
        | ok v => exact ih _ result done

theorem sequence_told {nodes : P → Node P} {convert : P → Option (Except String (Any F))}
    {explored : Visit P → Option (Except String Unit)} (told : ∀ c,Tells (view (convert c)) (explored (.Convert c)))
    (n : Visit P) (content : List P) (out : List (Any F)) :
    Tells (view (sequenceToAny convert out content)) (exploreAll (graph F nodes) explored n (content.map .Convert)) := by
  induction content generalizing out with
  | nil => exact fun result done => done
  | cons c rest ih =>
    intro result done
    rw [List.map_cons,exploreAll_cons]
    rw [sequenceToAny] at done
    cases converts : convert c with
    | none => simp [converts,view] at done
    | some value =>
      rw [converts] at done
      rw [told c (value.map fun _ => ()) (by rw [converts]; rfl)]
      cases value with
      | error error => exact done
      | ok v => exact ih _ result done

theorem key_explored {nodes : P → Node P} (fuel : Nat) (k : P) :
    explore (graph F nodes) (fuel+1) (.Key k) = match (nodes k).kind with
      | .Scalar _ _ => some (.ok ())
      | _ => some (.error (nonScalarKey (nodes k).line (nodes k).column)) := by
  rw [explore]
  unfold graph
  dsimp only
  cases (nodes k).kind <;> rfl

theorem mapping_tells {nodes : P → Node P} {convert : P → Option (Except String (Any F))} {fuel : Nat}
    (tells : ∀ c,Tells (explore (graph F nodes) fuel (.Convert c)) (view (convert c))) (n : Visit P) :
    ∀ (content : List P) (out : List (String × Any F)),
      Tells (exploreAll (graph F nodes) (explore (graph F nodes) fuel) n (pairs content)) (view (mappingToAny nodes convert out content))
  | [],out => fun result done => done
  | [k],out => fun result done => done
  | k :: v :: rest,out => by
    intro result done
    cases fuel with
    | zero => cases done
    | succ fuel =>
      rw [pairs,exploreAll_cons,key_explored,exploreAll_cons] at done
      rw [mappingToAny]
      cases kind : (nodes k).kind with
      | Scalar tag key =>
        simp only [kind] at done ⊢
        cases explores : explore (graph F nodes) (fuel+1) (.Convert v) with
        | none => simp [explores] at done
        | some answer =>
          have same := tells v answer explores
          rw [explores] at done
          cases converts : convert v with
          | none => simp [converts,view] at same
          | some value =>
            simp only [converts,view,Option.map_some,Option.some.injEq] at same
            subst same
            cases value with
            | error error => exact done
            | ok value => exact mapping_tells tells n rest _ result done
      | _ => simpa [kind] using done

theorem mapping_told {nodes : P → Node P} {convert : P → Option (Except String (Any F))} {fuel : Nat}
    (told : ∀ c,Tells (view (convert c)) (explore (graph F nodes) (fuel+1) (.Convert c))) (n : Visit P) :
    ∀ (content : List P) (out : List (String × Any F)),
      Tells (view (mappingToAny nodes convert out content))
        (exploreAll (graph F nodes) (explore (graph F nodes) (fuel+1)) n (pairs content))
  | [],out => fun result done => done
  | [k],out => fun result done => done
  | k :: v :: rest,out => by
    intro result done
    rw [pairs,exploreAll_cons,key_explored,exploreAll_cons]
    rw [mappingToAny] at done
    cases kind : (nodes k).kind with
    | Scalar tag key =>
      simp only [kind] at done ⊢
      cases converts : convert v with
      | none => simp [converts,view] at done
      | some value =>
        rw [converts] at done
        rw [told v (value.map fun _ => ()) (by rw [converts]; rfl)]
        cases value with
        | error error => exact done
        | ok value => exact mapping_told told n rest _ result done
    | _ => simpa [kind] using done

theorem expand_scalar {nodes : P → Node P} {n : P} {tag value : String} (kind : (nodes n).kind = .Scalar tag value) :
    (graph F nodes).expand (.Convert n) = (scalarToAny tag value (nodes n).line : Except String (Any F)).map fun _ => [] := by
  simp only [graph,kind]

theorem expand_sequence {nodes : P → Node P} {n : P} {content : List P} (kind : (nodes n).kind = .Sequence content) :
    (graph F nodes).expand (.Convert n) = .ok (content.map .Convert) := by simp only [graph,kind]

theorem expand_mapping {nodes : P → Node P} {n : P} {content : List P} (kind : (nodes n).kind = .Mapping content) :
    (graph F nodes).expand (.Convert n) = .ok (pairs content) := by simp only [graph,kind]

theorem expand_alias {nodes : P → Node P} {n target : P} (kind : (nodes n).kind = .Alias (some target)) :
    (graph F nodes).expand (.Convert n) = .ok [.Convert target] := by simp only [graph,kind]

theorem expand_dangling {nodes : P → Node P} {n : P} (kind : (nodes n).kind = .Alias none) :
    (graph F nodes).expand (.Convert n) = .error ("manifest: dangling alias at line " ++ toString (nodes n).line) := by
  simp only [graph,kind]

theorem expand_other {nodes : P → Node P} {n : P} (kind : (nodes n).kind = .Other) :
    (graph F nodes).expand (.Convert n) = .error ("manifest: unsupported YAML node kind at line " ++ toString (nodes n).line) := by
  simp only [graph,kind]

theorem explore_tells {nodes : P → Node P} (fuel : Nat) (n : P) :
    Tells (explore (graph F nodes) fuel (.Convert n)) (view (nodeToAny nodes fuel n : Option (Except String (Any F)))) := by
  induction fuel generalizing n with
  | zero =>
    intro result done
    cases done
  | succ fuel ih =>
    intro result done
    rw [explore] at done
    rw [nodeToAny]
    cases kind : (nodes n).kind with
    | Scalar tag value =>
      rw [expand_scalar kind] at done
      dsimp only
      cases scalar : (scalarToAny tag value (nodes n).line : Except String (Any F)) with
      | error error => simpa [scalar,Except.map] using done
      | ok v => simpa [scalar,Except.map,exploreAll] using done
    | Sequence content =>
      rw [expand_sequence kind] at done
      exact sequence_tells ih _ content [] result done
    | Mapping content =>
      rw [expand_mapping kind] at done
      exact mapping_tells ih _ content [] result done
    | Alias target =>
      cases target with
      | none =>
        rw [expand_dangling kind] at done
        exact done
      | some target =>
        rw [expand_alias kind] at done
        dsimp only at done
        rw [exploreAll_single] at done
        exact ih target result done
    | Other =>
      rw [expand_other kind] at done
      exact done

theorem explore_told {nodes : P → Node P} (fuel : Nat) (n : P) :
    Tells (view (nodeToAny nodes fuel n : Option (Except String (Any F)))) (explore (graph F nodes) (fuel+1) (.Convert n)) := by
  induction fuel generalizing n with
  | zero =>
    intro result done
    cases done
  | succ fuel ih =>
    intro result done
    rw [explore]
    rw [nodeToAny] at done
    cases kind : (nodes n).kind with
    | Scalar tag value =>
      rw [expand_scalar kind]
      simp only [kind] at done
      cases scalar : (scalarToAny tag value (nodes n).line : Except String (Any F)) with
      | error error => simpa [scalar,Except.map] using done
      | ok v => simpa [scalar,Except.map,exploreAll] using done
    | Sequence content =>
      rw [expand_sequence kind]
      simp only [kind] at done
      exact sequence_told ih _ content [] result done
    | Mapping content =>
      rw [expand_mapping kind]
      simp only [kind] at done
      exact mapping_told ih _ content [] result done
    | Alias target =>
      cases target with
      | none =>
        rw [expand_dangling kind]
        simp only [kind] at done
        exact done
      | some target =>
        rw [expand_alias kind]
        simp only [kind] at done
        dsimp only
        rw [exploreAll_single]
        exact ih target result done
    | Other =>
      rw [expand_other kind]
      simp only [kind] at done
      exact done

/-- On its way the conversion comes to a node that it is in the middle of converting, before
    it comes to an error. -/
def ComesBack (F : Type) [Float64 F] (nodes : P → Node P) (root : P) : Prop :=
  ∃ entered,Walks (graph F nodes) [] (.Node (.Convert root)) entered .Revisits

/-- The conversion ends. -/
def Ends (F : Type) [Float64 F] (nodes : P → Node P) (root : P) : Prop :=
  ∃ fuel,(nodeToAny nodes fuel root : Option (Except String (Any F))) ≠ none

theorem ends_iff_explored {nodes : P → Node P} {root : P} :
    Ends F nodes root ↔ ∃ fuel,explore (graph F nodes) fuel (.Convert root) ≠ none := by
  constructor
  · rintro ⟨fuel,ended⟩
    obtain ⟨result,done⟩ := Option.ne_none_iff_exists'.mp (view_some.mpr ended)
    exact ⟨fuel+1,fun unended => by cases unended.symm.trans (explore_told fuel root result done)⟩
  · rintro ⟨fuel,ended⟩
    obtain ⟨result,done⟩ := Option.ne_none_iff_exists'.mp ended
    have told := explore_tells fuel root result done
    exact ⟨fuel,view_some.mp fun unended => by cases unended.symm.trans told⟩

/-- What the conversion can go on from. -/
def Branches (nodes : P → Node P) (n : P) : Prop := (nodes n).kind ≠ .Other

theorem ends_iff [DecidableEq P] {nodes : P → Node P} (finite : {n | Branches nodes n}.Finite) (root : P) :
    Ends F nodes root ↔ ¬ ComesBack F nodes root := by
  have branches : ∀ m,(nodes m).kind ≠ .Other → m ∈ finite.toFinset := fun m other => finite.mem_toFinset.mpr other
  have known : ∀ n next,(graph F nodes).expand n = .ok next →
      n ∈ finite.toFinset.image Visit.Key ∪ finite.toFinset.image Visit.Convert := by
    intro n next expands
    cases n with
    | Key m =>
      refine Finset.mem_union_left _ (Finset.mem_image_of_mem _ (branches m ?_))
      intro other
      simp [graph,other] at expands
    | Convert m =>
      refine Finset.mem_union_right _ (Finset.mem_image_of_mem _ (branches m ?_))
      intro other
      simp [graph,other] at expands
  rw [ends_iff_explored,ComesBack,not_exists]
  exact explore_ends_iff (fun n m same => same) known (Visit.Convert root)

end

/-! ### Documents -/

structure Mark where
  line : Nat
  column : Nat
  deriving DecidableEq

/-- A document before its aliases are resolved; the content of a mapping is its keys and
    values in turn. -/
inductive Document where
  | Scalar (mark : Mark) (anchor : Option String) (tag value : String)
  | Sequence (mark : Mark) (anchor : Option String) (content : List Document)
  | Mapping (mark : Mark) (anchor : Option String) (content : List Document)
  | Alias (mark : Mark) (name : String)

namespace Document

def mark : Document → Mark
  | .Scalar mark _ _ _ | .Sequence mark _ _ | .Mapping mark _ _ | .Alias mark _ => mark

def anchor : Document → Option String
  | .Scalar _ anchor _ _ | .Sequence _ anchor _ | .Mapping _ anchor _ => anchor
  | .Alias _ _ => none

def content : Document → List Document
  | .Sequence _ _ content | .Mapping _ _ content => content
  | _ => []

/-- The node at a position, a path of indices from the root. -/
def at? (doc : Document) : List Nat → Option Document
  | [] => some doc
  | i :: rest => (doc.content[i]?).bind (at? · rest)

/-- A position with the anchor of its node, if it has one. -/
def named (doc : Document) (here : List Nat) : List (String × List Nat) := (doc.anchor.map (·,here)).toList

mutual
/-- The anchors of a document, in the order in which their nodes start. -/
def anchors (here : List Nat) : Document → List (String × List Nat)
  | .Scalar mark anchor tag value => named (.Scalar mark anchor tag value) here
  | .Sequence mark anchor content => named (.Sequence mark anchor content) here ++ anchorsAll here 0 content
  | .Mapping mark anchor content => named (.Mapping mark anchor content) here ++ anchorsAll here 0 content
  | .Alias _ _ => []
def anchorsAll (here : List Nat) (index : Nat) : List Document → List (String × List Nat)
  | [] => []
  | first :: rest => anchors (here ++ [index]) first ++ anchorsAll here (index+1) rest
end

/-- The anchors of nodes that start before the one at a position, those of the nodes it
    stands in among them. -/
def before (doc : Document) (here : List Nat) : List Nat → List (String × List Nat)
  | [] => []
  | i :: rest => doc.named here ++ anchorsAll here 0 (doc.content.take i) ++
      match doc.content[i]? with
      | some child => before child (here ++ [i]) rest
      | none => []

/-- What an alias stands for: the last node of its name that starts before it. -/
def resolve (doc : Document) (position : List Nat) (name : String) : Option (List Nat) :=
  (((doc.before [] position).reverse.find? (·.1 = name))).map (·.2)

/-- The node graph that the decoder makes of a document. -/
def nodes (doc : Document) (position : List Nat) : Node (List Nat) :=
  match doc.at? position with
  | some (.Scalar mark _ tag value) => ⟨.Scalar tag value,mark.line,mark.column⟩
  | some (.Sequence mark _ content) => ⟨.Sequence ((List.range content.length).map fun i => position ++ [i]),mark.line,mark.column⟩
  | some (.Mapping mark _ content) => ⟨.Mapping ((List.range content.length).map fun i => position ++ [i]),mark.line,mark.column⟩
  | some (.Alias mark name) => ⟨.Alias (doc.resolve position name),mark.line,mark.column⟩
  | none => ⟨.Other,0,0⟩

/-- The decoder takes a document if each of its aliases names an anchor before it. -/
def Decodes (doc : Document) : Prop :=
  ∀ position mark name,doc.at? position = some (.Alias mark name) → doc.resolve position name ≠ none

theorem content_lt {doc child : Document} (listed : child ∈ doc.content) : sizeOf child < sizeOf doc := by
  cases doc with
  | Scalar mark anchor tag value => cases listed
  | Alias mark name => cases listed
  | Sequence mark anchor content =>
    have := List.sizeOf_lt_of_mem (show child ∈ content from listed)
    simp only [Sequence.sizeOf_spec]
    omega
  | Mapping mark anchor content =>
    have := List.sizeOf_lt_of_mem (show child ∈ content from listed)
    simp only [Mapping.sizeOf_spec]
    omega

/-- A document has finitely many nodes. -/
theorem positions_finite (doc : Document) : {position | doc.at? position ≠ none}.Finite := by
  have inner : ∀ i : Nat,({position | (doc.content[i]?).bind (at? · position) ≠ none} : Set (List Nat)).Finite := by
    intro i
    cases found : doc.content[i]? with
    | none => simp
    | some child =>
      have smaller := content_lt (List.mem_of_getElem? found)
      simpa using positions_finite child
  refine Set.Finite.subset ((Set.finite_singleton []).union
    (Set.Finite.biUnion (Set.finite_lt_nat doc.content.length) fun i _ => (inner i).image (i :: ·))) ?_
  intro position present
  cases position with
  | nil => exact .inl rfl
  | cons i rest =>
    right
    rw [Set.mem_iUnion₂]
    have within : i < doc.content.length := by
      by_contra outside
      exact present (by rw [at?,List.getElem?_eq_none (by omega)]; rfl)
    exact ⟨i,within,rest,present,rfl⟩
termination_by sizeOf doc

/-- One position ends before another: it comes first, or stands inside. -/
def EndsBefore : List Nat → List Nat → Prop
  | [],_ => False
  | _ :: _,[] => True
  | i :: q,j :: p => i < j ∨ i = j ∧ EndsBefore q p

theorem EndsBefore.trans : ∀ {r q p : List Nat},EndsBefore r q → EndsBefore q p → EndsBefore r p
  | [],_,_,first,_ => first.elim
  | _ :: _,_,[],_,_ => trivial
  | _ :: _,[],_ :: _,_,second => second.elim
  | i :: r,j :: q,k :: p,first,second => by
    rcases first with lower | ⟨rfl,first⟩
    · rcases second with upper | ⟨rfl,-⟩
      · exact .inl (by omega)
      · exact .inl lower
    · rcases second with upper | ⟨rfl,second⟩
      · exact .inl upper
      · exact .inr ⟨rfl,first.trans second⟩

theorem endsBefore_irrefl : ∀ p : List Nat,¬ EndsBefore p p
  | [],before => before
  | i :: p,before => by
    rcases before with lower | ⟨-,before⟩
    · omega
    · exact endsBefore_irrefl p before

theorem endsBefore_child (i : Nat) : ∀ p : List Nat,EndsBefore (p ++ [i]) p
  | [] => trivial
  | _ :: p => .inr ⟨rfl,endsBefore_child i p⟩

theorem named_here {doc : Document} {here target : List Nat} {name : String} (listed : (name,target) ∈ doc.named here) :
    target = here := by
  rw [named,Option.mem_toList,Option.map_eq_some_iff] at listed
  obtain ⟨_,-,same⟩ := listed
  exact (Prod.mk.inj same).2.symm

mutual
theorem anchors_below {here : List Nat} {name : String} {target : List Nat} : ∀ {doc : Document},
    (name,target) ∈ anchors here doc → ∃ below,target = here ++ below
  | .Scalar mark anchor tag value,listed => by
    rw [anchors] at listed
    exact ⟨[],by simpa using named_here listed⟩
  | .Sequence mark anchor content,listed => by
    rw [anchors] at listed
    rcases List.mem_append.mp listed with own | inner
    · exact ⟨[],by simpa using named_here own⟩
    · obtain ⟨j,below,rfl,-⟩ := anchorsAll_below inner
      exact ⟨_,rfl⟩
  | .Mapping mark anchor content,listed => by
    rw [anchors] at listed
    rcases List.mem_append.mp listed with own | inner
    · exact ⟨[],by simpa using named_here own⟩
    · obtain ⟨j,below,rfl,-⟩ := anchorsAll_below inner
      exact ⟨_,rfl⟩
  | .Alias _ _,listed => by cases listed
theorem anchorsAll_below {here : List Nat} {index : Nat} {name : String} {target : List Nat} : ∀ {docs : List Document},
    (name,target) ∈ anchorsAll here index docs → ∃ j below,target = here ++ (index+j) :: below ∧ j < docs.length
  | [],listed => by cases listed
  | first :: rest,listed => by
    rw [anchorsAll] at listed
    rcases List.mem_append.mp listed with own | later
    · obtain ⟨below,rfl⟩ := anchors_below own
      exact ⟨0,below,by simp,by simp⟩
    · obtain ⟨j,below,rfl,within⟩ := anchorsAll_below later
      exact ⟨j+1,below,by rw [Nat.add_right_comm,Nat.add_assoc],by simpa using within⟩
end

/-- What starts before a position holds it or ends before it. -/
theorem before_starts {name : String} {target : List Nat} : ∀ {doc : Document} {here position : List Nat},
    (name,target) ∈ doc.before here position → ∃ below,target = here ++ below ∧ (below <+: position ∨ EndsBefore below position)
  | _,_,[],listed => by cases listed
  | doc,here,i :: rest,listed => by
    rw [before] at listed
    rcases List.mem_append.mp listed with started | inner
    · rcases List.mem_append.mp started with own | earlier
      · exact ⟨[],by simpa using named_here own,.inl List.nil_prefix⟩
      · obtain ⟨j,below,rfl,within⟩ := anchorsAll_below earlier
        rw [List.length_take] at within
        exact ⟨(0+j) :: below,rfl,.inr (.inl (by omega))⟩
    · cases found : doc.content[i]? with
      | none => simp [found] at inner
      | some child =>
        rw [found] at inner
        obtain ⟨below,rfl,place⟩ := before_starts inner
        refine ⟨i :: below,by simp,?_⟩
        rcases place with enclosing | ended
        · exact .inl ((List.prefix_cons_inj i).mpr enclosing)
        · exact .inr (.inr ⟨rfl,ended⟩)

theorem resolve_starts {doc : Document} {position : List Nat} {name : String} {target : List Nat}
    (resolved : doc.resolve position name = some target) : target <+: position ∨ EndsBefore target position := by
  rw [resolve,Option.map_eq_some_iff] at resolved
  obtain ⟨⟨_,_⟩,found,rfl⟩ := resolved
  obtain ⟨below,rfl,place⟩ := before_starts (List.mem_reverse.mp (List.mem_of_find?_eq_some found))
  exact place

/-- No alias stands inside the node that it stands for. -/
def Free (doc : Document) : Prop :=
  ∀ position mark name target,doc.at? position = some (.Alias mark name) → doc.resolve position name = some target →
    ¬ target <+: position

end Document

section
variable (F : Type) [Float64 F]

/-- Where a visit is. -/
def Visit.position : Visit (List Nat) → List Nat
  | .Key p | .Convert p => p

theorem pairs_position {content : List (List Nat)} {v : Visit (List Nat)} (listed : v ∈ pairs content) : v.position ∈ content := by
  induction content using pairs.induct with
  | case1 k v' rest ih =>
    rw [pairs] at listed
    rcases List.mem_cons.mp listed with rfl | listed
    · exact List.mem_cons_self
    · rcases List.mem_cons.mp listed with rfl | listed
      · exact List.mem_cons_of_mem _ List.mem_cons_self
      · exact List.mem_cons_of_mem _ (List.mem_cons_of_mem _ (ih listed))
  | case2 content other =>
    rw [pairs] at listed
    · cases listed
    · exact other

/-- Without such aliases the conversion only goes on to what ends before. -/
theorem edge_ends {doc : Document} (free : doc.Free) {v w : Visit (List Nat)} (edge : Edge (graph F doc.nodes) v w) :
    Document.EndsBefore w.position v.position := by
  obtain ⟨next,expands,listed⟩ := edge
  cases v with
  | Key n =>
    cases kind : (doc.nodes n).kind with
    | Scalar tag value =>
      simp only [graph,kind,Except.ok.injEq] at expands
      rw [← expands] at listed
      cases listed
    | _ => simp [graph,kind] at expands
  | Convert n =>
    have children : ∀ content : List (List Nat),(∀ p ∈ content,∃ i,p = n ++ [i]) → w.position ∈ content →
        Document.EndsBefore w.position n := by
      intro content made among
      obtain ⟨i,same⟩ := made _ among
      rw [same]
      exact Document.endsBefore_child i n
    cases found : doc.at? n with
    | none => simp [graph,Document.nodes,found] at expands
    | some child =>
      cases child with
      | Scalar mark anchor tag value =>
        have kind : (doc.nodes n).kind = .Scalar tag value := by simp [Document.nodes,found]
        rw [expand_scalar kind] at expands
        cases scalar : (scalarToAny tag value (doc.nodes n).line : Except String (Any F)) with
        | error error => simp [scalar,Except.map] at expands
        | ok v =>
          simp only [scalar,Except.map,Except.ok.injEq] at expands
          rw [← expands] at listed
          cases listed
      | Sequence mark anchor content =>
        have kind : (doc.nodes n).kind = .Sequence ((List.range content.length).map fun i => n ++ [i]) := by
          simp [Document.nodes,found]
        rw [expand_sequence kind,Except.ok.injEq] at expands
        rw [← expands] at listed
        obtain ⟨p,among,rfl⟩ := List.mem_map.mp listed
        refine children _ ?_ among
        intro q member
        obtain ⟨i,-,rfl⟩ := List.mem_map.mp member
        exact ⟨i,rfl⟩
      | Mapping mark anchor content =>
        have kind : (doc.nodes n).kind = .Mapping ((List.range content.length).map fun i => n ++ [i]) := by
          simp [Document.nodes,found]
        rw [expand_mapping kind,Except.ok.injEq] at expands
        rw [← expands] at listed
        refine children _ ?_ (pairs_position listed)
        intro q member
        obtain ⟨i,-,rfl⟩ := List.mem_map.mp member
        exact ⟨i,rfl⟩
      | Alias mark name =>
        have kind : (doc.nodes n).kind = .Alias (doc.resolve n name) := by simp [Document.nodes,found]
        cases resolved : doc.resolve n name with
        | none =>
          rw [resolved] at kind
          rw [expand_dangling kind] at expands
          cases expands
        | some target =>
          rw [resolved] at kind
          rw [expand_alias kind,Except.ok.injEq] at expands
          rw [← expands] at listed
          cases List.mem_singleton.mp listed
          rcases Document.resolve_starts resolved with enclosing | ended
          · exact absurd enclosing (free n mark name target found resolved)
          · exact ended

theorem edges_end {doc : Document} (free : doc.Free) {v w : Visit (List Nat)} (turns : Relation.TransGen (Edge (graph F doc.nodes)) v w) :
    Document.EndsBefore w.position v.position := by
  induction turns with
  | single edge => exact edge_ends F free edge
  | tail turns edge ih => exact (edge_ends F free edge).trans ih

theorem free_proper {doc : Document} (free : doc.Free) : ¬ ComesBack F doc.nodes [] := by
  rintro ⟨entered,walks⟩
  obtain ⟨a,b,-,turns,same⟩ := walks.cycles
  cases show a = b from same
  exact Document.endsBefore_irrefl _ (edges_end F free turns)

/-- The conversion of a document ends just when it comes to an error before it comes back to
    a node that it is converting, or does not come back to one; it does not where no alias
    stands inside the node it stands for. -/
theorem document_ends_iff (doc : Document) :
    (Ends F doc.nodes [] ↔ ¬ ComesBack F doc.nodes []) ∧ (doc.Free → Ends F doc.nodes []) := by
  have iff : Ends F doc.nodes [] ↔ ¬ ComesBack F doc.nodes [] := by
    refine ends_iff (Set.Finite.subset doc.positions_finite ?_) []
    intro position branches absent
    exact branches (by simp [Document.nodes,absent])
  exact ⟨iff,fun free => iff.mpr (free_proper F free)⟩

end

/-- `[&a x, *a]`. -/
def shared : Document := .Sequence ⟨1,1⟩ none [.Scalar ⟨1,2⟩ (some "a") "!!str" "x",.Alias ⟨1,8⟩ "a"]

/-- Numbers that are all alike. -/
@[reducible] def noFloat : Float64 Unit := ⟨fun _ => (),fun _ => some ()⟩

theorem document_ends_shared :
    let _ := noFloat
    Ends Unit shared.nodes [] := by
  intro float
  refine (document_ends_iff Unit shared).2 ?_
  intro position mark name target found resolved
  match position with
  | [] => cases found
  | [0] => cases found
  | [1] =>
    cases found
    cases resolved
    decide
  | 0 :: _ :: _ => cases found
  | 1 :: _ :: _ => cases found
  | (i+2) :: _ => cases found

/-- `&a [*a]`. -/
def selfContained : Document := .Sequence ⟨1,1⟩ (some "a") [.Alias ⟨1,5⟩ "a"]

theorem selfContained_decodes : selfContained.Decodes := by
  intro position mark name found
  match position with
  | [] => cases found
  | [0] =>
    cases found
    decide
  | 0 :: _ :: _ => cases found
  | (i+1) :: _ => cases found

theorem selfContained_unended {F : Type} [Float64 F] (fuel : Nat) :
    (nodeToAny selfContained.nodes fuel [] : Option (Except String (Any F))) = none ∧
      (nodeToAny selfContained.nodes fuel [0] : Option (Except String (Any F))) = none := by
  induction fuel with
  | zero => exact ⟨rfl,rfl⟩
  | succ fuel ih =>
    constructor
    · change sequenceToAny (nodeToAny selfContained.nodes fuel) [] [[0]] = none
      rw [sequenceToAny,ih.2]
    · exact ih.1

/-- A list that contains itself is never converted. -/
theorem self_never_ends : ¬ ∀ (F : Type) [Float64 F] (doc : Document),doc.Decodes → Ends F doc.nodes [] := by
  intro ends
  let _ := noFloat
  obtain ⟨fuel,ended⟩ := ends Unit selfContained selfContained_decodes
  exact ended (selfContained_unended fuel).1

end AegisNode.Yaml
