import AegisNode.Yaml
import AegisNode.JsonText
import AegisNode.Durations
import AegisNode.Erasure

/-!
Positions of findings: the field path of a finding becomes a JSON pointer, and the
pointer is walked through the nodes of the manifest to a line and a column.
-/
namespace AegisNode.Positions
open Text Yaml

/-! ### The pointer of a field path -/

/-- `escapePointer`. -/
def escapePointer (s : List Char) : List Char :=
  s.flatMap fun c => if c = '~' then ['~','0'] else if c = '/' then ['~','1'] else [c]

/-- The loop over the brackets after a key, once round for each unit of fuel. -/
def bracketsOf : Nat → List Char → List (List Char)
  | fuel+1,'[' :: rest =>
    match splitOnce [']'] rest with
    | none => []
    | some (inner,rest) =>
      if (parseI64 inner).isSome then inner :: bracketsOf fuel rest else bracketsOf fuel rest
  | _,_ => []

/-- `splitBrackets`. -/
def splitBrackets (seg : List Char) : List Char × List (List Char) :=
  match splitOnce ['['] seg with
  | none => (seg,[])
  | some (key,rest) => (key,bracketsOf seg.length ('[' :: rest))

/-- What one dotted segment adds to the pointer. -/
def segmentPointer (seg : List Char) : List Char :=
  let (key,indices) := splitBrackets seg
  (if key ≠ [] then '/' :: escapePointer key else []) ++ indices.flatMap ('/' :: ·)

def dottedPathToJSONPointer (field : List Char) : List Char :=
  if field = [] then [] else (field.splitOn '.').flatMap segmentPointer

/-- `decodePointerSegment`: the slash is put back before the tilde. -/
def decodePointerSegment (s : List Char) : List Char :=
  replaceAfter ['~','0'] ['~'] 0 (replaceAfter ['~','1'] ['/'] 0 s)

/-! ### The walk -/

section
variable {P : Type} (nodes : P → Node P)

/-- The value of the first key that is this scalar; what stands after the last pair is
    left out. -/
def valueOf (seg : List Char) : List P → Option P
  | k :: v :: rest =>
    match (nodes k).kind with
    | .Scalar _ value => if value.toList = seg then some v else valueOf seg rest
    | _ => valueOf seg rest
  | _ => none

def childByKeyOrIndex (n : P) (seg : List Char) : Option P :=
  match (nodes n).kind with
  | .Mapping content => valueOf nodes seg content
  | .Sequence content =>
    match parseI64 seg with
    | none => none
    | some idx => if idx < 0 ∨ idx ≥ content.length then none else content[idx.toNat]?
  | _ => none

/-- The loop of `lineColAtJSONPointer`: it ends where a child is missing. -/
def walk : P → List (List Char) → P
  | cur,[] => cur
  | cur,raw :: parts =>
    match childByKeyOrIndex nodes cur (decodePointerSegment raw) with
    | none => cur
    | some next => walk next parts

def position (n : P) : Nat × Nat := ((nodes n).line,(nodes n).column)

def lineColAtJSONPointer (root : P) (pointer : List Char) : Nat × Nat :=
  if pointer = [] ∨ pointer = ['/'] then position nodes root
  else position nodes (walk nodes root (((stripPrefix ['/'] pointer).getD pointer).splitOn '/'))

/-- `LookupPosition` of what the decoder made of the text, the document node taken off. -/
def lookupPosition (decoded : Option P) (fieldPath : List Char) : Nat × Nat :=
  if fieldPath = [] then (1,1)
  else
    match decoded with
    | none => (0,0)
    | some docNode =>
      let pointer := dottedPathToJSONPointer fieldPath
      let found := lineColAtJSONPointer nodes docNode pointer
      if pointer ≠ [] ∧ pointer ≠ ['/'] ∧ found = position nodes docNode then (0,0) else found

end

/-! ### Field paths -/

structure Number where
  digits : List Char
  value : Nat
  read : decimal? digits = some value

/-- A key and the numbers in brackets after it. -/
structure Segment where
  key : List Char
  indices : List Number
  plain : '.' ∉ key ∧ '[' ∉ key
  nonempty : key ≠ [] ∨ indices ≠ []

def bracketed (i : Number) : List Char := '[' :: i.digits ++ [']']

def Segment.text (seg : Segment) : List Char := seg.key ++ seg.indices.flatMap bracketed

structure FieldPath where
  segments : List Segment
  nonempty : segments ≠ []

def FieldPath.text (path : FieldPath) : List Char := ['.'].intercalate (path.segments.map Segment.text)

inductive Step where
  | Key (key : List Char)
  | Index (i : Number)

def Segment.steps (seg : Segment) : List Step :=
  (if seg.key ≠ [] then [.Key seg.key] else []) ++ seg.indices.map .Index

def FieldPath.steps (path : FieldPath) : List Step := path.segments.flatMap Segment.steps

def Step.token : Step → List Char
  | .Key key => key
  | .Index i => i.digits

/-- The pointer leaves out a number that is no machine integer. -/
def Step.kept : Step → Bool
  | .Key _ => true
  | .Index i => i.value < 2^63

/-! ### What a path names -/

structure Document (P : Type) where
  nodes : P → Node P
  root : P
  lines : ∀ n, 0 < (nodes n).line
  lengths : ∀ n content,(nodes n).kind = .Sequence content → content.length < 2^63

section
variable {P : Type} (nodes : P → Node P)

def isKey (key : List Char) (k : P) : Prop :=
  match (nodes k).kind with
  | .Scalar _ value => value.toList = key
  | _ => False

instance (key : List Char) (k : P) : Decidable (isKey nodes key k) := by
  unfold isKey
  split <;> infer_instance

def entries : List P → List (P × P)
  | k :: v :: rest => (k,v) :: entries rest
  | _ => []

/-- A key goes into a mapping and a number into a sequence. -/
def target (n : P) : Step → Option P
  | .Key key =>
    match (nodes n).kind with
    | .Mapping content => ((entries content).find? fun entry => isKey nodes key entry.1).map Prod.snd
    | _ => none
  | .Index i =>
    match (nodes n).kind with
    | .Sequence content => content[i.value]?
    | _ => none

/-- An alias stands for what its anchor names, as it does where the manifest is converted. -/
inductive Names : P → List Step → P → Prop where
  | Here (n : P) : Names n [] n
  | Into {n next m : P} {s : Step} {steps : List Step} (into : target nodes n s = some next) (names : Names next steps m) :
      Names n (s :: steps) m
  | Alias {n anchor m : P} {s : Step} {steps : List Step} (stands : (nodes n).kind = .Alias (some anchor))
      (names : Names anchor (s :: steps) m) : Names n (s :: steps) m

/-- An alias from which a step is still to be taken, with no other alias before it. -/
def OnTheWay (n : P) (steps : List Step) (a : P) : Prop :=
  ∃ front s back anchor,steps = front ++ s :: back ∧ front.foldlM (target nodes) n = some a ∧
    (nodes a).kind = .Alias anchor

/-- The node beyond which no child is found. -/
def StopsAt (n : P) (tokens : List (List Char)) (m : P) : Prop :=
  ∃ front back,tokens = front ++ back ∧ front.foldlM (childByKeyOrIndex nodes) n = some m ∧
    ∀ token ∈ back.head?,childByKeyOrIndex nodes m token = none

end

def tokensOf (steps : List Step) : List (List Char) := (steps.filter Step.kept).map Step.token

section
variable {P : Type} (doc : Document P) (path : FieldPath)

def NamedBy (m : P) : Prop := Names doc.nodes doc.root path.steps m

/-- The position of the node that the path names, and no position where it names none. -/
def Correct (result : Nat × Nat) : Prop :=
  (∀ m,NamedBy doc path m → result = position doc.nodes m) ∧ ((∀ m,¬ NamedBy doc path m) → result = (0,0))

/-- A named node is not where the root is, and no alias elsewhere is on the way; where
    nothing is named, the pointer keeps a token and the walk stops where the root is. -/
structure Exact : Prop where
  named : ∀ m,NamedBy doc path m → position doc.nodes m ≠ position doc.nodes doc.root ∧
    ∀ a,OnTheWay doc.nodes doc.root path.steps a → position doc.nodes a = position doc.nodes m
  missed : (∀ m,¬ NamedBy doc path m) → tokensOf path.steps ≠ [] ∧
    ∃ n,StopsAt doc.nodes doc.root (tokensOf path.steps) n ∧ position doc.nodes n = position doc.nodes doc.root

end

/-! ### The escapes -/

theorem escapePointer_cons (c : Char) (rest : List Char) : escapePointer (c :: rest) =
    (if c = '~' then ['~','0'] else if c = '/' then ['~','1'] else [c]) ++ escapePointer rest := List.flatMap_cons

theorem escapePointer_slash (s : List Char) : '/' ∉ escapePointer s := by
  intro inside
  obtain ⟨c,-,inside⟩ := List.mem_flatMap.mp inside
  by_cases tilde : c = '~'
  · rw [if_pos tilde] at inside
    simp at inside
  rw [if_neg tilde] at inside
  by_cases slash : c = '/'
  · rw [if_pos slash] at inside
    simp at inside
  · rw [if_neg slash] at inside
    exact slash (List.mem_singleton.mp inside).symm

theorem escapePointer_plain {s : List Char} (tilde : '~' ∉ s) (slash : '/' ∉ s) : escapePointer s = s := by
  induction s with
  | nil => rfl
  | cons c rest ih =>
    rw [List.mem_cons,not_or] at tilde slash
    rw [escapePointer_cons,if_neg (Ne.symm tilde.1),if_neg (Ne.symm slash.1),ih tilde.2 slash.2]
    rfl

/-- With the slashes put back only the tildes are still escaped. -/
theorem replace_slashes (s : List Char) :
    replaceAfter ['~','1'] ['/'] 0 (escapePointer s) = s.flatMap fun c => if c = '~' then ['~','0'] else [c] := by
  induction s with
  | nil => rfl
  | cons c rest ih =>
    rw [escapePointer_cons,List.flatMap_cons,← ih]
    by_cases tilde : c = '~'
    · subst tilde
      rfl
    rw [if_neg tilde,if_neg tilde]
    by_cases slash : c = '/'
    · subst slash
      rfl
    · rw [if_neg slash]
      exact Erasure.replace_other fun here => tilde (List.cons_prefix_cons.mp here).1.symm

theorem replace_tildes (s : List Char) :
    replaceAfter ['~','0'] ['~'] 0 (s.flatMap fun c => if c = '~' then ['~','0'] else [c]) = s := by
  induction s with
  | nil => rfl
  | cons c rest ih =>
    rw [List.flatMap_cons]
    by_cases tilde : c = '~'
    · subst tilde
      exact congrArg ('~' :: ·) ih
    · rw [if_neg tilde]
      exact (Erasure.replace_other fun here => tilde (List.cons_prefix_cons.mp here).1.symm).trans (congrArg (c :: ·) ih)

theorem decodePointerSegment_escapePointer (key : List Char) : decodePointerSegment (escapePointer key) = key := by
  rw [decodePointerSegment,replace_slashes,replace_tildes]

/-! ### The pointer of a path -/

theorem Number.free (i : Number) {c : Char} (other : digit? c = none) : c ∉ i.digits := by
  intro inside
  exact digit_other ((decimal?_digits i.read).2 c inside) c other rfl

theorem Number.parse (i : Number) : parseI64 i.digits = if i.value < 2^63 then some (i.value : Int) else none := by
  rw [Durations.parseI64_unsigned (Durations.decimal?_unsigned i.read),i.read,Option.bind_some]

theorem bracketsOf_indices (indices : List Number) {fuel : Nat} (enough : indices.length ≤ fuel) :
    bracketsOf fuel (indices.flatMap bracketed) = (indices.filter fun i => i.value < 2^63).map Number.digits := by
  induction indices generalizing fuel with
  | nil => cases fuel <;> rfl
  | cons i rest ih =>
    cases fuel with
    | zero => simp at enough
    | succ fuel =>
      have cut : splitOnce [']'] (i.digits ++ ']' :: rest.flatMap bracketed) = some (i.digits,rest.flatMap bracketed) :=
        splitOnce_single.mpr ⟨rfl,i.free (by decide)⟩
      have whole : (i :: rest).flatMap bracketed = '[' :: (i.digits ++ ']' :: rest.flatMap bracketed) := by
        simp [bracketed]
      rw [whole,bracketsOf,cut]
      dsimp only
      rw [i.parse,ih (by simpa using enough),List.filter_cons]
      by_cases small : i.value < 2^63
      · rw [if_pos small,decide_eq_true small]
        rfl
      · rw [if_neg small,decide_eq_false small]
        rfl

theorem bracketed_length (indices : List Number) : indices.length ≤ (indices.flatMap bracketed).length := by
  induction indices with
  | nil => exact Nat.le_refl 0
  | cons i rest ih =>
    rw [List.flatMap_cons,List.length_append,bracketed]
    simp only [List.length_cons,List.length_append]
    omega

theorem splitBrackets_text (seg : Segment) :
    splitBrackets seg.text = (seg.key,(seg.indices.filter fun i => i.value < 2^63).map Number.digits) := by
  rw [splitBrackets,Segment.text]
  cases some : seg.indices with
  | nil =>
    rw [List.flatMap_nil,List.append_nil]
    have absent : splitOnce ['['] seg.key = none := by
      refine splitOnce_none (List.cons_ne_nil _ _) fun inside => seg.plain.2 ?_
      exact inside.subset List.mem_cons_self
    rw [absent]
    rfl
  | cons i rest =>
    have whole : (i :: rest).flatMap bracketed = '[' :: (i.digits ++ ']' :: rest.flatMap bracketed) := by
      simp [bracketed]
    have cut : splitOnce ['['] (seg.key ++ (i :: rest).flatMap bracketed) =
        .some (seg.key,i.digits ++ ']' :: rest.flatMap bracketed) := by
      rw [whole]
      exact splitOnce_single.mpr ⟨rfl,seg.plain.2⟩
    rw [cut]
    dsimp only
    have enough := bracketed_length (i :: rest)
    rw [← whole,bracketsOf_indices _ (by rw [List.length_append]; omega)]

/-- A dotted segment adds its kept steps to the pointer. -/
theorem segmentPointer_text (seg : Segment) :
    segmentPointer seg.text = (tokensOf seg.steps).flatMap fun token => '/' :: escapePointer token := by
  have numbers (indices : List Number) : ((indices.filter fun i => i.value < 2^63).map Number.digits).flatMap ('/' :: ·) =
      (tokensOf (indices.map Step.Index)).flatMap fun token => '/' :: escapePointer token := by
    rw [tokensOf,List.filter_map,List.map_map,List.flatMap_map,List.flatMap_map]
    refine List.flatMap_congr fun i _ => ?_
    exact congrArg ('/' :: ·) (escapePointer_plain (i.free (by decide)) (i.free (by decide))).symm
  rw [segmentPointer,splitBrackets_text,Segment.steps]
  dsimp only
  rw [numbers,tokensOf,tokensOf,List.filter_append,List.map_append,List.flatMap_append]
  by_cases key : seg.key = []
  · rw [if_neg (by simpa using key),if_neg (by simpa using key)]
    rfl
  · rw [if_pos key,if_pos key]
    exact congrArg (· ++ _) (List.append_nil _).symm

theorem Segment.text_dot (seg : Segment) : '.' ∉ seg.text := by
  rw [Segment.text,List.mem_append,not_or]
  refine ⟨seg.plain.1,fun inside => ?_⟩
  obtain ⟨i,-,inside⟩ := List.mem_flatMap.mp inside
  have free := i.free (c := '.') (by decide)
  simp [bracketed,free] at inside

theorem Segment.text_nonempty (seg : Segment) : seg.text ≠ [] := by
  intro empty
  obtain ⟨key,indices⟩ := List.append_eq_nil_iff.mp empty
  rcases seg.nonempty with some | some
  · exact some key
  · obtain ⟨i,rest,cons⟩ := List.exists_cons_of_ne_nil some
    rw [cons] at indices
    simp [bracketed] at indices

theorem FieldPath.text_nonempty (path : FieldPath) : path.text ≠ [] := by
  obtain ⟨seg,rest,cons⟩ := List.exists_cons_of_ne_nil path.nonempty
  rw [FieldPath.text,cons,List.map_cons]
  intro empty
  cases rest with
  | nil => exact seg.text_nonempty (by simpa using empty)
  | cons next rest => simp [seg.text_nonempty] at empty

theorem tokensOf_flatMap {α : Type} (f : α → List Step) (items : List α) :
    tokensOf (items.flatMap f) = items.flatMap fun item => tokensOf (f item) := by
  induction items with
  | nil => rfl
  | cons item rest ih => rw [List.flatMap_cons,List.flatMap_cons,← ih,tokensOf,List.filter_append,List.map_append]; rfl

theorem dottedPathToJSONPointer_text (path : FieldPath) :
    dottedPathToJSONPointer path.text = (tokensOf path.steps).flatMap fun token => '/' :: escapePointer token := by
  rw [dottedPathToJSONPointer,if_neg path.text_nonempty,FieldPath.text]
  have plain : ∀ text ∈ path.segments.map Segment.text,'.' ∉ text := by
    intro text listed
    obtain ⟨seg,-,rfl⟩ := List.mem_map.mp listed
    exact seg.text_dot
  rw [List.splitOn_intercalate '.' plain (by simpa using path.nonempty),List.flatMap_map,FieldPath.steps,tokensOf_flatMap,
    List.flatMap_assoc]
  exact List.flatMap_congr fun seg _ => segmentPointer_text seg

theorem Segment.steps_token (seg : Segment) {s : Step} (listed : s ∈ seg.steps) : s.token ≠ [] := by
  rw [Segment.steps,List.mem_append] at listed
  rcases listed with listed | listed
  · by_cases key : seg.key = []
    · simp [key] at listed
    · rw [if_pos key] at listed
      rw [List.mem_singleton.mp listed]
      exact key
  · obtain ⟨i,-,rfl⟩ := List.mem_map.mp listed
    exact (decimal?_digits i.read).1

theorem FieldPath.steps_nonempty (path : FieldPath) : path.steps ≠ [] := by
  obtain ⟨seg,rest,cons⟩ := List.exists_cons_of_ne_nil path.nonempty
  rw [FieldPath.steps,cons,List.flatMap_cons]
  intro empty
  have none := (List.append_eq_nil_iff.mp empty).1
  rw [Segment.steps] at none
  rcases seg.nonempty with some | some
  · simp [some] at none
  · simp [some] at none

theorem tokensOf_nonempty {path : FieldPath} {token : List Char} (listed : token ∈ tokensOf path.steps) : token ≠ [] := by
  obtain ⟨s,kept,rfl⟩ := List.mem_map.mp listed
  obtain ⟨seg,-,member⟩ := List.mem_flatMap.mp (List.mem_filter.mp kept).1
  exact seg.steps_token member

/-! ### The walk -/

section
variable {P : Type} {nodes : P → Node P}

theorem walk_stops (n : P) (tokens : List (List Char)) : StopsAt nodes n tokens (walk nodes n (tokens.map escapePointer)) := by
  induction tokens generalizing n with
  | nil => exact ⟨[],[],rfl,rfl,fun _ none => nomatch none⟩
  | cons token rest ih =>
    rw [List.map_cons,walk,decodePointerSegment_escapePointer]
    cases child : childByKeyOrIndex nodes n token with
    | none =>
      refine ⟨[],token :: rest,rfl,rfl,?_⟩
      rintro _ ⟨⟩
      exact child
    | some next =>
      obtain ⟨front,back,cut,reached,missing⟩ := ih next
      refine ⟨token :: front,back,by rw [cut]; rfl,?_,missing⟩
      rw [List.foldlM_cons,child]
      exact reached

theorem StopsAt.walk {n m : P} {tokens : List (List Char)} (stops : StopsAt nodes n tokens m) :
    walk nodes n (tokens.map escapePointer) = m := by
  obtain ⟨front,back,rfl,reached,missing⟩ := stops
  induction front generalizing n with
  | nil =>
    obtain rfl := Option.some.inj reached
    cases back with
    | nil => rfl
    | cons token back =>
      rw [List.nil_append,List.map_cons,Positions.walk,decodePointerSegment_escapePointer,missing token rfl]
  | cons token front ih =>
    rw [List.foldlM_cons] at reached
    obtain ⟨next,child,reached⟩ := Option.bind_eq_some_iff.mp reached
    rw [List.cons_append,List.map_cons,Positions.walk,decodePointerSegment_escapePointer,child]
    exact ih reached

theorem escapePointer_nonempty {token : List Char} (nonempty : token ≠ []) : escapePointer token ≠ [] := by
  intro empty
  have back := decodePointerSegment_escapePointer token
  rw [empty] at back
  exact nonempty back.symm

theorem pointer_intercalate (token : List Char) (rest : List (List Char)) :
    ((token :: rest).flatMap fun token => '/' :: escapePointer token) =
      '/' :: ['/'].intercalate ((token :: rest).map escapePointer) := by
  induction rest generalizing token with
  | nil => simp
  | cons next rest ih =>
    rw [List.flatMap_cons,ih,List.map_cons,List.map_cons,List.map_cons,List.intercalate_cons_cons]
    simp

/-- The pointer of some tokens leads where the tokens lead. -/
theorem lineColAtJSONPointer_tokens (root : P) {tokens : List (List Char)} (nonempty : ∀ token ∈ tokens,token ≠ []) :
    lineColAtJSONPointer nodes root (tokens.flatMap fun token => '/' :: escapePointer token) =
      position nodes (walk nodes root (tokens.map escapePointer)) := by
  cases tokens with
  | nil => rfl
  | cons token rest =>
    have some : escapePointer token ≠ [] := escapePointer_nonempty (nonempty token List.mem_cons_self)
    have longer : ¬ (((token :: rest).flatMap fun token => '/' :: escapePointer token) = [] ∨
        ((token :: rest).flatMap fun token => '/' :: escapePointer token) = ['/']) := by
      simp [some]
    have plain : ∀ text ∈ (token :: rest).map escapePointer,'/' ∉ text := by
      intro text listed
      obtain ⟨token,-,rfl⟩ := List.mem_map.mp listed
      exact escapePointer_slash token
    have cut := List.splitOn_intercalate '/' plain (List.cons_ne_nil _ _)
    rw [lineColAtJSONPointer,if_neg longer,pointer_intercalate,stripPrefix_some.mpr List.singleton_append.symm,Option.getD_some,cut]

/-- Where the tokens of a path lead, unless that is where the root is. -/
theorem lookupPosition_text (root : P) (path : FieldPath) : lookupPosition nodes (some root) path.text =
    if tokensOf path.steps ≠ [] ∧
      position nodes (walk nodes root ((tokensOf path.steps).map escapePointer)) = position nodes root then (0,0)
    else position nodes (walk nodes root ((tokensOf path.steps).map escapePointer)) := by
  have nonempty : ∀ token ∈ tokensOf path.steps,token ≠ [] := fun token => tokensOf_nonempty
  rw [lookupPosition,if_neg path.text_nonempty,dottedPathToJSONPointer_text]
  dsimp only
  rw [lineColAtJSONPointer_tokens root nonempty]
  cases tokens : tokensOf path.steps with
  | nil => rfl
  | cons token rest =>
    rw [tokens] at nonempty
    have some : escapePointer token ≠ [] := escapePointer_nonempty (nonempty token List.mem_cons_self)
    simp [some]

/-! ### The steps of the walk -/

theorem valueOf_cons (key : List Char) (k v : P) (rest : List P) :
    valueOf nodes key (k :: v :: rest) = if isKey nodes key k then some v else valueOf nodes key rest := by
  rw [valueOf]
  by_cases is : isKey nodes key k
  · rw [if_pos is]
    unfold isKey at is
    split at is
    · exact if_pos is
    · exact is.elim
  · rw [if_neg is]
    unfold isKey at is
    split at is
    · exact if_neg is
    · rfl

theorem valueOf_entries (key : List Char) (content : List P) :
    valueOf nodes key content = ((entries content).find? fun entry => isKey nodes key entry.1).map Prod.snd := by
  induction content using entries.induct with
  | case1 k v rest ih =>
    rw [valueOf_cons,entries,List.find?_cons]
    by_cases is : isKey nodes key k
    · rw [if_pos is,decide_eq_true is]
      rfl
    · rw [if_neg is,decide_eq_false is]
      exact ih
  | case2 content short =>
    rw [entries,valueOf]
    · rfl
    · exact short
    · exact short

theorem child_target (lengths : ∀ n content,(nodes n).kind = .Sequence content → content.length < 2^63) {n next : P} {s : Step}
    (into : target nodes n s = some next) : childByKeyOrIndex nodes n s.token = some next ∧ s.kept = true := by
  cases s with
  | Key key =>
    rw [target] at into
    split at into
    · rename_i content shape
      refine ⟨?_,rfl⟩
      rw [childByKeyOrIndex,shape]
      exact (valueOf_entries key content).trans into
    · cases into
  | Index i =>
    rw [target] at into
    split at into
    · rename_i content shape
      obtain ⟨inside,item⟩ := List.getElem?_eq_some_iff.mp into
      have small : i.value < 2^63 := inside.trans (lengths n content shape)
      refine ⟨?_,decide_eq_true small⟩
      have within : ¬ ((i.value : Int) < 0 ∨ (i.value : Int) ≥ content.length) := by omega
      rw [childByKeyOrIndex,shape,Step.token]
      dsimp only
      rw [i.parse,if_pos small]
      dsimp only
      rw [if_neg within]
      exact into
    · cases into

theorem target_alias {n : P} {anchor : Option P} (stands : (nodes n).kind = .Alias anchor) (s : Step) : target nodes n s = none := by
  cases s <;> rw [target,stands]

theorem child_alias {n : P} {anchor : Option P} (stands : (nodes n).kind = .Alias anchor) (token : List Char) :
    childByKeyOrIndex nodes n token = none := by
  rw [childByKeyOrIndex,stands]

end

section
variable {P : Type} (doc : Document P)

theorem child_steps {n m : P} {steps : List Step} (reached : steps.foldlM (target doc.nodes) n = some m) :
    (tokensOf steps).foldlM (childByKeyOrIndex doc.nodes) n = some m := by
  induction steps generalizing n with
  | nil => exact reached
  | cons s rest ih =>
    rw [List.foldlM_cons] at reached
    obtain ⟨next,into,reached⟩ := Option.bind_eq_some_iff.mp reached
    obtain ⟨child,kept⟩ := child_target doc.lengths into
    rw [tokensOf,List.filter_cons_of_pos kept,List.map_cons,List.foldlM_cons,child]
    exact ih reached

theorem Names.kept {n m : P} {steps : List Step} (names : Names doc.nodes n steps m) : ∀ s ∈ steps,s.kept = true := by
  induction names with
  | Here n => exact fun s listed => nomatch listed
  | Into into _ ih => exact List.forall_mem_cons.mpr ⟨(child_target doc.lengths into).2,ih⟩
  | Alias _ _ ih => exact ih

/-- A path names what it leads to, unless an alias is on the way. -/
theorem Names.direct {nodes : P → Node P} {n m : P} {steps : List Step} (names : Names nodes n steps m) :
    steps.foldlM (target nodes) n = some m ∨ ∃ a,OnTheWay nodes n steps a := by
  induction names with
  | Here n => exact .inl rfl
  | @Into n next m s steps into _ ih =>
    rcases ih with reached | ⟨a,front,step,back,anchor,cut,reached,stands⟩
    · exact .inl (by rw [List.foldlM_cons,into]; exact reached)
    · refine .inr ⟨a,s :: front,step,back,anchor,by rw [cut]; rfl,?_,stands⟩
      rw [List.foldlM_cons,into]
      exact reached
  | @Alias n anchor m s steps stands _ _ => exact .inr ⟨n,[],s,steps,some anchor,rfl,rfl,stands⟩

theorem OnTheWay.stops {n a : P} {steps : List Step} (way : OnTheWay doc.nodes n steps a) :
    StopsAt doc.nodes n (tokensOf steps) a := by
  obtain ⟨front,s,back,anchor,rfl,reached,stands⟩ := way
  refine ⟨tokensOf front,tokensOf (s :: back),by simp [tokensOf],child_steps doc reached,?_⟩
  exact fun token _ => child_alias stands token

theorem direct_stops {n m : P} {steps : List Step} (reached : steps.foldlM (target doc.nodes) n = some m) :
    StopsAt doc.nodes n (tokensOf steps) m :=
  ⟨tokensOf steps,[],(List.append_nil _).symm,child_steps doc reached,fun _ none => nomatch none⟩

theorem direct_plain {nodes : P → Node P} {n m a : P} {steps : List Step} (reached : steps.foldlM (target nodes) n = some m) :
    ¬ OnTheWay nodes n steps a := by
  rintro ⟨front,s,back,anchor,rfl,before,stands⟩
  rw [List.foldlM_append,before] at reached
  rw [Option.bind_eq_bind,Option.bind_some,List.foldlM_cons,target_alias stands] at reached
  cases reached

/-- The walk ends where the named node is if and only if every alias on the way is there. -/
theorem walk_named {n m : P} {steps : List Step} (names : Names doc.nodes n steps m) :
    position doc.nodes (walk doc.nodes n ((tokensOf steps).map escapePointer)) = position doc.nodes m ↔
      ∀ a,OnTheWay doc.nodes n steps a → position doc.nodes a = position doc.nodes m := by
  rcases names.direct with reached | ⟨other,way⟩
  · rw [(direct_stops doc reached).walk]
    exact ⟨fun _ a way => absurd way (direct_plain reached),fun _ => rfl⟩
  · constructor
    · intro same a way
      rw [(way.stops doc).walk] at same
      exact same
    · intro each
      rw [(way.stops doc).walk]
      exact each other way

theorem position_line (n : P) : position doc.nodes n ≠ (0,0) := by
  intro zero
  exact Nat.ne_of_gt (doc.lines n) (Prod.mk.inj zero).1

theorem Names.tokens {path : FieldPath} {n m : P} (names : Names doc.nodes n path.steps m) : tokensOf path.steps ≠ [] := by
  rw [tokensOf,List.filter_eq_self.mpr (names.kept doc)]
  simpa using path.steps_nonempty

/-- The position looked up is that of the named node under the first half of the condition. -/
theorem lookup_named (path : FieldPath) {m : P} (names : NamedBy doc path m) :
    lookupPosition doc.nodes (some doc.root) path.text = position doc.nodes m ↔
      position doc.nodes m ≠ position doc.nodes doc.root ∧
        ∀ a,OnTheWay doc.nodes doc.root path.steps a → position doc.nodes a = position doc.nodes m := by
  rw [lookupPosition_text,← walk_named doc names]
  generalize walk doc.nodes doc.root ((tokensOf path.steps).map escapePointer) = stop
  by_cases atRoot : position doc.nodes stop = position doc.nodes doc.root
  · rw [if_pos ⟨names.tokens doc,atRoot⟩]
    constructor
    · intro zero
      exact absurd zero.symm (position_line doc m)
    · rintro ⟨elsewhere,same⟩
      exact absurd (same.symm.trans atRoot) elsewhere
  · rw [if_neg fun both => atRoot both.2]
    constructor
    · intro same
      exact ⟨same ▸ atRoot,same⟩
    · exact And.right

theorem lookup_missed (path : FieldPath) :
    lookupPosition doc.nodes (some doc.root) path.text = (0,0) ↔ tokensOf path.steps ≠ [] ∧
      ∃ n,StopsAt doc.nodes doc.root (tokensOf path.steps) n ∧ position doc.nodes n = position doc.nodes doc.root := by
  rw [lookupPosition_text]
  constructor
  · intro zero
    by_cases atRoot : tokensOf path.steps ≠ [] ∧
      position doc.nodes (walk doc.nodes doc.root ((tokensOf path.steps).map escapePointer)) = position doc.nodes doc.root
    · exact ⟨atRoot.1,_,walk_stops _ _,atRoot.2⟩
    · rw [if_neg atRoot] at zero
      exact absurd zero (position_line doc _)
  · rintro ⟨some,n,stops,atRoot⟩
    rw [stops.walk]
    exact if_pos ⟨some,atRoot⟩

theorem correct_exact (path : FieldPath) :
    Correct doc path (lookupPosition doc.nodes (some doc.root) path.text) ↔ Exact doc path := by
  constructor
  · rintro ⟨named,missed⟩
    exact ⟨fun m names => (lookup_named doc path names).mp (named m names),
      fun none => (lookup_missed doc path).mp (missed none)⟩
  · rintro ⟨named,missed⟩
    exact ⟨fun m names => (lookup_named doc path names).mpr (named m names),
      fun none => (lookup_missed doc path).mpr (missed none)⟩

end

/-- Which positions are exact, and that a key comes back from its pointer segment. -/
theorem positions_exact {P : Type} (doc : Document P) (path : FieldPath) (key : List Char) :
    (Correct doc path (lookupPosition doc.nodes (some doc.root) path.text) ↔ Exact doc path) ∧
      decodePointerSegment (escapePointer key) = key :=
  ⟨correct_exact doc path,decodePointerSegment_escapePointer key⟩

/-! ### A name that is missing deeper in -/

/-- A mapping under `agent` at the second line, which holds a name. -/
def agentNodes : Fin 5 → Node (Fin 5)
  | 0 => ⟨.Mapping [1,2],1,1⟩
  | 1 => ⟨.Scalar "!!str" "agent",1,1⟩
  | 2 => ⟨.Mapping [3,4],2,3⟩
  | 3 => ⟨.Scalar "!!str" "name",2,3⟩
  | 4 => ⟨.Scalar "!!str" "smoke",2,9⟩

def agentDocument : Document (Fin 5) where
  nodes := agentNodes
  root := 0
  lines := by decide
  lengths := by
    intro n content shape
    fin_cases n <;> cases shape

def missingField : FieldPath where
  segments := [⟨"agent".toList,[],by decide,by decide⟩,⟨"nope".toList,[],by decide,by decide⟩]
  nonempty := List.cons_ne_nil _ _

theorem missingField_position :
    lookupPosition agentDocument.nodes (some agentDocument.root) missingField.text = (2,3) := by
  decide

/-- A field that is nowhere in the document is given the position of the mapping that lacks it. -/
theorem missing_placed : ¬ ∀ (doc : Document (Fin 5)) (path : FieldPath),
    Correct doc path (lookupPosition doc.nodes (some doc.root) path.text) := by
  intro exact
  have missed := (exact agentDocument missingField).2
  rw [missingField_position] at missed
  refine absurd (missed fun m names => ?_) (by decide)
  rcases names.direct with reached | ⟨a,-,-,-,anchor,-,-,stands⟩
  · cases reached
  · fin_cases a <;> cases stands

end AegisNode.Positions
