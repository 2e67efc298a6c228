import Mathlib.Tactic
import Mathlib.Data.List.DropRight

/-!
Unix paths as the two standard libraries read them: Rust's `Path::components`
and `Path::file_name`, Go's `filepath.Base`, and the lexical normalization of an
absolute path.
-/
namespace AegisNode.Paths

/-- The pieces of a path between its separators. -/
def segments (path : String) : List (List Char) := path.toList.splitOn '/'

def isAbsolute (path : String) : Bool := path.toList.head? = some '/'

/-- `std::path::Component` without the Windows prefixes. -/
inductive Component where
  | RootDir
  | CurDir
  | ParentDir
  | Normal (name : List Char)
  deriving DecidableEq,Repr

/-- The component of one piece; empty pieces and `.` have none. -/
def component? (segment : List Char) : Option Component :=
  if segment = [] ∨ segment = ['.'] then none
  else if segment = ['.','.'] then some .ParentDir
  else some (.Normal segment)

/-- `Path::components`: a `.` counts only at the start of a relative path. -/
def components (path : String) : List Component :=
  if isAbsolute path then .RootDir :: (segments path).filterMap component?
  else match segments path with
    | ['.'] :: rest => .CurDir :: rest.filterMap component?
    | all => all.filterMap component?

/-- `Path::file_name`: the last component if it is a normal one. -/
def fileName (path : String) : Option (List Char) :=
  match (components path).getLast? with
  | some (.Normal name) => some name
  | _ => none

/-- `filepath.Base`: trailing separators are dropped, then everything up to the
    last separator; an empty path is `.` and one of separators only is `/`. -/
def base (path : List Char) : List Char :=
  if path = [] then ['.']
  else
    let stripped := path.rdropWhile (· = '/')
    let last := stripped.rtakeWhile (· ≠ '/')
    if last = [] then ['/'] else last

/-! ### The last piece of a path -/

theorem segments_last (text : List Char) :
    ∃ init, text.splitOn '/' = init ++ [text.rtakeWhile (· ≠ '/')] := by
  have whole := List.rdropWhile_append_rtakeWhile (l := text) (p := (· ≠ '/'))
  have free : '/' ∉ text.rtakeWhile (· ≠ '/') := fun inside => by
    simpa using List.mem_rtakeWhile_imp inside
  rcases List.eq_nil_or_concat (text.rdropWhile (· ≠ '/')) with none | ⟨front,c,some⟩
  · rw [none,List.nil_append] at whole
    exact ⟨[],by rw [whole] at free ⊢; simpa using List.splitOn_eq_singleton free⟩
  · have stop := List.rdropWhile_last_not (l := text) (p := (· ≠ '/')) (by rw [some]; simp)
    simp only [some,List.concat_eq_append,List.getLast_append_singleton] at stop
    have slash : c = '/' := by simpa using stop
    refine ⟨front.splitOn '/',?_⟩
    conv_lhs => rw [← whole]
    rw [some,slash,List.concat_eq_append,List.append_assoc,List.singleton_append,
      List.splitOn_append_cons_self,List.splitOn_eq_singleton free]

/-- The last piece that is not empty. -/
def lastName (path : List Char) : Option (List Char) :=
  ((path.splitOn '/').filter (· ≠ [])).getLast?

theorem lastName_concat_slash (path : List Char) : lastName (path ++ ['/']) = lastName path := by
  simp [lastName,List.splitOn_append_cons_self]

theorem base_concat_slash {path : List Char} (nonempty : path ≠ []) : base (path ++ ['/']) = base path := by
  rw [base,base,if_neg nonempty,if_neg (by simp),List.rdropWhile_concat_pos _ _ _ (by simp)]

theorem base_lastName (path : List Char) :
    base path = (lastName path).getD (if path = [] then ['.'] else ['/']) := by
  induction path using List.reverseRecOn with
  | nil => rfl
  | append_singleton path c ih =>
    by_cases slash : c = '/'
    · subst slash
      rw [lastName_concat_slash]
      by_cases nonempty : path = []
      · subst nonempty; rfl
      · rw [base_concat_slash nonempty,ih]; simp [nonempty]
    · obtain ⟨init,split⟩ := segments_last (path ++ [c])
      have last : (path ++ [c]).rtakeWhile (· ≠ '/') = path.rtakeWhile (· ≠ '/') ++ [c] :=
        List.rtakeWhile_concat_pos _ _ _ (by simpa using slash)
      rw [last] at split
      simp only [lastName,split,List.filter_append]
      simp [base,List.rdropWhile_concat_neg,slash]

/-- Whether the first piece of a relative path is a `.`. -/
def dotted : List (List Char) → Bool
  | ['.'] :: _ => true
  | _ => false

theorem components_eq (path : String) : components path =
    (if isAbsolute path then [.RootDir] else if dotted (segments path) then [.CurDir] else []) ++
      (segments path).filterMap component? := by
  unfold components
  split
  · rfl
  · split
    · rename_i rest split
      simp [split,dotted,component?]
    · rename_i other
      have plain : dotted (segments path) = false := by
        unfold dotted
        split
        · rename_i rest split
          exact absurd split (other rest)
        · rfl
      simp [plain]

/-- The last component is that of the last piece which is neither empty nor `.`. -/
theorem components_last {path : String} {name : List Char} (last : lastName path.toList = some name)
    (notDot : name ≠ ['.']) : (components path).getLast? = component? name := by
  have nonempty : name ≠ [] := by
    have := List.mem_of_getLast? last
    simpa using (List.mem_filter.mp this).2
  have kept : ∀ pieces : List (List Char), (pieces.filter (· ≠ [])).filterMap component? = pieces.filterMap component? := by
    intro pieces
    rw [List.filterMap_filter]
    congr 1; funext piece
    by_cases empty : piece = []
    · simp [empty,component?]
    · simp [empty]
  obtain ⟨init,split⟩ := List.getLast?_eq_some_iff.mp last
  rw [components_eq,segments,← kept,split]
  have found : ∃ component, component? name = some component := by
    unfold component?
    split
    · simp_all
    · split <;> exact ⟨_,rfl⟩
  obtain ⟨component,found⟩ := found
  simp [found]

/-- Rust and Go name the same last piece, unless it is `.` or `..`. -/
theorem fileName_base {path : String} (notDot : base path.toList ≠ ['.'])
    (notDots : base path.toList ≠ ['.','.']) {name : List Char} (bare : '/' ∉ name) :
    fileName path = some name ↔ base path.toList = name := by
  rw [base_lastName] at *
  cases last : lastName path.toList with
  | some final =>
    simp only [last,Option.getD_some] at notDot notDots ⊢
    have nonempty : final ≠ [] := by
      have := List.mem_of_getLast? last
      simpa using (List.mem_filter.mp this).2
    rw [fileName,components_last last notDot]
    simp [component?,nonempty,notDot,notDots]
  | none =>
    have empty : ∀ piece ∈ segments path, piece = [] := by
      simpa [lastName,segments,List.getLast?_eq_none_iff] using last
    have silent : (segments path).filterMap component? = [] := by
      rw [List.filterMap_eq_nil_iff]
      exact fun piece member => by simp [component?,empty piece member]
    have plain : dotted (segments path) = false := by
      cases pieces : segments path with
      | nil => rfl
      | cons first rest =>
        rw [empty first (by rw [pieces]; exact List.mem_cons_self)]
        rfl
    have unnamed : fileName path = none := by
      rw [fileName,components_eq,silent,plain]
      cases isAbsolute path <;> rfl
    simp only [unnamed,last,Option.getD_none] at notDot ⊢
    split_ifs at notDot ⊢
    · exact absurd rfl notDot
    · simp only [false_iff]
      exact fun same => bare (by simp [← same])

/-! ### Lexical normalization -/

/-- One piece of a path walked from a directory: `..` leaves it, empty pieces and
    `.` stay, and the root has no parent. -/
def enter (dirs : List (List Char)) (segment : List Char) : List (List Char) :=
  if segment = [] ∨ segment = ['.'] then dirs
  else if segment = ['.','.'] then dirs.dropLast
  else dirs ++ [segment]

def walk (dirs : List (List Char)) (pieces : List (List Char)) : List (List Char) := pieces.foldl enter dirs

/-- The directories an absolute path names once `.`, `..` and repeated
    separators are collapsed. -/
def normalize (path : String) : List (List Char) := walk [] (segments path)

/-- `path` is equal to or below `parent` after normalization. -/
def Beneath (path parent : String) : Prop := normalize parent <+: normalize path

instance (path parent : String) : Decidable (Beneath path parent) :=
  inferInstanceAs (Decidable (normalize parent <+: normalize path))

theorem segments_join (front back : String) : segments (front ++ "/" ++ back) = segments front ++ segments back := by
  simp only [segments,String.toList_append]
  rw [show "/".toList = ['/'] from rfl,List.append_assoc,List.singleton_append,List.splitOn_append_cons_self]

theorem normalize_join (front back : String) : normalize (front ++ "/" ++ back) = walk (normalize front) (segments back) := by
  simp [normalize,walk,segments_join]

/-- A walk without `..` never leaves the directory it starts in. -/
theorem prefix_walk {pieces : List (List Char)} (down : ['.','.'] ∉ pieces) (dirs : List (List Char)) :
    dirs <+: walk dirs pieces := by
  induction pieces generalizing dirs with
  | nil => exact List.prefix_rfl
  | cons piece rest ih =>
    have stay : dirs <+: enter dirs piece := by
      unfold enter
      split
      · exact List.prefix_rfl
      · rw [if_neg (fun up => down (by simp [up]))]
        exact List.prefix_append _ _
    exact stay.trans (ih (fun later => down (List.mem_cons_of_mem _ later)) _)

/-- As many `..` as there are directories lead to the root. -/
theorem walk_up (dirs : List (List Char)) : walk dirs (List.replicate dirs.length ['.','.']) = [] := by
  induction dirs using List.reverseRecOn with
  | nil => rfl
  | append_singleton dirs last ih =>
    rw [List.length_append,List.length_singleton,List.replicate_succ]
    simpa [walk,enter] using ih

theorem walk_append (dirs front back : List (List Char)) : walk dirs (front ++ back) = walk (walk dirs front) back :=
  List.foldl_append

theorem walk_empty (dirs : List (List Char)) (count : Nat) : walk dirs (List.replicate count []) = dirs := by
  induction count with
  | zero => rfl
  | succ count ih => simpa [walk,enter,List.replicate_succ] using ih

/-- A path whose pieces are the given ones. -/
def pathOf (pieces : List (List Char)) : String := String.ofList (['/'].intercalate pieces)

theorem segments_pathOf {pieces : List (List Char)} (plain : ∀ piece ∈ pieces, '/' ∉ piece) (nonempty : pieces ≠ []) :
    segments (pathOf pieces) = pieces := by
  rw [segments,pathOf,String.toList_ofList]
  exact List.splitOn_intercalate '/' plain nonempty

theorem isAbsolute_append {path : String} (absolute : isAbsolute path = true) (rest : String) :
    isAbsolute (path ++ rest) = true := by
  simp only [isAbsolute,String.toList_append,decide_eq_true_eq] at *
  cases chars : path.toList with
  | nil => simp [chars] at absolute
  | cons c tail => simpa [chars] using absolute

/-! ### Go's `path/filepath` -/

/-- One piece on the way through `filepath.Clean`; a relative path keeps the `..`
    that lead above its start. -/
def cleanStep (rooted : Bool) (kept : List (List Char)) (piece : List Char) : List (List Char) :=
  if piece = [] ∨ piece = ['.'] then kept
  else if piece = ['.','.'] then
    if kept ≠ [] ∧ kept.getLast? ≠ some ['.','.'] then kept.dropLast
    else if rooted then kept
    else kept ++ [piece]
  else kept ++ [piece]

/-- `filepath.Clean`. -/
def clean (path : String) : String :=
  let rooted := isAbsolute path
  let kept := (segments path).foldl (cleanStep rooted) []
  if rooted then "/" ++ pathOf kept
  else if kept = [] then "." else pathOf kept

/-- `filepath.Dir`: everything up to the last separator, cleaned. -/
def dir (path : String) : String := clean (String.ofList (path.toList.rdropWhile (· ≠ '/')))

/-- `filepath.Join` of two elements of which the first is not empty. -/
def join (front back : String) : String := clean (front ++ "/" ++ back)

/-- `filepath.Abs` in a working directory. -/
def absPath (cwd path : String) : String := if isAbsolute path then clean path else join cwd path

example : clean "/a/../b/./c//" = "/b/c" := by decide
example : join (dir "team/agent.yaml") "../org.yaml" = "org.yaml" := by decide

end AegisNode.Paths
