import Mathlib.Tactic

/-!
Regular expressions over characters: sequences, alternatives and repeated classes,
with the word boundary as the only look-around. A search tries every position; a
character that no part of the pattern takes cuts the search in two.
-/
namespace AegisNode.Regex

inductive Pattern where
  | Empty
  | Class (accepts : Char → Bool)
  | Seq (first second : Pattern)
  | Alt (left right : Pattern)
  | Many (accepts : Char → Bool)
  | Boundary

/-- A position in a text: what was passed, the last character first, and what is
    to come. -/
abbrev Position := List Char × List Char

/-- Whether a word character stands at the front. -/
def wordAt (word : Char → Bool) : List Char → Bool
  | [] => false
  | c :: _ => word c

/-- A word begins or ends here. -/
def atBoundary (word : Char → Bool) (at_ : Position) : Bool := wordAt word at_.1 != wordAt word at_.2

/-- The positions after some characters of a class. -/
def afterMany (accepts : Char → Bool) (passed : List Char) : List Char → List Position
  | [] => [(passed,[])]
  | c :: rest => (passed,c :: rest) :: if accepts c then afterMany accepts (c :: passed) rest else []

/-- The positions where a match that starts here can end. -/
def ends (word : Char → Bool) : Pattern → Position → List Position
  | .Empty,here => [here]
  | .Class accepts,(passed,c :: rest) => if accepts c then [(c :: passed,rest)] else []
  | .Class _,(_,[]) => []
  | .Seq first second,here => (ends word first here).flatMap (ends word second)
  | .Alt left right,here => ends word left here ++ ends word right here
  | .Many accepts,here => afterMany accepts here.1 here.2
  | .Boundary,here => if atBoundary word here then [here] else []

def matchesAt (word : Char → Bool) (p : Pattern) (here : Position) : Bool := !(ends word p here).isEmpty

/-- Searches from a position on. -/
def search (word : Char → Bool) (p : Pattern) (passed : List Char) : List Char → Bool
  | [] => matchesAt word p (passed,[])
  | c :: rest => matchesAt word p (passed,c :: rest) || search word p (c :: passed) rest

/-- `Regex::is_match`. -/
def isMatch (word : Char → Bool) (p : Pattern) (text : List Char) : Bool := search word p [] text

/-! ### Abbreviations -/

def seqAll (parts : List Pattern) : Pattern := parts.foldr .Seq .Empty

def altAll : List Pattern → Pattern
  | [] => .Empty
  | [p] => p
  | p :: rest => .Alt p (altAll rest)

def opt (p : Pattern) : Pattern := .Alt p .Empty

def some1 (accepts : Char → Bool) : Pattern := .Seq (.Class accepts) (.Many accepts)

def char (c : Char) : Pattern := .Class (· = c)

/-- The characters of a text one after the other, each through `fold`. -/
def literal (fold : Char → Char → Bool) (text : String) : Pattern := seqAll (text.toList.map (fun c => .Class (fold c)))

/-! ### Where a match can end -/

section
variable {word : Char → Bool}

theorem mem_afterMany {accepts : Char → Bool} {passed rest : List Char} {e : Position}
    (member : e ∈ afterMany accepts passed rest) : e.2 <:+ rest := by
  induction rest generalizing passed with
  | nil =>
    obtain rfl := List.mem_singleton.mp member
    exact List.suffix_rfl
  | cons c rest ih =>
    rw [afterMany] at member
    rcases List.mem_cons.mp member with rfl | member
    · exact List.suffix_rfl
    · by_cases taken : accepts c
      · rw [if_pos taken] at member
        exact (ih member).trans (List.suffix_cons c rest)
      · rw [if_neg taken] at member
        cases member

/-- A match ends at a later position of the same text. -/
theorem ends_suffix {p : Pattern} {here e : Position} (member : e ∈ ends word p here) : e.2 <:+ here.2 := by
  induction p generalizing here e with
  | Empty =>
    obtain rfl := List.mem_singleton.mp member
    exact List.suffix_rfl
  | Class accepts =>
    obtain ⟨passed,rest⟩ := here
    cases rest with
    | nil => cases member
    | cons c rest =>
      rw [ends] at member
      split_ifs at member
      · obtain rfl := List.mem_singleton.mp member
        exact List.suffix_cons c rest
      · cases member
  | Seq first second ih₁ ih₂ =>
    obtain ⟨middle,left,right⟩ := List.mem_flatMap.mp member
    exact (ih₂ right).trans (ih₁ left)
  | Alt left right ih₁ ih₂ =>
    rcases List.mem_append.mp member with member | member
    · exact ih₁ member
    · exact ih₂ member
  | Many accepts => exact mem_afterMany member
  | Boundary =>
    rw [ends] at member
    split_ifs at member
    · obtain rfl := List.mem_singleton.mp member
      exact List.suffix_rfl
    · cases member

/-! ### Separators -/

/-- A class of the pattern takes the character. -/
def takes : Pattern → Char → Bool
  | .Empty,_ => false
  | .Class accepts,c => accepts c
  | .Seq first second,c => takes first c || takes second c
  | .Alt left right,c => takes left c || takes right c
  | .Many accepts,c => accepts c
  | .Boundary,_ => false

/-- A position followed by more text, or preceded by it. -/
def before (tail : List Char) (e : Position) : Position := (e.1,e.2 ++ tail)

def after (head : List Char) (e : Position) : Position := (e.1 ++ head,e.2)

theorem afterMany_before {accepts : Char → Bool} {q : Char} (refused : accepts q = false) (tail passed rest : List Char) :
    afterMany accepts passed (rest ++ q :: tail) = (afterMany accepts passed rest).map (before (q :: tail)) := by
  induction rest generalizing passed with
  | nil => simp [afterMany,before,refused]
  | cons c rest ih =>
    rw [List.cons_append,afterMany,afterMany,List.map_cons]
    by_cases taken : accepts c
    · rw [if_pos taken,if_pos taken,ih]
      rfl
    · rw [if_neg taken,if_neg taken]
      rfl

theorem afterMany_after (accepts : Char → Bool) (head passed rest : List Char) :
    afterMany accepts (passed ++ head) rest = (afterMany accepts passed rest).map (after head) := by
  induction rest generalizing passed with
  | nil => rfl
  | cons c rest ih =>
    rw [afterMany,afterMany,List.map_cons]
    by_cases taken : accepts c
    · rw [if_pos taken,if_pos taken,← List.cons_append,ih]
      rfl
    · rw [if_neg taken,if_neg taken]
      rfl

/-- The text after a separator does not matter. -/
theorem ends_before {p : Pattern} {q : Char} (untaken : takes p q = false) (outside : word q = false) (tail : List Char)
    (here : Position) : ends word p (before (q :: tail) here) = (ends word p here).map (before (q :: tail)) := by
  induction p generalizing here with
  | Empty => rfl
  | Class accepts =>
    obtain ⟨passed,rest⟩ := here
    cases rest with
    | nil =>
      have refused : accepts q = false := untaken
      simp [before,ends,refused]
    | cons c rest =>
      simp only [before,List.cons_append,ends]
      split_ifs <;> rfl
  | Seq first second ih₁ ih₂ =>
    obtain ⟨left,right⟩ := Bool.or_eq_false_iff.mp untaken
    rw [ends,ends,ih₁ left,List.flatMap_map,List.map_flatMap]
    exact List.flatMap_congr fun e _ => ih₂ right e
  | Alt left right ih₁ ih₂ =>
    obtain ⟨first,second⟩ := Bool.or_eq_false_iff.mp untaken
    rw [ends,ends,ih₁ first,ih₂ second,List.map_append]
  | Many accepts => exact afterMany_before untaken tail here.1 here.2
  | Boundary =>
    have same : atBoundary word (before (q :: tail) here) = atBoundary word here := by
      obtain ⟨passed,rest⟩ := here
      cases rest <;> simp [atBoundary,before,wordAt,outside]
    rw [ends,ends,same]
    split_ifs <;> rfl

/-- Nor does the text in front of one. -/
theorem ends_after {p : Pattern} {q : Char} (outside : word q = false) (head : List Char) (here : Position) :
    ends word p (after (q :: head) here) = (ends word p here).map (after (q :: head)) := by
  induction p generalizing here with
  | Empty => rfl
  | Class accepts =>
    obtain ⟨passed,rest⟩ := here
    cases rest with
    | nil => rfl
    | cons c rest =>
      simp only [after,ends]
      split_ifs <;> rfl
  | Seq first second ih₁ ih₂ =>
    rw [ends,ends,ih₁,List.flatMap_map,List.map_flatMap]
    exact List.flatMap_congr fun e _ => ih₂ e
  | Alt left right ih₁ ih₂ => rw [ends,ends,ih₁,ih₂,List.map_append]
  | Many accepts => exact afterMany_after accepts (q :: head) here.1 here.2
  | Boundary =>
    have same : atBoundary word (after (q :: head) here) = atBoundary word here := by
      obtain ⟨passed,rest⟩ := here
      cases passed <;> simp [atBoundary,after,wordAt,outside]
    rw [ends,ends,same]
    split_ifs <;> rfl

theorem matchesAt_before {p : Pattern} {q : Char} (untaken : takes p q = false) (outside : word q = false)
    (tail passed rest : List Char) : matchesAt word p (passed,rest ++ q :: tail) = matchesAt word p (passed,rest) := by
  have same := ends_before untaken outside tail (passed,rest)
  rw [before] at same
  rw [matchesAt,same,List.isEmpty_map,matchesAt]

theorem matchesAt_after {p : Pattern} {q : Char} (outside : word q = false) (head passed rest : List Char) :
    matchesAt word p (passed ++ q :: head,rest) = matchesAt word p (passed,rest) := by
  have same := ends_after (p := p) outside head (passed,rest)
  rw [after] at same
  rw [matchesAt,same,List.isEmpty_map,matchesAt]

theorem search_after {p : Pattern} {q : Char} (outside : word q = false) (head passed rest : List Char) :
    search word p (passed ++ q :: head) rest = search word p passed rest := by
  induction rest generalizing passed with
  | nil => exact matchesAt_after outside head passed []
  | cons c rest ih => rw [search,search,matchesAt_after outside,← List.cons_append,ih]

theorem search_before {p : Pattern} {q : Char} (untaken : takes p q = false) (outside : word q = false)
    (left right passed : List Char) :
    search word p passed (left ++ q :: right) = (search word p passed left || isMatch word p right) := by
  induction left generalizing passed with
  | nil =>
    have first := matchesAt_before untaken outside right passed []
    have rest := search_after (p := p) outside passed [] right
    rw [List.nil_append] at first rest
    rw [List.nil_append,search,search,first,rest,isMatch]
  | cons c left ih =>
    rw [List.cons_append,search,search,ih,← List.cons_append,matchesAt_before untaken outside,Bool.or_assoc]

/-- A search over a separator is a search on each side of it. -/
theorem isMatch_separated {p : Pattern} {q : Char} (untaken : takes p q = false) (outside : word q = false)
    (left right : List Char) : isMatch word p (left ++ q :: right) = (isMatch word p left || isMatch word p right) :=
  search_before untaken outside left right []

/-! ### Matches inside a text -/

theorem afterMany_inside {accepts : Char → Bool} {passed rest : List Char} {e : Position} (tail : List Char)
    (member : e ∈ afterMany accepts passed rest) : before tail e ∈ afterMany accepts passed (rest ++ tail) := by
  induction rest generalizing passed with
  | nil =>
    obtain rfl := List.mem_singleton.mp member
    cases tail <;> exact List.mem_cons_self
  | cons c rest ih =>
    rw [afterMany] at member
    rw [List.cons_append,afterMany]
    rcases List.mem_cons.mp member with rfl | later
    · exact List.mem_cons_self
    · by_cases taken : accepts c
      · rw [if_pos taken] at later ⊢
        exact List.mem_cons_of_mem _ (ih later)
      · rw [if_neg taken] at later
        cases later

/-- What ends a match ends it in a longer text too, which may have later ends. -/
theorem ends_inside {p : Pattern} {q : Char} (outside : word q = false) (tail : List Char) {here e : Position}
    (member : e ∈ ends word p here) : before (q :: tail) e ∈ ends word p (before (q :: tail) here) := by
  induction p generalizing here e with
  | Empty =>
    obtain rfl := List.mem_singleton.mp member
    exact List.mem_cons_self
  | Class accepts =>
    obtain ⟨passed,rest⟩ := here
    cases rest with
    | nil => cases member
    | cons c rest =>
      rw [ends] at member
      split_ifs at member with taken
      · obtain rfl := List.mem_singleton.mp member
        rw [before,List.cons_append,ends,if_pos taken]
        exact List.mem_cons_self
      · cases member
  | Seq first second ih₁ ih₂ =>
    obtain ⟨middle,left,right⟩ := List.mem_flatMap.mp member
    exact List.mem_flatMap.mpr ⟨_,ih₁ left,ih₂ right⟩
  | Alt left right ih₁ ih₂ =>
    rcases List.mem_append.mp member with member | member
    · exact List.mem_append_left _ (ih₁ member)
    · exact List.mem_append_right _ (ih₂ member)
  | Many accepts => exact afterMany_inside _ member
  | Boundary =>
    have same : atBoundary word (before (q :: tail) here) = atBoundary word here := by
      obtain ⟨passed,rest⟩ := here
      cases rest <;> simp [atBoundary,before,wordAt,outside]
    rw [ends] at member ⊢
    rw [same]
    split_ifs at member ⊢
    · obtain rfl := List.mem_singleton.mp member
      exact List.mem_cons_self
    · cases member

theorem matchesAt_iff {p : Pattern} {here : Position} : matchesAt word p here = true ↔ ∃ e,e ∈ ends word p here := by
  rw [matchesAt,Bool.not_eq_true',List.isEmpty_eq_false_iff_exists_mem]

/-- A search succeeds at some split of the text. -/
theorem search_iff {p : Pattern} {passed text : List Char} :
    search word p passed text = true ↔ ∃ front back,text = front ++ back ∧ matchesAt word p (front.reverse ++ passed,back) = true := by
  induction text generalizing passed with
  | nil =>
    rw [search]
    constructor
    · exact fun found => ⟨[],[],rfl,found⟩
    · rintro ⟨front,back,whole,found⟩
      obtain ⟨rfl,rfl⟩ := List.append_eq_nil_iff.mp whole.symm
      exact found
  | cons c rest ih =>
    rw [search,Bool.or_eq_true,ih]
    constructor
    · rintro (found | ⟨front,back,rfl,found⟩)
      · exact ⟨[],c :: rest,rfl,found⟩
      · exact ⟨c :: front,back,rfl,by simpa using found⟩
    · rintro ⟨front,back,whole,found⟩
      cases front with
      | nil =>
        cases whole
        exact .inl found
      | cons d front =>
        cases whole
        exact .inr ⟨front,back,rfl,by simpa using found⟩

/-- A match in a text is one in every text that has it between two separators. -/
theorem isMatch_inside {p : Pattern} {text : List Char} {q r : Char} (opens : word q = false) (closes : word r = false)
    (left right : List Char) (found : isMatch word p text = true) : isMatch word p (left ++ q :: (text ++ r :: right)) = true := by
  obtain ⟨front,back,rfl,here⟩ := search_iff.mp found
  rw [List.append_nil] at here
  obtain ⟨e,member⟩ := matchesAt_iff.mp here
  refine search_iff.mpr ⟨left ++ q :: front,back ++ r :: right,by simp,matchesAt_iff.mpr ⟨after (q :: left.reverse) (before (r :: right) e),?_⟩⟩
  have passed : (left ++ q :: front).reverse ++ [] = front.reverse ++ q :: left.reverse := by simp
  have whole := ends_after (p := p) opens left.reverse (front.reverse,back ++ r :: right)
  rw [after] at whole
  rw [passed,whole]
  exact List.mem_map_of_mem (ends_inside closes right member)

/-! ### Texts without a match -/

/-- A match takes a character outside `known`. -/
def Leaves (word : Char → Bool) (known : Char → Prop) (p : Pattern) : Prop :=
  ∀ passed rest,(∀ c ∈ rest,known c) → ends word p (passed,rest) = []

variable {known : Char → Prop}

theorem leaves_class {accepts : Char → Bool} (other : ∀ c,known c → accepts c = false) :
    Leaves word known (.Class accepts) := by
  intro passed rest inside
  cases rest with
  | nil => rfl
  | cons c rest => rw [ends,other c (inside c List.mem_cons_self)]; rfl

theorem leaves_first {first second : Pattern} (leaves : Leaves word known first) : Leaves word known (.Seq first second) := by
  intro passed rest inside
  rw [ends,leaves passed rest inside]
  rfl

theorem leaves_second {first second : Pattern} (leaves : Leaves word known second) :
    Leaves word known (.Seq first second) := by
  intro passed rest inside
  rw [ends,List.flatMap_eq_nil_iff]
  intro e member
  exact leaves e.1 e.2 fun c here => inside c ((ends_suffix member).subset here)

theorem leaves_alt {left right : Pattern} (first : Leaves word known left) (second : Leaves word known right) :
    Leaves word known (.Alt left right) := by
  intro passed rest inside
  rw [ends,first passed rest inside,second passed rest inside]
  rfl

/-- A text of known characters has no match. -/
theorem isMatch_known {p : Pattern} (leaves : Leaves word known p) {text : List Char} (inside : ∀ c ∈ text,known c) :
    isMatch word p text = false := by
  suffices searched : ∀ passed,search word p passed text = false from searched []
  induction text with
  | nil =>
    intro passed
    rw [search,matchesAt,leaves passed [] inside]
    rfl
  | cons c rest ih =>
    intro passed
    rw [search,matchesAt,leaves passed (c :: rest) inside,ih fun d member => inside d (List.mem_cons_of_mem c member)]
    rfl

end

end AegisNode.Regex
