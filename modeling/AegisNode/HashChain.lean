import Mathlib.Tactic

/-!
Chains in which every element names the hash of the one before it. The hash of
the last element determines the whole chain.
-/
namespace AegisNode.HashChain

section
variable {Line Hash : Type} (hash : Line → Hash) (prev : Line → Option Hash)

/-- Each line names its predecessor's hash; the first one names `start`. -/
def Chained (start : Hash) : List Line → Prop
  | [] => True
  | line :: rest => prev line = some start ∧ Chained (hash line) rest

/-- The hash of the last line, or the start of an empty chain. -/
def root (start : Hash) : List Line → Hash
  | [] => start
  | line :: rest => root (hash line) rest

@[simp] theorem root_concat (start : Hash) (lines : List Line) (line : Line) : root hash start (lines ++ [line]) = hash line := by
  induction lines generalizing start with
  | nil => rfl
  | cons first rest ih => exact ih (hash first)

theorem chained_concat {start : Hash} {lines : List Line} {line : Line} :
    Chained hash prev start (lines ++ [line]) ↔ Chained hash prev start lines ∧ prev line = some (root hash start lines) := by
  induction lines generalizing start with
  | nil => simp [Chained,root]
  | cons first rest ih => simp only [List.cons_append,Chained,root,ih,and_assoc]

/-- Two chains with the same root are equal if the hash tells their lines apart
    and gives none of them the value of the start. -/
theorem chained_unique {start : Hash} : ∀ {left right : List Line},
    (∀ a ∈ left ++ right,∀ b ∈ left ++ right,hash a = hash b → a = b) → (∀ a ∈ left ++ right,hash a ≠ start) →
      Chained hash prev start left → Chained hash prev start right → root hash start left = root hash start right →
        left = right := by
  intro left
  induction left using List.reverseRecOn with
  | nil =>
    intro right _ fresh _ _ same
    rcases List.eq_nil_or_concat right with rfl | ⟨init,line,rfl⟩
    · rfl
    · rw [List.concat_eq_append] at *
      rw [root_concat] at same
      exact absurd same.symm (fresh line (by simp))
  | append_singleton left line ih =>
    intro right injective fresh leftChained rightChained same
    rcases List.eq_nil_or_concat right with rfl | ⟨init,other,rfl⟩
    · rw [root_concat] at same
      exact absurd same (fresh line (by simp))
    · rw [List.concat_eq_append] at *
      rw [root_concat,root_concat] at same
      obtain rfl := injective line (by simp) other (by simp) same
      obtain ⟨leftChained,leftPrev⟩ := (chained_concat hash prev).mp leftChained
      obtain ⟨rightChained,rightPrev⟩ := (chained_concat hash prev).mp rightChained
      have roots : root hash start left = root hash start init := Option.some.inj (leftPrev.symm.trans rightPrev)
      have lines : ∀ {a},a ∈ left ++ init → a ∈ left ++ [line] ++ (init ++ [line]) := by
        intro a member
        rcases List.mem_append.mp member with member | member <;> simp [member]
      have before := ih (fun a first b second => injective a (lines first) b (lines second))
        (fun a member => fresh a (lines member)) leftChained rightChained roots
      rw [before]

end

end AegisNode.HashChain
