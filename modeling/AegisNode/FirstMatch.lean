import Mathlib.Data.List.Basic

/-!
First-match lookup: what the first element with an answer is, when the order of
the list does not matter, and how the match moves as elements lose their answers.
-/
namespace AegisNode.FirstMatch
variable {α β : Type*}

/-- All elements with an answer give the same one. -/
def Agree (f : α → Option β) (l : List α) : Prop := ∀ a ∈ l,∀ b ∈ l,∀ x y,f a = some x → f b = some y → x = y

theorem Agree.of_perm {f : α → Option β} {l l' : List α} (perm : l.Perm l') (agree : Agree f l) : Agree f l' := by
  intro a listed b other
  exact agree a (perm.mem_iff.mpr listed) b (perm.mem_iff.mpr other)

/-- Where all answers agree, any of them is the first. -/
theorem Agree.findSome? {f : α → Option β} {l : List α} (agree : Agree f l) {a : α} (listed : a ∈ l) {x : β}
    (answers : f a = some x) : l.findSome? f = some x := by
  cases found : l.findSome? f with
  | none =>
    rw [List.findSome?_eq_none_iff] at found
    rw [found a listed] at answers
    cases answers
  | some y =>
    obtain ⟨b,other,answersToo⟩ := List.exists_of_findSome?_eq_some found
    rw [agree a listed b other x y answers answersToo]

theorem Agree.perm {f : α → Option β} {l l' : List α} (agree : Agree f l) (perm : l.Perm l') :
    l'.findSome? f = l.findSome? f := by
  cases found : l.findSome? f with
  | none =>
    rw [List.findSome?_eq_none_iff] at found ⊢
    intro a listed
    exact found a (perm.mem_iff.mpr listed)
  | some x =>
    obtain ⟨a,listed,answers⟩ := List.exists_of_findSome?_eq_some found
    exact (agree.of_perm perm).findSome? (perm.mem_iff.mp listed) answers

/-- The order of a list does not matter exactly when its answers agree. -/
theorem agree_iff_perm {f : α → Option β} {l : List α} :
    Agree f l ↔ ∀ l',l.Perm l' → l'.findSome? f = l.findSome? f := by
  constructor
  · intro agree l' perm
    exact agree.perm perm
  · intro same
    have first : ∀ a ∈ l,∀ x,f a = some x → l.findSome? f = some x := by
      intro a listed x answers
      obtain ⟨before,after,rfl⟩ := List.append_of_mem listed
      rw [← same _ List.perm_middle,List.findSome?_cons,answers]
    intro a listed b other x y one two
    have found := first a listed x one
    rw [first b other y two] at found
    exact (Option.some.inj found).symm

/-- Both orders have a first match or none, so a default does not blur the comparison. -/
theorem findSome?_getD {f : α → Option β} {l l' : List α} (perm : l.Perm l') {d : β}
    (same : (l'.findSome? f).getD d = (l.findSome? f).getD d) : l'.findSome? f = l.findSome? f := by
  cases found : l.findSome? f with
  | none =>
    rw [List.findSome?_eq_none_iff] at found ⊢
    intro a listed
    exact found a (perm.mem_iff.mpr listed)
  | some x =>
    cases other : l'.findSome? f with
    | none =>
      rw [List.findSome?_eq_none_iff] at other
      obtain ⟨a,listed,answers⟩ := List.exists_of_findSome?_eq_some found
      rw [other a (perm.mem_iff.mp listed)] at answers
      cases answers
    | some y =>
      rw [found,other] at same
      exact congrArg some same

/-- Lists whose elements answer alike, one by one, have the same first match. -/
theorem findSome?_forall₂ {f : α → Option β} {l l' : List α} (alike : List.Forall₂ (fun a b => f b = f a) l l') :
    l'.findSome? f = l.findSome? f := by
  induction alike with
  | nil => rfl
  | cons same _ ih => rw [List.findSome?_cons,List.findSome?_cons,same,ih]

/-- A search by a test, followed by a reading of what it found. -/
theorem find?_map (p : α → Bool) (g : α → β) (l : List α) :
    (l.find? p).map g = l.findSome? fun a => if p a then some (g a) else none := by
  induction l with
  | nil => rfl
  | cons a rest ih =>
    by_cases passes : p a = true
    · simp [passes]
    · simp [passes,ih]

theorem findSome?_filter (p : α → Bool) (f : α → Option β) (l : List α) :
    (l.filter p).findSome? f = l.findSome? fun a => if p a then f a else none := by
  induction l with
  | nil => rfl
  | cons a rest ih =>
    by_cases passes : p a = true
    · rw [List.filter_cons_of_pos passes,List.findSome?_cons,List.findSome?_cons,if_pos passes,ih]
    · rw [List.filter_cons_of_neg passes,List.findSome?_cons,if_neg passes,ih]

/-- When elements may only lose their answer, the first match stays where it was or
    moves to an element behind it. -/
theorem first_moves_back {early late : α → Option β} (fades : ∀ a,early a = none → late a = none) {l : List α} {x y : β}
    (was : l.findSome? early = some x) (becomes : l.findSome? late = some y) :
    ∃ before a rest,l = before ++ a :: rest ∧ early a = some x ∧ (∀ b ∈ before,early b = none) ∧
      (late a = some y ∨ late a = none ∧ ∃ between b after,rest = between ++ b :: after ∧ late b = some y ∧
        ∀ c ∈ between,late c = none) := by
  obtain ⟨before,a,rest,rfl,answers,silent⟩ := List.findSome?_eq_some_iff.mp was
  refine ⟨before,a,rest,rfl,answers,silent,?_⟩
  have gone : before.findSome? late = none := by
    rw [List.findSome?_eq_none_iff]
    intro b listed
    exact fades b (silent b listed)
  rw [List.findSome?_append,gone,Option.none_or,List.findSome?_cons] at becomes
  cases answersLate : late a with
  | some z =>
    rw [answersLate] at becomes
    exact .inl becomes
  | none =>
    rw [answersLate] at becomes
    obtain ⟨between,b,after,rfl,speaks,quiet⟩ := List.findSome?_eq_some_iff.mp becomes
    exact .inr ⟨rfl,between,b,after,rfl,speaks,quiet⟩

/-! ### Comparison with the first of a key -/

section
variable {κ : Type*} [DecidableEq κ] (key : α → κ) (below : α → α → Prop)

/-- Each element is below the first one of its key in the other list. -/
def FirstCovers (lower upper : List α) : Prop :=
  ∀ c ∈ lower,∃ p,upper.find? (fun a => key a = key c) = some p ∧ below c p

/-- No element exceeds the first one of its key. -/
def FirstLeads (l : List α) : Prop :=
  ∀ before first after,l = before ++ first :: after → (∀ a ∈ before,key a ≠ key first) →
    ∀ later ∈ after,key later = key first → below later first

variable {key below}

theorem FirstCovers.trans (transitive : ∀ a b c,below a b → below b c → below a c) {lower middle upper : List α}
    (first : FirstCovers key below lower middle) (second : FirstCovers key below middle upper) :
    FirstCovers key below lower upper := by
  intro c listed
  obtain ⟨m,found,under⟩ := first c listed
  have named : key m = key c := by simpa using List.find?_some found
  obtain ⟨p,above,higher⟩ := second m (List.mem_of_find?_eq_some found)
  rw [named] at above
  exact ⟨p,above,transitive c m p under higher⟩

/-- A list covers itself just when the first of each key leads. -/
theorem firstCovers_self_iff (reflexive : ∀ a,below a a) {l : List α} : FirstCovers key below l l ↔ FirstLeads key below l := by
  constructor
  · rintro covers before first after rfl fresh later listed same
    obtain ⟨p,found,under⟩ := covers later (by simp [listed])
    have head : (before ++ first :: after).find? (fun a => key a = key later) = some first := by
      rw [List.find?_eq_some_iff_append]
      refine ⟨by simp [same],before,after,rfl,?_⟩
      intro a among
      simpa [same] using fresh a among
    cases head.symm.trans found
    exact under
  · intro leads c listed
    have some_ : (l.find? (fun a => key a = key c)).isSome := List.find?_isSome.mpr ⟨c,listed,by simp⟩
    obtain ⟨p,found⟩ := Option.isSome_iff_exists.mp some_
    refine ⟨p,found,?_⟩
    obtain ⟨named,before,after,rfl,fresh⟩ := List.find?_eq_some_iff_append.mp found
    have same : key p = key c := by simpa using named
    rcases List.mem_append.mp listed with early | late
    · exact absurd (fresh c early) (by simp)
    · rcases List.mem_cons.mp late with rfl | later
      · exact reflexive c
      · refine leads before p after rfl ?_ c later same.symm
        intro a among
        rw [same]
        simpa using fresh a among

end

end AegisNode.FirstMatch
