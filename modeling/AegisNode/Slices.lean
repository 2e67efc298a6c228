import AegisNode.Text

/-!
Texts by byte offsets: how many bytes characters take in UTF-8, slices that panic where an
offset is not between two characters, and the search for a text, which answers with an
offset.
-/
namespace AegisNode.Slices
open Text

/-- A slice whose bounds are not in order, or not between two characters of the text. -/
inductive SliceError where
  | OffBoundary
  deriving DecidableEq,Repr

/-- The result of code that may panic on a slice. -/
abbrev Sliced := Except SliceError

def byteLen (text : List Char) : Nat := (text.map Char.utf8Size).sum

@[simp] theorem byteLen_nil : byteLen [] = 0 := rfl

@[simp] theorem byteLen_cons (c : Char) (rest : List Char) : byteLen (c :: rest) = c.utf8Size+byteLen rest := by
  simp [byteLen]

@[simp] theorem byteLen_append (front back : List Char) : byteLen (front ++ back) = byteLen front+byteLen back := by
  simp [byteLen]

theorem byteLen_zero {text : List Char} (empty : byteLen text = 0) : text = [] := by
  cases text with
  | nil => rfl
  | cons c rest =>
    have := c.utf8Size_pos
    rw [byteLen_cons] at empty
    omega

/-- `&text[n..]` -/
def dropBytes : List Char → Nat → Sliced (List Char)
  | text,0 => .ok text
  | [],_+1 => .error .OffBoundary
  | c :: rest,n+1 => if c.utf8Size ≤ n+1 then dropBytes rest (n+1-c.utf8Size) else .error .OffBoundary

/-- `&text[..n]` -/
def takeBytes : List Char → Nat → Sliced (List Char)
  | _,0 => .ok []
  | [],_+1 => .error .OffBoundary
  | c :: rest,n+1 =>
    if c.utf8Size ≤ n+1 then (takeBytes rest (n+1-c.utf8Size)).map (fun front => c :: front) else .error .OffBoundary

/-- `&text[i..j]` -/
def slice (text : List Char) (i j : Nat) : Sliced (List Char) :=
  if i ≤ j then (dropBytes text i).bind (fun rest => takeBytes rest (j-i)) else .error .OffBoundary

/-- `str::find`: the offset of the first occurrence. -/
def find (pattern text : List Char) : Option Nat := (splitOnce pattern text).map (fun halves => byteLen halves.1)

/-! ### Offsets between two characters -/

theorem dropBytes_append (front back : List Char) : dropBytes (front ++ back) (byteLen front) = .ok back := by
  induction front with
  | nil => cases back <;> rfl
  | cons c front ih =>
    have := c.utf8Size_pos
    obtain ⟨n,size⟩ : ∃ n,byteLen (c :: front) = n+1 := ⟨byteLen (c :: front)-1,by rw [byteLen_cons]; omega⟩
    have left : n+1-c.utf8Size = byteLen front := by rw [← size,byteLen_cons]; omega
    rw [size,List.cons_append,dropBytes,if_pos (by rw [← size,byteLen_cons]; omega),left,ih]

theorem takeBytes_append (front back : List Char) : takeBytes (front ++ back) (byteLen front) = .ok front := by
  induction front with
  | nil => cases back <;> rfl
  | cons c front ih =>
    have := c.utf8Size_pos
    obtain ⟨n,size⟩ : ∃ n,byteLen (c :: front) = n+1 := ⟨byteLen (c :: front)-1,by rw [byteLen_cons]; omega⟩
    have left : n+1-c.utf8Size = byteLen front := by rw [← size,byteLen_cons]; omega
    rw [size,List.cons_append,takeBytes,if_pos (by rw [← size,byteLen_cons]; omega),left,ih]
    rfl

/-- A slice from an offset is what stands after that many bytes. -/
theorem dropBytes_ok {text back : List Char} {n : Nat} (sliced : dropBytes text n = .ok back) :
    ∃ front,text = front ++ back ∧ byteLen front = n := by
  induction text generalizing n with
  | nil =>
    cases n with
    | zero =>
      cases sliced
      exact ⟨[],rfl,rfl⟩
    | succ n => cases sliced
  | cons c rest ih =>
    cases n with
    | zero =>
      cases sliced
      exact ⟨[],rfl,rfl⟩
    | succ n =>
      rw [dropBytes] at sliced
      split at sliced
      · rename_i fits
        obtain ⟨front,whole,size⟩ := ih sliced
        refine ⟨c :: front,by rw [whole,List.cons_append],?_⟩
        rw [byteLen_cons]
        omega
      · cases sliced

/-- The slice between two offsets that cut a text in three. -/
theorem slice_append (front middle back : List Char) {i j : Nat} (start : i = byteLen front) (stop : j = i+byteLen middle) :
    slice (front ++ middle ++ back) i j = .ok middle := by
  subst start stop
  have size : byteLen front+byteLen middle-byteLen front = byteLen middle := by omega
  rw [slice,if_pos (Nat.le_add_right _ _),List.append_assoc,dropBytes_append]
  show takeBytes (middle ++ back) _ = _
  rw [size,takeBytes_append]

/-! ### The first occurrence -/

theorem find_some {pattern text : List Char} {n : Nat} (nonempty : pattern ≠ []) (found : find pattern text = some n) :
    ∃ front back,splitOnce pattern text = some (front,back) ∧ text = front ++ pattern ++ back ∧ byteLen front = n := by
  obtain ⟨⟨front,back⟩,cut,size⟩ := Option.map_eq_some_iff.mp found
  exact ⟨front,back,cut,(splitOnce_some nonempty cut).1,size⟩

theorem find_none {pattern text : List Char} (nonempty : pattern ≠ []) :
    find pattern text = none ↔ ¬ pattern <:+: text := by
  rw [find,Option.map_eq_none_iff,← splitOnce_isSome nonempty,Bool.not_eq_true,Option.isSome_eq_false_iff,Option.isNone_iff_eq_none]

end AegisNode.Slices
