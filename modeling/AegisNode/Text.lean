import Mathlib.Tactic

/-!
Texts as lists of characters: cutting a text at a separator, and reading the
decimal numbers that both standard libraries read the same way.
-/
namespace AegisNode.Text

section
variable {α : Type} [DecidableEq α]

/-- What stands before and after the first occurrence of `sep`. -/
def splitOnce (sep : List α) : List α → Option (List α × List α)
  | [] => if sep = [] then some ([],[]) else none
  | c :: rest =>
    if sep.isPrefixOf (c :: rest) then some ([],(c :: rest).drop sep.length)
    else (splitOnce sep rest).map (fun halves => (c :: halves.1,halves.2))

/-- A separator that starts inside `left`, or straddles its end, is found before
    the one that follows `left`; without one the text is cut after `left`. -/
theorem splitOnce_append {sep : List α} (nonempty : sep ≠ []) (right : List α) :
    ∀ {left : List α}, ¬ sep <:+: left ++ sep.dropLast → splitOnce sep (left ++ sep ++ right) = some (left,right)
  | [],_ => by
    obtain ⟨c,rest,rfl⟩ := List.exists_cons_of_ne_nil nonempty
    have found : (c :: rest).isPrefixOf (c :: (rest ++ right)) = true :=
      List.isPrefixOf_iff_prefix.mpr ⟨right,by simp⟩
    simp [splitOnce,found]
  | c :: left,absent => by
    have later : ¬ sep <:+: left ++ sep.dropLast :=
      fun inside => absent (inside.trans (List.suffix_cons c _).isInfix)
    have notHere : ¬ sep <+: c :: (left ++ sep ++ right) := by
      intro here
      have split : c :: (left ++ sep ++ right) =
          (c :: left ++ sep.dropLast) ++ ([sep.getLast nonempty] ++ right) := by
        conv_lhs => rw [← List.dropLast_append_getLast nonempty]
        simp
      rw [split] at here
      have short : sep.length ≤ (c :: left ++ sep.dropLast).length := by
        have := List.length_pos_iff.mpr nonempty
        simp; omega
      exact absent (List.prefix_of_prefix_length_le here (List.prefix_append _ _) short).isInfix
    have miss : sep.isPrefixOf (c :: (left ++ sep ++ right)) = false := by
      simpa [← List.isPrefixOf_iff_prefix] using notHere
    have tail := splitOnce_append nonempty right later
    simp only [List.cons_append,splitOnce,miss,tail]
    rfl

/-- Where `splitOnce` cuts, no separator starts earlier. -/
theorem splitOnce_some {sep : List α} (nonempty : sep ≠ []) :
    ∀ {text left right : List α}, splitOnce sep text = some (left,right) →
      text = left ++ sep ++ right ∧ ¬ sep <:+: left ++ sep.dropLast
  | [],_,_,cut => by simp [splitOnce,nonempty] at cut
  | c :: rest,left,right,cut => by
    rw [splitOnce] at cut
    split at cut
    · rename_i here
      obtain ⟨tail,whole⟩ := List.isPrefixOf_iff_prefix.mp here
      simp only [Option.some.injEq,Prod.mk.injEq] at cut
      obtain ⟨rfl,rfl⟩ := cut
      refine ⟨by simp [← whole],?_⟩
      intro inside
      have := inside.length_le
      have := List.length_pos_iff.mpr nonempty
      simp at *; omega
    · rename_i notHere
      cases tail : splitOnce sep rest with
      | none => simp [tail] at cut
      | some halves =>
        obtain ⟨before,after⟩ := halves
        simp only [tail,Option.map_some,Option.some.injEq,Prod.mk.injEq] at cut
        obtain ⟨rfl,rfl⟩ := cut
        obtain ⟨whole,absent⟩ := splitOnce_some nonempty tail
        refine ⟨by simp [whole],?_⟩
        intro inside
        rw [List.cons_append,List.infix_cons_iff] at inside
        rcases inside with front | later
        · apply notHere
          refine List.isPrefixOf_iff_prefix.mpr (front.trans ?_)
          have short : before ++ sep.dropLast <+: rest := by
            rw [whole]
            refine ⟨[sep.getLast nonempty] ++ after,?_⟩
            conv_rhs => rw [← List.dropLast_append_getLast nonempty]
            simp
          exact (List.prefix_cons_inj c).mpr short
        · exact absent later

theorem splitOnce_append_iff {sep : List α} (nonempty : sep ≠ []) (left right : List α) :
    splitOnce sep (left ++ sep ++ right) = some (left,right) ↔ ¬ sep <:+: left ++ sep.dropLast :=
  ⟨fun cut => (splitOnce_some nonempty cut).2,splitOnce_append nonempty right⟩

theorem splitOnce_single {c : α} {text left right : List α} :
    splitOnce [c] text = some (left,right) ↔ text = left ++ c :: right ∧ c ∉ left := by
  have inside : ¬ [c] <:+: left ++ [c].dropLast ↔ c ∉ left := by
    rw [show [c].dropLast = [] from rfl,List.append_nil,List.singleton_infix_iff]
  constructor
  · intro cut
    obtain ⟨whole,absent⟩ := splitOnce_some (by simp) cut
    exact ⟨by simpa using whole,inside.mp absent⟩
  · rintro ⟨rfl,absent⟩
    have cut := splitOnce_append (by simp) right (inside.mpr absent)
    rwa [List.append_assoc,List.singleton_append] at cut

theorem splitOnce_isSome {sep text : List α} (nonempty : sep ≠ []) : (splitOnce sep text).isSome = true ↔ sep <:+: text := by
  constructor
  · intro cut
    obtain ⟨⟨front,back⟩,found⟩ := Option.isSome_iff_exists.mp cut
    exact ⟨front,back,(splitOnce_some nonempty found).1.symm⟩
  · intro inside
    induction text with
    | nil => exact absurd (List.infix_nil.mp inside) nonempty
    | cons c rest ih =>
      rw [splitOnce]
      split_ifs with here
      · rfl
      · rcases List.infix_cons_iff.mp inside with front | later
        · exact absurd (List.isPrefixOf_iff_prefix.mpr front) here
        · rw [Option.isSome_map]
          exact ih later

/-- A text without the separator is not cut. -/
theorem splitOnce_none {sep : List α} (nonempty : sep ≠ []) {text : List α} (absent : ¬ sep <:+: text) :
    splitOnce sep text = none := by
  cases cut : splitOnce sep text with
  | none => rfl
  | some halves => exact absurd ((splitOnce_isSome nonempty).mp (by rw [cut]; rfl)) absent

end

/-- `str::strip_prefix`. -/
def stripPrefix (start text : List Char) : Option (List Char) :=
  if start.isPrefixOf text then some (text.drop start.length) else none

theorem stripPrefix_some {start text rest : List Char} : stripPrefix start text = some rest ↔ text = start ++ rest := by
  rw [stripPrefix]
  constructor
  · intro stripped
    split_ifs at stripped with front
    obtain ⟨tail,rfl⟩ := List.isPrefixOf_iff_prefix.mp front
    rw [List.drop_left] at stripped
    cases stripped
    rfl
  · rintro rfl
    rw [if_pos (List.isPrefixOf_iff_prefix.mpr (List.prefix_append _ _)),List.drop_left]

/-- `str::strip_suffix`. -/
def stripSuffix (tail text : List Char) : Option (List Char) :=
  (stripPrefix tail.reverse text.reverse).map List.reverse

/-- `str::rsplit_once`: what stands before and after the last occurrence. -/
def rsplitOnce (c : Char) (text : List Char) : Option (List Char × List Char) :=
  (splitOnce [c] text.reverse).map fun (after,before) => (before.reverse,after.reverse)

theorem rsplitOnce_some {c : Char} {text before after : List Char} :
    rsplitOnce c text = some (before,after) ↔ text = before ++ c :: after ∧ c ∉ after := by
  have cut : rsplitOnce c text = some (before,after) ↔ splitOnce [c] text.reverse = some (after.reverse,before.reverse) := by
    rw [rsplitOnce,Option.map_eq_some_iff]
    constructor
    · rintro ⟨⟨back,front⟩,found,same⟩
      cases same
      rw [found,List.reverse_reverse,List.reverse_reverse]
    · intro found
      exact ⟨_,found,by simp⟩
  rw [cut,splitOnce_single,List.mem_reverse]
  constructor
  · rintro ⟨whole,absent⟩
    refine ⟨?_,absent⟩
    rw [← List.reverse_reverse text,whole]
    simp
  · rintro ⟨rfl,absent⟩
    exact ⟨by simp,absent⟩

theorem rsplitOnce_none {c : Char} {text : List Char} : rsplitOnce c text = none ↔ c ∉ text := by
  constructor
  · intro uncut member
    obtain ⟨front,back,whole,absent⟩ := List.eq_append_cons_of_mem (List.mem_reverse.mpr member)
    have cut : rsplitOnce c text = some (back.reverse,front.reverse) := by
      refine rsplitOnce_some.mpr ⟨?_,by simpa using absent⟩
      rw [← List.reverse_reverse text,whole]
      simp
    rw [uncut] at cut
    cases cut
  · intro absent
    cases cut : rsplitOnce c text with
    | none => rfl
    | some halves =>
      obtain ⟨rfl,-⟩ := rsplitOnce_some.mp cut
      exact absurd (by simp) absent

/-! ### White space and replacement -/

/-- Unicode's `White_Space`. -/
def isWhiteSpace (c : Char) : Bool :=
  (9 ≤ c.toNat && c.toNat ≤ 13) || c.toNat = 32 || c.toNat = 133 || c.toNat = 160 || c.toNat = 0x1680 ||
    (0x2000 ≤ c.toNat && c.toNat ≤ 0x200a) || c.toNat = 0x2028 || c.toNat = 0x2029 || c.toNat = 0x202f ||
    c.toNat = 0x205f || c.toNat = 0x3000

/-- Replaces the occurrences of `sep` from left to right; the first characters, already
    replaced, are passed over. -/
def replaceAfter (sep replacement : List Char) : Nat → List Char → List Char
  | _,[] => []
  | skipped+1,_ :: rest => replaceAfter sep replacement skipped rest
  | 0,c :: rest =>
    if sep.isPrefixOf (c :: rest) then replacement ++ replaceAfter sep replacement (sep.length-1) rest
    else c :: replaceAfter sep replacement 0 rest

/-- `str::replace`. -/
def replaceText (sep replacement text : String) : String :=
  String.ofList (replaceAfter sep.toList replacement.toList 0 text.toList)

/-! ### Decimal numbers -/

/-- The value of an ASCII digit. -/
def digit? (c : Char) : Option Nat :=
  if '0' ≤ c ∧ c ≤ '9' then some (c.toNat - '0'.toNat) else none

/-- The digits of a number after those already read into `value`. -/
def digitsFrom (value : Nat) : List Char → Option Nat
  | [] => some value
  | c :: rest => (digit? c).bind (fun d => digitsFrom (10*value+d) rest)

/-- A number of at least one digit and nothing else. -/
def decimal? (text : List Char) : Option Nat :=
  if text = [] then none else digitsFrom 0 text

theorem digitsFrom_digits {digits : List Char} {value n : Nat} (read : digitsFrom value digits = some n) :
    ∀ c ∈ digits,digit? c ≠ none := by
  induction digits generalizing value with
  | nil => exact fun c listed => absurd listed List.not_mem_nil
  | cons first rest ih =>
    rw [digitsFrom] at read
    obtain ⟨d,digit,read⟩ := Option.bind_eq_some_iff.mp read
    intro c listed
    rcases List.mem_cons.mp listed with rfl | listed
    · simp [digit]
    · exact ih read c listed

theorem decimal?_digits {digits : List Char} {n : Nat} (number : decimal? digits = some n) :
    digits ≠ [] ∧ ∀ c ∈ digits,digit? c ≠ none := by
  unfold decimal? at number
  split_ifs at number with empty
  exact ⟨empty,digitsFrom_digits number⟩

theorem digit_other {c : Char} (digit : digit? c ≠ none) (other : Char) (nondigit : digit? other = none) : c ≠ other := by
  rintro rfl
  exact digit nondigit

/-- `str::parse::<i64>` and `strconv.Atoi` on a 64-bit platform: an optional
    sign, at least one digit, and a value in range. -/
def parseI64 (text : List Char) : Option Int :=
  match text with
  | '+' :: digits => (decimal? digits).bind (fun n => if n < 2^63 then some (n : Int) else none)
  | '-' :: digits => (decimal? digits).bind (fun n => if n ≤ 2^63 then some (-(n : Int)) else none)
  | digits => (decimal? digits).bind (fun n => if n < 2^63 then some (n : Int) else none)

/-! ### Quoted texts -/

/-- Lower-case digits of a number in base 16. -/
def hexDigits (n : Nat) : List Char := Nat.toDigits 16 n

/-- `char::escape_debug` inside a string; beyond ASCII every character counts as
    printable. -/
def rustEscape (c : Char) : List Char :=
  if c = '\x00' then ['\\','0']
  else if c = '\t' then ['\\','t']
  else if c = '\n' then ['\\','n']
  else if c = '\r' then ['\\','r']
  else if c = '"' ∨ c = '\\' then ['\\',c]
  else if c.toNat < 32 ∨ c.toNat = 127 then ['\\','u','\x7b'] ++ hexDigits c.toNat ++ ['\x7d']
  else [c]

/-- The `:?` rendering of a `str`. -/
def rustDebug (s : String) : String := String.ofList (['"'] ++ s.toList.flatMap rustEscape ++ ['"'])

/-- `strconv.Quote`, with the same reading of printable. -/
def goEscape (c : Char) : List Char :=
  if c.toNat = 7 then ['\\','a']
  else if c.toNat = 8 then ['\\','b']
  else if c.toNat = 12 then ['\\','f']
  else if c = '\n' then ['\\','n']
  else if c = '\r' then ['\\','r']
  else if c = '\t' then ['\\','t']
  else if c.toNat = 11 then ['\\','v']
  else if c = '"' ∨ c = '\\' then ['\\',c]
  else if c.toNat < 16 then ['\\','x','0'] ++ hexDigits c.toNat
  else if c.toNat < 32 ∨ c.toNat = 127 then ['\\','x'] ++ hexDigits c.toNat
  else [c]

/-- The `%q` rendering of a string. -/
def goQuote (s : String) : String := String.ofList (['"'] ++ s.toList.flatMap goEscape ++ ['"'])

end AegisNode.Text
