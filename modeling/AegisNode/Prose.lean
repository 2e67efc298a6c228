import AegisNode.LlamaChat
import AegisNode.JsonText
import Mathlib.Data.List.TakeWhile

/-!
Prose around the object of a tool call: what the scan for the object makes of it.
-/
namespace AegisNode.Prose
open Text Json Backend Slices LlamaChat

/-- A text in one pair of braces, as every JSON object is. -/
def Braced (object : List Char) : Prop := ∃ inner,object = '\x7b' :: inner ++ ['\x7d'] ∧ inner.head? ≠ some '\x7b'

/-- A text without braces and without a quoted `"name"`. -/
structure Plain (text : List Char) : Prop where
  unopened : '\x7b' ∉ text
  unclosed : '\x7d' ∉ text
  unnamed : ¬ nameKey <:+: text

/-- A text of white space only. -/
def Blank (text : List Char) : Prop := ∀ c ∈ text,isWhiteSpace c = true

section
variable [BodyReader]

/-- The object is read in the prose as it is read alone: there is only white space around
    it; or the whole is not read strictly, and neither is the object, or the scan finds a
    text that reads as the object does; or the whole is read strictly, as the object is. -/
def Tolerated (before object after : List Char) : Prop :=
  (Blank before ∧ Blank after) ∨
    match BodyReader.fromStr (trim (before ++ object ++ after)),BodyReader.fromStr object with
    | none,none => True
    | none,some read => (located object).bind BodyReader.fromStr = some read
    | some whole,some read => whole = read
    | some whole,none => (located object).bind BodyReader.fromStr = some whole

end

/-! ### Texts around an object -/

/-- A word without the character lies on one side of it. -/
theorem infix_beside {word front back : List Char} {c : Char} (absent : c ∉ word) :
    word <:+: front ++ c :: back ↔ word <:+: front ∨ word <:+: back := by
  constructor
  · intro inside
    rcases List.infix_append_iff.mp inside with left | right | ⟨start,rest,rfl,ends,begins⟩
    · exact .inl left
    · rcases List.infix_cons_iff.mp right with here | later
      · cases word with
        | nil => exact .inl List.nil_infix
        | cons d word =>
          obtain ⟨rfl,-⟩ := List.cons_prefix_cons.mp here
          exact absurd List.mem_cons_self absent
      · exact .inr later
    · cases rest with
      | nil => exact .inl (by simpa using ends.isInfix)
      | cons d rest =>
        obtain ⟨rfl,-⟩ := List.cons_prefix_cons.mp begins
        exact absurd (List.mem_append_right start List.mem_cons_self) absent
  · rintro (left | right)
    · exact List.infix_append_of_infix_left left
    · exact List.infix_append_of_infix_right (right.trans (List.suffix_cons c back).isInfix)

theorem dropWhile_before {text rest : List Char} (here : ∀ c,rest.head? = some c → isWhiteSpace c = false) :
    (text ++ rest).dropWhile isWhiteSpace = text.dropWhile isWhiteSpace ++ rest := by
  induction text with
  | nil =>
    cases rest with
    | nil => rfl
    | cons c rest => simp [here c rfl]
  | cons c text ih =>
    by_cases white : isWhiteSpace c = true
    · simp [white,ih]
    · simp [white]

/-- The white space before the text is dropped. -/
def trimStart (text : List Char) : List Char := text.dropWhile isWhiteSpace

/-- The white space after the text is dropped. -/
def trimEnd (text : List Char) : List Char := (text.reverse.dropWhile isWhiteSpace).reverse

theorem trim_around {inner : List Char} (before after : List Char) :
    trim (before ++ ('\x7b' :: inner ++ ['\x7d']) ++ after) = trimStart before ++ ('\x7b' :: inner ++ ['\x7d']) ++ trimEnd after := by
  have start : (before ++ ('\x7b' :: inner ++ ['\x7d']) ++ after).dropWhile isWhiteSpace =
      trimStart before ++ ('\x7b' :: inner ++ ['\x7d'] ++ after) := by
    rw [List.append_assoc]
    refine dropWhile_before fun c first => ?_
    cases first
    decide
  have stop : (after.reverse ++ ('\x7d' :: inner.reverse ++ '\x7b' :: (trimStart before).reverse)).dropWhile isWhiteSpace =
      after.reverse.dropWhile isWhiteSpace ++ ('\x7d' :: inner.reverse ++ '\x7b' :: (trimStart before).reverse) := by
    refine dropWhile_before fun c first => ?_
    cases first
    decide
  rw [trim,start]
  rw [show (trimStart before ++ ('\x7b' :: inner ++ ['\x7d'] ++ after)).reverse =
    after.reverse ++ ('\x7d' :: inner.reverse ++ '\x7b' :: (trimStart before).reverse) by simp,stop]
  simp [trimEnd]

theorem trimStart_nil {text : List Char} : trimStart text = [] ↔ Blank text := List.dropWhile_eq_nil_iff

theorem trimEnd_nil {text : List Char} : trimEnd text = [] ↔ Blank text := by
  rw [trimEnd,List.reverse_eq_nil_iff,List.dropWhile_eq_nil_iff]
  simp [Blank]

theorem trimStart_ends (text : List Char) : trimStart text <:+ text := List.dropWhile_suffix _

theorem trimEnd_begins (text : List Char) : trimEnd text <+: text := by
  have suffix := List.dropWhile_suffix isWhiteSpace (l := text.reverse)
  rw [← List.reverse_prefix,List.reverse_reverse] at suffix
  exact suffix

theorem Plain.part {text part : List Char} (plain : Plain text) (inside : part <:+: text) : Plain part :=
  ⟨fun member => plain.unopened (inside.subset member),fun member => plain.unclosed (inside.subset member),
    fun named => plain.unnamed (named.trans inside)⟩

/-! ### The scan -/

theorem objectText_append {depth : Int32} {after : List Char} (unclosed : '\x7d' ∉ after) (text : List Char) :
    objectText depth (text ++ after) = objectText depth text := by
  induction text generalizing depth with
  | nil =>
    induction after generalizing depth with
    | nil => rfl
    | cons c after ih =>
      have rest := fun depth : Int32 => @ih (fun member => unclosed (List.mem_cons_of_mem c member)) depth
      have other : c ≠ '\x7d' := fun same => unclosed (by rw [same]; exact List.mem_cons_self)
      simp only [List.nil_append,objectText] at rest ⊢
      rw [if_neg other,rest,rest]
      simp
  | cons c text ih => simp only [List.cons_append,objectText,ih]

/-- What stands before the quoted key in an object begins with its brace. -/
theorem front_opens {inner front back : List Char} (whole : '\x7b' :: inner ++ ['\x7d'] = front ++ nameKey ++ back) :
    ∃ rest,front = '\x7b' :: rest := by
  cases front with
  | nil =>
    have key : nameKey = '"' :: "name\"".toList := by decide
    rw [List.nil_append,key] at whole
    exact absurd (List.cons_eq_cons.mp whole).1 (by decide)
  | cons c rest => exact ⟨rest,by rw [(List.cons_eq_cons.mp whole).1]⟩

/-- The quoted key is found in the object, or nowhere. -/
theorem splitOnce_around {before inner after : List Char} (plain : Plain before) (plain' : Plain after) :
    splitOnce nameKey (before ++ ('\x7b' :: inner ++ ['\x7d']) ++ after) =
      (splitOnce nameKey ('\x7b' :: inner ++ ['\x7d'])).map (fun cut => (before ++ cut.1,cut.2 ++ after)) := by
  have nonempty : nameKey ≠ [] := by decide
  have noOpen : '\x7b' ∉ nameKey := by decide
  have noClose : '\x7d' ∉ nameKey := by decide
  cases cut : splitOnce nameKey ('\x7b' :: inner ++ ['\x7d']) with
  | none =>
    refine splitOnce_none nonempty fun inside => ?_
    have absent : ¬ nameKey <:+: '\x7b' :: inner ++ ['\x7d'] := by
      rw [← splitOnce_isSome nonempty,cut]
      decide
    rw [show before ++ ('\x7b' :: inner ++ ['\x7d']) ++ after = before ++ '\x7b' :: (inner ++ '\x7d' :: after) by simp,
      infix_beside noOpen,infix_beside noClose] at inside
    rcases inside with left | middle | right
    · exact plain.unnamed left
    · exact absent (middle.trans ⟨['\x7b'],['\x7d'],by simp⟩)
    · exact plain'.unnamed right
  | some halves =>
    obtain ⟨front,back⟩ := halves
    obtain ⟨whole,first⟩ := splitOnce_some nonempty cut
    obtain ⟨rest,rfl⟩ := front_opens whole
    rw [whole,Option.map_some,show before ++ ('\x7b' :: rest ++ nameKey ++ back) ++ after =
      before ++ '\x7b' :: rest ++ nameKey ++ (back ++ after) by simp]
    refine splitOnce_append nonempty _ fun inside => ?_
    rw [List.append_assoc,List.cons_append,infix_beside noOpen] at inside
    rcases inside with left | right
    · exact plain.unnamed left
    · exact first (right.trans (List.suffix_cons '\x7b' _).isInfix)

/-- The scan finds the same text as in the object alone. -/
theorem located_around {before inner after : List Char} (plain : Plain before) (plain' : Plain after) :
    located (before ++ ('\x7b' :: inner ++ ['\x7d']) ++ after) = located ('\x7b' :: inner ++ ['\x7d']) := by
  unfold located
  rw [splitOnce_around plain plain']
  cases cut : splitOnce nameKey ('\x7b' :: inner ++ ['\x7d']) with
  | none => rfl
  | some halves =>
    obtain ⟨front,back⟩ := halves
    obtain ⟨whole,-⟩ := splitOnce_some (by decide) cut
    simp only [Option.map_some,Option.bind_some]
    cases brace : rsplitOnce '\x7b' front with
    | none =>
      obtain ⟨rest,rfl⟩ := front_opens whole
      exact absurd List.mem_cons_self (rsplitOnce_none.mp brace)
    | some halves =>
      obtain ⟨outer,rest⟩ := halves
      obtain ⟨rfl,absent⟩ := rsplitOnce_some.mp brace
      have later : rsplitOnce '\x7b' (before ++ (outer ++ '\x7b' :: rest)) = some (before ++ outer,rest) :=
        rsplitOnce_some.mpr ⟨by simp,absent⟩
      rw [later]
      simp only [Option.bind_some]
      have dropped : (before ++ ('\x7b' :: inner ++ ['\x7d']) ++ after).drop (before ++ outer).length =
          ('\x7b' :: inner ++ ['\x7d']).drop outer.length ++ after := by
        rw [whole]
        simp
      rw [dropped,objectText_append plain'.unclosed]

/-! ### The body -/

/-- There are no double braces to unwrap. -/
theorem unwrapped_around {before inner after : List Char} (unopened : '\x7b' ∉ before) (single : inner.head? ≠ some '\x7b') :
    unwrapped (before ++ ('\x7b' :: inner ++ ['\x7d']) ++ after) = none := by
  refine if_neg fun wrapped => ?_
  obtain ⟨rest,whole⟩ := wrapped.1
  cases before with
  | nil =>
    cases inner with
    | nil => exact absurd (List.cons_eq_cons.mp (List.cons_eq_cons.mp whole).2).1 (by decide)
    | cons c inner => exact single (congrArg some (List.cons_eq_cons.mp (List.cons_eq_cons.mp whole).2).1.symm)
  | cons c before =>
    have first : '\x7b' = c := (List.cons_eq_cons.mp whole).1
    rw [← first] at unopened
    exact unopened List.mem_cons_self

theorem located_trimmed {before inner after : List Char} (plain : Plain before) (plain' : Plain after) :
    located (trim (before ++ ('\x7b' :: inner ++ ['\x7d']) ++ after)) = located ('\x7b' :: inner ++ ['\x7d']) := by
  rw [trim_around]
  exact located_around (plain.part (trimStart_ends before).isInfix) (plain'.part (trimEnd_begins after).isInfix)

theorem trim_braced (inner : List Char) : trim ('\x7b' :: inner ++ ['\x7d']) = '\x7b' :: inner ++ ['\x7d'] := by
  have alone := @trim_around inner [] []
  simpa [trimStart,trimEnd] using alone

theorem plain_nil : Plain [] := ⟨nofun,nofun,by decide⟩

section
variable [BodyReader]

/-- An object in prose is read strictly as a whole, or else where the scan finds it. -/
theorem readBody_around {before inner after : List Char} (single : inner.head? ≠ some '\x7b') (plain : Plain before)
    (plain' : Plain after) : readBody (before ++ ('\x7b' :: inner ++ ['\x7d']) ++ after) =
      (BodyReader.fromStr (trim (before ++ ('\x7b' :: inner ++ ['\x7d']) ++ after))).or
        ((located ('\x7b' :: inner ++ ['\x7d'])).bind BodyReader.fromStr) := by
  have unopened : '\x7b' ∉ trimStart before := fun member => plain.unopened ((trimStart_ends before).subset member)
  have single' : unwrapped (trim (before ++ ('\x7b' :: inner ++ ['\x7d']) ++ after)) = none := by
    rw [trim_around]
    exact unwrapped_around unopened single
  rw [readBody,single',located_trimmed plain plain',Option.bind_none,Option.none_or]

theorem readBody_alone {inner : List Char} (single : inner.head? ≠ some '\x7b') : readBody ('\x7b' :: inner ++ ['\x7d']) =
    (BodyReader.fromStr ('\x7b' :: inner ++ ['\x7d'])).or ((located ('\x7b' :: inner ++ ['\x7d'])).bind BodyReader.fromStr) := by
  have alone := readBody_around single plain_nil plain_nil
  rwa [List.nil_append,List.append_nil,trim_braced] at alone

/-- An object in prose is read as it is read alone exactly if the prose is tolerated. -/
theorem prose_iff {before object after : List Char} (braced : Braced object) (plain : Plain before) (plain' : Plain after) :
    parseToolCallBody (before ++ object ++ after) = parseToolCallBody object ↔ Tolerated before object after := by
  obtain ⟨inner,rfl,single⟩ := braced
  rw [parseToolCallBody_eq,parseToolCallBody_eq,Except.ok.injEq,readBody_around single plain plain',readBody_alone single]
  constructor
  · intro same
    refine .inr ?_
    cases whole : BodyReader.fromStr (trim (before ++ ('\x7b' :: inner ++ ['\x7d']) ++ after)) <;>
      cases alone : BodyReader.fromStr ('\x7b' :: inner ++ ['\x7d']) <;> simp_all
  · rintro (⟨blank,blank'⟩ | tolerated)
    · rw [trim_around,trimStart_nil.mpr blank,trimEnd_nil.mpr blank',List.nil_append,List.append_nil]
    · cases whole : BodyReader.fromStr (trim (before ++ ('\x7b' :: inner ++ ['\x7d']) ++ after)) <;>
        cases alone : BodyReader.fromStr ('\x7b' :: inner ++ ['\x7d']) <;> simp_all

end

/-! ### A reader -/

/-- A JSON value read as a body, from its fields or in the order of a sequence. -/
def decodeBody : Value → Option ToolCallBody
  | .Object fields =>
    match Map.get fields "name",Map.get fields "arguments" with
    | some (.String name),some .Null => some ⟨name,none⟩
    | some (.String name),arguments => some ⟨name,arguments⟩
    | _,_ => none
  | .Array [.String name] => some ⟨name,none⟩
  | .Array [.String name,.Null] => some ⟨name,none⟩
  | .Array [.String name,arguments] => some ⟨name,some arguments⟩
  | _ => none

@[reducible] def bodies : BodyReader where
  fromStr text := (JsonText.serde.fromStr (String.ofList text)).toOption.bind decodeBody

/-- A call of `a` whose arguments have a name of their own. -/
def nested : List Char := "\x7b\"arguments\":\x7b\"name\":\"b\"\x7d,\"name\":\"a\"\x7d".toList

def flat : List Char := "\x7b\"name\":\"a\",\"arguments\":\x7b\x7d\x7d".toList

def remark : List Char := "I call ".toList

theorem remark_plain : Plain remark := ⟨by decide,by decide,by decide⟩

theorem flat_braced : Braced flat := ⟨"\"name\":\"a\",\"arguments\":\x7b\x7d".toList,by decide,by decide⟩

theorem nested_braced : Braced nested :=
  ⟨"\"arguments\":\x7b\"name\":\"b\"\x7d,\"name\":\"a\"".toList,by decide,by decide⟩

theorem prose_iff_flat :
    let _ := bodies
    (parseToolCallBody (remark ++ flat ++ []) = parseToolCallBody flat ↔ Tolerated remark flat []) ∧ Tolerated remark flat [] := by
  intro reader
  refine ⟨prose_iff flat_braced remark_plain plain_nil,.inr ?_⟩
  have strange : BodyReader.fromStr (trim (remark ++ flat ++ [])) = none := Option.isNone_iff_eq_none.mp (by decide +kernel)
  have found : located flat = some flat := by decide +kernel
  rw [strange,found]
  cases alone : BodyReader.fromStr flat with
  | none => trivial
  | some read => exact alone

/-- In prose the call of the arguments' name is read instead. -/
theorem nested_misread :
    let _ := bodies
    ¬ ∀ before object after,Braced object → Plain before → Plain after → (∃ call,parseToolCallBody object = .ok (some call)) →
      parseToolCallBody (before ++ object ++ after) = parseToolCallBody object := by
  intro reader every
  have alone : (readBody nested).map (·.name) = some "a" := by decide +kernel
  have around : (readBody (remark ++ nested ++ [])).map (·.name) = some "b" := by decide +kernel
  obtain ⟨call,accepted,-⟩ := Option.map_eq_some_iff.mp alone
  have same := every remark nested [] nested_braced remark_plain plain_nil ⟨call,by rw [parseToolCallBody_eq,accepted]⟩
  rw [parseToolCallBody_eq,parseToolCallBody_eq,Except.ok.injEq] at same
  rw [same,alone] at around
  exact absurd around (by decide)

end AegisNode.Prose
