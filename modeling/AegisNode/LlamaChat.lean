import AegisNode.Backend
import AegisNode.Slices

/-!
What the llama.cpp backend makes of the raw text of a model: the calls in its
`<tool_call>` blocks, and the reasoning around them.
-/
namespace AegisNode.LlamaChat
open Text Json Backend Slices

structure ToolCallBody where
  name : String
  arguments : Option Value

/-- The third-party `serde_json::from_str::<ToolCallBody>`. -/
class BodyReader where
  fromStr : List Char → Option ToolCallBody

def openTag : List Char := "<tool_call>".toList
def closeTag : List Char := "</tool_call>".toList
def nameKey : List Char := "\"name\"".toList

theorem openTag_nonempty : openTag ≠ [] := by decide
theorem closeTag_nonempty : closeTag ≠ [] := by decide
theorem openTag_size : byteLen openTag = 11 := by decide
theorem closeTag_size : byteLen closeTag = 12 := by decide

/-- A tag that is found lies within the text. -/
theorem tag_inside {raw rest : List Char} {cursor start : Nat} (entered : dropBytes raw cursor = .ok rest)
    (found : find openTag rest = some start) : cursor+start+byteLen openTag ≤ byteLen raw := by
  obtain ⟨front,rfl,rfl⟩ := dropBytes_ok entered
  obtain ⟨before,after,-,rfl,rfl⟩ := find_some openTag_nonempty found
  simp only [byteLen_append]
  omega

/-- `str::trim` -/
def trim (text : List Char) : List Char := ((text.dropWhile isWhiteSpace).reverse.dropWhile isWhiteSpace).reverse

/-! ### A body -/

/-- The offset of the last opening brace. -/
def lastBrace (front : List Char) : Option Nat := (rsplitOnce '\x7b' front).map (fun halves => byteLen halves.1)

/-- The offset after the brace that brings the depth back to zero; an `i32` counts the
    depth, and it wraps. -/
def matchingBrace (depth : Int32) (offset : Nat) : List Char → Option Nat
  | [] => none
  | c :: rest =>
    if c = '\x7b' then matchingBrace (depth+1) (offset+c.utf8Size) rest
    else if c = '\x7d' then
      if depth-1 = 0 then some (offset+1) else matchingBrace (depth-1) (offset+c.utf8Size) rest
    else matchingBrace depth (offset+c.utf8Size) rest

section
variable [BodyReader]

/-- Without one of two outer pairs of braces. -/
def readUnwrapped (trimmed : List Char) : Sliced (Option ToolCallBody) :=
  if ['\x7b','\x7b'] <+: trimmed ∧ ['\x7d','\x7d'] <:+ trimmed ∧ 4 ≤ byteLen trimmed then
    (slice trimmed 1 (byteLen trimmed-1)).map (fun inner => BodyReader.fromStr (trim inner))
  else .ok none

/-- From the last opening brace before the first `"name"` to the brace that closes it. -/
def readScanned (trimmed : List Char) : Sliced (Option ToolCallBody) :=
  match find nameKey trimmed with
  | none => .ok none
  | some namePos => do
    let front ← takeBytes trimmed namePos
    match lastBrace front with
    | none => return none
    | some start =>
      let rest ← dropBytes trimmed start
      match matchingBrace 0 0 rest with
      | none => return none
      | some stop =>
        let candidate ← slice trimmed start (start+stop)
        return BodyReader.fromStr candidate

/-- The first of three readings that succeeds. -/
def parseToolCallBody (body : List Char) : Sliced (Option ToolCallBody) :=
  match BodyReader.fromStr (trim body) with
  | some parsed => .ok (some parsed)
  | none => do
    match ← readUnwrapped (trim body) with
    | some parsed => return some parsed
    | none => readScanned (trim body)

/-! ### An answer -/

/-- Where the scan of the raw text stands. -/
structure Progress where
  cursor : Nat
  reasoning : List Char
  toolCalls : List ToolCall

def callOf (parsed : ToolCallBody) : ToolCall := ⟨parsed.name,parsed.arguments.getD .Null⟩

def parseLoop (raw : List Char) (cursor : Nat) (reasoning : List Char) (toolCalls : List ToolCall) : Sliced Progress :=
  match _entered : dropBytes raw cursor with
  | .error panic => .error panic
  | .ok rest =>
    match _found : find openTag rest with
    | none => .ok ⟨cursor,reasoning,toolCalls⟩
    | some start => do
      let before ← slice raw cursor (cursor+start)
      let after ← dropBytes raw (cursor+start+byteLen openTag)
      match find closeTag after with
      | none =>
        let tail ← dropBytes raw (cursor+start)
        return ⟨byteLen raw,reasoning ++ before ++ tail,toolCalls⟩
      | some closeRel =>
        let bodyStart := cursor+start+byteLen openTag
        let body ← slice raw bodyStart (bodyStart+closeRel)
        match ← parseToolCallBody body with
        | some parsed =>
          parseLoop raw (bodyStart+closeRel+byteLen closeTag) (reasoning ++ before) (toolCalls ++ [callOf parsed])
        | none =>
          let whole ← slice raw (cursor+start) (bodyStart+closeRel+byteLen closeTag)
          parseLoop raw (bodyStart+closeRel+byteLen closeTag) (reasoning ++ before ++ whole) toolCalls
termination_by byteLen raw-cursor
decreasing_by
  all_goals
    have inside := tag_inside _entered _found
    simp only [openTag_size,closeTag_size] at *
    omega

/-- The reasoning is trimmed, and it is the text of the assistant unless it is empty. -/
def parseResponse (raw : String) : Sliced InferResponse := do
  let progress ← parseLoop raw.toList 0 [] []
  let tail ← dropBytes raw.toList progress.cursor
  let reasoning := String.ofList (trim (progress.reasoning ++ tail))
  return { reasoning := reasoning
           toolCalls := progress.toolCalls
           assistantText := if reasoning = "" then none else some reasoning
           tokensUsed := none }

end

/-! ### A body as lists of characters -/

/-- The text up to the brace that brings the depth back to zero. -/
def objectText (depth : Int32) : List Char → Option (List Char)
  | [] => none
  | c :: rest =>
    if c = '\x7b' then (objectText (depth+1) rest).map (fun object => c :: object)
    else if c = '\x7d' then
      if depth-1 = 0 then some [c] else (objectText (depth-1) rest).map (fun object => c :: object)
    else (objectText depth rest).map (fun object => c :: object)

/-- The text that the scan takes for the object. -/
def located (trimmed : List Char) : Option (List Char) :=
  (splitOnce nameKey trimmed).bind (fun cut => (rsplitOnce '\x7b' cut.1).bind (fun halves =>
    objectText 0 (trimmed.drop halves.1.length)))

/-- The text inside double braces, with one brace left at each end. -/
def unwrapped (trimmed : List Char) : Option (List Char) :=
  if ['\x7b','\x7b'] <+: trimmed ∧ ['\x7d','\x7d'] <:+ trimmed ∧ 4 ≤ byteLen trimmed then some trimmed.tail.dropLast else none

theorem objectText_prefix {depth : Int32} {text object : List Char} (closed : objectText depth text = some object) :
    object <+: text := by
  induction text generalizing depth object with
  | nil => cases closed
  | cons c rest ih =>
    have later : ∀ {depth : Int32},(objectText depth rest).map (fun object => c :: object) = some object → object <+: c :: rest := by
      intro depth closed
      obtain ⟨object,found,rfl⟩ := Option.map_eq_some_iff.mp closed
      exact (List.prefix_cons_inj c).mpr (ih found)
    rw [objectText] at closed
    split_ifs at closed with opens closes ends
    · exact later closed
    · cases closed
      exact ⟨rest,rfl⟩
    · exact later closed
    · exact later closed

theorem matchingBrace_eq (depth : Int32) (offset : Nat) (text : List Char) :
    matchingBrace depth offset text = (objectText depth text).map (fun object => offset+byteLen object) := by
  induction text generalizing depth offset with
  | nil => rfl
  | cons c rest ih =>
    have later : ∀ depth : Int32,matchingBrace depth (offset+c.utf8Size) rest =
        ((objectText depth rest).map (fun object => c :: object)).map (fun object => offset+byteLen object) := by
      intro depth
      rw [ih,Option.map_map]
      congr 1
      funext object
      simp only [Function.comp_apply,byteLen_cons]
      omega
    rw [matchingBrace,objectText]
    split_ifs with opens closes ends
    · exact later _
    · subst closes
      rfl
    · exact later _
    · exact later _

theorem slice_unwrapped {trimmed : List Char} (starts : ['\x7b','\x7b'] <+: trimmed) (ends : ['\x7d','\x7d'] <:+ trimmed) :
    slice trimmed 1 (byteLen trimmed-1) = .ok trimmed.tail.dropLast := by
  obtain ⟨back,rfl⟩ := starts
  obtain ⟨front,whole⟩ := ends
  obtain ⟨inner,split⟩ : ∃ inner,'\x7b' :: back = inner ++ ['\x7d'] := by
    cases front with
    | nil => simp at whole
    | cons c front =>
      refine ⟨front ++ ['\x7d'],?_⟩
      simp only [List.cons_append,List.nil_append,List.cons.injEq] at whole
      simp [← whole.2]
  have cut : ['\x7b','\x7b'] ++ back = ['\x7b'] ++ inner ++ ['\x7d'] := by simp [split]
  have one : byteLen ['\x7b'] = 1 ∧ byteLen ['\x7d'] = 1 := by decide
  rw [cut,show (['\x7b'] ++ inner ++ ['\x7d']).tail.dropLast = inner by simp]
  refine slice_append _ _ _ one.1.symm ?_
  simp only [byteLen_append,one]
  omega

section
variable [BodyReader]

/-- What is read from a body, on lists of characters. -/
def readBody (body : List Char) : Option ToolCallBody :=
  (BodyReader.fromStr (trim body)).or
    (((unwrapped (trim body)).bind (fun inner => BodyReader.fromStr (trim inner))).or
      ((located (trim body)).bind BodyReader.fromStr))

theorem readUnwrapped_eq (trimmed : List Char) :
    readUnwrapped trimmed = .ok ((unwrapped trimmed).bind (fun inner => BodyReader.fromStr (trim inner))) := by
  unfold readUnwrapped unwrapped
  split
  · rename_i wrapped
    rw [slice_unwrapped wrapped.1 wrapped.2.1]
    rfl
  · rfl

theorem readScanned_eq (trimmed : List Char) :
    readScanned trimmed = .ok ((located trimmed).bind BodyReader.fromStr) := by
  unfold readScanned located
  cases cut : splitOnce nameKey trimmed with
  | none => simp [find,cut]
  | some halves =>
    obtain ⟨front,back⟩ := halves
    obtain ⟨whole,-⟩ := splitOnce_some (by decide) cut
    have taken : takeBytes trimmed (byteLen front) = .ok front := by
      rw [whole,List.append_assoc,takeBytes_append]
    simp only [find,cut,Option.map_some,Option.bind_some,taken,lastBrace,bind,Except.bind,pure,Except.pure]
    cases brace : rsplitOnce '\x7b' front with
    | none => rfl
    | some halves =>
      obtain ⟨before,inner⟩ := halves
      have split : trimmed = before ++ ('\x7b' :: inner ++ nameKey ++ back) := by
        rw [whole,(rsplitOnce_some.mp brace).1]
        simp
      have dropped : dropBytes trimmed (byteLen before) = .ok (trimmed.drop before.length) := by
        rw [split,dropBytes_append,List.drop_left]
      simp only [Option.map_some,Option.bind_some,dropped,matchingBrace_eq]
      cases closed : objectText 0 (trimmed.drop before.length) with
      | none => rfl
      | some object =>
        obtain ⟨rest,tail⟩ := objectText_prefix closed
        have sliced : slice trimmed (byteLen before) (byteLen before+(0+byteLen object)) = .ok object := by
          conv_lhs => rw [← List.take_append_drop before.length trimmed,← tail]
          rw [split,List.take_left,← List.append_assoc]
          exact slice_append before object rest rfl (by omega)
        simp only [Option.map_some,sliced,Option.bind_some]

theorem parseToolCallBody_eq (body : List Char) : parseToolCallBody body = .ok (readBody body) := by
  unfold parseToolCallBody readBody
  cases BodyReader.fromStr (trim body) with
  | some parsed => rfl
  | none =>
    simp only [readUnwrapped_eq,readScanned_eq,bind,Except.bind,pure,Except.pure,Option.none_or]
    cases (unwrapped (trim body)).bind (fun inner => BodyReader.fromStr (trim inner)) with
    | some parsed => rfl
    | none => rfl

end

/-! ### An answer in pieces -/

/-- A piece of the raw text. -/
inductive Piece where
  | Prose (text : List Char)
  | Block (body : List Char)

def Piece.source : Piece → List Char
  | .Prose text => text
  | .Block body => openTag ++ body ++ closeTag

/-- The pieces of a text: a block goes from the first opening tag to the first closing tag
    after it, and what follows the last block is prose, with an opening tag that nothing
    closes or without one. -/
inductive Cut : List Char → List Piece → Prop where
  | Unopened {text : List Char} (unopened : ¬ openTag <:+: text) : Cut text [.Prose text]
  | Unclosed {before after : List Char} (first : ¬ openTag <:+: before ++ openTag.dropLast) (unclosed : ¬ closeTag <:+: after) :
      Cut (before ++ openTag ++ after) [.Prose (before ++ openTag ++ after)]
  | Block {before body rest : List Char} {pieces : List Piece} (first : ¬ openTag <:+: before ++ openTag.dropLast)
      (closed : ¬ closeTag <:+: body ++ closeTag.dropLast) (later : Cut rest pieces) :
      Cut (before ++ openTag ++ (body ++ closeTag ++ rest)) (.Prose before :: .Block body :: pieces)

/-- Nothing of the text is lost or moved. -/
theorem Cut.whole {text : List Char} {pieces : List Piece} (cut : Cut text pieces) : pieces.flatMap Piece.source = text := by
  induction cut with
  | Unopened | Unclosed => simp [Piece.source]
  | Block first closed later ih => simp [Piece.source,ih]

theorem cut_exists (text : List Char) : ∃ pieces,Cut text pieces := by
  induction size : text.length using Nat.strongRecOn generalizing text with
  | ind n ih =>
    cases opened : splitOnce openTag text with
    | none =>
      refine ⟨_,.Unopened fun inside => ?_⟩
      rw [← splitOnce_isSome openTag_nonempty,opened] at inside
      cases inside
    | some halves =>
      obtain ⟨before,after⟩ := halves
      obtain ⟨rfl,first⟩ := splitOnce_some openTag_nonempty opened
      cases closes : splitOnce closeTag after with
      | none =>
        refine ⟨_,.Unclosed first fun inside => ?_⟩
        rw [← splitOnce_isSome closeTag_nonempty,closes] at inside
        cases inside
      | some halves =>
        obtain ⟨body,rest⟩ := halves
        obtain ⟨rfl,closed⟩ := splitOnce_some closeTag_nonempty closes
        have shorter : rest.length < n := by
          have := List.length_pos_iff.mpr openTag_nonempty
          rw [← size]
          simp only [List.length_append]
          omega
        obtain ⟨pieces,later⟩ := ih rest.length shorter rest rfl
        exact ⟨_,.Block first closed later⟩

section
variable [BodyReader]

/-- The call that a piece yields, if it is a block whose body can be read. -/
def Piece.call : Piece → Option ToolCall
  | .Prose _ => none
  | .Block body => (readBody body).map callOf

/-- What is left of a piece in the reasoning: all of it, unless it yields a call. -/
def Piece.kept (piece : Piece) : List Char := if piece.call.isSome then [] else piece.source

/-- The loop ends where nothing is opened any more. -/
theorem parseLoop_unopened {raw rest reasoning : List Char} {cursor : Nat} {toolCalls : List ToolCall}
    (entered : dropBytes raw cursor = .ok rest) (unopened : find openTag rest = none) :
    parseLoop raw cursor reasoning toolCalls = .ok ⟨cursor,reasoning,toolCalls⟩ := by
  rw [parseLoop]
  split
  · rename_i failed
    rw [entered] at failed
    cases failed
  · rename_i again
    rw [entered] at again
    cases again
    split
    · rfl
    · rename_i found
      rw [unopened] at found
      cases found

/-- A round of the loop: `rest` is cut at the first opening tag. -/
theorem parseLoop_opened {raw rest reasoning : List Char} {cursor start : Nat} {toolCalls : List ToolCall}
    (entered : dropBytes raw cursor = .ok rest) (opened : find openTag rest = some start) {before after : List Char}
    (sliced : slice raw cursor (cursor+start) = .ok before) (left : dropBytes raw (cursor+start+byteLen openTag) = .ok after) :
    parseLoop raw cursor reasoning toolCalls =
      (match find closeTag after with
      | none => do
        let tail ← dropBytes raw (cursor+start)
        return ⟨byteLen raw,reasoning ++ before ++ tail,toolCalls⟩
      | some closeRel => do
        let bodyStart := cursor+start+byteLen openTag
        let body ← slice raw bodyStart (bodyStart+closeRel)
        match ← parseToolCallBody body with
        | some parsed =>
          parseLoop raw (bodyStart+closeRel+byteLen closeTag) (reasoning ++ before) (toolCalls ++ [callOf parsed])
        | none =>
          let whole ← slice raw (cursor+start) (bodyStart+closeRel+byteLen closeTag)
          parseLoop raw (bodyStart+closeRel+byteLen closeTag) (reasoning ++ before ++ whole) toolCalls) := by
  rw [parseLoop]
  split
  · rename_i failed
    rw [entered] at failed
    cases failed
  · rename_i again
    rw [entered] at again
    cases again
    split
    · rename_i unopened
      rw [opened] at unopened
      cases unopened
    · rename_i start' found
      rw [opened] at found
      cases found
      simp only [sliced,left,bind,Except.bind]

/-- The loop goes through the pieces of what is left of the raw text. -/
theorem parseLoop_cut {rest : List Char} {pieces : List Piece} (cut : Cut rest pieces) :
    ∀ (front reasoning : List Char) (toolCalls : List ToolCall),∃ progress tail,
      parseLoop (front ++ rest) (byteLen front) reasoning toolCalls = .ok progress ∧
      dropBytes (front ++ rest) progress.cursor = .ok tail ∧
      progress.reasoning ++ tail = reasoning ++ pieces.flatMap Piece.kept ∧
      progress.toolCalls = toolCalls ++ pieces.filterMap Piece.call := by
  induction cut with
  | @Unopened text unopened =>
    intro front reasoning toolCalls
    exact ⟨⟨byteLen front,reasoning,toolCalls⟩,text,
      parseLoop_unopened (dropBytes_append front text) ((find_none openTag_nonempty).mpr unopened),dropBytes_append front text,
      by simp [Piece.kept,Piece.call,Piece.source],by simp [Piece.call]⟩
  | @Unclosed before after first unclosed =>
    intro front reasoning toolCalls
    have opened : find openTag (before ++ openTag ++ after) = some (byteLen before) := by
      rw [find,splitOnce_append openTag_nonempty after first,Option.map_some]
    have sliced : slice (front ++ (before ++ openTag ++ after)) (byteLen front) (byteLen front+byteLen before) = .ok before := by
      rw [List.append_assoc before,← List.append_assoc front]
      exact slice_append front before _ rfl rfl
    have tagged : dropBytes (front ++ (before ++ openTag ++ after)) (byteLen front+byteLen before) = .ok (openTag ++ after) := by
      rw [List.append_assoc before,← List.append_assoc front,← byteLen_append,dropBytes_append]
    have left : dropBytes (front ++ (before ++ openTag ++ after)) (byteLen front+byteLen before+byteLen openTag) = .ok after := by
      rw [← List.append_assoc front,← List.append_assoc front,← byteLen_append,← byteLen_append,dropBytes_append]
    refine ⟨⟨byteLen (front ++ (before ++ openTag ++ after)),reasoning ++ before ++ (openTag ++ after),toolCalls⟩,[],?_,?_,?_,
      by simp [Piece.call]⟩
    · rw [parseLoop_opened (dropBytes_append _ _) opened sliced left,(find_none closeTag_nonempty).mpr unclosed]
      simp only [tagged,bind,Except.bind,pure,Except.pure]
    · have none := dropBytes_append (front ++ (before ++ openTag ++ after)) []
      rwa [List.append_nil] at none
    · simp [Piece.kept,Piece.call,Piece.source]
  | @Block before body rest pieces first closed later ih =>
    intro front reasoning toolCalls
    have opened : find openTag (before ++ openTag ++ (body ++ closeTag ++ rest)) = some (byteLen before) := by
      rw [find,splitOnce_append openTag_nonempty _ first,Option.map_some]
    have closes : find closeTag (body ++ closeTag ++ rest) = some (byteLen body) := by
      rw [find,splitOnce_append closeTag_nonempty rest closed,Option.map_some]
    -- the raw text with its cuts
    generalize whole : front ++ (before ++ openTag ++ (body ++ closeTag ++ rest)) = raw
    have entered : dropBytes raw (byteLen front) = .ok (before ++ openTag ++ (body ++ closeTag ++ rest)) := by
      rw [← whole,dropBytes_append]
    have sliced : slice raw (byteLen front) (byteLen front+byteLen before) = .ok before := by
      rw [show raw = front ++ before ++ (openTag ++ (body ++ closeTag ++ rest)) by simp [← whole]]
      exact slice_append front before _ rfl rfl
    have left : dropBytes raw (byteLen front+byteLen before+byteLen openTag) = .ok (body ++ closeTag ++ rest) := by
      rw [show raw = front ++ before ++ openTag ++ (body ++ closeTag ++ rest) by simp [← whole],← byteLen_append,
        ← byteLen_append,dropBytes_append]
    have inner : slice raw (byteLen front+byteLen before+byteLen openTag)
        (byteLen front+byteLen before+byteLen openTag+byteLen body) = .ok body := by
      rw [show raw = front ++ before ++ openTag ++ body ++ (closeTag ++ rest) by simp [← whole]]
      exact slice_append _ body _ (by simp [Nat.add_assoc]) rfl
    have block : slice raw (byteLen front+byteLen before)
        (byteLen front+byteLen before+byteLen openTag+byteLen body+byteLen closeTag) = .ok (openTag ++ body ++ closeTag) := by
      rw [show raw = front ++ before ++ (openTag ++ body ++ closeTag) ++ rest by simp [← whole]]
      exact slice_append _ _ rest (by simp) (by simp [Nat.add_assoc])
    have next : byteLen front+byteLen before+byteLen openTag+byteLen body+byteLen closeTag =
        byteLen (front ++ before ++ openTag ++ body ++ closeTag) := by simp [Nat.add_assoc]
    have again : front ++ before ++ openTag ++ body ++ closeTag ++ rest = raw := by simp [← whole]
    rw [parseLoop_opened entered opened sliced left,closes]
    simp only [inner,parseToolCallBody_eq,bind,Except.bind]
    cases parsed : readBody body with
    | some read =>
      obtain ⟨progress,tail,runs,drops,kept,calls⟩ :=
        ih (front ++ before ++ openTag ++ body ++ closeTag) (reasoning ++ before) (toolCalls ++ [callOf read])
      rw [again,← next] at runs
      rw [again] at drops
      refine ⟨progress,tail,runs,drops,?_,?_⟩
      · rw [kept]
        simp [Piece.kept,Piece.call,Piece.source,parsed]
      · rw [calls]
        simp [List.filterMap_cons,Piece.call,parsed]
    | none =>
      obtain ⟨progress,tail,runs,drops,kept,calls⟩ :=
        ih (front ++ before ++ openTag ++ body ++ closeTag) (reasoning ++ before ++ (openTag ++ body ++ closeTag)) toolCalls
      rw [again,← next] at runs
      rw [again] at drops
      refine ⟨progress,tail,by simpa only [block] using runs,drops,?_,?_⟩
      · rw [kept]
        simp [Piece.kept,Piece.call,Piece.source,parsed]
      · rw [calls]
        simp [List.filterMap_cons,Piece.call,parsed]

/-- The answer that pieces make. -/
def answer (pieces : List Piece) : InferResponse :=
  let reasoning := String.ofList (trim (pieces.flatMap Piece.kept))
  { reasoning := reasoning
    toolCalls := pieces.filterMap Piece.call
    assistantText := if reasoning = "" then none else some reasoning
    tokensUsed := none }

theorem parseResponse_cut {raw : String} {pieces : List Piece} (cut : Cut raw.toList pieces) :
    parseResponse raw = .ok (answer pieces) := by
  obtain ⟨progress,tail,runs,drops,kept,calls⟩ := parseLoop_cut cut [] [] []
  simp only [List.nil_append,byteLen_nil] at runs drops kept calls
  simp only [parseResponse,runs,drops,bind,Except.bind,pure,Except.pure,kept,calls,answer]

/-- The raw text falls into pieces, in their order, and the answer is made of them: each
    block yields one call and leaves the reasoning, or stays in it as it stood. -/
theorem parse_conserves (raw : String) : ∃ pieces,Cut raw.toList pieces ∧ pieces.flatMap Piece.source = raw.toList ∧
    parseResponse raw = .ok (answer pieces) := by
  obtain ⟨pieces,cut⟩ := cut_exists raw.toList
  exact ⟨pieces,cut,cut.whole,parseResponse_cut cut⟩

end

end AegisNode.LlamaChat
