import AegisNode.Prose

/-!
Calls written as `<tool_call>` blocks: when the answer has the calls that were written.
-/
namespace AegisNode.CallBlocks
open Text Json Backend Slices LlamaChat

/-- A call that is written: the text before its block, its name and its arguments. -/
structure Written where
  before : List Char
  name : String
  arguments : Map

def nameField : List Char := "\"name\":".toList
def argumentsField : List Char := ",\"arguments\":".toList

section
variable [Serde]

/-- `{"name":...,"arguments":...}` -/
def callText (call : Written) : List Char :=
  '\x7b' :: (nameField ++ (Serde.toString (.String call.name)).toList ++ argumentsField ++
    (Serde.toString (.Object call.arguments)).toList) ++ ['\x7d']

/-- The blocks of the calls, with the texts between them and the text at the end. -/
def render : List Written → List Char → List Char
  | [],last => last
  | call :: rest,last => call.before ++ openTag ++ (callText call ++ closeTag ++ render rest last)

end

/-- A text without tags. -/
def TagFree (text : List Char) : Prop := ¬ openTag <:+: text ∧ ¬ closeTag <:+: text

def Written.toolCall (call : Written) : ToolCall := ⟨call.name,.Object call.arguments⟩

/-- The strict reader reads back what was written, within the nesting limit: the body
    takes one level of it. -/
def ReadsBack [Serde] [BodyReader] : Prop := ∀ call : Written,ordered (.Object call.arguments) →
  depth (.Object call.arguments) < nestingLimit → BodyReader.fromStr (callText call) = some ⟨call.name,some (.Object call.arguments)⟩

/-! ### Tags -/

/-- A word whose first character does not come again occurs nowhere across the end of a
    text. -/
theorem infix_dropLast {head : Char} {tail text : List Char} (once : head ∉ tail) (absent : ¬ head :: tail <:+: text) :
    ¬ head :: tail <:+: text ++ (head :: tail).dropLast := by
  intro inside
  rcases List.infix_append_iff.mp inside with left | right | ⟨start,rest,whole,ends,begins⟩
  · exact absent left
  · have := right.length_le
    simp at this
  · cases rest with
    | nil =>
      rw [List.append_nil] at whole
      rw [← whole] at ends
      exact absent ends.isInfix
    | cons c rest =>
      have first : c = head := by
        obtain ⟨later,cut⟩ := begins
        cases tail with
        | nil => simp at cut
        | cons d tail =>
          rw [List.dropLast_cons_cons,List.cons_append] at cut
          exact (List.cons_eq_cons.mp cut).1
      cases start with
      | nil =>
        have := begins.length_le
        have size := congrArg List.length whole
        simp at this size
        omega
      | cons d start =>
        refine once ?_
        rw [(List.cons_eq_cons.mp whole).2,first]
        simp

theorem open_before {text : List Char} (free : ¬ openTag <:+: text) : ¬ openTag <:+: text ++ openTag.dropLast := by
  have tag : openTag = '<' :: "tool_call>".toList := by decide
  rw [tag] at free ⊢
  exact infix_dropLast (by decide) free

theorem close_before {text : List Char} (free : ¬ closeTag <:+: text) : ¬ closeTag <:+: text ++ closeTag.dropLast := by
  have tag : closeTag = '<' :: "/tool_call>".toList := by decide
  rw [tag] at free ⊢
  exact infix_dropLast (by decide) free

/-! ### Calls that come back -/

section
variable [Serde]

/-- The text of the call has no closing tag in it, and the nesting limit leaves room for
    its arguments. -/
structure Tame (call : Written) : Prop where
  untagged : ¬ closeTag <:+: callText call
  shallow : depth (.Object call.arguments) < nestingLimit

/-- Every block ends where it was meant to end. -/
theorem render_cut {calls : List Written} {last : List Char} (free : ∀ call ∈ calls,TagFree call.before) (free' : TagFree last)
    (tame : ∀ call ∈ calls,Tame call) :
    Cut (render calls last) (calls.flatMap (fun call => [.Prose call.before,.Block (callText call)]) ++ [.Prose last]) := by
  induction calls with
  | nil => exact .Unopened free'.1
  | cons call rest ih =>
    have later := ih (fun other member => free other (List.mem_cons_of_mem call member))
      (fun other member => tame other (List.mem_cons_of_mem call member))
    exact .Block (open_before (free call List.mem_cons_self).1) (close_before (tame call List.mem_cons_self).untagged) later

variable [BodyReader]

theorem callText_read (reads : ReadsBack) {call : Written} (sorted : ordered (.Object call.arguments)) (tame : Tame call) :
    readBody (callText call) = some ⟨call.name,some (.Object call.arguments)⟩ := by
  have trimmed : trim (callText call) = callText call := Prose.trim_braced _
  rw [readBody,trimmed,reads call sorted tame.shallow,Option.some_or]

/-- Calls that are tame come back, in their order. -/
theorem calls_read (reads : ReadsBack) {calls : List Written} {last : List Char} (sorted : ∀ call ∈ calls,ordered (.Object call.arguments))
    (free : ∀ call ∈ calls,TagFree call.before) (free' : TagFree last) (tame : ∀ call ∈ calls,Tame call) :
    ∃ response,parseResponse (String.ofList (render calls last)) = .ok response ∧
      response.toolCalls = calls.map Written.toolCall := by
  have cut := render_cut free free' tame
  rw [← String.toList_ofList (l := render calls last)] at cut
  refine ⟨_,parseResponse_cut cut,?_⟩
  show List.filterMap Piece.call _ = _
  have yields : ∀ call ∈ calls,[Piece.Prose call.before,.Block (callText call)].filterMap Piece.call = [call.toolCall] := by
    intro call member
    simp [List.filterMap_cons,Piece.call,callText_read reads (sorted call member) (tame call member),callOf,Written.toolCall]
  have silent : [Piece.Prose last].filterMap Piece.call = [] := rfl
  rw [List.filterMap_append,List.filterMap_flatMap,List.flatMap_congr yields,silent,List.append_nil,List.map_eq_flatMap]

end

/-! ### A reader that reads back -/

theorem callText_write (call : Written) : @callText JsonText.serde call = '\x7b' :: (JsonText.quoted "name" ++
    ':' :: (JsonText.write (.String call.name) ++ JsonText.writeFields [("arguments",.Object call.arguments)])) := by
  have first : nameField = JsonText.quoted "name" ++ [':'] := by decide +kernel
  have second : argumentsField = ',' :: JsonText.quoted "arguments" ++ [':'] := by decide +kernel
  have written : ∀ v,(JsonText.serde.toString v).toList = JsonText.write v := fun v => String.toList_ofList
  simp only [callText,first,second,written,JsonText.writeFields]
  simp

theorem bodies_read : @ReadsBack JsonText.serde Prose.bodies := by
  intro call sorted shallow
  have stops : JsonText.Stops (JsonText.writeFields [("arguments",.Object call.arguments)] ++ []) := by
    intro c first
    rw [JsonText.writeFields] at first
    cases first
    decide
  generalize size : (@callText JsonText.serde call).length = fuel
  have whole := size
  rw [callText_write] at whole
  simp only [List.length_cons,List.length_append] at whole
  have name := JsonText.read_write (.String call.name) fuel 126 _ (by omega) (by simp [depth]) rfl stops
  have fields := JsonText.readFields_writeFields [("arguments",.Object call.arguments)] fuel 126 [] (by omega)
    (by simp only [fieldsDepth,nestingLimit] at *; omega) (by simpa [fieldsOrdered] using sorted)
  have read : JsonText.read (fuel+1) nestingLimit (@callText JsonText.serde call) =
      some (.Object (Map.insertAll [] [("name",.String call.name),("arguments",.Object call.arguments)]),[]) := by
    rw [callText_write,nestingLimit,JsonText.read]
    · rw [JsonText.readKey_quoted,Option.bind_some]
      rw [List.append_nil] at name fields
      rw [name,Option.bind_some,fields,Option.map_some]
    · intro other same
      simp [JsonText.quoted] at same
  have parsed : JsonText.readAll (String.ofList (@callText JsonText.serde call)) =
      .ok (.Object (Map.insertAll [] [("name",.String call.name),("arguments",.Object call.arguments)])) := by
    rw [JsonText.readAll,String.toList_ofList,String.length_ofList,size,read]
  show (JsonText.readAll (String.ofList (@callText JsonText.serde call))).toOption.bind Prose.decodeBody = _
  rw [parsed]
  simp [Except.toOption,Prose.decodeBody,Map.insertAll,get_insert]

/-! ### Two answers -/

def harmless : List Written := [⟨"Reading. ".toList,"read",[("path",.String "/data/a")]⟩,⟨[],"list",[]⟩]

theorem harmless_read :
    let _ := JsonText.serde
    let _ := Prose.bodies
    ∃ response,parseResponse (String.ofList (render harmless "Done.".toList)) = .ok response ∧
      response.toolCalls = harmless.map Written.toolCall := by
  intro serde reader
  have free : ∀ call ∈ harmless,TagFree call.before := by
    simp only [harmless,List.forall_mem_cons]
    exact ⟨⟨by decide,by decide⟩,⟨by decide,by decide⟩,nofun⟩
  have tame : ∀ call ∈ harmless,Tame call := by
    simp only [harmless,List.forall_mem_cons]
    exact ⟨⟨by decide +kernel,by decide⟩,⟨by decide +kernel,by decide⟩,nofun⟩
  have sorted : ∀ call ∈ harmless,ordered (.Object call.arguments) := by
    simp only [harmless,List.forall_mem_cons]
    exact ⟨rfl,rfl,nofun⟩
  exact calls_read bodies_read sorted free ⟨by decide,by decide⟩ tame

/-- A call whose argument is a closing tag. -/
def tagged : Written := ⟨[],"a",[("x",.String "</tool_call>")]⟩

def cutOff : List Char := "\x7b\"name\":\"a\",\"arguments\":\x7b\"x\":\"".toList
def remains : List Char := "\"\x7d\x7d</tool_call>".toList

theorem tagged_lost :
    let _ := JsonText.serde
    let _ := Prose.bodies
    ¬ ∀ (calls : List Written) (last : List Char),(∀ call ∈ calls,ordered (.Object call.arguments)) →
      (∀ call ∈ calls,TagFree call.before) → TagFree last →
      ∃ response,parseResponse (String.ofList (render calls last)) = .ok response ∧ response.toolCalls = calls.map Written.toolCall := by
  intro serde reader every
  have text : render [tagged] [] = [] ++ openTag ++ (cutOff ++ closeTag ++ remains) := by decide +kernel
  have cut : Cut (render [tagged] []) [.Prose [],.Block cutOff,.Prose remains] := by
    rw [text]
    exact .Block (by decide) (by decide) (.Unopened (by decide))
  have unread : readBody cutOff = none := Option.isNone_iff_eq_none.mp (by decide +kernel)
  obtain ⟨response,parsed,calls⟩ := every [tagged] [] (by simp [tagged]; rfl) (by simp [TagFree,tagged]; decide) ⟨by decide,by decide⟩
  rw [← String.toList_ofList (l := render [tagged] [])] at cut
  rw [parseResponse_cut cut,Except.ok.injEq] at parsed
  rw [← parsed] at calls
  have none : (answer [.Prose [],.Block cutOff,.Prose remains]).toolCalls = [] := by
    simp [answer,List.filterMap_cons,Piece.call,unread]
  rw [none] at calls
  cases calls

end AegisNode.CallBlocks
