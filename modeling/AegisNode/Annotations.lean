import AegisNode.Format

/-!
The annotations of `aegis validate --format github`, and what a runner of workflow
commands reads in them.
-/
namespace AegisNode.Format
open Text

/-! ### Workflow commands -/

/-- What a line of the form `::level name=value,name=value::message` tells. -/
structure Command where
  level : List Char
  properties : List (List Char × List Char)
  message : List Char
  deriving DecidableEq,Repr

/-- The characters that a message is decoded to. -/
def dataEscapes : Escapes := [('%',['%','2','5']),('\r',['%','0','D']),('\n',['%','0','A'])]

/-- Replaces the codes of a table, from left to right. -/
def unescape (escapes : Escapes) : List Char → List Char
  | a :: b :: c :: rest =>
    match escapes.find? (fun e => e.2 = [a,b,c]) with
    | some e => e.1 :: unescape escapes rest
    | none => a :: unescape escapes (b :: c :: rest)
  | short => short

/-- `name=value`. -/
def decodeProperty (piece : List Char) : Option (List Char × List Char) :=
  (splitOnce ['='] piece).map fun (name,value) => (name,unescape ghaEscapes value)

/-- Reads a line; the codes of the message are those of a table. -/
def decodeCommand (messageEscapes : Escapes) (line : List Char) : Option Command := do
  let command ← stripPrefix [':',':'] line
  let (header,message) ← splitOnce [':',':'] command
  let (level,properties) ← splitOnce [' '] header
  let properties ← (properties.splitOn ',').mapM decodeProperty
  return ⟨level,properties,unescape messageEscapes message⟩

/-- The lines of a text whose lines all end with a line feed. -/
def linesOf (text : List Char) : List (List Char) := (text.splitOn '\n').dropLast

/-- What a finding shows. -/
def shown (file : String) (f : Finding) : Command where
  level := (levelOf f).toList
  properties := [("file".toList,file.toList),("line".toList,decimal (positionFor f).1),("col".toList,decimal (positionFor f).2),
    ("title".toList,(titleOf f).toList)]
  message := f.message.toList

/-- A message without the characters that a message has no codes for. -/
def keepCodes (text : List Char) : List Char := escape [(':',['%','3','A']),(',',['%','2','C'])] text

/-! ### Decoding what was escaped -/

section
variable {escapes : Escapes}

/-- A table's codes have three characters, a percent sign first. -/
def Coded (escapes : Escapes) : Prop := ∀ e ∈ escapes,∃ b c,e.2 = ['%',b,c] ∧ b ≠ '%' ∧ c ≠ '%'

theorem unescape_plain (coded : Coded escapes) {a : Char} (plain : a ≠ '%') (rest : List Char) :
    unescape escapes (a :: rest) = a :: unescape escapes rest := by
  match rest with
  | [] => rfl
  | [_] => rfl
  | b :: c :: rest =>
    have none : escapes.find? (fun e => e.2 = [a,b,c]) = none := by
      rw [List.find?_eq_none]
      intro e member same
      obtain ⟨_,_,code,-,-⟩ := coded e member
      rw [code] at same
      exact plain (List.cons.inj (of_decide_eq_true same)).1.symm
    rw [unescape,none]

/-- A text without codes is left as it is. -/
theorem unescape_free (text : List Char) (free : ∀ e ∈ escapes,¬ e.2 <:+: text) : unescape escapes text = text := by
  induction text using unescape.induct escapes with
  | case1 a b c rest e found ih =>
    have member := List.mem_of_find?_eq_some found
    have code := List.find?_some found
    exact absurd ⟨[],rest,by rw [of_decide_eq_true code]; rfl⟩ (free e member)
  | case2 a b c rest none ih =>
    rw [unescape,none]
    dsimp only
    rw [ih fun e member inside => free e member (inside.trans (List.suffix_cons a _).isInfix)]
  | case3 short other => rw [unescape.eq_2 _ _ other]

end

theorem ghaEscapes_coded : Coded ghaEscapes := by
  intro e member
  simp only [ghaEscapes,List.mem_cons,List.not_mem_nil,or_false] at member
  rcases member with rfl | rfl | rfl | rfl | rfl <;> exact ⟨_,_,rfl,by decide,by decide⟩

theorem dataEscapes_coded : Coded dataEscapes := by
  intro e member
  simp only [dataEscapes,List.mem_cons,List.not_mem_nil,or_false] at member
  rcases member with rfl | rfl | rfl <;> exact ⟨_,_,rfl,by decide,by decide⟩

theorem escapeChar_other {escapes : Escapes} {c : Char} (other : ∀ e ∈ escapes,c ≠ e.1) : escapeChar escapes c = [c] := by
  have none : escapes.lookup c = none := List.lookup_eq_none_iff.mpr fun e member => by simpa using other e member
  rw [escapeChar,none,Option.getD_none]

/-- The characters that are escaped, and the others. -/
theorem escapeChar_cases (c : Char) : c = '%' ∨ c = '\r' ∨ c = '\n' ∨ c = ':' ∨ c = ',' ∨
    (c ≠ '%' ∧ c ≠ '\r' ∧ c ≠ '\n' ∧ c ≠ ':' ∧ c ≠ ',' ∧ escapeChar ghaEscapes c = [c]) := by
  by_cases special : c = '%' ∨ c = '\r' ∨ c = '\n' ∨ c = ':' ∨ c = ','
  · tauto
  · push Not at special
    obtain ⟨percent,return_,feed,colon,comma⟩ := special
    have plain : escapeChar ghaEscapes c = [c] := escapeChar_other (by simp [ghaEscapes,percent,return_,feed,colon,comma])
    tauto

theorem unescape_gha (c : Char) (rest : List Char) :
    unescape ghaEscapes (escapeChar ghaEscapes c ++ rest) = c :: unescape ghaEscapes rest := by
  rcases escapeChar_cases c with rfl | rfl | rfl | rfl | rfl | ⟨percent,-,-,-,-,plain⟩
  · rfl
  · rfl
  · rfl
  · rfl
  · rfl
  · rw [plain,List.singleton_append,unescape_plain ghaEscapes_coded percent]

theorem unescape_escape (text : List Char) : unescape ghaEscapes (escape ghaEscapes text) = text := by
  induction text with
  | nil => rfl
  | cons c rest ih =>
    rw [escape,List.flatMap_cons,unescape_gha]
    exact congrArg (c :: ·) ih

theorem keepCodes_cons {c : Char} (colon : c ≠ ':') (comma : c ≠ ',') (rest : List Char) : keepCodes (c :: rest) = c :: keepCodes rest := by
  have plain : escapeChar [(':',['%','3','A']),(',',['%','2','C'])] c = [c] := escapeChar_other (by simp [colon,comma])
  rw [keepCodes,escape,List.flatMap_cons,plain]
  rfl

/-- By the codes of a message the colons and commas stay escaped. -/
theorem unescape_data (text : List Char) : unescape dataEscapes (escape ghaEscapes text) = keepCodes text := by
  have digits {a b : Char} (rest : List Char) (first : a ≠ '%') (second : b ≠ '%')
      (unknown : dataEscapes.find? (fun e => e.2 = ['%',a,b]) = none) :
      unescape dataEscapes ('%' :: a :: b :: rest) = '%' :: a :: b :: unescape dataEscapes rest := by
    rw [unescape,unknown]
    dsimp only
    rw [unescape_plain dataEscapes_coded first,unescape_plain dataEscapes_coded second]
  induction text with
  | nil => rfl
  | cons c rest ih =>
    have split : escape ghaEscapes (c :: rest) = escapeChar ghaEscapes c ++ escape ghaEscapes rest := List.flatMap_cons
    rw [split]
    rcases escapeChar_cases c with rfl | rfl | rfl | rfl | rfl | ⟨percent,-,-,colon,comma,plain⟩
    · rw [keepCodes_cons (by decide) (by decide),← ih]
      rfl
    · rw [keepCodes_cons (by decide) (by decide),← ih]
      rfl
    · rw [keepCodes_cons (by decide) (by decide),← ih]
      rfl
    · have code : escapeChar ghaEscapes ':' = ['%','3','A'] := rfl
      rw [code]
      exact (digits _ (by decide) (by decide) rfl).trans (congrArg (['%','3','A'] ++ ·) ih)
    · have code : escapeChar ghaEscapes ',' = ['%','2','C'] := rfl
      rw [code]
      exact (digits _ (by decide) (by decide) rfl).trans (congrArg (['%','2','C'] ++ ·) ih)
    · rw [plain,List.singleton_append,unescape_plain dataEscapes_coded percent,keepCodes_cons colon comma,ih]

/-- An escaped text has none of the characters that end a property, a header or a line. -/
theorem escape_free {text : List Char} {c : Char} (member : c ∈ escape ghaEscapes text) : c ≠ '\n' ∧ c ≠ ':' ∧ c ≠ ',' := by
  have codes : ∀ d ∈ ['%','\r','\n',':',','],∀ c ∈ escapeChar ghaEscapes d,c ≠ '\n' ∧ c ≠ ':' ∧ c ≠ ',' := by
    have all : (['%','\r','\n',':',','].all fun d => (escapeChar ghaEscapes d).all fun c => c ≠ '\n' ∧ c ≠ ':' ∧ c ≠ ',') = true := by
      decide
    intro d listed c inside
    exact of_decide_eq_true (List.all_eq_true.mp (List.all_eq_true.mp all d listed) c inside)
  obtain ⟨d,-,inside⟩ := List.mem_flatMap.mp member
  rcases escapeChar_cases d with rfl | rfl | rfl | rfl | rfl | ⟨-,-,feed,colon,comma,plain⟩
  · exact codes _ (by decide) c inside
  · exact codes _ (by decide) c inside
  · exact codes _ (by decide) c inside
  · exact codes _ (by decide) c inside
  · exact codes _ (by decide) c inside
  · rw [plain,List.mem_singleton] at inside
    subst inside
    exact ⟨feed,colon,comma⟩

/-! ### Where the header ends -/

section
variable {c : Char} {left right : List Char}

/-- A doubled character is not across the end of a part without it. -/
theorem doubled_left (doubled : [c,c] <:+: left ++ right) (free : c ∉ right) : [c,c] <:+: left := by
  obtain ⟨before,after,whole⟩ := doubled
  rcases List.append_eq_append_iff.mp whole with ⟨inner,rfl,-⟩ | ⟨inner,cut,rfl⟩
  · exact ⟨before,inner,rfl⟩
  · rcases List.eq_nil_or_concat inner with rfl | ⟨most,last,rfl⟩
    · exact ⟨before,[],by rw [List.append_nil,cut,List.append_nil]⟩
    · have ends : last = c := by
        have same := congrArg List.getLast? cut
        simpa using same.symm
      exact absurd (by simp [ends]) free

theorem doubled_right (doubled : [c,c] <:+: left ++ right) (free : c ∉ left) : [c,c] <:+: right := by
  obtain ⟨before,after,whole⟩ := doubled
  rw [List.append_assoc] at whole
  rcases List.append_eq_append_iff.mp whole with ⟨inner,rfl,cut⟩ | ⟨inner,rfl,cut⟩
  · cases inner with
    | nil => exact ⟨[],after,by rw [List.nil_append,cut,List.nil_append]⟩
    | cons first inner =>
      have starts : c = first := (List.cons.inj cut).1
      exact absurd (by simp [starts]) free
  · exact ⟨inner,after,by rw [List.append_assoc,← cut]⟩

theorem doubled_concat (doubled : [c,c] <:+: left ++ [c]) (other : left.getLast? ≠ some c) : [c,c] <:+: left := by
  obtain ⟨before,after,whole⟩ := doubled
  rcases List.eq_nil_or_concat after with rfl | ⟨most,last,rfl⟩
  · have ends : left = before ++ [c] := by
      have same : before ++ [c] ++ [c] = left ++ [c] := by simpa using whole
      exact (List.append_cancel_right same).symm
    exact absurd (by simp [ends]) other
  · rw [List.concat_eq_append,← List.append_assoc] at whole
    exact ⟨before,most,(List.append_inj' whole rfl).1⟩

end

/-! ### A line -/

/-- A file name that the header can carry as it is. -/
structure PlainFile (file : String) : Prop where
  single : '\n' ∉ file.toList
  comma : ',' ∉ file.toList
  header : ¬ [':',':'] <:+: file.toList
  codes : ∀ e ∈ ghaEscapes,¬ e.2 <:+: file.toList

def fileProperty (file : String) : List Char := "file".toList ++ '=' :: file.toList

/-- The properties after the file name. -/
def positionProperties (f : Finding) : List Char :=
  "line".toList ++ '=' :: decimal (positionFor f).1 ++ ',' :: ("col".toList ++ '=' :: decimal (positionFor f).2 ++ ',' ::
    ("title".toList ++ '=' :: encodeGHA (titleOf f)))

def headerOf (file : String) (f : Finding) : List Char :=
  (levelOf f).toList ++ ' ' :: (fileProperty file ++ ',' :: positionProperties f)

def lineOf (file : String) (f : Finding) : List Char := [':',':'] ++ (headerOf file f ++ [':',':'] ++ encodeGHA f.message)

theorem githubLine_eq (file : String) (f : Finding) : githubLine file f = lineOf file f ++ ['\n'] := by
  have opening : "::".toList = [':',':'] := rfl
  have fileName : " file=".toList = ' ' :: ("file".toList ++ ['=']) := rfl
  have line : ",line=".toList = ',' :: ("line".toList ++ ['=']) := rfl
  have col : ",col=".toList = ',' :: ("col".toList ++ ['=']) := rfl
  have title : ",title=".toList = ',' :: ("title".toList ++ ['=']) := rfl
  have feed : "\n".toList = ['\n'] := rfl
  unfold githubLine lineOf headerOf fileProperty positionProperties
  rw [opening,fileName,line,col,title,feed]
  generalize "file".toList = fileName
  generalize "line".toList = line
  generalize "col".toList = col
  generalize "title".toList = title
  simp only [List.append_assoc,List.cons_append,List.nil_append]

theorem decimal_free {n : Int} {c : Char} (other : decimalChar c = false) : c ∉ decimal n :=
  fun member => Bool.false_ne_true (other.symm.trans (decimal_chars n c member))

theorem levelOf_mem (f : Finding) : levelOf f ∈ ["error","warning","notice"] := by
  unfold levelOf
  split_ifs <;> decide

theorem levelOf_free (f : Finding) : ∀ c ∈ (levelOf f).toList,c ≠ ' ' ∧ c ≠ ':' ∧ c ≠ '\n' := by
  have levels : (["error","warning","notice"].all fun level => level.toList.all fun c => c ≠ ' ' ∧ c ≠ ':' ∧ c ≠ '\n') = true := by
    decide
  intro c inside
  exact of_decide_eq_true (List.all_eq_true.mp (List.all_eq_true.mp levels _ (levelOf_mem f)) c inside)

def propertyOf (name : String) (value : List Char) : List Char := name.toList ++ '=' :: value

theorem positionProperties_eq (f : Finding) : positionProperties f = propertyOf "line" (decimal (positionFor f).1) ++ ',' ::
    (propertyOf "col" (decimal (positionFor f).2) ++ ',' :: propertyOf "title" (encodeGHA (titleOf f))) := by
  unfold positionProperties propertyOf
  simp only [List.append_assoc,List.cons_append]

theorem propertyOf_free {name : String} {value : List Char} {c : Char} (named : c ∉ name.toList) (equals : c ≠ '=')
    (free : c ∉ value) : c ∉ propertyOf name value := by
  rw [propertyOf,List.mem_append,List.mem_cons]
  rintro (inside | inside | inside)
  · exact named inside
  · exact equals inside
  · exact free inside

theorem positionProperties_free (f : Finding) {c : Char} (special : c = '\n' ∨ c = ':') : c ∉ positionProperties f := by
  have title : c ∉ encodeGHA (titleOf f) := by
    intro member
    rcases special with rfl | rfl
    · exact (escape_free member).1 rfl
    · exact (escape_free member).2.1 rfl
  have number (n : Int) : c ∉ decimal n := decimal_free (by rcases special with rfl | rfl <;> rfl)
  have names : c ∉ "line".toList ∧ c ∉ "col".toList ∧ c ∉ "title".toList ∧ c ≠ '=' ∧ c ≠ ',' := by
    rcases special with rfl | rfl <;> decide
  obtain ⟨line,col,titled,equals,comma⟩ := names
  rw [positionProperties_eq]
  simp only [List.mem_append,List.mem_cons,not_or]
  exact ⟨propertyOf_free line equals (number _),comma,propertyOf_free col equals (number _),comma,
    propertyOf_free titled equals title⟩

theorem decodeProperty_propertyOf {name : String} (value : List Char) (plain : '=' ∉ name.toList) :
    decodeProperty (propertyOf name value) = some (name.toList,unescape ghaEscapes value) := by
  rw [decodeProperty,propertyOf,splitOnce_single.mpr ⟨rfl,plain⟩]
  rfl

theorem unescape_decimal (n : Int) : unescape ghaEscapes (decimal n) = decimal n := by
  refine unescape_free _ fun e member inside => ?_
  obtain ⟨b,c,code,-,-⟩ := ghaEscapes_coded e member
  have percent : '%' ∈ decimal n := inside.subset (by rw [code]; exact List.mem_cons_self)
  exact decimal_free rfl percent

/-- The pieces of the header are the properties shown. -/
theorem properties_decoded {file : String} (plain : PlainFile file) (f : Finding) :
    ((fileProperty file ++ ',' :: positionProperties f).splitOn ',').mapM decodeProperty = some (shown file f).properties := by
  have title : ',' ∉ encodeGHA (titleOf f) := fun member => (escape_free member).2.2 rfl
  have pieces : (fileProperty file ++ ',' :: positionProperties f).splitOn ',' =
      [propertyOf "file" file.toList,propertyOf "line" (decimal (positionFor f).1),propertyOf "col" (decimal (positionFor f).2),
        propertyOf "title" (encodeGHA (titleOf f))] := by
    rw [positionProperties_eq,show fileProperty file = propertyOf "file" file.toList from rfl,
      List.splitOn_append_cons_self_of_not_mem (propertyOf_free (by decide) (by decide) plain.comma),
      List.splitOn_append_cons_self_of_not_mem (propertyOf_free (by decide) (by decide) (decimal_free rfl)),
      List.splitOn_append_cons_self_of_not_mem (propertyOf_free (by decide) (by decide) (decimal_free rfl)),
      List.splitOn_eq_singleton (propertyOf_free (by decide) (by decide) title)]
  rw [pieces]
  simp only [List.mapM_cons,List.mapM_nil,decodeProperty_propertyOf _ (show '=' ∉ "file".toList by decide),
    decodeProperty_propertyOf _ (show '=' ∉ "line".toList by decide),decodeProperty_propertyOf _ (show '=' ∉ "col".toList by decide),
    decodeProperty_propertyOf _ (show '=' ∉ "title".toList by decide)]
  rw [unescape_free _ plain.codes,unescape_decimal,unescape_decimal,encodeGHA,unescape_escape]
  rfl

theorem header_single {file : String} (plain : PlainFile file) (f : Finding) : ¬ [':',':'] <:+: headerOf file f ++ [':'] := by
  have regroup : headerOf file f = ((levelOf f).toList ++ " file=".toList) ++ (file.toList ++ ',' :: positionProperties f) := by
    have fileName : " file=".toList = ' ' :: ("file".toList ++ ['=']) := rfl
    rw [headerOf,fileProperty,fileName]
    generalize "file".toList = fileName
    simp only [List.append_assoc,List.cons_append,List.nil_append]
  have free : ':' ∉ ',' :: positionProperties f := by
    rw [List.mem_cons,not_or]
    exact ⟨by decide,positionProperties_free f (Or.inr rfl)⟩
  have front : ':' ∉ (levelOf f).toList ++ " file=".toList := by
    rw [List.mem_append,not_or]
    exact ⟨fun member => (levelOf_free f _ member).2.1 rfl,by decide⟩
  intro doubled
  have last : (headerOf file f).getLast? ≠ some ':' := by
    rw [regroup,← List.append_assoc,List.getLast?_append_of_ne_nil _ (List.cons_ne_nil _ _)]
    exact fun ends => free (List.mem_of_getLast? ends)
  have header := doubled_concat doubled last
  rw [regroup] at header
  exact plain.header (doubled_left (doubled_right header front) free)

theorem decodeCommand_lineOf {file : String} (plain : PlainFile file) (messageEscapes : Escapes) (f : Finding) :
    decodeCommand messageEscapes (lineOf file f) =
      some { shown file f with message := unescape messageEscapes (encodeGHA f.message) } := by
  have opening : stripPrefix [':',':'] (lineOf file f) = some _ := stripPrefix_some.mpr rfl
  have header : splitOnce [':',':'] (headerOf file f ++ [':',':'] ++ encodeGHA f.message) =
      some (headerOf file f,encodeGHA f.message) := splitOnce_append (by simp) _ (header_single plain f)
  have level : splitOnce [' '] (headerOf file f) = some ((levelOf f).toList,fileProperty file ++ ',' :: positionProperties f) :=
    splitOnce_single.mpr ⟨rfl,fun member => (levelOf_free f _ member).1 rfl⟩
  rw [decodeCommand,opening]
  dsimp only [Option.bind_eq_bind,Option.bind_some]
  rw [header]
  dsimp only [Option.bind_some]
  rw [level]
  dsimp only [Option.bind_some]
  rw [properties_decoded plain]
  rfl

theorem lineOf_single {file : String} (plain : PlainFile file) (f : Finding) : '\n' ∉ lineOf file f := by
  have front : '\n' ∉ fileProperty file := propertyOf_free (by decide) (by decide) plain.single
  unfold lineOf headerOf
  simp only [List.mem_append,List.mem_cons,List.not_mem_nil,not_or,or_false]
  exact ⟨by decide,⟨⟨⟨fun member => (levelOf_free f _ member).2.2 rfl,by decide,front,by decide,
    positionProperties_free f (Or.inl rfl)⟩,by decide⟩,fun member => (escape_free member).1 rfl⟩⟩

/-- Every finding has a line of its own. -/
theorem linesOf_renderGitHub {file : String} (plain : PlainFile file) (findings : List Finding) :
    linesOf (renderGitHub file findings) = findings.map (lineOf file) := by
  have pieces : (renderGitHub file findings).splitOn '\n' = findings.map (lineOf file) ++ [[]] := by
    induction findings with
    | nil => rfl
    | cons f rest ih =>
      have first : renderGitHub file (f :: rest) = lineOf file f ++ '\n' :: renderGitHub file rest := by
        rw [renderGitHub,List.flatMap_cons,githubLine_eq,List.append_assoc]
        rfl
      rw [first,List.splitOn_append_cons_self_of_not_mem (lineOf_single plain f),ih]
      rfl
  rw [linesOf,pieces,List.dropLast_concat]

/-- A runner reads each finding in a line of its own; the message comes back whole by the
    codes of the properties, and by those of a message with its colons and commas escaped. -/
theorem renderGitHub_decoded {file : String} (plain : PlainFile file) (findings : List Finding) :
    (linesOf (renderGitHub file findings)).length = findings.length ∧
    (linesOf (renderGitHub file findings)).map (decodeCommand ghaEscapes) = findings.map (fun f => some (shown file f)) ∧
    (linesOf (renderGitHub file findings)).map (decodeCommand dataEscapes) =
      findings.map (fun f => some { shown file f with message := keepCodes f.message.toList }) := by
  rw [linesOf_renderGitHub plain,List.length_map,List.map_map,List.map_map]
  refine ⟨rfl,List.map_congr_left fun f _ => ?_,List.map_congr_left fun f _ => ?_⟩
  · exact (decodeCommand_lineOf plain ghaEscapes f).trans (by rw [encodeGHA,unescape_escape]; rfl)
  · exact (decodeCommand_lineOf plain dataEscapes f).trans (by rw [encodeGHA,unescape_data])

def specials : Finding := ⟨"AEGIS001",severityError,"x","value, has commas: and colons","",0,0⟩

theorem plain_manifest : PlainFile "m.yaml" := by
  refine ⟨by decide,by decide,?_,?_⟩
  · intro inside
    exact absurd (inside.subset List.mem_cons_self) (by decide : ':' ∉ "m.yaml".toList)
  · intro e member inside
    obtain ⟨b,c,code,-,-⟩ := ghaEscapes_coded e member
    exact absurd (inside.subset (by rw [code]; exact List.mem_cons_self)) (by decide : '%' ∉ "m.yaml".toList)

theorem renderGitHub_decoded_specials : (linesOf (renderGitHub "m.yaml" [specials])).map (decodeCommand ghaEscapes) =
    [some ⟨"error".toList,[("file".toList,"m.yaml".toList),("line".toList,['1']),("col".toList,['1']),
      ("title".toList,"AEGIS001 x".toList)],"value, has commas: and colons".toList⟩] :=
  (renderGitHub_decoded plain_manifest [specials]).2.1.trans (by decide)

/-- By the codes of a message its commas and colons do not come back. -/
theorem message_kept : ¬ ∀ file findings,(linesOf (renderGitHub file findings)).map (decodeCommand dataEscapes) =
    findings.map (fun f => some (shown file f)) := by
  intro all
  have read := all "m.yaml" [specials]
  rw [linesOf_renderGitHub plain_manifest,List.map_singleton,List.map_singleton,List.map_singleton,
    decodeCommand_lineOf plain_manifest,encodeGHA,unescape_data] at read
  have same := congrArg Command.message (Option.some.inj (List.singleton_inj.mp read))
  exact absurd same (by decide)

end AegisNode.Format
