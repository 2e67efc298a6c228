import AegisNode.Json
import AegisNode.Text
import AegisNode.Bytes

/-!
A serializer and a parser of compact JSON text and their round trip: a `Serde`
that is faithful. Integers, strings, arrays and objects are written as
`serde_json` writes them; a float is written as its bits with the exponent `e0`.
-/
namespace AegisNode.JsonText
open Json Text Bytes

/-! ### Strings -/

/-- What a character becomes inside quotes. -/
def escape (c : Char) : List Char :=
  if c = '"' ∨ c = '\\' then ['\\',c]
  else if c = '\n' then ['\\','n']
  else if c = '\r' then ['\\','r']
  else if c = '\t' then ['\\','t']
  else if c.toNat = 8 then ['\\','b']
  else if c.toNat = 12 then ['\\','f']
  else if c.toNat < 32 then ['\\','u','0','0',hexDigit (c.toNat/16),hexDigit (c.toNat%16)]
  else [c]

/-- The character that an escape of two characters stands for. -/
def unescape (kind : Char) : Option Char :=
  if kind = '"' ∨ kind = '\\' ∨ kind = '/' then some kind
  else if kind = 'n' then some '\n'
  else if kind = 'r' then some '\r'
  else if kind = 't' then some '\t'
  else if kind = 'b' then some (Char.ofNat 8)
  else if kind = 'f' then some (Char.ofNat 12)
  else none

/-- The character of a `u` escape. -/
def unicode (a b high low : Char) : Option Char :=
  match hexValue a,hexValue b,hexValue high,hexValue low with
  | some a,some b,some high,some low => some (Char.ofNat (((a*16+b)*16+high)*16+low))
  | _,_,_,_ => none

/-- The characters up to the closing quote, and what follows it. -/
def readString : List Char → Option (List Char × List Char)
  | [] => none
  | '"' :: rest => some ([],rest)
  | '\\' :: 'u' :: a :: b :: high :: low :: rest =>
    (unicode a b high low).bind (fun c => (readString rest).map (fun text => (c :: text.1,text.2)))
  | '\\' :: kind :: rest => (unescape kind).bind (fun c => (readString rest).map (fun text => (c :: text.1,text.2)))
  | c :: rest => if c = '\\' ∨ c.toNat < 32 then none else (readString rest).map (fun text => (c :: text.1,text.2))

def quoted (s : String) : List Char := '"' :: s.toList.flatMap escape ++ ['"']

theorem readString_simple {kind c : Char} (known : unescape kind = some c) (rest : List Char) :
    readString ('\\' :: kind :: rest) = (readString rest).map (fun text => (c :: text.1,text.2)) := by
  have notU : kind ≠ 'u' := by
    rintro rfl
    have unknown : unescape 'u' = none := by decide
    rw [unknown] at known
    cases known
  rw [readString,known,Option.bind_some]
  intro a b high low tail same
  exact absurd same notU

theorem readString_unicode {a b high low c : Char} (known : unicode a b high low = some c) (rest : List Char) :
    readString ('\\' :: 'u' :: a :: b :: high :: low :: rest) =
      (readString rest).map (fun text => (c :: text.1,text.2)) := by
  rw [readString,known,Option.bind_some]

theorem readString_plain {c : Char} (notQuote : c ≠ '"') (notSlash : c ≠ '\\') (printable : 32 ≤ c.toNat)
    (rest : List Char) :
    readString (c :: rest) = (readString rest).map (fun text => (c :: text.1,text.2)) := by
  rw [readString.eq_def]
  split <;> simp_all

theorem unicode_low {c : Char} (low : c.toNat < 32) :
    unicode '0' '0' (hexDigit (c.toNat/16)) (hexDigit (c.toNat%16)) = some c := by
  have zero : hexValue '0' = some 0 := by decide
  have whole : ((0*16+0)*16+c.toNat/16)*16+c.toNat%16 = c.toNat := by omega
  simp only [unicode,zero,hexValue_hexDigit (c.toNat/16) (by omega),hexValue_hexDigit (c.toNat%16) (by omega)]
  rw [whole,Char.ofNat_toNat]

theorem readString_escape (c : Char) (rest : List Char) :
    readString (escape c ++ rest) = (readString rest).map (fun text => (c :: text.1,text.2)) := by
  unfold escape
  split_ifs with quote feed carriage tab back form low
  · rcases quote with rfl | rfl <;> exact readString_simple (by decide) rest
  · subst feed
    exact readString_simple (by decide) rest
  · subst carriage
    exact readString_simple (by decide) rest
  · subst tab
    exact readString_simple (by decide) rest
  · obtain rfl : c = Char.ofNat 8 := by rw [← back,Char.ofNat_toNat]
    exact readString_simple (by decide) rest
  · obtain rfl : c = Char.ofNat 12 := by rw [← form,Char.ofNat_toNat]
    exact readString_simple (by decide) rest
  · exact readString_unicode (unicode_low low) rest
  · exact readString_plain (fun same => quote (.inl same)) (fun same => quote (.inr same)) (by omega) rest

theorem readString_quoted (text rest : List Char) :
    readString (text.flatMap escape ++ '"' :: rest) = some (text,rest) := by
  induction text with
  | nil => simp [readString]
  | cons c text ih => rw [List.flatMap_cons,List.append_assoc,readString_escape,ih,Option.map_some]

/-! ### Numbers -/

def writeNumber : Number → List Char
  | .PosInt n => Nat.toDigits 10 n.toNat
  | .NegInt n _ => '-' :: Nat.toDigits 10 n.natAbs
  | .Float bits _ => Nat.toDigits 10 bits.toNat ++ ['e','0']

def isDigit (c : Char) : Bool := (digit? c).isSome

/-- An integer within 64 bits, if there is one of this sign and size. -/
def integer (negative : Bool) (size : Nat) : Option Number :=
  if negative then
    if range : -2^63 ≤ -(size : Int) ∧ -(size : Int) < 0 then some (.NegInt (-size) range) else none
  else if size < 2^64 then some (.PosInt (UInt64.ofNat size)) else none

def float (bits : Nat) : Option Number :=
  if finite : finiteBits (UInt64.ofNat bits) then some (.Float (UInt64.ofNat bits) finite) else none

def readNumber (negative : Bool) (text : List Char) : Option (Number × List Char) :=
  (decimal? (text.takeWhile isDigit)).bind (fun size =>
    match text.dropWhile isDigit with
    | 'e' :: '0' :: rest => (float size).map (fun n => (n,rest))
    | rest => (integer negative size).map (fun n => (n,rest)))

/-- A text that does not go on with a number. -/
def Stops (rest : List Char) : Prop := ∀ c,rest.head? = some c → isDigit c = false ∧ c ≠ 'e'

theorem digit?_digitChar : ∀ d < 10,digit? d.digitChar = some d := by decide

theorem digitsFrom_append (value : Nat) (left right : List Char) :
    digitsFrom value (left ++ right) = (digitsFrom value left).bind (fun value => digitsFrom value right) := by
  induction left generalizing value with
  | nil => rfl
  | cons c left ih =>
    rw [List.cons_append,digitsFrom,digitsFrom]
    cases digit? c with
    | none => rfl
    | some d => exact ih _

theorem digitsFrom_toDigits (n : Nat) : digitsFrom 0 (Nat.toDigits 10 n) = some n := by
  induction n using Nat.strongRecOn with
  | ind n ih =>
    rw [Nat.toDigits_eq_if (by decide)]
    split_ifs with small
    · simp [digitsFrom,digit?_digitChar n small]
    · rw [digitsFrom_append,ih (n/10) (by omega),Option.bind_some]
      simp only [digitsFrom,digit?_digitChar (n%10) (by omega),Option.bind_some,Option.some.injEq]
      omega

theorem decimal?_toDigits (n : Nat) : decimal? (Nat.toDigits 10 n) = some n := by
  rw [decimal?,if_neg Nat.toDigits_ne_nil,digitsFrom_toDigits]

theorem isDigit_toDigits (n : Nat) : ∀ c ∈ Nat.toDigits 10 n,isDigit c := by
  intro c member
  have digit := Nat.isDigit_of_mem_toDigits (by decide) (by decide) member
  simp only [Char.isDigit,Bool.and_eq_true,decide_eq_true_eq] at digit
  simp only [isDigit,digit?]
  rw [if_pos (by exact ⟨digit.1,digit.2⟩)]
  rfl

/-- The digits before a text that stops them are read as one run. -/
theorem takeDigits {digits rest : List Char} (all : ∀ c ∈ digits,isDigit c)
    (stops : ∀ c,rest.head? = some c → isDigit c = false) :
    (digits ++ rest).takeWhile isDigit = digits ∧ (digits ++ rest).dropWhile isDigit = rest := by
  induction digits with
  | nil =>
    cases rest with
    | nil => exact ⟨rfl,rfl⟩
    | cons c rest => simp [stops c rfl]
  | cons c digits ih =>
    have first := all c List.mem_cons_self
    have later := ih (fun other member => all other (List.mem_cons_of_mem _ member))
    simp [first,later]

theorem readNumber_integer {rest : List Char} (stops : Stops rest) (negative : Bool) (size : Nat) :
    readNumber negative (Nat.toDigits 10 size ++ rest) = (integer negative size).map (fun n => (n,rest)) := by
  obtain ⟨front,back⟩ := takeDigits (isDigit_toDigits size) (fun c first => (stops c first).1)
  rw [readNumber,front,back,decimal?_toDigits,Option.bind_some]
  split
  · exact absurd rfl (stops 'e' rfl).2
  · rfl

theorem readNumber_posInt (n : UInt64) {rest : List Char} (stops : Stops rest) :
    readNumber false (Nat.toDigits 10 n.toNat ++ rest) = some (.PosInt n,rest) := by
  rw [readNumber_integer stops,integer]
  simp [n.toNat_lt]

theorem readNumber_negInt {n : Int} (range : -2^63 ≤ n ∧ n < 0) {rest : List Char} (stops : Stops rest) :
    readNumber true (Nat.toDigits 10 n.natAbs ++ rest) = some (.NegInt n range,rest) := by
  have size : -(n.natAbs : Int) = n := by omega
  simp only [readNumber_integer stops,integer,size,range,and_self,if_true,dite_true,Option.map_some]

theorem readNumber_float {bits : UInt64} (finite : finiteBits bits) (rest : List Char) :
    readNumber false (Nat.toDigits 10 bits.toNat ++ ['e','0'] ++ rest) = some (.Float bits finite,rest) := by
  have stop : ∀ c,('e' :: '0' :: rest).head? = some c → isDigit c = false := by
    intro c first
    obtain rfl := Option.some.inj first
    decide
  obtain ⟨front,back⟩ := takeDigits (isDigit_toDigits bits.toNat) stop
  have same : UInt64.ofNat bits.toNat = bits := by simp
  rw [List.append_assoc,readNumber]
  simp only [List.cons_append,List.nil_append,front,back,decimal?_toDigits,Option.bind_some,float,same,finite,dite_true,
    Option.map_some]

/-! ### Values -/

mutual
def write : Value → List Char
  | .Null => ['n','u','l','l']
  | .Bool true => ['t','r','u','e']
  | .Bool false => ['f','a','l','s','e']
  | .Number n => writeNumber n
  | .String s => quoted s
  | .Array [] => ['[',']']
  | .Array (item :: rest) => '[' :: write item ++ writeItems rest
  | .Object [] => ['\x7b','\x7d']
  | .Object ((key,value) :: rest) => '\x7b' :: quoted key ++ ':' :: write value ++ writeFields rest

/-- The items after the first one, and the closing bracket. -/
def writeItems : List Value → List Char
  | [] => [']']
  | item :: rest => ',' :: write item ++ writeItems rest

/-- The fields after the first one, and the closing brace. -/
def writeFields : List (String × Value) → List Char
  | [] => ['\x7d']
  | (key,value) :: rest => ',' :: quoted key ++ ':' :: write value ++ writeFields rest
end

/-- A key with its quotes and the colon. -/
def readKey (text : List Char) : Option (String × List Char) :=
  match text with
  | '"' :: rest =>
    match readString rest with
    | some (key,':' :: rest) => some (String.ofList key,rest)
    | _ => none
  | _ => none

mutual
/-- A value at the start of the text, and what follows it. `room` is how many
    arrays and objects may still be opened inside each other. -/
def read (fuel room : Nat) (text : List Char) : Option (Value × List Char) :=
  match fuel with
  | 0 => none
  | fuel+1 =>
    match text with
    | 'n' :: 'u' :: 'l' :: 'l' :: rest => some (.Null,rest)
    | 't' :: 'r' :: 'u' :: 'e' :: rest => some (.Bool true,rest)
    | 'f' :: 'a' :: 'l' :: 's' :: 'e' :: rest => some (.Bool false,rest)
    | '"' :: rest => (readString rest).map (fun found => (.String (String.ofList found.1),found.2))
    | '[' :: rest =>
      match room,rest with
      | 0,_ => none
      | _+1,']' :: rest => some (.Array [],rest)
      | room+1,rest =>
        (read fuel room rest).bind (fun first =>
          (readItems fuel room first.2).map (fun found => (.Array (first.1 :: found.1),found.2)))
    | '\x7b' :: rest =>
      match room,rest with
      | 0,_ => none
      | _+1,'\x7d' :: rest => some (.Object [],rest)
      | room+1,rest =>
        (readKey rest).bind (fun key =>
          (read fuel room key.2).bind (fun first =>
            (readFields fuel room first.2).map (fun found =>
              (.Object (Map.insertAll [] ((key.1,first.1) :: found.1)),found.2))))
    | '-' :: rest => (readNumber true rest).map (fun found => (.Number found.1,found.2))
    | rest => (readNumber false rest).map (fun found => (.Number found.1,found.2))

def readItems (fuel room : Nat) (text : List Char) : Option (List Value × List Char) :=
  match fuel with
  | 0 => none
  | fuel+1 =>
    match text with
    | ']' :: rest => some ([],rest)
    | ',' :: rest =>
      (read fuel room rest).bind (fun first =>
        (readItems fuel room first.2).map (fun found => (first.1 :: found.1,found.2)))
    | _ => none

def readFields (fuel room : Nat) (text : List Char) : Option (List (String × Value) × List Char) :=
  match fuel with
  | 0 => none
  | fuel+1 =>
    match text with
    | '\x7d' :: rest => some ([],rest)
    | ',' :: rest =>
      (readKey rest).bind (fun key =>
        (read fuel room key.2).bind (fun first =>
          (readFields fuel room first.2).map (fun found => ((key.1,first.1) :: found.1,found.2))))
    | _ => none
end

/-- The whole text is one value. -/
def readAll (text : String) : Except String Value :=
  match read (text.length+1) nestingLimit text.toList with
  | some (v,[]) => .ok v
  | _ => .error "invalid JSON"

@[reducible] def serde : Serde where
  toString v := String.ofList (write v)
  fromStr := readAll

/-! ### The round trip -/

/-- A value does not start like the end of an array. -/
theorem write_start (v : Value) : ∃ c rest,write v = c :: rest ∧ c ≠ ']' := by
  have digits : ∀ n,∃ c rest,Nat.toDigits 10 n = c :: rest ∧ c ≠ ']' := by
    intro n
    obtain ⟨c,rest,whole⟩ := List.exists_cons_of_ne_nil (Nat.toDigits_ne_nil (b := 10) (n := n))
    refine ⟨c,rest,whole,?_⟩
    rintro rfl
    have digit := isDigit_toDigits n ']' (by rw [whole]; exact List.mem_cons_self)
    exact absurd digit (by decide)
  cases v with
  | Null => exact ⟨_,_,by rw [write],by decide⟩
  | Bool b => cases b <;> exact ⟨_,_,by rw [write],by decide⟩
  | String s => exact ⟨_,_,by rw [write,quoted]; rfl,by decide⟩
  | Array items =>
    cases items with
    | nil => exact ⟨_,_,by rw [write],by decide⟩
    | cons item rest => exact ⟨_,_,by rw [write]; rfl,by decide⟩
  | Object fields =>
    rcases fields with _ | ⟨⟨key,value⟩,rest⟩
    · exact ⟨_,_,by rw [write],by decide⟩
    · exact ⟨_,_,by rw [write]; rfl,by decide⟩
  | Number n =>
    cases n with
    | PosInt n => rw [write,writeNumber]; exact digits n.toNat
    | NegInt n range => exact ⟨_,_,by rw [write,writeNumber],by decide⟩
    | Float bits finite =>
      obtain ⟨c,rest,whole,notEnd⟩ := digits bits.toNat
      exact ⟨c,rest ++ ['e','0'],by rw [write,writeNumber,whole]; rfl,notEnd⟩

theorem readKey_quoted (key : String) (rest : List Char) : readKey (quoted key ++ ':' :: rest) = some (key,rest) := by
  have text : quoted key ++ ':' :: rest = '"' :: (key.toList.flatMap escape ++ '"' :: ':' :: rest) := by simp [quoted]
  rw [text,readKey,readString_quoted]
  simp

/-- A text that starts with a digit is a number. -/
theorem read_digit {c : Char} (digit : isDigit c) (fuel room : Nat) (rest : List Char) :
    read (fuel+1) room (c :: rest) = (readNumber false (c :: rest)).map (fun found => (.Number found.1,found.2)) := by
  have other : ∀ {d},isDigit d = false → c ≠ d := by
    rintro d plain rfl
    rw [digit] at plain
    cases plain
  rw [read]
  all_goals
    intro tail same
    exact other (by decide) (List.cons.inj same).1

theorem stops_bracket (rest : List Char) : Stops (']' :: rest) := by
  intro c first
  obtain rfl := Option.some.inj first
  decide

theorem stops_brace (rest : List Char) : Stops ('\x7d' :: rest) := by
  intro c first
  obtain rfl := Option.some.inj first
  decide

theorem stops_comma (rest : List Char) : Stops (',' :: rest) := by
  intro c first
  obtain rfl := Option.some.inj first
  decide

theorem stops_items (items : List Value) (rest : List Char) : Stops (writeItems items ++ rest) := by
  cases items with
  | nil => rw [writeItems]; exact stops_bracket rest
  | cons item items => rw [writeItems]; exact stops_comma _

theorem stops_fields (fields : List (String × Value)) (rest : List Char) : Stops (writeFields fields ++ rest) := by
  match fields with
  | [] => rw [writeFields]; exact stops_brace rest
  | (key,value) :: fields => rw [writeFields]; exact stops_comma _

theorem read_number (n : Number) (fuel room : Nat) {rest : List Char} (stops : Stops rest) :
    read (fuel+1) room (writeNumber n ++ rest) = some (.Number n,rest) := by
  cases n with
  | PosInt n =>
    have number := readNumber_posInt n stops
    obtain ⟨c,tail,whole⟩ := List.exists_cons_of_ne_nil (Nat.toDigits_ne_nil (b := 10) (n := n.toNat))
    have digit := isDigit_toDigits n.toNat c (by rw [whole]; exact List.mem_cons_self)
    rw [whole] at number
    rw [writeNumber,whole,List.cons_append,read_digit digit,← List.cons_append,number,Option.map_some]
  | NegInt n range =>
    rw [writeNumber,List.cons_append,read,readNumber_negInt range stops,Option.map_some]
  | Float bits finite =>
    have number := readNumber_float finite rest
    obtain ⟨c,tail,whole⟩ := List.exists_cons_of_ne_nil (Nat.toDigits_ne_nil (b := 10) (n := bits.toNat))
    have digit := isDigit_toDigits bits.toNat c (by rw [whole]; exact List.mem_cons_self)
    rw [whole] at number
    rw [writeNumber,whole,List.cons_append,List.cons_append,read_digit digit,← List.cons_append,← List.cons_append,number,
      Option.map_some]

mutual
/-- Reading gives back the value that was written, and what follows it. -/
theorem read_write (v : Value) (fuel room : Nat) (rest : List Char) (enough : (write v).length ≤ fuel)
    (shallow : depth v ≤ room) (sorted : ordered v) (stops : Stops rest) : read fuel room (write v ++ rest) = some (v,rest) := by
  obtain ⟨fuel,rfl⟩ : ∃ n,fuel = n+1 := by
    obtain ⟨c,tail,whole,_⟩ := write_start v
    rw [whole,List.length_cons] at enough
    exact ⟨fuel-1,by omega⟩
  match v with
  | .Null => simp [write,read]
  | .Bool true => simp [write,read]
  | .Bool false => simp [write,read]
  | .Number n =>
    rw [write]
    exact read_number n fuel room stops
  | .String s =>
    have text : quoted s ++ rest = '"' :: (s.toList.flatMap escape ++ '"' :: rest) := by simp [quoted]
    rw [write,text,read,readString_quoted]
    simp
  | .Array [] =>
    obtain ⟨room,rfl⟩ : ∃ n,room = n+1 := ⟨room-1,by rw [depth] at shallow; omega⟩
    simp [write,read]
  | .Array (item :: items) =>
    rw [depth,itemsDepth] at shallow
    obtain ⟨room,rfl⟩ : ∃ n,room = n+1 := ⟨room-1,by omega⟩
    rw [write,List.cons_append,List.length_cons,List.length_append] at enough
    simp only [ordered,itemsOrdered,Bool.and_eq_true] at sorted
    have first := read_write item fuel room _ (by omega) (by omega) sorted.1 (stops_items items rest)
    have later := readItems_writeItems items fuel room rest (by omega) (by omega) sorted.2
    obtain ⟨c,tail,whole,notEnd⟩ := write_start item
    rw [write,List.cons_append,List.cons_append,List.append_assoc,read]
    · rw [first,Option.bind_some,later,Option.map_some]
    · intro other same
      rw [whole,List.cons_append] at same
      exact notEnd (List.cons.inj same).1
  | .Object [] =>
    obtain ⟨room,rfl⟩ : ∃ n,room = n+1 := ⟨room-1,by rw [depth] at shallow; omega⟩
    simp [write,read]
  | .Object ((key,value) :: fields) =>
    rw [depth,fieldsDepth] at shallow
    obtain ⟨room,rfl⟩ : ∃ n,room = n+1 := ⟨room-1,by omega⟩
    rw [write] at enough
    simp only [List.cons_append,List.length_cons,List.length_append] at enough
    have order : fieldsOrdered ((key,value) :: fields) := by simpa [ordered] using sorted
    have parts := order
    simp only [fieldsOrdered,Bool.and_eq_true] at parts
    have first := read_write value fuel room _ (by omega) (by simp at shallow; omega) parts.1.2 (stops_fields fields rest)
    have later := readFields_writeFields fields fuel room rest (by omega) (by omega) parts.2
    have map : Map.insertAll [] ((key,value) :: fields) = (key,value) :: fields := by
      rw [insertAll_ordered order (by simp),List.nil_append]
    have named := readKey_quoted key (write value ++ (writeFields fields ++ rest))
    rw [write]
    simp only [List.cons_append,List.append_assoc]
    rw [read]
    · rw [named,Option.bind_some,first,Option.bind_some,later,Option.map_some,map]
    · intro other same
      simp [quoted] at same

theorem readItems_writeItems (items : List Value) (fuel room : Nat) (rest : List Char)
    (enough : (writeItems items).length ≤ fuel) (shallow : itemsDepth items ≤ room) (sorted : itemsOrdered items) :
    readItems fuel room (writeItems items ++ rest) = some (items,rest) := by
  match items with
  | [] =>
    rw [writeItems] at *
    obtain ⟨fuel,rfl⟩ : ∃ n,fuel = n+1 := ⟨fuel-1,by simp at enough; omega⟩
    rw [List.singleton_append,readItems]
  | item :: items =>
    rw [itemsDepth] at shallow
    rw [writeItems,List.cons_append,List.length_cons,List.length_append] at enough
    obtain ⟨fuel,rfl⟩ : ∃ n,fuel = n+1 := ⟨fuel-1,by omega⟩
    simp only [itemsOrdered,Bool.and_eq_true] at sorted
    have first := read_write item fuel room _ (by omega) (by omega) sorted.1 (stops_items items rest)
    have later := readItems_writeItems items fuel room rest (by omega) (by omega) sorted.2
    rw [writeItems,List.cons_append,List.cons_append,List.append_assoc,readItems,first,Option.bind_some,later,
      Option.map_some]

theorem readFields_writeFields (fields : List (String × Value)) (fuel room : Nat) (rest : List Char)
    (enough : (writeFields fields).length ≤ fuel) (shallow : fieldsDepth fields ≤ room) (sorted : fieldsOrdered fields) :
    readFields fuel room (writeFields fields ++ rest) = some (fields,rest) := by
  match fields with
  | [] =>
    rw [writeFields] at *
    obtain ⟨fuel,rfl⟩ : ∃ n,fuel = n+1 := ⟨fuel-1,by simp at enough; omega⟩
    rw [List.singleton_append,readFields]
  | (key,value) :: fields =>
    rw [fieldsDepth] at shallow
    rw [writeFields] at enough
    simp only [List.cons_append,List.length_cons,List.length_append] at enough
    obtain ⟨fuel,rfl⟩ : ∃ n,fuel = n+1 := ⟨fuel-1,by omega⟩
    simp only [fieldsOrdered,Bool.and_eq_true] at sorted
    have first := read_write value fuel room _ (by omega) (by simp at shallow; omega) sorted.1.2
      (stops_fields fields rest)
    have later := readFields_writeFields fields fuel room rest (by omega) (by omega) sorted.2
    have named := readKey_quoted key (write value ++ (writeFields fields ++ rest))
    rw [writeFields]
    simp only [List.cons_append,List.append_assoc]
    rw [readFields,named,Option.bind_some,first,Option.bind_some,later,Option.map_some]
end

/-! ### One line -/

theorem escape_line (c : Char) : '\n' ∉ escape c := by
  unfold escape
  split_ifs with quote feed carriage tab back form low
  · rcases quote with rfl | rfl <;> decide
  · decide
  · decide
  · decide
  · decide
  · decide
  · have digit : ∀ n < 16,'\n' ≠ hexDigit n := by decide
    simp [digit (c.toNat/16) (by omega),digit (c.toNat%16) (by omega)]
  · intro member
    exact feed (List.mem_singleton.mp member).symm

theorem quoted_line (s : String) : '\n' ∉ quoted s := by
  simp [quoted,escape_line]

theorem toDigits_line (n : Nat) : '\n' ∉ Nat.toDigits 10 n := by
  intro member
  exact absurd (isDigit_toDigits n _ member) (by decide)

theorem writeNumber_line (n : Number) : '\n' ∉ writeNumber n := by
  cases n <;> simp [writeNumber,toDigits_line]

mutual
theorem write_line (v : Value) : '\n' ∉ write v := by
  match v with
  | .Null => simp [write]
  | .Bool true => simp [write]
  | .Bool false => simp [write]
  | .Number n => simpa [write] using writeNumber_line n
  | .String s => simpa [write] using quoted_line s
  | .Array [] => simp [write]
  | .Array (item :: items) => simp [write,write_line item,writeItems_line items]
  | .Object [] => simp [write]
  | .Object ((key,value) :: fields) => simp [write,quoted_line key,write_line value,writeFields_line fields]

theorem writeItems_line (items : List Value) : '\n' ∉ writeItems items := by
  match items with
  | [] => simp [writeItems]
  | item :: items => simp [writeItems,write_line item,writeItems_line items]

theorem writeFields_line (fields : List (String × Value)) : '\n' ∉ writeFields fields := by
  match fields with
  | [] => simp [writeFields]
  | (key,value) :: fields => simp [writeFields,quoted_line key,write_line value,writeFields_line fields]
end

theorem readAll_write (v : Value) (sorted : ordered v) (shallow : depth v ≤ nestingLimit) :
    readAll (String.ofList (write v)) = .ok v := by
  have stops : Stops [] := by
    intro c first
    cases first
  have text := read_write v ((write v).length+1) nestingLimit [] (by omega) shallow sorted stops
  rw [List.append_nil] at text
  rw [readAll,String.toList_ofList,String.length_ofList,text]

theorem serde_faithful : Faithful serde where
  readsBack := readAll_write
  oneLine v := by
    change '\n' ∉ (String.ofList (write v)).toList
    rw [String.toList_ofList]
    exact write_line v

end AegisNode.JsonText
