import Mathlib.Tactic

/-!
Files as lists of bytes: UTF-8, the lines a buffered reader hands out, and
hexadecimal text.
-/
namespace AegisNode.Bytes

/-! ### UTF-8 -/

def encode (text : String) : List UInt8 := text.toList.flatMap String.utf8EncodeChar

def decode (bytes : List UInt8) : Option String := bytes.toByteArray.utf8Decode?.map (fun chars => String.ofList chars.toList)

theorem decode_encode (text : String) : decode (encode text) = some text := by
  have whole : (encode text).toByteArray = text.toList.utf8Encode := rfl
  rw [decode,whole,List.utf8Decode?_utf8Encode]
  simp

theorem encode_injective {left right : String} (same : encode left = encode right) : left = right := by
  have decoded := decode_encode left
  rw [same,decode_encode] at decoded
  exact (Option.some.inj decoded).symm

/-- The byte that ends a line. -/
def lineFeed : UInt8 := 10

theorem lineFeed_mem_utf8EncodeChar {c : Char} : lineFeed ∈ String.utf8EncodeChar c ↔ c = '\n' := by
  constructor
  · intro member
    have value : c.val.toNat = 10 := by
      simp only [String.utf8EncodeChar,lineFeed] at member
      split_ifs at member <;> simp only [List.mem_cons,List.not_mem_nil,or_false,← UInt8.toNat_inj] at member <;>
        simp only [UInt8.toNat_ofNat',UInt8.reduceToNat] at member <;> omega
    exact Char.ext (UInt32.toNat_inj.mp value)
  · rintro rfl
    decide

theorem lineFeed_mem_encode {text : String} : lineFeed ∈ encode text ↔ '\n' ∈ text.toList := by
  simp only [encode,List.mem_flatMap,lineFeed_mem_utf8EncodeChar,exists_eq_right]

/-! ### Lines -/

/-- The lines `read_line` hands out until the end of the file, each without its
    line feed; bytes after the last line feed are a line of their own. -/
def rawLines (file : List UInt8) : List (List UInt8) :=
  let pieces := file.splitOn lineFeed
  if pieces.getLast? = some [] then pieces.dropLast else pieces

def terminated (lines : List (List UInt8)) : List UInt8 := lines.flatMap (· ++ [lineFeed])

theorem rawLines_terminated {lines : List (List UInt8)} (single : ∀ line ∈ lines,lineFeed ∉ line) :
    rawLines (terminated lines) = lines := by
  have pieces : (terminated lines).splitOn lineFeed = lines ++ [[]] := by
    induction lines with
    | nil => rfl
    | cons line rest ih =>
      have later := ih (fun other member => single other (List.mem_cons_of_mem _ member))
      have first : terminated (line :: rest) = line ++ lineFeed :: terminated rest := by
        simp [terminated]
      rw [first,List.splitOn_append_cons_self,List.splitOn_eq_singleton (single line List.mem_cons_self),later]
      rfl
  simp [rawLines,pieces]

theorem rawLines_single {line : List UInt8} (single : lineFeed ∉ line) (some : line ≠ []) : rawLines line = [line] := by
  rw [rawLines,List.splitOn_eq_singleton single]
  simpa using some

/-! ### Hexadecimal -/

def hexDigit (n : Nat) : Char := if n < 10 then Char.ofNat (48+n) else Char.ofNat (87+n)

/-- Both cases are read. -/
def hexValue (c : Char) : Option Nat :=
  if '0' ≤ c ∧ c ≤ '9' then some (c.toNat - 48)
  else if 'a' ≤ c ∧ c ≤ 'f' then some (c.toNat - 87)
  else if 'A' ≤ c ∧ c ≤ 'F' then some (c.toNat - 55)
  else none

/-- `hex::encode`. -/
def hexEncode (bytes : List UInt8) : String :=
  String.ofList (bytes.flatMap (fun b => [hexDigit (b.toNat/16),hexDigit (b.toNat%16)]))

def hexPairs : List Char → Option (List UInt8)
  | [] => some []
  | high :: low :: rest =>
    match hexValue high,hexValue low,hexPairs rest with
    | some h,some l,some bytes => some (UInt8.ofNat (16*h+l) :: bytes)
    | _,_,_ => none
  | [_] => none

/-- `hex::decode`. -/
def hexDecode (text : String) : Option (List UInt8) := hexPairs text.toList

theorem hexValue_hexDigit : ∀ n < 16,hexValue (hexDigit n) = some n := by decide

theorem hexDecode_hexEncode (bytes : List UInt8) : hexDecode (hexEncode bytes) = some bytes := by
  rw [hexDecode,hexEncode,String.toList_ofList]
  induction bytes with
  | nil => rfl
  | cons b rest ih =>
    have bound := b.toNat_lt
    have high := hexValue_hexDigit (b.toNat/16) (by omega)
    have low := hexValue_hexDigit (b.toNat%16) (by omega)
    have whole : 16*(b.toNat/16)+b.toNat%16 = b.toNat := by omega
    simp only [List.flatMap_cons,List.cons_append,List.nil_append,hexPairs,high,low,ih,whole]
    simp

theorem hexEncode_injective {left right : List UInt8} (same : hexEncode left = hexEncode right) : left = right := by
  have decoded := hexDecode_hexEncode left
  rw [same,hexDecode_hexEncode] at decoded
  exact (Option.some.inj decoded).symm

end AegisNode.Bytes
