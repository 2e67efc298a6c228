import Mathlib

/-!
The generic syntax of RFC 3986: the grammar of an authority, as languages of characters,
and the scheme and the authority of a reference.
-/
namespace AegisNode.Uri
open scoped Computability

/-! ### Languages of characters -/

/-- The words of one character of a kind. -/
def one (kind : Char → Bool) : Language Char := {word | ∃ c,kind c = true ∧ word = [c]}

/-- The only word is the given one. -/
def lit (text : String) : Language Char := {word | word = text.toList}

/-- All characters of all words are of a kind. -/
def Within (language : Language Char) (kind : Char → Bool) : Prop := ∀ word ∈ language,∀ c ∈ word,kind c = true

section
variable {l m : Language Char} {kind : Char → Bool}

theorem within_lit {text : String} (all : text.toList.all kind = true) : Within (lit text) kind := by
  intro word same c member
  cases (same : word = text.toList)
  exact List.all_eq_true.mp all c member

theorem within_empty : Within 1 kind := by
  intro word same c member
  rw [(Language.mem_one word).mp same] at member
  cases member

theorem Within.or (left : Within l kind) (right : Within m kind) : Within (l+m) kind := by
  intro word inside c member
  rcases (Language.mem_add l m word).mp inside with inside | inside
  · exact left word inside c member
  · exact right word inside c member

theorem Within.then (left : Within l kind) (right : Within m kind) : Within (l*m) kind := by
  intro word inside c member
  obtain ⟨front,first,back,second,rfl⟩ := Language.mem_mul.mp inside
  rcases List.mem_append.mp member with member | member
  · exact left front first c member
  · exact right back second c member

theorem Within.times (within : Within l kind) (n : Nat) : Within (l^n) kind := by
  induction n with
  | zero => exact within_empty
  | succ n ih => exact ih.then within

theorem Within.star (within : Within l kind) : Within l∗ kind := by
  intro word inside c member
  obtain ⟨pieces,rfl,all⟩ := Language.mem_kstar.mp inside
  obtain ⟨piece,listed,member⟩ := List.mem_flatten.mp member
  exact within piece (all piece listed) c member

theorem within_one {other : Char → Bool} (implies : ∀ c,other c = true → kind c = true) : Within (one other) kind := by
  rintro word ⟨c,holds,rfl⟩ d member
  rw [List.mem_singleton.mp member]
  exact implies c holds

theorem mem_one_star {word : List Char} : word ∈ (one kind)∗ ↔ ∀ c ∈ word,kind c = true := by
  constructor
  · exact fun inside => (within_one fun _ => id).star word inside
  · intro all
    refine Language.mem_kstar.mpr ⟨word.map fun c => [c],by simp [List.flatten_eq_flatMap,List.flatMap_map],?_⟩
    intro piece listed
    obtain ⟨c,member,rfl⟩ := List.mem_map.mp listed
    exact ⟨c,all c member,rfl⟩

end

/-! ### The grammar of an authority -/

def unreserved (c : Char) : Bool := c.isAlphanum || c = '-' || c = '.' || c = '_' || c = '~'

def subDelim (c : Char) : Bool := c ∈ ['!','$','&','\'','(',')','*','+',',',';','=']

def hexdig (c : Char) : Bool := c.isDigit || ('A' ≤ c && c ≤ 'F') || ('a' ≤ c && c ≤ 'f')

def pctEncoded : Language Char := lit "%" * one hexdig * one hexdig

/-- What stands before the `@`. -/
def userinfo : Language Char := (one unreserved + pctEncoded + one subDelim + lit ":")∗

def decOctet : Language Char :=
  one Char.isDigit + one (fun c => '1' ≤ c && c ≤ '9') * one Char.isDigit + lit "1" * one Char.isDigit^2 +
    lit "2" * one (fun c => '0' ≤ c && c ≤ '4') * one Char.isDigit + lit "25" * one (fun c => '0' ≤ c && c ≤ '5')

def ipv4Address : Language Char := decOctet * lit "." * decOctet * lit "." * decOctet * lit "." * decOctet

/-- Sixteen bits of an address, in hexadecimal. -/
def h16 : Language Char := one hexdig * (1 + one hexdig)^3

def ls32 : Language Char := h16 * lit ":" * h16 + ipv4Address

/-- One to `n+1` groups. -/
def groups (n : Nat) : Language Char := (1 + h16 * lit ":")^n * h16

def ipv6Address : Language Char :=
  (h16 * lit ":")^6 * ls32 + lit "::" * (h16 * lit ":")^5 * ls32 + (1 + groups 0) * lit "::" * (h16 * lit ":")^4 * ls32 +
    (1 + groups 1) * lit "::" * (h16 * lit ":")^3 * ls32 + (1 + groups 2) * lit "::" * (h16 * lit ":")^2 * ls32 +
    (1 + groups 3) * lit "::" * (h16 * lit ":") * ls32 + (1 + groups 4) * lit "::" * ls32 +
    (1 + groups 5) * lit "::" * h16 + (1 + groups 6) * lit "::"

def ipvFuture : Language Char :=
  one (fun c => c = 'v' || c = 'V') * one hexdig * (one hexdig)∗ * lit "." * one (fun c => unreserved c || subDelim c || c = ':') *
    (one fun c => unreserved c || subDelim c || c = ':')∗

/-- What stands between the brackets. -/
def ipAddress : Language Char := ipv6Address + ipvFuture

def ipLiteral : Language Char := lit "[" * ipAddress * lit "]"

def regName : Language Char := (one unreserved + pctEncoded + one subDelim)∗

def host : Language Char := ipLiteral + ipv4Address + regName

def port : Language Char := (one Char.isDigit)∗

/-! ### Its characters -/

def plain (c : Char) : Bool := unreserved c || subDelim c || c = '%'

def plainOrColon (c : Char) : Bool := plain c || c = ':'

theorem isDigit_hexdig {c : Char} (digit : c.isDigit = true) : hexdig c = true := by simp [hexdig,digit]

theorem hexdig_unreserved {c : Char} (hex : hexdig c = true) : unreserved c = true := by
  simp only [hexdig,Bool.or_eq_true,Bool.and_eq_true,decide_eq_true_eq,Char.le_def,UInt32.le_iff_toNat_le] at hex
  simp only [unreserved,Char.isAlphanum,Char.isAlpha,Char.isUpper,Char.isLower,Bool.or_eq_true,Bool.and_eq_true,decide_eq_true_eq,
    ge_iff_le,UInt32.le_iff_toNat_le]
  have bounds : ('A'.val.toNat = 65 ∧ 'F'.val.toNat = 70) ∧ 'a'.val.toNat = 97 ∧ 'f'.val.toNat = 102 := by decide
  rcases hex with (digit | upper) | lower
  · simp [digit]
  · refine .inl (.inl (.inl (.inl (.inl (.inl ⟨?_,?_⟩)))))
    · exact upper.1
    · exact le_trans upper.2 (by decide)
  · refine .inl (.inl (.inl (.inl (.inl (.inr ⟨?_,?_⟩)))))
    · exact lower.1
    · exact le_trans lower.2 (by decide)

theorem plain_of_unreserved {c : Char} (holds : unreserved c = true) : plain c = true := by simp [plain,holds]

theorem plain_of_subDelim {c : Char} (holds : subDelim c = true) : plain c = true := by simp [plain,holds]

theorem plain_of_hexdig {c : Char} (hex : hexdig c = true) : plain c = true := plain_of_unreserved (hexdig_unreserved hex)

theorem plain_of_isDigit {c : Char} (digit : c.isDigit = true) : plain c = true := plain_of_hexdig (isDigit_hexdig digit)

theorem plainOrColon_of_plain {c : Char} (holds : plain c = true) : plainOrColon c = true := by simp [plainOrColon,holds]

theorem Within.mono {l : Language Char} {kind other : Char → Bool} (within : Within l kind)
    (implies : ∀ c,kind c = true → other c = true) : Within l other :=
  fun word inside c member => implies c (within word inside c member)

theorem within_pctEncoded : Within pctEncoded plain :=
  ((within_lit (by decide)).then (within_one fun _ => plain_of_hexdig)).then (within_one fun _ => plain_of_hexdig)

theorem within_regName : Within regName plain :=
  (((within_one fun _ => plain_of_unreserved).or within_pctEncoded).or (within_one fun _ => plain_of_subDelim)).star

theorem within_userinfo : Within userinfo plainOrColon := by
  have plains := ((within_one fun _ => plain_of_unreserved).or within_pctEncoded).or (within_one fun _ => plain_of_subDelim)
  exact ((plains.mono fun _ => plainOrColon_of_plain).or (within_lit (by decide))).star

theorem within_range {low high : Char} (lowest : '0' ≤ low) (highest : high ≤ '9') :
    Within (one fun c => low ≤ c && c ≤ high) plain := by
  refine within_one (fun c range => plain_of_isDigit ?_)
  simp only [Bool.and_eq_true,decide_eq_true_eq] at range
  simp only [Char.isDigit,Bool.and_eq_true,decide_eq_true_eq]
  exact ⟨Char.le_trans lowest range.1,Char.le_trans range.2 highest⟩

theorem within_decOctet : Within decOctet plain := by
  have digit : Within (one Char.isDigit) plain := within_one fun _ => plain_of_isDigit
  have two := (within_range (by decide : '0' ≤ '1') (by decide : '9' ≤ '9')).then digit
  have hundreds := (within_lit (by decide : "1".toList.all plain = true)).then (digit.times 2)
  have low := ((within_lit (by decide : "2".toList.all plain = true)).then (within_range (by decide : '0' ≤ '0') (by decide : '4' ≤ '9'))).then digit
  have high := (within_lit (by decide : "25".toList.all plain = true)).then (within_range (by decide : '0' ≤ '0') (by decide : '5' ≤ '9'))
  exact (((digit.or two).or hundreds).or low).or high

theorem within_ipv4Address : Within ipv4Address plain := by
  have dot : Within (lit ".") plain := within_lit (by decide)
  exact (((((within_decOctet.then dot).then within_decOctet).then dot).then within_decOctet).then dot).then within_decOctet

theorem within_h16 : Within h16 plainOrColon := by
  have hex : Within (one hexdig) plainOrColon := within_one fun _ => plainOrColon_of_plain ∘ plain_of_hexdig
  exact hex.then ((within_empty.or hex).times 3)

theorem within_ipv6Address : Within ipv6Address plainOrColon := by
  have colon : Within (lit ":") plainOrColon := within_lit (by decide)
  have colons : Within (lit "::") plainOrColon := within_lit (by decide)
  have last : Within ls32 plainOrColon := ((within_h16.then colon).then within_h16).or (within_ipv4Address.mono fun _ => plainOrColon_of_plain)
  have group := within_h16.then colon
  have front := fun n => within_empty.or (((within_empty.or group).times n).then within_h16)
  have none := ((group.times 6).then last).or ((colons.then (group.times 5)).then last)
  have upToTwo := (none.or (((front 0).then colons).then (group.times 4) |>.then last)).or
    (((front 1).then colons).then (group.times 3) |>.then last)
  have upToFour := (upToTwo.or (((front 2).then colons).then (group.times 2) |>.then last)).or
    (((front 3).then colons).then group |>.then last)
  exact ((upToFour.or (((front 4).then colons).then last)).or (((front 5).then colons).then within_h16)).or ((front 6).then colons)

theorem within_ipvFuture : Within ipvFuture plainOrColon := by
  have hex : Within (one hexdig) plainOrColon := within_one fun _ => plainOrColon_of_plain ∘ plain_of_hexdig
  have version : Within (one fun c => c = 'v' || c = 'V') plainOrColon := by
    refine within_one (fun c is => ?_)
    simp only [Bool.or_eq_true,decide_eq_true_eq] at is
    rcases is with rfl | rfl <;> decide
  have tail : Within (one fun c => unreserved c || subDelim c || c = ':') plainOrColon := by
    refine within_one (fun c is => ?_)
    simp only [Bool.or_eq_true,decide_eq_true_eq] at is
    simp only [plainOrColon,plain,Bool.or_eq_true,decide_eq_true_eq]
    tauto
  exact ((((version.then hex).then hex.star).then (within_lit (by decide))).then tail).then tail.star

theorem within_ipAddress : Within ipAddress plainOrColon := within_ipv6Address.or within_ipvFuture

/-- A host is in brackets, or has none of the delimiters of an authority. -/
theorem host_cases {word : List Char} (formed : word ∈ host) :
    (∃ inner,word = '[' :: inner ++ [']'] ∧ ∀ c ∈ inner,plainOrColon c = true) ∨ ∀ c ∈ word,plain c = true := by
  rcases (Language.mem_add _ _ word).mp formed with address | name
  · rcases (Language.mem_add _ _ word).mp address with literal | address
    · obtain ⟨front,first,last,close,rfl⟩ := Language.mem_mul.mp literal
      obtain ⟨bracket,start,inner,inside,rfl⟩ := Language.mem_mul.mp first
      cases (start : bracket = "[".toList)
      cases (close : last = "]".toList)
      exact .inl ⟨inner,rfl,within_ipAddress inner inside⟩
    · exact .inr (within_ipv4Address word address)
  · exact .inr (within_regName word name)

/-- A name without percent signs needs no brackets. -/
theorem host_of_unreserved {word : List Char} (all : ∀ c ∈ word,unreserved c = true) : word ∈ host := by
  have narrower : one unreserved ≤ one unreserved + pctEncoded + one subDelim := by
    rw [add_assoc]
    exact le_self_add
  have name : word ∈ regName := kstar_mono narrower (mem_one_star.mpr all)
  exact (Language.mem_add _ _ word).mpr (.inr name)

/-! ### Authorities -/

/-- A derivation of an authority. -/
structure Authority where
  userinfo : Option (List Char)
  host : List Char
  port : Option (List Char)
  userinfoFormed : ∀ user ∈ userinfo,user ∈ Uri.userinfo
  hostFormed : host ∈ Uri.host
  portFormed : ∀ digits ∈ port,digits ∈ Uri.port

/-- The host with its port. -/
def Authority.place (a : Authority) : List Char := a.host ++ a.port.elim [] (fun digits => ':' :: digits)

def Authority.text (a : Authority) : List Char := a.userinfo.elim a.place (fun user => user ++ '@' :: a.place)

/-- Neither `@` nor what ends an authority. -/
def inside (c : Char) : Bool := c ≠ '@' && c ≠ '/' && c ≠ '?' && c ≠ '#'

theorem inside_of_plainOrColon {c : Char} (holds : plainOrColon c = true) : inside c = true := by
  have other : ∀ d,plainOrColon d = false → c ≠ d := by
    rintro d unlisted rfl
    rw [holds] at unlisted
    cases unlisted
  simp [inside,other '@' (by decide),other '/' (by decide),other '?' (by decide),other '#' (by decide)]

theorem host_inside {word : List Char} (formed : word ∈ host) : ∀ c ∈ word,inside c = true := by
  rcases host_cases formed with ⟨inner,rfl,all⟩ | all
  · intro c member
    rcases List.mem_append.mp member with member | member
    · rcases List.mem_cons.mp member with rfl | member
      · decide
      · exact inside_of_plainOrColon (all c member)
    · rw [List.mem_singleton.mp member]
      decide
  · exact fun c member => inside_of_plainOrColon (plainOrColon_of_plain (all c member))

theorem Authority.place_inside (a : Authority) : ∀ c ∈ a.place,inside c = true := by
  intro c member
  rcases List.mem_append.mp member with member | member
  · exact host_inside a.hostFormed c member
  · cases written : a.port with
    | none =>
      rw [written] at member
      cases member
    | some digits =>
      rw [written] at member
      rcases List.mem_cons.mp member with rfl | member
      · decide
      · have digit := mem_one_star.mp (a.portFormed digits written) c member
        exact inside_of_plainOrColon (plainOrColon_of_plain (plain_of_isDigit digit))

/-- What stands in an authority does not end it. -/
theorem Authority.text_open (a : Authority) : ∀ c ∈ a.text,c ≠ '/' ∧ c ≠ '?' ∧ c ≠ '#' := by
  have between_of_inside : ∀ c,inside c = true → c ≠ '/' ∧ c ≠ '?' ∧ c ≠ '#' := by
    intro c holds
    simp only [inside,Bool.and_eq_true,decide_eq_true_eq] at holds
    tauto
  intro c member
  cases written : a.userinfo with
  | none =>
    rw [Authority.text,written] at member
    exact between_of_inside c (a.place_inside c member)
  | some user =>
    rw [Authority.text,written] at member
    rcases List.mem_append.mp member with member | member
    · exact between_of_inside c (inside_of_plainOrColon (within_userinfo user (a.userinfoFormed user written) c member))
    · rcases List.mem_cons.mp member with rfl | member
      · decide
      · exact between_of_inside c (a.place_inside c member)

theorem unlisted {word : List Char} {kind : Char → Bool} (all : ∀ c ∈ word,kind c = true) {d : Char} (other : kind d = false) : d ∉ word := by
  intro member
  rw [all d member] at other
  cases other

/-- A word of a kind, up to a character of another kind, is read in one way. -/
theorem split_unique {kind : Char → Bool} {left right left' right' : List Char} (all : ∀ c ∈ left,kind c = true)
    (all' : ∀ c ∈ left',kind c = true) (stops : ∀ c,right.head? = some c → kind c = false)
    (stops' : ∀ c,right'.head? = some c → kind c = false) (same : left ++ right = left' ++ right') : left = left' ∧ right = right' := by
  have front : ∀ {l r : List Char},(∀ c ∈ l,kind c = true) → (∀ c,r.head? = some c → kind c = false) →
      (l ++ r).takeWhile kind = l := by
    intro l r kinds stop
    rw [List.takeWhile_append_of_pos kinds]
    cases r with
    | nil => simp
    | cons c rest => simp [stop c rfl]
  have lefts : left = left' := by rw [← front all stops,same,front all' stops']
  subst lefts
  exact ⟨rfl,List.append_cancel_left same⟩

def portText (port : Option (List Char)) : List Char := port.elim [] (fun digits => ':' :: digits)

theorem portText_stops {kind : Char → Bool} (colon : kind ':' = false) (port : Option (List Char)) :
    ∀ c,(portText port).head? = some c → kind c = false := by
  intro c first
  cases port with
  | none => cases first
  | some digits =>
    cases first
    exact colon

theorem portText_injective {one two : Option (List Char)} (same : portText one = portText two) : one = two := by
  cases one <;> cases two <;> simp_all [portText]

/-- A host and its port are read in one way. -/
theorem place_unique {a b : Authority} (same : a.place = b.place) : a.host = b.host ∧ a.port = b.port := by
  have mixed : ∀ {one : Authority} {inner rest : List Char},(∀ c ∈ one.host,plain c = true) → one.place ≠ '[' :: inner ++ rest := by
    intro one inner rest all bracketed
    have joined : one.host ++ portText one.port = [] ++ ('[' :: inner ++ rest) := bracketed
    obtain ⟨-,bracket⟩ := split_unique all (by simp) (portText_stops (by decide) one.port) (by rintro c ⟨⟩; decide) joined
    cases written : one.port <;> simp [written,portText] at bracket
  have places : a.host ++ portText a.port = b.host ++ portText b.port := same
  rcases host_cases a.hostFormed with ⟨inner,literal,all⟩ | all
  · rcases host_cases b.hostFormed with ⟨inner',literal',all'⟩ | all'
    · rw [literal,literal',List.cons_append,List.cons_append,List.cons_append,List.cons_append,List.append_assoc,List.append_assoc] at places
      obtain ⟨rfl,rest⟩ := split_unique all all' (by rintro c ⟨⟩; decide) (by rintro c ⟨⟩; decide) (List.cons.inj places).2
      exact ⟨literal.trans literal'.symm,portText_injective (List.cons.inj rest).2⟩
    · rw [literal,List.append_assoc] at places
      exact absurd places.symm (mixed all')
  · rcases host_cases b.hostFormed with ⟨inner',literal',all'⟩ | all'
    · rw [literal',List.append_assoc] at places
      exact absurd places (mixed all)
    · obtain ⟨hosts,ports⟩ := split_unique all all' (portText_stops (by decide) a.port) (portText_stops (by decide) b.port) places
      exact ⟨hosts,portText_injective ports⟩

/-- The grammar of authorities is unambiguous. -/
theorem Authority.text_injective {a b : Authority} (same : a.text = b.text) : a = b := by
  have users : a.userinfo = b.userinfo ∧ a.place = b.place := by
    have blocked : inside '@' = false := by decide
    have plainUser : ∀ {user : List Char},user ∈ Uri.userinfo → ∀ c ∈ user,inside c = true :=
      fun formed c member => inside_of_plainOrColon (within_userinfo _ formed c member)
    unfold Authority.text at same
    cases first : a.userinfo with
    | none =>
      cases second : b.userinfo with
      | none =>
        rw [first,second] at same
        exact ⟨rfl,same⟩
      | some user =>
        rw [first,second] at same
        have member : '@' ∈ a.place := by
          rw [show a.place = user ++ '@' :: b.place from same]
          simp
        exact absurd (a.place_inside _ member) (by decide)
    | some user =>
      cases second : b.userinfo with
      | none =>
        rw [first,second] at same
        have member : '@' ∈ b.place := by
          rw [show b.place = user ++ '@' :: a.place from same.symm]
          simp
        exact absurd (b.place_inside _ member) (by decide)
      | some user' =>
        rw [first,second] at same
        obtain ⟨rfl,rest⟩ := split_unique (plainUser (a.userinfoFormed _ first)) (plainUser (b.userinfoFormed _ second))
          (by rintro c ⟨⟩; exact blocked) (by rintro c ⟨⟩; exact blocked) same
        exact ⟨rfl,(List.cons.inj rest).2⟩
  obtain ⟨user,rest⟩ := users
  obtain ⟨hosts,ports⟩ := place_unique rest
  cases a
  cases b
  cases user
  cases hosts
  cases ports
  rfl

/-! ### References -/

/-- What ends an authority. -/
def ends (c : Char) : Bool := c = '/' || c = '?' || c = '#'

/-- The scheme of a reference, and what follows it. -/
def splitScheme (text : List Char) : Option (List Char) × List Char :=
  let front := text.takeWhile (fun c => !ends c && c ≠ ':')
  match front,text.drop front.length with
  | _ :: _,':' :: rest => (some front,rest)
  | _,_ => (none,text)

def schemeOf (text : List Char) : Option (List Char) := (splitScheme text).1

/-- The authority of a reference stands behind two slashes. -/
def authorityOf (text : List Char) : Option (List Char) :=
  match (splitScheme text).2 with
  | '/' :: '/' :: rest => some (rest.takeWhile (fun c => !ends c))
  | _ => none

/-- The value of decimal digits. -/
def number (digits : List Char) : Nat := digits.foldl (fun n c => 10*n+(c.toNat - '0'.toNat)) 0

/-- A port that is missing or empty is that of the scheme. -/
def effectivePort (default : Option Nat) : Option (List Char) → Option Nat
  | none | some [] => default
  | some digits => some (number digits)

theorem splitScheme_named {name : List Char} (nonempty : name ≠ []) (formed : ∀ c ∈ name,(!ends c && c ≠ ':') = true)
    (rest : List Char) : splitScheme (name ++ ':' :: rest) = (some name,rest) := by
  have front : (name ++ ':' :: rest).takeWhile (fun c => !ends c && c ≠ ':') = name := by
    rw [List.takeWhile_append_of_pos formed]
    simp
  unfold splitScheme
  simp only [front,List.drop_left]
  cases name with
  | nil => exact absurd rfl nonempty
  | cons c tail => rfl

theorem splitScheme_slash (rest : List Char) : splitScheme ('/' :: rest) = (none,'/' :: rest) := by
  have front : ('/' :: rest).takeWhile (fun c => !ends c && c ≠ ':') = [] := by simp [ends]
  unfold splitScheme
  simp only [front]

theorem splitScheme_some {text name rest : List Char} (split : splitScheme text = (some name,rest)) : text = name ++ ':' :: rest := by
  unfold splitScheme at split
  dsimp only at split
  split at split
  · rename_i first tail front after dropped
    have whole := List.prefix_iff_eq_append.mp (List.takeWhile_prefix (fun c => !ends c && c ≠ ':') (l := text))
    simp only [Prod.mk.injEq,Option.some.injEq] at split
    obtain ⟨named,rfl⟩ := split
    rw [← named,← dropped,whole]
  · cases split

theorem authorityOf_named {name : List Char} (nonempty : name ≠ []) (formed : ∀ c ∈ name,(!ends c && c ≠ ':') = true)
    (rest : List Char) : authorityOf (name ++ ':' :: '/' :: '/' :: rest) = some (rest.takeWhile (fun c => !ends c)) := by
  simp only [authorityOf,splitScheme_named nonempty formed]

theorem authorityOf_slashes (rest : List Char) : authorityOf ('/' :: '/' :: rest) = some (rest.takeWhile (fun c => !ends c)) := by
  simp only [authorityOf,splitScheme_slash]

theorem takeWhile_front {front tail : List Char} (kept : ∀ c ∈ front,ends c = false)
    (stops : ∀ c,tail.head? = some c → ends c = true) : (front ++ tail).takeWhile (fun c => !ends c) = front := by
  rw [List.takeWhile_append_of_pos (fun c member => by simp [kept c member])]
  cases tail with
  | nil => simp
  | cons c rest => simp [stops c rfl]

/-- An authority stands between the slashes and what ends it. -/
theorem takeWhile_authority (a : Authority) {tail : List Char} (stops : ∀ c,tail.head? = some c → ends c = true) :
    (a.text ++ tail).takeWhile (fun c => !ends c) = a.text := by
  refine takeWhile_front (fun c member => ?_) stops
  simp [ends,a.text_open c member]

theorem ends_of_inside {c : Char} (between : inside c = true) : ends c = false := by
  simp only [inside,Bool.and_eq_true,decide_eq_true_eq] at between
  simp [ends,between]

end AegisNode.Uri
