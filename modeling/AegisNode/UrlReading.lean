import AegisNode.Mediator
import AegisNode.Uri

/-!
What the pre-validation takes for host and port of a URL argument, against the authority
that RFC 3986 reads in it.
-/
namespace AegisNode.UrlReading
open Text Mediator Engine Uri

/-! ### How a host and a port are written -/

/-- The text in front of a host: a scheme with its port, or none at all. -/
inductive Start : List Char → Option UInt16 → List Char → Prop where
  | Https (rest : List Char) : Start ("https://".toList ++ rest) (some 443) rest
  | Http (rest : List Char) : Start ("http://".toList ++ rest) (some 80) rest
  | Bare {raw : List Char} (schemeless : ¬ "://".toList <:+: raw) : Start raw none raw

/-- What may follow a host and a port. -/
def Tail (tail : List Char) : Prop := ∀ c,tail.head? = some c → c = '/' ∨ c = '?'

/-- A port number, perhaps behind a plus sign. -/
inductive PortText (port : UInt16) : List Char → Prop where
  | Digits {digits : List Char} (number : decimal? digits = some port.toNat) : PortText port digits
  | Signed {digits : List Char} (number : decimal? digits = some port.toNat) : PortText port ('+' :: digits)

/-- A host with a port behind its last colon, or without a colon and with a default. -/
inductive Written (default : Option UInt16) (host : List Char) (port : UInt16) : List Char → Prop where
  | Default (uncolonized : ':' ∉ host) (same : default = some port) : Written default host port host
  | Explicit {text : List Char} (written : PortText port text) : Written default host port (host ++ ':' :: text)

/-- The text names a host and a port to the pre-validation. -/
structure Reads (raw host : List Char) (port : UInt16) : Prop where
  written : ∃ default front tail,Start raw default (front ++ tail) ∧ ('/' ∉ front ∧ '?' ∉ front) ∧ Tail tail ∧
    Written default host port front
  nonempty : host ≠ []

theorem isPrefixOf_some {start raw : List Char} : start.isPrefixOf raw = true ↔ ∃ rest,raw = start ++ rest := by
  rw [List.isPrefixOf_iff_prefix]
  exact ⟨fun ⟨rest,whole⟩ => ⟨rest,whole.symm⟩,fun ⟨rest,whole⟩ => ⟨rest,whole.symm⟩⟩

theorem schemed_infix {start rest : List Char} (schemed : "://".toList <:+: start) : "://".toList <:+: start ++ rest :=
  schemed.trans (List.infix_append' [] start rest)

theorem stripScheme_some {raw rest : List Char} {default : Option UInt16} :
    stripScheme raw = some (default,rest) ↔ Start raw default rest := by
  constructor
  · intro stripped
    unfold stripScheme at stripped
    split_ifs at stripped with https http other
    · obtain ⟨after,rfl⟩ := isPrefixOf_some.mp https
      cases stripped
      exact .Https after
    · obtain ⟨after,rfl⟩ := isPrefixOf_some.mp http
      cases stripped
      exact .Http after
    · cases stripped
      exact .Bare (fun inside => other ((splitOnce_isSome (by decide)).mpr inside))
  · rintro (after | after | schemeless)
    · simp [stripScheme]
    · simp [stripScheme]
    · have unprefixed : ∀ {start : List Char},"://".toList <:+: start → ¬ start.isPrefixOf raw = true := by
        intro start schemed prefixed
        exact schemeless (schemed.trans (List.isPrefixOf_iff_prefix.mp prefixed).isInfix)
      unfold stripScheme
      rw [if_neg (unprefixed (by decide)),if_neg (unprefixed (by decide)),
        if_neg (fun cut => schemeless ((splitOnce_isSome (by decide)).mp cut))]

/-- The text in front of the first slash or question mark. -/
theorem upTo_eq {text front : List Char} : upTo '?' (upTo '/' text) = front ↔
    ∃ tail,text = front ++ tail ∧ ('/' ∉ front ∧ '?' ∉ front) ∧ Tail tail := by
  have whole : upTo '?' (upTo '/' text) = text.takeWhile (fun c => c ≠ '?' && c ≠ '/') := by
    rw [upTo,upTo,List.takeWhile_takeWhile]
    simp
  rw [whole]
  constructor
  · rintro rfl
    refine ⟨text.dropWhile (fun c => c ≠ '?' && c ≠ '/'),List.takeWhile_append_dropWhile.symm,?_,?_⟩
    · have kept : ∀ c ∈ text.takeWhile (fun c => c ≠ '?' && c ≠ '/'),c ≠ '?' ∧ c ≠ '/' := by
        intro c member
        simpa using List.mem_takeWhile_imp member
      exact ⟨fun slash => (kept _ slash).2 rfl,fun question => (kept _ question).1 rfl⟩
    · intro c first
      have stops := List.head?_dropWhile_not (fun c => c ≠ '?' && c ≠ '/') text
      rw [first] at stops
      simp at stops
      tauto
  · rintro ⟨tail,rfl,⟨unslashed,unquestioned⟩,ends⟩
    have kept : ∀ c ∈ front,(c ≠ '?' && c ≠ '/') = true := by
      intro c member
      simp only [Bool.and_eq_true,decide_eq_true_eq]
      exact ⟨fun same => unquestioned (same ▸ member),fun same => unslashed (same ▸ member)⟩
    rw [List.takeWhile_append_of_pos kept]
    cases tail with
    | nil => simp
    | cons c rest => rcases ends c rfl with rfl | rfl <;> simp

theorem parseU16_some {text : List Char} {port : UInt16} : parseU16 text = some port ↔ PortText port text := by
  have read : ∀ {digits : List Char},((decimal? digits).bind fun n => if n < 2^16 then some (UInt16.ofNat n) else none) = some port ↔
      decimal? digits = some port.toNat := by
    intro digits
    rw [Option.bind_eq_some_iff]
    constructor
    · rintro ⟨n,number,bounded⟩
      split_ifs at bounded with small
      cases bounded
      rw [number,UInt16.toNat_ofNat_of_lt' small]
    · intro number
      exact ⟨_,number,by rw [if_pos port.toNat_lt]; simp⟩
  constructor
  · intro parsed
    unfold parseU16 at parsed
    split at parsed
    · exact .Signed (read.mp parsed)
    · exact .Digits (read.mp parsed)
  · rintro (number | number)
    · unfold parseU16
      split
      · have digits := (decimal?_digits number).2 '+' List.mem_cons_self
        exact absurd rfl digits
      · exact read.mpr number
    · exact read.mpr number

theorem PortText.uncolonized {port : UInt16} {text : List Char} (written : PortText port text) : ':' ∉ text := by
  have absent : ∀ {digits : List Char},decimal? digits = some port.toNat → ':' ∉ digits := by
    intro digits number member
    exact digit_other ((decimal?_digits number).2 ':' member) ':' (by decide) rfl
  cases written with
  | Digits number => exact absent number
  | Signed number =>
    intro member
    rcases List.mem_cons.mp member with plus | member
    · exact absurd plus (by decide)
    · exact absent number member

theorem rsplitOnce_eq (sep : Char) (text : List Char) : Mediator.rsplitOnce sep text = Text.rsplitOnce sep text := rfl

/-- The pre-validation reads what is written so, and nothing else. -/
theorem parsePreValidateUrl_ok {raw serverName toolName argName host : String} {port : UInt16} :
    parsePreValidateUrl raw serverName toolName argName = .ok (host,port) ↔ Reads raw.toList host.toList port := by
  constructor
  · intro parsed
    unfold parsePreValidateUrl at parsed
    dsimp only at parsed
    split at parsed
    · cases parsed
    rename_i default rest stripped
    have start := stripScheme_some.mp stripped
    obtain ⟨tail,whole,plain,ends⟩ := upTo_eq.mp (rfl : upTo '?' (upTo '/' rest) = _)
    rw [whole] at start
    split_ifs at parsed with empty
    split at parsed
    · rename_i front portStr cut
      obtain ⟨joined,-⟩ := rsplitOnce_some.mp ((rsplitOnce_eq _ _).symm.trans cut)
      rw [joined] at start plain
      split at parsed
      · cases parsed
      rename_i number
      split_ifs at parsed with hostless
      cases parsed
      rw [← String.toList_ofList (l := front)] at start plain hostless
      exact ⟨⟨default,_,tail,start,plain,ends,.Explicit (parseU16_some.mp number)⟩,hostless⟩
    · rename_i uncut
      have uncolonized := rsplitOnce_none.mp ((rsplitOnce_eq _ _).symm.trans uncut)
      split at parsed
      · cases parsed
      cases parsed
      rw [String.toList_ofList]
      exact ⟨⟨_,_,tail,start,plain,ends,.Default uncolonized rfl⟩,empty⟩
  · rintro ⟨⟨default,front,tail,start,plain,ends,written⟩,nonempty⟩
    have kept : upTo '?' (upTo '/' (front ++ tail)) = front := upTo_eq.mpr ⟨tail,rfl,plain,ends⟩
    unfold parsePreValidateUrl
    simp only [stripScheme_some.mpr start,kept]
    cases written with
    | Default uncolonized same =>
      rw [if_neg nonempty,rsplitOnce_eq,rsplitOnce_none.mpr uncolonized,same]
      simp
    | @Explicit text number =>
      have filled : host.toList ++ ':' :: text ≠ [] := by simp
      rw [if_neg filled,rsplitOnce_eq,rsplitOnce_some.mpr ⟨rfl,number.uncolonized⟩]
      simp only [parseU16_some.mpr number,nonempty,if_false,String.ofList_toList]

/-! ### The authority that a text names -/

inductive Scheme where
  | Http
  | Https
  deriving DecidableEq,Repr

def Scheme.name : Scheme → List Char
  | .Http => "http".toList
  | .Https => "https".toList

def Scheme.defaultPort : Scheme → UInt16
  | .Http => 80
  | .Https => 443

/-- Schemes are compared without case. -/
def schemeNamed (name : List Char) : Option Scheme :=
  if name.map Char.toLower = Scheme.name .Http then some .Http
  else if name.map Char.toLower = Scheme.name .Https then some .Https
  else none

/-- A text without a scheme is read as an authority and what follows it. -/
def reference (raw : List Char) : List Char :=
  if (splitOnce "://".toList raw).isSome then raw else "//".toList ++ raw

def defaultPort (raw : List Char) : Option Nat :=
  ((schemeOf (reference raw)).bind schemeNamed).map (fun scheme => scheme.defaultPort.toNat)

/-- The text has an authority by the grammar, and it names the host and the port and no
    user. -/
structure NamesPlainly (raw host : List Char) (port : UInt16) : Prop where
  formed : ∃ a : Authority,authorityOf (reference raw) = some a.text
  plain : ∀ a : Authority,authorityOf (reference raw) = some a.text →
    a.userinfo = none ∧ a.host = host ∧ effectivePort (defaultPort raw) a.port = some port.toNat

/-- Letters, digits, dots and hyphens. -/
def Alphabet (host : List Char) : Prop := ∀ c ∈ host,c.isAlphanum = true ∨ c = '.' ∨ c = '-'

theorem alphabet_of_all {host : List Char} (all : host.all (fun c => c.isAlphanum || c = '.' || c = '-') = true) : Alphabet host := by
  intro c member
  simpa [or_assoc] using List.all_eq_true.mp all c member

/-- A host of the alphabet is read only where the text names it. -/
def Unconfused (raw serverName toolName argName : String) : Prop :=
  ∀ host port,parsePreValidateUrl raw serverName toolName argName = .ok (host,port) → Alphabet host.toList →
    NamesPlainly raw.toList host.toList port

/-- The text writes the port of a host of the alphabet with a plus sign. -/
inductive SignedPort (raw : List Char) : Prop where
  | Signed {default : Option UInt16} {host digits tail : List Char} {port : UInt16}
      (start : Start raw default (host ++ ':' :: '+' :: digits ++ tail)) (nonempty : host ≠ []) (alphabet : Alphabet host)
      (number : decimal? digits = some port.toNat) (ends : Tail tail)

theorem Start.named {raw rest : List Char} {default : Option UInt16} (start : Start raw default rest) :
    authorityOf (reference raw) = some (rest.takeWhile (fun c => !ends c)) ∧ defaultPort raw = default.map UInt16.toNat := by
  have schemed : ∀ {name : List Char} (rest : List Char),reference (name ++ ':' :: '/' :: '/' :: rest) = name ++ ':' :: '/' :: '/' :: rest := by
    intro name rest
    exact if_pos ((splitOnce_isSome (by decide)).mpr ⟨name,rest,by simp⟩)
  cases start with
  | Https =>
    have whole : "https://".toList ++ rest = "https".toList ++ ':' :: '/' :: '/' :: rest := rfl
    have formed : ∀ c ∈ "https".toList,(!ends c && c ≠ ':') = true := List.all_eq_true.mp (by decide)
    rw [whole,defaultPort,schemed,authorityOf_named (by decide) formed,schemeOf,splitScheme_named (by decide) formed]
    exact ⟨rfl,rfl⟩
  | Http =>
    have whole : "http://".toList ++ rest = "http".toList ++ ':' :: '/' :: '/' :: rest := rfl
    have formed : ∀ c ∈ "http".toList,(!ends c && c ≠ ':') = true := List.all_eq_true.mp (by decide)
    rw [whole,defaultPort,schemed,authorityOf_named (by decide) formed,schemeOf,splitScheme_named (by decide) formed]
    exact ⟨rfl,rfl⟩
  | Bare schemeless =>
    have bare : reference raw = '/' :: '/' :: raw := if_neg (fun cut => schemeless ((splitOnce_isSome (by decide)).mp cut))
    rw [defaultPort,bare,authorityOf_slashes,schemeOf,splitScheme_slash]
    exact ⟨rfl,rfl⟩

theorem digit_isDigit {c : Char} (digit : digit? c ≠ none) : c.isDigit = true ∧ digit? c = some (c.toNat - '0'.toNat) := by
  unfold digit? at digit ⊢
  by_cases range : '0' ≤ c ∧ c ≤ '9'
  · rw [if_pos range]
    simp only [Char.isDigit,Bool.and_eq_true,decide_eq_true_eq]
    exact ⟨range,trivial⟩
  · rw [if_neg range] at digit
    exact absurd rfl digit

theorem digitsFrom_number {digits : List Char} {value n : Nat} (read : digitsFrom value digits = some n) :
    digits.foldl (fun n c => 10*n+(c.toNat - '0'.toNat)) value = n := by
  induction digits generalizing value with
  | nil => exact Option.some.inj read
  | cons c rest ih =>
    obtain ⟨d,digit,later⟩ := Option.bind_eq_some_iff.mp read
    have same := (digit_isDigit (by rw [digit]; simp)).2
    rw [digit] at same
    rw [Option.some.inj same] at later
    exact ih later

theorem decimal?_number {digits : List Char} {n : Nat} (read : decimal? digits = some n) :
    digits ≠ [] ∧ (∀ c ∈ digits,c.isDigit = true) ∧ number digits = n := by
  obtain ⟨nonempty,all⟩ := decimal?_digits read
  rw [decimal?,if_neg nonempty] at read
  exact ⟨nonempty,fun c member => (digit_isDigit (all c member)).1,digitsFrom_number read⟩

theorem digitsFrom_isDigit {digits : List Char} (all : ∀ c ∈ digits,c.isDigit = true) (value : Nat) :
    digitsFrom value digits = some (digits.foldl (fun n c => 10*n+(c.toNat - '0'.toNat)) value) := by
  induction digits generalizing value with
  | nil => rfl
  | cons c rest ih =>
    have digit : digit? c = some (c.toNat - '0'.toNat) := by
      have range := all c List.mem_cons_self
      simp only [Char.isDigit,Bool.and_eq_true,decide_eq_true_eq] at range
      exact if_pos range
    rw [digitsFrom,digit,Option.bind_some,ih fun d member => all d (List.mem_cons_of_mem _ member)]
    rfl

theorem decimal?_of_digits {digits : List Char} (nonempty : digits ≠ []) (all : ∀ c ∈ digits,c.isDigit = true) :
    decimal? digits = some (number digits) := by
  rw [decimal?,if_neg nonempty]
  exact digitsFrom_isDigit all 0

theorem PortText.plain {port : UInt16} {text : List Char} (written : PortText port text) : ∀ c ∈ text,plainOrColon c = true := by
  have digits : ∀ {digits : List Char},decimal? digits = some port.toNat → ∀ c ∈ digits,plainOrColon c = true :=
    fun number c member => plainOrColon_of_plain (plain_of_isDigit ((decimal?_number number).2.1 c member))
  cases written with
  | Digits number => exact digits number
  | Signed number =>
    intro c member
    rcases List.mem_cons.mp member with rfl | member
    · decide
    · exact digits number c member

theorem Tail.ends {tail : List Char} (stops : Tail tail) : ∀ c,tail.head? = some c → Uri.ends c = true := by
  intro c first
  rcases stops c first with rfl | rfl <;> decide

theorem Alphabet.host {host : List Char} (alphabet : Alphabet host) : host ∈ Uri.host := by
  refine host_of_unreserved (fun c member => ?_)
  rcases alphabet c member with alphanum | rfl | rfl
  · simp [unreserved,alphanum]
  · decide
  · decide

/-- A host of the alphabet, with the digits of a port or none. -/
def plainly (host : List Char) (alphabet : Alphabet host) (port : Option (List Char)) (formed : ∀ digits ∈ port,digits ∈ Uri.port) :
    Authority where
  userinfo := none
  host := host
  port := port
  userinfoFormed := by simp
  hostFormed := alphabet.host
  portFormed := formed

theorem plainly_text {host : List Char} (alphabet : Alphabet host) {port : Option (List Char)}
    (formed : ∀ digits ∈ port,digits ∈ Uri.port) : (plainly host alphabet port formed).text = host ++ portText port := rfl

/-- What the grammar reads in a host and port that end where the code ends them. -/
theorem names_plainly {raw host tail : List Char} {default : Option UInt16} {port : Option (List Char)} {value : UInt16}
    (alphabet : Alphabet host) (formed : ∀ digits ∈ port,digits ∈ Uri.port) (start : Start raw default (host ++ portText port ++ tail))
    (stops : Tail tail) (effective : effectivePort (default.map UInt16.toNat) port = some value.toNat) : NamesPlainly raw host value := by
  obtain ⟨authority,scheme⟩ := start.named
  rw [← plainly_text alphabet formed,takeWhile_authority _ stops.ends] at authority
  refine ⟨⟨_,authority⟩,fun a other => ?_⟩
  have same := Authority.text_injective (Option.some.inj (authority.symm.trans other))
  rw [← same,scheme]
  exact ⟨rfl,rfl,effective⟩

theorem Alphabet.plain {host : List Char} (alphabet : Alphabet host) : ∀ c ∈ host,plainOrColon c = true := by
  intro c member
  rcases alphabet c member with alphanum | rfl | rfl
  · simp [plainOrColon,Uri.plain,unreserved,alphanum]
  · decide
  · decide

theorem signed_confuses {raw serverName toolName argName : String} (signed : SignedPort raw.toList) :
    ¬ Unconfused raw serverName toolName argName := by
  intro unconfused
  obtain ⟨start,nonempty,alphabet,number,stops⟩ := signed
  rename_i default host digits tail port
  have all : ∀ c ∈ host ++ ':' :: '+' :: digits,plainOrColon c = true := by
    intro c member
    rcases List.mem_append.mp member with member | member
    · exact alphabet.plain c member
    · rcases List.mem_cons.mp member with rfl | member
      · decide
      · exact (PortText.Signed number).plain c member
  have read : Reads raw.toList host port := ⟨⟨default,host ++ ':' :: '+' :: digits,tail,start,
    ⟨unlisted all (by decide),unlisted all (by decide)⟩,stops,.Explicit (.Signed number)⟩,nonempty⟩
  rw [← String.toList_ofList (l := host)] at read alphabet
  obtain ⟨⟨a,formed⟩,plain⟩ := unconfused _ port (parsePreValidateUrl_ok.mpr read) alphabet
  obtain ⟨userless,named,-⟩ := plain a formed
  rw [start.named.1,takeWhile_front (fun c member => ends_of_inside (inside_of_plainOrColon (all c member))) stops.ends] at formed
  have text : a.host ++ portText a.port = host ++ ':' :: '+' :: digits := by
    have whole := (Option.some.inj formed).symm
    rw [Authority.text,userless] at whole
    exact whole
  rw [named,String.toList_ofList] at text
  have port : a.port = some ('+' :: digits) := portText_injective (List.append_cancel_left text)
  exact absurd (mem_one_star.mp (a.portFormed _ port) '+' List.mem_cons_self) (by decide)

/-- A host of letters, digits, dots and hyphens is the one that the text names, without a
    user and with the port that it names, just when no port is written with a plus sign. -/
theorem no_confusion_iff (raw serverName toolName argName : String) :
    Unconfused raw serverName toolName argName ↔ ¬ SignedPort raw.toList := by
  refine ⟨fun unconfused signed => signed_confuses signed unconfused,fun unsigned host port parsed alphabet => ?_⟩
  obtain ⟨⟨default,front,tail,start,-,stops,written⟩,nonempty⟩ := parsePreValidateUrl_ok.mp parsed
  cases written with
  | Default uncolonized same =>
    subst same
    have whole : Start raw.toList (some port) (host.toList ++ portText none ++ tail) := by simpa [portText] using start
    exact names_plainly alphabet (by simp) whole stops rfl
  | @Explicit digits portWritten =>
    cases portWritten with
    | Digits read =>
      obtain ⟨nonempty,all,value⟩ := decimal?_number read
      have formed : ∀ written ∈ some digits,written ∈ Uri.port := by
        rintro _ ⟨⟩
        exact mem_one_star.mpr all
      refine names_plainly alphabet formed start stops ?_
      obtain ⟨c,rest,rfl⟩ := List.exists_cons_of_ne_nil nonempty
      rw [effectivePort,value]
      simp
    | Signed read => exact absurd (.Signed start nonempty alphabet read stops) unsigned

def plus : String := "https://good.com:+443/"

example : parsePreValidateUrl plus "net" "fetch" "url" = .ok ("good.com",443) := by decide +kernel

theorem plus_signed : SignedPort plus.toList := by
  have alphabet : Alphabet "good.com".toList := alphabet_of_all (by decide +kernel)
  have number : decimal? "443".toList = some (443 : UInt16).toNat := by decide +kernel
  have stops : Tail ['/'] := by
    rintro c ⟨⟩
    exact .inl rfl
  have whole : plus.toList = "https://".toList ++ "good.com:+443/".toList := by decide +kernel
  have start : Start plus.toList (some 443) "good.com:+443/".toList := by
    rw [whole]
    exact .Https _
  exact .Signed start (by decide) alphabet number stops

/-- The grammar has no authority where the pre-validation reads a host and a port. -/
theorem plus_confuses : ¬ ∀ raw serverName toolName argName,Unconfused raw serverName toolName argName :=
  fun unconfused => signed_confuses plus_signed (unconfused plus "net" "fetch" "url")

end AegisNode.UrlReading
