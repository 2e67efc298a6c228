import AegisNode.Pull
import Mathlib

/-!
Pinned references: which texts the parser takes apart, what the canonical form gives
back, and where a tag begins.
-/
namespace AegisNode.Pull
open Text

def sha256Prefix : List Char := "sha256:".toList

/-- What a reference is made of: the registry, the path after it, and the digits of its digest. -/
structure Parts (s : String) (registry path hex : List Char) : Prop where
  whole : s.toList = registry ++ '/' :: path ++ '@' :: (sha256Prefix ++ hex)
  registry : registry ≠ [] ∧ '/' ∉ registry ∧ '@' ∉ registry
  path : path ≠ [] ∧ '@' ∉ path
  hex : hex.length = 64 ∧ ∀ c ∈ hex,isAsciiHexdigit c = true

/-- The repository and the tag of a path. -/
def cutTag (path : List Char) : List Char × Option String :=
  match rsplitOnce ':' path with
  | some (repository,tag) => (repository,some (String.ofList tag))
  | none => (path,none)

def tagText (tag : Option String) : String := (tag.map (":" ++ ·)).getD ""

def refOf (registry path hex : List Char) : ParsedRef where
  registry := String.ofList registry
  repository := String.ofList (cutTag path).1
  tag := (cutTag path).2
  sha256Hex := String.ofList (hex.map Char.toLower)

theorem cutTag_append (path : List Char) : (cutTag path).1 ++ (tagText (cutTag path).2).toList = path := by
  rw [cutTag]
  cases cut : rsplitOnce ':' path with
  | none => exact List.append_nil path
  | some halves =>
    obtain ⟨repository,tag⟩ := halves
    obtain ⟨rfl,-⟩ := rsplitOnce_some.mp cut
    have colon : ":".toList = [':'] := rfl
    dsimp only [tagText,Option.map_some,Option.getD_some]
    rw [String.toList_append,colon,String.toList_ofList,List.singleton_append]

theorem Parts.unique {s : String} {registry path hex registry' path' hex' : List Char} (parts : Parts s registry path hex)
    (parts' : Parts s registry' path' hex') : registry = registry' ∧ path = path' ∧ hex = hex' := by
  have absent : '@' ∉ registry ++ '/' :: path := by simp [parts.registry.2.2,parts.path.2]
  have absent' : '@' ∉ registry' ++ '/' :: path' := by simp [parts'.registry.2.2,parts'.path.2]
  have cut := splitOnce_single.mpr ⟨parts.whole,absent⟩
  rw [splitOnce_single.mpr ⟨parts'.whole,absent'⟩] at cut
  obtain ⟨head,digest⟩ := Prod.mk.inj (Option.some.inj cut)
  have slash := splitOnce_single.mpr ⟨head.symm,parts'.registry.2.1⟩
  rw [splitOnce_single.mpr ⟨rfl,parts.registry.2.1⟩] at slash
  obtain ⟨rfl,rfl⟩ := Prod.mk.inj (Option.some.inj slash)
  exact ⟨rfl,rfl,(List.append_cancel_left digest).symm⟩

theorem hex_valid {hex : List Char} :
    (hex.length ≠ 64 || !hex.all isAsciiHexdigit) = false ↔ hex.length = 64 ∧ ∀ c ∈ hex,isAsciiHexdigit c = true := by
  simp

/-- The parser takes a text apart into its parts, whose path is cut at its last colon. -/
theorem parse_ok {s : String} {r : ParsedRef} : ParsedRef.parse s = .ok r ↔
    ∃ registry path hex,Parts s registry path hex ∧ (cutTag path).1 ≠ [] ∧ r = refOf registry path hex := by
  constructor
  · intro parsed
    rw [ParsedRef.parse] at parsed
    split at parsed
    · cases parsed
    rename_i head digest cut
    split at parsed
    · cases parsed
    rename_i hex stripped
    split at parsed
    · cases parsed
    rename_i valid
    split at parsed
    · cases parsed
    rename_i registry repoAndTag slash
    obtain ⟨rfl,noSlash⟩ := splitOnce_single.mp slash
    obtain ⟨whole,absent⟩ := splitOnce_single.mp cut
    rw [stripPrefix_some] at stripped
    subst stripped
    have taken : (if registry = [] then .error (PullError.BadRef s "registry component is empty")
        else if repoAndTag = [] then .error (PullError.BadRef s "repository component is empty")
        else if (cutTag repoAndTag).1 = [] then .error (PullError.BadRef s "repository component is empty")
        else .ok (refOf registry repoAndTag hex)) = Except.ok r := parsed
    split_ifs at taken with emptyRegistry emptyPath emptyRepository
    cases taken
    simp only [List.mem_append,List.mem_cons,not_or] at absent
    exact ⟨registry,repoAndTag,hex,⟨whole,⟨emptyRegistry,noSlash,absent.1⟩,⟨emptyPath,absent.2.2⟩,
      hex_valid.mp (Bool.eq_false_iff.mpr valid)⟩,emptyRepository,rfl⟩
  · rintro ⟨registry,path,hex,parts,some,rfl⟩
    have absent : '@' ∉ registry ++ '/' :: path := by simp [parts.registry.2.2,parts.path.2]
    have stripped : stripPrefix "sha256:".toList (sha256Prefix ++ hex) = Option.some hex := stripPrefix_some.mpr rfl
    rw [ParsedRef.parse,splitOnce_single.mpr ⟨parts.whole,absent⟩]
    dsimp only
    rw [stripped]
    dsimp only
    rw [hex_valid.mpr parts.hex,if_neg Bool.false_ne_true,splitOnce_single.mpr ⟨rfl,parts.registry.2.1⟩]
    dsimp only
    rw [if_neg parts.registry.1,if_neg parts.path.1]
    exact if_neg some

/-! ### The canonical form -/

theorem isAsciiHexdigit_toLower {c : Char} (hex : isAsciiHexdigit c = true) : isAsciiHexdigit c.toLower = true := by
  by_cases upper : c.isUpper
  · rw [Char.toLower_eq_of_isUpper upper]
    simp only [isAsciiHexdigit,Char.isUpper,Bool.or_eq_true,Bool.and_eq_true,decide_eq_true_eq,Char.le_def,
      UInt32.le_iff_toNat_le] at hex upper ⊢
    have high : c.val.toNat ≤ 70 := by
      rcases hex with (range | range) | range
      · exact range.2.trans (by decide)
      · exact absurd (range.1.trans upper.2) (by decide)
      · exact range.2
    have low : 65 ≤ c.val.toNat := upper.1
    have value : (Char.ofNat (c.toNat+32)).val.toNat = c.val.toNat+32 := by
      have valid : (c.toNat+32).isValidChar := Or.inl (by show c.val.toNat+32 < _; omega)
      exact (Char.toNat_ofNat _).trans (if_pos valid)
    rw [value]
    exact Or.inl (Or.inr ⟨by show 97 ≤ _; omega,by show _ ≤ 102; omega⟩)
  · rwa [Char.toLower_eq_of_not_isUpper upper]

theorem canonical_toList (registry path hex : List Char) : (refOf registry path hex).canonical.toList =
    registry ++ '/' :: path ++ '@' :: (sha256Prefix ++ hex.map Char.toLower) := by
  have slash : "/".toList = ['/'] := rfl
  have pin : "@sha256:".toList = '@' :: sha256Prefix := rfl
  have canonical : (refOf registry path hex).canonical = String.ofList registry ++ "/" ++ String.ofList (cutTag path).1 ++
      tagText (cutTag path).2 ++ "@sha256:" ++ String.ofList (hex.map Char.toLower) := rfl
  rw [canonical]
  simp only [String.toList_append,String.toList_ofList,slash,pin]
  conv_rhs => rw [← cutTag_append path]
  simp only [List.append_assoc,List.cons_append,List.nil_append]

theorem canonical_parts {s : String} {registry path hex : List Char} (parts : Parts s registry path hex) :
    Parts (refOf registry path hex).canonical registry path (hex.map Char.toLower) := by
  refine ⟨canonical_toList registry path hex,parts.registry,parts.path,?_,?_⟩
  · rw [List.length_map,parts.hex.1]
  · intro c member
    obtain ⟨digit,listed,rfl⟩ := List.mem_map.mp member
    exact isAsciiHexdigit_toLower (parts.hex.2 digit listed)

theorem refOf_toLower (registry path hex : List Char) : refOf registry path (hex.map Char.toLower) = refOf registry path hex := by
  rw [refOf,refOf,List.map_map]
  congr 2
  exact List.map_congr_left fun c _ => Char.toLower_toLower_eq_toLower c

theorem parse_canonical {s : String} {r : ParsedRef} (parsed : ParsedRef.parse s = .ok r) : ParsedRef.parse r.canonical = .ok r := by
  obtain ⟨registry,path,hex,parts,some,rfl⟩ := parse_ok.mp parsed
  exact parse_ok.mpr ⟨registry,path,hex.map Char.toLower,canonical_parts parts,some,(refOf_toLower registry path hex).symm⟩

/-! ### Where a tag begins -/

/-- `registry[:port]/repo[:tag]@sha256:hex`: a colon of the path with a later slash is part
    of the repository. -/
structure Documented (s : String) (r : ParsedRef) : Prop where
  registry : r.registry ≠ "" ∧ '/' ∉ r.registry.toList
  repository : r.repository ≠ ""
  colons : ∀ before after digest,s.toList = r.registry.toList ++ '/' :: (before ++ ':' :: after) ++ '@' :: digest →
    '@' ∉ before ++ after → '/' ∈ after → before ++ [':'] <+: r.repository.toList

/-- The canonical form is the text but for the case of the digest, it is read as the same
    reference, and the split is the documented one. -/
structure Codec (s : String) (r : ParsedRef) : Prop where
  rendered : ∃ head hex,s.toList = head ++ hex ∧ hex.length = 64 ∧ r.canonical.toList = head ++ hex.map Char.toLower
  reparsed : ParsedRef.parse r.canonical = .ok r
  split : Documented s r

/-- No slash of the path follows its last colon. -/
def TagLast (s : String) : Prop :=
  ∀ registry path hex before after,Parts s registry path hex → path = before ++ ':' :: after → ':' ∉ after → '/' ∉ after

theorem cutTag_last {before after : List Char} (last : ':' ∉ after) :
    cutTag (before ++ ':' :: after) = (before,some (String.ofList after)) := by
  rw [cutTag,rsplitOnce_some.mpr ⟨rfl,last⟩]

/-- With a slash-free tag every colon before a slash is in the repository. -/
theorem colon_inside {before after repository tag : List Char} (same : before ++ ':' :: after = repository ++ ':' :: tag)
    (free : '/' ∉ tag) (slash : '/' ∈ after) : before ++ [':'] <+: repository := by
  rcases List.append_eq_append_iff.mp same with ⟨inner,rfl,rest⟩ | ⟨inner,rfl,rest⟩
  · cases inner with
    | nil =>
      cases rest
      exact absurd slash free
    | cons c inner =>
      obtain ⟨rfl,-⟩ := List.cons.inj rest
      exact ⟨inner,by simp⟩
  · -- the colon stands at or after the one that starts the tag
    cases inner with
    | nil =>
      cases rest
      exact absurd slash free
    | cons c inner =>
      obtain ⟨rfl,rfl⟩ := List.cons.inj rest
      exact absurd (by simp [slash]) free

theorem documented_path {s : String} {registry path hex : List Char} (parts : Parts s registry path hex)
    {before after digest : List Char} (whole : s.toList = registry ++ '/' :: (before ++ ':' :: after) ++ '@' :: digest)
    (absent : '@' ∉ before ++ after) : path = before ++ ':' :: after := by
  have head : '@' ∉ registry ++ '/' :: path := by simp [parts.registry.2.2,parts.path.2]
  have head' : '@' ∉ registry ++ '/' :: (before ++ ':' :: after) := by
    rw [List.mem_append,not_or] at absent
    simp [parts.registry.2.2,absent]
  have cut := splitOnce_single.mpr ⟨parts.whole,head⟩
  rw [splitOnce_single.mpr ⟨whole,head'⟩] at cut
  have same := (Prod.mk.inj (Option.some.inj cut)).1
  exact (List.cons.inj (List.append_cancel_left same)).2.symm

/-- A reference that is accepted is split as documented when its tag, if any, has no slash. -/
theorem reference_codec {s : String} {r : ParsedRef} (parsed : ParsedRef.parse s = .ok r) : Codec s r ↔ TagLast s := by
  obtain ⟨registry,path,hex,parts,some,rfl⟩ := parse_ok.mp parsed
  constructor
  · intro codec registry' path' hex' before after parts' cut last slash
    obtain ⟨rfl,rfl,rfl⟩ := parts.unique parts'
    subst cut
    have repository : (refOf registry (before ++ ':' :: after) hex).repository.toList = before := by
      rw [refOf,cutTag_last last]
      exact String.toList_ofList
    have absent : '@' ∉ before ++ after := by
      have inside := parts.path.2
      simp only [List.mem_append,List.mem_cons,not_or] at inside ⊢
      exact ⟨inside.1,inside.2.2⟩
    have inside := codec.split.colons before after (sha256Prefix ++ hex) (by rw [parts.whole]; simp [refOf]) absent slash
    rw [repository] at inside
    have length := inside.length_le
    rw [List.length_append,List.length_singleton] at length
    omega
  · intro last
    refine ⟨⟨registry ++ '/' :: path ++ '@' :: sha256Prefix,hex,?_,parts.hex.1,?_⟩,parse_canonical parsed,⟨⟨?_,?_⟩,?_,?_⟩⟩
    · rw [parts.whole]
      simp
    · rw [canonical_toList]
      simp
    · intro empty
      have none : registry = [] := by simpa [refOf] using congrArg String.toList empty
      exact parts.registry.1 none
    · rw [refOf,String.toList_ofList]
      exact parts.registry.2.1
    · intro empty
      have none : (cutTag path).1 = [] := by simpa [refOf] using congrArg String.toList empty
      exact some none
    · intro before after digest whole absent slash
      rw [refOf,String.toList_ofList] at whole
      have cut := documented_path parts whole absent
      rw [refOf,String.toList_ofList]
      cases colon : rsplitOnce ':' path with
      | none =>
        rw [rsplitOnce_none] at colon
        exact absurd (by rw [cut]; simp) colon
      | some halves =>
        obtain ⟨repository,tag⟩ := halves
        obtain ⟨same,single⟩ := rsplitOnce_some.mp colon
        have free := last registry path hex repository tag parts same single
        rw [same,cutTag_last single]
        exact colon_inside (cut.symm.trans same) free slash

/-- A digest of zeros. -/
def zeros : String := String.ofList (List.replicate 64 '0')

theorem zeros_toList : zeros.toList = List.replicate 64 '0' := String.toList_ofList

theorem zeros_hex : zeros.toList.length = 64 ∧ ∀ c ∈ zeros.toList,isAsciiHexdigit c = true := by
  rw [zeros_toList]
  refine ⟨List.length_replicate,?_⟩
  intro c member
  have zero : c = '0' := List.eq_of_mem_replicate member
  subst zero
  decide

theorem reference_codec_tagged : Codec ("ghcr.io:443/a/b:v1@sha256:" ++ zeros) ⟨"ghcr.io:443","a/b",some "v1",zeros⟩ := by
  have parsed : ParsedRef.parse ("ghcr.io:443/a/b:v1@sha256:" ++ zeros) = .ok ⟨"ghcr.io:443","a/b",some "v1",zeros⟩ := by rfl
  have known : Parts ("ghcr.io:443/a/b:v1@sha256:" ++ zeros) "ghcr.io:443".toList "a/b:v1".toList zeros.toList :=
    ⟨rfl,by decide,by decide,zeros_hex⟩
  refine (reference_codec parsed).mpr fun registry path hex before after parts cut last => ?_
  obtain ⟨rfl,rfl,rfl⟩ := known.unique parts
  have tag : rsplitOnce ':' "a/b:v1".toList = some ("a/b".toList,"v1".toList) := by decide
  rw [rsplitOnce_some.mpr ⟨cut,last⟩] at tag
  rw [(Prod.mk.inj (Option.some.inj tag)).2]
  decide

/-- A colon before a slash starts a tag. -/
theorem colon_misplaced : ParsedRef.parse ("ghcr.io/a:b/c@sha256:" ++ zeros) = .ok ⟨"ghcr.io","a",some "b/c",zeros⟩ ∧
    ¬ ∀ s r,ParsedRef.parse s = .ok r → Codec s r := by
  have parsed : ParsedRef.parse ("ghcr.io/a:b/c@sha256:" ++ zeros) = .ok ⟨"ghcr.io","a",some "b/c",zeros⟩ := by rfl
  refine ⟨parsed,fun all => ?_⟩
  have inside := (all _ _ parsed).split.colons ['a'] ['b','/','c'] (sha256Prefix ++ zeros.toList) (by rfl) (by decide) (by decide)
  exact absurd inside (by decide)

end AegisNode.Pull
