import AegisNode.LocalCa
import AegisNode.ForkConfinement

/-!
The texts and bytes an identity travels in: the SPIFFE URI, and the payloads of the
certificate's extensions.
-/
namespace AegisNode.LocalCa
open Text Ledger Engine

/-! ### Reading a SPIFFE URI -/

def scheme : List Char := "spiffe://".toList
def agentSegment : List Char := "agent".toList

/-- `str::splitn` at a character, with `n+1` pieces at most. -/
def splitN (c : Char) : Nat → List Char → List (List Char)
  | 0,text => [text]
  | n+1,text =>
    match splitOnce [c] text with
    | none => [text]
    | some (piece,rest) => piece :: splitN c n rest

def SpiffeId.parse (input : String) : Except String SpiffeId :=
  match stripPrefix scheme input.toList with
  | none => .error (invalidSpiffeId input "missing spiffe:// scheme")
  | some rest =>
    match splitN '/' 3 rest with
    | [] => .error (invalidSpiffeId input "missing trust domain")
    | [_] => .error (invalidSpiffeId input "missing path")
    | [_,_] => .error (invalidSpiffeId input "missing workload-name segment")
    | [_,_,_] => .error (invalidSpiffeId input "missing instance segment")
    | trustDomain :: agentSeg :: workload :: inst :: _ =>
      if agentSeg ≠ agentSegment then .error (invalidSpiffeId input "first path segment must be 'agent'")
      else if '/' ∈ inst then .error (invalidSpiffeId input "trailing path segments not allowed")
      else SpiffeId.new (String.ofList trustDomain) (String.ofList workload) (String.ofList inst)

/-! ### The documented grammar -/

/-- `[a-z0-9._-]` -/
def TrustDomainLetter (c : Char) : Prop := ('a' ≤ c ∧ c ≤ 'z') ∨ ('0' ≤ c ∧ c ≤ '9') ∨ c ∈ ['.','_','-']

/-- `[A-Za-z0-9._~-]` -/
def SegmentLetter (c : Char) : Prop :=
  ('A' ≤ c ∧ c ≤ 'Z') ∨ ('a' ≤ c ∧ c ≤ 'z') ∨ ('0' ≤ c ∧ c ≤ '9') ∨ c ∈ ['.','_','~','-']

def TrustDomain (name : List Char) : Prop := 1 ≤ name.length ∧ name.length ≤ 255 ∧ ∀ c ∈ name,TrustDomainLetter c

def Segment (name : List Char) : Prop := 1 ≤ name.length ∧ name.length ≤ 63 ∧ ∀ c ∈ name,SegmentLetter c

/-- `spiffe://<trust-domain>/agent/<workload>/<instance>` -/
def WellFormed (text : String) : Prop :=
  ∃ trustDomain workload inst : List Char,TrustDomain trustDomain ∧ Segment workload ∧ Segment inst ∧
    text.toList = "spiffe://".toList ++ trustDomain ++ "/agent/".toList ++ workload ++ "/".toList ++ inst

theorem trustDomainChar_iff {c : Char} : trustDomainChar c = true ↔ TrustDomainLetter c := by
  simp only [trustDomainChar,TrustDomainLetter,isAsciiLower,isAsciiDigit,Bool.or_eq_true,Bool.and_eq_true,decide_eq_true_eq,
    List.mem_cons,List.not_mem_nil,or_false]
  tauto

theorem segmentChar_iff {c : Char} : segmentChar c = true ↔ SegmentLetter c := by
  simp only [segmentChar,SegmentLetter,isAsciiLower,isAsciiUpper,isAsciiDigit,Bool.or_eq_true,Bool.and_eq_true,decide_eq_true_eq,
    List.mem_cons,List.not_mem_nil,or_false]
  tauto

theorem TrustDomainLetter.segment {c : Char} (letter : TrustDomainLetter c) : SegmentLetter c := by
  simp only [TrustDomainLetter,SegmentLetter,List.mem_cons,List.not_mem_nil,or_false] at letter ⊢
  tauto

theorem SegmentLetter.ascii {c : Char} (letter : SegmentLetter c) : c.toNat < 128 := by
  simp only [SegmentLetter,List.mem_cons,List.not_mem_nil,or_false,Char.le_def,UInt32.le_iff_toNat_le] at letter
  rcases letter with range | range | range | rfl | rfl | rfl | rfl
  · exact range.2.trans_lt (by decide)
  · exact range.2.trans_lt (by decide)
  · exact range.2.trans_lt (by decide)
  all_goals decide

theorem SegmentLetter.no_slash {c : Char} (letter : SegmentLetter c) : c ≠ '/' := by
  rintro rfl
  simp only [SegmentLetter] at letter
  revert letter
  decide

/-- A text of ASCII characters has a byte for each. -/
theorem encode_length {chars : List Char} (ascii : ∀ c ∈ chars,c.toNat < 128) :
    (Bytes.encode (String.ofList chars)).length = chars.length := by
  rw [Bytes.encode,String.toList_ofList]
  induction chars with
  | nil => rfl
  | cons c rest ih =>
    have single := String.utf8EncodeChar_eq_singleton (ForkConfinement.utf8Size_ascii (ascii c List.mem_cons_self))
    rw [List.flatMap_cons,single,List.length_append,ih (fun other member => ascii other (List.mem_cons_of_mem _ member)),
      List.length_cons,List.length_cons,List.length_nil]
    omega

/-! ### The validators accept the grammar -/

theorem validateTrustDomain_ok {td : String} : validateTrustDomain td = .ok () ↔ TrustDomain td.toList := by
  have letters : td.toList.all trustDomainChar = true ↔ ∀ c ∈ td.toList,TrustDomainLetter c := by
    simp only [List.all_eq_true,trustDomainChar_iff]
  rw [validateTrustDomain]
  by_cases all : ∀ c ∈ td.toList,TrustDomainLetter c
  · have bytes := encode_length fun c member => ((all c member).segment).ascii
    rw [String.ofList_toList] at bytes
    have empty : td = "" ↔ td.toList.length = 0 := by rw [List.length_eq_zero_iff,String.toList_eq_nil_iff]
    simp only [bytes,empty]
    split_ifs with bad
    · refine ⟨fun accepted => (by cases accepted),fun valid => ?_⟩
      have := valid.1
      have := valid.2.1
      rcases bad with none | long | other
      · omega
      · omega
      · exact absurd (letters.mpr all) other
    · push Not at bad
      exact ⟨fun _ => ⟨by omega,bad.2.1,all⟩,fun _ => rfl⟩
  · rw [if_pos (Or.inr (Or.inr (by rw [letters]; exact all)))]
    exact ⟨fun accepted => (by cases accepted),fun valid => absurd valid.2.2 all⟩

theorem validateSegment_ok {seg : String} : validateSegment seg = .ok () ↔ Segment seg.toList := by
  have letters : seg.toList.all segmentChar = true ↔ ∀ c ∈ seg.toList,SegmentLetter c := by
    simp only [List.all_eq_true,segmentChar_iff]
  rw [validateSegment]
  by_cases all : ∀ c ∈ seg.toList,SegmentLetter c
  · have bytes := encode_length fun c member => (all c member).ascii
    rw [String.ofList_toList] at bytes
    have empty : seg = "" ↔ seg.toList.length = 0 := by rw [List.length_eq_zero_iff,String.toList_eq_nil_iff]
    rw [if_pos (letters.mpr all)]
    simp only [bytes,empty]
    split_ifs with bad
    · refine ⟨fun accepted => (by cases accepted),fun valid => ?_⟩
      have := valid.1
      have := valid.2.1
      omega
    · exact ⟨fun _ => ⟨by omega,by omega,all⟩,fun _ => rfl⟩
  · rw [if_neg fun valid => all (letters.mp valid)]
    constructor
    · intro ok
      split_ifs at ok
    · exact fun valid => absurd valid.2.2 all

theorem SpiffeId.new_ok {trustDomain workloadName instanceName : String} {id : SpiffeId} :
    SpiffeId.new trustDomain workloadName instanceName = .ok id ↔ TrustDomain trustDomain.toList ∧
      Segment workloadName.toList ∧ Segment instanceName.toList ∧ id = ⟨trustDomain,workloadName,instanceName⟩ := by
  rw [← validateTrustDomain_ok,← validateSegment_ok,← validateSegment_ok,SpiffeId.new]
  constructor
  · intro made
    obtain ⟨⟨⟩,domain,made⟩ := Ledger.bind_ok.mp made
    obtain ⟨⟨⟩,workload,made⟩ := Ledger.bind_ok.mp made
    obtain ⟨⟨⟩,inst,made⟩ := Ledger.bind_ok.mp made
    cases made
    exact ⟨domain,workload,inst,rfl⟩
  · rintro ⟨domain,workload,inst,rfl⟩
    rw [domain,workload,inst]
    rfl

/-! ### Splitting at the slashes -/

theorem splitN_cons {c : Char} {n : Nat} {text piece next : List Char} {more : List (List Char)}
    (pieces : splitN c (n+1) text = piece :: next :: more) :
    ∃ rest,text = piece ++ c :: rest ∧ c ∉ piece ∧ splitN c n rest = next :: more := by
  rw [splitN] at pieces
  split at pieces
  · cases pieces
  · rename_i first rest cut
    obtain ⟨rfl,later⟩ := List.cons.inj pieces
    rw [splitOnce_single] at cut
    exact ⟨rest,cut.1,cut.2,later⟩

theorem splitN_append {c : Char} (n : Nat) {piece : List Char} (absent : c ∉ piece) (rest : List Char) :
    splitN c (n+1) (piece ++ c :: rest) = piece :: splitN c n rest := by
  rw [splitN,splitOnce_single.mpr ⟨rfl,absent⟩]

theorem Segment.no_slash {name : List Char} (segment : Segment name) : '/' ∉ name :=
  fun member => (segment.2.2 _ member).no_slash rfl

theorem TrustDomain.no_slash {name : List Char} (domain : TrustDomain name) : '/' ∉ name :=
  fun member => (domain.2.2 _ member).segment.no_slash rfl

theorem SpiffeId.uri_toList (id : SpiffeId) : id.uri.toList = scheme ++
    (id.trustDomain.toList ++ '/' :: (agentSegment ++ '/' :: (id.workloadName.toList ++ '/' :: id.instanceName.toList))) := by
  have middle : "/agent/".toList = '/' :: (agentSegment ++ ['/']) := rfl
  have slash : "/".toList = ['/'] := rfl
  have front : "spiffe://".toList = scheme := rfl
  unfold SpiffeId.uri
  rw [String.toList_append,String.toList_append,String.toList_append,String.toList_append,String.toList_append,middle,slash,front]
  generalize scheme = start
  generalize agentSegment = agent
  simp only [List.append_assoc,List.cons_append,List.nil_append]

/-- What is accepted is the rendering of a valid identity. -/
theorem SpiffeId.parse_ok {text : String} {id : SpiffeId} : SpiffeId.parse text = .ok id ↔
    TrustDomain id.trustDomain.toList ∧ Segment id.workloadName.toList ∧ Segment id.instanceName.toList ∧ text = id.uri := by
  constructor
  · intro parsed
    rw [SpiffeId.parse] at parsed
    split at parsed
    · cases parsed
    rename_i rest stripped
    split at parsed
    any_goals cases parsed
    rename_i trustDomain agentSeg workload inst more pieces
    split_ifs at parsed with agent slash
    rw [not_not] at agent
    obtain ⟨after,rfl,-,pieces⟩ := splitN_cons pieces
    obtain ⟨after,rfl,-,pieces⟩ := splitN_cons pieces
    obtain ⟨after,rfl,-,pieces⟩ := splitN_cons pieces
    cases pieces
    obtain ⟨domain,segment,instSegment,rfl⟩ := SpiffeId.new_ok.mp parsed
    refine ⟨domain,segment,instSegment,?_⟩
    rw [← String.toList_inj,SpiffeId.uri_toList]
    simp only [String.toList_ofList]
    rw [← agent]
    exact stripPrefix_some.mp stripped
  · rintro ⟨domain,segment,instSegment,rfl⟩
    have stripped : stripPrefix scheme id.uri.toList = some _ := stripPrefix_some.mpr id.uri_toList
    rw [SpiffeId.parse,stripped]
    dsimp only
    rw [splitN_append 2 domain.no_slash,splitN_append 1 (by decide),splitN_append 0 segment.no_slash,splitN]
    dsimp only
    rw [if_neg (by simp),if_neg instSegment.no_slash]
    simp only [String.ofList_toList]
    exact SpiffeId.new_ok.mpr ⟨domain,segment,instSegment,rfl⟩

theorem wellFormed_iff {text : String} : WellFormed text ↔ ∃ id : SpiffeId,TrustDomain id.trustDomain.toList ∧
    Segment id.workloadName.toList ∧ Segment id.instanceName.toList ∧ text = id.uri := by
  have documented (trustDomain workload inst : List Char) :
      "spiffe://".toList ++ trustDomain ++ "/agent/".toList ++ workload ++ "/".toList ++ inst =
        (SpiffeId.uri ⟨String.ofList trustDomain,String.ofList workload,String.ofList inst⟩).toList := by
    unfold SpiffeId.uri
    simp only [String.toList_append,String.toList_ofList]
  constructor
  · rintro ⟨trustDomain,workload,inst,domain,segment,instSegment,whole⟩
    rw [documented,String.toList_inj] at whole
    refine ⟨_,?_,?_,?_,whole⟩
    · simpa only [String.toList_ofList] using domain
    · simpa only [String.toList_ofList] using segment
    · simpa only [String.toList_ofList] using instSegment
  · rintro ⟨id,domain,segment,instSegment,rfl⟩
    refine ⟨id.trustDomain.toList,id.workloadName.toList,id.instanceName.toList,domain,segment,instSegment,?_⟩
    rw [documented]
    simp only [String.ofList_toList]

/-- A URI is accepted when it has the documented shape; parsing and rendering undo each other. -/
theorem spiffe_grammar :
    (∀ text,(∃ id,SpiffeId.parse text = .ok id) ↔ WellFormed text) ∧
    (∀ trustDomain workloadName instanceName id,SpiffeId.new trustDomain workloadName instanceName = .ok id →
      SpiffeId.parse id.uri = .ok id) ∧
    (∀ text id,SpiffeId.parse text = .ok id → id.uri = text) ∧
    ∀ left right : SpiffeId,SpiffeId.new left.trustDomain left.workloadName left.instanceName = .ok left →
      SpiffeId.new right.trustDomain right.workloadName right.instanceName = .ok right → left.uri = right.uri → left = right := by
  have back : ∀ {trustDomain workloadName instanceName id},SpiffeId.new trustDomain workloadName instanceName = .ok id →
      SpiffeId.parse id.uri = .ok id := by
    intro trustDomain workloadName instanceName id made
    obtain ⟨domain,segment,instSegment,rfl⟩ := SpiffeId.new_ok.mp made
    exact SpiffeId.parse_ok.mpr ⟨domain,segment,instSegment,rfl⟩
  refine ⟨fun text => ?_,fun _ _ _ _ => back,fun text id parsed => (SpiffeId.parse_ok.mp parsed).2.2.2.symm,?_⟩
  · rw [wellFormed_iff]
    exact exists_congr fun id => SpiffeId.parse_ok
  · intro left right made made' same
    have parsed := back made
    rw [same,back made'] at parsed
    exact (Except.ok.inj parsed).symm

theorem spiffe_grammar_inst : SpiffeId.parse "spiffe://aegis-node.local/agent/research/inst-001" =
    .ok ⟨"aegis-node.local","research","inst-001"⟩ :=
  spiffe_grammar.2.1 "aegis-node.local" "research" "inst-001" ⟨"aegis-node.local","research","inst-001"⟩ rfl

/-! ### The turn binding -/

/-- `MAX_TURN_BINDING_LEN` -/
def maxTurnBindingLen : Nat := 2+512

/-- The audience's binding keeps within its budget, is read back whatever follows it, and is
    refused when the audience is empty or beyond the budget. -/
structure Encodes (audience : String) : Prop where
  bounded : ∀ bytes,encodeTurnBinding audience = .ok bytes → bytes.length ≤ maxTurnBindingLen
  inverted : ∀ bytes suffix,encodeTurnBinding audience = .ok bytes → decodeTurnBinding (bytes ++ suffix) = .ok audience
  refused : audience = "" ∨ maxTurnBindingLen < 2+(Bytes.encode audience).length → ∀ bytes,encodeTurnBinding audience ≠ .ok bytes

theorem encodes_iff {audience : String} :
    Encodes audience ↔ (Bytes.encode audience).length ≤ 512 ∨ 2^16 ≤ (Bytes.encode audience).length := by
  constructor
  · intro codec
    by_contra between
    push Not at between
    have some : audience ≠ "" := by
      rintro rfl
      exact absurd between.1 (by decide)
    exact codec.refused (Or.inr (by rw [maxTurnBindingLen]; omega)) _ (encodeTurnBinding_ok.mpr ⟨some,between.2,rfl⟩)
  · intro fits
    refine ⟨fun bytes encoded => ?_,fun bytes suffix encoded => decodeTurnBinding_append encoded suffix,?_⟩
    · obtain ⟨-,short,rfl⟩ := encodeTurnBinding_ok.mp encoded
      rw [List.length_cons,List.length_cons,maxTurnBindingLen]
      omega
    · intro unfit bytes encoded
      obtain ⟨some,short,-⟩ := encodeTurnBinding_ok.mp encoded
      rw [maxTurnBindingLen] at unfit
      rcases unfit with empty | long
      · exact some empty
      · omega

theorem digestFromBytes_ok {bytes : List UInt8} {digest : Digest} : digestFromBytes bytes = .ok digest ↔ bytes = digest.bytes := by
  constructor
  · intro read
    rw [digestFromBytes] at read
    split_ifs at read
    cases read
    rfl
  · rintro rfl
    exact digestFromBytes_bytes digest

theorem decodeDigests_ok {bytes : List UInt8} {digests : DigestTriple} :
    decodeDigests bytes = .ok digests ↔ bytes = encodeDigests digests := by
  constructor
  · intro decoded
    rw [decodeDigests] at decoded
    split_ifs at decoded with size
    obtain ⟨model,readModel,decoded⟩ := Ledger.bind_ok.mp decoded
    obtain ⟨manifest,readManifest,decoded⟩ := Ledger.bind_ok.mp decoded
    obtain ⟨config,readConfig,decoded⟩ := Ledger.bind_ok.mp decoded
    cases decoded
    rw [encodeDigests,← digestFromBytes_ok.mp readModel,← digestFromBytes_ok.mp readManifest,
      ← digestFromBytes_ok.mp readConfig,← List.take_add,List.take_append_drop]
  · rintro rfl
    exact decodeDigests_encodeDigests digests

/-- The turn binding's codec holds to its budget except between the budget and the length
    prefix; the digests' is exact. -/
theorem extension_codecs (audience : String) (bytes : List UInt8) (digests : DigestTriple) :
    (Encodes audience ↔ (Bytes.encode audience).length ≤ 512 ∨ 2^16 ≤ (Bytes.encode audience).length) ∧
      (decodeDigests bytes = .ok digests ↔ bytes = encodeDigests digests) :=
  ⟨encodes_iff,decodeDigests_ok⟩

def letters (n : Nat) : String := String.ofList (List.replicate n 'a')

theorem encode_letters (n : Nat) : (Bytes.encode (letters n)).length = n := by
  have ascii : ∀ c ∈ List.replicate n 'a',c.toNat < 128 := by
    intro c member
    rw [List.eq_of_mem_replicate member]
    decide
  rw [letters,encode_length ascii,List.length_replicate]

/-- An audience one byte over the budget. -/
def overlong : String := letters 513

theorem overlong_encoded : (∃ bytes,encodeTurnBinding overlong = .ok bytes ∧ maxTurnBindingLen < bytes.length) ∧
    ¬ ∀ audience,Encodes audience := by
  have size : (Bytes.encode overlong).length = 513 := encode_letters 513
  have some : overlong ≠ "" := by
    intro empty
    rw [empty] at size
    exact absurd size (by decide)
  have encoded := encodeTurnBinding_ok.mpr ⟨some,by omega,rfl⟩
  have beyond : maxTurnBindingLen < (UInt8.ofNat ((Bytes.encode overlong).length/256) ::
      UInt8.ofNat ((Bytes.encode overlong).length%256) :: Bytes.encode overlong).length := by
    rw [List.length_cons,List.length_cons,size,maxTurnBindingLen]
    omega
  exact ⟨⟨_,encoded,beyond⟩,fun all => absurd ((all overlong).bounded _ encoded) (by omega)⟩

end AegisNode.LocalCa
