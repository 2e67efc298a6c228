import AegisNode.Identifiers
import AegisNode.UrlReading

/-!
The network clause of the pre-validation against the network policy: the clause asks for
the host and port of a URL over plain TCP, whatever its scheme.
-/
namespace AegisNode.UrlDecisions
open Text Schema Policy Traced Engine Mediator Uri UrlReading
set_option linter.unusedSectionVars false

/-! ### What a URL names -/

def schemeProto : Scheme → NetworkProto
  | .Http => .Http
  | .Https => .Https

def schemeProtocol : Scheme → NetworkProtocol
  | .Http => .Http
  | .Https => .Https

/-- A URL of the scheme names the host, as it writes it, and the effective port. -/
structure Names (url : String) (scheme : Scheme) (host : String) (port : UInt16) : Prop where
  schemed : (schemeOf url.toList).bind schemeNamed = some scheme
  authority : ∃ a : Authority,authorityOf url.toList = some a.text ∧ a.host = host.toList ∧
    effectivePort (some scheme.defaultPort.toNat) a.port = some port.toNat
  nonempty : host ≠ ""

/-- The scheme is in lower case, a path, a query or nothing follows the authority, there is
    no user, and the port is written with digits or left out behind a host without colons. -/
structure Straight (url : List Char) (a : Authority) : Prop where
  start : ∃ default tail,Start url (some default) (a.text ++ tail) ∧ Tail tail
  userless : a.userinfo = none
  port : a.port ≠ some [] ∧ (a.port = none → ':' ∉ a.host)

/-! ### What an allowlist lets through -/

/-- The entry is about the host and the port. -/
def Here (e : NetworkAllowEntry) (host : String) (port : UInt16) : Prop := e.host = host ∧ ∀ p,e.port = some p → p = port

/-- An allowlist, if there is one, has a matching entry. -/
def Lists (policy : Manifest) (host : String) (port : UInt16) (proto : NetworkProto) : Prop :=
  ∀ allowlist,outbound policy = some (.Allowlist allowlist) → ∃ e ∈ allowlist,matchesAllowEntry e host port proto = true

/-- For the host and the port an allowlist has an entry for any protocol, or one for TCP
    just when it has one for the scheme. -/
def Even (policy : Manifest) (host : String) (port : UInt16) (scheme : Scheme) : Prop :=
  ∀ allowlist,outbound policy = some (.Allowlist allowlist) → (∃ e ∈ allowlist,Here e host port ∧ e.protocol = none) ∨
    ((∃ e ∈ allowlist,Here e host port ∧ e.protocol = some .Tcp) ↔
      ∃ e ∈ allowlist,Here e host port ∧ e.protocol = some (schemeProtocol scheme))

theorem matches_tcp {e : NetworkAllowEntry} {host : String} {port : UInt16} :
    matchesAllowEntry e host port .Tcp = true ↔ Here e host port ∧ (e.protocol = none ∨ e.protocol = some .Tcp) := by
  have compatible : e.protocol.all (protoCompatible · .Tcp) = true ↔ e.protocol = none ∨ e.protocol = some .Tcp := by
    cases e.protocol with
    | none => simp
    | some protocol => cases protocol <;> simp [protoCompatible]
  rw [matchesAllowEntry,Bool.and_eq_true,Bool.and_eq_true,compatible,Here]
  simp [Option.all_eq_true]

theorem matches_scheme {e : NetworkAllowEntry} {host : String} {port : UInt16} {scheme : Scheme} :
    matchesAllowEntry e host port (schemeProto scheme) = true ↔
      Here e host port ∧ (e.protocol = none ∨ e.protocol = some (schemeProtocol scheme)) := by
  have compatible : e.protocol.all (protoCompatible · (schemeProto scheme)) = true ↔
      e.protocol = none ∨ e.protocol = some (schemeProtocol scheme) := by
    cases e.protocol with
    | none => simp
    | some protocol => cases protocol <;> cases scheme <;> simp [protoCompatible,schemeProto,schemeProtocol]
  rw [matchesAllowEntry,Bool.and_eq_true,Bool.and_eq_true,compatible,Here]
  simp [Option.all_eq_true]

theorem even_iff {policy : Manifest} {host : String} {port : UInt16} {scheme : Scheme} :
    Even policy host port scheme ↔ (Lists policy host port .Tcp ↔ Lists policy host port (schemeProto scheme)) := by
  unfold Even Lists
  simp only [matches_tcp,matches_scheme]
  cases outbound policy with
  | none => simp
  | some network =>
    cases network with
    | Mode mode => simp
    | Allowlist allowlist =>
      have split : ∀ protocol : NetworkProtocol,
          (∃ e ∈ allowlist,Here e host port ∧ (e.protocol = none ∨ e.protocol = some protocol)) ↔
            (∃ e ∈ allowlist,Here e host port ∧ e.protocol = none) ∨ ∃ e ∈ allowlist,Here e host port ∧ e.protocol = some protocol := by
        intro protocol
        simp only [← exists_or,← and_or_left]
      simp only [Option.some.injEq,NetworkPolicy.Allowlist.injEq,forall_eq',split]
      by_cases any : ∃ e ∈ allowlist,Here e host port ∧ e.protocol = none <;> simp [any]

/-! ### Two decisions -/

theorem place_injective {host other : String} {port port' : UInt16}
    (same : host ++ ":" ++ toString port.toNat = other ++ ":" ++ toString port'.toNat) : host = other ∧ port = port' := by
  have uncolonized : ∀ p : UInt16,':' ∉ (toString p.toNat).toList := by
    intro p member
    rw [Nat.toString_eq_repr,Nat.toList_repr] at member
    exact absurd (JsonText.isDigit_toDigits _ ':' member) (by decide)
  have lists : ∀ (h : String) (p : UInt16),(h ++ ":" ++ toString p.toNat).toList = h.toList ++ ':' :: (toString p.toNat).toList := by
    simp
  have cut := rsplitOnce_some.mpr ⟨lists host port,uncolonized port⟩
  rw [same,rsplitOnce_some.mpr ⟨lists other port',uncolonized port'⟩] at cut
  simp only [Option.some.injEq,Prod.mk.injEq,String.toList_inj] at cut
  exact ⟨cut.1.symm,UInt16.toNat_inj.mp (Identifiers.toString_injective cut.2.symm)⟩

/-- Two checks decide alike when both places are listed, or when neither is and they are
    the same place. -/
theorem check_eq_iff {policy : Manifest} {host other : String} {port port' : UInt16} {proto proto' : NetworkProto} :
    checkNetworkOutbound policy host port proto = checkNetworkOutbound policy other port' proto' ↔
      Lists policy host port proto ∧ Lists policy other port' proto' ∨
        (host = other ∧ port = port') ∧ ¬ Lists policy host port proto ∧ ¬ Lists policy other port' proto' := by
  unfold checkNetworkOutbound Lists
  cases outbound policy with
  | none => simp [networkDecision]
  | some network =>
    cases network with
    | Mode mode => cases mode <;> simp [networkDecision]
    | Allowlist allowlist =>
      have passes : ∀ {reason : String},upgradeForApproval policy .Allow .AnyNetworkOutbound "any_network_outbound requires approval" ≠ .Deny reason := by
        intro reason
        unfold upgradeForApproval
        dsimp only
        split_ifs <;> simp
      simp only [Option.some.injEq,NetworkPolicy.Allowlist.injEq,forall_eq',networkDecision,List.any_eq_true]
      by_cases first : ∃ e ∈ allowlist,matchesAllowEntry e host port proto = true
      · by_cases second : ∃ e ∈ allowlist,matchesAllowEntry e other port' proto' = true
        · simp [first,second]
        · simp only [first,second,if_true,if_false,and_false,not_true_eq_false,false_and,or_false,iff_false]
          exact passes
      · by_cases second : ∃ e ∈ allowlist,matchesAllowEntry e other port' proto' = true
        · simp only [first,second,if_true,if_false,false_and,not_true_eq_false,and_false,or_false,iff_false]
          exact passes.symm
        · simp only [first,second,if_false,false_and,false_or,not_false_eq_true,and_true]
          constructor
          · intro same
            have reasons := congrArg String.toList (Decision.Deny.inj same)
            simp only [String.append_assoc] at reasons
            simp only [String.toList_append] at reasons
            have places := List.append_cancel_left (List.append_cancel_left (List.append_cancel_left reasons))
            rw [← List.append_assoc,← List.append_assoc,← List.append_assoc,← List.append_assoc] at places
            apply place_injective
            rw [← String.toList_inj]
            simpa using List.append_cancel_right places
          · rintro ⟨rfl,rfl⟩
            rfl

/-! ### What the pre-validation reads in a URL -/

theorem Names.separated {url host : String} {scheme : Scheme} {port : UInt16} (names : Names url scheme host port) :
    "://".toList <:+: url.toList := by
  obtain ⟨a,authority,-⟩ := names.authority
  obtain ⟨name,named,-⟩ := Option.bind_eq_some_iff.mp names.schemed
  cases split : splitScheme url.toList with
  | mk start rest =>
    rw [schemeOf,split] at named
    cases (named : start = some name)
    have whole := splitScheme_some split
    simp only [authorityOf,split] at authority
    split at authority
    · rename_i after
      exact ⟨name,after,by rw [whole]; simp⟩
    · cases authority

theorem Names.referenced {url host : String} {scheme : Scheme} {port : UInt16} (names : Names url scheme host port) :
    reference url.toList = url.toList :=
  if_pos ((splitOnce_isSome (by decide)).mpr names.separated)

/-- A start in front of a named host is that of the scheme. -/
theorem Names.default {url host : String} {scheme : Scheme} {port : UInt16} {given : Option UInt16} {rest : List Char}
    (names : Names url scheme host port) (start : Start url.toList given rest) : given = some scheme.defaultPort := by
  have named := start.named.2
  rw [defaultPort,names.referenced,names.schemed] at named
  cases given with
  | none => cases named
  | some value => rw [UInt16.toNat_inj.mp (Option.some.inj named)]

theorem straight_reads {url host : String} {scheme : Scheme} {port : UInt16} {a : Authority} (names : Names url scheme host port)
    (authority : authorityOf url.toList = some a.text) (straight : Straight url.toList a) : Reads url.toList host.toList port := by
  obtain ⟨b,other,named,effective⟩ := names.authority
  cases Authority.text_injective (Option.some.inj (other.symm.trans authority))
  obtain ⟨default,tail,start,stops⟩ := straight.start
  refine ⟨⟨some default,a.text,tail,start,⟨fun slash => (a.text_open _ slash).1 rfl,fun question => (a.text_open _ question).2.1 rfl⟩,
    stops,?_⟩,fun empty => names.nonempty (String.toList_inj.mp empty)⟩
  have text : a.text = host.toList ++ portText a.port := by
    rw [Authority.text,straight.userless,← named]
    rfl
  rw [text]
  cases written : a.port with
  | none =>
    rw [written] at effective
    have same : some default = some port := by
      rw [names.default start]
      exact congrArg some (UInt16.toNat_inj.mp (Option.some.inj effective))
    simp only [portText,Option.elim_none,List.append_nil]
    exact .Default (named ▸ straight.port.2 written) same
  | some digits =>
    have nonempty : digits ≠ [] := fun empty => straight.port.1 (by rw [written,empty])
    have all := mem_one_star.mp (a.portFormed digits written)
    rw [written] at effective
    obtain ⟨c,rest,rfl⟩ := List.exists_cons_of_ne_nil nonempty
    exact .Explicit (.Digits ((decimal?_of_digits nonempty all).trans effective))

theorem reads_straight {url host : String} {scheme : Scheme} {port : UInt16} (names : Names url scheme host port)
    (reads : Reads url.toList host.toList port) : ∃ a : Authority,authorityOf url.toList = some a.text ∧ Straight url.toList a := by
  obtain ⟨a,authority,named,-⟩ := names.authority
  obtain ⟨default,front,tail,start,-,stops,written⟩ := reads.written
  have plain : ∀ c ∈ front,inside c = true := by
    have hosted : ∀ c ∈ host.toList,inside c = true := named ▸ host_inside a.hostFormed
    cases written with
    | Default => exact hosted
    | Explicit text =>
      intro c member
      rcases List.mem_append.mp member with member | member
      · exact hosted c member
      · rcases List.mem_cons.mp member with rfl | member
        · decide
        · exact inside_of_plainOrColon (text.plain c member)
  have whole : a.text = front := by
    have read := start.named.1
    rw [names.referenced,authority,takeWhile_front (fun c member => ends_of_inside (plain c member)) stops.ends] at read
    exact Option.some.inj read
  have userless : a.userinfo = none := by
    cases given : a.userinfo with
    | none => rfl
    | some user =>
      have member : '@' ∈ front := by
        rw [← whole,Authority.text,given]
        simp
      exact absurd (plain '@' member) (by decide)
  have joined : host.toList ++ portText a.port = front := by
    rw [← whole,Authority.text,userless,← named]
    rfl
  refine ⟨a,authority,⟨scheme.defaultPort,tail,?_,stops⟩,userless,?_⟩
  · rw [whole,← names.default start]
    exact start
  · cases written with
    | Default uncolonized =>
      have portless : a.port = none := by
        cases given : a.port with
        | none => rfl
        | some digits => simp [given,portText] at joined
      rw [portless,named]
      exact ⟨by simp,fun _ => uncolonized⟩
    | Explicit text =>
      have same := portText_injective (List.append_cancel_left joined : portText a.port = portText (some _))
      rw [same]
      cases text with
      | Digits number => exact ⟨by simpa using (decimal?_number number).1,by simp⟩
      | Signed number =>
        have digit := mem_one_star.mp (a.portFormed _ same) '+' List.mem_cons_self
        exact absurd digit (by decide)

/-- The pre-validation reads a URL as it is meant just when it is written straight. -/
theorem straight_iff {url host : String} {scheme : Scheme} {port : UInt16} (names : Names url scheme host port) :
    (∃ a : Authority,authorityOf url.toList = some a.text ∧ Straight url.toList a) ↔ Reads url.toList host.toList port :=
  ⟨fun ⟨_,authority,straight⟩ => straight_reads names authority straight,reads_straight names⟩

/-! ### The two decisions -/

section
variable [Clock.Chrono] [World]

/-- The clause decides for the URL as the policy does for what the URL names, over the
    protocol of its scheme. -/
def Agrees (s : Session) (serverName toolName : String) (clause : PreValidateClause) (url : String) (scheme : Scheme)
    (host : String) (port : UInt16) : Prop :=
  Runs (clauseDecision serverName toolName clause url) s (checkNetworkOutbound s.policy host port (schemeProto scheme)) s []

/-- The URL is written straight and the allowlist is even for what it names; or another
    host or port is read in it, and the allowlist has entries for both. -/
def Agreeable (policy : Manifest) (url : String) (scheme : Scheme) (host : String) (port : UInt16) : Prop :=
  (∃ a : Authority,authorityOf url.toList = some a.text ∧ Straight url.toList a) ∧ Even policy host port scheme ∨
    ∃ other port',Reads url.toList other.toList port' ∧ ¬ (other = host ∧ port' = port) ∧ Lists policy other port' .Tcp ∧
      Lists policy host port (schemeProto scheme)

theorem agrees_reads {s : Session} {serverName toolName url host : String} {clause : PreValidateClause} {scheme : Scheme}
    {port : UInt16} (kind : clause.kind = .NetworkOutbound) : Agrees s serverName toolName clause url scheme host port ↔
      ∃ other port',Reads url.toList other.toList port' ∧
        checkNetworkOutbound s.policy other port' .Tcp = checkNetworkOutbound s.policy host port (schemeProto scheme) := by
  unfold Agrees clauseDecision
  rw [kind]
  dsimp only
  rw [runs_orFail_bind]
  constructor
  · rintro ⟨⟨other,port'⟩,parsed,decides⟩
    exact ⟨other,port',parsePreValidateUrl_ok.mp parsed,(runs_reads.mp decides).1.symm⟩
  · rintro ⟨other,port',reads,same⟩
    exact ⟨(other,port'),parsePreValidateUrl_ok.mpr reads,runs_reads.mpr ⟨same.symm,rfl,rfl⟩⟩

/-- The pre-validation of a URL and the network policy agree on what the URL names just
    when their readings and the protocols of the allowlist do. -/
theorem prevalidation_agrees_iff {s : Session} {serverName toolName url host : String} {clause : PreValidateClause}
    {scheme : Scheme} {port : UInt16} (kind : clause.kind = .NetworkOutbound) (names : Names url scheme host port) :
    Agrees s serverName toolName clause url scheme host port ↔ Agreeable s.policy url scheme host port := by
  rw [agrees_reads kind,Agreeable,straight_iff names,even_iff]
  constructor
  · rintro ⟨other,port',reads,same⟩
    rcases check_eq_iff.mp same with ⟨first,second⟩ | ⟨⟨rfl,rfl⟩,first,second⟩
    · by_cases meant : other = host ∧ port' = port
      · obtain ⟨rfl,rfl⟩ := meant
        exact .inl ⟨reads,iff_of_true first second⟩
      · exact .inr ⟨other,port',reads,meant,first,second⟩
    · exact .inl ⟨reads,iff_of_false first second⟩
  · rintro (⟨reads,even⟩ | ⟨other,port',reads,-,first,second⟩)
    · refine ⟨host,port,reads,check_eq_iff.mpr ?_⟩
      by_cases listed : Lists s.policy host port .Tcp
      · exact .inl ⟨listed,even.mp listed⟩
      · exact .inr ⟨⟨rfl,rfl⟩,listed,fun other => listed (even.mpr other)⟩
    · exact ⟨other,port',reads,check_eq_iff.mpr (.inl ⟨first,second⟩)⟩

end

/-! ### An allowlist of one host -/

open scoped Reference

/-- The host may be reached on one port, over one protocol or any. -/
def egress (protocol : Option NetworkProtocol) : Manifest :=
  { closed with tools := ⟨none,some ⟨some (.Allowlist [⟨"api.example.com",some 443,protocol⟩]),none,none,none⟩,[],[],none⟩ }

def fetched : String := "https://api.example.com/v1"

def urlClause : PreValidateClause := ⟨.NetworkOutbound,some "url",none⟩

theorem fetched_alphabet : Alphabet "api.example.com".toList := alphabet_of_all (by decide +kernel)

/-- The host alone. -/
def fetchedAuthority : Authority := plainly "api.example.com".toList fetched_alphabet none (by simp)

theorem fetched_authority : authorityOf fetched.toList = some fetchedAuthority.text := by decide +kernel

theorem fetched_names : Names fetched .Https "api.example.com" 443 where
  schemed := by decide +kernel
  authority := ⟨fetchedAuthority,fetched_authority,rfl,rfl⟩
  nonempty := by decide

theorem fetched_straight : Straight fetched.toList fetchedAuthority := by
  have whole : fetched.toList = "https://".toList ++ (fetchedAuthority.text ++ "/v1".toList) := by decide +kernel
  refine ⟨⟨443,"/v1".toList,?_,?_⟩,rfl,by decide,fun _ => by decide⟩
  · rw [whole]
    exact .Https _
  · rintro c ⟨⟩
    exact .inl rfl

/-- An entry for any protocol is even. -/
theorem prevalidation_agrees_iff_any :
    let _ := Reference.calmWorld (egress none)
    ∃ booted,boot Reference.config = .ok booted ∧ Agrees booted "net" "fetch" urlClause fetched .Https "api.example.com" 443 := by
  intro world
  obtain ⟨booted,boots,fresh,-⟩ := Reference.calm_boots (egress none) rfl rfl
  have even : Even booted.policy "api.example.com" 443 .Https := by
    rw [fresh.policy]
    rintro allowlist ⟨⟩
    exact .inl ⟨_,List.mem_singleton_self _,⟨rfl,by simp⟩,rfl⟩
  have agreeable : Agreeable booted.policy fetched .Https "api.example.com" 443 :=
    .inl ⟨⟨fetchedAuthority,fetched_authority,fetched_straight⟩,even⟩
  exact ⟨booted,boots,(prevalidation_agrees_iff rfl fetched_names).mpr agreeable⟩

theorem fetched_parsed : parsePreValidateUrl fetched "net" "fetch" "url" = .ok ("api.example.com",443) := by decide +kernel

/-- Where the policy allows the host over HTTPS only, its URL does not pass. -/
theorem https_refused :
    let _ := Reference.calmWorld (egress (some .Https))
    ∃ booted,boot Reference.config = .ok booted ∧ Names fetched .Https "api.example.com" 443 ∧
      checkNetworkOutbound booted.policy "api.example.com" 443 .Https = .Allow ∧
      ¬ Agrees booted "net" "fetch" urlClause fetched .Https "api.example.com" 443 := by
  intro world
  obtain ⟨booted,boots,fresh,-⟩ := Reference.calm_boots (egress (some .Https)) rfl rfl
  refine ⟨booted,boots,fetched_names,by rw [fresh.policy]; decide,fun agrees => ?_⟩
  obtain ⟨other,port,reads,same⟩ := (agrees_reads rfl).mp agrees
  have parsed : parsePreValidateUrl fetched "net" "fetch" "url" = .ok (other,port) := parsePreValidateUrl_ok.mpr reads
  cases fetched_parsed.symm.trans parsed
  rw [fresh.policy] at same
  exact absurd same (by decide)

end AegisNode.UrlDecisions
