import AegisNode.Mediation

/-!
Connections and their protocols: the effect of a connect is always a TCP connection,
while the policy and the approvals are asked for the protocol of the request.
-/
namespace AegisNode.Transport
open Clock Json Schema Policy Grants Traced Engine Mediator Frames Approval Mediation Faultless
open Ledger hiding Error
set_option linter.unusedSectionVars false

/-! ### Protocols that TCP carries -/

def carried : List NetworkProto := [.Tcp,.Http,.Https]

/-- The policy allows the protocol there, perhaps with an approval that is advisory only. -/
def Passes (policy : Manifest) (host : String) (port : UInt16) (proto : NetworkProto) : Prop :=
  checkNetworkOutbound policy host port proto = .Allow ∨
    tierFor policy .Network = .Advisory ∧ ∃ summary,checkNetworkOutbound policy host port proto = .RequireApproval summary

/-- The policy permits a protocol there that TCP carries. -/
def Permits (policy : Manifest) (host : String) (port : UInt16) : Prop := ∃ proto ∈ carried,Passes policy host port proto

section
variable [Serde] [Sha256] [World]

/-- What a TCP connection rests on: the policy, or an approval, from a live grant or the
    operator, of an operation that names a protocol that TCP carries. -/
inductive Warranted (s : Session) (host : String) (port : UInt16) (requested : NetworkProto) (later : List Event) : Prop where
  | Permitted (permits : Permits s.policy host port)
  | Approved {proto : NetworkProto} {summary : String} (tcp : proto ∈ carried)
      (required : checkNetworkOutbound s.policy host port requested = .RequireApproval summary)
      (named : networkConnect host port requested = networkConnect host port proto)
      (tier : tierFor s.policy .Network ≠ .Advisory) (resolved : Resolved s (networkConnect host port proto) later)

end

/-- In every session of the manifest a call for the protocol connects to the host and port
    only, and on a warrant. -/
def Faithful (policy : Manifest) (host : String) (port : UInt16) (requested : NetworkProto) : Prop :=
  ∀ [Chrono] [Serde] [Sha256] [Identity] [World] [Adversarial.PerlWord] (cfg : BootConfig) (booted : Session),
    boot cfg = .ok booted → booted.policy = policy → ∀ (channel : Option ApprovalChannel) (client : Option McpClient)
    (earlier : List Call) (rsid : Option String) (pre post : List Event) (tick : Nat) (effect : Effect),
    let s := afterCalls (attach booted channel client) earlier
    (mediate (.NetworkConnect host port requested rsid) s).events = pre ++ .Performed tick effect :: post →
      effect = .Connect host port ∧ ∃ checked later,pre = checked ++ later ∧ Warranted s host port requested later

/-- A manifest that a session can be booted with. -/
structure Loads (policy : Manifest) : Prop where
  plain : policy.extendsRefs = []
  unreserved : rejectReserved policy = .ok ()

/-- The protocol is carried by TCP; or any is asked for, and what the policy lets pass
    without a grant is not UDP alone; or UDP is asked for, and denied or permitted beside
    another one. -/
def Restrained (policy : Manifest) (host : String) (port : UInt16) : NetworkProto → Prop
  | .Tcp | .Http | .Https => True
  | .Any => Passes policy host port .Any → Permits policy host port
  | .Udp => (∃ reason,checkNetworkOutbound policy host port .Udp = .Deny reason) ∨ Permits policy host port

theorem boot_loads [Chrono] [Serde] [Sha256] [Identity] [World] [Adversarial.PerlWord] {cfg : BootConfig} {s : Session}
    (boots : boot cfg = .ok s) : Loads s.policy := by
  have booted := boot_booted boots
  refine ⟨?_,booted.unreserved⟩
  have loaded := booted.loaded
  unfold loadPolicy at loaded
  split at loaded
  · cases loaded
  · rename_i doc found
    unfold fromDocument at loaded
    split_ifs at loaded with plain
    cases loaded
    exact plain

/-! ### Faithful connects -/

section
variable [Chrono] [Serde] [Sha256] [Identity] [World]

theorem connect_mediated {host : String} {port : UInt16} {requested : NetworkProto} {rsid : Option String} {s : Session}
    {pre post : List Event} {tick : Nat} {effect : Effect}
    (performed : (mediate (.NetworkConnect host port requested rsid) s).events = pre ++ .Performed tick effect :: post) :
    effect = .Connect host port ∧ ∃ checked later,pre = checked ++ later ∧
      (checkNetworkOutbound s.policy host port requested = .Allow ∨ ∃ summary,
        checkNetworkOutbound s.policy host port requested = .RequireApproval summary ∧
        Resolved s (networkConnect host port requested) later) := by
  obtain ⟨checked,decided,later,rfl,mediated⟩ := mediate_mediated performed
  obtain ⟨decision,⟨rfl,rfl⟩,allowed⟩ := mediated.decision
  have same := Option.some.inj mediated.effect
  refine ⟨same.symm,checked,later,by simp,?_⟩
  rcases allowed with allowed | ⟨summary,required,resourceUri,op,named,resolved⟩
  · exact .inl allowed
  · cases named
    exact .inr ⟨summary,required,resolved⟩

theorem restrained_warrants {host : String} {port : UInt16} {requested : NetworkProto} {s : Session} {later : List Event}
    (restrained : Restrained s.policy host port requested)
    (allowed : checkNetworkOutbound s.policy host port requested = .Allow ∨ ∃ summary,
      checkNetworkOutbound s.policy host port requested = .RequireApproval summary ∧
      Resolved s (networkConnect host port requested) later) : Warranted s host port requested later := by
  have own : ∀ proto ∈ carried,networkConnect host port requested = networkConnect host port proto →
      (Passes s.policy host port requested → Permits s.policy host port) → Warranted s host port requested later := by
    intro proto tcp named permits
    rcases allowed with allowed | ⟨summary,required,resolved⟩
    · exact .Permitted (permits (.inl allowed))
    · by_cases tier : tierFor s.policy .Network = .Advisory
      · exact .Permitted (permits (.inr ⟨tier,summary,required⟩))
      · exact .Approved tcp required named tier (named ▸ resolved)
  cases requested with
  | Tcp => exact own .Tcp (by simp [carried]) rfl fun passes => ⟨.Tcp,by simp [carried],passes⟩
  | Http => exact own .Http (by simp [carried]) rfl fun passes => ⟨.Http,by simp [carried],passes⟩
  | Https => exact own .Https (by simp [carried]) rfl fun passes => ⟨.Https,by simp [carried],passes⟩
  -- an operation for any protocol names TCP
  | Any => exact own .Tcp (by simp [carried]) rfl restrained
  | Udp =>
    rcases restrained with ⟨reason,denied⟩ | permits
    · rcases allowed with allowed | ⟨summary,required,-⟩
      · rw [denied] at allowed
        cases allowed
      · rw [denied] at required
        cases required
    · exact .Permitted permits

end

/-! ### A session that connects -/

section
variable [Chrono] [Serde] [Sha256] [World] {s : Session} {n : Nat}

/-- An approval that is advisory, or that the operator grants. -/
theorem approve_grants {op : Operation} {rsid : Option String} {summary : String} (ungranted : s.grantTable = ∅)
    (attached : s.approvalChannel = some (Reference.answering (.Granted "operator" 0))) (ready : Ready s (n+3)) :
    ∃ t events,Runs (approve op rsid summary) s .Allow t events := by
  by_cases tier : tierFor s.policy op.toolClass = .Advisory
  · have unreserved : Unreserved (Entries.advisoryFields op rsid) :=
      unreserved_append (unreserved_append (by simp [Unreserved,reservedKeys]) (unreserved_optional (by decide) _))
        (by simp [Unreserved])
    obtain ⟨record,ledger,runs,-⟩ := stamped_ready ready Error.Ledger .ApprovalDecision unreserved
    have advises := Runs.then_pure runs Decision.Allow
    have approves : approve op rsid summary s = (emitApprovalDecisionAdvisory op rsid >>= fun _ => pure Decision.Allow) s := by
      rw [approve,reads_bind,reads_bind,if_pos tier]
    exact ⟨_,_,approves.trans advises⟩
  · have none : lookup s.grantTable op.toolName op.canonicalArgs (World.systemNow s.tick) = none := by
      rw [ungranted]
      rfl
    obtain ⟨_,_,u,asks,-,left,-⟩ := approve_asks tier none attached rfl ready
    obtain ⟨_,_,_,_,_,_,t,_,takes,-⟩ := takeOutcome_grants op rsid (ttlSecsFor s.policy op.toolClass) (requestFor s op rsid summary) "operator" 0 left
    exact ⟨t,_,asks.runs takes⟩

variable [Identity]

/-- A connect that the policy allows, or leaves to an approval, is made. -/
theorem connect_performs {host : String} {port : UInt16} {requested : NetworkProto} (steady : Steady s)
    (undenied : ∀ reason,checkNetworkOutbound s.policy host port requested ≠ .Deny reason) (ungranted : s.grantTable = ∅)
    (attached : s.approvalChannel = some (Reference.answering (.Granted "operator" 0))) (ready : Ready s (n+3)) :
    ∃ pre tick post,(mediate (.NetworkConnect host port requested none) s).events = pre ++ .Performed tick (.Connect host port) :: post := by
  obtain ⟨checked,rebinds,-⟩ := rebind_steady steady
  let start := later s (fileCount s.configPath+1)
  have asked : Asked s start := ⟨_,rfl⟩
  have routes : ∃ t events,Runs (routeThroughApproval (checkNetworkOutbound s.policy host port requested)
      (networkConnect host port requested) none) start .Allow t events := by
    cases decided : checkNetworkOutbound s.policy host port requested with
    | Allow => exact ⟨start,[],runs_pure.mpr ⟨rfl,rfl,rfl⟩⟩
    | Deny reason => exact absurd decided (undenied reason)
    | RequireApproval summary => exact approve_grants ungranted attached (asked.ready ready)
  obtain ⟨t,events,routed⟩ := routes
  have decides : Runs (connectDecision host port requested) start (checkNetworkOutbound s.policy host port requested) start [] :=
    runs_reads.mpr ⟨rfl,rfl,rfl⟩
  have attempted : Runs (attempt caught (routeThroughApproval (checkNetworkOutbound s.policy host port requested)
      (networkConnect host port requested) none)) start (.ok .Allow) t events := runs_attempt_ok.mpr routed
  have whole : Continues (mediateNetworkConnect host port requested none) s
      (finishConnect (checkNetworkOutbound s.policy host port requested) host port requested none (.ok .Allow)) t
      (checked ++ ([] ++ events)) := rebinds.continues.trans (decides.continues.trans attempted.continues)
  obtain ⟨rest,connects⟩ : ∃ rest,(finishConnect (checkNetworkOutbound s.policy host port requested) host port requested none
      (.ok .Allow) t).events = .Performed t.tick (.Connect host port) :: rest := ⟨_,congrArg Outcome.events perform_bind⟩
  exact ⟨_,_,rest,whole.events.trans (congrArg ((checked ++ ([] ++ events)) ++ ·) connects)⟩

end

/-! ### When connects are faithful -/

section
open scoped Reference

theorem carried_other {host : String} {port : UInt16} {proto : NetworkProto} (tcp : proto ∈ carried) :
    networkConnect host port .Udp ≠ networkConnect host port proto := by
  intro same
  have uris := congrArg (fun op => op.resourceUri.toList) same
  simp only [carried,List.mem_cons,List.not_mem_nil,or_false] at tcp
  rcases tcp with rfl | rfl | rfl <;> simp [networkConnect,networkUri,protoText] at uris

/-- What a manifest that does not restrain a protocol leaves open. -/
theorem unrestrained_open {policy : Manifest} {host : String} {port : UInt16} {requested : NetworkProto}
    (unrestrained : ¬ Restrained policy host port requested) : ¬ Permits policy host port ∧
      (∀ reason,checkNetworkOutbound policy host port requested ≠ .Deny reason) ∧
      ∀ proto ∈ carried,networkConnect host port requested = networkConnect host port proto →
        Passes policy host port requested := by
  cases requested with
  | Tcp => exact absurd trivial unrestrained
  | Http => exact absurd trivial unrestrained
  | Https => exact absurd trivial unrestrained
  | Any =>
    simp only [Restrained,Classical.not_imp] at unrestrained
    refine ⟨unrestrained.2,?_,fun _ _ _ => unrestrained.1⟩
    intro reason denied
    rcases unrestrained.1 with allowed | ⟨-,summary,required⟩
    · rw [denied] at allowed
      cases allowed
    · rw [denied] at required
      cases required
  | Udp =>
    simp only [Restrained,not_or,not_exists] at unrestrained
    exact ⟨unrestrained.2,unrestrained.1,fun proto tcp same => absurd same (carried_other tcp)⟩

/-- Its session connects without a warrant. -/
theorem unrestrained_connects {policy : Manifest} {host : String} {port : UInt16} {requested : NetworkProto} (loads : Loads policy)
    (unrestrained : ¬ Restrained policy host port requested) : ¬ Faithful policy host port requested := by
  intro faithful
  obtain ⟨unpermitted,undenied,unasked⟩ := unrestrained_open unrestrained
  let _ := Reference.calmWorld policy
  obtain ⟨booted,boots,fresh,ready⟩ := Reference.calm_boots policy loads.plain loads.unreserved
  have steady := fresh.steady (fun _ _ => rfl) (some (Reference.answering (.Granted "operator" 0))) none
  rw [← fresh.policy] at undenied
  obtain ⟨pre,tick,post,performed⟩ := connect_performs steady undenied fresh.grants rfl
    ((ready.attach _ none).fewer (by decide : 3 ≤ 100))
  obtain ⟨-,checked,later,-,warranted⟩ := faithful Reference.config booted boots fresh.policy _ none [] none pre post tick _ performed
  have policies : (attach booted (some (Reference.answering (.Granted "operator" 0))) none).policy = policy := fresh.policy
  cases warranted with
  | Permitted permits =>
    rw [show (afterCalls (attach booted _ none) []).policy = policy from policies] at permits
    exact unpermitted permits
  | Approved tcp required named tier =>
    rw [show (afterCalls (attach booted _ none) []).policy = policy from policies] at required tier
    rcases unasked _ tcp named with allowed | ⟨advisory,-⟩
    · rw [required] at allowed
      cases allowed
    · exact tier advisory

/-- The connections of a manifest to a place rest on a protocol that TCP carries just when
    the manifest restrains the requested protocol there. -/
theorem faithful_iff (policy : Manifest) (host : String) (port : UInt16) (requested : NetworkProto) :
    Faithful policy host port requested ↔ (Loads policy → Restrained policy host port requested) := by
  constructor
  · intro faithful loads
    by_contra unrestrained
    exact unrestrained_connects loads unrestrained faithful
  · intro restrained _ _ _ _ _ _ cfg booted boots same channel client earlier rsid pre post tick effect s performed
    have policies : (afterCalls (attach booted channel client) earlier).policy = policy := by
      rw [(keeps_afterCalls earlier (attach booted channel client)).same]
      exact same
    obtain ⟨connects,checked,later,whole,allowed⟩ := connect_mediated performed
    refine ⟨connects,checked,later,whole,restrained_warrants ?_ allowed⟩
    exact policies ▸ restrained (same ▸ boot_loads boots)

/-- Only UDP is allowed, to one name server. -/
def resolving : Manifest :=
  { closed with tools := ⟨none,some ⟨some (.Allowlist [⟨"10.0.0.1",some 53,some .Udp⟩]),none,none,none⟩,[],[],none⟩ }

theorem resolving_unpermitted : ¬ Permits resolving "10.0.0.1" 53 := by
  rintro ⟨proto,tcp,passes⟩
  have denied : ∀ proto ∈ carried,checkNetworkOutbound resolving "10.0.0.1" 53 proto =
      .Deny "network outbound 10.0.0.1:53 not in manifest allowlist" := by decide
  rcases passes with allowed | ⟨-,summary,required⟩
  · rw [denied proto tcp] at allowed
    cases allowed
  · rw [denied proto tcp] at required
    cases required

/-- The entry for UDP authorises a TCP connection, for UDP and for any protocol. -/
theorem resolving_connects : ¬ Faithful resolving "10.0.0.1" 53 .Udp ∧ ¬ Faithful resolving "10.0.0.1" 53 .Any := by
  have loads : Loads resolving := ⟨rfl,rfl⟩
  have udp : checkNetworkOutbound resolving "10.0.0.1" 53 .Udp = .Allow := by decide
  have any : checkNetworkOutbound resolving "10.0.0.1" 53 .Any = .Allow := by decide
  constructor
  · refine unrestrained_connects loads ?_
    rintro (⟨reason,denied⟩ | permits)
    · rw [udp] at denied
      cases denied
    · exact resolving_unpermitted permits
  · exact unrestrained_connects loads (fun restrained => resolving_unpermitted (restrained (.inl any)))

end

end AegisNode.Transport
