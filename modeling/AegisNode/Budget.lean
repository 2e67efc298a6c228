import AegisNode.Quota
import AegisNode.Reference

/-!
What a refused call costs: which calls change the counts of the session, and when the
counts are those of the effects.
-/
namespace AegisNode.Budget
open Clock Json Schema Policy Aggregate Traced Engine Mediator Frames Quota
open Ledger hiding Error
set_option linter.unusedSectionVars false

/-- The class a call is charged to. -/
def chargedTo : Call → ToolClass
  | .FilesystemRead _ _ => .Filesystem
  | .FilesystemWrite _ _ _ => .Filesystem
  | .FilesystemDelete _ _ => .Filesystem
  | .NetworkConnect _ _ _ _ => .Network
  | .McpToolCall serverName _ _ _ => .Mcp serverName
  | .Exec _ _ _ => .Exec

/-- The count cannot grow any more. -/
def Full (s : Session) (toolClass : ToolClass) : Prop := (snapshot s.aggregateState toolClass).toNat+1 = 2^64

instance (s : Session) (toolClass : ToolClass) : Decidable (Full s toolClass) :=
  inferInstanceAs (Decidable ((snapshot s.aggregateState toolClass).toNat+1 = 2^64))

/-- A call to an MCP server in a session without a client. -/
def Unattached (s : Session) : Call → Prop
  | .McpToolCall _ _ _ _ => s.mcpClient = none
  | _ => False

section
variable [Chrono] [Serde] [Sha256] [Identity] [World]

/-- What comes before the charge of a call: the rebind, the decision and the approval. -/
def gate {α : Type} (g : Gated α) (rsid : Option String) : Run (String × Decision) := do
  rebind
  let decision ← g.decision
  let resourceUri ← g.resourceUri
  let decision ← routeThroughApproval decision (g.operation resourceUri) rsid
  return (resourceUri,decision)

/-- The same for an MCP call that the policy allows: the rebind and the clauses. -/
def gateMcp (grant : McpServerGrant) (serverName toolName : String) (args : Value) : Run Unit := do
  rebind
  runMcpPreValidate serverName toolName args (declaredClauses grant toolName)

/-- The call is let through up to its charge. -/
def Passes (s : Session) : Call → Prop
  | .FilesystemRead path rsid => ∃ uri t events,Runs (gate (filesystemRead path) rsid) s (uri,.Allow) t events
  | .FilesystemWrite path contents rsid => ∃ uri t events,Runs (gate (filesystemWrite path contents) rsid) s (uri,.Allow) t events
  | .FilesystemDelete path rsid => ∃ uri t events,Runs (gate (filesystemDelete path) rsid) s (uri,.Allow) t events
  | .NetworkConnect _ _ _ _ => False
  | .McpToolCall serverName toolName args _ => checkMcpTool s.policy serverName toolName = .Allow ∧
      ∃ grant,serverGrant s.policy serverName = some grant ∧ ∃ t events,Runs (gateMcp grant serverName toolName args) s () t events
  | .Exec program args rsid => ∃ uri t events,Runs (gate (execRun program args) rsid) s (uri,.Allow) t events

/-- The call passes, and its class has room for it. -/
structure Admitted (s : Session) (call : Call) : Prop where
  passes : Passes s call
  room : ∃ counted,checkAndIncrement s.aggregateState (chargedTo call) (quotaFor s.policy (chargedTo call)) = .ok counted

/-- A call without an effect leaves the counts, and one with an effect adds one to the
    count of its class. -/
structure Honest (s : Session) (call : Call) : Prop where
  refused : (∀ tick effect,.Performed tick effect ∉ (mediate call s).events) →
    ∀ other,snapshot (mediate call s).state.aggregateState other = snapshot s.aggregateState other
  charged : ∀ tick effect,.Performed tick effect ∈ (mediate call s).events → ∀ other,
    (snapshot (mediate call s).state.aggregateState other).toNat =
      (snapshot s.aggregateState other).toNat+if other = chargedTo call then 1 else 0

/-! ### What a call comes to -/

/-- A call is refused before the charge, or charged; what is charged is performed if there
    is somebody to perform it. -/
inductive Comes (own : ToolClass) (admitted attended : Prop) (a : Session) (events : List Event) (b : Session) : Prop where
  | Refused (unadmitted : ¬ admitted) (still : Still a events b)
  | Charged (admission : admitted)
      (counts : b.aggregateState = a.aggregateState.insert own (succSaturating (snapshot a.aggregateState own)))
      (performed : (∃ tick effect,.Performed tick effect ∈ events) ↔ attended)

theorem still_unperformed {a b : Session} {events : List Event} (still : Still a events b) (tick : Nat) (effect : Effect) :
    .Performed tick effect ∉ events := fun member => still.quiet _ member

theorem Comes.after_still {own : ToolClass} {admitted attended : Prop} {a b c : Session} {left right : List Event}
    (still : Still a left b) (comes : Comes own admitted attended b right c) : Comes own admitted attended a (left ++ right) c := by
  cases comes with
  | Refused unadmitted later => exact .Refused unadmitted (still_composes.append still later)
  | Charged admission counts performed =>
    refine .Charged admission (by rw [counts,still.counts]) ?_
    rw [← performed]
    constructor
    · rintro ⟨tick,effect,member⟩
      rcases List.mem_append.mp member with early | late
      · exact absurd early (still_unperformed still tick effect)
      · exact ⟨tick,effect,late⟩
    · rintro ⟨tick,effect,member⟩
      exact ⟨tick,effect,List.mem_append_right _ member⟩

/-- The quota is full, and the call is refused. -/
theorem quota_refuses {toolClass : ToolClass} (resourceUri accessKind : String) {s : Session} {breach : AggregateCapExceeded}
    (full : checkAndIncrement s.aggregateState toolClass (quotaFor s.policy toolClass) = .error breach) :
    (∃ stop,(enforceAggregateQuota toolClass resourceUri accessKind s).result = .error stop) ∧
      Still s (enforceAggregateQuota toolClass resourceUri accessKind s).events
        (enforceAggregateQuota toolClass resourceUri accessKind s).state := by
  rcases enforceAggregateQuota_counts toolClass resourceUri accessKind s with ⟨refused,counts⟩ | ⟨-,-,below⟩
  · have frame := counts_enforceAggregateQuota toolClass resourceUri accessKind s
    refine ⟨refused,⟨by rw [frame.same],counts,?_⟩⟩
    exact fun e member => Unanswered.quiet e (Plain.unanswered e (frame.each e member))
  · unfold checkAndIncrement at full
    split at full
    · rename_i cap capped
      dsimp only at full
      split_ifs at full with reached
      exact absurd (below cap capped) (UInt64.not_lt.mpr reached)
    · cases full

theorem room_iff {s : Session} {toolClass : ToolClass} :
    Faultless.Room s toolClass (s.aggregateState.insert toolClass (succSaturating (snapshot s.aggregateState toolClass))) ↔
      ∃ counted,checkAndIncrement s.aggregateState toolClass (quotaFor s.policy toolClass) = .ok counted := by
  constructor
  · rintro ⟨n,passed⟩
    exact ⟨_,passed⟩
  · rintro ⟨⟨n,state⟩,passed⟩
    obtain ⟨-,rfl⟩ := checkAndIncrement_ok passed
    exact ⟨n,passed⟩

/-- The charge and what follows it. -/
theorem charge_comes {α : Type} (own : ToolClass) (resourceUri accessKind : String) (rest : Run α) (attended : Option McpClient → Prop)
    (performs : ∀ t,(rest t).state.aggregateState = t.aggregateState ∧
      ((∃ tick effect,.Performed tick effect ∈ (rest t).events) ↔ attended t.mcpClient)) (s : Session) :
    Comes own (∃ counted,checkAndIncrement s.aggregateState own (quotaFor s.policy own) = .ok counted) (attended s.mcpClient) s
      ((enforceAggregateQuota own resourceUri accessKind >>= fun _ => rest) s).events
      ((enforceAggregateQuota own resourceUri accessKind >>= fun _ => rest) s).state := by
  cases checked : checkAndIncrement s.aggregateState own (quotaFor s.policy own) with
  | error breach =>
    obtain ⟨⟨stop,refused⟩,still⟩ := quota_refuses resourceUri accessKind checked
    rw [bind_error refused]
    refine .Refused ?_ still
    rintro ⟨_,passed⟩
    cases passed
  | ok counted =>
    have room := room_iff.mpr ⟨counted,checked⟩
    have charges := Faultless.enforceAggregateQuota_room room resourceUri accessKind
    obtain ⟨counts,performed⟩ := performs
      { s with aggregateState := s.aggregateState.insert own (succSaturating (snapshot s.aggregateState own)) }
    rw [bind_ok charges.result,charges.events,charges.state]
    exact .Charged ⟨counted,rfl⟩ counts performed

theorem Comes.mono {own : ToolClass} {admitted admitted' attended attended' : Prop} {a b : Session} {events : List Event}
    (same : admitted ↔ admitted') (same' : attended ↔ attended') (comes : Comes own admitted attended a events b) :
    Comes own admitted' attended' a events b := by
  rwa [← same,← same']

/-- An effect and what is logged after it. -/
theorem perform_comes {α β : Type} (effect : Effect) (answer : Nat → α) {f : α → Run β} (later : ∀ a,Respects Logs (f a)) (s : Session) :
    ((perform effect answer >>= f) s).state.aggregateState = s.aggregateState ∧
      ((∃ tick effect',.Performed tick effect' ∈ ((perform effect answer >>= f) s).events) ↔ True) := by
  rw [perform_bind]
  refine ⟨?_,iff_true_intro ⟨s.tick,effect,List.mem_cons_self⟩⟩
  have logged := later (answer s.tick) s.next
  rw [logged.same]
  rfl

/-! ### Calls -/

theorem mediateGated_gate {α : Type} (g : Gated α) (rsid : Option String) (s : Session) :
    mediateGated g rsid s = (gate g rsid >>= fun through => settle g through.1 rsid through.2) s := by
  have assoc : ∀ {β γ δ : Type} (p : Run β) (f : β → Run γ) (next : γ → Run δ),((p >>= f) >>= next) = (p >>= fun b => f b >>= next) :=
    fun _ _ _ => funext fun _ => bind_assoc
  rw [mediateGated,gate,assoc,assoc]
  simp only [assoc]
  rfl

theorem still_gate {α : Type} {g : Gated α} (reading : Reading g) (rsid : Option String) : Respects Still (gate g rsid) := by
  refine respects_bind still_composes (still_of_logs logs_rebind) fun _ => ?_
  refine respects_bind still_composes (still_of_logs reading.decision) fun decision => ?_
  refine respects_bind still_composes (still_of_logs reading.resourceUri) fun resourceUri => ?_
  refine respects_bind still_composes (still_of_routes (routes_routeThroughApproval _ _ _)) fun decision => ?_
  exact still_of_logs (logs_pure _)

theorem gated_comes {α : Type} {g : Gated α} (reading : Reading g) (rsid : Option String) (s : Session) :
    Comes g.toolClass ((∃ uri t events,Runs (gate g rsid) s (uri,.Allow) t events) ∧
      ∃ counted,checkAndIncrement s.aggregateState g.toolClass (quotaFor s.policy g.toolClass) = .ok counted) True s
      (mediateGated g rsid s).events (mediateGated g rsid s).state := by
  have still := still_gate reading rsid s
  rw [mediateGated_gate]
  cases through : (gate g rsid s).result with
  | error stop =>
    rw [bind_error through]
    refine .Refused ?_ still
    rintro ⟨⟨uri,t,events,runs⟩,-⟩
    cases through.symm.trans runs.result
  | ok found =>
    rw [bind_ok through]
    have runs := runs_of_result through
    obtain ⟨uri,decision⟩ := found
    by_cases allowed : decision = .Allow
    · subst allowed
      refine .after_still still ?_
      have passed : ∃ uri t events,Runs (gate g rsid) s (uri,.Allow) t events := ⟨uri,_,_,runs⟩
      have charges := charge_comes g.toolClass uri g.accessType.name (Faultless.conclude g uri rsid) (fun _ => True) (fun t => perform_comes g.effect g.answer
          (fun answer => logs_concluded .Io answer uri g.accessType g.bytes rsid) t) (gate g rsid s).state
      refine charges.mono ?_ Iff.rfl
      rw [still.counts,still.policy]
      exact (and_iff_right passed).symm
    · refine .Refused ?_ (still_composes.append still (still_of_logs (logs_settle g uri rsid allowed) _))
      rintro ⟨⟨uri',t,events,passed⟩,-⟩
      cases passed.result.symm.trans runs.result
      exact allowed rfl

/-- The client is called, if there is one. -/
theorem callClient_comes (serverName serverUri toolName : String) (args : Value) (rsid : Option String) (s : Session) :
    (callClient serverName serverUri toolName args rsid s).state.aggregateState = s.aggregateState ∧
      ((∃ tick effect,.Performed tick effect ∈ (callClient serverName serverUri toolName args rsid s).events) ↔ s.mcpClient ≠ none) := by
  rw [callClient,reads_bind]
  cases attached : s.mcpClient with
  | none =>
    have logs : Respects Logs (callAttached serverName serverUri toolName args rsid none) := logs_mcpRefused _ _ _
    have still := still_of_logs logs s
    refine ⟨still.counts,?_⟩
    simp only [ne_eq,not_true_eq_false,iff_false]
    rintro ⟨tick,effect,member⟩
    exact still_unperformed still tick effect member
  | some client =>
    obtain ⟨counts,performed⟩ := perform_comes (.CallTool serverName serverUri toolName args)
      (client.callTool · serverUri toolName args) (fun answer => logs_concluded (fun e => .Denied ("mcp client: " ++ e)) answer
        (mcpUri serverName toolName) .McpToolCall (fun value => UInt64.ofNat (Bytes.encode (Serde.toString value)).length) rsid) s
    exact ⟨counts,performed.trans (by simp)⟩

theorem mcp_comes (serverName toolName : String) (args : Value) (rsid : Option String) (s : Session) :
    Comes (.Mcp serverName) (Admitted s (.McpToolCall serverName toolName args rsid)) (s.mcpClient ≠ none) s
      (mediateMcpToolCall serverName toolName args rsid s).events (mediateMcpToolCall serverName toolName args rsid s).state := by
  have logs := logs_rebind s
  have still := still_of_logs logs_rebind s
  have whole : ∀ {stop : Stop},(rebind s).result = .error stop → ¬ Admitted s (.McpToolCall serverName toolName args rsid) := by
    rintro stop failed ⟨⟨-,grant,-,t,events,runs⟩,-⟩
    obtain ⟨_,_,_,_,first,-,-⟩ := runs_bind.mp runs
    cases failed.symm.trans first.result
  rw [mediateMcpToolCall]
  cases rebound : (rebind s).result with
  | error stop =>
    rw [bind_error rebound]
    exact .Refused (whole rebound) still
  | ok _ =>
    have rebinds := runs_of_result rebound
    rw [bind_ok rebound,reads_bind,still.policy]
    have client : (rebind s).state.mcpClient = s.mcpClient := by rw [logs.same]
    generalize (rebind s).state = m at *
    generalize (rebind s).events = checked at *
    cases decided : checkMcpTool s.policy serverName toolName with
    | Deny reason =>
      refine .Refused ?_ (still_composes.append still (still_of_logs (logs_mcpRefused _ _ _) m))
      rintro ⟨⟨allowed,-⟩,-⟩
      cases decided.symm.trans allowed
    | RequireApproval reason =>
      refine .Refused ?_ (still_composes.append still (still_of_logs (logs_deny _) m))
      rintro ⟨⟨allowed,-⟩,-⟩
      cases decided.symm.trans allowed
    | Allow =>
      refine .after_still still ?_
      dsimp only
      rw [mcpAllowed,reads_bind,still.policy]
      cases found : serverGrant s.policy serverName with
      | none =>
        refine .Refused ?_ (still_of_logs (logs_mcpRefused _ _ _) m)
        rintro ⟨⟨-,grant,listed,-⟩,-⟩
        cases found.symm.trans listed
      | some grant =>
        dsimp only
        rw [dispatchMcp]
        have clauses := logs_runMcpPreValidate serverName toolName args (declaredClauses grant toolName) m
        have quiet := still_of_logs (logs_runMcpPreValidate serverName toolName args (declaredClauses grant toolName)) m
        cases validated : (runMcpPreValidate serverName toolName args (declaredClauses grant toolName) m).result with
        | error stop =>
          rw [bind_error validated]
          refine .Refused ?_ quiet
          rintro ⟨⟨-,other,listed,t,events,runs⟩,-⟩
          cases found.symm.trans listed
          obtain ⟨_,_,_,_,first,second,-⟩ := runs_bind.mp runs
          cases rebinds.symm.trans first
          cases validated.symm.trans second.result
        | ok _ =>
          rw [bind_ok validated]
          refine .after_still quiet ?_
          have validates := runs_of_result validated
          have passes : Passes s (.McpToolCall serverName toolName args rsid) :=
            ⟨decided,grant,found,_,_,runs_bind.mpr ⟨_,_,_,_,rebinds,validates,rfl⟩⟩
          have charges := charge_comes (.Mcp serverName) (mcpUri serverName toolName) "mcp_tool_call"
            (callClient serverName grant.serverUri toolName args rsid) (· ≠ none)
            (callClient_comes serverName grant.serverUri toolName args rsid)
            (runMcpPreValidate serverName toolName args (declaredClauses grant toolName) m).state
          refine charges.mono ?_ ?_
          · rw [quiet.counts,quiet.policy,still.counts,still.policy]
            exact ⟨fun room => ⟨passes,room⟩,fun admitted => admitted.room⟩
          · rw [clauses.same,← client]

/-! ### Which calls are honest -/

/-- What any call but a connection comes to. -/
theorem mediate_comes {call : Call} (other : ¬ Connects call) (s : Session) :
    Comes (chargedTo call) (Admitted s call) (¬ Unattached s call) s (mediate call s).events (mediate call s).state := by
  have admitted : ∀ {passes : Prop},(Passes s call ↔ passes) → (passes ∧ (∃ counted,
      checkAndIncrement s.aggregateState (chargedTo call) (quotaFor s.policy (chargedTo call)) = .ok counted) ↔ Admitted s call) := by
    intro passes same
    rw [← same]
    exact ⟨fun both => ⟨both.1,both.2⟩,fun both => ⟨both.passes,both.room⟩⟩
  cases call with
  | FilesystemRead path rsid =>
    rw [mediate,bind_pure_events.1,bind_pure_events.2]
    exact (gated_comes (reading_filesystemRead path) rsid s).mono (admitted Iff.rfl) (by simp [Unattached])
  | FilesystemWrite path contents rsid =>
    exact (gated_comes (reading_filesystemWrite path contents) rsid s).mono (admitted Iff.rfl) (by simp [Unattached])
  | FilesystemDelete path rsid =>
    exact (gated_comes (reading_filesystemDelete path) rsid s).mono (admitted Iff.rfl) (by simp [Unattached])
  | NetworkConnect host port proto rsid => exact absurd trivial other
  | McpToolCall serverName toolName args rsid =>
    rw [mediate,bind_pure_events.1,bind_pure_events.2]
    exact mcp_comes serverName toolName args rsid s
  | Exec program args rsid =>
    rw [mediate,bind_pure_events.1,bind_pure_events.2]
    exact (gated_comes (reading_execRun program args) rsid s).mono (admitted Iff.rfl) (by simp [Unattached])

theorem succSaturating_toNat (n : UInt64) : (succSaturating n).toNat = if n.toNat+1 = 2^64 then n.toNat else n.toNat+1 := by
  have bound := n.toNat_lt
  have one : (1 : UInt64).toNat = 1 := rfl
  rw [succSaturating]
  split_ifs with full
  · rfl
  · rw [UInt64.toNat_add,one,Nat.mod_eq_of_lt (by omega)]

/-- A call is honest unless it is admitted without a client, or in spite of a full
    count. -/
theorem budget_honest_iff {call : Call} (other : ¬ Connects call) (s : Session) :
    Honest s call ↔ (Admitted s call → (Unattached s call ↔ Full s (chargedTo call))) := by
  rcases mediate_comes other s with ⟨unadmitted,still⟩ | ⟨admission,counts,performed⟩
  · refine iff_of_true ⟨?_,?_⟩ fun admission => absurd admission unadmitted
    · intro _ toolClass
      rw [still.counts]
    · intro tick effect member
      exact absurd member (still_unperformed still tick effect)
  · have own : (snapshot (mediate call s).state.aggregateState (chargedTo call)).toNat =
        if Full s (chargedTo call) then (snapshot s.aggregateState (chargedTo call)).toNat
        else (snapshot s.aggregateState (chargedTo call)).toNat+1 := by
      rw [counts,snapshot_insert,if_pos rfl,succSaturating_toNat]
      rfl
    constructor
    · intro honest _
      constructor
      · intro unattached
        have idle : ∀ tick effect,.Performed tick effect ∉ (mediate call s).events :=
          fun tick effect member => performed.mp ⟨tick,effect,member⟩ unattached
        have same := honest.refused idle (chargedTo call)
        by_contra room
        rw [same,if_neg room] at own
        omega
      · intro full
        by_contra attended
        obtain ⟨tick,effect,member⟩ := performed.mpr attended
        have grown := honest.charged tick effect member (chargedTo call)
        rw [own,if_pos full,if_pos rfl] at grown
        omega
    · intro agree
      have agrees := agree admission
      have others : ∀ toolClass,toolClass ≠ chargedTo call →
          snapshot (mediate call s).state.aggregateState toolClass = snapshot s.aggregateState toolClass := by
        intro toolClass differs
        rw [counts,snapshot_insert,if_neg differs]
      constructor
      · intro idle toolClass
        by_cases same : toolClass = chargedTo call
        · subst same
          have unattached : Unattached s call := by
            by_contra attended
            obtain ⟨tick,effect,member⟩ := performed.mpr attended
            exact idle tick effect member
          rw [if_pos (agrees.mp unattached)] at own
          exact UInt64.toNat_inj.mp own
        · exact others toolClass same
      · intro tick effect member toolClass
        have attended := performed.mp ⟨tick,effect,member⟩
        by_cases same : toolClass = chargedTo call
        · subst same
          rw [own,if_neg fun full => attended (agrees.mpr full),if_pos rfl]
        · rw [others toolClass same,if_neg same,Nat.add_zero]

end

section
open scoped Reference

theorem uncounted_room {s : Session} (counts : s.aggregateState = ∅) (toolClass : ToolClass) : ¬ Full s toolClass := by
  have zero : (snapshot s.aggregateState toolClass).toNat = 0 := by rw [counts]; rfl
  rw [Full,zero]
  decide

theorem budget_honest_iff_read :
    let _ := Reference.calmWorld Reference.reading
    ∃ booted,boot Reference.config = .ok booted ∧ Honest (attach booted none none) Reference.readData := by
  intro world
  obtain ⟨booted,boots,fresh,-⟩ := Reference.calm_boots Reference.reading rfl rfl
  refine ⟨booted,boots,(budget_honest_iff (show ¬ Connects Reference.readData from fun connects => connects) _).mpr fun _ => ?_⟩
  exact iff_of_false (fun unattached => unattached) (uncounted_room fresh.counts _)

/-- Without a client a call that is refused is counted. -/
theorem unattached_counted :
    let _ := Reference.calmWorld (Reference.serving [.Name "read"])
    ¬ ∀ (s : Session) (call : Call),¬ Connects call → Honest s call := by
  intro world every
  obtain ⟨booted,boots,fresh,-⟩ := Reference.calm_boots (Reference.serving [.Name "read"]) rfl rfl
  have steady := fresh.steady (fun _ _ => rfl) none none
  have policy : (attach booted none none).policy = Reference.serving [.Name "read"] := fresh.policy
  have counts : (attach booted none none).aggregateState = ∅ := fresh.counts
  obtain ⟨checked,rebinds,-⟩ := Faultless.rebind_steady steady
  have admitted : Admitted (attach booted none none) (Reference.callFiles "/data/a") := by
    refine ⟨⟨?_,⟨"files","stdio:/bin/files",[.Name "read"],none,none⟩,?_,?_⟩,?_⟩
    · rw [policy]
      decide
    · rw [policy]
      rfl
    · exact ⟨_,_,runs_bind.mpr ⟨_,_,_,_,rebinds,runs_pure.mpr ⟨rfl,rfl,rfl⟩,rfl⟩⟩
    · rw [counts,policy]
      exact ⟨_,rfl⟩
  have other : ¬ Connects (Reference.callFiles "/data/a") := fun connects => connects
  have honest := every (attach booted none none) (Reference.callFiles "/data/a") other
  have full := ((budget_honest_iff other _).mp honest admitted).mp rfl
  exact uncounted_room counts _ full

end

end AegisNode.Budget
