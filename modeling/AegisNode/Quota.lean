import AegisNode.Mediation

/-!
The aggregate quotas over a run: every effect is charged to its class before it
happens, except a connection.
-/
namespace AegisNode.Quota
open Clock Json Schema Policy Grants Aggregate Traced Engine Mediator Frames
open Ledger hiding Error
set_option linter.unusedSectionVars false

/-! ### Effects and their classes -/

/-- The class that an effect counts against. -/
def classOf : Effect → ToolClass
  | .FsRead _ => .Filesystem
  | .FsWrite _ _ => .Filesystem
  | .FsRemove _ => .Filesystem
  | .Connect _ _ => .Network
  | .CallTool serverName _ _ _ => .Mcp serverName
  | .Spawn _ _ => .Exec

def performs (toolClass : ToolClass) : Event → Bool
  | .Performed _ effect => classOf effect = toolClass
  | _ => false

/-- How many effects of the class were dispatched. -/
def dispatched (toolClass : ToolClass) (events : List Event) : Nat := events.countP (performs toolClass)

theorem dispatched_append (toolClass : ToolClass) (left right : List Event) :
    dispatched toolClass (left ++ right) = dispatched toolClass left+dispatched toolClass right := List.countP_append

theorem dispatched_quiet {toolClass : ToolClass} {events : List Event} (quiet : ∀ e ∈ events,Quiet e) :
    dispatched toolClass events = 0 := by
  rw [dispatched,List.countP_eq_zero]
  intro e member counted
  have quiet := quiet e member
  cases e with
  | Performed tick effect => exact quiet
  | _ => cases counted

/-! ### One call -/

/-- Along the events the effects of a capped class are charged, and no charge takes
    the count over the cap. -/
structure Charges (toolClass : ToolClass) (a : Session) (events : List Event) (b : Session) : Prop where
  policy : b.policy = a.policy
  charged : ∀ cap,capOf (quotaFor a.policy toolClass) = some cap →
    dispatched toolClass events+(snapshot a.aggregateState toolClass).toNat ≤ (snapshot b.aggregateState toolClass).toNat
  capped : ∀ cap,capOf (quotaFor a.policy toolClass) = some cap →
    snapshot a.aggregateState toolClass ≤ cap → snapshot b.aggregateState toolClass ≤ cap

theorem charges_composes (toolClass : ToolClass) : Composes (Charges toolClass) where
  idle s := ⟨rfl,fun _ _ => by simp [dispatched],fun _ _ within => within⟩
  append := by
    intro a b c left right first second
    refine ⟨second.policy.trans first.policy,?_,?_⟩
    · intro cap quota
      have early := first.charged cap quota
      have late := second.charged cap (first.policy ▸ quota)
      rw [dispatched_append]
      omega
    · intro cap quota within
      exact second.capped cap (first.policy ▸ quota) (first.capped cap quota within)

/-- A part that charges nothing and has no effect. -/
structure Still (a : Session) (events : List Event) (b : Session) : Prop where
  policy : b.policy = a.policy
  counts : b.aggregateState = a.aggregateState
  quiet : ∀ e ∈ events,Quiet e

theorem still_composes : Composes Still where
  idle s := ⟨rfl,rfl,by simp⟩
  append := by
    intro a b c left right first second
    refine ⟨second.policy.trans first.policy,second.counts.trans first.counts,?_⟩
    intro e member
    rcases List.mem_append.mp member with member | member
    · exact first.quiet e member
    · exact second.quiet e member

theorem still_of_routes {α : Type} {p : Run α} (routes : Respects Routes p) : Respects Still p :=
  respects_mono (fun held => ⟨by rw [held.same],by rw [held.same],held.each⟩) routes

theorem still_of_logs {α : Type} {p : Run α} (logs : Respects Logs p) : Respects Still p :=
  still_of_routes (routes_of_logs logs)

/-- What a part leaves when it charges nothing and dispatches at most one effect, of
    class `own`. -/
structure Spends (own : ToolClass) (a : Session) (events : List Event) (b : Session) : Prop where
  policy : b.policy = a.policy
  counts : b.aggregateState = a.aggregateState
  others : ∀ toolClass,toolClass ≠ own → dispatched toolClass events = 0
  once : dispatched own events ≤ 1

theorem Still.spends {own : ToolClass} {a b : Session} {events : List Event} (still : Still a events b) :
    Spends own a events b := by
  refine ⟨still.policy,still.counts,fun _ _ => dispatched_quiet still.quiet,?_⟩
  rw [dispatched_quiet still.quiet]
  exact Nat.zero_le 1

theorem Spends.charges {own toolClass : ToolClass} {a b : Session} {events : List Event} (spends : Spends own a events b)
    (other : toolClass ≠ own) : Charges toolClass a events b := by
  have none := spends.others toolClass other
  refine ⟨spends.policy,fun _ _ => ?_,fun _ _ within => ?_⟩
  · rw [none,spends.counts,Nat.zero_add]
  · rw [spends.counts]
    exact within

theorem Still.charges {toolClass : ToolClass} {a b : Session} {events : List Event} (still : Still a events b) :
    Charges toolClass a events b := by
  refine ⟨still.policy,fun _ _ => ?_,fun _ _ within => ?_⟩
  · rw [dispatched_quiet still.quiet,still.counts,Nat.zero_add]
  · rw [still.counts]
    exact within

theorem charges_of_still {α : Type} {toolClass : ToolClass} {p : Run α} (still : Respects Still p) :
    Respects (Charges toolClass) p := respects_mono Still.charges still

theorem charges_bind {α β : Type} {toolClass : ToolClass} {p : Run α} {f : α → Run β} (first : Respects (Charges toolClass) p)
    (later : ∀ a,Respects (Charges toolClass) (f a)) : Respects (Charges toolClass) (p >>= f) :=
  respects_bind (charges_composes toolClass) first later

/-- An effect and what is only logged after it. -/
theorem spends_perform {α β : Type} {own : ToolClass} {effect : Effect} {answer : Nat → α} {f : α → Run β}
    (class_eq : classOf effect = own) (later : ∀ a,Respects Still (f a)) :
    Respects (Spends own) (perform effect answer >>= f) := by
  intro s
  subst class_eq
  rw [perform_bind]
  have still := later (answer s.tick) s.next
  have rest : ∀ toolClass,dispatched toolClass (f (answer s.tick) s.next).events = 0 :=
    fun toolClass => dispatched_quiet still.quiet
  have one : ∀ toolClass,dispatched toolClass [.Performed s.tick effect] = if classOf effect = toolClass then 1 else 0 := by
    intro toolClass
    by_cases own : classOf effect = toolClass <;> simp [dispatched,performs,own]
  refine ⟨still.policy,still.counts,?_,?_⟩
  · intro toolClass other
    rw [← List.singleton_append,dispatched_append,rest,one,if_neg other.symm]
  · rw [← List.singleton_append,dispatched_append,rest,one,if_pos rfl]

theorem Spends.after_still {own : ToolClass} {a b c : Session} {left right : List Event} (still : Still a left b)
    (spends : Spends own b right c) : Spends own a (left ++ right) c := by
  refine ⟨spends.policy.trans still.policy,spends.counts.trans still.counts,?_,?_⟩
  · intro toolClass other
    rw [dispatched_append,dispatched_quiet still.quiet,spends.others toolClass other]
  · rw [dispatched_append,dispatched_quiet still.quiet,Nat.zero_add]
    exact spends.once

theorem spends_bind {α β : Type} {own : ToolClass} {p : Run α} {f : α → Run β} (first : Respects Still p)
    (later : ∀ a,Respects (Spends own) (f a)) : Respects (Spends own) (p >>= f) :=
  respects_then Still.spends Spends.after_still first later

section
variable [Chrono] [Serde] [Sha256] [World]

/-- The gate: either the call is refused and nothing is counted, or its class was
    below the cap and counts one more. -/
theorem enforceAggregateQuota_counts (toolClass : ToolClass) (resourceUri accessKind : String) (s : Session) :
    ((∃ stop,(enforceAggregateQuota toolClass resourceUri accessKind s).result = .error stop) ∧
      (enforceAggregateQuota toolClass resourceUri accessKind s).state.aggregateState = s.aggregateState) ∨
    ((enforceAggregateQuota toolClass resourceUri accessKind s).result = .ok () ∧
      (enforceAggregateQuota toolClass resourceUri accessKind s).state.aggregateState =
        s.aggregateState.insert toolClass (succSaturating (snapshot s.aggregateState toolClass)) ∧
      ∀ cap,capOf (quotaFor s.policy toolClass) = some cap → snapshot s.aggregateState toolClass < cap) := by
  rw [enforceAggregateQuota,reads_bind,reads_bind]
  cases checked : checkAndIncrement s.aggregateState toolClass (quotaFor s.policy toolClass) with
  | ok counted =>
    obtain ⟨n,state⟩ := counted
    obtain ⟨below,rfl⟩ := checkAndIncrement_ok checked
    exact .inr ⟨rfl,rfl,below⟩
  | error breach =>
    left
    have logs : Respects Logs (do
        writeAggregateCapViolation breach resourceUri accessKind
        deny (.Denied ("aggregate cap exceeded for " ++ breach.toolClass.label ++ ": " ++ toString breach.observed.toNat ++
          "/" ++ toString breach.cap.toNat ++ " " ++ breach.bound)) : Run Unit) :=
      logs_bind (logs_writeAggregateCapViolation breach _ _) fun _ => logs_deny _
    have counts := congrArg Session.aggregateState (logs s).same
    refine ⟨?_,counts⟩
    dsimp only
    cases written : (writeAggregateCapViolation breach resourceUri accessKind s).result with
    | error stop =>
      rw [bind_error written]
      exact ⟨stop,rfl⟩
    | ok done =>
      rw [bind_ok written]
      exact ⟨_,rfl⟩

theorem charges_quota {α : Type} {own : ToolClass} (toolClass : ToolClass) {resourceUri accessKind : String}
    {rest : Unit → Run α} (spends : ∀ u,Respects (Spends own) (rest u)) :
    Respects (Charges toolClass) (enforceAggregateQuota own resourceUri accessKind >>= rest) := by
  intro s
  have frame := counts_enforceAggregateQuota own resourceUri accessKind s
  have policy : (enforceAggregateQuota own resourceUri accessKind s).state.policy = s.policy := by rw [frame.same]
  have quiet : ∀ e ∈ (enforceAggregateQuota own resourceUri accessKind s).events,Quiet e :=
    fun e member => Unanswered.quiet e (Plain.unanswered e (frame.each e member))
  rcases enforceAggregateQuota_counts own resourceUri accessKind s with ⟨⟨stop,refused⟩,counts⟩ | ⟨passed,counts,below⟩
  · rw [bind_error refused]
    exact Still.charges ⟨policy,counts,quiet⟩
  · rw [bind_ok passed]
    have spent := spends () (enforceAggregateQuota own resourceUri accessKind s).state
    by_cases other : toolClass = own
    · subst other
      have charged : snapshot (rest () (enforceAggregateQuota toolClass resourceUri accessKind s).state).state.aggregateState
          toolClass = succSaturating (snapshot s.aggregateState toolClass) := by
        rw [spent.counts,counts,snapshot_insert,if_pos rfl]
      refine ⟨spent.policy.trans policy,?_,?_⟩
      · intro cap quota
        have once := spent.once
        dsimp only
        rw [charged,succSaturating_below (below cap quota),dispatched_append,dispatched_quiet quiet]
        omega
      · intro cap quota within
        have room := below cap quota
        dsimp only
        rw [charged,UInt64.le_iff_toNat_le,succSaturating_below room]
        exact UInt64.lt_iff_toNat_lt.mp room
    · have kept : snapshot (rest () (enforceAggregateQuota own resourceUri accessKind s).state).state.aggregateState
          toolClass = snapshot s.aggregateState toolClass := by
        rw [spent.counts,counts,snapshot_insert,if_neg other]
      refine ⟨spent.policy.trans policy,?_,?_⟩
      · intro cap quota
        dsimp only
        rw [kept,dispatched_append,dispatched_quiet quiet,spent.others toolClass other,Nat.add_zero,Nat.zero_add]
      · intro cap quota within
        dsimp only
        rw [kept]
        exact within

theorem charges_dispatch {α : Type} (toolClass : ToolClass) {g : Gated α} (own : classOf g.effect = g.toolClass)
    (resourceUri : String) (rsid : Option String) : Respects (Charges toolClass) (dispatch g resourceUri rsid) := by
  refine charges_quota toolClass fun _ => ?_
  exact spends_perform own fun answer => still_of_logs (logs_concluded _ answer _ _ _ _)

theorem spends_callClient (serverName serverUri toolName : String) (args : Value) (rsid : Option String) :
    Respects (Spends (.Mcp serverName)) (callClient serverName serverUri toolName args rsid) := by
  refine spends_bind (still_of_logs (logs_reads _)) fun client => ?_
  cases client with
  | none => exact respects_mono Still.spends (still_of_logs (logs_mcpRefused serverName toolName _))
  | some client =>
    refine spends_perform ?_ fun answer => still_of_logs (logs_concluded _ answer _ _ _ _)
    rfl

theorem charges_dispatchMcp (toolClass : ToolClass) (grant : McpServerGrant) (serverName toolName : String) (args : Value)
    (rsid : Option String) : Respects (Charges toolClass) (dispatchMcp grant serverName toolName args rsid) := by
  refine charges_bind (charges_of_still (still_of_logs (logs_runMcpPreValidate _ _ _ _))) fun _ => ?_
  exact charges_quota toolClass fun _ => spends_callClient _ _ _ _ _

theorem still_logConnection (host : String) (port : UInt16) (proto : NetworkProto) (decision : NetworkConnectionDecision) :
    Respects Still (logConnection host port proto decision) :=
  respects_bind still_composes (still_of_logs logs_utcNow) fun _ => fun _ => ⟨rfl,rfl,by simp [update]⟩

/-- Nothing is charged for a connection. -/
theorem spends_finishConnect (initial : Decision) (host : String) (port : UInt16) (proto : NetworkProto)
    (rsid : Option String) (routed : Except Error Decision) :
    Respects (Spends .Network) (finishConnect initial host port proto rsid routed) := by
  match routed with
  | .error error =>
    refine spends_bind (still_logConnection _ _ _ _) fun _ => ?_
    exact respects_mono Still.spends (still_of_logs (logs_deny _))
  | .ok .Allow =>
    refine spends_perform ?_ fun answer => ?_
    · rfl
    · refine respects_bind still_composes (still_of_logs (logs_orFail _ answer)) fun _ => ?_
      exact respects_bind still_composes (still_of_logs (logs_emitSuccess _ _ _ _)) fun _ => still_logConnection _ _ _ _
  | .ok (.Deny reason) =>
    refine spends_bind (still_of_logs (logs_emitDeny _ _ _)) fun _ => ?_
    refine spends_bind (still_logConnection _ _ _ _) fun _ => ?_
    exact respects_mono Still.spends (still_of_logs (logs_deny _))
  | .ok (.RequireApproval reason) =>
    refine spends_bind (still_logConnection _ _ _ _) fun _ => ?_
    exact respects_mono Still.spends (still_of_logs (logs_deny _))

variable [Identity]

theorem charges_mediateGated {α : Type} (toolClass : ToolClass) {g : Gated α} (reading : Reading g)
    (own : classOf g.effect = g.toolClass) (rsid : Option String) :
    Respects (Charges toolClass) (mediateGated g rsid) := by
  refine charges_bind (charges_of_still (still_of_logs logs_rebind)) fun _ => ?_
  refine charges_bind (charges_of_still (still_of_logs reading.decision)) fun decision => ?_
  refine charges_bind (charges_of_still (still_of_logs reading.resourceUri)) fun resourceUri => ?_
  refine charges_bind (charges_of_still (still_of_routes (routes_routeThroughApproval _ _ _))) fun decision => ?_
  by_cases allowed : decision = .Allow
  · subst allowed
    exact charges_dispatch toolClass own resourceUri rsid
  · exact charges_of_still (still_of_logs (logs_settle g resourceUri rsid allowed))

theorem charges_mediateMcpToolCall (toolClass : ToolClass) (serverName toolName : String) (args : Value)
    (rsid : Option String) : Respects (Charges toolClass) (mediateMcpToolCall serverName toolName args rsid) := by
  refine charges_bind (charges_of_still (still_of_logs logs_rebind)) fun _ => ?_
  refine charges_bind (charges_of_still (still_of_logs (logs_reads _))) fun decision => ?_
  cases decision with
  | Deny reason => exact charges_of_still (still_of_logs (logs_mcpRefused _ _ _))
  | RequireApproval reason => exact charges_of_still (still_of_logs (logs_deny _))
  | Allow =>
    refine charges_bind (charges_of_still (still_of_logs (logs_reads _))) fun grant => ?_
    cases grant with
    | none => exact charges_of_still (still_of_logs (logs_mcpRefused _ _ _))
    | some grant => exact charges_dispatchMcp toolClass grant _ _ _ _

/-- A connection is not charged: it leaves the counts alone. -/
theorem spends_mediateNetworkConnect (host : String) (port : UInt16) (proto : NetworkProto) (rsid : Option String) :
    Respects (Spends .Network) (mediateNetworkConnect host port proto rsid) := by
  refine spends_bind (still_of_logs logs_rebind) fun _ => ?_
  refine spends_bind (still_of_logs (logs_reads _)) fun initial => ?_
  refine spends_bind (still_of_routes (respects_attempt (routes_routeThroughApproval _ _ _))) fun routed => ?_
  exact spends_finishConnect initial _ _ _ _ routed

/-! ### Runs -/

/-- A call that asks for a connection. -/
def Connects : Call → Prop
  | .NetworkConnect _ _ _ _ => True
  | _ => False

/-- What a call charges; of a connection only other classes than its own. -/
theorem charges_mediate (call : Call) {toolClass : ToolClass} (other : toolClass ≠ .Network) :
    Respects (Charges toolClass) (mediate call) := by
  intro s
  cases call with
  | FilesystemRead path rsid =>
    rw [mediate,bind_pure_events.1,bind_pure_events.2]
    exact charges_mediateGated toolClass (reading_filesystemRead path) rfl rsid s
  | FilesystemWrite path contents rsid =>
    exact charges_mediateGated toolClass (reading_filesystemWrite path contents) rfl rsid s
  | FilesystemDelete path rsid => exact charges_mediateGated toolClass (reading_filesystemDelete path) rfl rsid s
  | NetworkConnect host port proto rsid => exact (spends_mediateNetworkConnect host port proto rsid s).charges other
  | McpToolCall serverName toolName args rsid =>
    rw [mediate,bind_pure_events.1,bind_pure_events.2]
    exact charges_mediateMcpToolCall toolClass serverName toolName args rsid s
  | Exec program args rsid =>
    rw [mediate,bind_pure_events.1,bind_pure_events.2]
    exact charges_mediateGated toolClass (reading_execRun program args) rfl rsid s

/-- Only a connecting call dispatches a connection, and at most one. -/
theorem connections_mediate (call : Call) (s : Session) :
    dispatched .Network (mediate call s).events ≤ 1 ∧
      (¬ Connects call → dispatched .Network (mediate call s).events = 0) := by
  by_cases connecting : Connects call
  · refine ⟨?_,fun other => absurd connecting other⟩
    cases call with
    | NetworkConnect host port proto rsid => exact (spends_mediateNetworkConnect host port proto rsid s).once
    | _ => exact connecting.elim
  · have none : dispatched .Network (mediate call s).events = 0 := by
      rw [dispatched,List.countP_eq_zero]
      intro e member counted
      cases e with
      | Performed tick effect =>
        obtain ⟨pre,post,split⟩ := List.append_of_mem member
        obtain ⟨checked,decided,later,-,mediated⟩ := Mediation.mediate_mediated split
        have stands := mediated.effect
        cases call with
        | NetworkConnect host port proto rsid => exact connecting trivial
        | McpToolCall serverName toolName args rsid =>
          obtain ⟨grant,-,rfl⟩ := Option.map_eq_some_iff.mp stands
          simp [performs,classOf] at counted
        | _ =>
          cases stands
          simp [performs,classOf] at counted
      | _ => cases counted
    exact ⟨by omega,fun _ => none⟩

/-- The events of a run. -/
def trace (start : Session) (calls : List Call) : List Event := (history start calls).flatMap (·.2)

theorem trace_concat (start : Session) (calls : List Call) (call : Call) :
    trace start (calls ++ [call]) = trace start calls ++ (mediate call (afterCalls start calls)).events := by
  rw [trace,history_concat,List.flatMap_append]
  simp [trace]

theorem charges_run (start : Session) (calls : List Call) {toolClass : ToolClass} (other : toolClass ≠ .Network) :
    Charges toolClass start (trace start calls) (afterCalls start calls) := by
  induction calls using List.reverseRecOn with
  | nil => exact (charges_composes toolClass).idle start
  | append_singleton calls call ih =>
    rw [trace_concat,afterCalls_concat]
    exact (charges_composes toolClass).append ih (charges_mediate call other _)

/-- A connection is asked for only while fewer of them than the cap were dispatched. -/
def Metered (start : Session) (calls : List Call) : Prop :=
  ∀ before call after,calls = before ++ call :: after → Connects call →
    ∀ cap,capOf (quotaFor start.policy .Network) = some cap → dispatched .Network (trace start before) < cap.toNat

theorem connections_run {start : Session} {calls : List Call} (metered : Metered start calls) {cap : UInt64}
    (capped : capOf (quotaFor start.policy .Network) = some cap) : dispatched .Network (trace start calls) ≤ cap.toNat := by
  induction calls using List.reverseRecOn with
  | nil => exact Nat.zero_le _
  | append_singleton calls call ih =>
    have earlier : Metered start calls := by
      intro before other after whole
      exact metered before other (after ++ [call]) (by rw [whole]; simp)
    obtain ⟨once,silent⟩ := connections_mediate call (afterCalls start calls)
    rw [trace_concat,dispatched_append]
    by_cases connecting : Connects call
    · have room := metered calls call [] rfl connecting cap capped
      omega
    · rw [silent connecting,Nat.add_zero]
      exact ih earlier

variable [Adversarial.PerlWord]

/-- In every run of a booted session in which connections are asked for only below
    their cap, the effects of each class stay within its cap, at every point. -/
theorem quota_respected {cfg : BootConfig} {booted : Session} (boots : boot cfg = .ok booted)
    (channel : Option ApprovalChannel) (client : Option McpClient) (calls : List Call)
    (metered : Metered (attach booted channel client) calls) (toolClass : ToolClass) {cap : UInt64}
    (capped : capOf (quotaFor booted.policy toolClass) = some cap) {sofar rest : List Event}
    (point : trace (attach booted channel client) calls = sofar ++ rest) : dispatched toolClass sofar ≤ cap.toNat := by
  have whole : dispatched toolClass (trace (attach booted channel client) calls) ≤ cap.toNat := by
    by_cases network : toolClass = .Network
    · subst network
      exact connections_run metered capped
    · have charges := charges_run (attach booted channel client) calls network
      have none : snapshot (attach booted channel client).aggregateState toolClass = 0 := by
        rw [show (attach booted channel client).aggregateState = ∅ from (boot_booted boots).counts]
        rfl
      have charged := charges.charged cap capped
      have within := charges.capped cap capped (by rw [none]; exact UInt64.zero_le)
      rw [UInt64.le_iff_toNat_le] at within
      omega
  rw [point,dispatched_append] at whole
  omega

end

section
open Reference Faultless

theorem dispatched_performed (before after : List Event) (tick : Nat) {toolClass : ToolClass} {effect : Effect}
    (own : classOf effect = toolClass) : 1 ≤ dispatched toolClass (before ++ .Performed tick effect :: after) := by
  rw [dispatched,Nat.one_le_iff_ne_zero,← Nat.pos_iff_ne_zero,List.countP_pos_iff]
  exact ⟨.Performed tick effect,by simp,by simp [performs,own]⟩

/-- One connection is within its cap of one. -/
theorem quota_respected_once :
    let _ := calmWorld connecting
    ∃ booted,boot config = .ok booted ∧ ∀ sofar rest,trace (attach booted none none) [connectOut] = sofar ++ rest →
      dispatched .Network sofar ≤ 1 := by
  intro world
  obtain ⟨booted,boots,fresh,-⟩ := calm_boots connecting rfl rfl
  refine ⟨booted,boots,fun sofar rest point => ?_⟩
  have policy : booted.policy = connecting := fresh.policy
  refine quota_respected boots none none [connectOut] ?_ .Network
    (show capOf (quotaFor booted.policy .Network) = some 1 by rw [policy]; rfl) point
  intro before call after whole _ cap capped
  obtain ⟨rfl,-,-⟩ : before = [] ∧ connectOut = call ∧ after = [] := by
    cases before with
    | nil => simpa using whole
    | cons first before => simp at whole
  rw [show (attach booted none none).policy = connecting from policy] at capped
  cases capped
  change 0 < 1
  decide

/-- The second connection exceeds the cap. -/
theorem quota_exceeded :
    let _ := calmWorld connecting
    ∃ booted,boot config = .ok booted ∧ capOf (quotaFor booted.policy .Network) = some 1 ∧
      1 < dispatched .Network (trace (attach booted none none) [connectOut,connectOut]) := by
  intro world
  obtain ⟨booted,boots,fresh,ready⟩ := calm_boots connecting rfl rfl
  have policy : booted.policy = connecting := fresh.policy
  have steady := fresh.steady (fun _ _ => rfl) none none
  obtain ⟨before,tick,after,first,ready,steady,same⟩ := connectOut_performed (n := 99) steady policy (fun _ => rfl)
    (ready.attach none none)
  obtain ⟨before',tick',after',second,-⟩ := connectOut_performed (n := 98) steady same (fun _ => rfl) ready
  refine ⟨booted,boots,by rw [policy]; rfl,?_⟩
  have whole : trace (attach booted none none) [connectOut,connectOut] =
      (mediate connectOut (attach booted none none)).events ++
        (mediate connectOut (mediate connectOut (attach booted none none)).state).events := by
    simp [trace,history]
  rw [whole,dispatched_append,first,second]
  have one := dispatched_performed before after tick
    (show classOf (.Connect "example.org" 443) = .Network from rfl)
  have two := dispatched_performed before' after' tick'
    (show classOf (.Connect "example.org" 443) = .Network from rfl)
  omega

end

end AegisNode.Quota
