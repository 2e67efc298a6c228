import AegisNode.AroundApproval

/-!
The table of grants over a run: a grant that still answers for the operator is one
the operator gave for that tool and those arguments, within its time to live, and
did not take back.
-/
namespace AegisNode.GrantSafety
open Clock Json Schema Policy Grants Aggregate Traced Engine Mediator Frames Approval Mediation AroundApproval Entries
open Ledger hiding Error
set_option linter.unusedSectionVars false

/-! ### One call -/

section
variable [Serde] [Sha256] [World]

/-- What a call does to the table: nothing without asking; nothing, after the lookup
    found no live grant; or it files a grant for its own key. -/
inductive Steps (key : Key) (a : Session) (events : List Event) (b : Session) : Prop where
  | Kept (table : b.grantTable = a.grantTable) (unasked : ∀ request outcome,.Approval request outcome ∉ events)
  | Missed {tick : Nat} (table : b.grantTable = a.grantTable) (since : a.tick ≤ tick) (before : tick < b.tick)
      (none : lookup a.grantTable key.toolName key.canonicalArgs (World.systemNow tick) = none)
  | Files {grant : ApprovalGrant} (table : b.grantTable = insert a.grantTable grant)
      (filed : Filed key (ttlSecsFor a.policy key.toolClass) GrantedAt events grant)

section
variable {key : Key} {a b c : Session} {left right events : List Event}

theorem steps_of_works (works : Works a events b) : Steps key a events b := by
  refine .Kept (by rw [works.same]) ?_
  intro request outcome member
  exact works.each _ member

theorem Steps.after_logs (steps : Steps key b right c) (logs : Logs a left b) : Steps key a (left ++ right) c := by
  have table : b.grantTable = a.grantTable := by rw [logs.same]
  have policy : b.policy = a.policy := by rw [logs.same]
  cases steps with
  | Kept kept unasked =>
    refine .Kept (kept.trans table) ?_
    intro request outcome member
    rcases List.mem_append.mp member with member | member
    · exact logs.each _ member
    · exact unasked request outcome member
  | Missed kept since before none => exact .Missed (kept.trans table) (logs.later.trans since) before (table ▸ none)
  | Files inserted filed =>
    rw [table] at inserted
    rw [policy] at filed
    exact .Files inserted (filed.mono (grantedAt_lasting.after left))

theorem Steps.before_works (steps : Steps key a left b) (works : Works b right c) : Steps key a (left ++ right) c := by
  have table : c.grantTable = b.grantTable := by rw [works.same]
  cases steps with
  | Kept kept unasked =>
    refine .Kept (table.trans kept) ?_
    intro request outcome member
    rcases List.mem_append.mp member with member | member
    · exact unasked request outcome member
    · exact works.each _ member
  | Missed kept since before none =>
    exact .Missed (table.trans kept) since (before.trans_le works.later) none
  | Files inserted filed =>
    exact .Files (table.trans inserted) (filed.mono fun evident => grantedAt_lasting.before evident works.each)

variable {α : Type} {p : Run α}

theorem steps_of_logs (logs : Respects Logs p) : Respects (Steps key) p :=
  respects_mono (fun logs => steps_of_works logs.counts.works) logs

end

variable [Chrono]

theorem steps_approve (op : Operation) (rsid : Option String) (summary : String) :
    Respects (Steps (keyOf op)) (approve op rsid summary) := by
  intro s
  rw [approve,reads_bind,reads_bind]
  split_ifs with tier
  · exact steps_of_logs (logs_bind (logs_emitApprovalDecision _ _ _ _) fun _ => logs_pure _) s
  · rw [systemNow,ask_bind,reads_bind,Session.next_grantTable]
    cases found : lookup s.grantTable op.toolName op.canonicalArgs (World.systemNow s.tick) with
    | some grant =>
      have logs := logs_autoConsume op rsid grant s.next
      have table := congrArg Session.grantTable logs.same
      refine .Kept table ?_
      intro request outcome member
      rcases List.mem_cons.mp member with clock | member
      · cases clock
      · exact logs.each _ member
    | none =>
      have later := (routes_consult op rsid summary (ttlSecsFor s.policy op.toolClass) none s.next).later
      rcases files_consult op rsid summary (ttlSecsFor s.policy op.toolClass) s.next with
        kept | ⟨grant,inserted,filed⟩
      · exact .Missed kept le_rfl later found
      · exact .Files inserted (filed.mono (grantedAt_lasting.after _))

theorem steps_routeThroughApproval (decision : Decision) (op : Operation) (rsid : Option String) :
    Respects (Steps (keyOf op)) (routeThroughApproval decision op rsid) := by
  cases decision with
  | Allow => exact steps_of_logs (logs_pure _)
  | Deny reason => exact steps_of_logs (logs_pure _)
  | RequireApproval summary => exact steps_approve op rsid summary

variable [Identity]

theorem steps_framed (key : Key) : Framed (Steps key) where
  idle apart := steps_of_works apart.1
  after apart steps := steps.after_logs apart.1
  before steps apart := steps.before_works apart.1

/-- The key of a call's operation. -/
def callKey (call : Call) : Option Key := (operationOf "" call).map keyOf

theorem callKey_operation {resourceUri : String} {call : Call} {op : Operation}
    (operation : operationOf resourceUri call = some op) : callKey call = some (keyOf op) := by
  cases call <;> cases operation <;> rfl

/-- A call steps with its own key; an MCP call leaves the table alone. -/
theorem steps_mediate (call : Call) (s : Session) :
    (∃ key,callKey call = some key ∧ Steps key s (mediate call s).events (mediate call s).state) ∨
      Works s (mediate call s).events (mediate call s).state := by
  cases named : callKey call with
  | some key =>
    refine .inl ⟨key,rfl,framed_mediate (steps_framed key) (fun operation decision => ?_) s⟩
    rw [callKey_operation operation] at named
    cases named
    exact steps_routeThroughApproval decision _ _
  | none =>
    cases call with
    | McpToolCall serverName toolName args rsid =>
      rw [mediate,bind_pure_events.1,bind_pure_events.2]
      exact .inr (works_mediateMcpToolCall _ _ args rsid s)
    | _ => cases named

/-! ### Runs -/

/-- The entry of a key in the table. -/
def hashed (key : Key) : String × Digest := (key.toolName,canonicalArgHash key.canonicalArgs)

def Rejects (events : List Event) : Prop :=
  ∃ request reason decidedAt,.Approval request (.ok (.Rejected reason decidedAt)) ∈ events

/-- The operator gave the grant in a call of its key, and rejected nothing with that
    entry in the calls after it. -/
def Backed (policy : Manifest) (past : List (Call × List Event)) (entry : String × Digest) (grant : ApprovalGrant) : Prop :=
  ∃ before granting events after key,past = before ++ (granting,events) :: after ∧ callKey granting = some key ∧
    hashed key = entry ∧ GrantedAt events grant.issuedAt ∧ grant.ttl = ttlSecsFor policy key.toolClass*1000000000 ∧
    ∀ later ∈ after,∀ other,callKey later.1 = some other → hashed other = entry → ¬ Rejects later.2

/-- Each allowing grant in the table is backed or has expired. -/
def Sound (policy : Manifest) (past : List (Call × List Event)) (s : Session) : Prop :=
  ∀ entry grant,s.grantTable.lookup entry = some grant → grant.decision = .Allow →
    Backed policy past entry grant ∨ ∃ tick < s.tick,grant.isLiveAt (World.systemNow tick) = false

theorem Backed.concat {policy : Manifest} {past : List (Call × List Event)} {entry : String × Digest}
    {grant : ApprovalGrant} {call : Call} {events : List Event} (backed : Backed policy past entry grant)
    (standing : ∀ key,callKey call = some key → hashed key = entry → ¬ Rejects events) :
    Backed policy (past ++ [(call,events)]) entry grant := by
  obtain ⟨before,granting,granted,after,key,rfl,named,same,evidence,ttl,unrejected⟩ := backed
  refine ⟨before,granting,granted,after ++ [(call,events)],key,by simp,named,same,evidence,ttl,?_⟩
  intro later member
  rcases List.mem_append.mp member with member | member
  · exact unrejected later member
  · cases List.mem_singleton.mp member
    exact standing

theorem not_rejects {events : List Event} (unasked : ∀ request outcome,.Approval request outcome ∉ events) :
    ¬ Rejects events := by
  rintro ⟨request,reason,decidedAt,member⟩
  exact unasked _ _ member

theorem sound_kept {policy : Manifest} {past : List (Call × List Event)} {s t : Session} {call : Call} {events : List Event}
    (sound : Sound policy past s) (table : t.grantTable = s.grantTable) (later : s.tick ≤ t.tick)
    (unasked : ∀ request outcome,.Approval request outcome ∉ events) : Sound policy (past ++ [(call,events)]) t := by
  intro entry grant found allow
  rw [table] at found
  rcases sound entry grant found allow with backed | ⟨tick,before,expired⟩
  · exact .inl (backed.concat fun _ _ _ => not_rejects unasked)
  · exact .inr ⟨tick,before.trans_le later,expired⟩

theorem sound_step {policy : Manifest} {past : List (Call × List Event)} {s t : Session} {call : Call} {events : List Event}
    {key : Key} (sound : Sound policy past s) (same : s.policy = policy) (named : callKey call = some key)
    (later : s.tick ≤ t.tick) (steps : Steps key s events t) : Sound policy (past ++ [(call,events)]) t := by
  cases steps with
  | Kept table unasked => exact sound_kept sound table later unasked
  | @Missed tick table since before none =>
    intro entry grant found allow
    rw [table] at found
    by_cases own : hashed key = entry
    · subst own
      right
      refine ⟨tick,before,?_⟩
      rw [Bool.eq_false_iff]
      intro live
      rw [lookup_some.mpr ⟨found,live⟩] at none
      cases none
    · rcases sound entry grant found allow with backed | ⟨tick,before,expired⟩
      · refine .inl (backed.concat ?_)
        intro other callKey foreign
        rw [named] at callKey
        cases callKey
        exact absurd foreign own
      · exact .inr ⟨tick,before.trans_le later,expired⟩
  | @Files grant table filed =>
    intro entry other found allow
    have slot : (grant.boundToolName,grant.boundArgHash) = hashed key := by rw [filed.tool,filed.args,hashed]
    rw [table,Grants.insert,slot] at found
    by_cases own : entry = hashed key
    · subst own
      rw [AList.lookup_insert] at found
      cases found
      left
      refine ⟨past,call,events,[],key,rfl,named,rfl,filed.allowed allow,?_,by simp⟩
      rw [filed.ttl,same]
    · rw [AList.lookup_insert_ne own] at found
      rcases sound entry other found allow with backed | ⟨tick,before,expired⟩
      · refine .inl (backed.concat ?_)
        intro key' callKey foreign
        rw [named] at callKey
        cases callKey
        exact absurd foreign.symm own
      · exact .inr ⟨tick,before.trans_le later,expired⟩

theorem sound_mediate {policy : Manifest} {past : List (Call × List Event)} {s : Session} (sound : Sound policy past s)
    (same : s.policy = policy) (call : Call) :
    Sound policy (past ++ [(call,(mediate call s).events)]) (mediate call s).state := by
  have later := (keeps_mediate call s).later
  rcases steps_mediate call s with ⟨key,named,steps⟩ | works
  · exact sound_step sound same named later steps
  · refine sound_kept sound (by rw [works.same]) later ?_
    intro request outcome member
    exact works.each _ member

/-- In a run from an empty table every grant that allows is backed or has expired. -/
theorem sound_afterCalls {start : Session} (empty : start.grantTable = ∅) (calls : List Call) :
    Sound start.policy (history start calls) (afterCalls start calls) := by
  induction calls using List.reverseRecOn with
  | nil =>
    intro entry grant found
    rw [show (afterCalls start []).grantTable = ∅ from empty,AList.lookup_empty] at found
    cases found
  | append_singleton calls call ih =>
    rw [history_concat,afterCalls_concat]
    have policy : (afterCalls start calls).policy = start.policy := by rw [(keeps_afterCalls calls start).same]
    exact sound_mediate ih policy call

/-! ### Approved operations -/

/-- The name of a tool tells its class. -/
theorem callKey_class {call : Call} {key : Key} (named : callKey call = some key) :
    key.toolClass = if key.toolName = "network__connect" then .Network
      else if key.toolName = "exec__run" then .Exec else .Filesystem := by
  cases call <;> cases named <;> rfl

theorem key_ext {call other : Call} {key otherKey : Key} (named : callKey call = some key)
    (otherNamed : callKey other = some otherKey) (tool : key.toolName = otherKey.toolName)
    (args : key.canonicalArgs = otherKey.canonicalArgs) : key = otherKey := by
  have toolClass : key.toolClass = otherKey.toolClass := by rw [callKey_class named,callKey_class otherNamed,tool]
  cases key
  cases otherKey
  rw [Key.mk.injEq]
  exact ⟨toolClass,tool,args⟩

/-- Before these calls ended, the operator granted the same tool and arguments, the
    time to live counted from that grant is not over, and the operator rejected
    nothing for them since. -/
def OperatorAllowed (policy : Manifest) (past : List (Call × List Event)) (key : Key) (now : Int) : Prop :=
  ∃ before granting events after issued,past = before ++ (granting,events) :: after ∧ callKey granting = some key ∧
    GrantedAt events issued ∧ now < issued+ttlSecsFor policy key.toolClass*1000000000 ∧
    ∀ later ∈ after,callKey later.1 = some key → ¬ Rejects later.2

variable [Adversarial.PerlWord]

end

section
open Reference

end

end AegisNode.GrantSafety
