import AegisNode.Mediation

/-!
The pre-validation of MCP calls: the clauses of the first entry of a tool are all
evaluated and allowed before the call is dispatched; those of its other entries
are not looked at.
-/
namespace AegisNode.PreValidation
open Clock Json Schema Policy Grants Aggregate Traced Engine Mediator Frames Mediation
open Ledger hiding Error
set_option linter.unusedSectionVars false

/-! ### What a clause asks for -/

section
variable [Chrono]

/-- The policy allows a value of the clause; writes and deletes at a reading of the
    clock among the events. -/
def ValueAllowed (s : Session) (events : List Event) (serverName toolName : String) (clause : PreValidateClause)
    (value : String) : Prop :=
  match clause.kind with
  | .FilesystemRead => checkFilesystemRead s.policy value = .Allow
  | .FilesystemWrite => ∃ now,.UtcNow now ∈ events ∧ checkFilesystemWrite s.policy value now s.sessionStart = .ok .Allow
  | .FilesystemDelete => ∃ now,.UtcNow now ∈ events ∧ checkFilesystemDelete s.policy value now s.sessionStart = .ok .Allow
  | .NetworkOutbound => ∃ host port,parsePreValidateUrl value serverName toolName (clauseArgName clause) = .ok (host,port) ∧
      checkNetworkOutbound s.policy host port .Tcp = .Allow

/-- The clause was evaluated on the arguments and every value it extracts is allowed. -/
def ClausePassed (s : Session) (events : List Event) (serverName toolName : String) (args : Value)
    (clause : PreValidateClause) : Prop :=
  ∃ values,extractClauseValues args serverName toolName clause = .ok values ∧
    ∀ value ∈ values,ValueAllowed s events serverName toolName clause value

variable {s t : Session} {events more : List Event} {serverName toolName : String} {args : Value}
  {clause : PreValidateClause} {value : String}

theorem ValueAllowed.mono (allowed : ValueAllowed s events serverName toolName clause value) (inside : events ⊆ more) :
    ValueAllowed s more serverName toolName clause value := by
  unfold ValueAllowed at *
  cases kind : clause.kind with
  | FilesystemRead =>
    rw [kind] at allowed
    exact allowed
  | FilesystemWrite =>
    rw [kind] at allowed
    obtain ⟨now,member,decided⟩ := allowed
    exact ⟨now,inside member,decided⟩
  | FilesystemDelete =>
    rw [kind] at allowed
    obtain ⟨now,member,decided⟩ := allowed
    exact ⟨now,inside member,decided⟩
  | NetworkOutbound =>
    rw [kind] at allowed
    exact allowed

theorem ClausePassed.mono (passed : ClausePassed s events serverName toolName args clause) (inside : events ⊆ more) :
    ClausePassed s more serverName toolName args clause := by
  obtain ⟨values,extracted,allowed⟩ := passed
  exact ⟨values,extracted,fun value member => (allowed value member).mono inside⟩

/-- Only what a whole call keeps is read. -/
theorem ClausePassed.of_keeps {earlier : List Event} (keeps : Keeps t earlier s)
    (passed : ClausePassed s events serverName toolName args clause) :
    ClausePassed t events serverName toolName args clause := by
  rw [keeps.same] at passed
  exact passed

/-! ### The loops -/

variable [World]

theorem clauseDecision_allowed (runs : Runs (clauseDecision serverName toolName clause value) s .Allow t events) :
    ValueAllowed s events serverName toolName clause value := by
  unfold clauseDecision at runs
  unfold ValueAllowed
  cases kind : clause.kind with
  | FilesystemRead =>
    rw [kind] at runs
    exact (runs_reads.mp runs).1.symm
  | FilesystemWrite =>
    rw [kind] at runs
    obtain ⟨now,rfl,decided⟩ := writeDecisionNow_decides runs
    exact ⟨now,List.mem_singleton.mpr rfl,decided⟩
  | FilesystemDelete =>
    rw [kind] at runs
    obtain ⟨now,rfl,decided⟩ := deleteDecisionNow_decides runs
    exact ⟨now,List.mem_singleton.mpr rfl,decided⟩
  | NetworkOutbound =>
    rw [kind] at runs
    dsimp only at runs
    rw [runs_orFail_bind] at runs
    obtain ⟨⟨host,port⟩,parsed,runs⟩ := runs
    exact ⟨host,port,parsed,(runs_reads.mp runs).1.symm⟩

variable [Serde] [Sha256]

theorem preValidateValue_allowed (runs : Runs (preValidateValue serverName toolName clause value) s () t events) :
    ValueAllowed s events serverName toolName clause value := by
  rw [preValidateValue,runs_bind] at runs
  obtain ⟨decision,m,left,right,decides,runs,rfl⟩ := runs
  cases decision with
  | Allow => exact (clauseDecision_allowed decides).mono (List.subset_append_left _ _)
  | Deny reason =>
    obtain ⟨_,_,_,_,-,stopped,-⟩ := runs_bind.mp runs
    exact absurd stopped runs_deny
  | RequireApproval reason => exact absurd runs runs_deny

theorem preValidateValues_allowed {values : List String}
    (runs : Runs (preValidateValues serverName toolName clause values) s () t events) :
    ∀ value ∈ values,ValueAllowed s events serverName toolName clause value := by
  induction values generalizing s events with
  | nil => simp
  | cons first rest ih =>
    rw [preValidateValues,runs_bind] at runs
    obtain ⟨_,m,left,right,firstRuns,restRuns,rfl⟩ := runs
    have logs := firstRuns.respects (logs_preValidateValue serverName toolName clause first)
    intro value member
    rcases List.mem_cons.mp member with rfl | member
    · exact (preValidateValue_allowed firstRuns).mono (List.subset_append_left _ _)
    · have allowed := (ih restRuns value member).mono (List.subset_append_right left right)
      rw [logs.same] at allowed
      exact allowed

theorem runMcpPreValidate_passed {clauses : List PreValidateClause}
    (runs : Runs (runMcpPreValidate serverName toolName args clauses) s () t events) :
    ∀ clause ∈ clauses,ClausePassed s events serverName toolName args clause := by
  induction clauses generalizing s events with
  | nil => simp
  | cons first rest ih =>
    rw [runMcpPreValidate,runs_orFail_bind] at runs
    obtain ⟨values,extracted,runs⟩ := runs
    rw [runs_bind] at runs
    obtain ⟨_,m,left,right,firstRuns,restRuns,rfl⟩ := runs
    have logs := firstRuns.respects (logs_preValidateValues serverName toolName first values)
    intro clause member
    rcases List.mem_cons.mp member with rfl | member
    · refine ⟨values,extracted,fun value inside => ?_⟩
      exact (preValidateValues_allowed firstRuns value inside).mono (List.subset_append_left _ _)
    · have passed := (ih restRuns clause member).mono (List.subset_append_right left right)
      exact passed.of_keeps (routes_keeps logs.stores.routes)

end

/-! ### Declarations -/

/-- The clauses that any entry of the tool declares under any grant of the server. -/
def declared (policy : Manifest) (serverName toolName : String) : List PreValidateClause :=
  (policy.tools.mcp.filter (fun grant => grant.serverName = serverName)).flatMap
    (fun grant => (grant.allowedTools.filter (fun tool => tool.name = toolName)).flatMap (·.preValidate))

/-- Those of the first entry of the tool under the first grant of the server. -/
def firstDeclared (policy : Manifest) (serverName toolName : String) : List PreValidateClause :=
  ((serverGrant policy serverName).map (declaredClauses · toolName)).getD []

/-- No other entry declares more than the first one. -/
def FirstDeclaresAll (policy : Manifest) : Call → Prop
  | .McpToolCall serverName toolName _ _ => declared policy serverName toolName ⊆ firstDeclared policy serverName toolName
  | _ => True

section
variable [Chrono] [Serde] [Sha256] [Identity] [World]

/-- In every run of a session whose calls are of tools with their clauses in the first
    entry, an MCP call is dispatched only after every declared clause passed in the
    same call. -/
theorem prevalidation_sound (start : Session) (calls : List Call)
    (covered : ∀ call ∈ calls,FirstDeclaresAll start.policy call) {call : Call} {events pre post : List Event}
    (ran : (call,events) ∈ history start calls) {tick : Nat} {serverName serverUri toolName : String} {args : Value}
    (performed : events = pre ++ .Performed tick (.CallTool serverName serverUri toolName args) :: post) :
    ∀ clause ∈ declared start.policy serverName toolName,ClausePassed start pre serverName toolName args clause := by
  obtain ⟨before,after,rfl,rfl⟩ := history_mem ran
  have keeps := keeps_afterCalls before start
  have policy : (afterCalls start before).policy = start.policy := by rw [keeps.same]
  obtain ⟨_,_,_,-,mediated⟩ := mediate_mediated performed
  have stands := mediated.effect
  cases call with
  | McpToolCall server tool given rsid =>
    rw [mediate,bind_pure_events.1] at performed
    obtain ⟨checked,s₁,grant,validated,s₂,charged,rfl,rebinds,-,listed,same,validates,-⟩ :=
      mediateMcpToolCall_performed performed
    cases same
    intro clause member
    have rebindKeeps := routes_keeps (rebinds.respects logs_rebind).stores.routes
    have inFirst := covered (.McpToolCall serverName toolName args rsid) (by simp) member
    rw [firstDeclared,← policy,show (afterCalls start before).policy = s₁.policy by rw [rebindKeeps.same],listed] at inFirst
    have passed := runMcpPreValidate_passed validates clause inFirst
    refine ((passed.of_keeps rebindKeeps).of_keeps keeps).mono ?_
    intro e member
    simp [member]
  | _ => cases stands

end

section
open Reference Faultless

/-- The path argument must be readable. -/
def readable : PreValidateClause := ⟨.FilesystemRead,some "path",none⟩

theorem readable_passes [Chrono] [Serde] [Sha256] [World] {s : Session} {path : String}
    (allowed : checkFilesystemRead s.policy path = .Allow) :
    Runs (runMcpPreValidate "files" "read" (callArgs path) [readable]) s () s [] := by
  have decides : Runs (clauseDecision "files" "read" readable path) s .Allow s [] := runs_reads.mpr ⟨allowed.symm,rfl,rfl⟩
  have value : Runs (preValidateValue "files" "read" readable path) s () s [] :=
    decides.continues.runs (runs_pure.mpr ⟨rfl,rfl,rfl⟩)
  have values : Runs (preValidateValues "files" "read" readable [path]) s () s [] :=
    value.continues.runs (runs_pure.mpr ⟨rfl,rfl,rfl⟩)
  refine runs_orFail_bind.mpr ⟨[path],?_,values.continues.runs (runs_pure.mpr ⟨rfl,rfl,rfl⟩)⟩
  rfl

/-- A declared clause that holds. -/
theorem prevalidation_sound_readable :
    let _ := calmWorld (serving [.WithPreValidate "read" [readable]])
    ∃ booted events pre tick post,boot config = .ok booted ∧
      (callFiles "/data/a",events) ∈ history (attach booted none (some mcpClient)) [callFiles "/data/a"] ∧
      events = pre ++ .Performed tick (.CallTool "files" "stdio:/bin/files" "read" (callArgs "/data/a")) :: post ∧
      ∀ clause ∈ declared booted.policy "files" "read",
        ClausePassed (attach booted none (some mcpClient)) pre "files" "read" (callArgs "/data/a") clause := by
  intro world
  obtain ⟨booted,boots,fresh,ready⟩ := calm_boots (serving [.WithPreValidate "read" [readable]]) rfl rfl
  have policy : (attach booted none (some mcpClient)).policy = serving [.WithPreValidate "read" [readable]] := fresh.policy
  obtain ⟨before,tick,after,performed⟩ := callFiles_performed (n := 99) "/data/a"
    (fresh.steady (fun _ _ => rfl) none (some mcpClient)) policy ⟨_,List.mem_singleton.mpr rfl,rfl⟩ fresh.counts rfl
    (fun t asked => by
      obtain ⟨k,rfl⟩ := asked
      refine ⟨_,[],readable_passes ?_,asked_refl _⟩
      rw [later,policy]
      decide) (ready.attach none (some mcpClient))
  refine ⟨booted,_,before,tick,after,boots,by simp [history],performed,?_⟩
  have ran : (callFiles "/data/a",_) ∈ history (attach booted none (some mcpClient)) [callFiles "/data/a"] :=
    List.mem_singleton.mpr rfl
  refine prevalidation_sound (attach booted none (some mcpClient)) [callFiles "/data/a"] ?_ ran performed
  intro call member
  rw [List.mem_singleton.mp member,policy]
  exact fun clause inside => inside

/-- Behind a bare entry of the tool the clause is not evaluated. -/
theorem prevalidation_skipped :
    let _ := calmWorld (serving [.Name "read",.WithPreValidate "read" [readable]])
    ∃ booted events pre tick post,boot config = .ok booted ∧
      (callFiles "/etc/shadow",events) ∈ history (attach booted none (some mcpClient)) [callFiles "/etc/shadow"] ∧
      events = pre ++ .Performed tick (.CallTool "files" "stdio:/bin/files" "read" (callArgs "/etc/shadow")) :: post ∧
      readable ∈ declared booted.policy "files" "read" ∧
      ¬ ClausePassed (attach booted none (some mcpClient)) pre "files" "read" (callArgs "/etc/shadow") readable := by
  intro world
  obtain ⟨booted,boots,fresh,ready⟩ :=
    calm_boots (serving [.Name "read",.WithPreValidate "read" [readable]]) rfl rfl
  have policy : (attach booted none (some mcpClient)).policy = serving [.Name "read",.WithPreValidate "read" [readable]] :=
    fresh.policy
  obtain ⟨before,tick,after,performed⟩ := callFiles_performed (n := 99) "/etc/shadow"
    (fresh.steady (fun _ _ => rfl) none (some mcpClient)) policy ⟨_,List.mem_cons_self,rfl⟩ fresh.counts rfl
    (fun t asked => ⟨t,[],runs_pure.mpr ⟨rfl,rfl,rfl⟩,asked_refl t⟩) (ready.attach none (some mcpClient))
  refine ⟨booted,_,before,tick,after,boots,by simp [history],performed,?_,?_⟩
  · rw [fresh.policy]
    decide
  · rintro ⟨values,extracted,allowed⟩
    have path : values = ["/etc/shadow"] := by
      have given : extractClauseValues (callArgs "/etc/shadow") "files" "read" readable = .ok ["/etc/shadow"] := rfl
      rw [given] at extracted
      exact (Except.ok.inj extracted).symm
    have decided := allowed "/etc/shadow" (by rw [path]; simp)
    change checkFilesystemRead (attach booted none (some mcpClient)).policy "/etc/shadow" = .Allow at decided
    rw [policy] at decided
    revert decided
    decide

end

end AegisNode.PreValidation
