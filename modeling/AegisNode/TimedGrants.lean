import AegisNode.Passage
import AegisNode.Quota
import AegisNode.Reasoning

/-!
Time-bounded write grants at the moment of the effect. A write or a delete is decided at
one reading of the clock; its approval is awaited and entries are written after that, and
the grants are not looked at again.
-/
namespace AegisNode.TimedGrants
open Clock Json Schema Policy Extends Passage Traced Engine Mediator Frames Mediation Quota Turn TurnLoop TurnTrace Mediations Reasoning
open Backend hiding ToolCall
open Ledger hiding Error
set_option linter.unusedSectionVars false

/-! ### The property -/

/-- What a write grant has to name for the effect. -/
def writeOf : Effect → Option (String × WriteAction)
  | .FsWrite path _ => some (path,.Write)
  | .FsRemove path => some (path,.Delete)
  | _ => none

/-- The write or the delete that a call asks for. -/
def asksFor : Call → Option (String × WriteAction)
  | .FilesystemWrite path _ _ => some (path,.Write)
  | .FilesystemDelete path _ => some (path,.Delete)
  | _ => none

section
variable [Chrono]

/-- The grant authorises the action at this time. -/
def Open (m : Manifest) (path : String) (want : WriteAction) (now sessionStart : Int) (g : WriteGrant) : Prop :=
  g ∈ m.writeGrants.filter (names path want) ∧ grantTimeValid g now sessionStart = .ok true

variable [World]

/-- A write or a delete that is up to write grants takes effect while one of them is in its
    window. -/
def Honoured (m : Manifest) (sessionStart : Int) : Event → Prop
  | .Performed tick effect => ∀ path want,writeOf effect = some (path,want) →
    m.writeGrants.filter (names path want) ≠ [] → ∃ g,Open m path want (World.utcNow tick) sessionStart g
  | _ => True

variable [Serde] [Sha256] [Identity]

/-- No window that is open at the clock reading that decides the call is over when the call
    takes effect. -/
def Lasting (s : Session) (call : Call) : Prop :=
  ∀ path want,asksFor call = some (path,want) →
    ∀ g,Open s.policy path want (World.utcNow (rebind s).state.tick) s.sessionStart g →
      ∀ tick effect,.Performed tick effect ∈ (mediate call s).events →
        Open s.policy path want (World.utcNow tick) s.sessionStart g

end

/-! ### One call -/

section
variable [Chrono]

/-- A check that does not deny what is up to grants has found one in its window. -/
theorem Timed.opens {m : Manifest} {path : String} {want : WriteAction} {check : Int → Int → Checked Decision} (timed : Timed m path want check)
    (named : m.writeGrants.filter (names path want) ≠ []) {now sessionStart : Int} {decision : Decision}
    (decided : check now sessionStart = .ok decision) (undenied : ∀ reason,decision ≠ .Deny reason) :
    ∃ g,Open m path want now sessionStart g := by
  have classified := classifyWriteGrant_named now sessionStart named
  cases found : findValid now sessionStart (m.writeGrants.filter (names path want)) with
  | error panic =>
    rw [found] at classified
    rw [timed.panics now sessionStart panic classified] at decided
    cases decided
  | ok result =>
    cases result with
    | none =>
      rw [found] at classified
      obtain ⟨reason,denies⟩ := timed.expired now sessionStart classified
      rw [denies] at decided
      cases decided
      exact absurd rfl (undenied reason)
    | some g =>
      obtain ⟨h,listed,window⟩ := List.exists_of_findSome?_eq_some (findValid_some.mp found)
      obtain ⟨rfl,valid⟩ := window_ok.mp window
      exact ⟨h,listed,valid⟩

variable [Serde] [Sha256] [Identity] [World]

/-- What comes to its effect was not denied at the reading of the clock. -/
theorem gated_opens {g : Gated Unit} {path : String} {want : WriteAction} {check : Manifest → Int → Int → Checked Decision}
    (reading : Reading g) (timed : ∀ m,Timed m path want (check m))
    (decision : g.decision = do
      let now ← utcNow
      let checked ← reads (fun s => check s.policy now s.sessionStart)
      orPanic checked) {s : Session} {rsid : Option String}
    (named : s.policy.writeGrants.filter (names path want) ≠ []) {tick : Nat} {effect : Effect}
    (member : .Performed tick effect ∈ (mediateGated g rsid s).events) :
    ∃ grant,Open s.policy path want (World.utcNow (rebind s).state.tick) s.sessionStart grant := by
  obtain ⟨pre,post,whole⟩ := List.append_of_mem member
  obtain ⟨checked,s₁,decided,s₂,outcome,later,resourceUri,-,-,rebinds,decides,-,allowed⟩ := mediateGated_performed reading whole
  have kept := rebinds.respects logs_rebind
  rw [decision,utcNow,runs_ask_bind] at decides
  obtain ⟨_,decides,-⟩ := decides
  rw [runs_reads_bind,runs_orPanic] at decides
  have judged : check s.policy (World.utcNow (rebind s).state.tick) s.sessionStart = .ok outcome := by
    rw [rebinds.state,← decides.1,show s₁.next.policy = s.policy by rw [Session.next_policy,kept.same],
      show s₁.next.sessionStart = s.sessionStart by rw [show s₁.next.sessionStart = s₁.sessionStart from rfl,kept.same]]
  refine Timed.opens (timed s.policy) named judged ?_
  rintro reason rfl
  rcases allowed with allowed | ⟨summary,required,-⟩
  · cases allowed
  · cases required

/-- The effect of a call is the one it asks for. -/
theorem performed_asked {s : Session} {call : Call} {tick : Nat} {effect : Effect}
    (member : .Performed tick effect ∈ (mediate call s).events) : writeOf effect = asksFor call := by
  obtain ⟨pre,post,whole⟩ := List.append_of_mem member
  obtain ⟨_,_,_,-,mediated⟩ := mediate_mediated whole
  have stands := mediated.effect
  cases call with
  | McpToolCall serverName toolName args rsid =>
    obtain ⟨grant,-,rfl⟩ := Option.map_eq_some_iff.mp stands
    rfl
  | _ =>
    cases stands
    rfl

theorem mediate_opens {s : Session} {call : Call} {path : String} {want : WriteAction} (asks : asksFor call = some (path,want))
    (named : s.policy.writeGrants.filter (names path want) ≠ []) {tick : Nat} {effect : Effect}
    (member : .Performed tick effect ∈ (mediate call s).events) :
    ∃ g,Open s.policy path want (World.utcNow (rebind s).state.tick) s.sessionStart g := by
  cases call with
  | FilesystemWrite target contents rsid =>
    cases asks
    exact gated_opens (reading_filesystemWrite path contents) (fun m => timed_write m path) rfl named member
  | FilesystemDelete target rsid =>
    cases asks
    exact gated_opens (reading_filesystemDelete path) (fun m => timed_delete m path) rfl named member
  | _ => cases asks

theorem mediate_honours {s : Session} {call : Call} (lasting : Lasting s call) :
    ∀ e ∈ (mediate call s).events,Honoured s.policy s.sessionStart e := by
  intro e member
  cases e with
  | Performed tick effect =>
    intro path want writes named
    rw [performed_asked member] at writes
    obtain ⟨g,opened⟩ := mediate_opens writes named member
    exact ⟨g,lasting path want writes g opened tick effect member⟩
  | _ => trivial

/-! ### Runs -/

/-- The policy and the start of the session stay, and the effects are honoured. -/
def Honours (a : Session) (events : List Event) (b : Session) : Prop :=
  (b.policy = a.policy ∧ b.sessionStart = a.sessionStart) ∧ ∀ e ∈ events,Honoured a.policy a.sessionStart e

theorem honours_composes : Composes Honours where
  idle _ := ⟨⟨rfl,rfl⟩,by simp⟩
  append := by
    rintro a b c left right ⟨⟨policy,start⟩,first⟩ ⟨⟨policy',start'⟩,second⟩
    rw [policy,start] at second
    exact ⟨⟨policy'.trans policy,start'.trans start⟩,List.forall_mem_append.mpr ⟨first,second⟩⟩

/-- What is no effect is honoured. -/
theorem honours_made {allowed : Stop → Prop} {α : Type} {p : Run α} (made : Made (Chronicle.Does allowed) p) (quiet : Respects (Each Quiet) p) :
    Respects Honours p := by
  intro s
  have kept : Chronicle.Kept s (p s).state := Chronicle.stays_made made s
  refine ⟨⟨by rw [kept],by rw [kept]⟩,?_⟩
  intro e member
  have silent := quiet s e member
  cases e with
  | Performed tick effect => exact silent.elim
  | _ => trivial

theorem quiet_of_aside (e : Event) (aside : Aside e) : Quiet e := by
  cases e with
  | Performed tick effect => exact aside.elim
  | _ => trivial

theorem quiet_emitNow {wrap : Ledger.Error → Error} (entryType : EntryType) (fields : List (String × Scalar)) :
    Respects (Each Quiet) (emitNow wrap entryType fields) := by
  intro s e member
  have plain := ((logs_emitNow fun _ => logs_emit _ _ _ _ : Respects Logs (emitNow wrap entryType fields)) s).each e member
  cases e with
  | Performed tick effect => exact plain.elim
  | _ => trivial

theorem mediate_honouring {s : Session} {call : Call} (lasting : Lasting s call) :
    Honours s (mediate call s).events (mediate call s).state := by
  have keeps := keeps_mediate call s
  exact ⟨⟨by rw [keeps.same],by rw [keeps.same]⟩,mediate_honours lasting⟩

theorem calls_honour (s : Session) {calls : List Call}
    (lasting : ∀ before call after,calls = before ++ call :: after → Lasting (afterCalls s before) call) :
    Honours s (trace s calls) (afterCalls s calls) := by
  induction calls using List.reverseRecOn with
  | nil => exact honours_composes.idle s
  | append_singleton calls call ih =>
    rw [trace_concat,afterCalls_concat]
    refine honours_composes.append (ih fun before other after whole => ?_) (mediate_honouring (lasting calls call [] rfl))
    exact lasting before other (after ++ [call]) (by rw [whole]; simp)

theorem turn_honours {messages : List ChatMessage} {prompt : String} {turn : Option Nat} {s : Session}
    (lasting : ∀ x ∈ turnMediations messages prompt turn s,Lasting x.1 x.2) :
    Honours s (runOneTurn messages prompt turn s).events (runOneTurn messages prompt turn s).state := by
  refine runOneTurn_follows honours_composes (P := fun x => Lasting x.1 x.2) (fun _ _ lasting => mediate_honouring lasting)
    ?called ?returned ?inferred ?reasoned messages prompt turn lasting
  case called => exact fun _ _ _ _ _ => honours_made (made_emitNow (by simp) _ _) (quiet_emitNow _ _)
  case returned => exact fun _ _ _ _ => honours_made (made_emitNow (by simp) _ _) (quiet_emitNow _ _)
  case inferred => exact fun _ _ => honours_made (made_infer _ _) (each_mono quiet_of_aside (aside_infer _ _))
  case reasoned => exact fun _ _ _ _ => honours_made (made_recordReasoningStep _ _ _ _) (each_mono quiet_of_aside (aside_recordReasoningStep _ _ _ _))

theorem run_honours {prompt : String} {limits : TurnLimits} {s : Session}
    (lasting : ∀ x ∈ runMediations prompt limits s,Lasting x.1 x.2) :
    Honours s (run prompt limits s).events (run prompt limits s).state := by
  refine run_follows honours_composes (P := fun x => Lasting x.1 x.2) (fun _ _ _ _ within => turn_honours within) ?timed ?opened
    ?concluded ?capped prompt limits lasting
  case timed =>
    have made : Made (Chronicle.Does Chronicle.Ordinary) instantNow := .Step (.Ask _ _ (by simp))
    exact honours_made made (each_mono quiet_of_aside aside_instantNow)
  case opened => exact fun _ _ _ _ => honours_made (made_openTurn _ _ _ _) (each_mono quiet_of_aside (aside_openTurn _ _ _ _))
  case concluded =>
    exact fun _ _ _ _ _ _ => honours_made (made_concludeTurn _ _ _ _ _ _) (each_mono quiet_of_aside (aside_concludeTurn _ _ _ _ _ _))
  case capped =>
    exact fun _ _ limits _ _ => honours_made (made_emitCapAndBuildErr limits _ _ _ _) (each_mono quiet_of_aside (aside_emitCapAndBuildErr _ _ _ _ _))

/-- In every run, of calls one after another, of the loop, and of a single turn, in which no
    call outlasts an open window, writes and deletes that are up to write grants take effect
    within the window of one of them. -/
theorem windows_honoured (s : Session) :
    (∀ calls,(∀ before call after,calls = before ++ call :: after → Lasting (afterCalls s before) call) →
      ∀ e ∈ trace s calls,Honoured s.policy s.sessionStart e) ∧
    (∀ prompt limits,(∀ x ∈ runMediations prompt limits s,Lasting x.1 x.2) →
      ∀ e ∈ (run prompt limits s).events,Honoured s.policy s.sessionStart e) ∧
    ∀ userMessage,(∀ x ∈ turnMediations [⟨.User,userMessage⟩] userMessage none s,Lasting x.1 x.2) →
      ∀ e ∈ (runTurn userMessage s).events,Honoured s.policy s.sessionStart e := by
  refine ⟨fun calls lasting => (calls_honour s lasting).2,fun prompt limits lasting => (run_honours lasting).2,?_⟩
  intro userMessage lasting
  exact (runTurn_follows honours_composes (P := fun x => Lasting x.1 x.2) (fun _ _ _ _ within => turn_honours within)
    userMessage lasting).2

end

/-! ### An operator who takes his time -/

section
open Faultless Reference

/-- A write that the operator grants takes effect after the answer. -/
theorem write_granted [w : World] {s : Session} {n : Nat} {path summary : String} (contents : List UInt8) (steady : Steady s)
    (absolute : Paths.isAbsolute path = true)
    (asks : checkFilesystemWrite s.policy path (w.utcNow (s.tick+(fileCount s.configPath+1))) s.sessionStart = .ok (.RequireApproval summary))
    (tier : tierFor s.policy .Filesystem ≠ .Advisory) (ungranted : s.grantTable = ∅)
    (attached : s.approvalChannel = some (answering (.Granted "operator" 0))) {counted : Aggregate.SessionAggregateState}
    (room : Room s .Filesystem counted) (ready : Ready s (n+3)) :
    ∃ tick effects,s.tick+(fileCount s.configPath+6) ≤ tick ∧ .Performed tick (.FsWrite path contents) ∈ effects ∧
      ∃ before,(mediate (.FilesystemWrite path contents none) s).events = before ++ effects := by
  obtain ⟨checked,rebinds,-⟩ := rebind_steady steady
  let start := later s (fileCount s.configPath+1)
  have asked : Asked s start.next := ⟨fileCount s.configPath+1+1,rfl⟩
  let op := (filesystemWrite path contents).operation ("file://" ++ path)
  have decides : Runs (writeDecisionNow path) start (.RequireApproval summary) start.next [.UtcNow (World.utcNow start.tick)] := by
    refine runs_ask_bind.mpr ⟨[],?_,rfl⟩
    exact runs_reads_bind.mpr (runs_orPanic.mpr ⟨asks,rfl,rfl⟩)
  have locates := fileUri_absolute absolute start.next
  have unmet : Grants.lookup start.next.grantTable op.toolName op.canonicalArgs (World.systemNow start.next.tick) = none := by
    rw [show start.next.grantTable = ∅ from ungranted]
    rfl
  obtain ⟨_,_,u,(requests : Continues (approve op none summary) start.next _ u _),-,left,ledger,rfl⟩ :=
    approve_asks tier unmet attached rfl (asked.ready ready)
  obtain ⟨_,_,_,_,_,_,t,_,takes,-⟩ := takeOutcome_grants op none (ttlSecsFor start.next.policy op.toolClass)
    (requestFor start.next op none summary) "operator" 0 left
  have stores := takes.respects (stores_takeOutcome _ _ _ _ _)
  have room' : Room t .Filesystem counted := by
    rw [stores.same]
    exact room
  have charges := enforceAggregateQuota_room room' ("file://" ++ path) "write"
  have routes : Runs (routeThroughApproval (.RequireApproval summary) op none) start.next .Allow t _ := requests.runs takes
  have whole : Continues (mediateGated (filesystemWrite path contents) none) s (conclude (filesystemWrite path contents) ("file://" ++ path) none)
      { t with aggregateState := counted } _ :=
    rebinds.continues.trans (decides.continues.trans (locates.continues.trans (routes.continues.trans charges.continues)))
  refine ⟨t.tick,_,?_,?_,_,whole.events⟩
  · have passed := stores.later
    change s.tick+(fileCount s.configPath+1)+1+4 ≤ t.tick at passed
    omega
  · rw [conclude,perform_bind]
    exact List.mem_cons_self

/-- `/tmp/a` may be written for thirty seconds, with an approval. -/
def timed : Manifest := { closed with writeGrants := [⟨"/tmp/a",[.Write],some "PT30S",none,true⟩] }

def writeA : Call := .FilesystemWrite "/tmp/a" [] none

/-- While the clock stands still every window stays open. -/
theorem windows_honoured_still :
    let _ := calmWorld timed
    ∃ booted,boot config = .ok booted ∧ ∀ e ∈ trace (attach booted (some (answering (.Granted "operator" 0))) none) [writeA],
      Honoured timed 0 e := by
  intro world
  obtain ⟨booted,boots,fresh,-⟩ := calm_boots timed rfl rfl
  refine ⟨booted,boots,?_⟩
  have honoured := (windows_honoured (attach booted (some (answering (.Granted "operator" 0))) none)).1 [writeA]
    fun _ _ _ _ _ _ _ _ opened _ _ _ => opened
  rw [show (attach booted (some (answering (.Granted "operator" 0))) none).policy = timed from fresh.policy,
    show (attach booted (some (answering (.Granted "operator" 0))) none).sessionStart = 0 from fresh.sessionStart] at honoured
  exact honoured

/-- The operator answers after forty seconds. -/
@[reducible] def slowWorld : World := { calmWorld timed with utcNow := fun tick => if tick ≤ 15 then 0 else 40*second }

/-- The write takes effect when its grant has been over for ten seconds. -/
theorem overdue_write :
    let _ := slowWorld
    ∃ booted,boot config = .ok booted ∧
      ¬ ∀ e ∈ trace (attach booted (some (answering (.Granted "operator" 0))) none) [writeA],Honoured timed 0 e := by
  intro world
  obtain ⟨booted,boots,fresh,ready⟩ := boot_succeeds (bootable timed rfl rfl rfl (fun _ _ _ => rfl) rfl) (by decide : 1+100 < 2^64)
  refine ⟨booted,boots,fun honoured => ?_⟩
  let s := attach booted (some (answering (.Granted "operator" 0))) none
  have policy : s.policy = timed := fresh.policy
  have count : fileCount s.configPath = 2 := by
    rw [show s.configPath = none from fresh.paths.2.2]
    rfl
  have tick : s.tick = 8 := fresh.tick
  have room : Room s .Filesystem ((∅ : Aggregate.SessionAggregateState).insert .Filesystem 1) := by
    refine ⟨1,?_⟩
    rw [policy,show s.aggregateState = ∅ from fresh.counts]
    rfl
  have asks : checkFilesystemWrite s.policy "/tmp/a" (world.utcNow (s.tick+(fileCount s.configPath+1))) s.sessionStart =
      .ok (.RequireApproval "Write on /tmp/a requires approval per write_grant") := by
    rw [policy,count,tick,show s.sessionStart = 0 from fresh.sessionStart]
    decide
  obtain ⟨performed,effects,after,member,before,events⟩ := write_granted [] (fresh.steady (fun _ _ => rfl) _ _) (by decide) asks
    (by rw [policy]; decide) fresh.grants rfl room ((ready.attach _ none).fewer (by decide : 3 ≤ 100))
  rw [count,tick] at after
  have inside : .Performed performed (.FsWrite "/tmp/a" []) ∈ trace s [writeA] := by
    rw [trace,history,history,List.flatMap_cons,List.flatMap_nil,List.append_nil]
    change _ ∈ (mediate (.FilesystemWrite "/tmp/a" [] none) s).events
    rw [events]
    exact List.mem_append_right _ member
  obtain ⟨g,listed,valid⟩ := honoured _ inside "/tmp/a" .Write rfl (by decide)
  rw [show world.utcNow performed = 40*second from if_neg (by omega)] at valid
  have only : g = ⟨"/tmp/a",[.Write],some "PT30S",none,true⟩ := by simpa [timed,names] using listed
  subst only
  revert valid
  decide

end

end AegisNode.TimedGrants
