import AegisNode.FaultlessTurn
import AegisNode.Reference

/-!
Runs of the agent loop on given inputs: the concrete session with a model that answers at
once.
-/
namespace AegisNode.ReferenceTurn
open Json Schema Policy Traced Engine Faultless Turn TurnLoop TurnTrace FaultlessTurn Reference
open Backend hiding ToolCall
set_option linter.unusedSectionVars false

/-- The model is done at once. -/
def done : InferResponse := ⟨"nothing to do",[],some "done",some 7⟩

def doneModel : LoadedModel := ⟨fun _ _ => .ok done⟩

/-- The parts of the concrete session that a turn depends on. -/
structure Standing (s : Session) : Prop where
  version : s.ledger.schemaVersion = .V2
  sessionId : s.sessionId = config.sessionId
  names : s.identityDir = config.identityDir ∧ s.workloadName = config.workloadName ∧ s.instanceName = config.instanceName

theorem Standing.kept {s t : Session} (standing : Standing s) (kept : Chronicle.Kept s t)
    (same : t.ledger.schemaVersion = s.ledger.schemaVersion) : Standing t := by
  refine ⟨same.trans standing.version,?_,?_⟩ <;> rw [kept]
  · exact standing.sessionId
  · exact standing.names

theorem fresh_standing [World] {policy : Manifest} {files : String → List UInt8} {booted : Session}
    (fresh : Fresh config policy files booted) : Standing booted := ⟨fresh.version,fresh.sessionId,fresh.names⟩

theorem first_binding : ∃ binding,LocalCa.encodeTurnBinding (turnAudience config.sessionId 1) = .ok binding := by
  have nonempty : Bytes.encode (turnAudience config.sessionId 1) ≠ [] := by decide +kernel
  have short : ¬ 2^16 ≤ (Bytes.encode (turnAudience config.sessionId 1)).length := by decide +kernel
  rw [LocalCa.encodeTurnBinding,if_neg nonempty,if_neg short]
  exact ⟨_,rfl⟩

/-- Its first turn is certified. -/
theorem Standing.certified [World] {s : Session} (standing : Standing s) (files : String → List UInt8) {remaining : Nat}
    (soon : turnTtl remaining ≤ 253402300799) : Certifies files s (turnAudience s.sessionId 1) remaining := by
  intro tick
  obtain ⟨binding,encoded⟩ := first_binding
  obtain ⟨dir,workload,instanceName⟩ := standing.names
  rw [standing.sessionId,dir,workload,instanceName]
  exact turn_issues tick _ _ encoded soon

theorem soon_turnTtl {remaining : Nat} (few : remaining ≤ 300) : turnTtl remaining ≤ 253402300799 := by
  unfold turnTtl
  omega

def exhausted : BackendError := ⟨.Inference,"out of memory"⟩

def failingModel : LoadedModel := ⟨fun _ _ => .error exhausted⟩

theorem Standing.loaded {s : Session} (standing : Standing s) (model : LoadedModel) : Standing (setLoadedModel s model) :=
  ⟨standing.version,standing.sessionId,standing.names⟩

/-- The first turn is opened. -/
theorem Standing.opens [World] {s : Session} {n : Nat} {files : String → List UInt8} (standing : Standing s)
    (ready : Ready s (n+1)) (holds : Holds files s) (started : Nat) (messages : List ChatMessage) :
    ∃ t svid before now entry record,Runs (openTurn defaultLimits started 1 messages) s () t
        (before ++ [.IssuedTurnSvid (turnAudience s.sessionId 1) (digestsOf files s.modelPath s.manifestPath s.configPath) svid,
          .UtcNow now,.Append entry (.ok (.ok record))]) ∧
      (∀ e ∈ before,Silent e) ∧ Ready t n ∧ s.tick ≤ t.tick ∧ t.currentTurnSvid = some svid := by
  refine openTurn_ready ready holds ?_ messages
  exact standing.certified files (soon_turnTtl (Nat.sub_le _ _))

/-- The first turn is admitted. -/
theorem admits [w : World] (still : ∀ tick,w.instant tick = 0) (tick started : Nat) :
    tripped defaultLimits 0 (World.instant tick-started) = none := by
  rw [still,Nat.zero_sub]
  decide

/-- In a world whose clock stands still the session is done after one turn. -/
theorem hello_runs [w : World] {s : Session} {n : Nat} {files : String → List UInt8} (standing : Standing s)
    (ready : Ready s (n+3)) (holds : ∀ tick path,w.fileBytes tick path = .ok (files path)) (still : ∀ tick,w.instant tick = 0)
    (loaded : s.loadedModel = some doneModel) :
    ∃ result t events,Runs (run "hello" defaultLimits) s result t events ∧ Ready t n ∧ Standing t ∧
      t.loadedModel = some doneModel ∧ t.currentTurnSvid = none ∧ Chronicle.Clean events := by
  have opened : Opened files defaultLimits (World.instant s.tick) 1 s.next.next :=
    Standing.certified (s := s.next.next) ⟨standing.version,standing.sessionId,standing.names⟩ files
      (soon_turnTtl (Nat.sub_le _ _))
  obtain ⟨result,t,events,runs,left,-,dropped,clean⟩ := run_quiet ready standing.version (fun tick _ path => holds tick path) opened
    (admits still s.next.tick (World.instant s.tick)) (by decide) loaded (show "hello" ≠ "" by decide) (show done.toolCalls = [] from rfl) (fun tick _ => rfl)
  have made := made_run "hello" defaultLimits
  have kept := runs.respects (Chronicle.stays_made made)
  have version := (runs.respects (Chronicle.chronicles_made made)).version
  refine ⟨result,t,events,runs,left,standing.kept kept version,?_,dropped,clean⟩
  rw [kept]
  exact loaded

end AegisNode.ReferenceTurn
