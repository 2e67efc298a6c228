import AegisNode.Faultless
import AegisNode.TurnTrace

/-!
A turn of the agent loop when nothing fails: the CA certifies it, its entries are
appended, and a model that calls no tools ends the run.
-/
namespace AegisNode.FaultlessTurn
open Clock Json Schema Policy Traced Engine Mediator Frames Entries Faultless Turn TurnLoop Chronicle TurnTrace
open Backend hiding ToolCall
open Ledger hiding Error
set_option linter.unusedSectionVars false

/-- The session with the certificate of a turn. -/
def bearing (s : Session) (svid : Option X509Svid) : Session := { s with currentTurnSvid := svid }

section
variable [Chrono] [Serde] [Sha256] [Identity] [World]

theorem emitNow_ready {s : Session} {n : Nat} (ready : Ready s (n+1)) (wrap : Ledger.Error → Error) (entryType : EntryType)
    {fields : List (String × Scalar)} (unreserved : Unreserved fields) :
    ∃ record ledger,Runs (emitNow wrap entryType fields) s () (s.next.wrote ledger)
        [.UtcNow (World.utcNow s.tick),
         .Append (entryOf s entryType (World.utcNow s.tick) (payloadOf fields)) (.ok (.ok record))] ∧
      Ready (s.next.wrote ledger) n := stamped_ready ready wrap entryType unreserved

theorem clean_taken (now : Int) (entry : Entry) (record : EntryRecord) :
    Clean [.UtcNow now,.Append entry (.ok (.ok record))] := by
  intro other result member
  simp only [List.mem_cons,reduceCtorEq,Event.Append.injEq,List.not_mem_nil,or_false,false_or] at member
  exact ⟨record,member.2⟩

theorem clean_silent {events : List Event} (silent : ∀ e ∈ events,Silent e) : Clean events :=
  fun _ _ member => (silent _ member).elim

theorem elapsedSince_runs (started : Nat) (s : Session) :
    Runs (elapsedSince started) s (World.instant s.tick-started) s.next [] :=
  runs_ask_bind.mpr ⟨[],runs_pure.mpr ⟨rfl,rfl,rfl⟩,rfl⟩

theorem reasoningStep_unreserved (stepId : Uuid) (input reasoning : String) (toolsConsidered : List String)
    (toolSelected : Option String) : Unreserved (reasoningStepFields stepId input reasoning toolsConsidered toolSelected) :=
  unreserved_append (by simp [Unreserved,reservedKeys]) (unreserved_optional (by decide) _)

theorem recordReasoningStep_ready {s : Session} {n : Nat} (ready : Ready s (n+1)) {input : String} (given : input ≠ "")
    (reasoning : String) (toolsConsidered : List String) (toolSelected : Option String) :
    ∃ record ledger,Runs (recordReasoningStep input reasoning toolsConsidered toolSelected) s (World.uuid s.tick)
        (s.next.next.wrote ledger) [.UtcNow (World.utcNow s.next.tick),
          .Append (entryOf s .ReasoningStep (World.utcNow s.next.tick) (payloadOf
            (reasoningStepFields (World.uuid s.tick) input reasoning toolsConsidered toolSelected))) (.ok (.ok record))] ∧
      Ready (s.next.next.wrote ledger) n := by
  obtain ⟨record,ledger,emits,left⟩ := emit_ready ready.next.next (fun e => .AccessLog (.Ledger e)) .ReasoningStep
    (World.utcNow s.next.tick) (reasoningStep_unreserved (World.uuid s.tick) input reasoning toolsConsidered toolSelected)
  refine ⟨record,ledger,?_,left⟩
  rw [recordReasoningStep,newUuid,runs_ask_bind]
  refine ⟨_,?_,rfl⟩
  rw [utcNow,runs_ask_bind]
  refine ⟨_,?_,rfl⟩
  rw [if_neg given]
  exact emits.then_pure _

/-- The model answers. -/
theorem infer_runs {s : Session} {model : LoadedModel} {messages : List ChatMessage} {tools : List ToolDecl}
    {response : InferResponse} (loaded : s.loadedModel = some model)
    (answers : model.infer s.tick ⟨messages,tools⟩ = .ok response) :
    Runs (infer messages tools) s response s.next [.Inferred ⟨messages,tools⟩ (.ok response)] := by
  rcases infer_cases messages tools s with ⟨none,-⟩ | ⟨other,same,⟨error,failed,-⟩ | ⟨given,answered,asked⟩⟩
  · rw [loaded] at none
    cases none
  · rw [loaded] at same
    cases same
    rw [answers] at failed
    cases failed
  · rw [loaded] at same
    cases same
    rw [answers] at answered
    cases answered
    exact asked

/-- An answer without calls leaves the reasoning only. -/
theorem dispatchAnswer_quiet {s : Session} {n : Nat} (ready : Ready s (n+1)) {prompt : String} (given : prompt ≠ "")
    (turn : Option Nat) (tools : List ToolDecl) {response : InferResponse} (quiet : response.toolCalls = []) :
    ∃ ledger events,Runs (dispatchAnswer prompt turn tools response) s
        (⟨response.assistantText,[],(World.uuid s.tick).toString⟩,response.tokensUsed) (s.next.next.wrote ledger) events ∧
      Ready (s.next.next.wrote ledger) n ∧ Clean events := by
  obtain ⟨record,ledger,reasons,left⟩ := recordReasoningStep_ready ready given response.reasoning (tools.map (·.name))
    (response.toolCalls.head?.map (·.name))
  refine ⟨ledger,_ ++ [],runs_bind.mpr ⟨_,_,_,[],reasons,?_,rfl⟩,left,by
    rw [List.append_nil]
    exact clean_taken _ _ _⟩
  rw [runs_reads_bind,quiet]
  exact runs_bind.mpr ⟨_,_,[],[],runs_pure.mpr ⟨rfl,rfl,rfl⟩,runs_pure.mpr ⟨rfl,rfl,rfl⟩,rfl⟩

theorem runOneTurn_quiet {s : Session} {n : Nat} (ready : Ready s (n+1)) {model : LoadedModel} (loaded : s.loadedModel = some model)
    {messages : List ChatMessage} {prompt : String} (given : prompt ≠ "") (turn : Option Nat) {response : InferResponse}
    (answers : model.infer s.tick ⟨messages,toolCatalog s.policy⟩ = .ok response) (quiet : response.toolCalls = []) :
    ∃ k ledger events stepId,Runs (runOneTurn messages prompt turn) s (⟨response.assistantText,[],stepId⟩,response.tokensUsed)
        ((later s k).wrote ledger) events ∧ Ready ((later s k).wrote ledger) n ∧ Clean events := by
  obtain ⟨ledger,events,dispatches,left,clean⟩ :=
    dispatchAnswer_quiet ready.next given turn (toolCatalog s.policy) quiet
  refine ⟨3,ledger,[.Inferred ⟨messages,toolCatalog s.policy⟩ (.ok response)] ++ events,(World.uuid s.next.tick).toString,?_,left,
    clean_append.mpr ⟨by simp [Clean],clean⟩⟩
  rw [runOneTurn,runs_reads_bind]
  exact runs_bind.mpr ⟨_,_,_,_,infer_runs loaded answers,dispatches,rfl⟩

theorem closeTurn_ready {s : Session} {n : Nat} (ready : Ready s (n+1)) (started turn : Nat) (used : Option UInt64)
    (tokensConsumed : UInt64) :
    ∃ ledger events,Runs (closeTurn started turn used tokensConsumed) s () (bearing ((later s 2).wrote ledger) none) events ∧
      Ready ((later s 2).wrote ledger) n ∧ Clean events := by
  have unreserved : Unreserved (turnEndFields turn none used tokensConsumed
      (UInt64.ofNat (min (asMillis (World.instant s.tick-started)) (2^64-1))) (snapshots s.next.aggregateState s.next.policy)) := by
    cases used <;> simp [Unreserved,turnEndFields,optionalCount,reservedKeys]
  obtain ⟨record,ledger,ends,left⟩ := emitNow_ready ready.next .Ledger .TurnEnd unreserved
  have writes : Runs (writeTurnEnd turn none used tokensConsumed
      (UInt64.ofNat (min (asMillis (World.instant s.tick-started)) (2^64-1)))) s.next () (s.next.next.wrote ledger) _ :=
    runs_reads_bind.mpr ends
  have drops : Runs (writeTurnEnd turn none used tokensConsumed
      (UInt64.ofNat (min (asMillis (World.instant s.tick-started)) (2^64-1))) >>= fun _ => dropTurnSvid) s.next ()
      (bearing ((later s 2).wrote ledger) none) _ := runs_bind.mpr ⟨_,_,_,[],writes,runs_update.mpr ⟨rfl,rfl⟩,rfl⟩
  exact ⟨ledger,_,runs_bind.mpr ⟨_,_,_,_,elapsedSince_runs started s,drops,rfl⟩,left,clean_taken _ _ _⟩

/-- A turn without calls is concluded by its last entry. -/
theorem concludeTurn_quiet {s : Session} {n : Nat} (ready : Ready s (n+1)) (started turn : Nat) (progress : Progress)
    {outcome : TurnOutcome} (quiet : outcome.toolCalls = []) (used : Option UInt64) :
    ∃ ledger events,Runs (concludeTurn started true turn progress outcome used) s
        (progress.grown outcome used s.adversarialClassifier.name [],true) (bearing ((later s 2).wrote ledger) none) events ∧
      Ready ((later s 2).wrote ledger) n ∧ Clean events := by
  obtain ⟨ledger,events,closes,left,clean⟩ := closeTurn_ready ready started turn used
    (progress.grown outcome used s.adversarialClassifier.name []).tokensConsumed
  refine ⟨ledger,[] ++ (events ++ []),?_,left,by rwa [List.nil_append,List.append_nil]⟩
  rw [concludeTurn,runs_reads_bind,quiet,List.map_nil]
  refine runs_bind.mpr ⟨(),s,[],events ++ [],runs_pure.mpr ⟨rfl,rfl,rfl⟩,?_,rfl⟩
  exact runs_bind.mpr ⟨(),_,events,[],closes,runs_pure.mpr ⟨rfl,rfl,rfl⟩,rfl⟩

/-- The CA certifies the turn whenever it is asked. -/
def Certifies (files : String → List UInt8) (s : Session) (audience : String) (remaining : Nat) : Prop :=
  ∀ tick,∃ svid thumbprint,Identity.issueTurnSvid tick s.identityDir s.workloadName s.instanceName
      (digestsOf files s.modelPath s.manifestPath s.configPath) s.boundChatTemplate audience (turnTtl remaining) =
      .ok (.ok svid) ∧ Identity.certThumbprintHex svid.certPem = .ok thumbprint

theorem issueTurnSvid_certified {files : String → List UInt8} {s : Session} {audience : String} {remaining : Nat}
    (holds : Holds files s) (certifies : Certifies files s audience remaining) :
    ∃ svid thumbprint before,Runs (issueTurnSvid audience remaining) s thumbprint
        (bearing (later s (fileCount s.configPath+1)) (some svid))
        (before ++ [.IssuedTurnSvid audience (digestsOf files s.modelPath s.manifestPath s.configPath) svid]) ∧
      ∀ e ∈ before,Silent e := by
  obtain ⟨before,live,silent⟩ := computeLiveDigests_holds holds
  obtain ⟨svid,thumbprint,issued,printed⟩ := certifies (later s (fileCount s.configPath)).tick
  refine ⟨svid,thumbprint,before,?_,silent⟩
  refine runs_bind.mpr ⟨_,_,_,_,live,?_,rfl⟩
  have kept : Runs (keepTurnSvid svid) (later s (fileCount s.configPath)).next thumbprint
      (bearing (later s (fileCount s.configPath+1)) (some svid)) [] :=
    runs_orFail_bind.mpr ⟨thumbprint,printed,
      runs_bind.mpr ⟨(),_,[],[],runs_update.mpr ⟨rfl,rfl⟩,runs_pure.mpr ⟨rfl,rfl,rfl⟩,rfl⟩⟩
  rw [runs_reads_bind,runs_reads_bind,runs_reads_bind,runs_reads_bind,runs_ask_bind]
  rw [show Identity.issueTurnSvid (later s (fileCount s.configPath)).tick (later s (fileCount s.configPath)).identityDir
    (later s (fileCount s.configPath)).workloadName (later s (fileCount s.configPath)).instanceName _
    (later s (fileCount s.configPath)).boundChatTemplate audience (turnTtl remaining) = .ok (.ok svid) from issued]
  refine ⟨[],?_,rfl⟩
  refine runs_bind.mpr ⟨_,_,[],[],runs_orPanic.mpr ⟨rfl,rfl,rfl⟩,?_,rfl⟩
  exact runs_orFail_bind.mpr ⟨svid,rfl,kept⟩

theorem Certifies.issuable {files : String → List UInt8} {s : Session} {audience : String} {remaining : Nat}
    (certifies : Certifies files s audience remaining) (holds : Holds files s) : Issuable audience remaining s := by
  obtain ⟨before,live,-⟩ := computeLiveDigests_holds holds
  obtain ⟨svid,thumbprint,issued,-⟩ := certifies (later s (fileCount s.configPath)).tick
  exact ⟨_,_,_,svid,live,issued⟩

variable {files : String → List UInt8} {s : Session} {limits : TurnLimits} {started turn : Nat}

/-- The turn is certified for what is left of the time at its second reading of the clock. -/
def Opened (files : String → List UInt8) (limits : TurnLimits) (started turn : Nat) (s : Session) : Prop :=
  Certifies files s (turnAudience s.sessionId turn) (remainingOf limits started s)

theorem clean_opened {before : List Event} (silent : ∀ e ∈ before,Silent e) {audience : String} {live : DigestTriple}
    {svid : X509Svid} {now : Int} {entry : Entry} {record : EntryRecord} :
    Clean (before ++ [.IssuedTurnSvid audience live svid,.UtcNow now,.Append entry (.ok (.ok record))]) := by
  refine clean_append.mpr ⟨clean_silent silent,?_⟩
  intro other result member
  rcases List.mem_cons.mp member with other | member
  · cases other
  · exact clean_taken now entry record _ _ member

/-- Such a turn gets its certificate and its first entry. -/
theorem openTurn_ready {n : Nat} (ready : Ready s (n+1)) (holds : Holds files s) (opened : Opened files limits started turn s)
    (messages : List ChatMessage) :
    ∃ t svid before now entry record,Runs (openTurn limits started turn messages) s () t
        (before ++ [.IssuedTurnSvid (turnAudience s.sessionId turn) (digestsOf files s.modelPath s.manifestPath s.configPath) svid,
          .UtcNow now,.Append entry (.ok (.ok record))]) ∧
      (∀ e ∈ before,Silent e) ∧ Ready t n ∧ s.tick ≤ t.tick ∧ t.currentTurnSvid = some svid := by
  have next : Holds files s.next := fun tick after => holds tick ((Nat.le_succ _).trans after)
  obtain ⟨svid,thumbprint,before,issues,silent⟩ := issueTurnSvid_certified (s := s.next) next opened
  have unreserved : Unreserved (turnStartFields turn s.boundDigests.model (sha256HexOfMessages messages) thumbprint
      (turnAudience s.sessionId turn)) := by simp [Unreserved,turnStartFields,reservedKeys]
  have counting : Ready (bearing (later s.next (fileCount s.configPath+1)) (some svid)) (n+1) :=
    ⟨ready.healthy,ready.own,ready.few⟩
  obtain ⟨record,ledger,writes,left⟩ := emitNow_ready counting .Ledger .TurnStart unreserved
  have starts : Runs (writeTurnStart turn (sha256HexOfMessages messages) thumbprint (turnAudience s.sessionId turn))
      (bearing (later s.next (fileCount s.configPath+1)) (some svid)) () _ _ := runs_reads_bind.mpr writes
  have opens : Runs (openTurn limits started turn messages) s () _ ([] ++ _) := runs_reads_bind.mpr
    (runs_bind.mpr ⟨_,_,[],_,elapsedSince_runs started s,runs_bind.mpr ⟨_,_,_,_,issues,starts,rfl⟩,rfl⟩)
  rw [List.nil_append,List.append_assoc] at opens
  have after : s.tick ≤ s.tick+1+(fileCount s.configPath+1)+1 := by omega
  exact ⟨_,svid,before,_,_,record,opens,silent,left,after,rfl⟩

/-- A turn without calls is over when its four events are there, and is the last one. -/
theorem oneTurn_quiet {n : Nat} (ready : Ready s (n+3)) (holds : Holds files s) (opened : Opened files limits started turn s)
    {model : LoadedModel} (loaded : s.loadedModel = some model) {prompt : String} (given : prompt ≠ "") (progress : Progress)
    {response : InferResponse} (quiet : response.toolCalls = [])
    (answers : ∀ tick ≥ s.tick,model.infer tick (requestOf progress.messages s) = .ok response) :
    ∃ grown t events,Runs (oneTurn prompt limits started true turn progress) s (grown,true) t events ∧ Ready t n ∧
      s.tick ≤ t.tick ∧ t.currentTurnSvid = none ∧ Clean events := by
  obtain ⟨t₁,svid,before,now,entry,record,opens,silent,left₁,after,-⟩ := openTurn_ready ready holds opened progress.messages
  have stays := opens.respects (stays_made (made_openTurn limits started turn progress.messages))
  have policy : t₁.policy = s.policy := by rw [stays]
  have model₁ : t₁.loadedModel = some model := by rw [stays]; exact loaded
  have answers₁ : model.infer t₁.tick ⟨progress.messages,toolCatalog t₁.policy⟩ = .ok response := by
    rw [policy]
    exact answers t₁.tick after
  obtain ⟨k,ledger₂,events₂,stepId,runs₂,left₂,clean₂⟩ := runOneTurn_quiet left₁ model₁ given (some turn) answers₁ quiet
  obtain ⟨ledger₃,events₃,concludes,left₃,clean₃⟩ := concludeTurn_quiet left₂ started turn progress
    (show (⟨response.assistantText,[],stepId⟩ : TurnOutcome).toolCalls = [] from rfl) response.tokensUsed
  have later : s.tick ≤ t₁.tick+k+2 := by omega
  exact ⟨_,_,_,runs_bind.mpr ⟨_,_,_,_,opens,runs_bind.mpr ⟨_,_,_,_,runs₂,concludes,rfl⟩,rfl⟩,
    ⟨left₃.healthy,left₃.own,left₃.few⟩,later,rfl,
    clean_append.mpr ⟨clean_opened silent,clean_append.mpr ⟨clean₂,clean₃⟩⟩⟩

/-- A model that calls no tools ends the run in its first turn. -/
theorem run_quiet {n : Nat} (ready : Ready s (n+3)) (version : s.ledger.schemaVersion = .V2) (holds : Holds files s)
    (opened : Opened files limits (World.instant s.tick) 1 s.next.next) (admitted : tripped limits 0
      (World.instant s.next.tick-World.instant s.tick) = none) (some_ : limits.maxTurns.toNat ≠ 0)
    {model : LoadedModel} (loaded : s.loadedModel = some model) {prompt : String} (given : prompt ≠ "")
    {response : InferResponse} (quiet : response.toolCalls = [])
    (answers : ∀ tick ≥ s.tick,model.infer tick (requestOf [⟨.User,prompt⟩] s) = .ok response) :
    ∃ result t events,Runs (run prompt limits) s result t events ∧ Ready t n ∧ s.tick ≤ t.tick ∧ t.currentTurnSvid = none ∧
      Clean events := by
  have next : Holds files s.next.next := fun tick after => holds tick (by change s.tick+1+1 ≤ tick at after; omega)
  obtain ⟨grown,t,events,plays,left,after,dropped,clean⟩ := oneTurn_quiet (s := s.next.next) ready.next.next next opened loaded given
    ⟨[⟨.User,prompt⟩],[],0⟩ quiet (fun tick later => answers tick (by change s.tick+1+1 ≤ tick at later; omega))
  obtain ⟨count,same⟩ := Nat.exists_eq_succ_of_ne_zero some_
  have loops : Runs (turnLoop prompt limits (World.instant s.tick) true (count+1) 1 ⟨[⟨.User,prompt⟩],[],0⟩) s.next
      ⟨grown.turns,.Done,grown.tokensConsumed,World.instant t.tick-World.instant s.tick⟩ t.next (events ++ []) := by
    rw [Runs,turnLoop,elapsedSince_bind,admitted]
    dsimp only
    rw [bind_ok plays.result,plays.state,plays.events,if_pos rfl,elapsedSince_bind]
    rfl
  have runs : run prompt limits s = turnLoop prompt limits (World.instant s.tick) true (count+1) 1
      ⟨[⟨.User,prompt⟩],[],0⟩ s.next := by rw [run_loops,same,decide_eq_true version]
  change s.tick+1+1 ≤ t.tick at after
  have later : s.tick ≤ t.tick+1 := by omega
  exact ⟨_,_,_,runs.trans loops,left.next,later,dropped,by rwa [List.append_nil]⟩

end

end AegisNode.FaultlessTurn
