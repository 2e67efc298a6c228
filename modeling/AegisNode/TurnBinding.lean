import AegisNode.Binding
import AegisNode.Mediation
import AegisNode.ReferenceTurn
import AegisNode.TurnEvents

/-!
What the identity of a turn is bound to. A turn hashes the files anew and issues its
identity for what it finds; nothing compares that with the digests of the session.
-/
namespace AegisNode.TurnBinding
open Clock Json Schema Policy Traced Engine Mediator LocalCa Frames Entries Faultless Turn TurnLoop TurnTrace TurnEvents Chronicle
open Backend hiding ToolCall
open Ledger hiding Error
set_option linter.unusedSectionVars false

/-! ### The life of a session -/

section
variable [Chrono] [Serde] [Sha256] [Identity] [World] [Adversarial.PerlWord]

/-- What a boot can become. -/
inductive Lives (cfg : BootConfig) : Session → Prop where
  | Boots {s : Session} (boots : boot cfg = .ok s) : Lives cfg s
  | Attaches {s : Session} (lives : Lives cfg s) (channel : Option ApprovalChannel) (client : Option McpClient) :
      Lives cfg (attach s channel client)
  | Loads {s : Session} (lives : Lives cfg s) (model : LoadedModel) : Lives cfg (setLoadedModel s model)
  | Mediates {s : Session} (lives : Lives cfg s) (call : Call) : Lives cfg (mediate call s).state
  | Answers {s : Session} (lives : Lives cfg s) (userMessage : String) : Lives cfg (runTurn userMessage s).state
  | Loops {s : Session} (lives : Lives cfg s) (prompt : String) (limits : TurnLimits) : Lives cfg (run prompt limits s).state

/-- Nothing replaces the identity of a session or the digests it was issued for. -/
theorem Lives.kept {cfg : BootConfig} (bound : DigestTriple → String → Prop)
    (boots : ∀ s,boot cfg = .ok s → bound s.boundDigests s.svidCertPem) {s : Session} (lives : Lives cfg s) :
    bound s.boundDigests s.svidCertPem := by
  have kept : ∀ {s t : Session},Kept s t → bound s.boundDigests s.svidCertPem → bound t.boundDigests t.svidCertPem := by
    intro s t same holds
    rw [same]
    exact holds
  induction lives with
  | Boots boots' => exact boots _ boots'
  | Attaches lives channel client ih => exact ih
  | Loads lives model ih => exact ih
  | @Mediates s lives call ih =>
    rw [(keeps_mediate call s).same]
    exact ih
  | @Answers s lives userMessage ih =>
    exact kept (stays_made (made_bind (made_runOneTurn _ _ _) fun _ => made_pure _) s) ih
  | @Loops s lives prompt limits ih => exact kept (stays_made (made_run prompt limits) s) ih

end

section
variable [Chrono] [Serde] [Sha256] [World] [Adversarial.PerlWord]

theorem Lives.binds [X509] (signs : Signs) {cfg : BootConfig} {s : Session}
    (lives : let _ := LocalCa.identity; Lives cfg s) : extractDigestTripleFromPem s.svidCertPem = .ok s.boundDigests := by
  let _ := LocalCa.identity
  refine Lives.kept (fun digests certPem => extractDigestTripleFromPem certPem = .ok digests) ?_ lives
  intro booted boots
  obtain ⟨template,svid,answers,-,-,issued,certPem,-⟩ := Binding.boot_binds boots
  rw [certPem]
  exact (issueSvid_binds signs issued).1

end

/-! ### What is read for an identity -/

section
variable [World]

/-- What the file is found to hold; without a config file nothing is read for it. -/
inductive ConfigRead (tick : Nat) : Option String → List UInt8 → List Event → Prop where
  | Absent : ConfigRead tick none [] []
  | Present {path : String} {bytes : List UInt8} (found : World.fileBytes tick path = .ok bytes) :
      ConfigRead tick (some path) bytes [.Hashed path (.ok bytes)]

variable [Sha256]

/-- The last that was done before is to read the files, one after another, and what they
    held then has these digests. -/
def Found (s : Session) (before : List Event) (digests : DigestTriple) : Prop :=
  ∃ earlier tick model manifest config last,World.fileBytes tick s.modelPath = .ok model ∧
    World.fileBytes (tick+1) s.manifestPath = .ok manifest ∧ ConfigRead (tick+2) s.configPath config last ∧
    before = earlier ++ .Hashed s.modelPath (.ok model) :: .Hashed s.manifestPath (.ok manifest) :: last ∧
    digests = ⟨Sha256.digest model,Sha256.digest manifest,Sha256.digest config⟩

theorem Found.after {s : Session} {before : List Event} {digests : DigestTriple} (found : Found s before digests)
    (earlier : List Event) : Found s (earlier ++ before) digests := by
  obtain ⟨first,tick,model,manifest,config,last,foundModel,foundManifest,read,rfl,same⟩ := found
  exact ⟨earlier ++ first,tick,model,manifest,config,last,foundModel,foundManifest,read,(List.append_assoc _ _ _).symm,same⟩

/-- What was read last is one thing. -/
theorem Found.unique {s : Session} {before : List Event} {digests others : DigestTriple} (found : Found s before digests)
    (again : Found s before others) : digests = others := by
  obtain ⟨first,tick,model,manifest,config,last,-,-,read,rfl,rfl⟩ := found
  obtain ⟨first',tick',model',manifest',config',last',-,-,read',whole,rfl⟩ := again
  have long : last.length = last'.length := by
    cases path : s.configPath <;> rw [path] at read read' <;> cases read <;> cases read' <;> rfl
  obtain ⟨-,tail⟩ := List.append_inj' whole (by simp only [List.length_cons,long])
  obtain ⟨sameModel,rest⟩ := List.cons.inj tail
  obtain ⟨sameManifest,sameLast⟩ := List.cons.inj rest
  have configs : config = config' := by
    subst sameLast
    cases path : s.configPath <;> rw [path] at read read' <;> cases read <;> cases read' <;> rfl
  cases sameModel
  cases sameManifest
  rw [configs]

/-- Files that do not change have their digests at every read. -/
theorem Found.still {s : Session} {before : List Event} {digests : DigestTriple} {files : String → List UInt8}
    (holds : ∀ tick path,World.fileBytes tick path = .ok (files path)) (found : Found s before digests) :
    digests = digestsOf files s.modelPath s.manifestPath s.configPath := by
  obtain ⟨first,tick,model,manifest,config,last,foundModel,foundManifest,read,-,rfl⟩ := found
  rw [holds] at foundModel foundManifest
  cases foundModel
  cases foundManifest
  rw [digestsOf]
  cases path : s.configPath with
  | none =>
    rw [path] at read
    cases read
    rfl
  | some path =>
    rw [path] at read
    cases read with
    | Present foundConfig =>
      rw [holds] at foundConfig
      cases foundConfig
      rfl

variable [Chrono] [Serde] [Identity]

theorem sha256File_reads {path : String} {s t : Session} {digest : Digest} {events : List Event}
    (runs : Runs (sha256File path) s digest t events) :
    ∃ bytes,World.fileBytes s.tick path = .ok bytes ∧ events = [.Hashed path (.ok bytes)] ∧ digest = Sha256.digest bytes ∧
      t.tick = s.tick+1 := by
  simp only [sha256File,runs_bind,runs_ask,runs_orFail,runs_pure] at runs
  obtain ⟨answer,_,_,_,⟨rfl,rfl,rfl⟩,⟨bytes,_,_,_,⟨read,rfl,rfl⟩,⟨rfl,rfl,rfl⟩,rfl⟩,rfl⟩ := runs
  rw [read]
  exact ⟨bytes,rfl,rfl,rfl,rfl⟩

theorem computeLiveDigests_found {s t : Session} {live : DigestTriple} {events : List Event}
    (runs : Runs computeLiveDigests s live t events) : Found s events live := by
  rw [computeLiveDigests,runs_reads_bind,runs_bind] at runs
  obtain ⟨model,s₁,_,_,modelRuns,runs,rfl⟩ := runs
  rw [runs_reads_bind,runs_bind] at runs
  obtain ⟨manifest,s₂,_,_,manifestRuns,runs,rfl⟩ := runs
  rw [runs_reads_bind,runs_bind] at runs
  obtain ⟨config,s₃,_,_,configRuns,runs,rfl⟩ := runs
  obtain ⟨rfl,-,rfl⟩ := runs_pure.mp runs
  obtain ⟨manifestPath,configPath₁⟩ := Mediation.logs_paths (modelRuns.respects (logs_sha256File _))
  obtain ⟨-,configPath₂⟩ := Mediation.logs_paths (manifestRuns.respects (logs_sha256File _))
  obtain ⟨modelBytes,foundModel,rfl,rfl,tick₁⟩ := sha256File_reads modelRuns
  obtain ⟨manifestBytes,foundManifest,rfl,rfl,tick₂⟩ := sha256File_reads manifestRuns
  rw [tick₁,manifestPath] at foundManifest
  rw [tick₁] at tick₂
  rw [configPath₂,configPath₁] at configRuns
  rw [manifestPath,List.append_nil]
  cases path : s.configPath with
  | none =>
    rw [path] at configRuns
    obtain ⟨rfl,-,rfl⟩ := runs_pure.mp configRuns
    exact ⟨[],s.tick,modelBytes,manifestBytes,[],[],foundModel,foundManifest,path ▸ .Absent,rfl,rfl⟩
  | some config =>
    rw [path] at configRuns
    obtain ⟨configBytes,foundConfig,rfl,rfl,-⟩ := sha256File_reads configRuns
    rw [tick₂] at foundConfig
    exact ⟨[],s.tick,modelBytes,manifestBytes,configBytes,_,foundModel,foundManifest,path ▸ .Present foundConfig,rfl,rfl⟩

/-- Each identity is issued for what was read just before. -/
def Hashing (a : Session) (events : List Event) (b : Session) : Prop :=
  Kept a b ∧ ∀ before audience live svid after,events = before ++ .IssuedTurnSvid audience live svid :: after →
    Found a before live

theorem hashing_composes : Composes Hashing where
  idle s := by
    refine ⟨rfl,?_⟩
    intro before audience live svid after whole
    simp at whole
  append := by
    intro a b c left right first second
    refine ⟨@stays_composes.append a b c left right first.1 second.1,?_⟩
    intro before audience live svid after whole
    rcases split_either whole with ⟨rest,inside,rfl⟩ | ⟨rest,rfl,tail⟩
    · exact first.2 before audience live svid rest inside
    · have found := second.2 rest audience live svid after tail
      rw [first.1] at found
      exact found.after left

/-- A part that issues no identity. -/
def Uncertified (e : Event) : Prop := ∀ audience live svid,e ≠ .IssuedTurnSvid audience live svid

theorem leaving_uncertified : Leaving false Uncertified := by
  refine ⟨?_,fun _ _ _ _ _ => Event.noConfusion,fun _ _ _ _ _ => Event.noConfusion,fun second => absurd second (by decide)⟩
  rintro e unwritten audience live svid rfl
  exact unwritten

theorem hashing_uncertified {allowed : Stop → Prop} {α : Type} {p : Run α} (made : Made (Does allowed) p)
    (none : Respects (Each Uncertified) p) : Respects Hashing p := by
  intro s
  refine ⟨stays_made made s,?_⟩
  intro before audience live svid after whole
  exact absurd rfl (none s _ (by rw [whole]; simp) audience live svid)

/-- An answer of the certificate authority, and what is kept of it, leave one identity at
    most. -/
theorem keeps_issued {audience : String} {live : DigestTriple} {issued : Checked (Except String X509Svid)} {s : Session}
    {before after : List Event} {audience' : String} {live' : DigestTriple} {svid' : X509Svid}
    (whole : issuedEvent audience live issued ++ ((orPanic issued >>= fun issued => orFail .Identity issued >>= keepTurnSvid) s).events =
      before ++ .IssuedTurnSvid audience' live' svid' :: after) : before = [] ∧ live' = live := by
  have nothing : ((orPanic issued >>= fun issued => orFail .Identity issued >>= keepTurnSvid) s).events = [] := by
    rcases issued with panic | error | svid
    · rfl
    · rfl
    · change (keepTurnSvid svid s).events = []
      rw [keepTurnSvid]
      cases Identity.certThumbprintHex svid.certPem <;> rfl
  rw [nothing,List.append_nil] at whole
  rcases issued with panic | error | svid
  · simp [issuedEvent] at whole
  · simp [issuedEvent] at whole
  · cases before with
    | nil =>
      cases (List.cons.inj whole).1
      exact ⟨rfl,rfl⟩
    | cons first before => simp [issuedEvent] at whole

theorem hashing_issueTurnSvid (audience : String) (remaining : Nat) : Respects Hashing (issueTurnSvid audience remaining) := by
  intro s
  refine ⟨stays_made (made_issueTurnSvid audience remaining) s,?_⟩
  intro before audience' live' svid' after whole
  have silent : Respects (Each Uncertified) computeLiveDigests := leaving_uncertified.runs.silent unwritten_computeLiveDigests
  obtain ⟨live,m,left,rest,hashes,rfl,issues⟩ := bind_split (fun member => silent s _ member audience' live' svid' rfl) whole
  rw [reads_bind,reads_bind,reads_bind,reads_bind,ask_bind] at issues
  obtain ⟨rfl,rfl⟩ := keeps_issued issues
  rw [List.append_nil]
  exact computeLiveDigests_found hashes

theorem hashing_emitNow {wrap : Ledger.Error → Error} (ordinary : ∀ e,Ordinary (.Err (wrap e))) {entryType : EntryType}
    {fields : List (String × Scalar)} (noted : Noted entryType fields) : Respects Hashing (emitNow wrap entryType fields) :=
  hashing_uncertified (made_emitNow ordinary _ _) (leaving_uncertified.runs.emitNow noted _)

theorem hashing_elapsedSince (started : Nat) : Respects Hashing (elapsedSince started) :=
  hashing_uncertified (made_elapsedSince started) (leaving_uncertified.runs.elapsedSince started)

theorem hashing_oneTurn (prompt : String) (limits : TurnLimits) (started : Nat) (v2 : Bool) (turn : Nat) (progress : Progress) :
    Respects Hashing (oneTurn prompt limits started v2 turn progress) := by
  refine respects_bind hashing_composes ?opens fun _ => respects_bind hashing_composes ?answers fun answered => ?concludes
  case opens =>
    unfold whenV2
    split_ifs
    · refine respects_bind hashing_composes (respects_reads hashing_composes _) fun audience => ?_
      refine respects_bind hashing_composes (hashing_elapsedSince _) fun elapsed => ?_
      refine respects_bind hashing_composes (hashing_issueTurnSvid _ _) fun thumbprint => ?_
      exact respects_bind hashing_composes (respects_reads hashing_composes _) fun bound => hashing_emitNow (by simp) (.Marked _ (by simp))
    · exact respects_pure hashing_composes _
  case answers => exact hashing_uncertified (made_runOneTurn _ _ _) (leaving_uncertified.runs.runOneTurn _ _ _)
  case concludes => exact hashing_uncertified (made_concludeTurn _ _ _ _ _ _) (leaving_uncertified.runs.concludeTurn _ _ _ _ _ _)

theorem hashing_turnLoop (prompt : String) (limits : TurnLimits) (started : Nat) (v2 : Bool) (left turn : Nat)
    (progress : Progress) : Respects Hashing (turnLoop prompt limits started v2 left turn progress) := by
  have capped : ∀ (bound : TurnCapKind) (atTurn : Nat) (tokensConsumed : UInt64) (elapsed : Nat),
      Respects Hashing (emitCapAndBuildErr bound atTurn limits tokensConsumed elapsed : Run SessionRunResult) :=
    fun _ _ _ _ => hashing_uncertified (made_emitCapAndBuildErr limits _ _ _ _) (leaving_uncertified.runs.emitCapAndBuildErr _ _ _ _ _)
  induction left generalizing turn progress with
  | zero => exact respects_bind hashing_composes (hashing_elapsedSince _) fun elapsed => capped _ _ _ elapsed
  | succ left ih =>
    refine respects_bind hashing_composes (hashing_elapsedSince _) fun elapsed => ?_
    cases tripped limits progress.tokensConsumed elapsed with
    | some bound => exact capped _ _ _ elapsed
    | none =>
      refine respects_bind hashing_composes (hashing_oneTurn _ _ _ _ _ _) fun played => ?_
      split_ifs
      · exact respects_bind hashing_composes (hashing_elapsedSince _) fun _ => respects_pure hashing_composes _
      · exact ih _ _

theorem run_hashing (prompt : String) (limits : TurnLimits) : Respects Hashing (run prompt limits) := by
  have starts : Made (Does Ordinary) (ask World.instant (fun _ => []) : Run Nat) := .Step (.Ask _ _ (by simp))
  refine respects_bind hashing_composes (hashing_uncertified starts (leaving_uncertified.runs.silent (unwritten_ask (by simp)))) fun started => ?_
  refine respects_bind hashing_composes (respects_reads hashing_composes _) fun version => ?_
  exact hashing_turnLoop _ _ _ _ _ _ _

/-! ### What a turn attests -/

/-- An identity is issued in the run. -/
def Issues (prompt : String) (limits : TurnLimits) (s : Session) (before : List Event) (live : DigestTriple) (svid : X509Svid)
    (after : List Event) : Prop :=
  ∃ audience,(run prompt limits s).events = before ++ .IssuedTurnSvid audience live svid :: after

/-- A violation says which digest has drifted. -/
def RecordsDrift (events : List Event) : Prop :=
  ∃ mismatch entry result,.Append entry result ∈ events ∧ entry.entryType = .Violation ∧
    entry.payload = violationPayload ("identity digest binding violated: " ++ DigestMismatch.text mismatch)
      (some ("digest-binding://" ++ mismatch.field.name)) none

/-- The drift is recorded, and the session ends without asking the model. -/
def Halts (prompt : String) (limits : TurnLimits) (s : Session) (after : List Event) : Prop :=
  RecordsDrift after ∧ (∃ stop,(run prompt limits s).result = .error stop) ∧ ∀ request response,.Inferred request response ∉ after

/-- Whenever an identity is issued, the files that were read for it have the digests that
    the session is bound to. -/
def Undrifted (prompt : String) (limits : TurnLimits) (s : Session) : Prop :=
  ∀ before live svid after,Issues prompt limits s before live svid after → Found s before s.boundDigests

/-- After an identity the session does not stop for a drift. -/
theorem never_halts {prompt : String} {limits : TurnLimits} {s : Session} {before after : List Event} {live : DigestTriple}
    {svid : X509Svid} (issues : Issues prompt limits s before live svid after) : ¬ Halts prompt limits s after := by
  rintro ⟨⟨mismatch,entry,result,wrote,violation,-⟩,-,unasked⟩
  obtain ⟨audience,whole⟩ := issues
  have seen : sights (run prompt limits s).events = sights before ++ .Issued audience live svid :: sights after := by
    rw [whole,sights_append]
    rfl
  rcases run_opening prompt limits s _ _ _ _ _ seen with ⟨request,response,asked⟩ | starts
  · obtain ⟨e,member,same⟩ := List.mem_filterMap.mp asked
    cases e with
    | Inferred _ _ =>
      cases same
      exact unasked _ _ member
    | _ => cases same
  · have start := starts entry (List.mem_filterMap.mpr ⟨_,wrote,rfl⟩)
    rw [violation] at start
    cases start

end

section
variable [Chrono] [Serde] [Sha256] [World] [Adversarial.PerlWord]

/-- The identity is bound to what the session's own is bound to. -/
def Attests [X509] (s : Session) (svid : X509Svid) : Prop :=
  ∃ bound,extractDigestTripleFromPem s.svidCertPem = .ok bound ∧ extractDigestTripleFromPem svid.certPem = .ok bound

theorem issued_binds [X509] (signs : Signs) {prompt : String} {limits : TurnLimits} {s : Session} {before after : List Event}
    {live : DigestTriple} {svid : X509Svid} (issues : let _ := LocalCa.identity; Issues prompt limits s before live svid after) :
    extractDigestTripleFromPem svid.certPem = .ok live := by
  let _ := LocalCa.identity
  have leaving : Leaving (s.ledger.schemaVersion = .V2) (fun e => ∀ audience live svid,e = .IssuedTurnSvid audience live svid →
      extractDigestTripleFromPem svid.certPem = .ok live) := by
    refine ⟨?unwritten,?appended,?inferred,?issued⟩
    case unwritten =>
      rintro e unwritten audience live svid rfl
      exact unwritten.elim
    case appended =>
      intro entry result audience live svid other
      cases other
    case inferred =>
      intro request response audience live svid other
      cases other
    case issued =>
      intro second tick dir workloadName instanceName audience live chatTemplate ttl svid issued audience' live' svid' same
      cases same
      exact (issueTurnSvid_binds signs issued).1
  obtain ⟨audience,whole⟩ := issues
  exact leaving_run leaving.runs prompt limits _ (by rw [whole]; simp) audience live svid rfl

/-- The identities of turns attest the session just when no file has drifted from it where
    one is issued. -/
theorem turns_attest_iff [X509] (signs : Signs) {cfg : BootConfig} {s : Session} (lives : let _ := LocalCa.identity; Lives cfg s)
    (prompt : String) (limits : TurnLimits) :
    let _ := LocalCa.identity
    (∀ before live svid after,Issues prompt limits s before live svid after →
        Attests s svid ∨ Halts prompt limits s after) ↔
      Undrifted prompt limits s := by
  intro identity
  have own := lives.binds signs
  constructor
  · intro attested before live svid after issues
    have found := (run_hashing prompt limits s).2 before issues.choose live svid after issues.choose_spec
    rcases attested before live svid after issues with ⟨bound,session,turn⟩ | halts
    · cases own.symm.trans session
      cases (issued_binds signs issues).symm.trans turn
      exact found
    · exact absurd halts (never_halts issues)
  · intro undrifted before live svid after issues
    have found := (run_hashing prompt limits s).2 before issues.choose live svid after issues.choose_spec
    have binds := issued_binds signs issues
    rw [found.unique (undrifted before live svid after issues)] at binds
    exact .inl ⟨_,own,binds⟩

end

/-! ### Two sessions -/

section
open scoped Reference
open Reference ReferenceTurn

/-- The first turn is given an identity. -/
theorem first_issues [w : World] {s : Session} {n : Nat} {files : String → List UInt8} (standing : Standing s)
    (ready : Ready s (n+1)) (holds : Holds files s) (still : ∀ tick,w.instant tick = 0) :
    ∃ before svid after,Issues "hello" defaultLimits s before (digestsOf files s.modelPath s.manifestPath s.configPath) svid after := by
  have next : Standing s.next.next := ⟨standing.version,standing.sessionId,standing.names⟩
  have room : Ready s.next.next (n+1) := ⟨ready.healthy,ready.own,ready.few⟩
  have later : Holds files s.next.next := fun tick after => holds tick (by change s.tick+1+1 ≤ tick at after; omega)
  obtain ⟨m,svid,before,now,entry,record,opens,-⟩ := next.opens room later (World.instant s.tick) [⟨.User,"hello"⟩]
  obtain ⟨later₁,turn⟩ := bind_events (whenV2 true (openTurn defaultLimits (World.instant s.tick) 1 [⟨.User,"hello"⟩]))
    (fun _ => runOneTurn [⟨.User,"hello"⟩] "hello" (some 1) >>= fun answered =>
      concludeTurn (World.instant s.tick) true 1 ⟨[⟨.User,"hello"⟩],[],0⟩ answered.1 answered.2) s.next.next
  rw [whenV2,if_pos (Eq.refl true),opens.events] at turn
  have loops : run "hello" defaultLimits s = turnLoop "hello" defaultLimits (World.instant s.tick) true (9+1) 1
      ⟨[⟨.User,"hello"⟩],[],0⟩ s.next := by
    rw [run_loops,decide_eq_true standing.version]
    rfl
  rw [turnLoop,elapsedSince_bind,admits still] at loops
  obtain ⟨later₂,whole⟩ := bind_events (oneTurn "hello" defaultLimits (World.instant s.tick) true 1 ⟨[⟨.User,"hello"⟩],[],0⟩)
    (fun played => if played.2 then elapsedSince (World.instant s.tick) >>= fun wallclock =>
        pure ⟨played.1.turns,.Done,played.1.tokensConsumed,wallclock⟩
      else turnLoop "hello" defaultLimits (World.instant s.tick) true 9 2 played.1) s.next.next
  have events : (run "hello" defaultLimits s).events = _ := (congrArg Outcome.events loops).trans whole
  rw [show (oneTurn "hello" defaultLimits (World.instant s.tick) true 1 ⟨[⟨.User,"hello"⟩],[],0⟩ s.next.next).events = _ from turn,
    List.append_assoc,List.append_assoc] at events
  exact ⟨before,svid,_,_,events⟩

/-- Files that stay what they are. -/
theorem turns_attest_still :
    let _ := calmWorld closed
    ∃ s,Lives config s ∧ (∃ before live svid after,Issues "hello" defaultLimits s before live svid after) ∧
      ∀ before live svid after,Issues "hello" defaultLimits s before live svid after →
        Attests s svid ∨ Halts "hello" defaultLimits s after := by
  intro world
  obtain ⟨booted,boots,fresh,ready⟩ := calm_boots closed rfl rfl
  have standing := (fresh_standing fresh).loaded doneModel
  have room : Ready (setLoadedModel booted doneModel) (99+1) := ⟨ready.healthy,ready.own,ready.few⟩
  have lives : Lives config (setLoadedModel booted doneModel) := .Loads (.Boots boots) doneModel
  obtain ⟨before,svid,after,issued⟩ := first_issues standing room (fun tick _ path => rfl) (fun _ => rfl)
  refine ⟨_,lives,⟨before,_,svid,after,issued⟩,(turns_attest_iff x509_signs lives "hello" defaultLimits).mpr ?_⟩
  intro before live svid after issues
  have found := (run_hashing "hello" defaultLimits _).2 before issues.choose live svid after issues.choose_spec
  have bound : live = booted.boundDigests := by
    rw [fresh.bound]
    exact found.still fun tick path => rfl
  rwa [bound] at found

/-- The files from the end of the boot on. -/
def edited (path : String) : List UInt8 := Bytes.encode (path ++ " (edited)")

/-- Every file is edited when the session has booted. -/
@[reducible] def editing : World :=
  { calmWorld closed with fileBytes := fun tick path => .ok (if tick < 8 then Bytes.encode path else edited path) }

theorem edited_model : Sha2.digest (edited config.modelPath) ≠ Sha2.digest (Bytes.encode config.modelPath) := by decide +kernel

/-- A session whose files are edited after its boot issues identities for what they have
    become, and goes on. -/
theorem edited_files_attested : ¬ ∀ [World] [X509] (cfg : BootConfig) (s : Session) (prompt : String) (limits : TurnLimits),
    Signs → (let _ := LocalCa.identity; Lives cfg s) →
      let _ := LocalCa.identity
      ∀ before live svid after,Issues prompt limits s before live svid after → Attests s svid ∨ Halts prompt limits s after := by
  intro attested
  let world := editing
  have bootable : Bootable config closed files := by
    refine bootable closed rfl rfl rfl ?_ rfl
    intro tick early path
    change Except.ok (if tick < 8 then Bytes.encode path else edited path) = _
    rw [if_pos early]
    rfl
  obtain ⟨booted,boots,fresh,ready⟩ := boot_succeeds bootable (n := 100) (by decide)
  have standing := (fresh_standing fresh).loaded doneModel
  have room : Ready (setLoadedModel booted doneModel) (99+1) := ⟨ready.healthy,ready.own,ready.few⟩
  have lives : Lives config (setLoadedModel booted doneModel) := .Loads (.Boots boots) doneModel
  have holds : Holds edited (setLoadedModel booted doneModel) := by
    intro tick later path
    have late : ¬ tick < 8 := Nat.not_lt.mpr (fresh.tick ▸ later)
    change Except.ok (if tick < 8 then Bytes.encode path else edited path) = _
    rw [if_neg late]
  obtain ⟨before,svid,after,issues⟩ := first_issues standing room holds (fun _ => rfl)
  rcases attested config _ "hello" defaultLimits x509_signs lives before _ svid after issues with ⟨bound,session,turn⟩ | halts
  · cases (lives.binds x509_signs).symm.trans session
    have same := Except.ok.inj ((issued_binds x509_signs issues).symm.trans turn)
    have models : (setLoadedModel booted doneModel).modelPath = config.modelPath := fresh.paths.1
    have digests := congrArg (fun triple => triple.model.bytes) (same.trans fresh.bound)
    rw [models] at digests
    have own : booted.modelPath = config.modelPath := fresh.paths.1
    rw [own] at digests
    exact edited_model digests
  · exact never_halts issues halts

end

end AegisNode.TurnBinding
