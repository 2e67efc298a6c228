import AegisNode.ReferenceTurn

/-!
How long the certificate of a turn lives: what is left of the session's time and sixty
seconds more, where the end of that is a date.
-/
namespace AegisNode.TurnLifetime
open Clock Json Schema Traced Engine TurnLoop
open Ledger hiding Error
open LocalCa hiding issueTurnSvid
set_option linter.unusedSectionVars false

/-- What is left of a session's seconds. -/
def remaining (limits : TurnLimits) (elapsed : Nat) : Nat := limits.maxSeconds.toNat-asSecs elapsed

/-- The certificate was signed at a reading of the clock and ends so many seconds after it
    at most. -/
def EndsWithin [X509] (tick : Nat) (identityDir : String) (svid : X509Svid) (seconds : Nat) : Prop :=
  ∃ ca params,load tick identityDir = .ok ca ∧ X509.signedBy tick ca.caPem ca.keyPem params = .ok (svid.certPem,svid.keyPem) ∧
    params.notAfter ≤ X509.now tick+seconds*second

section
variable [Chrono] [Serde] [Sha256] [World]

/-- No panic, and a certificate that outlives the session by a minute at most. Every event
    before its issue is a file read for it. -/
structure Lasting [Identity] [X509] (audience : String) (limits : TurnLimits) (elapsed : Nat) (s : Session) : Prop where
  calm : ∀ panic,(issueTurnSvid audience (remaining limits elapsed) s).result ≠ .error (.Panic panic)
  brief : ∀ before live svid after,(issueTurnSvid audience (remaining limits elapsed) s).events =
      before ++ .IssuedTurnSvid audience live svid :: after →
    EndsWithin (s.tick+before.length) s.identityDir svid (remaining limits elapsed+60)

/-- Where it comes to a certificate, its end is a date. -/
def Dated [X509] (limits : TurnLimits) (elapsed : Nat) (s : Session) : Prop :=
  ∀ live t before ca id,Runs computeLiveDigests s live t before → load (s.tick+before.length) s.identityDir = .ok ca →
    SpiffeId.new ca.trustDomain s.workloadName s.instanceName = .ok id →
    X509.now (s.tick+before.length)+(min (remaining limits elapsed+60) (2^63-1) : Nat)*second ≤ latestDate

/-! ### Reading the files -/

/-- A program that reads files for their digests and nothing else. -/
def Hashes {α : Type} (p : Run α) : Prop :=
  ∀ s,(∀ e ∈ (p s).events,∃ path bytes,e = .Hashed path bytes) ∧
    (p s).state = { s with tick := s.tick+(p s).events.length } ∧ ∀ panic,(p s).result ≠ .error (.Panic panic)

theorem hashes_pure {α : Type} (a : α) : Hashes (pure a : Run α) := by
  intro s
  exact ⟨by simp [pure,Prog.pure],rfl,by simp [pure,Prog.pure]⟩

theorem hashes_reads {α : Type} (f : Session → α) : Hashes (reads f) := by
  intro s
  exact ⟨by simp [reads],rfl,by simp [reads]⟩

theorem hashes_bind {α β : Type} {p : Run α} {f : α → Run β} (first : Hashes p) (second : ∀ a,Hashes (f a)) : Hashes (p >>= f) := by
  intro s
  obtain ⟨hashed,state,calm⟩ := first s
  cases ended : (p s).result with
  | error stop =>
    rw [bind_error ended]
    refine ⟨hashed,state,?_⟩
    intro panic same
    cases same
    exact calm panic ended
  | ok a =>
    obtain ⟨hashed',state',calm'⟩ := second a (p s).state
    rw [bind_ok ended]
    refine ⟨?_,?_,calm'⟩
    · intro e member
      rcases List.mem_append.mp member with early | late
      · exact hashed e early
      · exact hashed' e late
    · dsimp only
      rw [state',state,List.length_append,Nat.add_assoc]

theorem hashes_sha256File (path : String) : Hashes (sha256File path) := by
  intro s
  rw [sha256File,ask_bind]
  cases World.fileBytes s.tick path with
  | error error =>
    rw [orFail_error_bind]
    exact ⟨by simp,rfl,by simp⟩
  | ok bytes =>
    rw [orFail_ok_bind]
    exact ⟨by simp [pure,Prog.pure],rfl,by simp [pure,Prog.pure]⟩

theorem hashes_computeLiveDigests : Hashes computeLiveDigests := by
  refine hashes_bind (hashes_reads _) fun modelPath => ?_
  refine hashes_bind (hashes_sha256File modelPath) fun model => ?_
  refine hashes_bind (hashes_reads _) fun manifestPath => ?_
  refine hashes_bind (hashes_sha256File manifestPath) fun manifest => ?_
  refine hashes_bind (hashes_reads _) fun configPath => hashes_bind ?_ fun _ => hashes_pure _
  cases configPath with
  | none => exact hashes_pure _
  | some path => exact hashes_sha256File path

/-- What the certificate authority answers decides how the issue ends. -/
theorem issueTurnSvid_answered [Identity] (audience : String) (left : Nat) {s t : Session} {live : DigestTriple} {before : List Event}
    {issued : Checked (Except String X509Svid)} (hashed : Runs computeLiveDigests s live t before)
    (answer : Identity.issueTurnSvid t.tick t.identityDir t.workloadName t.instanceName live t.boundChatTemplate audience
      (turnTtl left) = issued) :
    (issueTurnSvid audience left s).events = before ++ issuedEvent audience live issued ∧
      ∀ panic,(issueTurnSvid audience left s).result = .error (.Panic panic) ↔ issued = .error panic := by
  rw [issueTurnSvid,bind_ok hashed.result,hashed.state,hashed.events,reads_bind,reads_bind,reads_bind,reads_bind,ask_bind,answer]
  dsimp only
  cases issued with
  | error panic =>
    have stopped : (orPanic (.error panic : Checked (Except String X509Svid)) t.next).result = .error (.Panic panic) := rfl
    rw [bind_error stopped]
    exact ⟨rfl,by simp⟩
  | ok issued =>
    have done : (orPanic (.ok issued) t.next).result = .ok issued := rfl
    rw [bind_ok done]
    cases issued with
    | error error =>
      dsimp only
      rw [orFail_error_bind]
      exact ⟨rfl,by simp⟩
    | ok svid =>
      dsimp only
      rw [orFail_ok_bind,keepTurnSvid]
      cases Identity.certThumbprintHex svid.certPem with
      | error error =>
        rw [orFail_error_bind]
        exact ⟨rfl,by simp⟩
      | ok thumbprint =>
        rw [orFail_ok_bind]
        exact ⟨rfl,by simp [update,pure,Prog.pure,bind,Prog.bind]⟩

end

/-- The certificate behind the reads is the one that the authority answered. -/
theorem issuedEvent_last {audience audience' : String} {live live' : DigestTriple} {issued : Checked (Except String X509Svid)}
    {before earlier after : List Event} {svid : X509Svid} (unissued : ∀ audience live svid,.IssuedTurnSvid audience live svid ∉ before)
    (whole : before ++ issuedEvent audience live issued = earlier ++ .IssuedTurnSvid audience' live' svid :: after) :
    earlier = before ∧ issued = .ok (.ok svid) := by
  rcases split_either whole with ⟨rest,inside,-⟩ | ⟨rest,rfl,tail⟩
  · exact absurd (show _ ∈ before by rw [inside]; simp) (unissued audience' live' svid)
  · match issued with
    | .error panic => simp [issuedEvent] at tail
    | .ok (.error error) => simp [issuedEvent] at tail
    | .ok (.ok answered) =>
      cases rest with
      | nil =>
        cases (List.cons.inj tail).1
        exact ⟨List.append_nil _,rfl⟩
      | cons first rest => simp [issuedEvent] at tail

/-! ### The certificate authority -/

theorem turnTtl_min (left : Nat) : turnTtl left = min (left+60) (2^63-1) := by
  unfold turnTtl
  omega

section
variable [X509] [Sha256]

/-- Where the authority panics, it is at a date that does not exist. -/
theorem ca_panics_iff {tick : Nat} {dir workloadName instanceName : String} (digests : DigestTriple) (chatTemplate : Option Digest)
    (audience : String) {left : Nat} :
    (∃ panic,identity.issueTurnSvid tick dir workloadName instanceName digests chatTemplate audience (turnTtl left) = .error panic) ↔
      ∃ ca id,load tick dir = .ok ca ∧ SpiffeId.new ca.trustDomain workloadName instanceName = .ok id ∧
        latestDate < X509.now tick+(min (left+60) (2^63-1) : Nat)*second := by
  unfold identity
  dsimp only
  cases load tick dir with
  | error error => simp
  | ok ca =>
    simp only [LocalCa.issueTurnSvid,Except.ok.injEq,exists_and_left,exists_eq_left']
    cases SpiffeId.new ca.trustDomain workloadName instanceName with
    | error error => simp
    | ok id =>
      have same : min (turnTtl left) (2^63-1) = min (left+60) (2^63-1) := by
        rw [turnTtl_min,Nat.min_assoc,Nat.min_self]
      simp only [expiry,same]
      by_cases late : latestDate < X509.now tick+(min (left+60) (2^63-1) : Nat)*second
      · rw [if_neg (Int.not_le.mpr late)]
        exact iff_of_true ⟨_,rfl⟩ ⟨id,rfl,late⟩
      · rw [if_pos (Int.not_lt.mp late)]
        refine iff_of_false (by simp) ?_
        rintro ⟨_,-,late'⟩
        exact late late'

/-- A certificate for a turn is signed to end when its seconds have passed. -/
theorem ca_signs {tick : Nat} {dir workloadName instanceName : String} {digests : DigestTriple} {chatTemplate : Option Digest}
    {audience : String} {left : Nat} {svid : X509Svid}
    (issued : identity.issueTurnSvid tick dir workloadName instanceName digests chatTemplate audience (turnTtl left) = .ok (.ok svid)) :
    EndsWithin tick dir svid (left+60) := by
  obtain ⟨ca,loaded,issued⟩ := identity_issueTurnSvid issued
  unfold LocalCa.issueTurnSvid at issued
  split at issued
  · cases issued
  split at issued
  · cases issued
  rename_i notAfter expires
  injection issued with issued
  obtain ⟨binding,-,issued⟩ := Ledger.bind_ok.mp issued
  obtain ⟨signed,signs,issued⟩ := Ledger.bind_ok.mp issued
  cases issued
  refine ⟨ca,_,loaded,signs,?_⟩
  have ends : notAfter = X509.now tick+(min (turnTtl left) (2^63-1) : Nat)*second := by
    unfold expiry at expires
    dsimp only at expires
    split_ifs at expires
    exact (Except.ok.inj expires).symm
  have few : min (turnTtl left) (2^63-1) ≤ left+60 := by
    rw [turnTtl_min]
    omega
  have one : second = 1000000000 := rfl
  rw [ends,one]
  dsimp only
  omega

end

/-! ### Lifetimes -/

/-- A turn's certificate lives as long as the session may and a minute more, without a panic,
    just when its end is a date. -/
theorem turn_lifetime_iff [Chrono] [Serde] [Sha256] [World] [X509] (audience : String) (limits : TurnLimits) (elapsed : Nat)
    (s : Session) : let _ := LocalCa.identity; Lasting audience limits elapsed s ↔ Dated limits elapsed s := by
  intro identity
  obtain ⟨hashed,state,calm⟩ := hashes_computeLiveDigests s
  cases ended : computeLiveDigests s with
  | mk result t before =>
  rw [ended] at hashed state calm
  dsimp only at hashed state calm
  have unissued : ∀ audience live svid,.IssuedTurnSvid audience live svid ∉ before := by
    intro audience live svid member
    obtain ⟨path,bytes,same⟩ := hashed _ member
    cases same
  cases result with
  | error stop =>
    have stops : issueTurnSvid audience (remaining limits elapsed) s = ⟨.error stop,t,before⟩ := by
      have failed : (computeLiveDigests s).result = .error stop := by rw [ended]
      rw [issueTurnSvid,bind_error failed,ended]
    refine iff_of_true ⟨?_,?_⟩ ?_
    · intro panic same
      rw [stops] at same
      cases same
      exact calm panic rfl
    · intro earlier live svid after whole
      rw [stops] at whole
      dsimp only at whole
      exact absurd (show Event.IssuedTurnSvid audience live svid ∈ before by rw [whole]; simp) (unissued _ _ _)
    · intro live t' before' ca id runs
      rw [Runs,ended] at runs
      cases runs
  | ok live =>
    have runs : Runs computeLiveDigests s live t before := ended
    obtain ⟨events,panics⟩ := issueTurnSvid_answered audience (remaining limits elapsed) runs rfl
    have tick : t.tick = s.tick+before.length := by rw [state]
    have dir : t.identityDir = s.identityDir := by rw [state]
    have names : t.workloadName = s.workloadName ∧ t.instanceName = s.instanceName := by
      rw [state]
      exact ⟨rfl,rfl⟩
    rw [tick,dir,names.1,names.2] at events panics
    constructor
    · intro lasting live' t' before' ca id runs' loaded named
      obtain ⟨rfl,rfl,rfl⟩ : live = live' ∧ t = t' ∧ before = before' := by
        have same := runs.symm.trans runs'
        cases same
        exact ⟨rfl,rfl,rfl⟩
      by_contra late
      obtain ⟨panic,failed⟩ := (ca_panics_iff live t.boundChatTemplate audience).mpr
        ⟨ca,id,loaded,named,Int.not_le.mp late⟩
      exact lasting.calm panic ((panics panic).mpr failed)
    · intro dated
      refine ⟨?_,?_⟩
      · intro panic failed
        obtain ⟨ca,id,loaded,named,late⟩ := (ca_panics_iff _ _ _).mp ⟨panic,(panics panic).mp failed⟩
        exact absurd late (Int.not_lt.mpr (dated live t before ca id runs loaded named))
      · intro earlier live' svid after whole
        rw [events] at whole
        obtain ⟨rfl,issued⟩ := issuedEvent_last unissued whole
        exact ca_signs issued

/-! ### A session without a limit -/

section
open scoped Reference
open Reference

/-- All the seconds that a limit can name. -/
def unlimited : TurnLimits := ⟨10,18446744073709551615,18446744073709551615⟩

/-- The authority cannot date its certificate. -/
theorem unlimited_late {s : Session} (standing : ReferenceTurn.Standing s) (digests : DigestTriple) (audience : String) :
    ∃ panic,Identity.issueTurnSvid s.tick s.identityDir s.workloadName s.instanceName digests s.boundChatTemplate audience
      (turnTtl (remaining unlimited 0)) = .error panic := by
  obtain ⟨dir,workload,instanceName⟩ := standing.names
  have span : min (remaining unlimited 0+60) (2^63-1) = 2^63-1 := by
    have all : remaining unlimited 0 = 18446744073709551615 := by decide +kernel
    omega
  have late : latestDate < X509.now s.tick+(min (remaining unlimited 0+60) (2^63-1) : Nat)*second := by
    rw [span]
    change latestDate < 0+_
    norm_num [latestDate,second]
  rw [dir,workload,instanceName]
  exact (ca_panics_iff _ _ _).mpr ⟨_,_,loads s.tick,named,late⟩

/-- The first turn of such a session panics. -/
theorem unlimited_panics :
    let _ := calmWorld closed
    ∃ booted,boot config = .ok booted ∧ ¬ Lasting (turnAudience booted.sessionId 1) unlimited 0 booted := by
  intro world
  obtain ⟨booted,boots,fresh,ready⟩ := calm_boots closed rfl rfl
  refine ⟨booted,boots,fun lasting => ?_⟩
  obtain ⟨before,runs,-⟩ := @Faultless.computeLiveDigests_holds _ _ files booted fun tick after path => rfl
  obtain ⟨version,sessionId,names⟩ := ReferenceTurn.fresh_standing fresh
  obtain ⟨panic,failed⟩ := unlimited_late (s := Faultless.later booted (Faultless.fileCount booted.configPath))
    ⟨version,sessionId,names⟩ (Faultless.digestsOf files booted.modelPath booted.manifestPath booted.configPath)
    (turnAudience booted.sessionId 1)
  exact lasting.calm panic (((issueTurnSvid_answered _ _ runs failed).2 panic).mpr rfl)

end

end AegisNode.TurnLifetime
