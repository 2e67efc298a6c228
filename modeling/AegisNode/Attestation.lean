import AegisNode.Audit

/-!
The attestation at the end of a session: its summary of the network log and the
signature over it, and which attempts to connect the log holds.
-/
namespace AegisNode.Attestation
open Bytes Clock Json Schema Policy Grants Aggregate Traced Engine Mediator Frames Entries Audit
open Ledger hiding Error
set_option linter.unusedSectionVars false

/-! ### The summary -/

def decisionStr : NetworkConnectionDecision → String
  | .Allowed => "allowed"
  | .Approved => "approved"
  | .Denied => "denied"

section
variable [Chrono] [Serde] [Sha256]

/-- The connection as it is hashed. -/
def canonicalConnectionJson (connection : NetworkConnectionMeta) : Value :=
  object [("host",.String connection.host),("port",.Number (.PosInt connection.port.toUInt64)),
    ("protocol",.String connection.protocol),("decision",.String (decisionStr connection.decision)),
    ("timestamp",.String (Chrono.rfc3339Nanos connection.timestamp))]

def connectionsArray (log : List NetworkConnectionMeta) : Value := .Array (log.map canonicalConnectionJson)

def connectionsDigestHex (log : List NetworkConnectionMeta) : String :=
  hexEncode (Sha256.digest (encode (Serde.toString (connectionsArray log)))).bytes

def countOf (decision : NetworkConnectionDecision) (log : List NetworkConnectionMeta) : UInt64 :=
  UInt64.ofNat (log.countP (fun connection => connection.decision = decision))

def totalConnections (log : List NetworkConnectionMeta) : UInt64 := UInt64.ofNat log.length

/-- What is signed. -/
def summaryFields (log : List NetworkConnectionMeta) : List (String × Scalar) :=
  [("totalConnections",.Count (totalConnections log)),("allowedCount",.Count (countOf .Allowed log)),
   ("approvedCount",.Count (countOf .Approved log)),("deniedCount",.Count (countOf .Denied log)),
   ("connectionsDigestHex",.Text (connectionsDigestHex log))]

/-! ### The signature -/

def deriveAttestationKey (svidPrivateKeyPem : String) : Digest := Sha256.digest (encode svidPrivateKeyPem)

/-- The key of the third-party `hmac` crate, filled up to the 64 bytes of a block. -/
def hmacBlock (key : List UInt8) : List UInt8 :=
  let short := if 64 < key.length then (Sha256.digest key).bytes else key
  short ++ List.replicate (64-short.length) 0

def hmacSha256 (key message : List UInt8) : Digest :=
  let inner := Sha256.digest ((hmacBlock key).map (· ^^^ 0x36) ++ message)
  Sha256.digest ((hmacBlock key).map (· ^^^ 0x5c) ++ inner.bytes)

def computeSignature (key : Digest) (summaryWithoutSignature : Value) : Digest :=
  hmacSha256 key.bytes (encode (Serde.toString summaryWithoutSignature))

def signedFields : List String :=
  ["totalConnections","allowedCount","approvedCount","deniedCount","connectionsDigestHex"]

/-- The signed fields of an entry, if it has all of them. -/
def signedView (fields : Map) : List String → Option (List (String × Value))
  | [] => some []
  | key :: rest =>
    match Map.get fields key with
    | none => none
    | some value => (signedView fields rest).map ((key,value) :: ·)

def verifySignature (svidPrivateKeyPem : String) (entry : Value) : Bool :=
  match entry with
  | .Object fields =>
    match (Map.get fields "signatureHex").bind asStr with
    | none => false
    | some sigHex =>
      match hexDecode sigHex,signedView fields signedFields with
      | some expected,some view => expected = (computeSignature (deriveAttestationKey svidPrivateKeyPem) (object view)).bytes
      | _,_ => false
  | _ => false

def signatureHex (keyPem : String) (log : List NetworkConnectionMeta) : String :=
  hexEncode (computeSignature (deriveAttestationKey keyPem) (.Object (payloadOf (summaryFields log)).fields)).bytes

def attestationFields (keyPem : String) (log : List NetworkConnectionMeta) : List (String × Scalar) :=
  summaryFields log ++ [("signatureHex",.Text (signatureHex keyPem log)),
    ("networkConnectionsObserved",.Json (connectionsArray log))]

/-- The attestation that the session writes verifies with its key. -/
theorem attestation_verifies (keyPem : String) (log : List NetworkConnectionMeta) {fields : Map}
    (same : ∀ key ∈ "signatureHex" :: signedFields,Map.get fields key = fieldOf (attestationFields keyPem log) key) :
    verifySignature keyPem (.Object fields) = true := by
  have signature : (Map.get fields "signatureHex").bind asStr = some (signatureHex keyPem log) := by
    rw [same _ (by decide)]
    rfl
  have view : signedView fields signedFields = some ((summaryFields log).map (fun field => (field.1,field.2.value))) := by
    unfold signedFields signedView signedView signedView signedView signedView signedView
    rw [same "totalConnections" (by decide),same "allowedCount" (by decide),same "approvedCount" (by decide),
      same "deniedCount" (by decide),same "connectionsDigestHex" (by decide)]
    rfl
  unfold verifySignature
  dsimp only
  rw [signature]
  dsimp only
  rw [view,signatureHex,hexDecode_hexEncode]
  exact decide_eq_true rfl

variable [World]

def emitNetworkAttestation : Run Unit := do
  let log ← reads (·.networkLog)
  let keyPem ← reads (·.svidKeyPem)
  let now ← utcNow
  emit .Ledger .NetworkAttestation now (payloadOf (attestationFields keyPem log))

def closeLedger : Run Digest := fun s =>
  let out := Ledger.close s.ledger
  ⟨out.1.mapError (fun e => .Err (.Ledger e)),s.wrote { s.ledger with file := out.2 },[]⟩

/-- `Session::shutdown`. -/
def shutdown : Run Digest := do
  emitNetworkAttestation
  let spiffeUri ← reads (·.spiffeUri)
  let now ← utcNow
  emit .Ledger .SessionEnd now (payloadOf [("spiffeId",.Text spiffeUri)])
  closeLedger

end

/-! ### Panics -/

/-- An append panicked. -/
def Panicked : Event → Prop
  | .Append _ (.error _) => True
  | _ => False

/-- No append panicked. -/
def Calm (_ : Session) (events : List Event) (_ : Session) : Prop := ∀ e ∈ events,¬ Panicked e

/-- An append that panics ends the run, and nothing else panics. -/
def Accounted : Stop → Session → List Event → Session → Prop
  | .Err _,_,events,_ => ∀ e ∈ events,¬ Panicked e
  | .Panic _,_,events,_ => ∃ e ∈ events,Panicked e

theorem accounted : Endings Calm Accounted where
  idle _ := by simp [Calm]
  append first second := List.forall_mem_append.mpr ⟨first,second⟩
  late := by
    intro e a b c left right first second
    cases e with
    | Err error => exact List.forall_mem_append.mpr ⟨first,second⟩
    | Panic panic =>
      obtain ⟨found,member,panicked⟩ := second
      exact ⟨found,List.mem_append_right _ member,panicked⟩

/-- The parts of a call whose panics are those of their appends. -/
abbrev Accounts {α : Type} (p : Run α) : Prop := Ends Calm Accounted p

theorem accounts_pure {α : Type} (a : α) : Accounts (pure a : Run α) := ends_pure accounted a

theorem accounts_reads {α : Type} (f : Session → α) : Accounts (reads f : Run α) := ends_reads accounted f

theorem accounts_deny {α : Type} (error : Error) : Accounts (deny error : Run α) := ends_fail (by simp [Accounted])

theorem accounts_bind {α β : Type} {p : Run α} {f : α → Run β} (first : Accounts p) (later : ∀ a,Accounts (f a)) :
    Accounts (p >>= f) := ends_bind accounted first later

theorem accounts_orFail {ε α : Type} (wrap : ε → Error) (result : Except ε α) : Accounts (orFail wrap result) :=
  ends_orFail accounted fun _ _ => by simp [Accounted]

section
variable [Chrono] [Serde] [Sha256]

theorem accounts_emit (wrap : Ledger.Error → Error) (entryType : EntryType) (timestamp : Int) (payload : Payload) :
    Accounts (emit wrap entryType timestamp payload) := by
  refine ends_emit (fun s record ledger => by simp [Calm,Panicked]) ?_
  intro s result ledger e stopped
  match result with
  | .error panic =>
    cases stopped
    exact ⟨_,List.mem_singleton_self _,trivial⟩
  | .ok (.error error) =>
    cases stopped
    simp [Accounted,Panicked]

variable [World]

theorem accounts_now {α : Type} {entry : Int → Run α} (each : ∀ now,Accounts (entry now)) : Accounts (utcNow >>= entry) :=
  accounts_bind (ends_ask (by simp [Calm,Panicked])) each

theorem accounts_storeGrant (op : Operation) (ttlSecs : Nat) (decision : GrantDecision) :
    Accounts (storeGrant op ttlSecs decision) := by
  refine accounts_bind (ends_ask (by simp [Calm])) fun grantId => ?_
  refine accounts_bind (ends_ask (by simp [Calm,Panicked])) fun issuedAt => ?_
  exact accounts_bind (ends_update (by simp [Calm])) fun _ => accounts_pure _

theorem accounts_takeOutcome (op : Operation) (rsid : Option String) (ttlSecs : Nat) (req : ApprovalRequest)
    (outcome : ApprovalOutcome) : Accounts (takeOutcome op rsid ttlSecs req outcome) := by
  cases outcome with
  | Granted approver decidedAt =>
    refine accounts_bind (accounts_now fun _ => accounts_emit _ _ _ _) fun _ => ?_
    refine accounts_bind (accounts_storeGrant _ _ _) fun grant => ?_
    exact accounts_bind (accounts_now fun _ => accounts_emit _ _ _ _) fun _ => accounts_pure _
  | Rejected reason decidedAt =>
    refine accounts_bind (accounts_now fun _ => accounts_emit _ _ _ _) fun _ => ?_
    exact accounts_bind (accounts_storeGrant _ _ _) fun _ => accounts_deny _
  | TimedOut expiredAt => exact accounts_bind (accounts_now fun _ => accounts_emit _ _ _ _) fun _ => accounts_deny _

theorem accounts_askOperator (op : Operation) (rsid : Option String) (summary : String) (ttlSecs : Nat)
    (channel : ApprovalChannel) : Accounts (askOperator op rsid summary ttlSecs channel) := by
  refine accounts_bind (accounts_reads _) fun req => ?_
  refine accounts_bind (accounts_now fun asked => accounts_now fun _ => accounts_emit _ _ _ _) fun _ => ?_
  refine accounts_bind (ends_ask (by simp [Calm,Panicked])) fun outcome => ?_
  exact accounts_bind (accounts_orFail _ _) fun outcome => accounts_takeOutcome op rsid ttlSecs req outcome

theorem accounts_approve (op : Operation) (rsid : Option String) (summary : String) : Accounts (approve op rsid summary) := by
  refine accounts_bind (accounts_reads _) fun tier => ?_
  refine accounts_bind (accounts_reads _) fun ttlSecs => ?_
  split_ifs
  · exact accounts_bind (accounts_now fun _ => accounts_emit _ _ _ _) fun _ => accounts_pure _
  refine accounts_bind (ends_ask (by simp [Calm,Panicked])) fun now => ?_
  refine accounts_bind (accounts_reads _) fun grant => ?_
  cases grant with
  | some grant =>
    refine accounts_bind (accounts_now fun _ => accounts_emit _ _ _ _) fun _ => ?_
    cases grant.decision with
    | Allow => exact accounts_pure _
    | Deny reason => exact accounts_deny _
  | none =>
    refine accounts_bind (accounts_reads _) fun channel => ?_
    cases channel with
    | none => exact accounts_pure _
    | some channel => exact accounts_askOperator op rsid summary ttlSecs channel

theorem accounts_routeThroughApproval (decision : Decision) (op : Operation) (rsid : Option String) :
    Accounts (routeThroughApproval decision op rsid) := by
  cases decision with
  | Allow => exact accounts_pure _
  | Deny reason => exact accounts_pure _
  | RequireApproval summary => exact accounts_approve op rsid summary

end

/-! ### One attempt -/

section
variable [World]

/-- The append of an access or of a violation succeeded, and no other panicked. -/
def Kept (entryType : EntryType) : Checked (Except Ledger.Error EntryRecord) → Prop
  | .error _ => False
  | .ok (.error _) => entryType ≠ .Access ∧ entryType ≠ .Violation
  | .ok (.ok _) => True

/-- Nothing that keeps an attempt to connect out of the log: a connection is made if it
    is tried, and the entry about it is appended. -/
def Smooth : Event → Prop
  | .Performed tick (.Connect host port) => World.connect tick host port = .ok ()
  | .Append entry result => Kept entry.entryType result
  | _ => True

/-- The attempts that a connection of the log stands for. -/
def target (connection : NetworkConnectionMeta) : String × UInt16 × String :=
  (connection.host,connection.port,connection.protocol)

/-- The attempt adds itself to the log exactly if it was smooth. -/
def Adds (host : String) (port : UInt16) (proto : NetworkProto) (a : Session) (events : List Event) (b : Session) : Prop :=
  ((∀ e ∈ events,Smooth e) ∧ ∃ connection,b.networkLog = a.networkLog ++ [connection] ∧
    target connection = (host,port,protoText proto)) ∨
  (¬ (∀ e ∈ events,Smooth e) ∧ b.networkLog = a.networkLog)

theorem Adds.after {host : String} {port : UInt16} {proto : NetworkProto} {a m b : Session} {left right : List Event}
    (adds : Adds host port proto m right b) (same : m.networkLog = a.networkLog) (smooth : ∀ e ∈ left,Smooth e) :
    Adds host port proto a (left ++ right) b := by
  unfold Adds at *
  rw [same] at adds
  rw [List.forall_mem_append]
  rcases adds with ⟨whole,logged⟩ | ⟨hindered,unlogged⟩
  · exact .inl ⟨⟨smooth,whole⟩,logged⟩
  · exact .inr ⟨fun both => hindered both.2,unlogged⟩

theorem smooth_of_plain {e : Event} (plain : Plain e) (unwritten : Unwritten e) : Smooth e := by
  cases e <;> first | exact plain.elim | exact unwritten.elim | trivial

end

section
variable [Chrono] [Serde] [Sha256] [World] {host : String} {port : UInt16} {proto : NetworkProto} {rsid : Option String}

theorem networkLog_of_logs {a b : Session} {events : List Event} (logs : Logs a events b) : b.networkLog = a.networkLog := by
  rw [logs.same]

theorem logConnection_adds (decision : NetworkConnectionDecision) (s : Session) :
    Adds host port proto s (logConnection host port proto decision s).events (logConnection host port proto decision s).state :=
  .inl ⟨by simp [logConnection,utcNow,ask_bind,update,Smooth],
    ⟨host,port,protoText proto,decision,World.utcNow s.tick⟩,rfl,rfl⟩

/-- What is reported after that changes nothing. -/
theorem reported_adds {p : Run Unit} (adds : ∀ s,Adds host port proto s (p s).events (p s).state) (error : Error) (s : Session) :
    Adds host port proto s ((p >>= fun _ => (deny error : Run Unit)) s).events
      ((p >>= fun _ => (deny error : Run Unit)) s).state := by
  rcases runs_or_stops p s with ⟨u,runs⟩ | ⟨e,stops⟩
  · rw [bind_ok runs.result]
    change Adds host port proto s ((p s).events ++ []) (p s).state
    rw [List.append_nil]
    exact adds s
  · rw [bind_error stops.result]
    exact adds s

/-- An entry is appended before the attempt is logged. -/
theorem emit_adds {wrap : Ledger.Error → Error} {entryType : EntryType} {timestamp : Int} {payload : Payload}
    (own : entryType = .Access ∨ entryType = .Violation) (rest : Run Unit)
    (adds : ∀ s,Adds host port proto s (rest s).events (rest s).state) (s : Session) :
    Adds host port proto s ((emit wrap entryType timestamp payload >>= fun _ => rest) s).events
      ((emit wrap entryType timestamp payload >>= fun _ => rest) s).state := by
  rcases runs_or_stops (emit wrap entryType timestamp payload) s with ⟨u,runs⟩ | ⟨e,stops⟩
  · rw [bind_ok runs.result]
    obtain ⟨record,ledger,-,same,events⟩ := runs_emit.mp runs
    refine (adds _).after ?_ ?_
    · rw [same]
      rfl
    · rw [events]
      simp [Smooth,Kept]
  · rw [bind_error stops.result]
    obtain ⟨result,ledger,-,stopped,same,events⟩ := stops_emit.mp stops
    right
    rw [same,events]
    refine ⟨?_,rfl⟩
    intro smooth
    have kept := smooth _ (List.mem_singleton_self _)
    match result with
    | .error panic => exact kept
    | .ok (.error error) =>
      rcases own with own | own
      · exact kept.1 own
      · exact kept.2 own
    | .ok (.ok record) => cases stopped

/-- The time is read first. -/
theorem now_adds {rest : Int → Run Unit} (adds : ∀ now s,Adds host port proto s (rest now s).events (rest now s).state)
    (s : Session) : Adds host port proto s ((utcNow >>= rest) s).events ((utcNow >>= rest) s).state := by
  rw [utcNow,ask_bind]
  exact (adds _ s.next).after rfl (by simp [Smooth])

theorem emitSuccess_adds {accessType : AccessType} {bytes : UInt64} {rest : Run Unit}
    (adds : ∀ s,Adds host port proto s (rest s).events (rest s).state) (s : Session) :
    Adds host port proto s
      ((emitSuccess (networkUri host port proto) accessType bytes rsid >>= fun _ => rest) s).events
      ((emitSuccess (networkUri host port proto) accessType bytes rsid >>= fun _ => rest) s).state := by
  rw [emitSuccess,bind_assoc]
  refine now_adds (fun now s => ?_) s
  rw [if_neg (Faultless.networkUri_ne host port proto)]
  exact emit_adds (.inl rfl) rest adds s

theorem emitDeny_adds {resourceUri accessKind reason : String} {rest : Run Unit}
    (adds : ∀ s,Adds host port proto s (rest s).events (rest s).state) (s : Session) :
    Adds host port proto s ((emitDeny resourceUri accessKind reason >>= fun _ => rest) s).events
      ((emitDeny resourceUri accessKind reason >>= fun _ => rest) s).state := by
  rw [emitDeny,bind_assoc]
  exact now_adds (fun now s => emit_adds (.inr rfl) rest adds s) s

theorem finishConnect_adds (initial : Decision) (routed : Except Error Decision) (s : Session) :
    Adds host port proto s (finishConnect initial host port proto rsid routed s).events
      (finishConnect initial host port proto rsid routed s).state := by
  match routed with
  | .error error => exact reported_adds (logConnection_adds _) error s
  | .ok (.RequireApproval reason) => exact reported_adds (logConnection_adds _) _ s
  | .ok (.Deny reason) => exact emitDeny_adds (reported_adds (logConnection_adds _) _) s
  | .ok .Allow =>
    rw [finishConnect,perform_bind]
    cases answer : World.connect s.tick host port with
    | error error =>
      right
      refine ⟨?_,rfl⟩
      intro smooth
      have connected : World.connect s.tick host port = .ok () := smooth _ List.mem_cons_self
      rw [answer] at connected
      cases connected
    | ok u =>
      rw [orFail_ok_bind]
      have smooth : ∀ e ∈ [Event.Performed s.tick (.Connect host port)],Smooth e := by simpa [Smooth] using answer
      exact (emitSuccess_adds (logConnection_adds _) s.next).after rfl smooth

variable [Identity]

variable (host port proto rsid) in
/-- An attempt that passes the rebind adds itself to the log exactly if it is smooth. -/
theorem mediateNetworkConnect_adds {s : Session} (passed : (rebind s).result = .ok ()) :
    Adds host port proto s (mediateNetworkConnect host port proto rsid s).events
      (mediateNetworkConnect host port proto rsid s).state := by
  have rebinds := runs_of_result passed
  have rebindLogs := rebinds.respects logs_rebind
  rw [mediateNetworkConnect,bind_ok passed]
  refine Adds.after ?_ (networkLog_of_logs rebindLogs) ?smooth
  case smooth =>
    intro e member
    exact smooth_of_plain (rebindLogs.each e member) (rebind_unwritten rebinds e member)
  rw [connectDecision,reads_bind]
  generalize (rebind s).state = m
  generalize checkNetworkOutbound m.policy host port proto = initial
  have routes := routes_routeThroughApproval initial (networkConnect host port proto) rsid m
  have records : Each (Records (Approved rsid Anything)) m (routeThroughApproval initial (networkConnect host port proto) rsid m).events
      (routeThroughApproval initial (networkConnect host port proto) rsid m).state :=
    records_routeThroughApproval trivial initial m
  have accounts := accounts_routeThroughApproval initial (networkConnect host port proto) rsid
  have same : (routeThroughApproval initial (networkConnect host port proto) rsid m).state.networkLog = m.networkLog := by
    rw [routes.same]
  -- No entry of the approval keeps the attempt out of the log unless its append panics.
  have smooth : (∀ e ∈ (routeThroughApproval initial (networkConnect host port proto) rsid m).events,¬ Panicked e) →
      ∀ e ∈ (routeThroughApproval initial (networkConnect host port proto) rsid m).events,Smooth e := by
    intro calm e member
    cases e with
    | Append entry result =>
      obtain ⟨fields,approved,-⟩ := records _ member
      rcases result with panic | error | record
      · exact (calm _ member trivial).elim
      · refine ⟨?_,?_⟩ <;> intro kind <;> rw [kind] at approved <;> cases approved
      · trivial
    | Performed tick effect => exact (routes.each _ member).elim
    | _ => trivial
  rcases runs_or_stops (routeThroughApproval initial (networkConnect host port proto) rsid) m with ⟨decision,runs⟩ | ⟨e,stops⟩
  · have routed : Runs (attempt caught _) m (.ok decision) _ _ := runs_attempt_ok.mpr runs
    rw [bind_ok routed.result,routed.state,routed.events]
    exact (finishConnect_adds initial (.ok decision) _).after same (smooth (accounts.runs runs))
  · cases e with
    | Err error =>
      have routed := runs_attempt_error.mpr ⟨_,show caught (.Err error) = some error from rfl,stops⟩
      rw [bind_ok routed.result,routed.state,routed.events]
      exact (finishConnect_adds initial (.error error) _).after same (smooth (accounts.stops stops))
    | Panic panic =>
      have routed := stops_attempt.mpr ⟨show caught (.Panic panic) = none from rfl,stops⟩
      rw [bind_error routed.result,routed.state,routed.events]
      obtain ⟨found,member,panicked⟩ := accounts.stops stops
      refine .inr ⟨fun whole => ?_,same⟩
      have kept := whole found member
      cases found with
      | Append entry result =>
        cases result with
        | error panic => exact kept
        | ok taken => cases panicked
      | _ => exact panicked

/-! ### The other calls -/

/-- The network log is left alone. -/
def Unlogged (a : Session) (_ : List Event) (b : Session) : Prop := b.networkLog = a.networkLog

theorem unlogged_composes : Composes Unlogged where
  idle _ := rfl
  append := by
    intro a b c left right first second
    exact second.trans first

theorem unlogged_bind {α β : Type} {p : Run α} {f : α → Run β} (first : Respects Unlogged p)
    (later : ∀ a,Respects Unlogged (f a)) : Respects Unlogged (p >>= f) := respects_bind unlogged_composes first later

theorem unlogged_of_logs {α : Type} {p : Run α} (logs : Respects Logs p) : Respects Unlogged p :=
  fun s => networkLog_of_logs (logs s)

theorem unlogged_of_routes {α : Type} {p : Run α} (routes : Respects Routes p) : Respects Unlogged p := by
  intro s
  rw [Unlogged,(routes s).same]

theorem unlogged_enforceAggregateQuota (toolClass : ToolClass) (resourceUri accessKind : String) :
    Respects Unlogged (enforceAggregateQuota toolClass resourceUri accessKind) := by
  refine unlogged_bind (fun _ => rfl) fun quota => ?_
  refine unlogged_bind (fun _ => rfl) fun state => ?_
  cases checkAndIncrement state toolClass quota with
  | ok counted => exact fun _ => rfl
  | error breach => exact unlogged_of_logs (logs_bind (logs_writeAggregateCapViolation _ _ _) fun _ => logs_deny _)

theorem unlogged_mediateGated {α : Type} {g : Gated α} (reading : Reading g) (rsid : Option String) :
    Respects Unlogged (mediateGated g rsid) := by
  refine unlogged_bind (unlogged_of_logs logs_rebind) fun _ => ?_
  refine unlogged_bind (unlogged_of_logs reading.decision) fun decision => ?_
  refine unlogged_bind (unlogged_of_logs reading.resourceUri) fun resourceUri => ?_
  refine unlogged_bind (unlogged_of_routes (routes_routeThroughApproval _ _ _)) fun decision => ?_
  cases decision with
  | Deny reason => exact unlogged_of_logs (logs_settle g resourceUri rsid (by simp))
  | RequireApproval reason => exact unlogged_of_logs (logs_settle g resourceUri rsid (by simp))
  | Allow =>
    refine unlogged_bind (unlogged_enforceAggregateQuota _ _ _) fun _ => ?_
    exact unlogged_bind (fun _ => rfl) fun answer => unlogged_of_logs (logs_concluded _ _ _ _ _ _)

theorem unlogged_mediateMcpToolCall (serverName toolName : String) (args : Value) (rsid : Option String) :
    Respects Unlogged (mediateMcpToolCall serverName toolName args rsid) := by
  refine unlogged_bind (unlogged_of_logs logs_rebind) fun _ => ?_
  refine unlogged_bind (fun _ => rfl) fun decision => ?_
  cases decision with
  | Deny reason => exact unlogged_of_logs (logs_mcpRefused _ _ _)
  | RequireApproval reason => exact unlogged_of_logs (logs_deny _)
  | Allow =>
    refine unlogged_bind (fun _ => rfl) fun grant => ?_
    cases grant with
    | none => exact unlogged_of_logs (logs_mcpRefused _ _ _)
    | some grant =>
      refine unlogged_bind (unlogged_of_logs (logs_runMcpPreValidate _ _ _ _)) fun _ => ?_
      refine unlogged_bind (unlogged_enforceAggregateQuota _ _ _) fun _ => ?_
      refine unlogged_bind (fun _ => rfl) fun client => ?_
      cases client with
      | none => exact unlogged_of_logs (logs_mcpRefused _ _ _)
      | some client => exact unlogged_bind (fun _ => rfl) fun answer => unlogged_of_logs (logs_concluded _ _ _ _ _ _)

/-! ### Runs -/

/-- The attempt of a call that passes its rebind. -/
def attempted (s : Session) : Call → List (String × UInt16 × String)
  | .NetworkConnect host port proto _ =>
    match (rebind s).result with
    | .ok _ => [(host,port,protoText proto)]
    | .error _ => []
  | _ => []

def attempts (s : Session) : List Call → List (String × UInt16 × String)
  | [] => []
  | call :: rest => attempted s call ++ attempts (mediate call s).state rest

/-- Each attempt of the run is smooth. -/
def AllSmooth (s : Session) : List Call → Prop
  | [] => True
  | call :: rest => (attempted s call ≠ [] → ∀ e ∈ (mediate call s).events,Smooth e) ∧ AllSmooth (mediate call s).state rest

/-- Parts of two lists make up both exactly if each makes up its own. -/
theorem sublist_append_eq {α : Type} {left right first second : List α} (inLeft : first.Sublist left)
    (inRight : second.Sublist right) : first ++ second = left ++ right ↔ first = left ∧ second = right := by
  constructor
  · intro same
    have length := congrArg List.length same
    rw [List.length_append,List.length_append] at length
    have fewerLeft := inLeft.length_le
    have fewerRight := inRight.length_le
    exact ⟨inLeft.eq_of_length (by omega),inRight.eq_of_length (by omega)⟩
  · rintro ⟨rfl,rfl⟩
    rfl

/-- What a call adds to the log is its attempt, and all of it exactly if it was smooth. -/
structure LogsAttempt (s : Session) (call : Call) (added : List NetworkConnectionMeta) : Prop where
  logged : (mediate call s).state.networkLog = s.networkLog ++ added
  part : (added.map target).Sublist (attempted s call)
  whole : added.map target = attempted s call ↔ (attempted s call ≠ [] → ∀ e ∈ (mediate call s).events,Smooth e)

theorem mediate_logs (call : Call) (s : Session) : ∃ added,LogsAttempt s call added := by
  have other : (mediate call s).state.networkLog = s.networkLog → attempted s call = [] →
      ∃ added,LogsAttempt s call added := by
    intro same none
    refine ⟨[],by rw [same,List.append_nil],List.nil_sublist _,?_⟩
    simp [none]
  have unit : ∀ {α : Type} {p : Run α},Respects Unlogged p → Respects Unlogged (do let _ ← p) :=
    fun unlogged => unlogged_bind unlogged fun _ _ => rfl
  cases call with
  | FilesystemRead path rsid => exact other (unit (unlogged_mediateGated (reading_filesystemRead path) rsid) s) rfl
  | FilesystemWrite path contents rsid =>
    exact other (unlogged_mediateGated (reading_filesystemWrite path contents) rsid s) rfl
  | FilesystemDelete path rsid => exact other (unlogged_mediateGated (reading_filesystemDelete path) rsid s) rfl
  | McpToolCall serverName toolName args rsid => exact other (unit (unlogged_mediateMcpToolCall _ _ args rsid) s) rfl
  | Exec program args rsid => exact other (unit (unlogged_mediateGated (reading_execRun program args) rsid) s) rfl
  | NetworkConnect host port proto rsid =>
    cases rebound : (rebind s).result with
    | error e =>
      refine other ?_ (by rw [attempted,rebound])
      rw [mediate,mediateNetworkConnect,bind_error rebound]
      exact networkLog_of_logs (logs_rebind s)
    | ok u =>
      have one : attempted s (.NetworkConnect host port proto rsid) = [(host,port,protoText proto)] := by rw [attempted,rebound]
      rcases mediateNetworkConnect_adds host port proto rsid rebound with
        ⟨smooth,connection,logged,same⟩ | ⟨hindered,unlogged⟩
      · have whole : [connection].map target = attempted s (.NetworkConnect host port proto rsid) := by
          rw [one,List.map_singleton,same]
        exact ⟨[connection],logged,whole ▸ List.Sublist.refl _,iff_of_true whole fun _ => smooth⟩
      · refine ⟨[],by rw [List.append_nil]; exact unlogged,List.nil_sublist _,?_⟩
        rw [one]
        exact iff_of_false (by simp) fun whole => hindered (whole (by simp))

/-- The log of a run holds its attempts in their order, and all of them exactly if each
    was smooth. -/
theorem afterCalls_logs (calls : List Call) (s : Session) :
    ∃ added,(afterCalls s calls).networkLog = s.networkLog ++ added ∧ (added.map target).Sublist (attempts s calls) ∧
      (added.map target = attempts s calls ↔ AllSmooth s calls) := by
  induction calls generalizing s with
  | nil => exact ⟨[],by simp [afterCalls],List.nil_sublist _,by simp [attempts,AllSmooth]⟩
  | cons call rest ih =>
    obtain ⟨first,step⟩ := mediate_logs call s
    obtain ⟨later,logged,part,whole⟩ := ih (mediate call s).state
    refine ⟨first ++ later,?_,?_,?_⟩
    · change (afterCalls (mediate call s).state rest).networkLog = _
      rw [logged,step.logged,List.append_assoc]
    · rw [List.map_append,attempts]
      exact step.part.append part
    · rw [List.map_append,attempts,AllSmooth,← whole,← step.whole]
      exact sublist_append_eq step.part part

/-! ### The attestation of a run -/

/-- The entry is an attestation of these connections: its counts add up to their number,
    and its digest is that of the list. -/
structure SumsUp (entry : Entry) (log : List NetworkConnectionMeta) : Prop where
  kind : entry.entryType = .NetworkAttestation
  total : Map.get entry.payload.fields "totalConnections" = some (.Number (.PosInt (UInt64.ofNat log.length)))
  counts : ∃ allowed approved denied,
    Map.get entry.payload.fields "allowedCount" = some (.Number (.PosInt allowed)) ∧
    Map.get entry.payload.fields "approvedCount" = some (.Number (.PosInt approved)) ∧
    Map.get entry.payload.fields "deniedCount" = some (.Number (.PosInt denied)) ∧
    UInt64.ofNat log.length = allowed+approved+denied
  digest : Map.get entry.payload.fields "connectionsDigestHex" = some (.String (connectionsDigestHex log))

theorem counts_add_up (log : List NetworkConnectionMeta) :
    totalConnections log = countOf .Allowed log+countOf .Approved log+countOf .Denied log := by
  have partition : log.length = log.countP (fun connection => connection.decision = .Allowed) +
      log.countP (fun connection => connection.decision = .Approved) +
      log.countP (fun connection => connection.decision = .Denied) := by
    induction log with
    | nil => rfl
    | cons connection rest ih =>
      simp only [List.length_cons,List.countP_cons,ih]
      cases connection.decision <;> simp <;> omega
  rw [totalConnections,partition,UInt64.ofNat_add,UInt64.ofNat_add]
  rfl

theorem attestation_sumsUp {entry : Entry} {keyPem : String} {log : List NetworkConnectionMeta}
    (kind : entry.entryType = .NetworkAttestation) (payload : entry.payload = payloadOf (attestationFields keyPem log)) :
    SumsUp entry log := by
  refine ⟨kind,?_,⟨countOf .Allowed log,countOf .Approved log,countOf .Denied log,?_,?_,?_,counts_add_up log⟩,?_⟩ <;>
    rw [payload,get_payloadOf] <;> rfl

/-- The attestation is the first entry of a shutdown. -/
theorem shutdown_attests (s : Session) : ∃ entry result rest,
    (shutdown s).events = .UtcNow (World.utcNow s.tick) :: .Append entry result :: rest ∧ SumsUp entry s.networkLog := by
  have attested : ∃ entry result,(emitNetworkAttestation s).events = [.UtcNow (World.utcNow s.tick),.Append entry result] ∧
      SumsUp entry s.networkLog := by
    rw [emitNetworkAttestation,reads_bind,reads_bind,utcNow,ask_bind]
    rcases runs_or_stops (emit Engine.Error.Ledger .NetworkAttestation (World.utcNow s.tick)
        (payloadOf (attestationFields s.svidKeyPem s.networkLog))) s.next with ⟨u,runs⟩ | ⟨e,stops⟩
    · obtain ⟨record,ledger,-,-,events⟩ := runs_emit.mp runs
      exact ⟨_,_,by rw [events]; rfl,attestation_sumsUp rfl rfl⟩
    · obtain ⟨result,ledger,-,-,-,events⟩ := stops_emit.mp stops
      exact ⟨_,_,by rw [events]; rfl,attestation_sumsUp rfl rfl⟩
  obtain ⟨entry,result,events,sums⟩ := attested
  cases ended : (emitNetworkAttestation s).result with
  | error e => exact ⟨entry,result,[],by rw [shutdown,bind_error ended]; exact events,sums⟩
  | ok u => exact ⟨entry,result,_,by rw [shutdown,bind_ok ended,events]; rfl,sums⟩

theorem boot_log [Adversarial.PerlWord] {cfg : BootConfig} {s : Session} (boots : boot cfg = .ok s) : s.networkLog = [] := by
  rw [boot] at boots
  simp only [Ledger.bind_ok] at boots
  obtain ⟨_,-,_,-,_,-,_,-,_,-,_,-,_,-,_,-,_,-,_,-,_,-,_,-,_,-,_,-,last⟩ := boots
  cases last
  rfl

/-- At the end of every run of a booted session the attestation sums up the log, whose
    counts add up; the log holds the attempts of the run, in their order, and as many as
    there were exactly if each attempt was smooth. -/
theorem attestation_exact [Adversarial.PerlWord] {cfg : BootConfig} {booted : Session} (boots : boot cfg = .ok booted)
    (channel : Option ApprovalChannel) (client : Option McpClient) (calls : List Call) :
    ∃ t entry result rest log,
      (shutdown (afterCalls (attach booted channel client) calls)).events = .UtcNow t :: .Append entry result :: rest ∧
      SumsUp entry log ∧ (log.map target).Sublist (attempts (attach booted channel client) calls) ∧
      (log.map target = attempts (attach booted channel client) calls ↔ AllSmooth (attach booted channel client) calls) ∧
      (log.length = (attempts (attach booted channel client) calls).length ↔
        AllSmooth (attach booted channel client) calls) := by
  obtain ⟨added,logged,part,whole⟩ := afterCalls_logs calls (attach booted channel client)
  have empty : (attach booted channel client).networkLog = [] := by
    rw [← boot_log boots]
    rfl
  rw [empty,List.nil_append] at logged
  obtain ⟨entry,result,rest,events,sums⟩ := shutdown_attests (afterCalls (attach booted channel client) calls)
  rw [logged] at sums
  refine ⟨_,entry,result,rest,added,events,sums,part,whole,?_⟩
  rw [← whole]
  constructor
  · intro same
    exact part.eq_of_length (by rw [List.length_map,same])
  · intro same
    rw [← same,List.length_map]

end

section
open Reference Faultless

/-- One connection, which succeeds. -/
theorem attestation_exact_one :
    let _ := calmWorld connecting
    ∃ booted t entry result rest log,boot config = .ok booted ∧
      (shutdown (afterCalls (attach booted none none) [connectOut])).events = .UtcNow t :: .Append entry result :: rest ∧
      SumsUp entry log ∧ (log.map target = attempts (attach booted none none) [connectOut] ↔
        AllSmooth (attach booted none none) [connectOut]) := by
  intro world
  obtain ⟨booted,boots,fresh,ready⟩ := calm_boots connecting rfl rfl
  obtain ⟨t,entry,result,rest,log,events,sums,-,whole,-⟩ := attestation_exact boots none none [connectOut]
  exact ⟨booted,t,entry,result,rest,log,boots,events,sums,whole⟩

/-- An attempt whose connection fails passes its rebind and is not counted. -/
theorem failed_connection_uncounted :
    let _ : World := { calmWorld connecting with connect := fun _ _ _ => .error (.Os 111) }
    ∃ booted t entry result rest,boot config = .ok booted ∧
      attempts (attach booted none none) [connectOut] = [("example.org",443,"tcp")] ∧
      (shutdown (afterCalls (attach booted none none) [connectOut])).events = .UtcNow t :: .Append entry result :: rest ∧
      entry.entryType = .NetworkAttestation ∧
      Map.get entry.payload.fields "totalConnections" = some (.Number (.PosInt 0)) := by
  intro world
  obtain ⟨booted,boots,fresh,ready⟩ := boot_succeeds (n := 100)
    (bootable connecting rfl rfl rfl (fun _ _ _ => rfl) rfl) (by decide)
  have steady := fresh.steady (fun _ _ => rfl) none none
  have policy : (attach booted none none).policy = connecting := fresh.policy
  have allowed : checkNetworkOutbound (attach booted none none).policy "example.org" 443 .Tcp = .Allow := by rw [policy]; decide
  obtain ⟨_,rebinds,-⟩ := rebind_steady steady
  have passed : attempts (attach booted none none) [connectOut] = [("example.org",443,"tcp")] := by
    rw [attempts,attempts,connectOut,attempted,rebinds.result]
    rfl
  obtain ⟨k,before,continues,-⟩ := mediateNetworkConnect_continues none steady allowed
  have fails : Stops (finishConnect .Allow "example.org" 443 .Tcp none (.ok .Allow)) (later (attach booted none none) k)
      (.Err (.Io (.Os 111))) (later (attach booted none none) k).next
      [.Performed (later (attach booted none none) k).tick (.Connect "example.org" 443)] :=
    stops_perform_bind.mpr ⟨[],stops_orFail_bind.mpr (.inl ⟨_,rfl,rfl,rfl,rfl⟩),rfl⟩
  have left : afterCalls (attach booted none none) [connectOut] = (later (attach booted none none) k).next :=
    (continues.stops fails).state
  have log : (afterCalls (attach booted none none) [connectOut]).networkLog = [] := by
    rw [left,← boot_log boots]
    rfl
  obtain ⟨entry,result,rest,events,sums⟩ := shutdown_attests (afterCalls (attach booted none none) [connectOut])
  rw [log] at sums
  exact ⟨booted,_,entry,result,rest,boots,passed,events,sums.kind,sums.total⟩

end

end AegisNode.Attestation
