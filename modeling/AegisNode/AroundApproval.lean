import AegisNode.Entries
import AegisNode.Mediation

/-!
The parts of a call before and after its approval write no entry about an approval; a
relation that they cannot disturb holds of the call if it holds of the approval.
-/
namespace AegisNode.AroundApproval
open Clock Json Schema Policy Grants Aggregate Traced Engine Mediator Frames Approval Mediation Entries
open Ledger hiding Error
set_option linter.unusedSectionVars false

/-- No entry but of accesses and violations. -/
def Unapproving : Event → Prop
  | .Append entry _ => entry.entryType = .Access ∨ entry.entryType = .Violation
  | _ => True

theorem Unapproving.of_records {rsid : Option String} {about : String → String → Prop} (e : Event)
    (records : Records (Worked rsid about) e) : Unapproving e := by
  cases e with
  | Append entry result =>
    obtain ⟨fields,worked,-⟩ := records
    change entry.entryType = .Access ∨ entry.entryType = .Violation
    generalize entry.entryType = entryType at worked ⊢
    cases worked with
    | Access bytes own => exact .inl rfl
    | Denial reason own => exact .inr rfl
    | Drift mismatch => exact .inr rfl
    | Breach breach own => exact .inr rfl
  | _ => trivial

theorem Unapproving.of_unwritten (e : Event) (unwritten : Unwritten e) : Unapproving e := by
  cases e <;> first | exact unwritten.elim | trivial

/-- The part leaves no entry about an approval. -/
def Apart (leaves : Session → List Event → Session → Prop) (a : Session) (events : List Event) (b : Session) : Prop :=
  leaves a events b ∧ ∀ e ∈ events,Unapproving e

theorem Apart.works {a b : Session} {events : List Event} (apart : Apart Logs a events b) : Apart Works a events b :=
  ⟨apart.1.counts.works,apart.2⟩

/-- The parts around an approval do not disturb the relation. -/
structure Framed (R : Session → List Event → Session → Prop) : Prop where
  idle : ∀ {a b : Session} {events : List Event},Apart Works a events b → R a events b
  after : ∀ {a b c : Session} {left right : List Event},Apart Logs a left b → R b right c → R a (left ++ right) c
  before : ∀ {a b c : Session} {left right : List Event},R a left b → Apart Works b right c → R a (left ++ right) c

section
variable {R leaves : Session → List Event → Session → Prop} {α β : Type} {p : Run α} {f : α → Run β}

theorem apart_written {rsid : Option String} {about : String → String → Prop} (left : Respects leaves p)
    (written : Respects (Each (Records (Worked rsid about))) p) : Respects (Apart leaves) p :=
  fun s => ⟨left s,fun e member => Unapproving.of_records e (written s e member)⟩

theorem apart_unwritten (left : Respects leaves p) (unwritten : Respects (Each Unwritten) p) : Respects (Apart leaves) p :=
  fun s => ⟨left s,fun e member => Unapproving.of_unwritten e (unwritten s e member)⟩

theorem Framed.first (framed : Framed R) (first : Respects (Apart Logs) p) (later : ∀ a,Respects R (f a)) :
    Respects R (p >>= f) :=
  respects_then (R := Apart Logs) (fun apart => framed.idle apart.works) framed.after first later

theorem Framed.last (framed : Framed R) (first : Respects R p) (later : ∀ a,Respects (Apart Works) (f a)) :
    Respects R (p >>= f) := respects_then id framed.before first later

variable [Chrono] [Serde] [Sha256] [Identity] [World]

theorem apart_rebind : Respects (Apart Logs) rebind := by
  have records : Respects (Each (Records (Worked none Anything))) rebind := records_rebind
  exact apart_written logs_rebind records

theorem framed_mediateGated {g : Gated α} {rsid : Option String} (framed : Framed R) (reading : Reading g)
    (decides : Respects (Each Unwritten) g.decision) (locates : Respects (Each Unwritten) g.resourceUri)
    (routes : ∀ resourceUri decision,Respects R (routeThroughApproval decision (g.operation resourceUri) rsid)) :
    Respects R (mediateGated g rsid) := by
  refine framed.first (apart_rebind) fun _ => ?_
  refine framed.first (apart_unwritten reading.decision decides) fun decision => ?_
  refine framed.first (apart_unwritten reading.resourceUri locates) fun resourceUri => ?_
  refine framed.last (routes resourceUri decision) fun decision => ?_
  exact apart_written (works_settle g resourceUri rsid decision)
    (records_settle (show Anything resourceUri g.accessType.name from trivial) decision)

theorem framed_mediateNetworkConnect {host : String} {port : UInt16} {proto : NetworkProto} {rsid : Option String}
    (framed : Framed R) (routes : ∀ decision,Respects R (routeThroughApproval decision (networkConnect host port proto) rsid)) :
    Respects R (mediateNetworkConnect host port proto rsid) := by
  refine framed.first (apart_rebind) fun _ => ?_
  refine framed.first (apart_unwritten (logs_reads _) (unwritten_reads _)) fun initial => ?_
  refine framed.last (respects_attempt (routes initial)) fun routed => ?_
  exact apart_written (works_finishConnect _ _ _ _ _ routed)
    (records_finishConnect (show Anything _ "network_outbound" from trivial) _ routed)

theorem framed_mediateMcpToolCall (framed : Framed R) (serverName toolName : String) (args : Value) (rsid : Option String) :
    Respects R (mediateMcpToolCall serverName toolName args rsid) := by
  have records : Respects (Each (Records (Worked rsid Anything))) (mediateMcpToolCall serverName toolName args rsid) :=
    records_mediateMcpToolCall trivial (fun _ _ => trivial) args
  exact respects_mono framed.idle (apart_written (works_mediateMcpToolCall _ _ args rsid) records)

/-- What holds of the approval of a call's own operation holds of the call. -/
theorem framed_mediate (framed : Framed R) {call : Call}
    (routes : ∀ {resourceUri op},operationOf resourceUri call = some op → ∀ decision,
      Respects R (routeThroughApproval decision op (stepOf call))) : Respects R (mediate call) := by
  have valueless : ∀ {γ : Type} {q : Run γ},Respects R q → Respects R (do let _ ← q) := by
    intro γ q inner s
    rw [bind_pure_events.1,bind_pure_events.2]
    exact inner s
  cases call with
  | FilesystemRead path rsid =>
    exact valueless (framed_mediateGated framed (reading_filesystemRead path) (unwritten_reads _) (unwritten_fileUri path)
      fun _ => routes rfl)
  | FilesystemWrite path contents rsid =>
    exact framed_mediateGated framed (reading_filesystemWrite path contents) (unwritten_writeDecisionNow path)
      (unwritten_fileUri path) fun _ => routes rfl
  | FilesystemDelete path rsid =>
    exact framed_mediateGated framed (reading_filesystemDelete path) (unwritten_deleteDecisionNow path)
      (unwritten_fileUri path) fun _ => routes rfl
  | NetworkConnect host port proto rsid => exact framed_mediateNetworkConnect framed (routes (show operationOf "" _ = some _ from rfl))
  | McpToolCall serverName toolName args rsid => exact valueless (framed_mediateMcpToolCall framed _ _ args rsid)
  | Exec program args rsid =>
    exact valueless (framed_mediateGated framed (reading_execRun program args) (unwritten_reads _) (unwritten_pure _)
      fun _ => routes rfl)

end

end AegisNode.AroundApproval
