import AegisNode.Ledger
import Mathlib.Data.List.AList

/-!
The task-scoped approval grants: one table a session, keyed by the tool and the
hash of its canonical arguments.
-/
namespace AegisNode.Grants
open Json Ledger Clock

inductive GrantDecision where
  | Allow
  | Deny (reason : String)
  deriving DecidableEq,Repr

/-- A decision of the operator; `issuedAt` is a reading of the wall clock and `ttl`
    a span in nanoseconds. -/
structure ApprovalGrant where
  grantId : Uuid
  issuedAt : Int
  ttl : Nat
  boundToolName : String
  boundArgHash : Digest
  decision : GrantDecision
  deriving DecidableEq,Repr

/-- A clock that went backward leaves the grant fresh. -/
def ApprovalGrant.isLiveAt (grant : ApprovalGrant) (now : Int) : Bool :=
  if grant.issuedAt ≤ now then decide (now-grant.issuedAt < grant.ttl) else true

def ApprovalGrant.argHashHex (grant : ApprovalGrant) : String := Bytes.hexEncode grant.boundArgHash.bytes

/-- The SHA-256 of the canonical JSON text. -/
def canonicalArgHash [Serde] [Sha256] (args : Value) : Digest := Sha256.digest (Bytes.encode (Serde.toString args))

/-- `SessionGrantTable`: each key has one grant. -/
abbrev SessionGrantTable := AList (fun _ : String × Digest => ApprovalGrant)

/-- The grant of the key if it is live; an expired one stays in the table. -/
def lookup [Serde] [Sha256] (table : SessionGrantTable) (toolName : String) (args : Value) (now : Int) :
    Option ApprovalGrant :=
  (table.lookup (toolName,canonicalArgHash args)).filter (·.isLiveAt now)

/-- A grant replaces the one of its key. -/
def insert (table : SessionGrantTable) (grant : ApprovalGrant) : SessionGrantTable :=
  table.insert (grant.boundToolName,grant.boundArgHash) grant

/-! ### Expiry -/

/-- Live means that the time to live has not elapsed. -/
theorem isLiveAt_iff {grant : ApprovalGrant} {now : Int} : grant.isLiveAt now = true ↔ now < grant.issuedAt+grant.ttl := by
  unfold ApprovalGrant.isLiveAt
  split_ifs with later
  · rw [decide_eq_true_eq]
    omega
  · simp only [true_iff]
    omega

/-- A grant that has expired stays so as the clock goes on. -/
theorem expired_stays {grant : ApprovalGrant} {early late : Int} (expired : grant.isLiveAt early = false)
    (order : early ≤ late) : grant.isLiveAt late = false := by
  unfold ApprovalGrant.isLiveAt at *
  split_ifs at expired with before
  rw [decide_eq_false_iff_not] at expired
  rw [if_pos (by omega),decide_eq_false_iff_not]
  omega

theorem lookup_some [Serde] [Sha256] {table : SessionGrantTable} {toolName : String} {args : Value} {now : Int}
    {grant : ApprovalGrant} : lookup table toolName args now = some grant ↔
      table.lookup (toolName,canonicalArgHash args) = some grant ∧ grant.isLiveAt now = true := by
  rw [lookup,Option.filter_eq_some_iff]

end AegisNode.Grants
