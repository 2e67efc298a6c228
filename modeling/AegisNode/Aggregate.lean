import AegisNode.Schema
import Mathlib.Data.List.AList

/-!
The aggregate quotas: calls counted per tool class over a session.
-/
namespace AegisNode.Aggregate
open Schema Clock

/-- What a dispatch counts against; every MCP server is a class of its own. -/
inductive ToolClass where
  | Filesystem
  | Network
  | Exec
  | Mcp (server : String)
  deriving DecidableEq,Repr

def ToolClass.label : ToolClass → String
  | .Filesystem => "filesystem"
  | .Network => "network"
  | .Exec => "exec"
  | .Mcp server => "mcp:" ++ server

structure AggregateCapExceeded where
  toolClass : ToolClass
  bound : String
  observed : UInt64
  cap : UInt64
  deriving DecidableEq,Repr

/-- `SessionAggregateState`: the counts of the classes dispatched so far. -/
abbrev SessionAggregateState := AList (fun _ : ToolClass => UInt64)

def snapshot (state : SessionAggregateState) (toolClass : ToolClass) : UInt64 := (state.lookup toolClass).getD 0

/-- The quota block of a class; an MCP server has that of the first entry with its
    name. -/
def quotaFor (m : Manifest) : ToolClass → Option AggregateQuota
  | .Filesystem => m.tools.filesystem.bind (·.quota)
  | .Network => m.tools.network.bind (·.quota)
  | .Exec => m.tools.exec.bind (·.quota)
  | .Mcp server => (m.tools.mcp.find? (fun g => g.serverName = server)).bind (·.quota)

def capOf (quota : Option AggregateQuota) : Option UInt64 := quota.bind (·.maxCallsPerSession)

/-- Checks first and counts only what passes. -/
def checkAndIncrement (state : SessionAggregateState) (toolClass : ToolClass) (quota : Option AggregateQuota) :
    Except AggregateCapExceeded (UInt64 × SessionAggregateState) :=
  let current := snapshot state toolClass
  let pass := .ok (succSaturating current,state.insert toolClass (succSaturating current))
  match capOf quota with
  | some cap => if cap ≤ current then .error ⟨toolClass,"max_calls_per_session",current,cap⟩ else pass
  | none => pass

/-! ### Counts -/

theorem snapshot_insert (state : SessionAggregateState) (toolClass other : ToolClass) (n : UInt64) :
    snapshot (state.insert toolClass n) other = if other = toolClass then n else snapshot state other := by
  unfold snapshot
  split_ifs with same
  · subst same
    rw [AList.lookup_insert,Option.getD_some]
  · rw [AList.lookup_insert_ne same]

/-- Below a cap the count does not saturate. -/
theorem succSaturating_below {n cap : UInt64} (below : n < cap) : (succSaturating n).toNat = n.toNat+1 := by
  have bound := cap.toNat_lt
  rw [UInt64.lt_iff_toNat_lt] at below
  rw [succSaturating,if_neg (by omega),UInt64.toNat_add]
  exact Nat.mod_eq_of_lt (by simp; omega)

/-- A pass counts one for its class, which was below its cap. -/
theorem checkAndIncrement_ok {state state' : SessionAggregateState} {toolClass : ToolClass} {quota : Option AggregateQuota}
    {n : UInt64} (passed : checkAndIncrement state toolClass quota = .ok (n,state')) :
    (∀ cap,capOf quota = some cap → snapshot state toolClass < cap) ∧
      state' = state.insert toolClass (succSaturating (snapshot state toolClass)) := by
  unfold checkAndIncrement at passed
  cases capped : capOf quota with
  | none =>
    rw [capped] at passed
    cases passed
    exact ⟨by simp,rfl⟩
  | some cap =>
    simp only [capped] at passed
    split_ifs at passed with full
    cases passed
    refine ⟨?_,rfl⟩
    rintro other ⟨⟩
    exact UInt64.not_le.mp full

end AegisNode.Aggregate
