import AegisNode.TurnLoop

/-!
The budget record of a turn: one snapshot for each class that has a quota block or was
dispatched, whatever the order the counts are kept in.
-/
namespace AegisNode.Snapshots
open Clock Schema Aggregate TurnLoop

/-! ### Runs of the accumulator -/

abbrev Call := ToolClass × Option AggregateQuota

/-- A refused call leaves the counts as they were. -/
def step (state : SessionAggregateState) (call : Call) : SessionAggregateState :=
  match checkAndIncrement state call.1 call.2 with
  | .ok (_,counted) => counted
  | .error _ => state

def run (calls : List Call) : SessionAggregateState := calls.foldl step ∅

def passes (state : SessionAggregateState) (call : Call) : Bool := (checkAndIncrement state call.1 call.2).isOk

/-- How many of the calls the accumulator lets through for a class. -/
def dispatched (toolClass : ToolClass) : SessionAggregateState → List Call → Nat
  | _,[] => 0
  | state,call :: rest =>
    (if call.1 = toolClass ∧ passes state call then 1 else 0) + dispatched toolClass (step state call) rest

theorem step_passes {state : SessionAggregateState} {call : Call} (passed : passes state call = true) :
    step state call = state.insert call.1 (succSaturating (snapshot state call.1)) := by
  rw [passes] at passed
  rw [step]
  cases checked : checkAndIncrement state call.1 call.2 with
  | error exceeded =>
    rw [checked] at passed
    cases passed
  | ok counted => exact (checkAndIncrement_ok checked).2

theorem step_refused {state : SessionAggregateState} {call : Call} (refused : passes state call = false) :
    step state call = state := by
  rw [passes] at refused
  rw [step]
  cases checked : checkAndIncrement state call.1 call.2 with
  | error exceeded => rfl
  | ok counted =>
    rw [checked] at refused
    cases refused

theorem snapshot_step (state : SessionAggregateState) (call : Call) (toolClass : ToolClass) :
    snapshot (step state call) toolClass =
      if call.1 = toolClass ∧ passes state call then succSaturating (snapshot state toolClass) else snapshot state toolClass := by
  cases passed : passes state call with
  | true =>
    rw [step_passes passed,snapshot_insert]
    by_cases same : call.1 = toolClass
    · rw [if_pos same.symm,if_pos ⟨same,rfl⟩,same]
    · rw [if_neg (Ne.symm same),if_neg (fun both => same both.1)]
  | false => rw [step_refused passed,if_neg (by simp)]

theorem mem_step (state : SessionAggregateState) (call : Call) (toolClass : ToolClass) :
    toolClass ∈ step state call ↔ (call.1 = toolClass ∧ passes state call) ∨ toolClass ∈ state := by
  cases passed : passes state call with
  | true =>
    rw [step_passes passed,AList.mem_insert,eq_comm]
    simp
  | false =>
    rw [step_refused passed]
    simp

theorem succSaturating_toNat (n : UInt64) : (succSaturating n).toNat = min (n.toNat+1) (2^64-1) := by
  have bound := n.toNat_lt
  rw [succSaturating]
  split_ifs with full
  · omega
  · rw [UInt64.toNat_add,Nat.mod_eq_of_lt (by simp; omega)]
    simp
    omega

/-- A counter is the number of calls let through, up to the largest 64-bit number. -/
theorem snapshot_fold (toolClass : ToolClass) (calls : List Call) (state : SessionAggregateState) :
    (snapshot (calls.foldl step state) toolClass).toNat =
      min ((snapshot state toolClass).toNat+dispatched toolClass state calls) (2^64-1) := by
  induction calls generalizing state with
  | nil =>
    have bound := (snapshot state toolClass).toNat_lt
    rw [List.foldl_nil,dispatched]
    omega
  | cons call rest ih =>
    rw [List.foldl_cons,ih,dispatched,snapshot_step]
    split_ifs with counted
    · rw [succSaturating_toNat]
      omega
    · omega

theorem mem_fold (toolClass : ToolClass) (calls : List Call) (state : SessionAggregateState) :
    toolClass ∈ calls.foldl step state ↔ toolClass ∈ state ∨ 0 < dispatched toolClass state calls := by
  induction calls generalizing state with
  | nil => simp [dispatched]
  | cons call rest ih =>
    rw [List.foldl_cons,ih,dispatched,mem_step]
    split_ifs with counted
    · simp [counted]
    · simp [counted]

theorem snapshot_run (toolClass : ToolClass) (calls : List Call) :
    (snapshot (run calls) toolClass).toNat = min (dispatched toolClass ∅ calls) (2^64-1) := by
  rw [run,snapshot_fold]
  have none : snapshot ∅ toolClass = 0 := rfl
  rw [none]
  simp

theorem mem_run {toolClass : ToolClass} {calls : List Call} : toolClass ∈ run calls ↔ 0 < dispatched toolClass ∅ calls := by
  rw [run,mem_fold]
  simp [AList.notMem_empty]

/-! ### Labels -/

theorem label_mcp_ne {server name : String} (other : name.toList.head? ≠ some 'm') : "mcp:" ++ server ≠ name := by
  rintro rfl
  exact other (by rw [String.toList_append]; rfl)

theorem label_injective : Function.Injective ToolClass.label := by
  intro left right same
  cases left with
  | Mcp server =>
    cases right with
    | Mcp other =>
      rw [ToolClass.label,ToolClass.label,← String.toList_inj,String.toList_append,String.toList_append] at same
      rw [String.toList_inj.mp (List.append_cancel_left same)]
    | _ => exact absurd same (label_mcp_ne (by decide))
  | _ =>
    cases right with
    | Mcp other => exact absurd same.symm (label_mcp_ne (by decide))
    | _ => first | rfl | exact absurd same (by decide)

/-! ### The classes of a record -/

/-- The manifest has a quota block for the class. -/
def Declares (m : Manifest) : ToolClass → Prop
  | .Filesystem => ∃ grant,m.tools.filesystem = some grant ∧ grant.quota.isSome
  | .Network => ∃ grant,m.tools.network = some grant ∧ grant.quota.isSome
  | .Exec => ∃ grant,m.tools.exec = some grant ∧ grant.quota.isSome
  | .Mcp server => ∃ grant ∈ m.tools.mcp,grant.serverName = server ∧ grant.quota.isSome

theorem mem_declaredClasses {m : Manifest} {toolClass : ToolClass} : toolClass ∈ declaredClasses m ↔ Declares m toolClass := by
  have some {α : Type} (section_ : Option α) (quota : α → Option AggregateQuota) :
      (section_.bind quota).isSome = true ↔ ∃ grant,section_ = some grant ∧ (quota grant).isSome = true := by
    cases section_ <;> simp
  cases toolClass with
  | Mcp server =>
    simp only [declaredClasses,Declares,List.mem_append,List.mem_map,List.mem_filter]
    constructor
    · rintro (((fixed | fixed) | fixed) | ⟨grant,⟨listed,quota⟩,named⟩)
      · split_ifs at fixed <;> simp at fixed
      · split_ifs at fixed <;> simp at fixed
      · split_ifs at fixed <;> simp at fixed
      · exact ⟨grant,listed,by injection named,quota⟩
    · rintro ⟨grant,listed,rfl,quota⟩
      exact Or.inr ⟨grant,⟨listed,quota⟩,rfl⟩
  | _ => simp [declaredClasses,Declares,some]

/-- The classes a record is made for, in the order they are collected. -/
def collected (found declared : List ToolClass) : List ToolClass :=
  declared.foldl (fun found declared => if declared ∈ found then found else found ++ [declared]) found

theorem collected_spec (declared : List ToolClass) {found : List ToolClass} (nodup : found.Nodup) :
    (collected found declared).Nodup ∧ ∀ toolClass,toolClass ∈ collected found declared ↔ toolClass ∈ found ∨ toolClass ∈ declared := by
  induction declared generalizing found with
  | nil => exact ⟨nodup,fun toolClass => by simp [collected]⟩
  | cons first rest ih =>
    have unfolded : collected found (first :: rest) = collected (if first ∈ found then found else found ++ [first]) rest := rfl
    rw [unfolded]
    split_ifs with known
    · refine ⟨(ih nodup).1,fun toolClass => ?_⟩
      rw [(ih nodup).2,List.mem_cons]
      constructor
      · tauto
      · rintro (member | rfl | member)
        · exact Or.inl member
        · exact Or.inl known
        · exact Or.inr member
    · have longer : (found ++ [first]).Nodup := by
        rw [List.nodup_append]
        refine ⟨nodup,List.nodup_singleton _,?_⟩
        rintro member inside _ single rfl
        rw [List.mem_singleton] at single
        exact known (single ▸ inside)
      refine ⟨(ih longer).1,fun toolClass => ?_⟩
      rw [(ih longer).2,List.mem_append,List.mem_singleton,List.mem_cons,or_assoc]

def classes (state : SessionAggregateState) (m : Manifest) : List ToolClass := collected state.keys (declaredClasses m)

theorem classes_nodup (state : SessionAggregateState) (m : Manifest) : (classes state m).Nodup :=
  (collected_spec _ state.keys_nodup).1

theorem mem_classes {state : SessionAggregateState} {m : Manifest} {toolClass : ToolClass} :
    toolClass ∈ classes state m ↔ Declares m toolClass ∨ toolClass ∈ state := by
  rw [classes,(collected_spec _ state.keys_nodup).2,mem_declaredClasses,← AList.mem_keys,or_comm]

/-! ### Sorting by label -/

def sorted (found : List ToolClass) : List ToolClass := found.mergeSort (fun left right => left.label ≤ right.label)

def snapshotOf (state : SessionAggregateState) (m : Manifest) (toolClass : ToolClass) : QuotaSnapshot :=
  ⟨toolClass.label,snapshot state toolClass,capOf (quotaFor m toolClass)⟩

theorem snapshots_eq (state : SessionAggregateState) (m : Manifest) :
    snapshots state m = (sorted (classes state m)).map (snapshotOf state m) := rfl

theorem sorted_pairwise (found : List ToolClass) : (sorted found).Pairwise (fun left right => left.label ≤ right.label) := by
  have pairs := @List.pairwise_mergeSort ToolClass (fun left right => decide (left.label ≤ right.label))
    (fun _ _ _ first second => by simp at *; exact first.trans second) (fun left right => by simp; exact le_total _ _) found
  exact pairs.imp fun ordered => by simpa using ordered

/-- Labels tell classes apart, so the order in which the classes were collected is lost. -/
theorem sorted_perm {left right : List ToolClass} (same : left.Perm right) : sorted left = sorted right := by
  refine List.Perm.eq_of_pairwise (fun a b _ _ below above => ?_) (sorted_pairwise left) (sorted_pairwise right) ?_
  · exact label_injective (le_antisymm below above)
  · exact (List.mergeSort_perm _ _).trans (same.trans (List.mergeSort_perm _ _).symm)

/-- The record depends on the counts only, not on the order they are kept in. -/
theorem snapshots_congr {left right : SessionAggregateState} (m : Manifest)
    (same : ∀ toolClass,left.lookup toolClass = right.lookup toolClass) : snapshots left m = snapshots right m := by
  have members (toolClass : ToolClass) : toolClass ∈ classes left m ↔ toolClass ∈ classes right m := by
    rw [mem_classes,mem_classes,← AList.lookup_isSome,← AList.lookup_isSome,same]
  have perm : (classes left m).Perm (classes right m) :=
    (List.perm_ext_iff_of_nodup (classes_nodup left m) (classes_nodup right m)).mpr members
  have taken : snapshotOf left m = snapshotOf right m := by
    funext toolClass
    rw [snapshotOf,snapshotOf,snapshot,snapshot,same]
  rw [snapshots_eq,snapshots_eq,sorted_perm perm,taken]

theorem lookup_run (toolClass : ToolClass) (calls : List Call) : (run calls).lookup toolClass =
    if snapshot (run calls) toolClass = 0 then none else some (snapshot (run calls) toolClass) := by
  have zero : snapshot (run calls) toolClass = 0 ↔ toolClass ∉ run calls := by
    rw [mem_run,← UInt64.toNat_inj,snapshot_run]
    simp
  split_ifs with none
  · exact AList.lookup_eq_none.mpr (zero.mp none)
  · obtain ⟨count,found⟩ := Option.isSome_iff_exists.mp (AList.lookup_isSome.mpr (not_not.mp (mt zero.mpr none)))
    rw [snapshot,found,Option.getD_some]

/-- The record of a run: labels in strict order, a record for each class that declares a quota
    or was dispatched, its counter and its cap; whatever the order of the counts, and the same for
    equal counts. -/
theorem snapshots_of_run (m : Manifest) (calls : List Call) :
    ((snapshots (run calls) m).map (·.toolClass)).Pairwise (· < ·) ∧
    (∀ toolClass,(∃ taken ∈ snapshots (run calls) m,taken.toolClass = toolClass.label) ↔
      Declares m toolClass ∨ 0 < dispatched toolClass ∅ calls) ∧
    (∀ taken ∈ snapshots (run calls) m,∃ toolClass : ToolClass,taken.toolClass = toolClass.label ∧
      taken.calls.toNat = min (dispatched toolClass ∅ calls) (2^64-1) ∧
      taken.maxCallsPerSession = capOf (quotaFor m toolClass)) ∧
    (∀ reordered : SessionAggregateState,reordered.entries.Perm (run calls).entries →
      snapshots reordered m = snapshots (run calls) m) ∧
    ∀ calls',snapshot (run calls') = snapshot (run calls) → snapshots (run calls') m = snapshots (run calls) m := by
  refine ⟨?_,?_,?_,?_,?_⟩
  · have labels : (snapshots (run calls) m).map (·.toolClass) = (sorted (classes (run calls) m)).map ToolClass.label := by
      rw [snapshots_eq,List.map_map]
      rfl
    have nodup : (sorted (classes (run calls) m)).Nodup :=
      (List.mergeSort_perm _ _).nodup_iff.mpr (classes_nodup _ _)
    rw [labels,List.pairwise_map]
    exact (sorted_pairwise _).imp₂ (fun _ _ below apart => lt_of_le_of_ne below fun same => apart (label_injective same)) nodup
  · intro toolClass
    rw [← mem_run,← mem_classes,snapshots_eq]
    constructor
    · rintro ⟨taken,member,named⟩
      obtain ⟨found,listed,rfl⟩ := List.mem_map.mp member
      rw [← label_injective named]
      exact List.mem_mergeSort.mp listed
    · intro listed
      exact ⟨_,List.mem_map_of_mem (List.mem_mergeSort.mpr listed),rfl⟩
  · intro taken member
    rw [snapshots_eq] at member
    obtain ⟨found,-,rfl⟩ := List.mem_map.mp member
    exact ⟨found,rfl,snapshot_run found calls,rfl⟩
  · intro reordered perm
    exact snapshots_congr m fun toolClass => AList.perm_lookup perm
  · intro calls' same
    exact snapshots_congr m fun toolClass => by rw [lookup_run,lookup_run,same]

/-- Two dispatches counted in the other order. -/
theorem snapshots_of_run_counts : snapshots (run [(.Exec,none),(.Mcp "search",none)]) closed =
    snapshots (run [(.Mcp "search",none),(.Exec,none)]) closed := by
  obtain ⟨-,-,-,reordered,-⟩ := snapshots_of_run closed [(.Mcp "search",none),(.Exec,none)]
  exact reordered (run [(.Exec,none),(.Mcp "search",none)]) (by decide)

end AegisNode.Snapshots
