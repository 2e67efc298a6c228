import AegisNode.Policy

/-!
Path confinement of the filesystem lists. The policy compares texts, so an entry
confines the paths it covers only as long as they do not climb with `..`.
-/
namespace AegisNode.Confinement
open Paths Clock Schema Policy

/-- Some non-empty absolute entry holds the path after normalization. -/
def Confined (path : String) (entries : List String) : Prop :=
  ∃ e ∈ entries,e ≠ "" ∧ isAbsolute e = true ∧ Beneath path e

/-- Every absolute path that may be read is confined to the read list. -/
def ReadConfined (m : Manifest) : Prop :=
  ∀ path,isAbsolute path = true → checkFilesystemRead m path = .Allow → Confined path (readPaths m)

/-- Every absolute path that may be written because of the write list is confined
    to it. -/
def WriteConfined [Chrono] (m : Manifest) : Prop :=
  ∀ path now sessionStart,isAbsolute path = true → classifyWriteGrant m path .Write now sessionStart = .ok .None →
    checkFilesystemWrite m path now sessionStart = .ok .Allow → Confined path (writePaths m)

/-- The list grants the whole tree under the root, or no absolute path at all. -/
def SafePaths (entries : List String) : Prop :=
  (∃ e ∈ entries,isAbsolute e = true ∧ normalize e = []) ∨ ∀ e ∈ entries,e ≠ "" ∧ isAbsolute e = false

/-! ### Escapes -/

/-- Trailing separators. -/
def slashes (count : Nat) : String := String.ofList (List.replicate count '/')

theorem normalize_slashes (path : String) (count : Nat) : normalize (path ++ slashes count) = normalize path := by
  induction count with
  | zero => simp [slashes]
  | succ count ih =>
    have last : path ++ slashes (count+1) = path ++ slashes count ++ "/" ++ "" := by
      rw [← String.toList_inj]
      simp [slashes,String.toList_append,List.replicate_succ']
    rw [last,normalize_join,ih]
    rfl

/-- The climb from a directory back to the root. -/
def climb (dirs : List (List Char)) : String := pathOf (List.replicate dirs.length ['.','.'])

theorem walk_climb (dirs : List (List Char)) : walk dirs (segments (climb dirs)) = [] := by
  by_cases root : dirs = []
  · subst root
    rfl
  · have count : List.replicate dirs.length ['.','.'] ≠ [] := by simpa using root
    have plain : ∀ piece ∈ List.replicate dirs.length ['.','.'],'/' ∉ piece := by
      intro piece member
      rw [List.eq_of_mem_replicate member]
      decide
    rw [climb,segments_pathOf plain count]
    exact walk_up dirs

/-- Under an empty or absolute entry there are arbitrarily long paths that
    normalize to the root. -/
theorem exists_escape {entries : List String} {e : String} (listed : e ∈ entries) (absolute : e = "" ∨ isAbsolute e = true)
    (count : Nat) : ∃ path,isAbsolute path = true ∧ pathsCover path entries = true ∧ normalize path = [] ∧
      count ≤ path.toList.length := by
  refine ⟨e ++ "/" ++ climb (normalize e) ++ slashes count,?_,?_,?_,?_⟩
  · rcases absolute with rfl | absolute
    · simp [isAbsolute,String.toList_append]
    · rw [String.append_assoc,String.append_assoc]
      exact isAbsolute_append absolute _
  · refine pathsCover_iff.mpr ⟨e,listed,.inr (.inr ?_)⟩
    exact ⟨(climb (normalize e)).toList ++ (slashes count).toList,by simp [String.toList_append]⟩
  · rw [normalize_slashes,normalize_join,walk_climb]
  · simp only [String.toList_append,slashes,String.toList_ofList,List.length_append,List.length_replicate]
    omega

theorem not_confined_root {entries : List String} {path : String} (root : normalize path = [])
    (bounded : ∀ e ∈ entries,isAbsolute e = true → normalize e ≠ []) : ¬ Confined path entries := by
  rintro ⟨e,listed,-,absolute,beneath⟩
  rw [Beneath,root,List.prefix_nil] at beneath
  exact bounded e listed absolute beneath

/-! ### Exactly the safe lists confine -/

/-- An entry that covers an absolute path is absolute or empty. -/
theorem covering_absolute {path : String} (absolute : isAbsolute path = true) {e : String} (nonempty : e ≠ "")
    (covers : e = path ∨ e = "/" ∨ (e ++ "/").toList <+: path.toList) : isAbsolute e = true := by
  rcases covers with rfl | rfl | ⟨rest,whole⟩
  · exact absolute
  · rfl
  · cases chars : e.toList with
    | nil => exact absurd (String.toList_inj.mp (chars.trans (by rfl : [] = "".toList))) nonempty
    | cons c tail =>
      simp only [isAbsolute,← whole,String.toList_append,chars,List.cons_append,List.head?_cons,decide_eq_true_eq] at absolute ⊢
      exact absolute

theorem confined_of_safe {entries : List String} (safe : SafePaths entries) {path : String}
    (absolute : isAbsolute path = true) (covered : pathsCover path entries = true) : Confined path entries := by
  rcases safe with ⟨e,listed,start,root⟩ | relative
  · refine ⟨e,listed,?_,start,?_⟩
    · rintro rfl
      exact absurd start (by decide)
    · rw [Beneath,root]
      exact List.nil_prefix
  · obtain ⟨e,listed,covers⟩ := pathsCover_iff.mp covered
    have start := covering_absolute absolute (relative e listed).1 covers
    rw [(relative e listed).2] at start
    exact absurd start (by decide)

theorem unsafe_listed {entries : List String} (risky : ¬ SafePaths entries) :
    (∃ e ∈ entries,e = "" ∨ isAbsolute e = true) ∧ ∀ e ∈ entries,isAbsolute e = true → normalize e ≠ [] := by
  rw [SafePaths,not_or] at risky
  obtain ⟨bounded,listed⟩ := risky
  constructor
  · by_contra none
    refine listed (fun e member => ?_)
    have each : ¬ (e = "" ∨ isAbsolute e = true) := fun start => none ⟨e,member,start⟩
    rw [not_or,Bool.not_eq_true] at each
    exact each
  · intro e member absolute root
    exact bounded ⟨e,member,absolute,root⟩

theorem readConfined_iff (m : Manifest) : ReadConfined m ↔ SafePaths (readPaths m) := by
  constructor
  · intro confined
    by_contra risky
    obtain ⟨⟨e,listed,start⟩,bounded⟩ := unsafe_listed risky
    obtain ⟨path,absolute,covered,root,-⟩ := exists_escape listed start 0
    exact not_confined_root root bounded (confined path absolute (checkFilesystemRead_allow.mpr covered))
  · intro safe path absolute allowed
    exact confined_of_safe safe absolute (checkFilesystemRead_allow.mp allowed)

/-- Without an explicit grant the write list decides. -/
theorem checkFilesystemWrite_listed [Chrono] {m : Manifest} {path : String} {now sessionStart : Int}
    (silent : classifyWriteGrant m path .Write now sessionStart = .ok .None) :
    checkFilesystemWrite m path now sessionStart = .ok .Allow ↔
      pathsCover path (writePaths m) = true ∧ .AnyWrite ∉ m.approvalRequiredFor := by
  rw [checkFilesystemWrite,silent]
  by_cases covered : pathsCover path (writePaths m) = true
  · simp only [covered,if_true,Except.ok.injEq,true_and]
    exact upgradeForApproval_allow.trans (and_iff_right rfl)
  · simp [covered]

/-- A path longer than every granted resource has no explicit grant. -/
theorem classifyWriteGrant_long [Chrono] {m : Manifest} {path : String}
    (long : (m.writeGrants.map (fun g => g.resource.toList.length)).sum < path.toList.length) (want : WriteAction)
    (now sessionStart : Int) : classifyWriteGrant m path want now sessionStart = .ok .None := by
  have silent : m.writeGrants.filter (names path want) = [] := by
    rw [List.filter_eq_nil_iff]
    intro g granted named
    have resource : g.resource = path := by
      simp only [names,Bool.and_eq_true,decide_eq_true_eq] at named
      exact named.1
    have short : g.resource.toList.length ≤ (m.writeGrants.map (fun g => g.resource.toList.length)).sum :=
      List.single_le_sum (by simp) _ (List.mem_map_of_mem granted)
    rw [resource] at short
    omega
  rw [classifyWriteGrant]
  exact if_pos silent

theorem writeConfined_iff [Chrono] (m : Manifest) :
    WriteConfined m ↔ .AnyWrite ∈ m.approvalRequiredFor ∨ SafePaths (writePaths m) := by
  constructor
  · intro confined
    by_contra risky
    rw [not_or] at risky
    obtain ⟨unasked,risky⟩ := risky
    obtain ⟨⟨e,listed,start⟩,bounded⟩ := unsafe_listed risky
    obtain ⟨path,absolute,covered,root,long⟩ :=
      exists_escape listed start ((m.writeGrants.map (fun g => g.resource.toList.length)).sum+1)
    have silent := classifyWriteGrant_long long .Write 0 0
    exact not_confined_root root bounded
      (confined path 0 0 absolute silent ((checkFilesystemWrite_listed silent).mpr ⟨covered,unasked⟩))
  · rintro (asked | safe) path now sessionStart absolute silent allowed
    · exact absurd asked ((checkFilesystemWrite_listed silent).mp allowed).2
    · exact confined_of_safe safe absolute ((checkFilesystemWrite_listed silent).mp allowed).1

/-! ### Paths that do not climb -/

theorem confined_of_straight {entries : List String} {path : String} (nonempty : "" ∉ entries)
    (straight : ['.','.'] ∉ segments path) (absolute : isAbsolute path = true)
    (covered : pathsCover path entries = true) : Confined path entries := by
  obtain ⟨e,listed,covers⟩ := pathsCover_iff.mp covered
  have named : e ≠ "" := fun empty => nonempty (empty ▸ listed)
  refine ⟨e,listed,named,covering_absolute absolute named covers,?_⟩
  rcases covers with rfl | rfl | ⟨rest,whole⟩
  · exact List.prefix_rfl
  · exact List.nil_prefix
  · have join : path = e ++ "/" ++ String.ofList rest := by
      rw [← String.toList_inj,String.toList_append,String.toList_ofList,whole]
    have down : ['.','.'] ∉ segments (String.ofList rest) := by
      intro climbs
      rw [join,segments_join] at straight
      exact straight (List.mem_append_right _ climbs)
    rw [Beneath,join,normalize_join]
    exact prefix_walk down _

/-- The lists confine exactly when they are safe; beyond that, a list without an
    empty entry confines every path it covers that has no `..` in it. -/
theorem confinement_exact [Chrono] (m : Manifest) :
    (ReadConfined m ↔ SafePaths (readPaths m)) ∧
    (WriteConfined m ↔ .AnyWrite ∈ m.approvalRequiredFor ∨ SafePaths (writePaths m)) ∧
    (∀ path,isAbsolute path = true → ['.','.'] ∉ segments path →
      ("" ∉ readPaths m → checkFilesystemRead m path = .Allow → Confined path (readPaths m)) ∧
      ("" ∉ writePaths m → ∀ now sessionStart,classifyWriteGrant m path .Write now sessionStart = .ok .None →
        checkFilesystemWrite m path now sessionStart = .ok .Allow → Confined path (writePaths m))) := by
  refine ⟨readConfined_iff m,writeConfined_iff m,fun path absolute straight => ⟨?_,?_⟩⟩
  · intro nonempty allowed
    exact confined_of_straight nonempty straight absolute (checkFilesystemRead_allow.mp allowed)
  · intro nonempty now sessionStart silent allowed
    exact confined_of_straight nonempty straight absolute ((checkFilesystemWrite_listed silent).mp allowed).1

/-- A manifest that grants `/data` for reading and writing. -/
def dataManifest : Manifest :=
  { closed with tools := ⟨some ⟨["/data"],["/data"],none,none⟩,none,[],[],none⟩ }

theorem confinement_exact_data :
    Confined "/data/in.csv" (readPaths dataManifest) ∧ Confined "/data/out.csv" (writePaths dataManifest) := by
  let _ := epochChrono
  obtain ⟨-,-,straight⟩ := confinement_exact dataManifest
  exact ⟨(straight "/data/in.csv" rfl (by decide)).1 (by decide) (by decide),
    (straight "/data/out.csv" rfl (by decide)).2 (by decide) 0 0 (by decide) (by decide)⟩

/-- `/data/../etc/passwd` is covered by `/data`. -/
theorem confinement_fails : ¬ ∀ m,ReadConfined m := by
  intro confined
  have escaped := confined dataManifest "/data/../etc/passwd" rfl (by decide)
  obtain ⟨e,listed,-,-,beneath⟩ := escaped
  obtain rfl : e = "/data" := List.mem_singleton.mp listed
  exact absurd beneath (by decide)

end AegisNode.Confinement
