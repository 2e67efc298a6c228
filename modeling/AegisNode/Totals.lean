import AegisNode.Evidence
import AegisNode.ReplayViewer

/-!
What the evidence pack of an accepted ledger says: the accumulators of the walk against
the entries of the ledger, control by control.
-/
namespace AegisNode.Evidence
open Json Clock Bytes Ledger ReplayViewer

/-! ### What an entry adds -/

def number? (entry : Value) : Option UInt64 := (getField entry "sequenceNumber").bind asU64

def numberOf (entry : Value) : UInt64 := (number? entry).getD 0

def entryIdOf (entry : Value) : String := textField entry "entryId"

/-- An accumulator after an entry; the first entry makes it. -/
def contribute (found : Option ControlEvidence) (entry : Value) : ControlEvidence :=
  (found.getD ⟨0,numberOf entry,numberOf entry,[]⟩).add (numberOf entry) (entryIdOf entry)

/-- One control's accumulator after its entries. -/
def tally (entries : List Value) : Option ControlEvidence :=
  entries.foldl (fun found entry => some (contribute found entry)) none

/-- Evidence of some entries: how many they are, the numbers of the first and the last, and
    the first ten identifiers that are not empty. -/
structure Summarizes (entries : List Value) (a : ControlEvidence) : Prop where
  count : a.evidenceCount = entries.length
  first : entries.head?.map numberOf = some a.firstSequenceNumber
  last : entries.getLast?.map numberOf = some a.lastSequenceNumber
  samples : a.sampleEntryIds = ((entries.map entryIdOf).filter (· ≠ "")).take 10

theorem take_append_single {α : Type} (n : Nat) (items : List α) (item : α) :
    (items ++ [item]).take n = if (items.take n).length < n then items.take n ++ [item] else items.take n := by
  by_cases room : (items.take n).length < n
  · have short : items.length < n := by
      rw [List.length_take] at room
      omega
    rw [if_pos room,List.take_of_length_le (by rw [List.length_append]; exact short),List.take_of_length_le short.le]
  · have full : n ≤ items.length := by
      rw [List.length_take] at room
      omega
    rw [if_neg room,List.take_append_of_le_length full]

theorem tally_append (entries : List Value) (entry : Value) :
    tally (entries ++ [entry]) = some (contribute (tally entries) entry) := by
  rw [tally,List.foldl_append]
  rfl

/-- One more entry. -/
theorem Summarizes.append {entries : List Value} {a : ControlEvidence} (sums : Summarizes entries a) (entry : Value) :
    Summarizes (entries ++ [entry]) (contribute (some a) entry) := by
  have some : entries ≠ [] := by
    rintro rfl
    cases sums.first
  refine ⟨?_,?_,?_,?_⟩
  · rw [List.length_append,← sums.count]
    rfl
  · rw [List.head?_append_of_ne_nil _ some]
    exact sums.first
  · rw [List.getLast?_append]
    rfl
  · have kept : (contribute (.some a) entry).sampleEntryIds =
        if a.sampleEntryIds.length < 10 ∧ entryIdOf entry ≠ "" then a.sampleEntryIds ++ [entryIdOf entry]
        else a.sampleEntryIds := rfl
    rw [kept,sums.samples,List.map_append,List.filter_append,List.map_singleton]
    by_cases blank : entryIdOf entry = ""
    · rw [if_neg fun both => both.2 blank,List.filter_cons_of_neg (by simpa using blank),List.filter_nil,List.append_nil]
    · rw [List.filter_cons_of_pos (by simpa using blank),List.filter_nil,take_append_single]
      exact if_congr (and_iff_left blank) rfl rfl

theorem tally_summarizes {entries : List Value} (some : entries ≠ []) : ∃ a,tally entries = .some a ∧ Summarizes entries a := by
  induction entries using List.reverseRecOn with
  | nil => exact absurd rfl some
  | append_singleton front entry ih =>
    rw [tally_append]
    refine ⟨_,rfl,?_⟩
    by_cases none : front = []
    · subst none
      refine ⟨rfl,rfl,rfl,?_⟩
      by_cases blank : entryIdOf entry = ""
      · simp [tally,contribute,ControlEvidence.add,blank]
      · simp [tally,contribute,ControlEvidence.add,blank]
    · obtain ⟨a,found,sums⟩ := ih none
      rw [found]
      exact sums.append entry

/-! ### The accumulators by control -/

/-- No control stands twice, since the controls are in order. -/
def Accum.Sorted (accum : Accum) : Prop := accum.Pairwise fun a b => a.1 < b.1

def Accum.evidence (id : String) : Accum → Option ControlEvidence
  | [] => none
  | (other,a) :: rest => if other = id then some a else Accum.evidence id rest

theorem evidence_above {id : String} {accum : Accum} (above : ∀ a ∈ accum,id < a.1) : accum.evidence id = none := by
  induction accum with
  | nil => rfl
  | cons first rest ih =>
    rw [Accum.evidence,if_neg (above first List.mem_cons_self).ne']
    exact ih fun a member => above a (List.mem_cons_of_mem _ member)

theorem mem_evidence {accum : Accum} (sorted : accum.Sorted) {a : String × ControlEvidence} :
    a ∈ accum ↔ accum.evidence a.1 = some a.2 := by
  induction accum with
  | nil => simp [Accum.evidence]
  | cons first rest ih =>
    obtain ⟨above,later⟩ := List.pairwise_cons.mp sorted
    rw [Accum.evidence,List.mem_cons]
    by_cases same : first.1 = a.1
    · rw [if_pos same]
      constructor
      · rintro (rfl | member)
        · rfl
        · exact absurd same (above a member).ne
      · intro found
        exact .inl (Prod.ext same.symm (Option.some.inj found).symm)
    · rw [if_neg same,← ih later]
      constructor
      · rintro (rfl | member)
        · exact absurd rfl same
        · exact member
      · exact .inr

theorem count_sorted {accum : Accum} (id : String) (n : UInt64) (entryId : String) (sorted : accum.Sorted) :
    (accum.count id n entryId).Sorted := by
  induction accum with
  | nil => exact List.pairwise_singleton _ _
  | cons first rest ih =>
    obtain ⟨above,later⟩ := List.pairwise_cons.mp sorted
    rw [Accum.count]
    by_cases same : id = first.1
    · rw [if_pos same]
      exact List.pairwise_cons.mpr ⟨above,later⟩
    rw [if_neg same]
    by_cases less : id < first.1
    · rw [if_pos less]
      refine List.pairwise_cons.mpr ⟨List.forall_mem_cons.mpr ⟨less,fun a member => less.trans (above a member)⟩,sorted⟩
    · rw [if_neg less]
      refine List.pairwise_cons.mpr ⟨fun a member => ?_,ih later⟩
      rcases Accum.count_keys a member with is | ⟨b,inside,is⟩
      · exact is ▸ lt_of_le_of_ne (not_lt.mp less) (Ne.symm same)
      · exact is ▸ above b inside

/-- Counting an entry changes the accumulator of its control and no other. -/
theorem count_evidence {accum : Accum} (sorted : accum.Sorted) (id : String) (entry : Value) (key : String) :
    (accum.count id (numberOf entry) (entryIdOf entry)).evidence key =
      if id = key then some (contribute (accum.evidence key) entry) else accum.evidence key := by
  induction accum with
  | nil =>
    rw [Accum.count]
    by_cases is : id = key
    · rw [if_pos is]
      exact if_pos is
    · rw [if_neg is]
      exact if_neg is
  | cons first rest ih =>
    obtain ⟨above,later⟩ := List.pairwise_cons.mp sorted
    obtain ⟨other,found⟩ := first
    rw [Accum.count]
    by_cases same : id = other
    · subst same
      rw [if_pos rfl,Accum.evidence,Accum.evidence]
      by_cases is : id = key
      · rw [if_pos is,if_pos is,if_pos is]
        rfl
      · rw [if_neg is,if_neg is,if_neg is]
    rw [if_neg same]
    by_cases less : id < other
    · rw [if_pos less,Accum.evidence]
      by_cases is : id = key
      · subst is
        have absent : Accum.evidence id ((other,found) :: rest) = none :=
          evidence_above (List.forall_mem_cons.mpr ⟨less,fun a member => less.trans (above a member)⟩)
        rw [if_pos rfl,if_pos rfl,absent]
        rfl
      · rw [if_neg is,if_neg is]
    · rw [if_neg less,Accum.evidence,Accum.evidence,ih later]
      by_cases is : other = key
      · rw [if_pos is,if_pos is,if_neg (is ▸ same)]
      · rw [if_neg is,if_neg is]

theorem controlsFor_once (entry : Value) : (controlsFor entry).Nodup := by
  unfold controlsFor
  generalize textField entry "entryType" = entryType
  split
  case h_5 =>
    generalize textField entry "violationKind" = violationKind
    split <;> decide
  all_goals decide

/-- An entry is counted once for each of its controls. -/
theorem countEntry_evidence {accum : Accum} (sorted : accum.Sorted) (entry : Value) :
    (countEntry accum entry).Sorted ∧ ∀ key,(countEntry accum entry).evidence key =
      if key ∈ controlsFor entry then some (contribute (accum.evidence key) entry) else accum.evidence key := by
  change (List.foldl (fun accum id => accum.count id (numberOf entry) (entryIdOf entry)) accum (controlsFor entry)).Sorted ∧
    ∀ key,(List.foldl (fun accum id => accum.count id (numberOf entry) (entryIdOf entry)) accum (controlsFor entry)).evidence key = _
  have once := controlsFor_once entry
  generalize controlsFor entry = ids at once
  induction ids generalizing accum with
  | nil => exact ⟨sorted,fun key => (if_neg List.not_mem_nil).symm⟩
  | cons id ids ih =>
    obtain ⟨fresh,once⟩ := List.nodup_cons.mp once
    obtain ⟨later,each⟩ := ih (count_sorted id (numberOf entry) (entryIdOf entry) sorted) once
    refine ⟨later,fun key => ?_⟩
    rw [List.foldl_cons,each key,count_evidence sorted]
    by_cases is : id = key
    · subst is
      rw [if_neg fresh,if_pos rfl,if_pos List.mem_cons_self]
    · rw [if_neg is]
      exact if_congr (by simp [Ne.symm is]) rfl rfl

/-- The entries that map to a control. -/
def mapped (id : String) (entries : List Value) : List Value := entries.filter fun entry => id ∈ controlsFor entry

theorem mapped_append (id : String) (entries : List Value) (entry : Value) :
    mapped id (entries ++ [entry]) = if id ∈ controlsFor entry then mapped id entries ++ [entry] else mapped id entries := by
  rw [mapped,List.filter_append,List.filter_singleton]
  by_cases maps : id ∈ controlsFor entry
  · rw [if_pos maps,decide_eq_true maps]
    rfl
  · rw [if_neg maps,decide_eq_false maps]
    exact List.append_nil _

/-- The walk keeps for each control the evidence of the entries that map to it. -/
theorem countEntries_evidence (entries : List Value) :
    (countEntries entries).Sorted ∧ ∀ key,(countEntries entries).evidence key = tally (mapped key entries) := by
  induction entries using List.reverseRecOn with
  | nil => exact ⟨List.Pairwise.nil,fun key => rfl⟩
  | append_singleton front entry ih =>
    obtain ⟨sorted,each⟩ := ih
    have step : countEntries (front ++ [entry]) = countEntry (countEntries front) entry := List.foldl_concat ..
    obtain ⟨later,counted⟩ := countEntry_evidence sorted entry
    rw [step]
    refine ⟨later,fun key => ?_⟩
    rw [counted key,each key,mapped_append]
    by_cases maps : key ∈ controlsFor entry
    · rw [if_pos maps,if_pos maps,tally_append]
    · rw [if_neg maps,if_neg maps]

/-- Each control that an entry maps to is listed, with the evidence of its entries. -/
theorem mem_countEntries {entries : List Value} {a : String × ControlEvidence} :
    a ∈ countEntries entries ↔ tally (mapped a.1 entries) = some a.2 := by
  obtain ⟨sorted,each⟩ := countEntries_evidence entries
  rw [mem_evidence sorted,each]

theorem tally_some {entries : List Value} {a : ControlEvidence} (found : tally entries = some a) :
    entries ≠ [] ∧ Summarizes entries a := by
  have some : entries ≠ [] := by
    rintro rfl
    cases found
  obtain ⟨b,again,sums⟩ := tally_summarizes some
  cases found.symm.trans again
  exact ⟨some,sums⟩

theorem listed_iff {entries : List Value} {id : String} :
    (∃ a ∈ countEntries entries,a.1 = id) ↔ ∃ entry ∈ entries,id ∈ controlsFor entry := by
  constructor
  · rintro ⟨a,member,rfl⟩
    obtain ⟨some,-⟩ := tally_some (mem_countEntries.mp member)
    obtain ⟨entry,inside⟩ := List.exists_mem_of_ne_nil _ some
    obtain ⟨inside,maps⟩ := List.mem_filter.mp inside
    exact ⟨entry,inside,of_decide_eq_true maps⟩
  · rintro ⟨entry,inside,maps⟩
    have some : mapped id entries ≠ [] := List.ne_nil_of_mem (List.mem_filter.mpr ⟨inside,decide_eq_true maps⟩)
    obtain ⟨a,found,-⟩ := tally_summarizes some
    exact ⟨(id,a),mem_countEntries.mpr found,rfl⟩

theorem countEntries_once (entries : List Value) : ((countEntries entries).map Prod.fst).Nodup := by
  rw [List.Nodup,List.pairwise_map]
  exact (countEntries_evidence entries).1.imp ne_of_lt

/-! ### The entries of an accepted ledger -/

theorem splitOn_free {α : Type} [DecidableEq α] (sep : α) (items : List α) : ∀ piece ∈ items.splitOn sep,sep ∉ piece := by
  induction items with
  | nil => simp
  | cons item rest ih =>
    rw [List.splitOn_cons_eq_if_modifyHead]
    by_cases is : item = sep
    · rw [if_pos (beq_iff_eq.mpr is)]
      exact List.forall_mem_cons.mpr ⟨List.not_mem_nil,ih⟩
    · rw [if_neg (by simpa using is)]
      obtain ⟨piece,pieces,cut⟩ := List.exists_cons_of_ne_nil (List.splitOn_ne_nil sep rest)
      rw [cut] at ih ⊢
      obtain ⟨free,later⟩ := List.forall_mem_cons.mp ih
      refine List.forall_mem_cons.mpr ⟨fun inside => ?_,later⟩
      rcases List.mem_cons.mp inside with same | inside
      · exact is same.symm
      · exact free inside

theorem rawLines_whole {file raw : List UInt8} (member : raw ∈ rawLines file) : lineFeed ∉ raw := by
  apply splitOn_free lineFeed file
  rw [rawLines] at member
  split at member
  · exact List.mem_of_mem_dropLast member
  · exact member

/-- The lines that the second pass splits the file into. -/
def ledgerLines (file : List UInt8) : List Line := (rawLines file).attach.map fun raw => ⟨raw.val,rawLines_whole raw.property⟩

theorem ledgerLines_val (file : List UInt8) : (ledgerLines file).map Subtype.val = rawLines file := by
  rw [ledgerLines,List.map_map]
  exact List.attach_map_subtype_val _

theorem le_succSaturating (n : UInt64) : n ≤ succSaturating n := by
  rw [succSaturating]
  split
  · exact UInt64.le_refl n
  · rename_i below
    have one : (1 : UInt64).toNat = 1 := rfl
    have bound := n.toNat_lt
    rw [UInt64.le_iff_toNat_le,UInt64.toNat_add,one,Nat.mod_eq_of_lt (by omega)]
    exact Nat.le_succ _

section
variable [Chrono] [Serde] [Sha256]

/-- The entries of the ledger's lines. -/
def Holds (raws : List (List UInt8)) (entries : List Value) : Prop :=
  List.Forall₂ (fun raw entry => ∃ text,decode raw = some text ∧ Serde.fromStr text = .ok entry) raws entries

def timestamp? (entry : Value) : Option Int := ((getField entry "timestamp").bind asStr).bind Chrono.parse

/-- The entry has a time, and it is in the window; both ends belong to it. -/
def within (args : CmmcArgs) (entry : Value) : Bool :=
  (timestamp? entry).any fun t => args.since.all (· ≤ t) && args.until_.all (t ≤ ·)

/-- What the parser does with a line: a carriage return after a text is white space, and
    an empty text is not JSON. -/
structure Spaced (serde : Serde) : Prop where
  trailing : ∀ text v,serde.fromStr (text ++ "\r") = .ok v → serde.fromStr text = .ok v
  empty : ∀ v,serde.fromStr "" ≠ .ok v

omit [Serde] [Sha256] in
theorem inWindow_within {args : CmmcArgs} {entry : Value} (dated : timestamp? entry ≠ none) : inWindow args entry = within args entry := by
  obtain ⟨t,time⟩ := Option.ne_none_iff_exists'.mp dated
  have read : ((getField entry "timestamp").bind asStr).bind Chrono.parse = some t := time
  rw [inWindow,read,within,time]
  simp only [← decide_not,not_lt,Option.any_some]

omit [Sha256] in
/-- The second pass reads the entry that the first pass read. -/
theorem entriesIn_line (spaced : Spaced ‹Serde›) (args : CmmcArgs) {line : Line} {text : String} {entry : Value}
    (decoded : decode line.val = some text) (json : Serde.fromStr text = .ok entry) (dated : timestamp? entry ≠ none) :
    entriesIn args [line] = .ok (if within args entry then [entry] else []) := by
  have read (seen : String) (json : Serde.fromStr seen = .ok entry) :
      readEntry args 0 seen = .ok (if within args entry then [entry] else []) := by
    have some : seen ≠ "" := by
      rintro rfl
      exact spaced.empty entry json
    rw [readEntry,if_neg some,json]
    dsimp only
    rw [inWindow_within dated]
  refine entriesIn_single.mpr ⟨_,by rw [readLine,decoded],read _ ?_⟩
  cases stripped : Text.stripSuffix ['\r'] text.toList with
  | none => rwa [Option.getD_none,String.ofList_toList]
  | some front =>
    rw [Option.getD_some]
    apply spaced.trailing
    obtain ⟨back,cut,rfl⟩ := Option.map_eq_some_iff.mp stripped
    have whole : String.ofList back.reverse ++ "\r" = text := by
      have chars := congrArg List.reverse (Text.stripPrefix_some.mp cut)
      rw [List.reverse_reverse,List.reverse_append,List.reverse_reverse] at chars
      rw [← String.toList_inj,String.toList_append,String.toList_ofList,chars]
      rfl
    rwa [whole]

omit [Sha256] in
/-- The second pass counts the entries in the window. -/
theorem entriesIn_within (spaced : Spaced ‹Serde›) (args : CmmcArgs) {lines : List Line} {entries : List Value}
    (holds : Holds (lines.map Subtype.val) entries) (dated : ∀ entry ∈ entries,timestamp? entry ≠ none) :
    entriesIn args lines = .ok (entries.filter (within args)) := by
  induction lines generalizing entries with
  | nil =>
    cases holds
    rfl
  | cons line rest ih =>
    cases holds with
    | @cons _ entry _ later here holds =>
      obtain ⟨text,decoded,json⟩ := here
      obtain ⟨first,dated⟩ := List.forall_mem_cons.mp dated
      refine entriesIn_cons.mpr ⟨_,_,entriesIn_line spaced args decoded json first,ih holds dated,?_⟩
      by_cases inside : within args entry
      · rw [if_pos inside,List.filter_cons_of_pos inside]
        rfl
      · rw [if_neg inside,List.filter_cons_of_neg inside]
        rfl

omit [Sha256] in
/-- Lines numbered in order hold entries with times, in the order of their numbers. -/
theorem formed_entries {session : String} {version : LedgerSchemaVersion} {number : UInt64} {raws : List (List UInt8)}
    (formed : Formed session version number raws) :
    ∃ entries,Holds raws entries ∧ (∀ entry ∈ entries,timestamp? entry ≠ none ∧ ∃ n,number? entry = some n ∧ number ≤ n) ∧
      entries.Pairwise fun a b => numberOf a ≤ numberOf b := by
  induction raws generalizing number with
  | nil => exact ⟨[],.nil,by simp,List.Pairwise.nil⟩
  | cons raw rest ih =>
    obtain ⟨⟨v,carries⟩,later⟩ := formed
    obtain ⟨entries,holds,each,sorted⟩ := ih later
    obtain ⟨stamp,ts,stamped,dated⟩ := carries.dated
    have time : timestamp? v = some ts := by rw [timestamp?,stamped,Option.bind_some,dated]
    have above := le_succSaturating number
    have rises : ∀ entry ∈ entries,timestamp? entry ≠ none ∧ ∃ n,number? entry = some n ∧ number ≤ n := by
      intro entry member
      obtain ⟨dated,n,found,more⟩ := each entry member
      exact ⟨dated,n,found,UInt64.le_trans above more⟩
    refine ⟨v :: entries,.cons carries.json holds,?_,?_⟩
    · exact List.forall_mem_cons.mpr ⟨⟨by simp [time],number,carries.numbered,UInt64.le_refl _⟩,rises⟩
    · refine List.pairwise_cons.mpr ⟨fun entry member => ?_,sorted⟩
      obtain ⟨-,n,found,more⟩ := rises entry member
      have first : number? v = some number := carries.numbered
      rwa [numberOf,numberOf,first,found]

/-! ### The pack -/

/-- `build_pack` of a file to which nothing is appended meanwhile. -/
def buildPack (args : CmmcArgs) (utcNow : Int) (ledger : Option (List UInt8)) : Except EvidenceError EvidencePack :=
  match ledger with
  | none => .error .NotFound
  | some file =>
    match verifyReader file with
    | .error error => .error (.Verifying error)
    | .ok summary => packOf args summary utcNow (ledgerLines file)

/-- The entries in the window that map to a control. -/
def evidenceFor (args : CmmcArgs) (entries : List Value) (id : String) : List Value := mapped id (entries.filter (within args))

/-- The numbers in a pack are those of the ledger's entries in the window. -/
structure Totals (args : CmmcArgs) (entries : List Value) (pack : EvidencePack) : Prop where
  entryCount : pack.entryCount = (entries.filter (within args)).length
  listed : ∀ id,(∃ c ∈ pack.controls,c.1 = id) ↔ ∃ entry ∈ entries,within args entry ∧ id ∈ controlsFor entry
  once : (pack.controls.map Prod.fst).Nodup
  catalogued : ∀ c ∈ pack.controls,c.2.1 ∈ controlCatalog ∧ c.2.1.id = c.1
  evidenceCount : ∀ c ∈ pack.controls,c.2.2.evidenceCount = (evidenceFor args entries c.1).length
  first : ∀ c ∈ pack.controls,IsLeast {n | ∃ entry ∈ evidenceFor args entries c.1,number? entry = some n} c.2.2.firstSequenceNumber
  last : ∀ c ∈ pack.controls,IsGreatest {n | ∃ entry ∈ evidenceFor args entries c.1,number? entry = some n} c.2.2.lastSequenceNumber
  samples : ∀ c ∈ pack.controls,
    c.2.2.sampleEntryIds = (((evidenceFor args entries c.1).map entryIdOf).filter (· ≠ "")).take 10
  covered : pack.controlsCovered = pack.controls.length

omit [Chrono] [Serde] [Sha256] in
theorem number_of {entry : Value} {n : UInt64} (found : number? entry = some n) : numberOf entry = n := by
  rw [numberOf,found]
  rfl

omit [Chrono] [Serde] [Sha256] in
/-- Of entries in the order of their numbers the first has the least. -/
theorem first_least {entries : List Value} (sorted : entries.Pairwise fun a b => numberOf a ≤ numberOf b)
    (numbered : ∀ entry ∈ entries,∃ n,number? entry = some n) {n : UInt64} (first : entries.head?.map numberOf = some n) :
    IsLeast {n | ∃ entry ∈ entries,number? entry = some n} n := by
  cases entries with
  | nil => cases first
  | cons entry rest =>
    obtain rfl := Option.some.inj first
    obtain ⟨k,found⟩ := numbered entry List.mem_cons_self
    refine ⟨⟨entry,List.mem_cons_self,(number_of found).symm ▸ found⟩,?_⟩
    rintro m ⟨other,member,read⟩
    rw [← number_of read]
    rcases List.mem_cons.mp member with rfl | member
    · exact UInt64.le_refl _
    · exact (List.pairwise_cons.mp sorted).1 other member

omit [Chrono] [Serde] [Sha256] in
theorem last_greatest {entries : List Value} (sorted : entries.Pairwise fun a b => numberOf a ≤ numberOf b)
    (numbered : ∀ entry ∈ entries,∃ n,number? entry = some n) {n : UInt64} (last : entries.getLast?.map numberOf = some n) :
    IsGreatest {n | ∃ entry ∈ entries,number? entry = some n} n := by
  obtain ⟨entry,ends,rfl⟩ := Option.map_eq_some_iff.mp last
  obtain ⟨front,rfl⟩ := List.getLast?_eq_some_iff.mp ends
  have inside : entry ∈ front ++ [entry] := List.mem_append_right _ List.mem_cons_self
  obtain ⟨k,found⟩ := numbered entry inside
  refine ⟨⟨entry,inside,(number_of found).symm ▸ found⟩,?_⟩
  rintro m ⟨other,member,read⟩
  rw [← number_of read]
  rcases List.mem_append.mp member with member | member
  · exact (List.pairwise_append.mp sorted).2.2 other member entry List.mem_cons_self
  · rw [List.mem_singleton.mp member]
    exact UInt64.le_refl _

omit [Chrono] [Serde] [Sha256] in
/-- The catalog adds the control to each accumulator and changes nothing else. -/
theorem catalogued_ok {accum : Accum} {controls : List (String × Control × ControlEvidence)}
    (listed : accum.mapM catalogued = .ok controls) :
    controls.map (fun c => (c.1,c.2.2)) = accum ∧ ∀ c ∈ controls,inCatalog c.1 = some c.2.1 := by
  induction accum generalizing controls with
  | nil =>
    cases listed
    exact ⟨rfl,fun c member => nomatch member⟩
  | cons a rest ih =>
    rw [List.mapM_cons,bind_ok] at listed
    obtain ⟨c,first,listed⟩ := listed
    obtain ⟨later,more,last⟩ := bind_ok.mp listed
    cases last
    obtain ⟨same,known⟩ := ih more
    rw [Evidence.catalogued] at first
    cases found : inCatalog a.1 with
    | none =>
      rw [found] at first
      cases first
    | some control =>
      rw [found] at first
      cases first
      exact ⟨by rw [List.map_cons,same],List.forall_mem_cons.mpr ⟨found,known⟩⟩

omit [Serde] [Sha256] in
/-- The controls of a pack, from the entries in its window. -/
theorem totals_of_controls {args : CmmcArgs} {entries : List Value}
    (numbered : ∀ entry ∈ entries,∃ n,number? entry = some n)
    (sorted : entries.Pairwise fun a b => numberOf a ≤ numberOf b) {pack : EvidencePack}
    (listed : (countEntries (entries.filter (within args))).mapM Evidence.catalogued = .ok pack.controls)
    (count : pack.entryCount = (entries.filter (within args)).length) (covered : pack.controlsCovered = pack.controls.length) :
    Totals args entries pack := by
  obtain ⟨same,known⟩ := catalogued_ok listed
  have part (id : String) : List.Sublist (evidenceFor args entries id) entries := List.filter_sublist.trans List.filter_sublist
  have inOrder (id : String) := sorted.sublist (part id)
  have each (id : String) : ∀ entry ∈ evidenceFor args entries id,∃ n,number? entry = some n :=
    fun entry member => numbered entry ((part id).subset member)
  have member {c : String × Control × ControlEvidence} (inside : c ∈ pack.controls) :
      (c.1,c.2.2) ∈ countEntries (entries.filter (within args)) := by
    rw [← same]
    exact List.mem_map_of_mem inside
  have sums {c : String × Control × ControlEvidence} (inside : c ∈ pack.controls) :
      Summarizes (evidenceFor args entries c.1) c.2.2 := (tally_some (mem_countEntries.mp (member inside))).2
  refine ⟨count,fun id => ?_,?_,fun c inside => ?_,fun c inside => (sums inside).count,
    fun c inside => first_least (inOrder c.1) (each c.1) (sums inside).first,
    fun c inside => last_greatest (inOrder c.1) (each c.1) (sums inside).last,fun c inside => (sums inside).samples,covered⟩
  · have counted : (∃ a ∈ pack.controls.map fun c => (c.1,c.2.2),a.1 = id) ↔
        ∃ entry ∈ entries.filter (within args),id ∈ controlsFor entry := same ▸ listed_iff
    simp only [List.mem_map,exists_exists_and_eq_and,List.mem_filter,and_assoc] at counted
    exact counted
  · have once := countEntries_once (entries.filter (within args))
    rw [← same,List.map_map] at once
    exact once
  · have found := known c inside
    rw [inCatalog] at found
    exact ⟨List.mem_of_find?_eq_some found,by simpa using List.find?_some found⟩

omit [Sha256] in
theorem packOf_ok {args : CmmcArgs} {lines : List Line} {entries : List Value} (read : entriesIn args lines = .ok entries)
    {controls : List (String × Control × ControlEvidence)} (listed : (countEntries entries).mapM Evidence.catalogued = .ok controls)
    (summary : VerifySummary) (utcNow : Int) : ∃ pack,packOf args summary utcNow lines = .ok pack ∧ pack.controls = controls ∧
      pack.entryCount = entries.length ∧ pack.controlsCovered = controls.length :=
  ⟨_,bind_ok.mpr ⟨entries,read,bind_ok.mpr ⟨controls,listed,rfl⟩⟩,rfl,rfl,rfl⟩

/-- The pack of a ledger that the verifier accepts is built, and its numbers are those of
    the ledger's entries in the window. -/
theorem pack_totals (spaced : Spaced ‹Serde›) {file : List UInt8} {summary : VerifySummary}
    (accepted : verifyReader file = .ok summary) (args : CmmcArgs) (utcNow : Int) :
    ∃ entries pack,Holds (rawLines file) entries ∧ buildPack args utcNow (some file) = .ok pack ∧ Totals args entries pack := by
  have walked : ∃ walk,verifyLines walkStart (rawLines file) = .ok walk := by
    cases read : verifyLines walkStart (rawLines file) with
    | error error =>
      rw [verifyReader,read] at accepted
      cases accepted
    | ok walk => exact ⟨walk,rfl⟩
  obtain ⟨walk,walked⟩ := walked
  obtain ⟨session,version,-,formed⟩ := verifyLines_formed walked
  obtain ⟨entries,holds,each,sorted⟩ := formed_entries formed
  have read : entriesIn args (ledgerLines file) = .ok (entries.filter (within args)) := by
    refine entriesIn_within spaced args ?_ fun entry member => (each entry member).1
    rwa [ledgerLines_val]
  obtain ⟨controls,listed⟩ := catalogued_counts (entries.filter (within args))
  have numbered : ∀ entry ∈ entries,∃ n,number? entry = some n := by
    intro entry member
    obtain ⟨-,n,found,-⟩ := each entry member
    exact ⟨n,found⟩
  obtain ⟨pack,built,rfl,count,covered⟩ := packOf_ok read listed summary utcNow
  refine ⟨entries,pack,holds,?_,totals_of_controls numbered sorted listed count covered⟩
  rw [buildPack,accepted]
  exact built

end

/-! ### The pack of a ledger of one line -/

open TamperEvidence

theorem first_spaced : Spaced firstSerde where
  trailing := by
    intro text v read
    exact absurd (parseFirst_ok.mp read).1 firstText_last
  empty := first_alike.empty

theorem first_accepted : @verifyReader epochChrono firstSerde firstSha256 firstLine =
    .ok ⟨some "s",1,hexEncode firstHash.bytes,some 0,some 0,some .V1⟩ := by
  let _ := epochChrono
  let _ := firstSerde
  let _ := firstSha256
  have hashed : Sha256.digest firstLine = firstHash := firstLine_hashed
  have accepted : verifyLine walkStart firstLine = .ok ⟨Sha256.digest firstLine,1,some "s",some 0,some 0,some .V1⟩ :=
    verifyLine_accepts walkStart (.Object firstObject) .V1 "s" "1970-01-01T00:00:00.000000000Z" 0 (decode_encode _)
      (parseFirst_ok.mpr ⟨rfl,rfl⟩) (by decide) (.inl rfl) (by decide) (.inl rfl) (by decide) (by decide) (by decide) (by decide)
  rw [hashed] at accepted
  rw [verifyReader,rawLines_firstLine,verifyLines,List.foldlM_cons]
  rw [accepted]
  rfl

/-- The start of a session at the epoch, which is where the window ends. -/
theorem pack_totals_first :
    let _ := epochChrono
    let _ := firstSerde
    let _ := firstSha256
    ∃ entries pack,Holds (rawLines firstLine) entries ∧ buildPack ⟨none,some 0⟩ 0 (some firstLine) = .ok pack ∧
      Totals ⟨none,some 0⟩ entries pack :=
  @pack_totals epochChrono firstSerde firstSha256 first_spaced _ _ first_accepted ⟨none,some 0⟩ 0

end AegisNode.Evidence
