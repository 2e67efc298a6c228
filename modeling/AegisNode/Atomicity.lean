import AegisNode.WriterVerifier

/-!
Appends whose writes, flush or synchronization fail. What such an append leaves in
the buffer or on disk stands before the next line, so a failure is harmless only
where the file and the buffer took nothing of the line.
-/
namespace AegisNode.Atomicity
open Bytes Json Clock Ledger BufWriter WriterVerifier

/-! ### One line -/

/-- The operating system serves every call of an append of so long a line: a line that
    fits the buffer goes out with its line feed, a longer one before it. -/
def Served (answers : List Answer) (length : Nat) : Prop :=
  if length < capacity then ((through (length+1) answers).bind synced).isSome
  else (((through length answers).bind (through 1)).bind synced).isSome

/-- The line goes past the buffer, and its first write is an error. -/
def Untouched (answers : List Answer) (length : Nat) : Prop := capacity ≤ length ∧ Refuses answers

/-- How an append ends: a flush, then a synchronization. -/
def finish (file : Writer) : Except IoError Unit × Writer :=
  match flush file with
  | (.error error,file) => (.error error,file)
  | (.ok (),file) => syncAll file

/-- A line that fits is written by the flush. -/
theorem persist_short {disk line : List UInt8} {answers : List Answer} (short : line.length < capacity) :
    persist ⟨disk,[],answers⟩ line = finish ⟨disk,line ++ [lineFeed],answers⟩ := by
  have first : writeAll ⟨disk,[],answers⟩ line = (.ok (),⟨disk,line,answers⟩) := by
    rw [writeAll,if_pos (by simpa using short)]
    rfl
  have second : writeAll ⟨disk,line,answers⟩ [lineFeed] = (.ok (),⟨disk,line ++ [lineFeed],answers⟩) := by
    rw [writeAll]
    split_ifs with fits full
    · rfl
    · rw [List.length_singleton] at full
      dsimp only at full
      omega
    · rfl
  rw [persist,first]
  dsimp only
  rw [second]
  rfl

/-- A longer line is written before its line feed. -/
theorem persist_long {disk line : List UInt8} {answers : List Answer} (long : capacity ≤ line.length) :
    persist ⟨disk,[],answers⟩ line =
      match writeThrough ⟨disk,[],answers⟩ line with
      | (.error error,file) => (.error error,file)
      | (.ok (),file) => finish ⟨file.disk,[lineFeed],file.answers⟩ := by
  have room : writeAll ⟨disk,[],answers⟩ line = writeThrough ⟨disk,[],answers⟩ line ∨ capacity < line.length := by
    rcases Nat.lt_or_ge capacity line.length with more | less
    · exact .inr more
    · left
      rw [writeAll,if_neg (by simp only [List.length_nil]; omega),if_neg (by simp only [List.length_nil]; omega),store,
        if_pos long]
  have first : writeAll ⟨disk,[],answers⟩ line = writeThrough ⟨disk,[],answers⟩ line := by
    rcases room with same | more
    · exact same
    · have idle : flush ⟨disk,[],answers⟩ = (.ok (),⟨disk,[],answers⟩) := by
        have none : through ([] : List UInt8).length answers = some answers := by cases answers <;> rfl
        rw [flush,put_through none,List.append_nil]
        rfl
      rw [writeAll,if_neg (by simp only [List.length_nil]; omega),if_pos (by simpa using more),idle]
      dsimp only
      rw [store,if_pos long]
  have second : ∀ file : Writer,file.buffer = [] →
      writeAll file [lineFeed] = (.ok (),⟨file.disk,[lineFeed],file.answers⟩) := by
    rintro ⟨disk,_,answers⟩ rfl
    rw [writeAll,if_pos (by simp [capacity])]
    rfl
  rw [persist,first,writeThrough]
  dsimp only
  cases (put disk line answers).error with
  | some error => rfl
  | none =>
    simp only [outcome]
    rw [second _ rfl]
    rfl

/-- With every call served the file holds what was in the buffer. -/
theorem finish_served {disk buffer : List UInt8} {answers left : List Answer}
    (served : (through buffer.length answers).bind synced = some left) :
    finish ⟨disk,buffer,answers⟩ = (.ok (),⟨disk ++ buffer,[],left⟩) := by
  obtain ⟨flushed,wrote,done⟩ := Option.bind_eq_some_iff.mp served
  rw [finish,flush,put_through wrote]
  exact syncAll_synced done

/-- Where one of the calls fails, the file still comes to hold what was in the buffer. -/
theorem finish_failed (disk : List UInt8) {buffer : List UInt8} {answers : List Answer}
    (failed : (through buffer.length answers).bind synced = none) :
    ∃ error file,finish ⟨disk,buffer,answers⟩ = (.error error,file) ∧ contents file = disk ++ buffer := by
  cases wrote : through buffer.length answers with
  | none =>
    obtain ⟨error,blocked⟩ := put_blocked disk wrote
    obtain ⟨taken,onDisk,whole⟩ := put_splits disk buffer answers
    refine ⟨error,⟨_,_,_⟩,by rw [finish,flush,blocked,outcome],?_⟩
    rw [contents,onDisk,List.append_assoc,← whole]
  | some left =>
    rw [wrote,Option.bind_some] at failed
    obtain ⟨error,rest,stopped⟩ := syncAll_failed (w := ⟨disk ++ buffer,[],left⟩) failed
    refine ⟨error,⟨disk ++ buffer,[],rest⟩,?_,?_⟩
    · rw [finish,flush,put_through wrote]
      exact stopped
    · rw [contents,List.append_nil]

theorem persist_served (disk : List UInt8) {line : List UInt8} {answers : List Answer} (served : Served answers line.length) :
    ∃ left,persist ⟨disk,[],answers⟩ line = (.ok (),⟨disk ++ line ++ [lineFeed],[],left⟩) := by
  rw [Served] at served
  split_ifs at served with short
  · obtain ⟨left,done⟩ := Option.isSome_iff_exists.mp served
    refine ⟨left,?_⟩
    rw [persist_short short,finish_served (by simpa using done),List.append_assoc]
  · obtain ⟨left,done⟩ := Option.isSome_iff_exists.mp served
    rw [Option.bind_assoc] at done
    obtain ⟨passed,first,second⟩ := Option.bind_eq_some_iff.mp done
    refine ⟨left,?_⟩
    rw [persist_long (not_lt.mp short),writeThrough,put_through first]
    exact finish_served second

/-- A line that is not served ends in an error; the file comes to hold nothing of it if
    it was left untouched, and some of it otherwise. -/
theorem persist_failed (disk : List UInt8) {line : List UInt8} {answers : List Answer} (failed : ¬ Served answers line.length) :
    ∃ error file,persist ⟨disk,[],answers⟩ line = (.error error,file) ∧
      (Untouched answers line.length → file.disk = disk ∧ file.buffer = []) ∧
      (¬ Untouched answers line.length → contents file ≠ disk) := by
  rw [Served] at failed
  split_ifs at failed with short
  · have stuck : (through (line ++ [lineFeed]).length answers).bind synced = none := by
      rw [List.length_append]
      simpa using failed
    obtain ⟨error,file,stopped,holds⟩ := finish_failed disk stuck
    refine ⟨error,file,(persist_short short).trans stopped,?_,?_⟩
    · intro untouched
      exact absurd short (not_lt.mpr untouched.1)
    · intro _ same
      rw [holds] at same
      simp at same
  · have long := not_lt.mp short
    have some : line ≠ [] := by
      rintro rfl
      exact absurd long (by decide)
    cases wrote : through line.length answers with
    | none =>
      obtain ⟨error,blocked⟩ := put_blocked disk wrote
      refine ⟨error,⟨(put disk line answers).disk,[],(put disk line answers).answers⟩,?_,?_,?_⟩
      · rw [persist_long long,writeThrough,blocked,outcome]
      · intro untouched
        exact ⟨(put_refused disk some).mpr untouched.2,rfl⟩
      · intro touched same
        rw [contents,List.append_nil] at same
        exact touched ⟨long,(put_refused disk some).mp same⟩
    | some left =>
      rw [wrote,Option.bind_some] at failed
      have stuck : (through [lineFeed].length left).bind synced = none := by simpa using failed
      obtain ⟨error,file,stopped,holds⟩ := finish_failed (disk ++ line) stuck
      have notDisk : contents file ≠ disk := by
        rw [holds]
        simp
      refine ⟨error,file,?_,?_,fun _ => notDisk⟩
      · rw [persist_long long,writeThrough,put_through wrote]
        exact stopped
      · intro untouched
        have refused := (put_refused disk some).mpr untouched.2
        rw [put_through wrote] at refused
        exact absurd refused (by simpa using some)

theorem unserved_of_untouched {answers : List Answer} {length : Nat} (untouched : Untouched answers length) :
    ¬ Served answers length := by
  obtain ⟨long,answer,first,refused⟩ := untouched
  have some : length ≠ 0 := by
    have room : 0 < capacity := by decide
    omega
  have blocked : through length answers = none := by
    cases answers with
    | nil => cases first
    | cons head rest =>
      obtain rfl : head = answer := Option.some.inj first
      cases head with
      | Failed code => rw [through,if_neg some]
      | Wrote n =>
        rw [through,if_neg some,if_pos]
        exact Nat.eq_zero_of_not_pos refused
  rw [Served,if_neg (not_lt.mpr long),blocked]
  exact Bool.false_ne_true

/-! ### One append -/

/-- An entry that the writer turns down before it writes. -/
def Rejected (w : LedgerWriter) (entry : Entry) : Prop :=
  entry.sessionId ≠ w.sessionId ∨ ∃ field ∈ entry.payload.fields,field.1 ∈ reservedKeys

/-- The chain stands where it stood, and the file comes to hold what it would have. -/
structure Unchanged (w w' : LedgerWriter) : Prop where
  sequence : w'.nextSequence = w.nextSequence
  head : w'.prevHash = w.prevHash
  session : w'.sessionId = w.sessionId
  version : w'.schemaVersion = w.schemaVersion
  contents : contents w'.file = contents w.file

/-- The writer over a file without faults to come. -/
def quiet (w : LedgerWriter) : LedgerWriter := { w with file := ⟨w.file.disk,w.file.buffer,[]⟩ }

section
variable [Chrono] [Serde] [Sha256]

/-- The entry is turned down, or every call is served, or the file and the buffer take
    nothing. -/
def Whole (w : LedgerWriter) (entry : Entry) : Prop :=
  Rejected w entry ∨ Served w.file.answers (entryLine w entry).length ∨ Untouched w.file.answers (entryLine w entry).length

theorem append_rejected {w : LedgerWriter} {entry : Entry} (rejected : Rejected w entry) :
    ∃ error,append w entry = (.ok (.error error),w) := by
  by_cases foreign : entry.sessionId ≠ w.sessionId
  · exact ⟨_,by rw [append,if_pos foreign]⟩
  obtain ⟨field,member,reserved⟩ := rejected.resolve_left foreign
  cases conflict : entry.payload.fields.find? (fun field => reservedKeys.contains field.1) with
  | some found => exact ⟨_,by rw [append,if_neg foreign,conflict]⟩
  | none => exact absurd (List.find?_eq_none.mp conflict field member) (by simpa using reserved)

/-- An entry that is not turned down goes to the file. -/
theorem append_accepted {w : LedgerWriter} {entry : Entry} (accepted : ¬ Rejected w entry) :
    append w entry = match persist w.file (entryLine w entry) with
      | (.error error,file) => (.ok (.error (.Io error)),{ w with drawn := w.drawn+1,file := file })
      | (.ok (),file) =>
        if w.nextSequence.toNat+1 = 2^64 then (.error .SequenceOverflow,
          { w with drawn := w.drawn+1,file := file,prevHash := Sha256.digest (entryLine w entry) })
        else (.ok (.ok ⟨w.uuidGenerator w.drawn,w.nextSequence,Sha256.digest (entryLine w entry)⟩),
          { w with drawn := w.drawn+1,file := file,prevHash := Sha256.digest (entryLine w entry),
                   nextSequence := w.nextSequence+1 }) := by
  have own : ¬ entry.sessionId ≠ w.sessionId := fun foreign => accepted (.inl foreign)
  have conflict : entry.payload.fields.find? (fun field => reservedKeys.contains field.1) = none := by
    rw [List.find?_eq_none]
    intro field member reserved
    exact accepted (.inr ⟨field,member,by simpa using reserved⟩)
  rw [append,if_neg own,conflict] <;> rfl

theorem append_served {w : LedgerWriter} {entry : Entry} (accepted : ¬ Rejected w entry) (flushed : w.file.buffer = [])
    (few : w.nextSequence.toNat+1 < 2^64) (served : Served w.file.answers (entryLine w entry).length) :
    ∃ left,append w entry = (.ok (.ok ⟨w.uuidGenerator w.drawn,w.nextSequence,Sha256.digest (entryLine w entry)⟩),
      { w with
        file := ⟨w.file.disk ++ entryLine w entry ++ [lineFeed],[],left⟩
        drawn := w.drawn+1
        prevHash := Sha256.digest (entryLine w entry)
        nextSequence := w.nextSequence+1 }) := by
  have file : w.file = ⟨w.file.disk,[],w.file.answers⟩ := by rw [← flushed]
  obtain ⟨left,persisted⟩ := persist_served w.file.disk served
  rw [← file] at persisted
  refine ⟨left,?_⟩
  rw [append_accepted accepted,persisted]
  dsimp only
  rw [if_neg few.ne]

/-- An append that is not served fails; what the file comes to hold tells whether it was
    left untouched. -/
theorem append_unserved {w : LedgerWriter} {entry : Entry} (accepted : ¬ Rejected w entry) (flushed : w.file.buffer = [])
    (unserved : ¬ Served w.file.answers (entryLine w entry).length) :
    ∃ error file,append w entry = (.ok (.error (.Io error)),{ w with drawn := w.drawn+1,file := file }) ∧
      (Untouched w.file.answers (entryLine w entry).length → file.disk = w.file.disk ∧ file.buffer = []) ∧
      (¬ Untouched w.file.answers (entryLine w entry).length → contents file ≠ contents w.file) := by
  have file : w.file = ⟨w.file.disk,[],w.file.answers⟩ := by rw [← flushed]
  have holds : contents w.file = w.file.disk := by rw [contents,flushed,List.append_nil]
  obtain ⟨error,left,persisted,kept,torn⟩ := persist_failed w.file.disk unserved
  rw [← file] at persisted
  refine ⟨error,left,?_,kept,?_⟩
  · rw [append_accepted accepted,persisted]
  · rw [holds]
    exact torn

/-- The verifier follows the writer as far as it wrote. -/
abbrev Stands (w : LedgerWriter) (lines : List (List UInt8)) (walk : Walk) : Prop := InStep (quiet w) lines walk

theorem stands_of_inStep {w : LedgerWriter} {lines : List (List UInt8)} {walk : Walk} (inStep : InStep w lines walk) :
    Stands w lines walk :=
  ⟨inStep.accepted,inStep.whole,inStep.written,inStep.flushed,by simp [quiet,Healthy],inStep.head,inStep.sequence,
    inStep.session,inStep.version⟩

/-- A served append is followed by the verifier: without faults to come the writer writes
    the same. -/
theorem stands_served (faithful : Faithful ‹Serde›) {w : LedgerWriter} {lines : List (List UInt8)} {walk : Walk}
    (stands : Stands w lines walk) {entry : Entry} (readable : Readable entry) (few : w.nextSequence.toNat+1 < 2^64)
    (accepted : ¬ Rejected w entry) (served : Served w.file.answers (entryLine w entry).length) :
    succeeded (append w entry).1 ∧ (append w entry).2.nextSequence = w.nextSequence+1 ∧
      ∃ lines' walk',Stands (append w entry).2 lines' walk' := by
  have clean : Served (quiet w).file.answers (entryLine (quiet w) entry).length := by
    rw [Served]
    split_ifs <;> simp [quiet,through,synced]
  obtain ⟨left,appended⟩ := append_served accepted stands.flushed few served
  obtain ⟨_,alike⟩ := append_served (w := quiet w) accepted stands.flushed few clean
  rw [appended]
  refine ⟨rfl,rfl,?_⟩
  rcases append_inStep faithful stands readable few with ⟨error,failed⟩ | ⟨record,w',lines',walk',done,inStep,-⟩
  · rw [alike] at failed
    cases failed
  · rw [alike] at done
    cases done
    have quieted := stands_of_inStep inStep
    exact ⟨lines',walk',quieted⟩

/-- A whole append is followed by the verifier if it succeeds, and changes nothing if it
    fails. -/
theorem append_whole (faithful : Faithful ‹Serde›) {w : LedgerWriter} {lines : List (List UInt8)} {walk : Walk}
    (stands : Stands w lines walk) {entry : Entry} (readable : Readable entry) (few : w.nextSequence.toNat+1 < 2^64)
    (whole : Whole w entry) :
    (succeeded (append w entry).1 = false ∧ Unchanged w (append w entry).2 ∧ Stands (append w entry).2 lines walk) ∨
    succeeded (append w entry).1 ∧ (append w entry).2.nextSequence = w.nextSequence+1 ∧
      ∃ lines' walk',Stands (append w entry).2 lines' walk' := by
  by_cases rejected : Rejected w entry
  · obtain ⟨error,same⟩ := append_rejected rejected
    rw [same]
    exact .inl ⟨rfl,⟨rfl,rfl,rfl,rfl,rfl⟩,stands⟩
  rcases whole.resolve_left rejected with served | untouched
  · exact .inr (stands_served faithful stands readable few rejected served)
  · left
    obtain ⟨error,file,failed,kept,-⟩ := append_unserved rejected stands.flushed (unserved_of_untouched untouched)
    obtain ⟨disk,buffer⟩ := kept untouched
    have flushed : w.file.buffer = [] := stands.flushed
    rw [failed]
    refine ⟨rfl,⟨rfl,rfl,rfl,rfl,?_⟩,?_⟩
    · rw [contents,contents,disk,buffer,flushed]
    · exact ⟨stands.accepted,stands.whole,disk.trans stands.written,buffer,by simp [quiet,Healthy],stands.head,
        stands.sequence,stands.session,stands.version⟩

/-- An append that is not whole fails and changes what the file comes to hold. -/
theorem append_torn {w : LedgerWriter} {entry : Entry} (flushed : w.file.buffer = []) (torn : ¬ Whole w entry) :
    succeeded (append w entry).1 = false ∧ ¬ Unchanged w (append w entry).2 := by
  have accepted : ¬ Rejected w entry := fun rejected => torn (.inl rejected)
  have unserved := fun served => torn (.inr (.inl served))
  obtain ⟨error,file,failed,-,changed⟩ := append_unserved accepted flushed unserved
  rw [failed]
  refine ⟨rfl,?_⟩
  intro unchanged
  exact changed (fun untouched => torn (.inr (.inr untouched))) unchanged.contents

/-! ### Runs -/

/-- Whatever was appended before, a successful append leaves a file that the verifier
    accepts with as many entries as appends succeeded, and a failed one leaves the
    writer and the file as if it had not been called. -/
def Atomic (start : LedgerWriter) (entries : List Entry) : Prop :=
  ∀ before entry after,entries = before ++ entry :: after →
    let reached := appendAll start before
    let out := append reached.2 entry
    (succeeded out.1 → ∃ summary,verifyReader out.2.file.disk = .ok summary ∧
      summary.entryCount.toNat = (reached.1 ++ [out.1]).countP succeeded) ∧
    (succeeded out.1 = false → Unchanged reached.2 out.2)

/-- Every append of the run is whole where it stands. -/
def AllWhole (start : LedgerWriter) (entries : List Entry) : Prop :=
  ∀ before entry after,entries = before ++ entry :: after → Whole (appendAll start before).2 entry

theorem appendAll_concat (w : LedgerWriter) (before : List Entry) (entry : Entry) :
    appendAll w (before ++ [entry]) =
      ((appendAll w before).1 ++ [(append (appendAll w before).2 entry).1],(append (appendAll w before).2 entry).2) := by
  induction before generalizing w with
  | nil => rfl
  | cons first rest ih => simp only [List.cons_append,appendAll,ih]

/-- After whole appends the verifier stands where the writer stands, with their count. -/
theorem stands_appendAll (faithful : Faithful ‹Serde›) (sessionId : String) (uuidGenerator : Nat → Uuid)
    (version : LedgerSchemaVersion) (answers : List Answer) {entries : List Entry}
    (readable : ∀ entry ∈ entries,Readable entry) (few : entries.length < 2^64)
    (whole : AllWhole (create sessionId uuidGenerator version answers) entries) :
    let reached := appendAll (create sessionId uuidGenerator version answers) entries
    reached.2.nextSequence.toNat = reached.1.countP succeeded ∧ reached.1.countP succeeded ≤ entries.length ∧
      ∃ lines walk,Stands reached.2 lines walk := by
  induction entries using List.reverseRecOn with
  | nil =>
    refine ⟨rfl,le_rfl,[],walkStart,?_⟩
    have healthy : ∀ answer ∈ ([] : List Answer),answer.Succeeds := by simp
    exact create_inStep sessionId uuidGenerator version healthy
  | append_singleton before entry ih =>
    rw [List.length_append,List.length_singleton] at few
    obtain ⟨counted,bounded,lines,walk,stands⟩ := ih (fun other member => readable other (List.mem_append_left _ member))
      (by omega) (fun early other late split => whole early other (late ++ [entry]) (by rw [split]; simp))
    have last := append_whole faithful stands (readable entry (by simp)) (by omega) (whole before entry [] rfl)
    rw [appendAll_concat]
    simp only [List.countP_append,List.countP_singleton,List.length_append,List.length_singleton]
    rcases last with ⟨failed,unchanged,stands'⟩ | ⟨done,next,lines',walk',stands'⟩
    · rw [failed,unchanged.sequence]
      exact ⟨counted,by simp; omega,lines,walk,stands'⟩
    · rw [done,next,UInt64.toNat_add,counted]
      refine ⟨?_,by simpa using bounded,lines',walk',stands'⟩
      have one : (1 : UInt64).toNat = 1 := rfl
      rw [one,Nat.mod_eq_of_lt (by omega),if_pos rfl]

/-- Whole appends leave the buffer empty. -/
theorem flushed_append {w : LedgerWriter} {entry : Entry} (flushed : w.file.buffer = []) (whole : Whole w entry) :
    (append w entry).2.file.buffer = [] := by
  by_cases rejected : Rejected w entry
  · obtain ⟨error,same⟩ := append_rejected rejected
    rw [same]
    exact flushed
  rcases whole.resolve_left rejected with served | untouched
  · have file : w.file = ⟨w.file.disk,[],w.file.answers⟩ := by rw [← flushed]
    obtain ⟨left,persisted⟩ := persist_served w.file.disk served
    rw [← file] at persisted
    rw [append_accepted rejected,persisted]
    dsimp only
    split_ifs <;> rfl
  · obtain ⟨error,file,failed,kept,-⟩ := append_unserved rejected flushed (unserved_of_untouched untouched)
    rw [failed]
    exact (kept untouched).2

theorem flushed_appendAll {w : LedgerWriter} {entries : List Entry} (flushed : w.file.buffer = [])
    (whole : AllWhole w entries) : (appendAll w entries).2.file.buffer = [] := by
  induction entries using List.reverseRecOn with
  | nil => exact flushed
  | append_singleton before entry ih =>
    have earlier := ih (fun early other late split => whole early other (late ++ [entry]) (by rw [split]; simp))
    rw [appendAll_concat]
    exact flushed_append earlier (whole before entry [] rfl)

/-- A run whose appends are atomic has none that is torn: the first one would change what
    the file comes to hold. -/
theorem allWhole_of_atomic {w : LedgerWriter} {entries : List Entry} (flushed : w.file.buffer = [])
    (atomic : Atomic w entries) : AllWhole w entries := by
  intro before
  induction size : before.length using Nat.strong_induction_on generalizing before with
  | _ size ih =>
    intro entry after split
    have earlier : AllWhole w before := by
      intro early other late inner
      refine ih early.length ?_ early rfl other (late ++ entry :: after) ?_
      · rw [← size,inner,List.length_append,List.length_cons]
        omega
      · rw [split,inner,List.append_assoc,List.cons_append]
    by_contra torn
    obtain ⟨failed,changed⟩ := append_torn (flushed_appendAll flushed earlier) torn
    exact changed ((atomic before entry after split).2 failed)

/-- Appends are atomic in a run if each of them is whole: its entry is turned down, the
    operating system serves all of its calls, or the line is as long as the buffer and
    its first write is an error. In no other run are they. -/
theorem append_atomic (faithful : Faithful ‹Serde›) (sessionId : String) (uuidGenerator : Nat → Uuid)
    (version : LedgerSchemaVersion) (answers : List Answer) {entries : List Entry} (few : entries.length < 2^64) :
    let start := create sessionId uuidGenerator version answers
    (AllWhole start entries → (∀ entry ∈ entries,Readable entry) → Atomic start entries) ∧
      (Atomic start entries → AllWhole start entries) := by
  intro start
  refine ⟨?_,allWhole_of_atomic rfl⟩
  intro whole readable before entry after split reached out
  have size := congrArg List.length split
  rw [List.length_append,List.length_cons] at size
  have earlier : AllWhole start before := by
    intro early other late inner
    exact whole early other (late ++ entry :: after) (by rw [split,inner,List.append_assoc,List.cons_append])
  obtain ⟨counted,bounded,lines,walk,stands⟩ := stands_appendAll faithful sessionId uuidGenerator version answers
    (fun other member => readable other (by rw [split]; exact List.mem_append_left _ member)) (by omega) earlier
  have next : reached.2.nextSequence.toNat+1 < 2^64 := by
    rw [counted]
    omega
  rcases append_whole faithful stands (readable entry (by rw [split]; simp)) next (whole before entry after split) with
    ⟨failed,unchanged,-⟩ | ⟨done,advanced,lines',walk',stands'⟩
  · exact ⟨fun done => absurd done (by rw [failed]; exact Bool.false_ne_true),fun _ => unchanged⟩
  · refine ⟨fun _ => ⟨summary walk',?_,?_⟩,fun failed => absurd done (by rw [failed]; exact Bool.false_ne_true)⟩
    · have disk : out.2.file.disk = terminated lines' := stands'.written
      rw [disk,verifyReader,rawLines_terminated stands'.whole,stands'.accepted]
      rfl
    · have sequence : walk'.nextSeq = out.2.nextSequence := stands'.sequence
      have one : (1 : UInt64).toNat = 1 := rfl
      rw [summary,sequence,advanced,UInt64.toNat_add,one,Nat.mod_eq_of_lt next,counted,List.countP_append,
        List.countP_singleton,if_pos done]

end

theorem ordered_nil : fieldsOrdered [] := rfl

def startEntry : Entry := ⟨"s",.SessionStart,genesisPrevHash,0,⟨[],ordered_nil⟩⟩

/-- The appends of a run whose calls are all served are atomic. -/
theorem append_atomic_served : @Atomic epochChrono JsonText.serde (TamperEvidence.tableSha256 [])
    (create "s" (fun _ => nilUuid) .V1 []) [startEntry] := by
  let _ := epochChrono
  let _ := JsonText.serde
  let _ := TamperEvidence.tableSha256 []
  have readable : ∀ entry ∈ [startEntry],Readable entry := by
    intro entry member
    obtain rfl := List.mem_singleton.mp member
    exact ⟨by decide,by decide⟩
  refine (append_atomic JsonText.serde_faithful "s" (fun _ => nilUuid) .V1 [] (by decide)).1 ?_ readable
  intro before entry after split
  have first : before = [] := by
    cases before with
    | nil => rfl
    | cons other rest =>
      have size := congrArg List.length split
      simp at size
  subst first
  right
  left
  rw [Served]
  split_ifs <;> rfl

/-! ### A failed synchronization -/

/-- All bytes go out at once, and the call after that fails: the synchronization, or for a
    line as long as the buffer the write of the line feed. -/
theorem persist_unsynced (disk line : List UInt8) (code : Nat) :
    ∃ file,persist ⟨disk,[],[.Wrote (line.length+1),.Failed code]⟩ line = (.error (.Os code),file) ∧
      contents file = disk ++ line ++ [lineFeed] ∧ file.answers = [] := by
  rcases Nat.lt_or_ge line.length capacity with short | long
  · have all : through (line ++ [lineFeed]).length [.Wrote (line.length+1),.Failed code] = some [.Failed code] := by
      simp [through]
    refine ⟨⟨disk ++ (line ++ [lineFeed]),[],[]⟩,?_,?_,rfl⟩
    · rw [persist_short short,finish,flush,put_through all]
      rfl
    · rw [contents,List.append_nil,List.append_assoc]
  · have all : through line.length [.Wrote (line.length+1),.Failed code] = some [.Failed code] := by
      cases line with
      | nil => exact absurd long (by decide)
      | cons byte rest => simp [through]
    refine ⟨⟨disk ++ line,[lineFeed],[]⟩,?_,rfl,rfl⟩
    rw [persist_long long,writeThrough,put_through all]
    rfl

section
variable [Chrono] [Serde] [Sha256]

/-- No line can follow itself, except one whose hash is that of the genesis. -/
theorem doubled_rejected {line : List UInt8} (single : lineFeed ∉ line) (fresh : Sha256.digest line ≠ genesisPrevHash) :
    ¬ ∃ summary,verifyReader (terminated [line,line]) = .ok summary := by
  rintro ⟨summary,accepted⟩
  obtain ⟨chained,-⟩ := TamperEvidence.verifyReader_chained accepted
  rw [rawLines_terminated (by simpa using single)] at chained
  obtain ⟨first,second,-⟩ := chained
  rw [first,Option.some.injEq,TamperEvidence.lineHash] at second
  exact fresh (TamperEvidence.digest_of_bytes second.symm)

/-- An entry appended again after an append that was not synchronized stands in the file
    twice. -/
theorem retry_doubled {w : LedgerWriter} {entry : Entry} {code : Nat} (accepted : ¬ Rejected w entry)
    (file : w.file = ⟨[],[],[.Wrote ((entryLine w entry).length+1),.Failed code]⟩)
    (sameUuid : w.uuidGenerator (w.drawn+1) = w.uuidGenerator w.drawn) (few : w.nextSequence.toNat+1 < 2^64) :
    succeeded (append w entry).1 = false ∧ succeeded (append (append w entry).2 entry).1 ∧
      (append (append w entry).2 entry).2.file.disk = terminated [entryLine w entry,entryLine w entry] := by
  obtain ⟨left,persisted,holds,answers⟩ := persist_unsynced [] (entryLine w entry) code
  have failed : append w entry = (.ok (.error (.Io (.Os code))),{ w with drawn := w.drawn+1,file := left }) := by
    rw [append_accepted accepted,file,persisted]
  have own : entry.sessionId = w.sessionId := not_not.mp (fun foreign => accepted (.inl foreign))
  have free : ∀ field ∈ entry.payload.fields,field.1 ∉ reservedKeys :=
    fun field member reserved => accepted (.inr ⟨field,member,reserved⟩)
  rw [failed]
  have healthy : BufWriter.Healthy left := by simp [BufWriter.Healthy,answers]
  obtain ⟨_,appended,-⟩ := append_healthy (w := { w with drawn := w.drawn+1,file := left }) healthy own free few
  have line : entryLine { w with drawn := w.drawn+1,file := left } entry = entryLine w entry := by
    simp only [entryLine,entryObject,chainFields,sameUuid]
  rw [appended,line]
  refine ⟨rfl,rfl,?_⟩
  dsimp only
  rw [holds]
  simp [terminated]

omit [Sha256] in
theorem entryLine_create {sessionId : String} {uuidGenerator : Nat → Uuid} {version : LedgerSchemaVersion}
    {answers : List Answer} {entry : Entry} : entryLine (create sessionId uuidGenerator version answers) entry =
      entryLine (create sessionId uuidGenerator version []) entry := rfl

end

/-- A writer whose first line goes out and is not synchronized. -/
def unsynced : LedgerWriter :=
  create "s" (fun _ => nilUuid) .V1
    [.Wrote ((@entryLine epochChrono JsonText.serde (create "s" (fun _ => nilUuid) .V1 []) startEntry).length+1),.Failed 5]

/-- The entry is appended again after its first attempt failed: the second append succeeds
    and the verifier rejects the file. -/
theorem retry_unverified :
    let _ := epochChrono
    let _ := JsonText.serde
    let _ := TamperEvidence.tableSha256 []
    let reached := (append unsynced startEntry).2
    succeeded (append unsynced startEntry).1 = false ∧ succeeded (append reached startEntry).1 ∧
      ¬ ∃ summary,verifyReader (append reached startEntry).2.file.disk = .ok summary := by
  intro _ _ _ reached
  have accepted : ¬ Rejected unsynced startEntry := by
    rintro (foreign | ⟨field,member,-⟩)
    · exact foreign rfl
    · cases member
  have file : unsynced.file = ⟨[],[],[.Wrote ((entryLine unsynced startEntry).length+1),.Failed 5]⟩ := by
    rw [unsynced,entryLine_create]
    rfl
  obtain ⟨failed,done,disk⟩ := retry_doubled accepted file rfl (by decide)
  refine ⟨failed,done,?_⟩
  rw [disk]
  apply doubled_rejected
  · rw [entryLine,lineFeed_mem_encode]
    exact JsonText.serde_faithful.oneLine _
  · intro same
    have bytes := congrArg Digest.bytes same
    exact absurd bytes (by decide)

end AegisNode.Atomicity
