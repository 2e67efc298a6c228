import Mathlib.Tactic

/-!
`std::io::BufWriter` over a file whose writes may be short or fail. The answers
of the operating system stand in a script; when it is used up, every call does
all it is asked to.
-/
namespace AegisNode

inductive IoError where
  | WriteZero
  | Os (code : Nat)
  deriving DecidableEq,Repr

namespace BufWriter

/-- What one call to the operating system does. A synchronization that does not
    fail succeeds. -/
inductive Answer where
  | Wrote (n : Nat)
  | Failed (code : Nat)
  deriving DecidableEq,Repr

/-- Writes at least one byte. -/
def Answer.Succeeds : Answer → Prop
  | .Wrote n => 0 < n
  | .Failed _ => False

/-- The bytes on disk, those still in the buffer, and the answers to come. -/
structure Writer where
  disk : List UInt8
  buffer : List UInt8
  answers : List Answer
  deriving DecidableEq,Repr

/-- `DEFAULT_BUF_SIZE`. -/
def capacity : Nat := 8192

/-- How far a loop of `write` calls came: its error, the disk, the bytes it did
    not write and the answers it left. -/
structure Written where
  error : Option IoError
  disk : List UInt8
  rest : List UInt8
  answers : List Answer

/-- Calls `write` until nothing remains; a write of no bytes is an error. -/
def put (disk bytes : List UInt8) : List Answer → Written
  | [] => ⟨none,disk ++ bytes,[],[]⟩
  | answer :: answers =>
    if bytes = [] then ⟨none,disk,[],answer :: answers⟩
    else match answer with
      | .Failed code => ⟨some (.Os code),disk,bytes,answers⟩
      | .Wrote n =>
        if n = 0 then ⟨some .WriteZero,disk,bytes,answers⟩
        else put (disk ++ bytes.take n) (bytes.drop n) answers

def outcome : Option IoError → Except IoError Unit
  | none => .ok ()
  | some error => .error error

/-- `BufWriter::flush_buf` and `flush`: what was not written stays in the buffer. -/
def flush (w : Writer) : Except IoError Unit × Writer :=
  let out := put w.disk w.buffer w.answers
  (outcome out.error,⟨out.disk,out.rest,out.answers⟩)

/-- `File::write_all`: what was not written is lost to the writer. -/
def writeThrough (w : Writer) (bytes : List UInt8) : Except IoError Unit × Writer :=
  let out := put w.disk bytes w.answers
  (outcome out.error,⟨out.disk,w.buffer,out.answers⟩)

/-- What `write_all_cold` does once there is room. -/
def store (w : Writer) (bytes : List UInt8) : Except IoError Unit × Writer :=
  if capacity ≤ bytes.length then writeThrough w bytes else (.ok (),{ w with buffer := w.buffer ++ bytes })

/-- `BufWriter::write_all`. -/
def writeAll (w : Writer) (bytes : List UInt8) : Except IoError Unit × Writer :=
  if bytes.length < capacity-w.buffer.length then (.ok (),{ w with buffer := w.buffer ++ bytes })
  else if capacity-w.buffer.length < bytes.length then
    match flush w with
    | (.error error,w) => (.error error,w)
    | (.ok (),w) => store w bytes
  else store w bytes

/-- `File::sync_all`. -/
def syncAll (w : Writer) : Except IoError Unit × Writer :=
  match w.answers with
  | [] => (.ok (),w)
  | .Wrote _ :: answers => (.ok (),{ w with answers := answers })
  | .Failed code :: answers => (.error (.Os code),{ w with answers := answers })

/-! ### Writers without faults -/

/-- What the file holds once the buffer is flushed. -/
def contents (w : Writer) : List UInt8 := w.disk ++ w.buffer

def Healthy (w : Writer) : Prop := ∀ answer ∈ w.answers,answer.Succeeds

theorem put_healthy {answers : List Answer} (healthy : ∀ answer ∈ answers,answer.Succeeds) (disk bytes : List UInt8) :
    (put disk bytes answers).error = none ∧ (put disk bytes answers).disk = disk ++ bytes ∧
      (put disk bytes answers).rest = [] ∧ (∀ answer ∈ (put disk bytes answers).answers,answer.Succeeds) := by
  induction answers generalizing disk bytes with
  | nil => simp [put]
  | cons answer answers ih =>
    have first := healthy answer List.mem_cons_self
    have later := ih (fun other member => healthy other (List.mem_cons_of_mem _ member))
    cases answer with
    | Failed code => exact first.elim
    | Wrote n =>
      rw [put]
      split_ifs with empty zero
      · subst empty
        exact ⟨rfl,(List.append_nil disk).symm,rfl,healthy⟩
      · exact absurd first (by simp [zero,Answer.Succeeds])
      · have step := later (disk ++ bytes.take n) (bytes.drop n)
        rw [List.append_assoc,List.take_append_drop] at step
        exact step

theorem flush_healthy {w : Writer} (healthy : Healthy w) :
    ∃ answers,flush w = (.ok (),⟨contents w,[],answers⟩) ∧ ∀ answer ∈ answers,answer.Succeeds := by
  obtain ⟨error,disk,rest,answers⟩ := put_healthy healthy w.disk w.buffer
  refine ⟨_,?_,answers⟩
  rw [flush,error,disk,rest]
  rfl

theorem store_healthy {w : Writer} (healthy : Healthy w) (bytes : List UInt8) (empty : capacity ≤ bytes.length → w.buffer = []) :
    ∃ w',store w bytes = (.ok (),w') ∧ contents w' = contents w ++ bytes ∧ Healthy w' := by
  unfold store
  split_ifs with long
  · obtain ⟨error,disk,rest,answers⟩ := put_healthy healthy w.disk bytes
    refine ⟨⟨w.disk ++ bytes,w.buffer,_⟩,?_,?_,answers⟩
    · rw [writeThrough,error,disk]
      rfl
    · simp [contents,empty long]
  · refine ⟨_,rfl,?_,healthy⟩
    simp [contents]

theorem writeAll_healthy {w : Writer} (healthy : Healthy w) (bytes : List UInt8) :
    ∃ w',writeAll w bytes = (.ok (),w') ∧ contents w' = contents w ++ bytes ∧ Healthy w' := by
  unfold writeAll
  split_ifs with fits full
  · refine ⟨_,rfl,?_,healthy⟩
    simp [contents]
  · obtain ⟨answers,flushed,clean⟩ := flush_healthy healthy
    obtain ⟨w',stored,appended,kept⟩ := store_healthy (w := ⟨contents w,[],answers⟩) clean bytes (fun _ => rfl)
    refine ⟨w',?_,?_,kept⟩
    · rw [flushed]
      exact stored
    · rw [appended]
      simp [contents]
  · apply store_healthy healthy bytes
    intro long
    have room : 0 < capacity := by decide
    apply List.eq_nil_of_length_eq_zero
    omega

theorem syncAll_healthy (disk buffer : List UInt8) {answers : List Answer} (healthy : ∀ answer ∈ answers,answer.Succeeds) :
    ∃ left,syncAll ⟨disk,buffer,answers⟩ = (.ok (),⟨disk,buffer,left⟩) ∧ ∀ answer ∈ left,answer.Succeeds := by
  match answers with
  | [] => exact ⟨[],rfl,healthy⟩
  | .Wrote n :: answers =>
    exact ⟨answers,rfl,fun answer member => healthy answer (List.mem_cons_of_mem _ member)⟩
  | .Failed code :: answers => exact (healthy (.Failed code) List.mem_cons_self).elim

/-! ### Writers with faults -/

/-- The answers left after so many bytes went through, if no answer on the way is a
    failure or takes nothing. -/
def through : Nat → List Answer → Option (List Answer)
  | _,[] => some []
  | length,answer :: answers =>
    if length = 0 then some (answer :: answers)
    else match answer with
      | .Failed _ => none
      | .Wrote n => if n = 0 then none else through (length-n) answers

/-- The answers left after a synchronization, if it succeeds. -/
def synced : List Answer → Option (List Answer)
  | [] => some []
  | .Wrote _ :: answers => some answers
  | .Failed _ :: _ => none

/-- The next write is an error. -/
def Refuses (answers : List Answer) : Prop := ∃ answer ∈ answers.head?,¬ answer.Succeeds

/-- A loop of writes puts a first part of the bytes on disk. -/
theorem put_splits (disk bytes : List UInt8) (answers : List Answer) :
    ∃ taken,(put disk bytes answers).disk = disk ++ taken ∧ bytes = taken ++ (put disk bytes answers).rest := by
  induction answers generalizing disk bytes with
  | nil => exact ⟨bytes,rfl,(List.append_nil bytes).symm⟩
  | cons answer answers ih =>
    cases answer with
    | Failed code =>
      rw [put]
      split_ifs with empty
      · exact ⟨[],(List.append_nil disk).symm,empty⟩
      · exact ⟨[],(List.append_nil disk).symm,rfl⟩
    | Wrote n =>
      rw [put]
      split_ifs with empty zero
      · exact ⟨[],(List.append_nil disk).symm,empty⟩
      · exact ⟨[],(List.append_nil disk).symm,rfl⟩
      · obtain ⟨taken,onDisk,whole⟩ := ih (disk ++ bytes.take n) (bytes.drop n)
        refine ⟨bytes.take n ++ taken,?_,?_⟩
        · rw [onDisk,List.append_assoc]
        · rw [List.append_assoc,← whole,List.take_append_drop]

theorem put_through {disk bytes : List UInt8} {answers left : List Answer} (served : through bytes.length answers = some left) :
    put disk bytes answers = ⟨none,disk ++ bytes,[],left⟩ := by
  induction answers generalizing disk bytes with
  | nil =>
    cases served
    rfl
  | cons answer answers ih =>
    by_cases empty : bytes = []
    · subst empty
      cases served
      cases answer <;> simp [put]
    have long : bytes.length ≠ 0 := mt List.length_eq_zero_iff.mp empty
    cases answer with
    | Failed code =>
      rw [through,if_neg long] at served
      cases served
    | Wrote n =>
      rw [through,if_neg long] at served
      rw [put,if_neg empty]
      split_ifs at served ⊢ with zero
      rw [← List.length_drop] at served
      rw [ih served,List.append_assoc,List.take_append_drop]

/-- Where the answers do not let all bytes through, a loop of writes fails. -/
theorem put_blocked (disk : List UInt8) {bytes : List UInt8} {answers : List Answer} (blocked : through bytes.length answers = none) :
    ∃ error,(put disk bytes answers).error = some error := by
  induction answers generalizing disk bytes with
  | nil => cases blocked
  | cons answer answers ih =>
    have empty : bytes ≠ [] := by
      rintro rfl
      cases answer <;> simp [through] at blocked
    have long : bytes.length ≠ 0 := mt List.length_eq_zero_iff.mp empty
    cases answer with
    | Failed code =>
      rw [put,if_neg empty]
      exact ⟨_,rfl⟩
    | Wrote n =>
      rw [through,if_neg long] at blocked
      rw [put,if_neg empty]
      split_ifs at blocked ⊢ with zero
      · exact ⟨_,rfl⟩
      · rw [← List.length_drop] at blocked
        exact ih _ blocked

/-- A loop of writes leaves the disk alone if the first of them is an error. -/
theorem put_refused (disk : List UInt8) {bytes : List UInt8} {answers : List Answer} (some : bytes ≠ []) :
    (put disk bytes answers).disk = disk ↔ Refuses answers := by
  cases answers with
  | nil => simpa [put,Refuses] using some
  | cons answer answers =>
    cases answer with
    | Failed code =>
      rw [put,if_neg some]
      simp [Refuses,Answer.Succeeds]
    | Wrote n =>
      rw [put,if_neg some]
      split_ifs with zero
      · simp [Refuses,Answer.Succeeds,zero]
      · obtain ⟨taken,onDisk,-⟩ := put_splits (disk ++ bytes.take n) (bytes.drop n) answers
        rw [onDisk,List.append_assoc]
        simp [Refuses,Answer.Succeeds,Nat.pos_of_ne_zero zero,zero,some]

theorem syncAll_synced {w : Writer} {left : List Answer} (done : synced w.answers = some left) :
    syncAll w = (.ok (),⟨w.disk,w.buffer,left⟩) := by
  obtain ⟨disk,buffer,answers⟩ := w
  match answers with
  | [] =>
    cases done
    rfl
  | .Wrote _ :: answers =>
    cases done
    rfl

theorem syncAll_failed {w : Writer} (failed : synced w.answers = none) :
    ∃ error answers,syncAll w = (.error error,⟨w.disk,w.buffer,answers⟩) := by
  obtain ⟨disk,buffer,answers⟩ := w
  match answers with
  | .Failed code :: answers => exact ⟨.Os code,answers,rfl⟩

end BufWriter
end AegisNode
