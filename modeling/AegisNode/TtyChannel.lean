import AegisNode.Interleaving
import AegisNode.Engine

/-!
The TTY approval channel: each request leaves a reader of its own on the one standard
input, and a request that times out leaves its reader behind.
-/
namespace AegisNode.TtyChannel
open Engine Interleaving

/-- `str::to_lowercase`, by the tables of Unicode. -/
class Lowercase where
  toLowercase : String → String

def answerOf [Lowercase] (line : String) (utcNow : Int) : ApprovalOutcome :=
  let answer := Lowercase.toLowercase (trim line)
  if answer = "y" ∨ answer = "yes" then .Granted "tty:local-operator" utcNow
  else .Rejected ("operator declined (" ++ Text.rustDebug answer ++ ")") utcNow

/-- A line on the terminal, and the request that was outstanding when it was typed. -/
structure Typed where
  text : String
  during : Option Nat
  deriving DecidableEq,Repr

/-- Requests are numbered; reader `k` belongs to request `k`. -/
structure Tty where
  next : Nat
  outstanding : Option Nat
  unread : List Typed
  holder : Option Nat                        -- the reader that holds the lock of stdin
  waiting : List Nat                         -- the readers that wait for it
  sent : List (Nat × Typed)                  -- what each reader sent to its request
  answered : List (Nat × ApprovalOutcome)    -- what each request returned
  deriving DecidableEq,Repr

def initial : Tty := ⟨0,none,[],none,[],[],[]⟩

/-- What the session, the operator and the threads do, in the order in which it
    happens. -/
inductive Event where
  | Ask                      -- the next request is shown and its reader spawned
  | Enter (text : String)    -- the operator ends a line
  | Lock (reader : Nat)      -- a waiting reader gets the free lock
  | Read                     -- the holder reads a line, sends it and drops the lock
  | Receive (utcNow : Int)   -- the outstanding request receives its line
  | Expire (utcNow : Int)    -- the outstanding request times out
  deriving DecidableEq,Repr

section
variable [Lowercase]

/-- An event that cannot happen changes nothing. -/
def step (s : Tty) : Event → Tty
  | .Ask =>
    match s.outstanding with
    | none => { s with next := s.next+1,outstanding := some s.next,waiting := s.next :: s.waiting }
    | some _ => s
  | .Enter text => { s with unread := s.unread ++ [⟨text,s.outstanding⟩] }
  | .Lock reader =>
    if s.holder = none ∧ reader ∈ s.waiting then { s with holder := some reader,waiting := s.waiting.erase reader } else s
  | .Read =>
    match s.holder,s.unread with
    | some reader,line :: rest => { s with unread := rest,holder := none,sent := s.sent ++ [(reader,line)] }
    | _,_ => s
  | .Receive utcNow =>
    match s.outstanding with
    | none => s
    | some k =>
      match s.sent.find? (fun message => message.1 = k) with
      | some message => { s with outstanding := none,answered := s.answered ++ [(k,answerOf message.2.text utcNow)] }
      | none => s
  | .Expire utcNow =>
    match s.outstanding with
    | none => s
    | some k =>
      match s.sent.find? (fun message => message.1 = k) with
      | some _ => s
      | none => { s with outstanding := none,answered := s.answered ++ [(k,.TimedOut utcNow)] }

/-! ### Faithful terminals -/

/-- Each line that was typed for a request is still to be read by it, or has reached it
    and no other one: it is on its way to the request that waits for it, or is its answer. -/
structure Faithful (s : Tty) : Prop where
  unread : ∀ line ∈ s.unread,∀ k,line.during = some k → s.outstanding = some k
  reached : ∀ reader line,(reader,line) ∈ s.sent → ∀ k,line.during = some k →
    reader = k ∧ (s.outstanding = some k ∨ ∃ utcNow,(k,answerOf line.text utcNow) ∈ s.answered)

/-- The only reader on standard input is that of request `k`. -/
def Alone (s : Tty) (k : Nat) : Prop := (s.holder = some k ∧ s.waiting = []) ∨ (s.holder = none ∧ s.waiting = [k])

omit [Lowercase] in
/-- A line is typed for a request only while its reader is the only one and nothing is
    unread, and no request times out while a line typed for it is unread. -/
def Careful (s : Tty) : Event → Prop
  | .Enter _ => ∀ k,s.outstanding = some k → s.unread = [] ∧ Alone s k
  | .Expire _ => ∀ line ∈ s.unread,∀ k,line.during = some k → s.outstanding ≠ some k
  | _ => True

/-! ### Readers -/

/-- The readers that have not read yet, and those that have. -/
def readers (s : Tty) : List Nat := s.holder.toList ++ s.waiting ++ s.sent.map Prod.fst

/-- Each request has one reader, and each line is typed for a request that is shown. -/
structure Ordered (s : Tty) : Prop where
  once : (readers s).Nodup
  shown : ∀ reader ∈ readers s,reader < s.next

theorem ordered_step {s : Tty} (ordered : Ordered s) (event : Event) : Ordered (step s event) := by
  cases event with
  | Ask =>
    cases waits : s.outstanding with
    | some k => simpa only [step,waits] using ordered
    | none =>
      simp only [step,waits]
      have perm : (readers { s with next := s.next+1,outstanding := some s.next,waiting := s.next :: s.waiting }).Perm
          (s.next :: readers s) := by
        simp only [readers,List.append_assoc,List.cons_append]
        exact List.perm_middle
      have fresh : s.next ∉ readers s := fun member => lt_irrefl _ (ordered.shown s.next member)
      refine ⟨perm.nodup_iff.mpr (List.nodup_cons.mpr ⟨fresh,ordered.once⟩),?_⟩
      intro reader member
      rcases List.mem_cons.mp (perm.mem_iff.mp member) with rfl | member
      · exact Nat.lt_succ_self _
      · exact Nat.lt_succ_of_lt (ordered.shown reader member)
  | Enter text => exact ⟨ordered.once,ordered.shown⟩
  | Lock reader =>
    rw [step]
    split_ifs with free
    · obtain ⟨free,waits⟩ := free
      have perm : (readers { s with holder := some reader,waiting := s.waiting.erase reader }).Perm (readers s) := by
        simp only [readers,free,Option.toList_some,Option.toList_none,List.nil_append,List.singleton_append]
        exact (List.perm_cons_erase waits).symm.append_right _
      exact ⟨perm.nodup_iff.mpr ordered.once,fun r member => ordered.shown r (perm.mem_iff.mp member)⟩
    · exact ordered
  | Read =>
    cases held : s.holder with
    | none => simpa only [step,held] using ordered
    | some reader =>
      cases unread : s.unread with
      | nil => simpa only [step,held,unread] using ordered
      | cons line rest =>
        simp only [step,held,unread]
        have perm : (readers { s with unread := rest,holder := none,sent := s.sent ++ [(reader,line)] }).Perm (readers s) := by
          simp only [readers,held,Option.toList_some,Option.toList_none,List.nil_append,List.map_append,
            List.map_cons,List.map_nil,List.cons_append]
          rw [← List.append_assoc]
          exact List.perm_append_singleton _ _
        exact ⟨perm.nodup_iff.mpr ordered.once,fun r member => ordered.shown r (perm.mem_iff.mp member)⟩
  | Receive utcNow =>
    cases waits : s.outstanding with
    | none => simpa only [step,waits] using ordered
    | some k =>
      cases found : s.sent.find? (fun message => message.1 = k) <;> simp only [step,waits,found]
      · exact ⟨ordered.once,ordered.shown⟩
      · exact ⟨ordered.once,ordered.shown⟩
  | Expire utcNow =>
    cases waits : s.outstanding with
    | none => simpa only [step,waits] using ordered
    | some k =>
      cases found : s.sent.find? (fun message => message.1 = k) <;> simp only [step,waits,found]
      · exact ⟨ordered.once,ordered.shown⟩
      · exact ⟨ordered.once,ordered.shown⟩

omit [Lowercase] in
theorem Ordered.unsent {s : Tty} (ordered : Ordered s) {k : Nat} (alone : Alone s k) (line : Typed) : (k,line) ∉ s.sent := by
  intro sent
  have named : k ∈ s.sent.map Prod.fst := List.mem_map_of_mem sent
  have reads : k ∈ s.holder.toList ++ s.waiting := by
    rcases alone with ⟨holds,-⟩ | ⟨-,waits⟩
    · simp [holds]
    · simp [waits]
  exact List.disjoint_of_nodup_append ordered.once reads named

omit [Lowercase] in
theorem Ordered.sends_once {s : Tty} (ordered : Ordered s) {k : Nat} {line other : Typed} (one : (k,line) ∈ s.sent)
    (two : (k,other) ∈ s.sent) : line = other := by
  have distinct : (s.sent.map Prod.fst).Nodup := (List.nodup_append.mp ordered.once).2.1
  exact congrArg Prod.snd (List.inj_on_of_nodup_map distinct one two rfl)

/-! ### Runs -/

/-- What careful events keep: a line typed for a request is the only unread one and waits
    for the only reader. -/
structure Served (s : Tty) : Prop where
  ordered : Ordered s
  typed : ∀ line ∈ s.unread,∀ k,line.during = some k → s.outstanding = some k ∧ s.unread = [line] ∧ Alone s k
  reached : ∀ reader line,(reader,line) ∈ s.sent → ∀ k,line.during = some k →
    reader = k ∧ (s.outstanding = some k ∨ ∃ utcNow,(k,answerOf line.text utcNow) ∈ s.answered)

theorem Served.faithful {s : Tty} (served : Served s) : Faithful s :=
  ⟨fun line member k during => (served.typed line member k during).1,served.reached⟩

theorem served_ask {s : Tty} (served : Served s) : Served (step s .Ask) := by
  refine ⟨ordered_step served.ordered _,?_,?_⟩
  · cases waits : s.outstanding with
    | some k =>
      simp only [step,waits]
      exact waits ▸ served.typed
    | none =>
      intro line member k during
      simp only [step,waits] at member
      have := (served.typed line member k during).1
      rw [waits] at this
      cases this
  · cases waits : s.outstanding with
    | some k =>
      simp only [step,waits]
      exact waits ▸ served.reached
    | none =>
      intro reader line member k during
      simp only [step,waits] at member ⊢
      obtain ⟨own,pending | answered⟩ := served.reached reader line member k during
      · rw [waits] at pending
        cases pending
      · exact ⟨own,.inr answered⟩

theorem served_enter {s : Tty} (served : Served s) (text : String) (careful : Careful s (.Enter text)) :
    Served (step s (.Enter text)) := by
  refine ⟨ordered_step served.ordered _,?_,served.reached⟩
  intro line member k during
  simp only [step] at member ⊢
  rcases List.mem_append.mp member with member | member
  · -- an unread line typed for a request bars the operator from typing another one
    obtain ⟨pending,-,-⟩ := served.typed line member k during
    rw [(careful k pending).1] at member
    cases member
  · cases List.mem_singleton.mp member
    obtain ⟨empty,alone⟩ := careful k during
    exact ⟨during,by rw [empty]; rfl,alone⟩

theorem served_lock {s : Tty} (served : Served s) (reader : Nat) : Served (step s (.Lock reader)) := by
  refine ⟨ordered_step served.ordered _,?_,?_⟩
  · intro line member k during
    by_cases free : s.holder = none ∧ reader ∈ s.waiting
    · simp only [step,if_pos free] at member ⊢
      obtain ⟨pending,only,alone⟩ := served.typed line member k during
      refine ⟨pending,only,.inl ?_⟩
      rcases alone with ⟨holds,-⟩ | ⟨-,waits⟩
      · rw [free.1] at holds
        cases holds
      · have own : reader = k := by simpa [waits] using free.2
        subst own
        simp [waits]
    · simp only [step,if_neg free] at member ⊢
      exact served.typed line member k during
  · by_cases free : s.holder = none ∧ reader ∈ s.waiting
    · simp only [step,if_pos free]
      exact served.reached
    · simp only [step,if_neg free]
      exact served.reached

theorem served_read {s : Tty} (served : Served s) : Served (step s .Read) := by
  cases held : s.holder with
  | none => simpa only [step,held] using served
  | some reader =>
    cases unread : s.unread with
    | nil => simpa only [step,held,unread] using served
    | cons first rest =>
      have typed := served.typed
      rw [unread] at typed
      refine ⟨ordered_step served.ordered _,?_,?_⟩
      · simp only [step,held,unread]
        intro line member k during
        -- a line typed for a request is the only one, so it is the one that was read
        obtain ⟨-,only,-⟩ := typed line (List.mem_cons_of_mem _ member) k during
        rw [(List.cons.inj only).2] at member
        cases member
      · simp only [step,held,unread]
        intro other line member k during
        rcases List.mem_append.mp member with member | member
        · exact served.reached other line member k during
        · cases List.mem_singleton.mp member
          obtain ⟨pending,-,alone⟩ := typed _ List.mem_cons_self k during
          rcases alone with ⟨holds,-⟩ | ⟨free,-⟩
          · rw [held] at holds
            exact ⟨Option.some.inj holds,.inl pending⟩
          · rw [held] at free
            cases free

theorem served_receive {s : Tty} (served : Served s) (utcNow : Int) : Served (step s (.Receive utcNow)) := by
  cases waits : s.outstanding with
  | none => simpa only [step,waits] using served
  | some k =>
    cases found : s.sent.find? (fun message => message.1 = k) with
    | none => simpa only [step,waits,found] using served
    | some message =>
      obtain ⟨reader,line⟩ := message
      have own : reader = k := by simpa using List.find?_some found
      have sent := List.mem_of_find?_eq_some found
      subst own
      refine ⟨ordered_step served.ordered _,?_,?_⟩
      · simp only [step,waits,found]
        intro other member j during
        obtain ⟨pending,-,alone⟩ := served.typed other member j during
        rw [waits] at pending
        cases pending
        exact absurd sent (served.ordered.unsent alone _)
      · simp only [step,waits,found]
        intro other typed member j during
        obtain ⟨same,pending | ⟨now,answered⟩⟩ := served.reached other typed member j during
        · rw [waits] at pending
          cases pending
          subst same
          cases served.ordered.sends_once sent member
          exact ⟨rfl,.inr ⟨utcNow,by simp⟩⟩
        · exact ⟨same,.inr ⟨now,List.mem_append_left _ answered⟩⟩

theorem served_expire {s : Tty} (served : Served s) (utcNow : Int) (careful : Careful s (.Expire utcNow)) :
    Served (step s (.Expire utcNow)) := by
  cases waits : s.outstanding with
  | none => simpa only [step,waits] using served
  | some k =>
    cases found : s.sent.find? (fun message => message.1 = k) with
    | some message => simpa only [step,waits,found] using served
    | none =>
      refine ⟨ordered_step served.ordered _,?_,?_⟩
      · simp only [step,waits,found]
        intro line member j during
        exact absurd (served.typed line member j during).1 (careful line member j during)
      · simp only [step,waits,found]
        intro reader line member j during
        obtain ⟨same,pending | ⟨now,answered⟩⟩ := served.reached reader line member j during
        · rw [waits] at pending
          cases pending
          subst same
          have silent := List.find?_eq_none.mp found _ member
          simp at silent
        · exact ⟨same,.inr ⟨now,List.mem_append_left _ answered⟩⟩

theorem served_step {s : Tty} (served : Served s) (event : Event) (careful : Careful s event) : Served (step s event) := by
  cases event with
  | Ask => exact served_ask served
  | Enter text => exact served_enter served text careful
  | Lock reader => exact served_lock served reader
  | Read => exact served_read served
  | Receive utcNow => exact served_receive served utcNow
  | Expire utcNow => exact served_expire served utcNow careful

omit [Lowercase] in
theorem served_initial [Lowercase] : Served initial := by
  refine ⟨⟨by simp [readers,initial],by simp [readers,initial]⟩,?_,?_⟩
  · intro line member
    cases member
  · intro reader line member
    cases member

/-- In a careful run every line typed for a request reaches it and no other one. -/
theorem careful_faithful {events : List Event} (careful : Throughout step initial events Careful) :
    Faithful (after step initial events) :=
  (careful.invariant (P := Served) (fun _ event served careful => served_step served event careful) served_initial).faithful

end

/-! ### Two requests -/

@[reducible] def ascii : Lowercase := ⟨String.toLower⟩

/-- One request, answered. -/
theorem careful_faithful_yes :
    let _ := ascii
    Faithful (after step initial [.Ask,.Enter "y",.Lock 0,.Read,.Receive 5]) := by
  intro lower
  refine careful_faithful ?_
  rw [throughout_cons,throughout_cons,throughout_cons,throughout_cons,throughout_cons]
  refine ⟨trivial,?_,trivial,trivial,trivial,throughout_nil⟩
  intro k pending
  cases pending
  exact ⟨rfl,.inr ⟨rfl,rfl⟩⟩

/-- The reader of a request that timed out takes the answer to the next one. -/
theorem stale_reader : ¬ ∀ [Lowercase] (events : List Event),Faithful (after step initial events) := by
  intro faithful
  let _ := ascii
  have reached := (faithful [.Ask,.Lock 0,.Expire 5,.Ask,.Enter "y",.Read]).reached 0 ⟨"y",some 1⟩
    List.mem_cons_self 1 rfl
  cases reached.1

end AegisNode.TtyChannel
