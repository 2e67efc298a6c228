import Mathlib.Data.List.Induction

/-!
Interleavings: a state that the events of several parties change one after the
other, and what holds at each event and at the end of a run.
-/
namespace AegisNode.Interleaving
variable {σ ε : Type*} (step : σ → ε → σ)

/-- The state after a run. -/
def after (s : σ) (events : List ε) : σ := events.foldl step s

@[simp] theorem after_nil (s : σ) : after step s [] = s := rfl

@[simp] theorem after_cons (s : σ) (e : ε) (rest : List ε) : after step s (e :: rest) = after step (step s e) rest := rfl

theorem after_append (s : σ) (left right : List ε) : after step s (left ++ right) = after step (after step s left) right :=
  List.foldl_append

/-- The state in which each event of a run happens meets `Q` with it. -/
def Throughout (s : σ) (events : List ε) (Q : σ → ε → Prop) : Prop :=
  ∀ before e later,events = before ++ e :: later → Q (after step s before) e

variable {step} {s : σ} {events : List ε} {Q : σ → ε → Prop}

theorem throughout_nil : Throughout step s [] Q := by
  intro before e later whole
  simp at whole

theorem throughout_cons {e : ε} {rest : List ε} :
    Throughout step s (e :: rest) Q ↔ Q s e ∧ Throughout step (step s e) rest Q := by
  constructor
  · intro holds
    refine ⟨holds [] e rest rfl,?_⟩
    intro before f later whole
    exact holds (e :: before) f later (congrArg (e :: ·) whole)
  · rintro ⟨first,later⟩ before f tail whole
    cases before with
    | nil =>
      cases whole
      exact first
    | cons g before =>
      cases whole
      exact later before f tail rfl

/-- What every event keeps under `Q` holds after a run that meets `Q` throughout. -/
theorem Throughout.invariant {P : σ → Prop} (throughout : Throughout step s events Q)
    (kept : ∀ s e,P s → Q s e → P (step s e)) (start : P s) : P (after step s events) := by
  induction events generalizing s with
  | nil => exact start
  | cons e rest ih =>
    obtain ⟨first,later⟩ := throughout_cons.mp throughout
    exact ih later (kept s e start first)

theorem after_invariant {P : σ → Prop} (kept : ∀ s e,P s → P (step s e)) (start : P s) (events : List ε) :
    P (after step s events) := by
  induction events generalizing s with
  | nil => exact start
  | cons e rest ih => exact ih (kept s e start)

/-- What the events of a list keep holds after them. -/
theorem after_kept {P : σ → Prop} (kept : ∀ e ∈ events,∀ s,P s → P (step s e)) (start : P s) : P (after step s events) := by
  induction events generalizing s with
  | nil => exact start
  | cons e rest ih =>
    exact ih (fun f member => kept f (List.mem_cons_of_mem _ member)) (kept e List.mem_cons_self s start)

/-- A cell that some events write holds what the last of them wrote. -/
theorem last_write {α β : Type*} (cell : σ → α) (write : ε → Option β) (put : β → α)
    (writes : ∀ s e,cell (step s e) = ((write e).map put).getD (cell s)) :
    cell (after step s events) = ((events.filterMap write).getLast?.map put).getD (cell s) := by
  induction events using List.reverseRecOn with
  | nil => rfl
  | append_singleton rest e ih =>
    rw [after_append,after_cons,after_nil,writes,ih,List.filterMap_append]
    cases written : write e with
    | none => simp [written]
    | some b => simp [written]

end AegisNode.Interleaving
