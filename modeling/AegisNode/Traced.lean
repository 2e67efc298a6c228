import Mathlib.Tactic

/-!
Programs that read and change a state, may fail, and leave a list of events; what
comes after a failure does not run. Relations between states that compose along
the events are proved of a program piece by piece, and an event that an earlier
piece cannot leave is traced to the later piece.
-/
namespace AegisNode.Traced

structure Outcome (σ ε Event α : Type) where
  result : Except ε α
  state : σ
  events : List Event

def Prog (σ ε Event α : Type) := σ → Outcome σ ε Event α

section
variable {σ ε δ Event α β : Type}

def Prog.pure (a : α) : Prog σ ε Event α := fun s => ⟨.ok a,s,[]⟩

def Prog.bind (p : Prog σ ε Event α) (f : α → Prog σ ε Event β) : Prog σ ε Event β := fun s =>
  match (p s).result with
  | .error e => ⟨.error e,(p s).state,(p s).events⟩
  | .ok a => ⟨(f a (p s).state).result,(f a (p s).state).state,(p s).events ++ (f a (p s).state).events⟩

instance : Monad (Prog σ ε Event) where
  pure := .pure
  bind := .bind

def fail (e : ε) : Prog σ ε Event α := fun s => ⟨.error e,s,[]⟩

/-- A value that is computed from the state. -/
def reads (f : σ → α) : Prog σ ε Event α := fun s => ⟨.ok (f s),s,[]⟩

def update (f : σ → σ) : Prog σ ε Event Unit := fun s => ⟨.ok (),f s,[]⟩

def ofExcept (x : Except ε α) : Prog σ ε Event α := fun s => ⟨x,s,[]⟩

/-- Runs a program and hands its errors of the caught kind to the caller. -/
def attempt (caught : ε → Option δ) (p : Prog σ ε Event α) : Prog σ ε Event (Except δ α) := fun s =>
  match (p s).result with
  | .ok a => ⟨.ok (.ok a),(p s).state,(p s).events⟩
  | .error e =>
    match caught e with
    | some d => ⟨.ok (.error d),(p s).state,(p s).events⟩
    | none => ⟨.error e,(p s).state,(p s).events⟩

/-! ### Sequences -/

theorem bind_error {p : Prog σ ε Event α} {f : α → Prog σ ε Event β} {s : σ} {e : ε} (failed : (p s).result = .error e) :
    (p >>= f) s = ⟨.error e,(p s).state,(p s).events⟩ := by
  change Prog.bind p f s = _
  rw [Prog.bind,failed]

theorem bind_ok {p : Prog σ ε Event α} {f : α → Prog σ ε Event β} {s : σ} {a : α} (done : (p s).result = .ok a) :
    (p >>= f) s = ⟨(f a (p s).state).result,(f a (p s).state).state,(p s).events ++ (f a (p s).state).events⟩ := by
  change Prog.bind p f s = _
  rw [Prog.bind,done]

theorem reads_bind {f : σ → α} {g : α → Prog σ ε Event β} {s : σ} : (reads f >>= g) s = g (f s) s := by
  rw [bind_ok (show (reads f s : Outcome σ ε Event α).result = .ok (f s) from rfl)]
  rfl

theorem bind_assoc {γ : Type} {p : Prog σ ε Event α} {f : α → Prog σ ε Event β} {g : β → Prog σ ε Event γ} {s : σ} :
    ((p >>= f) >>= g) s = (p >>= fun a => f a >>= g) s := by
  cases first : (p s).result with
  | error e => rw [bind_error first,bind_error (by rw [bind_error first]),bind_error first]
  | ok a =>
    rw [bind_ok first]
    cases second : (f a (p s).state).result with
    | error e => rw [bind_error second,bind_error (by rw [bind_ok first,second]),bind_ok first]
    | ok b => rw [bind_ok second,bind_ok (by rw [bind_ok first,second]),bind_ok first,List.append_assoc]

/-- A sequence leaves what its first part leaves, and more. -/
theorem bind_events (p : Prog σ ε Event α) (f : α → Prog σ ε Event β) (s : σ) :
    ∃ rest,((p >>= f) s).events = (p s).events ++ rest := by
  cases first : (p s).result with
  | error e => exact ⟨[],by rw [bind_error first,List.append_nil]⟩
  | ok a => exact ⟨_,by rw [bind_ok first]⟩

/-- Dropping the value changes nothing else. -/
theorem bind_pure_events {p : Prog σ ε Event α} {s : σ} {b : β} :
    ((p >>= fun _ => pure b) s).events = (p s).events ∧ ((p >>= fun _ => pure b) s).state = (p s).state := by
  cases done : (p s).result with
  | error e =>
    rw [bind_error done]
    exact ⟨rfl,rfl⟩
  | ok a =>
    rw [bind_ok done]
    exact ⟨List.append_nil _,rfl⟩

/-! ### Complete runs -/

/-- The program returns the value; the second state and the events are what it leaves. -/
def Runs (p : Prog σ ε Event α) (s : σ) (a : α) (t : σ) (events : List Event) : Prop := p s = ⟨.ok a,t,events⟩

theorem runs_of_result {p : Prog σ ε Event α} {s : σ} {a : α} (done : (p s).result = .ok a) :
    Runs p s a (p s).state (p s).events := by
  rw [Runs,← done]

theorem Runs.result {p : Prog σ ε Event α} {s t : σ} {a : α} {events : List Event} (runs : Runs p s a t events) :
    (p s).result = .ok a := by
  rw [Runs] at runs
  rw [runs]

theorem Runs.state {p : Prog σ ε Event α} {s t : σ} {a : α} {events : List Event} (runs : Runs p s a t events) :
    (p s).state = t := by
  rw [Runs] at runs
  rw [runs]

theorem Runs.events {p : Prog σ ε Event α} {s t : σ} {a : α} {events : List Event} (runs : Runs p s a t events) :
    (p s).events = events := by
  rw [Runs] at runs
  rw [runs]

theorem runs_bind {p : Prog σ ε Event α} {f : α → Prog σ ε Event β} {s t : σ} {b : β} {events : List Event} :
    Runs (p >>= f) s b t events ↔
      ∃ a m left right,Runs p s a m left ∧ Runs (f a) m b t right ∧ events = left ++ right := by
  constructor
  · intro runs
    cases first : (p s).result with
    | error e =>
      rw [Runs,bind_error first] at runs
      cases runs
    | ok a =>
      rw [Runs,bind_ok first] at runs
      injection runs with result state events
      refine ⟨a,(p s).state,(p s).events,(f a (p s).state).events,runs_of_result first,?_,events.symm⟩
      rw [Runs,← result,← state]
  · rintro ⟨a,m,left,right,first,second,rfl⟩
    rw [Runs,bind_ok first.result,first.state,first.events,second.result,second.state,second.events]

theorem runs_pure {a b : α} {s t : σ} {events : List Event} :
    Runs (pure a : Prog σ ε Event α) s b t events ↔ b = a ∧ t = s ∧ events = [] := by
  change (⟨.ok a,s,[]⟩ : Outcome σ ε Event α) = ⟨.ok b,t,events⟩ ↔ _
  rw [Outcome.mk.injEq,Except.ok.injEq,eq_comm (a := a),eq_comm (a := s),eq_comm (a := [])]

theorem runs_reads {f : σ → α} {b : α} {s t : σ} {events : List Event} :
    Runs (reads f : Prog σ ε Event α) s b t events ↔ b = f s ∧ t = s ∧ events = [] := by
  change (⟨.ok (f s),s,[]⟩ : Outcome σ ε Event α) = ⟨.ok b,t,events⟩ ↔ _
  rw [Outcome.mk.injEq,Except.ok.injEq,eq_comm (a := f s),eq_comm (a := s),eq_comm (a := [])]

theorem runs_reads_bind {f : σ → α} {g : α → Prog σ ε Event β} {b : β} {s t : σ} {events : List Event} :
    Runs (reads f >>= g) s b t events ↔ Runs (g (f s)) s b t events := by
  rw [Runs,reads_bind,Runs]

theorem runs_update {f : σ → σ} {s t : σ} {u : Unit} {events : List Event} :
    Runs (update f : Prog σ ε Event Unit) s u t events ↔ t = f s ∧ events = [] := by
  change (⟨.ok (),f s,[]⟩ : Outcome σ ε Event Unit) = ⟨.ok u,t,events⟩ ↔ _
  rw [Outcome.mk.injEq,eq_comm (a := f s),eq_comm (a := [])]
  exact and_iff_right rfl

theorem runs_fail {e : ε} {a : α} {s t : σ} {events : List Event} :
    ¬ Runs (fail e : Prog σ ε Event α) s a t events := by
  intro runs
  cases runs

theorem runs_ofExcept {x : Except ε α} {b : α} {s t : σ} {events : List Event} :
    Runs (ofExcept x : Prog σ ε Event α) s b t events ↔ x = .ok b ∧ t = s ∧ events = [] := by
  change (⟨x,s,[]⟩ : Outcome σ ε Event α) = ⟨.ok b,t,events⟩ ↔ _
  rw [Outcome.mk.injEq,eq_comm (a := s),eq_comm (a := [])]

/-- A value of a caught program is a value of the program, or an error of the caught
    kind. -/
theorem runs_attempt_ok {caught : ε → Option δ} {p : Prog σ ε Event α} {a : α} {s t : σ} {events : List Event} :
    Runs (attempt caught p) s (.ok a) t events ↔ Runs p s a t events := by
  unfold Runs attempt
  obtain ⟨result,state,events'⟩ := p s
  cases result with
  | ok b => simp only [Outcome.mk.injEq,Except.ok.injEq]
  | error e =>
    dsimp only
    cases caught e with
    | some d => simp
    | none => simp

/-! ### Failed runs -/

/-- The program ends with the error; the second state and the events are what it leaves. -/
def Stops (p : Prog σ ε Event α) (s : σ) (e : ε) (t : σ) (events : List Event) : Prop := p s = ⟨.error e,t,events⟩

theorem stops_of_result {p : Prog σ ε Event α} {s : σ} {e : ε} (failed : (p s).result = .error e) :
    Stops p s e (p s).state (p s).events := by
  rw [Stops,← failed]

theorem Stops.result {p : Prog σ ε Event α} {s t : σ} {e : ε} {events : List Event} (stops : Stops p s e t events) :
    (p s).result = .error e := by
  rw [Stops] at stops
  rw [stops]

theorem Stops.state {p : Prog σ ε Event α} {s t : σ} {e : ε} {events : List Event} (stops : Stops p s e t events) :
    (p s).state = t := by
  rw [Stops] at stops
  rw [stops]

theorem Stops.events {p : Prog σ ε Event α} {s t : σ} {e : ε} {events : List Event} (stops : Stops p s e t events) :
    (p s).events = events := by
  rw [Stops] at stops
  rw [stops]

theorem runs_or_stops (p : Prog σ ε Event α) (s : σ) :
    (∃ a,Runs p s a (p s).state (p s).events) ∨ ∃ e,Stops p s e (p s).state (p s).events := by
  cases result : (p s).result with
  | ok a => exact .inl ⟨a,runs_of_result result⟩
  | error e => exact .inr ⟨e,stops_of_result result⟩

/-- A sequence fails in its first part, or in the second after all of the first. -/
theorem stops_bind {p : Prog σ ε Event α} {f : α → Prog σ ε Event β} {s t : σ} {e : ε} {events : List Event} :
    Stops (p >>= f) s e t events ↔ Stops p s e t events ∨
      ∃ a m left right,Runs p s a m left ∧ Stops (f a) m e t right ∧ events = left ++ right := by
  constructor
  · intro stops
    cases first : (p s).result with
    | error e' =>
      rw [Stops,bind_error first] at stops
      injection stops with result state events
      injection result with same
      left
      rw [← same,← state,← events]
      exact stops_of_result first
    | ok a =>
      rw [Stops,bind_ok first] at stops
      injection stops with result state events
      refine .inr ⟨a,(p s).state,(p s).events,(f a (p s).state).events,runs_of_result first,?_,events.symm⟩
      rw [Stops,← result,← state]
  · rintro (first | ⟨a,m,left,right,first,second,rfl⟩)
    · rw [Stops,bind_error first.result,first.state,first.events]
    · rw [Stops,bind_ok first.result,first.state,first.events,second.result,second.state,second.events]

theorem stops_fail {e other : ε} {s t : σ} {events : List Event} :
    Stops (fail e : Prog σ ε Event α) s other t events ↔ other = e ∧ t = s ∧ events = [] := by
  change (⟨.error e,s,[]⟩ : Outcome σ ε Event α) = ⟨.error other,t,events⟩ ↔ _
  rw [Outcome.mk.injEq,Except.error.injEq,eq_comm (a := e),eq_comm (a := s),eq_comm (a := [])]

theorem stops_pure {a : α} {e : ε} {s t : σ} {events : List Event} :
    ¬ Stops (pure a : Prog σ ε Event α) s e t events := by
  intro stops
  cases stops

theorem stops_update {f : σ → σ} {e : ε} {s t : σ} {events : List Event} :
    ¬ Stops (update f : Prog σ ε Event Unit) s e t events := by
  intro stops
  cases stops

theorem stops_reads_bind {f : σ → α} {g : α → Prog σ ε Event β} {e : ε} {s t : σ} {events : List Event} :
    Stops (reads f >>= g) s e t events ↔ Stops (g (f s)) s e t events := by
  rw [Stops,reads_bind,Stops]

theorem stops_ofExcept {x : Except ε α} {e : ε} {s t : σ} {events : List Event} :
    Stops (ofExcept x : Prog σ ε Event α) s e t events ↔ x = .error e ∧ t = s ∧ events = [] := by
  change (⟨x,s,[]⟩ : Outcome σ ε Event α) = ⟨.error e,t,events⟩ ↔ _
  rw [Outcome.mk.injEq,eq_comm (a := s),eq_comm (a := [])]

theorem attempt_same (caught : ε → Option δ) (p : Prog σ ε Event α) (s : σ) :
    (attempt caught p s).events = (p s).events ∧ (attempt caught p s).state = (p s).state := by
  unfold attempt
  cases (p s).result with
  | ok a => exact ⟨rfl,rfl⟩
  | error e =>
    dsimp only
    cases caught e <;> exact ⟨rfl,rfl⟩

/-- A caught error is a value of the attempt. -/
theorem runs_attempt_error {caught : ε → Option δ} {p : Prog σ ε Event α} {d : δ} {s t : σ} {events : List Event} :
    Runs (attempt caught p) s (.error d) t events ↔ ∃ e,caught e = some d ∧ Stops p s e t events := by
  unfold Runs Stops attempt
  obtain ⟨result,state,events'⟩ := p s
  cases result with
  | ok a => simp
  | error e =>
    dsimp only
    cases known : caught e with
    | some d' =>
      simp only [Outcome.mk.injEq,Except.ok.injEq,Except.error.injEq]
      constructor
      · rintro ⟨rfl,rest⟩
        exact ⟨e,known,rfl,rest⟩
      · rintro ⟨e',caught',rfl,rest⟩
        rw [known] at caught'
        exact ⟨Option.some.inj caught',rest⟩
    | none =>
      simp only [Outcome.mk.injEq,Except.error.injEq,reduceCtorEq,false_and,false_iff]
      rintro ⟨e',caught',rfl,-⟩
      rw [known] at caught'
      cases caught'

theorem stops_attempt {caught : ε → Option δ} {p : Prog σ ε Event α} {e : ε} {s t : σ} {events : List Event} :
    Stops (attempt caught p) s e t events ↔ caught e = none ∧ Stops p s e t events := by
  unfold Stops attempt
  obtain ⟨result,state,events'⟩ := p s
  cases result with
  | ok a => simp
  | error e' =>
    dsimp only
    cases known : caught e' with
    | some d =>
      simp only [Outcome.mk.injEq,Except.error.injEq,reduceCtorEq,false_and,false_iff,not_and]
      rintro uncaught rfl
      rw [known] at uncaught
      cases uncaught
    | none =>
      simp only [Outcome.mk.injEq,Except.error.injEq]
      constructor
      · rintro ⟨rfl,rest⟩
        exact ⟨known,rfl,rest⟩
      · exact And.right

/-! ### The same run with another value -/

/-- The programs differ in the value they return at most. -/
def Alike (p : Prog σ ε Event α) (q : Prog σ ε Event β) : Prop :=
  ∀ s,(p s).events = (q s).events ∧ (p s).state = (q s).state ∧
    (p s).result.map (fun _ => ()) = (q s).result.map (fun _ => ())

theorem Alike.symm {p : Prog σ ε Event α} {q : Prog σ ε Event β} (alike : Alike p q) : Alike q p :=
  fun s => ⟨(alike s).1.symm,(alike s).2.1.symm,(alike s).2.2.symm⟩

theorem Alike.trans {γ : Type} {p : Prog σ ε Event α} {q : Prog σ ε Event β} {r : Prog σ ε Event γ} (first : Alike p q)
    (second : Alike q r) : Alike p r :=
  fun s => ⟨(first s).1.trans (second s).1,(first s).2.1.trans (second s).2.1,(first s).2.2.trans (second s).2.2⟩

theorem alike_return (p : Prog σ ε Event α) (f : α → β) : Alike (p >>= fun a => pure (f a)) p := by
  intro s
  cases ended : (p s).result with
  | error e =>
    rw [bind_error ended]
    exact ⟨rfl,rfl,rfl⟩
  | ok a =>
    rw [bind_ok ended]
    exact ⟨List.append_nil _,rfl,rfl⟩

theorem Alike.stops {p : Prog σ ε Event α} {q : Prog σ ε Event β} (alike : Alike p q) {s t : σ} {e : ε} {events : List Event}
    (stops : Stops p s e t events) : Stops q s e t events := by
  obtain ⟨sameEvents,sameState,sameResult⟩ := alike s
  rw [stops.events] at sameEvents
  rw [stops.state] at sameState
  rw [stops.result] at sameResult
  cases ended : (q s).result with
  | ok b =>
    rw [ended] at sameResult
    cases sameResult
  | error other =>
    rw [ended] at sameResult
    cases sameResult
    rw [sameEvents,sameState]
    exact stops_of_result ended

theorem Alike.runs {p : Prog σ ε Event α} {q : Prog σ ε Event β} (alike : Alike p q) {s t : σ} {a : α} {events : List Event}
    (runs : Runs p s a t events) : ∃ b,Runs q s b t events := by
  obtain ⟨sameEvents,sameState,sameResult⟩ := alike s
  rw [runs.events] at sameEvents
  rw [runs.state] at sameState
  rw [runs.result] at sameResult
  cases ended : (q s).result with
  | error other =>
    rw [ended] at sameResult
    cases sameResult
  | ok b =>
    rw [sameEvents,sameState]
    exact ⟨b,runs_of_result ended⟩

/-! ### What is left to run -/

/-- `p` leaves some events and goes on as `q` from another state. -/
def Continues (p : Prog σ ε Event α) (s : σ) (q : Prog σ ε Event α) (u : σ) (before : List Event) : Prop :=
  p s = ⟨(q u).result,(q u).state,before ++ (q u).events⟩

theorem continues_refl (p : Prog σ ε Event α) (s : σ) : Continues p s p s [] := rfl

theorem Continues.trans {p q r : Prog σ ε Event α} {s u v : σ} {left right : List Event} (first : Continues p s q u left)
    (second : Continues q u r v right) : Continues p s r v (left ++ right) := by
  rw [Continues] at *
  rw [first,second,List.append_assoc]

/-- After a complete first part the second is left. -/
theorem Runs.continues {p : Prog σ ε Event α} {f : α → Prog σ ε Event β} {s m : σ} {a : α} {left : List Event}
    (first : Runs p s a m left) : Continues (p >>= f) s (f a) m left := by
  rw [Continues,bind_ok first.result,first.state,first.events]

theorem Runs.then_pure {p : Prog σ ε Event α} {s t : σ} {a : α} {events : List Event} (runs : Runs p s a t events) (b : β) :
    Runs (p >>= fun _ => pure b) s b t events :=
  runs_bind.mpr ⟨a,t,events,[],runs,runs_pure.mpr ⟨rfl,rfl,rfl⟩,(List.append_nil events).symm⟩

theorem Continues.runs {p q : Prog σ ε Event α} {s u t : σ} {a : α} {left right : List Event}
    (continues : Continues p s q u left) (runs : Runs q u a t right) : Runs p s a t (left ++ right) := by
  rw [Continues,runs.result,runs.state,runs.events] at continues
  exact continues

theorem Continues.stops {p q : Prog σ ε Event α} {s u t : σ} {e : ε} {left right : List Event}
    (continues : Continues p s q u left) (stops : Stops q u e t right) : Stops p s e t (left ++ right) := by
  rw [Continues,stops.result,stops.state,stops.events] at continues
  exact continues

theorem Continues.events {p q : Prog σ ε Event α} {s u : σ} {left : List Event} (continues : Continues p s q u left) :
    (p s).events = left ++ (q u).events := by
  rw [Continues] at continues
  rw [continues]

/-- What follows follows what is left. -/
theorem Continues.bind {p q : Prog σ ε Event α} {f : α → Prog σ ε Event β} {s u : σ} {left : List Event}
    (continues : Continues p s q u left) : Continues (p >>= f) s (q >>= f) u left := by
  rw [Continues] at *
  cases ended : (q u).result with
  | error e => rw [bind_error ended,bind_error (by rw [continues,ended]),continues]
  | ok a => rw [bind_ok ended,bind_ok (by rw [continues,ended]),continues,List.append_assoc]

/-! ### Relations along the events -/

/-- Holds when nothing happens, and of two runs one after the other. -/
structure Composes (R : σ → List Event → σ → Prop) : Prop where
  idle : ∀ s,R s [] s
  append : ∀ {a b c : σ} {left right : List Event},R a left b → R b right c → R a (left ++ right) c

def Respects (R : σ → List Event → σ → Prop) (p : Prog σ ε Event α) : Prop := ∀ s,R s (p s).events (p s).state

variable {R : σ → List Event → σ → Prop}

theorem respects_pure (composes : Composes R) (a : α) : Respects R (pure a : Prog σ ε Event α) := composes.idle

theorem respects_fail (composes : Composes R) (e : ε) : Respects R (fail e : Prog σ ε Event α) := composes.idle

theorem respects_reads (composes : Composes R) (f : σ → α) : Respects R (reads f : Prog σ ε Event α) := composes.idle

theorem respects_ofExcept (composes : Composes R) (x : Except ε α) : Respects R (ofExcept x : Prog σ ε Event α) :=
  composes.idle

/-- What holds of a sequence from what holds of its parts. -/
theorem respects_then {S T : σ → List Event → σ → Prop} {p : Prog σ ε Event α} {f : α → Prog σ ε Event β}
    (early : ∀ {a events b},R a events b → T a events b)
    (both : ∀ {a b c left right},R a left b → S b right c → T a (left ++ right) c)
    (first : Respects R p) (later : ∀ a,Respects S (f a)) : Respects T (p >>= f) := by
  intro s
  cases done : (p s).result with
  | error e =>
    rw [bind_error done]
    exact early (first s)
  | ok a =>
    rw [bind_ok done]
    exact both (first s) (later a _)

theorem respects_bind (composes : Composes R) {p : Prog σ ε Event α} {f : α → Prog σ ε Event β} (first : Respects R p)
    (later : ∀ a,Respects R (f a)) : Respects R (p >>= f) := respects_then (fun held => held) composes.append first later

theorem respects_attempt {caught : ε → Option δ} {p : Prog σ ε Event α} (inner : Respects R p) :
    Respects R (attempt caught p) := by
  intro s
  unfold attempt
  cases (p s).result with
  | ok a => exact inner s
  | error e =>
    dsimp only
    cases caught e with
    | some d => exact inner s
    | none => exact inner s

theorem Runs.respects {p : Prog σ ε Event α} {s t : σ} {a : α} {events : List Event} (runs : Runs p s a t events)
    (inner : Respects R p) : R s events t := by
  have held := inner s
  rwa [runs.state,runs.events] at held

theorem respects_mono {S : σ → List Event → σ → Prop} (weaker : ∀ {a events b},R a events b → S a events b)
    {p : Prog σ ε Event α} (inner : Respects R p) : Respects S p :=
  fun s => weaker (inner s)

/-! ### Programs made of steps -/

/-- The program does one step after another, each of them a given one. -/
inductive Made (step : (α : Type) → Prog σ ε Event α → Prop) : {α : Type} → Prog σ ε Event α → Prop where
  | Step {α : Type} {p : Prog σ ε Event α} (own : step α p) : Made step p
  | Bind {α β : Type} {p : Prog σ ε Event α} {f : α → Prog σ ε Event β} (first : Made step p)
      (later : ∀ a s,(p s).result = .ok a → Made step (f a)) : Made step (p >>= f)
  | Attempt {α δ : Type} (caught : ε → Option δ) {p : Prog σ ε Event α} (inner : Made step p) : Made step (attempt caught p)

/-- What holds along the steps holds along the program. -/
theorem Made.respects {step : (α : Type) → Prog σ ε Event α → Prop} (composes : Composes R)
    (each : ∀ {α : Type} {p : Prog σ ε Event α},step α p → Respects R p) {α : Type} {p : Prog σ ε Event α}
    (made : Made step p) : Respects R p := by
  induction made with
  | Step own => exact each own
  | @Bind _ _ p f first later ihFirst ihLater =>
    intro s
    cases done : (p s).result with
    | error e =>
      rw [bind_error done]
      exact ihFirst s
    | ok a =>
      rw [bind_ok done]
      exact composes.append (ihFirst s) (ihLater a s done _)
  | Attempt caught inner ih => exact respects_attempt ih

/-- A program fails in one of its steps. -/
theorem Made.fails {step : (α : Type) → Prog σ ε Event α → Prop} {allowed : ε → Prop}
    (each : ∀ {α : Type} {p : Prog σ ε Event α},step α p → ∀ s e,(p s).result = .error e → allowed e) {α : Type}
    {p : Prog σ ε Event α} (made : Made step p) {s t : σ} {e : ε} {events : List Event} (stops : Stops p s e t events) :
    allowed e := by
  induction made generalizing s t events with
  | Step own => exact each own s e stops.result
  | Bind first later ihFirst ihLater =>
    rcases stops_bind.mp stops with early | ⟨a,m,left,right,done,late,-⟩
    · exact ihFirst early
    · exact ihLater a s done.result late
  | Attempt caught inner ih => exact ih (stops_attempt.mp stops).2

/-! ### Events of one kind -/

def Each (kind : Event → Prop) (_ : σ) (events : List Event) (_ : σ) : Prop := ∀ e ∈ events,kind e

theorem each_composes (kind : Event → Prop) : Composes (Each (σ := σ) kind) where
  idle _ := by simp [Each]
  append := by
    intro a b c left right first second e member
    rcases List.mem_append.mp member with member | member
    · exact first e member
    · exact second e member

theorem each_bind {kind : Event → Prop} {p : Prog σ ε Event α} {f : α → Prog σ ε Event β} (first : Respects (Each kind) p)
    (later : ∀ a,Respects (Each kind) (f a)) : Respects (Each kind) (p >>= f) :=
  respects_bind (each_composes kind) first later

theorem each_mono {kind broader : Event → Prop} (wider : ∀ e,kind e → broader e) {p : Prog σ ε Event α}
    (inner : Respects (Each kind) p) : Respects (Each broader) p :=
  respects_mono (fun held e member => wider e (held e member)) inner

/-! ### How programs end -/

/-- Descriptions of what complete and failed runs leave, which hold of sequences if they
    hold of the parts. -/
structure Endings (done : σ → List Event → σ → Prop) (failed : ε → σ → List Event → σ → Prop) : Prop where
  idle : ∀ s,done s [] s
  append : ∀ {a b c : σ} {left right : List Event},done a left b → done b right c → done a (left ++ right) c
  late : ∀ {e : ε} {a b c : σ} {left right : List Event},done a left b → failed e b right c → failed e a (left ++ right) c

/-- The program leaves what is described, however it ends. -/
structure Ends (done : σ → List Event → σ → Prop) (failed : ε → σ → List Event → σ → Prop) (p : Prog σ ε Event α) : Prop where
  runs : ∀ {s t : σ} {a : α} {events : List Event},Runs p s a t events → done s events t
  stops : ∀ {s t : σ} {e : ε} {events : List Event},Stops p s e t events → failed e s events t

section
variable {done : σ → List Event → σ → Prop} {failed : ε → σ → List Event → σ → Prop}

theorem ends_pure (endings : Endings done failed) (a : α) : Ends done failed (pure a : Prog σ ε Event α) where
  runs run := by
    obtain ⟨-,rfl,rfl⟩ := runs_pure.mp run
    exact endings.idle _
  stops stop := (stops_pure stop).elim

theorem ends_reads (endings : Endings done failed) (f : σ → α) : Ends done failed (reads f : Prog σ ε Event α) where
  runs run := by
    obtain ⟨-,rfl,rfl⟩ := runs_reads.mp run
    exact endings.idle _
  stops stop := by cases stop

theorem ends_update {f : σ → σ} (changed : ∀ s,done s [] (f s)) : Ends done failed (update f : Prog σ ε Event Unit) where
  runs run := by
    obtain ⟨rfl,rfl⟩ := runs_update.mp run
    exact changed _
  stops stop := (stops_update stop).elim

theorem ends_fail {e : ε} (explained : ∀ s,failed e s [] s) : Ends done failed (fail e : Prog σ ε Event α) where
  runs run := (runs_fail run).elim
  stops stop := by
    obtain ⟨rfl,rfl,rfl⟩ := stops_fail.mp stop
    exact explained _

theorem ends_ofExcept (endings : Endings done failed) {x : Except ε α} (explained : ∀ e,x = .error e → ∀ s,failed e s [] s) :
    Ends done failed (ofExcept x : Prog σ ε Event α) where
  runs run := by
    obtain ⟨-,rfl,rfl⟩ := runs_ofExcept.mp run
    exact endings.idle _
  stops stop := by
    obtain ⟨same,rfl,rfl⟩ := stops_ofExcept.mp stop
    exact explained _ same _

theorem ends_bind (endings : Endings done failed) {p : Prog σ ε Event α} {f : α → Prog σ ε Event β} (first : Ends done failed p)
    (later : ∀ a,Ends done failed (f a)) : Ends done failed (p >>= f) where
  runs run := by
    obtain ⟨a,_,_,_,one,two,rfl⟩ := runs_bind.mp run
    exact endings.append (first.runs one) ((later a).runs two)
  stops stop := by
    rcases stops_bind.mp stop with one | ⟨a,_,_,_,one,two,rfl⟩
    · exact first.stops one
    · exact endings.late (first.runs one) ((later a).stops two)

/-- A program that reads first may use what it read of the state. -/
theorem ends_reads_bind {f : σ → α} {g : α → Prog σ ε Event β}
    (runs : ∀ {s t : σ} {b : β} {events : List Event},Runs (g (f s)) s b t events → done s events t)
    (stops : ∀ {s t : σ} {e : ε} {events : List Event},Stops (g (f s)) s e t events → failed e s events t) :
    Ends done failed (reads f >>= g) where
  runs run := runs (runs_reads_bind.mp run)
  stops stop := stops (stops_reads_bind.mp stop)

end

/-! ### Where an event comes from -/

/-- What is in a joined list is in the first part or in the second one. -/
theorem split_either {left right before after : List Event} {e : Event} (whole : left ++ right = before ++ e :: after) :
    (∃ rest,left = before ++ e :: rest ∧ after = rest ++ right) ∨ ∃ rest,before = left ++ rest ∧ right = rest ++ e :: after := by
  rcases List.append_eq_append_iff.mp whole with ⟨rest,first,second⟩ | ⟨rest,first,second⟩
  · exact .inr ⟨rest,first,second⟩
  · cases rest with
    | nil => exact .inr ⟨[],by rw [first,List.append_nil,List.append_nil],second.symm⟩
    | cons other rest =>
      obtain ⟨rfl,last⟩ := List.cons.inj second
      exact .inl ⟨rest,first,last⟩

theorem split_append {left right pre post : List Event} {e : Event} (absent : e ∉ left)
    (whole : left ++ right = pre ++ e :: post) : ∃ rest,pre = left ++ rest ∧ right = rest ++ e :: post := by
  rcases split_either whole with ⟨rest,inside,-⟩ | found
  · exact absurd (by rw [inside]; simp) absent
  · exact found

/-- An event the first part does not leave is left by the second, after all of the
    first. -/
theorem bind_split {p : Prog σ ε Event α} {f : α → Prog σ ε Event β} {s : σ} {pre post : List Event} {e : Event}
    (absent : e ∉ (p s).events) (whole : ((p >>= f) s).events = pre ++ e :: post) :
    ∃ a m left rest,Runs p s a m left ∧ pre = left ++ rest ∧ (f a m).events = rest ++ e :: post := by
  cases done : (p s).result with
  | error error =>
    rw [bind_error done] at whole
    exact absurd (by rw [whole]; simp) absent
  | ok a =>
    rw [bind_ok done] at whole
    obtain ⟨rest,before,after⟩ := split_append absent whole
    exact ⟨a,_,_,rest,runs_of_result done,before,after⟩

end

end AegisNode.Traced
