import AegisNode.Interleaving
import AegisNode.ValidateBridge

/-!
The editor's live validation: the timer, the requests under way and the findings shown while
the operator types.
-/
namespace AegisNode.LiveValidate
open Text Interleaving Lint Validate ValidateBridge

/-! ### The hook -/

structure ValidateResponse where
  ok : Bool
  findings : List Finding
  binary : String
  deriving DecidableEq,Repr

structure ValidateSummary where
  errors : Nat
  warnings : Nat
  infos : Nat
  deriving DecidableEq,Repr

inductive ValidateState where
  | Idle
  | Loading
  | Ready (response : ValidateResponse) (summary : ValidateSummary)
  | Error (message : String)
  deriving DecidableEq,Repr

def tally (findings : List Finding) : ValidateSummary where
  errors := findings.countP (·.severity = "error")
  warnings := findings.countP (·.severity = "warn")
  infos := findings.countP (·.severity = "info")

/-- Where `String.prototype.trim` leaves nothing. -/
def blank (text : String) : Bool := text.toList.all fun c => (isWhiteSpace c && c.toNat ≠ 0x85) || c.toNat = 0xfeff

structure Request where
  body : String
  aborted : Bool
  settled : Bool
  deriving DecidableEq,Repr

/-- The hook between two events; `inflight` is the place of the last request. -/
structure Editor where
  yaml : String
  enabled : Bool
  timer : Option String
  requests : List Request
  inflight : Option Nat
  shown : ValidateState

inductive Event where
  | Edit (yaml : String)
  | Enable (enabled : Bool)
  | Fire                                               -- the timer fires
  | Settle (i : Nat) (answer : Except String Response) -- a request is answered, or is lost with this message

/-- The effect, after the cleanup of the one before. -/
def runEffect (s : Editor) : Editor :=
  if !s.enabled then { s with timer := none }
  else if blank s.yaml then { s with timer := none,shown := .Idle }
  else { s with timer := some s.yaml }

def mount (yaml : String) (enabled : Bool) : Editor := runEffect ⟨yaml,enabled,none,[],none,.Idle⟩

/-- What is shown for an answer. -/
def answered : Response → ValidateState
  | .Json ok findings binary => .Ready ⟨ok,findings,binary⟩ (tally findings)
  | .Status code text => .Error (if text = "" then "HTTP " ++ toString code else text)

def outcome : Except String Response → ValidateState
  | .error message => .Error message
  | .ok response => answered response

def abort (s : Editor) : List Request :=
  match s.inflight with
  | none => s.requests
  | some i => s.requests.modify i fun r => { r with aborted := true }

/-- An effect runs again only when what it depends on has changed. -/
def step (s : Editor) : Event → Editor
  | .Edit yaml => if yaml = s.yaml then s else runEffect { s with yaml := yaml }
  | .Enable enabled => if enabled = s.enabled then s else runEffect { s with enabled := enabled }
  | .Fire =>
    match s.timer with
    | none => s
    | some body => { s with
        timer := none
        requests := abort s ++ [⟨body,false,false⟩]
        inflight := some s.requests.length
        shown := .Loading }
  | .Settle i answer =>
    match s.requests[i]? with
    | none => s
    | some r =>
      if r.settled then s
      else { s with
        requests := s.requests.modify i fun r => { r with settled := true }
        shown := if r.aborted then s.shown else outcome answer }

/-! ### What is shown -/

/-- The last request that was started. -/
def lastOf (s : Editor) : Option Request := s.requests[s.requests.length-1]?

/-- What is shown is that of the last request or nothing; `Served` says what a text may be
    answered with. -/
def Latest (Served : String → Except String Response → Prop) (s : Editor) : Prop :=
  s.shown = .Idle ∨ ∃ r,lastOf s = some r ∧ (r.settled = false ∧ s.shown = .Loading ∨
    r.settled = true ∧ ∃ answer,Served r.body answer ∧ s.shown = outcome answer)

/-- The timer is that of the current text, and no request but the last one can change what
    is shown. -/
structure Shows (Served : String → Except String Response → Prop) (s : Editor) : Prop where
  shown : Latest Served s
  timer : ∀ body,s.timer = some body → body = s.yaml ∧ s.enabled = true ∧ blank s.yaml = false
  current : s.enabled = true → blank s.yaml = false → s.timer = none →
    ∃ r,lastOf s = some r ∧ r.body = s.yaml ∧ (r.settled = true → ∃ answer,Served s.yaml answer ∧ s.shown = outcome answer)
  inflight : s.inflight = if s.requests = [] then none else some (s.requests.length-1)
  others : ∀ i r,s.requests[i]? = some r → i+1 ≠ s.requests.length → r.aborted = true
  last : ∀ r,lastOf s = some r → r.aborted = false

/-- A request is answered with what its text may be answered with. -/
def Answers (Served : String → Except String Response → Prop) (s : Editor) (event : Event) : Prop :=
  ∀ i answer r,event = .Settle i answer → s.requests[i]? = some r → Served r.body answer

variable {Served : String → Except String Response → Prop}

/-- An effect keeps the requests. -/
theorem shows_runEffect {s : Editor} (shown : Latest Served s)
    (inflight : s.inflight = if s.requests = [] then none else some (s.requests.length-1))
    (others : ∀ i r,s.requests[i]? = some r → i+1 ≠ s.requests.length → r.aborted = true)
    (last : ∀ r,lastOf s = some r → r.aborted = false) : Shows Served (runEffect s) := by
  rw [runEffect]
  by_cases enabled : s.enabled = true
  · by_cases empty : blank s.yaml = true
    · rw [enabled,if_neg (by decide),if_pos empty]
      refine ⟨.inl rfl,(fun _ none_ => by cases none_),fun _ full => ?_,inflight,others,last⟩
      rw [empty] at full
      cases full
    · rw [enabled,if_neg (by decide),if_neg empty]
      refine ⟨shown,fun body same => ?_,(fun _ _ none_ => by cases none_),inflight,others,last⟩
      cases same
      exact ⟨rfl,rfl,by simpa using empty⟩
  · rw [if_pos (by simpa using enabled)]
    exact ⟨shown,(fun _ none_ => by cases none_),fun on => absurd on enabled,inflight,others,last⟩

theorem shows_mount (yaml : String) (enabled : Bool) : Shows Served (mount yaml enabled) :=
  shows_runEffect (.inl rfl) rfl (fun _ _ found => by cases found) (fun _ found => by cases found)

theorem abort_length (s : Editor) : (abort s).length = s.requests.length := by
  rw [abort]
  cases s.inflight with
  | none => rfl
  | some i => exact List.length_modify _ _ _

/-- When a request is started, those before it are aborted. -/
theorem abort_all {s : Editor} (shows : Shows Served s) {i : Nat} {r : Request} (found : (abort s)[i]? = some r) : r.aborted = true := by
  have bound : i < s.requests.length := by
    rw [← abort_length s]
    exact (List.getElem?_eq_some_iff.mp found).1
  have nonempty : s.requests ≠ [] := by
    rintro empty
    rw [empty] at bound
    exact absurd bound (Nat.not_lt_zero _)
  rw [abort,shows.inflight,if_neg nonempty] at found
  dsimp only at found
  rw [List.getElem?_modify] at found
  obtain ⟨old,here,rfl⟩ := Option.map_eq_some_iff.mp found
  by_cases last : s.requests.length-1 = i
  · rw [if_pos last]
  · rw [if_neg last]
    exact shows.others i old here (by omega)

/-- The timer starts a request for the current text. -/
theorem shows_fire {s : Editor} (shows : Shows Served s) : Shows Served (step s .Fire) := by
  rw [step]
  cases timer : s.timer with
  | none => exact shows
  | some body =>
    obtain ⟨rfl,enabled,full⟩ := shows.timer body timer
    let fresh : Request := ⟨s.yaml,false,false⟩
    have length : (abort s ++ [fresh]).length = s.requests.length+1 := by rw [List.length_append,abort_length]; rfl
    have started : (abort s ++ [fresh])[(abort s ++ [fresh]).length-1]? = some fresh := by
      rw [length,Nat.add_sub_cancel,← abort_length s,List.getElem?_concat_length]
    refine ⟨.inr ⟨fresh,started,.inl ⟨rfl,rfl⟩⟩,(fun _ none_ => by cases none_),fun _ _ _ => ⟨fresh,started,rfl,fun settled => by cases settled⟩,
      ?_,?_,?_⟩
    · dsimp only
      rw [if_neg (by simp),length,Nat.add_sub_cancel]
    · intro i r found other
      dsimp only at found other
      rw [length] at other
      by_cases before : i < (abort s).length
      · rw [List.getElem?_append_left before] at found
        exact abort_all shows found
      · have bound := (List.getElem?_eq_some_iff.mp found).1
        rw [length] at bound
        rw [abort_length] at before
        omega
    · intro r found
      rw [lastOf,started] at found
      cases found
      rfl

/-- Only the answer of the last request changes what is shown. -/
theorem shows_settle {s : Editor} (shows : Shows Served s) (i : Nat) {answer : Except String Response}
    (answers : ∀ r,s.requests[i]? = some r → Served r.body answer) : Shows Served (step s (.Settle i answer)) := by
  rw [step]
  cases found : s.requests[i]? with
  | none => exact shows
  | some r =>
    dsimp only
    by_cases settled : r.settled = true
    · rw [if_pos settled]
      exact shows
    · rw [if_neg settled]
      have served := answers r found
      let mark : Request → Request := fun r => { r with settled := true }
      have length : (s.requests.modify i mark).length = s.requests.length := List.length_modify _ _ _
      have bound : i < s.requests.length := (List.getElem?_eq_some_iff.mp found).1
      have nonempty : s.requests ≠ [] := List.ne_nil_of_length_pos (Nat.zero_lt_of_lt bound)
      have inflight : s.inflight = if s.requests.modify i mark = [] then none else some ((s.requests.modify i mark).length-1) := by
        rw [shows.inflight,length,if_neg nonempty,if_neg (List.ne_nil_of_length_pos (by rw [length]; exact Nat.zero_lt_of_lt bound))]
      have others : ∀ j q,(s.requests.modify i mark)[j]? = some q → j+1 ≠ (s.requests.modify i mark).length → q.aborted = true := by
        intro j q here other
        rw [List.getElem?_modify] at here
        obtain ⟨old,before,rfl⟩ := Option.map_eq_some_iff.mp here
        rw [length] at other
        have aborted := shows.others j old before other
        split_ifs <;> exact aborted
      by_cases last : i+1 = s.requests.length
      · have place : s.requests.length-1 = i := by omega
        have here : lastOf s = some r := by rw [lastOf,place,found]
        have kept := shows.last r here
        have now : (s.requests.modify i mark)[(s.requests.modify i mark).length-1]? = some (mark r) := by
          rw [length,place,List.getElem?_modify_eq,found]
          rfl
        rw [kept,if_neg Bool.false_ne_true]
        refine ⟨.inr ⟨mark r,now,.inr ⟨rfl,answer,served,rfl⟩⟩,shows.timer,fun enabled full quiet => ?_,inflight,others,fun q final => ?_⟩
        · obtain ⟨q,same,body,-⟩ := shows.current enabled full quiet
          rw [here] at same
          cases same
          exact ⟨mark r,now,body,fun _ => ⟨answer,body ▸ served,rfl⟩⟩
        · rw [lastOf,now] at final
          cases final
          exact kept
      · -- a request that was aborted
        have aborted := shows.others i r found last
        have place : i ≠ s.requests.length-1 := by omega
        have same : lastOf { s with requests := s.requests.modify i mark } = lastOf s := by
          exact (congrArg (fun n => (s.requests.modify i mark)[n-1]?) length).trans (List.getElem?_modify_ne mark s.requests place)
        rw [aborted,if_pos rfl]
        refine ⟨?_,shows.timer,fun enabled full quiet => ?_,inflight,others,fun q final => shows.last q (same.symm.trans final)⟩
        · rcases shows.shown with idle | ⟨q,here,state⟩
          · exact .inl idle
          · exact .inr ⟨q,same.trans here,state⟩
        · obtain ⟨q,here,body,state⟩ := shows.current enabled full quiet
          exact ⟨q,same.trans here,body,state⟩

theorem shows_step {s : Editor} (shows : Shows Served s) (event : Event) (answers : Answers Served s event) : Shows Served (step s event) := by
  cases event with
  | Edit yaml =>
    rw [step]
    split_ifs with same
    · exact shows
    · exact shows_runEffect shows.shown shows.inflight shows.others shows.last
  | Enable enabled =>
    rw [step]
    split_ifs with same
    · exact shows
    · exact shows_runEffect shows.shown shows.inflight shows.others shows.last
  | Fire => exact shows_fire shows
  | Settle i answer => exact shows_settle shows i fun r found => answers i answer r rfl found

theorem shows_after {yaml : String} {enabled : Bool} {events : List Event}
    (answers : Throughout step (mount yaml enabled) events (Answers Served)) : Shows Served (after step (mount yaml enabled) events) :=
  answers.invariant (fun _ event shows answers => shows_step shows event answers) (shows_mount yaml enabled)

/-- Nothing is under way for the text in the editor. -/
def AtRest (s : Editor) : Prop := s.timer = none ∧ ∀ r,lastOf s = some r → r.settled = true

/-- Whatever the order of edits, timers and answers: once nothing is under way any more, a
    text in an enabled editor is shown with what was answered for this text. -/
theorem rest_current {s : Editor} (shows : Shows Served s) (rest : AtRest s) (on : s.enabled = true) (full : blank s.yaml = false) :
    ∃ answer,Served s.yaml answer ∧ s.shown = outcome answer := by
  obtain ⟨r,last,-,state⟩ := shows.current on full rest.1
  exact state (rest.2 r last)

/-- An editor that was emptied while a request was under way shows the findings of the text
    that is gone. -/
theorem emptied_stale {yaml : String} (full : blank yaml = false) (response : Response) :
    (after step (mount yaml true) [.Fire,.Edit "",.Settle 0 (.ok response)]).yaml = "" ∧
      (after step (mount yaml true) [.Fire,.Edit "",.Settle 0 (.ok response)]).shown = answered response := by
  have other : ("" : String) ≠ yaml := by
    rintro rfl
    cases full
  have empty : blank "" = true := rfl
  simp [after,mount,runEffect,step,full,other,empty,abort,outcome]

/-! ### The findings of the text -/

section
variable {P : Type} {nodes : P → Yaml.Node P} {decode : List UInt8 → Option P} [FindingText]

/-- The answers of the handler, with whatever validator it finds. -/
def Handled (nodes : P → Yaml.Node P) (decode : List UInt8 → Option P) (host : Host) (body : String) (answer : Except String Response) : Prop :=
  ∃ env bin temp,Works nodes decode env host bin temp body ∧ answer = .ok (validateManifest env body)

end

/-- Every text is the manifest that five rules object to. -/
def openHost : Host where
  readFile _ := .NotExist
  document _ _ := .ok openDocument
  schemaError _ _ := ""
  configFile _ := .ok []

def openEnv (body : String) : Env where
  validateBin := none
  currentDir := some "/work"
  path := none
  isFile path := path = "/work/bin/aegis-validate"
  writeTempfile _ := .ok "/tmp/draft.yaml"
  output _ _ := .ok (validatorOutput Empty.elim (fun _ => none) (staged openHost "/tmp/draft.yaml" body) "/tmp/draft.yaml")

def openAnswer (body : String) : Except String Response := .ok (@validateManifest recordText (openEnv body) body)

theorem handled_open (body : String) : @Handled Empty recordText Empty.elim (fun _ => none) openHost body (openAnswer body) :=
  ⟨openEnv body,"/work/bin/aegis-validate","/tmp/draft.yaml",⟨by decide,rfl,rfl,rfl⟩,rfl⟩

/-- The text is changed while it is validated, and the first answer comes last. -/
def typing : List Event := [.Fire,.Edit "tools: open",.Fire,.Settle 1 (openAnswer "tools: open"),.Settle 0 (openAnswer "tools:")]

def typed : Editor := ⟨"tools: open",true,none,[⟨"tools:",true,true⟩,⟨"tools: open",false,true⟩],some 1,outcome (openAnswer "tools: open")⟩

end AegisNode.LiveValidate
