import AegisNode.Interleaving
import AegisNode.PullHistory
import AegisNode.Svid

/-!
The directory of the local CA: several processes initialize it side by side, fail or die
at any point, and others load what is there.
-/
namespace AegisNode.CaDirectory
open Interleaving LocalCa

/-! ### Initializing -/

inductive Part where
  | Cert
  | Key
  | Domain
  deriving DecidableEq,Repr

def Part.fileName : Part → String
  | .Cert => "ca.crt"
  | .Key => "ca.key"
  | .Domain => "trust_domain"

/-- What a process was called with, and the certificate and the key that it generated. -/
structure Init where
  trustDomain : String
  certPem : String
  keyPem : String

def Init.contents (i : Init) : Part → List UInt8
  | .Cert => Bytes.encode i.certPem
  | .Key => Bytes.encode i.keyPem
  | .Domain => Bytes.encode i.trustDomain

/-- A file, and the process that created it. -/
structure File where
  owner : Nat
  bytes : List UInt8
  deriving DecidableEq,Repr

/-- Where `init` is; one that was killed stopped without an error. -/
inductive Stage where
  | Looks
  | Creates (part : Part)
  | Writes (part : Part) (written rest : List UInt8)
  | Done
  | Stopped (error : Option String)
  deriving DecidableEq,Repr

structure Directory where
  file : Part → Option File
  stage : Nat → Stage

def empty : Directory := ⟨fun _ => none,fun _ => .Looks⟩

/-- What happens, in the order in which it happens. -/
inductive Event where
  | Look (p : Nat)
  | Create (p : Nat)
  | Write (p n : Nat)                      -- `n` bytes more
  | Stop (p : Nat) (error : Option String)

def next : Part → Stage
  | .Cert => .Creates .Key
  | .Key => .Creates .Domain
  | .Domain => .Done

def goes (s : Directory) (p : Nat) (stage : Stage) : Directory := { s with stage := Function.update s.stage p stage }

def put (s : Directory) (p : Nat) (part : Part) (bytes : List UInt8) : Directory :=
  { s with file := Function.update s.file part (some ⟨p,bytes⟩) }

section
variable (inits : Nat → Init) (dir : String)

/-- `init`, one operation on the directory after the other. -/
def step (s : Directory) : Event → Directory
  | .Look p =>
    match s.stage p with
    | .Looks =>
      if (s.file .Cert).isSome then goes s p (.Stopped (some ("CA already initialized at " ++ dir)))
      else match SpiffeId.new (inits p).trustDomain "ca" "root" with
        | .error error => goes s p (.Stopped (some error))
        | .ok _ => goes s p (.Creates .Cert)
    | _ => s
  | .Create p =>
    match s.stage p with
    | .Creates part =>
      if (s.file part).isSome then goes s p (.Stopped (some "io: File exists (os error 17)"))
      else goes (put s p part []) p (.Writes part [] ((inits p).contents part))
    | _ => s
  | .Write p n =>
    match s.stage p with
    | .Writes part written rest =>
      goes (put s p part (written ++ rest.take n)) p (if rest.drop n = [] then next part else .Writes part (written ++ rest.take n) (rest.drop n))
    | _ => s
  | .Stop p error =>
    match s.stage p with
    | .Done | .Stopped _ => s
    | _ => goes s p (.Stopped error)

/-! ### One process has it all -/

/-- The file is there, with all that the process writes. -/
def Full (s : Directory) (p : Nat) (part : Part) : Prop := s.file part = some ⟨p,(inits p).contents part⟩

def Valid (p : Nat) : Prop := ∃ id,SpiffeId.new (inits p).trustDomain "ca" "root" = .ok id

/-- Where a process is in the part that it writes. -/
def Writing (s : Directory) (p : Nat) (part : Part) (written rest : List UInt8) : Prop :=
  s.file part = some ⟨p,written⟩ ∧ written ++ rest = (inits p).contents part

/-- The stages of a process that has created nothing. -/
def Outside : Stage → Prop
  | .Looks | .Stopped _ | .Creates .Cert => True
  | _ => False

/-- What a stage says of the directory. -/
def Stands (s : Directory) (p : Nat) : Stage → Prop
  | .Looks | .Stopped _ => True
  | .Creates .Cert => Valid inits p
  | .Writes .Cert written rest => Valid inits p ∧ Writing inits s p .Cert written rest ∧ s.file .Key = none ∧ s.file .Domain = none
  | .Creates .Key => Full inits s p .Cert ∧ s.file .Key = none ∧ s.file .Domain = none
  | .Writes .Key written rest => Full inits s p .Cert ∧ Writing inits s p .Key written rest ∧ s.file .Domain = none
  | .Creates .Domain => Full inits s p .Cert ∧ Full inits s p .Key ∧ s.file .Domain = none
  | .Writes .Domain written rest => Full inits s p .Cert ∧ Full inits s p .Key ∧ Writing inits s p .Domain written rest
  | .Done => Full inits s p .Cert ∧ Full inits s p .Key ∧ Full inits s p .Domain

structure Sound (s : Directory) : Prop where
  stands : ∀ p,Stands inits s p (s.stage p)
  cert : ∀ f,s.file .Cert = some f → Valid inits f.owner ∧ f.bytes <+: (inits f.owner).contents .Cert
  key : ∀ f,s.file .Key = some f → Full inits s f.owner .Cert ∧ f.bytes <+: (inits f.owner).contents .Key
  domain : ∀ f,s.file .Domain = some f → Full inits s f.owner .Cert ∧ Full inits s f.owner .Key ∧ f.bytes <+: (inits f.owner).contents .Domain

variable {inits} {dir}

theorem sound_empty : Sound inits empty where
  stands _ := trivial
  cert _ found := by cases found
  key _ found := by cases found
  domain _ found := by cases found

theorem Stands.outside {s t : Directory} {p : Nat} {stage : Stage} (outside : Outside stage) (stands : Stands inits s p stage) : Stands inits t p stage := by
  cases stage with
  | Looks | Stopped => trivial
  | Creates part =>
    cases part with
    | Cert => exact stands
    | Key | Domain => exact outside.elim
  | Writes | Done => exact outside.elim

/-- A process that created something created the certificate. -/
theorem Stands.created {s : Directory} {p : Nat} {stage : Stage} (stands : Stands inits s p stage) (inside : ¬ Outside stage) :
    ∃ bytes,s.file .Cert = some ⟨p,bytes⟩ := by
  cases stage with
  | Looks | Stopped => exact absurd trivial inside
  | Creates part =>
    cases part with
    | Cert => exact absurd trivial inside
    | Key | Domain => exact ⟨_,stands.1⟩
  | Writes part written rest =>
    cases part with
    | Cert => exact ⟨_,stands.2.1.1⟩
    | Key | Domain => exact ⟨_,stands.1⟩
  | Done => exact ⟨_,stands.1⟩

/-- The others have created nothing. -/
theorem Sound.others {s : Directory} (sound : Sound inits s) {p q : Nat} (inside : ¬ Outside (s.stage p)) (other : q ≠ p) : Outside (s.stage q) := by
  by_contra within
  obtain ⟨_,mine⟩ := (sound.stands p).created inside
  obtain ⟨_,theirs⟩ := (sound.stands q).created within
  rw [mine] at theirs
  cases theirs
  exact other rfl

/-- A process goes to another stage. -/
theorem Sound.goes {s : Directory} (sound : Sound inits s) {p : Nat} {stage : Stage} (stands : Stands inits s p stage) : Sound inits (goes s p stage) where
  stands q := by
    by_cases same : q = p
    · subst same
      change Stands inits s q (Function.update s.stage q stage q)
      rw [Function.update_self]
      exact stands
    · change Stands inits s q (Function.update s.stage p stage q)
      rw [Function.update_of_ne same]
      exact sound.stands q
  cert := sound.cert
  key := sound.key
  domain := sound.domain

/-- What there is after a process that created something. -/
theorem Stands.files {s : Directory} {p : Nat} {stage : Stage} (stands : Stands inits s p stage) (inside : ¬ Outside stage) (valid : Valid inits p) :
    (∀ f,s.file .Cert = some f → Valid inits f.owner ∧ f.bytes <+: (inits f.owner).contents .Cert) ∧
      (∀ f,s.file .Key = some f → Full inits s f.owner .Cert ∧ f.bytes <+: (inits f.owner).contents .Key) ∧
      ∀ f,s.file .Domain = some f → Full inits s f.owner .Cert ∧ Full inits s f.owner .Key ∧ f.bytes <+: (inits f.owner).contents .Domain := by
  have cert {bytes : List UInt8} (here : s.file .Cert = some ⟨p,bytes⟩) (front : bytes <+: (inits p).contents .Cert) :
      ∀ f,s.file .Cert = some f → Valid inits f.owner ∧ f.bytes <+: (inits f.owner).contents .Cert := by
    intro f found
    rw [here] at found
    cases found
    exact ⟨valid,front⟩
  have key {bytes : List UInt8} (full : Full inits s p .Cert) (here : s.file .Key = some ⟨p,bytes⟩) (front : bytes <+: (inits p).contents .Key) :
      ∀ f,s.file .Key = some f → Full inits s f.owner .Cert ∧ f.bytes <+: (inits f.owner).contents .Key := by
    intro f found
    rw [here] at found
    cases found
    exact ⟨full,front⟩
  have domain {bytes : List UInt8} (full : Full inits s p .Cert) (full' : Full inits s p .Key) (here : s.file .Domain = some ⟨p,bytes⟩)
      (front : bytes <+: (inits p).contents .Domain) :
      ∀ f,s.file .Domain = some f → Full inits s f.owner .Cert ∧ Full inits s f.owner .Key ∧ f.bytes <+: (inits f.owner).contents .Domain := by
    intro f found
    rw [here] at found
    cases found
    exact ⟨full,full',front⟩
  have missing {part : Part} (none_ : s.file part = none) {A : File → Prop} : ∀ f,s.file part = some f → A f := by
    intro f found
    rw [none_] at found
    cases found
  cases stage with
  | Looks | Stopped => exact absurd trivial inside
  | Creates part =>
    cases part with
    | Cert => exact absurd trivial inside
    | Key => exact ⟨cert stands.1 (List.prefix_refl _),missing stands.2.1,missing stands.2.2⟩
    | Domain => exact ⟨cert stands.1 (List.prefix_refl _),key stands.1 stands.2.1 (List.prefix_refl _),missing stands.2.2⟩
  | Writes part written rest =>
    cases part with
    | Cert => exact ⟨cert stands.2.1.1 ⟨rest,stands.2.1.2⟩,missing stands.2.2.1,missing stands.2.2.2⟩
    | Key => exact ⟨cert stands.1 (List.prefix_refl _),key stands.1 stands.2.1.1 ⟨rest,stands.2.1.2⟩,missing stands.2.2⟩
    | Domain =>
      exact ⟨cert stands.1 (List.prefix_refl _),key stands.1 stands.2.1 (List.prefix_refl _),domain stands.1 stands.2.1 stands.2.2.1 ⟨rest,stands.2.2.2⟩⟩
  | Done =>
    exact ⟨cert stands.1 (List.prefix_refl _),key stands.1 stands.2.1 (List.prefix_refl _),domain stands.1 stands.2.1 stands.2.2 (List.prefix_refl _)⟩

/-- The process that has created something, or is the first to, puts a part there. -/
theorem Sound.puts {s : Directory} (sound : Sound inits s) {p : Nat} {part : Part} {bytes : List UInt8} {stage : Stage} (valid : Valid inits p)
    (others : ∀ q,q ≠ p → Outside (s.stage q)) (stands : Stands inits (put s p part bytes) p stage) (inside : ¬ Outside stage) :
    Sound inits (CaDirectory.goes (put s p part bytes) p stage) := by
  obtain ⟨cert,key,domain⟩ := stands.files inside valid
  have put_ : ∀ q,Stands inits (put s p part bytes) q (Function.update s.stage p stage q) := by
    intro q
    by_cases same : q = p
    · subst same
      rw [Function.update_self]
      exact stands
    · rw [Function.update_of_ne same]
      exact (sound.stands q).outside (others q same)
  exact ⟨put_,cert,key,domain⟩

theorem Sound.valid {s : Directory} (sound : Sound inits s) {p : Nat} (inside : ¬ Outside (s.stage p)) : Valid inits p := by
  obtain ⟨_,mine⟩ := (sound.stands p).created inside
  exact (sound.cert _ mine).1

/-- Without a certificate nobody has created anything. -/
theorem Sound.nobody {s : Directory} (sound : Sound inits s) (none_ : s.file .Cert = none) :
    (∀ q,Outside (s.stage q)) ∧ s.file .Key = none ∧ s.file .Domain = none := by
  refine ⟨fun q => ?_,?_,?_⟩
  · by_contra within
    obtain ⟨_,created⟩ := (sound.stands q).created within
    rw [none_] at created
    cases created
  · cases found : s.file .Key with
    | none => rfl
    | some f =>
      have full := (sound.key f found).1
      rw [Full,none_] at full
      cases full
  · cases found : s.file .Domain with
    | none => rfl
    | some f =>
      have full := (sound.domain f found).1
      rw [Full,none_] at full
      cases full

theorem sound_step {s : Directory} (sound : Sound inits s) (event : Event) : Sound inits (step inits dir s event) := by
  cases event with
  | Look p =>
    rw [step]
    cases stage : s.stage p with
    | Looks =>
      dsimp only
      split_ifs
      · exact sound.goes trivial
      · cases valid : SpiffeId.new (inits p).trustDomain "ca" "root" with
        | error error => exact sound.goes trivial
        | ok id => exact sound.goes ⟨id,valid⟩
    | _ => exact sound
  | Stop p error =>
    rw [step]
    cases stage : s.stage p with
    | Done | Stopped => exact sound
    | _ => exact sound.goes trivial
  | Create p =>
    rw [step]
    cases stage : s.stage p with
    | Creates part =>
      have stands := sound.stands p
      rw [stage] at stands
      dsimp only
      split_ifs with there
      · exact sound.goes trivial
      · have none_ : s.file part = none := by simpa using there
        cases part with
        | Cert =>
          obtain ⟨others,key,domain⟩ := sound.nobody none_
          exact sound.puts stands (fun q _ => others q) ⟨stands,⟨rfl,rfl⟩,key,domain⟩ id
        | Key =>
          have inside : ¬ Outside (s.stage p) := by rw [stage]; exact id
          exact sound.puts (sound.valid inside) (fun q => sound.others inside) ⟨stands.1,⟨rfl,rfl⟩,stands.2.2⟩ id
        | Domain =>
          have inside : ¬ Outside (s.stage p) := by rw [stage]; exact id
          exact sound.puts (sound.valid inside) (fun q => sound.others inside) ⟨stands.1,stands.2.1,rfl,rfl⟩ id
    | _ => exact sound
  | Write p n =>
    rw [step]
    cases stage : s.stage p with
    | Writes part written rest =>
      have stands := sound.stands p
      rw [stage] at stands
      have inside : ¬ Outside (s.stage p) := by rw [stage]; exact id
      have whole : written ++ rest.take n ++ rest.drop n = written ++ rest := by rw [List.append_assoc,List.take_append_drop]
      dsimp only
      split_ifs with last
      · rw [last,List.append_nil] at whole
        have complete {bytes : List UInt8} (all : written ++ rest = bytes) : some (File.mk p (written ++ rest.take n)) = some ⟨p,bytes⟩ := by
          rw [whole,all]
        cases part with
        | Cert => exact sound.puts stands.1 (fun q => sound.others inside) ⟨complete stands.2.1.2,stands.2.2⟩ id
        | Key => exact sound.puts (sound.valid inside) (fun q => sound.others inside) ⟨stands.1,complete stands.2.1.2,stands.2.2⟩ id
        | Domain => exact sound.puts (sound.valid inside) (fun q => sound.others inside) ⟨stands.1,stands.2.1,complete stands.2.2.2⟩ id
      · cases part with
        | Cert => exact sound.puts stands.1 (fun q => sound.others inside) ⟨stands.1,⟨rfl,whole.trans stands.2.1.2⟩,stands.2.2⟩ id
        | Key => exact sound.puts (sound.valid inside) (fun q => sound.others inside) ⟨stands.1,⟨rfl,whole.trans stands.2.1.2⟩,stands.2.2⟩ id
        | Domain => exact sound.puts (sound.valid inside) (fun q => sound.others inside) ⟨stands.1,stands.2.1,rfl,whole.trans stands.2.2.2⟩ id
    | _ => exact sound

theorem sound_after (events : List Event) : Sound inits (after (step inits dir) empty events) :=
  after_invariant (P := Sound inits) (fun _ event sound => sound_step sound event) sound_empty events

/-! ### Nothing is overwritten -/

/-- Files stay, and what is in them stays in front. -/
def Grows (s t : Directory) : Prop := ∀ part f,s.file part = some f → ∃ g,t.file part = some g ∧ g.owner = f.owner ∧ f.bytes <+: g.bytes

theorem Grows.refl (s : Directory) : Grows s s := fun _ f found => ⟨f,found,rfl,List.prefix_refl _⟩

theorem Grows.trans {s t u : Directory} (first : Grows s t) (second : Grows t u) : Grows s u := by
  intro part f found
  obtain ⟨g,here,owner,front⟩ := first part f found
  obtain ⟨h,there,owner',front'⟩ := second part g here
  exact ⟨h,there,owner'.trans owner,front.trans front'⟩

theorem grows_put {s : Directory} {p : Nat} {part : Part} {bytes : List UInt8} {stage : Stage}
    (before : ∀ f,s.file part = some f → f.owner = p ∧ f.bytes <+: bytes) : Grows s (goes (put s p part bytes) p stage) := by
  intro other f found
  by_cases same : other = part
  · subst same
    obtain ⟨owner,front⟩ := before f found
    exact ⟨⟨p,bytes⟩,Function.update_self _ _ _,owner.symm,front⟩
  · exact ⟨f,(Function.update_of_ne same _ _).trans found,rfl,List.prefix_refl _⟩

theorem grows_step {s : Directory} (sound : Sound inits s) (event : Event) : Grows s (step inits dir s event) := by
  cases event with
  | Look p =>
    rw [step]
    cases s.stage p with
    | Looks =>
      dsimp only
      split_ifs
      · exact Grows.refl s
      · cases SpiffeId.new (inits p).trustDomain "ca" "root" with
        | error error => exact Grows.refl s
        | ok id => exact Grows.refl s
    | _ => exact Grows.refl s
  | Stop p error =>
    rw [step]
    cases s.stage p with
    | _ => exact Grows.refl s
  | Create p =>
    rw [step]
    cases s.stage p with
    | Creates part =>
      dsimp only
      split_ifs with there
      · exact Grows.refl s
      · refine grows_put fun f found => ?_
        rw [found] at there
        exact absurd rfl there
    | _ => exact Grows.refl s
  | Write p n =>
    rw [step]
    cases stage : s.stage p with
    | Writes part written rest =>
      have stands := sound.stands p
      rw [stage] at stands
      have here : s.file part = some ⟨p,written⟩ := by
        cases part with
        | Cert => exact stands.2.1.1
        | Key => exact stands.2.1.1
        | Domain => exact stands.2.2.1
      refine grows_put fun f found => ?_
      rw [here] at found
      cases found
      exact ⟨rfl,List.prefix_append _ _⟩
    | _ => exact Grows.refl s

theorem grows_after {s : Directory} (sound : Sound inits s) (events : List Event) : Grows s (after (step inits dir) s events) := by
  induction events generalizing s with
  | nil => exact Grows.refl s
  | cons event rest ih => exact (grows_step sound event).trans (ih (sound_step sound event))

/-! ### Loading -/

/-- The directory after the first `n` events. -/
def history (inits : Nat → Init) (dir : String) (events : List Event) (n : Nat) : Directory := after (step inits dir) empty (events.take n)

theorem history_later {events : List Event} {n m : Nat} (le : n ≤ m) :
    history inits dir events m = after (step inits dir) (history inits dir events n) ((events.take m).drop n) := by
  have front : (events.take m).take n = events.take n := by rw [List.take_take,Nat.min_eq_left le]
  rw [history,history,← after_append,← front,List.take_append_drop]

theorem history_grows (inits : Nat → Init) (dir : String) (events : List Event) {n m : Nat} (le : n ≤ m) : Grows (history inits dir events n) (history inits dir events m) := by
  rw [history_later le]
  exact grows_after (sound_after _) _

/-- A complete part stays as it is. -/
theorem full_later {events : List Event} {n m p : Nat} {part : Part} (full : Full inits (history inits dir events n) p part) (later : n ≤ m) :
    Full inits (history inits dir events m) p part := by
  have sound : Sound inits (history inits dir events m) := sound_after _
  obtain ⟨g,found,owner,front⟩ := history_grows inits dir events later part _ full
  dsimp only at owner front
  have back : g.bytes <+: (inits p).contents part := by
    rw [← owner]
    cases part with
    | Cert => exact (sound.cert g found).2
    | Key => exact (sound.key g found).2
    | Domain => exact (sound.domain g found).2.2
  rw [Full,found,← back.eq_of_length_le front.length_le,← owner]

def parts : List Part := [.Cert,.Key,.Domain]

/-- What a process finds that tests each part at one time, and reads it at another. -/
@[reducible] def finding (base : X509) (dir : String) (at_ : Nat → Directory) (seen read : Part → Nat) : X509 :=
  { base with
    exists_ := fun _ path => parts.any fun part => path = Mediator.joinPath dir part.fileName && ((at_ (seen part)).file part).isSome
    readText := fun _ path =>
      match parts.find? fun part => path = Mediator.joinPath dir part.fileName with
      | none => .error "No such file or directory (os error 2)"
      | some part =>
        match (at_ (read part)).file part with
        | none => .error "No such file or directory (os error 2)"
        | some f => (Bytes.decode f.bytes).elim (.error "stream did not contain valid UTF-8") .ok }

theorem joinPath_inj {dir left right : String} (relative : Paths.isAbsolute left = false) (relative' : Paths.isAbsolute right = false)
    (same : Mediator.joinPath dir left = Mediator.joinPath dir right) : left = right := by
  have cancel {front back back' : List Char} (whole : front ++ back = front ++ back') : back = back' := List.append_cancel_left whole
  rw [Mediator.joinPath,Mediator.joinPath,relative,relative',if_neg Bool.false_ne_true,if_neg Bool.false_ne_true] at same
  split_ifs at same
  all_goals
    have chars := congrArg String.toList same
    simp only [String.toList_append] at chars
    exact String.toList_inj.mp (cancel chars)

theorem joined_iff {dir : String} {part other : Part} :
    Mediator.joinPath dir part.fileName = Mediator.joinPath dir other.fileName ↔ part = other := by
  constructor
  · intro joined
    have named := joinPath_inj (by cases part <;> rfl) (by cases other <;> rfl) joined
    cases part <;> cases other <;> first | rfl | exact absurd named (by decide)
  · rintro rfl
    rfl

theorem exists_finding (dir : String) (base : X509) (at_ : Nat → Directory) (seen read : Part → Nat) (tick : Nat) (part : Part) :
    (finding base dir at_ seen read).exists_ tick (Mediator.joinPath dir part.fileName) = ((at_ (seen part)).file part).isSome := by
  change (parts.any fun other => Mediator.joinPath dir part.fileName = Mediator.joinPath dir other.fileName && ((at_ (seen other)).file other).isSome) = _
  simp only [joined_iff]
  cases part <;> simp [parts]

theorem readText_finding (dir : String) (base : X509) {at_ : Nat → Directory} (seen : Part → Nat) {read : Part → Nat} (tick : Nat) {part : Part} {f : File}
    (found : (at_ (read part)).file part = some f) : (finding base dir at_ seen read).readText tick (Mediator.joinPath dir part.fileName) =
      (Bytes.decode f.bytes).elim (.error "stream did not contain valid UTF-8") .ok := by
  have first : (parts.find? fun other => Mediator.joinPath dir part.fileName = Mediator.joinPath dir other.fileName) = some part := by
    simp only [joined_iff]
    cases part <;> rfl
  change (match parts.find? fun other => Mediator.joinPath dir part.fileName = Mediator.joinPath dir other.fileName with
    | none => _
    | some other => _) = _
  rw [first]
  dsimp only
  rw [found]

/-- What a text of ASCII characters begins with, as bytes. -/
theorem encode_front {chars : List Char} (ascii : ∀ c ∈ chars,c.toNat < 128) {bytes : List UInt8} (front : bytes <+: Bytes.encode (String.ofList chars)) :
    ∃ k,bytes = Bytes.encode (String.ofList (chars.take k)) := by
  simp only [Bytes.encode,String.toList_ofList] at front ⊢
  induction chars generalizing bytes with
  | nil => exact ⟨0,List.prefix_nil.mp front⟩
  | cons c rest ih =>
    have single := String.utf8EncodeChar_eq_singleton (ForkConfinement.utf8Size_ascii (ascii c List.mem_cons_self))
    rw [List.flatMap_cons,single,List.singleton_append] at front
    cases bytes with
    | nil => exact ⟨0,rfl⟩
    | cons b bytes =>
      obtain ⟨rfl,later⟩ := List.cons_prefix_cons.mp front
      obtain ⟨k,same⟩ := ih (fun other member => ascii other (List.mem_cons_of_mem _ member)) later
      exact ⟨k+1,by rw [List.take_succ_cons,List.flatMap_cons,single,same]; rfl⟩

theorem Valid.domain {p : Nat} (valid : Valid inits p) : TrustDomain (inits p).trustDomain.toList := by
  obtain ⟨id,made⟩ := valid
  exact (SpiffeId.new_ok.mp made).1

theorem letter_plain {c : Char} (letter : TrustDomainLetter c) : Text.isWhiteSpace c = false := by
  have value : c.toNat = c.val.toNat := rfl
  simp only [TrustDomainLetter,List.mem_cons,List.not_mem_nil,or_false,Char.le_def,UInt32.le_iff_toNat_le] at letter
  rcases letter with range | range | rfl | rfl | rfl
  · simp only [Text.isWhiteSpace,value,Bool.or_eq_false_iff,Bool.and_eq_false_iff,decide_eq_false_iff_not]
    simp at range
    omega
  · simp only [Text.isWhiteSpace,value,Bool.or_eq_false_iff,Bool.and_eq_false_iff,decide_eq_false_iff_not]
    simp at range
    omega
  all_goals decide

/-- A part that was complete at one time is read as it is at any later time. -/
theorem read_full (base : X509) {events : List Event} (seen : Part → Nat) {read : Part → Nat} (tick : Nat) {p n : Nat} {part : Part} {text : String}
    (contents : (inits p).contents part = Bytes.encode text) (full : Full inits (history inits dir events n) p part) (later : n ≤ read part) :
    (finding base dir (history inits dir events) seen read).readText tick (Mediator.joinPath dir part.fileName) = .ok text := by
  have found := full_later full later
  have text := readText_finding dir base seen tick found
  rw [contents,Bytes.decode_encode] at text
  exact text

/-- A directory without a trust domain is not initialized. -/
theorem load_there {base : X509} {at_ : Nat → Directory} {seen read : Part → Nat} {tick : Nat} {ca : LocalCa}
    (loads : @load (finding base dir at_ seen read) tick dir = .ok ca) : ((at_ (seen .Domain)).file .Domain).isSome = true := by
  rw [← exists_finding dir base at_ seen read tick .Domain]
  by_contra missing
  have none_ : @X509.exists_ (finding base dir at_ seen read) tick (Mediator.joinPath dir "trust_domain") = false := Bool.eq_false_of_not_eq_true missing
  unfold load at loads
  dsimp only at loads
  rw [none_,Bool.and_false,Bool.not_false,if_pos rfl] at loads
  cases loads

/-- What is loaded while the directory is initialized: the certificate and the key are those
    of one process, and the trust domain is what it has written of its own. -/
theorem loaded {base : X509} {events : List Event} {seen read : Part → Nat} (ordered : ∀ part,seen .Domain ≤ read part) {tick : Nat} {ca : LocalCa}
    (loads : @load (finding base dir (history inits dir events) seen read) tick dir = .ok ca) :
    ∃ p,ca.caPem = (inits p).certPem ∧ ca.keyPem = (inits p).keyPem ∧ ca.trustDomain.toList <+: (inits p).trustDomain.toList ∧
      ∀ q,(history inits dir events (read .Domain)).stage q = .Done → q = p ∧ ca.trustDomain = (inits p).trustDomain := by
  obtain ⟨f,found⟩ := Option.isSome_iff_exists.mp (load_there loads)
  have sound : Sound inits (history inits dir events (seen .Domain)) := sound_after _
  have sound' : Sound inits (history inits dir events (read .Domain)) := sound_after _
  obtain ⟨cert,key,-⟩ := sound.domain f found
  obtain ⟨g,found',owner,-⟩ := history_grows inits dir events (ordered .Domain) .Domain f found
  have domain := ((sound.cert _ cert).1).domain
  dsimp only at domain
  have front : g.bytes <+: Bytes.encode (String.ofList (inits f.owner).trustDomain.toList) := by
    rw [String.ofList_toList,← owner]
    exact (sound'.domain g found').2.2
  obtain ⟨k,bytes⟩ := encode_front (fun c member => SegmentLetter.ascii (domain.2.2 c member).segment) front
  have certText := read_full base seen tick rfl cert (ordered .Cert)
  have keyText := read_full base seen tick rfl key (ordered .Key)
  have domainText := readText_finding dir base seen tick found'
  rw [bytes,Bytes.decode_encode] at domainText
  have trimmed : Engine.trim (String.ofList ((inits f.owner).trustDomain.toList.take k)) = String.ofList ((inits f.owner).trustDomain.toList.take k) := by
    refine PullHistory.trim_plain fun c member => ?_
    rw [String.toList_ofList] at member
    exact letter_plain (domain.2.2 c (List.mem_of_mem_take member))
  have parsed : ca = ⟨dir,String.ofList ((inits f.owner).trustDomain.toList.take k),(inits f.owner).certPem,(inits f.owner).keyPem⟩ := by
    unfold load at loads
    dsimp only at loads
    split_ifs at loads with missing
    obtain ⟨caPem,readCert,loads⟩ := Ledger.bind_ok.mp loads
    obtain ⟨keyPem,readKey,loads⟩ := Ledger.bind_ok.mp loads
    obtain ⟨tdText,readDomain,loads⟩ := Ledger.bind_ok.mp loads
    obtain ⟨id,-,loads⟩ := Ledger.bind_ok.mp loads
    obtain ⟨⟨⟩,-,loads⟩ := Ledger.bind_ok.mp loads
    obtain rfl : caPem = (inits f.owner).certPem := Except.ok.inj (readCert.symm.trans certText)
    obtain rfl : keyPem = (inits f.owner).keyPem := Except.ok.inj (readKey.symm.trans keyText)
    obtain rfl : tdText = String.ofList ((inits f.owner).trustDomain.toList.take k) := Except.ok.inj (readDomain.symm.trans domainText)
    rw [trimmed] at loads
    exact (Except.ok.inj loads).symm
  refine ⟨f.owner,by rw [parsed],by rw [parsed],?_,fun q done => ?_⟩
  · rw [parsed,String.toList_ofList]
    exact List.take_prefix _ _
  · have stands := sound'.stands q
    rw [done] at stands
    have full := stands.2.2
    rw [Full,found'] at full
    cases full
    refine ⟨owner,?_⟩
    rw [← owner] at parsed bytes ⊢
    rw [parsed]
    exact (Bytes.encode_injective bytes).symm

theorem stopped_step {s : Directory} {p : Nat} {error : Option String} (stopped : s.stage p = .Stopped error) (event : Event) :
    (step inits dir s event).stage p = .Stopped error := by
  have kept {t : Directory} {q : Nat} {stage : Stage} (same : t.stage = s.stage) (other : q ≠ p) : (goes t q stage).stage p = .Stopped error := by
    change Function.update t.stage q stage p = _
    rw [Function.update_of_ne other.symm,same,stopped]
  have other {q : Nat} {stage : Stage} (here : s.stage q = stage) (open_ : ∀ e,stage ≠ .Stopped e) : q ≠ p := by
    rintro rfl
    exact open_ error (here.symm.trans stopped)
  cases event with
  | Look q =>
    rw [step]
    cases stage : s.stage q with
    | Looks =>
      have apart := other stage fun _ same => by cases same
      dsimp only
      split_ifs
      · exact kept rfl apart
      · cases SpiffeId.new (inits q).trustDomain "ca" "root" with
        | error e => exact kept rfl apart
        | ok id => exact kept rfl apart
    | _ => exact stopped
  | Create q =>
    rw [step]
    cases stage : s.stage q with
    | Creates part =>
      have apart := other stage fun _ same => by cases same
      dsimp only
      split_ifs
      · exact kept rfl apart
      · exact kept (t := put s q part []) rfl apart
    | _ => exact stopped
  | Write q n =>
    rw [step]
    cases stage : s.stage q with
    | Writes part written rest => exact kept (t := put s q part _) rfl (other stage fun _ same => by cases same)
    | _ => exact stopped
  | Stop q e =>
    rw [step]
    cases stage : s.stage q with
    | Done | Stopped => exact stopped
    | _ => exact kept rfl (other stage fun _ same => by cases same)

theorem stopped_later {events : List Event} {n m p : Nat} {error : Option String} (stopped : (history inits dir events n).stage p = .Stopped error)
    (later : n ≤ m) : (history inits dir events m).stage p = .Stopped error := by
  rw [history_later later]
  exact after_invariant (P := fun s : Directory => s.stage p = .Stopped error) (fun _ event stopped => stopped_step stopped event) stopped _

/-- Whatever processes initialize one directory, in any order of their steps, and wherever
    they fail or die: at most one of them succeeds, and what it wrote is never changed. One
    that stops after it has created the certificate leaves a directory that no other can
    complete. A load has the certificate and the key of one process, with the trust domain
    that it has written, which is all of it once the process has succeeded. -/
theorem initialized (inits : Nat → Init) (dir : String) (events : List Event) :
    (∀ n p q,(history inits dir events n).stage p = .Done → (history inits dir events n).stage q = .Done → p = q) ∧
      (∀ n m p part,n ≤ m → (history inits dir events n).stage p = .Done → Full inits (history inits dir events m) p part) ∧
      (∀ n m f error,n ≤ m → (history inits dir events n).file .Cert = some f → (history inits dir events n).stage f.owner = .Stopped error →
        ∀ q,(history inits dir events m).stage q ≠ .Done) ∧
      ∀ (base : X509) (seen read : Part → Nat) tick ca,(∀ part,seen .Domain ≤ read part) →
        @load (finding base dir (history inits dir events) seen read) tick dir = .ok ca →
        ∃ p,ca.caPem = (inits p).certPem ∧ ca.keyPem = (inits p).keyPem ∧ ca.trustDomain.toList <+: (inits p).trustDomain.toList ∧
          ∀ q,(history inits dir events (read .Domain)).stage q = .Done → q = p ∧ ca.trustDomain = (inits p).trustDomain := by
  have done {n p : Nat} (done : (history inits dir events n).stage p = .Done) (part : Part) : Full inits (history inits dir events n) p part := by
    have sound : Sound inits (history inits dir events n) := sound_after _
    have stands := sound.stands p
    rw [done] at stands
    cases part with
    | Cert => exact stands.1
    | Key => exact stands.2.1
    | Domain => exact stands.2.2
  refine ⟨fun n p q first second => ?_,fun n m p part later finished => full_later (done finished part) later,fun n m f error later found stopped q finished => ?_,
    fun base seen read tick ca ordered loads => loaded ordered loads⟩
  · have mine := done first .Cert
    rw [Full,done second .Cert] at mine
    cases mine
    rfl
  · have mine := done finished .Cert
    obtain ⟨g,found',owner,-⟩ := history_grows inits dir events later .Cert f found
    rw [Full,found'] at mine
    cases mine
    dsimp only at owner
    rw [owner,stopped_later stopped later] at finished
    cases finished

end

end AegisNode.CaDirectory
