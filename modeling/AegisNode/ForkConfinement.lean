import AegisNode.Ui

/-!
The two paths that a fork works on: the model that it loads and the ledger that it
writes. Both are joined from directories of the user and from the digest in the request,
which nothing has checked.
-/
namespace AegisNode.ForkConfinement
open Paths Mediator Ui Engine

/-! ### Files directly inside a directory -/

/-- One name of a directory, neither the directory itself nor its parent. -/
structure Plain (name : String) : Prop where
  nonempty : name.toList ≠ []
  unslashed : '/' ∉ name.toList
  undotted : name.toList ≠ ['.']
  inside : name.toList ≠ ['.','.']

theorem Plain.segments {name : String} (plain : Plain name) : Paths.segments name = [name.toList] :=
  List.splitOn_eq_singleton plain.unslashed

theorem Plain.component {name : String} (plain : Plain name) : component? name.toList = some (.Normal name.toList) := by
  simp [component?,plain.nonempty,plain.undotted,plain.inside]

theorem Plain.relative {name : String} (plain : Plain name) : isAbsolute name = false := by
  simp only [isAbsolute,decide_eq_false_iff_not]
  intro slash
  exact plain.unslashed (List.mem_of_mem_head? slash)

theorem segments_nonempty (path : String) : segments path ≠ [] := by
  simp [segments]

theorem dotted_cons (first : List Char) (rest : List (List Char)) : dotted (first :: rest) = decide (first = ['.']) := by
  unfold dotted
  split
  · rename_i dot
    simp [(List.cons.inj dot).1]
  · rename_i other
    have plain : first ≠ ['.'] := fun dot => other rest (by rw [dot])
    simp [plain]

theorem dotted_append {front : List (List Char)} (nonempty : front ≠ []) (back : List (List Char)) :
    dotted (front ++ back) = dotted front := by
  cases front with
  | nil => exact absurd rfl nonempty
  | cons first rest => rw [List.cons_append,dotted_cons,dotted_cons]

theorem isAbsolute_append_nonempty {front : String} (nonempty : front ≠ "") (back : String) :
    isAbsolute (front ++ back) = isAbsolute front := by
  have some : front.toList ≠ [] := fun empty => nonempty (String.toList_inj.mp empty)
  simp only [isAbsolute,String.toList_append,List.head?_append_of_ne_nil _ some]

/-- Two paths have the same components when they start alike and name the same pieces. -/
theorem components_append {whole dir : String} {front back rest : List (List Char)} (absolute : isAbsolute whole = isAbsolute dir)
    (nonempty : front ≠ []) (joined : segments whole = front ++ back) (given : segments dir = front ++ rest)
    (silent : rest.filterMap component? = []) : components whole = components dir ++ back.filterMap component? := by
  rw [components_eq,components_eq,absolute,joined,given,dotted_append nonempty,dotted_append nonempty]
  simp [silent]

theorem components_joinPath {dir name : String} (plain : Plain name) :
    components (joinPath dir name) = components dir ++ [.Normal name.toList] := by
  have last : [name.toList].filterMap component? = [.Normal name.toList] := by simp [plain.component]
  rw [← last]
  unfold joinPath
  rw [plain.relative]
  simp only [Bool.false_eq_true,if_false]
  by_cases empty : dir = ""
  · subst empty
    rw [if_pos (.inl rfl),String.empty_append,components_eq,plain.relative,plain.segments]
    have undotted : dotted [name.toList] = false := by
      rw [dotted_cons]
      exact decide_eq_false plain.undotted
    simp [undotted,components,isAbsolute,segments,component?]
  by_cases slash : dir.toList.getLast? = some '/'
  · rw [if_pos (.inr slash)]
    obtain ⟨front,split⟩ := List.getLast?_eq_some_iff.mp slash
    have same : dir = String.ofList front ++ "/" ++ "" := by
      apply String.toList_inj.mp
      simp [split]
    have joined : segments (dir ++ name) = segments (String.ofList front) ++ [name.toList] := by
      rw [same,String.append_empty,segments_join,plain.segments]
    have given : segments dir = segments (String.ofList front) ++ [[]] := by
      rw [same,segments_join]
      rfl
    exact components_append (isAbsolute_append_nonempty empty name) (segments_nonempty _) joined given (by simp [component?])
  · rw [if_neg (by simp [empty,slash])]
    have joined : segments (dir ++ "/" ++ name) = segments dir ++ [name.toList] := by
      rw [segments_join,plain.segments]
    have absolute : isAbsolute (dir ++ "/" ++ name) = isAbsolute dir := by
      rw [String.append_assoc]
      exact isAbsolute_append_nonempty empty _
    exact components_append absolute (segments_nonempty _) joined (List.append_nil _).symm rfl

/-- The file of a name directly inside a directory. -/
def Directly (dir path : String) (name : List Char) : Prop := components path = components dir ++ [.Normal name]

instance (dir path : String) (name : List Char) : Decidable (Directly dir path name) :=
  inferInstanceAs (Decidable (components path = components dir ++ [.Normal name]))

/-! ### The first bytes of a digest -/

/-- The name of an entry of the cache. -/
def HexDigest (modelDigest : String) : Prop := modelDigest.length = 64 ∧ ∀ c ∈ modelDigest.toList,Pull.isAsciiHexdigit c = true

instance (modelDigest : String) : Decidable (HexDigest modelDigest) :=
  inferInstanceAs (Decidable (modelDigest.length = 64 ∧ ∀ c ∈ modelDigest.toList,Pull.isAsciiHexdigit c = true))

theorem isAsciiHexdigit_bounds {c : Char} (hex : Pull.isAsciiHexdigit c = true) : 48 ≤ c.toNat ∧ c.toNat < 128 := by
  simp only [Pull.isAsciiHexdigit,Bool.or_eq_true,Bool.and_eq_true,decide_eq_true_eq,Char.le_def,UInt32.le_iff_toNat_le] at hex
  have value : c.toNat = c.val.toNat := rfl
  have bounds : ('0'.val.toNat = 48 ∧ '9'.val.toNat = 57) ∧ ('a'.val.toNat = 97 ∧ 'f'.val.toNat = 102) ∧
      'A'.val.toNat = 65 ∧ 'F'.val.toNat = 70 := by decide
  omega

theorem utf8Size_ascii {c : Char} (ascii : c.toNat < 128) : c.utf8Size = 1 := by
  have value : c.val.toNat < 128 := ascii
  rw [Char.utf8Size,if_pos]
  rw [UInt32.le_iff_toNat_le]
  simpa using Nat.le_of_lt_succ value

/-- Bytes and characters are counted alike where each character has one byte. -/
theorem encode_take {chars : List Char} (ascii : ∀ c ∈ chars,c.toNat < 128) (n : Nat) :
    (chars.flatMap String.utf8EncodeChar).take n = (chars.take n).flatMap String.utf8EncodeChar := by
  induction chars generalizing n with
  | nil => simp
  | cons c rest ih =>
    have single := String.utf8EncodeChar_eq_singleton (utf8Size_ascii (ascii c List.mem_cons_self))
    have later := fun m => ih (fun other member => ascii other (List.mem_cons_of_mem _ member)) m
    cases n with
    | zero => simp
    | succ n => simp only [List.flatMap_cons,List.take_succ_cons,single,List.cons_append,List.nil_append,later]

theorem HexDigest.cut {modelDigest : String} (hex : HexDigest modelDigest) :
    Bytes.decode ((Bytes.encode modelDigest).take 8) = some (String.ofList (modelDigest.toList.take 8)) := by
  have cut := encode_take (fun c member => (isAsciiHexdigit_bounds (hex.2 c member)).2) 8
  have whole : (Bytes.encode modelDigest).take 8 = Bytes.encode (String.ofList (modelDigest.toList.take 8)) := by
    rw [Bytes.encode,cut,Bytes.encode,String.toList_ofList]
  rw [whole,Bytes.decode_encode]

theorem HexDigest.plain {modelDigest : String} (hex : HexDigest modelDigest) : Plain modelDigest := by
  have length : modelDigest.toList.length = 64 := by rw [String.length_toList,hex.1]
  refine Plain.mk ?nonempty ?unslashed ?undotted ?inside
  case nonempty =>
    intro empty
    simp [empty] at length
  case unslashed =>
    intro slash
    exact absurd (hex.2 '/' slash) (by decide)
  case undotted =>
    intro dot
    simp [dot] at length
  case inside =>
    intro dots
    simp [dots] at length

/-! ### What a fork touches -/

/-- The directory of `aegis pull`, with one entry a model. -/
def models (cacheDir : String) : String := joinPath (joinPath cacheDir "aegis") "models"

structure Files where
  modelPath : String
  ledgerPath : String

/-- The files that a fork boots its session with. -/
def forkFiles (request : ForkRequest) : Except ForkError Files :=
  match request.around.cacheDir with
  | none => .error .NoCacheDir
  | some cacheDir =>
    let modelPath := cachedModel cacheDir request.modelDigest
    if !request.around.isFile modelPath then .error (.NotInLocalCache request.modelDigest modelPath)
    else
      match Bytes.decode ((Bytes.encode request.modelDigest).take 8) with
      | none => .error .Panicked
      | some digest8 => do
        let dir ← request.around.currentDir.mapError .LedgerPath
        return ⟨modelPath,forkLedger request.around dir digest8⟩

/-- The digest names an entry of the cache, its blob is loaded, and the ledger is put into
    the current directory. -/
structure Confines (request : ForkRequest) (files : Files) : Prop where
  digest : HexDigest request.modelDigest
  entry : ∃ cacheDir entry,request.around.cacheDir = some cacheDir ∧
    Directly (models cacheDir) entry request.modelDigest.toList ∧ Directly entry files.modelPath "blob.bin".toList
  ledger : ∃ dir name,request.around.currentDir = .ok dir ∧ Directly dir files.ledgerPath name

section
variable [Clock.Chrono] [Json.Serde] [Ledger.Sha256] [Adversarial.PerlWord]

theorem fork_files (factory : SessionBackendFactory) (request : ForkRequest) : fork factory request = (do
    let files ← forkFiles request
    let session ← (bootSessionForUi request.around factory files.modelPath (some files.ledgerPath)).mapError .ForkingSession
    return ⟨session,request.around,some request.modelDigest⟩) := by
  unfold fork forkFiles
  cases request.around.cacheDir with
  | none => rfl
  | some cacheDir =>
    dsimp only
    cases request.around.isFile (cachedModel cacheDir request.modelDigest) with
    | false => rfl
    | true =>
      cases Bytes.decode ((Bytes.encode request.modelDigest).take 8) with
      | none => rfl
      | some digest8 => cases request.around.currentDir <;> rfl

/-- A fork ends with an error that is not a panic on the way to the ledger, or with a
    session of a model in the cache. -/
def Confined (factory : SessionBackendFactory) (request : ForkRequest) : Prop :=
  match fork factory request with
  | .error .Panicked => False
  | .error _ => True
  | .ok backend => ∃ files,forkFiles request = .ok files ∧ backend.session.modelPath = files.modelPath ∧ Confines request files

/-- The string names an entry, or leads to no file, or no session boots from it. -/
def Harmless (factory : SessionBackendFactory) (request : ForkRequest) : Prop :=
  HexDigest request.modelDigest ∨ ∀ cacheDir,request.around.cacheDir = some cacheDir →
    request.around.isFile (cachedModel cacheDir request.modelDigest) = true →
      ∃ digest8,Bytes.decode ((Bytes.encode request.modelDigest).take 8) = some digest8 ∧
        ∀ dir,request.around.currentDir = .ok dir → ∀ session,
          bootSessionForUi request.around factory (cachedModel cacheDir request.modelDigest)
            (some (forkLedger request.around dir digest8)) ≠ .ok session

omit [Clock.Chrono] [Json.Serde] [Ledger.Sha256] [Adversarial.PerlWord] in
theorem forkFiles_ok {request : ForkRequest} {files : Files} : forkFiles request = .ok files ↔
    ∃ cacheDir digest8 dir,request.around.cacheDir = some cacheDir ∧
      request.around.isFile (cachedModel cacheDir request.modelDigest) = true ∧
      Bytes.decode ((Bytes.encode request.modelDigest).take 8) = some digest8 ∧ request.around.currentDir = .ok dir ∧
      files = ⟨cachedModel cacheDir request.modelDigest,forkLedger request.around dir digest8⟩ := by
  unfold forkFiles
  cases request.around.cacheDir with
  | none => simp
  | some cacheDir =>
    cases held : request.around.isFile (cachedModel cacheDir request.modelDigest) with
    | false => simp [held]
    | true =>
      cases Bytes.decode ((Bytes.encode request.modelDigest).take 8) with
      | none => simp [held]
      | some digest8 =>
        cases request.around.currentDir with
        | error detail => simp [held,Except.mapError,bind,Except.bind]
        | ok dir =>
          simp only [held,Bool.not_true,Bool.false_eq_true,if_false,Option.some.injEq,Except.ok.injEq]
          constructor
          · rintro ⟨⟩
            exact ⟨cacheDir,digest8,dir,rfl,held,rfl,rfl,rfl⟩
          · rintro ⟨_,_,_,rfl,-,rfl,rfl,rfl⟩
            rfl

omit [Clock.Chrono] [Json.Serde] [Ledger.Sha256] [Adversarial.PerlWord] in
theorem forkFiles_panics {request : ForkRequest} : forkFiles request = .error .Panicked ↔
    ∃ cacheDir,request.around.cacheDir = some cacheDir ∧
      request.around.isFile (cachedModel cacheDir request.modelDigest) = true ∧
      Bytes.decode ((Bytes.encode request.modelDigest).take 8) = none := by
  unfold forkFiles
  cases request.around.cacheDir with
  | none => simp
  | some cacheDir =>
    cases held : request.around.isFile (cachedModel cacheDir request.modelDigest) with
    | false => simp [held]
    | true =>
      cases Bytes.decode ((Bytes.encode request.modelDigest).take 8) with
      | none => simp [held]
      | some digest8 => cases request.around.currentDir <;> simp [held,Except.mapError,bind,Except.bind,pure,Except.pure]

theorem bootSessionForUi_loads {around : Surroundings} {factory : SessionBackendFactory} {modelPath : String}
    {ledgerPath : Option String} {session : Session} (boots : bootSessionForUi around factory modelPath ledgerPath = .ok session) :
    session.modelPath = modelPath := by
  obtain ⟨dir,booted,started,-,same⟩ := bootSessionForUi_boots boots
  let _ := around.world
  let _ := around.x509
  let _ := LocalCa.identity
  obtain ⟨_,_,_,-,-,-,loaded⟩ := boot_issued started
  exact same.trans loaded

/-- Booting is after the ledger has its name. -/
theorem fork_panics {factory : SessionBackendFactory} {request : ForkRequest} :
    fork factory request = .error .Panicked ↔ forkFiles request = .error .Panicked := by
  rw [fork_files]
  cases forkFiles request with
  | error error => simp [bind,Except.bind]
  | ok files =>
    cases booted : bootSessionForUi request.around factory files.modelPath (some files.ledgerPath) <;>
      simp [booted,Except.mapError,bind,Except.bind,pure,Except.pure]

theorem fork_ok {factory : SessionBackendFactory} {request : ForkRequest} {backend : SessionBackend} :
    fork factory request = .ok backend ↔ ∃ files session,forkFiles request = .ok files ∧
      bootSessionForUi request.around factory files.modelPath (some files.ledgerPath) = .ok session ∧
      backend = ⟨session,request.around,some request.modelDigest⟩ := by
  rw [fork_files]
  constructor
  · intro forked
    obtain ⟨files,found,rest⟩ := Ledger.bind_ok.mp forked
    obtain ⟨session,boots,last⟩ := Ledger.bind_ok.mp rest
    cases last
    exact ⟨files,session,found,mapError_ok.mp boots,rfl⟩
  · rintro ⟨files,session,found,boots,rfl⟩
    exact Ledger.bind_ok.mpr ⟨files,found,Ledger.bind_ok.mpr ⟨session,mapError_ok.mpr boots,rfl⟩⟩

/-- A fork is confined when neither a panic nor a session for another string comes out. -/
theorem confined_eq {factory : SessionBackendFactory} {request : ForkRequest} : Confined factory request ↔
    fork factory request ≠ .error .Panicked ∧ ∀ backend,fork factory request = .ok backend →
      ∃ files,forkFiles request = .ok files ∧ backend.session.modelPath = files.modelPath ∧ Confines request files := by
  unfold Confined
  split
  · rename_i panicked
    simp [panicked]
  · rename_i error other failed
    have calm : error ≠ .Panicked := fun same => other same
    simp [failed,calm]
  · rename_i backend forked
    simp [forked]

omit [Clock.Chrono] [Json.Serde] [Ledger.Sha256] [Adversarial.PerlWord] in
theorem forkLedger_plain (around : Surroundings) {digest8 : List Char} (unslashed : '/' ∉ digest8) :
    Plain ("ledger-ui-fork-" ++ String.ofList digest8 ++ "-" ++ toString around.unixSecs ++ ".jsonl") := by
  have digits : '/' ∉ (toString around.unixSecs).toList := by
    rw [Nat.toString_eq_repr,Nat.toList_repr]
    intro slash
    exact absurd (JsonText.isDigit_toDigits _ '/' slash) (by decide)
  refine Plain.mk ?nonempty ?unslashed ?undotted ?inside
  case nonempty => simp
  case unslashed =>
    simp only [String.toList_append,String.toList_ofList,List.mem_append,not_or]
    exact ⟨⟨⟨⟨by decide,unslashed⟩,by decide⟩,digits⟩,by decide⟩
  case undotted => simp
  case inside => simp

omit [Clock.Chrono] [Json.Serde] [Ledger.Sha256] [Adversarial.PerlWord] in
theorem HexDigest.confines {request : ForkRequest} {files : Files} (hex : HexDigest request.modelDigest)
    (found : forkFiles request = .ok files) : Confines request files := by
  obtain ⟨cacheDir,digest8,dir,cache,-,cut,located,rfl⟩ := forkFiles_ok.mp found
  have digest8_eq := Option.some.inj (hex.cut.symm.trans cut)
  have ledger := forkLedger_plain request.around (fun slash => hex.plain.unslashed (List.mem_of_mem_take (i := 8) slash))
  rw [digest8_eq] at ledger
  have blob : Plain "blob.bin" := Plain.mk (by decide) (by decide) (by decide) (by decide)
  refine Confines.mk hex ?entry ⟨dir,_,located,components_joinPath ledger⟩
  case entry =>
    exact ⟨cacheDir,joinPath (models cacheDir) request.modelDigest,cache,components_joinPath hex.plain,components_joinPath blob⟩

/-- A fork is confined just when its string is the name of an entry, or leads to no
    session without a panic. -/
theorem fork_confined_iff (factory : SessionBackendFactory) (request : ForkRequest) :
    Confined factory request ↔ Harmless factory request := by
  rw [confined_eq,Ne,fork_panics]
  constructor
  · rintro ⟨calm,confines⟩
    by_cases hex : HexDigest request.modelDigest
    · exact .inl hex
    · refine .inr (fun cacheDir cache held => ?_)
      cases cut : Bytes.decode ((Bytes.encode request.modelDigest).take 8) with
      | none => exact absurd (forkFiles_panics.mpr ⟨cacheDir,cache,held,cut⟩) calm
      | some digest8 =>
        refine ⟨digest8,rfl,?_⟩
        intro dir located session boots
        obtain ⟨files,-,-,confined⟩ := confines _ (fork_succeeds cache held cut located boots)
        exact hex confined.digest
  · rintro (hex | silent)
    · constructor
      · intro panics
        obtain ⟨cacheDir,-,-,cut⟩ := forkFiles_panics.mp panics
        rw [hex.cut] at cut
        cases cut
      · intro backend forked
        obtain ⟨files,session,found,boots,rfl⟩ := fork_ok.mp forked
        exact ⟨files,found,bootSessionForUi_loads boots,hex.confines found⟩
    · constructor
      · intro panics
        obtain ⟨cacheDir,cache,held,cut⟩ := forkFiles_panics.mp panics
        obtain ⟨digest8,whole,-⟩ := silent cacheDir cache held
        rw [cut] at whole
        cases whole
      · intro backend forked
        obtain ⟨files,session,found,boots,-⟩ := fork_ok.mp forked
        obtain ⟨cacheDir,digest8,dir,cache,held,cut,located,rfl⟩ := forkFiles_ok.mp found
        obtain ⟨digest8',cut',fails⟩ := silent cacheDir cache held
        cases cut.symm.trans cut'
        exact absurd boots (fails dir located session)

end

/-! ### Strings that name no entry -/

open scoped Reference

/-- It replaces the path that it is joined to. -/
def elsewhere : String := "/elsewhere"

/-- The eighth byte is the first of two. -/
def halved : String := "aaaaaaaé"

theorem elsewhere_cut : Bytes.decode ((Bytes.encode elsewhere).take 8) = some "/elsewhe" := by decide +kernel
theorem halved_cut : Bytes.decode ((Bytes.encode halved).take 8) = none := by decide +kernel

theorem elsewhere_blob : cachedModel "/cache" elsewhere = "/elsewhere/blob.bin" := by decide +kernel

theorem elsewhere_forks : ∃ session,fork fixedArgs ⟨elsewhere,calm bare⟩ = .ok ⟨session,calm bare,some elsewhere⟩ ∧
    session.modelPath = "/elsewhere/blob.bin" := by
  obtain ⟨session,forked,path⟩ := calm_forks bare elsewhere_cut
  exact ⟨session,forked,path.trans elsewhere_blob⟩

theorem halved_panics : fork fixedArgs ⟨halved,calm bare⟩ = .error .Panicked :=
  fork_panics.mpr (forkFiles_panics.mpr ⟨"/cache",rfl,rfl,halved_cut⟩)

/-- An absolute string loads a model outside the cache, and a character across the eighth
    byte stops the fork by a panic. -/
theorem fork_escapes : ¬ (∀ request,Confined fixedArgs request) ∧ ¬ Confined fixedArgs ⟨elsewhere,calm bare⟩ ∧
    ¬ Confined fixedArgs ⟨halved,calm bare⟩ := by
  have outside : ¬ Confined fixedArgs ⟨elsewhere,calm bare⟩ := by
    intro confined
    obtain ⟨session,forked,-⟩ := elsewhere_forks
    obtain ⟨files,-,-,confines⟩ := (confined_eq.mp confined).2 _ forked
    exact absurd confines.digest (by decide)
  have panics : ¬ Confined fixedArgs ⟨halved,calm bare⟩ := fun confined => (confined_eq.mp confined).1 halved_panics
  exact ⟨fun all => outside (all _),outside,panics⟩

end AegisNode.ForkConfinement
