import AegisNode.Policy

/-!
Durations of write grants. The documented form is an optional number of days and optional
hours, minutes and seconds in this order; what the parser takes, and where it panics, is
compared with it.
-/
namespace AegisNode.Durations
open Text Clock Schema Policy

/-! ### The documented form -/

/-- A number with its unit, or nothing. -/
inductive Component (unit : Char) (span : Int) : List Char → Int → Prop where
  | Absent : Component unit span [] 0
  | Present {digits : List Char} {n : Nat} (number : decimal? digits = some n) :
      Component unit span (digits ++ [unit]) (n*span)

inductive TimePart : List Char → Int → Prop where
  | Absent : TimePart [] 0
  | Present {hours minutes seconds : List Char} {x y z : Int} (first : Component 'H' hour hours x)
      (second : Component 'M' minute minutes y) (third : Component 'S' Clock.second seconds z) :
      TimePart ('T' :: (hours ++ minutes ++ seconds)) (x+y+z)

/-- `P[<n>D][T[<n>H][<n>M][<n>S]]`, and what the components add up to. -/
def Documented (s : String) (total : Int) : Prop :=
  ∃ date time x y,Component 'D' day date x ∧ TimePart time y ∧ s.toList = 'P' :: (date ++ time) ∧ total = x+y

/-! ### What the parser sums up -/

/-- A number that is not negative. -/
def count? (digits : List Char) : Option Int := (parseI64 digits).filter (0 ≤ ·)

/-- The counts with their units, and whether nothing is left behind them. -/
def countsOf (date time : List Char) : List (Option Int × Int) :=
  (if date = [] then [] else [((stripDays date).bind count?,day)]) ++
    (unitPieces time).1.map fun piece => (count? piece.1,unitSpan piece.2)

def sumUp (complete : Bool) : Int → List (Option Int × Int) → Checked (Option Int)
  | total,[] => .ok (if complete then some total else none)
  | _,(none,_) :: _ => .ok none
  | total,(some n,span) :: rest =>
    match units n span with
    | .error panic => .error panic
    | .ok increment =>
      match checkedAdd total increment with
      | none => .ok none
      | some total => sumUp complete total rest

def sumOf (counts : List (Option Int × Int)) : Int := (counts.map fun c => c.1.getD 0*c.2).sum

/-- Counts that are not negative, of units that take time. -/
def Sane (counts : List (Option Int × Int)) : Prop := ∀ c ∈ counts,0 < c.2 ∧ ∀ n,c.1 = some n → 0 ≤ n

/-- A count is reached that its unit cannot represent, although it is a number. -/
def Overflows (total : Int) (counts : List (Option Int × Int)) : Prop :=
  ∃ before n span after,counts = before ++ (some n,span) :: after ∧ (∀ c ∈ before,c.1 ≠ none) ∧
    total+sumOf before ≤ deltaLimit ∧ deltaLimit < n*span

theorem sumOf_nonneg {counts : List (Option Int × Int)} (sane : Sane counts) : 0 ≤ sumOf counts := by
  refine List.sum_nonneg ?_
  intro x listed
  obtain ⟨⟨count,span⟩,member,rfl⟩ := List.mem_map.mp listed
  obtain ⟨positive,nonneg⟩ := sane _ member
  cases count with
  | none => simp
  | some n => exact mul_nonneg (nonneg n rfl) positive.le

theorem sumOf_cons (c : Option Int × Int) (rest : List (Option Int × Int)) : sumOf (c :: rest) = c.1.getD 0*c.2+sumOf rest := by
  simp [sumOf]

theorem delta?_nonneg {span : Int} (nonneg : 0 ≤ span) : delta? span = if deltaLimit < span then none else some span := by
  have positive : 0 ≤ deltaLimit := by decide
  unfold delta?
  by_cases large : deltaLimit < span
  · rw [if_neg (by omega),if_pos large]
  · rw [if_pos (by omega),if_neg large]

/-- One step of the sum: it panics, gives up, or goes on. -/
theorem sumUp_step {complete : Bool} {total n span : Int} {rest : List (Option Int × Int)} (start : 0 ≤ total) (nonneg : 0 ≤ n*span) :
    sumUp complete total ((some n,span) :: rest) =
      if deltaLimit < n*span then .error .TimeDeltaOutOfBounds
      else if deltaLimit < total+n*span then .ok none
      else sumUp complete (total+n*span) rest := by
  rw [sumUp,units,delta?_nonneg nonneg]
  by_cases large : deltaLimit < n*span
  · rw [if_pos large,if_pos large]
  · rw [if_neg large,if_neg large]
    dsimp only
    rw [checkedAdd,delta?_nonneg (by omega)]
    by_cases beyond : deltaLimit < total+n*span
    · rw [if_pos beyond,if_pos beyond]
    · rw [if_neg beyond,if_neg beyond]

theorem sane_cons {c : Option Int × Int} {rest : List (Option Int × Int)} (sane : Sane (c :: rest)) : Sane rest :=
  fun other listed => sane other (List.mem_cons_of_mem _ listed)

theorem sane_head {n span : Int} {rest : List (Option Int × Int)} (sane : Sane ((some n,span) :: rest)) : 0 ≤ n*span := by
  obtain ⟨positive,nonneg⟩ := sane _ List.mem_cons_self
  exact mul_nonneg (nonneg n rfl) positive.le

theorem overflows_cons {total n span : Int} {rest : List (Option Int × Int)} (sane : Sane ((some n,span) :: rest)) :
    Overflows total ((some n,span) :: rest) ↔
      (total ≤ deltaLimit ∧ deltaLimit < n*span) ∨ Overflows (total+n*span) rest := by
  constructor
  · rintro ⟨before,m,unit,after,whole,read,low,high⟩
    cases before with
    | nil =>
      cases whole
      exact .inl ⟨by simpa [sumOf] using low,high⟩
    | cons first before =>
      obtain ⟨rfl,rfl⟩ := List.cons.inj whole
      rw [sumOf_cons] at low
      refine .inr ⟨before,m,unit,after,rfl,fun c listed => read c (List.mem_cons_of_mem _ listed),?_,high⟩
      simpa [Int.add_assoc] using low
  · rintro (⟨low,high⟩ | ⟨before,m,unit,after,rfl,read,low,high⟩)
    · exact ⟨[],n,span,rest,rfl,by simp,by simpa [sumOf] using low,high⟩
    · refine ⟨(some n,span) :: before,m,unit,after,rfl,?_,?_,high⟩
      · intro c listed
        rcases List.mem_cons.mp listed with rfl | listed
        · simp
        · exact read c listed
      · rw [sumOf_cons]
        simpa [Int.add_assoc] using low

/-- The sum panics just when a count is reached that its unit cannot represent. -/
theorem sumUp_error_iff {complete : Bool} {total : Int} {counts : List (Option Int × Int)} (start : 0 ≤ total)
    (within : total ≤ deltaLimit) (sane : Sane counts) : (∃ panic,sumUp complete total counts = .error panic) ↔ Overflows total counts := by
  induction counts generalizing total with
  | nil =>
    refine iff_of_false (by simp [sumUp]) ?_
    rintro ⟨before,n,span,after,whole,-⟩
    simp at whole
  | cons c rest ih =>
    obtain ⟨count,span⟩ := c
    cases count with
    | none =>
      refine iff_of_false (by simp [sumUp]) ?_
      rintro ⟨before,n,unit,after,whole,read,-⟩
      cases before with
      | nil => cases whole
      | cons first before =>
        obtain ⟨rfl,-⟩ := List.cons.inj whole
        exact read _ List.mem_cons_self rfl
    | some n =>
      have nonneg := sane_head sane
      rw [sumUp_step start nonneg,overflows_cons sane]
      by_cases large : deltaLimit < n*span
      · rw [if_pos large]
        exact iff_of_true ⟨_,rfl⟩ (.inl ⟨within,large⟩)
      · rw [if_neg large]
        by_cases beyond : deltaLimit < total+n*span
        · rw [if_pos beyond]
          refine iff_of_false (by simp) ?_
          rintro (⟨-,high⟩ | ⟨before,m,unit,after,rfl,-,low,-⟩)
          · exact large high
          · have earlier : Sane before := fun c listed => sane c (List.mem_cons_of_mem _ (List.mem_append_left _ listed))
            have := sumOf_nonneg earlier
            omega
        · rw [if_neg beyond,ih (by omega) (by omega) (sane_cons sane)]
          simp [large]

/-- The sum gives a duration just when every count is read and they add up to one that can
    be represented. -/
theorem sumUp_some_iff {complete : Bool} {total d : Int} {counts : List (Option Int × Int)} (start : 0 ≤ total)
    (sane : Sane counts) (within : total ≤ deltaLimit) : sumUp complete total counts = .ok (some d) ↔
      complete = true ∧ (∀ c ∈ counts,c.1 ≠ none) ∧ total+sumOf counts ≤ deltaLimit ∧ d = total+sumOf counts := by
  induction counts generalizing total with
  | nil => cases complete <;> simp [sumUp,sumOf,within,eq_comm]
  | cons c rest ih =>
    obtain ⟨count,span⟩ := c
    cases count with
    | none => simp [sumUp]
    | some n =>
      have nonneg := sane_head sane
      have later := sumOf_nonneg (sane_cons sane)
      rw [sumUp_step start nonneg,sumOf_cons]
      simp only [List.forall_mem_cons,Option.getD_some]
      by_cases large : deltaLimit < n*span
      · rw [if_pos large]
        refine iff_of_false (by simp) ?_
        rintro ⟨-,-,low,-⟩
        omega
      · rw [if_neg large]
        by_cases beyond : deltaLimit < total+n*span
        · rw [if_pos beyond]
          refine iff_of_false (by simp) ?_
          rintro ⟨-,-,low,-⟩
          omega
        · rw [if_neg beyond,ih (by omega) (sane_cons sane) (by omega)]
          simp [Int.add_assoc]

/-! ### The parser as a sum -/

theorem count?_nonneg {digits : List Char} {n : Int} (read : count? digits = some n) : 0 ≤ n := by
  simpa using (Option.filter_eq_some_iff.mp read).2

theorem sane_countsOf (date time : List Char) : Sane (countsOf date time) := by
  intro c listed
  rcases List.mem_append.mp listed with days | times
  · split_ifs at days with absent
    · cases days
    · cases List.mem_singleton.mp days
      refine ⟨show 0 < day by decide,fun n read => ?_⟩
      obtain ⟨digits,-,counted⟩ := Option.bind_eq_some_iff.mp read
      exact count?_nonneg counted
  · obtain ⟨piece,-,rfl⟩ := List.mem_map.mp times
    exact ⟨unitSpan_pos _,fun n read => count?_nonneg read⟩

theorem count?_cases (digits : List Char) :
    (parseI64 digits = none ∧ count? digits = none) ∨
      ∃ n,parseI64 digits = some n ∧ ((n < 0 ∧ count? digits = none) ∨ ¬ n < 0 ∧ count? digits = some n) := by
  rw [count?]
  cases parseI64 digits with
  | none => exact .inl ⟨rfl,rfl⟩
  | some n =>
    refine .inr ⟨n,rfl,?_⟩
    by_cases negative : n < 0
    · exact .inl ⟨negative,by simp [negative]⟩
    · exact .inr ⟨negative,by simp [Int.not_lt.mp negative]⟩

theorem timeLoop_sums (pieces : List (List Char × Char)) (tail : List Char) (total : Int) :
    timeLoop total pieces tail = sumUp (tail = []) total (pieces.map fun piece => (count? piece.1,unitSpan piece.2)) := by
  induction pieces generalizing total with
  | nil => by_cases ended : tail = [] <;> simp [timeLoop,sumUp,ended]
  | cons piece more ih =>
    obtain ⟨digits,unit⟩ := piece
    rw [timeLoop,List.map_cons]
    rcases count?_cases digits with ⟨unread,none⟩ | ⟨n,read,⟨negative,none⟩ | ⟨positive,counted⟩⟩
    · simp only [unread,none,sumUp]
    · simp only [read,none,sumUp,if_pos negative]
    · simp only [read,counted,sumUp,if_neg positive]
      cases units n (unitSpan unit) with
      | error panic => rfl
      | ok increment =>
        dsimp only
        cases checkedAdd total increment with
        | none => rfl
        | some total => exact ih total

theorem parse_sums {s : String} {date time : List Char} (parts : isoParts s = some (date,time)) :
    parseIso8601Duration s = sumUp ((unitPieces time).2 = []) 0 (countsOf date time) := by
  simp only [parseIso8601Duration,parts,countsOf]
  by_cases absent : date = []
  · rw [if_pos absent,if_pos absent,List.nil_append,timeLoop_sums]
  · rw [if_neg absent,if_neg absent,List.singleton_append]
    cases days : stripDays date with
    | none => rfl
    | some digits =>
      simp only [Option.bind_some]
      rcases count?_cases digits with ⟨unread,none⟩ | ⟨n,read,⟨negative,none⟩ | ⟨positive,counted⟩⟩
      · simp only [unread,none,sumUp]
      · simp only [read,none,sumUp,if_pos negative]
      · simp only [read,counted,sumUp,if_neg positive]
        cases units n day with
        | error panic => rfl
        | ok days =>
          dsimp only
          cases checkedAdd 0 days with
          | none => rfl
          | some total => exact timeLoop_sums _ _ _

/-! ### Texts -/

/-- No sign in front. -/
def Unsigned (digits : List Char) : Prop := digits.head? ≠ some '+' ∧ digits.head? ≠ some '-'

theorem decimal?_unsigned {digits : List Char} {n : Nat} (number : decimal? digits = some n) : Unsigned digits := by
  obtain ⟨-,all⟩ := decimal?_digits number
  cases digits with
  | nil => exact ⟨by simp,by simp⟩
  | cons first rest =>
    have digit := all first List.mem_cons_self
    exact ⟨by simpa using digit_other digit _ (by decide),by simpa using digit_other digit _ (by decide)⟩

theorem parseI64_unsigned {digits : List Char} (unsigned : Unsigned digits) :
    parseI64 digits = (decimal? digits).bind fun n => if n < 2^63 then some (n : Int) else none := by
  unfold parseI64
  split
  · exact absurd rfl unsigned.1
  · exact absurd rfl unsigned.2
  · rfl

/-- An unsigned count is a decimal number. -/
theorem count?_decimal {digits : List Char} (unsigned : Unsigned digits) {n : Int} (read : count? digits = some n) :
    ∃ m,decimal? digits = some m ∧ n = m := by
  rw [count?,parseI64_unsigned unsigned] at read
  obtain ⟨m,number,bounded⟩ := Option.bind_eq_some_iff.mp (Option.filter_eq_some_iff.mp read).1
  split_ifs at bounded
  exact ⟨m,number,(Option.some.inj bounded).symm⟩

theorem decimal?_count {digits : List Char} {m : Nat} (number : decimal? digits = some m) :
    count? digits = none ∨ count? digits = some m := by
  rw [count?,parseI64_unsigned (decimal?_unsigned number),number,Option.bind_some]
  split_ifs
  · exact .inr (by simp)
  · exact .inl rfl

theorem unitPieces_piece {digits : List Char} (plain : ∀ c ∈ digits,isUnit c = false) {unit : Char} (is : isUnit unit = true)
    (rest : List Char) : unitPieces (digits ++ unit :: rest) = ((digits,unit) :: (unitPieces rest).1,(unitPieces rest).2) := by
  induction digits with
  | nil => rw [List.nil_append,unitPieces,if_pos is]
  | cons c digits ih =>
    have other : ¬ isUnit c = true := by simp [plain c List.mem_cons_self]
    rw [List.cons_append,unitPieces,if_neg other,ih fun c listed => plain c (List.mem_cons_of_mem _ listed)]

theorem isUnit_digit {c : Char} (digit : digit? c ≠ none) : isUnit c = false := by
  have hours := digit_other digit 'H' (by decide)
  have minutes := digit_other digit 'M' (by decide)
  have seconds := digit_other digit 'S' (by decide)
  simp [isUnit,hours,minutes,seconds]

/-- What a component is cut into. -/
inductive CutAs (unit : Char) (span value : Int) : List (List Char × Char) → Prop where
  | Nothing (none : value = 0) : CutAs unit span value []
  | Piece {digits : List Char} {n : Nat} (number : decimal? digits = some n) (same : value = n*span) :
      CutAs unit span value [(digits,unit)]

theorem component_cut {unit : Char} {span value : Int} {text : List Char} (component : Component unit span text value)
    (is : isUnit unit = true) : ∃ pieces,CutAs unit span value pieces ∧
      ∀ rest,unitPieces (text ++ rest) = (pieces ++ (unitPieces rest).1,(unitPieces rest).2) := by
  cases component with
  | Absent => exact ⟨[],.Nothing rfl,fun rest => rfl⟩
  | @Present digits n number =>
    refine ⟨_,.Piece number rfl,fun rest => ?_⟩
    rw [List.append_assoc,List.singleton_append,unitPieces_piece (fun c listed => isUnit_digit ((decimal?_digits number).2 c listed)) is]
    rfl

/-- The pieces with what is left make up the text. -/
theorem unitPieces_join : ∀ text : List Char,
    text = (unitPieces text).1.flatMap (fun piece => piece.1 ++ [piece.2]) ++ (unitPieces text).2 ∧
      ∀ piece ∈ (unitPieces text).1,isUnit piece.2 = true
  | [] => ⟨rfl,by simp [unitPieces]⟩
  | c :: rest => by
    obtain ⟨whole,units⟩ := unitPieces_join rest
    rw [unitPieces]
    by_cases is : isUnit c = true
    · rw [if_pos is]
      refine ⟨by simpa using whole,?_⟩
      intro piece listed
      rcases List.mem_cons.mp listed with rfl | listed
      · exact is
      · exact units piece listed
    · rw [if_neg is]
      cases pieces : unitPieces rest with
      | mk cut tail =>
        rw [pieces] at whole units
        cases cut with
        | nil => exact ⟨by simpa using whole,by simp⟩
        | cons first more =>
          refine ⟨by simpa using whole,?_⟩
          intro piece listed
          rcases List.mem_cons.mp listed with rfl | listed
          · exact units first List.mem_cons_self
          · exact units piece (List.mem_cons_of_mem _ listed)

/-! ### Plain durations -/

/-- No number is signed, and the units of the time part come in order. -/
structure Plain (date time : List Char) : Prop where
  date : Unsigned date
  numbers : ∀ piece ∈ (unitPieces time).1,Unsigned piece.1
  order : (unitPieces time).1.Pairwise fun first later => unitSpan later.2 < unitSpan first.2

/-- Every count is read, and they add up to a duration that can be represented. -/
def Succeeds (date time : List Char) : Prop :=
  (unitPieces time).2 = [] ∧ (∀ c ∈ countsOf date time,c.1 ≠ none) ∧ sumOf (countsOf date time) ≤ deltaLimit

theorem isoParts_some {s : String} {date time : List Char} : isoParts s = some (date,time) ↔
    ∃ rest,s.toList = 'P' :: rest ∧ ((splitOnce ['T'] rest = some (date,time) ∧ time ≠ []) ∨
      (splitOnce ['T'] rest = none ∧ date = rest ∧ time = [])) := by
  unfold isoParts
  split
  · rename_i rest whole
    simp only [whole,List.cons.injEq,true_and,exists_eq_left']
    rcases cut : splitOnce ['T'] rest with _ | ⟨before,after⟩
    · simp [eq_comm]
    · cases after <;> aesop
  · rename_i other
    simp only [reduceCtorEq,false_iff]
    rintro ⟨rest,whole,-⟩
    exact other rest whole

theorem documented_parts {s : String} {total : Int} (documented : Documented s total) {date time : List Char}
    (parts : isoParts s = some (date,time)) :
    ∃ x y z w h m sec,Component 'D' day date x ∧ CutAs 'H' hour y h ∧ CutAs 'M' minute z m ∧ CutAs 'S' Clock.second w sec ∧
      unitPieces time = (h ++ (m ++ sec),[]) ∧ total = x+(y+z+w) := by
  obtain ⟨dateText,timeText,x,y,days,times,whole,rfl⟩ := documented
  have noT : 'T' ∉ dateText := by
    cases days with
    | Absent => simp
    | Present number =>
      intro member
      rcases List.mem_append.mp member with digit | unit
      · exact digit_other ((decimal?_digits number).2 _ digit) 'T' (by decide) rfl
      · simp at unit
  obtain ⟨rest,same,halves⟩ := isoParts_some.mp parts
  obtain rfl := (List.cons.inj (whole.symm.trans same)).2
  cases times with
  | Absent =>
    have uncut : splitOnce ['T'] (dateText ++ []) = none :=
      splitOnce_none (by simp) (by simpa [List.singleton_infix_iff] using noT)
    rw [uncut] at halves
    obtain ⟨rfl,rfl⟩ : date = dateText ∧ time = [] := by simpa using halves
    exact ⟨x,0,0,0,[],[],[],days,.Nothing rfl,.Nothing rfl,.Nothing rfl,rfl,by simp⟩
  | @Present hours minutes seconds a b c first second third =>
    have cut : splitOnce ['T'] (dateText ++ ['T'] ++ (hours ++ minutes ++ seconds)) = some (dateText,hours ++ minutes ++ seconds) :=
      splitOnce_append (by simp) _ (by simpa [List.singleton_infix_iff] using noT)
    rw [List.append_assoc,List.singleton_append] at cut
    rw [cut] at halves
    obtain ⟨⟨rfl,rfl⟩,-⟩ : (dateText = date ∧ hours ++ minutes ++ seconds = time) ∧ time ≠ [] := by simpa using halves
    obtain ⟨h,cutH,piecesH⟩ := component_cut first (by decide)
    obtain ⟨m,cutM,piecesM⟩ := component_cut second (by decide)
    obtain ⟨sec,cutS,piecesS⟩ := component_cut third (by decide)
    refine ⟨x,a,b,c,h,m,sec,days,cutH,cutM,cutS,?_,rfl⟩
    have last := piecesS []
    rw [List.append_nil] at last
    rw [List.append_assoc,piecesH,piecesM,last]
    simp [unitPieces]

theorem CutAs.unsigned {unit : Char} {span value : Int} {pieces : List (List Char × Char)} (cut : CutAs unit span value pieces) :
    ∀ piece ∈ pieces,Unsigned piece.1 ∧ piece.2 = unit := by
  cases cut with
  | Nothing none => simp
  | Piece number same =>
    intro piece listed
    cases List.mem_singleton.mp listed
    exact ⟨decimal?_unsigned number,rfl⟩

theorem CutAs.ordered {unit : Char} {span value : Int} {pieces : List (List Char × Char)} (cut : CutAs unit span value pieces) :
    pieces.Pairwise fun first later => unitSpan later.2 < unitSpan first.2 := by
  cases cut with
  | Nothing none => exact .nil
  | Piece number same => exact List.pairwise_singleton _ _

def countsAt (pieces : List (List Char × Char)) : List (Option Int × Int) :=
  pieces.map fun piece => (count? piece.1,unitSpan piece.2)

theorem CutAs.sum {unit : Char} {value : Int} {pieces : List (List Char × Char)} (cut : CutAs unit (unitSpan unit) value pieces)
    (read : ∀ c ∈ countsAt pieces,c.1 ≠ none) : sumOf (countsAt pieces) = value := by
  cases cut with
  | Nothing none => exact none.symm
  | @Piece digits n number same =>
    have counted : count? digits = some n := by
      rcases decimal?_count number with none | counted
      · exact absurd none (read (count? digits,unitSpan unit) (by simp [countsAt]))
      · exact counted
    rw [same]
    simp [countsAt,sumOf,counted]

theorem sumOf_append (left right : List (Option Int × Int)) : sumOf (left ++ right) = sumOf left+sumOf right := by
  simp [sumOf]

theorem stripDays_days (digits : List Char) : stripDays (digits ++ ['D']) = some digits := by simp [stripDays]

/-- A documented duration is plain, and its counts add up to it if they are read. -/
theorem documented_plain {s : String} {total : Int} (documented : Documented s total) {date time : List Char}
    (parts : isoParts s = some (date,time)) :
    Plain date time ∧ ((∀ c ∈ countsOf date time,c.1 ≠ none) → total = sumOf (countsOf date time)) := by
  obtain ⟨x,y,z,w,h,m,sec,days,cutH,cutM,cutS,pieces,rfl⟩ := documented_parts documented parts
  constructor
  · refine ⟨?_,?_,?_⟩
    · cases days with
      | Absent => exact ⟨by simp,by simp⟩
      | @Present digits n number =>
        have unsigned := decimal?_unsigned number
        obtain ⟨nonempty,-⟩ := decimal?_digits number
        rw [Unsigned,List.head?_append_of_ne_nil _ nonempty]
        exact unsigned
    · rw [pieces]
      intro piece listed
      rcases List.mem_append.mp listed with hours | listed
      · exact (cutH.unsigned piece hours).1
      · rcases List.mem_append.mp listed with minutes | seconds
        · exact (cutM.unsigned piece minutes).1
        · exact (cutS.unsigned piece seconds).1
    · rw [pieces]
      refine List.pairwise_append.mpr ⟨cutH.ordered,List.pairwise_append.mpr ⟨cutM.ordered,cutS.ordered,?_⟩,?_⟩
      · intro minute listed second among
        rw [(cutM.unsigned minute listed).2,(cutS.unsigned second among).2]
        decide
      · intro hour listed later among
        rw [(cutH.unsigned hour listed).2]
        rcases List.mem_append.mp among with minutes | seconds
        · rw [(cutM.unsigned later minutes).2]
          decide
        · rw [(cutS.unsigned later seconds).2]
          decide
  · intro read
    rw [countsOf,pieces] at read ⊢
    change ∀ c ∈ _ ++ countsAt (h ++ (m ++ sec)),c.1 ≠ none at read
    change _ = sumOf (_ ++ countsAt (h ++ (m ++ sec)))
    rw [countsAt,List.map_append,List.map_append] at read ⊢
    simp only [List.forall_mem_append] at read
    obtain ⟨readDays,readHours,readMinutes,readSeconds⟩ := read
    rw [sumOf_append,sumOf_append,sumOf_append]
    have hours : sumOf (countsAt h) = y := CutAs.sum cutH readHours
    have minutes : sumOf (countsAt m) = z := CutAs.sum cutM readMinutes
    have seconds : sumOf (countsAt sec) = w := CutAs.sum cutS readSeconds
    have first : sumOf (if date = [] then [] else [((stripDays date).bind count?,day)]) = x := by
      cases days with
      | Absent => rfl
      | @Present digits n number =>
        have full : digits ++ ['D'] ≠ [] := by simp
        rw [if_neg full,stripDays_days,Option.bind_some] at readDays ⊢
        rcases decimal?_count number with none | counted
        · exact absurd none (readDays _ List.mem_cons_self)
        · simp [sumOf,counted]
    rw [first]
    change x+(y+z+w) = x+(sumOf (countsAt h)+(sumOf (countsAt m)+sumOf (countsAt sec)))
    rw [hours,minutes,seconds,Int.add_assoc]

/-! ### What is plain is documented -/

theorem unit_cases {c : Char} (is : isUnit c = true) : c = 'H' ∨ c = 'M' ∨ c = 'S' := by
  simpa [isUnit,or_assoc] using is

theorem unitSpan_injective {c d : Char} (first : isUnit c = true) (other : isUnit d = true) (same : unitSpan c = unitSpan d) : c = d := by
  rcases unit_cases first with rfl | rfl | rfl <;> rcases unit_cases other with rfl | rfl | rfl <;>
    first | rfl | exact absurd same (by decide)

def joined (pieces : List (List Char × Char)) : List Char := pieces.flatMap fun piece => piece.1 ++ [piece.2]

/-- Pieces of numbers, the larger units first. -/
structure Descending (pieces : List (List Char × Char)) : Prop where
  order : pieces.Pairwise fun first later => unitSpan later.2 < unitSpan first.2
  units : ∀ piece ∈ pieces,isUnit piece.2 = true
  numbers : ∀ piece ∈ pieces,∃ n : Nat,decimal? piece.1 = some n ∧ count? piece.1 = some n

theorem Descending.tail {piece : List Char × Char} {more : List (List Char × Char)} (descending : Descending (piece :: more)) :
    Descending more where
  order := (List.pairwise_cons.mp descending.order).2
  units := fun other listed => descending.units other (List.mem_cons_of_mem _ listed)
  numbers := fun other listed => descending.numbers other (List.mem_cons_of_mem _ listed)

/-- The component of the largest unit there can be, and the pieces behind it. -/
theorem Descending.leads {pieces : List (List Char × Char)} (descending : Descending pieces) (unit : Char) (is : isUnit unit = true)
    (below : ∀ piece ∈ pieces,unitSpan piece.2 ≤ unitSpan unit) :
    ∃ text value rest,Component unit (unitSpan unit) text value ∧ joined pieces = text ++ joined rest ∧
      sumOf (countsAt pieces) = value+sumOf (countsAt rest) ∧ Descending rest ∧ ∀ piece ∈ rest,unitSpan piece.2 < unitSpan unit := by
  cases pieces with
  | nil => exact ⟨[],0,[],.Absent,rfl,by simp,descending,by simp⟩
  | cons piece more =>
    obtain ⟨digits,first⟩ := piece
    have ordered := (List.pairwise_cons.mp descending.order).1
    by_cases same : first = unit
    · subst same
      obtain ⟨n,number,counted⟩ := descending.numbers _ List.mem_cons_self
      refine ⟨digits ++ [first],n*unitSpan first,more,.Present number,by simp [joined],?_,descending.tail,ordered⟩
      simp [countsAt,sumOf,counted]
    · have smaller : unitSpan first < unitSpan unit := by
        refine lt_of_le_of_ne (below _ List.mem_cons_self) ?_
        intro equal
        exact same (unitSpan_injective (descending.units _ List.mem_cons_self) is equal)
      refine ⟨[],0,_,.Absent,rfl,by simp,descending,?_⟩
      intro piece listed
      rcases List.mem_cons.mp listed with rfl | listed
      · exact smaller
      · exact (ordered piece listed).trans smaller

/-- Pieces in order make up a time part. -/
theorem Descending.timePart {pieces : List (List Char × Char)} (descending : Descending pieces) :
    TimePart ('T' :: joined pieces) (sumOf (countsAt pieces)) := by
  have atMost : ∀ {c d : Char},isUnit c = true → isUnit d = true → unitSpan c < unitSpan d →
      unitSpan c ≤ unitSpan 'M' ∧ (d = 'M' → unitSpan c ≤ unitSpan 'S') ∧ d ≠ 'S' := by
    intro c d first other smaller
    rcases unit_cases first with rfl | rfl | rfl <;> rcases unit_cases other with rfl | rfl | rfl <;>
      first | exact absurd smaller (by decide) | decide
  obtain ⟨hours,x,afterHours,first,textH,sumH,descending,smallH⟩ := descending.leads 'H' (by decide) (by
    intro piece listed
    rcases unit_cases (descending.units piece listed) with is | is | is <;> rw [is] <;> decide)
  obtain ⟨minutes,y,afterMinutes,second,textM,sumM,descending,smallM⟩ := descending.leads 'M' (by decide) (by
    intro piece listed
    exact (atMost (descending.units piece listed) (by decide) (smallH piece listed)).1)
  obtain ⟨seconds,z,afterSeconds,third,textS,sumS,descending,smallS⟩ := descending.leads 'S' (by decide) (by
    intro piece listed
    exact (atMost (descending.units piece listed) (by decide) (smallM piece listed)).2.1 rfl)
  have done : afterSeconds = [] := by
    refine List.eq_nil_iff_forall_not_mem.mpr fun piece listed => ?_
    exact (atMost (descending.units piece listed) (by decide) (smallS piece listed)).2.2 rfl
  subst done
  have nothing : sumOf (countsAt []) = 0 := rfl
  rw [textH,textM,textS,sumH,sumM,sumS,nothing,Int.add_zero,← Int.add_assoc,← List.append_assoc]
  simpa [joined] using TimePart.Present first second third

theorem count?_empty : count? [] = none := rfl

/-- A plain duration whose counts are read is documented, and is their sum. -/
theorem plain_documented {s : String} {date time : List Char} (parts : isoParts s = some (date,time)) (plain : Plain date time)
    (complete : (unitPieces time).2 = []) (read : ∀ c ∈ countsOf date time,c.1 ≠ none) :
    Documented s (sumOf (countsOf date time)) := by
  rw [countsOf] at read ⊢
  change ∀ c ∈ _ ++ countsAt (unitPieces time).1,c.1 ≠ none at read
  change Documented s (sumOf (_ ++ countsAt (unitPieces time).1))
  simp only [List.forall_mem_append] at read
  obtain ⟨readDays,readTimes⟩ := read
  rw [sumOf_append]
  have days : Component 'D' day date (sumOf (if date = [] then [] else [((stripDays date).bind count?,day)])) := by
    by_cases absent : date = []
    · subst absent
      exact .Absent
    · rw [if_neg absent] at readDays ⊢
      obtain ⟨n,counted⟩ := Option.ne_none_iff_exists'.mp (readDays _ List.mem_cons_self)
      obtain ⟨digits,stripped,counts⟩ := Option.bind_eq_some_iff.mp counted
      have whole : date = digits ++ ['D'] := by
        unfold stripDays at stripped
        split_ifs at stripped with last
        rw [← Option.some.inj stripped]
        exact (List.dropLast_append_getLast? 'D' last).symm
      have nonempty : digits ≠ [] := by
        rintro rfl
        rw [count?_empty] at counts
        cases counts
      have unsigned : Unsigned digits := by
        have := plain.date
        rwa [whole,Unsigned,List.head?_append_of_ne_nil _ nonempty] at this
      obtain ⟨m,number,rfl⟩ := count?_decimal unsigned counts
      have sum : sumOf [((stripDays date).bind count?,day)] = m*day := by
        dsimp only at counted
        simp [sumOf,counted]
      rw [sum,whole]
      exact .Present number
  have descending : Descending (unitPieces time).1 := by
    refine ⟨plain.order,(unitPieces_join time).2,fun piece listed => ?_⟩
    obtain ⟨n,counts⟩ := Option.ne_none_iff_exists'.mp (readTimes (count? piece.1,unitSpan piece.2) (List.mem_map_of_mem listed))
    obtain ⟨m,number,rfl⟩ := count?_decimal (plain.numbers piece listed) counts
    exact ⟨m,number,counts⟩
  have whole := (unitPieces_join time).1
  rw [complete,List.append_nil] at whole
  obtain ⟨rest,text,⟨cut,present⟩ | ⟨uncut,rfl,rfl⟩⟩ := isoParts_some.mp parts
  · refine ⟨date,'T' :: time,_,_,days,?_,?_,rfl⟩
    · have timePart := descending.timePart
      rwa [joined,← whole] at timePart
    · rw [text,(splitOnce_some (by simp) cut).1]
      simp
  · exact ⟨date,[],_,0,days,.Absent,by simpa using text,by simp [unitPieces,countsAt,sumOf]⟩

/-! ### What is promised of a duration -/

/-- Reading the text does not panic, gives the exact sum of a documented form or nothing,
    and a grant that carries it is then valid or not. -/
structure Faithful (s : String) : Prop where
  calm : ∃ d,parseIso8601Duration s = .ok d
  exact : ∀ d,parseIso8601Duration s = .ok (some d) → Documented s d
  closed : ∀ total,Documented s total → deltaLimit < total → parseIso8601Duration s = .ok none
  grants : ∀ [Chrono] (grant : WriteGrant) (now sessionStart : Int),grant.duration = some s →
    ∃ valid,grantTimeValid grant now sessionStart = .ok valid ∧
      ∀ total,Documented s total → deltaLimit < total → valid = false

/-- No number that is reached is too large for its unit, and a text that is read is plain. -/
def Guarded (s : String) : Prop :=
  ∀ date time,isoParts s = some (date,time) → ¬ Overflows 0 (countsOf date time) ∧ (Succeeds date time → Plain date time)

theorem parse_unparted {s : String} (parts : isoParts s = none) : parseIso8601Duration s = .ok none := by
  simp only [parseIso8601Duration,parts]

theorem parse_error_iff {s : String} {date time : List Char} (parts : isoParts s = some (date,time)) :
    (∃ panic,parseIso8601Duration s = .error panic) ↔ Overflows 0 (countsOf date time) := by
  rw [parse_sums parts]
  exact sumUp_error_iff (by decide) (by decide) (sane_countsOf date time)

theorem parse_some_iff {s : String} {date time : List Char} (parts : isoParts s = some (date,time)) {d : Int} :
    parseIso8601Duration s = .ok (some d) ↔ Succeeds date time ∧ d = sumOf (countsOf date time) := by
  rw [parse_sums parts,sumUp_some_iff (by decide) (sane_countsOf date time) (by decide)]
  simp [Succeeds,and_assoc]

theorem withinDuration_calm {s : String} {d : Option Int} (calm : parseIso8601Duration s = .ok d) {grant : WriteGrant}
    (carries : grant.duration = some s) (now sessionStart : Int) :
    ∃ valid,withinDuration grant now sessionStart = .ok valid ∧ (d = none → valid = false) := by
  simp only [withinDuration,carries,calm]
  cases d with
  | none => exact ⟨false,rfl,fun _ => rfl⟩
  | some dur => exact ⟨_,rfl,by simp⟩

/-- A text is read as documented just when it is guarded. -/
theorem duration_faithful_iff (s : String) : Faithful s ↔ Guarded s := by
  constructor
  · intro faithful date time parts
    constructor
    · intro overflows
      obtain ⟨panic,failed⟩ := (parse_error_iff parts).mpr overflows
      obtain ⟨d,calm⟩ := faithful.calm
      cases failed.symm.trans calm
    · intro succeeds
      have documented := faithful.exact _ ((parse_some_iff parts).mpr ⟨succeeds,rfl⟩)
      exact (documented_plain documented parts).1
  · intro guarded
    have calm : ∃ d,parseIso8601Duration s = .ok d := by
      cases parts : isoParts s with
      | none => exact ⟨none,parse_unparted parts⟩
      | some halves =>
        cases parsed : parseIso8601Duration s with
        | error panic => exact absurd ((parse_error_iff parts).mp ⟨panic,parsed⟩) (guarded _ _ parts).1
        | ok d => exact ⟨d,rfl⟩
    have exact : ∀ d,parseIso8601Duration s = .ok (some d) → Documented s d := by
      intro d parsed
      cases parts : isoParts s with
      | none => cases (parse_unparted parts).symm.trans parsed
      | some halves =>
        obtain ⟨succeeds,rfl⟩ := (parse_some_iff parts).mp parsed
        exact plain_documented parts ((guarded _ _ parts).2 succeeds) succeeds.1 succeeds.2.1
    have closed : ∀ total,Documented s total → deltaLimit < total → parseIso8601Duration s = .ok none := by
      intro total documented large
      obtain ⟨d,parsed⟩ := calm
      cases d with
      | none => exact parsed
      | some d =>
        cases parts : isoParts s with
        | none => exact parse_unparted parts
        | some halves =>
          obtain ⟨⟨-,read,fits⟩,-⟩ := (parse_some_iff parts).mp parsed
          have sum := (documented_plain documented parts).2 read
          omega
    refine ⟨calm,exact,closed,?_⟩
    intro chrono grant now sessionStart carries
    obtain ⟨d,parsed⟩ := calm
    obtain ⟨valid,within,nothing⟩ := withinDuration_calm parsed carries now sessionStart
    rw [grantTimeValid]
    by_cases ahead : beforeExpiry grant now = true
    · rw [if_pos ahead]
      refine ⟨valid,within,fun total documented large => nothing ?_⟩
      exact Except.ok.inj (parsed.symm.trans (closed total documented large))
    · rw [if_neg ahead]
      exact ⟨false,rfl,fun _ _ _ => rfl⟩

/-- A number of hours that is an `i64` and more than a `TimeDelta` holds. -/
theorem hours_panic : ¬ Faithful "PT9223372036854775807H" := by
  intro faithful
  obtain ⟨d,calm⟩ := faithful.calm
  have panics : parseIso8601Duration "PT9223372036854775807H" = .error .TimeDeltaOutOfBounds := by decide +kernel
  cases panics.symm.trans calm

end AegisNode.Durations
