import AegisNode.FirstMatch
import AegisNode.Extends

/-!
The passage of time: a grant that has left its window stays out of it, and a later
decision on a write or a delete is at least as strict as an earlier one, unless a
grant that asks for approval hands ended to one behind it that does not.
-/
namespace AegisNode.Passage
open Clock Schema Policy FirstMatch Extends
/-! ### Windows -/

theorem withinDuration_later {g : WriteGrant} {early late sessionStart : Int} (order : early ≤ late)
    (ended : withinDuration g early sessionStart = .ok false) : withinDuration g late sessionStart = .ok false := by
  unfold withinDuration at *
  cases duration : g.duration with
  | none => simp [duration] at ended
  | some text =>
    cases read : parseIso8601Duration text with
    | error panic => simp [duration,read] at ended
    | ok parsed =>
      cases parsed with
      | none => simp [read]
      | some span =>
        simp only [duration,read,Except.ok.injEq,decide_eq_false_iff_not] at ended ⊢
        omega

section
variable [Chrono]

theorem beforeExpiry_earlier {g : WriteGrant} {early late : Int} (order : early ≤ late)
    (ahead : beforeExpiry g late = true) : beforeExpiry g early = true := by
  unfold beforeExpiry at *
  cases bound : g.expiresAt with
  | none => rfl
  | some expires =>
    cases read : Chrono.parse expires with
    | none => simp [bound,read] at ahead
    | some exp =>
      simp only [bound,read,decide_eq_true_eq] at ahead ⊢
      omega

/-- A grant out of its window does not come back into it. -/
theorem grantTimeValid_later {g : WriteGrant} {early late sessionStart : Int} (order : early ≤ late)
    (ended : grantTimeValid g early sessionStart = .ok false) : grantTimeValid g late sessionStart = .ok false := by
  unfold grantTimeValid at *
  by_cases ahead : beforeExpiry g late = true
  · rw [if_pos (beforeExpiry_earlier order ahead)] at ended
    rw [if_pos ahead]
    exact withinDuration_later order ended
  · rw [if_neg ahead]

/-- What a grant answers to the search for one in its window. -/
def window (now sessionStart : Int) (g : WriteGrant) : Option (Checked WriteGrant) :=
  match grantTimeValid g now sessionStart with
  | .error panic => some (.error panic)
  | .ok true => some (.ok g)
  | .ok false => none

theorem window_none {now sessionStart : Int} {g : WriteGrant} :
    window now sessionStart g = none ↔ grantTimeValid g now sessionStart = .ok false := by
  unfold window
  split <;> simp_all

theorem window_ok {now sessionStart : Int} {g found : WriteGrant} :
    window now sessionStart g = some (.ok found) ↔ g = found ∧ grantTimeValid g now sessionStart = .ok true := by
  unfold window
  split <;> simp_all

theorem findValid_window (now sessionStart : Int) (grants : List WriteGrant) :
    findValid now sessionStart grants =
      match grants.findSome? (window now sessionStart) with
      | none => .ok none
      | some answer => answer.map some := by
  induction grants with
  | nil => rfl
  | cons g rest ih =>
    rw [findValid,List.findSome?_cons,window]
    cases grantTimeValid g now sessionStart with
    | error panic => rfl
    | ok inWindow =>
      cases inWindow with
      | true => rfl
      | false => exact ih

theorem findValid_some {now sessionStart : Int} {grants : List WriteGrant} {g : WriteGrant} :
    findValid now sessionStart grants = .ok (some g) ↔
      grants.findSome? (window now sessionStart) = some (.ok g) := by
  rw [findValid_window]
  cases grants.findSome? (window now sessionStart) with
  | none => simp
  | some answer => cases answer <;> simp [Except.map]

end

/-! ### Decisions -/

/-- The kind of answer of a grant that decides. -/
def grantKind (m : Manifest) (g : WriteGrant) (cls : ApprovalClass) : DecisionKind :=
  if g.approvalRequired || m.approvalRequiredFor.contains cls then .RequireApproval else .Allow

/-- The class that the manifest may ask approval for. -/
def actionClass : WriteAction → ApprovalClass
  | .Delete => .AnyDelete
  | _ => .AnyWrite

theorem writeDecision_kind (m : Manifest) (path : String) (g : WriteGrant) (want : WriteAction) :
    (writeDecision m path g want).kind = grantKind m g (actionClass want) := by
  unfold writeDecision grantKind
  cases want <;> (dsimp only [actionClass]; rw [apply_ite Decision.kind]; rfl)

theorem grantKind_rank {m : Manifest} {g h : WriteGrant} {cls : ApprovalClass} :
    rank (grantKind m g cls) ≤ rank (grantKind m h cls) ↔
      ¬ (cls ∉ m.approvalRequiredFor ∧ g.approvalRequired = true ∧ h.approvalRequired = false) := by
  by_cases required : cls ∈ m.approvalRequiredFor
  · simp [grantKind,required]
  · cases asks : g.approvalRequired <;> cases opens : h.approvalRequired <;> simp [grantKind,required,asks,opens,rank]

section
variable [Chrono]

/-- The grant that decided at `early`, and asked for approval, has left its window at
    `late`, and the first one behind it that is still in its window does not ask. -/
def HandsOver (m : Manifest) (path : String) (want : WriteAction) (early late sessionStart : Int) : Prop :=
  ∃ before asking between opened after,
    m.writeGrants.filter (names path want) = before ++ asking :: (between ++ opened :: after) ∧
    (∀ g ∈ before,grantTimeValid g early sessionStart = .ok false) ∧
    grantTimeValid asking early sessionStart = .ok true ∧ asking.approvalRequired = true ∧
    (∀ g ∈ asking :: between,grantTimeValid g late sessionStart = .ok false) ∧
    grantTimeValid opened late sessionStart = .ok true ∧ opened.approvalRequired = false

/-- A check that answers by the class of its grants: a grant in its window decides,
    all being over denies, and without a grant time does not matter. -/
structure Timed (m : Manifest) (path : String) (want : WriteAction) (check : Int → Int → Checked Decision) : Prop where
  valid : ∀ now sessionStart g,classifyWriteGrant m path want now sessionStart = .ok (.Valid g) →
    check now sessionStart = .ok (writeDecision m path g want)
  expired : ∀ now sessionStart,classifyWriteGrant m path want now sessionStart = .ok .Expired →
    ∃ reason,check now sessionStart = .ok (.Deny reason)
  panics : ∀ now sessionStart panic,classifyWriteGrant m path want now sessionStart = .error panic →
    check now sessionStart = .error panic
  broad : m.writeGrants.filter (names path want) = [] → ∃ decision,∀ now sessionStart,check now sessionStart = .ok decision

theorem classifyWriteGrant_none {m : Manifest} {path : String} {want : WriteAction} {now sessionStart : Int}
    (unnamed : m.writeGrants.filter (names path want) = []) :
    classifyWriteGrant m path want now sessionStart = .ok .None := by
  rw [classifyWriteGrant,if_pos unnamed]

theorem timed_write (m : Manifest) (path : String) : Timed m path .Write (checkFilesystemWrite m path) where
  valid now sessionStart g classified := by rw [checkFilesystemWrite,classified]
  expired now sessionStart classified := ⟨_,by rw [checkFilesystemWrite,classified]⟩
  panics now sessionStart panic classified := by rw [checkFilesystemWrite,classified]
  broad unnamed := by
    by_cases covered : pathsCover path (writePaths m) = true
    · refine ⟨upgradeForApproval m .Allow .AnyWrite "any_write requires approval",fun now sessionStart => ?_⟩
      simp only [checkFilesystemWrite,classifyWriteGrant_none unnamed,if_pos covered]
    · refine ⟨.Deny ("filesystem write of " ++ path ++ " not granted by manifest"),fun now sessionStart => ?_⟩
      simp only [checkFilesystemWrite,classifyWriteGrant_none unnamed,if_neg covered]

theorem timed_delete (m : Manifest) (path : String) : Timed m path .Delete (checkFilesystemDelete m path) where
  valid now sessionStart g classified := by rw [checkFilesystemDelete,classified]
  expired now sessionStart classified := ⟨_,by rw [checkFilesystemDelete,classified]⟩
  panics now sessionStart panic classified := by rw [checkFilesystemDelete,classified]
  broad unnamed := ⟨_,fun now sessionStart => by rw [checkFilesystemDelete,classifyWriteGrant_none unnamed]⟩

theorem classifyWriteGrant_named {m : Manifest} {path : String} {want : WriteAction} (now sessionStart : Int)
    (named : m.writeGrants.filter (names path want) ≠ []) :
    classifyWriteGrant m path want now sessionStart =
      (findValid now sessionStart (m.writeGrants.filter (names path want))).map fun
        | some g => .Valid g
        | none => .Expired := by
  simp only [classifyWriteGrant,if_neg named]
  cases findValid now sessionStart (m.writeGrants.filter (names path want)) with
  | error panic => rfl
  | ok found => cases found <;> rfl

section
variable {m : Manifest} {path : String} {want : WriteAction} {early late sessionStart : Int}

/-- A handover names the first grants in their window at both times. -/
theorem HandsOver.finds (order : early ≤ late) (hands : HandsOver m path want early late sessionStart) :
    ∃ asking opened,
      findValid early sessionStart (m.writeGrants.filter (names path want)) = .ok (some asking) ∧
      findValid late sessionStart (m.writeGrants.filter (names path want)) = .ok (some opened) ∧
      asking.approvalRequired = true ∧ opened.approvalRequired = false := by
  obtain ⟨before,asking,between,opened,after,whole,unopened,valid,asks,ended,late,opens⟩ := hands
  refine ⟨asking,opened,?_,?_,asks,opens⟩
  · rw [findValid_some,List.findSome?_eq_some_iff]
    exact ⟨before,asking,_,whole,window_ok.mpr ⟨rfl,valid⟩,fun g listed => window_none.mpr (unopened g listed)⟩
  · rw [findValid_some,List.findSome?_eq_some_iff]
    refine ⟨before ++ asking :: between,opened,after,by simp [whole],window_ok.mpr ⟨rfl,late⟩,?_⟩
    intro g listed
    rw [window_none]
    rcases List.mem_append.mp listed with listed | listed
    · exact grantTimeValid_later order (unopened g listed)
    · exact ended g listed

theorem handsOver_of_finds {asking opened : WriteGrant} (order : early ≤ late)
    (decided : findValid early sessionStart (m.writeGrants.filter (names path want)) = .ok (some asking))
    (decides : findValid late sessionStart (m.writeGrants.filter (names path want)) = .ok (some opened))
    (asks : asking.approvalRequired = true) (opens : opened.approvalRequired = false) :
    HandsOver m path want early late sessionStart := by
  have fades : ∀ g,window early sessionStart g = none → window late sessionStart g = none := by
    intro g ended
    exact window_none.mpr (grantTimeValid_later order (window_none.mp ended))
  obtain ⟨before,first,rest,whole,answers,silent,stays | ⟨ended,between,next,after,rfl,speaks,quiet⟩⟩ :=
    first_moves_back fades (findValid_some.mp decided) (findValid_some.mp decides)
  · obtain ⟨rfl,-⟩ := window_ok.mp answers
    obtain ⟨rfl,-⟩ := window_ok.mp stays
    rw [asks] at opens
    cases opens
  · obtain ⟨rfl,valid⟩ := window_ok.mp answers
    obtain ⟨rfl,later⟩ := window_ok.mp speaks
    refine ⟨before,first,between,next,after,whole,?_,valid,asks,?_,later,opens⟩
    · intro g listed
      exact window_none.mp (silent g listed)
    · intro g listed
      rw [← window_none]
      rcases List.mem_cons.mp listed with rfl | listed
      · exact ended
      · exact quiet g listed

/-- A later answer of a timed check is laxer exactly when the manifest does not ask
    for the class and an asking grant hands ended. -/
theorem Timed.narrows {check : Int → Int → Checked Decision} (timed : Timed m path want check) (order : early ≤ late)
    {first second : Decision} (decided : check early sessionStart = .ok first)
    (decides : check late sessionStart = .ok second) :
    rank first.kind ≤ rank second.kind ↔
      ¬ (actionClass want ∉ m.approvalRequiredFor ∧ HandsOver m path want early late sessionStart) := by
  by_cases named : m.writeGrants.filter (names path want) = []
  · obtain ⟨decision,same⟩ := timed.broad named
    rw [same] at decided decides
    cases decided
    cases decides
    refine iff_of_true le_rfl ?_
    rintro ⟨-,before,asking,between,opened,after,whole,-⟩
    rw [named] at whole
    simp at whole
  have classified := fun now => classifyWriteGrant_named now sessionStart named
  cases was : findValid early sessionStart (m.writeGrants.filter (names path want)) with
  | error panic =>
    rw [timed.panics early sessionStart panic (by rw [classified,was]; rfl)] at decided
    cases decided
  | ok earlier =>
    cases becomes : findValid late sessionStart (m.writeGrants.filter (names path want)) with
    | error panic =>
      rw [timed.panics late sessionStart panic (by rw [classified,becomes]; rfl)] at decides
      cases decides
    | ok later =>
      cases later with
      | none =>
        obtain ⟨reason,denies⟩ := timed.expired late sessionStart (by rw [classified,becomes]; rfl)
        rw [denies] at decides
        cases decides
        refine iff_of_true (rank_deny _) ?_
        rintro ⟨-,hands⟩
        obtain ⟨asking,opened,-,found,-⟩ := hands.finds order
        rw [becomes] at found
        cases found
      | some opened =>
        rw [timed.valid late sessionStart opened (by rw [classified,becomes]; rfl)] at decides
        cases decides
        cases earlier with
        | none =>
          exfalso
          rw [findValid_none] at was
          have ended : findValid late sessionStart (m.writeGrants.filter (names path want)) = .ok none :=
            findValid_none.mpr fun g listed => grantTimeValid_later order (was g listed)
          rw [becomes] at ended
          cases ended
        | some asking =>
          rw [timed.valid early sessionStart asking (by rw [classified,was]; rfl)] at decided
          cases decided
          rw [writeDecision_kind,writeDecision_kind,grantKind_rank]
          refine not_congr (and_congr_right fun _ => ?_)
          constructor
          · rintro ⟨asks,opens⟩
            exact handsOver_of_finds order was becomes asks opens
          · intro hands
            obtain ⟨asking',opened',found,foundLater,asks,opens⟩ := hands.finds order
            rw [was] at found
            rw [becomes] at foundLater
            cases found
            cases foundLater
            exact ⟨asks,opens⟩

end

/-- Time widens what a path may undergo in one way only: a grant that asks for
    approval runs out before one behind it that does not. -/
theorem time_narrows (m : Manifest) (path : String) {early late : Int} (sessionStart : Int) (order : early ≤ late) :
    (∀ before after,checkFilesystemWrite m path early sessionStart = .ok before →
      checkFilesystemWrite m path late sessionStart = .ok after →
        (rank before.kind ≤ rank after.kind ↔
          ¬ (.AnyWrite ∉ m.approvalRequiredFor ∧ HandsOver m path .Write early late sessionStart))) ∧
    ∀ before after,checkFilesystemDelete m path early sessionStart = .ok before →
      checkFilesystemDelete m path late sessionStart = .ok after →
        (rank before.kind ≤ rank after.kind ↔
          ¬ (.AnyDelete ∉ m.approvalRequiredFor ∧ HandsOver m path .Delete early late sessionStart)) := by
  constructor
  · intro before after decided decides
    exact (timed_write m path).narrows order decided decides
  · intro before after decided decides
    exact (timed_delete m path).narrows order decided decides

end

/-! ### A renewal without approval -/

/-- A grant for one second that asks, and an unbounded one behind it that does not. -/
def renewed : Manifest :=
  { closed with writeGrants := [⟨"/a",[.Write],some "PT1S",none,true⟩,⟨"/a",[.Write],none,none,false⟩] }

theorem time_narrows_renewed :
    let _ := epochChrono
    (0 : Int) ≤ second ∧ checkFilesystemWrite renewed "/a" 0 0 = .ok (.RequireApproval "Write on /a requires approval per write_grant") ∧
      checkFilesystemWrite renewed "/a" second 0 = .ok .Allow ∧ HandsOver renewed "/a" .Write 0 second 0 := by
  intro clock
  have asks : checkFilesystemWrite renewed "/a" 0 0 = .ok (.RequireApproval "Write on /a requires approval per write_grant") := by
    decide
  have opens : checkFilesystemWrite renewed "/a" second 0 = .ok .Allow := by decide
  refine ⟨by decide,asks,opens,?_⟩
  have narrows := (time_narrows renewed "/a" 0 (show (0 : Int) ≤ second by decide)).1 _ _ asks opens
  by_contra stays
  have laxer := narrows.mpr fun hands => stays hands.2
  revert laxer
  decide

/-- A second later the write needs no approval any more. -/
theorem time_widens : ¬ ∀ [Chrono] (m : Manifest) (path : String) (sessionStart early late : Int),early ≤ late →
    ∀ before after,checkFilesystemWrite m path early sessionStart = .ok before →
      checkFilesystemWrite m path late sessionStart = .ok after → rank before.kind ≤ rank after.kind := by
  intro narrows
  let _ := epochChrono
  have laxer := narrows renewed "/a" 0 0 second (by decide)
    (.RequireApproval "Write on /a requires approval per write_grant") .Allow (by decide) (by decide)
  revert laxer
  decide

end AegisNode.Passage
