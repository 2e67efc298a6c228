import AegisNode.Interleaving
import AegisNode.Engine

/-!
The web approval channel: HTTP clients decide, and one call waits until a decision is
recorded or its deadline has passed. Requests and wake-ups take the lock one after
the other.
-/
namespace AegisNode.WebChannel
open Text Engine Interleaving

/-! ### The channel -/

inductive RecordedDecision where
  | Granted (approver : String) (decidedAt : Int)
  | Rejected (reason : String) (decidedAt : Int)
  deriving DecidableEq,Repr

def RecordedDecision.outcome : RecordedDecision → ApprovalOutcome
  | .Granted approver decidedAt => .Granted approver decidedAt
  | .Rejected reason decidedAt => .Rejected reason decidedAt

structure PendingRequest where
  request : ApprovalRequest
  decision : Option RecordedDecision
  deriving DecidableEq,Repr

/-- The map behind the lock, by request id. -/
abbrev Pending := String → Option PendingRequest

inductive Method where
  | Get
  | Post
  | Other
  deriving DecidableEq,Repr

structure HttpRequest where
  method : Method
  url : String
  headers : List (String × String)
  body : String
  deriving DecidableEq,Repr

/-- The third-party `serde_json` reads the one field of a body; one it cannot read is
    as if absent. -/
class Bodies where
  approver : String → Option String
  reason : String → Option String

def authorized (token : String) (request : HttpRequest) : Bool :=
  request.headers.any fun h => h.1.toLower = "authorization" && h.2 = "Bearer " ++ token

/-- The request id of a decision, and whether it grants. -/
def route (url : String) : Option (String × Bool) :=
  (stripPrefix "/approvals/".toList url.toList).bind fun rest =>
    match stripSuffix "/grant".toList rest with
    | some id => some (String.ofList id,true)
    | none => (stripSuffix "/reject".toList rest).map fun id => (String.ofList id,false)

section
variable [Bodies]

def decisionOf (grant : Bool) (body : String) (utcNow : Int) : RecordedDecision :=
  if grant then .Granted ((Bodies.approver body).getD "web-channel") utcNow
  else .Rejected ((Bodies.reason body).getD "rejected") utcNow

/-- Whatever the entry held is replaced; an unknown id is passed over. -/
def resolve (pending : Pending) (id : String) (grant : Bool) (body : String) (utcNow : Int) : Pending :=
  match pending id with
  | some entry => Function.update pending id (some { entry with decision := some (decisionOf grant body utcNow) })
  | none => pending

/-- The map after a request and the status of its answer. -/
def handle (token : String) (pending : Pending) (request : HttpRequest) (utcNow : Int) : Pending × Nat :=
  if authorized token request then
    match request.method with
    | .Get => (pending,if request.url = "/approvals" then 200 else 404)
    | .Post =>
      match route request.url with
      | some (id,grant) => (resolve pending id grant request.body utcNow,200)
      | none => (pending,404)
    | .Other => (pending,404)
  else (pending,401)

/-! ### A waiting call -/

/-- The map, and what the call has returned. -/
structure Waiting where
  pending : Pending
  outcome : Option ApprovalOutcome

/-- One pass of the loop of `request_approval`: a decision first, then the deadline. -/
def wake (id : String) (deadline now utcNow : Int) (w : Waiting) : Waiting :=
  match w.outcome with
  | some _ => w
  | none =>
    match (w.pending id).bind (·.decision) with
    | some decision => ⟨Function.update w.pending id none,some decision.outcome⟩
    | none =>
      if deadline ≤ now then ⟨Function.update w.pending id none,some (.TimedOut utcNow)⟩ else w

/-- What may happen while the call waits and after it: a request that is handled, with
    the instant at which it holds the lock, or a wake-up of the call. -/
inductive Event where
  | Http (request : HttpRequest) (utcNow instant : Int)
  | Wake (now utcNow : Int)
  deriving DecidableEq,Repr

/-- One call: the token of the channel, the id it drew and its deadline. -/
structure Call where
  token : String
  id : String
  request : ApprovalRequest
  deadline : Int
  deriving DecidableEq,Repr

def step (call : Call) (w : Waiting) : Event → Waiting
  | .Http request utcNow _ => { w with pending := (handle call.token w.pending request utcNow).1 }
  | .Wake now utcNow => wake call.id call.deadline now utcNow w

/-- The call files its request before anything else happens to it. -/
def start (call : Call) (pending : Pending) : Waiting :=
  ⟨Function.update pending call.id (some ⟨call.request,none⟩),none⟩

/-- The decision an event posts for the call. -/
def posts (call : Call) : Event → Option RecordedDecision
  | .Http request utcNow _ =>
    if authorized call.token request && request.method = .Post then
      (route request.url).bind fun (id,grant) =>
        if id = call.id then some (decisionOf grant request.body utcNow) else none
    else none
  | .Wake _ _ => none

theorem posts_http {call : Call} {request : HttpRequest} {utcNow instant : Int} {decision : RecordedDecision} :
    posts call (.Http request utcNow instant) = some decision ↔ authorized call.token request = true ∧
      request.method = .Post ∧ ∃ grant,route request.url = some (call.id,grant) ∧
        decisionOf grant request.body utcNow = decision := by
  rw [posts]
  by_cases accepted : authorized call.token request = true ∧ request.method = .Post
  · rw [if_pos (by simp [accepted.1,accepted.2])]
    simp only [accepted.1,accepted.2,true_and,Option.bind_eq_some_iff]
    constructor
    · rintro ⟨⟨id,grant⟩,routed,own⟩
      dsimp only at own
      split_ifs at own with same
      cases own
      exact ⟨grant,same ▸ routed,rfl⟩
    · rintro ⟨grant,routed,rfl⟩
      exact ⟨_,routed,if_pos rfl⟩
  · rw [if_neg (by simpa using accepted)]
    constructor
    · intro posted
      cases posted
    · rintro ⟨trusted,posted,-⟩
      exact absurd ⟨trusted,posted⟩ accepted

/-- A posted decision replaces what the entry held, and is answered as accepted. -/
theorem handle_posts {call : Call} {request : HttpRequest} {utcNow instant : Int} {decision : RecordedDecision}
    (posted : posts call (.Http request utcNow instant) = some decision) (pending : Pending) :
    (handle call.token pending request utcNow).1 call.id =
        (pending call.id).map (fun entry => { entry with decision := some decision }) ∧
      (handle call.token pending request utcNow).2 = 200 := by
  obtain ⟨trusted,post,grant,routed,rfl⟩ := posts_http.mp posted
  unfold handle
  simp only [trusted,post,routed,if_true,resolve,and_true]
  cases held : pending call.id with
  | none => exact held
  | some entry =>
    dsimp only
    rw [Function.update_self]
    rfl

/-- Other requests leave the entry of the call alone. -/
theorem handle_unposted {call : Call} {request : HttpRequest} {utcNow instant : Int}
    (unposted : posts call (.Http request utcNow instant) = none) (pending : Pending) :
    (handle call.token pending request utcNow).1 call.id = pending call.id := by
  by_cases trusted : authorized call.token request = true
  · rw [handle,if_pos trusted]
    cases method : request.method with
    | Get => rfl
    | Other => rfl
    | Post =>
      cases routed : route request.url with
      | none => rfl
      | some target =>
        obtain ⟨id,grant⟩ := target
        dsimp only
        have other : call.id ≠ id := by
          rintro rfl
          have posted : posts call (.Http request utcNow instant) = some (decisionOf grant request.body utcNow) :=
            posts_http.mpr ⟨trusted,method,grant,routed,rfl⟩
          rw [unposted] at posted
          cases posted
        unfold resolve
        cases pending id with
        | none => rfl
        | some entry => exact Function.update_of_ne other _ _
  · rw [handle,if_neg trusted]

theorem step_posts {call : Call} {request : HttpRequest} {utcNow instant : Int} {decision : RecordedDecision}
    (posted : posts call (.Http request utcNow instant) = some decision) (w : Waiting) :
    (step call w (.Http request utcNow instant)).pending call.id =
      (w.pending call.id).map (fun entry => { entry with decision := some decision }) := (handle_posts posted w.pending).1

theorem step_unposted {call : Call} {request : HttpRequest} {utcNow instant : Int}
    (unposted : posts call (.Http request utcNow instant) = none) (w : Waiting) :
    (step call w (.Http request utcNow instant)).pending call.id = w.pending call.id := handle_unposted unposted w.pending

/-! ### What the call holds -/

/-- The request is filed and nobody has decided. -/
def Undecided (call : Call) (w : Waiting) : Prop := ∃ entry,w.pending call.id = some entry ∧ entry.decision = none

/-- A decision is recorded and not yet fetched. -/
def Decided (call : Call) (decision : RecordedDecision) (w : Waiting) : Prop :=
  w.outcome = none ∧ ∃ entry,w.pending call.id = some entry ∧ entry.decision = some decision

/-- The call has returned, and its entry is gone. -/
def Returned (call : Call) (outcome : ApprovalOutcome) (w : Waiting) : Prop :=
  w.outcome = some outcome ∧ w.pending call.id = none

/-- The entry stands as long as the call waits. -/
def Standing (call : Call) (w : Waiting) : Prop := w.outcome = none ↔ w.pending call.id ≠ none

omit [Bodies] in
theorem standing_start (call : Call) (pending : Pending) : Standing call (start call pending) := by
  simp [Standing,start]

theorem standing_step {call : Call} {w : Waiting} (standing : Standing call w) (event : Event) :
    Standing call (step call w event) := by
  cases event with
  | Http request utcNow instant =>
    unfold Standing at *
    cases posted : posts call (.Http request utcNow instant) with
    | some decision =>
      rw [step_posts posted,Ne,Option.map_eq_none_iff]
      exact standing
    | none =>
      rw [step_unposted posted]
      exact standing
  | Wake now utcNow =>
    unfold step wake
    cases returned : w.outcome with
    | some outcome => exact standing
    | none =>
      dsimp only
      cases (w.pending call.id).bind (·.decision) with
      | some decision => simp [Standing]
      | none =>
        dsimp only
        split_ifs
        · simp [Standing]
        · exact standing

theorem step_returned {call : Call} {outcome : ApprovalOutcome} {w : Waiting} (returned : Returned call outcome w)
    (event : Event) : Returned call outcome (step call w event) := by
  obtain ⟨done,gone⟩ := returned
  cases event with
  | Http request utcNow instant =>
    refine ⟨done,?_⟩
    cases posted : posts call (.Http request utcNow instant) with
    | some decision =>
      rw [step_posts posted,gone]
      rfl
    | none => rw [step_unposted posted,gone]
  | Wake now utcNow =>
    rw [step,wake,done]
    exact ⟨done,gone⟩

/-- A recorded decision stays recorded, or is returned; it may be replaced by another one. -/
theorem step_decided {call : Call} {decision : RecordedDecision} {w : Waiting} (decided : Decided call decision w)
    (event : Event) : (∃ decision',Decided call decision' (step call w event)) ∨
      ∃ outcome,Returned call outcome (step call w event) := by
  obtain ⟨waits,entry,filed,recorded⟩ := decided
  cases event with
  | Http request utcNow instant =>
    left
    cases posted : posts call (.Http request utcNow instant) with
    | some decision' =>
      refine ⟨decision',waits,{ entry with decision := some decision' },?_,rfl⟩
      rw [step_posts posted,filed,Option.map_some]
    | none =>
      refine ⟨decision,waits,entry,?_,recorded⟩
      rw [step_unposted posted,filed]
  | Wake now utcNow =>
    right
    refine ⟨decision.outcome,?_⟩
    simp [step,wake,waits,filed,recorded,Returned]

theorem step_decided_unposted {call : Call} {decision : RecordedDecision} {w : Waiting} (decided : Decided call decision w)
    {event : Event} (unposted : posts call event = none) :
    Decided call decision (step call w event) ∨ Returned call decision.outcome (step call w event) := by
  obtain ⟨waits,entry,filed,recorded⟩ := decided
  cases event with
  | Http request utcNow instant =>
    left
    refine ⟨waits,entry,?_,recorded⟩
    rw [step_unposted unposted,filed]
  | Wake now utcNow =>
    right
    simp [step,wake,waits,filed,recorded,Returned]

theorem step_posted {call : Call} {decision : RecordedDecision} {w : Waiting} (waits : w.outcome = none)
    (filed : w.pending call.id ≠ none) {event : Event} (posted : posts call event = some decision) :
    Decided call decision (step call w event) := by
  cases event with
  | Http request utcNow instant =>
    obtain ⟨entry,held⟩ := Option.ne_none_iff_exists'.mp filed
    refine ⟨waits,{ entry with decision := some decision },?_,rfl⟩
    rw [step_posts posted,held,Option.map_some]
  | Wake now utcNow => cases posted

/-! ### Whole runs -/

/-- Decided or returned: from here on the request is not open again. -/
def Settled (call : Call) (w : Waiting) : Prop := (∃ decision,Decided call decision w) ∨ ∃ outcome,Returned call outcome w

theorem settled_step {call : Call} {w : Waiting} (settled : Settled call w) (event : Event) : Settled call (step call w event) := by
  rcases settled with ⟨decision,decided⟩ | ⟨outcome,returned⟩
  · exact step_decided decided event
  · exact .inr ⟨outcome,step_returned returned event⟩

omit [Bodies] in
theorem Settled.not_undecided {call : Call} {w : Waiting} (settled : Settled call w) : ¬ Undecided call w := by
  rintro ⟨entry,filed,open'⟩
  rcases settled with ⟨decision,-,entry',filed',recorded⟩ | ⟨outcome,-,gone⟩
  · rw [filed] at filed'
    cases filed'
    rw [open'] at recorded
    cases recorded
  · rw [filed] at gone
    cases gone

theorem standing_after (call : Call) (pending : Pending) (events : List Event) :
    Standing call (after (step call) (start call pending) events) :=
  after_invariant (P := Standing call) (fun _ event standing => standing_step standing event) (standing_start call pending) events

theorem returned_after {call : Call} {outcome : ApprovalOutcome} {w : Waiting} (returned : Returned call outcome w)
    (events : List Event) : Returned call outcome (after (step call) w events) :=
  after_invariant (P := Returned call outcome) (fun _ event returned => step_returned returned event) returned events

/-- Without a further post a recorded decision is the one that is returned. -/
theorem decided_after {call : Call} {decision : RecordedDecision} {w : Waiting} (decided : Decided call decision w)
    {events : List Event} (unposted : ∀ event ∈ events,posts call event = none) :
    Decided call decision (after (step call) w events) ∨ Returned call decision.outcome (after (step call) w events) := by
  refine after_kept (P := fun w => Decided call decision w ∨ Returned call decision.outcome w) ?_ (.inl decided)
  intro event member w stands
  rcases stands with decided | returned
  · exact step_decided_unposted decided (unposted event member)
  · exact .inr (step_returned returned event)

/-- A wake-up ends a call that has been decided. -/
theorem decided_wakes {call : Call} {w : Waiting} {decision : RecordedDecision} (decided : Decided call decision w)
    {events : List Event} {now utcNow : Int} (wakes : .Wake now utcNow ∈ events) :
    ∃ outcome,(after (step call) w events).outcome = some outcome := by
  induction events generalizing w decision with
  | nil => cases wakes
  | cons event rest ih =>
    rcases step_decided decided event with ⟨decision',stays⟩ | ⟨outcome,returned⟩
    · rcases List.mem_cons.mp wakes with rfl | later
      · rcases @step_decided_unposted _ _ _ _ decided (.Wake now utcNow) rfl with still | returned
        · obtain ⟨waits,entry,filed,recorded⟩ := decided
          simp [step,wake,waits,filed,recorded,Decided] at still
        · exact ⟨_,(returned_after returned rest).1⟩
      · exact ih stays later
    · exact ⟨outcome,(returned_after returned rest).1⟩

/-- The decision returned is the first one recorded, none is overwritten, each one that
    was accepted is returned, and no grant from after the deadline. -/
structure Honest (call : Call) (pending : Pending) (events : List Event) : Prop where
  first : ∀ outcome,(after (step call) (start call pending) events).outcome = some outcome →
    Throughout (step call) (start call pending) events fun w event =>
      ∀ decision,posts call event = some decision → Undecided call w → outcome = decision.outcome
  kept : Throughout (step call) (start call pending) events fun w event =>
    ∀ decision,posts call event = some decision → ∀ recorded,¬ Decided call recorded w
  accepted : ∀ outcome,(after (step call) (start call pending) events).outcome = some outcome →
    Throughout (step call) (start call pending) events fun w event =>
      ∀ decision,posts call event = some decision → w.pending call.id ≠ none ∧ outcome = decision.outcome
  inTime : Throughout (step call) (start call pending) events fun w event =>
    ∀ request utcNow instant approver decidedAt,event = .Http request utcNow instant →
      posts call event = some (.Granted approver decidedAt) → w.pending call.id ≠ none → call.deadline < instant →
        (after (step call) (start call pending) events).outcome ≠ some (.Granted approver decidedAt)

/-- Each post finds the request open and undecided, and a grant from after the deadline
    is not followed by a wake-up. -/
structure Timely (call : Call) (pending : Pending) (events : List Event) : Prop where
  once : Throughout (step call) (start call pending) events fun w event =>
    ∀ decision,posts call event = some decision → Undecided call w
  punctual : ∀ before request utcNow instant later approver decidedAt,events = before ++ .Http request utcNow instant :: later →
    posts call (.Http request utcNow instant) = some (.Granted approver decidedAt) →
      instant ≤ call.deadline ∨ ∀ now utcNow,.Wake now utcNow ∉ later

section
variable {call : Call} {pending : Pending} {events : List Event}

/-- With one post a call, what it recorded is what the call holds or has returned. -/
theorem Timely.posted (timely : Timely call pending events) {before later : List Event} {event : Event}
    {decision : RecordedDecision} (whole : events = before ++ event :: later) (posted : posts call event = some decision) :
    Decided call decision (step call (after (step call) (start call pending) before) event) ∧
      ∀ other ∈ later,posts call other = none := by
  have standing := standing_after call pending before
  obtain ⟨entry,filed,undecided⟩ := timely.once before event later whole decision posted
  have present : (after (step call) (start call pending) before).pending call.id ≠ none := by
    rw [filed]
    exact Option.some_ne_none _
  have decided := step_posted (standing.mpr present) present posted
  refine ⟨decided,?_⟩
  intro other member
  by_contra posts'
  obtain ⟨decision',posted'⟩ := Option.ne_none_iff_exists'.mp posts'
  obtain ⟨between,rest,rfl⟩ := List.append_of_mem member
  have settled : Settled call (after (step call) (start call pending) (before ++ event :: between)) := by
    rw [after_append,after_cons]
    exact after_invariant (P := Settled call) (fun _ event settled => settled_step settled event) (.inl ⟨decision,decided⟩) between
  refine settled.not_undecided (timely.once (before ++ event :: between) other rest ?_ decision' posted')
  rw [whole]
  simp

theorem Timely.returns (timely : Timely call pending events) {before later : List Event} {event : Event}
    {decision : RecordedDecision} (whole : events = before ++ event :: later) (posted : posts call event = some decision)
    {outcome : ApprovalOutcome} (returned : (after (step call) (start call pending) events).outcome = some outcome) :
    outcome = decision.outcome := by
  obtain ⟨decided,unposted⟩ := timely.posted whole posted
  rw [whole,after_append,after_cons] at returned
  rcases decided_after decided unposted with ⟨waits,-⟩ | ⟨done,-⟩
  · rw [waits] at returned
    cases returned
  · rw [done] at returned
    exact (Option.some.inj returned).symm

theorem Timely.honest (timely : Timely call pending events) : Honest call pending events where
  first outcome returned before event later whole decision posted _ := timely.returns whole posted returned
  kept before event later whole decision posted recorded decided :=
    Settled.not_undecided (.inl ⟨recorded,decided⟩) (timely.once before event later whole decision posted)
  accepted outcome returned before event later whole decision posted := by
    obtain ⟨entry,filed,-⟩ := timely.once before event later whole decision posted
    exact ⟨by rw [filed]; exact Option.some_ne_none _,timely.returns whole posted returned⟩
  inTime before event later whole request utcNow instant approver decidedAt same posted _ late := by
    subst same
    rcases timely.punctual before request utcNow instant later approver decidedAt whole posted with early | asleep
    · omega
    obtain ⟨decided,-⟩ := timely.posted whole posted
    rw [whole,after_append,after_cons]
    -- without a wake-up the call does not return
    have waits : (after (step call) (step call (after (step call) (start call pending) before)
        (.Http request utcNow instant)) later).outcome = none := by
      refine after_kept (P := fun w : Waiting => w.outcome = none) ?_ decided.1
      intro event member w waits
      cases event with
      | Http request utcNow instant => exact waits
      | Wake now utcNow => exact absurd member (asleep now utcNow)
    rw [waits]
    simp

theorem Honest.timely (honest : Honest call pending events) : Timely call pending events where
  once before event later whole decision posted := by
    have standing := standing_after call pending before
    cases filed : (after (step call) (start call pending) before).pending call.id with
    | none =>
      -- the call has returned, so the post is answered as accepted in vain
      have done : (after (step call) (start call pending) before).outcome ≠ none := by
        intro waits
        exact standing.mp waits filed
      obtain ⟨outcome,returned⟩ := Option.ne_none_iff_exists'.mp done
      have stays := returned_after ⟨returned,filed⟩ (event :: later)
      rw [← after_append,← whole] at stays
      exact absurd filed (honest.accepted outcome stays.1 before event later whole decision posted).1
    | some entry =>
      cases recorded : entry.decision with
      | none => exact ⟨entry,filed,recorded⟩
      | some decision' =>
        have waits := standing.mpr (by rw [filed]; exact Option.some_ne_none _)
        exact absurd ⟨waits,entry,filed,recorded⟩ (honest.kept before event later whole decision posted decision')
  punctual before request utcNow instant later approver decidedAt whole posted := by
    by_contra late
    rw [not_or,not_le,not_forall] at late
    obtain ⟨late,now,woken⟩ := late
    rw [not_forall] at woken
    obtain ⟨utc,woken⟩ := woken
    rw [not_not] at woken
    have standing := standing_after call pending before
    have returns : ∃ outcome,(after (step call) (start call pending) events).outcome = some outcome := by
      rw [whole,after_append,after_cons]
      by_cases filed : (after (step call) (start call pending) before).pending call.id = none
      · obtain ⟨outcome,returned⟩ := Option.ne_none_iff_exists'.mp (fun waits => standing.mp waits filed)
        exact ⟨outcome,(returned_after (step_returned ⟨returned,filed⟩ _) later).1⟩
      · exact decided_wakes (step_posted (standing.mpr filed) filed posted) woken
    obtain ⟨outcome,returned⟩ := returns
    obtain ⟨filed,same⟩ := honest.accepted outcome returned before _ later whole _ posted
    refine honest.inTime before _ later whole request utcNow instant approver decidedAt rfl posted filed late ?_
    rw [returned,same]
    rfl

/-- The call is honest with its clients exactly in the runs in which each post is timely. -/
theorem honest_iff : Honest call pending events ↔ Timely call pending events := ⟨Honest.timely,Timely.honest⟩

end

end

/-! ### A second thought -/

/-- A grant and a rejection arrive before the call wakes up. -/
def twice : List Event :=
  [.Http ⟨.Post,"/approvals/1/grant",[("Authorization","Bearer t")],""⟩ 1 1,
    .Http ⟨.Post,"/approvals/1/reject",[("Authorization","Bearer t")],""⟩ 2 2,.Wake 3 3]

theorem overwritten : ¬ ∀ [Bodies] (call : Call) (pending : Pending) (events : List Event),Honest call pending events := by
  intro honest
  let _ : Bodies := ⟨fun _ => none,fun _ => none⟩
  have calls := honest ⟨"t","1",⟨"","","","",none,10⟩,10⟩ (fun _ => none) twice
  have late := calls.first (.Rejected "rejected" 2) (by decide +kernel) [] _ _ rfl (.Granted "web-channel" 1)
    (by decide +kernel) ⟨_,rfl,rfl⟩
  cases late

end AegisNode.WebChannel
