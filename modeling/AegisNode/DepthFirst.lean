import Mathlib.Data.Set.Finite.Basic
import Mathlib.Logic.Relation

/-!
Depth-first walks that keep the chain they are on. A node is told by its key; a walk ends
at a key that is on its chain, at a node that cannot be expanded, or at an edge that is
refused once what is behind it has been walked.
-/
namespace AegisNode.DepthFirst
variable {ν κ ε : Type*}

/-- A graph with what stands in the way of a walk. -/
structure Graph (ν κ ε : Type*) where
  key : ν → κ
  expand : ν → Except ε (List ν)
  refuse : ν → ν → Option ε

/-- How a walk ends. -/
inductive Ending (ε : Type*) where
  | Done
  | Revisits
  | Fails (error : ε)

/-- A leg of a walk: from a node, or along the edges of one that are left. -/
inductive Leg (ν : Type*) where
  | Node (n : ν)
  | Edges (n : ν) (next : List ν)

/-- A leg on a chain, with the nodes it enters in order. -/
inductive Walks (g : Graph ν κ ε) : List κ → Leg ν → List ν → Ending ε → Prop where
  | Revisit {chain : List κ} {n : ν} (again : g.key n ∈ chain) : Walks g chain (.Node n) [n] .Revisits
  | Block {chain : List κ} {n : ν} {error : ε} (fresh : g.key n ∉ chain) (blocked : g.expand n = .error error) :
      Walks g chain (.Node n) [n] (.Fails error)
  | Enter {chain : List κ} {n : ν} {next entered : List ν} {ending : Ending ε} (fresh : g.key n ∉ chain)
      (expands : g.expand n = .ok next) (walks : Walks g (g.key n :: chain) (.Edges n next) entered ending) :
      Walks g chain (.Node n) (n :: entered) ending
  | Last {chain : List κ} {n : ν} : Walks g chain (.Edges n []) [] .Done
  | Stop {chain : List κ} {n first : ν} {rest entered : List ν} {ending : Ending ε}
      (walks : Walks g chain (.Node first) entered ending) (stops : ending ≠ .Done) :
      Walks g chain (.Edges n (first :: rest)) entered ending
  | Refuse {chain : List κ} {n first : ν} {rest entered : List ν} {error : ε} (walks : Walks g chain (.Node first) entered .Done)
      (refused : g.refuse n first = some error) : Walks g chain (.Edges n (first :: rest)) entered (.Fails error)
  | Next {chain : List κ} {n first : ν} {rest entered later : List ν} {ending : Ending ε}
      (walks : Walks g chain (.Node first) entered .Done) (accepted : g.refuse n first = none)
      (others : Walks g chain (.Edges n rest) later ending) : Walks g chain (.Edges n (first :: rest)) (entered ++ later) ending

variable {g : Graph ν κ ε}

/-! ### One walk -/

theorem Walks.unique {chain : List κ} {leg : Leg ν} {entered entered' : List ν} {ending ending' : Ending ε}
    (walks : Walks g chain leg entered ending) (again : Walks g chain leg entered' ending') :
    entered = entered' ∧ ending = ending' := by
  induction walks generalizing entered' ending' with
  | Revisit revisits =>
    cases again with
    | Revisit _ => exact ⟨rfl,rfl⟩
    | Block fresh _ => exact absurd revisits fresh
    | Enter fresh _ _ => exact absurd revisits fresh
  | Block fresh blocked =>
    cases again with
    | Revisit revisits => exact absurd revisits fresh
    | Block _ blocked' =>
      cases blocked.symm.trans blocked'
      exact ⟨rfl,rfl⟩
    | Enter _ expands _ => cases blocked.symm.trans expands
  | Enter fresh expands walks ih =>
    cases again with
    | Revisit revisits => exact absurd revisits fresh
    | Block _ blocked => cases expands.symm.trans blocked
    | Enter _ expands' walks' =>
      cases expands.symm.trans expands'
      obtain ⟨rfl,rfl⟩ := ih walks'
      exact ⟨rfl,rfl⟩
  | Last =>
    cases again
    exact ⟨rfl,rfl⟩
  | Stop walks stops ih =>
    cases again with
    | Stop walks' _ => exact ih walks'
    | Refuse walks' _ => exact absurd (ih walks').2 stops
    | Next walks' _ _ => exact absurd (ih walks').2 stops
  | Refuse walks refused ih =>
    cases again with
    | Stop walks' stops => exact absurd (ih walks').2.symm stops
    | Refuse walks' refused' =>
      cases refused.symm.trans refused'
      exact ⟨(ih walks').1,rfl⟩
    | Next _ accepted _ => cases refused.symm.trans accepted
  | Next walks accepted others ih later =>
    cases again with
    | Stop walks' stops => exact absurd (ih walks').2.symm stops
    | Refuse _ refused => cases accepted.symm.trans refused
    | Next walks' _ others' =>
      obtain ⟨rfl,-⟩ := ih walks'
      obtain ⟨rfl,rfl⟩ := later others'
      exact ⟨rfl,rfl⟩

/-! ### Every walk ends -/

/-- Along the edges of a node, when each of them can be walked. -/
theorem edges_exist {chain : List κ} (n : ν) (walks : ∀ m,∃ entered ending,Walks g chain (.Node m) entered ending) :
    ∀ next : List ν,∃ entered ending,Walks g chain (.Edges n next) entered ending
  | [] => ⟨[],.Done,.Last⟩
  | first :: rest => by
    obtain ⟨entered,ending,walk⟩ := walks first
    by_cases done : ending = .Done
    · subst done
      cases refuses : g.refuse n first with
      | some error => exact ⟨_,_,.Refuse walk refuses⟩
      | none =>
        obtain ⟨later,ending,others⟩ := edges_exist n walks rest
        exact ⟨_,_,.Next walk refuses others⟩
    · exact ⟨_,_,.Stop walk done⟩

/-- A node on the chain leaves fewer keys to enter. -/
theorem fewer_left [DecidableEq κ] {keys : Finset κ} {chain : List κ} {k : κ} (member : k ∈ keys) (fresh : k ∉ chain) :
    (keys \ (k :: chain).toFinset).card < (keys \ chain.toFinset).card := by
  refine Finset.card_lt_card (Finset.ssubset_iff_of_subset ?_ |>.mpr ⟨k,by simp [member,fresh],by simp⟩)
  intro other among
  simp only [Finset.mem_sdiff,List.mem_toFinset,List.mem_cons,not_or] at among ⊢
  exact ⟨among.1,among.2.2⟩

/-- A walk ends when the keys that can be expanded are finitely many: what is left of them
    shrinks with every node on the chain. -/
theorem walks_exist [DecidableEq κ] {keys : Finset κ} (finite : ∀ n next,g.expand n = .ok next → g.key n ∈ keys)
    (chain : List κ) (n : ν) : ∃ entered ending,Walks g chain (.Node n) entered ending := by
  induction count : (keys \ chain.toFinset).card using Nat.strong_induction_on generalizing chain n with
  | _ count ih =>
    by_cases again : g.key n ∈ chain
    · exact ⟨_,_,.Revisit again⟩
    · cases expands : g.expand n with
      | error error => exact ⟨_,_,.Block again expands⟩
      | ok next =>
        have fewer := fewer_left (finite n next expands) again
        rw [count] at fewer
        obtain ⟨entered,ending,walks⟩ := edges_exist n (fun m => ih _ fewer (g.key n :: chain) m rfl) next
        exact ⟨_,_,.Enter again expands walks⟩

/-! ### Cycles -/

/-- One node leads to another. -/
def Edge (g : Graph ν κ ε) (n m : ν) : Prop := ∃ next,g.expand n = .ok next ∧ m ∈ next

/-- There are two nodes of one key, of which one leads to the other. -/
def Cycles (g : Graph ν κ ε) (start : ν) : Prop :=
  ∃ a b,Relation.ReflTransGen (Edge g) start a ∧ Relation.TransGen (Edge g) a b ∧ g.key a = g.key b

/-- From here a key of the chain comes back, or one that is not on it twice. -/
def Returns (g : Graph ν κ ε) (chain : List κ) (n : ν) : Prop :=
  (∃ b,Relation.ReflTransGen (Edge g) n b ∧ g.key b ∈ chain) ∨ Cycles g n

def Leg.Returns (g : Graph ν κ ε) (chain : List κ) : Leg ν → Prop
  | .Node n => DepthFirst.Returns g chain n
  | .Edges _ next => ∃ m ∈ next,DepthFirst.Returns g chain m

theorem Walks.returns {chain : List κ} {leg : Leg ν} {entered : List ν} {ending : Ending ε}
    (walks : Walks g chain leg entered ending) (revisits : ending = .Revisits) : leg.Returns g chain := by
  induction walks with
  | Revisit again => exact .inl ⟨_,.refl,again⟩
  | Block fresh blocked => cases revisits
  | @Enter chain n next entered ending fresh expands walks ih =>
    obtain ⟨m,listed,found⟩ := ih revisits
    have edge : Edge g n m := ⟨_,expands,listed⟩
    rcases found with ⟨b,leads,again⟩ | ⟨a,b,leads,turns,same⟩
    · rcases List.mem_cons.mp again with same | earlier
      · exact .inr ⟨n,b,.refl,.head' edge leads,same.symm⟩
      · exact .inl ⟨b,.head edge leads,earlier⟩
    · exact .inr ⟨a,b,.head edge leads,turns,same⟩
  | Last => cases revisits
  | Stop walks _ ih => exact ⟨_,List.mem_cons_self,ih revisits⟩
  | Refuse _ _ _ => cases revisits
  | Next _ _ _ _ later =>
    obtain ⟨m,listed,found⟩ := later revisits
    exact ⟨m,List.mem_cons_of_mem _ listed,found⟩

/-- What a walk fails for stands in the way of it. -/
theorem Walks.fails {chain : List κ} {leg : Leg ν} {entered : List ν} {ending : Ending ε} {error : ε}
    (walks : Walks g chain leg entered ending) (fails : ending = .Fails error) :
    (∃ n,g.expand n = .error error) ∨ ∃ n m,g.refuse n m = some error := by
  induction walks with
  | Revisit again => cases fails
  | Block fresh blocked =>
    cases fails
    exact .inl ⟨_,blocked⟩
  | Enter fresh expands walks ih => exact ih fails
  | Last => cases fails
  | Stop walks stops ih => exact ih fails
  | Refuse walks refused ih =>
    cases fails
    exact .inr ⟨_,_,refused⟩
  | Next walks accepted others ih later => exact later fails

/-- A walk from an empty chain that revisits a key has found a cycle. -/
theorem Walks.cycles {n : ν} {entered : List ν} (walks : Walks g [] (.Node n) entered .Revisits) : Cycles g n := by
  rcases walks.returns rfl with ⟨b,-,nowhere⟩ | cycles
  · cases nowhere
  · exact cycles

/-! ### Recursion without a chain -/

/-- Along the edges of a node, with what becomes of each. -/
def exploreAll (g : Graph ν κ ε) (explore : ν → Option (Except ε Unit)) (n : ν) : List ν → Option (Except ε Unit)
  | [] => some (.ok ())
  | first :: rest =>
    match explore first with
    | none => none
    | some (.error error) => some (.error error)
    | some (.ok _) =>
      match g.refuse n first with
      | some error => some (.error error)
      | none => exploreAll g explore n rest

/-- A recursion that does not look where it comes from; without fuel it has not ended. -/
def explore (g : Graph ν κ ε) : Nat → ν → Option (Except ε Unit)
  | 0,_ => none
  | fuel+1,n =>
    match g.expand n with
    | .error error => some (.error error)
    | .ok next => exploreAll g (explore g fuel) n next

/-- With fuel enough a leg comes to this end. -/
def Leg.ExploredAs (g : Graph ν κ ε) (fuel : Nat) (result : Except ε Unit) : Leg ν → Prop
  | .Node n => explore g fuel n = some result
  | .Edges n next => exploreAll g (explore g fuel) n next = some result

def Ending.result : Ending ε → Except ε Unit
  | .Fails error => .error error
  | _ => .ok ()

theorem exploreAll_first {n first : ν} {rest : List ν} {fuel : Nat} (done : explore g fuel first = some (.ok ()))
    (accepted : g.refuse n first = none) :
    exploreAll g (explore g fuel) n (first :: rest) = exploreAll g (explore g fuel) n rest := by
  rw [exploreAll,done]
  simp only [accepted]

theorem exploreAll_mono {one other : ν → Option (Except ε Unit)} (more : ∀ m result,one m = some result → other m = some result)
    {n : ν} {next : List ν} {result : Except ε Unit} (done : exploreAll g one n next = some result) :
    exploreAll g other n next = some result := by
  induction next with
  | nil => exact done
  | cons first rest ih =>
    rw [exploreAll] at done ⊢
    cases explored : one first with
    | none => simp [explored] at done
    | some answer =>
      rw [explored] at done
      rw [more first answer explored]
      cases answer with
      | error error => exact done
      | ok value =>
        dsimp only at done ⊢
        cases refuses : g.refuse n first with
        | some error => simpa [refuses] using done
        | none =>
          rw [refuses] at done
          exact ih done

/-- More fuel changes no result. -/
theorem explore_mono {fuel more : Nat} (le : fuel ≤ more) {n : ν} {result : Except ε Unit}
    (done : explore g fuel n = some result) : explore g more n = some result := by
  induction fuel generalizing more n result with
  | zero => cases done
  | succ fuel ih =>
    obtain ⟨left,rfl⟩ := Nat.exists_eq_add_of_le' (Nat.le_of_add_left_le le)
    rw [explore] at done ⊢
    cases expands : g.expand n with
    | error error => simpa [expands] using done
    | ok next =>
      rw [expands] at done
      exact exploreAll_mono (fun m result found => ih (by omega) found) done

/-- The recursion ends as a walk that revisits nothing. -/
theorem Walks.explored {chain : List κ} {leg : Leg ν} {entered : List ν} {ending : Ending ε} (walks : Walks g chain leg entered ending)
    (proper : ending ≠ .Revisits) : ∃ enough,∀ fuel ≥ enough,leg.ExploredAs g fuel ending.result := by
  induction walks with
  | Revisit again => exact absurd rfl proper
  | Block fresh blocked =>
    refine ⟨1,fun fuel more => ?_⟩
    obtain ⟨left,rfl⟩ := Nat.exists_eq_add_of_le' more
    change explore g (left+1) _ = _
    rw [explore,blocked]
    rfl
  | Enter fresh expands walks ih =>
    obtain ⟨enough,goes⟩ := ih proper
    refine ⟨enough+1,fun fuel more => ?_⟩
    obtain ⟨left,rfl⟩ := Nat.exists_eq_add_of_le' (Nat.le_of_add_left_le more)
    change explore g (left+1) _ = _
    rw [explore,expands]
    exact goes left (by omega)
  | Last => exact ⟨0,fun fuel _ => rfl⟩
  | @Stop chain n first rest entered ending walks stops ih =>
    obtain ⟨enough,goes⟩ := ih proper
    refine ⟨enough,fun fuel more => ?_⟩
    have result : explore g fuel first = some ending.result := goes fuel more
    change exploreAll g (explore g fuel) n (first :: rest) = _
    rw [exploreAll,result]
    cases ending with
    | Done => exact absurd rfl stops
    | Revisits => exact absurd rfl proper
    | Fails error => rfl
  | @Refuse chain n first rest entered error walks refused ih =>
    obtain ⟨enough,goes⟩ := ih (by simp)
    refine ⟨enough,fun fuel more => ?_⟩
    have result : explore g fuel first = some (.ok ()) := goes fuel more
    change exploreAll g (explore g fuel) n (first :: rest) = _
    rw [exploreAll,result]
    simp only [refused]
    rfl
  | @Next chain n first rest entered later ending walks accepted others ih ihLater =>
    obtain ⟨enough,goes⟩ := ih (by simp)
    obtain ⟨enoughLater,goesLater⟩ := ihLater proper
    refine ⟨max enough enoughLater,fun fuel more => ?_⟩
    change exploreAll g (explore g fuel) n (first :: rest) = _
    rw [exploreAll_first (goes fuel (le_of_max_le_left more)) accepted]
    exact goesLater fuel (le_of_max_le_right more)

/-- The recursion on a leg has ended with this fuel. -/
def Leg.Ended (g : Graph ν κ ε) (fuel : Nat) : Leg ν → Prop
  | .Node n => explore g fuel n ≠ none
  | .Edges n next => exploreAll g (explore g fuel) n next ≠ none

/-- Where a walk revisits a key of its chain, a recursion that ends has ended, with no more
    fuel, on a node of the chain. -/
theorem Walks.demands (injective : ∀ n m,g.key n = g.key m → n = m) {chain : List κ} {leg : Leg ν} {entered : List ν}
    {ending : Ending ε} (walks : Walks g chain leg entered ending) (revisits : ending = .Revisits) :
    ∀ fuel,leg.Ended g fuel → ∃ b,g.key b ∈ chain ∧ ∃ less ≤ fuel,explore g less b ≠ none := by
  induction walks with
  | Revisit again => exact fun fuel ended => ⟨_,again,fuel,Nat.le_refl _,ended⟩
  | Block fresh blocked => cases revisits
  | @Enter chain n next entered ending fresh expands walks ih =>
    have inner := ih revisits
    -- on the node itself the recursion would have to have ended with ever less fuel
    intro fuel
    induction fuel using Nat.strong_induction_on with
    | _ fuel smaller =>
      intro ended
      have first : explore g fuel n ≠ none := ended
      cases fuel with
      | zero => exact absurd rfl first
      | succ fuel =>
        rw [explore,expands] at first
        obtain ⟨b,among,less,under,done⟩ := inner fuel first
        rcases List.mem_cons.mp among with same | earlier
        · cases injective b n same
          obtain ⟨c,member,least,lower,ends⟩ := smaller less (by omega) done
          exact ⟨c,member,least,by omega,ends⟩
        · exact ⟨b,earlier,less,by omega,done⟩
  | Last => cases revisits
  | @Stop chain n first rest entered ending walks stops ih =>
    intro fuel ended
    refine ih revisits fuel ?_
    intro unended
    have none : exploreAll g (explore g fuel) n (first :: rest) = none := by
      rw [exploreAll,show explore g fuel first = none from unended]
    exact ended none
  | Refuse walks refused ih => cases revisits
  | @Next chain n first rest entered later ending walks accepted others ih ihLater =>
    intro fuel ended
    refine ihLater revisits fuel ?_
    obtain ⟨enough,goes⟩ := walks.explored (by simp)
    cases done : explore g fuel first with
    | none =>
      have none : exploreAll g (explore g fuel) n (first :: rest) = none := by rw [exploreAll,done]
      exact absurd none ended
    | some result =>
      have same := (explore_mono (le_max_left fuel enough) done).symm.trans (goes (max fuel enough) (le_max_right _ _))
      rw [Option.some.inj same] at done
      have others : exploreAll g (explore g fuel) n (first :: rest) = _ := exploreAll_first done accepted
      exact fun unended => ended (others.trans unended)

/-- With finitely many keys to expand, one for each node, the recursion from a node ends
    just when the walk from it revisits nothing. -/
theorem explore_ends_iff [DecidableEq κ] (injective : ∀ n m,g.key n = g.key m → n = m) {keys : Finset κ}
    (finite : ∀ n next,g.expand n = .ok next → g.key n ∈ keys) (n : ν) :
    (∃ fuel,explore g fuel n ≠ none) ↔ ∀ entered,¬ Walks g [] (.Node n) entered .Revisits := by
  constructor
  · rintro ⟨fuel,ended⟩ entered walks
    obtain ⟨b,nowhere,-⟩ := walks.demands injective rfl fuel ended
    cases nowhere
  · intro proper
    obtain ⟨entered,ending,walks⟩ := walks_exist finite [] n
    have ends : ending ≠ .Revisits := by
      rintro rfl
      exact proper entered walks
    obtain ⟨enough,goes⟩ := walks.explored ends
    exact ⟨enough,fun unended => by cases unended.symm.trans (goes enough (Nat.le_refl _))⟩

end AegisNode.DepthFirst
