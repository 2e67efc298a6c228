import AegisNode.Text

/-!
Erasing a token from a text: what one round of it leaves, and which texts still hold the
token after several rounds. The token has no border: it does not end as it starts.
-/
namespace AegisNode.Erasure
open Text

/-! ### Replacement -/

section
variable {sep replacement : List Char}

theorem replaceAfter_skip (front rest : List Char) :
    replaceAfter sep replacement front.length (front ++ rest) = replaceAfter sep replacement 0 rest := by
  induction front with
  | nil => rfl
  | cons c front ih => exact ih

theorem replace_found (nonempty : sep ≠ []) (rest : List Char) :
    replaceAfter sep replacement 0 (sep ++ rest) = replacement ++ replaceAfter sep replacement 0 rest := by
  obtain ⟨c,tail,rfl⟩ := List.exists_cons_of_ne_nil nonempty
  have here : (c :: tail).isPrefixOf (c :: (tail ++ rest)) = true := List.isPrefixOf_iff_prefix.mpr ⟨rest,by simp⟩
  rw [List.cons_append,replaceAfter,if_pos here]
  exact congrArg (replacement ++ ·) (replaceAfter_skip tail rest)

theorem replace_other {c : Char} {rest : List Char} (absent : ¬ sep <+: c :: rest) :
    replaceAfter sep replacement 0 (c :: rest) = c :: replaceAfter sep replacement 0 rest := by
  have notHere : ¬ sep.isPrefixOf (c :: rest) = true := fun here => absent (List.isPrefixOf_iff_prefix.mp here)
  rw [replaceAfter,if_neg notHere]

/-- A text without the separator stays. -/
theorem replace_absent {text : List Char} (absent : ¬ sep <:+: text) : replaceAfter sep replacement 0 text = text := by
  induction text with
  | nil => rfl
  | cons c rest ih =>
    rw [replace_other fun here => absent here.isInfix,ih fun inside => absent (inside.trans (List.suffix_cons c rest).isInfix)]

end

/-- `text.replace(token,"")`. -/
def erase (token text : List Char) : List Char := replaceAfter token [] 0 text

/-- The token begins with `head`, and no proper part at its start is also one at its end. -/
def Unbordered (token : List Char) : Prop := ∀ border,border ≠ [] → border <+: token → border <:+ token → border = token

/-- What is left of a text when occurrences of the token are taken out, in any order. -/
inductive Reduces (token : List Char) : List Char → List Char → Prop where
  | Stay (text : List Char) : Reduces token text text
  | Out {front back rest : List Char} (reduces : Reduces token (front ++ back) rest) :
      Reduces token (front ++ token ++ back) rest

theorem Reduces.cons {token text rest : List Char} (c : Char) (reduces : Reduces token text rest) :
    Reduces token (c :: text) (c :: rest) := by
  induction reduces with
  | Stay text => exact .Stay _
  | @Out front back rest reduces ih => exact @Reduces.Out token (c :: front) back _ ih

theorem Reduces.trans {token text middle rest : List Char} (first : Reduces token text middle)
    (second : Reduces token middle rest) : Reduces token text rest := by
  induction first with
  | Stay text => exact second
  | Out reduces ih => exact .Out (ih second)

section
variable {token : List Char}

theorem erase_token (nonempty : token ≠ []) (rest : List Char) : erase token (token ++ rest) = erase token rest :=
  replace_found nonempty rest

theorem erase_keep {c : Char} {rest : List Char} (absent : ¬ token <+: c :: rest) :
    erase token (c :: rest) = c :: erase token rest := replace_other absent

/-- A round goes through the text from left to right: tokens are taken out, other
    characters are kept. -/
theorem erase_induction (nonempty : token ≠ []) {motive : List Char → Prop} (nil : motive [])
    (out : ∀ rest,motive rest → motive (token ++ rest))
    (keep : ∀ c rest,¬ token <+: c :: rest → motive rest → motive (c :: rest)) : ∀ text,motive text := by
  intro text
  induction length : text.length using Nat.strong_induction_on generalizing text with
  | _ n ih =>
    cases text with
    | nil => exact nil
    | cons c rest =>
      by_cases here : token <+: c :: rest
      · obtain ⟨tail,whole⟩ := here
        rw [← whole] at length ⊢
        have some := List.length_pos_iff.mpr nonempty
        exact out tail (ih tail.length (by simp at length; omega) tail rfl)
      · exact keep c rest here (ih rest.length (by simp at length; omega) rest rfl)

theorem erase_reduces (nonempty : token ≠ []) (text : List Char) : Reduces token text (erase token text) := by
  induction text using erase_induction nonempty with
  | nil => exact .Stay []
  | out rest ih =>
    rw [erase_token nonempty]
    exact @Reduces.Out token [] _ _ ih
  | keep c rest absent ih =>
    rw [erase_keep absent]
    exact ih.cons c

end

/-! ### Words in a replaced text -/

section
variable {head mark : Char} {tail rest word : List Char}

theorem infix_after {front back : List Char} (absent : head ∉ front) :
    head :: word <:+: front ++ back ↔ head :: word <:+: back := by
  induction front with
  | nil => rfl
  | cons c front ih =>
    have other : ¬ head :: word <+: c :: (front ++ back) := by
      intro here
      exact absent (List.mem_cons.mpr (.inl (List.cons_prefix_cons.mp here).1))
    rw [List.cons_append,List.infix_cons_iff,or_iff_right other]
    exact ih fun member => absent (List.mem_cons_of_mem c member)

theorem replace_append {token : List Char} {c : Char} (nonempty : token ≠ []) (absent : c ∉ token) (replacement text : List Char) :
    replaceAfter token replacement 0 (text ++ [c]) = replaceAfter token replacement 0 text ++ [c] := by
  have outside : ∀ front,token <+: front ++ [c] → token <+: front := by
    intro front here
    rcases List.prefix_concat_iff.mp here with whole | inside
    · rw [whole] at absent
      exact absurd (List.mem_append_right front List.mem_cons_self) absent
    · exact inside
  induction text using erase_induction nonempty with
  | nil =>
    have other : ¬ token <+: [c] := fun here => nonempty (List.prefix_nil.mp (outside [] here))
    exact replace_other other
  | out text ih => rw [List.append_assoc,replace_found nonempty,replace_found nonempty,ih,List.append_assoc]
  | keep d text other ih =>
    have other' : ¬ token <+: d :: (text ++ [c]) := fun here => other (outside (d :: text) here)
    rw [List.cons_append,replace_other other',replace_other other,ih,List.cons_append]

/-- The token begins with a character of which words and replacements are free. -/
theorem prefix_replaced (noHead : head ∉ word) (noMark : mark ∉ word) (text : List Char) :
    word <+: replaceAfter (head :: tail) (mark :: rest) 0 text ↔ word <+: text := by
  induction text generalizing word with
  | nil => rfl
  | cons c text ih =>
    cases word with
    | nil => simp
    | cons d word =>
      by_cases here : head :: tail <+: c :: text
      · obtain ⟨later,whole⟩ := here
        rw [← whole,replace_found (List.cons_ne_nil head tail),List.cons_append,List.cons_append,List.cons_prefix_cons,
          List.cons_prefix_cons]
        constructor
        · rintro ⟨rfl,-⟩
          exact absurd List.mem_cons_self noMark
        · rintro ⟨rfl,-⟩
          exact absurd List.mem_cons_self noHead
      · rw [replace_other here,List.cons_prefix_cons,List.cons_prefix_cons,
          ih (fun member => noHead (List.mem_cons_of_mem d member)) (fun member => noMark (List.mem_cons_of_mem d member))]

variable (noHead : head ∉ word) (noMark : mark ∉ word) (noReplacement : head ∉ mark :: rest)
include noHead noMark noReplacement

/-- A word that begins with the token is gone. -/
theorem infix_gone (begun : tail <+: word) (text : List Char) :
    ¬ head :: word <:+: replaceAfter (head :: tail) (mark :: rest) 0 text := by
  induction text using erase_induction (List.cons_ne_nil head tail) with
  | nil => simp [replaceAfter]
  | out text ih => rwa [replace_found (List.cons_ne_nil head tail),infix_after noReplacement]
  | keep c text other ih =>
    rw [replace_other other,List.infix_cons_iff]
    rintro (here | inside)
    · obtain ⟨rfl,onward⟩ := List.cons_prefix_cons.mp here
      exact other (List.cons_prefix_cons.mpr ⟨rfl,begun.trans ((prefix_replaced noHead noMark text).mp onward)⟩)
    · exact ih inside

/-- A word that is told from the token stays where it is. -/
theorem infix_replaced (noTail : head ∉ tail) (other : ¬ tail <+: word) (other' : ¬ word <+: tail) (text : List Char) :
    head :: word <:+: replaceAfter (head :: tail) (mark :: rest) 0 text ↔ head :: word <:+: text := by
  induction text using erase_induction (List.cons_ne_nil head tail) with
  | nil => rfl
  | out text ih =>
    have apart : ¬ head :: word <+: head :: (tail ++ text) := by
      intro here
      rcases List.prefix_or_prefix_of_prefix (List.cons_prefix_cons.mp here).2 (List.prefix_append tail text) with short | long
      · exact other' short
      · exact other long
    rw [replace_found (List.cons_ne_nil head tail),infix_after noReplacement,ih,List.cons_append,List.infix_cons_iff,
      or_iff_right apart,infix_after noTail]
  | keep c text absent ih =>
    rw [replace_other absent,List.infix_cons_iff,List.infix_cons_iff,ih,List.cons_prefix_cons,List.cons_prefix_cons,
      prefix_replaced noHead noMark]

end

/-! ### Nests -/

section
variable {head : Char} {tail : List Char}

/-- The rest of a token with whole tokens between its characters, in which there may be
    tokens again; `depth` says how far down that goes. -/
inductive Nest (head : Char) (tail : List Char) : (rest : List Char) → (depth : Nat) → List Char → Prop where
  | Over : Nest head tail [] 0 []
  | Next {c : Char} {rest word : List Char} {depth : Nat} (later : Nest head tail rest depth word) :
      Nest head tail (c :: rest) depth (c :: word)
  | Inner {rest inside word : List Char} {deep depth : Nat} (more : rest ≠ []) (inner : Nest head tail tail deep inside)
      (later : Nest head tail rest depth word) :
      Nest head tail rest (max (deep+1) depth) (head :: inside ++ word)

/-- The text holds a token with tokens inside each other to the depth, at least. -/
def Nested (head : Char) (tail : List Char) (depth : Nat) (text : List Char) : Prop :=
  ∃ deep word,depth ≤ deep ∧ Nest head tail tail deep word ∧ head :: word <:+: text

theorem nest_flat (rest : List Char) : Nest head tail rest 0 rest := by
  induction rest with
  | nil => exact .Over
  | cons c rest ih => exact .Next ih

theorem flat_nest {rest word : List Char} {depth : Nat} (nest : Nest head tail rest depth word) : depth = 0 → word = rest := by
  induction nest with
  | Over => exact fun _ => rfl
  | Next later ih =>
    intro flat
    rw [ih flat]
  | Inner more inner later =>
    intro flat
    omega

/-- Tokens before the rest of a token. -/
theorem nest_tokens {rest word : List Char} {depth : Nat} (more : rest ≠ []) (nest : Nest head tail rest depth word) (count : Nat) :
    ∃ deep,depth ≤ deep ∧ (0 < count → 1 ≤ deep) ∧
      Nest head tail rest deep ((List.replicate count (head :: tail)).flatten ++ word) := by
  induction count with
  | zero => exact ⟨depth,le_rfl,by omega,nest⟩
  | succ count ih =>
    obtain ⟨deep,deeper,-,whole⟩ := ih
    refine ⟨max (0+1) deep,by omega,by omega,?_⟩
    rw [List.replicate_succ,List.flatten_cons,List.append_assoc]
    exact .Inner more (nest_flat tail) whole

variable (unbordered : Unbordered (head :: tail))
include unbordered

theorem start_whole {before rest : List Char} (whole : head :: tail = before ++ rest) (begun : before ≠ [])
    (ends : before ++ [] <:+ head :: tail) : before ++ [] = head :: tail := by
  rw [List.append_nil] at ends ⊢
  exact unbordered before begun ⟨rest,whole.symm⟩ ends

/-- A nest does not start with the end of a token. -/
theorem no_entry {rest word : List Char} {depth : Nat} (nest : Nest head tail rest depth word) {before entry after : List Char}
    (whole : head :: tail = before ++ rest) (begun : before ≠ []) (front : entry <+: word ++ after)
    (ends : before ++ entry <:+ head :: tail) : before ++ entry = head :: tail := by
  induction nest generalizing before entry after with
  | Over =>
    have all : before = head :: tail := by rw [whole,List.append_nil]
    have short := ends.length_le
    rw [← all,List.length_append] at short
    rw [List.eq_nil_of_length_eq_zero (l := entry) (by omega),List.append_nil,all]
  | @Next c rest word depth later ih =>
    cases entry with
    | nil => exact start_whole unbordered whole begun ends
    | cons d entry =>
      obtain ⟨rfl,onward⟩ := List.cons_prefix_cons.mp front
      have further : head :: tail = before ++ [d] ++ rest := by simpa using whole
      have done := ih further (by simp) onward (by simpa using ends)
      simpa using done
  | @Inner rest inside word deep depth more inner later first second =>
    cases entry with
    | nil => exact start_whole unbordered whole begun ends
    | cons d entry =>
      rw [List.cons_append,List.cons_append] at front
      obtain ⟨rfl,onward⟩ := List.cons_prefix_cons.mp front
      rw [List.append_assoc] at onward
      have ends' : [d] ++ entry <:+ d :: tail := (List.suffix_append before (d :: entry)).trans ends
      have same := congrArg List.length (first (show d :: tail = [d] ++ tail from rfl) (by simp) onward ends')
      have short := ends.length_le
      have positive := List.length_pos_iff.mpr begun
      simp only [List.length_append,List.length_cons,List.length_nil] at same short
      omega

omit unbordered in
theorem held_short {before held rest : List Char} (whole : head :: tail = before ++ held ++ rest) (begun : before ≠ []) :
    held.length < (head :: tail).length := by
  have positive := List.length_pos_iff.mpr begun
  rw [whole,List.length_append,List.length_append]
  omega

/-- The end of a token is not the start of one, whatever nests are in it. -/
theorem no_start {rest word : List Char} {depth : Nat} (nest : Nest head tail rest depth word) {before held after : List Char}
    (whole : head :: tail = before ++ held ++ rest) (begun : before ≠ []) (some : held ≠ []) :
    ¬ head :: tail <+: held ++ (word ++ after) := by
  induction nest generalizing held after with
  | Over =>
    intro here
    have short := held_short whole begun
    have front := List.prefix_of_prefix_length_le (List.prefix_append held _) here short.le
    rw [List.append_nil] at whole
    rw [unbordered held some front ⟨before,whole.symm⟩] at short
    exact Nat.lt_irrefl _ short
  | @Next c rest word depth later ih =>
    intro here
    have further : head :: tail = before ++ (held ++ [c]) ++ rest := by simpa using whole
    have onward : head :: tail <+: held ++ [c] ++ (word ++ after) := by simpa using here
    exact ih further (by simp) onward
  | @Inner rest inside word deep depth more inner later first second =>
    intro here
    have short := held_short whole begun
    obtain ⟨entry,split⟩ := List.prefix_of_prefix_length_le (List.prefix_append held _) here short.le
    rw [← split] at here
    have onward := (List.prefix_append_right_inj held).mp here
    cases entry with
    | nil =>
      rw [← split,List.append_nil] at short
      exact Nat.lt_irrefl _ short
    | cons d entry =>
      rw [List.cons_append,List.cons_append] at onward
      obtain ⟨rfl,inward⟩ := List.cons_prefix_cons.mp onward
      rw [List.append_assoc] at inward
      have same := congrArg List.length (no_entry unbordered inner (show d :: tail = [d] ++ tail from rfl) (by simp) inward ⟨held,split⟩)
      have more := congrArg List.length split
      have positive := List.length_pos_iff.mpr some
      simp only [List.length_append,List.length_cons,List.length_nil] at same more
      omega

/-- Only a flat nest is a token. -/
theorem nest_token {rest word : List Char} {depth : Nat} (nest : Nest head tail rest depth word) {before after : List Char}
    (whole : head :: tail = before ++ rest) (begun : before ≠ []) (here : rest <+: word ++ after) : depth = 0 := by
  induction nest generalizing before after with
  | Over => rfl
  | @Next c rest word depth later ih =>
    have further : head :: tail = before ++ [c] ++ rest := by simpa using whole
    exact ih further (by simp) (List.cons_prefix_cons.mp here).2
  | @Inner rest inside word deep depth more inner later first second =>
    cases rest with
    | nil => exact absurd rfl more
    | cons d rest =>
      rw [List.cons_append,List.cons_append] at here
      obtain ⟨rfl,inward⟩ := List.cons_prefix_cons.mp here
      rw [List.append_assoc] at inward
      have same := congrArg List.length (no_entry unbordered inner (show d :: tail = [d] ++ tail from rfl) (by simp) inward ⟨before,whole.symm⟩)
      have more := congrArg List.length whole
      have positive := List.length_pos_iff.mpr begun
      simp only [List.length_append,List.length_cons,List.length_nil] at same more
      omega

/-! ### One round -/

/-- A round takes out the innermost tokens of a nest, and leaves the rest of it. -/
theorem erase_nest {rest word : List Char} {depth : Nat} (nest : Nest head tail rest depth word) {before : List Char}
    (whole : head :: tail = before ++ rest) (begun : before ≠ []) (after : List Char) :
    ∃ shallow left,depth ≤ shallow+1 ∧ Nest head tail rest shallow left ∧
      erase (head :: tail) (word ++ after) = left ++ erase (head :: tail) after := by
  induction nest generalizing before after with
  | Over => exact ⟨0,[],by omega,.Over,rfl⟩
  | @Next c rest word depth later ih =>
    have further : head :: tail = before ++ [c] ++ rest := by simpa using whole
    obtain ⟨shallow,left,near,nest,erased⟩ := ih further (by simp) after
    refine ⟨shallow,c :: left,near,.Next nest,?_⟩
    have absent : ¬ head :: tail <+: [c] ++ (word ++ after) := no_start unbordered later further begun (by simp)
    rw [List.cons_append,erase_keep (by simpa using absent),erased,List.cons_append]
  | @Inner rest inside word deep depth more inner later first second =>
    obtain ⟨shallow,left,near,nest,erased⟩ := second whole begun after
    rw [List.append_assoc]
    by_cases flat : deep = 0
    · rw [flat_nest inner flat,erase_token (by simp),erased]
      exact ⟨shallow,left,by omega,nest,rfl⟩
    · obtain ⟨shallow',left',near',nest',erased'⟩ := first (show head :: tail = [head] ++ tail from rfl) (by simp) (word ++ after)
      have absent : ¬ head :: tail <+: head :: (inside ++ (word ++ after)) := by
        intro here
        exact flat (nest_token unbordered inner (show head :: tail = [head] ++ tail from rfl) (by simp) (List.cons_prefix_cons.mp here).2)
      refine ⟨max (shallow'+1) shallow,head :: left' ++ left,by omega,.Inner more nest' nest,?_⟩
      rw [List.cons_append,erase_keep absent,erased',erased]
      simp

/-- A round passes over what stands before a nest. -/
theorem erase_before {word : List Char} {depth : Nat} (nest : Nest head tail tail depth word) (front after : List Char) :
    ∃ left,erase (head :: tail) (front ++ head :: (word ++ after)) =
      left ++ erase (head :: tail) (head :: (word ++ after)) := by
  induction length : front.length using Nat.strong_induction_on generalizing front with
  | _ n ih =>
    cases front with
    | nil => exact ⟨[],rfl⟩
    | cons c rest =>
      by_cases here : head :: tail <+: c :: rest ++ head :: (word ++ after)
      · rcases List.prefix_or_prefix_of_prefix here (List.prefix_append _ _) with inside | ⟨entry,split⟩
        · obtain ⟨later,whole⟩ := inside
          rw [← whole] at length ⊢
          obtain ⟨left,erased⟩ := ih later.length (by simp at length; omega) later rfl
          exact ⟨left,by rw [List.append_assoc,erase_token (by simp),erased]⟩
        · cases entry with
          | nil =>
            rw [List.append_nil] at split
            rw [split]
            exact ⟨[],erase_token (by simp) _⟩
          | cons d entry =>
            rw [← split] at here
            obtain ⟨rfl,inward⟩ := List.cons_prefix_cons.mp ((List.prefix_append_right_inj _).mp here)
            have same := congrArg List.length (no_entry unbordered nest (show d :: tail = [d] ++ tail from rfl) (by simp) inward ⟨c :: rest,split⟩)
            have more := congrArg List.length split
            simp only [List.length_append,List.length_cons,List.length_nil] at same more
            omega
      · have absent : ¬ head :: tail <+: c :: (rest ++ head :: (word ++ after)) := here
        obtain ⟨left,erased⟩ := ih rest.length (by simp at length; omega) rest rfl
        exact ⟨c :: left,by rw [List.cons_append,erase_keep absent,erased,List.cons_append]⟩

omit unbordered

/-- What a character that is left stands for: some tokens and the character. -/
theorem erase_cons {text rest : List Char} {c : Char} (left : erase (head :: tail) text = c :: rest) :
    ∃ count later,text = (List.replicate count (head :: tail)).flatten ++ c :: later ∧
      ¬ head :: tail <+: c :: later ∧ erase (head :: tail) later = rest := by
  induction text using erase_induction (List.cons_ne_nil head tail) with
  | nil => cases left
  | out text ih =>
    rw [erase_token (by simp)] at left
    obtain ⟨count,later,rfl,absent,erased⟩ := ih left
    exact ⟨count+1,later,by simp [List.replicate_succ],absent,erased⟩
  | keep d text absent ih =>
    rw [erase_keep absent] at left
    obtain ⟨rfl,erased⟩ := List.cons.inj left
    exact ⟨0,text,rfl,absent,erased⟩

theorem erase_append {text front rest : List Char} (left : erase (head :: tail) text = front ++ rest) :
    ∃ before later,text = before ++ later ∧ erase (head :: tail) later = rest := by
  induction front generalizing text with
  | nil => exact ⟨[],text,rfl,left⟩
  | cons c front ih =>
    obtain ⟨count,later,rfl,-,erased⟩ := erase_cons left
    obtain ⟨before,last,rfl,remains⟩ := ih erased
    exact ⟨(List.replicate count (head :: tail)).flatten ++ c :: before,last,by simp,remains⟩

/-- A nest that is left comes from one that was deeper. -/
theorem nest_left {rest word : List Char} {depth : Nat} (nest : Nest head tail rest depth word) {text after : List Char}
    (left : erase (head :: tail) text = word ++ after) :
    ∃ deep front later,text = front ++ later ∧ erase (head :: tail) later = after ∧ Nest head tail rest deep front ∧
      (1 ≤ depth → depth+1 ≤ deep) := by
  induction nest generalizing text after with
  | Over => exact ⟨0,[],text,rfl,left,.Over,by omega⟩
  | @Next c rest word depth later ih =>
    obtain ⟨count,more,rfl,-,erased⟩ := erase_cons left
    obtain ⟨deep,front,last,rfl,erased,nest,deeper⟩ := ih erased
    obtain ⟨deep',further,-,whole⟩ := nest_tokens (List.cons_ne_nil c rest) (.Next nest) count
    exact ⟨deep',_,last,by simp,erased,whole,by omega⟩
  | @Inner rest inside word deep depth more inner later first second =>
    rw [List.append_assoc] at left
    obtain ⟨count,onward,rfl,absent,erased⟩ := erase_cons left
    obtain ⟨deep',inside',last,rfl,erased,nest,deeper⟩ := first erased
    obtain ⟨depth',word',final,rfl,erased,nest',further⟩ := second erased
    have held : deep' ≠ 0 := by
      intro flat
      rw [flat_nest nest flat] at absent
      exact absent ⟨_,rfl⟩
    obtain ⟨whole,above,-,nests⟩ := nest_tokens more (.Inner more nest nest') count
    exact ⟨whole,_,final,by simp,erased,nests,by omega⟩

/-- A nest holds the token. -/
theorem nest_holds {rest word : List Char} {depth : Nat} (nest : Nest head tail rest depth word) :
    depth = 0 ∨ head :: tail <:+: word := by
  induction nest with
  | Over => exact .inl rfl
  | @Next c rest word depth later ih => exact ih.imp_right fun inside => inside.trans (List.suffix_cons c word).isInfix
  | @Inner rest inside word deep depth more inner later first second =>
    right
    rcases first with flat | held
    · rw [flat_nest inner flat]
      exact (List.prefix_append _ _).isInfix
    · exact held.trans ((List.suffix_cons head inside).isInfix.trans (List.prefix_append _ _).isInfix)

theorem nested_zero (text : List Char) : Nested head tail 0 text ↔ head :: tail <:+: text := by
  constructor
  · rintro ⟨deep,word,-,nest,inside⟩
    rcases nest_holds nest with flat | held
    · rwa [flat_nest nest flat] at inside
    · exact (held.trans (List.suffix_cons head word).isInfix).trans inside
  · intro inside
    exact ⟨0,tail,le_rfl,nest_flat tail,inside⟩

include unbordered

/-- A round of erasing takes one level off. -/
theorem nested_erase (depth : Nat) (text : List Char) :
    Nested head tail depth (erase (head :: tail) text) ↔ Nested head tail (depth+1) text := by
  constructor
  · rintro ⟨deep,word,deeper,nest,front,back,whole⟩
    rw [List.append_assoc] at whole
    obtain ⟨before,later,rfl,erased⟩ := erase_append whole.symm
    obtain ⟨count,last,rfl,absent,erased⟩ := erase_cons erased
    obtain ⟨deep',front',final,rfl,-,nest',further⟩ := nest_left nest erased
    have held : deep' ≠ 0 := by
      intro flat
      rw [flat_nest nest' flat] at absent
      exact absent ⟨_,rfl⟩
    refine ⟨deep',front',by omega,nest',before ++ (List.replicate count (head :: tail)).flatten,final,by simp⟩
  · rintro ⟨deep,word,deeper,nest,front,back,rfl⟩
    obtain ⟨left,passed⟩ := erase_before unbordered nest front back
    obtain ⟨shallow,word',near,nest',erased⟩ := erase_nest unbordered nest (show head :: tail = [head] ++ tail from rfl) (by simp) back
    have absent : ¬ head :: tail <+: head :: (word ++ back) := by
      intro here
      have flat := nest_token unbordered nest (show head :: tail = [head] ++ tail from rfl) (by simp) (List.cons_prefix_cons.mp here).2
      omega
    refine ⟨shallow,word',by omega,nest',left,erase (head :: tail) back,?_⟩
    have whole : front ++ head :: word ++ back = front ++ head :: (word ++ back) := by simp
    rw [whole,passed,erase_keep absent,erased]
    simp

end

end AegisNode.Erasure
