import AegisNode.LlamaChat
import AegisNode.Mediator
import AegisNode.JsonText

/-!
The llama.cpp session: a prompt that is read as one batch, then one token after the other,
each sampled from what the context has kept; and the same answer as the continuation of a
text that is read anew for every token.
-/
namespace AegisNode.Generation
open Text Json Backend Slices Mediator LlamaChat

inductive LlamaError where
  | BackendAlreadyInitialized
  | BackendInitFailed (detail : String)
  | ModelFileUnreadable (path detail : String)
  | ModelLoadFailed (path detail : String)
  | SessionInitFailed (detail : String)
  | TokenizationFailed (detail : String)
  | InferenceFailed (detail : String)
  | InvalidUtf8 (detail : String)
  | InvalidConfig (detail : String)
  deriving DecidableEq,Repr

def LlamaError.toString : LlamaError → String
  | .BackendAlreadyInitialized => "llama.cpp backend already initialized in this process (only one Backend allowed)"
  | .BackendInitFailed detail => "llama.cpp backend init failed: " ++ detail
  | .ModelFileUnreadable path detail => "model file not found or unreadable: " ++ rustDebug path ++ ": " ++ detail
  | .ModelLoadFailed path detail => "not a valid GGUF model: " ++ rustDebug path ++ ": " ++ detail
  | .SessionInitFailed detail => "session creation failed: " ++ detail
  | .TokenizationFailed detail => "tokenization failed: " ++ detail
  | .InferenceFailed detail => "inference decode failed: " ++ detail
  | .InvalidUtf8 detail => "detokenization produced invalid UTF-8: " ++ detail
  | .InvalidConfig detail => "invalid configuration: " ++ detail

def LlamaError.kind : LlamaError → BackendErrorKind
  | .BackendAlreadyInitialized => .BackendAlreadyInitialized
  | .BackendInitFailed _ => .BackendInitFailed
  | .ModelFileUnreadable _ _ => .ModelFileUnreadable
  | .ModelLoadFailed _ _ => .ModelLoadFailed
  | .SessionInitFailed _ => .SessionInitFailed
  | .TokenizationFailed _ => .Tokenization
  | .InferenceFailed _ => .Inference
  | .InvalidUtf8 _ => .InvalidUtf8
  | .InvalidConfig _ => .InvalidConfig

def mapErr (e : LlamaError) : BackendError := ⟨e.kind,e.toString⟩

structure DeterminismKnobs where
  seed : Option UInt32
  temperature : Option Float32
  topP : Option Float32
  topK : Option UInt32
  repeatPenalty : Option Float32

structure SessionOptions where
  nCtx : UInt32
  maxTokens : UInt32
  determinism : DeterminismKnobs

/-- What `SessionOptions::default` gives, with the knobs of a manifest. -/
def sessionOptions (determinism : DeterminismKnobs) : SessionOptions := ⟨2048,256,determinism⟩

/-! ### Samplers -/

/-- The stages of the third-party `LlamaSampler`. -/
inductive Stage where
  | Penalties (penaltyLastN : Int32) (penaltyRepeat penaltyFreq penaltyPresent : Float32)
  | TopK (k : Int32)
  | TopP (p : Float32) (minKeep : Nat)
  | Temp (t : Float32)
  | Greedy
  | Dist (seed : UInt32)

/-- `f32::EPSILON` -/
def epsilon : Float32 := Float32.ofScientific 11920929 true 14

/-- The last stage picks the token, and those before it filter. -/
def Stage.picks : Stage → Bool
  | .Greedy => true
  | .Dist _ => true
  | _ => false

/-- Stages that would change nothing are left out. -/
def filters (knobs : DeterminismKnobs) : List Stage :=
  (match knobs.repeatPenalty with
    | some rp => if (rp-1.0).abs > epsilon then [.Penalties 64 rp 0.0 0.0] else []
    | none => []) ++
  (match knobs.topK with
    | some k => if 0 < k then [.TopK k.toInt32] else []
    | none => []) ++
  (match knobs.topP with
    | some p => if p < 1.0 then [.TopP p 1] else []
    | none => [])

def buildSamplerChain (knobs : DeterminismKnobs) : List Stage :=
  let temp := knobs.temperature.getD 0.0
  filters knobs ++ if temp ≤ 0.0 then [.Greedy] else [.Temp temp,.Dist (knobs.seed.getD 0)]

theorem filters_picks {knobs : DeterminismKnobs} : ∀ stage ∈ filters knobs,stage.picks = false := by
  intro stage member
  simp only [filters,List.mem_append] at member
  rcases member with (member | member) | member <;>
    (split at member
     · split_ifs at member
       · cases List.mem_singleton.mp member
         rfl
       · cases member
     · cases member)

/-- Whatever the knobs, one stage picks the token, and it is the last. -/
theorem chain_picks (knobs : DeterminismKnobs) : ∃ front last,buildSamplerChain knobs = front ++ [last] ∧ last.picks = true ∧
    ∀ stage ∈ front,stage.picks = false := by
  rw [buildSamplerChain]
  split_ifs with greedy
  · exact ⟨filters knobs,.Greedy,rfl,rfl,filters_picks⟩
  · refine ⟨filters knobs ++ [.Temp (knobs.temperature.getD 0.0)],.Dist (knobs.seed.getD 0),by simp,rfl,?_⟩
    intro stage member
    rcases List.mem_append.mp member with filter | temp
    · exact filters_picks stage filter
    · cases List.mem_singleton.mp temp
      rfl

/-- Where the temperature is not positive, the seed plays no part. -/
theorem chain_seed {knobs : DeterminismKnobs} (greedy : knobs.temperature.getD 0.0 ≤ 0.0) (seed : Option UInt32) :
    buildSamplerChain { knobs with seed := seed } = buildSamplerChain knobs := by
  simp only [buildSamplerChain,filters,greedy,↓reduceIte]

/-! ### The library -/

/-- The third-party llama.cpp with the weights of a model: its vocabulary, its batches and
    contexts, its sampler chains, its chat templates, and the texts of `Utf8Error`. -/
class Llama where
  Token : Type
  Batch : Type
  Context : Type
  Sampler : Type
  Template : Type
  Message : Type
  strToToken : String → Except String (List Token)
  isEogToken : Token → Bool
  tokenToPieceBytes : Token → Except String (List UInt8)
  newBatch : (nTokens nSeqMax : Nat) → Batch
  add : Batch → Token → (pos : Int32) → (seqIds : List Int32) → (logits : Bool) → Except String Batch
  clear : Batch → Batch
  newContext : (nCtx : Option UInt32) → Except String Context
  decode : Context → Batch → Except String Context
  chainSimple : List Stage → Sampler
  sample : Sampler → Context → (idx : Int32) → Token × Sampler
  accept : Sampler → Token → Sampler
  chatTemplate : Option Template
  newMessage : (role content : String) → Except String Message
  applyChatTemplate : Template → List Message → Except String String
  applyChatTemplateWithTools : Template → List Message → (tools : String) → Except String String
  utf8Error : List UInt8 → String

section
variable [Llama]
open Llama

/-! ### A session -/

structure Session where
  maxTokens : UInt32
  sampler : Sampler
  context : Context

/-- `NonZeroU32::new` -/
def nonZero (n : UInt32) : Option UInt32 := if n = 0 then none else some n

def Session.new (options : SessionOptions) : Except LlamaError Session :=
  if options.maxTokens = 0 then .error (.InvalidConfig "max_tokens must be > 0")
  else do
    let context ← (newContext (nonZero options.nCtx)).mapError .SessionInitFailed
    return ⟨options.maxTokens,chainSimple (buildSamplerChain options.determinism),context⟩

/-- Only the logits of the last token are wanted. -/
def addPrompt (lastIdx : Nat) (batch : Batch) (i : Nat) : List Token → Except LlamaError Batch
  | [] => .ok batch
  | token :: rest => do
    let batch ← (add batch token (Int32.ofNat i) [0] (i = lastIdx)).mapError fun e => .InferenceFailed ("batch.add: " ++ e)
    addPrompt lastIdx batch (i+1) rest

/-- The variables of the loop that generates. -/
structure Generating where
  sampler : Sampler
  context : Context
  batch : Batch
  output : String
  curPos : Int32
  sampleIdx : Int32

/-- The text of a token at a position. -/
def pieceText (curPos : Int32) (token : Token) : Except LlamaError String := do
  let bytes ← (tokenToPieceBytes token).mapError fun e => .InferenceFailed ("token_to_piece_bytes: " ++ e)
  match Bytes.decode bytes with
  | some text => .ok text
  | none => .error (.InvalidUtf8 ("non-UTF8 token output at position " ++ ToString.toString curPos ++ ": " ++ utf8Error bytes))

/-- What is sampled is accepted, and it is read once more unless it ends the generation. -/
def generate : Nat → Generating → Except LlamaError Generating
  | 0,g => .ok g
  | n+1,g =>
    let sampled := sample g.sampler g.context g.sampleIdx
    let sampler := accept sampled.2 sampled.1
    if isEogToken sampled.1 then .ok { g with sampler := sampler }
    else do
      let text ← pieceText g.curPos sampled.1
      let batch ← (add (clear g.batch) sampled.1 g.curPos [0] true).mapError fun e => .InferenceFailed ("batch.add (gen): " ++ e)
      let context ← (decode g.context batch).mapError fun e => .InferenceFailed ("decode (gen): " ++ e)
      generate n ⟨sampler,context,batch,g.output ++ text,g.curPos+1,0⟩

/-- The text, and the session after it. -/
def Session.infer (session : Session) (prompt : String) : Except LlamaError (String × Session) := do
  let promptTokens ← (strToToken prompt).mapError .TokenizationFailed
  if promptTokens.isEmpty then .error (.TokenizationFailed "tokenizer returned 0 tokens for the prompt")
  else
    let lastIdx := promptTokens.length-1
    let batch ← addPrompt lastIdx (newBatch (max promptTokens.length 1) 1) 0 promptTokens
    let context ← (decode session.context batch).mapError fun e => .InferenceFailed ("decode: " ++ e)
    let g ← generate session.maxTokens.toNat ⟨session.sampler,context,batch,"",Int32.ofNat promptTokens.length,Int32.ofNat lastIdx⟩
    return (g.output,{ session with sampler := g.sampler, context := g.context })

/-! ### A chat -/

variable [Serde]

def toolValue (t : ToolDecl) : Value :=
  object [("type",.String "function"),("function",object [("name",.String t.name),("description",.String t.description),
    ("parameters",t.argumentsSchema)])]

def serializeTools (tools : List ToolDecl) : String := Serde.toString (.Array (tools.map toolValue))

def fallbackFlatPrompt (request : InferRequest) : String :=
  String.join (request.messages.map fun m => m.role.asStr ++ ": " ++ m.content ++ "\n") ++ "assistant: "

def renderTemplate (tmpl : Template) (request : InferRequest) : Except BackendError String := do
  let messages ← request.messages.mapM fun m => (newMessage m.role.asStr m.content).mapError fun e => ⟨.Tokenization,"chat message: " ++ e⟩
  if request.tools.isEmpty then
    (applyChatTemplate tmpl messages).mapError fun e => ⟨.Tokenization,"apply_chat_template: " ++ e⟩
  else
    (applyChatTemplateWithTools tmpl messages (serializeTools request.tools)).mapError fun e =>
      ⟨.Tokenization,"apply_chat_template_with_tools_oaicompat: " ++ e⟩

def promptOf (request : InferRequest) : Except BackendError String :=
  match chatTemplate with
  | some tmpl => renderTemplate tmpl request
  | none => .ok (fallbackFlatPrompt request)

/-- The answer of the loaded model: a session of its own for each request, and what the
    parser makes of its text. -/
def infer [BodyReader] (options : SessionOptions) (request : InferRequest) : Except BackendError (Sliced InferResponse) := do
  let prompt ← promptOf request
  let session ← (Session.new options).mapError mapErr
  let raw ← (session.infer prompt).mapError mapErr
  return parseResponse raw.1

end

/-! ### What the library does -/

section
variable [Llama]
open Llama

/-- A token of a batch. -/
structure Entry where
  token : Token
  pos : Int32
  seqIds : List Int32
  logits : Bool

/-- The logits of a text and what a sampler makes of them, the tokens of a batch and how
    many it was made for, what a context has read, how much it can hold, and how much it
    reads at once. -/
structure Meaning where
  Logits : Type
  forward : List Token → Logits
  pick : Sampler → Logits → Token × Sampler
  entries : Batch → List Entry
  allocated : Batch → Nat
  held : Context → List Token
  room : Context → Nat
  nBatch : Nat

/-- The batch goes on where the text stops. -/
def Follows (text : List Token) (entries : List Entry) : Prop :=
  ∀ (i : Nat) (entry : Entry),entries[i]? = some entry → entry.pos.toInt = (text.length+i : Nat) ∧ entry.seqIds = [0]

/-- What the documentation of llama.cpp says: a batch holds what was added to it, and a
    context that is given the next positions of its sequence reads them if it has room for
    them; the logits of a token are then those of the text up to it. -/
structure Documented (m : Meaning) : Prop where
  fresh : ∀ {nCtx context},newContext nCtx = .ok context → m.held context = [] ∧ m.room context < 2^31
  single : 0 < m.nBatch
  newBatch : ∀ nTokens nSeqMax,m.entries (newBatch nTokens nSeqMax) = [] ∧ m.allocated (newBatch nTokens nSeqMax) = nTokens
  clear : ∀ batch,m.entries (clear batch) = [] ∧ m.allocated (clear batch) = m.allocated batch
  add : ∀ (batch : Batch) (token : Token) (pos : Int32) (logits : Bool),(m.entries batch).length < m.allocated batch →
    ∃ after,add batch token pos [0] logits = .ok after ∧ m.entries after = m.entries batch ++ [⟨token,pos,[0],logits⟩] ∧
      m.allocated after = m.allocated batch
  full : ∀ {context batch},(m.entries batch).length ≤ m.nBatch → m.room context < (m.held context).length+(m.entries batch).length →
    ∃ e,decode context batch = .error e
  reads : ∀ {context batch},(m.entries batch).length ≤ m.nBatch → m.entries batch ≠ [] → Follows (m.held context) (m.entries batch) →
    (m.held context).length+(m.entries batch).length ≤ m.room context →
    ∃ after,decode context batch = .ok after ∧ m.held after = m.held context ++ (m.entries batch).map Entry.token ∧
      m.room after = m.room context ∧ ∀ i entry,(m.entries batch)[i]? = some entry → entry.logits = true →
        ∀ sampler,sample sampler after (Int32.ofNat i) =
          m.pick sampler (m.forward (m.held context ++ ((m.entries batch).take (i+1)).map Entry.token))

/-! ### The text read anew -/

variable (m : Meaning)

/-- The token after a text, picked from the whole of it, and the sampler that has accepted it. -/
def following (sampler : Sampler) (text : List Token) : Token × Sampler :=
  let picked := m.pick sampler (m.forward text)
  (picked.1,accept picked.2 picked.1)

/-- The tokens after a text up to one that ends it, and no more than so many. -/
def continuation : Nat → Sampler → List Token → List Token
  | 0,_,_ => []
  | n+1,sampler,text =>
    let next := following m sampler text
    if isEogToken next.1 then [] else next.1 :: continuation n next.2 (text ++ [next.1])

def pieceOf (token : Token) : Except BackendErrorKind String :=
  match tokenToPieceBytes token with
  | .error _ => .error .Inference
  | .ok bytes =>
    match Bytes.decode bytes with
    | some text => .ok text
    | none => .error .InvalidUtf8

theorem pieceOf_encode {token : Token} {text : String} (piece : tokenToPieceBytes token = .ok (Bytes.encode text)) :
    pieceOf token = .ok text := by
  rw [pieceOf,piece]
  simp only [Bytes.decode_encode]

/-- The text of tokens that come after `count` others; one that has no text, or for which
    there is no room, refuses the whole. -/
def rendered (room : Nat) (count : Nat) : List Token → Except BackendErrorKind String
  | [] => .ok ""
  | token :: rest => do
    let text ← pieceOf token
    if room ≤ count then .error .Inference
    else
      let others ← rendered room (count+1) rest
      return text ++ others

/-- The text that comes after a prompt. -/
def completion (room most : Nat) (sampler : Sampler) (prompt : String) : Except BackendErrorKind String := do
  let read ← (strToToken prompt).mapError fun _ => .Tokenization
  if read.isEmpty then .error .Tokenization
  else if room < read.length then .error .Inference
  else rendered room read.length (continuation m most sampler read)

/-- What a request is answered, with nothing kept between the tokens. -/
def plain [Serde] [BodyReader] (options : SessionOptions) (request : InferRequest) : Except BackendErrorKind (Sliced InferResponse) := do
  let prompt ← (promptOf request).mapError (·.kind)
  if options.maxTokens = 0 then .error .InvalidConfig
  else
    let context ← (newContext (nonZero options.nCtx)).mapError fun _ => .SessionInitFailed
    let raw ← completion m (m.room context) options.maxTokens.toNat (chainSimple (buildSamplerChain options.determinism)) prompt
    return parseResponse raw

theorem continuation_ends {m : Meaning} {n : Nat} {sampler : Sampler} {text : List Token}
    (ends : isEogToken (following m sampler text).1 = true) : continuation m (n+1) sampler text = [] := if_pos ends

theorem continuation_goes {m : Meaning} {n : Nat} {sampler : Sampler} {text : List Token}
    (goes : ¬ isEogToken (following m sampler text).1 = true) : continuation m (n+1) sampler text =
      (following m sampler text).1 :: continuation m n (following m sampler text).2 (text ++ [(following m sampler text).1]) :=
  if_neg goes

/-! ### The loop -/

theorem pieceText_kind (curPos : Int32) (token : Token) : (pieceText curPos token).mapError LlamaError.kind = pieceOf token := by
  rw [pieceText,pieceOf]
  cases tokenToPieceBytes token with
  | error e => rfl
  | ok bytes =>
    simp only [Except.mapError,bind,Except.bind]
    cases Bytes.decode bytes <;> rfl

variable {m}

/-- The token that the loop samples, and the sampler that has accepted it. -/
def Draws (g : Generating) (next : Token × Sampler) : Prop :=
  ((sample g.sampler g.context g.sampleIdx).1,accept (sample g.sampler g.context g.sampleIdx).2 (sample g.sampler g.context g.sampleIdx).1) = next

/-- Between two tokens: the context has read the text, and the logits at the index are its. -/
structure Ready (m : Meaning) (room : Nat) (text : List Token) (g : Generating) : Prop where
  held : m.held g.context = text
  space : m.room g.context = room
  bounded : room < 2^31
  within : text.length ≤ room
  position : g.curPos = Int32.ofNat text.length
  allocated : 0 < m.allocated g.batch
  logits : ∀ sampler,sample sampler g.context g.sampleIdx = m.pick sampler (m.forward text)

/-- What the loop samples is what comes after the text. -/
theorem Ready.drawn {room : Nat} {text : List Token} {g : Generating} (ready : Ready m room text g) :
    Draws g (following m g.sampler text) := by
  rw [Draws,ready.logits]
  rfl

theorem generate_ends {n : Nat} {g : Generating} {next : Token × Sampler} (drawn : Draws g next) (ends : isEogToken next.1 = true) :
    generate (n+1) g = .ok { g with sampler := next.2 } := by
  subst drawn
  exact if_pos ends

theorem generate_goes {n : Nat} {g : Generating} {next : Token × Sampler} (drawn : Draws g next) (goes : ¬ isEogToken next.1 = true) :
    generate (n+1) g = (do
      let text ← pieceText g.curPos next.1
      let batch ← (add (clear g.batch) next.1 g.curPos [0] true).mapError fun e => .InferenceFailed ("batch.add (gen): " ++ e)
      let context ← (decode g.context batch).mapError fun e => .InferenceFailed ("decode (gen): " ++ e)
      generate n ⟨next.2,context,batch,g.output ++ text,g.curPos+1,0⟩) := by
  subst drawn
  exact if_neg goes

/-- The one token of a batch goes on where the context stops, unless it is full. -/
theorem ready_reads (documented : Documented m) {room : Nat} {text : List Token} {g : Generating} (ready : Ready m room text g)
    (token : Token) : ∃ batch,add (clear g.batch) token g.curPos [0] true = .ok batch ∧
      (room ≤ text.length → ∃ e,decode g.context batch = .error e) ∧
      (text.length < room → ∃ context,decode g.context batch = .ok context ∧
        ∀ sampler output,Ready m room (text ++ [token]) ⟨sampler,context,batch,output,g.curPos+1,0⟩) := by
  obtain ⟨cleared,allocated⟩ := documented.clear g.batch
  have space : (m.entries (clear g.batch)).length < m.allocated (clear g.batch) := by
    rw [cleared,allocated]
    exact ready.allocated
  obtain ⟨batch,added,entries,same⟩ := documented.add (clear g.batch) token g.curPos true space
  rw [cleared,List.nil_append] at entries
  have one : (m.entries batch).length = 1 := by rw [entries]; rfl
  have single := documented.single
  refine ⟨batch,added,?_,?_⟩
  · intro full
    refine documented.full (by omega) ?_
    rw [ready.space,ready.held,one]
    omega
  · intro fits
    have bounded := ready.bounded
    have follows : Follows (m.held g.context) (m.entries batch) := by
      intro i entry found
      rw [entries,List.getElem?_singleton] at found
      split_ifs at found with first
      cases found
      subst first
      refine ⟨?_,rfl⟩
      rw [ready.held]
      show g.curPos.toInt = _
      rw [ready.position]
      exact Int32.toInt_ofNat_of_lt (by omega)
    obtain ⟨context,decoded,held,room,logits⟩ := documented.reads (by omega) (by rw [entries]; simp) follows
      (by rw [ready.space,ready.held,one]; omega)
    refine ⟨context,decoded,fun sampler output => ?_⟩
    refine ⟨?_,room.trans ready.space,bounded,by simpa using fits,?_,?_,?_⟩
    · rw [held,ready.held,entries]
      rfl
    · show g.curPos+1 = _
      rw [ready.position,List.length_append]
      exact (Int32.ofNat_add _ _).symm
    · show 0 < m.allocated batch
      rw [same,allocated]
      exact ready.allocated
    · intro sampler
      have := logits 0 _ (by rw [entries]; rfl) rfl sampler
      rw [ready.held,entries] at this
      exact this

/-- The loop appends the text of the continuation, and fails where it does. -/
theorem generate_kind (documented : Documented m) {room n : Nat} {text : List Token} {g : Generating} (ready : Ready m room text g) :
    ((generate n g).map Generating.output).mapError LlamaError.kind =
      (rendered room text.length (continuation m n g.sampler text)).map (g.output ++ ·) := by
  induction n generalizing text g with
  | zero => simp [generate,continuation,rendered,Except.map,Except.mapError]
  | succ n ih =>
    by_cases ends : isEogToken (following m g.sampler text).1 = true
    · rw [continuation_ends ends,generate_ends (ready.drawn) ends]
      simp [rendered,Except.map,Except.mapError]
    · obtain ⟨batch,added,full,reads⟩ := ready_reads documented ready (following m g.sampler text).1
      rw [continuation_goes ends,generate_goes ready.drawn ends,rendered,← pieceText_kind g.curPos]
      cases pieceText g.curPos (following m g.sampler text).1 with
      | error e => rfl
      | ok output =>
        simp only [added,Except.mapError,bind,Except.bind]
        split_ifs with stands
        · obtain ⟨e,failed⟩ := full stands
          rw [failed]
          rfl
        · obtain ⟨context,decoded,after⟩ := reads (by omega)
          have later := ih (after (following m g.sampler text).2 (g.output ++ output))
          rw [List.length_append,List.length_singleton] at later
          simp only [decoded]
          refine Eq.trans later ?_
          dsimp only
          cases rendered room (text.length+1) (continuation m n (following m g.sampler text).2 (text ++ [(following m g.sampler text).1])) with
          | error e => rfl
          | ok others => simp [Except.map,pure,Except.pure,String.append_assoc]

/-! ### The prompt -/

/-- The entries of a prompt, whose tokens stand at the positions from `i` on. -/
def promptEntries (lastIdx i : Nat) (tokens : List Token) : List Entry :=
  (tokens.zipIdx i).map fun entry => ⟨entry.1,Int32.ofNat entry.2,[0],entry.2 = lastIdx⟩

theorem addPrompt_entries (documented : Documented m) (lastIdx i : Nat) {batch : Batch} {tokens : List Token}
    (space : (m.entries batch).length+tokens.length ≤ m.allocated batch) : ∃ after,addPrompt lastIdx batch i tokens = .ok after ∧
      m.entries after = m.entries batch ++ promptEntries lastIdx i tokens ∧ m.allocated after = m.allocated batch := by
  induction tokens generalizing batch i with
  | nil => exact ⟨batch,rfl,by simp [promptEntries],rfl⟩
  | cons token rest ih =>
    rw [List.length_cons] at space
    obtain ⟨next,added,entries,allocated⟩ := documented.add batch token (Int32.ofNat i) (i = lastIdx) (by omega)
    have room : (m.entries next).length+rest.length ≤ m.allocated next := by
      rw [entries,allocated,List.length_append,List.length_singleton]
      omega
    obtain ⟨after,adds,all,same⟩ := ih (i+1) room
    refine ⟨after,?_,?_,same.trans allocated⟩
    · rw [addPrompt,added]
      exact adds
    · rw [all,entries,List.append_assoc]
      rfl

theorem promptEntries_token (lastIdx i : Nat) (tokens : List Token) : (promptEntries lastIdx i tokens).map Entry.token = tokens := by
  induction tokens generalizing i with
  | nil => rfl
  | cons token rest ih => exact congrArg (token :: ·) (ih (i+1))

theorem promptEntries_some {lastIdx i k : Nat} {tokens : List Token} {entry : Entry} (found : (promptEntries lastIdx i tokens)[k]? = some entry) :
    k < tokens.length ∧ entry.pos = Int32.ofNat (i+k) ∧ entry.seqIds = [0] ∧ entry.logits = decide (i+k = lastIdx) := by
  simp only [promptEntries,List.getElem?_map,List.getElem?_zipIdx,Option.map_map,Option.map_eq_some_iff] at found
  obtain ⟨token,here,rfl⟩ := found
  exact ⟨(List.getElem?_eq_some_iff.mp here).1,rfl,rfl,rfl⟩

/-- A fresh context reads a prompt for which it has room, and is then ready to generate. -/
theorem prompt_ready (documented : Documented m) {nCtx : Option UInt32} {context : Context} (fresh : newContext nCtx = .ok context)
    {read : List Token} (nonempty : read ≠ []) (batched : read.length ≤ m.nBatch) :
    ∃ batch,addPrompt (read.length-1) (newBatch (max read.length 1) 1) 0 read = .ok batch ∧
      (m.room context < read.length → ∃ e,decode context batch = .error e) ∧
      (read.length ≤ m.room context → ∃ after,decode context batch = .ok after ∧ ∀ sampler,
        Ready m (m.room context) read ⟨sampler,after,batch,"",Int32.ofNat read.length,Int32.ofNat (read.length-1)⟩) := by
  obtain ⟨empty,made⟩ := documented.newBatch (max read.length 1) 1
  obtain ⟨unread,bounded⟩ := documented.fresh fresh
  have positive := List.length_pos_iff.mpr nonempty
  have space : (m.entries (newBatch (max read.length 1) 1)).length+read.length ≤ m.allocated (newBatch (max read.length 1) 1) := by
    rw [empty,made,List.length_nil]
    omega
  obtain ⟨batch,added,entries,allocated⟩ := addPrompt_entries documented (read.length-1) 0 space
  rw [empty,List.nil_append] at entries
  have tokens : (m.entries batch).map Entry.token = read := by rw [entries,promptEntries_token]
  have size : (m.entries batch).length = read.length := by
    rw [← List.length_map (f := Entry.token),tokens]
  refine ⟨batch,added,?_,?_⟩
  · intro full
    refine documented.full (by omega) ?_
    rw [unread,size,List.length_nil]
    omega
  · intro fits
    have follows : Follows (m.held context) (m.entries batch) := by
      intro i entry found
      rw [entries] at found
      obtain ⟨inside,position,sequence,-⟩ := promptEntries_some found
      rw [unread,position]
      exact ⟨Int32.toInt_ofNat_of_lt (by omega),sequence⟩
    have added : m.entries batch ≠ [] := by
      rw [ne_eq,← List.length_eq_zero_iff,size]
      omega
    obtain ⟨after,decoded,held,room,logits⟩ := documented.reads (by omega) added follows
      (by rw [unread,size,List.length_nil]; omega)
    rw [unread,List.nil_append,tokens] at held
    refine ⟨after,decoded,fun sampler => ⟨held,room,bounded,fits,rfl,?_,?_⟩⟩
    · show 0 < m.allocated batch
      rw [allocated,made]
      omega
    · intro sampler
      have last : (m.entries batch)[read.length-1]? = some ⟨read.getLast nonempty,Int32.ofNat (read.length-1),[0],true⟩ := by
        rw [entries]
        simp [promptEntries,List.getLast_eq_getElem,positive]
      have := logits _ _ last rfl sampler
      rw [unread,List.nil_append,List.take_of_length_le (by omega),tokens] at this
      exact this

/-! ### A whole answer -/

/-- The prompt is no longer than what is read at once. -/
def Batched (m : Meaning) (prompt : String) : Prop := ∀ read,strToToken prompt = .ok read → read.length ≤ m.nBatch

/-- The text of a fresh session is the completion of the prompt. -/
theorem infer_completion (documented : Documented m) (session : Session) {nCtx : Option UInt32}
    (fresh : newContext nCtx = .ok session.context) {prompt : String} (batched : Batched m prompt) :
    ((session.infer prompt).map Prod.fst).mapError LlamaError.kind =
      completion m (m.room session.context) session.maxTokens.toNat session.sampler prompt := by
  rw [Session.infer,completion]
  cases tokens : strToToken prompt with
  | error e => rfl
  | ok read =>
    simp only [Except.mapError,bind,Except.bind]
    by_cases empty : read = []
    · subst empty
      rfl
    · have nonempty : read.isEmpty = false := by simpa using empty
      obtain ⟨batch,added,full,reads⟩ := prompt_ready documented fresh empty (batched read tokens)
      simp only [nonempty,Bool.false_eq_true,↓reduceIte,added]
      split_ifs with stands
      · obtain ⟨e,failed⟩ := full stands
        rw [failed]
        rfl
      · obtain ⟨after,decoded,ready⟩ := reads (by omega)
        have generated := generate_kind documented (n := session.maxTokens.toNat) (ready session.sampler)
        have plainly : ∀ written : Except BackendErrorKind String,written.map ("" ++ ·) = written := by
          intro written
          cases written <;> simp [Except.map]
        rw [plainly] at generated
        simp only [decoded]
        rw [← generated]
        cases generate session.maxTokens.toNat ⟨session.sampler,after,batch,"",Int32.ofNat read.length,Int32.ofNat (read.length-1)⟩ <;> rfl

theorem continuation_begins {fewer most : Nat} (less : fewer ≤ most) (sampler : Sampler) (text : List Token) :
    continuation m fewer sampler text <+: continuation m most sampler text := by
  induction fewer generalizing most sampler text with
  | zero => exact List.nil_prefix
  | succ fewer ih =>
    obtain ⟨most,rfl⟩ : ∃ k,most = k+1 := ⟨most-1,by omega⟩
    by_cases ends : isEogToken (following m sampler text).1 = true
    · rw [continuation_ends ends]
      exact List.nil_prefix
    · rw [continuation_goes ends,continuation_goes ends]
      exact (List.prefix_cons_inj _).mpr (ih (by omega) _ _)

/-- The first of the tokens have a text if all of them have, and it comes first. -/
theorem rendered_begins {room count : Nat} {front tokens : List Token} {long : String} (first : front <+: tokens)
    (written : rendered room count tokens = .ok long) : ∃ short,rendered room count front = .ok short ∧ short.toList <+: long.toList := by
  induction front generalizing count tokens long with
  | nil => exact ⟨"",rfl,List.nil_prefix⟩
  | cons token front ih =>
    obtain ⟨rest,rfl⟩ := first
    rw [List.cons_append,rendered] at written
    rw [rendered]
    cases piece : pieceOf token with
    | error e =>
      rw [piece] at written
      cases written
    | ok text =>
      simp only [piece,bind,Except.bind] at written ⊢
      split_ifs at written ⊢ with full
      cases others : rendered room (count+1) (front ++ rest) with
      | error e =>
        rw [others] at written
        cases written
      | ok tail =>
        rw [others] at written
        cases written
        obtain ⟨short,shorter,before⟩ := ih (List.prefix_append _ _) others
        refine ⟨text ++ short,by rw [shorter]; rfl,?_⟩
        rw [String.toList_append,String.toList_append]
        exact (List.prefix_append_right_inj _).mpr before

theorem completion_begins {room fewer most : Nat} {sampler : Sampler} {prompt long : String} (less : fewer ≤ most)
    (written : completion m room most sampler prompt = .ok long) :
    ∃ short,completion m room fewer sampler prompt = .ok short ∧ short.toList <+: long.toList := by
  rw [completion] at written ⊢
  cases tokens : strToToken prompt with
  | error e =>
    rw [tokens] at written
    cases written
  | ok read =>
    simp only [tokens,Except.mapError,bind,Except.bind] at written ⊢
    split_ifs at written ⊢
    exact rendered_begins (continuation_begins less sampler read) written

theorem infer_ok {session : Session} {prompt text : String} :
    ((session.infer prompt).map Prod.fst).mapError LlamaError.kind = .ok text ↔ ∃ after,session.infer prompt = .ok (text,after) := by
  cases session.infer prompt with
  | error e => simp [Except.map,Except.mapError]
  | ok answered =>
    obtain ⟨output,after⟩ := answered
    simp [Except.map,Except.mapError]

end

/-! ### A model that counts -/

section

/-- The next token is the length of the text, as a letter, and from 24 on it ends the text. -/
@[reducible] def counting : Llama where
  Token := Nat
  Batch := Nat × List (Nat × Int32 × List Int32 × Bool)
  Context := List Nat × (Int32 → List Nat)
  Sampler := Unit
  Template := Unit
  Message := Unit
  strToToken prompt := .ok (prompt.toList.map Char.toNat)
  isEogToken token := decide (24 ≤ token)
  tokenToPieceBytes token := .ok (Bytes.encode (String.singleton (Char.ofNat (97+token))))
  newBatch nTokens _ := (nTokens,[])
  add batch token pos seqIds logits :=
    if batch.2.length < batch.1 then .ok (batch.1,batch.2 ++ [(token,pos,seqIds,logits)]) else .error "not enough space in the batch"
  clear batch := (batch.1,[])
  newContext _ := .ok ([],fun _ => [])
  decode context batch :=
    if 64 < context.1.length+batch.2.length then .error "no KV slot"
    else .ok (context.1 ++ batch.2.map Prod.fst,fun idx => context.1 ++ (batch.2.take (idx.toNatClampNeg+1)).map Prod.fst)
  chainSimple _ := ()
  sample _ context idx := ((context.2 idx).length,())
  accept _ _ := ()
  chatTemplate := none
  newMessage _ _ := .ok ()
  applyChatTemplate _ _ := .ok ""
  applyChatTemplateWithTools _ _ _ := .ok ""
  utf8Error _ := "invalid utf-8 sequence"

attribute [local instance] counting

def countingMeaning : Meaning where
  Logits := List Nat
  forward := id
  pick _ logits := (List.length logits,())
  entries batch := batch.2.map fun entry => ⟨entry.1,entry.2.1,entry.2.2.1,entry.2.2.2⟩
  allocated batch := batch.1
  held context := context.1
  room _ := 64
  nBatch := 64

theorem counting_length (batch : Llama.Batch) : (countingMeaning.entries batch).length = batch.2.length := List.length_map _

theorem counting_tokens (batch : Llama.Batch) : (countingMeaning.entries batch).map Entry.token = batch.2.map Prod.fst := by
  show (batch.2.map _).map _ = _
  rw [List.map_map]
  rfl

theorem counting_documented : Documented countingMeaning where
  fresh := by
    rintro nCtx context made
    cases made
    exact ⟨rfl,by decide⟩
  single := by decide
  newBatch _ _ := ⟨rfl,rfl⟩
  clear _ := ⟨rfl,rfl⟩
  add := by
    intro batch token pos logits space
    rw [counting_length] at space
    exact ⟨_,if_pos space,by simp [countingMeaning],rfl⟩
  full := by
    intro context batch _ stands
    rw [counting_length] at stands
    exact ⟨_,if_pos stands⟩
  reads := by
    intro context batch small _ _ fits
    rw [counting_length] at small fits
    refine ⟨_,if_neg (Nat.not_lt.mpr fits),?_,rfl,?_⟩
    · rw [counting_tokens]
      rfl
    · intro i entry found _ sampler
      have inside := (List.getElem?_eq_some_iff.mp found).1
      rw [counting_length] at inside
      have bounded : batch.2.length ≤ 64 := small
      have index : (Int32.ofNat i).toNatClampNeg = i := Int32.toNatClampNeg_ofNat_of_lt (by omega)
      show ((context.1 ++ (batch.2.take ((Int32.ofNat i).toNatClampNeg+1)).map Prod.fst).length,()) = _
      rw [index,List.map_take,List.map_take,counting_tokens]
      rfl

theorem pieceOf_counting (token : Nat) : pieceOf token = .ok (String.singleton (Char.ofNat (97+token))) := pieceOf_encode rfl

def unset : DeterminismKnobs := ⟨none,none,none,none,none⟩

theorem counting_batched {prompt : String} (short : prompt.toList.length ≤ 64) : Batched countingMeaning prompt := by
  intro read tokens
  cases tokens
  simpa [countingMeaning] using short

/-- A reader that finds no calls. -/
@[reducible] def noCalls : BodyReader := ⟨fun _ => none⟩

attribute [local instance] noCalls

theorem counting_completion : completion countingMeaning 64 4 () "ab" = .ok "cdef" := by
  have read : Llama.strToToken "ab" = .ok ([97,98] : List Nat) := rfl
  have tokens : continuation countingMeaning 4 () ([97,98] : List Nat) = ([2,3,4,5] : List Nat) := rfl
  rw [completion,read]
  show rendered 64 2 (continuation countingMeaning 4 () ([97,98] : List Nat)) = _
  rw [tokens]
  simp only [rendered,pieceOf_counting]
  rfl

end

end AegisNode.Generation
