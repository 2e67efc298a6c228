import AegisNode.Json

/-!
The inference backend as the runtime sees it: chat messages, tool declarations and
calls, and the model that answers a request.
-/
namespace AegisNode.Backend
open Json

inductive ChatRole where
  | System
  | User
  | Assistant
  | Tool
  deriving DecidableEq,Repr

def ChatRole.asStr : ChatRole → String
  | .System => "system"
  | .User => "user"
  | .Assistant => "assistant"
  | .Tool => "tool"

structure ChatMessage where
  role : ChatRole
  content : String
  deriving DecidableEq,Repr

structure ToolDecl where
  name : String
  description : String
  argumentsSchema : Value

structure ToolCall where
  name : String
  arguments : Value

structure InferRequest where
  messages : List ChatMessage
  tools : List ToolDecl

structure InferResponse where
  reasoning : String
  toolCalls : List ToolCall
  assistantText : Option String
  tokensUsed : Option UInt64

inductive BackendErrorKind where
  | ModelFileUnreadable
  | ModelLoadFailed
  | SessionInitFailed
  | Tokenization
  | Inference
  | InvalidUtf8
  | InvalidConfig
  | BackendAlreadyInitialized
  | BackendInitFailed
  | Other
  deriving DecidableEq,Repr

structure BackendError where
  kind : BackendErrorKind
  detail : String
  deriving DecidableEq,Repr

/-- A model answers its n-th question. -/
structure LoadedModel where
  infer : Nat → InferRequest → Except BackendError InferResponse

/-- A message as `serde` writes it: the role comes first. -/
def ChatMessage.value (message : ChatMessage) : Value :=
  .Object [("role",.String message.role.asStr),("content",.String message.content)]

/-- The text that the digest of a context is taken of. -/
def messagesText [Serde] (messages : List ChatMessage) : String := Serde.toString (.Array (messages.map (·.value)))

end AegisNode.Backend
