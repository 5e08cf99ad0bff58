import IctAlgo.Lib.Retry
import IctAlgo.Lib.Strptime

/-!
# The LLM client

`complete` and `stream_complete` of `reasoner_service/llm_client.py`, for both providers. A request is
sent up to three times; `post k` is what the `k`-th one meets. What the model reads of a reply
(`json.loads` and the way to the content in it) is a parameter. The content of a completion is any value.
-/

set_option autoImplicit false

namespace Llm

open Lib

/-- A POST: it raises, or there is a status, and the body, `none` when reading it raises. -/
inductive Post (β : Type)
  | raised
  | response (status : ℕ) (body : Option β)

/-- `for attempt in range(3)`. -/
def attempts : ℕ := 3

inductive Failure
  | notSupported (provider : String)
  | noDeploymentId
  | afterRetries (message : String)
  deriving DecidableEq

/-! ## Completions -/

section
variable {γ : Type} (post : ℕ → Post γ)

/-- The content of a reply with status 200. -/
def Post.content? : Post γ → Option γ
  | .response 200 body => body
  | _ => none

/-- What a call has done: the seconds it slept, and how it ended. -/
structure Completion (γ : Type) where
  slept : List ℕ
  content : Except Failure γ

/-- The loop with `left` attempts to come. -/
def completeLoop (message : String) : (left attempt : ℕ) → Completion γ
  | 0, _ => ⟨[], .error (.afterRetries message)⟩
  | left + 1, attempt =>
    match (post attempt).content? with
    | some content => ⟨[], .ok content⟩
    | none =>
      let c := completeLoop message left (attempt + 1)
      { c with slept := 2 ^ attempt :: c.slept }

/-- `_openai_complete`. -/
def openaiComplete : Completion γ :=
  completeLoop post "OpenAI completion failed after retries." attempts 0

/-- `_azure_complete`. -/
def azureComplete (deploymentId : String) : Completion γ :=
  if deploymentId = "" then ⟨[], .error .noDeploymentId⟩
  else completeLoop post "Azure completion failed after retries." attempts 0

/-- `complete`; a missing deployment id is an empty one. -/
def complete (provider deploymentId : String) : Completion γ :=
  if provider = "openai" then openaiComplete post
  else if provider = "azure" then azureComplete post deploymentId
  else ⟨[], .error (.notSupported provider)⟩

end

/-! ## Streams -/

/-- The lines of a body, `none` for one that is no UTF-8, and whether the body ends without an
exception. -/
structure Body where
  lines : List (Option (List Char))
  ends : Bool

section
variable (content : List Char → Option String)

/-- The text after `data: `. -/
def chunk (line : List Char) : List Char :=
  let chunk := Strptime.strip line
  if "data: ".toList.isPrefixOf chunk then chunk.drop 6 else chunk

/-- What a line yields; what raises on the way to `delta` yields nothing. -/
def delta (line : List Char) : List String :=
  if line = [] then []
  else if chunk line = [] ∨ chunk line = "[DONE]".toList then []
  else match content (chunk line) with
    | none => []
    | some delta => if delta = "" then [] else [delta]

/-- What the lines yield, up to one that does not decode, and whether all do. -/
def readLines : List (Option (List Char)) → List String × Bool
  | [] => ([], true)
  | none :: _ => ([], false)
  | some line :: lines =>
    let rest := readLines lines
    (delta content line ++ rest.1, rest.2)

/-- What an attempt yields, and whether it returns. -/
def Post.stream : Post Body → List String × Bool
  | .response 200 (some body) =>
    let read := readLines content body.lines
    (read.1, read.2 && body.ends)
  | _ => ([], false)

/-- What the consumer of a stream has got, and what the stream raised. -/
structure Streamed where
  yielded : List String
  slept : List ℕ
  failure : Option Failure

variable (post : ℕ → Post Body)

/-- The loop with `left` attempts to come. -/
def streamLoop (message : String) : (left attempt : ℕ) → Streamed
  | 0, _ => ⟨[], [], some (.afterRetries message)⟩
  | left + 1, attempt =>
    let tried := (post attempt).stream content
    if tried.2 then ⟨tried.1, [], none⟩
    else
      let s := streamLoop message left (attempt + 1)
      { s with yielded := tried.1 ++ s.yielded, slept := 2 ^ attempt :: s.slept }

/-- `_openai_stream_complete`. -/
def openaiStreamComplete : Streamed :=
  streamLoop content post "OpenAI streaming completion failed after retries." attempts 0

/-- `_azure_stream_complete`. -/
def azureStreamComplete (deploymentId : String) : Streamed :=
  if deploymentId = "" then ⟨[], [], some .noDeploymentId⟩
  else streamLoop content post "Azure streaming completion failed after retries." attempts 0

/-- `stream_complete`. -/
def streamComplete (provider deploymentId : String) : Streamed :=
  if provider = "openai" then openaiStreamComplete content post
  else if provider = "azure" then azureStreamComplete content post deploymentId
  else ⟨[], [], some (.notSupported provider)⟩

end

end Llm
