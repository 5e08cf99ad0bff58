import Mathlib.Algebra.Order.Ring.Rat
import IctAlgo.Lib.Recency
import IctAlgo.Lib.Runs
import IctAlgo.Lib.SlidingWindow

/-!
# The cached analysis

`rate_limited` and `cached_gpt_analysis` of `ict_trading_system/src/services/openai_service.py`, one
call after another. Times are seconds. `sent` and `log` record the calls that reached the API and all
calls, the latest first, with what they returned; nothing reads them.
-/

set_option autoImplicit false

namespace Gpt

open Lib

structure Answer where
  content : Option String
  usage : ℤ
  deriving DecidableEq

/-- What the API does: it raises, or there is a usage, and then, if nothing raises, a content, which may
be null. -/
inductive Reply
  | raised
  | response (usage : ℤ) (content : Option (Option String))

/-- A call: its prompt, `time.time()`, and what the API would answer. -/
structure Call where
  prompt : String
  now : ℚ
  reply : Reply

def rateLimit : ℕ := 60

/-- `rate_window`, in seconds. -/
def rateWindow : ℚ := 60

/-- `maxsize` of the cache. -/
def maxsize : ℕ := 256

structure State where
  requestTimes : List ℚ := []
  totalTokensUsed : ℤ := 0
  cache : List (String × Answer) := []
  sent : List Call := []
  log : List (String × Answer) := []

/-- `rate_limited`, with the times it leaves. -/
def rateLimited (now : ℚ) (requestTimes : List ℚ) : Bool × List ℚ :=
  let requestTimes := requestTimes.dropWhile fun t => rateWindow < now - t
  if rateLimit ≤ requestTimes.length then (true, requestTimes)
  else (false, requestTimes ++ [now])

def mockAnswer : Answer where
  content := some <| "\x7b\"score\": 88, \"risk\": \"medium\", \"entry\": \"Buy above 43200\", \"exit\": " ++
    "\"Take profit at 43500, stop loss at 42800\", \"explanation\": " ++
    "\"This is a mock AI analysis.\"\x7d"
  usage := 0

def refused : Answer := ⟨some "Rate limit reached. Try again later.", 0⟩

def unavailable : Answer := ⟨some "AI analysis unavailable.", 0⟩

/-- The tokens a reply is charged. -/
def Reply.tokens : Reply → ℤ
  | .raised => 0
  | .response usage _ => usage

def Reply.answer : Reply → Answer
  | .response usage (some content) => ⟨content, usage⟩
  | _ => unavailable

/-- The body of `cached_gpt_analysis`; `mock` says whether the API key is the text `mock`. -/
def gptAnalysis (mock : Bool) (c : Call) (s : State) : Answer × State :=
  if mock then (mockAnswer, s)
  else
    let limited := rateLimited c.now s.requestTimes
    let s := { s with requestTimes := limited.2 }
    if limited.1 then (refused, s)
    else
      (c.reply.answer,
        { s with
          totalTokensUsed := s.totalTokensUsed + c.reply.tokens
          sent := s.sent ++ [c] })

/-- `cached_gpt_analysis`: the body under `lru_cache`. -/
def cachedGptAnalysis (mock : Bool) (c : Call) (s : State) : Answer × State :=
  let r := match s.cache.lookup c.prompt with
    | some answer => (answer, s)
    | none => gptAnalysis mock c s
  (r.1,
    { r.2 with
      cache := Recency.touch maxsize r.2.cache c.prompt r.1
      log := (c.prompt, r.1) :: r.2.log })

def step (mock : Bool) (s : State) (c : Call) : State := (cachedGptAnalysis mock c s).2

/-- The state after some calls. -/
def after (mock : Bool) (calls : List Call) : State := Runs.run (step mock) {} calls

end Gpt
