import Mathlib.Algebra.Order.Ring.Rat
import IctAlgo.Lib.Dict
import IctAlgo.Lib.Escape

/-!
# Alerts

`format_payload_markdown` of `reasoner_service/notifier_alerts.py`, and `escape_markdown_v2` and
`TelegramNotifier.notify` of `reasoner_service/alerts/telegram_notifier.py`. Texts are lists of
characters; `upper` is `str.upper`. A chat gets up to four POSTs; `reply k` is what the `k`-th one
meets. The answers for the chats of a list are those of its positions. Seconds are exact.
-/

set_option autoImplicit false

namespace Alerts

open Lib Lib.Escape

abbrev Text := List Char

/-- The fields of a payload, the numbers as they are formatted. An entry of zero is none. -/
structure Payload where
  recommendation : Text := []
  symbol : Text := "?".toList
  entry : Option Text := none
  confidence : Option Text := none
  summary : Text := []
  tp : Option Text := none
  sl : Option Text := none

inductive Platform
  | slack | telegram | discord | other
  deriving DecidableEq

def emojiMap : List (String × String) :=
  [("enter", "✅"), ("wait", "⏳"), ("do_nothing", "🚫"), ("exit", "🚪"), ("tp", "🎯"),
    ("sl", "🛡️"), ("long", "🟢"), ("short", "🔴"), ("neutral", "⚪")]

/-- `emoji_for_recommendation`. -/
def emojiForRecommendation (rec : Text) : Text :=
  ((emojiMap.lookup (String.ofList rec)).getD "❔").toList

/-- `_format_tp_sl`. -/
def formatTpSl (p : Payload) (platform : Platform) : Text :=
  if p.tp.isSome ∨ p.sl.isSome then
    let tp := "*TP*: ".toList ++ p.tp.getD "_not provided_".toList
    let sl := "*SL*: ".toList ++ p.sl.getD "_not provided_".toList
    let sep := if platform = .telegram then "\n" else " | "
    tp ++ sep.toList ++ sl
  else "*TP/SL*: _not provided_".toList

/-- `_escape_slack`. -/
def escapeSlack (text : Text) : Text :=
  replace '>' "&gt;".toList (replace '<' "&lt;".toList (replace '&' "&amp;".toList text))

/-- The characters `_escape_telegram_md` goes through. -/
def telegramChars : List Char := "_[]()~`>#+-=|\x7b\x7d.!".toList

/-- `_escape_telegram_md`. -/
def escapeTelegramMd (text : Text) : Text :=
  telegramChars.foldl (fun text c => replace c ['\\', c] text) text

/-- `escape_chars`. -/
def escapeChars : List Char := "_*[]()~`>#+-=|\x7b\x7d.!".toList

/-- `escape_markdown_v2`. -/
def escapeMarkdownV2 (text : Text) : Text := escape '\\' (fun c => escapeChars.contains c) text

section
variable (upper : Text → Text)

/-- The words of a platform: what stands around a bold part, the bullet, what ends a confidence, and
what stands around the summary. -/
structure Marks where
  bold : Text
  bullet : Text
  confEnd : Text
  summary : Text

def Platform.marks : Platform → Marks
  | .slack | .telegram => ⟨"*".toList, "• ".toList, ")".toList, "_".toList⟩
  | .discord => ⟨"**".toList, "• ".toList, " )".toList, "*".toList⟩
  | .other => ⟨[], [], ")".toList, []⟩

/-- The text before it is escaped, with `summary` in the place of the summary. -/
def baseText (p : Payload) (platform : Platform) (summary : Text) : Text :=
  let m := platform.marks
  let bold (text : Text) := m.bold ++ text ++ m.bold
  let base := emojiForRecommendation p.recommendation ++ " ".toList ++ bold (upper p.recommendation) ++
    " – ".toList ++ bold p.symbol
  let base := base ++ (match p.entry with
    | some entry => " @ ".toList ++ bold entry
    | none => [])
  let base := base ++ (match p.confidence with
    | some conf => " (conf: ".toList ++ bold conf ++ m.confEnd
    | none => [])
  let base := base ++ "\n".toList ++ m.bullet ++ formatTpSl p platform
  if p.summary = [] then base
  else base ++ "\n".toList ++ m.summary ++ summary ++ m.summary

/-- `format_payload_markdown`. -/
def formatPayloadMarkdown (p : Payload) (platform : Platform) : Text :=
  match platform with
  | .slack => escapeSlack (baseText upper p .slack (escapeSlack p.summary))
  | .telegram => escapeTelegramMd (baseText upper p .telegram p.summary)
  | .discord => baseText upper p .discord p.summary
  | .other => baseText upper p .other p.summary

end

/-! ## The Telegram notifier -/

/-- What a POST meets: an error of the transport or of the status, a limit of the rate, an answer with
its `ok` and `description`, or any other exception. -/
inductive Reply
  | failed (error : String)
  | rateLimited (retryAfter : ℚ)
  | answered (ok : Bool) (description : Option String)
  | unexpected (error : String)

/-- The entry of a chat in the results. -/
inductive ChatResult
  | ok
  | error (message : String)
  /-- The entry with `skipped`. -/
  | skipped
  deriving DecidableEq

/-- What was done for a chat. -/
structure Sent where
  posts : ℕ
  slept : List ℚ
  result : ChatResult

def maxRetries : ℕ := 3

def baseDelay : ℚ := 1 / 2

/-- The loop over the attempts, while `attempt <= max_retries` holds `left` more times. -/
def sendLoop (reply : ℕ → Reply) : (left attempt : ℕ) → Sent
  | 0, _ => ⟨0, [], .skipped⟩
  | left + 1, attempt =>
    match reply attempt with
    | .rateLimited retryAfter =>
      let s := sendLoop reply left (attempt + 1)
      { s with posts := s.posts + 1, slept := retryAfter :: s.slept }
    | .answered true _ => ⟨1, [], .ok⟩
    | .answered false description => ⟨1, [], .error (description.getD "Unknown error")⟩
    | .failed error =>
      if attempt < maxRetries then
        let s := sendLoop reply left (attempt + 1)
        { s with posts := s.posts + 1, slept := baseDelay * 2 ^ attempt :: s.slept }
      else ⟨1, [], .error error⟩
    | .unexpected error => ⟨1, [], .error error⟩

/-- What is done for one chat. -/
def send (reply : ℕ → Reply) : Sent := sendLoop reply (maxRetries + 1) 0

/-- The results and the number of POSTs. -/
structure Notified where
  results : Dict String ChatResult
  posts : ℕ

/-- The body of the loop over the chats. -/
def Notified.add (n : Notified) (chat : String × (ℕ → Reply)) : Notified where
  results := n.results.set chat.1 (send chat.2).result
  posts := n.posts + (send chat.2).posts

/-- `notify`, for chats with what their POSTs meet. -/
def notify (chats : List (String × (ℕ → Reply))) : Notified := chats.foldl .add ⟨.empty, 0⟩

end Alerts
