import IctAlgo.Alerts.Notifiers

/-!
# Reading an alert back

`unescapeSlack` reads the entities of an alert for Slack; what reads one for Telegram is a parameter
with the rule that is documented for it (`MarkdownV2`).

* `escapeTelegramMd_eq`, `escapeSlack_eq`: the replacements of one character after another are one pass.
* `formatPayloadMarkdown_reads_back`: what is read is the text of the alert, for Slack with the summary
  escaped once and for Telegram without backslashes.
-/

set_option autoImplicit false

namespace Alerts

open Lib.Escape

/-! ## Telegram -/

theorem telegramChars_nodup : telegramChars.Nodup := by decide +kernel

theorem backslash_notMem : '\\' ∉ telegramChars := by decide +kernel

/-- The characters Telegram takes for marks, but for the stars. -/
def telegramSpecial (c : Char) : Bool := telegramChars.contains c

/-- What stands in a text for Telegram: a character, or a star that begins or ends a bold part. -/
inductive Token
  | text (c : Char)
  | star
  deriving DecidableEq

/-- What Telegram documents for a reader of its MarkdownV2: an ASCII character after a backslash is a
text, and so is one that is no mark. -/
structure MarkdownV2 (read : Text → List Token) : Prop where
  nil : read [] = []
  escaped : ∀ c cs, 0 < c.toNat → c.toNat < 127 → read ('\\' :: c :: cs) = .text c :: read cs
  plain : ∀ c cs, c ≠ '\\' → c ∉ escapeChars → read (c :: cs) = .text c :: read cs
  star : ∀ cs, read ('*' :: cs) = .star :: read cs

/-- A character of an alert; its stars stand around the bold parts. -/
def Token.of (c : Char) : Token := if c = '*' then .star else .text c

theorem escapeChars_ascii : ∀ c ∈ escapeChars, 0 < c.toNat ∧ c.toNat < 127 := by
  have hall : escapeChars.all (fun c => 0 < c.toNat && c.toNat < 127) = true := by decide +kernel
  simpa using hall

theorem mem_escapeChars_iff (c : Char) : c ∈ escapeChars ↔ c = '*' ∨ c ∈ telegramChars := by
  have hperm : escapeChars.Perm ('*' :: telegramChars) := by decide +kernel
  rw [hperm.mem_iff, List.mem_cons]

theorem star_notMem : '*' ∉ telegramChars := by decide +kernel

section
variable {read : Text → List Token} (h : MarkdownV2 read)
include h

/-- In a message every mark is escaped. -/
theorem MarkdownV2.message : Reads '\\' (fun c => escapeChars.contains c) Token.text read where
  nil := h.nil
  escaped c cs hc := by
    obtain ⟨hpos, hlt⟩ := escapeChars_ascii c (List.contains_iff_mem.1 hc)
    exact h.escaped c cs hpos hlt
  plain c cs hne hc := by
    apply h.plain c cs hne
    simpa using hc

/-- In an alert the stars are left. -/
theorem MarkdownV2.alert : Reads '\\' telegramSpecial Token.of read where
  nil := h.nil
  escaped c cs hc := by
    have hmem : c ∈ telegramChars := List.contains_iff_mem.1 hc
    obtain ⟨hpos, hlt⟩ := escapeChars_ascii c ((mem_escapeChars_iff c).2 (.inr hmem))
    have hstar : c ≠ '*' := by
      rintro rfl
      exact star_notMem hmem
    rw [h.escaped c cs hpos hlt, Token.of, if_neg hstar]
  plain c cs hne hc := by
    by_cases hstar : c = '*'
    · rw [hstar, h.star]
      rfl
    · have hmem : c ∉ telegramChars := by simpa [telegramSpecial] using hc
      rw [h.plain c cs hne, Token.of, if_neg hstar]
      rw [mem_escapeChars_iff]
      exact not_or.2 ⟨hstar, hmem⟩

end

theorem escapeTelegramMd_eq (text : Text) :
    escapeTelegramMd text = escape '\\' telegramSpecial text :=
  foldl_replace telegramChars_nodup backslash_notMem text

/-! ## Slack -/

/-- What stands for a character in a text for Slack. -/
def slackEntity (c : Char) : Text :=
  if c = '&' then "&amp;".toList
  else if c = '<' then "&lt;".toList
  else if c = '>' then "&gt;".toList
  else [c]

theorem escapeSlack_eq (text : Text) : escapeSlack text = text.flatMap slackEntity := by
  unfold escapeSlack
  -- The entities that are put in have neither `<` nor `>`, so that later passes leave them alone.
  have hgt : ∀ cs : Text, replace '>' "&gt;".toList cs =
      cs.flatMap fun c => if c = '>' then "&gt;".toList else [c] := fun _ => rfl
  rw [hgt, flatMap_replace (g := fun c => if c = '<' then "&lt;".toList else
      if c = '>' then "&gt;".toList else [c]) _ (by decide +kernel) fun x hx => by simp [hx],
    flatMap_replace (g := slackEntity) _ (by decide +kernel) fun x hx => by simp [slackEntity, hx]]

def unescapeSlack : Text → Text
  | '&' :: 'a' :: 'm' :: 'p' :: ';' :: cs => '&' :: unescapeSlack cs
  | '&' :: 'l' :: 't' :: ';' :: cs => '<' :: unescapeSlack cs
  | '&' :: 'g' :: 't' :: ';' :: cs => '>' :: unescapeSlack cs
  | c :: cs => c :: unescapeSlack cs
  | [] => []

theorem unescapeSlack_cons {c : Char} (h : c ≠ '&') (cs : Text) :
    unescapeSlack (c :: cs) = c :: unescapeSlack cs := by
  rw [unescapeSlack]
  all_goals
    rintro _ rfl
    exact absurd rfl h

theorem unescapeSlack_entity (c : Char) (cs : Text) :
    unescapeSlack (slackEntity c ++ cs) = c :: unescapeSlack cs := by
  unfold slackEntity
  split
  · next h => rw [h]; rfl
  · next hamp =>
    split
    · next h => rw [h]; rfl
    · split
      · next h => rw [h]; rfl
      · exact unescapeSlack_cons hamp cs

/-- What was escaped for Slack is read back. -/
theorem unescapeSlack_escapeSlack (text : Text) : unescapeSlack (escapeSlack text) = text := by
  rw [escapeSlack_eq]
  induction text with
  | nil => rfl
  | cons c text ih => rw [List.flatMap_cons, unescapeSlack_entity, ih]

theorem length_le_flatMap_slackEntity (text : Text) :
    text.length ≤ (text.flatMap slackEntity).length := by
  induction text with
  | nil => exact Nat.le_refl _
  | cons c text ih =>
    have hpos : 1 ≤ (slackEntity c).length := by
      unfold slackEntity
      split_ifs <;> simp
    rw [List.flatMap_cons, List.length_append, List.length_cons]
    omega

/-- A text is its own escaped one when it has none of the three characters. -/
theorem escapeSlack_eq_self_iff (text : Text) :
    escapeSlack text = text ↔ ∀ c ∈ text, c ≠ '&' ∧ c ≠ '<' ∧ c ≠ '>' := by
  rw [escapeSlack_eq]
  induction text with
  | nil => simp
  | cons c text ih =>
    rw [List.flatMap_cons, List.forall_mem_cons, ← ih]
    by_cases hc : c ≠ '&' ∧ c ≠ '<' ∧ c ≠ '>'
    · have hsame : slackEntity c = [c] := by simp [slackEntity, hc]
      rw [hsame, List.singleton_append, List.cons.injEq, and_iff_right rfl, and_iff_right hc]
    · -- An entity is longer than what it stands for.
      have hlong : 2 ≤ (slackEntity c).length := by
        unfold slackEntity
        split_ifs with h1 h2 h3
        · simp
        · simp
        · simp
        · exact absurd ⟨h1, h2, h3⟩ hc
      refine ⟨fun h => ?_, fun h => absurd h.1 hc⟩
      have hlen := congrArg List.length h
      have hrest := length_le_flatMap_slackEntity text
      rw [List.length_append, List.length_cons] at hlen
      omega

/-! ## Alerts -/

variable (upper : Text → Text) (p : Payload)

theorem baseText_inj {platform : Platform} {s t : Text} (hs : p.summary ≠ []) :
    baseText upper p platform s = baseText upper p platform t ↔ s = t := by
  simp only [baseText, if_neg hs, List.append_cancel_right_eq, List.append_cancel_left_eq]

/-- **Alerts are read back.** For Slack the reader sees the text with its summary escaped once, which is
the summary itself exactly if it has no `&`, `<` and `>`. For Telegram it sees the text of an alert
without a backslash, with its bold parts; what the Telegram notifier sends reads as its message. -/
theorem formatPayloadMarkdown_reads_back {read : Text → List Token} (h : MarkdownV2 read) :
    unescapeSlack (formatPayloadMarkdown upper p .slack) =
        baseText upper p .slack (escapeSlack p.summary) ∧
      (unescapeSlack (formatPayloadMarkdown upper p .slack) =
          baseText upper p .slack p.summary ↔
        ∀ c ∈ p.summary, c ≠ '&' ∧ c ≠ '<' ∧ c ≠ '>') ∧
      ('\\' ∉ baseText upper p .telegram p.summary →
        read (formatPayloadMarkdown upper p .telegram) =
          (baseText upper p .telegram p.summary).map Token.of) ∧
      ∀ message : Text, '\\' ∉ message → read (escapeMarkdownV2 message) = message.map .text := by
  have hslack : unescapeSlack (formatPayloadMarkdown upper p .slack) =
      baseText upper p .slack (escapeSlack p.summary) := unescapeSlack_escapeSlack _
  refine ⟨hslack, ?_, fun hmark => ?_, fun message hmark => h.message.escape hmark⟩
  · rw [hslack]
    by_cases hs : p.summary = []
    · rw [hs]
      exact iff_of_true rfl fun c hc => absurd hc List.not_mem_nil
    · rw [baseText_inj upper p hs, escapeSlack_eq_self_iff]
  · rw [formatPayloadMarkdown, escapeTelegramMd_eq]
    exact h.alert.escape hmark

/-- A reader with these rules. -/
def readMarkdown : Text → List Token
  | [] => []
  | '\\' :: c :: cs => .text c :: readMarkdown cs
  | c :: cs => Token.of c :: readMarkdown cs

theorem readMarkdown_cons {c : Char} (h : c ≠ '\\') (cs : Text) :
    readMarkdown (c :: cs) = Token.of c :: readMarkdown cs := by
  rw [readMarkdown]
  rintro _ _ rfl
  exact absurd rfl h

theorem markdownV2_readMarkdown : MarkdownV2 readMarkdown where
  nil := rfl
  escaped _ _ _ _ := rfl
  plain c cs hne hmark := by
    have hstar : c ≠ '*' := by
      rintro rfl
      exact hmark (by decide)
    rw [readMarkdown_cons hne, Token.of, if_neg hstar]
  star cs := readMarkdown_cons (by decide) cs

def enterAlert : Payload where
  recommendation := "enter".toList
  symbol := "EURUSD".toList
  entry := some "1.085".toList
  summary := "sweep_low (1.5R)!".toList

/-- The points and brackets of an alert are read as text. -/
theorem enterAlert_reads_back :
    readMarkdown (formatPayloadMarkdown id enterAlert .telegram) =
        (baseText id enterAlert .telegram enterAlert.summary).map Token.of ∧
      readMarkdown (escapeMarkdownV2 "*EURUSD* +1.5%".toList) =
        "*EURUSD* +1.5%".toList.map .text := by
  obtain ⟨-, -, halert, hmessage⟩ :=
    formatPayloadMarkdown_reads_back id enterAlert markdownV2_readMarkdown
  exact ⟨halert (by decide +kernel), hmessage _ (by decide +kernel)⟩

end Alerts
