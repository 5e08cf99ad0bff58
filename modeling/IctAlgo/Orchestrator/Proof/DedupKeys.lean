import Mathlib.Algebra.Order.Group.Unbundled.Int
import Mathlib.Tactic.Linarith
import IctAlgo.Lib.Text
import IctAlgo.Orchestrator.Dedup

/-!
# Deduplication keys and the window

The key of a decision without an id of its own has its timestamp in it, in buckets of the window's
length that start at its multiples, and its confidence in whole percent.

* `key_eq_iff`: when two decisions have one key.
* `abs_sub_lt_of_sameBucket`: those in one bucket are less than a window apart.
* `coversWindow_iff`: near decisions have one key, unless a boundary is between them.
-/

set_option autoImplicit false

namespace Orchestrator

open Lib

/-! ## Buckets -/

/-- No multiple of the width is between the two. -/
def SameBucket (width t t' : ℤ) : Prop := ∀ k, k * width ≤ t ↔ k * width ≤ t'

theorem sameBucket_iff {width t t' : ℤ} (h : 0 < width) :
    SameBucket width t t' ↔ t / width = t' / width := by
  unfold SameBucket
  simp only [← Int.le_ediv_iff_mul_le h]
  exact ⟨fun hall => le_antisymm ((hall _).1 le_rfl) ((hall _).2 le_rfl), fun heq k => by rw [heq]⟩

theorem abs_sub_lt_of_sameBucket {width t t' : ℤ} (h : 0 < width) (hsame : SameBucket width t t') :
    |t - t'| < width := by
  have hdiv := (sameBucket_iff h).1 hsame
  have ht := Int.emod_add_mul_ediv t width
  have ht' := Int.emod_add_mul_ediv t' width
  have hlow := Int.emod_nonneg t h.ne'
  have hhigh := Int.emod_lt_of_pos t h
  have hlow' := Int.emod_nonneg t' h.ne'
  have hhigh' := Int.emod_lt_of_pos t' h
  rw [hdiv] at ht
  rw [abs_lt]
  exact ⟨by linarith, by linarith⟩

/-! ## Definitions -/

/-- The fields that give a decision a key of its own. -/
def ownKeys : List String :=
  ["idempotency_key", "idempotency", "idempotencyKey", "signal_id", "signalId"]

/-- A decision without a key of its own, whose timestamp is a number. -/
structure NormKeyed (cv : Conv) where
  fields : Fields
  nowMs : ℤ
  tsMs : ℤ
  unkeyed : ∀ name ∈ ownKeys, (val fields name).truthy = false
  timestamp : cv.int? (fields.getD "timestamp_ms" (.int nowMs)) = some tsMs

namespace NormKeyed

section
variable {cv : Conv} (kc : KeyConv) (dc : DedupConfig) (x y : NormKeyed cv)

/-- The symbol, whatever the case of its letters. -/
def symbol : String := cv.upper (cv.text (x.fields.getD "symbol" (.str "UNKNOWN")))

/-- The recommendation, whatever the case of its letters. -/
def recommendation : String := kc.lower (cv.text (x.fields.getD "recommendation" (.str "")))

/-- The confidence, if it is a number. -/
def confidence? : Option PyFloat := cv.float? (x.fields.getD "confidence" (.float (.fin 0)))

/-- The confidence in whole percent. -/
def percent : ℤ := (x.confidence?.bind kc.percent).getD 0

def key : Option String := computeDedupKey cv kc dc x.nowMs x.fields

/-- The length of a bucket in milliseconds. -/
def bucketMs : ℤ := 1000 * max 1 dc.dedupWindowSeconds

/-- One symbol and one recommendation, confidences less than half a point apart and timestamps less than
a window. -/
structure Near : Prop where
  symbol : x.symbol = y.symbol
  recommendation : x.recommendation kc = y.recommendation kc
  confidence : ∃ c c', x.confidence? = some (.fin c) ∧ y.confidence? = some (.fin c') ∧
    |c - c'| < 1 / 200
  timestamp : |x.tsMs - y.tsMs| < 1000 * dc.dedupWindowSeconds

/-- The two windows have passed from the one timestamp to the other. -/
def Far : Prop := 2000 * dc.dedupWindowSeconds ≤ |x.tsMs - y.tsMs|

/-- Near decisions have one key, far ones have not. -/
structure CoversWindow : Prop where
  near : Near kc dc x y → x.key kc dc = y.key kc dc
  far : Far dc x y → x.key kc dc ≠ y.key kc dc

/-- No boundary is between the decisions: of buckets between their timestamps, or of whole percents
between their confidences. -/
structure Together : Prop where
  percent : x.percent kc = y.percent kc
  timestamp : SameBucket (bucketMs dc) x.tsMs y.tsMs

/-- The text before the confidence in the key. -/
def tag : String := x.symbol ++ ":" ++ x.recommendation kc

end

section
variable {cv : Conv} {kc : KeyConv} {dc : DedupConfig} {x y : NormKeyed cv}

/-! ## Keys -/

theorem bucketMs_pos : 0 < bucketMs dc := by
  unfold bucketMs
  omega

theorem key_eq : x.key kc dc = some ("norm:" ++ (x.tag kc ++ ":" ++ toString (x.percent kc) ++ ":" ++
    toString (x.tsMs / bucketMs dc))) := by
  have hnone : ∀ name ∈ ownKeys, (val x.fields name).truthy = false := x.unkeyed
  simp only [ownKeys, List.forall_mem_cons, List.not_mem_nil, false_implies, implies_true,
    and_true] at hnone
  obtain ⟨h1, h2, h3, h4, h5⟩ := hnone
  have hbucket : x.tsMs / 1000 / max 1 dc.dedupWindowSeconds = x.tsMs / bucketMs dc :=
    Int.ediv_ediv_of_nonneg (by decide)
  unfold key computeDedupKey
  simp only [Value.orElse, h1, h2, h3, h4, h5, Bool.false_eq_true, if_false, x.timestamp]
  rw [← hbucket]
  simp only [tag, symbol, recommendation, percent, confidence?, String.append_assoc]
  rfl

/-- Two decisions have one key exactly when their texts are the same and no boundary is between them. -/
theorem key_eq_iff : x.key kc dc = y.key kc dc ↔ x.tag kc = y.tag kc ∧ Together kc dc x y := by
  have hcolon : ∀ n : ℤ, ':' ∉ (toString n).toList :=
    Text.notMem_toString_int (by decide) (by decide)
  have hsep : ":".toList = [':'] := by decide
  rw [key_eq, key_eq, Option.some_inj, String.append_right_inj]
  refine ⟨fun h => ?_, fun ⟨htag, htogether⟩ => ?_⟩
  · obtain ⟨hconf, hbucket⟩ := Text.append_sep_inj hsep (hcolon _) (hcolon _) h
    obtain ⟨htag, hpercent⟩ := Text.append_sep_inj hsep (hcolon _) (hcolon _) hconf
    exact ⟨htag, Text.toString_int_inj hpercent,
      (sameBucket_iff bucketMs_pos).2 (Text.toString_int_inj hbucket)⟩
  · rw [htag, htogether.percent, (sameBucket_iff bucketMs_pos).1 htogether.timestamp]

/-- Decisions of one key are less than a window apart, one second at least. -/
theorem abs_sub_lt_of_key_eq (h : x.key kc dc = y.key kc dc) : |x.tsMs - y.tsMs| < bucketMs dc :=
  abs_sub_lt_of_sameBucket bucketMs_pos (key_eq_iff.1 h).2.timestamp

end

/-- **Keys cover the window**, exactly when near decisions have no boundary between them and, in a window
that is not positive, decisions that differ in nothing but the time have one. -/
theorem coversWindow_iff {cv : Conv} (kc : KeyConv) (dc : DedupConfig) (x y : NormKeyed cv) :
    CoversWindow kc dc x y ↔
      (Near kc dc x y → Together kc dc x y) ∧
      (dc.dedupWindowSeconds ≤ 0 → x.tag kc = y.tag kc → ¬Together kc dc x y) := by
  refine ⟨fun h => ⟨fun hnear => ?_, fun hwindow htag htogether => ?_⟩,
    fun ⟨hnear, hclosed⟩ => ⟨fun h => ?_, fun hfar hkey => ?_⟩⟩
  · exact (key_eq_iff.1 (h.near hnear)).2
  · refine h.far ?_ (key_eq_iff.2 ⟨htag, htogether⟩)
    have hpos := abs_nonneg (x.tsMs - y.tsMs)
    unfold Far
    omega
  · refine key_eq_iff.2 ⟨?_, hnear h⟩
    unfold tag
    rw [h.symbol, h.recommendation]
  · by_cases hwindow : dc.dedupWindowSeconds ≤ 0
    · obtain ⟨htag, htogether⟩ := key_eq_iff.1 hkey
      exact hclosed hwindow htag htogether
    · have hlt := abs_sub_lt_of_key_eq hkey
      unfold Far at hfar
      unfold bucketMs at hlt
      omega

/-! ## A boundary -/

/-- A decision of a symbol at a time. -/
def decisionAt (tsMs : ℤ) : NormKeyed .plain where
  fields := Dict.ofItems [("symbol", .str "EURUSD"), ("timestamp_ms", .int tsMs)]
  nowMs := 0
  tsMs
  unkeyed := by
    simp only [ownKeys, List.forall_mem_cons, List.not_mem_nil, false_implies, implies_true]
    exact ⟨rfl, rfl, rfl, rfl, rfl, trivial⟩
  timestamp := rfl

/-- A millisecond apart, at the end of a minute. -/
theorem minuteEnd_not_covered : ¬CoversWindow .plain {} (decisionAt 59999) (decisionAt 60000) := by
  intro h
  have hnear : Near .plain {} (decisionAt 59999) (decisionAt 60000) :=
    ⟨rfl, rfl, ⟨0, 0, rfl, rfl, by norm_num⟩, by decide⟩
  have hsame := (key_eq_iff.1 (h.near hnear)).2.timestamp 1
  revert hsame
  decide

end NormKeyed

end Orchestrator
