import Mathlib.Data.String.Basic
import Mathlib.Tactic.IntervalCases
import IctAlgo.Lib.Strptime

/-!
# Writing times

`Fields.text` writes a time as `%Y-%m-%d %H:%M:%S`, the year with four digits.

* `text_lt_iff`: the texts are in the order of the times.
* `datetime?_text`: a text that is written is read back.
-/

set_option autoImplicit false

namespace Lib.Strptime

/-- The last `k` decimal digits of a number. -/
def pad : ℕ → ℕ → List Char
  | 0, _ => []
  | k + 1, n => pad k (n / 10) ++ [Nat.digitChar (n % 10)]

/-- `strftime("%Y-%m-%d %H:%M:%S")`. -/
def Fields.text (p : Fields) : String :=
  String.ofList (pad 4 p.year ++ '-' :: (pad 2 p.month ++ '-' :: (pad 2 p.day ++ ' ' ::
    (pad 2 p.hour ++ ':' :: (pad 2 p.minute ++ ':' :: (pad 2 p.second ++ []))))))

/-- The `datetime` that `strptime` reads. -/
def datetime? (format : List Item) (cs : List Char) : Option Fields :=
  match (allMatches format {} cs).head? with
  | some (p, []) => if p.valid then some p else none
  | _ => none

/-- `%Y-%m-%d %H:%M:%S`. -/
def dateTimeFormat : List Item :=
  [.field .year, .char '-', .field .month, .char '-', .field .day, .blanks, .field .hour, .char ':',
    .field .minute, .char ':', .field .second]

theorem strptime?_eq (format : List Item) (cs : List Char) :
    strptime? format cs = (datetime? format cs).map Fields.instant := by
  unfold strptime? datetime?
  generalize (allMatches format {} cs).head? = first
  rcases first with _ | ⟨p, _ | ⟨c, rest⟩⟩
  · rfl
  · dsimp only
    split_ifs <;> rfl
  · rfl

theorem valid_of_datetime? {format : List Item} {cs : List Char} {p : Fields}
    (h : datetime? format cs = some p) : p.valid = true := by
  unfold datetime? at h
  split at h
  · split at h
    · rename_i hvalid
      rw [← Option.some.inj h]
      exact hvalid
    · cases h
  · cases h

/-! ## The order of the times -/

/-- The fields in the order of their weight. -/
def Fields.lt (p q : Fields) : Prop :=
  p.year < q.year ∨ p.year = q.year ∧ (p.month < q.month ∨ p.month = q.month ∧
    (p.day < q.day ∨ p.day = q.day ∧ (p.hour < q.hour ∨ p.hour = q.hour ∧
      (p.minute < q.minute ∨ p.minute = q.minute ∧ p.second < q.second))))

theorem Fields.lt_trichotomy (p q : Fields) : p.lt q ∨ p = q ∨ q.lt p := by
  obtain ⟨_, _, _, _, _, _⟩ := p
  obtain ⟨_, _, _, _, _, _⟩ := q
  simp only [Fields.lt, Fields.mk.injEq]
  omega

theorem Fields.valid_iff {p : Fields} : p.valid = true ↔
    Calendar.validDate p.year p.month p.day = true ∧ p.hour ≤ 23 ∧ p.minute ≤ 59 ∧ p.second ≤ 59 := by
  simp [Fields.valid, and_assoc]

theorem Fields.instant_lt {p q : Fields} (hp : p.valid = true) (hq : q.valid = true) (h : p.lt q) :
    p.instant < q.instant := by
  obtain ⟨hdate, hhour, hminute, hsecond⟩ := Fields.valid_iff.1 hp
  obtain ⟨hdate', -, -, -⟩ := Fields.valid_iff.1 hq
  have hday : (p.year < q.year ∨ p.year = q.year ∧ (p.month < q.month ∨ p.month = q.month ∧
      p.day < q.day)) ∨ (p.year = q.year ∧ p.month = q.month ∧ p.day = q.day) ∧
        (p.hour < q.hour ∨ p.hour = q.hour ∧ (p.minute < q.minute ∨ p.minute = q.minute ∧
          p.second < q.second)) := by
    unfold Fields.lt at h
    tauto
  unfold Fields.instant
  obtain hlt | ⟨⟨hyear, hmonth, hdayEq⟩, htime⟩ := hday
  · have := Calendar.ordinal_lt hdate hdate' hlt
    omega
  · rw [hyear, hmonth, hdayEq]
    omega

/-! ## The order of the texts -/

theorem digitChar_lt : ∀ a < 10, ∀ b < 10, a < b → Nat.digitChar a < Nat.digitChar b := by decide

theorem cons_lt_cons_of {c : Char} {x y : List Char} (h : x < y) : c :: x < c :: y :=
  List.cons_lt_cons_iff.2 (.inr ⟨rfl, h⟩)

/-- Padded numbers in front of texts compare first. -/
theorem pad_lt {k n m : ℕ} (hn : n < 10 ^ k) (hm : m < 10 ^ k) {x y : List Char}
    (h : n < m ∨ n = m ∧ x < y) : pad k n ++ x < pad k m ++ y := by
  induction k generalizing n m x y with
  | zero =>
    rw [Nat.pow_zero] at hn hm
    obtain hlt | ⟨rfl, hlt⟩ := h
    · omega
    · exact hlt
  | succ k ih =>
    rw [Nat.pow_succ] at hn hm
    simp only [pad, List.append_assoc, List.singleton_append]
    apply ih (by omega) (by omega)
    obtain hlt | ⟨rfl, hlt⟩ := h
    · rcases Nat.lt_or_eq_of_le (Nat.div_le_div_right (c := 10) hlt.le) with hdiv | hdiv
      · exact .inl hdiv
      · refine .inr ⟨hdiv, List.cons_lt_cons_iff.2 (.inl ?_)⟩
        exact digitChar_lt _ (Nat.mod_lt _ (by decide)) _ (Nat.mod_lt _ (by decide)) (by omega)
    · exact .inr ⟨rfl, cons_lt_cons_of hlt⟩

theorem Fields.bounds {p : Fields} (h : p.valid = true) : p.year < 10 ^ 4 ∧ p.month < 10 ^ 2 ∧
    p.day < 10 ^ 2 ∧ p.hour < 10 ^ 2 ∧ p.minute < 10 ^ 2 ∧ p.second < 10 ^ 2 := by
  obtain ⟨hdate, hhour, hminute, hsecond⟩ := Fields.valid_iff.1 h
  obtain ⟨-, hyear, -, hmonth, -, hday⟩ := Calendar.validDate_iff.1 hdate
  have hmax : Calendar.daysInMonth p.year p.month ≤ 31 := by
    unfold Calendar.daysInMonth
    split_ifs <;> decide
  omega

theorem Fields.text_lt {p q : Fields} (hp : p.valid = true) (hq : q.valid = true) (h : p.lt q) :
    p.text < q.text := by
  obtain ⟨hyear, hmonth, hday, hhour, hminute, hsecond⟩ := Fields.bounds hp
  obtain ⟨hyear', hmonth', hday', hhour', hminute', hsecond'⟩ := Fields.bounds hq
  unfold Fields.text
  rw [String.lt_iff_toList_lt, String.toList_ofList, String.toList_ofList]
  refine pad_lt hyear hyear' (h.imp_right fun ⟨hy, h⟩ => ⟨hy, cons_lt_cons_of ?_⟩)
  refine pad_lt hmonth hmonth' (h.imp_right fun ⟨hm, h⟩ => ⟨hm, cons_lt_cons_of ?_⟩)
  refine pad_lt hday hday' (h.imp_right fun ⟨hd, h⟩ => ⟨hd, cons_lt_cons_of ?_⟩)
  refine pad_lt hhour hhour' (h.imp_right fun ⟨hh, h⟩ => ⟨hh, cons_lt_cons_of ?_⟩)
  refine pad_lt hminute hminute' (h.imp_right fun ⟨hm, h⟩ => ⟨hm, cons_lt_cons_of ?_⟩)
  exact pad_lt hsecond hsecond' (.inl h)

/-- **The texts are in the order of the times.** -/
theorem Fields.text_lt_iff {p q : Fields} (hp : p.valid = true) (hq : q.valid = true) :
    p.text < q.text ↔ p.instant < q.instant := by
  rcases p.lt_trichotomy q with hlt | rfl | hlt
  · exact iff_of_true (Fields.text_lt hp hq hlt) (Fields.instant_lt hp hq hlt)
  · exact iff_of_false (lt_irrefl _) (lt_irrefl _)
  · exact iff_of_false (Fields.text_lt hq hp hlt).asymm (Fields.instant_lt hq hp hlt).asymm

/-! ## Reading what is written -/

theorem anyDigit_digitChar : ∀ k < 10, anyDigit (Nat.digitChar k) = some k := by decide

theorem digitIn_digitChar {lo hi k : ℕ} (hk : k < 10) :
    digitIn lo hi (Nat.digitChar k) = if lo ≤ k ∧ k ≤ hi then some k else none := by
  interval_cases k <;> simp [digitIn, Nat.digitChar]

theorem isWhitespace_digitChar : ∀ k < 10, isWhitespace (Nat.digitChar k) = false := by decide

theorem length_pad (k n : ℕ) : (pad k n).length = k := by
  induction k generalizing n with
  | zero => rfl
  | succ k ih => rw [pad, List.length_append, ih, List.length_singleton]

theorem pad_two (n : ℕ) : pad 2 n = [Nat.digitChar (n / 10 % 10), Nat.digitChar (n % 10)] := rfl

/-- The first alternative of a field that matches reads the number. -/
def ReadsFirst (f : Field) (n : ℕ) (cs rest : List Char) : Prop :=
  (f.alternatives.filterMap fun ds => number? ds 0 cs).head? = some (n, rest)

section
variable {n : ℕ} (rest : List Char)

theorem readsFirst_year (h : n < 10 ^ 4) : ReadsFirst .year n (pad 4 n ++ rest) rest := by
  have hdigit : ∀ m, m % 10 < 10 := fun m => Nat.mod_lt _ (by decide)
  simp only [ReadsFirst, Field.alternatives, pad, number?, List.filterMap_cons, List.filterMap_nil,
    List.nil_append, List.cons_append, anyDigit_digitChar _ (hdigit _), Option.bind_some,
    List.head?_cons, Option.some.injEq, Prod.mk.injEq, and_true]
  omega

/-- The digits of a number below 100. -/
theorem exists_digits (h : n < 10 ^ 2) : ∃ a b, a < 10 ∧ b < 10 ∧ n = 10 * a + b ∧
    pad 2 n = [Nat.digitChar a, Nat.digitChar b] :=
  ⟨n / 10 % 10, n % 10, Nat.mod_lt _ (by decide), Nat.mod_lt _ (by decide), by omega, rfl⟩

theorem readsFirst_month (hpos : 1 ≤ n) (h : n ≤ 12) : ReadsFirst .month n (pad 2 n ++ rest) rest := by
  obtain ⟨a, b, ha, hb, rfl, hpad⟩ := exists_digits (n := n) (by omega)
  rw [hpad]
  obtain rfl | rfl : a = 0 ∨ a = 1 := by omega
  · simp [ReadsFirst, Field.alternatives, number?, digitIn_digitChar, hb,
      show 1 ≤ b ∧ b ≤ 9 by omega]
  · simp [ReadsFirst, Field.alternatives, number?, digitIn_digitChar, hb,
      show b ≤ 2 by omega]

theorem readsFirst_day (hpos : 1 ≤ n) (h : n ≤ 31) : ReadsFirst .day n (pad 2 n ++ rest) rest := by
  obtain ⟨a, b, ha, hb, rfl, hpad⟩ := exists_digits (n := n) (by omega)
  rw [hpad]
  obtain rfl | rfl | rfl | rfl : a = 0 ∨ a = 1 ∨ a = 2 ∨ a = 3 := by omega
  · simp [ReadsFirst, Field.alternatives, number?, digitIn_digitChar, hb, List.filterMap_cons,
      show 1 ≤ b ∧ b ≤ 9 by omega]
  · simp [ReadsFirst, Field.alternatives, number?, digitIn_digitChar, anyDigit_digitChar, hb,
      List.filterMap_cons]
  · simp [ReadsFirst, Field.alternatives, number?, digitIn_digitChar, anyDigit_digitChar, hb,
      List.filterMap_cons]
  · simp [ReadsFirst, Field.alternatives, number?, digitIn_digitChar, hb, List.filterMap_cons,
      show b ≤ 1 by omega]

theorem readsFirst_hour (h : n ≤ 23) : ReadsFirst .hour n (pad 2 n ++ rest) rest := by
  obtain ⟨a, b, ha, hb, rfl, hpad⟩ := exists_digits (n := n) (by omega)
  rw [hpad]
  obtain hlow | rfl : a ≤ 1 ∨ a = 2 := by omega
  · simp [ReadsFirst, Field.alternatives, number?, digitIn_digitChar, anyDigit_digitChar, ha, hb,
      hlow, show ¬2 ≤ a by omega]
  · simp [ReadsFirst, Field.alternatives, number?, digitIn_digitChar, hb, List.filterMap_cons,
      show b ≤ 3 by omega]

theorem readsFirst_minute (h : n ≤ 59) : ReadsFirst .minute n (pad 2 n ++ rest) rest := by
  obtain ⟨a, b, ha, hb, rfl, hpad⟩ := exists_digits (n := n) (by omega)
  rw [hpad]
  simp [ReadsFirst, Field.alternatives, number?, digitIn_digitChar, anyDigit_digitChar, ha, hb,
    show a ≤ 5 by omega]

theorem readsFirst_second (h : n ≤ 59) : ReadsFirst .second n (pad 2 n ++ rest) rest := by
  obtain ⟨a, b, ha, hb, rfl, hpad⟩ := exists_digits (n := n) (by omega)
  rw [hpad]
  simp [ReadsFirst, Field.alternatives, number?, digitIn_digitChar, anyDigit_digitChar, ha, hb,
    show a ≤ 5 by omega, show ¬6 ≤ a by omega]

end

section
variable {items : List Item} {p : Fields} {cs rest : List Char} {r : Fields × List Char}

theorem head?_field {f : Field} {n : ℕ} (hnum : ReadsFirst f n cs rest)
    (hrest : (allMatches items (p.set n f) rest).head? = some r) :
    (allMatches (.field f :: items) p cs).head? = some r := by
  obtain ⟨others, hothers⟩ := List.head?_eq_some_iff.1 hnum
  rw [allMatches, hothers, List.flatMap_cons, List.head?_append, hrest]
  rfl

theorem head?_char {c : Char} (hrest : (allMatches items p rest).head? = some r) :
    (allMatches (.char c :: items) p (c :: rest)).head? = some r := by
  rw [allMatches, if_pos rfl]
  exact hrest

/-- One blank before a digit. -/
theorem head?_blank {k : ℕ} (hk : k < 10)
    (hrest : (allMatches items p (Nat.digitChar k :: rest)).head? = some r) :
    (allMatches (.blanks :: items) p (' ' :: Nat.digitChar k :: rest)).head? = some r := by
  have hafter : afterBlanks (' ' :: Nat.digitChar k :: rest) = [Nat.digitChar k :: rest] := by
    simp [afterBlanks, isWhitespace_digitChar k hk, show isWhitespace ' ' = true by decide]
  rw [allMatches, hafter, List.flatMap_singleton]
  exact hrest

end

/-- **A time that is written is read back.** -/
theorem datetime?_text {p : Fields} (h : p.valid = true) :
    datetime? dateTimeFormat p.text.toList = some p := by
  obtain ⟨hyear, -⟩ := Fields.bounds h
  obtain ⟨hdate, hhour, hminute, hsecond⟩ := Fields.valid_iff.1 h
  obtain ⟨-, -, hmonth, hmonth', hday, hday'⟩ := Calendar.validDate_iff.1 hdate
  have hmax : Calendar.daysInMonth p.year p.month ≤ 31 := by
    unfold Calendar.daysInMonth
    split_ifs <;> decide
  have hfirst : (allMatches dateTimeFormat {} p.text.toList).head? = some (p, []) := by
    unfold Fields.text dateTimeFormat
    rw [String.toList_ofList]
    refine head?_field (readsFirst_year _ hyear) (head?_char ?_)
    refine head?_field (readsFirst_month _ hmonth hmonth') (head?_char ?_)
    refine head?_field (readsFirst_day _ hday (hday'.trans hmax)) ?_
    rw [pad_two p.hour]
    refine head?_blank (Nat.mod_lt _ (by decide)) ?_
    refine head?_field (readsFirst_hour _ hhour) (head?_char ?_)
    refine head?_field (readsFirst_minute _ hminute) (head?_char ?_)
    exact head?_field (readsFirst_second _ hsecond) rfl
  unfold datetime?
  rw [hfirst]
  exact if_pos h

end Lib.Strptime
