import Mathlib.Data.Rat.Defs
import Mathlib.Algebra.Order.Field.Rat
import Mathlib.Tactic.Ring
import Mathlib.Tactic.FieldSimp
import Mathlib.Tactic.NormNum
import IctAlgo.Lib.Strftime

/-!
# Strings and numbers of JSON

`quote` writes a string in ASCII, with `\uXXXX` for the rest; `string?` and `number?` read the
literals at the start of a text. A float is the rational that its literal denotes. A surrogate that
stands alone is no character and reads as none.

* `string?_quote`, `number?_int`, `literal_decimal`, `literal_exponent`: what is written is read
  back.
-/

set_option autoImplicit false

namespace Lib.Json

/-! ## Strings -/

/-- The value of a hexadecimal digit. -/
def hexVal? (c : Char) : Option ℕ :=
  if c.isDigit then some (c.toNat - 48)
  else if 'a' ≤ c ∧ c ≤ 'f' then some (c.toNat - 87)
  else if 'A' ≤ c ∧ c ≤ 'F' then some (c.toNat - 55)
  else none

/-- `f"{n:04x}"`. -/
def hex4 (n : ℕ) : List Char :=
  [Nat.digitChar (n / 4096 % 16), Nat.digitChar (n / 256 % 16), Nat.digitChar (n / 16 % 16),
    Nat.digitChar (n % 16)]

def unitText (n : ℕ) : List Char := '\\' :: 'u' :: hex4 n

/-- The characters with an escape of their own. -/
def shortEscape? (c : Char) : Option Char :=
  if c = '"' ∨ c = '\\' then some c
  else if c = '\n' then some 'n'
  else if c = '\r' then some 'r'
  else if c = '\t' then some 't'
  else if c.toNat = 12 then some 'f'
  else if c.toNat = 8 then some 'b'
  else none

/-- A character in a string, as `ensure_ascii` writes it. -/
def escapeChar (c : Char) : List Char :=
  match shortEscape? c with
  | some e => ['\\', e]
  | none =>
    if 32 ≤ c.toNat ∧ c.toNat ≤ 126 then [c]
    else if c.toNat < 0x10000 then unitText c.toNat
    else
      unitText (0xd800 + (c.toNat - 0x10000) / 1024) ++ unitText (0xdc00 + (c.toNat - 0x10000) % 1024)

def quote (cs : List Char) : List Char := '"' :: (cs.flatMap escapeChar ++ ['"'])

/-- The four digits of `\uXXXX`. -/
def unit? : List Char → Option (ℕ × List Char)
  | a :: b :: c :: d :: rest => do
    let a ← hexVal? a
    let b ← hexVal? b
    let c ← hexVal? c
    let d ← hexVal? d
    return (((a * 16 + b) * 16 + c) * 16 + d, rest)
  | _ => none

/-- The second half of a pair of surrogates. -/
def lowSurrogate? (high : ℕ) : List Char → Option (Char × List Char)
  | '\\' :: 'u' :: cs => do
    let (low, rest) ← unit? cs
    if 0xdc00 ≤ low ∧ low ≤ 0xdfff then
      return (Char.ofNat (0x10000 + (high - 0xd800) * 1024 + (low - 0xdc00)), rest)
    else none
  | _ => none

/-- What follows `\u`. -/
def unicode? (cs : List Char) : Option (Char × List Char) := do
  let (u, rest) ← unit? cs
  if u < 0xd800 ∨ 0xdfff < u then return (Char.ofNat u, rest)
  else if u < 0xdc00 then lowSurrogate? u rest
  else none

/-- What follows a backslash. -/
def escape? : List Char → Option (Char × List Char)
  | 'u' :: cs => unicode? cs
  | 'n' :: cs => some ('\n', cs)
  | 'r' :: cs => some ('\r', cs)
  | 't' :: cs => some ('\t', cs)
  | 'f' :: cs => some (Char.ofNat 12, cs)
  | 'b' :: cs => some (Char.ofNat 8, cs)
  | '"' :: cs => some ('"', cs)
  | '\\' :: cs => some ('\\', cs)
  | '/' :: cs => some ('/', cs)
  | _ => none

/-- A string after its opening quote, at most `n` steps on. -/
def stringFrom? : ℕ → List Char → Option (List Char × List Char)
  | 0, _ => none
  | _ + 1, [] => none
  | n + 1, c :: cs =>
    if c = '"' then some ([], cs)
    else if c = '\\' then do
      let (e, rest) ← escape? cs
      let (s, rest) ← stringFrom? n rest
      return (e :: s, rest)
    else if c.toNat < 32 then none
    else do
      let (s, rest) ← stringFrom? n cs
      return (c :: s, rest)

/-- A string after its opening quote. -/
def string? (cs : List Char) : Option (List Char × List Char) := stringFrom? (cs.length + 1) cs

/-! ### Reading what is written -/

theorem hexVal?_digitChar : ∀ k < 16, hexVal? (Nat.digitChar k) = some k := by decide

theorem unit?_hex4 {n : ℕ} (h : n < 0x10000) (rest : List Char) :
    unit? (hex4 n ++ rest) = some (n, rest) := by
  have hdigit : ∀ m, m % 16 < 16 := fun m => Nat.mod_lt _ (by decide)
  simp only [hex4, List.cons_append, List.nil_append, unit?, hexVal?_digitChar _ (hdigit _),
    Option.bind_eq_bind, Option.bind_some]
  have hsum : ((n / 4096 % 16 * 16 + n / 256 % 16) * 16 + n / 16 % 16) * 16 + n % 16 = n := by omega
  rw [hsum]
  rfl

theorem unicode?_hex4 {c : Char} (h : c.toNat < 0x10000) (rest : List Char) :
    unicode? (hex4 c.toNat ++ rest) = some (c, rest) := by
  have hvalid : c.toNat < 0xd800 ∨ 0xdfff < c.toNat := by
    rcases c.valid with hlow | ⟨hhigh, -⟩
    · exact .inl hlow
    · exact .inr hhigh
  simp only [unicode?, unit?_hex4 h, Option.bind_eq_bind, Option.bind_some, if_pos hvalid,
    Char.ofNat_toNat]
  rfl

theorem lowSurrogate?_unitText {high low n : ℕ} (hlow : 0xdc00 ≤ low ∧ low ≤ 0xdfff)
    (hsum : 0x10000 + (high - 0xd800) * 1024 + (low - 0xdc00) = n) (rest : List Char) :
    lowSurrogate? high (unitText low ++ rest) = some (Char.ofNat n, rest) := by
  have hunit : low < 0x10000 := by omega
  simp only [unitText, List.cons_append, lowSurrogate?, unit?_hex4 hunit, Option.bind_eq_bind,
    Option.bind_some, if_pos hlow, hsum]
  rfl

theorem unicode?_high {high : ℕ} (h : 0xd800 ≤ high ∧ high < 0xdc00) (rest : List Char) :
    unicode? (hex4 high ++ rest) = lowSurrogate? high rest := by
  have hunit : high < 0x10000 := by omega
  have hvalid : ¬(high < 0xd800 ∨ 0xdfff < high) := by omega
  simp only [unicode?, unit?_hex4 hunit, Option.bind_eq_bind, Option.bind_some, if_neg hvalid,
    if_pos h.2]

theorem unicode?_pair {c : Char} (h : 0x10000 ≤ c.toNat) (rest : List Char) :
    unicode? (hex4 (0xd800 + (c.toNat - 0x10000) / 1024) ++
      (unitText (0xdc00 + (c.toNat - 0x10000) % 1024) ++ rest)) = some (c, rest) := by
  have hmax : c.toNat < 0x110000 := by
    rcases c.valid with hlow | ⟨-, hhigh⟩
    · exact lt_trans hlow (by decide)
    · exact hhigh
  rw [unicode?_high (by omega), lowSurrogate?_unitText (n := c.toNat) (by omega) (by omega),
    Char.ofNat_toNat]

theorem escape?_shortEscape {c e : Char} (h : shortEscape? c = some e) (rest : List Char) :
    escape? (e :: rest) = some (c, rest) := by
  have hnat {k : ℕ} (hk : c.toNat = k) : c = Char.ofNat k := by rw [← hk, Char.ofNat_toNat]
  unfold shortEscape? at h
  split_ifs at h with hquote hn hr ht hf hb
  · obtain rfl := Option.some.inj h
    rcases hquote with rfl | rfl <;> rfl
  · obtain rfl := Option.some.inj h
    rw [hn]; rfl
  · obtain rfl := Option.some.inj h
    rw [hr]; rfl
  · obtain rfl := Option.some.inj h
    rw [ht]; rfl
  · obtain rfl := Option.some.inj h
    rw [hnat hf]; rfl
  · obtain rfl := Option.some.inj h
    rw [hnat hb]; rfl

theorem stringFrom?_escape {n : ℕ} {c : Char} {cs rest : List Char} (h : escape? cs = some (c, rest)) :
    stringFrom? (n + 1) ('\\' :: cs) = (stringFrom? n rest).map fun r => (c :: r.1, r.2) := by
  simp only [stringFrom?, Char.reduceEq, if_false, if_true, h, Option.bind_eq_bind,
    Option.bind_some]
  cases stringFrom? n rest <;> rfl

theorem stringFrom?_escapeChar (n : ℕ) (c : Char) (rest : List Char) :
    stringFrom? (n + 1) (escapeChar c ++ rest) =
      (stringFrom? n rest).map fun r => (c :: r.1, r.2) := by
  unfold escapeChar
  cases hshort : shortEscape? c with
  | some e => exact stringFrom?_escape (escape?_shortEscape hshort rest)
  | none =>
    dsimp only
    split_ifs with hplain hbmp
    · have hquote : c ≠ '"' := by rintro rfl; exact absurd hshort (by decide)
      have hslash : c ≠ '\\' := by rintro rfl; exact absurd hshort (by decide)
      simp only [List.cons_append, List.nil_append, stringFrom?, hquote, hslash, if_false,
        if_neg (show ¬c.toNat < 32 by omega), Option.bind_eq_bind]
      cases stringFrom? n rest <;> rfl
    · exact stringFrom?_escape (unicode?_hex4 hbmp rest)
    · rw [List.append_assoc]
      exact stringFrom?_escape (unicode?_pair (by omega) rest)

theorem stringFrom?_quoted {cs : List Char} (rest : List Char) : ∀ {n : ℕ}, cs.length < n →
    stringFrom? n (cs.flatMap escapeChar ++ '"' :: rest) = some (cs, rest) := by
  induction cs with
  | nil =>
    intro n hn
    obtain ⟨n, rfl⟩ := Nat.exists_eq_succ_of_ne_zero (Nat.ne_of_gt hn)
    rfl
  | cons c cs ih =>
    intro n hn
    obtain ⟨n, rfl⟩ := Nat.exists_eq_succ_of_ne_zero (Nat.ne_of_gt (Nat.zero_lt_of_lt hn))
    rw [List.flatMap_cons, List.append_assoc, stringFrom?_escapeChar, ih (Nat.lt_of_succ_lt_succ hn)]
    rfl

theorem length_escapeChar (c : Char) : 1 ≤ (escapeChar c).length := by
  unfold escapeChar unitText hex4
  split
  · simp
  · split_ifs <;> simp

theorem length_flatMap_escapeChar (cs : List Char) : cs.length ≤ (cs.flatMap escapeChar).length := by
  induction cs with
  | nil => simp
  | cons c cs ih =>
    have := length_escapeChar c
    simp only [List.flatMap_cons, List.length_append, List.length_cons]
    omega

/-- A string that is written is read back. -/
theorem string?_quote (cs rest : List Char) :
    string? (cs.flatMap escapeChar ++ '"' :: rest) = some (cs, rest) := by
  refine stringFrom?_quoted rest ?_
  have := length_flatMap_escapeChar cs
  simp only [List.length_append, List.length_cons]
  omega

/-! ### On one line -/

/-- No character ends a line. -/
def OneLine (cs : List Char) : Prop := ∀ d ∈ cs, d ≠ '\n' ∧ d ≠ '\r'

theorem OneLine.append {xs ys : List Char} (hx : OneLine xs) (hy : OneLine ys) : OneLine (xs ++ ys) := by
  intro d hd
  rcases List.mem_append.1 hd with hd | hd
  · exact hx d hd
  · exact hy d hd

theorem OneLine.cons {c : Char} {cs : List Char} (hc : c ≠ '\n' ∧ c ≠ '\r') (h : OneLine cs) :
    OneLine (c :: cs) := by
  intro d hd
  rcases List.mem_cons.1 hd with rfl | hd
  · exact hc
  · exact h d hd

theorem oneLine_nil : OneLine [] := fun d hd => (by cases hd)

theorem digitChar_ne_newline : ∀ k < 16, Nat.digitChar k ≠ '\n' ∧ Nat.digitChar k ≠ '\r' := by decide

theorem oneLine_unitText (n : ℕ) : OneLine (unitText n) := by
  have hdigit : ∀ m, m % 16 < 16 := fun m => Nat.mod_lt _ (by decide)
  intro d h
  simp only [unitText, hex4, List.mem_cons, List.not_mem_nil, or_false] at h
  rcases h with rfl | rfl | rfl | rfl | rfl | rfl
  · decide
  · decide
  all_goals exact digitChar_ne_newline _ (hdigit _)

theorem shortEscape?_ne {c e : Char} (h : shortEscape? c = some e) : e ≠ '\n' ∧ e ≠ '\r' := by
  have hread := escape?_shortEscape h []
  constructor <;> (rintro rfl; simp [escape?] at hread)

theorem oneLine_escapeChar (c : Char) : OneLine (escapeChar c) := by
  unfold escapeChar
  cases hshort : shortEscape? c with
  | some e => exact .cons (by decide) (.cons (shortEscape?_ne hshort) oneLine_nil)
  | none =>
    dsimp only
    split_ifs with hplain hbmp
    · have hne : c ≠ '\n' ∧ c ≠ '\r' := by
        constructor <;> rintro rfl <;> exact absurd hplain (by decide)
      exact .cons hne oneLine_nil
    · exact oneLine_unitText _
    · exact (oneLine_unitText _).append (oneLine_unitText _)

theorem oneLine_quote (cs : List Char) : OneLine (quote cs) := by
  refine .cons (by decide) (.append ?_ (.cons (by decide) oneLine_nil))
  intro d hd
  obtain ⟨c, -, hd⟩ := List.mem_flatMap.1 hd
  exact oneLine_escapeChar c d hd

/-! ## Numbers -/

inductive Number
  | int (n : ℤ)
  | float (x : ℚ)
  deriving DecidableEq

/-- The floats that are no numbers. -/
inductive Special
  | nan | inf | negInf
  deriving DecidableEq

def Special.text : Special → List Char
  | .nan => ['N', 'a', 'N']
  | .inf => ['I', 'n', 'f', 'i', 'n', 'i', 't', 'y']
  | .negInf => ['-', 'I', 'n', 'f', 'i', 'n', 'i', 't', 'y']

/-- The value of a text of digits. -/
def natOf (ds : List Char) : ℕ := Nat.ofDigitChars 10 ds 0

/-- The value of the digits after a point. -/
def fractionOf : List Char → ℚ
  | [] => 0
  | d :: ds => (natOf [d] + fractionOf ds) / 10

/-- The digits at the start of a text, if there are any. -/
def digits? (cs : List Char) : Option (List Char × List Char) :=
  if cs.takeWhile Char.isDigit = [] then none
  else some (cs.takeWhile Char.isDigit, cs.dropWhile Char.isDigit)

/-- `0|[1-9][0-9]*`. -/
def whole? : List Char → Option (List Char × List Char)
  | '0' :: cs => some (['0'], cs)
  | cs => digits? cs

/-- `(\.[0-9]+)?`. -/
def fraction (cs : List Char) : List Char × List Char :=
  match cs with
  | '.' :: rest => (digits? rest).getD ([], cs)
  | _ => ([], cs)

def signed : List Char → ℤ × List Char
  | '-' :: cs => (-1, cs)
  | '+' :: cs => (1, cs)
  | cs => (1, cs)

/-- `([eE][-+]?[0-9]+)?`. -/
def exponent (cs : List Char) : Option ℤ × List Char :=
  match cs with
  | [] => (none, [])
  | e :: rest =>
    if e = 'e' ∨ e = 'E' then
      match digits? (signed rest).2 with
      | some (ds, rest') => (some ((signed rest).1 * natOf ds), rest')
      | none => (none, cs)
    else (none, cs)

def number? (cs : List Char) : Option (Number × List Char) := do
  let negative := cs.head? = some '-'
  let (ip, cs) ← whole? (if negative then cs.tail else cs)
  let (fp, cs) := fraction cs
  let (ex, cs) := exponent cs
  let sign := if negative then -1 else 1
  if fp = [] ∧ ex = none then return (.int (sign * natOf ip), cs)
  else return (.float (sign * (natOf ip + fractionOf fp) * 10 ^ ex.getD 0), cs)

/-! ### Reading what is written -/

/-- What may follow a value. -/
def Ends (cs : List Char) : Prop := ∀ c ∈ cs.head?, c = ',' ∨ c = ']' ∨ c = '}'

/-- No digit comes first. -/
def NoDigit (cs : List Char) : Prop := ∀ c ∈ cs.head?, c.isDigit = false

theorem takeWhile_digits {ds rest : List Char} (hds : ∀ d ∈ ds, d.isDigit = true) (h : NoDigit rest) :
    (ds ++ rest).takeWhile Char.isDigit = ds := by
  rw [List.takeWhile_append_of_pos hds]
  cases rest with
  | nil => simp
  | cons c cs => simp [h c rfl]

theorem dropWhile_digits {ds rest : List Char} (hds : ∀ d ∈ ds, d.isDigit = true) (h : NoDigit rest) :
    (ds ++ rest).dropWhile Char.isDigit = rest := by
  rw [List.dropWhile_append_of_pos hds]
  cases rest with
  | nil => simp
  | cons c cs => simp [h c rfl]

theorem digits?_append {ds rest : List Char} (hne : ds ≠ []) (hds : ∀ d ∈ ds, d.isDigit = true)
    (h : NoDigit rest) : digits? (ds ++ rest) = some (ds, rest) := by
  unfold digits?
  rw [takeWhile_digits hds h, dropWhile_digits hds h, if_neg hne]

theorem Ends.noDigit {cs : List Char} (h : Ends cs) : NoDigit cs := by
  intro c hc
  rcases h c hc with rfl | rfl | rfl <;> rfl

theorem Ends.fraction {cs : List Char} (h : Ends cs) : fraction cs = ([], cs) := by
  unfold Json.fraction
  split
  · exact absurd (h '.' rfl) (by decide)
  · rfl

theorem Ends.exponent {cs : List Char} (h : Ends cs) : exponent cs = (none, cs) := by
  cases cs with
  | nil => rfl
  | cons c cs =>
    have hc : ¬(c = 'e' ∨ c = 'E') := by
      rcases h c rfl with rfl | rfl | rfl <;> decide
    exact if_neg hc

theorem isDigit_toDigits {n : ℕ} : ∀ d ∈ Nat.toDigits 10 n, d.isDigit = true := fun _ hd =>
  Nat.isDigit_of_mem_toDigits (by decide) (by decide) hd

theorem digitChar_ne_zero : ∀ k < 10, k ≠ 0 → Nat.digitChar k ≠ '0' := by decide

theorem head_toDigits {n : ℕ} (h : n ≠ 0) : (Nat.toDigits 10 n).head? ≠ some '0' := by
  induction n using Nat.strong_induction_on with
  | h n ih =>
    rw [Nat.toDigits_eq_if (by decide)]
    split_ifs with hn
    · simpa using digitChar_ne_zero n hn h
    · have hlt : n / 10 < n := by omega
      have := ih (n / 10) hlt (by omega)
      rwa [List.head?_append_of_ne_nil _ Nat.toDigits_ne_nil]

theorem whole?_toDigits (n : ℕ) {rest : List Char} (h : NoDigit rest) :
    whole? (Nat.toDigits 10 n ++ rest) = some (Nat.toDigits 10 n, rest) := by
  by_cases hn : n = 0
  · subst hn
    rw [Nat.toDigits_zero]
    rfl
  · have hhead := head_toDigits hn
    have hread := digits?_append Nat.toDigits_ne_nil (isDigit_toDigits (n := n)) h
    rcases hds : Nat.toDigits 10 n with _ | ⟨d, ds⟩
    · exact absurd hds Nat.toDigits_ne_nil
    · rw [hds] at hhead hread
      unfold whole?
      split
      · rename_i heq
        simp only [List.cons_append, List.cons.injEq] at heq
        exact absurd (congrArg some heq.1) hhead
      · exact hread

def signText (negative : Bool) : List Char := if negative then ['-'] else []

def signOf (negative : Bool) : ℤ := if negative then -1 else 1

/-- A literal is read as its digits and what `fraction` and `exponent` read after them. -/
theorem number?_toDigits (negative : Bool) (n : ℕ) {cs : List Char} (h : NoDigit cs) :
    number? (signText negative ++ (Nat.toDigits 10 n ++ cs)) =
      some (if (fraction cs).1 = [] ∧ (exponent (fraction cs).2).1 = none then
          .int (signOf negative * n)
        else .float (signOf negative * (n + fractionOf (fraction cs).1) *
          10 ^ (exponent (fraction cs).2).1.getD 0), (exponent (fraction cs).2).2) := by
  have hnat : natOf (Nat.toDigits 10 n) = n := Nat.ofDigitChars_ten_toDigits
  have hminus : (Nat.toDigits 10 n ++ cs).head? ≠ some '-' := by
    rw [List.head?_append_of_ne_nil _ Nat.toDigits_ne_nil]
    intro hd
    exact absurd (isDigit_toDigits _ (List.mem_of_mem_head? hd)) (by decide)
  have hwhole := whole?_toDigits n h
  cases negative with
  | false =>
    simp only [signText, Bool.false_eq_true, if_false, List.nil_append, number?, hminus, hwhole,
      Option.bind_eq_bind, Option.bind_some, hnat, signOf]
    split_ifs <;> simp
  | true =>
    simp only [signText, if_true, List.cons_append, List.nil_append, number?, List.head?_cons,
      List.tail_cons, hwhole, Option.bind_eq_bind, Option.bind_some, hnat, signOf]
    split_ifs <;> simp

/-- The digits of an integer. -/
def intText (z : ℤ) : List Char := signText (z < 0) ++ Nat.toDigits 10 z.natAbs

theorem signOf_mul_natAbs (z : ℤ) : signOf (z < 0) * (z.natAbs : ℤ) = z := by
  unfold signOf
  by_cases h : z < 0
  · rw [decide_eq_true h, if_pos rfl]
    omega
  · rw [decide_eq_false h, if_neg (by decide)]
    omega

/-- An integer that is written is read back. -/
theorem number?_int (z : ℤ) {rest : List Char} (h : Ends rest) :
    number? (intText z ++ rest) = some (.int z, rest) := by
  unfold intText
  rw [List.append_assoc, number?_toDigits _ _ h.noDigit, h.fraction, h.exponent, if_pos ⟨rfl, rfl⟩,
    signOf_mul_natAbs]

theorem isDigit_ne {d : Char} (h : d.isDigit = true) : d ≠ '\n' ∧ d ≠ '\r' := by
  constructor <;> (rintro rfl; exact absurd h (by decide))

theorem oneLine_toDigits (n : ℕ) : OneLine (Nat.toDigits 10 n) := fun d hd =>
  isDigit_ne (isDigit_toDigits d hd)

theorem oneLine_signText (negative : Bool) : OneLine (signText negative) := by
  cases negative with
  | false => exact oneLine_nil
  | true => exact .cons (by decide) oneLine_nil

theorem oneLine_intText (z : ℤ) : OneLine (intText z) :=
  (oneLine_signText _).append (oneLine_toDigits _)

/-! ### Literals of floats -/

/-- A character that a number starts with. -/
def StartsNumber (c : Char) : Prop := c = '-' ∨ c.isDigit = true

/-- A text is a literal of the float `x`. -/
structure Literal (text : List Char) (x : ℚ) : Prop where
  starts : ∃ c cs, text = c :: cs ∧ StartsNumber c
  reads : ∀ {rest : List Char}, Ends rest → number? (text ++ rest) = some (.float x, rest)
  oneLine : OneLine text

theorem startsNumber_signText (negative : Bool) (n : ℕ) (rest : List Char) :
    ∃ c cs, signText negative ++ (Nat.toDigits 10 n ++ rest) = c :: cs ∧ StartsNumber c := by
  cases negative with
  | true => exact ⟨'-', _, rfl, .inl rfl⟩
  | false =>
    rcases hds : Nat.toDigits 10 n with _ | ⟨d, ds⟩
    · exact absurd hds Nat.toDigits_ne_nil
    · refine ⟨d, ds ++ rest, rfl, .inr (isDigit_toDigits (n := n) d ?_)⟩
      rw [hds]
      exact List.mem_cons_self ..

theorem startsNumber_intText (z : ℤ) : ∃ c cs, intText z = c :: cs ∧ StartsNumber c := by
  have h := startsNumber_signText (z < 0) z.natAbs []
  rwa [List.append_nil] at h

section
variable (negative : Bool) (n : ℕ) {ds : List Char} (hne : ds ≠ [])
  (hds : ∀ d ∈ ds, d.isDigit = true)

include hne hds

theorem number?_decimal {rest : List Char} (h : Ends rest) :
    number? (signText negative ++ (Nat.toDigits 10 n ++ '.' :: (ds ++ rest))) =
      some (.float (signOf negative * (n + fractionOf ds)), rest) := by
  have hpoint : NoDigit ('.' :: (ds ++ rest)) := by
    intro c hc
    obtain rfl := Option.some.inj hc
    rfl
  have hfraction : fraction ('.' :: (ds ++ rest)) = (ds, rest) := by
    simp only [fraction, digits?_append hne hds h.noDigit, Option.getD_some]
  rw [number?_toDigits _ _ hpoint, hfraction, h.exponent]
  simp [hne]

theorem number?_exponent {rest : List Char} (h : Ends rest) :
    number? (signText negative ++ (Nat.toDigits 10 n ++ 'e' :: '-' :: (ds ++ rest))) =
      some (.float (signOf negative * n * 10 ^ (-(natOf ds : ℤ))), rest) := by
  have hmark : NoDigit ('e' :: '-' :: (ds ++ rest)) := by
    intro c hc
    obtain rfl := Option.some.inj hc
    rfl
  have hexponent : exponent ('e' :: '-' :: (ds ++ rest)) = (some (-(natOf ds : ℤ)), rest) := by
    simp [exponent, signed, digits?_append hne hds h.noDigit]
  rw [number?_toDigits _ _ hmark]
  simp [fraction, hexponent, fractionOf]

/-- Digits, a point and digits. -/
theorem literal_decimal : Literal (signText negative ++ (Nat.toDigits 10 n ++ '.' :: ds))
    (signOf negative * (n + fractionOf ds)) where
  starts := startsNumber_signText negative n _
  reads := by
    intro rest h
    rw [List.append_assoc, List.append_assoc, List.cons_append]
    exact number?_decimal negative n hne hds h
  oneLine := (oneLine_signText negative).append ((oneLine_toDigits n).append
    (.cons (by decide) fun d hd => isDigit_ne (hds d hd)))

/-- Digits and a negative exponent. -/
theorem literal_exponent : Literal (signText negative ++ (Nat.toDigits 10 n ++ 'e' :: '-' :: ds))
    (signOf negative * n * 10 ^ (-(natOf ds : ℤ))) where
  starts := startsNumber_signText negative n _
  reads := by
    intro rest h
    rw [List.append_assoc, List.append_assoc, List.cons_append, List.cons_append]
    exact number?_exponent negative n hne hds h
  oneLine := (oneLine_signText negative).append ((oneLine_toDigits n).append
    (.cons (by decide) (.cons (by decide) fun d hd => isDigit_ne (hds d hd))))

end

/-! ### The digits after a point -/

theorem fractionOf_append (xs ys : List Char) :
    fractionOf (xs ++ ys) = fractionOf xs + fractionOf ys / 10 ^ xs.length := by
  induction xs with
  | nil => simp [fractionOf]
  | cons x xs ih =>
    rw [List.cons_append, fractionOf, fractionOf, ih, List.length_cons, pow_succ]
    field_simp
    ring

theorem fractionOf_zeros {ds : List Char} (h : ∀ d ∈ ds, d = '0') : fractionOf ds = 0 := by
  induction ds with
  | nil => rfl
  | cons d ds ih =>
    have hd : natOf [d] = 0 := by rw [h d (List.mem_cons_self ..)]; rfl
    rw [fractionOf, hd, ih fun d hd => h d (List.mem_cons_of_mem _ hd)]
    norm_num

theorem natOf_digitChar : ∀ k < 10, natOf [Nat.digitChar k] = k := by decide

theorem fractionOf_pad (k n : ℕ) : fractionOf (Strptime.pad k n) = (n % 10 ^ k : ℕ) / 10 ^ k := by
  induction k generalizing n with
  | zero => simp [Strptime.pad, fractionOf, Nat.mod_one]
  | succ k ih =>
    have hlen : (Strptime.pad k (n / 10)).length = k := Strptime.length_pad k _
    have hmod : n % 10 ^ (k + 1) = n / 10 % 10 ^ k * 10 + n % 10 := by
      rw [pow_succ', Nat.mod_mul]
      omega
    rw [Strptime.pad, fractionOf_append, ih, hlen, hmod]
    simp only [fractionOf, natOf_digitChar _ (Nat.mod_lt n (by decide : 0 < 10)), add_zero]
    push_cast
    field_simp
    ring

/-- The digits without the zeros at their end, but for the first of them. -/
def trimZeros (ds : List Char) : List Char :=
  match (ds.reverse.dropWhile (· = '0')).reverse with
  | [] => ['0']
  | ds => ds

theorem fractionOf_trimZeros (ds : List Char) : fractionOf (trimZeros ds) = fractionOf ds := by
  have hsplit : ds = (ds.reverse.dropWhile (· = '0')).reverse ++
      (ds.reverse.takeWhile (· = '0')).reverse := by
    rw [← List.reverse_append, List.takeWhile_append_dropWhile, List.reverse_reverse]
  have hzeros : fractionOf (ds.reverse.takeWhile (· = '0')).reverse = 0 := by
    refine fractionOf_zeros fun d hd => ?_
    simpa using List.all_eq_true.1 List.all_takeWhile d (List.mem_reverse.1 hd)
  have hkept : fractionOf ds = fractionOf (ds.reverse.dropWhile (· = '0')).reverse := by
    conv_lhs => rw [hsplit]
    rw [fractionOf_append, hzeros, zero_div, add_zero]
  unfold trimZeros
  rw [hkept]
  split
  · rename_i hnil
    rw [hnil]
    exact fractionOf_zeros (by simp)
  · rfl

theorem trimZeros_ne_nil (ds : List Char) : trimZeros ds ≠ [] := by
  unfold trimZeros
  split
  · simp
  · assumption

theorem mem_trimZeros {ds : List Char} {d : Char} (h : d ∈ trimZeros ds) : d = '0' ∨ d ∈ ds := by
  unfold trimZeros at h
  split at h
  · exact .inl (List.mem_singleton.1 h)
  · have := (List.dropWhile_sublist _).subset (List.mem_reverse.1 h)
    exact .inr (List.mem_reverse.1 this)

end Lib.Json
