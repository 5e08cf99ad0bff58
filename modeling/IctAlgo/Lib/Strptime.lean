import IctAlgo.Lib.Calendar

/-!
# Reading times by a format

`strptime?` reads a text by the items of a format as Python does: the format is a regular expression,
the first match in its order of alternatives counts, it has to take the whole text, and the fields
have to be a day and a time.
-/

set_option autoImplicit false

namespace Lib.Strptime

/-! ## Characters -/

/-- `str.isspace` of a character. -/
def isWhitespace (c : Char) : Bool :=
  let n := c.toNat
  (9 ≤ n && n ≤ 13) || (28 ≤ n && n ≤ 32) || n = 0x85 || n = 0xa0 || n = 0x1680 ||
    (0x2000 ≤ n && n ≤ 0x200a) || n = 0x2028 || n = 0x2029 || n = 0x202f || n = 0x205f || n = 0x3000

/-- `text.strip()`. -/
def strip (cs : List Char) : List Char :=
  ((cs.dropWhile isWhitespace).reverse.dropWhile isWhitespace).reverse

/-- The zeros of the scripts; the other digits of a script follow its zero. -/
def zeros : List ℕ :=
  [0x30, 0x660, 0x6f0, 0x7c0, 0x966, 0x9e6, 0xa66, 0xae6, 0xb66, 0xbe6, 0xc66, 0xce6, 0xd66, 0xde6,
    0xe50, 0xed0, 0xf20, 0x1040, 0x1090, 0x17e0, 0x1810, 0x1946, 0x19d0, 0x1a80, 0x1a90, 0x1b50,
    0x1bb0, 0x1c40, 0x1c50, 0xa620, 0xa8d0, 0xa900, 0xa9d0, 0xa9f0, 0xaa50, 0xabf0, 0xff10, 0x104a0,
    0x10d30, 0x11066, 0x110f0, 0x11136, 0x111d0, 0x112f0, 0x11450, 0x114d0, 0x11650, 0x116c0, 0x11730,
    0x118e0, 0x11950, 0x11c50, 0x11d50, 0x11da0, 0x16a60, 0x16ac0, 0x16b50, 0x1d7ce, 0x1d7d8, 0x1d7e2,
    0x1d7ec, 0x1d7f6, 0x1e140, 0x1e2f0, 0x1e950, 0x1fbf0]

/-- What a regular expression's class of digits matches, with its value. -/
abbrev DigitClass := Char → Option ℕ

/-- `\d`. -/
def anyDigit : DigitClass := fun c =>
  (zeros.find? fun z => z ≤ c.toNat && c.toNat ≤ z + 9).map (c.toNat - ·)

/-- `[lo-hi]`. -/
def digitIn (lo hi : ℕ) : DigitClass := fun c =>
  if lo ≤ c.toNat - 0x30 && c.toNat - 0x30 ≤ hi && 0x30 ≤ c.toNat then some (c.toNat - 0x30) else none

/-- A blank in the place of a digit. -/
def blank : DigitClass := fun c => if c = ' ' then some 0 else none

/-! ## Formats -/

inductive Field where
  | year | month | day | hour | minute | second
  /-- `%f`, which is read and not kept. -/
  | fraction
  deriving DecidableEq

/-- The alternatives of the directive of a field. -/
def Field.alternatives : Field → List (List DigitClass)
  | .year => [[anyDigit, anyDigit, anyDigit, anyDigit]]
  | .month => [[digitIn 1 1, digitIn 0 2], [digitIn 0 0, digitIn 1 9], [digitIn 1 9]]
  | .day =>
    [[digitIn 3 3, digitIn 0 1], [digitIn 1 2, anyDigit], [digitIn 0 0, digitIn 1 9], [digitIn 1 9],
      [blank, digitIn 1 9]]
  | .hour => [[digitIn 2 2, digitIn 0 3], [digitIn 0 1, anyDigit], [anyDigit]]
  | .minute => [[digitIn 0 5, anyDigit], [anyDigit]]
  | .second => [[digitIn 6 6, digitIn 0 1], [digitIn 0 5, anyDigit], [anyDigit]]
  | .fraction => (List.range' 1 6).reverse.map fun n => List.replicate n (digitIn 0 9)

inductive Item where
  | field (f : Field)
  /-- One blank of the format, which stands for one or more. -/
  | blanks
  /-- A character, in upper or lower case. -/
  | char (c : Char)

/-- The fields read, with the defaults of those that the format has not. -/
structure Fields where
  year : ℕ := 1900
  month : ℕ := 1
  day : ℕ := 1
  hour : ℕ := 0
  minute : ℕ := 0
  second : ℕ := 0

def Fields.set (p : Fields) (n : ℕ) : Field → Fields
  | .year => { p with year := n }
  | .month => { p with month := n }
  | .day => { p with day := n }
  | .hour => { p with hour := n }
  | .minute => { p with minute := n }
  | .second => { p with second := n }
  | .fraction => p

/-! ## Matches -/

/-- The number at the start of a text, digit by digit. -/
def number? : List DigitClass → ℕ → List Char → Option (ℕ × List Char)
  | [], n, cs => some (n, cs)
  | _ :: _, _, [] => none
  | d :: ds, n, c :: cs => (d c).bind fun k => number? ds (10 * n + k) cs

/-- What follows one or more blanks at the start of a text, after as many of them as there are first. -/
def afterBlanks (cs : List Char) : List (List Char) :=
  (List.range (cs.takeWhile isWhitespace).length).reverse.map fun n => cs.drop (n + 1)

/-- The matches at the start of a text, in the order in which they are tried. -/
def allMatches : List Item → Fields → List Char → List (Fields × List Char)
  | [], p, cs => [(p, cs)]
  | .field f :: items, p, cs =>
    (f.alternatives.filterMap fun ds => number? ds 0 cs).flatMap fun m =>
      allMatches items (p.set m.1 f) m.2
  | .blanks :: items, p, cs => (afterBlanks cs).flatMap fun rest => allMatches items p rest
  | .char _ :: _, _, [] => []
  | .char c :: items, p, c' :: cs =>
    if c'.toLower = c.toLower then allMatches items p cs else []

/-- The fields are a day and a time; a second 60 or 61 of the pattern is none. -/
def Fields.valid (p : Fields) : Bool :=
  Calendar.validDate p.year p.month p.day && p.hour ≤ 23 && p.minute ≤ 59 && p.second ≤ 59

/-- The seconds since the start of the year 1. -/
def Fields.instant (p : Fields) : ℕ :=
  Calendar.ordinal p.year p.month p.day * 86400 + p.hour * 3600 + p.minute * 60 + p.second

/-- `datetime.strptime(text, format)`; `none` for a `ValueError`. -/
def strptime? (format : List Item) (cs : List Char) : Option ℕ :=
  match (allMatches format {} cs).head? with
  | some (p, []) => if p.valid then some p.instant else none
  | _ => none

end Lib.Strptime
