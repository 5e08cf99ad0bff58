import Mathlib.Data.Rat.Defs
import Mathlib.Algebra.Order.Ring.Rat

/-!
# Python values

`PyVal`: the values a field without a checked type may hold. An operation that raises a `TypeError`
gives `none`. A dictionary is known by its keys; objects of other classes are compared by identity.
`uuidText` says which texts `uuid.UUID` takes (ASCII digits and spaces only).
-/

set_option autoImplicit false

namespace Lib

inductive PyFloat
  | fin (q : ℚ)
  | inf
  | negInf
  | nan
  deriving DecidableEq

namespace PyFloat

/-- `x < y`. -/
def lt : PyFloat → PyFloat → Bool
  | .fin p, .fin q => p < q
  | .negInf, .fin _ | .negInf, .inf | .fin _, .inf => true
  | _, _ => false

/-- `x <= y`. -/
def le : PyFloat → PyFloat → Bool
  | .fin p, .fin q => p ≤ q
  | .inf, .inf | .negInf, .negInf => true
  | x, y => x.lt y

/-- `int(x)`, which raises for infinities and NaN. -/
def toInt? : PyFloat → Option ℤ
  | .fin q => some (q.num.tdiv q.den)
  | _ => none

end PyFloat

/-- A `datetime`; a naive one has no time zone. -/
structure Timestamp where
  time : ℚ
  aware : Bool := true
  deriving DecidableEq

/-- `a < b`, which raises for a naive and an aware one. -/
def Timestamp.lt? (a b : Timestamp) : Except String Bool :=
  if a.aware = b.aware then .ok (a.time < b.time)
  else .error "can't compare offset-naive and offset-aware datetimes"

inductive PyVal
  | null
  | bool (b : Bool)
  | int (n : ℤ)
  | float (x : PyFloat)
  | str (s : String)
  | tuple (xs : List PyVal)
  | list (xs : List PyVal)
  | dict (keys : List PyVal)
  | object (cls : String) (ref : ℕ)

namespace PyVal

/-- `type(v).__name__`. -/
def typeName : PyVal → String
  | .null => "NoneType"
  | .bool _ => "bool"
  | .int _ => "int"
  | .float _ => "float"
  | .str _ => "str"
  | .tuple _ => "tuple"
  | .list _ => "list"
  | .dict _ => "dict"
  | .object cls _ => cls

/-- The value of an `isinstance(v, int)`; a `bool` is one. -/
def int? : PyVal → Option ℤ
  | .int n => some n
  | .bool b => some (if b then 1 else 0)
  | _ => none

def str? : PyVal → Option String
  | .str s => some s
  | _ => none

def list? : PyVal → Option (List PyVal)
  | .list xs => some xs
  | _ => none

def isDict : PyVal → Bool
  | .dict _ => true
  | _ => false

/-- `len(v)`. -/
def len? : PyVal → Option ℕ
  | .str s => some s.length
  | .tuple xs | .list xs | .dict xs => some xs.length
  | _ => none

/-- The values of `for x in v`. -/
def iter? : PyVal → Option (List PyVal)
  | .str s => some (s.toList.map fun c => .str c.toString)
  | .tuple xs | .list xs | .dict xs => some xs
  | _ => none

/-! ## Keys -/

mutual

/-- `hash(v)` does not raise. -/
def hashable : PyVal → Bool
  | .list _ | .dict _ => false
  | .tuple xs => allHashable xs
  | _ => true

def allHashable : List PyVal → Bool
  | [] => true
  | x :: xs => hashable x && allHashable xs

end

/-- A number, or a `bool` as one. -/
def num? : PyVal → Option PyFloat
  | .int n => some (.fin n)
  | .bool b => some (.fin (if b then 1 else 0))
  | .float x => some x
  | _ => none

mutual

/-- `v == w` of two keys. -/
def eq : PyVal → PyVal → Bool
  | .null, .null => true
  | .str s, .str t => s = t
  | .tuple xs, .tuple ys => eqAll xs ys
  | .object cls ref, .object cls' ref' => cls = cls' && ref = ref'
  | v, w => match v.num?, w.num? with
    | some x, some y => x ≠ .nan && x = y
    | _, _ => false

def eqAll : List PyVal → List PyVal → Bool
  | [], [] => true
  | x :: xs, y :: ys => eq x y && eqAll xs ys
  | _, _ => false

end

/-- `v in s` for a set or the keys of a dictionary. -/
def mem? (v : PyVal) (s : List PyVal) : Option Bool :=
  if v.hashable then some (s.any v.eq) else none

/-! ## Numbers -/

/-- `n - v`. -/
def subFrom? (n : ℤ) : PyVal → Option PyVal
  | .int m => some (.int (n - m))
  | .bool b => some (.int (n - if b then 1 else 0))
  | .float (.fin q) => some (.float (.fin (n - q)))
  | .float .inf => some (.float .negInf)
  | .float .negInf => some (.float .inf)
  | .float .nan => some (.float .nan)
  | _ => none

/-- `n < v`. -/
def lt? (n : ℤ) : PyVal → Option Bool
  | .int m => some (n < m)
  | .bool b => some (n < if b then 1 else 0)
  | .float (.fin q) => some ((n : ℚ) < q)
  | .float .inf => some true
  | .float _ => some false
  | _ => none

/-- `v >= n`, false when it raises. -/
def ge (n : ℤ) : PyVal → Bool
  | .int m => n ≤ m
  | .bool b => n ≤ if b then 1 else 0
  | .float (.fin q) => (n : ℚ) ≤ q
  | .float .inf => true
  | _ => false

/-- `v <= n`, false when it raises. -/
def le (n : ℤ) : PyVal → Bool
  | .int m => m ≤ n
  | .bool b => (if b then 1 else 0) ≤ n
  | .float (.fin q) => q ≤ (n : ℚ)
  | .float .negInf => true
  | _ => false

/-- A difference is at least 0 exactly when the subtrahend is no later. -/
theorem ge_subFrom {n : ℤ} {v d : PyVal} (h : subFrom? n v = some d) : d.ge 0 = v.le n := by
  cases v with
  | int m => cases h; simp [ge, le]
  | bool b => cases h; simp [ge, le]
  | float x =>
    cases x with
    | fin q => cases h; simp [ge, le]
    | inf => cases h; rfl
    | negInf => cases h; rfl
    | nan => cases h; rfl
  | _ => cases h

theorem subFrom_of_le {n : ℤ} {v : PyVal} (h : v.le n = true) : ∃ d, subFrom? n v = some d := by
  cases v with
  | int m => exact ⟨_, rfl⟩
  | bool b => exact ⟨_, rfl⟩
  | float x =>
    cases x with
    | negInf => exact ⟨_, rfl⟩
    | fin q => exact ⟨_, rfl⟩
    | inf => cases h
    | nan => cases h
  | _ => cases h

end PyVal

/-! ## UUIDs -/

/-- `s.replace(pat, "")`; `skip` characters of an occurrence are left. -/
def dropAll (pat : List Char) : ℕ → List Char → List Char
  | _, [] => []
  | skip + 1, _ :: cs => dropAll pat skip cs
  | 0, c :: cs =>
    if pat.isPrefixOf (c :: cs) then dropAll pat (pat.length - 1) cs else c :: dropAll pat 0 cs

/-- `s.strip(chars)`. -/
def stripChars (p : Char → Bool) (cs : List Char) : List Char :=
  ((cs.dropWhile p).reverse.dropWhile p).reverse

def isHexDigit (c : Char) : Bool :=
  c.isDigit || ('a' ≤ c && c ≤ 'f') || ('A' ≤ c && c ≤ 'F')

/-- Hexadecimal digits with single underscores between them; `gap` at the start or after one. -/
def hexDigits (gap : Bool) : List Char → Bool
  | [] => !gap
  | c :: cs => if c = '_' then !gap && hexDigits true cs else isHexDigit c && hexDigits false cs

def isSpace (c : Char) : Bool :=
  c = ' ' || (9 ≤ c.toNat && c.toNat ≤ 13) || (28 ≤ c.toNat && c.toNat ≤ 31)

/-- `int(text, 16)` does not raise. -/
def hexInt (cs : List Char) : Bool :=
  let cs := stripChars isSpace cs
  let cs := match cs with
    | '+' :: cs | '-' :: cs => cs
    | cs => cs
  match cs with
  | '0' :: 'x' :: '_' :: cs | '0' :: 'X' :: '_' :: cs
  | '0' :: 'x' :: cs | '0' :: 'X' :: cs => hexDigits true cs
  | cs => hexDigits true cs

/-- `uuid.UUID(text, version=4)` does not raise: 32 characters of a number to base 16. The version
bits are set, not checked. -/
def uuidText (text : String) : Bool :=
  let hex := dropAll "uuid:".toList 0 (dropAll "urn:".toList 0 text.toList)
  let hex := (stripChars (fun c => c = '\x7b' || c = '\x7d') hex).filter (· ≠ '-')
  hex.length = 32 && hexInt hex

/-- `uuid.UUID(v, version=4)` does not raise; for no text it raises one of the exceptions its
callers catch. -/
def PyVal.isUuid (v : PyVal) : Bool := v.str?.any uuidText

/-- The value of a hexadecimal digit. -/
def hexDigit (c : Char) : ℕ :=
  if c.isDigit then c.toNat - '0'.toNat
  else if c ≤ 'F' then c.toNat - 'A'.toNat + 10
  else c.toNat - 'a'.toNat + 10

/-- `int(text, 16)` of a text that is a number: what is no digit does not count. -/
def hexValue (cs : List Char) : ℕ := (cs.filter isHexDigit).foldl (fun n c => 16 * n + hexDigit c) 0

/-- `uuid.UUID(text).int`. -/
def uuidInt? (text : String) : Option ℕ :=
  let hex := dropAll "uuid:".toList 0 (dropAll "urn:".toList 0 text.toList)
  if uuidText text then some (hexValue hex) else none

/-- `uuid.UUID(text).version == 4`: the version bits of a UUID of the RFC 4122 variant. -/
def isUuid4 (text : String) : Bool :=
  (uuidInt? text).any fun n => (n >>> 76) % 16 = 4 && (n >>> 62) % 4 = 2

/-- A version 4 UUID in its canonical form. -/
def canonicalUuid4 (text : String) : Bool :=
  let cs := text.toList
  cs.length = 36 &&
    (List.range 36).all fun i =>
      let c := cs.getD i ' '
      if i = 8 || i = 13 || i = 18 || i = 23 then c = '-'
      else if i = 14 then c = '4'
      else if i = 19 then c = '8' || c = '9' || c = 'a' || c = 'b' || c = 'A' || c = 'B'
      else isHexDigit c

end Lib
