import IctAlgo.Lib.Raising

/-!
# `str.format`

Templates as Python's `str.format` reads them, with keyword arguments only: literal text with doubled
braces, and fields `{name!conversion:spec}`. A name is a first word and accessors `.attr` and `[key]`; a
key of digits is an index. What objects answer is a parameter (`Objects`).

* `accessors_write`, `markup_field`: a name of plain words is read as it was written.
* `format_write`: what a template renders is, part by part, what its parts render.
-/

set_option autoImplicit false

namespace Lib.Format

open Lib.Raising

/-! ## Names -/

/-- The characters that mean something in a field. -/
def marks : List Char := ['.', '[', ']', '{', '}', ':', '!']

/-- The classes of characters of identifiers and of numbers. -/
structure Unicode where
  isStart : Char → Bool
  isContinue : Char → Bool
  decimal : Char → Option ℕ
  start_letter : ∀ c : Char, c.isAlpha = true → isStart c = true
  continue_letter : ∀ c : Char, c.isAlpha = true → isContinue c = true
  start_decimal : ∀ c, isStart c = true → decimal c = none
  start_marks : ∀ c ∈ marks, isStart c = false
  continue_marks : ∀ c ∈ marks, isContinue c = false

/-- `text.isidentifier()`. -/
def Unicode.isIdentifier (u : Unicode) (cs : List Char) : Bool :=
  match cs with
  | [] => false
  | c :: cs => u.isStart c && cs.all u.isContinue

inductive Key
  | index (n : ℕ)
  | text (key : String)
  deriving DecidableEq

/-- What objects answer. -/
structure Objects (O : Type) where
  unicode : Unicode
  /-- `repr(text)`. -/
  quote : String → String
  getattr : O → String → Except Raised O
  getitem : O → Key → Except Raised O
  str : O → Except Raised O
  repr : O → Except Raised O
  ascii : O → Except Raised O
  /-- `format(o, spec)`. -/
  format : O → String → Except Raised String

/-- The accessors of a name, up to its end or an error. -/
inductive Accessors
  | done
  | error (text : String)
  | attr (name : List Char) (rest : Accessors)
  | item (key : List Char) (rest : Accessors)

/-- An accessor that is complete. -/
def nonempty (cs : List Char) (a : Accessors) : Accessors :=
  if cs = [] then .error "Empty attribute in format string" else a

mutual

def accessors : List Char → Accessors
  | [] => .done
  | c :: cs =>
    if c = '.' then attrName [] cs
    else if c = '[' then itemKey [] cs
    else .error "Only '.' or '[' may follow ']' in format field specifier"
termination_by structural cs => cs

/-- After a dot, with the name so far. -/
def attrName (name : List Char) : List Char → Accessors
  | [] => nonempty name (.attr name .done)
  | c :: cs =>
    if c = '.' then nonempty name (.attr name (attrName [] cs))
    else if c = '[' then nonempty name (.attr name (itemKey [] cs))
    else attrName (name ++ [c]) cs
termination_by structural cs => cs

/-- After a bracket, with the key so far. -/
def itemKey (key : List Char) : List Char → Accessors
  | [] => .error "Missing ']' in format string"
  | c :: cs =>
    if c = ']' then nonempty key (.item key (accessors cs)) else itemKey (key ++ [c]) cs
termination_by structural cs => cs

end

/-! ## Templates -/

/-- A template, up to its end or an error. -/
inductive Markup
  | done
  | error (text : String)
  | literal (c : Char) (rest : Markup)
  | field (name : List Char) (conversion : Option Char) (spec : List Char) (rest : Markup)

mutual

def markup : List Char → Markup
  | [] => .done
  | '{' :: '{' :: cs => .literal '{' (markup cs)
  | ['{'] => .error "Single '\x7b' encountered in format string"
  | '{' :: cs => fieldName [] cs
  | '}' :: '}' :: cs => .literal '}' (markup cs)
  | '}' :: _ => .error "Single '\x7d' encountered in format string"
  | c :: cs => .literal c (markup cs)
termination_by structural cs => cs

def fieldName (name : List Char) : List Char → Markup
  | [] => .error "expected '\x7d' before end of string"
  | c :: cs =>
    if c = '{' then .error "unexpected '\x7b' in field name"
    else if c = '}' then .field name none [] (markup cs)
    else if c = ':' then formatSpec name none [] 0 cs
    else if c = '!' then conversion name cs
    else if c = '[' then inBrackets (name ++ [c]) cs
    else fieldName (name ++ [c]) cs
termination_by structural cs => cs

/-- No character ends a field before the bracket is closed. -/
def inBrackets (name : List Char) : List Char → Markup
  | [] => .error "expected '\x7d' before end of string"
  | c :: cs => if c = ']' then fieldName (name ++ [c]) cs else inBrackets (name ++ [c]) cs
termination_by structural cs => cs

def conversion (name : List Char) : List Char → Markup
  | [] => .error "end of string while looking for conversion specifier"
  | [_] => .error "unmatched '\x7b' in format spec"
  | c :: d :: cs =>
    if d = '}' then .field name (some c) [] (markup cs)
    else if d = ':' then formatSpec name (some c) [] 0 cs
    else .error "expected ':' after conversion specifier"
termination_by structural cs => cs

/-- A specification ends at the brace that closes the field, `depth` braces further out. -/
def formatSpec (name : List Char) (conv : Option Char) (spec : List Char) (depth : ℕ) :
    List Char → Markup
  | [] => .error "unmatched '\x7b' in format spec"
  | c :: cs =>
    if c = '{' then formatSpec name conv (spec ++ [c]) (depth + 1) cs
    else if c = '}' then
      if depth = 0 then .field name conv spec (markup cs)
      else formatSpec name conv (spec ++ [c]) (depth - 1) cs
    else formatSpec name conv (spec ++ [c]) depth cs
termination_by structural cs => cs

end

/-! ## Rendering -/

def valueError {α : Type} (text : String) : Except Raised α := .error (.shown .valueError text)

/-- `sys.maxsize`. -/
def maxIndex : ℕ := 9223372036854775807

/-- The number that a text of digits is; it must be no larger than any index, up to the first other
character. -/
def number (decimal : Char → Option ℕ) (acc : ℕ) : List Char → Except Raised (Option ℕ)
  | [] => .ok (some acc)
  | c :: cs =>
    match decimal c with
    | none => .ok none
    | some d =>
      if acc * 10 + d > maxIndex then valueError "Too many decimal digits in format string"
      else number decimal (acc * 10 + d) cs

section
variable {O : Type} (ops : Objects O)

def index? (cs : List Char) : Except Raised (Option ℕ) :=
  if cs = [] then .ok none else number ops.unicode.decimal 0 cs

def keyOf (cs : List Char) : Except Raised Key := do
  match ← index? ops cs with
  | some n => return .index n
  | none => return .text (String.ofList cs)

/-- The accessors, one after the other. -/
def walk : Accessors → O → Except Raised O
  | .done, o => .ok o
  | .error text, _ => valueError text
  | .attr name rest, o => do
    let o ← ops.getattr o (String.ofList name)
    walk rest o
  | .item key rest, o => do
    let key ← keyOf ops key
    let o ← ops.getitem o key
    walk rest o

def beforeAccessors (c : Char) : Bool := c ≠ '.' && c ≠ '['

variable (kwargs : String → Option O)

/-- There are no positional arguments. -/
def outOfRange (n : ℕ) : Except Raised O := .error (.shown (.other "IndexError")
  s!"Replacement index {n} out of range for positional args tuple")

/-- The object of a field. -/
def getField (name : List Char) : Except Raised O := do
  let first := name.takeWhile beforeAccessors
  match ← index? ops first with
  | some n => outOfRange n
  | none =>
    if first = [] then outOfRange 0
    else
      match kwargs (String.ofList first) with
      | some o => walk ops (accessors (name.dropWhile beforeAccessors)) o
      | none => .error (.shown (.other "KeyError") (ops.quote (String.ofList first)))

def convert (conv : Option Char) (o : O) : Except Raised O :=
  match conv with
  | none => .ok o
  | some 's' => ops.str o
  | some 'r' => ops.repr o
  | some 'a' => ops.ascii o
  | some c => valueError s!"Unknown conversion specifier {c}"

/-- The text of a template whose specifications are expanded by `expand`. -/
def output (expand : List Char → Except Raised String) : Markup → Except Raised String
  | .done => .ok ""
  | .error text => valueError text
  | .literal c rest => do
    let tail ← output expand rest
    return String.singleton c ++ tail
  | .field name conv spec rest => do
    let o ← getField ops kwargs name
    let o ← convert ops conv o
    let spec ← if '{' ∈ spec then expand spec else .ok (String.ofList spec)
    let text ← ops.format o spec
    let tail ← output expand rest
    return text ++ tail

/-- The text of a template, with fields in specifications up to a depth. -/
def build : ℕ → List Char → Except Raised String
  | 0, _ => valueError "Max string recursion exceeded"
  | depth + 1, template => output ops kwargs (build depth) (markup template)

/-- `template.format(**kwargs)`. -/
def format (template : List Char) : Except Raised String := build ops kwargs 2 template

end

/-! ## Writing names -/

/-- A word of a name: no mark stands in it. -/
def Plain (cs : List Char) : Prop := cs ≠ [] ∧ ∀ c ∈ cs, c ∉ marks

/-- A word that is no number. -/
def NotNumber (u : Unicode) (cs : List Char) : Prop := ∃ c rest, cs = c :: rest ∧ u.decimal c = none

theorem plain_of_isIdentifier {u : Unicode} {cs : List Char} (h : u.isIdentifier cs = true) :
    Plain cs ∧ NotNumber u cs := by
  cases cs with
  | nil => cases h
  | cons c cs =>
    simp only [Unicode.isIdentifier, Bool.and_eq_true, List.all_eq_true] at h
    obtain ⟨hstart, hcontinue⟩ := h
    have hplain : ∀ d ∈ c :: cs, d ∉ marks := by
      intro d hd hmark
      obtain rfl | hd := List.mem_cons.1 hd
      · rw [u.start_marks d hmark] at hstart
        cases hstart
      · have hcont := hcontinue d hd
        rw [u.continue_marks d hmark] at hcont
        cases hcont
    exact ⟨⟨List.cons_ne_nil c cs, hplain⟩, c, cs, rfl, u.start_decimal c hstart⟩

inductive Access
  | attr (name : List Char)
  | item (key : List Char)

namespace Access

def word : Access → List Char
  | attr name => name
  | item key => key

def write : Access → List Char
  | attr name => '.' :: name
  | item key => '[' :: (key ++ [']'])

end Access

/-- The accessors of a path. -/
def accessorsOf : List Access → Accessors
  | [] => .done
  | .attr name :: path => .attr name (accessorsOf path)
  | .item key :: path => .item key (accessorsOf path)

def writePath (path : List Access) : List Char := path.flatMap Access.write

theorem ne_of_notMem_marks {c : Char} (h : c ∉ marks) :
    c ≠ '.' ∧ c ≠ '[' ∧ c ≠ ']' ∧ c ≠ '{' ∧ c ≠ '}' ∧ c ≠ ':' ∧ c ≠ '!' := by
  simpa [marks] using h

/-- A reader that collects the characters of a word until a mark comes. -/
theorem collect_append {α : Type} {f : List Char → List Char → α}
    (hf : ∀ word c cs, c ∉ marks → f word (c :: cs) = f (word ++ [c]) cs) {w : List Char}
    (hw : ∀ c ∈ w, c ∉ marks) (word rest : List Char) : f word (w ++ rest) = f (word ++ w) rest := by
  induction w generalizing word with
  | nil => rw [List.nil_append, List.append_nil]
  | cons c w ih =>
    rw [List.forall_mem_cons] at hw
    rw [List.cons_append, hf word c _ hw.1, ih hw.2, List.append_assoc, List.singleton_append]

section
variable {w : List Char} (hw : ∀ c ∈ w, c ∉ marks)
include hw

theorem attrName_append (name rest : List Char) :
    attrName name (w ++ rest) = attrName (name ++ w) rest := by
  refine collect_append (fun name c cs hc => ?_) hw name rest
  obtain ⟨hdot, hbracket, -⟩ := ne_of_notMem_marks hc
  rw [attrName, if_neg hdot, if_neg hbracket]

theorem itemKey_append (key rest : List Char) :
    itemKey key (w ++ rest) = itemKey (key ++ w) rest := by
  refine collect_append (fun key c cs hc => ?_) hw key rest
  obtain ⟨-, -, hclose, -⟩ := ne_of_notMem_marks hc
  rw [itemKey, if_neg hclose]

theorem fieldName_append (name rest : List Char) :
    fieldName name (w ++ rest) = fieldName (name ++ w) rest := by
  refine collect_append (fun name c cs hc => ?_) hw name rest
  obtain ⟨-, hbracket, -, hopen, hclose, hcolon, hbang⟩ := ne_of_notMem_marks hc
  rw [fieldName, if_neg hopen, if_neg hclose, if_neg hcolon, if_neg hbang, if_neg hbracket]

theorem inBrackets_append (name rest : List Char) :
    inBrackets name (w ++ rest) = inBrackets (name ++ w) rest := by
  refine collect_append (fun name c cs hc => ?_) hw name rest
  obtain ⟨-, -, hclose, -⟩ := ne_of_notMem_marks hc
  rw [inBrackets, if_neg hclose]

end

/-- An attribute ends where the next accessor starts. -/
theorem attrName_writePath (name : List Char) (path : List Access) :
    attrName name (writePath path) = nonempty name (.attr name (accessors (writePath path))) := by
  cases path with
  | nil => rfl
  | cons a path =>
    cases a with
    | attr next => simp [writePath, Access.write, attrName, accessors]
    | item key => simp [writePath, Access.write, attrName, accessors]

theorem nonempty_of_ne {w : List Char} (hw : w ≠ []) (a : Accessors) : nonempty w a = a := if_neg hw

/-- The accessors of plain words are read as they were written. -/
theorem accessors_write {path : List Access} (hpath : ∀ a ∈ path, Plain a.word) :
    accessors (writePath path) = accessorsOf path := by
  induction path with
  | nil => rfl
  | cons a path ih =>
    obtain ⟨⟨hne, hplain⟩, hrest⟩ := List.forall_mem_cons.1 hpath
    cases a with
    | attr name =>
      have hread : accessors (writePath (.attr name :: path)) =
          attrName [] (name ++ writePath path) := by
        simp [writePath, Access.write, accessors]
      rw [hread, attrName_append (w := name) hplain, List.nil_append, attrName_writePath, ih hrest]
      exact nonempty_of_ne hne _
    | item key =>
      have hread : accessors (writePath (.item key :: path)) =
          itemKey [] (key ++ ']' :: writePath path) := by
        simp [writePath, Access.write, accessors]
      rw [hread, itemKey_append (w := key) hplain, List.nil_append, itemKey, if_pos rfl, ih hrest]
      exact nonempty_of_ne hne _

/-- No mark of a written path ends a field. -/
theorem fieldName_writePath {path : List Access} (hpath : ∀ a ∈ path, Plain a.word)
    (name rest : List Char) :
    fieldName name (writePath path ++ rest) = fieldName (name ++ writePath path) rest := by
  induction path generalizing name with
  | nil => simp [writePath]
  | cons a path ih =>
    obtain ⟨⟨-, hplain⟩, hrest⟩ := List.forall_mem_cons.1 hpath
    cases a with
    | attr word =>
      have hread : fieldName name (writePath (.attr word :: path) ++ rest) =
          fieldName (name ++ ['.']) (word ++ (writePath path ++ rest)) := by
        simp [writePath, Access.write, fieldName]
      rw [hread, fieldName_append (w := word) hplain, ih hrest]
      simp [writePath, Access.write]
    | item key =>
      have hread : fieldName name (writePath (.item key :: path) ++ rest) =
          inBrackets (name ++ ['[']) (key ++ ']' :: (writePath path ++ rest)) := by
        simp [writePath, Access.write, fieldName]
      rw [hread, inBrackets_append (w := key) hplain, inBrackets, if_pos rfl, ih hrest]
      simp [writePath, Access.write]

/-- A first word and the accessors after it. -/
structure FieldName where
  first : List Char
  path : List Access

namespace FieldName

def write (f : FieldName) : List Char := f.first ++ writePath f.path

/-- All words are plain, and the first is no number. -/
structure Readable (u : Unicode) (f : FieldName) : Prop where
  first : Plain f.first
  notNumber : NotNumber u f.first
  path : ∀ a ∈ f.path, Plain a.word

end FieldName

/-- A field that is written is read. -/
theorem markup_field {u : Unicode} {f : FieldName} (hf : f.Readable u) (rest : List Char) :
    markup ('{' :: (f.write ++ '}' :: rest)) = .field f.write none [] (markup rest) := by
  obtain ⟨c, cs, hcs⟩ := List.exists_cons_of_ne_nil hf.first.1
  have hc : c ≠ '{' := by
    have hmarks := hf.first.2 c (by rw [hcs]; exact List.mem_cons_self)
    exact (ne_of_notMem_marks hmarks).2.2.2.1
  have hread : markup ('{' :: (f.write ++ '}' :: rest)) = fieldName [] (f.write ++ '}' :: rest) := by
    rw [FieldName.write, hcs, List.cons_append, List.cons_append]
    simp [markup, hc]
  rw [hread, FieldName.write, List.append_assoc, fieldName_append hf.first.2,
    fieldName_writePath hf.path, List.nil_append]
  simp [fieldName]

/-! ## Writing templates -/

/-- A part of a template. -/
inductive Part
  | text (cs : List Char)
  | field (f : FieldName)

/-- Braces are doubled. -/
def escape (cs : List Char) : List Char :=
  cs.flatMap fun c => if c = '{' ∨ c = '}' then [c, c] else [c]

def Part.write : Part → List Char
  | text cs => escape cs
  | field f => '{' :: (f.write ++ ['}'])

def write (parts : List Part) : List Char := parts.flatMap Part.write

section
variable {O : Type} (ops : Objects O) (kwargs : String → Option O)

/-- The object that a field names. -/
def FieldName.object (f : FieldName) : Except Raised O :=
  match kwargs (String.ofList f.first) with
  | some o => walk ops (accessorsOf f.path) o
  | none => .error (.shown (.other "KeyError") (ops.quote (String.ofList f.first)))

/-- The text of a part. -/
def Part.text? : Part → Except Raised String
  | text cs => .ok (String.ofList cs)
  | field f => do
    let o ← f.object ops kwargs
    ops.format o ""

variable {ops kwargs}

theorem index?_of_notNumber {cs : List Char} (h : NotNumber ops.unicode cs) :
    index? ops cs = .ok none := by
  obtain ⟨c, rest, rfl, hc⟩ := h
  simp [index?, number, hc]

theorem takeWhile_first {f : FieldName} {u : Unicode} (hf : f.Readable u) :
    f.write.takeWhile beforeAccessors = f.first ∧
      f.write.dropWhile beforeAccessors = writePath f.path := by
  have hfirst : ∀ c ∈ f.first, beforeAccessors c = true := fun c hc => by
    obtain ⟨hdot, hbracket, -⟩ := ne_of_notMem_marks (hf.first.2 c hc)
    simp [beforeAccessors, hdot, hbracket]
  have hpath : (writePath f.path).takeWhile beforeAccessors = [] ∧
      (writePath f.path).dropWhile beforeAccessors = writePath f.path := by
    cases f.path with
    | nil => exact ⟨rfl, rfl⟩
    | cons a path => cases a <;> simp [writePath, Access.write, beforeAccessors]
  unfold FieldName.write
  rw [List.takeWhile_append_of_pos hfirst, List.dropWhile_append_of_pos hfirst, hpath.1, hpath.2,
    List.append_nil]
  exact ⟨rfl, rfl⟩

theorem getField_write {f : FieldName} (hf : f.Readable ops.unicode) :
    getField ops kwargs f.write = f.object ops kwargs := by
  obtain ⟨hfirst, hrest⟩ := takeWhile_first hf
  unfold getField FieldName.object
  simp only [hfirst, hrest, index?_of_notNumber hf.notNumber, accessors_write hf.path,
    if_neg hf.first.1, bind, Except.bind]

/-- A character of a text is read as a literal. -/
theorem markup_escape_cons (c : Char) (cs rest : List Char) :
    markup (escape (c :: cs) ++ rest) = .literal c (markup (escape cs ++ rest)) := by
  unfold escape
  rw [List.flatMap_cons, List.append_assoc]
  by_cases hopen : c = '{'
  · rw [hopen]
    rfl
  · by_cases hclose : c = '}'
    · rw [hclose]
      rfl
    · rw [if_neg (not_or.2 ⟨hopen, hclose⟩), List.singleton_append]
      simp [markup, hopen, hclose]

/-- Text is rendered as it is. -/
theorem output_escape (expand : List Char → Except Raised String) (cs rest : List Char) :
    output ops kwargs expand (markup (escape cs ++ rest)) = do
      let tail ← output ops kwargs expand (markup rest)
      return String.ofList cs ++ tail := by
  induction cs with
  | nil =>
    change output ops kwargs expand (markup rest) = _
    cases output ops kwargs expand (markup rest) with
    | ok tail => exact congrArg Except.ok (String.empty_append).symm
    | error e => rfl
  | cons c cs ih =>
    rw [markup_escape_cons, output, ih]
    cases output ops kwargs expand (markup rest) with
    | ok tail =>
      have hcons : String.ofList (c :: cs) = String.singleton c ++ String.ofList cs :=
        String.toList_injective (by simp)
      exact congrArg Except.ok (by rw [hcons, String.append_assoc])
    | error e => rfl

/-- A field without a conversion and a specification. -/
theorem output_field (expand : List Char → Except Raised String) {f : FieldName}
    (hf : f.Readable ops.unicode) (rest : List Char) :
    output ops kwargs expand (markup ('{' :: (f.write ++ '}' :: rest))) = do
      let text ← Part.text? ops kwargs (.field f)
      let tail ← output ops kwargs expand (markup rest)
      return text ++ tail := by
  have htext : Part.text? ops kwargs (.field f) =
      f.object ops kwargs >>= fun o => ops.format o "" := rfl
  rw [markup_field hf, output, getField_write hf, htext]
  cases f.object ops kwargs with
  | ok o => simp [convert, bind, Except.bind]
  | error e => rfl

/-- What a template renders is what its parts render, one after the other. -/
theorem output_write (expand : List Char → Except Raised String) {parts : List Part}
    (hparts : ∀ f, .field f ∈ parts → f.Readable ops.unicode) :
    output ops kwargs expand (markup (write parts)) = do
      let texts ← parts.mapM (Part.text? ops kwargs)
      return String.join texts := by
  induction parts with
  | nil => rfl
  | cons part parts ih =>
    have hrest := ih fun f hf => hparts f (List.mem_cons_of_mem _ hf)
    have hpart : output ops kwargs expand (markup (part.write ++ write parts)) = do
        let text ← part.text? ops kwargs
        let tail ← output ops kwargs expand (markup (write parts))
        return text ++ tail := by
      cases part with
      | text cs => exact output_escape expand cs (write parts)
      | field f =>
        have hwrite : Part.write (.field f) ++ write parts =
            '{' :: (f.write ++ '}' :: write parts) := by
          simp [Part.write]
        rw [hwrite]
        exact output_field expand (hparts f List.mem_cons_self) (write parts)
    rw [write, List.flatMap_cons]
    refine hpart.trans ?_
    rw [hrest, List.mapM_cons]
    cases part.text? ops kwargs with
    | error e => rfl
    | ok text =>
      cases parts.mapM (Part.text? ops kwargs) with
      | error e => rfl
      | ok texts => exact congrArg Except.ok (String.join_cons).symm

theorem format_write {parts : List Part} (hparts : ∀ f, .field f ∈ parts → f.Readable ops.unicode) :
    format ops kwargs (write parts) = do
      let texts ← parts.mapM (Part.text? ops kwargs)
      return String.join texts :=
  output_write _ hparts

end

end Lib.Format
