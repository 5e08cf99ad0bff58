import IctAlgo.Lib.Dict
import IctAlgo.Lib.JsonText

/-!
# JSON documents and lines

`write` is `json.dumps` with its defaults, `read` is `json.loads`. The text of a float is a
parameter of `write`.
`fileLines` are the lines that a file opened for reading gives, each with its end, `\r\n` and `\r`
read as `\n`.

* `read_write`: a document that is written is read back, if its floats denote themselves and no
  object has a key twice.
* `fileLines_writeLines`: the documents that are written to the lines of a file are those read.
* `strip_write`: an object is read back from its line.
-/

set_option autoImplicit false

namespace Lib

inductive Json
  | null
  | bool (b : Bool)
  | num (n : Json.Number)
  | special (c : Json.Special)
  | str (s : String)
  | arr (vs : List Json)
  | obj (fields : List (String × Json))

namespace Json

/-! ## Writing -/

section
variable (repr : ℚ → List Char)

def numberText : Number → List Char
  | .int n => intText n
  | .float x => repr x

mutual

def write : Json → List Char
  | .null => ['n', 'u', 'l', 'l']
  | .bool true => ['t', 'r', 'u', 'e']
  | .bool false => ['f', 'a', 'l', 's', 'e']
  | .num n => numberText repr n
  | .special c => c.text
  | .str s => quote s.toList
  | .arr [] => ['[', ']']
  | .arr (v :: vs) => '[' :: (write v ++ writeMore vs)
  | .obj [] => ['{', '}']
  | .obj (f :: fs) => '{' :: (writeField f ++ writeMoreFields fs)

/-- The elements after the first one. -/
def writeMore : List Json → List Char
  | [] => [']']
  | v :: vs => ',' :: ' ' :: (write v ++ writeMore vs)

def writeField : String × Json → List Char
  | (k, v) => quote k.toList ++ ':' :: ' ' :: write v

/-- The fields after the first one. -/
def writeMoreFields : List (String × Json) → List Char
  | [] => ['}']
  | f :: fs => ',' :: ' ' :: (writeField f ++ writeMoreFields fs)

end

end

/-! ## Reading -/

/-- Whitespace is skipped. -/
def skip (cs : List Char) : List Char := cs.dropWhile fun c => c = ' ' ∨ c = '\t' ∨ c = '\n' ∨ c = '\r'

/-- The text after a character, and whitespace around it. -/
def after? (mark : Char) (cs : List Char) : Option (List Char) :=
  match skip cs with
  | [] => none
  | c :: rest => if c = mark then some (skip rest) else none

/-- The text of an object's fields: of equal keys the last one counts. -/
def ofFields (fields : List (String × Json)) : Json := .obj (Dict.ofItems fields).items

/-- What is left of the values when no number can be read. -/
def negInfinity? : List Char → Option (Json × List Char)
  | '-' :: 'I' :: 'n' :: 'f' :: 'i' :: 'n' :: 'i' :: 't' :: 'y' :: rest => some (.special .negInf, rest)
  | _ => none

mutual

/-- A value, at most `n` steps deep. -/
def value : ℕ → List Char → Option (Json × List Char)
  | 0, _ => none
  | n + 1, cs =>
    match cs with
    | 'n' :: 'u' :: 'l' :: 'l' :: rest => some (.null, rest)
    | 't' :: 'r' :: 'u' :: 'e' :: rest => some (.bool true, rest)
    | 'f' :: 'a' :: 'l' :: 's' :: 'e' :: rest => some (.bool false, rest)
    | 'N' :: 'a' :: 'N' :: rest => some (.special .nan, rest)
    | 'I' :: 'n' :: 'f' :: 'i' :: 'n' :: 'i' :: 't' :: 'y' :: rest => some (.special .inf, rest)
    | '"' :: rest => (string? rest).map fun r => (.str (String.ofList r.1), r.2)
    | '[' :: rest =>
      match after? ']' rest with
      | some rest => some (.arr [], rest)
      | none => do
        let (v, rest) ← value n (skip rest)
        let (vs, rest) ← moreValues n rest
        return (.arr (v :: vs), rest)
    | '{' :: rest =>
      match after? '}' rest with
      | some rest => some (.obj [], rest)
      | none => do
        let (f, rest) ← field n (skip rest)
        let (fs, rest) ← moreFields n rest
        return (ofFields (f :: fs), rest)
    | cs =>
      match number? cs with
      | some (m, rest) => some (.num m, rest)
      | none => negInfinity? cs

def moreValues : ℕ → List Char → Option (List Json × List Char)
  | 0, _ => none
  | n + 1, cs =>
    match skip cs with
    | ']' :: rest => some ([], rest)
    | ',' :: rest => do
      let (v, rest) ← value n (skip rest)
      let (vs, rest) ← moreValues n rest
      return (v :: vs, rest)
    | _ => none

def field : ℕ → List Char → Option ((String × Json) × List Char)
  | 0, _ => none
  | n + 1, cs =>
    match cs with
    | '"' :: rest => do
      let (k, rest) ← string? rest
      let rest ← after? ':' rest
      let (v, rest) ← value n rest
      return ((String.ofList k, v), rest)
    | _ => none

def moreFields : ℕ → List Char → Option (List (String × Json) × List Char)
  | 0, _ => none
  | n + 1, cs =>
    match skip cs with
    | '}' :: rest => some ([], rest)
    | ',' :: rest => do
      let (f, rest) ← field n (skip rest)
      let (fs, rest) ← moreFields n rest
      return (f :: fs, rest)
    | _ => none

end

/-- `json.loads(text)`; `none` for a `JSONDecodeError`. -/
def read (cs : List Char) : Option Json := do
  let (v, rest) ← value (cs.length + 1) (skip cs)
  if skip rest = [] then return v else none

/-! ## Reading what is written -/

section
variable {repr : ℚ → List Char}

inductive Writable (repr : ℚ → List Char) : Json → Prop
  | null : Writable repr .null
  | bool (b : Bool) : Writable repr (.bool b)
  | int (n : ℤ) : Writable repr (.num (.int n))
  | float {x : ℚ} (h : Literal (repr x) x) : Writable repr (.num (.float x))
  | special (c : Special) : Writable repr (.special c)
  | str (s : String) : Writable repr (.str s)
  | arr {vs : List Json} (h : ∀ v ∈ vs, Writable repr v) : Writable repr (.arr vs)
  | obj {fields : List (String × Json)} (hkeys : (fields.map Prod.fst).Nodup)
      (h : ∀ f ∈ fields, Writable repr f.2) : Writable repr (.obj fields)

theorem skip_cons {c : Char} (h : ¬(c = ' ' ∨ c = '\t' ∨ c = '\n' ∨ c = '\r')) (cs : List Char) :
    skip (c :: cs) = c :: cs := by
  unfold skip
  rw [List.dropWhile_cons_of_neg]
  simpa using h

theorem skip_blank (cs : List Char) : skip (' ' :: cs) = skip cs := rfl

theorem skip_ends {cs : List Char} (h : Ends cs) : skip cs = cs := by
  cases cs with
  | nil => rfl
  | cons c cs =>
    apply skip_cons
    rcases h c rfl with rfl | rfl | rfl <;> decide

/-- A character that is no whitespace and closes nothing. -/
def Opens (c : Char) : Prop := ¬(c = ' ' ∨ c = '\t' ∨ c = '\n' ∨ c = '\r') ∧ c ≠ ']' ∧ c ≠ '}'

theorem StartsNumber.opens {c : Char} (h : StartsNumber c) : Opens c := by
  have hne {d : Char} (hd : d ≠ '-' ∧ d.isDigit = false) : c ≠ d := by
    rintro rfl
    rcases h with h | h
    · exact hd.1 h
    · exact absurd (h.symm.trans hd.2) (by decide)
  refine ⟨?_, hne (by decide), hne (by decide)⟩
  rintro (h | h | h | h) <;> exact absurd h (hne (by decide))

theorem Writable.opens {v : Json} (h : Writable repr v) : ∃ c cs, write repr v = c :: cs ∧ Opens c := by
  cases h with
  | null => exact ⟨_, _, rfl, by decide, by decide, by decide⟩
  | bool b => cases b <;> exact ⟨_, _, rfl, by decide, by decide, by decide⟩
  | int n =>
    obtain ⟨c, cs, htext, hc⟩ := startsNumber_intText n
    exact ⟨c, cs, htext, hc.opens⟩
  | float hx =>
    obtain ⟨c, cs, htext, hc⟩ := hx.starts
    exact ⟨c, cs, htext, hc.opens⟩
  | special c => cases c <;> exact ⟨_, _, rfl, by decide, by decide, by decide⟩
  | str s => exact ⟨_, _, rfl, by decide, by decide, by decide⟩
  | @arr vs h => cases vs <;> exact ⟨_, _, rfl, by decide, by decide, by decide⟩
  | @obj fs _ h => cases fs <;> exact ⟨_, _, rfl, by decide, by decide, by decide⟩

theorem Writable.length_pos {v : Json} (h : Writable repr v) : 0 < (write repr v).length := by
  obtain ⟨c, cs, htext, -⟩ := h.opens
  rw [htext]
  exact Nat.succ_pos _

theorem exists_step {n k : ℕ} (hk : 0 < k) (h : k ≤ n) : ∃ m, n = m + 1 :=
  Nat.exists_eq_succ_of_ne_zero (Nat.ne_of_gt (Nat.lt_of_lt_of_le hk h))

theorem Writable.skip {v : Json} (h : Writable repr v) (rest : List Char) :
    skip (write repr v ++ rest) = write repr v ++ rest := by
  obtain ⟨c, cs, htext, hc⟩ := h.opens
  rw [htext, List.cons_append, skip_cons hc.1]

theorem after?_self {c : Char} (h : ¬(c = ' ' ∨ c = '\t' ∨ c = '\n' ∨ c = '\r')) (cs : List Char) :
    after? c (c :: cs) = some (Json.skip cs) := by
  unfold after?
  rw [skip_cons h]
  exact if_pos rfl

theorem after?_ne {c mark : Char} (h : ¬(c = ' ' ∨ c = '\t' ∨ c = '\n' ∨ c = '\r')) (hne : c ≠ mark)
    (cs : List Char) : after? mark (c :: cs) = none := by
  unfold after?
  rw [skip_cons h]
  exact if_neg hne

/-- A value is read back from its text, if there are as many steps as characters. -/
def ReadsBack (repr : ℚ → List Char) (v : Json) : Prop :=
  ∀ {n : ℕ} {rest : List Char}, (write repr v).length ≤ n → Ends rest →
    value n (write repr v ++ rest) = some (v, rest)

theorem value_number {n : ℕ} {cs rest : List Char} {c : Char} {m : Number} (hc : StartsNumber c)
    (h : number? (c :: cs) = some (m, rest)) : value (n + 1) (c :: cs) = some (.num m, rest) := by
  have hne {d : Char} (hd : d ≠ '-' ∧ d.isDigit = false) : c ≠ d := by
    rintro rfl
    rcases hc with h | h
    · exact hd.1 h
    · exact absurd (h.symm.trans hd.2) (by decide)
  unfold value
  split
  · rename_i heq
    exact absurd (List.cons.inj heq).1 (hne (by decide))
  · rename_i heq
    exact absurd (List.cons.inj heq).1 (hne (by decide))
  · rename_i heq
    exact absurd (List.cons.inj heq).1 (hne (by decide))
  · rename_i heq
    exact absurd (List.cons.inj heq).1 (hne (by decide))
  · rename_i heq
    exact absurd (List.cons.inj heq).1 (hne (by decide))
  · rename_i heq
    exact absurd (List.cons.inj heq).1 (hne (by decide))
  · rename_i heq
    exact absurd (List.cons.inj heq).1 (hne (by decide))
  · rename_i heq
    exact absurd (List.cons.inj heq).1 (hne (by decide))
  · rw [h]

variable (repr) in
theorem ends_writeMore (vs : List Json) (rest : List Char) : Ends (writeMore repr vs ++ rest) := by
  intro c hc
  cases vs with
  | nil => exact .inr (.inl (Option.some.inj hc).symm)
  | cons v vs => exact .inl (Option.some.inj hc).symm

variable (repr) in
theorem ends_writeMoreFields (fs : List (String × Json)) (rest : List Char) :
    Ends (writeMoreFields repr fs ++ rest) := by
  intro c hc
  cases fs with
  | nil => exact .inr (.inr (Option.some.inj hc).symm)
  | cons f fs => exact .inl (Option.some.inj hc).symm

theorem moreValues_write {vs : List Json} (hw : ∀ v ∈ vs, Writable repr v)
    (h : ∀ v ∈ vs, ReadsBack repr v) (rest : List Char) : ∀ {n : ℕ}, (writeMore repr vs).length ≤ n →
      moreValues n (writeMore repr vs ++ rest) = some (vs, rest) := by
  induction vs with
  | nil =>
    intro n hn
    obtain ⟨n, rfl⟩ := exists_step (Nat.succ_pos _) hn
    simp only [writeMore, List.cons_append, List.nil_append, moreValues]
    rw [skip_cons (by decide)]
    rfl
  | cons v vs ih =>
    intro n hn
    simp only [writeMore, List.length_cons, List.length_append] at hn
    obtain ⟨n, rfl⟩ := exists_step (Nat.succ_pos _) hn
    have hv := h v (List.mem_cons_self ..) (n := n) (by omega) (ends_writeMore repr vs rest)
    have hvs := ih (fun v hv => hw v (List.mem_cons_of_mem _ hv))
      (fun v hv => h v (List.mem_cons_of_mem _ hv)) (n := n) (by omega)
    simp only [writeMore, List.cons_append, List.append_assoc, moreValues]
    rw [skip_cons (by decide)]
    simp only [skip_blank, (hw v (List.mem_cons_self ..)).skip, hv, hvs, Option.bind_eq_bind,
      Option.bind_some]
    rfl

theorem field_write {f : String × Json} (hw : Writable repr f.2) (h : ReadsBack repr f.2) {n : ℕ}
    {rest : List Char} (hn : (writeField repr f).length ≤ n) (hrest : Ends rest) :
    field n (writeField repr f ++ rest) = some (f, rest) := by
  obtain ⟨k, v⟩ := f
  simp only [writeField, quote, List.cons_append, List.length_cons, List.length_append] at hn
  obtain ⟨n, rfl⟩ := exists_step (Nat.succ_pos _) hn
  have hle : (write repr v).length ≤ n := by omega
  have hv := h hle hrest
  simp only [writeField, quote, List.cons_append, List.append_assoc, List.nil_append, field,
    string?_quote, Option.bind_eq_bind, Option.bind_some, after?_self (c := ':') (by decide),
    skip_blank, hw.skip, hv, String.ofList_toList]
  rfl

variable (repr) in
theorem writeField_quote (f : String × Json) : ∃ cs, writeField repr f = '"' :: cs := by
  obtain ⟨k, v⟩ := f
  simp only [writeField, quote, List.cons_append]
  exact ⟨_, rfl⟩

theorem skip_field (f : String × Json) (rest : List Char) :
    skip (writeField repr f ++ rest) = writeField repr f ++ rest := by
  obtain ⟨cs, htext⟩ := writeField_quote repr f
  rw [htext]
  exact skip_cons (by decide) _

theorem moreFields_write {fs : List (String × Json)} (hw : ∀ f ∈ fs, Writable repr f.2)
    (h : ∀ f ∈ fs, ReadsBack repr f.2) (rest : List Char) : ∀ {n : ℕ},
      (writeMoreFields repr fs).length ≤ n →
      moreFields n (writeMoreFields repr fs ++ rest) = some (fs, rest) := by
  induction fs with
  | nil =>
    intro n hn
    obtain ⟨n, rfl⟩ := exists_step (Nat.succ_pos _) hn
    simp only [writeMoreFields, List.cons_append, List.nil_append, moreFields]
    rw [skip_cons (by decide)]
    rfl
  | cons f fs ih =>
    intro n hn
    simp only [writeMoreFields, List.length_cons, List.length_append] at hn
    obtain ⟨n, rfl⟩ := exists_step (Nat.succ_pos _) hn
    have hf := field_write (hw f (List.mem_cons_self ..)) (h f (List.mem_cons_self ..)) (n := n)
      (by omega) (ends_writeMoreFields repr fs rest)
    have hfs := ih (fun f hf => hw f (List.mem_cons_of_mem _ hf))
      (fun f hf => h f (List.mem_cons_of_mem _ hf)) (n := n) (by omega)
    simp only [writeMoreFields, List.cons_append, List.append_assoc, moreFields]
    rw [skip_cons (by decide)]
    simp only [skip_blank, skip_field, hf, hfs, Option.bind_eq_bind, Option.bind_some]
    rfl

theorem ofFields_of_nodup {fields : List (String × Json)} (h : (fields.map Prod.fst).Nodup) :
    ofFields fields = .obj fields := congrArg Json.obj (Dict.items_ofItems h)

theorem readsBack_arr {vs : List Json} (hw : ∀ v ∈ vs, Writable repr v)
    (h : ∀ v ∈ vs, ReadsBack repr v) : ReadsBack repr (.arr vs) := by
  intro n rest hn hrest
  cases vs with
  | nil =>
    obtain ⟨n, rfl⟩ := exists_step (Nat.succ_pos _) hn
    simp only [write, List.cons_append, List.nil_append, value, after?_self (c := ']') (by decide),
      skip_ends hrest]
  | cons v vs =>
    simp only [write, List.length_cons, List.length_append] at hn
    obtain ⟨n, rfl⟩ := exists_step (Nat.succ_pos _) hn
    have hv := h v (List.mem_cons_self ..) (n := n) (by omega) (ends_writeMore repr vs rest)
    have hvs := moreValues_write (fun v hv => hw v (List.mem_cons_of_mem _ hv))
      (fun v hv => h v (List.mem_cons_of_mem _ hv)) rest (n := n) (by omega)
    obtain ⟨c, cs, htext, hc⟩ := (hw v (List.mem_cons_self ..)).opens
    have hclose : after? ']' (write repr v ++ (writeMore repr vs ++ rest)) = none := by
      rw [htext, List.cons_append, after?_ne hc.1 hc.2.1]
    simp only [write, List.cons_append, List.append_assoc, value, hclose,
      (hw v (List.mem_cons_self ..)).skip, hv, hvs, Option.bind_eq_bind, Option.bind_some]
    rfl

theorem readsBack_obj {fs : List (String × Json)} (hkeys : (fs.map Prod.fst).Nodup)
    (hw : ∀ f ∈ fs, Writable repr f.2) (h : ∀ f ∈ fs, ReadsBack repr f.2) :
    ReadsBack repr (.obj fs) := by
  intro n rest hn hrest
  cases fs with
  | nil =>
    obtain ⟨n, rfl⟩ := exists_step (Nat.succ_pos _) hn
    simp only [write, List.cons_append, List.nil_append, value, after?_self (c := '}') (by decide),
      skip_ends hrest]
  | cons f fs =>
    simp only [write, List.length_cons, List.length_append] at hn
    obtain ⟨n, rfl⟩ := exists_step (Nat.succ_pos _) hn
    have hf := field_write (hw f (List.mem_cons_self ..)) (h f (List.mem_cons_self ..)) (n := n)
      (by omega) (ends_writeMoreFields repr fs rest)
    have hfs := moreFields_write (fun f hf => hw f (List.mem_cons_of_mem _ hf))
      (fun f hf => h f (List.mem_cons_of_mem _ hf)) rest (n := n) (by omega)
    have hclose : after? '}' (writeField repr f ++ (writeMoreFields repr fs ++ rest)) = none := by
      obtain ⟨cs, htext⟩ := writeField_quote repr f
      rw [htext]
      exact after?_ne (by decide) (by decide) _
    simp only [write, List.cons_append, List.append_assoc, value, hclose, skip_field, hf, hfs,
      Option.bind_eq_bind, Option.bind_some, ofFields_of_nodup hkeys]
    rfl

theorem Writable.readsBack {v : Json} (h : Writable repr v) : ReadsBack repr v := by
  induction h with
  | null =>
    intro n rest hn _
    obtain ⟨n, rfl⟩ := exists_step (Nat.succ_pos _) hn
    rfl
  | bool b =>
    intro n rest hn _
    cases b with
    | true =>
      obtain ⟨n, rfl⟩ := exists_step (Nat.succ_pos _) hn
      rfl
    | false =>
      obtain ⟨n, rfl⟩ := exists_step (Nat.succ_pos _) hn
      rfl
  | int z =>
    intro n rest hn hrest
    obtain ⟨c, cs, htext, hc⟩ := startsNumber_intText z
    have hread := number?_int z hrest
    simp only [write, numberText] at hn ⊢
    rw [htext] at hn hread ⊢
    obtain ⟨n, rfl⟩ := exists_step (Nat.succ_pos _) hn
    exact value_number hc hread
  | @float x hx =>
    intro n rest hn hrest
    obtain ⟨c, cs, htext, hc⟩ := hx.starts
    have hread := hx.reads hrest
    simp only [write, numberText] at hn ⊢
    rw [htext] at hn hread ⊢
    obtain ⟨n, rfl⟩ := exists_step (Nat.succ_pos _) hn
    exact value_number hc hread
  | special c =>
    intro n rest hn _
    have hpos : 0 < (write repr (.special c)).length := by cases c <;> exact Nat.succ_pos _
    obtain ⟨n, rfl⟩ := exists_step hpos hn
    cases c <;> rfl
  | str s =>
    intro n rest hn _
    obtain ⟨n, rfl⟩ := exists_step (Nat.succ_pos _) hn
    simp only [write, quote, List.cons_append, List.append_assoc, List.nil_append, value,
      string?_quote, Option.map_some, String.ofList_toList]
  | arr hw ih => exact readsBack_arr hw ih
  | obj hkeys hw ih => exact readsBack_obj hkeys hw ih

/-- **A document that is written is read back.** -/
theorem read_write {v : Json} (h : Writable repr v) : read (write repr v) = some v := by
  have hends : Ends [] := fun c hc => (by cases hc)
  have hvalue := h.readsBack (n := (write repr v).length + 1) (Nat.le_succ _) hends
  have hskip := h.skip []
  rw [List.append_nil] at hvalue hskip
  simp only [read, hskip, hvalue, Option.bind_eq_bind, Option.bind_some]
  rfl

/-! ## On one line -/

theorem oneLine_writeMore {vs : List Json} (h : ∀ v ∈ vs, OneLine (write repr v)) :
    OneLine (writeMore repr vs) := by
  induction vs with
  | nil => exact .cons (by decide) oneLine_nil
  | cons v vs ih =>
    have hvs := ih fun v hv => h v (List.mem_cons_of_mem _ hv)
    exact .cons (by decide) (.cons (by decide) ((h v (List.mem_cons_self ..)).append hvs))

theorem oneLine_writeField {f : String × Json} (h : OneLine (write repr f.2)) :
    OneLine (writeField repr f) := by
  obtain ⟨k, v⟩ := f
  exact (oneLine_quote k.toList).append (.cons (by decide) (.cons (by decide) h))

theorem oneLine_writeMoreFields {fs : List (String × Json)} (h : ∀ f ∈ fs, OneLine (write repr f.2)) :
    OneLine (writeMoreFields repr fs) := by
  induction fs with
  | nil => exact .cons (by decide) oneLine_nil
  | cons f fs ih =>
    have hf := oneLine_writeField (h f (List.mem_cons_self ..))
    have hfs := ih fun f hf => h f (List.mem_cons_of_mem _ hf)
    exact .cons (by decide) (.cons (by decide) (hf.append hfs))

theorem Writable.oneLine {v : Json} (h : Writable repr v) : OneLine (write repr v) := by
  induction h with
  | null => simp [OneLine, write]
  | bool b => cases b <;> simp [OneLine, write]
  | int n => exact oneLine_intText n
  | float hx => exact hx.oneLine
  | special c => cases c <;> simp [OneLine, write, Special.text]
  | str s => exact oneLine_quote s.toList
  | @arr vs hw ih =>
    cases vs with
    | nil => exact .cons (by decide) (.cons (by decide) oneLine_nil)
    | cons v vs =>
      have hvs := oneLine_writeMore fun v hv => ih v (List.mem_cons_of_mem _ hv)
      exact .cons (by decide) ((ih v (List.mem_cons_self ..)).append hvs)
  | @obj fs hkeys hw ih =>
    cases fs with
    | nil => exact .cons (by decide) (.cons (by decide) oneLine_nil)
    | cons f fs =>
      have hf := oneLine_writeField (ih f (List.mem_cons_self ..))
      have hfs := oneLine_writeMoreFields fun f hf => ih f (List.mem_cons_of_mem _ hf)
      exact .cons (by decide) (hf.append hfs)

variable (repr) in
theorem writeMoreFields_braces (fs : List (String × Json)) :
    ∃ cs, writeMoreFields repr fs = cs ++ ['}'] := by
  induction fs with
  | nil => exact ⟨[], rfl⟩
  | cons f fs ih =>
    obtain ⟨cs, htext⟩ := ih
    refine ⟨',' :: ' ' :: (writeField repr f ++ cs), ?_⟩
    simp only [writeMoreFields, htext, List.cons_append, List.append_assoc]

variable (repr) in
theorem write_braces (fs : List (String × Json)) :
    ∃ cs, write repr (.obj fs) = '{' :: (cs ++ ['}']) := by
  cases fs with
  | nil => exact ⟨[], rfl⟩
  | cons f fs =>
    obtain ⟨cs, htext⟩ := writeMoreFields_braces repr fs
    refine ⟨writeField repr f ++ cs, ?_⟩
    simp only [write, htext, List.append_assoc]

end

/-! ## Lines -/

/-- The universal newlines. -/
def universal : List Char → List Char
  | [] => []
  | '\r' :: '\n' :: cs => '\n' :: universal cs
  | c :: cs => (if c = '\r' then '\n' else c) :: universal cs

/-- The lines from one on whose start has been read. -/
def linesFrom (line : List Char) : List Char → List (List Char)
  | [] => if line = [] then [] else [line]
  | c :: cs => if c = '\n' then (line ++ [c]) :: linesFrom [] cs else linesFrom (line ++ [c]) cs

/-- `for line in f`. -/
def fileLines (cs : List Char) : List (List Char) := linesFrom [] (universal cs)

/-- `f.write(json.dumps(v) + '\n')` for each document. -/
def writeLines (repr : ℚ → List Char) (docs : List Json) : List Char :=
  docs.flatMap fun v => write repr v ++ ['\n']

/-! ## The lines that are written -/

theorem universal_line {cs : List Char} (h : OneLine cs) (rest : List Char) :
    universal (cs ++ '\n' :: rest) = cs ++ '\n' :: universal rest := by
  induction cs with
  | nil => simp [universal]
  | cons c cs ih =>
    have hc : c ≠ '\r' := (h c (List.mem_cons_self ..)).2
    have htail := ih fun d hd => h d (List.mem_cons_of_mem _ hd)
    rw [List.cons_append, universal, htail, if_neg hc, List.cons_append]
    rintro _ rfl
    exact absurd rfl hc

theorem linesFrom_line {cs : List Char} (h : OneLine cs) (line rest : List Char) :
    linesFrom line (cs ++ '\n' :: rest) = (line ++ cs ++ ['\n']) :: linesFrom [] rest := by
  induction cs generalizing line with
  | nil => simp [linesFrom]
  | cons c cs ih =>
    have hc : c ≠ '\n' := (h c (List.mem_cons_self ..)).1
    rw [List.cons_append, linesFrom, if_neg hc, ih fun d hd => h d (List.mem_cons_of_mem _ hd)]
    simp

theorem fileLines_cons {cs : List Char} (h : OneLine cs) (rest : List Char) :
    fileLines (cs ++ '\n' :: rest) = (cs ++ ['\n']) :: fileLines rest := by
  unfold fileLines
  rw [universal_line h, linesFrom_line h, List.nil_append]

/-- The lines of a file are the documents written to it. -/
theorem fileLines_writeLines {repr : ℚ → List Char} {docs : List Json}
    (h : ∀ v ∈ docs, Writable repr v) :
    fileLines (writeLines repr docs) = docs.map fun v => write repr v ++ ['\n'] := by
  induction docs with
  | nil => rfl
  | cons v docs ih =>
    have htail := ih fun v hv => h v (List.mem_cons_of_mem _ hv)
    unfold writeLines at htail ⊢
    rw [List.flatMap_cons, List.append_assoc, List.singleton_append,
      fileLines_cons (h v (List.mem_cons_self ..)).oneLine, htail, List.map_cons]

/-- A stripped line of an object is its text. -/
theorem strip_write {repr : ℚ → List Char} (fields : List (String × Json)) :
    Strptime.strip (write repr (.obj fields) ++ ['\n']) = write repr (.obj fields) := by
  obtain ⟨cs, htext⟩ := write_braces repr fields
  have hopen : Strptime.isWhitespace '{' = false := by decide
  have hclose : Strptime.isWhitespace '}' = false := by decide
  have hline : Strptime.isWhitespace '\n' = true := by decide
  rw [htext, Strptime.strip, List.cons_append, List.dropWhile_cons_of_neg (by simp [hopen])]
  simp [List.reverse_append, hclose, hline]

end Json

end Lib
