import Mathlib.Data.List.Flatten

/-!
# Escaped texts

`escape` puts a mark before each special character. What reads such a text is a parameter with the rule
that it follows (`Reads`).

* `Reads.escape`: a text without the mark is read as its characters.
* `foldl_replace`: replacing one special character after another comes to the same as one pass.
-/

set_option autoImplicit false

namespace Lib.Escape

/-- `text.replace(c, new)`. -/
def replace (c : Char) (new : List Char) (cs : List Char) : List Char :=
  cs.flatMap fun x => if x = c then new else [x]

section
variable (mark : Char) (special : Char → Bool)

/-- The text with the mark before each special character. -/
def escape (cs : List Char) : List Char :=
  cs.flatMap fun c => if special c then [mark, c] else [c]

end

variable {mark : Char} {special : Char → Bool}

theorem escape_cons (c : Char) (cs : List Char) :
    escape mark special (c :: cs) =
      if special c then mark :: c :: escape mark special cs else c :: escape mark special cs := by
  rw [escape, List.flatMap_cons]
  split <;> rfl

/-! ## Reading -/

/-- What a reader makes of a character: a special one is read as `token` says if the mark precedes it,
any other one but the mark as it stands. -/
structure Reads {τ : Type*} (mark : Char) (special : Char → Bool) (token : Char → τ)
    (read : List Char → List τ) : Prop where
  nil : read [] = []
  escaped : ∀ c cs, special c = true → read (mark :: c :: cs) = token c :: read cs
  plain : ∀ c cs, c ≠ mark → special c = false → read (c :: cs) = token c :: read cs

/-- **What was escaped is read back.** -/
theorem Reads.escape {τ : Type*} {token : Char → τ} {read : List Char → List τ}
    (h : Reads mark special token read) {cs : List Char} (hmark : mark ∉ cs) :
    read (escape mark special cs) = cs.map token := by
  induction cs with
  | nil => exact h.nil
  | cons c cs ih =>
    have hrest := ih fun hmem => hmark (List.mem_cons_of_mem c hmem)
    rw [escape_cons, List.map_cons, ← hrest]
    cases hc : special c with
    | true =>
      rw [if_pos rfl]
      apply h.escaped
      exact hc
    | false =>
      rw [if_neg Bool.false_ne_true]
      apply h.plain
      · rintro rfl
        exact hmark List.mem_cons_self
      · exact hc

/-! ## One replacement after another -/

theorem flatMap_replace {c : Char} {new : List Char} {f g : Char → List Char} (cs : List Char)
    (hc : new.flatMap f = g c) (hother : ∀ x, x ≠ c → f x = g x) :
    (replace c new cs).flatMap f = cs.flatMap g := by
  rw [replace, List.flatMap_assoc]
  congr 1
  funext x
  split
  · next h => rw [hc, h]
  · next h => rw [List.flatMap_singleton, hother x h]

/-- **One pass.** The special characters may be replaced one after another, since none of them is put
in by the others. -/
theorem foldl_replace {chars : List Char} (hnodup : chars.Nodup) (hmark : mark ∉ chars) :
    ∀ cs : List Char, chars.foldl (fun cs c => replace c [mark, c] cs) cs =
      escape mark (fun c => chars.contains c) cs := by
  induction chars with
  | nil => exact fun cs => by simp [escape]
  | cons c chars ih =>
    intro cs
    obtain ⟨hc, hnodup⟩ := List.nodup_cons.1 hnodup
    have hnot : mark ∉ chars := fun h => hmark (List.mem_cons_of_mem c h)
    rw [List.foldl_cons, ih hnodup hnot, escape, escape]
    refine flatMap_replace cs ?_ fun x hx => ?_
    · simp [hc, hnot]
    · simp [hx]

end Lib.Escape
