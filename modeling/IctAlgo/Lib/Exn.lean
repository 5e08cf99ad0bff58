import Mathlib.Order.Defs.Unbundled

/-!
# State and exceptions

Programs with a mutable state whose exceptions keep what was written before them: core's
`EStateM ε σ`, with the default backtracking (none). `wp m Q E s`: run from `s`, `m` ends in `Q`
with its value and final state, or raises into `E` with the exception and the state it left.
The rules below execute a `do` block symbolically, one statement at a time.
-/

set_option autoImplicit false

namespace Lib.Exn

variable {ε σ α β : Type}

/-- What a run of `m` from `s` ends in. -/
def wp (m : EStateM ε σ α) (Q : α → σ → Prop) (E : ε → σ → Prop) (s : σ) : Prop :=
  match m.run s with
  | .ok a s' => Q a s'
  | .error e s' => E e s'

instance {m : EStateM ε σ α} {Q : α → σ → Prop} {E : ε → σ → Prop} {s : σ}
    [∀ a s', Decidable (Q a s')] [∀ e s', Decidable (E e s')] : Decidable (wp m Q E s) :=
  match h : m.run s with
  | .ok a s' => decidable_of_iff (Q a s') (by rw [wp, h])
  | .error e s' => decidable_of_iff (E e s') (by rw [wp, h])

/-! ## Rules -/

section
variable {Q Q' : α → σ → Prop} {E E' : ε → σ → Prop} {s : σ}

@[simp] theorem wp_pure (a : α) : wp (pure a : EStateM ε σ α) Q E s ↔ Q a s := Iff.rfl

theorem pure_injective (s : σ) {a b : α} (h : (pure a : EStateM ε σ α) = pure b) : a = b :=
  (EStateM.Result.ok.inj (congrFun h s)).1

@[simp] theorem wp_throw (e : ε) : wp (throw e : EStateM ε σ α) Q E s ↔ E e s := Iff.rfl

@[simp] theorem wp_bind (m : EStateM ε σ α) (f : α → EStateM ε σ β) {R : β → σ → Prop} :
    wp (m >>= f) R E s ↔ wp m (fun a s' => wp (f a) R E s') E s := by
  simp only [wp, EStateM.run_bind]
  cases m.run s <;> rfl

@[simp] theorem wp_map (f : α → β) (m : EStateM ε σ α) {R : β → σ → Prop} :
    wp (f <$> m) R E s ↔ wp m (fun a => R (f a)) E s := by
  have hrun : (f <$> m).run s = match m.run s with
      | .ok a s' => .ok (f a) s'
      | .error e s' => .error e s' := by
    simp only [Functor.map, EStateM.map, EStateM.run]
    cases m s <;> rfl
  simp only [wp, hrun]
  cases m.run s <;> rfl

@[simp] theorem wp_get {R : σ → σ → Prop} : wp (get : EStateM ε σ σ) R E s ↔ R s s := Iff.rfl

@[simp] theorem wp_set (s' : σ) {R : PUnit → σ → Prop} :
    wp (set s' : EStateM ε σ PUnit) R E s ↔ R ⟨⟩ s' := Iff.rfl

@[simp] theorem wp_modify (f : σ → σ) {R : PUnit → σ → Prop} :
    wp (modify f : EStateM ε σ PUnit) R E s ↔ R ⟨⟩ (f s) := Iff.rfl

@[simp] theorem wp_ite (c : Prop) [Decidable c] (m n : EStateM ε σ α) :
    wp (if c then m else n) Q E s ↔ if c then wp m Q E s else wp n Q E s := by
  split <;> rfl

/-- `try m except e: h e`: the handler runs in the state `m` left. -/
@[simp] theorem wp_tryCatch (m : EStateM ε σ α) (h : ε → EStateM ε σ α) :
    wp (tryCatch m h) Q E s ↔ wp m Q (fun e s' => wp (h e) Q E s') s := by
  have hrun : (tryCatch m h : EStateM ε σ α).run s = match m.run s with
      | .ok a s' => .ok a s'
      | .error e s' => (h e).run s' := by
    change EStateM.tryCatch m h s = match m s with
      | .ok a s' => .ok a s'
      | .error e s' => h e s'
    delta EStateM.tryCatch
    cases m s <;> rfl
  simp only [wp, hrun]
  cases m.run s <;> rfl

/-- What a program ends in depends on its run alone. -/
theorem wp_congr {m n : EStateM ε σ α} (h : m.run s = n.run s) : wp m Q E s ↔ wp n Q E s := by
  unfold wp
  rw [h]

/-- Run `m` on the part `part` of the state and put its final state back. -/
def zoom {τ : Type} (part : σ → τ) (put : σ → τ → σ) (m : EStateM ε τ α) : EStateM ε σ α := fun s =>
  match m.run (part s) with
  | .ok a t => .ok a (put s t)
  | .error e t => .error e (put s t)

@[simp] theorem wp_zoom {τ : Type} (part : σ → τ) (put : σ → τ → σ) (m : EStateM ε τ α) :
    wp (zoom part put m) Q E s ↔
      wp m (fun a t => Q a (put s t)) (fun e t => E e (put s t)) (part s) := by
  simp only [wp, zoom, EStateM.run]
  cases m (part s) <;> rfl

/-- The rule of consequence. -/
theorem wp_mono {m : EStateM ε σ α} (h : wp m Q E s) (hq : ∀ a s', Q a s' → Q' a s')
    (he : ∀ e s', E e s' → E' e s') : wp m Q' E' s := by
  unfold wp at h ⊢
  cases hm : m.run s with
  | ok a s' => rw [hm] at h; exact hq a s' h
  | error e s' => rw [hm] at h; exact he e s' h

theorem wp_and {m : EStateM ε σ α} (h : wp m Q E s) (h' : wp m Q' E' s) :
    wp m (fun a s' => Q a s' ∧ Q' a s') (fun e s' => E e s' ∧ E' e s') s := by
  unfold wp at h h' ⊢
  cases hm : m.run s with
  | ok a s' => rw [hm] at h h'; exact ⟨h, h'⟩
  | error e s' => rw [hm] at h h'; exact ⟨h, h'⟩

end

/-! ## Runs that return -/

/-- From `s`, `m` returns, with `Q` of its value and final state. -/
abbrev Ensures (m : EStateM ε σ α) (Q : α → σ → Prop) (s : σ) : Prop := wp m Q (fun _ _ => False) s

section
variable {m : EStateM ε σ α} {Q Q' : α → σ → Prop} {s : σ}

theorem Ensures.mono (h : Ensures m Q s) (hq : ∀ a s', Q a s' → Q' a s') : Ensures m Q' s :=
  wp_mono h hq fun _ _ => id

theorem Ensures.and (h : Ensures m Q s) (h' : Ensures m Q' s) :
    Ensures m (fun a s' => Q a s' ∧ Q' a s') s :=
  wp_mono (wp_and h h') (fun _ _ => id) fun _ _ h => h.1

theorem Ensures.exists (h : Ensures m Q s) : ∃ a s', m.run s = .ok a s' ∧ Q a s' := by
  unfold Ensures wp at h
  split at h
  · rename_i a s' hrun
    exact ⟨a, s', hrun, h⟩
  · exact h.elim

/-- A property of the end that the run itself decides. -/
theorem Ensures.iff {p : Prop} (h : Ensures m (fun a s' => Q a s' ↔ p) s) : Ensures m Q s ↔ p := by
  refine ⟨fun hq => ?_, fun hp => ?_⟩
  · obtain ⟨a, s', -, hq, hi⟩ := (hq.and h).exists
    exact hi.1 hq
  · exact h.mono fun a s' hi => hi.2 hp

/-- The state `m` leaves, also when it raises. -/
def exec (m : EStateM ε σ α) (s : σ) : σ :=
  match m.run s with
  | .ok _ s' => s'
  | .error _ s' => s'

/-- What every end of `m` satisfies holds of the state it leaves. -/
theorem wp_exec {P : σ → Prop} (h : wp m (fun _ => P) (fun _ => P) s) : P (exec m s) := by
  unfold wp at h
  unfold Exn.exec
  cases hrun : m.run s with
  | ok a s' => rwa [hrun] at h
  | error e s' => rwa [hrun] at h

theorem Ensures.exec (h : Ensures m Q s) : ∃ a, Q a (Exn.exec m s) := by
  obtain ⟨a, s', hrun, hq⟩ := h.exists
  exact ⟨a, by rwa [Exn.exec, hrun]⟩

end

/-! ## What a program keeps -/

/-- However `m` ends, the state it leaves is related to the one it began in. -/
def Keeps (R : σ → σ → Prop) (m : EStateM ε σ α) : Prop := ∀ s, wp m (fun _ => R s) (fun _ => R s) s

namespace Keeps

variable {R : σ → σ → Prop} {m : EStateM ε σ α}

theorem of_modify {f : σ → σ} (hf : ∀ s, R s (f s)) : Keeps R (modify f : EStateM ε σ PUnit) := hf

section
variable [Std.Refl R]

theorem of_pure (a : α) : Keeps R (pure a : EStateM ε σ α) := fun s => refl_of R s

theorem of_throw (e : ε) : Keeps R (throw e : EStateM ε σ α) := fun s => refl_of R s

theorem of_get : Keeps R (get : EStateM ε σ σ) := fun s => refl_of R s

end

section
variable [IsTrans σ R]

theorem bind {f : α → EStateM ε σ β} (hm : Keeps R m) (hf : ∀ a, Keeps R (f a)) :
    Keeps R (m >>= f) := by
  intro s
  rw [wp_bind]
  refine wp_mono (hm s) (fun a s' h => ?_) fun _ _ => id
  exact wp_mono (hf a s') (fun _ _ h' => trans_of R h h') fun _ _ h' => trans_of R h h'

theorem catching {h : ε → EStateM ε σ α} (hm : Keeps R m) (hh : ∀ e, Keeps R (h e)) :
    Keeps R (tryCatch m h) := by
  intro s
  rw [wp_tryCatch]
  refine wp_mono (hm s) (fun _ _ => id) fun e s' hs => ?_
  exact wp_mono (hh e s') (fun _ _ h' => trans_of R hs h') fun _ _ h' => trans_of R hs h'

end

end Keeps

/-- The log of a state grew, by entries that satisfy `p`. -/
def Appends {κ : Type} (log : σ → List κ) (p : κ → Prop) (s s' : σ) : Prop :=
  ∃ added, log s' = log s ++ added ∧ ∀ x ∈ added, p x

namespace Appends

variable {κ : Type} {log : σ → List κ} {p : κ → Prop} {s s' s'' : σ}

/-- The log is as it was. -/
theorem silent (h : log s' = log s) : Appends log p s s' :=
  ⟨[], by rw [h, List.append_nil], fun _ h => by cases h⟩

theorem single {x : κ} (h : log s' = log s ++ [x]) (hx : p x) : Appends log p s s' :=
  ⟨[x], h, fun y hy => by rwa [List.mem_singleton.1 hy]⟩

theorem trans (h : Appends log p s s') (h' : Appends log p s' s'') : Appends log p s s'' := by
  obtain ⟨added, hlog, hadded⟩ := h
  obtain ⟨added', hlog', hadded'⟩ := h'
  refine ⟨added ++ added', by rw [hlog', hlog, List.append_assoc], fun x hx => ?_⟩
  rcases List.mem_append.1 hx with hx | hx
  · exact hadded x hx
  · exact hadded' x hx

instance : Std.Refl (Appends log p) := ⟨fun _ => silent rfl⟩

instance : IsTrans σ (Appends log p) := ⟨fun _ _ _ => trans⟩

end Appends

end Lib.Exn
