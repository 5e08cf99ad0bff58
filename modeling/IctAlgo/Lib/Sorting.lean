import Mathlib.Data.List.Sort

/-!
# Sorting with comparisons that may raise

`sort?`: a stable sort. The elements have kinds; those of one kind compare, those of two do not.

* `sort?_perm`, `sort?_sorted`: the result has the elements, in order.
* `sort?_isSome_iff`: the sort raises exactly when there are elements of two kinds.

A sort by a key does not raise; distinct keys come out in strict order (`sortBy_strict`). What is left
out of a sorted list may be left out before (`filter_mergeSort`).
-/

set_option autoImplicit false

namespace Lib

section
variable {α : Type} (lt? : α → α → Option Bool)

/-- `a` goes before the first element that is not smaller. -/
def insert? (a : α) : List α → Option (List α)
  | [] => some [a]
  | b :: bs => do
    if ← lt? b a then
      return b :: (← insert? a bs)
    else
      return a :: b :: bs

def sort? : List α → Option (List α)
  | [] => some []
  | a :: as => do insert? lt? a (← sort? as)

end

/-- `lt?` compares the elements of each kind by an order. -/
structure OrdersKinds {α κ : Type} (lt? : α → α → Option Bool) (kind : α → κ) : Prop where
  isSome_iff : ∀ a b, (lt? a b).isSome ↔ kind a = kind b
  asymm : ∀ a b, lt? a b = some true → lt? b a = some false
  trans : ∀ a b c, lt? b a = some false → lt? c b = some false → lt? c a = some false

section
variable {α κ : Type} {lt? : α → α → Option Bool} {kind : α → κ}

/-! ## Insertion -/

/-- What a comparison with the first element does. -/
theorem insert?_cons {a b : α} {bs as : List α} (h : insert? lt? a (b :: bs) = some as) :
    (lt? b a = some true ∧ ∃ cs, insert? lt? a bs = some cs ∧ as = b :: cs) ∨
      (lt? b a = some false ∧ as = a :: b :: bs) := by
  unfold insert? at h
  cases hlt : lt? b a with
  | none => simp [hlt] at h
  | some less =>
    cases less with
    | false => exact .inr ⟨rfl, by simpa [hlt] using h.symm⟩
    | true =>
      cases hins : insert? lt? a bs with
      | none => simp [hlt, hins] at h
      | some cs => exact .inl ⟨rfl, cs, rfl, by simpa [hlt, hins] using h.symm⟩

theorem insert?_perm {a : α} {bs as : List α} (h : insert? lt? a bs = some as) :
    as.Perm (a :: bs) := by
  induction bs generalizing as with
  | nil =>
    obtain rfl := Option.some.inj h
    exact List.Perm.refl _
  | cons b bs ih =>
    obtain ⟨-, cs, hins, rfl⟩ | ⟨-, rfl⟩ := insert?_cons h
    · exact ((ih hins).cons b).trans (List.Perm.swap a b bs)
    · exact List.Perm.refl _

theorem insert?_sorted (ho : OrdersKinds lt? kind) {a : α} {bs as : List α}
    (hs : bs.Pairwise fun x y => lt? y x = some false) (h : insert? lt? a bs = some as) :
    as.Pairwise fun x y => lt? y x = some false := by
  induction bs generalizing as with
  | nil =>
    obtain rfl := Option.some.inj h
    exact List.pairwise_singleton _ a
  | cons b bs ih =>
    obtain ⟨hb, hbs⟩ := List.pairwise_cons.1 hs
    obtain ⟨hless, cs, hins, rfl⟩ | ⟨hle, rfl⟩ := insert?_cons h
    · apply List.pairwise_cons.2
      refine ⟨fun y hy => ?_, ih hbs hins⟩
      obtain rfl | hy := List.mem_cons.1 ((insert?_perm hins).mem_iff.1 hy)
      · exact ho.asymm b y hless
      · exact hb y hy
    · apply List.pairwise_cons.2
      refine ⟨fun y hy => ?_, hs⟩
      obtain rfl | hy := List.mem_cons.1 hy
      · exact hle
      · exact ho.trans a b y hle (hb y hy)

theorem insert?_isSome (ho : OrdersKinds lt? kind) {a : α} {bs : List α}
    (h : ∀ b ∈ bs, kind b = kind a) : (insert? lt? a bs).isSome := by
  induction bs with
  | nil => rfl
  | cons b bs ih =>
    obtain ⟨less, hless⟩ := Option.isSome_iff_exists.1 ((ho.isSome_iff b a).2 (h b List.mem_cons_self))
    obtain ⟨cs, hcs⟩ := Option.isSome_iff_exists.1
      (ih fun y hy => h y (List.mem_cons_of_mem b hy))
    unfold insert?
    cases less <;> simp [hless, hcs]

/-- An insertion that does not raise has compared with the first element. -/
theorem kind_of_insert? (ho : OrdersKinds lt? kind) {a b : α} {bs as : List α}
    (h : insert? lt? a (b :: bs) = some as) : kind b = kind a := by
  apply (ho.isSome_iff b a).1
  obtain ⟨hless, -⟩ | ⟨hle, -⟩ := insert?_cons h
  · rw [hless]
    rfl
  · rw [hle]
    rfl

/-! ## The sort -/

theorem sort?_cons {a : α} {as bs : List α} (h : sort? lt? (a :: as) = some bs) :
    ∃ cs, sort? lt? as = some cs ∧ insert? lt? a cs = some bs := by
  unfold sort? at h
  cases hs : sort? lt? as with
  | none => simp [hs] at h
  | some cs => exact ⟨cs, rfl, by simpa [hs] using h⟩

theorem sort?_perm {as bs : List α} (h : sort? lt? as = some bs) : bs.Perm as := by
  induction as generalizing bs with
  | nil =>
    obtain rfl := Option.some.inj h
    exact List.Perm.refl _
  | cons a as ih =>
    obtain ⟨cs, hcs, hins⟩ := sort?_cons h
    exact (insert?_perm hins).trans ((ih hcs).cons a)

theorem sort?_sorted (ho : OrdersKinds lt? kind) {as bs : List α} (h : sort? lt? as = some bs) :
    bs.Pairwise fun x y => lt? y x = some false := by
  induction as generalizing bs with
  | nil =>
    obtain rfl := Option.some.inj h
    exact List.Pairwise.nil
  | cons a as ih =>
    obtain ⟨cs, hcs, hins⟩ := sort?_cons h
    exact insert?_sorted ho (ih hcs) hins

/-- **The sort raises exactly when there are elements of two kinds.** -/
theorem sort?_isSome_iff (ho : OrdersKinds lt? kind) {as : List α} :
    (sort? lt? as).isSome ↔ ∀ a ∈ as, ∀ b ∈ as, kind a = kind b := by
  refine ⟨fun h => ?_, fun h => ?_⟩
  · obtain ⟨bs, hbs⟩ := Option.isSome_iff_exists.1 h
    clear h
    induction as generalizing bs with
    | nil =>
      intro a ha
      cases ha
    | cons a as ih =>
      obtain ⟨cs, hcs, hins⟩ := sort?_cons hbs
      have hperm := sort?_perm hcs
      -- the elements behind `a` have one kind, and `a` was compared with one of them
      have hkind : ∀ b ∈ as, kind b = kind a := by
        intro b hb
        cases cs with
        | nil => exact absurd (hperm.mem_iff.2 hb) List.not_mem_nil
        | cons c cs =>
          rw [ih _ hcs b hb c (hperm.mem_iff.1 List.mem_cons_self)]
          exact kind_of_insert? ho hins
      intro x hx y hy
      have hof : ∀ z ∈ a :: as, kind z = kind a := by
        intro z hz
        obtain rfl | hz := List.mem_cons.1 hz
        · rfl
        · exact hkind z hz
      rw [hof x hx, hof y hy]
  · induction as with
    | nil => rfl
    | cons a as ih =>
      obtain ⟨cs, hcs⟩ := Option.isSome_iff_exists.1 (ih fun x hx y hy =>
        h x (List.mem_cons_of_mem a hx) y (List.mem_cons_of_mem a hy))
      have hkind : ∀ b ∈ cs, kind b = kind a := fun b hb =>
        h b (List.mem_cons_of_mem a ((sort?_perm hcs).mem_iff.1 hb)) a List.mem_cons_self
      unfold sort?
      rw [hcs]
      exact insert?_isSome ho hkind

end

/-! ## A sort by a key -/

section
variable {α κ : Type} [LinearOrder κ] (key : α → κ) (l : List α)

theorem sortBy_pairwise :
    (l.insertionSort fun a b => key a ≤ key b).Pairwise fun a b => key a ≤ key b :=
  have : Std.Total fun a b : α => key a ≤ key b := ⟨fun _ _ => le_total _ _⟩
  have : IsTrans α fun a b => key a ≤ key b := ⟨fun _ _ _ => le_trans⟩
  List.pairwise_insertionSort _ _

theorem sortBy_strict (h : (l.map key).Nodup) :
    (l.insertionSort fun a b => key a ≤ key b).Pairwise fun a b => key a < key b := by
  have hne : (l.insertionSort fun a b => key a ≤ key b).Pairwise fun a b => key a ≠ key b :=
    List.pairwise_map.1 (((List.perm_insertionSort _ l).map key).nodup_iff.2 h)
  exact (sortBy_pairwise key l).imp₂ (fun _ _ hle hlt => lt_of_le_of_ne hle hlt) hne

/-- The sort is stable: elements with one key keep their order. -/
theorem filter_sortBy (k : κ) :
    (l.insertionSort fun a b => key a ≤ key b).filter (key · = k) = l.filter (key · = k) := by
  have : Std.Total fun a b : α => key a ≤ key b := ⟨fun _ _ => le_total _ _⟩
  have : IsTrans α fun a b => key a ≤ key b := ⟨fun _ _ _ => le_trans⟩
  have hkey : ∀ a ∈ l.filter (key · = k), key a = k := fun a ha => by
    simpa using (List.mem_filter.1 ha).2
  have hequal : (l.filter (key · = k)).Pairwise fun a b => key a ≤ key b :=
    List.pairwise_of_forall_mem_list fun a ha b hb => ((hkey a ha).trans (hkey b hb).symm).le
  have hsub := (List.sublist_insertionSort hequal List.filter_sublist).filter (key · = k)
  rw [List.filter_filter] at hsub
  simp only [Bool.and_self] at hsub
  exact (hsub.eq_of_length (((List.perm_insertionSort _ l).filter _).length_eq.symm)).symm

end

/-! ## Sorting a part -/

section
variable {α : Type} {le : α → α → Bool}

/-- The elements before which `a` does not go, of a list in which they come first. -/
theorem takeWhile_before {a : α} {before after : List α} (hbefore : ∀ b ∈ before, (!le a b) = true)
    (hafter : ∀ b ∈ after, le a b = true) :
    (before ++ after).takeWhile (fun b => !le a b) = before := by
  rw [List.takeWhile_append_of_pos hbefore]
  cases after with
  | nil => simp
  | cons b after => rw [List.takeWhile_cons_of_neg (by simp [hafter b]), List.append_nil]

/-- Where one more element goes. -/
theorem exists_mergeSort_cons (htrans : ∀ a b c, le a b → le b c → le a c)
    (htotal : ∀ a b, le a b || le b a) (a : α) (l : List α) :
    ∃ before after, (a :: l).mergeSort le = before ++ a :: after ∧ l.mergeSort le = before ++ after ∧
      (∀ b ∈ before, (!le a b) = true) ∧ ∀ b ∈ after, le a b = true := by
  obtain ⟨before, after, hsort, hrest, hbefore⟩ := List.mergeSort_cons htrans htotal a l
  refine ⟨before, after, hsort, hrest, hbefore, fun b hb => ?_⟩
  have hpairwise := List.pairwise_mergeSort htrans htotal (a :: l)
  rw [hsort, List.pairwise_append, List.pairwise_cons] at hpairwise
  exact hpairwise.2.1.1 b hb

theorem filter_mergeSort (htrans : ∀ a b c, le a b → le b c → le a c) (htotal : ∀ a b, le a b || le b a)
    (p : α → Bool) (l : List α) : (l.mergeSort le).filter p = (l.filter p).mergeSort le := by
  induction l with
  | nil => simp
  | cons a l ih =>
    obtain ⟨before, after, hsort, hrest, hbefore, hafter⟩ := exists_mergeSort_cons htrans htotal a l
    rw [hrest, List.filter_append] at ih
    rw [hsort, List.filter_append]
    by_cases hp : p a = true
    · rw [List.filter_cons_of_pos hp, List.filter_cons_of_pos hp]
      obtain ⟨before', after', hsort', hrest', hbefore', hafter'⟩ :=
        exists_mergeSort_cons htrans htotal a (l.filter p)
      rw [hrest'] at ih
      -- `a` stands at the same place in both
      have htake : (before.filter p ++ after.filter p).takeWhile (fun b => !le a b) =
          before.filter p :=
        takeWhile_before (fun b hb => hbefore b (List.mem_of_mem_filter hb))
          fun b hb => hafter b (List.mem_of_mem_filter hb)
      have hsame : before.filter p = before' := by
        rw [← htake, ih, takeWhile_before hbefore' hafter']
      rw [hsame, List.append_cancel_left_eq] at ih
      rw [hsort', hsame, ih]
    · rw [List.filter_cons_of_neg hp, List.filter_cons_of_neg hp, ih]

end

end Lib
