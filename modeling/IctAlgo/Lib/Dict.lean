import Mathlib.Algebra.BigOperators.Group.List.Basic
import Mathlib.Algebra.GroupWithZero.Nat
import Mathlib.Data.List.Induction

/-!
# Insertion-ordered dictionaries

`Dict κ ν`: a finite map kept as the list of its items, each key once (`nodup`), in the order in
which the keys were first set. `set` overwrites the item of a known key in place and appends a new
one, so iteration order is that of Python's `dict`. `groupBy` builds one in a pass over a list.
-/

set_option autoImplicit false

namespace Lib

/-- A finite map as its items, in insertion order. -/
structure Dict (κ ν : Type) where
  items : List (κ × ν)
  nodup : (items.map Prod.fst).Nodup

namespace Dict

variable {κ ν : Type}

instance [DecidableEq κ] [DecidableEq ν] : DecidableEq (Dict κ ν) := fun d e =>
  decidable_of_iff (d.items = e.items) ⟨fun h => by cases d; cases e; congr, congrArg items⟩

def empty : Dict κ ν := ⟨[], List.nodup_nil⟩

/-- Drop every item. -/
def clear (_ : Dict κ ν) : Dict κ ν := empty

def values (d : Dict κ ν) : List ν := d.items.map Prod.snd

variable [DecidableEq κ]

def get? (d : Dict κ ν) (k : κ) : Option ν := d.items.lookup k

def getD (d : Dict κ ν) (k : κ) (v : ν) : ν := (d.get? k).getD v

@[simp] theorem get?_empty (k : κ) : (empty : Dict κ ν).get? k = none := rfl

/-- The items with `k` set to `v`. -/
def setItems : List (κ × ν) → κ → ν → List (κ × ν)
  | [], k, v => [(k, v)]
  | (k', v') :: es, k, v => if k = k' then (k', v) :: es else (k', v') :: setItems es k v

theorem setItems_keys (es : List (κ × ν)) (k : κ) (v : ν) :
    (setItems es k v).map Prod.fst =
      if k ∈ es.map Prod.fst then es.map Prod.fst else es.map Prod.fst ++ [k] := by
  induction es with
  | nil => simp [setItems]
  | cons e es ih =>
    obtain ⟨k', v'⟩ := e
    by_cases h : k = k'
    · simp [setItems, h]
    · simp only [setItems, h, ↓reduceIte, List.map_cons, ih, List.mem_cons, false_or]
      split <;> simp

/-- `d[k] = v`. -/
def set (d : Dict κ ν) (k : κ) (v : ν) : Dict κ ν where
  items := setItems d.items k v
  nodup := by
    rw [setItems_keys]
    split
    · exact d.nodup
    · rename_i hk
      exact List.nodup_append.2 ⟨d.nodup, List.nodup_cons.2 ⟨List.not_mem_nil, List.nodup_nil⟩,
        fun a ha b hb => by rw [List.mem_singleton.1 hb]; rintro rfl; exact hk ha⟩

theorem lookup_cons_ne {es : List (κ × ν)} {k j : κ} {v : ν} (h : j ≠ k) :
    ((k, v) :: es).lookup j = es.lookup j := by
  rw [List.lookup_cons, beq_eq_false_iff_ne.2 h]

theorem lookup_setItems (es : List (κ × ν)) (k j : κ) (v : ν) :
    (setItems es k v).lookup j = if j = k then some v else es.lookup j := by
  induction es with
  | nil =>
    by_cases h : j = k
    · simp [setItems, h]
    · simp [setItems, h, lookup_cons_ne h]
  | cons e es ih =>
    obtain ⟨k', v'⟩ := e
    by_cases h : k = k'
    · subst h
      by_cases hj : j = k
      · simp [setItems, hj]
      · simp [setItems, hj, lookup_cons_ne hj]
    · simp only [setItems, h, ↓reduceIte]
      by_cases hj : j = k'
      · subst hj
        simp [Ne.symm h]
      · rw [lookup_cons_ne hj, ih, lookup_cons_ne hj]

theorem get?_set (d : Dict κ ν) (k j : κ) (v : ν) :
    (d.set k v).get? j = if j = k then some v else d.get? j := lookup_setItems _ _ _ _

@[simp] theorem get?_set_self (d : Dict κ ν) (k : κ) (v : ν) : (d.set k v).get? k = some v := by
  simp [get?_set]

theorem get?_set_ne (d : Dict κ ν) {k j : κ} (v : ν) (h : j ≠ k) :
    (d.set k v).get? j = d.get? j := by simp [get?_set, h]

theorem setItems_self {es : List (κ × ν)} {k : κ} {v : ν} (h : es.lookup k = some v) :
    setItems es k v = es := by
  induction es with
  | nil => cases h
  | cons e es ih =>
    obtain ⟨k', v'⟩ := e
    unfold setItems
    by_cases hk : k = k'
    · subst hk
      rw [List.lookup_cons_self] at h
      rw [if_pos rfl, Option.some.inj h]
    · rw [lookup_cons_ne hk] at h
      rw [if_neg hk, ih h]

/-- A value that is there is written back. -/
theorem set_self {d : Dict κ ν} {k : κ} {v : ν} (h : d.get? k = some v) : d.set k v = d := by
  obtain ⟨items, nodup⟩ := d
  simp only [set, setItems_self h]

/-- The keys after a write. -/
theorem isSome_get?_set (d : Dict κ ν) (k j : κ) (v : ν) :
    ((d.set k v).get? j).isSome ↔ j = k ∨ (d.get? j).isSome := by
  rw [get?_set]
  split <;> rename_i h <;> simp [h]

@[simp] theorem getD_set_self (d : Dict κ ν) (k : κ) (v w : ν) : (d.set k v).getD k w = v := by
  simp [getD]

theorem getD_set_ne (d : Dict κ ν) {k j : κ} (v w : ν) (h : j ≠ k) :
    (d.set k v).getD j w = d.getD j w := by simp [getD, get?_set_ne d v h]

theorem length_setItems_le (es : List (κ × ν)) (k : κ) (v : ν) :
    (setItems es k v).length ≤ es.length + 1 := by
  induction es with
  | nil => exact Nat.le_refl 1
  | cons e es ih =>
    obtain ⟨k', v'⟩ := e
    unfold setItems
    split
    · exact Nat.le_succ _
    · exact Nat.succ_le_succ ih

theorem mem_setItems {es : List (κ × ν)} {k : κ} {v : ν} {e : κ × ν} (h : e ∈ setItems es k v) :
    e = (k, v) ∨ e ∈ es := by
  induction es with
  | nil => exact .inl (List.mem_singleton.1 h)
  | cons e' es ih =>
    obtain ⟨k', v'⟩ := e'
    unfold setItems at h
    split at h
    · rename_i hk
      subst hk
      obtain rfl | h := List.mem_cons.1 h
      · exact .inl rfl
      · exact .inr (List.mem_cons_of_mem _ h)
    · obtain rfl | h := List.mem_cons.1 h
      · exact .inr List.mem_cons_self
      · obtain rfl | h := ih h
        · exact .inl rfl
        · exact .inr (List.mem_cons_of_mem _ h)

/-- The items set one after another. -/
def ofItems (items : List (κ × ν)) : Dict κ ν := items.foldl (fun d e => d.set e.1 e.2) empty

theorem ofItems_concat (items : List (κ × ν)) (e : κ × ν) :
    ofItems (items ++ [e]) = (ofItems items).set e.1 e.2 := by
  unfold ofItems
  rw [List.foldl_append]
  rfl

theorem isSome_get?_ofItems (items : List (κ × ν)) (k : κ) :
    ((ofItems items).get? k).isSome ↔ k ∈ items.map Prod.fst := by
  induction items using List.reverseRecOn with
  | nil => simp [ofItems]
  | append_singleton items e ih =>
    rw [ofItems_concat, isSome_get?_set, List.map_append, List.mem_append, ← ih, List.map_singleton,
      List.mem_singleton, or_comm]

theorem mem_of_get?_ofItems {items : List (κ × ν)} {k : κ} {v : ν}
    (h : (ofItems items).get? k = some v) : (k, v) ∈ items := by
  induction items using List.reverseRecOn with
  | nil => cases h
  | append_singleton items e ih =>
    rw [ofItems_concat, get?_set] at h
    rw [List.mem_append, List.mem_singleton]
    split at h
    · rename_i hk
      exact .inr (Prod.ext hk (Option.some.inj h).symm)
    · exact .inl (ih h)

/-- Keys with the values of a function are read as these, also where a key occurs more than once. -/
theorem get?_ofItems_map (f : κ → ν) {ks : List κ} {k : κ} (h : k ∈ ks) :
    (ofItems (ks.map fun k => (k, f k))).get? k = some (f k) := by
  induction ks using List.reverseRecOn with
  | nil => cases h
  | append_singleton ks k' ih =>
    rw [List.map_append, List.map_singleton, ofItems_concat, get?_set]
    by_cases hk : k = k'
    · subst hk
      simp
    · rw [if_neg hk]
      apply ih
      simpa [hk] using h

theorem length_setItems (es : List (κ × ν)) (k : κ) (v : ν) :
    (setItems es k v).length = es.length + if (es.lookup k).isSome then 0 else 1 := by
  induction es with
  | nil => rfl
  | cons e es ih =>
    obtain ⟨k', v'⟩ := e
    by_cases h : k = k'
    · subst h
      simp [setItems]
    · simp only [setItems, h, ↓reduceIte, List.length_cons, ih, lookup_cons_ne h]
      omega

/-- Setting a key makes the dictionary longer exactly when the key is new. -/
theorem length_set (d : Dict κ ν) (k : κ) (v : ν) :
    (d.set k v).items.length = d.items.length + if (d.get? k).isSome then 0 else 1 :=
  length_setItems _ _ _

/-- Setting a known key adds none. -/
theorem isSome_get?_set_of_some {d : Dict κ ν} {k : κ} {v : ν} (w : ν) (h : d.get? k = some v)
    (j : κ) : ((d.set k w).get? j).isSome = (d.get? j).isSome := by
  have hknown : j = k → (d.get? j).isSome := by
    rintro rfl
    simp [h]
  rw [Bool.eq_iff_iff, isSome_get?_set, or_iff_right_of_imp hknown]

theorem length_set_of_some {d : Dict κ ν} {k : κ} {v : ν} (w : ν) (h : d.get? k = some v) :
    (d.set k w).items.length = d.items.length := by
  rw [length_set, h]
  rfl

theorem setItems_of_new {es : List (κ × ν)} {k : κ} (v : ν) (h : es.lookup k = none) :
    setItems es k v = es ++ [(k, v)] := by
  induction es with
  | nil => rfl
  | cons e es ih =>
    obtain ⟨k', v'⟩ := e
    by_cases hk : k = k'
    · subst hk
      simp at h
    · rw [lookup_cons_ne hk] at h
      simp only [setItems, hk, ↓reduceIte, ih h, List.cons_append]

/-- The value of a new key comes last. -/
theorem values_set_of_new {d : Dict κ ν} {k : κ} (v : ν) (h : d.get? k = none) :
    (d.set k v).values = d.values ++ [v] := by
  unfold values
  change (setItems d.items k v).map Prod.snd = _
  rw [setItems_of_new v h, List.map_append]
  rfl

/-- Items with keys of their own are the items of their dictionary. -/
theorem items_ofItems {items : List (κ × ν)} (h : (items.map Prod.fst).Nodup) :
    (ofItems items).items = items := by
  induction items using List.reverseRecOn with
  | nil => rfl
  | append_singleton items e ih =>
    rw [List.map_append, List.nodup_append] at h
    have hnew : (ofItems items).get? e.1 = none := by
      rw [← Option.not_isSome_iff_eq_none, isSome_get?_ofItems]
      intro hmem
      exact h.2.2 _ hmem _ (List.mem_singleton_self _) rfl
    rw [ofItems_concat]
    change setItems (ofItems items).items e.1 e.2 = _
    rw [setItems_of_new e.2 hnew, ih h.1]

/-! ## Deletions -/

/-- The items of a dictionary make it again. -/
theorem ofItems_items (d : Dict κ ν) : ofItems d.items = d := by
  obtain ⟨items, hnodup⟩ := d
  have hitems : (ofItems items).items = items := items_ofItems hnodup
  cases hof : ofItems items
  rw [hof] at hitems
  cases hitems
  rfl

theorem get?_eq_some_iff {d : Dict κ ν} {k : κ} {v : ν} :
    d.get? k = some v ↔ (k, v) ∈ d.items := by
  refine ⟨fun h => ?_, fun h => ?_⟩
  · obtain ⟨as, bs, hsplit, -⟩ := List.lookup_eq_some_iff.1 h
    rw [hsplit]
    simp
  · obtain ⟨as, bs, hsplit⟩ := List.append_of_mem h
    refine List.lookup_eq_some_iff.2 ⟨as, bs, hsplit, fun item hitem => ?_⟩
    have hnodup := d.nodup
    rw [hsplit, List.map_append, List.nodup_append] at hnodup
    have hne : item.1 ≠ k :=
      hnodup.2.2 item.1 (List.mem_map_of_mem hitem) k List.mem_cons_self
    exact bne_iff_ne.2 hne.symm

/-- `del d[k]` for each key of `ks`. -/
def eraseAll (d : Dict κ ν) (ks : List κ) : Dict κ ν where
  items := d.items.filter fun e => e.1 ∉ ks
  nodup := (List.filter_sublist.map Prod.fst).nodup d.nodup

@[simp] theorem eraseAll_nil (d : Dict κ ν) : d.eraseAll [] = d := by
  cases d
  simp [eraseAll]

/-- Deleting a key that is there makes the dictionary smaller. -/
theorem length_eraseAll_lt {d : Dict κ ν} {ks : List κ} {e : κ × ν} (h : e ∈ d.items)
    (hk : e.1 ∈ ks) : (d.eraseAll ks).items.length < d.items.length :=
  List.length_filter_lt_length_iff_exists.2 ⟨e, h, by simpa using hk⟩

theorem get?_eraseAll_of_mem (d : Dict κ ν) {ks : List κ} {k : κ} (h : k ∈ ks) :
    (d.eraseAll ks).get? k = none := by
  rw [Option.eq_none_iff_forall_ne_some]
  intro v hv
  have hmem := get?_eq_some_iff.1 hv
  exact absurd h (by simpa using (List.mem_filter.1 hmem).2)

/-- Deleting a key takes its value away. -/
theorem perm_values_erase {d : Dict κ ν} {k : κ} {v : ν} (h : d.get? k = some v) :
    d.values.Perm (v :: (d.eraseAll [k]).values) := by
  obtain ⟨as, bs, hsplit, -⟩ := List.lookup_eq_some_iff.1 h
  have hnodup := d.nodup
  rw [hsplit, List.map_append, List.map_cons, List.nodup_append, List.nodup_cons] at hnodup
  have hkeep : ∀ e ∈ as ++ bs, decide (e.1 ∉ [k]) = true := by
    intro e he
    rw [decide_eq_true_eq, List.mem_singleton]
    rintro rfl
    obtain has | hbs := List.mem_append.1 he
    · exact hnodup.2.2 e.1 (List.mem_map_of_mem has) e.1 List.mem_cons_self rfl
    · have hmem : e.1 ∈ bs.map Prod.fst := List.mem_map_of_mem hbs
      exact hnodup.2.1.1 hmem
  have herase : (d.eraseAll [k]).items = as ++ bs := by
    change d.items.filter (fun e => decide (e.1 ∉ [k])) = _
    rw [hsplit, List.filter_append, List.filter_cons_of_neg (by simp), ← List.filter_append]
    exact List.filter_eq_self.2 hkeep
  unfold values
  rw [herase, hsplit, List.map_append, List.map_append, List.map_cons]
  exact List.perm_middle

/-! ## Maps of the values -/

section
variable {μ : Type} (f : ν → μ)

omit [DecidableEq κ] in
theorem map_fst_mapVals (items : List (κ × ν)) :
    (items.map fun item => (item.1, f item.2)).map Prod.fst = items.map Prod.fst := by
  simp [Function.comp_def]

/-- Every value `v` replaced by `f v`. -/
def mapVals (d : Dict κ ν) : Dict κ μ where
  items := d.items.map fun item => (item.1, f item.2)
  nodup := by
    rw [map_fst_mapVals]
    exact d.nodup

theorem lookup_map_snd (items : List (κ × ν)) (k : κ) :
    (items.map fun item => (item.1, f item.2)).lookup k = (items.lookup k).map f := by
  induction items with
  | nil => rfl
  | cons item items ih =>
    obtain ⟨k', v⟩ := item
    by_cases h : k = k'
    · subst h
      simp
    · rw [List.map_cons, lookup_cons_ne h, lookup_cons_ne h]
      exact ih

theorem get?_mapVals (d : Dict κ ν) (k : κ) : (d.mapVals f).get? k = (d.get? k).map f :=
  lookup_map_snd f d.items k

end

theorem mem_values {d : Dict κ ν} {v : ν} : v ∈ d.values ↔ ∃ k, d.get? k = some v := by
  unfold values
  refine ⟨fun h => ?_, fun h' => ?_⟩
  · obtain ⟨⟨k, v⟩, hmem, rfl⟩ := List.mem_map.1 h
    exact ⟨k, get?_eq_some_iff.2 hmem⟩
  · obtain ⟨k, h⟩ := h'
    exact List.mem_map.2 ⟨(k, v), get?_eq_some_iff.1 h, rfl⟩

/-- The values are those of the keys. -/
theorem filterMap_get?_keys (d : Dict κ ν) : (d.items.map Prod.fst).filterMap d.get? = d.values := by
  have hget : ∀ item ∈ d.items, (d.get? ∘ Prod.fst) item = some item.2 := fun item hitem =>
    get?_eq_some_iff.2 hitem
  unfold values
  rw [List.filterMap_map, List.filterMap_congr hget]
  exact congrFun List.filterMap_eq_map' _

theorem mem_values_set {d : Dict κ ν} {k : κ} {v w : ν} (h : w ∈ (d.set k v).values) :
    w = v ∨ w ∈ d.values := by
  obtain ⟨item, hitem, rfl⟩ := List.mem_map.1 h
  obtain rfl | hmem := mem_setItems hitem
  · exact .inl rfl
  · exact .inr (List.mem_map_of_mem hmem)

omit [DecidableEq κ] in
theorem values_mapVals {μ : Type} (f : ν → μ) (d : Dict κ ν) :
    (d.mapVals f).values = d.values.map f := by
  simp [values, mapVals, Function.comp_def]

/-! ## Groups -/

section
variable {α : Type} (key : α → κ) (add : ν → α → ν) (init : ν)

/-- A pass over `xs` that adds each element to the value of its key, which is `init` at first. -/
def groupBy (xs : List α) : Dict κ ν :=
  xs.foldl (fun d x => d.set (key x) (add (d.getD (key x) init) x)) empty

/-- **A group is what its own elements add up to.** -/
theorem get?_groupBy (xs : List α) (k : κ) :
    (groupBy key add init xs).get? k =
      if xs.filter (key · = k) = [] then none else some ((xs.filter (key · = k)).foldl add init) := by
  induction xs using List.reverseRecOn with
  | nil => rfl
  | append_singleton xs x ih =>
    have hstep : groupBy key add init (xs ++ [x]) = (groupBy key add init xs).set (key x)
        (add ((groupBy key add init xs).getD (key x) init) x) := by
      unfold groupBy
      rw [List.foldl_append]
      rfl
    rw [hstep, get?_set, List.filter_append]
    by_cases h : k = key x
    · subst h
      have hold : (groupBy key add init xs).getD (key x) init =
          (xs.filter (key · = key x)).foldl add init := by
        rw [getD, ih]
        split
        · rename_i hempty
          rw [hempty]
          rfl
        · rfl
      simp [hold, List.foldl_append]
    · simp [h, Ne.symm h, ih]

end

/-! ## Values that are lists -/

section
variable {α : Type}

theorem perm_setItems_append (es : List (κ × List α)) (k : κ) (a : α) :
    ((setItems es k ((es.lookup k).getD [] ++ [a])).map Prod.snd).flatten.Perm
      (a :: (es.map Prod.snd).flatten) := by
  induction es with
  | nil => exact List.Perm.refl _
  | cons e es ih =>
    obtain ⟨k', xs⟩ := e
    by_cases h : k = k'
    · subst h
      simp only [setItems, ↓reduceIte, List.lookup_cons_self, Option.getD_some, List.map_cons,
        List.flatten_cons, List.append_assoc, List.singleton_append]
      exact List.perm_middle
    · simp only [setItems, h, ↓reduceIte, List.map_cons, List.flatten_cons, lookup_cons_ne h]
      exact (ih.append_left xs).trans List.perm_middle

/-- Appending to the list of one key adds the element to all of them. -/
theorem perm_values_append (d : Dict κ (List α)) (k : κ) (a : α) :
    (d.set k (d.getD k [] ++ [a])).values.flatten.Perm (a :: d.values.flatten) :=
  perm_setItems_append _ _ _

/-- The lists of all keys have the elements of the list that was grouped. -/
theorem perm_values_groupBy (key : α → κ) (xs : List α) :
    (groupBy key (fun ys x => ys ++ [x]) [] xs).values.flatten.Perm xs := by
  induction xs using List.reverseRecOn with
  | nil => exact List.Perm.refl _
  | append_singleton xs x ih =>
    unfold groupBy at ih ⊢
    rw [List.foldl_append]
    refine (perm_values_append _ (key x) x).trans ?_
    exact (ih.cons x).trans (List.perm_append_singleton x xs).symm

/-- Elements that are those of all lists stay so when both get one more. -/
theorem perm_values_concat {d : Dict κ (List α)} {k : κ} {xs all : List α}
    (h : d.get? k = some xs) (hall : d.values.flatten.Perm all) (a : α) :
    (d.set k (xs ++ [a])).values.flatten.Perm (all ++ [a]) := by
  have hperm := perm_values_append d k a
  rw [getD, h, Option.getD_some] at hperm
  have hmore : (all ++ [a]).Perm (a :: all) := List.perm_append_singleton a all
  exact (hperm.trans (hall.cons a)).trans hmore.symm

end

/-! ## Sums of the values -/

variable [AddCommMonoid ν]

theorem sum_setItems (es : List (κ × ν)) (k : κ) (v : ν) :
    ((setItems es k v).map Prod.snd).sum + (es.lookup k).getD 0 =
      (es.map Prod.snd).sum + v := by
  induction es with
  | nil => simp [setItems]
  | cons e es ih =>
    obtain ⟨k', v'⟩ := e
    by_cases h : k = k'
    · subst h
      simp only [setItems, ↓reduceIte, List.map_cons, List.sum_cons, List.lookup_cons_self,
        Option.getD_some]
      rw [add_comm v, add_assoc, add_comm v, ← add_assoc, add_comm _ v']
    · simp only [setItems, h, ↓reduceIte, List.map_cons, List.sum_cons, lookup_cons_ne h]
      rw [add_assoc, ih, add_assoc]

/-- Setting one value changes the sum by the difference to the old value (0 for a new key). -/
theorem sum_set (d : Dict κ ν) (k : κ) (v : ν) :
    (d.set k v).values.sum + d.getD k 0 = d.values.sum + v := sum_setItems _ _ _

/-- A key that is set again does not count again. -/
theorem sum_ofItems_concat (f : κ → ℕ) (ks : List κ) (k : κ) :
    (ofItems ((ks ++ [k]).map fun k => (k, f k))).values.sum =
      (ofItems (ks.map fun k => (k, f k))).values.sum + if k ∈ ks then 0 else f k := by
  have hset := sum_set (ofItems (ks.map fun k => (k, f k))) k (f k)
  rw [List.map_append, List.map_singleton, ofItems_concat]
  unfold getD at hset
  dsimp only
  split
  · rename_i hk
    rw [get?_ofItems_map f hk, Option.getD_some] at hset
    omega
  · rename_i hk
    have hnone : (ofItems (ks.map fun k => (k, f k))).get? k = none := by
      rw [← Option.not_isSome_iff_eq_none, isSome_get?_ofItems]
      simpa using hk
    rw [hnone, Option.getD_none] at hset
    omega

/-- The values of the keys of a list add up to those of the list exactly when a key that occurs more
than once has none. -/
theorem sum_ofItems_eq_iff (f : κ → ℕ) (ks : List κ) :
    (ofItems (ks.map fun k => (k, f k))).values.sum ≤ (ks.map f).sum ∧
      ((ofItems (ks.map fun k => (k, f k))).values.sum = (ks.map f).sum ↔
        ∀ k, 1 < ks.count k → f k = 0) := by
  induction ks using List.reverseRecOn with
  | nil => simp [ofItems, values, empty]
  | append_singleton ks k ih =>
    obtain ⟨hle, hiff⟩ := ih
    have hsum : ((ks ++ [k]).map f).sum = (ks.map f).sum + f k := by simp
    rw [sum_ofItems_concat, hsum]
    refine ⟨?_, fun heq j hj => ?_, fun h => ?_⟩
    · split <;> omega
    · rw [List.count_append, List.count_singleton] at hj
      split at heq
      · by_cases hjk : k = j
        · subst hjk
          omega
        · exact hiff.1 (by omega) j (by simpa [hjk] using hj)
      · rename_i hk
        by_cases hjk : k = j
        · subst hjk
          rw [List.count_eq_zero_of_not_mem hk] at hj
          simp at hj
        · exact hiff.1 (by omega) j (by simpa [hjk] using hj)
    · have hold := hiff.2 fun j hj => h j (by rw [List.count_append]; omega)
      split
      · rename_i hk
        have hcount : 0 < ks.count k := List.count_pos_iff.2 hk
        have hzero := h k (by rw [List.count_append, List.count_singleton_self]; omega)
        omega
      · omega

section
variable {μ α M : Type} [AddCancelCommMonoid M] (f : μ → M)

omit [AddCancelCommMonoid M] in
theorem map_setItems (es : List (κ × μ)) (k : κ) (v : μ) :
    (setItems es k v).map (fun e => (e.1, f e.2)) = setItems (es.map fun e => (e.1, f e.2)) k (f v) := by
  induction es with
  | nil => rfl
  | cons e es ih =>
    obtain ⟨k', v'⟩ := e
    by_cases h : k = k'
    · simp [setItems, h]
    · simp [setItems, h, ih]

theorem sum_map_values_set (d : Dict κ μ) (k : κ) (v : μ) :
    ((d.set k v).values.map f).sum + ((d.get? k).map f).getD 0 = (d.values.map f).sum + f v := by
  have hset : (d.set k v).mapVals f = (d.mapVals f).set k (f v) := by
    unfold mapVals
    congr 1
    exact map_setItems f d.items k v
  rw [← values_mapVals, ← values_mapVals, hset, ← get?_mapVals]
  exact sum_set (d.mapVals f) k (f v)

/-- What the groups add up to is what the elements do. -/
theorem sum_groupBy {g : α → M} {key : α → κ} {add : μ → α → μ} {init : μ}
    (hadd : ∀ v x, f (add v x) = f v + g x) (hinit : f init = 0) (xs : List α) :
    ((groupBy key add init xs).values.map f).sum = (xs.map g).sum := by
  induction xs using List.reverseRecOn with
  | nil => rfl
  | append_singleton xs x ih =>
    have hstep := sum_map_values_set f (groupBy key add init xs) (key x)
      (add ((groupBy key add init xs).getD (key x) init) x)
    have hold : f ((groupBy key add init xs).getD (key x) init) =
        (((groupBy key add init xs).get? (key x)).map f).getD 0 := by
      rw [getD, ← hinit, Option.getD_map]
    rw [hadd, ih, hold, ← add_assoc, add_right_comm, add_left_inj] at hstep
    unfold groupBy at hstep ⊢
    rw [List.foldl_append]
    simpa using hstep

/-- What the groups count is what all elements do. -/
theorem countP_groupBy {p : α → Bool} {key : α → κ} {add : μ → α → μ} {init : μ} {count : μ → ℕ}
    (hadd : ∀ v x, count (add v x) = count v + if p x then 1 else 0) (hinit : count init = 0)
    (xs : List α) : ((groupBy key add init xs).values.map count).sum = xs.countP p := by
  rw [sum_groupBy count hadd hinit]
  induction xs with
  | nil => rfl
  | cons x xs ih => rw [List.map_cons, List.sum_cons, ih, List.countP_cons, Nat.add_comm]

end

end Dict

end Lib
