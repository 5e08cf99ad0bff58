import Mathlib.Data.List.Nodup
import Mathlib.Data.List.Perm.Subperm

/-!
# Logs with increasing ids

`Log α`: items under increasing ids, as an append-only stream keeps them. `append` gives the next
id, `delete` takes an item out, `trim` keeps the newest ones, `range` reads from an id on.
`Follows p s t`: `t` comes from `s` by such steps, which take out items with `p` only.
`between` counts the items of an interval of ids, the distance of a reader from an item.
-/

set_option autoImplicit false

namespace Lib

/-- An item of a log with its id. -/
structure Item (α : Type) where
  id : ℕ
  val : α

/-- Items in the order of their ids; `nextId` is the id of the next one. -/
structure Log (α : Type) where
  items : List (Item α)
  nextId : ℕ
  sorted : items.Pairwise fun x y => x.id < y.id
  bound : ∀ x ∈ items, x.id < nextId

namespace Log

variable {α : Type}

/-- A log without items, whose first id is `first`. -/
def empty (first : ℕ) : Log α := ⟨[], first, .nil, fun _ h => absurd h List.not_mem_nil⟩

def append (s : Log α) (a : α) : Log α where
  items := s.items ++ [⟨s.nextId, a⟩]
  nextId := s.nextId + 1
  sorted := by
    refine List.pairwise_append.2 ⟨s.sorted, List.pairwise_singleton _ _, fun x hx y hy => ?_⟩
    rw [List.mem_singleton.1 hy]
    exact s.bound x hx
  bound := by
    intro x hx
    rcases List.mem_append.1 hx with hx | hx
    · exact Nat.lt_succ_of_lt (s.bound x hx)
    · rw [List.mem_singleton.1 hx]
      exact Nat.lt_succ_self _

def delete (s : Log α) (i : ℕ) : Log α where
  items := s.items.filter (·.id ≠ i)
  nextId := s.nextId
  sorted := s.sorted.filter _
  bound := fun x hx => s.bound x (List.mem_of_mem_filter hx)

/-- The newest `n` items. -/
def trim (s : Log α) (n : ℕ) : Log α where
  items := s.items.drop (s.items.length - n)
  nextId := s.nextId
  sorted := s.sorted.drop
  bound := fun x hx => s.bound x (List.mem_of_mem_drop hx)

/-- The items `trim` leaves out. -/
def trimmed (s : Log α) (n : ℕ) : List (Item α) := s.items.take (s.items.length - n)

/-- The items from `min` on. -/
def tail (s : Log α) (min : ℕ) : List (Item α) := s.items.filter (min ≤ ·.id)

/-- The first `count` items from `min` on. -/
def range (s : Log α) (min count : ℕ) : List (Item α) := (s.tail min).take count

/-- The number of items with an id from `lo` to `hi`. -/
def between (s : Log α) (lo hi : ℕ) : ℕ := s.items.countP fun x => lo ≤ x.id && x.id ≤ hi

section
variable {s : Log α} {x : Item α}

theorem mem_append {a : α} :
    x ∈ (s.append a).items ↔ x ∈ s.items ∨ x = ⟨s.nextId, a⟩ := by
  simp [append]

theorem mem_delete {i : ℕ} : x ∈ (s.delete i).items ↔ x ∈ s.items ∧ x.id ≠ i := by
  simp [delete]

theorem mem_of_mem_trim {n : ℕ} (h : x ∈ (s.trim n).items) : x ∈ s.items :=
  List.mem_of_mem_drop h

theorem mem_trim_or (h : x ∈ s.items) (n : ℕ) : x ∈ (s.trim n).items ∨ x ∈ s.trimmed n := by
  rw [← List.take_append_drop (s.items.length - n) s.items] at h
  exact (List.mem_append.1 h).symm

/-- The item that was appended last is kept by every limit above zero. -/
theorem mem_trim_append_last {a b : α} {n : ℕ} :
    ⟨s.nextId, b⟩ ∈ ((s.append a).trim n).items ↔ 0 < n ∧ b = a := by
  constructor
  · intro h
    have hmem := mem_of_mem_trim h
    refine ⟨Nat.pos_of_ne_zero ?_, ?_⟩
    · rintro rfl
      have hnone : ((s.append a).trim 0).items = [] := List.drop_length
      rw [hnone] at h
      exact List.not_mem_nil h
    · rcases mem_append.1 hmem with hold | hlast
      · exact absurd (s.bound _ hold) (Nat.lt_irrefl _)
      · exact (Item.mk.inj hlast).2
  · rintro ⟨hn, rfl⟩
    have hkeep : ((s.append b).trim n).items =
        s.items.drop ((s.append b).items.length - n) ++ [⟨s.nextId, b⟩] := by
      apply List.drop_append_of_le_length
      simp only [append, List.length_append, List.length_singleton]
      omega
    rw [hkeep]
    exact List.mem_append_right _ (List.mem_singleton_self _)

theorem mem_tail {min : ℕ} : x ∈ s.tail min ↔ x ∈ s.items ∧ min ≤ x.id := by
  simp [tail]

theorem tail_sorted (min : ℕ) : (s.tail min).Pairwise fun x y => x.id < y.id :=
  s.sorted.filter _

theorem nodup : s.items.Nodup :=
  s.sorted.imp fun {x y} h => by
    rintro rfl
    omega

theorem nodup_ids : (s.items.map (·.id)).Nodup :=
  List.pairwise_map.2 (s.sorted.imp fun h => Nat.ne_of_lt h)

/-- An item is known by its id. -/
theorem eq_of_id {y : Item α} (hx : x ∈ s.items) (hy : y ∈ s.items) (h : x.id = y.id) : x = y :=
  List.inj_on_of_nodup_map nodup_ids hx hy h

/-! ## What becomes of a log -/

/-- `t` comes from `s` by appending items, and by taking out some of those with `p`. -/
structure Follows (p : Item α → Prop) (s t : Log α) : Prop where
  nextId : s.nextId ≤ t.nextId
  new : ∀ x ∈ t.items, x ∈ s.items ∨ s.nextId ≤ x.id
  gone : ∀ x ∈ s.items, x ∈ t.items ∨ p x

namespace Follows

variable {p : Item α → Prop} {s t u : Log α}

theorem refl (s : Log α) : Follows p s s := ⟨Nat.le_refl _, fun _ hx => .inl hx, fun _ hx => .inl hx⟩

theorem imp {p' : Item α → Prop} (h : Follows p s t) (hp : ∀ x, p x → p' x) : Follows p' s t :=
  ⟨h.nextId, h.new, fun x hx => (h.gone x hx).imp_right (hp x)⟩

theorem trans (h : Follows p s t) (h' : Follows p t u) : Follows p s u where
  nextId := Nat.le_trans h.nextId h'.nextId
  new x hx := by
    rcases h'.new x hx with ht | ht
    · exact h.new x ht
    · exact .inr (Nat.le_trans h.nextId ht)
  gone x hx := by
    rcases h.gone x hx with ht | ht
    · exact h'.gone x ht
    · exact .inr ht

/-- The length limit takes out what it cuts off. -/
theorem append_trim (s : Log α) (a : α) (n : ℕ) :
    Follows (· ∈ (s.append a).trimmed n) s ((s.append a).trim n) where
  nextId := Nat.le_succ _
  new x hx := by
    rcases mem_append.1 (mem_of_mem_trim hx) with h | rfl
    · exact .inl h
    · exact .inr (Nat.le_refl _)
  gone _ hx := mem_trim_or (mem_append.2 (.inl hx)) n

theorem delete (s : Log α) (i : ℕ) : Follows (·.id = i) s (s.delete i) where
  nextId := Nat.le_refl _
  new _ hx := .inl (mem_delete.1 hx).1
  gone x hx := by
    by_cases hid : x.id = i
    · exact .inr hid
    · exact .inl (mem_delete.2 ⟨hx, hid⟩)

end Follows

/-! ## Other items under the same ids -/

section
variable {β : Type}

theorem ext {s t : Log α} (h : s.items = t.items) (h' : s.nextId = t.nextId) : s = t := by
  cases s
  cases t
  subst h
  subst h'
  rfl

/-- The log of the images. -/
def map (f : α → β) (s : Log α) : Log β where
  items := s.items.map fun x => ⟨x.id, f x.val⟩
  nextId := s.nextId
  sorted := List.pairwise_map.2 s.sorted
  bound := by
    intro x hx
    obtain ⟨y, hy, rfl⟩ := List.mem_map.1 hx
    exact s.bound y hy

theorem map_append (f : α → β) (s : Log α) (a : α) :
    (s.append a).map f = (s.map f).append (f a) :=
  ext (by simp [map, append]) rfl

theorem map_delete (f : α → β) (s : Log α) (i : ℕ) :
    (s.delete i).map f = (s.map f).delete i :=
  ext (by simp [map, delete, List.filter_map, Function.comp_def]) rfl

theorem map_trim (f : α → β) (s : Log α) (n : ℕ) : (s.trim n).map f = (s.map f).trim n :=
  ext (by simp [map, trim, List.map_drop]) rfl

theorem map_trimmed (f : α → β) (s : Log α) (n : ℕ) :
    ((s.map f).trimmed n).map (·.id) = (s.trimmed n).map (·.id) := by
  simp [map, trimmed, List.map_take, Function.comp_def]

end

/-! ## The number of items in an interval -/

section
variable {t : Log α} {lo hi : ℕ}

theorem between_eq : s.between lo hi = (s.items.filter fun x => lo ≤ x.id && x.id ≤ hi).length :=
  List.countP_eq_length_filter

theorem mem_interval {l : List (Item α)} :
    (x ∈ l.filter fun x => lo ≤ x.id && x.id ≤ hi) ↔ x ∈ l ∧ lo ≤ x.id ∧ x.id ≤ hi := by
  simp

/-- A log that only lost items up to `hi` has no more of them. -/
theorem between_le (h : ∀ y ∈ t.items, y.id ≤ hi → y ∈ s.items) :
    t.between lo hi ≤ s.between lo hi := by
  rw [between_eq, between_eq]
  refine (List.subperm_of_subset (t.nodup.filter _) fun y hy => ?_).length_le
  obtain ⟨hmem, hlo, hhi⟩ := mem_interval.1 hy
  exact mem_interval.2 ⟨h y hmem hhi, hlo, hhi⟩

/-- It has fewer when it lost one of the interval. -/
theorem between_lt (h : ∀ y ∈ t.items, y.id ≤ hi → y ∈ s.items) (hx : x ∈ s.items)
    (hlo : lo ≤ x.id) (hhi : x.id ≤ hi) (hnot : x ∉ t.items) :
    t.between lo hi < s.between lo hi := by
  rw [between_eq, between_eq]
  have hnew : x ∉ t.items.filter fun x => lo ≤ x.id && x.id ≤ hi :=
    fun hmem => hnot (mem_interval.1 hmem).1
  refine (List.subperm_of_subset (List.nodup_cons.2 ⟨hnew, t.nodup.filter _⟩)
    fun y hy => ?_).length_le
  rcases List.mem_cons.1 hy with rfl | hy
  · exact mem_interval.2 ⟨hx, hlo, hhi⟩
  · obtain ⟨hmem, h1, h2⟩ := mem_interval.1 hy
    exact mem_interval.2 ⟨h y hmem h2, h1, h2⟩

theorem between_pos (hx : x ∈ s.items) (hlo : lo ≤ x.id) (hhi : x.id ≤ hi) :
    0 < s.between lo hi :=
  List.countP_pos_iff.2 ⟨x, hx, by simp [hlo, hhi]⟩

theorem between_mono_lo {lo' : ℕ} (h : lo ≤ lo') : s.between lo' hi ≤ s.between lo hi := by
  refine List.countP_mono_left fun y _ hy => ?_
  simp only [Bool.and_eq_true, decide_eq_true_eq] at hy ⊢
  omega

end

end

end Log

end Lib
