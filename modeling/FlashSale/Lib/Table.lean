/-
# Finite tables

A table holds finitely many rows under distinct keys, in the order in which the
keys were first inserted. It is the carrier of every relation of a stored
database: lookup by primary key, insertion of a new key, and update in place.

* `get?_insert`, `get?_modify` say what each operation does to every lookup.
* `sum_insert`, `sum_modify` say what it does to the total of any integer
  measure of the rows. Conservation laws are read off these two.
* `count_insert`, `count_eq_zero` say the same of the number of rows with a property.
-/
import Mathlib.Data.List.Nodup
import Mathlib.Data.Fintype.EquivFin
import Mathlib.Logic.Equiv.Defs
import Mathlib.Algebra.BigOperators.Group.List.Basic
import Mathlib.Algebra.Order.BigOperators.Group.List
import Mathlib.Algebra.Order.Ring.Int

namespace Lib

variable {K V : Type}

/-- Rows under distinct keys, in insertion order. Two tables with the same rows in another
order are different. -/
structure Table (K V : Type) where
  rows : List (K × V)
  nodup : (rows.map Prod.fst).Nodup

namespace Table

/-! ### Lookup -/

/-- The row under `k` in a list of rows. -/
def find [DecidableEq K] : List (K × V) → K → Option V
  | [], _ => none
  | (k', v) :: rest, k => if k' = k then some v else find rest k

/-- The row stored under a key. -/
def get? [DecidableEq K] (t : Table K V) (k : K) : Option V := find t.rows k

/-- The table without rows. -/
def empty : Table K V := ⟨[], List.nodup_nil⟩

theorem find_mem [DecidableEq K] {rows : List (K × V)} {k : K} {v : V}
    (h : find rows k = some v) : (k, v) ∈ rows := by
  induction rows with
  | nil => simp [find] at h
  | cons row rest ih =>
    obtain ⟨k', v'⟩ := row
    by_cases same : k' = k
    · simp only [find, same, if_true, Option.some.injEq] at h
      subst same h
      exact List.mem_cons_self
    · simp only [find, same, if_false] at h
      exact List.mem_cons_of_mem _ (ih h)

theorem find_of_mem [DecidableEq K] {rows : List (K × V)} (nodup : (rows.map Prod.fst).Nodup)
    {k : K} {v : V} (h : (k, v) ∈ rows) : find rows k = some v := by
  induction rows with
  | nil => simp at h
  | cons row rest ih =>
    obtain ⟨k', v'⟩ := row
    simp only [List.map_cons, List.nodup_cons] at nodup
    rcases List.mem_cons.mp h with eq | tail
    · cases eq
      simp [find]
    · have ne : k' ≠ k := by
        rintro rfl
        exact nodup.1 (List.mem_map.mpr ⟨(k', v), tail, rfl⟩)
      simpa [find, ne] using ih nodup.2 tail

theorem find_eq_none [DecidableEq K] {rows : List (K × V)} {k : K} :
    find rows k = none ↔ k ∉ rows.map Prod.fst := by
  induction rows with
  | nil => simp [find]
  | cons row rest ih =>
    obtain ⟨k', v'⟩ := row
    by_cases same : k' = k
    · simp [find, same]
    · simp [find, same, ih, Ne.symm same]

/-- The rows of a table are exactly its lookups. -/
theorem mem_rows_iff [DecidableEq K] {t : Table K V} {k : K} {v : V} :
    (k, v) ∈ t.rows ↔ t.get? k = some v :=
  ⟨find_of_mem t.nodup, find_mem⟩

theorem mem_rows_pair [DecidableEq K] {t : Table K V} {row : K × V} :
    row ∈ t.rows ↔ t.get? row.1 = some row.2 :=
  mem_rows_iff

/-- There are always new keys. -/
theorem exists_new [DecidableEq K] [Infinite K] (t : Table K V) : ∃ k, t.get? k = none := by
  obtain ⟨k, absent⟩ := Infinite.exists_notMem_finset (t.rows.map Prod.fst).toFinset
  exact ⟨k, find_eq_none.mpr fun mem => absent (List.mem_toFinset.mpr mem)⟩

/-- Tables with rows under corresponding keys have equally many. -/
theorem length_eq {W : Type} [DecidableEq K] {t : Table K V} {t' : Table K W} (keys : Equiv.Perm K)
    (same : ∀ k, t'.get? (keys k) = none ↔ t.get? k = none) : t'.rows.length = t.rows.length := by
  have nodup : ((t.rows.map Prod.fst).map keys).Nodup := t.nodup.map keys.injective
  have perm : (t'.rows.map Prod.fst).Perm ((t.rows.map Prod.fst).map keys) := by
    refine (List.perm_ext_iff_of_nodup t'.nodup nodup).mpr fun k => ?_
    have there : k ∉ t'.rows.map Prod.fst ↔ keys.symm k ∉ t.rows.map Prod.fst := by
      rw [← find_eq_none, ← find_eq_none]
      have at_ := same (keys.symm k)
      rw [keys.apply_symm_apply] at at_
      exact at_
    rw [not_iff_not.mp there]
    constructor
    · intro mem
      exact List.mem_map.mpr ⟨_, mem, keys.apply_symm_apply k⟩
    · intro mem
      obtain ⟨k', inside, rfl⟩ := List.mem_map.mp mem
      rw [keys.symm_apply_apply]
      exact inside
  simpa using perm.length_eq

/-! ### Insertion and update -/

/-- Insert a row under a new key; a key that is present keeps its row. -/
def insert [DecidableEq K] (t : Table K V) (k : K) (v : V) : Table K V :=
  if h : find t.rows k = none then
    ⟨t.rows ++ [(k, v)], by
      rw [List.map_append, List.nodup_append]
      refine ⟨t.nodup, by simp, ?_⟩
      intro a ha b hb eq
      simp only [List.map_cons, List.map_nil, List.mem_singleton] at hb
      exact find_eq_none.mp h (hb ▸ eq ▸ ha)⟩
  else t

/-- Update the row under `k` in place; without such a row nothing changes. -/
def modify [DecidableEq K] (t : Table K V) (k : K) (f : V → V) : Table K V :=
  ⟨t.rows.map fun row => if row.1 = k then (row.1, f row.2) else row, by
    rw [List.map_map]
    have keys : (Prod.fst ∘ fun row : K × V => if row.1 = k then (row.1, f row.2) else row) =
        Prod.fst := by
      funext row
      simp only [Function.comp]
      split <;> rfl
    rw [keys]
    exact t.nodup⟩

theorem rows_insert [DecidableEq K] {t : Table K V} {k : K} {v : V} (fresh : t.get? k = none) :
    (t.insert k v).rows = t.rows ++ [(k, v)] := by
  have absent : find t.rows k = none := fresh
  simp [insert, absent]

theorem insert_present [DecidableEq K] {t : Table K V} {k : K} {v w : V}
    (present : t.get? k = some w) : t.insert k v = t := by
  have : ¬ find t.rows k = none := by
    intro h
    rw [get?, h] at present
    cases present
  simp [insert, this]

theorem find_append [DecidableEq K] (rows more : List (K × V)) (k : K) :
    find (rows ++ more) k = (find rows k).or (find more k) := by
  induction rows with
  | nil => simp [find]
  | cons row rest ih =>
    obtain ⟨k', v'⟩ := row
    by_cases same : k' = k <;> simp [find, same, ih]

/-- What an insertion does to every lookup. -/
theorem get?_insert [DecidableEq K] (t : Table K V) (k : K) (v : V) (k' : K) :
    (t.insert k v).get? k' = (t.get? k').or (if k = k' then some v else none) := by
  cases h : t.get? k with
  | none =>
    rw [get?, rows_insert h, find_append]
    rfl
  | some w =>
    rw [insert_present h]
    by_cases same : k = k'
    · subst same
      simp [h]
    · simp [same]

theorem get?_insert_self [DecidableEq K] {t : Table K V} {k : K} {v : V}
    (fresh : t.get? k = none) : (t.insert k v).get? k = some v := by
  simp [get?_insert, fresh]

theorem get?_insert_ne [DecidableEq K] {t : Table K V} {k k' : K} {v : V} (ne : k ≠ k') :
    (t.insert k v).get? k' = t.get? k' := by
  simp [get?_insert, ne]

theorem get?_insert_eq_none [DecidableEq K] {t : Table K V} {k k' : K} {v : V} :
    (t.insert k v).get? k' = none ↔ t.get? k' = none ∧ k ≠ k' := by
  rw [get?_insert]
  by_cases same : k = k' <;> simp [same]

theorem get?_insert_ne_none [DecidableEq K] {t : Table K V} {k k' : K} {v : V} :
    (t.insert k v).get? k' ≠ none ↔ t.get? k' ≠ none ∨ k = k' := by
  rw [Ne, get?_insert_eq_none, not_and_or, not_not]

/-- A row that is there stays there under an insertion. -/
theorem get?_insert_of_some [DecidableEq K] {t : Table K V} {k k' : K} {v w : V}
    (present : t.get? k' = some w) : (t.insert k v).get? k' = some w := by
  simp [get?_insert, present]

/-- A row found after an insertion is the new one or was there before. -/
theorem get?_insert_cases [DecidableEq K] {t : Table K V} {k k' : K} {v w : V}
    (h : (t.insert k v).get? k' = some w) : t.get? k' = some w ∨ (k = k' ∧ v = w) := by
  rw [get?_insert] at h
  cases old : t.get? k' with
  | some u =>
    rw [old] at h
    simpa using Or.inl h
  | none =>
    rw [old] at h
    by_cases same : k = k'
    · simp only [same, if_true, Option.none_or, Option.some.injEq] at h
      exact Or.inr ⟨same, h⟩
    · simp [same] at h

/-- What an update does to every lookup. -/
theorem get?_modify [DecidableEq K] (t : Table K V) (k : K) (f : V → V) (k' : K) :
    (t.modify k f).get? k' = if k = k' then (t.get? k').map f else t.get? k' := by
  have key : ∀ rows : List (K × V),
      find (rows.map fun row => if row.1 = k then (row.1, f row.2) else row) k' =
        if k = k' then (find rows k').map f else find rows k' := by
    intro rows
    induction rows with
    | nil => simp [find]
    | cons row rest ih =>
      obtain ⟨k₁, v₁⟩ := row
      by_cases hk : k₁ = k
      · subst hk
        by_cases same : k₁ = k'
        · simp [find, same]
        · simp [find, same, ih]
      · by_cases same : k₁ = k'
        · subst same
          simp [find, hk, Ne.symm hk]
        · simp [find, hk, same, ih]
  exact key t.rows

theorem get?_modify_self [DecidableEq K] {t : Table K V} {k : K} {f : V → V} :
    (t.modify k f).get? k = (t.get? k).map f := by
  simp [get?_modify]

theorem get?_modify_ne [DecidableEq K] {t : Table K V} {k k' : K} {f : V → V} (ne : k ≠ k') :
    (t.modify k f).get? k' = t.get? k' := by
  simp [get?_modify, ne]

theorem get?_modify_of_some [DecidableEq K] {t : Table K V} {k k' : K} {f : V → V} {v : V}
    (present : t.get? k' = some v) :
    (t.modify k f).get? k' = some (if k = k' then f v else v) := by
  rw [get?_modify, present]
  by_cases same : k = k' <;> simp [same]

/-- An update changes rows, not which keys have one. -/
theorem get?_modify_eq_none [DecidableEq K] {t : Table K V} {k k' : K} {f : V → V} :
    (t.modify k f).get? k' = none ↔ t.get? k' = none := by
  rw [get?_modify]
  by_cases same : k = k' <;> simp [same]

/-- A row found after an update was there before, up to the update. -/
theorem get?_modify_cases [DecidableEq K] {t : Table K V} {k k' : K} {f : V → V} {w : V}
    (h : (t.modify k f).get? k' = some w) :
    ∃ v, t.get? k' = some v ∧ ((k = k' ∧ w = f v) ∨ (k ≠ k' ∧ w = v)) := by
  rw [get?_modify] at h
  by_cases same : k = k'
  · simp only [same, if_true, Option.map_eq_some_iff] at h
    obtain ⟨v, hv, eq⟩ := h
    exact ⟨v, hv, Or.inl ⟨same, eq.symm⟩⟩
  · simp only [same, if_false] at h
    exact ⟨w, h, Or.inr ⟨same, rfl⟩⟩

/-! ### Inserting several rows -/

/-- Insert rows one after another. -/
def insertAll [DecidableEq K] (t : Table K V) (rows : List (K × V)) : Table K V :=
  rows.foldl (fun t row => t.insert row.1 row.2) t

@[simp] theorem insertAll_nil [DecidableEq K] (t : Table K V) : t.insertAll [] = t := rfl

theorem insertAll_cons [DecidableEq K] (t : Table K V) (row : K × V) (rows : List (K × V)) :
    t.insertAll (row :: rows) = (t.insert row.1 row.2).insertAll rows := rfl

theorem get?_insertAll_eq_none [DecidableEq K] {t : Table K V} {rows : List (K × V)} {k : K} :
    (t.insertAll rows).get? k = none ↔ t.get? k = none ∧ k ∉ rows.map Prod.fst := by
  induction rows generalizing t with
  | nil => simp
  | cons row rows ih =>
    rw [insertAll_cons, ih, get?_insert]
    by_cases same : row.1 = k
    · simp [same]
    · simp [same, Ne.symm same]

/-- A row that is there stays there. -/
theorem get?_insertAll_of_some [DecidableEq K] {t : Table K V} {rows : List (K × V)} {k : K}
    {v : V} (present : t.get? k = some v) : (t.insertAll rows).get? k = some v := by
  induction rows generalizing t with
  | nil => exact present
  | cons row rows ih => exact ih (get?_insert_of_some present)

/-- A row found afterwards is one of the new ones or was there before. -/
theorem get?_insertAll_cases [DecidableEq K] {t : Table K V} {rows : List (K × V)} {k : K}
    {v : V} (h : (t.insertAll rows).get? k = some v) : t.get? k = some v ∨ (k, v) ∈ rows := by
  induction rows generalizing t with
  | nil => exact Or.inl h
  | cons row rows ih =>
    rcases ih h with old | new
    · rcases get?_insert_cases old with old | ⟨rfl, rfl⟩
      · exact Or.inl old
      · exact Or.inr List.mem_cons_self
    · exact Or.inr (List.mem_cons_of_mem _ new)

/-- New rows under distinct fresh keys are all there afterwards. -/
theorem get?_insertAll_of_mem [DecidableEq K] {t : Table K V} {rows : List (K × V)} {k : K} {v : V}
    (nodup : (rows.map Prod.fst).Nodup) (fresh : ∀ row ∈ rows, t.get? row.1 = none)
    (mem : (k, v) ∈ rows) : (t.insertAll rows).get? k = some v := by
  induction rows generalizing t with
  | nil => cases mem
  | cons row rows ih =>
    simp only [List.map_cons, List.nodup_cons] at nodup
    rcases List.mem_cons.mp mem with rfl | later
    · have absent : t.get? k = none := fresh (k, v) List.mem_cons_self
      have there : (t.insert k v).get? k = some v := get?_insert_self absent
      rw [insertAll_cons]
      exact get?_insertAll_of_some there
    · refine ih nodup.2 (fun row' mem' => ?_) later
      have ne : row.1 ≠ row'.1 := fun eq =>
        nodup.1 (List.mem_map.mpr ⟨row', mem', eq.symm⟩)
      rw [get?_insert_ne ne]
      exact fresh row' (List.mem_cons_of_mem _ mem')

/-! ### Updating several rows -/

/-- Update rows one after another. -/
def modifyAll [DecidableEq K] (t : Table K V) (changes : List (K × (V → V))) : Table K V :=
  changes.foldl (fun t change => t.modify change.1 change.2) t

theorem modifyAll_cons [DecidableEq K] (t : Table K V) (change : K × (V → V))
    (changes : List (K × (V → V))) :
    t.modifyAll (change :: changes) = (t.modify change.1 change.2).modifyAll changes := rfl

/-- A row whose key is not listed stays as it is. -/
theorem get?_modifyAll_of_notMem [DecidableEq K] {t : Table K V} {changes : List (K × (V → V))}
    {k : K} (absent : k ∉ changes.map Prod.fst) : (t.modifyAll changes).get? k = t.get? k := by
  induction changes generalizing t with
  | nil => rfl
  | cons change changes ih =>
    simp only [List.map_cons, List.mem_cons, not_or] at absent
    rw [modifyAll_cons, ih absent.2, get?_modify_ne (Ne.symm absent.1)]

/-- A row whose key is listed once gets its own change. -/
theorem get?_modifyAll_of_mem [DecidableEq K] {t : Table K V} {changes : List (K × (V → V))}
    {k : K} {f : V → V} (nodup : (changes.map Prod.fst).Nodup) (mem : (k, f) ∈ changes) :
    (t.modifyAll changes).get? k = (t.get? k).map f := by
  induction changes generalizing t with
  | nil => cases mem
  | cons change changes ih =>
    simp only [List.map_cons, List.nodup_cons] at nodup
    rw [modifyAll_cons]
    rcases List.mem_cons.mp mem with rfl | later
    · rw [get?_modifyAll_of_notMem nodup.1, get?_modify_self]
    · have ne : change.1 ≠ k := by
        rintro rfl
        exact nodup.1 (List.mem_map.mpr ⟨_, later, rfl⟩)
      rw [ih nodup.2 later, get?_modify_ne ne]

/-! ### Totals -/

/-- The total of a measure over the rows. -/
def sum (t : Table K V) (g : K → V → Int) : Int := (t.rows.map fun row => g row.1 row.2).sum

/-- A new row adds its measure to the total. -/
theorem sum_insert [DecidableEq K] {t : Table K V} {k : K} (v : V) (fresh : t.get? k = none)
    (g : K → V → Int) : (t.insert k v).sum g = t.sum g + g k v := by
  simp [sum, rows_insert fresh]

theorem sum_insertAll [DecidableEq K] {t : Table K V} {rows : List (K × V)}
    (nodup : (rows.map Prod.fst).Nodup) (fresh : ∀ row ∈ rows, t.get? row.1 = none)
    (g : K → V → Int) :
    (t.insertAll rows).sum g = t.sum g + (rows.map fun row => g row.1 row.2).sum := by
  induction rows generalizing t with
  | nil => simp
  | cons row rows ih =>
    simp only [List.map_cons, List.nodup_cons] at nodup
    rw [insertAll_cons, ih nodup.2, sum_insert _ (fresh _ List.mem_cons_self)]
    · simp only [List.map_cons, List.sum_cons]
      omega
    · intro row' mem
      have ne : row.1 ≠ row'.1 := fun eq => nodup.1 (List.mem_map.mpr ⟨row', mem, eq.symm⟩)
      rw [get?_insert_ne ne]
      exact fresh row' (List.mem_cons_of_mem _ mem)

/-- An update of a row changes the total by the difference of its measures. -/
theorem sum_modify [DecidableEq K] {t : Table K V} {k : K} {v : V} (present : t.get? k = some v)
    (f : V → V) (g : K → V → Int) : (t.modify k f).sum g = t.sum g - g k v + g k (f v) := by
  have key : ∀ rows : List (K × V), (rows.map Prod.fst).Nodup → find rows k = some v →
      ((rows.map fun row => if row.1 = k then (row.1, f row.2) else row).map
          fun row => g row.1 row.2).sum =
        (rows.map fun row => g row.1 row.2).sum - g k v + g k (f v) := by
    intro rows nodup found
    induction rows with
    | nil => simp [find] at found
    | cons row rest ih =>
      obtain ⟨k₁, v₁⟩ := row
      simp only [List.map_cons, List.nodup_cons] at nodup
      by_cases same : k₁ = k
      · subst same
        simp only [find, if_true, Option.some.injEq] at found
        subst found
        -- No later row has this key, so the update leaves the rest alone.
        have untouched : (rest.map fun row => if row.1 = k₁ then (row.1, f row.2) else row) =
            rest := by
          conv_rhs => rw [← List.map_id rest]
          refine List.map_congr_left fun row mem => ?_
          have : row.1 ≠ k₁ := fun eq =>
            nodup.1 (List.mem_map.mpr ⟨row, mem, eq⟩)
          simp [this]
        simp only [List.map_cons, if_true, List.sum_cons, untouched]
        omega
      · simp only [find, same, if_false] at found
        simp only [List.map_cons, same, if_false, List.sum_cons, ih nodup.2 found]
        omega
  exact key t.rows t.nodup present

theorem modify_absent [DecidableEq K] {t : Table K V} {k : K} (absent : t.get? k = none)
    (f : V → V) : t.modify k f = t := by
  have rows : (t.rows.map fun row => if row.1 = k then (row.1, f row.2) else row) = t.rows := by
    conv_rhs => rw [← List.map_id t.rows]
    refine List.map_congr_left fun row mem => ?_
    have : row.1 ≠ k := by
      intro eq
      have found := mem_rows_pair.mp mem
      rw [eq, absent] at found
      cases found
    simp [this]
  cases t
  simp only [modify] at rows ⊢
  congr

theorem sum_congr [DecidableEq K] {t : Table K V} {g h : K → V → Int}
    (agree : ∀ k v, t.get? k = some v → g k v = h k v) : t.sum g = t.sum h := by
  unfold sum
  congr 1
  exact List.map_congr_left fun row mem => agree row.1 row.2 (mem_rows_pair.mp mem)

theorem sum_add (t : Table K V) (g h : K → V → Int) :
    t.sum (fun k v => g k v + h k v) = t.sum g + t.sum h := by
  simp [sum, List.sum_map_add]

theorem sum_eq_zero [DecidableEq K] {t : Table K V} {g : K → V → Int}
    (zero : ∀ k v, t.get? k = some v → g k v = 0) : t.sum g = 0 := by
  rw [sum_congr zero]
  simp [sum]

theorem sum_nonneg [DecidableEq K] {t : Table K V} {g : K → V → Int}
    (all : ∀ k v, t.get? k = some v → 0 ≤ g k v) : 0 ≤ t.sum g := by
  refine List.sum_nonneg fun n mem => ?_
  obtain ⟨row, inside, rfl⟩ := List.mem_map.mp mem
  exact all row.1 row.2 (mem_rows_pair.mp inside)

theorem sum_le_sum [DecidableEq K] {t : Table K V} {g h : K → V → Int}
    (all : ∀ k v, t.get? k = some v → g k v ≤ h k v) : t.sum g ≤ t.sum h := by
  have nonneg : 0 ≤ t.sum fun k v => h k v - g k v :=
    sum_nonneg fun k v found => Int.sub_nonneg_of_le (all k v found)
  have split := sum_add t g fun k v => h k v - g k v
  have same : t.sum (fun k v => g k v + (h k v - g k v)) = t.sum h :=
    sum_congr fun k v _ => by omega
  omega

/-- Each change of a row by which its measure is less makes the total less. -/
theorem sum_modifyAll_lt [DecidableEq K] {t : Table K V} {changes : List (K × (V → V))}
    {g : K → V → Int} (nodup : (changes.map Prod.fst).Nodup)
    (less : ∀ c ∈ changes, ∃ v, t.get? c.1 = some v ∧ g c.1 (c.2 v) < g c.1 v) :
    (t.modifyAll changes).sum g + changes.length ≤ t.sum g := by
  induction changes generalizing t with
  | nil => simp [modifyAll]
  | cons change changes ih =>
    simp only [List.map_cons, List.nodup_cons] at nodup
    obtain ⟨v, found, lower⟩ := less change List.mem_cons_self
    have first := sum_modify found change.2 g
    have rest : (modifyAll (t.modify change.1 change.2) changes).sum g + changes.length ≤
        (t.modify change.1 change.2).sum g := by
      refine ih nodup.2 fun c mem => ?_
      have other : change.1 ≠ c.1 := fun same => nodup.1 (List.mem_map.mpr ⟨c, mem, same.symm⟩)
      rw [get?_modify_ne other]
      exact less c (List.mem_cons_of_mem _ mem)
    rw [modifyAll_cons, List.length_cons]
    omega

/-- A measure of the rows has a bound. -/
theorem bounded [DecidableEq K] (t : Table K V) (g : K → V → Int) :
    ∃ bound, ∀ k v, t.get? k = some v → g k v ≤ bound := by
  have all : ∀ rows : List (K × V), ∃ bound, ∀ row ∈ rows, g row.1 row.2 ≤ bound := by
    intro rows
    induction rows with
    | nil => exact ⟨0, by simp⟩
    | cons row rows ih =>
      obtain ⟨bound, below⟩ := ih
      refine ⟨max (g row.1 row.2) bound, fun row' mem => ?_⟩
      rcases List.mem_cons.mp mem with rfl | later
      · exact le_max_left _ _
      · exact (below row' later).trans (le_max_right _ _)
  obtain ⟨bound, below⟩ := all t.rows
  exact ⟨bound, fun k v found => below (k, v) (mem_rows_iff.mpr found)⟩

/-! ### Counts -/

/-- The number of rows with a property. -/
def count (t : Table K V) (p : K → V → Bool) : Nat :=
  (t.rows.filter fun row => p row.1 row.2).length

/-- A new row is counted if it has the property. -/
theorem count_insert [DecidableEq K] {t : Table K V} {k : K} (v : V) (fresh : t.get? k = none)
    (p : K → V → Bool) : (t.insert k v).count p = t.count p + if p k v then 1 else 0 := by
  simp only [count, rows_insert fresh, List.filter_append, List.length_append]
  by_cases h : p k v <;> simp [h]

theorem count_eq_zero [DecidableEq K] {t : Table K V} {p : K → V → Bool} :
    t.count p = 0 ↔ ∀ k v, t.get? k = some v → p k v = false := by
  rw [count, List.length_eq_zero_iff, List.filter_eq_nil_iff]
  constructor
  · intro h k v found
    simpa using h (k, v) (mem_rows_iff.mpr found)
  · intro h row mem
    simpa using h row.1 row.2 (mem_rows_pair.mp mem)

/-! ### Queries -/

/-- The rows with a property, in table order. -/
def select (t : Table K V) (p : K → V → Bool) : List (K × V) := t.rows.filter fun row => p row.1 row.2

theorem mem_select [DecidableEq K] {t : Table K V} {p : K → V → Bool} {row : K × V} :
    row ∈ t.select p ↔ t.get? row.1 = some row.2 ∧ p row.1 row.2 = true := by
  rw [select, List.mem_filter, mem_rows_pair]

theorem select_nodup (t : Table K V) (p : K → V → Bool) : ((t.select p).map Prod.fst).Nodup :=
  (List.filter_sublist.map Prod.fst).nodup t.nodup

theorem sum_select (t : Table K V) (p : K → V → Bool) (g : K → V → Int) :
    ((t.select p).map fun row => g row.1 row.2).sum = t.sum fun k v => if p k v then g k v else 0 := by
  rw [select, sum]
  induction t.rows with
  | nil => rfl
  | cons row rows ih => by_cases sat : p row.1 row.2 = true <;> simp [sat, ih]

/-- Whether some row has a property. -/
def any (t : Table K V) (p : K → V → Bool) : Bool := t.rows.any fun row => p row.1 row.2

theorem any_iff [DecidableEq K] {t : Table K V} {p : K → V → Bool} :
    t.any p = true ↔ ∃ k v, t.get? k = some v ∧ p k v = true := by
  rw [any, List.any_eq_true]
  constructor
  · rintro ⟨row, mem, sat⟩
    exact ⟨row.1, row.2, mem_rows_pair.mp mem, sat⟩
  · rintro ⟨k, v, found, sat⟩
    exact ⟨(k, v), mem_rows_iff.mpr found, sat⟩

theorem any_eq_false [DecidableEq K] {t : Table K V} {p : K → V → Bool} :
    t.any p = false ↔ ∀ k v, t.get? k = some v → p k v = false := by
  rw [← Bool.not_eq_true, any_iff]
  constructor
  · intro h k v found
    by_contra sat
    exact h ⟨k, v, found, by simpa using sat⟩
  · rintro h ⟨k, v, found, sat⟩
    rw [h k v found] at sat
    cases sat

end Table

end Lib
