import Mathlib.Data.List.Induction
import Mathlib.Data.List.Nodup

/-!
# Tables with a primary key

A `Table key` is a list of rows no two of which have the same key.

* `find?` is a lookup by key, `find?_eq_some_iff` what it finds.
* `insert` adds a row with a new key, `modify` changes the row of a key,
  `put` replaces the row of a key or adds it, and `filter` deletes rows.
* `mem_insert`, `mem_modify`, `mem_put` and `mem_filter` are the rows
  afterwards.
* `ofRows` puts the rows of a list one after the other, and `mem_ofRows`
  says that the last row of a key is the one that stays.
-/

/-- Rows with a primary key. -/
@[ext]
structure Table {α κ : Type*} (key : α → κ) where
  rows : List α
  nodup : (rows.map key).Nodup

namespace Table

variable {α κ : Type*} {key : α → κ}

instance : Membership α (Table key) where
  mem t row := row ∈ t.rows

theorem mem_def {t : Table key} {row : α} : row ∈ t ↔ row ∈ t.rows :=
  Iff.rfl

def empty : Table key where
  rows := []
  nodup := List.nodup_nil

@[simp] theorem not_mem_empty (row : α) : row ∉ (empty : Table key) :=
  List.not_mem_nil

/-- The key determines the row. -/
theorem eq_of_key {t : Table key} {a b : α} (ha : a ∈ t) (hb : b ∈ t) (h : key a = key b) :
    a = b :=
  List.inj_on_of_nodup_map t.nodup ha hb h

/-- Keep the rows that meet a condition. -/
def filter (t : Table key) (p : α → Bool) : Table key where
  rows := t.rows.filter p
  nodup := t.nodup.sublist (List.filter_sublist.map key)

@[simp] theorem mem_filter {t : Table key} {p : α → Bool} {row : α} :
    row ∈ t.filter p ↔ row ∈ t ∧ p row = true := by
  simp [filter, mem_def]

variable [DecidableEq κ]

def find? (t : Table key) (k : κ) : Option α :=
  t.rows.find? fun row => key row = k

theorem find?_eq_some {t : Table key} {k : κ} {row : α} (h : t.find? k = some row) :
    row ∈ t ∧ key row = k := by
  unfold find? at h
  have hkey := List.find?_some h
  exact ⟨List.mem_of_find?_eq_some h, by simpa only [decide_eq_true_eq] using hkey⟩

theorem find?_eq_none_iff {t : Table key} {k : κ} :
    t.find? k = none ↔ ∀ row ∈ t, key row ≠ k := by
  simp [find?, mem_def]

/-- A lookup by key finds the one row that has it. -/
theorem find?_eq_some_iff {t : Table key} {k : κ} {row : α} :
    t.find? k = some row ↔ row ∈ t ∧ key row = k := by
  refine ⟨find?_eq_some, fun ⟨hrow, hkey⟩ => ?_⟩
  have hsome : t.find? k ≠ none := fun hnone => find?_eq_none_iff.1 hnone row hrow hkey
  obtain ⟨other, hother⟩ := Option.ne_none_iff_exists'.1 hsome
  obtain ⟨hmem, hkey'⟩ := find?_eq_some hother
  rw [hother, eq_of_key hmem hrow (hkey'.trans hkey.symm)]

/-- Add a row with a new key. -/
def insert (t : Table key) (row : α) (h : t.find? (key row) = none) : Table key where
  rows := t.rows ++ [row]
  nodup := by
    rw [List.map_append, List.map_cons, List.map_nil, ← List.concat_eq_append]
    refine t.nodup.concat ?_
    rintro hmem
    obtain ⟨other, hother, hkey⟩ := List.mem_map.1 hmem
    exact find?_eq_none_iff.1 h other hother hkey

@[simp] theorem mem_insert {t : Table key} {row a : α} {h : t.find? (key row) = none} :
    a ∈ t.insert row h ↔ a ∈ t ∨ a = row := by
  simp [insert, mem_def]

/-- Change the row of a key. -/
def modify (t : Table key) (k : κ) (f : α → α) (hf : ∀ row, key row = k → key (f row) = k) :
    Table key where
  rows := t.rows.map fun row => if key row = k then f row else row
  nodup := by
    have hkeys : (t.rows.map fun row => if key row = k then f row else row).map key =
        t.rows.map key := by
      rw [List.map_map]
      apply List.map_congr_left
      intro row _
      by_cases hk : key row = k
      · simp [hk, hf row hk]
      · simp [hk]
    rw [hkeys]
    exact t.nodup

@[simp] theorem mem_modify {t : Table key} {k : κ} {f : α → α}
    {hf : ∀ row, key row = k → key (f row) = k} {a : α} :
    a ∈ t.modify k f hf ↔ a ∈ t ∧ key a ≠ k ∨ ∃ row ∈ t, key row = k ∧ a = f row := by
  rw [mem_def, modify, List.mem_map]
  constructor
  · rintro ⟨row, hrow, rfl⟩
    by_cases hk : key row = k
    · exact Or.inr ⟨row, hrow, hk, if_pos hk⟩
    · rw [if_neg hk]
      exact Or.inl ⟨hrow, hk⟩
  · rintro (⟨ha, hk⟩ | ⟨row, hrow, hk, rfl⟩)
    · exact ⟨a, ha, if_neg hk⟩
    · exact ⟨row, hrow, if_pos hk⟩

/-- Replace the row with the same key, or add the row. -/
def put (t : Table key) (row : α) : Table key :=
  if h : t.find? (key row) = none then t.insert row h
  else t.modify (key row) (fun _ => row) fun _ _ => rfl

@[simp] theorem mem_put {t : Table key} {row a : α} :
    a ∈ t.put row ↔ a = row ∨ a ∈ t ∧ key a ≠ key row := by
  unfold put
  split
  · rename_i hnone
    rw [mem_insert, or_comm]
    have hkey := find?_eq_none_iff.1 hnone
    exact or_congr_right ⟨fun ha => ⟨ha, hkey a ha⟩, fun ha => ha.1⟩
  · rename_i hsome
    obtain ⟨old, hold⟩ := Option.ne_none_iff_exists'.1 hsome
    obtain ⟨hmem, hkey⟩ := find?_eq_some_iff.1 hold
    rw [mem_modify, or_comm]
    apply or_congr_left
    exact ⟨fun ⟨_, _, _, ha⟩ => ha, fun ha => ⟨old, hmem, hkey, ha⟩⟩

/-- Put the rows of a list, in order. -/
def ofRows (rows : List α) : Table key :=
  rows.foldl put empty

/-- The last row of a key stays. -/
theorem mem_ofRows {rows : List α} {row : α} :
    row ∈ (ofRows rows : Table key) ↔
      (rows.filter fun r => key r = key row).getLast? = some row := by
  induction rows using List.reverseRecOn with
  | nil => simp [ofRows]
  | append_singleton rows last ih =>
    unfold ofRows at ih ⊢
    rw [List.foldl_append, List.foldl_cons, List.foldl_nil, mem_put, ih, List.filter_append]
    by_cases hkey : key last = key row
    · rw [List.filter_cons_of_pos (by simpa using hkey), List.filter_nil, List.getLast?_concat]
      constructor
      · rintro (rfl | ⟨-, hne⟩)
        · rfl
        · exact absurd hkey.symm hne
      · intro h
        exact Or.inl (Option.some.inj h).symm
    · rw [List.filter_cons_of_neg (by simpa using hkey), List.filter_nil, List.append_nil]
      constructor
      · rintro (rfl | ⟨h, -⟩)
        · exact absurd rfl hkey
        · exact h
      · exact fun h => Or.inr ⟨h, fun heq => hkey heq.symm⟩

/-- Rows with distinct keys are left as they are. -/
theorem rows_ofRows_of_nodup {rows : List α} (h : (rows.map key).Nodup) :
    (ofRows rows : Table key).rows = rows := by
  induction rows using List.reverseRecOn with
  | nil => rfl
  | append_singleton rows last ih =>
    rw [List.map_append, List.nodup_append] at h
    have hrows := ih h.1
    have hnone : (ofRows rows : Table key).find? (key last) = none := by
      rw [find?_eq_none_iff]
      intro a ha
      rw [mem_def, hrows] at ha
      exact h.2.2 (key a) (List.mem_map_of_mem ha) (key last) (by simp)
    have hput : (ofRows (rows ++ [last]) : Table key) = (ofRows rows : Table key).put last := by
      simp [ofRows, List.foldl_append]
    rw [hput, put, dif_pos hnone]
    show (ofRows rows : Table key).rows ++ [last] = _
    rw [hrows]

/-- To put rows in order changes them unless their keys are distinct. -/
theorem rows_ofRows_eq_iff {rows : List α} :
    (ofRows rows : Table key).rows = rows ↔ (rows.map key).Nodup :=
  ⟨fun h => h ▸ (ofRows rows : Table key).nodup, rows_ofRows_of_nodup⟩

theorem length_put (t : Table key) (row : α) :
    (t.put row).rows.length = t.rows.length ∨
      t.find? (key row) = none ∧ (t.put row).rows.length = t.rows.length + 1 := by
  unfold put
  split
  · rename_i hnone
    exact Or.inr ⟨hnone, by simp [insert]⟩
  · exact Or.inl (by simp [modify])

/-- Rows whose keys are not distinct become fewer. -/
theorem length_ofRows (rows : List α) :
    (ofRows rows : Table key).rows.length ≤ rows.length ∧
      ((ofRows rows : Table key).rows.length = rows.length → (rows.map key).Nodup) := by
  induction rows using List.reverseRecOn with
  | nil => exact ⟨Nat.le_refl _, fun _ => List.nodup_nil⟩
  | append_singleton rows last ih =>
    obtain ⟨hle, hnodup⟩ := ih
    have hput : (ofRows (rows ++ [last]) : Table key) = (ofRows rows : Table key).put last := by
      simp [ofRows, List.foldl_append]
    rw [hput, List.length_append, List.length_singleton]
    rcases length_put (ofRows rows : Table key) last with hsame | ⟨hnone, hmore⟩
    · exact ⟨by omega, fun h => by omega⟩
    · refine ⟨by omega, fun h => ?_⟩
      have hrows := hnodup (by omega)
      rw [List.map_append, List.map_cons, List.map_nil, ← List.concat_eq_append]
      refine hrows.concat fun hmem => ?_
      obtain ⟨row, hrow, hkey⟩ := List.mem_map.1 hmem
      refine find?_eq_none_iff.1 hnone row ?_ hkey
      rw [mem_def, rows_ofRows_of_nodup hrows]
      exact hrow

theorem mem_of_mem_ofRows {rows : List α} {row : α} (h : row ∈ (ofRows rows : Table key)) :
    row ∈ rows :=
  List.mem_of_mem_filter (List.mem_of_getLast? (mem_ofRows.1 h))

omit [DecidableEq κ] in
/-- A condition that one row meets leaves this row. -/
theorem filter_eq_singleton {t : Table key} {p : α → Bool} {row : α} (hrow : row ∈ t)
    (h : ∀ other ∈ t, p other = true ↔ other = row) : t.rows.filter p = [row] := by
  have hmem : ∀ other, other ∈ t.rows.filter p ↔ other = row := by
    intro other
    rw [List.mem_filter]
    constructor
    · rintro ⟨hother, hp⟩
      exact (h other hother).1 hp
    · rintro rfl
      exact ⟨hrow, (h other hrow).2 rfl⟩
  have hnodup : (t.rows.filter p).Nodup := t.nodup.of_map.filter p
  cases hfilter : t.rows.filter p with
  | nil =>
    have hnil := (hmem row).2 rfl
    rw [hfilter] at hnil
    cases hnil
  | cons first rest =>
    rw [hfilter] at hmem hnodup
    have hfirst := (hmem first).1 (List.mem_cons_self ..)
    cases rest with
    | nil => rw [hfirst]
    | cons second rest =>
      have hsecond := (hmem second).1 (by simp)
      rw [hfirst, hsecond] at hnodup
      simp at hnodup

end Table
