import Mathlib.Data.List.Nodup

namespace CardanoGraphql.KeyedTable

variable {α κ : Type} [DecidableEq κ] (key : α → κ)

def lookup (k : κ) (rows : List α) : Option α := rows.find? (fun r => decide (key r = k))

/-- `INSERT … ON CONFLICT DO NOTHING` with several rows: a row whose key is
already there is skipped, also when the earlier row came with the same call. -/
def insertAbsent (rows : List α) : List α → List α
  | [] => rows
  | x :: xs => if key x ∈ rows.map key then insertAbsent rows xs else insertAbsent (rows ++ [x]) xs

/-- The rows such a call really adds, which is what its `RETURNING` lists. -/
def newRows (rows : List α) : List α → List α
  | [] => []
  | x :: xs => if key x ∈ rows.map key then newRows rows xs else x :: newRows (rows ++ [x]) xs

@[simp] theorem lookup_nil (k : κ) : lookup key k [] = none := rfl

@[simp] theorem lookup_append (k : κ) (xs ys : List α) :
    lookup key k (xs ++ ys) = (lookup key k xs).or (lookup key k ys) := by
  simp [lookup]

theorem lookup_cons (k : κ) (x : α) (xs : List α) :
    lookup key k (x :: xs) = if key x = k then some x else lookup key k xs := by
  by_cases h : key x = k <;> simp [lookup, h]

theorem lookup_eq_none_iff (k : κ) (rows : List α) : lookup key k rows = none ↔ k ∉ rows.map key := by
  simp [lookup]

theorem lookup_isSome_iff (k : κ) (rows : List α) :
    (lookup key k rows).isSome = true ↔ k ∈ rows.map key := by
  rw [← not_iff_not, Bool.not_eq_true, Option.isSome_eq_false_iff, Option.isNone_iff_eq_none,
    lookup_eq_none_iff]

theorem lookup_some {k : κ} {rows : List α} {r : α} (h : lookup key k rows = some r) :
    r ∈ rows ∧ key r = k :=
  ⟨List.mem_of_find?_eq_some h, by simpa using List.find?_some h⟩

theorem lookup_filter (k : κ) (p : α → Bool) {rows : List α} (hn : (rows.map key).Nodup) :
    lookup key k (rows.filter p) = (lookup key k rows).filter p := by
  induction rows with
  | nil => rfl
  | cons x xs ih =>
      obtain ⟨hx, hxs⟩ := List.nodup_cons.mp hn
      rw [lookup_cons]
      by_cases hk : key x = k
      · subst hk
        have habs : lookup key (key x) xs = none := (lookup_eq_none_iff key _ _).mpr hx
        cases hp : p x with
        | false => simp [hp, ih hxs, habs, Option.filter]
        | true => simp [hp, lookup_cons, Option.filter]
      · cases hp : p x with
        | false => simp [hp, ih hxs, hk]
        | true => simp [hp, lookup_cons, ih hxs, hk]

theorem insertAbsent_eq (rows xs : List α) :
    insertAbsent key rows xs = rows ++ newRows key rows xs := by
  induction xs generalizing rows with
  | nil => simp [insertAbsent, newRows]
  | cons x xs ih =>
      by_cases h : key x ∈ rows.map key
      · rw [insertAbsent, newRows, if_pos h, if_pos h, ih]
      · rw [insertAbsent, newRows, if_neg h, if_neg h, ih, List.append_assoc, List.singleton_append]

theorem insertAbsent_append (rows xs ys : List α) :
    insertAbsent key rows (xs ++ ys) = insertAbsent key (insertAbsent key rows xs) ys := by
  induction xs generalizing rows with
  | nil => rfl
  | cons x xs ih =>
      by_cases h : key x ∈ rows.map key
      · rw [List.cons_append, insertAbsent, insertAbsent, if_pos h, if_pos h, ih]
      · rw [List.cons_append, insertAbsent, insertAbsent, if_neg h, if_neg h, ih]

/-- The table after a call answers every key as the table followed by the rows
of the call would: the first occurrence decides. -/
@[simp] theorem lookup_insertAbsent (k : κ) (rows xs : List α) :
    lookup key k (insertAbsent key rows xs) = (lookup key k rows).or (lookup key k xs) := by
  induction xs generalizing rows with
  | nil => simp [insertAbsent]
  | cons x xs ih =>
      by_cases h : key x ∈ rows.map key
      · rw [insertAbsent, if_pos h, ih, lookup_cons]
        by_cases hk : key x = k
        · subst hk
          have hs := (lookup_isSome_iff key _ _).mpr h
          obtain ⟨r, hr⟩ := Option.isSome_iff_exists.mp hs
          simp [hr]
        · rw [if_neg hk]
      · rw [insertAbsent, if_neg h, ih, lookup_append, Option.or_assoc, lookup_cons, lookup_cons]
        by_cases hk : key x = k <;> simp [hk]

theorem insertAbsent_of_mem {rows xs : List α} (h : ∀ x ∈ xs, key x ∈ rows.map key) :
    insertAbsent key rows xs = rows := by
  induction xs with
  | nil => rfl
  | cons x xs ih =>
      rw [insertAbsent, if_pos (h x List.mem_cons_self)]
      exact ih fun y hy => h y (List.mem_cons_of_mem _ hy)

theorem mem_keys_insertAbsent (k : κ) (rows xs : List α) :
    k ∈ (insertAbsent key rows xs).map key ↔ k ∈ rows.map key ∨ k ∈ xs.map key := by
  simp only [← lookup_isSome_iff, lookup_insertAbsent, Option.isSome_or, Bool.or_eq_true]

theorem insertAbsent_self (rows xs : List α) :
    insertAbsent key (insertAbsent key rows xs) xs = insertAbsent key rows xs :=
  insertAbsent_of_mem key fun _ hx =>
    (mem_keys_insertAbsent key _ rows xs).mpr (Or.inr (List.mem_map_of_mem hx))

theorem newRows_keys (rows xs : List α) :
    ((newRows key rows xs).map key).Nodup ∧
      ∀ k ∈ (newRows key rows xs).map key, k ∉ rows.map key ∧ k ∈ xs.map key := by
  induction xs generalizing rows with
  | nil => simp [newRows]
  | cons x xs ih =>
      by_cases h : key x ∈ rows.map key
      · rw [newRows, if_pos h]
        obtain ⟨hn, hk⟩ := ih rows
        exact ⟨hn, fun k hm => ⟨(hk k hm).1, List.mem_cons_of_mem _ (hk k hm).2⟩⟩
      · rw [newRows, if_neg h]
        obtain ⟨hn, hk⟩ := ih (rows ++ [x])
        simp only [List.map_append, List.map_cons, List.map_nil, List.mem_append, List.mem_singleton,
          not_or] at hk
        refine ⟨List.nodup_cons.mpr ⟨fun hm => (hk _ hm).1.2 rfl, hn⟩, ?_⟩
        intro k hm
        rcases List.mem_cons.mp hm with rfl | hm
        · exact ⟨h, List.mem_cons_self⟩
        · exact ⟨(hk k hm).1.1, List.mem_cons_of_mem _ (hk k hm).2⟩

theorem newRows_sublist (rows xs : List α) : (newRows key rows xs).Sublist xs := by
  induction xs generalizing rows with
  | nil => exact List.Sublist.refl _
  | cons x xs ih =>
      by_cases h : key x ∈ rows.map key
      · rw [newRows, if_pos h]
        exact (ih rows).cons x
      · rw [newRows, if_neg h]
        exact (ih (rows ++ [x])).cons_cons x

theorem insertAbsent_nodup {rows : List α} (hn : (rows.map key).Nodup) (xs : List α) :
    ((insertAbsent key rows xs).map key).Nodup := by
  rw [insertAbsent_eq, List.map_append]
  refine List.nodup_append.mpr ⟨hn, (newRows_keys key rows xs).1, ?_⟩
  intro a ha b hb he
  exact ((newRows_keys key rows xs).2 b hb).1 (he ▸ ha)

end CardanoGraphql.KeyedTable
