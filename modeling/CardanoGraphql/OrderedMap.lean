import CardanoGraphql.KeyedTable

namespace CardanoGraphql.OrderedMap

open KeyedTable

variable {κ α : Type} [DecidableEq κ]

/-- A map that keeps its keys in the order in which they were first set. -/
def get? (m : List (κ × α)) (k : κ) : Option α := (lookup Prod.fst k m).map Prod.snd

def set (m : List (κ × α)) (k : κ) (a : α) : List (κ × α) :=
  if k ∈ m.map Prod.fst then m.map fun p => if p.1 = k then (k, a) else p else m ++ [(k, a)]

theorem mem_set {m : List (κ × α)} {k : κ} {a : α} {p : κ × α} (h : p ∈ set m k a) :
    p = (k, a) ∨ p ∈ m := by
  rw [set] at h
  split at h
  · obtain ⟨q, hq, rfl⟩ := List.mem_map.mp h
    split
    · exact Or.inl rfl
    · exact Or.inr hq
  · rcases List.mem_append.mp h with h | h
    · exact Or.inr h
    · exact Or.inl (List.mem_singleton.mp h)

theorem lookup_replace (m : List (κ × α)) (k k' : κ) (a : α) (hk : k ∈ m.map Prod.fst) :
    (lookup Prod.fst k' (m.map fun p => if p.1 = k then (k, a) else p)).map Prod.snd =
      if k' = k then some a else (lookup Prod.fst k' m).map Prod.snd := by
  induction m with
  | nil => cases hk
  | cons p m ih =>
      rw [List.map_cons, lookup_cons, lookup_cons]
      by_cases hp : p.1 = k
      · by_cases hkk : k' = k
        · simp [hp, hkk]
        · have hne : ¬ k = k' := fun h => hkk h.symm
          by_cases hm : k ∈ m.map Prod.fst
          · simpa [hp, hkk, hne] using ih hm
          · have hsame : (m.map fun p => if p.1 = k then (k, a) else p) = m := by
              conv_rhs => rw [← List.map_id m]
              refine List.map_congr_left fun q hq => if_neg fun h => hm ?_
              exact h ▸ List.mem_map_of_mem hq
            simp [hp, hkk, hne, hsame]
      · have hm : k ∈ m.map Prod.fst := by
          rcases List.mem_cons.mp hk with h | h
          · exact absurd h.symm hp
          · exact h
        by_cases hpk : p.1 = k'
        · have hkk : ¬ k' = k := fun h => hp (hpk.trans h)
          simp [hpk, hkk]
        · simpa [hp, hpk] using ih hm

theorem get?_set (m : List (κ × α)) (k k' : κ) (a : α) :
    get? (set m k a) k' = if k' = k then some a else get? m k' := by
  rw [get?, get?, set]
  split
  · next hk => exact lookup_replace m k k' a hk
  · next hk =>
      rw [lookup_append, lookup_cons, lookup_nil]
      by_cases hkk : k' = k
      · subst hkk
        simp [(lookup_eq_none_iff Prod.fst _ _).mpr hk]
      · simp [hkk, Ne.symm hkk]

theorem keys_set (m : List (κ × α)) (k : κ) (a : α) :
    (set m k a).map Prod.fst = if k ∈ m.map Prod.fst then m.map Prod.fst else m.map Prod.fst ++ [k] := by
  rw [set]
  split
  · rw [List.map_map]
    refine List.map_congr_left fun p _ => ?_
    by_cases h : p.1 = k <;> simp [h]
  · rw [List.map_append, List.map_singleton]

theorem set_nodup {m : List (κ × α)} (hm : (m.map Prod.fst).Nodup) (k : κ) (a : α) :
    ((set m k a).map Prod.fst).Nodup := by
  rw [keys_set]
  split
  · exact hm
  · next hk =>
      refine List.nodup_append.mpr ⟨hm, List.nodup_singleton k, ?_⟩
      intro k' hk' l hl he
      exact hk (List.mem_singleton.mp hl ▸ he ▸ hk')

theorem get?_of_mem {m : List (κ × α)} (hm : (m.map Prod.fst).Nodup) {p : κ × α} (hp : p ∈ m) :
    get? m p.1 = some p.2 := by
  induction m with
  | nil => cases hp
  | cons q m ih =>
      obtain ⟨hq, hrest⟩ := List.nodup_cons.mp hm
      rw [get?, lookup_cons]
      rcases List.mem_cons.mp hp with rfl | hp
      · rw [if_pos rfl, Option.map_some]
      · have hne : q.1 ≠ p.1 := fun h => hq (h ▸ List.mem_map_of_mem hp)
        rw [if_neg hne]
        exact ih hrest hp

theorem mem_of_get? {m : List (κ × α)} {k : κ} {a : α} (h : get? m k = some a) : (k, a) ∈ m := by
  obtain ⟨p, hp, rfl⟩ := Option.map_eq_some_iff.mp h
  obtain ⟨hm, rfl⟩ := lookup_some Prod.fst hp
  exact hm

end CardanoGraphql.OrderedMap
