import Mathlib.Algebra.GroupWithZero.Nat
import Mathlib.Data.List.Nodup
import Mathlib.Data.List.Perm.Basic

namespace CardanoGraphql.SqlJoin

variable {α β : Type}

def innerJoin (on : α → β → Bool) (xs : List α) (ys : List β) : List (α × β) :=
  xs.flatMap fun a => (ys.filter (on a)).map fun b => (a, b)

/-- A left row without a partner is kept once, with no right row. -/
def leftJoin (on : α → β → Bool) (xs : List α) (ys : List β) : List (α × Option β) :=
  xs.flatMap fun a => match ys.filter (on a) with
    | [] => [(a, none)]
    | bs => bs.map fun b => (a, some b)

theorem mem_innerJoin (on : α → β → Bool) (xs : List α) (ys : List β) (a : α) (b : β) :
    (a, b) ∈ innerJoin on xs ys ↔ a ∈ xs ∧ b ∈ ys ∧ on a b = true := by
  simp [innerJoin, List.mem_flatMap]

theorem mem_innerJoin_innerJoin {γ : Type} (on : α → β → Bool) (on' : α × β → γ → Bool) (xs : List α)
    (ys : List β) (zs : List γ) (p : (α × β) × γ) :
    p ∈ innerJoin on' (innerJoin on xs ys) zs ↔
      p.1.1 ∈ xs ∧ p.1.2 ∈ ys ∧ p.2 ∈ zs ∧ on p.1.1 p.1.2 = true ∧ on' p.1 p.2 = true := by
  rw [mem_innerJoin on' _ zs p.1 p.2, mem_innerJoin on xs ys p.1.1 p.1.2]
  constructor
  · rintro ⟨⟨hx, hy, hon⟩, hz, hon'⟩
    exact ⟨hx, hy, hz, hon, hon'⟩
  · rintro ⟨hx, hy, hz, hon, hon'⟩
    exact ⟨⟨hx, hy, hon⟩, hz, hon'⟩

theorem any_append_none {p : α → Bool} (xs : List α) {ys : List α} (h : ∀ y ∈ ys, p y = false) :
    (xs ++ ys).any p = xs.any p := by
  have hnone : ys.any p = false := by
    rw [List.any_eq_false]
    intro y hy
    rw [h y hy]
    exact Bool.false_ne_true
  rw [List.any_append, hnone, Bool.or_false]

theorem filter_append_none {p : α → Bool} (xs : List α) {ys : List α} (h : ∀ y ∈ ys, p y = false) :
    (xs ++ ys).filter p = xs.filter p := by
  have hnone : ys.filter p = [] := by
    rw [List.filter_eq_nil_iff]
    intro y hy
    rw [h y hy]
    exact Bool.false_ne_true
  rw [List.filter_append, hnone, List.append_nil]

theorem sum_filter_balance (f : α → Nat) {p q r s : α → Bool} {xs : List α}
    (h : ∀ x ∈ xs, (p x).toNat + (q x).toNat = (r x).toNat + (s x).toNat) :
    ((xs.filter p).map f).sum + ((xs.filter q).map f).sum =
      ((xs.filter r).map f).sum + ((xs.filter s).map f).sum := by
  induction xs with
  | nil => rfl
  | cons x xs ih =>
      obtain ⟨hx, hrest⟩ := List.forall_mem_cons.mp h
      have hhead : ∀ t : α → Bool, (((x :: xs).filter t).map f).sum =
          (t x).toNat * f x + ((xs.filter t).map f).sum := by
        intro t
        cases ht : t x with
        | false => rw [List.filter_cons_of_neg (by simp [ht]), Bool.toNat_false, Nat.zero_mul, Nat.zero_add]
        | true =>
            rw [List.filter_cons_of_pos ht, List.map_cons, List.sum_cons, Bool.toNat_true, Nat.one_mul]
      have hscaled : (p x).toNat * f x + (q x).toNat * f x = (r x).toNat * f x + (s x).toNat * f x := by
        rw [← Nat.add_mul, ← Nat.add_mul, hx]
      have := ih hrest
      simp only [hhead]
      omega

theorem innerJoin_append (on : α → β → Bool) (xs xs' : List α) (ys : List β) :
    innerJoin on (xs ++ xs') ys = innerJoin on xs ys ++ innerJoin on xs' ys :=
  List.flatMap_append

theorem innerJoin_append_right (on : α → β → Bool) {xs : List α} (ys : List β) {ys' : List β}
    (h : ∀ a ∈ xs, ∀ b ∈ ys', on a b = false) :
    innerJoin on xs (ys ++ ys') = innerJoin on xs ys := by
  induction xs with
  | nil => rfl
  | cons a xs ih =>
      obtain ⟨ha, hrest⟩ := List.forall_mem_cons.mp h
      have hrow : (ys ++ ys').filter (on a) = ys.filter (on a) := filter_append_none ys ha
      rw [innerJoin, innerJoin, List.flatMap_cons, List.flatMap_cons, hrow]
      exact congrArg _ (ih hrest)

theorem innerJoin_filter_right (on : α → β → Bool) (q : β → Bool) (xs : List α) (ys : List β) :
    innerJoin on xs (ys.filter q) = (innerJoin on xs ys).filter fun r => q r.2 := by
  induction xs with
  | nil => rfl
  | cons a xs ih =>
      have hrow : ((ys.filter q).filter (on a)).map (fun b => (a, b)) =
          ((ys.filter (on a)).map fun b => (a, b)).filter fun r => q r.2 := by
        rw [List.filter_map, List.filter_filter, List.filter_filter]
        congr 2
        funext b
        exact Bool.and_comm _ _
      rw [innerJoin, List.flatMap_cons, hrow, innerJoin, List.flatMap_cons, List.filter_append]
      exact congrArg _ ih

theorem innerJoin_filter_any (on : α → β → Bool) (xs : List α) (ys : List β) :
    innerJoin on (xs.filter fun a => ys.any (on a)) ys = innerJoin on xs ys := by
  induction xs with
  | nil => rfl
  | cons a xs ih =>
      cases ha : ys.any (on a) with
      | true =>
          rw [List.filter_cons_of_pos (p := fun a => ys.any (on a)) ha, innerJoin, List.flatMap_cons, innerJoin,
            List.flatMap_cons]
          exact congrArg _ ih
      | false =>
          have hrow : ys.filter (on a) = [] := by
            rw [List.filter_eq_nil_iff]
            exact fun b hb => List.any_eq_false.mp ha b hb
          rw [List.filter_cons_of_neg (p := fun a => ys.any (on a)) (by simp [ha]), ih]
          conv_rhs => rw [innerJoin, List.flatMap_cons, hrow]
          rfl

theorem any_eq_not_isEmpty (p : β → Bool) (ys : List β) : ys.any p = !(ys.filter p).isEmpty := by
  induction ys with
  | nil => rfl
  | cons b ys ih => cases hb : p b <;> simp [hb, ih]

theorem leftJoin_isNone (on : α → β → Bool) (xs : List α) (ys : List β) :
    ((leftJoin on xs ys).filter fun p => p.2.isNone).map Prod.fst = xs.filter fun a => !ys.any (on a) := by
  induction xs with
  | nil => rfl
  | cons a xs ih =>
      have hcons : leftJoin on (a :: xs) ys = leftJoin on [a] ys ++ leftJoin on xs ys := by
        simp [leftJoin]
      rw [hcons, List.filter_append, List.map_append, ih]
      have hany := any_eq_not_isEmpty (on a) ys
      cases hm : ys.filter (on a) with
      | nil => simp [leftJoin, hm, hany]
      | cons b bs => simp [leftJoin, hm, hany]

theorem map_fst_innerJoin {on : α → β → Bool} {xs : List α} {ys : List β}
    (h : ∀ a ∈ xs, ys.countP (on a) ≤ 1) :
    (innerJoin on xs ys).map Prod.fst = xs.filter fun a => ys.any (on a) := by
  induction xs with
  | nil => rfl
  | cons a xs ih =>
      obtain ⟨ha, hrest⟩ := List.forall_mem_cons.mp h
      have hcons : innerJoin on (a :: xs) ys =
          ((ys.filter (on a)).map fun b => (a, b)) ++ innerJoin on xs ys := rfl
      have hany := any_eq_not_isEmpty (on a) ys
      rw [List.countP_eq_length_filter] at ha
      rw [hcons, List.map_append, ih hrest, List.map_map, List.filter_cons, hany]
      cases hm : ys.filter (on a) with
      | nil => rfl
      | cons b bs =>
          rw [hm, List.length_cons] at ha
          rw [List.eq_nil_of_length_eq_zero (show bs.length = 0 by omega)]
          rfl

theorem map_filter_eq_flatMap {γ : Type} (p : β → Bool) (f : β → γ) (ys : List β) :
    (ys.filter p).map f = ys.flatMap fun b => if p b then [f b] else [] := by
  induction ys with
  | nil => rfl
  | cons b ys ih => cases hb : p b <;> simp [hb, ih]

theorem innerJoin_swap (on : α → β → Bool) (xs : List α) (ys : List β) :
    (innerJoin on xs ys).Perm ((innerJoin (fun b a => on a b) ys xs).map Prod.swap) := by
  induction xs with
  | nil => simp [innerJoin]
  | cons a xs ih =>
      have hsplit : (innerJoin (fun b a => on a b) ys (a :: xs)).map Prod.swap =
          ys.flatMap fun b => (if on a b then [(a, b)] else []) ++
            (((xs.filter fun a => on a b).map fun a => (b, a)).map Prod.swap) := by
        rw [innerJoin, List.map_flatMap]
        congr 1
        funext b
        cases hon : on a b <;> simp [hon]
      rw [hsplit]
      refine List.Perm.trans ?_ (List.flatMap_append_perm ys _ _)
      rw [← map_filter_eq_flatMap, ← List.map_flatMap]
      exact ih.append_left ((ys.filter (on a)).map fun b => (a, b))

theorem map_snd_innerJoin {on : α → β → Bool} {xs : List α} {ys : List β}
    (h : ∀ b ∈ ys, xs.countP (fun a => on a b) ≤ 1) :
    ((innerJoin on xs ys).map Prod.snd).Perm (ys.filter fun b => xs.any fun a => on a b) := by
  rw [← @map_fst_innerJoin β α (fun b a => on a b) ys xs h]
  refine ((innerJoin_swap on xs ys).map Prod.snd).trans ?_
  rw [List.map_map]
  exact List.Perm.refl _

theorem countP_key {κ : Type} [DecidableEq κ] {key : α → κ} {xs : List α}
    (h : (xs.map key).Nodup) (k : κ) : xs.countP (fun a => decide (key a = k)) ≤ 1 := by
  have hcount := List.nodup_iff_count_le_one.mp h k
  rw [List.count, List.countP_map] at hcount
  refine Nat.le_trans (Nat.le_of_eq (List.countP_congr fun a _ => ?_)) hcount
  simp

theorem countP_key_symm {κ : Type} [DecidableEq κ] {key : α → κ} {xs : List α}
    (h : (xs.map key).Nodup) (k : κ) : xs.countP (fun a => decide (k = key a)) ≤ 1 := by
  simp only [eq_comm (a := k)]
  exact countP_key h k

theorem eq_of_key {κ : Type} {key : α → κ} {xs : List α} (h : (xs.map key).Nodup) {a b : α}
    (ha : a ∈ xs) (hb : b ∈ xs) (hkey : key a = key b) : a = b :=
  List.inj_on_of_nodup_map h ha hb hkey

theorem find?_of_unique {p : α → Bool} {xs : List α} {a : α} (ha : a ∈ xs) (hp : p a = true)
    (h : ∀ b ∈ xs, p b = true → b = a) : xs.find? p = some a := by
  cases hfound : xs.find? p with
  | none => exact absurd hp (List.find?_eq_none.mp hfound a ha)
  | some b => rw [h b (List.mem_of_find?_eq_some hfound) (List.find?_some hfound)]

theorem countP_unique {p : α → Bool} {xs : List α} (hxs : xs.Nodup)
    (h : ∀ a ∈ xs, ∀ b ∈ xs, p a = true → p b = true → a = b) : xs.countP p ≤ 1 := by
  induction xs with
  | nil => exact Nat.zero_le 1
  | cons a xs ih =>
      obtain ⟨ha, hnodup⟩ := List.nodup_cons.mp hxs
      rw [List.countP_cons]
      by_cases hp : p a = true
      · have hnone : xs.countP p = 0 := by
          rw [List.countP_eq_zero]
          intro b hb hpb
          rw [h a List.mem_cons_self b (List.mem_cons_of_mem a hb) hp hpb] at ha
          exact ha hb
        have hone : xs.countP p + 1 ≤ 1 := by omega
        rwa [if_pos hp]
      · rw [if_neg hp]
        exact ih hnodup fun b hb c hc => h b (List.mem_cons_of_mem a hb) c (List.mem_cons_of_mem a hc)

theorem filter_key {κ : Type} [DecidableEq κ] {key : α → κ} {xs : List α} (h : (xs.map key).Nodup) {a : α}
    (ha : a ∈ xs) : xs.filter (fun b => decide (key b = key a)) = [a] := by
  obtain ⟨l, hl⟩ : ∃ l, xs.filter (fun b => decide (key b = key a)) = l := ⟨_, rfl⟩
  have hmem : ∀ b, b ∈ l ↔ b = a := by
    intro b
    rw [← hl, List.mem_filter, decide_eq_true_iff]
    constructor
    · rintro ⟨hb, hkey⟩
      exact eq_of_key h hb ha hkey
    · rintro rfl
      exact ⟨ha, rfl⟩
  have hnodup : l.Nodup := hl ▸ (List.Nodup.of_map key h).filter _
  rw [hl]
  exact List.perm_singleton.mp ((List.perm_ext_iff_of_nodup hnodup (List.nodup_singleton a)).mpr fun b => by
    rw [hmem, List.mem_singleton])

theorem filter_flatMap_key {κ : Type} [DecidableEq κ] {key : α → κ} {tag : β → κ} {f : α → List β} {xs : List α}
    (h : (xs.map key).Nodup) (htag : ∀ a ∈ xs, ∀ y ∈ f a, tag y = key a) {a : α} (ha : a ∈ xs) :
    (xs.flatMap f).filter (fun y => decide (tag y = key a)) = f a := by
  induction xs with
  | nil => cases ha
  | cons b xs ih =>
      obtain ⟨hb, hnodup⟩ := List.nodup_cons.mp h
      obtain ⟨hhead, hrest⟩ := List.forall_mem_cons.mp htag
      rw [List.flatMap_cons, List.filter_append]
      by_cases hkey : key b = key a
      · have hsame : b = a := eq_of_key h List.mem_cons_self ha hkey
        have hall : (f b).filter (fun y => decide (tag y = key a)) = f b := by
          rw [List.filter_eq_self]
          intro y hy
          exact decide_eq_true ((hhead y hy).trans hkey)
        have hnone : (xs.flatMap f).filter (fun y => decide (tag y = key a)) = [] := by
          rw [List.filter_eq_nil_iff]
          intro y hy
          obtain ⟨c, hc, hy⟩ := List.mem_flatMap.mp hy
          rw [decide_eq_true_iff, hrest c hc y hy]
          intro he
          exact hb (hkey ▸ he ▸ List.mem_map_of_mem hc)
        rw [hall, hnone, List.append_nil, hsame]
      · have hnone : (f b).filter (fun y => decide (tag y = key a)) = [] := by
          rw [List.filter_eq_nil_iff]
          intro y hy
          rw [decide_eq_true_iff, hhead y hy]
          exact hkey
        rcases List.mem_cons.mp ha with rfl | ha
        · exact absurd rfl hkey
        · rw [hnone, List.nil_append]
          exact ih hnodup hrest ha

theorem innerJoin_nodup (on : α → β → Bool) {xs : List α} {ys : List β} (hx : xs.Nodup) (hy : ys.Nodup) :
    (innerJoin on xs ys).Nodup := by
  rw [innerJoin, List.nodup_flatMap]
  constructor
  · intro a _
    exact (hy.filter _).map fun b c hbc => (Prod.mk.inj hbc).2
  · refine hx.imp fun hne => ?_
    intro p hp hq
    obtain ⟨b, -, rfl⟩ := List.mem_map.mp hp
    obtain ⟨c, -, hc⟩ := List.mem_map.mp hq
    exact hne (Prod.mk.inj hc).1.symm

theorem fst_mem_leftJoin {on : α → β → Bool} {xs : List α} {ys : List β} {p : α × Option β}
    (h : p ∈ leftJoin on xs ys) : p.1 ∈ xs := by
  obtain ⟨a, ha, hp⟩ := List.mem_flatMap.mp h
  cases hm : ys.filter (on a) with
  | nil =>
      rw [hm, List.mem_singleton] at hp
      exact hp ▸ ha
  | cons b bs =>
      rw [hm] at hp
      obtain ⟨c, -, rfl⟩ := List.mem_map.mp hp
      exact ha

theorem exists_mem_leftJoin (on : α → β → Bool) {xs : List α} (ys : List β) {a : α} (h : a ∈ xs) :
    ∃ o, (a, o) ∈ leftJoin on xs ys := by
  cases hm : ys.filter (on a) with
  | nil => exact ⟨none, List.mem_flatMap.mpr ⟨a, h, by simp [hm]⟩⟩
  | cons b bs => exact ⟨some b, List.mem_flatMap.mpr ⟨a, h, by simp [hm]⟩⟩

theorem innerJoin_sublist {on : α → β → Bool} {xs : List α} {ys : List β}
    (h : ∀ a ∈ xs, ys.countP (on a) ≤ 1) : ((innerJoin on xs ys).map Prod.fst).Sublist xs := by
  rw [map_fst_innerJoin h]
  exact List.filter_sublist

theorem map_fst_leftJoin {on : α → β → Bool} {xs : List α} {ys : List β}
    (h : ∀ a ∈ xs, ys.countP (on a) ≤ 1) : (leftJoin on xs ys).map Prod.fst = xs := by
  induction xs with
  | nil => rfl
  | cons a xs ih =>
      obtain ⟨ha, hrest⟩ := List.forall_mem_cons.mp h
      have hcons : leftJoin on (a :: xs) ys = leftJoin on [a] ys ++ leftJoin on xs ys := by
        simp [leftJoin]
      rw [hcons, List.map_append, ih hrest]
      rw [List.countP_eq_length_filter] at ha
      cases hm : ys.filter (on a) with
      | nil => simp [leftJoin, hm]
      | cons b bs =>
          rw [hm, List.length_cons] at ha
          simp [leftJoin, hm, List.eq_nil_of_length_eq_zero (show bs.length = 0 by omega)]

theorem leftJoin_find {on : α → β → Bool} {xs : List α} {ys : List β}
    (h : ∀ a ∈ xs, ys.countP (on a) ≤ 1) : leftJoin on xs ys = xs.map fun a => (a, ys.find? (on a)) := by
  induction xs with
  | nil => rfl
  | cons a xs ih =>
      obtain ⟨ha, hrest⟩ := List.forall_mem_cons.mp h
      have hcons : leftJoin on (a :: xs) ys = leftJoin on [a] ys ++ leftJoin on xs ys := by
        simp [leftJoin]
      rw [hcons, ih hrest, List.map_cons, ← List.singleton_append]
      rw [List.countP_eq_length_filter] at ha
      rw [← List.head?_filter]
      cases hm : ys.filter (on a) with
      | nil => simp [leftJoin, hm]
      | cons b bs =>
          rw [hm, List.length_cons] at ha
          simp [leftJoin, hm, List.eq_nil_of_length_eq_zero (show bs.length = 0 by omega)]

theorem countP_leftJoin (on : α → β → Bool) (xs : List α) (ys : List β) (q : α → Bool) :
    (leftJoin on xs ys).countP (fun p => q p.1) =
      ((xs.filter q).map fun a => max 1 (ys.countP (on a))).sum := by
  induction xs with
  | nil => rfl
  | cons a xs ih =>
      have hcons : leftJoin on (a :: xs) ys = leftJoin on [a] ys ++ leftJoin on xs ys := by
        simp [leftJoin]
      have hone : (leftJoin on [a] ys).countP (fun p => q p.1) =
          if q a = true then max 1 (ys.countP (on a)) else 0 := by
        rw [List.countP_eq_length_filter (l := ys)]
        cases hm : ys.filter (on a) with
        | nil => cases hq : q a <;> simp [leftJoin, hm, hq]
        | cons b bs => cases hq : q a <;> simp [leftJoin, hm, hq, List.countP_map, Function.comp_def]
      rw [hcons, List.countP_append, ih, hone, List.filter_cons]
      split
      next => rw [List.map_cons, List.sum_cons]
      next => rw [Nat.zero_add]

end CardanoGraphql.SqlJoin
