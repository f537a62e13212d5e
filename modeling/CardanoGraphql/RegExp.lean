import CardanoGraphql.CodeUnits

namespace CardanoGraphql

/-- Patterns without captures that are read: classes, the two anchors, and the operators,
the optional and the repeated ones greedy. -/
inductive RegExp (α : Type)
  | cls (p : α → Bool)
  | start
  | finish
  | seq (r s : RegExp α)
  | alt (r s : RegExp α)
  | opt (r : RegExp α)
  | many1 (p : α → Bool)

namespace RegExp

variable {α : Type}

def repeats (p : α → Bool) : List α → List (List α)
  | [] => []
  | a :: rest => if p a then repeats p rest ++ [rest] else []

/-- What a match at the front of a text can leave of it, in the order in which a
backtracking matcher tries; `length` is that of the whole input. -/
def rests (length : Nat) : RegExp α → List α → List (List α)
  | .cls _, [] => []
  | .cls p, a :: rest => if p a then [rest] else []
  | .start, text => if text.length = length then [text] else []
  | .finish, text => if text.isEmpty then [text] else []
  | .seq r s, text => (rests length r text).flatMap (rests length s)
  | .alt r s, text => rests length r text ++ rests length s text
  | .opt r, text => rests length r text ++ [text]
  | .many1 p, text => repeats p text

def search (length : Nat) (r : RegExp α) : List α → Option (List α)
  | [] => (rests length r []).head?
  | a :: text => (rests length r (a :: text)).head?.or (search length r text)

def test (r : RegExp α) (input : List α) : Bool := (search input.length r input).isSome

/-- `test` of a pattern with the flag `g`, which reads and writes `lastIndex`. -/
def testGlobal (r : RegExp α) (lastIndex : Nat) (input : List α) : Bool × Nat :=
  if input.length < lastIndex then (false, 0)
  else match search input.length r (input.drop lastIndex) with
    | some rest => (true, input.length - rest.length)
    | none => (false, 0)

def seqs (rs : List (RegExp α)) (last : RegExp α) : RegExp α := rs.foldr .seq last

/-- The word is one of the pattern, with `after` behind it in an input of that length. -/
def Word (length : Nat) : RegExp α → List α → List α → Prop
  | .cls p, word, _ => ∃ a, word = [a] ∧ p a = true
  | .start, word, after => word = [] ∧ after.length = length
  | .finish, word, after => word = [] ∧ after = []
  | .seq r s, word, after => ∃ u v, word = u ++ v ∧ Word length r u (v ++ after) ∧ Word length s v after
  | .alt r s, word, after => Word length r word after ∨ Word length s word after
  | .opt r, word, after => Word length r word after ∨ word = []
  | .many1 p, word, _ => word ≠ [] ∧ ∀ a ∈ word, p a = true

theorem mem_repeats {p : α → Bool} {text rest : List α} :
    rest ∈ repeats p text ↔ ∃ word, text = word ++ rest ∧ word ≠ [] ∧ ∀ a ∈ word, p a = true := by
  induction text with
  | nil =>
      constructor
      · intro h
        cases h
      · rintro ⟨word, hword, hne, -⟩
        exact absurd (List.append_eq_nil_iff.mp hword.symm).1 hne
  | cons a text ih =>
      rw [repeats]
      constructor
      · intro h
        split at h
        next ha =>
          rcases List.mem_append.mp h with h | h
          · obtain ⟨word, rfl, -, hall⟩ := ih.mp h
            exact ⟨a :: word, rfl, List.cons_ne_nil a word, List.forall_mem_cons.mpr ⟨ha, hall⟩⟩
          · rw [List.mem_singleton.mp h]
            exact ⟨[a], rfl, List.cons_ne_nil a [], List.forall_mem_singleton.mpr ha⟩
        next => cases h
      · rintro ⟨word, hword, hne, hall⟩
        cases word with
        | nil => exact absurd rfl hne
        | cons b word =>
            obtain ⟨rfl, rfl⟩ := List.cons.inj hword
            obtain ⟨ha, hrest⟩ := List.forall_mem_cons.mp hall
            rw [if_pos ha]
            apply List.mem_append.mpr
            cases word with
            | nil => exact Or.inr List.mem_cons_self
            | cons c word => exact Or.inl (ih.mpr ⟨c :: word, rfl, List.cons_ne_nil c word, hrest⟩)

theorem mem_rests_cls {length : Nat} {p : α → Bool} {text rest : List α} :
    rest ∈ rests length (.cls p) text ↔ ∃ word, text = word ++ rest ∧ Word length (.cls p) word rest := by
  constructor
  · intro h
    cases text with
    | nil => cases h
    | cons a text =>
        rw [rests] at h
        split at h
        next ha =>
          rw [List.mem_singleton.mp h]
          exact ⟨[a], rfl, a, rfl, ha⟩
        next => cases h
  · rintro ⟨word, rfl, a, rfl, ha⟩
    rw [List.singleton_append, rests, if_pos ha]
    exact List.mem_cons_self

theorem mem_rests_start {length : Nat} {text rest : List α} :
    rest ∈ rests length .start text ↔ ∃ word, text = word ++ rest ∧ Word length .start word rest := by
  rw [rests]
  constructor
  · intro h
    split at h
    next hlength =>
      obtain rfl := List.mem_singleton.mp h
      exact ⟨[], rfl, rfl, hlength⟩
    next => cases h
  · rintro ⟨word, rfl, rfl, hlength⟩
    rw [List.nil_append, if_pos hlength]
    exact List.mem_cons_self

theorem mem_rests_finish {length : Nat} {text rest : List α} :
    rest ∈ rests length .finish text ↔ ∃ word, text = word ++ rest ∧ Word length .finish word rest := by
  rw [rests]
  constructor
  · intro h
    split at h
    next hnil =>
      obtain rfl := List.mem_singleton.mp h
      exact ⟨[], rfl, rfl, List.isEmpty_iff.mp hnil⟩
    next => cases h
  · rintro ⟨word, rfl, rfl, rfl⟩
    exact List.mem_cons_self

/-- The matcher finds the words of the pattern and no others. -/
theorem mem_rests {length : Nat} {r : RegExp α} {text rest : List α} :
    rest ∈ rests length r text ↔ ∃ word, text = word ++ rest ∧ Word length r word rest := by
  induction r generalizing text rest with
  | cls p => exact mem_rests_cls
  | start => exact mem_rests_start
  | finish => exact mem_rests_finish
  | seq r s ihr ihs =>
      rw [rests, List.mem_flatMap]
      constructor
      · rintro ⟨middle, hmiddle, hrest⟩
        obtain ⟨v, rfl, hv⟩ := ihs.mp hrest
        obtain ⟨u, rfl, hu⟩ := ihr.mp hmiddle
        exact ⟨u ++ v, (List.append_assoc u v rest).symm, u, v, rfl, hu, hv⟩
      · rintro ⟨word, rfl, u, v, rfl, hu, hv⟩
        refine ⟨v ++ rest, ihr.mpr ⟨u, List.append_assoc u v rest, hu⟩, ihs.mpr ⟨v, rfl, hv⟩⟩
  | alt r s ihr ihs =>
      rw [rests, List.mem_append, ihr, ihs]
      constructor
      · rintro (⟨word, htext, hword⟩ | ⟨word, htext, hword⟩)
        · exact ⟨word, htext, Or.inl hword⟩
        · exact ⟨word, htext, Or.inr hword⟩
      · rintro ⟨word, htext, hword | hword⟩
        · exact Or.inl ⟨word, htext, hword⟩
        · exact Or.inr ⟨word, htext, hword⟩
  | opt r ih =>
      rw [rests, List.mem_append, ih, List.mem_singleton]
      constructor
      · rintro (⟨word, htext, hword⟩ | rfl)
        · exact ⟨word, htext, Or.inl hword⟩
        · exact ⟨[], rfl, Or.inr rfl⟩
      · rintro ⟨word, htext, hword | rfl⟩
        · exact Or.inl ⟨word, htext, hword⟩
        · exact Or.inr htext.symm
  | many1 p => exact mem_repeats

theorem search_some {length : Nat} {r : RegExp α} {text rest : List α} (h : search length r text = some rest) :
    ∃ before word, text = before ++ word ++ rest ∧ Word length r word rest := by
  induction text with
  | nil =>
      obtain ⟨word, htext, hword⟩ := mem_rests.mp (List.mem_of_mem_head? h)
      exact ⟨[], word, htext, hword⟩
  | cons a text ih =>
      rw [search, Option.or_eq_some_iff] at h
      rcases h with h | ⟨-, h⟩
      · obtain ⟨word, htext, hword⟩ := mem_rests.mp (List.mem_of_mem_head? h)
        exact ⟨[], word, htext, hword⟩
      · obtain ⟨before, word, rfl, hword⟩ := ih h
        exact ⟨a :: before, word, rfl, hword⟩

theorem search_isSome_iff {length : Nat} {r : RegExp α} {text : List α} :
    (search length r text).isSome = true ↔
      ∃ before word after, text = before ++ word ++ after ∧ Word length r word after := by
  constructor
  · intro h
    obtain ⟨rest, hrest⟩ := Option.isSome_iff_exists.mp h
    obtain ⟨before, word, htext, hword⟩ := search_some hrest
    exact ⟨before, word, rest, htext, hword⟩
  · rintro ⟨before, word, after, htext, hword⟩
    have hhead : ∀ text, text = word ++ after → (rests length r text).head?.isSome = true := by
      intro text h
      rw [List.isSome_head?]
      exact List.ne_nil_of_mem (mem_rests.mpr ⟨word, h, hword⟩)
    induction before generalizing text with
    | nil =>
        cases text with
        | nil => exact hhead [] htext
        | cons a text =>
            rw [search, Option.isSome_or, hhead (a :: text) htext, Bool.true_or]
    | cons a before ih =>
        rw [htext, List.cons_append, List.cons_append, search, Option.isSome_or, ih rfl, Bool.or_true]

theorem test_iff {r : RegExp α} {input : List α} :
    test r input = true ↔
      ∃ before word after, input = before ++ word ++ after ∧ Word input.length r word after :=
  search_isSome_iff

theorem word_cls_seq {length : Nat} {p : α → Bool} {r : RegExp α} {word after : List α} :
    Word length (.seq (.cls p) r) word after ↔
      ∃ a rest, word = a :: rest ∧ p a = true ∧ Word length r rest after := by
  constructor
  · rintro ⟨u, v, rfl, ⟨a, rfl, ha⟩, hv⟩
    exact ⟨a, v, rfl, ha, hv⟩
  · rintro ⟨a, rest, rfl, ha, hrest⟩
    exact ⟨[a], rest, rfl, ⟨a, rfl, ha⟩, hrest⟩

theorem word_start_seq {length : Nat} {r : RegExp α} {word after : List α} :
    Word length (.seq .start r) word after ↔ (word ++ after).length = length ∧ Word length r word after := by
  constructor
  · rintro ⟨u, v, rfl, ⟨rfl, hlength⟩, hv⟩
    exact ⟨hlength, hv⟩
  · rintro ⟨hlength, hword⟩
    exact ⟨[], word, rfl, ⟨rfl, hlength⟩, hword⟩

theorem word_seq_finish {length : Nat} {r : RegExp α} {word after : List α} :
    Word length (.seq r .finish) word after ↔ after = [] ∧ Word length r word [] := by
  constructor
  · rintro ⟨u, v, rfl, hu, rfl, rfl⟩
    rw [List.append_nil]
    exact ⟨rfl, hu⟩
  · rintro ⟨rfl, hword⟩
    exact ⟨word, [], (List.append_nil word).symm, hword, rfl, rfl⟩

theorem word_seq_alt {length : Nat} {r s t : RegExp α} {word after : List α} :
    Word length (.seq r (.alt s t)) word after ↔
      Word length (.seq r s) word after ∨ Word length (.seq r t) word after := by
  constructor
  · rintro ⟨u, v, hword, hu, hv | hv⟩
    · exact Or.inl ⟨u, v, hword, hu, hv⟩
    · exact Or.inr ⟨u, v, hword, hu, hv⟩
  · rintro (⟨u, v, hword, hu, hv⟩ | ⟨u, v, hword, hu, hv⟩)
    · exact ⟨u, v, hword, hu, Or.inl hv⟩
    · exact ⟨u, v, hword, hu, Or.inr hv⟩

section Units

open CodeUnits

def chr (c : Char) : RegExp UInt16 := .cls fun u => decide (u = unit c)

def between (low high : Char) : RegExp UInt16 :=
  .cls fun u => decide ((unit low).toNat ≤ u.toNat) && decide (u.toNat ≤ (unit high).toNat)

theorem word_chr {length : Nat} {c : Char} {word after : CodeUnits} :
    Word length (chr c) word after ↔ word = [unit c] := by
  simp [chr, Word]

theorem word_chr_seq {length : Nat} {c : Char} {r : RegExp UInt16} {word after : CodeUnits} :
    Word length (.seq (chr c) r) word after ↔ ∃ rest, word = unit c :: rest ∧ Word length r rest after := by
  rw [chr, word_cls_seq]
  constructor
  · rintro ⟨a, rest, rfl, ha, hrest⟩
    rw [of_decide_eq_true ha]
    exact ⟨rest, rfl, hrest⟩
  · rintro ⟨rest, rfl, hrest⟩
    exact ⟨unit c, rest, rfl, decide_eq_true rfl, hrest⟩

end Units

end RegExp

end CardanoGraphql
