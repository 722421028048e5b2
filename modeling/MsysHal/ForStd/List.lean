import Mathlib

/-!
# List lemmas for the standard library

What is dropped at the end of an append; a list sorted by a key and cut to its first
elements, and what a filter finds in the cut.

## Key results

- `rdropWhile_append_of_pos`, `rdropWhile_append_of_neg`: dropping at the end of an append
- `mem_drop_insertionSort`: the elements cut off are those with too many smaller keys
- `filterMap_take_insertionSort_perm`: when nothing that the filter keeps is cut off
-/

namespace List

/-- The keys of a list of pairs are all found. -/
theorem filter_lookup_isNone {α β : Type} [BEq α] [LawfulBEq α] {items : List (α × β)}
    {keys : List α}
    (h : items.map Prod.fst = keys) : keys.filter (fun key => (items.lookup key).isNone) = [] := by
  rw [filter_eq_nil_iff]
  intro key hkey hnone
  rw [Option.isNone_iff_eq_none, lookup_eq_none_iff] at hnone
  rw [← h] at hkey
  obtain ⟨item, hitem, rfl⟩ := mem_map.mp hkey
  exact absurd (hnone item hitem)
    (by simp only [bne_self_eq_false, Bool.false_eq_true, not_false_iff])

theorem rdropWhile_append_of_pos {α : Type} {p : α → Bool} (l : List α) {tail : List α}
    (h : ∀ x ∈ tail, p x = true) : (l ++ tail).rdropWhile p = l.rdropWhile p := by
  rw [rdropWhile, rdropWhile, reverse_append,
    dropWhile_append_of_pos fun x hx => h x (mem_reverse.mp hx)]

theorem rdropWhile_append_of_neg {α : Type} {p : α → Bool} (l : List α) {tail : List α}
    (h : ¬ ∀ x ∈ tail, p x = true) : (l ++ tail).rdropWhile p = l ++ tail.rdropWhile p := by
  have hne : tail.reverse.dropWhile p ≠ [] := fun hnil =>
    h fun x hx => dropWhile_eq_nil_iff.mp hnil x (mem_reverse.mpr hx)
  rw [rdropWhile, rdropWhile, reverse_append, dropWhile_append, if_neg (by rwa [isEmpty_iff]),
    reverse_append, reverse_reverse]

variable {α β κ : Type} [LinearOrder κ]

/-- A list around two of its positions. -/
theorem split_at_two {l : List α} {i j : Nat} (hij : i < j) (hj : j < l.length) :
    l = l.take i ++ l[i] :: ((l.take j).drop (i + 1) ++ l[j] :: l.drop (j + 1)) := by
  have hi : i < (l.take j).length := by rw [List.length_take]; omega
  have hfirst := List.take_append_drop i (l.take j)
  rw [List.take_take, min_eq_left hij.le, List.drop_eq_getElem_cons hi, List.getElem_take] at hfirst
  conv_lhs => rw [← List.take_append_drop j l, List.drop_eq_getElem_cons hj, ← hfirst]
  rw [List.append_assoc, List.cons_append]

/-- In a list with rising keys, the elements before a position are those with a smaller key. -/
theorem countP_lt_getElem (key : α → κ) {l : List α} (h : l.Pairwise fun a b => key a < key b)
    {i : Nat} (hi : i < l.length) : l.countP (fun a => key a < key l[i]) = i := by
  induction l generalizing i with
  | nil => simp at hi
  | cons x l ih =>
    rw [List.pairwise_cons] at h
    cases i with
    | zero =>
      rw [List.getElem_cons_zero, List.countP_eq_zero]
      intro a ha
      rcases List.mem_cons.mp ha with rfl | ha
      · simp
      · simpa using (h.1 a ha).le
    | succ i =>
      rw [List.getElem_cons_succ, List.countP_cons_of_pos, ih h.2]
      simpa using h.1 _ (List.getElem_mem _)

/-- The elements after the first `n` of a list with rising keys are those with at
    least `n` smaller keys. -/
theorem mem_drop_iff_countP (key : α → κ) {l : List α} (h : l.Pairwise fun a b => key a < key b)
    (n : Nat) {a : α} (ha : a ∈ l) : a ∈ l.drop n ↔ n ≤ l.countP (fun b => key b < key a) := by
  obtain ⟨i, hi, rfl⟩ := List.getElem_of_mem ha
  rw [countP_lt_getElem key h hi, List.mem_iff_getElem]
  constructor
  · rintro ⟨j, hj, hji⟩
    rw [List.getElem_drop] at hji
    have hcount := countP_lt_getElem key h (i := n + j) (by rw [List.length_drop] at hj; omega)
    rw [hji, countP_lt_getElem key h hi] at hcount
    omega
  · intro hni
    refine ⟨i - n, by rw [List.length_drop]; omega, ?_⟩
    simp only [List.getElem_drop, Nat.add_sub_cancel' hni]

/-- Distinct keys rise strictly once they are sorted. -/
theorem pairwise_lt_insertionSort (key : α → κ) {l : List α} (h : (l.map key).Nodup) :
    (l.insertionSort fun a b => key a ≤ key b).Pairwise fun a b => key a < key b := by
  have : Std.Total fun a b : α => key a ≤ key b := ⟨fun a b => le_total (key a) (key b)⟩
  have : IsTrans α fun a b => key a ≤ key b := ⟨fun _ _ _ => le_trans⟩
  have hle := List.pairwise_insertionSort (fun a b : α => key a ≤ key b) l
  have hne : (l.insertionSort fun a b => key a ≤ key b).Pairwise fun a b => key a ≠ key b := by
    rw [← List.pairwise_map (f := key) (R := (· ≠ ·))]
    exact ((List.perm_insertionSort _ l).map key).nodup_iff.mpr h
  exact (hle.and hne).imp fun hab => lt_of_le_of_ne hab.1 hab.2

theorem mem_drop_insertionSort (key : α → κ) {l : List α} (h : (l.map key).Nodup) (n : Nat)
    {a : α} (ha : a ∈ l) : a ∈ (l.insertionSort fun a b => key a ≤ key b).drop n ↔
      n ≤ l.countP fun b => key b < key a := by
  have hperm := List.perm_insertionSort (fun a b : α => key a ≤ key b) l
  rw [mem_drop_iff_countP key (pairwise_lt_insertionSort key h) n (hperm.mem_iff.mpr ha),
    hperm.countP_eq]

/-- A list sorted, cut to `n` and filtered is the filtered list exactly when each
    element that the filter keeps has fewer than `n` smaller keys. -/
theorem filterMap_take_insertionSort_perm (key : α → κ) (f : α → Option β) {l : List α}
    (h : (l.map key).Nodup) (n : Nat) :
    (((l.insertionSort fun a b => key a ≤ key b).take n).filterMap f).Perm (l.filterMap f) ↔
      ∀ a ∈ l, (f a).isSome → l.countP (fun b => key b < key a) < n := by
  set sorted := l.insertionSort fun a b => key a ≤ key b with hsorted
  have hperm : sorted.Perm l := List.perm_insertionSort _ l
  have hsplit : sorted.filterMap f = (sorted.take n).filterMap f ++
      (sorted.drop n).filterMap f := by
    rw [← List.filterMap_append, List.take_append_drop]
  have hcut : ((sorted.take n).filterMap f).Perm (l.filterMap f) ↔
      (sorted.drop n).filterMap f = [] := by
    constructor
    · intro hp
      have hlength := (hp.trans (hperm.filterMap f).symm).length_eq
      rw [hsplit, List.length_append] at hlength
      exact List.length_eq_zero_iff.mp (by omega)
    · intro hnil
      rw [hnil, List.append_nil] at hsplit
      exact hsplit ▸ hperm.filterMap f
  rw [hcut, List.filterMap_eq_nil_iff]
  constructor
  · intro hdrop a ha hsome
    by_contra hlt
    have hmem := (mem_drop_insertionSort key h n ha).mpr (not_lt.mp hlt)
    rw [hdrop a hmem] at hsome
    cases hsome
  · intro hall a hmem
    have ha : a ∈ l := hperm.mem_iff.mp (List.mem_of_mem_drop hmem)
    have hle := (mem_drop_insertionSort key h n ha).mp hmem
    exact Option.not_isSome_iff_eq_none.mp fun hsome => absurd (hall a ha hsome) (not_lt.mpr hle)

end List
