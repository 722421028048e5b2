import Mathlib

/-!
# Insertion-ordered dictionaries

A Python `dict`: a list of items with pairwise different keys. Assigning to a
present key keeps its place, a new key goes to the end.
-/

/-- A Python `dict`. The keys are pairwise different. -/
structure Dict (α β : Type) where
  items : List (α × β)
  nodup : (items.map Prod.fst).Nodup

namespace Dict

variable {α β : Type} [DecidableEq α]

/-- The empty dict. -/
def empty : Dict α β := ⟨[], List.nodup_nil⟩

/-- Number of items. -/
def size (d : Dict α β) : Nat := d.items.length

/-- `d.get(key)`. -/
def get? (d : Dict α β) (key : α) : Option β := d.items.lookup key

/-- The items after `d[key] = value`. -/
def setItems (key : α) (value : β) : List (α × β) → List (α × β)
  | [] => [(key, value)]
  | (k, v) :: rest => if k = key then (k, value) :: rest else (k, v) :: setItems key value rest

private theorem mem_keys_setItems (key : α) (value : β) (items : List (α × β)) (k : α) :
    k ∈ (setItems key value items).map Prod.fst ↔ k = key ∨ k ∈ items.map Prod.fst := by
  induction items with
  | nil => simp only [setItems, List.map_cons, List.map_nil, List.mem_singleton, List.not_mem_nil,
      or_false]
  | cons item items ih =>
    obtain ⟨k', v'⟩ := item
    rw [setItems]
    split
    · next h => subst h; simp only [List.map_cons, List.mem_cons, or_self_left]
    · rw [List.map_cons, List.mem_cons, ih, List.map_cons, List.mem_cons]
      exact or_left_comm

private theorem nodup_setItems (key : α) (value : β) (items : List (α × β))
    (h : (items.map Prod.fst).Nodup) : ((setItems key value items).map Prod.fst).Nodup := by
  induction items with
  | nil => exact List.nodup_singleton _
  | cons item items ih =>
    obtain ⟨k', v'⟩ := item
    rw [List.map_cons, List.nodup_cons] at h
    rw [setItems]
    split
    · exact List.nodup_cons.mpr h
    · next hne =>
      rw [List.map_cons, List.nodup_cons]
      refine ⟨fun hmem => ?_, ih h.2⟩
      rcases (mem_keys_setItems key value items k').mp hmem with heq | hmem
      · exact hne heq
      · exact h.1 hmem

/-- `d[key] = value`. -/
def set (d : Dict α β) (key : α) (value : β) : Dict α β :=
  ⟨setItems key value d.items, nodup_setItems key value d.items d.nodup⟩

/-- The items for which `keep` holds. -/
def filter (d : Dict α β) (keep : α → β → Bool) : Dict α β :=
  ⟨d.items.filter fun item => keep item.1 item.2,
    d.nodup.sublist (List.filter_sublist.map Prod.fst)⟩

/-- `d.pop(key, None)`. -/
def erase (d : Dict α β) (key : α) : Dict α β := d.filter fun k _ => !decide (k = key)

/-- `d.update(items)`, item by item. -/
def update (d : Dict α β) (items : List (α × β)) : Dict α β :=
  items.foldl (fun d item => d.set item.1 item.2) d

/-- The dict of a list of items; a later item replaces an earlier one. -/
def ofList (items : List (α × β)) : Dict α β := empty.update items

/-! ## Lookups -/

@[simp] theorem get?_empty (key : α) : (empty : Dict α β).get? key = none := rfl

theorem get?_set (d : Dict α β) (key : α) (value : β) (k : α) :
    (d.set key value).get? k = if k = key then some value else d.get? k := by
  obtain ⟨items, h⟩ := d
  simp only [get?, set]
  clear h
  induction items with
  | nil =>
    rw [setItems, List.lookup_cons, List.lookup_nil]
    by_cases hk : k = key
    · subst hk; simp only [beq_self_eq_true, if_true]
    · simp only [beq_eq_false_iff_ne.mpr hk, if_neg hk]
  | cons item items ih =>
    obtain ⟨k', v'⟩ := item
    rw [setItems]
    by_cases hk' : k' = key
    · subst hk'
      rw [if_pos rfl, List.lookup_cons, List.lookup_cons]
      by_cases hk : k = k'
      · subst hk; simp only [beq_self_eq_true, if_true]
      · simp only [beq_eq_false_iff_ne.mpr hk, if_neg hk]
    · rw [if_neg hk', List.lookup_cons, List.lookup_cons, ih]
      by_cases hk : k = k'
      · subst hk; simp only [beq_self_eq_true, if_neg hk']
      · simp only [beq_eq_false_iff_ne.mpr hk]

/-- An item of a dict is what its key looks up. -/
theorem get?_eq_some_iff (d : Dict α β) (key : α) (value : β) :
    d.get? key = some value ↔ (key, value) ∈ d.items := by
  obtain ⟨items, h⟩ := d
  simp only [get?]
  induction items with
  | nil => simp only [List.lookup_nil, reduceCtorEq, List.not_mem_nil]
  | cons item items ih =>
    obtain ⟨k', v'⟩ := item
    rw [List.map_cons, List.nodup_cons] at h
    rw [List.lookup_cons, List.mem_cons, Prod.mk.injEq]
    by_cases hk : key = k'
    · subst hk
      simp only [beq_self_eq_true, Option.some.injEq, true_and]
      refine ⟨fun hv => .inl hv.symm, fun hv => ?_⟩
      rcases hv with hv | hv
      · exact hv.symm
      · exact absurd (List.mem_map_of_mem hv) h.1
    · simp only [beq_eq_false_iff_ne.mpr hk, hk, false_and, false_or]
      exact ih h.2

theorem get?_filter (d : Dict α β) (keep : α → β → Bool) (key : α) (value : β) :
    (d.filter keep).get? key = some value ↔ d.get? key = some value ∧ keep key value = true := by
  rw [get?_eq_some_iff, get?_eq_some_iff, filter, List.mem_filter]

theorem get?_erase (d : Dict α β) (key k : α) :
    (d.erase key).get? k = if k = key then none else d.get? k := by
  apply Option.ext
  intro value
  rw [erase, get?_filter]
  by_cases hk : k = key
  · simp only [hk, decide_true, Bool.not_true, Bool.false_eq_true, and_false, if_true, reduceCtorEq]
  · simp only [hk, decide_false, Bool.not_false, and_true, if_false]

/-- What `update` leaves at the key of an item, when the keys of the items differ. -/
theorem get?_update {items : List (α × β)} (h : (items.map Prod.fst).Nodup) (d : Dict α β)
    {key : α} {value : β} (hmem : (key, value) ∈ items) :
    (d.update items).get? key = some value := by
  have hkeep : ∀ (items : List (α × β)) (d : Dict α β), key ∉ items.map Prod.fst →
      (d.update items).get? key = d.get? key := by
    intro items
    induction items with
    | nil => exact fun _ _ => rfl
    | cons item items ih =>
      intro d hnot
      rw [List.map_cons, List.mem_cons, not_or] at hnot
      rw [update, List.foldl_cons]
      exact (ih _ hnot.2).trans (by rw [get?_set, if_neg hnot.1])
  induction items generalizing d with
  | nil => exact nomatch hmem
  | cons item items ih =>
    rw [List.map_cons, List.nodup_cons] at h
    rw [update, List.foldl_cons]
    rcases List.mem_cons.mp hmem with rfl | hmem
    · exact (hkeep items _ h.1).trans (by rw [get?_set, if_pos rfl])
    · exact ih h.2 _ hmem

/-! ## Assigning to present keys -/

/-- An item after an assignment is the new one or was there. -/
theorem mem_setItems {key : α} {value : β} {items : List (α × β)} {item : α × β}
    (h : item ∈ setItems key value items) : item = (key, value) ∨ item ∈ items := by
  induction items with
  | nil => exact .inl (List.mem_singleton.mp h)
  | cons other items ih =>
    obtain ⟨k, v⟩ := other
    rw [setItems] at h
    split at h
    · next hk =>
      subst hk
      exact (List.mem_cons.mp h).imp_right (List.mem_cons_of_mem _)
    · rcases List.mem_cons.mp h with rfl | h
      · exact .inr (List.mem_cons_self ..)
      · exact (ih h).imp_right (List.mem_cons_of_mem _)

/-- An assignment to a present key keeps the keys. -/
theorem keys_setItems {key : α} (value : β) {items : List (α × β)} (h : key ∈ items.map Prod.fst) :
    (setItems key value items).map Prod.fst = items.map Prod.fst := by
  induction items with
  | nil => exact nomatch h
  | cons item items ih =>
    obtain ⟨k, v⟩ := item
    rw [setItems]
    split
    · rfl
    · next hne =>
      rw [List.map_cons, List.mem_cons] at h
      rw [List.map_cons, List.map_cons, ih (h.resolve_left fun heq => hne heq.symm)]

private theorem setItems_append_cons {key : α} (value old : β) {before : List (α × β)}
    (after : List (α × β)) (h : key ∉ before.map Prod.fst) :
    setItems key value (before ++ (key, old) :: after) = before ++ (key, value) :: after := by
  induction before with
  | nil => rw [List.nil_append, setItems, if_pos rfl, List.nil_append]
  | cons item before ih =>
    obtain ⟨k, v⟩ := item
    rw [List.map_cons, List.mem_cons, not_or] at h
    rw [List.cons_append, setItems, if_neg (fun heq => h.1 heq.symm), ih h.2, List.cons_append]

/-- Assigning to all keys, in their order, replaces the dict. -/
theorem update_of_keys {d d' : Dict α β} (h : d.items.map Prod.fst = d'.items.map Prod.fst) :
    d.update d'.items = d' := by
  -- The items before the one that is set are those of the other dictionary already.
  have hitems : ∀ (items before old : List (α × β)) (d : Dict α β), d.items = before ++ old →
      old.map Prod.fst = items.map Prod.fst → (d.update items).items = before ++ items := by
    intro items
    induction items with
    | nil =>
      intro before old d hd hold
      rw [List.map_nil, List.map_eq_nil_iff] at hold
      rw [update, List.foldl_nil, hd, hold]
    | cons item items ih =>
      intro before old d hd hold
      cases old with
      | nil => exact nomatch hold
      | cons first old =>
        obtain ⟨k, v⟩ := item
        obtain ⟨k', v'⟩ := first
        simp only [List.map_cons, List.cons.injEq] at hold
        obtain ⟨rfl, hold⟩ := hold
        have hnew : k' ∉ before.map Prod.fst := by
          have hnodup := d.nodup
          rw [hd, List.map_append, List.map_cons, List.nodup_append] at hnodup
          exact fun hmem => hnodup.2.2 k' hmem k' (List.mem_cons_self ..) rfl
        rw [update, List.foldl_cons]
        refine (ih (before ++ [(k', v)]) old _ ?_ hold).trans ?_
        · change setItems k' v d.items = _
          rw [hd, setItems_append_cons v v' old hnew, List.append_assoc, List.singleton_append]
        · rw [List.append_assoc, List.singleton_append]
  have hupdate := hitems d'.items [] d.items d rfl h
  rw [List.nil_append] at hupdate
  cases hd : d.update d'.items with
  | mk items nodup =>
    rw [hd] at hupdate
    subst hupdate
    rfl

end Dict
