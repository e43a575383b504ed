import Bindery.OrderedMap
import Mathlib.Data.List.Induction
import Mathlib.Data.List.Nodup

/-!
# Keys and groups of ordered maps

Pairs with different keys are stored as they come, so each is found at its key. Grouping a list puts
each value under its key, in the order of the list, and lists each key once.

## Main statements

* `OrderedMap.mem_keys_iff`: a key is listed exactly when a value is found at it.
* `OrderedMap.entries_ofList`, `OrderedMap.find?_ofList_filterMap`: storing under different keys.
* `OrderedMap.find?_groupBy`, `OrderedMap.mem_entries_groupBy`: what a group holds.
* `OrderedMap.perm_flatMap_groupBy`: grouping neither loses nor repeats a value.
-/
namespace Bindery
namespace OrderedMap

variable {α β : Type} [DecidableEq α]

/-! ## Keys -/

/-- A key is listed exactly when a value is found at it. -/
theorem mem_keys_iff {m : OrderedMap α β} {key : α} :
    key ∈ m.keys ↔ ∃ value, m.find? key = some value := by
  rw [← Option.isSome_iff_exists, ← contains_eq_isSome, contains, keys]
  simp

theorem mem_keys_insert {m : OrderedMap α β} {key k : α} {value : β} :
    k ∈ (m.insert key value).keys ↔ k = key ∨ k ∈ m.keys := by
  rw [mem_keys_iff, mem_keys_iff, find?_insert]
  split
  · next hk => simp [hk]
  · next hk => simp [hk]

/-- Looking up after erasing finds nothing at the key and the old values elsewhere. -/
@[simp] theorem find?_erase (m : OrderedMap α β) (key k : α) :
    (m.erase key).find? k = if k = key then none else m.find? k := by
  simp only [find?, erase, List.find?_filter]
  by_cases hk : k = key
  · rw [if_pos hk, Option.map_eq_none_iff, List.find?_eq_none]
    simp [hk]
  · rw [if_neg hk]
    congr 2
    funext p
    by_cases hp : p.1 = k <;> simp [hp, hk]

/-- Where keys differ, the entries are the values that are found. -/
theorem mem_entries_iff {m : OrderedMap α β} (h : m.keys.Nodup) {key : α} {value : β} :
    (key, value) ∈ m.entries ↔ m.find? key = some value :=
  ⟨find?_of_mem h, mem_entries_of_find?⟩

/-! ## Storing under new keys -/

theorem insertEntry_of_not_mem {key : α} {value : β} {xs : List (α × β)}
    (h : key ∉ xs.map Prod.fst) : insertEntry key value xs = xs ++ [(key, value)] := by
  induction xs with
  | nil => rfl
  | cons x xs ih =>
      obtain ⟨k, v⟩ := x
      simp only [List.map_cons, List.mem_cons, not_or] at h
      rw [insertEntry, if_neg (Ne.symm h.1), ih h.2, List.cons_append]

/-- Pairs with different keys are stored as they come. -/
theorem entries_ofList {pairs : List (α × β)} (h : (pairs.map Prod.fst).Nodup) :
    (ofList pairs).entries = pairs := by
  have hfold : ∀ (pairs : List (α × β)) (m : OrderedMap α β),
      ((m.entries ++ pairs).map Prod.fst).Nodup →
      (pairs.foldl (fun m p => m.insert p.1 p.2) m).entries = m.entries ++ pairs := by
    intro pairs
    induction pairs with
    | nil => intro m _; exact (List.append_nil _).symm
    | cons p pairs ih =>
        intro m hnodup
        have hnew : p.1 ∉ m.entries.map Prod.fst := by
          rw [List.map_append, List.map_cons] at hnodup
          intro hmem
          exact (List.nodup_append.mp hnodup).2.2 p.1 hmem p.1 List.mem_cons_self rfl
        have hinsert : (m.insert p.1 p.2).entries = m.entries ++ [p] :=
          insertEntry_of_not_mem hnew
        rw [List.foldl_cons, ih, hinsert, List.append_assoc]
        · rfl
        · rw [hinsert, List.append_assoc]
          exact hnodup
  exact hfold pairs empty h

theorem mem_keys_ofList {pairs : List (α × β)} {key : α} :
    key ∈ (ofList pairs).keys ↔ key ∈ pairs.map Prod.fst := by
  induction pairs using List.reverseRecOn with
  | nil => rfl
  | append_singleton pairs p ih =>
    rw [ofList, List.foldl_append]
    change key ∈ ((ofList pairs).insert p.1 p.2).keys ↔ _
    rw [mem_keys_insert, ih, List.map_append, List.mem_append, or_comm]
    simp

/-- Storing at a key that is there keeps the keys; another key is added behind them. -/
theorem keys_insert (m : OrderedMap α β) (key : α) (value : β) :
    (m.insert key value).keys = if key ∈ m.keys then m.keys else m.keys ++ [key] := by
  have hentries : ∀ entries : List (α × β), (insertEntry key value entries).map Prod.fst =
      if key ∈ entries.map Prod.fst then entries.map Prod.fst
      else entries.map Prod.fst ++ [key] := by
    intro entries
    induction entries with
    | nil => rfl
    | cons p rest ih =>
      obtain ⟨k, v⟩ := p
      rw [insertEntry]
      by_cases hk : k = key
      · simp [hk]
      · simp only [hk, if_false, List.map_cons, ih, List.mem_cons, Ne.symm hk, false_or]
        split <;> rfl
  exact hentries m.entries

/-- Every key is there once, in the order in which the keys are first met. -/
theorem keys_ofList (pairs : List (α × β)) :
    (ofList pairs).keys = (pairs.map Prod.fst).eraseDups := by
  induction pairs using List.reverseRecOn with
  | nil => rfl
  | append_singleton pairs p ih =>
    rw [ofList, List.foldl_append]
    change ((ofList pairs).insert p.1 p.2).keys = _
    rw [keys_insert, ih, List.map_append, List.eraseDups_append]
    split
    · next h => simp [List.removeAll, List.mem_eraseDups.1 h]
    · next h => simp [List.removeAll, List.eraseDups_cons, List.mem_eraseDups.not.1 h]

/-- Of the pairs with one key, the last one is stored. -/
theorem find?_ofList (pairs : List (α × β)) (key : α) :
    (ofList pairs).find? key = (pairs.reverse.find? (·.1 = key)).map Prod.snd := by
  induction pairs using List.reverseRecOn with
  | nil => rfl
  | append_singleton pairs p ih =>
    rw [ofList, List.foldl_append, List.reverse_append]
    change ((ofList pairs).insert p.1 p.2).find? key = _
    by_cases hp : p.1 = key
    · simp [hp]
    · simp [hp, Ne.symm hp, ih]

theorem nodup_keys_ofList (pairs : List (α × β)) : (ofList pairs).keys.Nodup := by
  induction pairs using List.reverseRecOn with
  | nil => exact List.nodup_nil
  | append_singleton pairs p ih =>
    rw [ofList, List.foldl_append]
    exact nodup_keys_insert ih

/-- Of items with different keys, each that is stored is found at its key. -/
theorem find?_ofList_filterMap {ι : Type} {items : List ι} {keyOf : ι → α}
    {pair? : ι → Option (α × β)} (hkey : ∀ x p, pair? x = some p → p.1 = keyOf x)
    (hnodup : (items.map keyOf).Nodup) {x : ι} (hx : x ∈ items) :
    (ofList (items.filterMap pair?)).find? (keyOf x) = (pair? x).map Prod.snd := by
  have hkeys : ((items.filterMap pair?).map Prod.fst).Nodup := by
    rw [List.Nodup, List.pairwise_map, List.pairwise_filterMap]
    refine (List.pairwise_map.1 hnodup).imp fun hne p hp q hq => ?_
    rwa [hkey _ p hp, hkey _ q hq]
  cases hpair : pair? x with
  | some p =>
    refine find?_of_mem (by rwa [keys, entries_ofList hkeys]) ?_
    rw [← hkey x p hpair, entries_ofList hkeys]
    exact List.mem_filterMap.2 ⟨x, hx, hpair⟩
  | none =>
    by_contra hfound
    obtain ⟨value, hfound⟩ := Option.ne_none_iff_exists'.1 hfound
    obtain ⟨y, hy, hpair'⟩ :=
      List.mem_filterMap.1 (mem_entries_ofList (mem_entries_of_find? hfound))
    obtain rfl := List.inj_on_of_nodup_map hnodup hy hx (hkey y _ hpair').symm
    cases hpair.symm.trans hpair'

/-! ## Lists at keys -/

/-- Looking up after every value was changed. -/
theorem find?_map_values {γ : Type} (m : OrderedMap α β) (f : β → γ) (key : α) :
    (⟨m.entries.map fun p => (p.1, f p.2)⟩ : OrderedMap α γ).find? key =
      (m.find? key).map f := by
  obtain ⟨entries⟩ := m
  simp only [find?, List.find?_map, Option.map_map]
  rfl

theorem find?_push (m : OrderedMap α (List β)) (key : α) (value : β) (k : α) :
    (m.push key value).find? k =
      if k = key then some ((m.find? key).getD [] ++ [value]) else m.find? k :=
  find?_insert m key _ k

theorem groupBy_concat (keyOf : β → α) (values : List β) (v : β) :
    groupBy keyOf (values ++ [v]) = (groupBy keyOf values).push (keyOf v) v := by
  rw [groupBy, List.foldl_append]
  rfl

variable {keyOf : β → α} {values : List β}

theorem nodup_keys_groupBy (keyOf : β → α) (values : List β) :
    (groupBy keyOf values).keys.Nodup := by
  induction values using List.reverseRecOn with
  | nil => exact List.nodup_nil
  | append_singleton values v ih =>
    rw [groupBy_concat]
    exact nodup_keys_insert ih

/-- A group holds the values with its key in order. -/
theorem find?_groupBy (keyOf : β → α) (values : List β) (k : α) :
    (groupBy keyOf values).find? k =
      if values.filter (keyOf · = k) = [] then none else some (values.filter (keyOf · = k)) := by
  induction values using List.reverseRecOn with
  | nil => rfl
  | append_singleton values v ih =>
    rw [groupBy_concat, find?_push, List.filter_append]
    by_cases hk : k = keyOf v
    · subst hk
      rw [ih]
      by_cases hempty : values.filter (keyOf · = keyOf v) = [] <;> simp [hempty]
    · simp [hk, Ne.symm hk, ih]

theorem mem_entries_groupBy {k : α} {group : List β} :
    (k, group) ∈ (groupBy keyOf values).entries ↔
      group = values.filter (keyOf · = k) ∧ group ≠ [] := by
  rw [mem_entries_iff (nodup_keys_groupBy keyOf values), find?_groupBy]
  split
  · next hempty => simp [hempty]
  · next hne =>
    rw [Option.some_inj]
    exact ⟨fun h => ⟨h.symm, h ▸ hne⟩, fun h => h.1.symm⟩

theorem perm_flatMap_push (m : OrderedMap α (List β)) (key : α) (value : β) :
    ((m.push key value).entries.flatMap Prod.snd).Perm (m.entries.flatMap Prod.snd ++ [value]) := by
  obtain ⟨entries⟩ := m
  simp only [push, insert, find?]
  induction entries with
  | nil => exact .refl _
  | cons x entries ih =>
    obtain ⟨k, group⟩ := x
    rw [insertEntry]
    by_cases hk : k = key
    · -- The value comes behind its group, so what was behind the group moves behind the value.
      simp only [hk, if_true, List.find?_cons_of_pos, decide_true, Option.map_some,
        Option.getD_some, List.flatMap_cons, List.append_assoc]
      exact List.perm_append_comm.append_left group
    · rw [if_neg hk, List.find?_cons_of_neg (by simpa using hk)]
      simp only [List.flatMap_cons, List.append_assoc]
      exact ih.append_left group

/-- Grouping neither loses nor repeats a value. -/
theorem perm_flatMap_groupBy (keyOf : β → α) (values : List β) :
    ((groupBy keyOf values).entries.flatMap Prod.snd).Perm values := by
  induction values using List.reverseRecOn with
  | nil => exact .refl _
  | append_singleton values v ih =>
    rw [groupBy_concat]
    exact (perm_flatMap_push _ _ _).trans (ih.append_right [v])

end OrderedMap
end Bindery
