/-!
# Maps that remember the order of insertion

Macro tables, aliases and template bindings are looked up by key, but they are also
listed, and the order in which they are listed is the order in which the keys arrived.
Writing to a present key keeps its place; erasing closes the gap.

## Main definitions

* `OrderedMap`: pairs in order, looked up by the first pair with the key.
* `OrderedMap.find?`, `insert`, `erase`, `contains`.
-/
namespace Bindery
universe u v

/-- Key and value pairs in order of arrival. -/
structure OrderedMap (α : Type u) (β : Type v) where
  entries : List (α × β) := []
deriving Inhabited

namespace OrderedMap
variable {α : Type u} {β : Type v} [DecidableEq α]

/-- The map without entries. -/
def empty : OrderedMap α β := ⟨[]⟩

/-- The map has no entry. -/
def isEmpty (m : OrderedMap α β) : Bool := m.entries.isEmpty

/-- The value stored at a key. -/
def find? (m : OrderedMap α β) (key : α) : Option β :=
  (m.entries.find? (·.1 = key)).map Prod.snd

/-- The key is present. -/
def contains (m : OrderedMap α β) (key : α) : Bool := m.entries.any (·.1 = key)

/-- The keys in order. -/
def keys (m : OrderedMap α β) : List α := m.entries.map Prod.fst

/-- Replace the value of the first pair with the key, or append a pair. -/
def insertEntry (key : α) (value : β) : List (α × β) → List (α × β)
  | [] => [(key, value)]
  | (k, v) :: rest => if k = key then (key, value) :: rest else (k, v) :: insertEntry key value rest

/-- Store a value. A present key keeps its place. -/
def insert (m : OrderedMap α β) (key : α) (value : β) : OrderedMap α β :=
  ⟨insertEntry key value m.entries⟩

/-- Remove a key; the others keep their order. -/
def erase (m : OrderedMap α β) (key : α) : OrderedMap α β := ⟨m.entries.filter (·.1 ≠ key)⟩

/-- The map that arises by storing the pairs one after the other. -/
def ofList (pairs : List (α × β)) : OrderedMap α β :=
  pairs.foldl (fun m p => m.insert p.1 p.2) empty

/-- Append a value to the list at a key. -/
def push (m : OrderedMap α (List β)) (key : α) (value : β) : OrderedMap α (List β) :=
  m.insert key (((m.find? key).getD []) ++ [value])

/-- Values in lists by their keys. -/
def groupBy (keyOf : β → α) (values : List β) : OrderedMap α (List β) :=
  values.foldl (fun m v => m.push (keyOf v) v) empty

/-- The number of keys. -/
def size (m : OrderedMap α β) : Nat := m.entries.length

@[simp] theorem find?_empty (key : α) : (empty : OrderedMap α β).find? key = none := rfl

theorem find?_insertEntry (key : α) (value : β) (xs : List (α × β)) (k : α) :
    ((insertEntry key value xs).find? (·.1 = k)).map Prod.snd =
      if k = key then some value else (xs.find? (·.1 = k)).map Prod.snd := by
  induction xs with
  | nil => by_cases h : key = k <;> simp [insertEntry, h, eq_comm]
  | cons x xs ih =>
    obtain ⟨a, b⟩ := x
    by_cases hk : a = key
    · subst hk
      by_cases h : a = k
      · simp [insertEntry, h]
      · simp [insertEntry, h, Ne.symm h]
    · by_cases h : a = k
      · subst h
        simp [insertEntry, hk]
      · simp [insertEntry, hk, h, ih]

/-- Looking up after storing finds the new value at its key and the old ones elsewhere. -/
@[simp] theorem find?_insert (m : OrderedMap α β) (key : α) (value : β) (k : α) :
    (m.insert key value).find? k = if k = key then some value else m.find? k :=
  find?_insertEntry key value m.entries k

/-- A key is present exactly when it has a value. -/
theorem contains_eq_isSome (m : OrderedMap α β) (key : α) :
    m.contains key = (m.find? key).isSome := by
  simp only [contains, find?, Option.isSome_map]
  rw [Bool.eq_iff_iff]
  simp [List.find?_isSome]

/-- A value that is found stands among the entries. -/
theorem mem_entries_of_find? {m : OrderedMap α β} {key : α} {value : β}
    (h : m.find? key = some value) : (key, value) ∈ m.entries := by
  simp only [find?, Option.map_eq_some_iff] at h
  obtain ⟨p, hp, rfl⟩ := h
  have hkey : p.1 = key := by simpa using List.find?_some hp
  exact hkey ▸ List.mem_of_find?_eq_some hp

theorem mem_insertEntry {key : α} {value : β} {xs : List (α × β)} {p : α × β}
    (h : p ∈ insertEntry key value xs) : p = (key, value) ∨ p ∈ xs := by
  induction xs with
  | nil => exact .inl (by simpa [insertEntry] using h)
  | cons x xs ih =>
    obtain ⟨a, b⟩ := x
    by_cases hk : a = key
    · simp only [insertEntry, hk, if_true, List.mem_cons] at h
      exact h.imp_right fun h => .tail _ h
    · simp only [insertEntry, hk, if_false, List.mem_cons] at h
      rcases h with rfl | h
      · exact .inr (.head _)
      · exact (ih h).imp_right fun h => .tail _ h

/-- Storing adds the new pair and nothing else. -/
theorem mem_entries_insert {m : OrderedMap α β} {key : α} {value : β} {p : α × β}
    (h : p ∈ (m.insert key value).entries) : p = (key, value) ∨ p ∈ m.entries :=
  mem_insertEntry h

/-- Storing pairs one after the other stores nothing else. -/
theorem mem_entries_ofList {pairs : List (α × β)} {p : α × β} (h : p ∈ (ofList pairs).entries) :
    p ∈ pairs := by
  have hfold : ∀ (pairs : List (α × β)) (m : OrderedMap α β),
      p ∈ (pairs.foldl (fun m p => m.insert p.1 p.2) m).entries → p ∈ m.entries ∨ p ∈ pairs := by
    intro pairs
    induction pairs with
    | nil => exact fun _ h => .inl h
    | cons q pairs ih =>
      intro m h
      rcases ih _ h with h | h
      · rcases mem_entries_insert h with rfl | h
        · exact .inr (.head _)
        · exact .inl h
      · exact .inr (.tail _ h)
  exact (hfold pairs empty h).resolve_left (by simp [empty])

theorem nodup_keys_insertEntry {key : α} {value : β} {xs : List (α × β)}
    (h : (xs.map Prod.fst).Nodup) : ((insertEntry key value xs).map Prod.fst).Nodup := by
  induction xs with
  | nil => simp [insertEntry]
  | cons x xs ih =>
    obtain ⟨a, b⟩ := x
    rw [List.map_cons, List.nodup_cons] at h
    by_cases hk : a = key
    · subst hk
      rw [insertEntry, if_pos rfl, List.map_cons, List.nodup_cons]
      exact h
    · rw [insertEntry, if_neg hk, List.map_cons, List.nodup_cons]
      refine ⟨fun hmem => ?_, ih h.2⟩
      obtain ⟨p, hp, hpa⟩ := List.mem_map.1 hmem
      rcases mem_insertEntry hp with rfl | hp
      · exact hk hpa.symm
      · exact h.1 (List.mem_map.2 ⟨p, hp, hpa⟩)

/-- Storing keeps the keys different from each other. -/
theorem nodup_keys_insert {m : OrderedMap α β} {key : α} {value : β} (h : m.keys.Nodup) :
    (m.insert key value).keys.Nodup :=
  nodup_keys_insertEntry h

/-- Erasing keeps the keys different from each other. -/
theorem nodup_keys_erase {m : OrderedMap α β} {key : α} (h : m.keys.Nodup) :
    (m.erase key).keys.Nodup :=
  h.sublist (List.filter_sublist.map Prod.fst)

/-- Where keys differ, an entry is the value found at its key. -/
theorem find?_of_mem {m : OrderedMap α β} {key : α} {value : β} (h : m.keys.Nodup)
    (hmem : (key, value) ∈ m.entries) : m.find? key = some value := by
  obtain ⟨entries⟩ := m
  simp only [find?, keys] at h hmem ⊢
  induction entries with
  | nil => simp at hmem
  | cons x xs ih =>
    obtain ⟨a, b⟩ := x
    rw [List.map_cons, List.nodup_cons] at h
    rcases List.mem_cons.1 hmem with heq | hmem
    · simp [← heq]
    · have hne : a ≠ key := by
        rintro rfl
        exact h.1 (List.mem_map.2 ⟨(a, value), hmem, rfl⟩)
      rw [List.find?_cons_of_neg (by simpa using hne)]
      exact ih h.2 hmem

/-- Erasing a present key leaves fewer entries. -/
theorem size_erase_lt {m : OrderedMap α β} {key : α} {value : β}
    (h : m.find? key = some value) : (m.erase key).size < m.size := by
  simp only [find?, Option.map_eq_some_iff] at h
  obtain ⟨p, hp, -⟩ := h
  have hmem : p ∈ m.entries := List.mem_of_find?_eq_some hp
  have hkey : p.1 = key := by simpa using List.find?_some hp
  have hlt : (m.entries.filter fun x => decide (x.1 ≠ key)).length < m.entries.length := by
    rw [List.length_filter_lt_length_iff_exists]
    exact ⟨p, hmem, by simp [hkey]⟩
  simpa [size, erase] using hlt

end OrderedMap
end Bindery
