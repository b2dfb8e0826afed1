/-!
# Tables

A table holds one value under each of its keys. Putting a value under a key replaces the one that
was there (`get?_put`), changes no other key, and makes the table larger only by a key that was not
there before (`size_put`).
-/

namespace MetaCache.Store

variable {α β : Type} [DecidableEq α]

/-- Puts a value under a key, in the place of an older one. -/
def putEntry (key : α) (value : β) : List (α × β) → List (α × β)
  | [] => [(key, value)]
  | (other, kept) :: rest =>
    if key = other then (key, value) :: rest else (other, kept) :: putEntry key value rest

theorem mem_keys_putEntry {key k : α} {value : β} {entries : List (α × β)} :
    k ∈ (putEntry key value entries).map Prod.fst ↔ k = key ∨ k ∈ entries.map Prod.fst := by
  induction entries with
  | nil => simp [putEntry]
  | cons entry rest ih =>
    obtain ⟨other, kept⟩ := entry
    by_cases h : key = other
    · subst h; simp [putEntry]
    · simp only [putEntry, h, ite_false, List.map_cons, List.mem_cons, ih]
      constructor
      · rintro (h | h | h) <;> simp [h]
      · rintro (h | h | h) <;> simp [h]

theorem nodup_putEntry {key : α} {value : β} {entries : List (α × β)}
    (h : (entries.map Prod.fst).Nodup) : ((putEntry key value entries).map Prod.fst).Nodup := by
  induction entries with
  | nil => simp [putEntry]
  | cons entry rest ih =>
    obtain ⟨other, kept⟩ := entry
    rw [List.map_cons, List.nodup_cons] at h
    by_cases hk : key = other
    · subst hk; simpa [putEntry] using h
    · simp only [putEntry, hk, ite_false, List.map_cons, List.nodup_cons]
      refine ⟨fun hm => ?_, ih h.2⟩
      rcases mem_keys_putEntry.1 hm with rfl | hm
      · exact hk rfl
      · exact h.1 hm

theorem length_putEntry (key : α) (value : β) (entries : List (α × β)) :
    (putEntry key value entries).length =
      if key ∈ entries.map Prod.fst then entries.length else entries.length + 1 := by
  induction entries with
  | nil => simp [putEntry]
  | cons entry rest ih =>
    obtain ⟨k, kept⟩ := entry
    by_cases h : key = k
    · subst h; simp [putEntry]
    · simp only [putEntry, h, ite_false, List.length_cons, List.map_cons, List.mem_cons, false_or,
        ih]
      split <;> rfl

/-- Entries under distinct keys. -/
structure Table (α β : Type) where
  entries : List (α × β)
  distinct : (entries.map Prod.fst).Nodup

namespace Table

def empty : Table α β := ⟨[], by simp⟩

instance : Inhabited (Table α β) := ⟨⟨[], by simp⟩⟩

/-- The value under a key. -/
def get? (t : Table α β) (key : α) : Option β := t.entries.lookup key

/-- The table with a value under a key. -/
def put (t : Table α β) (key : α) (value : β) : Table α β :=
  ⟨putEntry key value t.entries, nodup_putEntry t.distinct⟩

def keys (t : Table α β) : List α := t.entries.map Prod.fst

/-- The number of entries. -/
def size (t : Table α β) : Nat := t.entries.length

@[simp]
theorem get?_empty (key : α) : (empty : Table α β).get? key = none := rfl

theorem lookup_cons_eq (key k : α) (value : β) (rest : List (α × β)) :
    ((k, value) :: rest).lookup key = if key = k then some value else rest.lookup key := by
  by_cases h : key = k
  · subst h; simp
  · have hb : (key == k) = false := by simp [h]
    rw [List.lookup_cons, hb, if_neg h]

/-- **A put changes what is under its own key and nothing else.** -/
theorem get?_put (t : Table α β) (key other : α) (value : β) :
    (t.put key value).get? other = if other = key then some value else t.get? other := by
  simp only [get?, put]
  generalize t.entries = entries
  induction entries with
  | nil => simp [putEntry, lookup_cons_eq]
  | cons entry rest ih =>
    obtain ⟨k, kept⟩ := entry
    by_cases hk : key = k
    · subst hk
      by_cases h : other = key <;> simp [putEntry, lookup_cons_eq, h]
    · simp only [putEntry, hk, ite_false, lookup_cons_eq, ih]
      by_cases h : other = k
      · subst h
        simp [show ¬ other = key from fun h' => hk h'.symm]
      · simp [h]

theorem get?_eq_none_iff {t : Table α β} {key : α} : t.get? key = none ↔ key ∉ t.keys := by
  simp only [get?, keys]
  generalize t.entries = entries
  induction entries with
  | nil => simp
  | cons entry rest ih =>
    obtain ⟨k, kept⟩ := entry
    rw [lookup_cons_eq, List.map_cons, List.mem_cons, not_or]
    by_cases h : key = k
    · simp [h]
    · simpa [h] using ih

/-- A put adds an entry only if nothing was under its key. -/
theorem size_put (t : Table α β) (key : α) (value : β) :
    (t.put key value).size = if key ∈ t.keys then t.size else t.size + 1 :=
  length_putEntry key value t.entries

end Table

end MetaCache.Store
