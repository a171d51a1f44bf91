import Mathlib.Data.List.Basic
import Mathlib.Data.List.Nodup

/-!
# Insertion-ordered dictionaries

A dictionary as a list of keyed entries, in the order in which the keys were first set.
Setting a key that is already there replaces its value in place; setting a new one appends it.
This is the behaviour of the dictionaries of several scripting languages, and iteration order is
part of it, so the library keeps lists rather than finite maps.

`Dict` carries the fact that its keys are distinct as a field, so a dictionary with two entries
of one key cannot be built.  The list-level functions `Dict.lookup`, `Dict.insert` and
`Dict.remove` are available on their own, for data that is a raw list of fields.
-/

namespace Dict

variable {κ α β : Type*} [DecidableEq κ]

/-! ## Lists of fields -/

/-- The value of the first field with the given key. -/
def lookup (k : κ) : List (κ × α) → Option α
  | [] => none
  | (k', v) :: rest => if k' = k then some v else lookup k rest

/-- Set a field: in place when the key is there, at the end when it is not. -/
def insert (k : κ) (v : α) : List (κ × α) → List (κ × α)
  | [] => [(k, v)]
  | (k', v') :: rest => if k' = k then (k, v) :: rest else (k', v') :: insert k v rest

/-- Drop the fields with the given key. -/
def remove (k : κ) (fields : List (κ × α)) : List (κ × α) :=
  fields.filter fun field => field.1 ≠ k

/-- Set several fields, first to last. -/
def update (fields updates : List (κ × α)) : List (κ × α) :=
  updates.foldl (fun acc field => insert field.1 field.2 acc) fields

/-- Set the fields of a dictionary: in place those that are there, at the end the others. -/
def merge (fields updates : List (κ × α)) : List (κ × α) :=
  fields.map (fun field => (field.1, (lookup field.1 updates).getD field.2)) ++
    updates.filter fun field => (lookup field.1 fields).isNone

@[simp] lemma lookup_nil (k : κ) : lookup k ([] : List (κ × α)) = none := rfl

lemma lookup_cons (k k' : κ) (v : α) (rest : List (κ × α)) :
    lookup k ((k', v) :: rest) = if k' = k then some v else lookup k rest := rfl

@[simp] lemma lookup_insert_self (k : κ) (v : α) (fields : List (κ × α)) :
    lookup k (insert k v fields) = some v := by
  induction fields with
  | nil => simp [insert, lookup]
  | cons field rest ih =>
    obtain ⟨k', v'⟩ := field
    by_cases h : k' = k
    · simp [insert, h, lookup_cons]
    · simp [insert, h, lookup_cons, ih]

lemma lookup_insert_of_ne {k k' : κ} (h : k' ≠ k) (v : α) (fields : List (κ × α)) :
    lookup k (insert k' v fields) = lookup k fields := by
  induction fields with
  | nil => simp [insert, lookup, h]
  | cons field rest ih =>
    obtain ⟨k'', v'⟩ := field
    by_cases hk : k'' = k'
    · subst hk
      simp [insert, lookup_cons, h]
    · simp [insert, hk, lookup_cons, ih]

lemma lookup_insert (k k' : κ) (v : α) (fields : List (κ × α)) :
    lookup k (insert k' v fields) = if k' = k then some v else lookup k fields := by
  by_cases h : k' = k
  · subst h
    simp
  · rw [lookup_insert_of_ne h, if_neg h]

lemma lookup_remove_of_ne {k k' : κ} (h : k' ≠ k) (fields : List (κ × α)) :
    lookup k (remove k' fields) = lookup k fields := by
  induction fields with
  | nil => rfl
  | cons field rest ih =>
    obtain ⟨k'', v⟩ := field
    by_cases hk : k'' = k'
    · subst hk
      simpa [remove, lookup_cons, h] using ih
    · simpa [remove, hk, lookup_cons] using congrArg (fun o => if k'' = k then some v else o) ih

@[simp] lemma lookup_remove_self (k : κ) (fields : List (κ × α)) :
    lookup k (remove k fields) = none := by
  induction fields with
  | nil => rfl
  | cons field rest ih =>
    obtain ⟨k', v⟩ := field
    by_cases h : k' = k
    · simpa [remove, h] using ih
    · simpa [remove, h, lookup_cons] using ih

lemma lookup_filter (p : κ → Bool) (k : κ) (fields : List (κ × α)) :
    lookup k (fields.filter fun field => p field.1) = if p k then lookup k fields else none := by
  induction fields with
  | nil => simp
  | cons field rest ih =>
    obtain ⟨k', v⟩ := field
    by_cases hp : p k' = true
    · rw [List.filter_cons, if_pos hp, lookup_cons, lookup_cons, ih]
      by_cases h : k' = k
      · subst h
        simp [hp]
      · simp [h]
    · rw [List.filter_cons, if_neg hp, ih, lookup_cons]
      by_cases h : k' = k
      · subst h
        simp [hp]
      · simp [h]

lemma lookup_append (k : κ) (fields others : List (κ × α)) :
    lookup k (fields ++ others) = (lookup k fields).orElse fun _ => lookup k others := by
  induction fields with
  | nil => rfl
  | cons field rest ih =>
    obtain ⟨k', v⟩ := field
    rw [List.cons_append, lookup_cons, lookup_cons, ih]
    split <;> rfl

lemma lookup_map (f : κ → α → α) (k : κ) (fields : List (κ × α)) :
    lookup k (fields.map fun field => (field.1, f field.1 field.2)) =
      (lookup k fields).map (f k) := by
  induction fields with
  | nil => rfl
  | cons field rest ih =>
    obtain ⟨k', v⟩ := field
    rw [List.map_cons, lookup_cons, lookup_cons, ih]
    split
    · next h => rw [h, Option.map_some]
    · rfl

lemma lookup_merge (k : κ) (fields updates : List (κ × α)) :
    lookup k (merge fields updates) = (lookup k updates).orElse fun _ => lookup k fields := by
  rw [merge, lookup_append, lookup_map fun name value => (lookup name updates).getD value,
    lookup_filter fun name => (lookup name fields).isNone]
  cases lookup k fields with
  | none => cases lookup k updates <;> rfl
  | some v => cases lookup k updates <;> rfl

lemma lookup_update_of_notMem {k : κ} {updates : List (κ × α)} (h : k ∉ updates.map Prod.fst)
    (fields : List (κ × α)) : lookup k (update fields updates) = lookup k fields := by
  induction updates generalizing fields with
  | nil => rfl
  | cons first rest ih =>
    rw [List.map_cons, List.mem_cons, not_or] at h
    have hrest : update fields (first :: rest) = update (insert first.1 first.2 fields) rest := rfl
    rw [hrest, ih h.2, lookup_insert_of_ne (Ne.symm h.1)]

/-- The first of the updates holds if no later one names its field. -/
lemma lookup_update_cons {k : κ} {rest : List (κ × α)} (h : k ∉ rest.map Prod.fst) (v : α)
    (fields : List (κ × α)) : lookup k (update fields ((k, v) :: rest)) = some v := by
  have hrest : update fields ((k, v) :: rest) = update (insert k v fields) rest := rfl
  rw [hrest, lookup_update_of_notMem h, lookup_insert_self]

lemma lookup_eq_none_iff {k : κ} {l : List (κ × α)} :
    lookup k l = none ↔ k ∉ l.map Prod.fst := by
  induction l with
  | nil => simp
  | cons field rest ih =>
    obtain ⟨k', v⟩ := field
    by_cases h : k' = k
    · simp [lookup_cons, h]
    · simpa [lookup_cons, h, Ne.symm h] using ih

lemma mem_of_lookup {k : κ} {v : α} {fields : List (κ × α)} (h : lookup k fields = some v) :
    (k, v) ∈ fields := by
  induction fields with
  | nil => simp at h
  | cons field rest ih =>
    obtain ⟨k', v'⟩ := field
    by_cases hk : k' = k
    · subst hk
      have hv : v' = v := by simpa [lookup_cons] using h
      simp [hv]
    · rw [lookup_cons, if_neg hk] at h
      exact List.mem_cons_of_mem _ (ih h)

lemma lookup_of_mem {k : κ} {v : α} {fields : List (κ × α)}
    (hnodup : (fields.map Prod.fst).Nodup) (h : (k, v) ∈ fields) : lookup k fields = some v := by
  induction fields with
  | nil => simp at h
  | cons field rest ih =>
    obtain ⟨k', v'⟩ := field
    rw [List.map_cons, List.nodup_cons] at hnodup
    rcases List.mem_cons.1 h with heq | hrest
    · cases heq
      simp [lookup_cons]
    · have hne : k' ≠ k := by
        rintro rfl
        exact hnodup.1 (List.mem_map.2 ⟨_, hrest, rfl⟩)
      rw [lookup_cons, if_neg hne]
      exact ih hnodup.2 hrest

/-- Setting a field to its value changes nothing. -/
lemma insert_of_lookup {k : κ} {v : α} {fields : List (κ × α)} (h : lookup k fields = some v) :
    insert k v fields = fields := by
  induction fields with
  | nil => cases h
  | cons field rest ih =>
    obtain ⟨k', v'⟩ := field
    by_cases hk : k' = k
    · subst hk
      have hv : v' = v := by simpa [lookup_cons] using h
      simp [insert, hv]
    · rw [lookup_cons, if_neg hk] at h
      rw [insert, if_neg hk, ih h]

lemma remove_insert_self (k : κ) (v : α) (fields : List (κ × α)) :
    remove k (insert k v fields) = remove k fields := by
  induction fields with
  | nil => simp [insert, remove]
  | cons field rest ih =>
    obtain ⟨k', v'⟩ := field
    by_cases hk : k' = k
    · simp [insert, remove, hk]
    · simpa [insert, remove, hk] using ih

lemma remove_of_lookup {k : κ} {fields : List (κ × α)} (h : lookup k fields = none) :
    remove k fields = fields := by
  rw [remove, List.filter_eq_self]
  intro field hfield
  have hne : field.1 ≠ k := by
    rintro rfl
    exact lookup_eq_none_iff.1 h (List.mem_map_of_mem hfield)
  simpa using hne

/-- Updates of other fields are appended. -/
lemma merge_of_disjoint {fields updates : List (κ × α)}
    (h : ∀ k ∈ updates.map Prod.fst, lookup k fields = none) :
    merge fields updates = fields ++ updates := by
  have hmap : fields.map (fun field => (field.1, (lookup field.1 updates).getD field.2)) =
      fields := by
    refine (List.map_congr_left fun field hfield => ?_).trans (List.map_id fields)
    have hnone : lookup field.1 updates = none := by
      rw [lookup_eq_none_iff]
      intro hmem
      exact lookup_eq_none_iff.1 (h _ hmem) (List.mem_map_of_mem hfield)
    rw [hnone]
    rfl
  have hfilter : (updates.filter fun field => (lookup field.1 fields).isNone) = updates := by
    rw [List.filter_eq_self]
    intro field hfield
    rw [h _ (List.mem_map_of_mem hfield)]
    rfl
  rw [merge, hmap, hfilter]

lemma mem_keys_insert {k k' : κ} {v : α} {fields : List (κ × α)} :
    k ∈ (insert k' v fields).map Prod.fst ↔ k = k' ∨ k ∈ fields.map Prod.fst := by
  have hiff := (not_congr (lookup_eq_none_iff (k := k) (l := insert k' v fields))).symm
  have hiff' := (not_congr (lookup_eq_none_iff (k := k) (l := fields))).symm
  rw [not_not] at hiff hiff'
  rw [hiff, hiff', lookup_insert]
  by_cases h : k' = k
  · simp [h]
  · simp [h, Ne.symm h]

lemma nodup_keys_insert {fields : List (κ × α)} (hnodup : (fields.map Prod.fst).Nodup)
    (k : κ) (v : α) : ((insert k v fields).map Prod.fst).Nodup := by
  induction fields with
  | nil => simp [insert]
  | cons field rest ih =>
    obtain ⟨k', v'⟩ := field
    rw [List.map_cons, List.nodup_cons] at hnodup
    by_cases h : k' = k
    · subst h
      simpa [insert] using hnodup
    · rw [insert, if_neg h, List.map_cons, List.nodup_cons]
      refine ⟨fun hmem => ?_, ih hnodup.2⟩
      rcases mem_keys_insert.1 hmem with heq | hrest
      · exact h heq
      · exact hnodup.1 hrest

/-- Setting a field that is there keeps the keys. -/
lemma keys_insert_of_mem {k : κ} {v : α} {fields : List (κ × α)}
    (h : k ∈ fields.map Prod.fst) : (insert k v fields).map Prod.fst = fields.map Prod.fst := by
  induction fields with
  | nil => cases h
  | cons field rest ih =>
    obtain ⟨k', v'⟩ := field
    by_cases hk : k' = k
    · simp [insert, hk]
    · have hrest : k ∈ rest.map Prod.fst := by simpa [Ne.symm hk] using h
      simp [insert, hk, ih hrest]

end Dict

/-- A dictionary: fields in insertion order, with distinct keys. -/
structure Dict (κ α : Type*) where
  /-- The entries, in the order in which their keys were first set. -/
  entries : List (κ × α)
  /-- No key has two entries. -/
  nodup : (entries.map Prod.fst).Nodup

namespace Dict

variable {κ α : Type*} [DecidableEq κ]

/-! ## Dictionaries -/

/-- The dictionary without entries. -/
def empty : Dict κ α := ⟨[], List.nodup_nil⟩

instance : EmptyCollection (Dict κ α) := ⟨empty⟩

instance : Inhabited (Dict κ α) := ⟨empty⟩

/-- The keys in insertion order. -/
def keys (d : Dict κ α) : List κ := d.entries.map Prod.fst

/-- The values in insertion order. -/
def values (d : Dict κ α) : List α := d.entries.map Prod.snd

/-- The value stored under a key. -/
def get? (d : Dict κ α) (k : κ) : Option α := lookup k d.entries

/-- Store a value under a key, keeping the key's place if it has one. -/
def set (d : Dict κ α) (k : κ) (v : α) : Dict κ α :=
  ⟨insert k v d.entries, nodup_keys_insert d.nodup k v⟩

omit [DecidableEq κ] in
@[ext] lemma ext_entries {d d' : Dict κ α} (h : d.entries = d'.entries) : d = d' := by
  cases d
  cases d'
  cases h
  rfl

@[simp] lemma get?_empty (k : κ) : (∅ : Dict κ α).get? k = none := rfl

@[simp] lemma get?_set_self (d : Dict κ α) (k : κ) (v : α) : (d.set k v).get? k = some v :=
  lookup_insert_self k v d.entries

lemma get?_set_of_ne {k k' : κ} (h : k' ≠ k) (d : Dict κ α) (v : α) :
    (d.set k' v).get? k = d.get? k :=
  lookup_insert_of_ne h v d.entries

lemma get?_set (d : Dict κ α) (k k' : κ) (v : α) :
    (d.set k' v).get? k = if k' = k then some v else d.get? k :=
  lookup_insert k k' v d.entries

lemma get?_eq_none_iff {d : Dict κ α} {k : κ} : d.get? k = none ↔ k ∉ d.keys :=
  lookup_eq_none_iff

lemma mem_keys_iff {d : Dict κ α} {k : κ} : k ∈ d.keys ↔ ∃ v, d.get? k = some v := by
  rw [← not_iff_not, ← get?_eq_none_iff, Option.eq_none_iff_forall_ne_some]
  simp

lemma mem_keys_of_get? {d : Dict κ α} {k : κ} {v : α} (h : d.get? k = some v) : k ∈ d.keys :=
  mem_keys_iff.2 ⟨v, h⟩

lemma mem_entries_iff {d : Dict κ α} {k : κ} {v : α} :
    (k, v) ∈ d.entries ↔ d.get? k = some v :=
  ⟨lookup_of_mem d.nodup, mem_of_lookup⟩

omit [DecidableEq κ] in
lemma keys_nodup (d : Dict κ α) : d.keys.Nodup := d.nodup

lemma keys_set_of_mem {d : Dict κ α} {k : κ} {v : α} (h : k ∈ d.keys) :
    (d.set k v).keys = d.keys :=
  keys_insert_of_mem h

@[simp] lemma mem_keys_set {d : Dict κ α} {k k' : κ} {v : α} :
    k ∈ (d.set k' v).keys ↔ k = k' ∨ k ∈ d.keys :=
  mem_keys_insert

end Dict
