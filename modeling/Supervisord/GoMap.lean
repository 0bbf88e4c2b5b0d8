import Mathlib.Data.List.Dedup
import Mathlib.Data.List.Perm.Basic

/-!
# Go maps keyed by strings

Every map of the daemon is a Go `map[string]V`: the configuration entries, the
key/value pairs of an entry and of an ini section, the program-to-group index
and the process table. We model such a map as an association list whose keys
do not repeat; the invariant is a field of the structure, so a map with a
duplicated key cannot be built.

The list order is the order in which a `range` over the map visits its entries.
Go leaves that order unspecified. Assignment `m[k] = v` replaces the value in
place when `k` is present and appends otherwise, so the order of this model is
first insertion; results that must not depend on the order are stated for every
map, hence for every order its entries can come in, or up to `List.Perm`.
-/

namespace Supervisord

/-- A Go `map[string]α`, listed in its enumeration order. -/
structure GoMap (α : Type) where
  entries : List (String × α)
  nodupKeys : (entries.map Prod.fst).Nodup

namespace GoMap

variable {α : Type}

/-- `make(map[string]α)`. -/
def empty : GoMap α := ⟨[], List.nodup_nil⟩

/-- The keys, in enumeration order. -/
def keys (m : GoMap α) : List String := m.entries.map Prod.fst

/-- `v, ok := m[key]`. -/
def lookup (m : GoMap α) (key : String) : Option α := m.entries.lookup key

/-- In-place assignment on the entry list. -/
def setEntry (key : String) (value : α) : List (String × α) → List (String × α)
  | [] => [(key, value)]
  | entry :: rest =>
      if entry.1 = key then (key, value) :: rest else entry :: setEntry key value rest

theorem keys_setEntry (key : String) (value : α) (entries : List (String × α)) :
    (setEntry key value entries).map Prod.fst =
      if key ∈ entries.map Prod.fst then entries.map Prod.fst
      else entries.map Prod.fst ++ [key] := by
  induction entries with
  | nil => simp [setEntry]
  | cons entry rest ih =>
      by_cases same : entry.1 = key
      · simp [setEntry, same]
      · by_cases present : key ∈ rest.map Prod.fst <;>
          simp_all [setEntry, Ne.symm same]

/-- `m[key] = value`. -/
def set (m : GoMap α) (key : String) (value : α) : GoMap α where
  entries := setEntry key value m.entries
  nodupKeys := by
    rw [keys_setEntry]
    split
    · exact m.nodupKeys
    · next absent =>
      exact m.nodupKeys.append (List.nodup_singleton key) (by simpa using absent)

/-- A map literal: the pairs assigned in order, a later pair of a key overwriting. -/
def ofList (pairs : List (String × α)) : GoMap α :=
  pairs.foldl (fun m pair => m.set pair.1 pair.2) empty

/-- `delete(m, key)`. -/
def delete (m : GoMap α) (key : String) : GoMap α where
  entries := m.entries.filter (fun entry => entry.1 ≠ key)
  nodupKeys := ((List.filter_sublist _).map Prod.fst).nodup m.nodupKeys

@[simp] theorem lookup_empty (key : String) : (empty : GoMap α).lookup key = none := rfl

@[simp] theorem keys_empty : (empty : GoMap α).keys = [] := rfl

/-- `List.lookup` on a cons cell, with the `==` test read as equality. -/
theorem lookup_cons_eq (key other : String) (value : α) (rest : List (String × α)) :
    ((key, value) :: rest).lookup other = if other = key then some value else rest.lookup other := by
  simp only [List.lookup_cons]
  split <;> simp_all

theorem lookup_setEntry (key other : String) (value : α) (entries : List (String × α)) :
    (setEntry key value entries).lookup other =
      if other = key then some value else entries.lookup other := by
  induction entries with
  | nil => simp [setEntry, lookup_cons_eq]
  | cons entry rest ih =>
      obtain ⟨k, v⟩ := entry
      by_cases same : k = key
      · subst same
        by_cases hit : other = k <;> simp [setEntry, lookup_cons_eq, hit]
      · by_cases hit : other = k
        · subst hit
          simp [setEntry, lookup_cons_eq, same]
        · simp [setEntry, lookup_cons_eq, same, hit, ih]

@[simp] theorem lookup_set (m : GoMap α) (key other : String) (value : α) :
    (m.set key value).lookup other = if other = key then some value else m.lookup other :=
  lookup_setEntry key other value m.entries

theorem lookup_set_of_ne (m : GoMap α) {key other : String} (value : α) (ne : other ≠ key) :
    (m.set key value).lookup other = m.lookup other := by simp [ne]

@[simp] theorem keys_set (m : GoMap α) (key : String) (value : α) :
    (m.set key value).keys = if key ∈ m.keys then m.keys else m.keys ++ [key] :=
  keys_setEntry key value m.entries

theorem lookup_filter_ne (key other : String) (entries : List (String × α)) :
    (entries.filter (fun entry => entry.1 ≠ key)).lookup other =
      if other = key then none else entries.lookup other := by
  induction entries with
  | nil => simp
  | cons entry rest ih =>
      obtain ⟨k, v⟩ := entry
      simp only [ne_eq, decide_not] at ih
      by_cases kept : k = key
      · subst kept
        by_cases hit : other = k
        · subst hit
          simpa using ih
        · simp [lookup_cons_eq, hit, ih]
      · by_cases hit : other = k
        · subst hit
          simp [lookup_cons_eq, kept]
        · simp [lookup_cons_eq, kept, hit, ih]

@[simp] theorem lookup_delete (m : GoMap α) (key other : String) :
    (m.delete key).lookup other = if other = key then none else m.lookup other :=
  lookup_filter_ne key other m.entries

/-- With distinct keys, the looked-up value is the one listed under the key. -/
theorem lookup_eq_some_iff (m : GoMap α) (key : String) (value : α) :
    m.lookup key = some value ↔ (key, value) ∈ m.entries := by
  obtain ⟨entries, nodup⟩ := m
  simp only [lookup]
  induction entries with
  | nil => simp
  | cons entry rest ih =>
      obtain ⟨k, v⟩ := entry
      simp only [List.map_cons, List.nodup_cons] at nodup
      by_cases hit : key = k
      · subst hit
        have absent : ∀ w, (key, w) ∉ rest := fun w mem =>
          nodup.1 (List.mem_map.mpr ⟨(key, w), mem, rfl⟩)
        simp [lookup_cons_eq, absent, eq_comm]
      · simp [lookup_cons_eq, hit, ih nodup.2]

theorem lookup_eq_none_of_not_mem {β : Type} {key : String} {pairs : List (String × β)}
    (absent : key ∉ pairs.map Prod.fst) : pairs.lookup key = none := by
  simp only [List.lookup_eq_none_iff, bne_iff_ne, ne_eq]
  rintro ⟨k', w⟩ mem rfl
  exact absent (List.mem_map.mpr ⟨_, mem, rfl⟩)

/-- Writing distinct-keyed pairs into a map: a written key takes its pair's value,
other keys keep theirs. -/
theorem lookup_foldl_set (pairs : List (String × α)) (nodup : (pairs.map Prod.fst).Nodup)
    (m : GoMap α) (key : String) :
    (pairs.foldl (fun m pair => m.set pair.1 pair.2) m).lookup key =
      (pairs.lookup key).or (m.lookup key) := by
  induction pairs generalizing m with
  | nil => simp
  | cons pair rest ih =>
      obtain ⟨k, v⟩ := pair
      simp only [List.map_cons, List.nodup_cons] at nodup
      rw [List.foldl_cons, ih nodup.2, lookup_cons_eq]
      by_cases hit : key = k
      · subst hit
        simp [lookup_eq_none_of_not_mem nodup.1]
      · simp [hit]

theorem mem_keys_iff_isSome {β : Type} (pairs : List (String × β)) (key : String) :
    key ∈ pairs.map Prod.fst ↔ (pairs.lookup key).isSome := by
  simp only [List.lookup_isSome_iff, beq_iff_eq, List.mem_map]
  exact ⟨fun ⟨pair, mem, named⟩ => ⟨pair, mem, named.symm⟩,
    fun ⟨pair, mem, named⟩ => ⟨pair, mem, named.symm⟩⟩

theorem mem_of_lookup_eq_some {β : Type} {pairs : List (String × β)} {key : String} {value : β}
    (found : pairs.lookup key = some value) : (key, value) ∈ pairs := by
  obtain ⟨_, _, rfl, -⟩ := List.lookup_eq_some_iff.mp found
  simp

/-- Two maps with the same keys, in the same order, and the same value under every key are
the same map. -/
theorem entries_eq_of_lookup : ∀ {l l' : List (String × α)}, (l.map Prod.fst).Nodup →
    l.map Prod.fst = l'.map Prod.fst → (∀ key, l.lookup key = l'.lookup key) → l = l'
  | [], [], _, _, _ => rfl
  | [], _ :: _, _, keys, _ => by simp at keys
  | _ :: _, [], _, keys, _ => by simp at keys
  | (k, v) :: rest, (k', v') :: rest', nodup, keys, lookup => by
      simp only [List.map_cons, List.cons.injEq, List.nodup_cons] at keys nodup
      obtain ⟨rfl, keys⟩ := keys
      have value : v = v' := by simpa [lookup_cons_eq] using lookup k
      refine value ▸ congrArg _ (entries_eq_of_lookup nodup.2 keys fun key => ?_)
      by_cases hit : key = k
      · subst hit
        rw [lookup_eq_none_of_not_mem nodup.1, lookup_eq_none_of_not_mem (keys ▸ nodup.1)]
      · simpa [lookup_cons_eq, hit] using lookup key

theorem eq_of_keys_lookup {m m' : GoMap α} (keys : m.keys = m'.keys)
    (lookup : ∀ key, m.lookup key = m'.lookup key) : m = m' := by
  obtain ⟨l, nodup⟩ := m
  obtain ⟨l', _⟩ := m'
  cases entries_eq_of_lookup nodup keys lookup
  rfl

/-- An assignment keeps the keys in their order, and appends a new key at the end. -/
theorem keys_prefix_set (m : GoMap α) (key : String) (value : α) : m.keys <+: (m.set key value).keys := by
  rw [keys_set]
  split
  · exact List.prefix_refl _
  · exact List.prefix_append _ _

/-- An assignment keeps the key enumerated first. -/
theorem head?_keys_set (m : GoMap α) (key : String) (value : α) {first : String}
    (head : m.keys.head? = some first) : (m.set key value).keys.head? = some first := by
  obtain ⟨rest, grown⟩ := keys_prefix_set m key value
  rw [← grown]
  cases found : m.keys with
  | nil => rw [found] at head; cases head
  | cons k ks => rw [found] at head; exact head

/-- Writing pairs into a map, repeated keys allowed: a key takes the value of its last pair,
if it has one. -/
theorem lookup_foldl_set_reverse (pairs : List (String × α)) (m : GoMap α) (key : String) :
    (pairs.foldl (fun m pair => m.set pair.1 pair.2) m).lookup key =
      (pairs.reverse.lookup key).or (m.lookup key) := by
  induction pairs using List.reverseRecOn with
  | nil => rfl
  | append_singleton rest pair ih =>
      rw [List.foldl_append, List.foldl_cons, List.foldl_nil, lookup_set, List.reverse_append,
        List.reverse_singleton, List.singleton_append, lookup_cons_eq, ih]
      split <;> rfl

/-- Writing pairs whose keys the map has keeps its keys. -/
theorem keys_foldl_set_of_mem (pairs : List (String × α)) (m : GoMap α)
    (present : ∀ pair ∈ pairs, pair.1 ∈ m.keys) :
    (pairs.foldl (fun m pair => m.set pair.1 pair.2) m).keys = m.keys := by
  induction pairs generalizing m with
  | nil => rfl
  | cons pair rest ih =>
      have same : (m.set pair.1 pair.2).keys = m.keys := by
        rw [keys_set, if_pos (present pair (List.mem_cons_self _ _))]
      rw [List.foldl_cons, ih _ fun p mem => same ▸ present p (List.mem_cons_of_mem _ mem), same]

/-- Writing pairs changes nothing when the map already holds the last value of each key. -/
theorem foldl_set_of_lookup (pairs : List (String × α)) (m : GoMap α)
    (found : ∀ key value, pairs.reverse.lookup key = some value → m.lookup key = some value) :
    pairs.foldl (fun m pair => m.set pair.1 pair.2) m = m := by
  refine eq_of_keys_lookup (keys_foldl_set_of_mem _ _ fun pair mem => ?_) fun key => ?_
  · have listed : pair.1 ∈ pairs.reverse.map Prod.fst := by simpa using ⟨pair.2, mem⟩
    obtain ⟨value, last⟩ := Option.isSome_iff_exists.mp ((mem_keys_iff_isSome _ _).mp listed)
    rw [keys, mem_keys_iff_isSome, ← lookup, found _ _ last]
    rfl
  · rw [lookup_foldl_set_reverse]
    cases last : pairs.reverse.lookup key
    · rfl
    · rw [found _ _ last]
      rfl

/-- Writing the same pairs a second time changes nothing. -/
theorem foldl_set_foldl_set (pairs : List (String × α)) (m : GoMap α) :
    pairs.foldl (fun m pair => m.set pair.1 pair.2) (pairs.foldl (fun m pair => m.set pair.1 pair.2) m) =
      pairs.foldl (fun m pair => m.set pair.1 pair.2) m :=
  foldl_set_of_lookup _ _ fun key value last => by rw [lookup_foldl_set_reverse, last]; rfl

end GoMap

end Supervisord
