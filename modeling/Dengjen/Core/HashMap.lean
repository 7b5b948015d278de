import Mathlib.Data.List.AList

/-!
# Hash maps

A `HashMap` is an association list without duplicate keys: the order of its
entries is the order in which it is iterated. Nothing but `iter` sees that order.
-/

namespace Dengjen

/-- A map, as the entries that a lookup finds. -/
abbrev HashMap (K V : Type*) := AList fun _ : K => V

namespace HashMap

variable {K V : Type*}

/-- The entries in iteration order. -/
def iter (map : HashMap K V) : List (K × V) := map.entries.map fun entry => (entry.1, entry.2)

variable [DecidableEq K]

/-- `HashMap::from_iter`: a later entry for a key replaces an earlier one. -/
def fromIter (entries : List (K × V)) : HashMap K V :=
  entries.foldl (fun map entry => AList.insert entry.1 entry.2 map) ∅

/-- `HashMap::extend`: the entries of `other` replace those of `map`. -/
def extend (map other : HashMap K V) : HashMap K V := other ∪ map

/-- `iter().map(swap).collect()`: which of several keys with one value is kept depends on
the iteration order. -/
def reversed [DecidableEq V] (map : HashMap K V) : HashMap V K :=
  fromIter (map.iter.map fun entry => (entry.2, entry.1))

@[simp] theorem mem_iter {map : HashMap K V} {key : K} {value : V} :
    (key, value) ∈ map.iter ↔ map.lookup key = some value := by
  have h := AList.mem_lookup_iff (a := key) (b := value) (s := map)
  rw [Option.mem_def] at h
  rw [h, iter, List.mem_map]
  constructor
  · rintro ⟨⟨k, v⟩, hmem, heq⟩
    cases heq
    exact hmem
  · exact fun hmem => ⟨⟨key, value⟩, hmem, rfl⟩

/-- Entries with a new key each are inserted over what the map holds. -/
private theorem lookup_foldl_insert (entries : List (K × V)) (map : HashMap K V) (key : K) :
    (entries.foldl (fun map entry => AList.insert entry.1 entry.2 map) map).lookup key =
      (entries.reverse.findSome? fun entry =>
        if entry.1 = key then some entry.2 else none).or (map.lookup key) := by
  induction entries generalizing map with
  | nil => simp
  | cons entry entries ih =>
      rw [List.foldl_cons, ih, List.reverse_cons, List.findSome?_append, Option.or_assoc]
      congr 1
      by_cases h : entry.1 = key
      · subst h
        simp
      · simp [h, AList.lookup_insert_ne (Ne.symm h)]

/-- What a collected map holds for a key is the last entry for it. -/
theorem lookup_fromIter (entries : List (K × V)) (key : K) :
    (fromIter entries).lookup key = entries.reverse.findSome? fun entry =>
      if entry.1 = key then some entry.2 else none := by
  simp [fromIter, lookup_foldl_insert]

theorem mem_of_lookup_fromIter {entries : List (K × V)} {key : K} {value : V}
    (h : (fromIter entries).lookup key = some value) : (key, value) ∈ entries := by
  rw [lookup_fromIter] at h
  obtain ⟨entry, hmem, hentry⟩ := List.exists_of_findSome?_eq_some h
  rw [List.mem_reverse] at hmem
  split at hentry
  · next hkey =>
      cases hentry
      exact hkey ▸ hmem
  · cases hentry

theorem exists_lookup_fromIter {entries : List (K × V)} {key : K} {value : V}
    (h : (key, value) ∈ entries) : ∃ last, (fromIter entries).lookup key = some last := by
  rw [← Option.isSome_iff_exists, lookup_fromIter, List.findSome?_isSome_iff]
  exact ⟨(key, value), List.mem_reverse.mpr h, by simp⟩

/-- Entries that are the only ones for their key survive the collection. -/
theorem lookup_fromIter_of_unique {entries : List (K × V)} {key : K} {value : V}
    (h : (key, value) ∈ entries) (hunique : ∀ other, (key, other) ∈ entries → other = value) :
    (fromIter entries).lookup key = some value := by
  obtain ⟨last, hlast⟩ := exists_lookup_fromIter h
  rw [hlast, hunique last (mem_of_lookup_fromIter hlast)]

section Reversed

variable {map : HashMap K V} {key : K} {value : V}

theorem mem_swapped_iter :
    (value, key) ∈ (map.iter.map fun entry => (entry.2, entry.1)) ↔
      map.lookup key = some value := by
  rw [← mem_iter, List.mem_map]
  constructor
  · rintro ⟨⟨k, v⟩, hmem, heq⟩
    cases heq
    exact hmem
  · exact fun hmem => ⟨(key, value), hmem, rfl⟩

variable [DecidableEq V]

theorem lookup_of_reversed (h : map.reversed.lookup value = some key) :
    map.lookup key = some value :=
  mem_swapped_iter.mp (mem_of_lookup_fromIter h)

/-- Where no two keys share a value, the reversed map is the inverse of the map. -/
theorem reversed_of_injective
    (hinj : ∀ k k' v, map.lookup k = some v → map.lookup k' = some v → k = k')
    (h : map.lookup key = some value) : map.reversed.lookup value = some key :=
  lookup_fromIter_of_unique (mem_swapped_iter.mpr h) fun _ hother =>
    hinj _ _ _ (mem_swapped_iter.mp hother) h

end Reversed

theorem lookup_extend (map other : HashMap K V) (key : K) :
    (map.extend other).lookup key = (other.lookup key).or (map.lookup key) := by
  by_cases h : key ∈ other
  · obtain ⟨value, hvalue⟩ := Option.isSome_iff_exists.mp (AList.lookup_isSome.mpr h)
    rw [extend, AList.lookup_union_left h, hvalue, Option.some_or]
  · rw [extend, AList.lookup_union_right h, AList.lookup_eq_none.mpr h, Option.none_or]

end HashMap

end Dengjen
