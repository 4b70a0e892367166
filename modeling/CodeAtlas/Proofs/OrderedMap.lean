import CodeAtlas.OrderedMap
import Mathlib.Data.List.Basic

/-!
Laws of ordered maps: what a look-up finds after each operation, and which keys there are, in which
order. Later modules reason about maps through these laws alone.
-/

namespace CodeAtlas.OrderedMap

open List

variable {κ υ ω : Type}

/-! ## Keys -/

theorem eq_of_entries {map other : OrderedMap κ υ} (same : map.entries = other.entries) :
    map = other := by
  rcases map with ⟨entries, distinct⟩
  cases same
  rfl

theorem nodup_keys (map : OrderedMap κ υ) : map.keys.Nodup :=
  map.distinct

@[simp] theorem length_keys (map : OrderedMap κ υ) : map.keys.length = map.size := by
  simp [keys, size]

@[simp] theorem keys_mapValues (map : OrderedMap κ υ) (image : κ → υ → ω) :
    (map.mapValues image).keys = map.keys := by
  simp [mapValues, keys, Function.comp_def]

variable [DecidableEq κ]

/-! ## Look-up and membership -/

theorem lookup_cons_of_ne {key other : κ} (different : key ≠ other) (value : υ)
    (rest : List (κ × υ)) : ((other, value) :: rest).lookup key = rest.lookup key := by
  rw [lookup_cons, beq_eq_false_iff_ne.mpr different]

theorem lookup_eq_some_iff_mem {entries : List (κ × υ)} (distinct : (entries.map Prod.fst).Nodup)
    (key : κ) (value : υ) : entries.lookup key = some value ↔ (key, value) ∈ entries := by
  induction entries with
  | nil => simp
  | cons entry rest induction =>
    rcases entry with ⟨other, old⟩
    have parts := nodup_cons.mp distinct
    by_cases equal : key = other
    · subst equal
      have absent : (key, value) ∉ rest := fun member =>
        parts.1 (mem_map.mpr ⟨(key, value), member, rfl⟩)
      simp [absent, eq_comm]
    · simp [lookup_cons_of_ne equal, induction parts.2, equal]

theorem get?_eq_some_iff (map : OrderedMap κ υ) (key : κ) (value : υ) :
    map.get? key = some value ↔ (key, value) ∈ map.entries :=
  lookup_eq_some_iff_mem map.distinct key value

theorem mem_keys_iff (map : OrderedMap κ υ) (key : κ) :
    key ∈ map.keys ↔ ∃ value, map.get? key = some value := by
  simp only [get?_eq_some_iff, keys, mem_map]
  constructor
  · rintro ⟨⟨_, value⟩, member, rfl⟩
    exact ⟨value, member⟩
  · rintro ⟨value, member⟩
    exact ⟨(key, value), member, rfl⟩

theorem mem_keys_of_get? {map : OrderedMap κ υ} {key : κ} {value : υ}
    (found : map.get? key = some value) : key ∈ map.keys :=
  (map.mem_keys_iff key).mpr ⟨value, found⟩

theorem get?_eq_none_iff (map : OrderedMap κ υ) (key : κ) :
    map.get? key = none ↔ key ∉ map.keys := by
  rw [mem_keys_iff, Option.eq_none_iff_forall_ne_some]
  push Not
  rfl

@[simp] theorem contains_iff (map : OrderedMap κ υ) (key : κ) :
    map.contains key = true ↔ key ∈ map.keys := by
  simp [contains]

theorem getD_of_get? {map : OrderedMap κ υ} {key : κ} {value : υ}
    (found : map.get? key = some value) (default : υ) : map.getD key default = value := by
  simp [getD, found]

theorem getD_of_not_mem {map : OrderedMap κ υ} {key : κ} (absent : key ∉ map.keys)
    (default : υ) : map.getD key default = default := by
  simp [getD, (map.get?_eq_none_iff key).mpr absent]

@[simp] theorem get?_empty (key : κ) : (empty : OrderedMap κ υ).get? key = none := rfl

/-! ## Insertion -/

theorem lookup_insertEntry (key other : κ) (value : υ) (entries : List (κ × υ)) :
    (insertEntry key value entries).lookup other =
      if other = key then some value else entries.lookup other := by
  induction entries with
  | nil =>
    by_cases equal : other = key
    · simp [insertEntry, equal]
    · simp [insertEntry, lookup_cons_of_ne equal, equal]
  | cons entry rest induction =>
    rcases entry with ⟨present, old⟩
    by_cases atKey : present = key
    · subst atKey
      by_cases equal : other = present
      · simp [insertEntry, equal]
      · simp [insertEntry, lookup_cons_of_ne equal, equal]
    · by_cases equal : other = present
      · subst equal
        simp [insertEntry, atKey]
      · simp [insertEntry, atKey, lookup_cons_of_ne equal, induction]

theorem insertEntry_of_not_mem {key : κ} {entries : List (κ × υ)}
    (absent : key ∉ entries.map Prod.fst) (value : υ) :
    insertEntry key value entries = entries ++ [(key, value)] := by
  induction entries with
  | nil => rfl
  | cons entry rest induction =>
    rw [map_cons, mem_cons, not_or] at absent
    rw [insertEntry, if_neg (Ne.symm absent.1), induction absent.2]
    rfl

theorem get?_insert (map : OrderedMap κ υ) (key other : κ) (value : υ) :
    (map.insert key value).get? other = if other = key then some value else map.get? other :=
  lookup_insertEntry key other value map.entries

@[simp] theorem get?_insert_self (map : OrderedMap κ υ) (key : κ) (value : υ) :
    (map.insert key value).get? key = some value := by
  simp [get?_insert]

theorem get?_insert_of_ne (map : OrderedMap κ υ) {key other : κ} (different : other ≠ key)
    (value : υ) : (map.insert key value).get? other = map.get? other := by
  simp [get?_insert, different]

@[simp] theorem getD_insert_self (map : OrderedMap κ υ) (key : κ) (value default : υ) :
    (map.insert key value).getD key default = value := by
  simp [getD]

theorem getD_insert_of_ne (map : OrderedMap κ υ) {key other : κ} (different : other ≠ key)
    (value default : υ) :
    (map.insert key value).getD other default = map.getD other default := by
  simp [getD, get?_insert_of_ne map different]

theorem keys_insert (map : OrderedMap κ υ) (key : κ) (value : υ) :
    (map.insert key value).keys = if key ∈ map.keys then map.keys else map.keys ++ [key] :=
  map_fst_insertEntry key value map.entries

@[simp] theorem mem_keys_insert (map : OrderedMap κ υ) (key other : κ) (value : υ) :
    other ∈ (map.insert key value).keys ↔ other = key ∨ other ∈ map.keys := by
  rw [keys_insert]
  split
  · rename_i present
    constructor
    · exact .inr
    · rintro (rfl | member)
      · exact present
      · exact member
  · rw [mem_append, mem_singleton, or_comm]

theorem size_insert_of_not_mem (map : OrderedMap κ υ) {key : κ} (absent : key ∉ map.keys)
    (value : υ) : (map.insert key value).size = map.size + 1 := by
  rw [← length_keys, ← length_keys, keys_insert, if_neg absent, length_append, length_singleton]

/-- After insertions under keys of their own, a look-up finds the item inserted last. -/
theorem get?_foldl_insert (keyOf : υ → κ) (items : List υ) (map : OrderedMap κ υ) (key : κ) :
    (items.foldl (fun map item => map.insert (keyOf item) item) map).get? key =
      (items.reverse.find? fun item => keyOf item = key).or (map.get? key) := by
  induction items generalizing map with
  | nil => simp
  | cons item rest induction =>
    rw [foldl_cons, induction, get?_insert, reverse_cons, find?_append, Option.or_assoc]
    congr 1
    by_cases equal : keyOf item = key
    · simp [equal]
    · simp [equal, Ne.symm equal]

/-! ## Lists of pairs -/

theorem mem_insertEntry {key : κ} {value : υ} {entries : List (κ × υ)} {entry : κ × υ}
    (member : entry ∈ insertEntry key value entries) : entry = (key, value) ∨ entry ∈ entries := by
  induction entries with
  | nil => exact .inl (mem_singleton.mp member)
  | cons first rest induction =>
    rw [insertEntry] at member
    split at member
    · rcases mem_cons.mp member with here | later
      · exact .inl here
      · exact .inr (mem_cons_of_mem first later)
    · rcases mem_cons.mp member with here | later
      · exact .inr (mem_cons.mpr (.inl here))
      · rcases induction later with here | present
        · exact .inl here
        · exact .inr (mem_cons_of_mem first present)

theorem mem_of_mem_ofList {pairs : List (κ × υ)} {entry : κ × υ}
    (member : entry ∈ (ofList pairs).entries) : entry ∈ pairs := by
  have all : ∀ (map : OrderedMap κ υ),
      entry ∈ (pairs.foldl (fun map pair => map.insert pair.1 pair.2) map).entries →
        entry ∈ map.entries ∨ entry ∈ pairs := by
    clear member
    induction pairs with
    | nil => exact fun _ member => .inl member
    | cons pair rest induction =>
      intro map member
      rcases induction (map.insert pair.1 pair.2) member with present | later
      · rcases mem_insertEntry present with rfl | before
        · exact .inr mem_cons_self
        · exact .inl before
      · exact .inr (mem_cons_of_mem pair later)
  exact (all empty member).resolve_left not_mem_nil

theorem mem_keys_ofList_iff (pairs : List (κ × υ)) (key : κ) :
    key ∈ (ofList pairs).keys ↔ key ∈ pairs.map Prod.fst := by
  have all : ∀ map : OrderedMap κ υ,
      key ∈ (pairs.foldl (fun map pair => map.insert pair.1 pair.2) map).keys ↔
        key ∈ map.keys ∨ key ∈ pairs.map Prod.fst := by
    induction pairs with
    | nil => simp
    | cons pair rest induction =>
      intro map
      rw [foldl_cons, induction, mem_keys_insert, map_cons, mem_cons]
      grind
  have whole := all .empty
  simpa [ofList, empty, keys] using whole

theorem entries_ofList {pairs : List (κ × υ)} (distinct : (pairs.map Prod.fst).Nodup) :
    (ofList pairs).entries = pairs := by
  have all : ∀ (map : OrderedMap κ υ), ((map.entries ++ pairs).map Prod.fst).Nodup →
      (pairs.foldl (fun map pair => map.insert pair.1 pair.2) map).entries =
        map.entries ++ pairs := by
    clear distinct
    induction pairs with
    | nil => exact fun map _ => (append_nil map.entries).symm
    | cons pair rest induction =>
      intro map distinct
      have absent : pair.1 ∉ map.entries.map Prod.fst := by
        intro present
        rw [map_append] at distinct
        exact (nodup_append.mp distinct).2.2 pair.1 present pair.1 mem_cons_self rfl
      have added : (map.insert pair.1 pair.2).entries = map.entries ++ [pair] :=
        insertEntry_of_not_mem absent pair.2
      have whole := induction (map.insert pair.1 pair.2) (by
        rw [added, append_assoc]
        exact distinct)
      rw [foldl_cons, whole, added, append_assoc, singleton_append]
  exact all empty distinct

theorem get?_ofList_eq_some_iff {pairs : List (κ × υ)} (distinct : (pairs.map Prod.fst).Nodup)
    (key : κ) (value : υ) : (ofList pairs).get? key = some value ↔ (key, value) ∈ pairs := by
  rw [get?_eq_some_iff, entries_ofList distinct]

/-! ## Changes in place -/

@[simp] theorem keys_modify (map : OrderedMap κ υ) (key : κ) (change : υ → υ) :
    (map.modify key change).keys = map.keys := by
  simp [modify, keys, Function.comp_def]

theorem get?_modify (map : OrderedMap κ υ) (key other : κ) (change : υ → υ) :
    (map.modify key change).get? other =
      if other = key then (map.get? other).map change else map.get? other := by
  simp only [get?, modify]
  induction map.entries with
  | nil => simp
  | cons entry rest induction =>
    rcases entry with ⟨present, old⟩
    by_cases equal : other = present
    · subst equal
      by_cases atKey : other = key <;> simp [atKey]
    · simp only [map_cons, lookup_cons_of_ne equal, induction]

/-! ## Selections -/

theorem lookup_filter {entries : List (κ × υ)} (distinct : (entries.map Prod.fst).Nodup)
    (keep : κ → υ → Bool) (key : κ) :
    (entries.filter fun entry => keep entry.1 entry.2).lookup key =
      (entries.lookup key).filter (keep key) := by
  induction entries with
  | nil => rfl
  | cons entry rest induction =>
    rcases entry with ⟨other, value⟩
    have parts := nodup_cons.mp distinct
    by_cases equal : key = other
    · subst equal
      have absent : rest.lookup key = none := by
        rw [lookup_eq_none_iff]
        intro entry member
        exact bne_iff_ne.mpr fun same => parts.1 (mem_map.mpr ⟨entry, member, same.symm⟩)
      by_cases kept : keep key value = true
      · simp [kept, Option.filter_some]
      · simp [kept, induction parts.2, absent, Option.filter_some]
    · by_cases kept : keep other value = true
      · simp [kept, lookup_cons_of_ne equal, induction parts.2]
      · simp [kept, lookup_cons_of_ne equal, induction parts.2]

theorem get?_filter (map : OrderedMap κ υ) (keep : κ → υ → Bool) (key : κ) :
    (map.filter keep).get? key = (map.get? key).filter (keep key) :=
  lookup_filter map.distinct keep key

theorem get?_erase (map : OrderedMap κ υ) (key other : κ) :
    (map.erase key).get? other = if other = key then none else map.get? other := by
  rw [erase, get?_filter]
  by_cases equal : other = key
  · cases map.get? other <;> simp [equal]
  · cases map.get? other <;> simp [equal]

/-! ## Images -/

@[simp] theorem get?_mapValues (map : OrderedMap κ υ) (image : κ → υ → ω) (key : κ) :
    (map.mapValues image).get? key = (map.get? key).map (image key) := by
  simp only [get?, mapValues]
  induction map.entries with
  | nil => simp
  | cons entry rest induction =>
    rcases entry with ⟨present, old⟩
    by_cases equal : key = present
    · subst equal
      simp
    · simp only [map_cons, lookup_cons_of_ne equal, induction]

end CodeAtlas.OrderedMap
