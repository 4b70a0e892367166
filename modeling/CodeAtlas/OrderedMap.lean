/-!
Finite maps that remember the order in which their keys were first inserted. Inserting at a key
that is present replaces the value and keeps the place. No key stands twice; this is part of the
type.
-/

namespace CodeAtlas

structure OrderedMap (κ : Type) (υ : Type) where
  entries : List (κ × υ)
  distinct : (entries.map Prod.fst).Nodup

namespace OrderedMap

variable {κ υ ω : Type} [DecidableEq κ]

def empty : OrderedMap κ υ :=
  ⟨[], List.nodup_nil⟩

instance : Inhabited (OrderedMap κ υ) := ⟨empty⟩

def keys (map : OrderedMap κ υ) : List κ :=
  map.entries.map Prod.fst

def values (map : OrderedMap κ υ) : List υ :=
  map.entries.map Prod.snd

def size (map : OrderedMap κ υ) : Nat :=
  map.entries.length

def isEmpty (map : OrderedMap κ υ) : Bool :=
  map.entries.isEmpty

def get? (map : OrderedMap κ υ) (key : κ) : Option υ :=
  map.entries.lookup key

def getD (map : OrderedMap κ υ) (key : κ) (default : υ) : υ :=
  (map.get? key).getD default

def contains (map : OrderedMap κ υ) (key : κ) : Bool :=
  map.keys.contains key

/-! ## Insertion -/

def insertEntry (key : κ) (value : υ) : List (κ × υ) → List (κ × υ)
  | [] => [(key, value)]
  | (other, old) :: rest =>
    if other = key then (key, value) :: rest else (other, old) :: insertEntry key value rest

theorem map_fst_insertEntry (key : κ) (value : υ) (entries : List (κ × υ)) :
    (insertEntry key value entries).map Prod.fst =
      if key ∈ entries.map Prod.fst then entries.map Prod.fst
      else entries.map Prod.fst ++ [key] := by
  induction entries with
  | nil => simp [insertEntry]
  | cons entry rest induction =>
    obtain ⟨other, old⟩ := entry
    by_cases equal : other = key
    · simp [insertEntry, equal]
    · have different : ¬ key = other := fun same => equal same.symm
      simp only [insertEntry, equal, if_false, List.map_cons, induction, List.mem_cons, different,
        false_or]
      split <;> simp

theorem nodup_insertEntry (key : κ) (value : υ) {entries : List (κ × υ)}
    (distinct : (entries.map Prod.fst).Nodup) :
    ((insertEntry key value entries).map Prod.fst).Nodup := by
  rw [map_fst_insertEntry]
  split
  · exact distinct
  · rename_i absent
    refine List.nodup_append.mpr ⟨distinct, by simp, ?_⟩
    intro first member second present equal
    rw [List.mem_singleton] at present
    subst equal
    subst present
    exact absent member

def insert (map : OrderedMap κ υ) (key : κ) (value : υ) : OrderedMap κ υ :=
  ⟨insertEntry key value map.entries, nodup_insertEntry key value map.distinct⟩

def ofList (pairs : List (κ × υ)) : OrderedMap κ υ :=
  pairs.foldl (fun map pair => map.insert pair.1 pair.2) empty

/-- Applies a change to the value at a key; an absent key stays absent. -/
def modify (map : OrderedMap κ υ) (key : κ) (change : υ → υ) : OrderedMap κ υ :=
  ⟨map.entries.map fun entry => (entry.1, if entry.1 = key then change entry.2 else entry.2), by
    have same : (fun entry : κ × υ => entry.1) = Prod.fst := rfl
    simpa [List.map_map, Function.comp_def, same] using map.distinct⟩

/-! ## Views that keep the keys or some of them -/

def mapValues (map : OrderedMap κ υ) (image : κ → υ → ω) : OrderedMap κ ω :=
  ⟨map.entries.map fun entry => (entry.1, image entry.1 entry.2), by
    have same : (fun entry : κ × υ => entry.1) = Prod.fst := rfl
    simpa [List.map_map, Function.comp_def, same] using map.distinct⟩

def filter (map : OrderedMap κ υ) (keep : κ → υ → Bool) : OrderedMap κ υ :=
  ⟨map.entries.filter fun entry => keep entry.1 entry.2,
    map.distinct.sublist (List.filter_sublist.map Prod.fst)⟩

def erase (map : OrderedMap κ υ) (key : κ) : OrderedMap κ υ :=
  map.filter fun other _ => other ≠ key

end OrderedMap

end CodeAtlas
