import CodeAtlas.CallGraph.Basic
import CodeAtlas.Proofs.OrderedMap
import Mathlib.Data.List.Forall2
import Mathlib.Data.List.TakeWhile

/-!
What the look-up of callees and the removal of repeated calls do to the relations of a call graph.
A component is known by several names, and later components take names over from earlier ones; but
a name that is known once stays known, and what it stands for is always a component of the graph.
-/

namespace CodeAtlas.CallGraph

open OrderedMap

variable {functions : Components} {key name callee : String}

/-! ## The names of components -/

/-- A component goes by its key and its name and, unless its component identifier is missing or
empty, by that identifier and the last segment of it. -/
def GoesBy (key : String) (component : Component) (name : String) : Prop :=
  name = key ∨ name = component.name ∨
    ∃ id, component.componentId = some id ∧ id ≠ "" ∧ (name = id ∨ name = lastSegment id)

/-- Some component goes by the name. -/
def IsName (functions : Components) (name : String) : Prop :=
  ∃ entry ∈ functions.entries, GoesBy entry.1 entry.2 name

/-- A component for a callee: one that goes by it or, where nothing does and the callee has a dot,
one that goes by its last segment. -/
def Denotes (functions : Components) (callee key : String) : Prop :=
  ∃ component, functions.get? key = some component ∧
    (GoesBy key component callee ∨
      ¬ IsName functions callee ∧ Text.contains callee "." = true ∧
        GoesBy key component (lastSegment callee))

def Known (functions : Components) (callee : String) : Prop :=
  ∃ key, Denotes functions callee key

theorem isName_of_get? {component : Component} (found : functions.get? key = some component)
    (goes : GoesBy key component name) :
    IsName functions name :=
  ⟨(key, component), (functions.get?_eq_some_iff key component).mp found, goes⟩

theorem IsName.exists_get? (named : IsName functions name) :
    ∃ key component, functions.get? key = some component ∧ GoesBy key component name := by
  rcases named with ⟨⟨key, component⟩, member, goes⟩
  exact ⟨key, component, (functions.get?_eq_some_iff key component).mpr member, goes⟩

theorem known_of_isName (named : IsName functions callee) : Known functions callee := by
  rcases named.exists_get? with ⟨key, component, found, goes⟩
  exact ⟨key, component, found, .inl goes⟩

theorem known_of_mem_keys (member : key ∈ functions.keys) : Known functions key := by
  rcases (functions.mem_keys_iff key).mp member with ⟨component, found⟩
  exact ⟨key, component, found, .inl (.inl rfl)⟩

theorem Denotes.mem_keys (denotes : Denotes functions callee key) : key ∈ functions.keys := by
  rcases denotes with ⟨component, found, _⟩
  exact mem_keys_of_get? found

/-! ## The table of names -/

theorem mem_keys_enterNames (table : OrderedMap String String) (key : String)
    (component : Component) (name : String) :
    name ∈ (enterNames table key component).keys ↔
      GoesBy key component name ∨ name ∈ table.keys := by
  unfold enterNames GoesBy
  split
  · rename_i missing
    simp only [missing, mem_keys_insert, reduceCtorEq, false_and, exists_false, or_false]
    grind
  · rename_i blank
    simp only [blank, mem_keys_insert, Option.some.injEq]
    constructor
    · grind
    · rintro ((atKey | atName | ⟨id, rfl, filled, _⟩) | old)
      · exact .inr (.inl atKey)
      · exact .inl atName
      · exact absurd rfl filled
      · exact .inr (.inr old)
  · rename_i id notEmpty identified
    have same : (∃ other, component.componentId = some other ∧ other ≠ "" ∧
        (name = other ∨ name = lastSegment other)) ↔ name = id ∨ name = lastSegment id := by
      rw [identified]
      constructor
      · rintro ⟨other, equal, _, goes⟩
        rw [Option.some.inj equal]
        exact goes
      · exact fun goes => ⟨id, rfl, notEmpty, goes⟩
    rw [same]
    dsimp only
    split
    · -- The segment is taken: as a name it was there before the component was entered.
      rename_i taken
      rw [OrderedMap.contains_iff] at taken
      simp only [mem_keys_insert] at taken ⊢
      constructor
      · grind
      · rintro ((atKey | atName | atId | rfl) | old)
        · exact .inr (.inr (.inl atKey))
        · exact .inr (.inl atName)
        · exact .inl atId
        · exact taken
        · exact .inr (.inr (.inr old))
    · simp only [mem_keys_insert]
      grind

theorem get?_enterNames {table : OrderedMap String String} {value : String} {component : Component}
    (found : (enterNames table key component).get? name = some value) :
    value = key ∧ GoesBy key component name ∨ table.get? name = some value := by
  -- One insertion of a name by which the component goes.
  have once : ∀ {table : OrderedMap String String} {entered : String},
      GoesBy key component entered → (table.insert entered key).get? name = some value →
        value = key ∧ GoesBy key component name ∨ table.get? name = some value := by
    intro table entered goes inserted
    rw [get?_insert] at inserted
    split at inserted
    · rename_i equal
      exact .inl ⟨(Option.some.inj inserted).symm, equal ▸ goes⟩
    · exact .inr inserted
  have atKey : GoesBy key component key := .inl rfl
  have atName : GoesBy key component component.name := .inr (.inl rfl)
  have twice : ((table.insert key key).insert component.name key).get? name = some value →
      value = key ∧ GoesBy key component name ∨ table.get? name = some value :=
    fun inserted => (once atName inserted).elim Or.inl (once atKey)
  unfold enterNames at found
  split at found
  · exact twice found
  · exact twice found
  · rename_i id notEmpty identified
    have atId : GoesBy key component id :=
      .inr (.inr ⟨id, identified, notEmpty, .inl rfl⟩)
    have atSegment : GoesBy key component (lastSegment id) :=
      .inr (.inr ⟨id, identified, notEmpty, .inr rfl⟩)
    have thrice := fun inserted => (once atId inserted).elim Or.inl twice
    dsimp only at found
    split at found
    · exact thrice found
    · exact (once atSegment found).elim Or.inl thrice

theorem mem_keys_foldl_enterNames (entries : List (String × Component))
    (table : OrderedMap String String) (name : String) :
    name ∈ (entries.foldl (fun table entry => enterNames table entry.1 entry.2) table).keys ↔
      (∃ entry ∈ entries, GoesBy entry.1 entry.2 name) ∨ name ∈ table.keys := by
  induction entries generalizing table with
  | nil => simp
  | cons entry rest induction =>
    rw [List.foldl_cons, induction, mem_keys_enterNames]
    simp only [List.mem_cons, exists_eq_or_imp]
    rw [or_left_comm, or_assoc]

theorem get?_foldl_enterNames {entries : List (String × Component)}
    {table : OrderedMap String String} {value : String}
    (found : (entries.foldl (fun table entry => enterNames table entry.1 entry.2) table).get? name =
      some value) :
    (∃ entry ∈ entries, value = entry.1 ∧ GoesBy entry.1 entry.2 name) ∨
      table.get? name = some value := by
  induction entries generalizing table with
  | nil => exact .inr found
  | cons entry rest induction =>
    rcases induction found with ⟨later, member, holds⟩ | before
    · exact .inl ⟨later, List.mem_cons_of_mem entry member, holds⟩
    · exact (get?_enterNames before).imp_left fun holds => ⟨entry, List.mem_cons_self, holds⟩

theorem mem_keys_nameTable (functions : Components) (name : String) :
    name ∈ (nameTable functions).keys ↔ IsName functions name := by
  unfold nameTable
  rw [mem_keys_foldl_enterNames]
  exact or_iff_left List.not_mem_nil

theorem get?_nameTable (found : (nameTable functions).get? name = some key) :
    ∃ component, functions.get? key = some component ∧ GoesBy key component name := by
  rcases get?_foldl_enterNames found with ⟨⟨_, component⟩, member, rfl, goes⟩ | absent
  · exact ⟨component, (functions.get?_eq_some_iff _ _).mpr member, goes⟩
  · simp at absent

theorem get?_nameTable_eq_none_iff (functions : Components) (name : String) :
    (nameTable functions).get? name = none ↔ ¬ IsName functions name := by
  rw [get?_eq_none_iff, mem_keys_nameTable]

/-! ## The look-up of one callee -/

theorem denotes_of_lookupCallee (found : lookupCallee (nameTable functions) callee = some key) :
    Denotes functions callee key := by
  unfold lookupCallee at found
  split at found
  · rename_i direct
    rw [Option.some.inj found] at direct
    rcases get?_nameTable direct with ⟨component, present, goes⟩
    exact ⟨component, present, .inl goes⟩
  · rename_i missing
    split at found
    · rename_i dotted
      rcases get?_nameTable found with ⟨component, present, goes⟩
      have unnamed := (get?_nameTable_eq_none_iff functions callee).mp missing
      exact ⟨component, present, .inr ⟨unnamed, dotted, goes⟩⟩
    · cases found

theorem lookupCallee_eq_none_iff (functions : Components) (callee : String) :
    lookupCallee (nameTable functions) callee = none ↔ ¬ Known functions callee := by
  constructor
  · rintro missing ⟨key, component, present, goes⟩
    unfold lookupCallee at missing
    split at missing
    · cases missing
    · rename_i direct
      rw [get?_nameTable_eq_none_iff] at direct
      rcases goes with goes | ⟨_, dotted, goes⟩
      · exact direct (isName_of_get? present goes)
      · rw [if_pos dotted, get?_nameTable_eq_none_iff] at missing
        exact missing (isName_of_get? present goes)
  · intro unknown
    cases found : lookupCallee (nameTable functions) callee with
    | none => rfl
    | some key => exact absurd ⟨key, denotes_of_lookupCallee found⟩ unknown

/-- What the look-up makes of a relation: one with a known callee is resolved to a component for
that callee, any other stays as it is. -/
structure Resolution (functions : Components) (before after : Relation) : Prop where
  caller : after.caller = before.caller
  line : after.line = before.line
  known : Known functions before.callee →
    after.resolved = true ∧ Denotes functions before.callee after.callee
  unknown : ¬ Known functions before.callee →
    after.callee = before.callee ∧ after.resolved = before.resolved

theorem resolution_resolveRelation (functions : Components) (relation : Relation) :
    Resolution functions relation (resolveRelation (nameTable functions) relation) := by
  cases found : lookupCallee (nameTable functions) relation.callee with
  | some key =>
    have denotes := denotes_of_lookupCallee found
    simp only [resolveRelation, found]
    exact ⟨rfl, rfl, fun _ => ⟨rfl, denotes⟩, fun unknown => absurd ⟨key, denotes⟩ unknown⟩
  | none =>
    have unknown := (lookupCallee_eq_none_iff functions relation.callee).mp found
    simp only [resolveRelation, found]
    exact ⟨rfl, rfl, fun known => absurd known unknown, fun _ => ⟨rfl, rfl⟩⟩

theorem resolveRelation_of_unknown {relation : Relation}
    (unknown : ¬ Known functions relation.callee) :
    resolveRelation (nameTable functions) relation = relation := by
  simp only [resolveRelation, (lookupCallee_eq_none_iff functions relation.callee).mpr unknown]

theorem resolution_relations (graph : CallGraph) :
    List.Forall₂ (Resolution graph.functions) graph.relations graph.resolve.relations := by
  unfold resolve
  rw [List.forall₂_map_right_iff, List.forall₂_same]
  exact fun relation _ => resolution_resolveRelation graph.functions relation

theorem Resolution.resolved_of_mem_keys {before after : Relation}
    (resolution : Resolution functions before after) (member : after.callee ∈ functions.keys) :
    after.resolved = true := by
  by_cases known : Known functions before.callee
  · exact (resolution.known known).1
  · rw [(resolution.unknown known).1] at member
    exact absurd (known_of_mem_keys member) known

/-! ## Repeated calls -/

end CallGraph

def Relation.pair (relation : Relation) : String × String :=
  (relation.caller, relation.callee)

namespace CallGraph

variable {relation : Relation} {graph : CallGraph}

theorem firstOfPairs_cons (seen : List (String × String)) (relation : Relation)
    (rest : List Relation) :
    firstOfPairs seen (relation :: rest) =
      if relation.pair ∈ seen then firstOfPairs seen rest
      else relation :: firstOfPairs (relation.pair :: seen) rest :=
  rfl

theorem sublist_firstOfPairs (seen : List (String × String)) (relations : List Relation) :
    (firstOfPairs seen relations).Sublist relations := by
  induction relations generalizing seen with
  | nil => exact .refl []
  | cons relation rest induction =>
    rw [firstOfPairs_cons]
    split
    · exact (induction seen).cons relation
    · exact (induction _).cons_cons relation

theorem pair_not_mem_of_mem_firstOfPairs {seen : List (String × String)} {relations : List Relation}
    (member : relation ∈ firstOfPairs seen relations) : relation.pair ∉ seen := by
  induction relations generalizing seen with
  | nil => cases member
  | cons first rest induction =>
    rw [firstOfPairs_cons] at member
    split at member
    · exact induction member
    · rename_i fresh
      rcases List.mem_cons.mp member with rfl | later
      · exact fresh
      · exact fun old => induction later (List.mem_cons_of_mem _ old)

theorem nodup_firstOfPairs (seen : List (String × String)) (relations : List Relation) :
    ((firstOfPairs seen relations).map Relation.pair).Nodup := by
  induction relations generalizing seen with
  | nil => exact List.nodup_nil
  | cons relation rest induction =>
    rw [firstOfPairs_cons]
    split
    · exact induction seen
    · refine List.nodup_cons.mpr ⟨?_, induction _⟩
      intro repeated
      rcases List.mem_map.mp repeated with ⟨later, member, equal⟩
      exact pair_not_mem_of_mem_firstOfPairs member (equal ▸ List.mem_cons_self)

/-- The pairs that are kept, in order: those not seen before, each at its first place. -/
theorem map_pair_firstOfPairs (seen : List (String × String)) (relations : List Relation) :
    (firstOfPairs seen relations).map Relation.pair =
      ((relations.map Relation.pair).filter fun pair => pair ∉ seen).eraseDups := by
  induction relations generalizing seen with
  | nil => rfl
  | cons relation rest induction =>
    rw [firstOfPairs_cons]
    split
    · rename_i old
      have dropped : decide (relation.pair ∉ seen) = false := by simpa using old
      rw [induction, List.map_cons, List.filter_cons, dropped, if_neg Bool.false_ne_true]
    · rename_i fresh
      have kept : decide (relation.pair ∉ seen) = true := by simpa using fresh
      rw [List.map_cons, induction, List.map_cons, List.filter_cons, if_pos kept,
        List.eraseDups_cons, List.filter_filter]
      congr 3
      funext pair
      by_cases equal : pair = relation.pair <;> simp [equal]

theorem find?_of_mem_firstOfPairs {seen : List (String × String)} {relations : List Relation}
    (member : relation ∈ firstOfPairs seen relations) :
    relations.find? (fun other => other.pair = relation.pair) = some relation := by
  induction relations generalizing seen with
  | nil => cases member
  | cons first rest induction =>
    have fresh := pair_not_mem_of_mem_firstOfPairs member
    rw [firstOfPairs_cons] at member
    split at member
    · rename_i old
      have different : first.pair ≠ relation.pair := fun equal => fresh (equal ▸ old)
      rw [List.find?_cons_of_neg (by simpa using different)]
      exact induction member
    · rcases List.mem_cons.mp member with rfl | later
      · exact List.find?_cons_of_pos (by simp)
      · have different : first.pair ≠ relation.pair := fun equal =>
          pair_not_mem_of_mem_firstOfPairs later (equal ▸ List.mem_cons_self)
        rw [List.find?_cons_of_neg (by simpa using different)]
        exact induction later

theorem exists_mem_deduplicate (graph : CallGraph) (member : relation ∈ graph.relations) :
    ∃ kept ∈ graph.deduplicate.relations, kept.pair = relation.pair := by
  have pairs : relation.pair ∈ graph.deduplicate.relations.map Relation.pair := by
    rw [deduplicate, map_pair_firstOfPairs, List.mem_eraseDups, List.mem_filter]
    exact ⟨List.mem_map_of_mem member, by simp⟩
  exact List.mem_map.mp pairs

/-- The look-up turns no relation into one with an unknown callee and changes none that has one. -/
theorem find?_resolve_of_unknown {pair : String × String}
    (unknown : ¬ Known graph.functions pair.2) :
    graph.resolve.relations.find? (fun relation => relation.pair = pair) =
      graph.relations.find? (fun relation => relation.pair = pair) := by
  have callee : ∀ {relation : Relation}, relation.pair = pair → relation.callee = pair.2 :=
    fun equal => congrArg Prod.snd equal
  have same : ∀ relation,
      (resolveRelation (nameTable graph.functions) relation).pair = pair ↔ relation.pair = pair := by
    intro relation
    by_cases known : Known graph.functions relation.callee
    · have denotes := ((resolution_resolveRelation graph.functions relation).known known).2
      constructor
      · intro equal
        rw [callee equal] at denotes
        exact absurd (known_of_mem_keys denotes.mem_keys) unknown
      · exact fun equal => absurd (callee equal ▸ known) unknown
    · rw [resolveRelation_of_unknown known]
  unfold resolve
  rw [List.find?_map]
  simp only [Function.comp_def, same]
  cases found : graph.relations.find? (fun relation => relation.pair = pair) with
  | none => rfl
  | some relation =>
    have equal : relation.pair = pair := by simpa using List.find?_some found
    rw [Option.map_some, resolveRelation_of_unknown (callee equal ▸ unknown)]

theorem mem_deduplicate_iff :
    relation ∈ graph.deduplicate.relations ↔
      graph.relations.find? (fun other => other.pair = relation.pair) = some relation := by
  constructor
  · exact find?_of_mem_firstOfPairs
  · intro first
    rcases exists_mem_deduplicate graph (List.mem_of_find?_eq_some first) with
      ⟨kept, member, equal⟩
    have keptFirst := find?_of_mem_firstOfPairs member
    rw [equal, first] at keptFirst
    rw [Option.some.inj keptFirst]
    exact member

/-! ## Both steps -/

theorem exists_resolution {after : Relation}
    (member : after ∈ graph.resolve.deduplicate.relations) :
    ∃ before ∈ graph.relations, Resolution graph.functions before after := by
  have resolved : after ∈ graph.resolve.relations := (sublist_firstOfPairs [] _).subset member
  rcases List.mem_map.mp resolved with ⟨before, present, rfl⟩
  exact ⟨before, present, resolution_resolveRelation graph.functions before⟩

theorem exists_resolved_of_known {before : Relation} (member : before ∈ graph.relations)
    (known : Known graph.functions before.callee) :
    ∃ after ∈ graph.resolve.deduplicate.relations, after.caller = before.caller ∧
      after.resolved = true ∧ Denotes graph.functions before.callee after.callee := by
  have looked := resolution_resolveRelation graph.functions before
  have denotes := (looked.known known).2
  rcases exists_mem_deduplicate graph.resolve (List.mem_map_of_mem member) with
    ⟨after, present, equal⟩
  -- The relation that is kept may stem from another one, which is resolved by its callee.
  have sameCaller := congrArg Prod.fst equal
  have sameCallee : after.callee = (resolveRelation _ before).callee := congrArg Prod.snd equal
  rcases exists_resolution present with ⟨source, _, resolution⟩
  rw [← sameCallee] at denotes
  exact ⟨after, present, sameCaller.trans looked.caller,
    resolution.resolved_of_mem_keys denotes.mem_keys, denotes⟩

/-- After the look-up and the removal of repetitions, whatever the components and relations are:
every relation with a known callee is resolved to a component for that callee and every other one
keeps its callee and mark; no pair of caller and callee occurs twice; the pairs are those after the
look-up in the order in which they first occur, each with the first relation that has it; and a
relation with a known callee is still represented by a resolved one. -/
theorem resolve_deduplicate_relations (graph : CallGraph) :
    let resolved := graph.resolve.relations
    let kept := graph.resolve.deduplicate.relations
    List.Forall₂ (Resolution graph.functions) graph.relations resolved ∧
      (kept.map Relation.pair).Nodup ∧
      kept.map Relation.pair = (resolved.map Relation.pair).eraseDups ∧
      (∀ relation ∈ kept,
        resolved.find? (fun other => other.pair = relation.pair) = some relation) ∧
      ∀ before ∈ graph.relations, Known graph.functions before.callee →
        ∃ after ∈ kept, after.caller = before.caller ∧ after.resolved = true ∧
          Denotes graph.functions before.callee after.callee := by
  intro resolved kept
  refine ⟨resolution_relations graph, nodup_firstOfPairs [] resolved, ?_,
    fun relation member => find?_of_mem_firstOfPairs member, ?_⟩
  · rw [show kept = firstOfPairs [] resolved from rfl, map_pair_firstOfPairs]
    simp
  · exact fun before member known => exists_resolved_of_known member known

/-- A component with an empty component identifier, and a call of the empty name. -/
def emptyIdentifier : CallGraph :=
  let component : Component :=
    { id := "k"
      name := "n"
      kind := "function"
      filePath := "k.py"
      relativePath := "k.py"
      componentId := some "" }
  ⟨.ofList [("k", component)], [⟨"k", "", none, false⟩]⟩

/-- An empty component identifier is no name: a call of it is not resolved. -/
theorem emptyIdentifier_not_resolved :
    ¬ ∀ before ∈ emptyIdentifier.relations,
      (∃ entry ∈ emptyIdentifier.functions.entries, entry.2.componentId = some before.callee) →
        ∃ after ∈ emptyIdentifier.resolve.deduplicate.relations,
          after.caller = before.caller ∧ after.resolved = true ∧
            after.callee ∈ emptyIdentifier.functions.keys := by
  decide

/-! ## Calls of exact keys -/

/-- A component takes a name for itself, whatever the name stood for before: its own name and, if it
is not empty, its component identifier. -/
def Takes (component : Component) (name : String) : Prop :=
  component.name = name ∨ name ≠ "" ∧ component.componentId = some name

instance (component : Component) (name : String) : Decidable (Takes component name) :=
  inferInstanceAs (Decidable (_ ∨ _))

/-- The components that are entered after the one of a key. -/
def enteredAfter (functions : Components) (key : String) : List (String × Component) :=
  (functions.entries.dropWhile fun entry => entry.1 ≠ key).tail

/-- A component that is entered later takes the key for itself. -/
def TakenOver (functions : Components) (key : String) : Prop :=
  ∃ later ∈ enteredAfter functions key, Takes later.2 key

/-- A name that is known before the segment of the identifier is entered keeps clear of it. -/
theorem get?_enterNames_of_known {table : OrderedMap String String} {name : String}
    (key : String) (component : Component) (known : name = key ∨ name ∈ table.keys) :
    (enterNames table key component).get? name =
      if name = key ∨ Takes component name then some key else table.get? name := by
  unfold enterNames Takes
  split
  · rename_i missing
    simp only [OrderedMap.get?_insert, missing]
    grind
  · rename_i blank
    simp only [OrderedMap.get?_insert, blank]
    grind
  · rename_i id filled identified
    have taken : (((table.insert key key).insert component.name key).insert id key).get? name =
        if name = key ∨ component.name = name ∨ name ≠ "" ∧ component.componentId = some name
        then some key else table.get? name := by
      simp only [OrderedMap.get?_insert, identified]
      grind
    dsimp only
    split
    · exact taken
    · rename_i fresh
      rw [OrderedMap.contains_iff] at fresh
      refine (OrderedMap.get?_insert_of_ne _ ?_ key).trans taken
      rintro rfl
      apply fresh
      simp only [OrderedMap.mem_keys_insert]
      exact .inr (.inr known)

/-- Once a key stands for itself, it does so until another component takes it. -/
theorem get?_foldl_enterNames_iff (entries : List (String × Component))
    {table : OrderedMap String String} {key value : String} (others : key ∉ entries.map Prod.fst)
    (found : table.get? key = some value) :
    (entries.foldl (fun table entry => enterNames table entry.1 entry.2) table).get? key =
        some key ↔
      value = key ∧ ¬ ∃ later ∈ entries, Takes later.2 key := by
  induction entries generalizing table value with
  | nil => simp [found]
  | cons entry rest induction =>
    rw [List.map_cons, List.mem_cons, not_or] at others
    rw [List.foldl_cons]
    have entered := get?_enterNames_of_known entry.1 entry.2
      (.inr (OrderedMap.mem_keys_of_get? found))
    simp only [others.1, false_or, found] at entered
    by_cases takes : Takes entry.2 key
    · rw [if_pos takes] at entered
      rw [induction others.2 entered]
      exact iff_of_false (fun both => others.1 both.1.symm)
        fun both => both.2 ⟨entry, List.mem_cons_self, takes⟩
    · rw [if_neg takes] at entered
      rw [induction others.2 entered]
      simp [takes]

theorem get?_nameTable_key_iff {functions : Components} {key : String}
    (member : key ∈ functions.keys) :
    (nameTable functions).get? key = some key ↔ ¬ TakenOver functions key := by
  have parts := functions.entries.takeWhile_append_dropWhile (p := fun entry => entry.1 ≠ key)
  have first := functions.entries.head?_dropWhile_not (p := fun entry => entry.1 ≠ key)
  unfold TakenOver enteredAfter
  cases rest : functions.entries.dropWhile fun entry => entry.1 ≠ key with
  | nil =>
    rcases List.mem_map.mp member with ⟨entry, inEntries, rfl⟩
    exact absurd (List.dropWhile_eq_nil_iff.mp rest entry inEntries) (by simp)
  | cons owner after =>
    rw [rest] at parts first
    have own : owner.1 = key := by simpa using first
    have distinct := functions.distinct
    rw [← parts, List.map_append, List.map_cons] at distinct
    have others : key ∉ after.map Prod.fst :=
      own ▸ (List.nodup_cons.mp (List.nodup_append.mp distinct).2.1).1
    rw [nameTable, ← parts, List.foldl_append, List.foldl_cons, own, get?_foldl_enterNames_iff
      after others ((get?_enterNames_of_known key owner.2 (.inl rfl)).trans
        (if_pos (.inl rfl)))]
    exact and_iff_right rfl

/-- A relation to the exact key of a component is resolved to a component, which is the one of that
key unless a component entered later has the key as its name or component identifier. -/
theorem exact_callee_kept_iff (graph : CallGraph) :
    List.Forall₂
      (fun before after => before.callee ∈ graph.functions.keys →
        after.resolved = true ∧ after.callee ∈ graph.functions.keys ∧
          (after.callee = before.callee ↔ ¬ TakenOver graph.functions before.callee))
      graph.relations graph.resolve.relations := by
  unfold resolve
  rw [List.forall₂_map_right_iff, List.forall₂_same]
  intro relation _ member
  rcases (graph.functions.mem_keys_iff relation.callee).mp member with ⟨_, own⟩
  have named := (mem_keys_nameTable graph.functions relation.callee).mpr
    (isName_of_get? own (Or.inl rfl))
  rcases (OrderedMap.mem_keys_iff _ _).mp named with ⟨key, found⟩
  have known := get?_nameTable_key_iff member
  rw [found, Option.some.injEq] at known
  rcases get?_nameTable found with ⟨_, present, _⟩
  simp only [resolveRelation, lookupCallee, found]
  exact ⟨trivial, OrderedMap.mem_keys_of_get? present, known⟩

/-- A function of the file `A.py`, a method of a class `A` in the file `B.java`, and a call of the
function by another one of its file. -/
def twoLanguages : CallGraph :=
  let function : Component :=
    { id := "A.pay"
      name := "pay"
      kind := "function"
      filePath := "A.py"
      relativePath := "A.py"
      componentId := some "A.pay" }
  let method : Component :=
    { id := "B.A.pay"
      name := "A.pay"
      kind := "method"
      filePath := "B.java"
      relativePath := "B.java"
      componentId := some "B.A.pay" }
  ⟨.ofList [("A.pay", function), ("B.A.pay", method)], [⟨"A.run", "A.pay", some 5, true⟩]⟩

/-- The call of the function is redirected to the method. -/
theorem twoLanguages_redirected :
    ¬ List.Forall₂
      (fun before after => before.callee ∈ twoLanguages.functions.keys →
        after.callee = before.callee)
      twoLanguages.relations twoLanguages.resolve.relations := by
  decide

end CallGraph

end CodeAtlas
