import CodeAtlas.Proofs.Graph.Exploration

/-!
The end of the exploration of a node. When all successors have been followed, the link of the node
tells whether it closes a component: then what lies on the stack from the node on is a whole class
of linked nodes and leaves the stack.
-/

namespace CodeAtlas.Graph.Search

open List

variable {graph : Graph} {path : List String} {node : String} {before search : Search}
  {seen : List String}
  (start : Consistent graph path before)
  (exploring : Exploring graph path node before seen search)
  (allSeen : ∀ successor, graph.Edge node successor → successor ∈ seen)

include exploring allSeen

theorem Exploring.explored_all {other : String} (known : other ∈ search.discovered)
    (outside : other ∉ path) {successor : String} (edge : graph.Edge other successor) :
    successor ∈ search.discovered := by
  by_cases equal : other = node
  · subst equal
    exact exploring.seen_discovered successor (allSeen successor edge)
  · refine exploring.consistent.explored other known (fun member => ?_) successor edge
    exact (mem_cons.mp member).elim equal outside

theorem Exploring.lowest_le_crossing {source target : String} (member : source ∈ search.stack)
    (outside : source ∉ before.stack) (below : target ∈ before.stack)
    (edge : graph.Edge source target) : search.lowest node ≤ search.rank target := by
  rcases exploring.eq_or_rank_gt member outside with rfl | above
  · exact exploring.lowest_le_seen target (allSeen target edge) below
  · exact exploring.lowest_le source member above target below edge

include start

theorem Exploring.keep (lower : search.lowest node ≠ search.rank node) :
    Explored graph path node before search := by
  have less : search.lowest node < search.rank node :=
    Nat.lt_of_le_of_ne exploring.lowest_le_rank lower
  rcases exploring.lowest_reached with ⟨target, inStack, rankTarget, walk⟩
  have consistent := exploring.consistent
  constructor
  case consistent =>
    refine ⟨consistent.rank_lt, consistent.stack_discovered, consistent.stack_sorted, ?_,
      fun other known outside successor => exploring.explored_all allSeen known outside,
      consistent.settled, consistent.ascends, ?_⟩
    · intro active inPath
      exact exploring.before_subset (start.path_stacked active inPath)
    · intro other member
      rcases consistent.returns other member with ⟨active, inPath, order, back⟩
      rcases mem_cons.mp inPath with rfl | older
      · -- From the node the way back goes on through the target of its link.
        rcases consistent.returns target inStack with ⟨caller, inCallers, callerOrder, further⟩
        rcases mem_cons.mp inCallers with rfl | older
        · omega
        · exact ⟨caller, older, by omega, back.trans (walk.trans further)⟩
      · exact ⟨active, older, order, back⟩
  case reported => exact exploring.reported
  case later => exact exploring.later
  case node_discovered => exact exploring.node_discovered
  case rank_node => exact exploring.rank_node
  case stacked => exact (suffix_cons node before.stack).trans exploring.stacked
  case lowest_le =>
    intro source member outside other below edge
    exact exploring.lowest_le_crossing allSeen member outside below edge
  case lowest_reached =>
    right
    refine ⟨target, ?_, rankTarget, walk⟩
    by_contra outside
    rcases exploring.eq_or_rank_gt inStack outside with rfl | above
    · omega
    · omega

variable (root : search.lowest node = search.rank node)

include root

/-- When the node closes a component, no edge leads from what was discovered since, or from an
older complete component, to the stack as it was before. -/
theorem Exploring.step_outside {source target : String} (known : source ∈ search.discovered)
    (outside : source ∉ before.stack) (edge : graph.Edge source target) :
    target ∈ search.discovered ∧ target ∉ before.stack := by
  have inactive : source ∉ path := fun inPath => outside (start.path_stacked source inPath)
  refine ⟨exploring.explored_all allSeen known inactive edge, fun below => ?_⟩
  by_cases stacked : source ∈ search.stack
  · have bound := exploring.lowest_le_crossing allSeen stacked outside below edge
    have less := exploring.rank_lt_node below
    omega
  · exact exploring.consistent.settled source known stacked target edge
      (exploring.before_subset below)

theorem Exploring.reaches_outside {first last : String} (walk : graph.Reaches first last)
    (known : first ∈ search.discovered) (outside : first ∉ before.stack) :
    last ∈ search.discovered ∧ last ∉ before.stack :=
  walk.stays (fun other => other ∈ search.discovered ∧ other ∉ before.stack)
    (fun _ _ inside edge => exploring.step_outside start allSeen root inside.1 inside.2 edge)
    ⟨known, outside⟩

theorem Exploring.linked_root {other : String} (member : other ∈ search.stack)
    (outside : other ∉ before.stack) : graph.Linked other node := by
  have consistent := exploring.consistent
  have nodeStacked : node ∈ search.stack := consistent.path_stacked node mem_cons_self
  constructor
  · rcases consistent.returns other member with ⟨active, inPath, _, walk⟩
    rcases mem_cons.mp inPath with rfl | older
    · exact walk
    · have away := exploring.reaches_outside start allSeen root walk
        (consistent.stack_discovered other member) outside
      exact absurd (start.path_stacked active older) away.2
  · apply consistent.ascends node nodeStacked other member
    rcases exploring.eq_or_rank_gt member outside with rfl | above
    · exact Nat.le_refl _
    · exact Nat.le_of_lt above

/-- The part of the stack from the node on is a whole class of linked nodes. -/
theorem Exploring.linked_iff {member : String} (inStack : member ∈ search.stack)
    (outside : member ∉ before.stack) (other : String) :
    other ∈ search.stack ∧ other ∉ before.stack ↔ graph.Linked member other := by
  have consistent := exploring.consistent
  constructor
  · rintro ⟨otherStacked, otherOutside⟩
    exact (exploring.linked_root start allSeen root inStack outside).trans
      (exploring.linked_root start allSeen root otherStacked otherOutside).symm
  · intro linked
    have away := exploring.reaches_outside start allSeen root linked.1
      (consistent.stack_discovered member inStack) outside
    refine ⟨?_, away.2⟩
    by_contra gone
    -- A complete component reaches only complete components.
    have stays := linked.2.stays
      (fun other => other ∈ search.discovered ∧ other ∉ search.stack)
      (fun source target inside edge =>
        ⟨(exploring.step_outside start allSeen root inside.1
            (fun below => inside.2 (exploring.before_subset below)) edge).1,
          consistent.settled source inside.1 inside.2 target edge⟩)
      ⟨away.1, gone⟩
    exact stays.2 inStack

theorem Exploring.consistent_close (components : List (List String)) :
    Consistent graph path { search with stack := before.stack, components := components } := by
  have consistent := exploring.consistent
  constructor
  case rank_lt => exact consistent.rank_lt
  case stack_discovered =>
    intro other member
    exact consistent.stack_discovered other (exploring.before_subset member)
  case stack_sorted =>
    exact consistent.stack_sorted.sublist
      ((suffix_cons node before.stack).trans exploring.stacked).sublist
  case path_stacked => exact start.path_stacked
  case explored =>
    intro other known outside successor edge
    exact exploring.explored_all allSeen known outside edge
  case settled =>
    intro other known outside successor edge
    exact (exploring.step_outside start allSeen root known outside edge).2
  case ascends =>
    intro lower lowerMem upper upperMem
    exact consistent.ascends lower (exploring.before_subset lowerMem) upper
      (exploring.before_subset upperMem)
  case returns =>
    intro other member
    rcases consistent.returns other (exploring.before_subset member) with
      ⟨active, inPath, order, walk⟩
    rcases mem_cons.mp inPath with rfl | older
    · exact absurd (exploring.rank_lt_node member) (Nat.not_lt.mpr order)
    · exact ⟨active, older, order, walk⟩

theorem Exploring.reported_close {component : List String} (distinct : component.Nodup)
    (members : ∀ other, other ∈ component ↔ other ∈ search.stack ∧ other ∉ before.stack) :
    Reported graph
      { search with
        stack := before.stack
        components :=
          if component.length > 1 then search.components ++ [component]
          else search.components } := by
  have reported := exploring.reported
  have whole : ∀ member ∈ component, ∀ other, other ∈ component ↔ graph.Linked member other := by
    intro member inComponent other
    have stacked := (members member).mp inComponent
    exact (members other).trans
      (exploring.linked_iff start allSeen root stacked.1 stacked.2 other)
  have leftOld : ∀ old ∈ search.components, ∀ member ∈ old,
      member ∈ search.discovered ∧ member ∉ before.stack := by
    intro old inOld member inComponent
    have settled := reported.left old inOld member inComponent
    exact ⟨settled.1, fun below => settled.2 (exploring.before_subset below)⟩
  split
  · rename_i several
    constructor
    case whole =>
      exact forall_mem_append.mpr ⟨reported.whole, forall_mem_singleton.mpr whole⟩
    case several =>
      exact forall_mem_append.mpr ⟨reported.several, forall_mem_singleton.mpr several⟩
    case left =>
      refine forall_mem_append.mpr ⟨leftOld, forall_mem_singleton.mpr ?_⟩
      intro member inComponent
      have stacked := (members member).mp inComponent
      exact ⟨exploring.consistent.stack_discovered member stacked.1, stacked.2⟩
    case distinct =>
      rw [flatten_append, flatten_singleton]
      refine nodup_append.mpr ⟨reported.distinct, distinct, ?_⟩
      intro member inOld other inNew equal
      rcases mem_flatten.mp inOld with ⟨old, inComponents, inComponent⟩
      exact (reported.left old inComponents member inComponent).2
        (equal ▸ ((members other).mp inNew).1)
    case complete =>
      intro other known outside partner different linked
      by_cases stacked : other ∈ search.stack
      · exact ⟨component, mem_concat_self,
          (members other).mpr ⟨stacked, outside⟩⟩
      · rcases reported.complete other known stacked partner different linked with
          ⟨old, inOld, member⟩
        exact ⟨old, mem_append_left _ inOld, member⟩
  · rename_i single
    refine ⟨reported.whole, reported.several, leftOld, reported.distinct, ?_⟩
    intro other known outside partner different linked
    by_cases stacked : other ∈ search.stack
    · -- A partner of the node would make the component one of two nodes.
      have inComponent := (members other).mpr ⟨stacked, outside⟩
      have partnerMember := (whole other inComponent partner).mpr linked
      have two : [other, partner].length ≤ component.length :=
        ((nodup_cons.mpr ⟨by simpa using different.symm, by simp⟩ :
          [other, partner].Nodup).subperm (by simp [inComponent, partnerMember])).length_le
      exact absurd two single
    · exact reported.complete other known stacked partner different linked

theorem Exploring.close : Explored graph path node before (search.close node) := by
  rcases exploring.stacked with ⟨above, split⟩
  have consistent := exploring.consistent
  have sorted := consistent.stack_sorted
  have nodup : search.stack.Nodup := sorted.imp fun less equal => by
    rw [equal] at less
    exact Nat.lt_irrefl _ less
  rw [← split] at nodup
  rcases nodup_append.mp nodup with ⟨_, lowerNodup, apart⟩
  have absent : node ∉ above := fun member => apart node member node mem_cons_self rfl
  have members : ∀ other,
      other ∈ above ++ [node] ↔ other ∈ search.stack ∧ other ∉ before.stack := by
    intro other
    rw [← split]
    constructor
    · intro member
      rcases mem_append.mp member with higher | last
      · exact ⟨mem_append_left _ higher,
          fun below => apart other higher other (mem_cons_of_mem node below) rfl⟩
      · rw [mem_singleton.mp last]
        exact ⟨mem_append_right _ mem_cons_self, (nodup_cons.mp lowerNodup).1⟩
    · rintro ⟨member, outside⟩
      rcases mem_append.mp member with higher | rest
      · exact mem_append_left _ higher
      · rcases mem_cons.mp rest with equal | below
        · exact mem_append_right _ (mem_singleton.mpr equal)
        · exact absurd below outside
  have componentNodup : (above ++ [node]).Nodup :=
    nodup.sublist (.append_left (by simp) above)
  rw [search.close_of_stack split.symm absent]
  constructor
  case consistent => exact exploring.consistent_close start allSeen root _
  case reported => exact exploring.reported_close start allSeen root componentNodup members
  case later => exact ⟨exploring.later.discovered, exploring.later.rank, exploring.later.lowest⟩
  case node_discovered => exact exploring.node_discovered
  case rank_node => exact exploring.rank_node
  case stacked => exact suffix_rfl
  case lowest_le => exact fun _ member outside => absurd member outside
  case lowest_reached => exact .inl root

end CodeAtlas.Graph.Search
