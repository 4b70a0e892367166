import CodeAtlas.Proofs.Graph.Search

/-!
Following the successors of a node. While they are followed, the link of the node bounds every edge
from what has been discovered since back to the stack as it was before; each successor, whether
known or explored in turn, keeps that bound.
-/

namespace CodeAtlas.Graph.Search

open List

/-! ## Following the successors of a node -/

/-- The state while the successors of a node are followed, of which some have been seen. -/
structure Exploring (graph : Graph) (path : List String) (node : String) (before : Search)
    (seen : List String) (search : Search) : Prop where
  consistent : Consistent graph (node :: path) search
  reported : Reported graph search
  later : Extends before search
  rank_node : search.rank node = before.number.size
  stacked : (node :: before.stack) <:+ search.stack
  seen_discovered : ∀ successor ∈ seen, successor ∈ search.discovered
  lowest_le_rank : search.lowest node ≤ search.rank node
  lowest_reached : ∃ target ∈ search.stack,
    search.rank target = search.lowest node ∧ graph.Reaches node target
  /-- The link bounds the edges from the part of the stack above the node to the part below. -/
  lowest_le : ∀ source ∈ search.stack, search.rank node < search.rank source →
    ∀ target ∈ before.stack, graph.Edge source target → search.lowest node ≤ search.rank target
  lowest_le_seen : ∀ target ∈ seen, target ∈ before.stack →
    search.lowest node ≤ search.rank target

/-- What the exploration of a node has achieved when it ends. -/
structure Explored (graph : Graph) (path : List String) (node : String)
    (before after : Search) : Prop where
  consistent : Consistent graph path after
  reported : Reported graph after
  later : Extends before after
  node_discovered : node ∈ after.discovered
  rank_node : after.rank node = before.number.size
  stacked : before.stack <:+ after.stack
  /-- The link bounds the edges from what the exploration left on the stack to what lay there. -/
  lowest_le : ∀ source ∈ after.stack, source ∉ before.stack →
    ∀ target ∈ before.stack, graph.Edge source target → after.lowest node ≤ after.rank target
  lowest_reached : after.lowest node = after.rank node ∨
    ∃ target ∈ before.stack, after.rank target = after.lowest node ∧ graph.Reaches node target

variable {graph : Graph} {path : List String} {node : String} {before : Search}

section Position

variable {seen : List String} {search : Search} {other : String}
  (exploring : Exploring graph path node before seen search)

include exploring

theorem Exploring.node_discovered : node ∈ search.discovered :=
  exploring.consistent.stack_discovered node
    (exploring.consistent.path_stacked node mem_cons_self)

theorem Exploring.before_subset (member : other ∈ before.stack) : other ∈ search.stack :=
  exploring.stacked.subset (mem_cons_of_mem node member)

theorem Exploring.rank_lt_node (member : other ∈ before.stack) :
    search.rank other < search.rank node :=
  (rank_of_sorted exploring.consistent.stack_sorted exploring.stacked).1 other member

theorem Exploring.eq_or_rank_gt (member : other ∈ search.stack) (outside : other ∉ before.stack) :
    other = node ∨ search.rank node < search.rank other :=
  ((rank_of_sorted exploring.consistent.stack_sorted exploring.stacked).2 other member).resolve_left
    outside

end Position

theorem exploring_discover (start : Consistent graph path before)
    (reported : Reported graph before) (fresh : node ∉ before.discovered)
    (called : ∀ active ∈ path, graph.Reaches active node) :
    Exploring graph path node before [] (before.discover node) := by
  have top : (before.discover node).rank node = before.number.size := before.rank_discover_self node
  have later := before.extends_discover fresh
  constructor
  case consistent => exact start.discover fresh called
  case reported => exact reported.discover fresh
  case later => exact later
  case rank_node => exact top
  case stacked => exact suffix_rfl
  case seen_discovered => exact forall_mem_nil _
  case lowest_le_rank => rw [lowest_discover_self, top]
  case lowest_reached =>
    refine ⟨node, mem_cons_self, ?_, .refl node⟩
    rw [lowest_discover_self, top]
  case lowest_le =>
    -- Nothing lies above the node yet.
    intro source member above
    rcases mem_cons.mp member with rfl | old
    · exact absurd above (Nat.lt_irrefl _)
    · have known := start.stack_discovered source old
      rw [top, later.rank source known] at above
      exact absurd (start.rank_lt source known) (Nat.lt_asymm above)
  case lowest_le_seen => exact forall_mem_nil _

section Follow

variable {seen : List String} {search : Search} {successor : String}
  (exploring : Exploring graph path node before seen search)

include exploring

/-- Once the successor is discovered and the link of the node lowered to a number that bounds it,
the successor counts as seen. -/
theorem Exploring.see (known : successor ∈ search.discovered)
    (bounded : successor ∈ before.stack → search.lowest node ≤ search.rank successor) :
    Exploring graph path node before (seen ++ [successor]) search where
  consistent := exploring.consistent
  reported := exploring.reported
  later := exploring.later
  rank_node := exploring.rank_node
  stacked := exploring.stacked
  seen_discovered :=
    forall_mem_append.mpr ⟨exploring.seen_discovered, forall_mem_singleton.mpr known⟩
  lowest_le_rank := exploring.lowest_le_rank
  lowest_reached := exploring.lowest_reached
  lowest_le := exploring.lowest_le
  lowest_le_seen :=
    forall_mem_append.mpr ⟨exploring.lowest_le_seen, forall_mem_singleton.mpr bounded⟩

theorem Exploring.lower (fresh : node ∉ before.discovered) {target : String}
    (inStack : target ∈ search.stack) (walk : graph.Reaches node target) :
    Exploring graph path node before seen (search.lower node (search.rank target)) := by
  have smaller : (search.lower node (search.rank target)).lowest node ≤ search.lowest node := by
    rw [lowest_lower_self]
    exact Nat.min_le_left _ _
  constructor
  case consistent => exact exploring.consistent.lower node _
  case reported => exact exploring.reported.lower node _
  case later => exact exploring.later.lower fresh _
  case rank_node => exact exploring.rank_node
  case stacked => exact exploring.stacked
  case seen_discovered => exact exploring.seen_discovered
  case lowest_le_rank => exact smaller.trans exploring.lowest_le_rank
  case lowest_reached =>
    rw [lowest_lower_self]
    rcases Nat.le_total (search.lowest node) (search.rank target) with less | less
    · rw [Nat.min_eq_left less]
      exact exploring.lowest_reached
    · rw [Nat.min_eq_right less]
      exact ⟨target, inStack, rfl, walk⟩
  case lowest_le =>
    intro source member above other below edge
    exact smaller.trans (exploring.lowest_le source member above other below edge)
  case lowest_le_seen =>
    intro other member below
    exact smaller.trans (exploring.lowest_le_seen other member below)

theorem Exploring.exists_reached {after : Search} (edge : graph.Edge node successor)
    (explored : Explored graph (node :: path) successor search after) :
    ∃ target ∈ after.stack,
      after.rank target = min (search.lowest node) (after.lowest successor) ∧
        graph.Reaches node target := by
  rcases exploring.lowest_reached with ⟨target, inStack, rankTarget, walk⟩
  have rankKept : after.rank target = search.lowest node :=
    (explored.later.rank target
      (exploring.consistent.stack_discovered target inStack)).trans rankTarget
  rcases Nat.le_total (search.lowest node) (after.lowest successor) with less | less
  · rw [Nat.min_eq_left less]
    exact ⟨target, explored.stacked.subset inStack, rankKept, walk⟩
  · rw [Nat.min_eq_right less]
    rcases explored.lowest_reached with closed | ⟨deeper, inSearch, rankDeeper, further⟩
    · -- A successor that closed its own component has a link above the rank of the node.
      rw [closed, explored.rank_node] at less
      have under := exploring.consistent.rank_lt node exploring.node_discovered
      exact absurd (less.trans exploring.lowest_le_rank) (Nat.not_le.mpr under)
    · exact ⟨deeper, explored.stacked.subset inSearch, rankDeeper, edge.reaches.trans further⟩

theorem Exploring.descend {after : Search} (fresh : node ∉ before.discovered)
    (unseen : successor ∉ search.discovered) (edge : graph.Edge node successor)
    (explored : Explored graph (node :: path) successor search after) :
    Exploring graph path node before (seen ++ [successor])
      (after.lower node (after.lowest successor)) := by
  have rankKept : ∀ other ∈ search.stack, after.rank other = search.rank other :=
    fun other member =>
      explored.later.rank other (exploring.consistent.stack_discovered other member)
  have rankNode : after.rank node = search.rank node :=
    explored.later.rank node exploring.node_discovered
  have lowestNode : (after.lower node (after.lowest successor)).lowest node =
      min (search.lowest node) (after.lowest successor) := by
    rw [lowest_lower_self, explored.later.lowest node exploring.node_discovered]
  constructor
  case consistent => exact explored.consistent.lower node _
  case reported => exact explored.reported.lower node _
  case later => exact (exploring.later.trans explored.later).lower fresh _
  case rank_node => exact rankNode.trans exploring.rank_node
  case stacked => exact exploring.stacked.trans explored.stacked
  case seen_discovered =>
    refine forall_mem_append.mpr ⟨fun other old => ?_, ?_⟩
    · exact explored.later.discovered other (exploring.seen_discovered other old)
    · exact forall_mem_singleton.mpr explored.node_discovered
  case lowest_le_rank =>
    change _ ≤ after.rank node
    rw [lowestNode, rankNode]
    exact (Nat.min_le_left _ _).trans exploring.lowest_le_rank
  case lowest_reached =>
    rw [lowestNode]
    exact exploring.exists_reached edge explored
  case lowest_le =>
    intro source member above target below crossing
    change _ ≤ after.rank target
    rw [lowestNode]
    by_cases old : source ∈ search.stack
    · rw [rankKept target (exploring.before_subset below)]
      change after.rank node < after.rank source at above
      rw [rankNode, rankKept source old] at above
      exact (Nat.min_le_left _ _).trans
        (exploring.lowest_le source old above target below crossing)
    · exact (Nat.min_le_right _ _).trans
        (explored.lowest_le source member old target (exploring.before_subset below) crossing)
  case lowest_le_seen =>
    intro target member below
    change _ ≤ after.rank target
    rw [lowestNode]
    rcases mem_append.mp member with old | new
    · rw [rankKept target (exploring.before_subset below)]
      exact (Nat.min_le_left _ _).trans (exploring.lowest_le_seen target old below)
    · rw [mem_singleton.mp new] at below
      exact absurd
        (exploring.consistent.stack_discovered successor (exploring.before_subset below)) unseen

end Follow

/-! ## Successor after successor -/

/-- What one successor of a node does to the search, given how nodes are explored. -/
def follow (explore : String → Search → Search) (node : String) (search : Search)
    (successor : String) : Search :=
  if search.isDiscovered successor then
    if successor ∈ search.stack then search.lower node (search.rank successor) else search
  else
    let after := explore successor search
    after.lower node (after.lowest successor)

section Follow

variable {explore : String → Search → Search} {seen : List String} {search : Search}
  (fresh : node ∉ before.discovered)

include fresh

theorem Exploring.followed {successor : String}
    (exploring : Exploring graph path node before seen search)
    (edge : graph.Edge node successor)
    (deeper : successor ∉ search.discovered →
      Explored graph (node :: path) successor search (explore successor search)) :
    Exploring graph path node before (seen ++ [successor])
      (follow explore node search successor) := by
  unfold follow
  split
  · rename_i known
    rw [isDiscovered_iff] at known
    split
    · rename_i inStack
      apply (exploring.lower fresh inStack edge.reaches).see known
      intro _
      rw [lowest_lower_self]
      exact Nat.min_le_right _ _
    · rename_i outside
      apply exploring.see known
      intro below
      exact absurd (exploring.before_subset below) outside
  · rename_i unknown
    rw [isDiscovered_iff] at unknown
    exact exploring.descend fresh unknown edge (deeper unknown)

theorem Exploring.all_followed (rest : List String)
    (exploring : Exploring graph path node before seen search)
    (edges : ∀ successor ∈ rest, graph.Edge node successor)
    (deeper : ∀ search seen successor, Exploring graph path node before seen search →
      graph.Edge node successor → successor ∉ search.discovered →
        Explored graph (node :: path) successor search (explore successor search)) :
    Exploring graph path node before (seen ++ rest) (rest.foldl (follow explore node) search) := by
  induction rest generalizing seen search with
  | nil => simpa using exploring
  | cons successor rest induction =>
    have edge := edges successor mem_cons_self
    have next := exploring.followed fresh edge (deeper search seen successor exploring edge)
    have done := induction next fun other member =>
      edges other (mem_cons_of_mem successor member)
    rwa [append_assoc] at done

end Follow

end CodeAtlas.Graph.Search
