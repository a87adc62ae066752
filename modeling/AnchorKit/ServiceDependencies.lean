import AnchorKit.Library.BreadthFirst
import AnchorKit.Library.Machine
import AnchorKit.Types

/-!
# Service dependencies

Each anchor has a graph that says which service needs which other service. An edge is added after
a search for a path back, which looks at a bounded number of services.
-/

namespace AnchorKit

open Fallible BreadthFirst

structure ServiceDependency where
  serviceCode : UInt32
  dependencyCode : UInt32
deriving DecidableEq, Repr

structure ServiceDependencyGraph where
  anchor : Address
  edges : List ServiceDependency
deriving DecidableEq, Repr

abbrev DependencyStore := KeyedStore Address ServiceDependencyGraph

namespace DependencyManager

def maxNodes : ℕ := 256

/-- The used parts of the two arrays, and the flag of the sweep under way. -/
structure Search where
  visited : List UInt32
  frontier : List UInt32
  changed : Bool

/-- Follow one edge from a node; there is no result once the target is met. -/
def followEdge (node target : UInt32) (search : Search) (e : ServiceDependency) : Option Search :=
  if e.serviceCode = node then
    let next := e.dependencyCode
    if next = target then none
    else
      let seen := search.visited.contains next || search.frontier.contains next
      if !seen && search.frontier.length < maxNodes then
        some { search with frontier := search.frontier ++ [next], changed := true }
      else some search
  else some search

def markVisited (search : Search) (node : UInt32) : Search :=
  let already := search.visited.contains node
  if !already && search.visited.length < maxNodes then
    { search with visited := search.visited ++ [node] }
  else search

/-- The cells of the frontier beyond its used part hold zeros. -/
def expandNode (graph : ServiceDependencyGraph) (target : UInt32) (search : Search) (fi : ℕ) :
    Option Search := do
  let node := (search.frontier[fi]?).getD 0
  let search ← graph.edges.foldlM (followEdge node target) search
  return markVisited search node

/-- Expand the nodes that were in the frontier at the start of the sweep. -/
def sweep (graph : ServiceDependencyGraph) (target : UInt32) (search : Search) : Option Search :=
  (List.range search.frontier.length).foldlM (expandNode graph target)
    { search with changed := false }

/-- The frontier only grows, and not beyond its capacity. -/
def Search.Extends (search search' : Search) : Prop :=
  search.frontier.length ≤ search'.frontier.length ∧
    search'.frontier.length ≤ max search.frontier.length maxNodes

theorem Search.Extends.refl (search : Search) : search.Extends search := ⟨le_rfl, le_max_left _ _⟩

theorem Search.Extends.trans {search search' search'' : Search} (h : search.Extends search')
    (h' : search'.Extends search'') : search.Extends search'' := by
  unfold Search.Extends at *
  omega

theorem extends_foldlM {α : Type} {f : Search → α → Option Search}
    (hf : ∀ search a search', f search a = some search' → search.Extends search') (l : List α)
    {search search' : Search} (h : l.foldlM f search = some search') : search.Extends search' := by
  induction l generalizing search with
  | nil =>
    obtain rfl := Option.some.inj h
    exact .refl search
  | cons a l ih =>
    rw [List.foldlM_cons] at h
    obtain ⟨middle, hmiddle, hrest⟩ := Option.bind_eq_some_iff.mp h
    exact (hf search a middle hmiddle).trans (ih hrest)

theorem followEdge_extends {node target : UInt32} {search search' : Search} {e : ServiceDependency}
    (h : followEdge node target search e = some search') : search.Extends search' := by
  unfold followEdge at h
  dsimp only at h
  split at h
  · split at h
    · cases h
    · split at h
      · rename_i hroom
        obtain rfl := Option.some.inj h
        simp only [Bool.and_eq_true, decide_eq_true_eq] at hroom
        simp only [Search.Extends, List.length_append, List.length_singleton]
        omega
      · obtain rfl := Option.some.inj h
        exact .refl search
  · obtain rfl := Option.some.inj h
    exact .refl search

@[simp] theorem markVisited_frontier (search : Search) (node : UInt32) :
    (markVisited search node).frontier = search.frontier := by
  unfold markVisited
  dsimp only
  split <;> rfl

theorem expandNode_extends {graph : ServiceDependencyGraph} {target : UInt32}
    {search search' : Search} {fi : ℕ} (h : expandNode graph target search fi = some search') :
    search.Extends search' := by
  obtain ⟨followed, hfollowed, hmarked⟩ := Option.bind_eq_some_iff.mp h
  have hext := extends_foldlM (fun _ _ _ => followEdge_extends) _ hfollowed
  obtain rfl := Option.some.inj hmarked
  simpa only [Search.Extends, markVisited_frontier] using hext

theorem sweep_extends {graph : ServiceDependencyGraph} {target : UInt32}
    {search search' : Search} (h : sweep graph target search = some search') :
    search.Extends search' := by
  unfold sweep at h
  have hext := extends_foldlM (fun _ _ _ => expandNode_extends) _ h
  exact hext

theorem sweep_progress {graph : ServiceDependencyGraph} {target : UInt32}
    {search search' : Search} (h : sweep graph target search = some search')
    (hgo : ¬ (!search'.changed || search'.frontier.length = search.frontier.length) = true) :
    maxNodes - search'.frontier.length < maxNodes - search.frontier.length := by
  have hext := sweep_extends h
  unfold Search.Extends at hext
  simp only [Bool.or_eq_true, decide_eq_true_eq, not_or] at hgo
  omega

/-- Sweep until nothing changes. -/
def searchFrom (graph : ServiceDependencyGraph) (target : UInt32) (search : Search) : Bool :=
  match _hsweep : sweep graph target search with
  | none => true
  | some search' =>
    if !search'.changed || search'.frontier.length = search.frontier.length then false
    else searchFrom graph target search'
termination_by maxNodes - search.frontier.length
decreasing_by exact sweep_progress ‹_› ‹_›

def isReachable (graph : ServiceDependencyGraph) (start target : UInt32) : Bool :=
  if start = target then true
  else searchFrom graph target { visited := [], frontier := [start], changed := false }

def getGraph (store : DependencyStore) (anchor : Address) : ServiceDependencyGraph :=
  (store.get anchor).getD { anchor, edges := [] }

def addDependency (store : DependencyStore) (anchor : Address)
    (serviceCode dependencyCode : UInt32) : Except AnchorKitError DependencyStore := do
  let graph := getGraph store anchor
  require (isReachable graph dependencyCode serviceCode = false) .dependencyCycleDetected
  if graph.edges.any fun e => e.serviceCode = serviceCode && e.dependencyCode = dependencyCode then
    return store
  let graph := { graph with edges := graph.edges ++ [{ serviceCode, dependencyCode }] }
  return store.set anchor graph

def removeDependency (store : DependencyStore) (anchor : Address)
    (serviceCode dependencyCode : UInt32) : Except AnchorKitError DependencyStore := do
  let graph := getGraph store anchor
  let edges := graph.edges.filter fun e =>
    !(e.serviceCode = serviceCode && e.dependencyCode = dependencyCode)
  return store.set anchor { graph with edges }

end DependencyManager

namespace ServiceDependencyGraph

/-- What a service requires, in the order of the edges. -/
def successors (graph : ServiceDependencyGraph) (node : UInt32) : List UInt32 :=
  (graph.edges.filter (·.serviceCode = node)).map ServiceDependency.dependencyCode

theorem mem_successors {graph : ServiceDependencyGraph} {a b : UInt32} :
    b ∈ graph.successors a ↔ ⟨a, b⟩ ∈ graph.edges := by
  simp only [successors, List.mem_map, List.mem_filter, decide_eq_true_eq]
  constructor
  · rintro ⟨⟨_, _⟩, ⟨hmem, rfl⟩, rfl⟩
    exact hmem
  · intro hmem
    exact ⟨_, ⟨hmem, rfl⟩, rfl⟩

end ServiceDependencyGraph

namespace DependencyManager

/-! ### The search -/

section Search

variable {graph : ServiceDependencyGraph} {start target : UInt32}

/-- What following edges to the given nodes makes of a search. -/
structure Follows (nodes : List UInt32) (search search' : Search) : Prop where
  visited_eq : search'.visited = search.visited
  frontier_eq : search'.frontier = discoverWithin maxNodes search.frontier nodes
  unchanged : search'.changed = false →
    search.changed = false ∧ search'.frontier = search.frontier

theorem followEdge_of_source {search : Search} {next : UInt32} (node : UInt32)
    (hnext : next ≠ target) (hvisited : search.visited ⊆ search.frontier) :
    ∃ search', followEdge node target search ⟨node, next⟩ = some search' ∧
      Follows [next] search search' := by
  have hseen : (search.visited.contains next || search.frontier.contains next) = true ↔
      next ∈ search.frontier := by
    simp only [Bool.or_eq_true, List.contains_iff_mem]
    exact ⟨fun h => h.elim (@hvisited next) id, Or.inr⟩
  simp only [followEdge, if_neg hnext, if_true]
  by_cases hstop : next ∈ search.frontier ∨ maxNodes ≤ search.frontier.length
  · have hfull : ¬ ((!(search.visited.contains next || search.frontier.contains next) &&
        decide (search.frontier.length < maxNodes)) = true) := by
      rw [Bool.and_eq_true, decide_eq_true_eq, Bool.not_eq_true', ← Bool.not_eq_true, hseen]
      rintro ⟨hnew, hlt⟩
      exact hstop.elim hnew (Nat.not_le.mpr hlt)
    rw [if_neg hfull]
    exact ⟨search, rfl, rfl, (if_pos hstop).symm, fun h => ⟨h, rfl⟩⟩
  · have hroom : (!(search.visited.contains next || search.frontier.contains next) &&
        decide (search.frontier.length < maxNodes)) = true := by
      rw [Bool.and_eq_true, decide_eq_true_eq, Bool.not_eq_true', ← Bool.not_eq_true, hseen,
        ← Nat.not_le]
      exact not_or.mp hstop
    rw [if_pos hroom]
    exact ⟨_, rfl, rfl, (if_neg hstop).symm, nofun⟩

theorem Follows.trans {nodes more : List UInt32} {search search' search'' : Search}
    (h : Follows nodes search search') (h' : Follows more search' search'') :
    Follows (nodes ++ more) search search'' where
  visited_eq := h'.visited_eq.trans h.visited_eq
  frontier_eq := by
    rw [h'.frontier_eq, h.frontier_eq, discoverWithin, discoverWithin, discoverWithin,
      List.foldl_append]
  unchanged := by
    intro hflag
    obtain ⟨hflag', hfrontier'⟩ := h'.unchanged hflag
    obtain ⟨hflag, hfrontier⟩ := h.unchanged hflag'
    exact ⟨hflag, hfrontier'.trans hfrontier⟩

theorem Follows.visited_subset {nodes : List UInt32} {search search' : Search}
    (h : Follows nodes search search') (hvisited : search.visited ⊆ search.frontier) :
    search'.visited ⊆ search'.frontier := by
  rw [h.visited_eq, h.frontier_eq]
  exact List.Subset.trans hvisited (prefix_discoverWithin _ _).subset

theorem followEdges (node : UInt32) (edges : List ServiceDependency) {search : Search}
    (hvisited : search.visited ⊆ search.frontier) :
    (edges.foldlM (followEdge node target) search = none ∧ ⟨node, target⟩ ∈ edges) ∨
      ∃ search', edges.foldlM (followEdge node target) search = some search' ∧
        ⟨node, target⟩ ∉ edges ∧
        Follows ((edges.filter (·.serviceCode = node)).map ServiceDependency.dependencyCode)
          search search' := by
  induction edges generalizing search with
  | nil => exact Or.inr ⟨search, rfl, by simp, rfl, rfl, fun h => ⟨h, rfl⟩⟩
  | cons e edges ih =>
    obtain ⟨service, next⟩ := e
    rw [List.foldlM_cons]
    by_cases hsource : service = node
    · subst hsource
      by_cases hnext : next = target
      · subst hnext
        exact Or.inl ⟨by simp [followEdge], List.mem_cons_self⟩
      · obtain ⟨middle, hmiddle, hfollows⟩ := followEdge_of_source service hnext hvisited
        rw [hmiddle, Option.bind_eq_bind, Option.bind_some]
        have hmem : (⟨service, target⟩ : ServiceDependency) ∈ ⟨service, next⟩ :: edges ↔
            ⟨service, target⟩ ∈ edges := by
          simp [Ne.symm hnext]
        rw [hmem]
        rcases ih (hfollows.visited_subset hvisited) with hmet | ⟨search', hrest, hnot, hfollows'⟩
        · exact Or.inl hmet
        · refine Or.inr ⟨search', hrest, hnot, ?_⟩
          simpa using hfollows.trans hfollows'
    · have hskip : followEdge node target search ⟨service, next⟩ = some search := if_neg hsource
      rw [hskip, Option.bind_eq_bind, Option.bind_some]
      have hmem : (⟨node, target⟩ : ServiceDependency) ∈ ⟨service, next⟩ :: edges ↔
          ⟨node, target⟩ ∈ edges := by
        simp [Ne.symm hsource]
      simpa only [hmem, List.filter_cons, hsource, decide_false, Bool.false_eq_true, if_false]
        using ih hvisited

/-- The first `k` nodes of the frontier were expanded without meeting the target. -/
structure Explored (graph : ServiceDependencyGraph) (start target : UInt32) (k : ℕ)
    (search : Search) : Prop where
  visited_subset : search.visited ⊆ search.frontier
  frontier_eq : search.frontier = (order graph.successors start k).take maxNodes
  expanded_le : k ≤ search.frontier.length
  missed : ∀ a ∈ search.frontier.take k, target ∉ graph.successors a

/-- A service that the search is able to expand requires the target. -/
def Findable (graph : ServiceDependencyGraph) (start target : UInt32) : Prop :=
  ∃ a, AmongFirst graph.successors start maxNodes a ∧ target ∈ graph.successors a

theorem expandNode_explored {k fi : ℕ} {search : Search}
    (h : Explored graph start target k search) (hk : fi ≤ k) (hfi : fi < search.frontier.length) :
    (expandNode graph target search fi = none ∧ Findable graph start target) ∨
      ∃ search', expandNode graph target search fi = some search' ∧
        Explored graph start target (max k (fi + 1)) search' ∧
        (search'.changed = false → search.changed = false ∧ search'.frontier = search.frontier) := by
  obtain ⟨node, hnode⟩ : ∃ node, search.frontier[fi]? = some node :=
    ⟨_, List.getElem?_eq_getElem hfi⟩
  have hmem : node ∈ search.frontier := List.mem_of_getElem? hnode
  simp only [expandNode, hnode, Option.getD_some]
  rcases followEdges node graph.edges h.visited_subset with
    ⟨hnone, hmet⟩ | ⟨followed, hsome, hnot, hfollows⟩
  · rw [hnone]
    refine Or.inl ⟨rfl, node, ⟨k, ?_⟩, ServiceDependencyGraph.mem_successors.mpr hmet⟩
    rwa [← h.frontier_eq]
  · rw [hsome]
    refine Or.inr ⟨markVisited followed node, rfl, ?_, ?_⟩
    · have hprefix : search.frontier <+: followed.frontier := by
        rw [hfollows.frontier_eq]
        exact prefix_discoverWithin _ _
      refine ⟨?_, ?_, ?_, ?_⟩
      · intro a ha
        rw [markVisited_frontier]
        unfold markVisited at ha
        dsimp only at ha
        split at ha
        · rcases List.mem_append.mp ha with hold | hnew
          · exact hfollows.visited_subset h.visited_subset hold
          · obtain rfl := List.mem_singleton.mp hnew
            exact hprefix.subset hmem
        · exact hfollows.visited_subset h.visited_subset ha
      · rw [markVisited_frontier, hfollows.frontier_eq, h.frontier_eq]
        exact discoverWithin_order hk (by rwa [← h.frontier_eq])
      · rw [markVisited_frontier]
        have := hprefix.length_le
        have := h.expanded_le
        omega
      · intro a ha
        rw [markVisited_frontier, List.mem_take_iff_getElem] at ha
        obtain ⟨i, hi, rfl⟩ := ha
        have hlt : i < search.frontier.length := by
          have := h.expanded_le
          omega
        rw [← hprefix.getElem hlt]
        rcases Nat.lt_or_ge i k with hik | hki
        · exact h.missed _ (List.mem_take_iff_getElem.mpr ⟨i, by omega, rfl⟩)
        · obtain rfl : i = fi := by omega
          have hsame := (List.getElem?_eq_some_iff.mp hnode).2
          rw [hsame, ServiceDependencyGraph.mem_successors]
          exact hnot
    · intro hflag
      rw [markVisited_frontier]
      apply hfollows.unchanged
      unfold markVisited at hflag
      dsimp only at hflag
      split at hflag <;> exact hflag

theorem expandNodes_explored {k : ℕ} {search : Search} (h : Explored graph start target k search)
    (n : ℕ) (hn : n ≤ search.frontier.length) :
    ((List.range n).foldlM (expandNode graph target) search = none ∧ Findable graph start target) ∨
      ∃ search', (List.range n).foldlM (expandNode graph target) search = some search' ∧
        Explored graph start target (max k n) search' ∧
        search.frontier.length ≤ search'.frontier.length ∧
        (search'.changed = false → search.changed = false ∧ search'.frontier = search.frontier) := by
  induction n with
  | zero => exact Or.inr ⟨search, rfl, by rwa [Nat.max_zero], le_rfl, fun hflag => ⟨hflag, rfl⟩⟩
  | succ n ih =>
    rw [List.range_succ, List.foldlM_append]
    rcases ih (by omega) with ⟨hnone, hfound⟩ | ⟨middle, hmiddle, hexplored, hlength, hflags⟩
    · rw [hnone]
      exact Or.inl ⟨rfl, hfound⟩
    · have hstep := expandNode_explored hexplored (Nat.le_max_right k n) (Nat.lt_of_lt_of_le hn hlength)
      rw [hmiddle, Option.bind_eq_bind, Option.bind_some]
      simp only [List.foldlM_cons, List.foldlM_nil, Option.bind_eq_bind, Option.pure_def,
        Option.bind_fun_some]
      rcases hstep with hmet | ⟨search', hsome, hexplored', hflags'⟩
      · exact Or.inl hmet
      · refine Or.inr ⟨search', hsome, ?_, ?_, ?_⟩
        · have hmax : max (max k n) (n + 1) = max k (n + 1) := by omega
          rwa [hmax] at hexplored'
        · exact hlength.trans (expandNode_extends hsome).1
        · intro hflag
          obtain ⟨hflag', hfrontier'⟩ := hflags' hflag
          obtain ⟨hflag, hfrontier⟩ := hflags hflag'
          exact ⟨hflag, hfrontier'.trans hfrontier⟩

theorem sweep_explored {k : ℕ} {search : Search} (h : Explored graph start target k search) :
    (sweep graph target search = none ∧ Findable graph start target) ∨
      ∃ search', sweep graph target search = some search' ∧
        Explored graph start target search.frontier.length search' ∧
        (search'.changed = false → search'.frontier = search.frontier) := by
  have hreset : Explored graph start target k { search with changed := false } :=
    ⟨h.visited_subset, h.frontier_eq, h.expanded_le, h.missed⟩
  rcases expandNodes_explored hreset search.frontier.length le_rfl with
    hmet | ⟨search', hsome, hexplored, _, hflags⟩
  · exact Or.inl hmet
  · refine Or.inr ⟨search', hsome, ?_, fun hflag => (hflags hflag).2⟩
    rwa [Nat.max_eq_right h.expanded_le] at hexplored

/-- When a sweep adds nothing, all that is kept was expanded. -/
theorem not_findable_of_explored {search : Search}
    (h : Explored graph start target search.frontier.length search) :
    ¬ Findable graph start target := by
  rintro ⟨a, hfirst, htarget⟩
  have hlength := congrArg List.length h.frontier_eq
  rw [amongFirst_iff_of_expanded hlength.ge, ← h.frontier_eq] at hfirst
  exact h.missed a (by rwa [List.take_length]) htarget

theorem searchFrom_iff {k : ℕ} {search : Search} (h : Explored graph start target k search) :
    searchFrom graph target search = true ↔ Findable graph start target := by
  induction hsize : maxNodes - search.frontier.length using Nat.strong_induction_on
    generalizing k search with
  | _ size ih =>
    rw [searchFrom]
    rcases sweep_explored h with ⟨hnone, hfound⟩ | ⟨search', hsome, hexplored, hflags⟩
    · split
      · exact iff_of_true rfl hfound
      · rename_i search'' heq
        rw [hnone] at heq
        cases heq
    · split
      · rename_i heq
        rw [hsome] at heq
        cases heq
      · rename_i search'' heq
        obtain rfl := Option.some.inj (hsome.symm.trans heq)
        split
        · rename_i hstop
          have hlength : search'.frontier.length = search.frontier.length := by
            simp only [Bool.or_eq_true, Bool.not_eq_true', decide_eq_true_eq] at hstop
            rcases hstop with hflag | hlength
            · rw [hflags hflag]
            · exact hlength
          rw [← hlength] at hexplored
          exact iff_of_false Bool.false_ne_true (not_findable_of_explored hexplored)
        · rename_i hgo
          exact ih _ (hsize ▸ sweep_progress hsome hgo) hexplored rfl

/-- The search sees a path exactly when the last edge of one leaves one of the first nodes in
breadth-first order. -/
theorem isReachable_iff : isReachable graph start target = true ↔
    start = target ∨ Findable graph start target := by
  unfold isReachable
  by_cases hsame : start = target
  · simp [hsame]
  · have hexplored : Explored graph start target 0
        { visited := [], frontier := [start], changed := false } :=
      ⟨by simp, rfl, Nat.zero_le _, by simp⟩
    rw [if_neg hsame, searchFrom_iff hexplored, or_iff_right hsame]

end Search

end DependencyManager

/-! ### Sequences of calls -/

open DependencyManager

inductive DependencyCall
  | add (anchor : Address) (serviceCode dependencyCode : UInt32)
  | remove (anchor : Address) (serviceCode dependencyCode : UInt32)
deriving DecidableEq, Repr

def dependencyStep (store : DependencyStore) : DependencyCall → Except AnchorKitError DependencyStore
  | .add anchor serviceCode dependencyCode => addDependency store anchor serviceCode dependencyCode
  | .remove anchor serviceCode dependencyCode =>
    removeDependency store anchor serviceCode dependencyCode

def dependenciesAfter (calls : List DependencyCall) : DependencyStore :=
  Machine.run dependencyStep .empty calls

namespace ServiceDependencyGraph

abbrev Reaches (graph : ServiceDependencyGraph) : UInt32 → UInt32 → Prop :=
  Relation.ReflTransGen fun a b => (⟨a, b⟩ : ServiceDependency) ∈ graph.edges

/-- No service requires itself, directly or through others, and no edge is stored twice. -/
structure WellFormed (graph : ServiceDependencyGraph) : Prop where
  acyclic : ∀ a, ¬ Relation.TransGen (fun a b => (⟨a, b⟩ : ServiceDependency) ∈ graph.edges) a a
  nodup : graph.edges.Nodup

end ServiceDependencyGraph

/-- The graph of one anchor gets other edges and all other graphs stay. -/
structure ChangesEdges (store store' : DependencyStore) (anchor : Address)
    (edges : List ServiceDependency) : Prop where
  edges_eq : (getGraph store' anchor).edges = edges
  others : ∀ other, other ≠ anchor → getGraph store' other = getGraph store other

/-- An edge that would close a cycle is refused, any other one is added, and removals remove. -/
def AppliesCall (store : DependencyStore) : DependencyCall → Prop
  | .add anchor a b =>
    ((getGraph store anchor).Reaches b a ↔
      addDependency store anchor a b = .error .dependencyCycleDetected) ∧
    (¬ (getGraph store anchor).Reaches b a → ∃ store' edges,
      addDependency store anchor a b = .ok store' ∧ ChangesEdges store store' anchor edges ∧
      ∀ e, e ∈ edges ↔ e ∈ (getGraph store anchor).edges ∨ e = ⟨a, b⟩)
  | .remove anchor a b => ∃ store' edges,
      removeDependency store anchor a b = .ok store' ∧ ChangesEdges store store' anchor edges ∧
      ∀ e, e ∈ edges ↔ e ∈ (getGraph store anchor).edges ∧ e ≠ ⟨a, b⟩

/-- A cycle that the call would close runs through one of the first services that a breadth-first
walk from the required service discovers. -/
def CycleInSight (store : DependencyStore) : DependencyCall → Prop
  | .add anchor a b => (getGraph store anchor).Reaches b a →
      b = a ∨ Findable (getGraph store anchor) b a
  | .remove _ _ _ => True

section Calls

variable {store store' : DependencyStore} {anchor : Address} {a b : UInt32}

theorem reaches_successors {graph : ServiceDependencyGraph} :
    BreadthFirst.Reaches graph.successors b a ↔ graph.Reaches b a := by
  simp only [BreadthFirst.Reaches, ServiceDependencyGraph.mem_successors]

/-- The search finds nothing that is not there. -/
theorem isReachable_sound {graph : ServiceDependencyGraph} (h : isReachable graph b a = true) :
    graph.Reaches b a := by
  rcases isReachable_iff.mp h with rfl | ⟨c, hfirst, hstep⟩
  · exact .refl
  · have hreaches := reaches_successors.mp hfirst.reaches
    exact hreaches.tail (ServiceDependencyGraph.mem_successors.mp hstep)

theorem cycleInSight_of_few (services : List UInt32) (hlength : services.length ≤ maxNodes)
    (hservices : ∀ c, (getGraph store anchor).Reaches b c → c ∈ services) :
    CycleInSight store (.add anchor a b) := by
  intro hreaches
  rcases Relation.ReflTransGen.cases_tail hreaches with rfl | ⟨c, hbefore, hlast⟩
  · exact Or.inl rfl
  · have hfirst := (amongFirst_iff_reaches services hlength
      fun d hd => hservices d (reaches_successors.mp hd)).mpr (reaches_successors.mpr hbefore)
    exact Or.inr ⟨c, hfirst, ServiceDependencyGraph.mem_successors.mpr hlast⟩

theorem changesEdges_set (store : DependencyStore) (anchor : Address)
    (graph : ServiceDependencyGraph) :
    ChangesEdges store (store.set anchor graph) anchor graph.edges := by
  constructor
  · rw [getGraph, KeyedStore.get_set_self, Option.getD_some]
  · intro other hother
    rw [getGraph, KeyedStore.get_set_of_ne _ _ hother, getGraph]

theorem addDependency_error (h : isReachable (getGraph store anchor) b a = true) :
    addDependency store anchor a b = .error .dependencyCycleDetected := by
  simp only [addDependency, require, h, Bool.true_eq_false, if_false]
  rfl

theorem addDependency_ok (h : isReachable (getGraph store anchor) b a = false) :
    ∃ store', addDependency store anchor a b = .ok store' ∧
      ChangesEdges store store' anchor
        (Roster.pushIfAbsent (getGraph store anchor).edges ⟨a, b⟩) := by
  have hstored : ((getGraph store anchor).edges.any fun e =>
      e.serviceCode = a && e.dependencyCode = b) = true ↔ ⟨a, b⟩ ∈ (getGraph store anchor).edges := by
    simp only [List.any_eq_true, Bool.and_eq_true, decide_eq_true_eq]
    constructor
    · rintro ⟨e, hmem, rfl, rfl⟩
      exact hmem
    · intro hmem
      exact ⟨_, hmem, rfl, rfl⟩
  simp only [addDependency, require, h, if_true]
  by_cases hmem : (⟨a, b⟩ : ServiceDependency) ∈ (getGraph store anchor).edges
  · refine ⟨store, ?_, ?_, fun _ _ => rfl⟩
    · simp only [hstored.mpr hmem, if_true]
      rfl
    · rw [Roster.pushIfAbsent, if_pos hmem]
  · rw [Roster.pushIfAbsent, if_neg hmem]
    refine ⟨_, ?_, changesEdges_set store anchor ⟨(getGraph store anchor).anchor, _⟩⟩
    simp only [mt hstored.mp hmem, Bool.false_eq_true, if_false]
    rfl

theorem removeDependency_ok (store : DependencyStore) (anchor : Address) (a b : UInt32) :
    ∃ store', removeDependency store anchor a b = .ok store' ∧
      ChangesEdges store store' anchor
        ((getGraph store anchor).edges.filter fun e => e ≠ ⟨a, b⟩) := by
  refine ⟨_, rfl, ?_⟩
  have hsame : ((getGraph store anchor).edges.filter fun e => e ≠ ⟨a, b⟩) =
      (getGraph store anchor).edges.filter fun e =>
        !(decide (e.serviceCode = a) && decide (e.dependencyCode = b)) := by
    apply List.filter_congr
    rintro ⟨c, d⟩ _
    simp
  rw [hsame]
  exact changesEdges_set store anchor _

theorem appliesCall_iff (call : DependencyCall) :
    AppliesCall store call ↔ CycleInSight store call := by
  cases call with
  | remove anchor a b =>
    obtain ⟨store', hok, hchanges⟩ := removeDependency_ok store anchor a b
    exact iff_of_true ⟨store', _, hok, hchanges, by simp⟩ trivial
  | add anchor a b =>
    have hseen : (b = a ∨ Findable (getGraph store anchor) b a) ↔
        isReachable (getGraph store anchor) b a = true := isReachable_iff.symm
    simp only [AppliesCall, CycleInSight, hseen]
    cases hfound : isReachable (getGraph store anchor) b a with
    | true =>
      have hreaches := isReachable_sound hfound
      exact iff_of_true
        ⟨iff_of_true hreaches (addDependency_error hfound), fun hnot => absurd hreaches hnot⟩
        fun _ => rfl
    | false =>
      obtain ⟨store', hok, hchanges⟩ := addDependency_ok hfound
      constructor
      · rintro ⟨hfails, _⟩ hreaches
        rw [hfails, hok] at hreaches
        cases hreaches
      · intro hnot
        refine ⟨iff_of_false (fun h => Bool.false_ne_true (hnot h)) (by simp [hok]),
          fun _ => ⟨store', _, hok, hchanges, fun e => ?_⟩⟩
        rw [Roster.mem_pushIfAbsent, or_comm]

theorem graphs_wellFormed_of_step {call : DependencyCall}
    (hpre : ∀ anchor, (getGraph store anchor).WellFormed) (hsight : CycleInSight store call)
    (hstep : dependencyStep store call = .ok store') (anchor : Address) :
    (getGraph store' anchor).WellFormed := by
  have hchanged {changed : Address} {edges : List ServiceDependency}
      (hchanges : ChangesEdges store store' changed edges)
      (hedges : ({ getGraph store changed with edges } : ServiceDependencyGraph).WellFormed) :
      (getGraph store' anchor).WellFormed := by
    by_cases hanchor : anchor = changed
    · subst hanchor
      refine ⟨?_, ?_⟩
      · rw [hchanges.edges_eq]
        exact hedges.acyclic
      · rw [hchanges.edges_eq]
        exact hedges.nodup
    · rw [hchanges.others anchor hanchor]
      exact hpre anchor
  cases call with
  | add changed a b =>
    have hnot : isReachable (getGraph store changed) b a = false := by
      cases hfound : isReachable (getGraph store changed) b a with
      | false => rfl
      | true =>
        rw [dependencyStep, addDependency_error hfound] at hstep
        cases hstep
    obtain ⟨_, hok, hchanges⟩ := addDependency_ok hnot
    obtain rfl := Except.ok.inj (hstep.symm.trans hok)
    refine hchanged hchanges ⟨?_, Roster.nodup_pushIfAbsent (hpre changed).nodup⟩
    have hunreached : ¬ (getGraph store changed).Reaches b a := by
      intro hreaches
      rw [isReachable_iff.mpr (hsight hreaches)] at hnot
      cases hnot
    simpa [Roster.mem_pushIfAbsent, or_comm] using acyclic_or_edge (hpre changed).acyclic hunreached
  | remove changed a b =>
    obtain ⟨_, hok, hchanges⟩ := removeDependency_ok store changed a b
    obtain rfl := Except.ok.inj (hstep.symm.trans hok)
    refine hchanged hchanges ⟨?_, (hpre changed).nodup.filter _⟩
    intro c hcycle
    apply (hpre changed).acyclic c
    exact Relation.TransGen.mono (fun _ _ hedge => (List.mem_filter.mp hedge).1) _ _ hcycle

theorem graphs_wellFormed_empty (anchor : Address) : (getGraph .empty anchor).WellFormed := by
  refine ⟨fun a hcycle => ?_, List.nodup_nil⟩
  obtain ⟨_, hedge, _⟩ := Relation.TransGen.head'_iff.mp hcycle
  cases hedge

theorem graphs_wellFormed_run {calls : List DependencyCall}
    (h : Machine.AtEachStep (fun before call => CycleInSight (dependenciesAfter before) call) calls) :
    ∀ anchor, (getGraph (dependenciesAfter calls) anchor).WellFormed := by
  induction calls using List.reverseRecOn with
  | nil => exact graphs_wellFormed_empty
  | append_singleton calls call ih =>
    have hpre := ih h.of_append
    have hrun : dependenciesAfter (calls ++ [call]) =
        Machine.commit dependencyStep (dependenciesAfter calls) call :=
      Machine.run_snoc dependencyStep .empty calls call
    rw [hrun]
    cases hstep : dependencyStep (dependenciesAfter calls) call with
    | error e => rwa [Machine.commit_error _ hstep]
    | ok store' =>
      rw [Machine.commit_ok _ hstep]
      exact graphs_wellFormed_of_step hpre (h calls call [] rfl) hstep

end Calls

/-- The graphs are well formed all the time, and each call does what it says. -/
structure DependenciesSound (calls : List DependencyCall) : Prop where
  wellFormed : ∀ before, before <+: calls → ∀ anchor,
    (getGraph (dependenciesAfter before) anchor).WellFormed
  applies : Machine.AtEachStep (fun before call => AppliesCall (dependenciesAfter before) call) calls

/-- A sequence of calls is sound exactly when every cycle that an addition would close comes in
sight of its search. -/
theorem dependencies_sound_iff (calls : List DependencyCall) :
    DependenciesSound calls ↔
      Machine.AtEachStep (fun before call => CycleInSight (dependenciesAfter before) call) calls := by
  constructor
  · intro h before call after hsplit
    exact (appliesCall_iff call).mp (h.applies before call after hsplit)
  · intro h
    refine ⟨fun before hbefore => graphs_wellFormed_run ?_, fun before call after hsplit =>
      (appliesCall_iff call).mpr (h before call after hsplit)⟩
    obtain ⟨rest, rfl⟩ := hbefore
    exact h.of_append

/-! ### A cycle out of sight -/

section Additions

variable {anchor : Address}

def addAll (anchor : Address) (edges : List ServiceDependency) : List DependencyCall :=
  edges.map fun e => .add anchor e.serviceCode e.dependencyCode

/-- What requires nothing finds nothing. -/
theorem not_findable_of_leaf {graph : ServiceDependencyGraph} {start target : UInt32}
    (h : graph.successors start = []) : ¬ Findable graph start target := by
  have hstays (k : ℕ) : order graph.successors start k = [start] := by
    induction k with
    | zero => rfl
    | succ k ih =>
      rw [order, ih]
      split
      · rename_i a ha
        obtain rfl := List.mem_singleton.mp (List.mem_of_getElem? ha)
        rw [h]
        rfl
      · rfl
  rintro ⟨a, ⟨k, hk⟩, htarget⟩
  rw [hstays] at hk
  obtain rfl := List.mem_singleton.mp (List.mem_of_mem_take hk)
  rw [h] at htarget
  cases htarget

/-- Edges that all lead to services that require nothing yet are all added. -/
theorem edges_of_additions {edges : List ServiceDependency}
    (hself : ∀ e ∈ edges, e.dependencyCode ≠ e.serviceCode)
    (hleaf : edges.Pairwise fun f e => f ≠ e ∧ f.serviceCode ≠ e.dependencyCode) :
    (getGraph (dependenciesAfter (addAll anchor edges)) anchor).edges = edges := by
  induction edges using List.reverseRecOn with
  | nil => rfl
  | append_singleton edges e ih =>
    obtain ⟨hpast, _, hlast⟩ := List.pairwise_append.mp hleaf
    have hpre := ih (fun f hf => hself f (List.mem_append_left _ hf)) hpast
    have hrun : dependenciesAfter (addAll anchor (edges ++ [e])) =
        Machine.commit dependencyStep (dependenciesAfter (addAll anchor edges))
          (.add anchor e.serviceCode e.dependencyCode) := by
      rw [addAll, List.map_append]
      exact Machine.run_snoc dependencyStep .empty _ _
    have hnone : isReachable (getGraph (dependenciesAfter (addAll anchor edges)) anchor)
        e.dependencyCode e.serviceCode = false := by
      rw [← Bool.not_eq_true, isReachable_iff, not_or]
      refine ⟨hself e (by simp), not_findable_of_leaf (List.eq_nil_iff_forall_not_mem.mpr ?_)⟩
      intro next hnext
      rw [ServiceDependencyGraph.mem_successors, hpre] at hnext
      exact (hlast _ hnext e (by simp)).2 rfl
    obtain ⟨store', hok, hchanges⟩ := addDependency_ok hnone
    have hstep : dependencyStep (dependenciesAfter (addAll anchor edges))
        (.add anchor e.serviceCode e.dependencyCode) = .ok store' := hok
    rw [hrun, Machine.commit_ok dependencyStep hstep, hchanges.edges_eq, hpre, Roster.pushIfAbsent,
      if_neg fun hmem => (hlast e hmem e (by simp)).1 rfl]

end Additions

namespace Demo

def hubAnchor : Address := ⟨"GHUB"⟩

/-- The codes of 256 services. -/
def spokes : List UInt32 := (List.range' 1 256).map UInt32.ofNat

/-- One service requires 256 others, of which the last requires one more. -/
def hubEdges : List ServiceDependency := spokes.map (⟨0, ·⟩) ++ [⟨256, 257⟩]

theorem nodup_spokes : (0 :: spokes).Nodup := by
  have hcodes : 0 :: spokes = (List.range' 0 257).map UInt32.ofNat := rfl
  rw [hcodes]
  apply List.Nodup.map_on _ List.nodup_range'
  intro i hi j hj heq
  rw [List.mem_range'_1] at hi hj
  have hnat := congrArg UInt32.toNat heq
  rwa [Word.toNat_ofNat32 (by omega), Word.toNat_ofNat32 (by omega)] at hnat

theorem hubEdges_leaf : hubEdges.Pairwise fun f e => f ≠ e ∧ f.serviceCode ≠ e.dependencyCode := by
  obtain ⟨hzero, hspokes⟩ := List.nodup_cons.mp nodup_spokes
  refine List.pairwise_append.mpr ⟨?_, List.pairwise_singleton _ _, ?_⟩
  · refine List.pairwise_map.mpr (hspokes.imp_of_mem ?_)
    intro a b _ hb hab
    refine ⟨fun heq => hab (ServiceDependency.mk.inj heq).2, ?_⟩
    rintro rfl
    exact hzero hb
  · intro f hf e he
    obtain ⟨a, _, rfl⟩ := List.mem_map.mp hf
    obtain rfl := List.mem_singleton.mp he
    exact ⟨by simp, by simp⟩

/-- The first 256 services that the walk discovers are the first one and all but the last of those
it requires. -/
theorem hub_last_not_first {graph : ServiceDependencyGraph} (h : graph.edges = hubEdges) :
    ¬ AmongFirst graph.successors 0 maxNodes 256 := by
  have hsuccessors : graph.successors 0 = spokes := by
    simp [ServiceDependencyGraph.successors, h, hubEdges, List.filter_map, Function.comp_def]
  have hone : order graph.successors 0 1 = 0 :: spokes := by
    rw [order_succ_of_get graph.successors 0 rfl, hsuccessors]
    exact discover_of_nodup nodup_spokes
  rintro ⟨k, hk⟩
  obtain ⟨rest, hrest⟩ := prefix_order graph.successors 0 (Nat.le_max_right k 1)
  have hlater := ((prefix_order graph.successors 0 (Nat.le_max_left k 1)).take maxNodes).subset hk
  rw [← hrest, hone, List.take_append_of_le_length (by decide +kernel)] at hlater
  revert hlater
  decide +kernel

end Demo

/-- The hub's edges, and one from the end of them back to the hub. -/
def Demo.hubCalls : List DependencyCall :=
  addAll Demo.hubAnchor Demo.hubEdges ++ [.add Demo.hubAnchor 257 0]

/-- The hub comes to be required by what the last of its own requirements requires. -/
theorem cycle_of_hub_accepted : ¬ DependenciesSound Demo.hubCalls := by
  intro h
  let past := addAll Demo.hubAnchor Demo.hubEdges
  have hedges : (getGraph (dependenciesAfter past) Demo.hubAnchor).edges = Demo.hubEdges :=
    edges_of_additions (by decide +kernel) Demo.hubEdges_leaf
  have hsight := (appliesCall_iff _).mp (h.applies past (.add Demo.hubAnchor 257 0) [] rfl)
  have hreaches : (getGraph (dependenciesAfter past) Demo.hubAnchor).Reaches 0 257 := by
    apply Relation.ReflTransGen.head (b := 256)
    · rw [hedges]
      decide +kernel
    · apply Relation.ReflTransGen.single
      rw [hedges]
      decide +kernel
  rcases hsight hreaches with heq | ⟨last, hfirst, hlast⟩
  · cases heq
  · rw [ServiceDependencyGraph.mem_successors, hedges] at hlast
    have honly : ∀ e ∈ Demo.hubEdges, e.dependencyCode = 257 → e.serviceCode = 256 := by
      decide +kernel
    obtain rfl : last = 256 := honly _ hlast rfl
    exact Demo.hub_last_not_first hedges hfirst

end AnchorKit
