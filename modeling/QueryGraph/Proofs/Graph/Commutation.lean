import Mathlib.Data.List.Induction
import QueryGraph.Proofs.Graph.Settlement

/-!
# The order of declared joins

Declared joins below a vertex that has nothing below it yet may be resolved in any order:
they are granted in all orders or in none, and the vertices below come out the same.
What they change beside these vertices is that the vertex and everything above it may
become used. The graph is a forest, as every graph is that was built from roots.
-/

namespace QueryGraph
namespace JoinGraph

variable {start graph after : JoinGraph} {parent id above : VertexId} {request : JoinRequest}
  {siblings : List Vertex} {marked : Bool}

/-- Resolves requests below a vertex, one after the other. -/
def resolveAll
    (parent : VertexId)
    (requests : List JoinRequest) : EStateM CompileError JoinGraph PUnit :=
  requests.forM fun request => do let _ ← resolve parent request; return ()

/-- What is directly below a vertex, in the order of its creation. -/
def below (graph : JoinGraph) (parent : VertexId) : List Vertex :=
  (graph.children parent).filterMap graph.vertex?

/-- The statement that a vertex belongs to. -/
def statementOf (graph : JoinGraph) (id : VertexId) : NodeId :=
  ((graph.vertex? id).map Vertex.statement).getD ⟨0⟩

/-- A request that is refused leaves the graph as it was. -/
theorem resolve_eq_error
    {error : CompileError}
    (refused : resolve parent request graph = .error error after) :
    after = graph := by
  unfold resolve at refused
  rw [Operation.bind_of_ok (Operation.get_apply graph)] at refused
  cases candidate : graph.candidate? parent request with
  | none =>
      rw [candidate] at refused
      cases refused
  | some existing =>
      simp only [candidate] at refused
      cases fault : (graph.vertex? existing).bind fun vertex => vertex.mergeFault? request with
      | none =>
          rw [fault] at refused
          cases refused
      | some error =>
          rw [fault] at refused
          cases refused
          rfl

/-! ## A graph that has grown below one vertex -/

/-- An older vertex after some vertices were added below a parent. -/
def host
    (start : JoinGraph)
    (parent : VertexId)
    (count : Nat)
    (marked : Bool)
    (id : VertexId)
    (vertex : Vertex) : Vertex :=
  { vertex with
    children :=
      if id = parent then (List.range count).map fun place => ⟨start.size + place⟩
      else vertex.children
    used := vertex.used || (marked && decide (id ∈ start.ancestry parent)) }

/-- A graph that has grown below a parent alone. The new vertices are given in the order of
their creation, and it is given whether they have marked what is above. -/
structure Bears
    (start : JoinGraph)
    (parent : VertexId)
    (graph : JoinGraph)
    (siblings : List Vertex)
    (marked : Bool) : Prop where
  forest : graph.Forest
  size_eq : graph.size = start.size + siblings.length
  newer : ∀ place, graph.vertex? ⟨start.size + place⟩ = siblings[place]?
  older : ∀ id, id.index < start.size ->
    graph.vertex? id = (start.vertex? id).map (host start parent siblings.length marked id)

theorem Bears.refl
    (forest : graph.Forest)
    (childless : graph.children parent = []) :
    graph.Bears parent graph [] false where
  forest := forest
  size_eq := rfl
  newer place := by
    simp [vertex?, size]
  older id below := by
    obtain ⟨vertex, found⟩ := vertex?_of_lt below
    rw [found]
    by_cases here : id = parent
    · have none : vertex.children = [] := by
        simpa [children, ← here, found] using childless
      cases vertex
      simp_all [host]
    · simp [host, here]

namespace Bears

variable (bears : start.Bears parent graph siblings marked)

include bears

theorem hangsOff_iff (below : id.index < start.size) :
    graph.HangsOff id above ↔ start.HangsOff id above := by
  unfold HangsOff
  rw [bears.older id below]
  cases start.vertex? id <;> simp [host]

/-- Nothing comes to stand above the parent. -/
theorem under_iff
    (forest : start.Forest)
    (present : parent.index < start.size) :
    graph.Under parent above ↔ above ∈ start.ancestry parent := by
  rw [mem_ancestry forest present]
  constructor
  · exact Under.of_hangsOff bears.forest (fun below => (bears.hangsOff_iff below).mp) present
  · exact Under.of_hangsOff forest (fun below => (bears.hangsOff_iff below).mpr) present

theorem children_eq (present : parent.index < start.size) :
    graph.children parent =
      (List.range siblings.length).map fun place => ⟨start.size + place⟩ := by
  obtain ⟨vertex, found⟩ := vertex?_of_lt present
  unfold children
  rw [bears.older parent present, found]
  simp [host]

theorem below_eq (present : parent.index < start.size) : graph.below parent = siblings := by
  unfold below
  rw [bears.children_eq present, List.filterMap_map]
  have lookup : graph.vertex? ∘ (fun place => (⟨start.size + place⟩ : VertexId)) =
      fun place => siblings[place]? := funext bears.newer
  rw [lookup]
  clear lookup bears
  induction siblings using List.reverseRecOn with
  | nil => rfl
  | append_singleton siblings vertex inductionHypothesis =>
      rw [List.length_append, List.length_singleton, List.range_succ, List.filterMap_append]
      have earlier : (List.range siblings.length).filterMap
          (fun place => (siblings ++ [vertex])[place]?) = siblings := by
        refine Eq.trans (List.filterMap_congr fun place member => ?_) inductionHypothesis
        exact List.getElem?_append_left (List.mem_range.mp member)
      rw [earlier]
      simp

theorem hangs
    {place : Nat}
    {vertex : Vertex}
    (present : parent.index < start.size)
    (found : siblings[place]? = some vertex) :
    vertex.parent = some parent := by
  have listed : (⟨start.size + place⟩ : VertexId) ∈ graph.children parent := by
    rw [bears.children_eq present]
    exact List.mem_map.mpr ⟨place, List.mem_range.mpr (List.getElem?_eq_some_iff.mp found).1, rfl⟩
  obtain ⟨same, again, hangs⟩ := bears.forest.listed.mp listed
  rw [bears.newer, found] at again
  rwa [Option.some.inj again]

/-! ### What keeps it so -/

theorem attach
    {vertex : Vertex}
    (present : parent.index < start.size)
    (childless : vertex.children = []) :
    start.Bears parent (graph.attach parent vertex).2
      (siblings ++ [{ vertex with parent := some parent }]) marked := by
  have older : parent.index < graph.size := by
    have := bears.size_eq
    omega
  refine ⟨bears.forest.attach older childless, ?_, ?_, ?_⟩
  · have attached : (graph.attach parent vertex).2.size = graph.size + 1 := by
      simp [JoinGraph.attach, size, modify]
    rw [attached, bears.size_eq, List.length_append, List.length_singleton, Nat.add_assoc]
  · intro place
    rw [vertex?_attach graph parent vertex _ older, bears.size_eq, bears.newer]
    have apart : parent ≠ ⟨start.size + place⟩ := by
      rintro same
      rw [same] at present
      exact absurd present (by simp)
    rw [if_neg apart]
    rcases Nat.lt_trichotomy place siblings.length with earlier | last | beyond
    · rw [if_neg (by simp only; omega), List.getElem?_append_left earlier]
    · rw [if_pos (by simp only [last]), last]
      simp
    · rw [if_neg (by simp only; omega), List.getElem?_eq_none (by omega),
        List.getElem?_eq_none (by simp; omega)]
  · intro id below
    rw [vertex?_attach graph parent vertex _ older, if_neg (by rw [bears.size_eq]; omega),
      bears.older id below]
    obtain ⟨found, isFound⟩ := vertex?_of_lt below
    rw [isFound]
    by_cases here : parent = id
    · subst here
      simp [host, List.range_succ, bears.size_eq]
    · have apart : ¬ id = parent := fun same => here same.symm
      simp [host, here, apart]

theorem modify
    {place : Nat}
    {vertex : Vertex}
    {change : Vertex -> Vertex}
    (found : siblings[place]? = some vertex)
    (sameParent : (change vertex).parent = vertex.parent)
    (sameChildren : (change vertex).children = vertex.children) :
    start.Bears parent (graph.modify ⟨start.size + place⟩ change)
      (siblings.set place (change vertex)) marked := by
  have foundVertex : graph.vertex? ⟨start.size + place⟩ = some vertex := by
    rw [bears.newer, found]
  refine ⟨bears.forest.modify foundVertex sameParent sameChildren, ?_, ?_, ?_⟩
  · rw [size_modify, bears.size_eq, List.length_set]
  · intro other
    rw [vertex?_modify, bears.newer]
    by_cases here : place = other
    · subst here
      rw [if_pos rfl, found, List.getElem?_set_self (List.getElem?_eq_some_iff.mp found).1]
      rfl
    · have apart : ¬ (⟨start.size + place⟩ : VertexId) = ⟨start.size + other⟩ := by
        intro same
        exact here (by simpa using same)
      rw [if_neg apart, List.getElem?_set_ne here]
  · intro id below
    have apart : (⟨start.size + place⟩ : VertexId) ≠ id := by
      rintro rfl
      exact absurd below (by simp)
    rw [vertex?_modify, if_neg apart, bears.older id below, List.length_set]

/-- A new vertex that is marked as used marks the parent and everything above it. -/
theorem use
    {place : Nat}
    {vertex : Vertex}
    (forest : start.Forest)
    (present : parent.index < start.size)
    (found : siblings[place]? = some vertex) :
    start.Bears parent (graph.setUsed ⟨start.size + place⟩)
      (siblings.set place { vertex with used := true }) true := by
  have inside := (List.getElem?_eq_some_iff.mp found).1
  have foundVertex : graph.vertex? ⟨start.size + place⟩ = some vertex := by
    rw [bears.newer, found]
  have hangs : graph.HangsOff ⟨start.size + place⟩ parent :=
    ⟨vertex, foundVertex, bears.hangs present found⟩
  have met : ∀ other, other ∈ graph.ancestry ⟨start.size + place⟩ ↔
      other = ⟨start.size + place⟩ ∨ other ∈ start.ancestry parent := by
    intro other
    rw [mem_ancestry bears.forest hangs.lt_size, ← bears.under_iff forest present]
    unfold Under
    rw [Relation.ReflTransGen.cases_head_iff]
    refine or_congr eq_comm ⟨?_, fun above => ⟨parent, hangs, above⟩⟩
    rintro ⟨next, ⟨again, foundAgain, hangsAgain⟩, above⟩
    obtain ⟨body, foundBody, hangsBody⟩ := hangs
    rw [foundAgain] at foundBody
    cases foundBody
    rw [hangsAgain] at hangsBody
    cases hangsBody
    exact above
  have outside : ∀ other, (⟨start.size + other⟩ : VertexId) ∉ start.ancestry parent := by
    intro other contrary
    have le := Under.le forest ((mem_ancestry forest present).mp contrary)
    simp only at le
    omega
  refine ⟨bears.forest.of_edges (edge?_setUsed _ _) (children_setUsed _ _), ?_, ?_, ?_⟩
  · rw [size_eq_of_edges (edge?_setUsed graph _), bears.size_eq, List.length_set]
  · intro other
    rw [vertex?_setUsed, bears.newer]
    by_cases here : place = other
    · subst here
      rw [if_pos ((met _).mpr (Or.inl rfl)), found]
      simp [inside]
    · have apart : (⟨start.size + other⟩ : VertexId) ≠ ⟨start.size + place⟩ := by
        intro same
        exact here (by simpa using same.symm)
      have untouched : (⟨start.size + other⟩ : VertexId) ∉
          graph.ancestry ⟨start.size + place⟩ := by
        rw [met]
        exact not_or.mpr ⟨apart, outside other⟩
      rw [if_neg untouched, List.getElem?_set_ne here]
  · intro id below
    have apart : id ≠ ⟨start.size + place⟩ := by
      rintro rfl
      exact absurd below (by simp)
    rw [vertex?_setUsed, bears.older id below, List.length_set]
    by_cases touched : id ∈ start.ancestry parent
    · rw [if_pos ((met id).mpr (Or.inr touched))]
      cases start.vertex? id <;> simp [host, touched]
    · rw [if_neg ((met id).not.mpr (not_or.mpr ⟨apart, touched⟩))]
      cases start.vertex? id <;> simp [host, touched]

/-! ### What a request makes of it -/

theorem create
    (forest : start.Forest)
    (present : parent.index < start.size)
    (request : JoinRequest) :
    start.Bears parent (graph.create parent request).2
      (siblings ++ [Vertex.made parent (start.statementOf parent) request])
      (marked || request.marks) := by
  have statement : ((graph.vertex? parent).map Vertex.statement).getD ⟨0⟩ =
      start.statementOf parent := by
    unfold statementOf
    rw [bears.older parent present]
    cases start.vertex? parent <;> rfl
  have attached := bears.attach present
    (show (Vertex.ofRequest request (start.statementOf parent)).children = [] from rfl)
  unfold JoinGraph.create
  simp only [statement]
  have new : (graph.attach parent (Vertex.ofRequest request (start.statementOf parent))).1 =
      ⟨start.size + siblings.length⟩ := by
    simp [JoinGraph.attach, bears.size_eq]
  cases marks : request.marks with
  | false =>
      unfold JoinRequest.marks at marks
      rw [marks, if_neg (by simp), Bool.or_false]
      simpa [Vertex.made, JoinRequest.marks, marks, Vertex.ofRequest] using attached
  | true =>
      have used := attached.use forest present List.getElem?_concat_length
      unfold JoinRequest.marks at marks
      rw [marks, if_pos rfl, Bool.or_true, new]
      simpa [Vertex.made, JoinRequest.marks, marks] using used

theorem merge
    {place : Nat}
    {vertex : Vertex}
    (forest : start.Forest)
    (present : parent.index < start.size)
    (found : siblings[place]? = some vertex)
    (request : JoinRequest) :
    start.Bears parent (graph.merge ⟨start.size + place⟩ request)
      (siblings.set place (vertex.absorb request)) (marked || request.mode.isRequired) := by
  have inside := (List.getElem?_eq_some_iff.mp found).1
  have merged : start.Bears parent
      (graph.modify ⟨start.size + place⟩ fun vertex => vertex.mergeRequest request)
      (siblings.set place (vertex.mergeRequest request)) marked := bears.modify found rfl rfl
  unfold JoinGraph.merge
  cases required : request.mode.isRequired with
  | false => simpa [required, Vertex.absorb, Vertex.mergeRequest] using merged
  | true =>
      have used := merged.use forest present (List.getElem?_set_self inside)
      simpa [required, Vertex.absorb] using used

theorem candidate?_eq_none
    (present : parent.index < start.size)
    (nothing : graph.candidate? parent request = none) :
    ∀ vertex ∈ siblings, ¬ vertex.Admits request := by
  rintro vertex member ⟨shares, mergeable⟩
  obtain ⟨place, inside, rfl⟩ := List.getElem_of_mem member
  unfold candidate? findMergeable at nothing
  rw [if_neg (by simp [shares]), bears.children_eq present, List.find?_eq_none] at nothing
  refine nothing _ (List.mem_map.mpr ⟨place, List.mem_range.mpr inside, rfl⟩) ?_
  rw [bears.newer, List.getElem?_eq_getElem inside]
  exact mergeable

theorem candidate?_eq_some
    {existing : VertexId}
    (present : parent.index < start.size)
    (found : graph.candidate? parent request = some existing) :
    ∃ place vertex, existing = ⟨start.size + place⟩ ∧ siblings[place]? = some vertex ∧
      graph.vertex? existing = some vertex ∧ vertex.Admits request := by
  obtain ⟨above, vertex, isAbove, listed, isVertex, mergeable⟩ :=
    JoinGraph.candidate?_eq_some found
  have member : existing ∈ graph.children parent := mem_children.mpr ⟨above, isAbove, listed⟩
  rw [bears.children_eq present] at member
  obtain ⟨place, -, rfl⟩ := List.mem_map.mp member
  have shares : request.mode.isNew = false := by
    unfold candidate? at found
    by_cases new : request.mode.isNew = true
    · rw [if_pos new] at found
      cases found
    · simpa using new
  refine ⟨place, vertex, rfl, ?_, isVertex, shares, mergeable⟩
  rw [← bears.newer, isVertex]

/-- A request that is granted settles among the new vertices. -/
theorem resolve
    {resolution : Resolution}
    (forest : start.Forest)
    (present : parent.index < start.size)
    (done : JoinGraph.resolve parent request graph = .ok resolution after) :
    ∃ later, Vertex.Settles parent (start.statementOf parent) request siblings later ∧
      start.Bears parent after later (marked || request.marks) := by
  rcases resolve_eq_ok.mp done with ⟨nothing, -, rfl⟩ | ⟨existing, candidate, granted, -, rfl⟩
  · refine ⟨_, .add (bears.candidate?_eq_none present nothing) ?_,
      bears.create forest present request⟩
    exact List.perm_append_comm
  · obtain ⟨place, vertex, rfl, found, isVertex, admits⟩ :=
      bears.candidate?_eq_some present candidate
    rw [isVertex] at granted
    have inside := (List.getElem?_eq_some_iff.mp found).1
    have isThere : siblings[place] = vertex := (List.getElem?_eq_some_iff.mp found).2
    have unconditional := (Vertex.mergeFault?_eq_none.mp granted).1
    have marks : request.marks = request.mode.isRequired := by
      simp [JoinRequest.marks, unconditional]
    refine ⟨siblings.set place (vertex.absorb request),
      .share vertex (siblings.eraseIdx place) ?_ admits granted ?_, ?_⟩
    · have split := List.getElem_cons_eraseIdx_perm inside
      rw [isThere] at split
      exact split.symm
    · have insideAfter : place < (siblings.set place (vertex.absorb request)).length := by
        rw [List.length_set]
        exact inside
      have split := List.getElem_cons_eraseIdx_perm insideAfter
      rw [List.getElem_set_self, List.eraseIdx_set_eq] at split
      exact split.symm
    · rw [marks]
      exact bears.merge forest present found request

/-- A request that settles among the new vertices is granted. -/
theorem exists_resolve
    {later : List Vertex}
    {statement : NodeId}
    (present : parent.index < start.size)
    (explicit : request.origin = .explicit)
    (apart : siblings.Pairwise Vertex.Apart)
    (settles : Vertex.Settles parent statement request siblings later) :
    ∃ resolution after, JoinGraph.resolve parent request graph = .ok resolution after := by
  cases candidate : graph.candidate? parent request with
  | none => exact ⟨_, _, resolve_eq_ok.mpr (Or.inl ⟨candidate, rfl, rfl⟩)⟩
  | some existing =>
      obtain ⟨place, vertex, -, found, isVertex, admits⟩ :=
        bears.candidate?_eq_some present candidate
      have member : vertex ∈ siblings := List.mem_of_getElem? found
      cases settles with
      | add free perm => exact absurd admits (free vertex member)
      | share shared others split sharedAdmits granted perm =>
          obtain rfl := Vertex.eq_of_admits apart explicit split sharedAdmits member admits
          refine ⟨_, _, resolve_eq_ok.mpr (Or.inr ⟨existing, candidate, ?_, rfl, rfl⟩)⟩
          rw [isVertex]
          exact granted

theorem resolveAll
    {requests : List JoinRequest}
    (forest : start.Forest)
    (present : parent.index < start.size)
    (done : JoinGraph.resolveAll parent requests graph = .ok () after) :
    ∃ later, Vertex.SettlesAll parent (start.statementOf parent) requests siblings later ∧
      start.Bears parent after later (marked || requests.any JoinRequest.marks) := by
  induction requests generalizing graph siblings marked with
  | nil =>
      cases done
      exact ⟨siblings, List.Perm.refl _, by simpa using bears⟩
  | cons request requests inductionHypothesis =>
      obtain ⟨between, first, rest⟩ := Operation.forM_cons_eq_ok.mp done
      obtain ⟨resolution, _, resolved, last⟩ := Operation.bind_eq_ok.mp first
      cases last
      obtain ⟨next, settles, bearsNext⟩ := bears.resolve forest present resolved
      obtain ⟨later, settlesRest, bearsLater⟩ := inductionHypothesis bearsNext rest
      refine ⟨later, ⟨next, settles, settlesRest⟩, ?_⟩
      rw [List.any_cons, ← Bool.or_assoc]
      exact bearsLater

theorem exists_resolveAll
    {requests : List JoinRequest}
    {later : List Vertex}
    (forest : start.Forest)
    (present : parent.index < start.size)
    (explicit : ∀ request ∈ requests, request.origin = .explicit)
    (apart : siblings.Pairwise Vertex.Apart)
    (settles : Vertex.SettlesAll parent (start.statementOf parent) requests siblings later) :
    ∃ after, JoinGraph.resolveAll parent requests graph = .ok () after := by
  induction requests generalizing graph siblings marked with
  | nil => exact ⟨graph, rfl⟩
  | cons request requests inductionHypothesis =>
      obtain ⟨between, first, rest⟩ := settles
      have isExplicit := explicit request List.mem_cons_self
      obtain ⟨resolution, next, resolved⟩ := bears.exists_resolve present isExplicit apart first
      obtain ⟨grown, settlesGrown, bearsNext⟩ := bears.resolve forest present resolved
      have same := Vertex.Settles.unique isExplicit apart first settlesGrown
      obtain ⟨after, done⟩ := inductionHypothesis bearsNext
        (fun other member => explicit other (List.mem_cons_of_mem request member))
        (settlesGrown.apart isExplicit apart) (rest.of_perm same)
      exact ⟨after, Operation.forM_cons_eq_ok.mpr
        ⟨next, Operation.bind_eq_ok.mpr ⟨resolution, next, resolved, rfl⟩, done⟩⟩

end Bears

/-! ## The order of the requests -/

/-- Two graphs that came of the same requests: the vertices below the parent are the same up to
their order, and every older vertex is the same. -/
def ResolvesAlike
    (start : JoinGraph)
    (parent : VertexId) :
    EStateM.Result CompileError JoinGraph PUnit ->
      EStateM.Result CompileError JoinGraph PUnit -> Prop
  | .ok _ first, .ok _ second =>
      (first.below parent).Perm (second.below parent) ∧
        ∀ id, id.index < start.size -> first.vertex? id = second.vertex? id
  | .error _ _, .error _ _ => True
  | .ok _ _, .error _ _ => False
  | .error _ _, .ok _ _ => False

/-- Requests that were granted are granted in any other order, with the same outcome. -/
theorem resolveAll_of_perm
    {targetOf : String -> String}
    {requests permuted : List JoinRequest}
    (forest : graph.Forest)
    (present : parent.index < graph.size)
    (childless : graph.children parent = [])
    (declares : ∀ request ∈ requests, request.Declares targetOf)
    (perm : requests.Perm permuted)
    (done : resolveAll parent requests graph = .ok () after) :
    ∃ later, resolveAll parent permuted graph = .ok () later ∧
      (after.below parent).Perm (later.below parent) ∧
        ∀ id, id.index < graph.size -> after.vertex? id = later.vertex? id := by
  have start := Bears.refl forest childless
  obtain ⟨siblings, settles, bears⟩ := start.resolveAll forest present done
  have settlesPermuted := settles.perm perm declares
  have explicit : ∀ request ∈ permuted, request.origin = .explicit := fun request member =>
    (declares request (perm.mem_iff.mpr member)).1
  obtain ⟨later, doneLater⟩ :=
    start.exists_resolveAll forest present explicit .nil settlesPermuted
  obtain ⟨others, settlesLater, bearsLater⟩ := start.resolveAll forest present doneLater
  have same := Vertex.SettlesAll.unique explicit .nil settlesPermuted settlesLater
  refine ⟨later, doneLater, ?_, fun id below => ?_⟩
  · rw [bears.below_eq present, bearsLater.below_eq present]
    exact same
  · rw [bears.older id below, bearsLater.older id below, same.length_eq, perm.any_eq]

/-- Declared joins below a vertex with nothing below it yet, each with the target type that its
relation tells, are granted in all orders or in none. Up to their order the same vertices come
to stand below, with the same relations, types, directions, modes, suggestions, conditions and
marks, and every older vertex, above all the parent and what is above it, is the same. A request
that is refused, of whatever graph, leaves that graph as it was. -/
theorem resolveAll_perm
    {targetOf : String -> String}
    {requests permuted : List JoinRequest}
    (forest : graph.Forest)
    (present : parent.index < graph.size)
    (childless : graph.children parent = [])
    (declares : ∀ request ∈ requests, request.Declares targetOf)
    (perm : requests.Perm permuted) :
    graph.ResolvesAlike parent (resolveAll parent requests graph)
        (resolveAll parent permuted graph) ∧
      ∀ before above request error after,
        resolve above request before = .error error after -> after = before := by
  refine ⟨?_, fun before above request error after refused => resolve_eq_error refused⟩
  have permutedDeclares : ∀ request ∈ permuted, request.Declares targetOf :=
    fun request member => declares request (perm.mem_iff.mpr member)
  cases done : resolveAll parent requests graph with
  | ok value after =>
      obtain ⟨later, doneLater, siblings, older⟩ :=
        resolveAll_of_perm forest present childless declares perm done
      rw [doneLater]
      exact ⟨siblings, older⟩
  | error error after =>
      cases doneLater : resolveAll parent permuted graph with
      | ok value later =>
          obtain ⟨again, contrary, -⟩ :=
            resolveAll_of_perm forest present childless permutedDeclares perm.symm doneLater
          rw [done] at contrary
          cases contrary
      | error _ _ => trivial

/-- Joins to the team of an employee that share an edge, one that creates its own, and one to the
boss with a condition. -/
def crewRequests : List JoinRequest := [
  { field := "team", targetType := "Team", direction := .left, aliasHint := some "t" },
  { field := "team", targetType := "Team", mode := .optionallyCreateNew },
  { field := "boss", targetType := "Employee", direction := .left, on := some ⟨5⟩ },
  { field := "team", targetType := "Team", mode := .requiredToMergeExisting }]

/-- Read backwards, the joins of the crew are granted as well, and three vertices come to stand
below the root. -/
theorem crewRequests_resolve_alike :
    crewRoot.Forest ∧ (⟨0⟩ : VertexId).index < crewRoot.size ∧ crewRoot.children ⟨0⟩ = [] ∧
      crewRequests.Perm crewRequests.reverse ∧
      (∃ after, resolveAll ⟨0⟩ crewRequests crewRoot = .ok () after ∧
        (after.below ⟨0⟩).length = 3) ∧
      crewRoot.ResolvesAlike ⟨0⟩ (resolveAll ⟨0⟩ crewRequests crewRoot)
        (resolveAll ⟨0⟩ crewRequests.reverse crewRoot) := by
  have forest := onlyRoots_crewRoot.upright.forest
  have declares : ∀ request ∈ crewRequests,
      request.Declares fun field => if field = "team" then "Team" else "Employee" := by
    intro request member
    simp only [crewRequests, List.mem_cons, List.not_mem_nil, or_false] at member
    rcases member with rfl | rfl | rfl | rfl <;> exact ⟨rfl, rfl⟩
  have perm : crewRequests.Perm crewRequests.reverse := (List.reverse_perm _).symm
  exact ⟨forest, by decide, rfl, perm, ⟨_, rfl, rfl⟩,
    (resolveAll_perm forest (by decide) rfl declares perm).1⟩

end JoinGraph
end QueryGraph
