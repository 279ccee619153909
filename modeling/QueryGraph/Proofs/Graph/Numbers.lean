import QueryGraph.Proofs.Graph.Precedence
import QueryGraph.Proofs.Graph.Suggestions

/-!
# Numbers of used vertices

Nothing has a label before the labels are given out. The used vertices are then numbered in the
order in which the descents from the roots meet them, and no number is left out.
-/

namespace QueryGraph
namespace JoinGraph

variable {graph before after : JoinGraph} {config : CompilerConfig} {roots : List VertexId}
  {id other : VertexId}

/-! ## Graphs without labels -/

/-- No vertex has a number or an alias. -/
def Unlabelled (graph : JoinGraph) : Prop :=
  ∀ id vertex, graph.vertex? id = some vertex -> vertex.Unlabelled

theorem Bare.unlabelled
    {allowed : String -> Prop}
    (bare : graph.Bare allowed) :
    graph.Unlabelled :=
  fun id vertex found => (bare id vertex found).label

theorem Unlabelled.identifier?
    (unlabelled : graph.Unlabelled)
    (id : VertexId) :
    graph.identifier? id = none :=
  Option.bind_eq_none_iff.mpr fun vertex found => (unlabelled id vertex found).1

/-! ## Numbers and aliases in step -/

/-- Every vertex has both a number and an alias, or neither of them. -/
def Paired (graph : JoinGraph) : Prop :=
  ∀ id vertex, graph.vertex? id = some vertex ->
    vertex.identifier.isSome = vertex.aliasName.isSome

theorem Unlabelled.paired (unlabelled : graph.Unlabelled) : graph.Paired := by
  intro id vertex found
  obtain ⟨unnumbered, unnamed⟩ := unlabelled id vertex found
  rw [unnumbered, unnamed]
  rfl

theorem Paired.labelVertex
    (paired : graph.Paired)
    (numbered : VertexId × Nat) :
    (labelVertex config graph numbered).Paired := by
  intro id vertex found
  unfold JoinGraph.labelVertex at found
  rw [vertex?_modify] at found
  split at found
  · obtain ⟨earlier, -, rfl⟩ := Option.map_eq_some_iff.mp found
    rfl
  · exact paired id vertex found

theorem Paired.assignLabels
    (paired : graph.Paired)
    (config : CompilerConfig)
    (roots : List VertexId) :
    (graph.assignLabels config roots).Paired := by
  unfold JoinGraph.assignLabels
  generalize (graph.usedPreorder roots).zipIdx = numbered
  induction numbered generalizing graph with
  | nil => exact paired
  | cons first rest inductionHypothesis => exact inductionHypothesis (paired.labelVertex first)

/-- Where numbers and aliases are in step, a number belongs to a label. -/
theorem Paired.identifier?_eq
    (paired : graph.Paired)
    (id : VertexId) :
    graph.identifier? id = (graph.label? id).map VertexLabel.identifier := by
  unfold identifier? label?
  cases found : graph.vertex? id with
  | none => rfl
  | some vertex =>
      have step := paired id vertex found
      unfold Vertex.label
      cases number : vertex.identifier <;> cases text : vertex.aliasName <;>
        simp [number, text] at step ⊢

/-- Where numbers and aliases are in step, an alias belongs to a label. -/
theorem Paired.aliasOf_eq_ok_iff
    {text : String}
    (paired : graph.Paired) :
    graph.aliasOf id = .ok text ↔
      ∃ label, graph.label? id = some label ∧ label.aliasName = text := by
  unfold aliasOf label?
  cases found : graph.vertex? id with
  | none => simp
  | some vertex =>
      have step := paired id vertex found
      unfold Vertex.label
      cases number : vertex.identifier <;> cases aliasName : vertex.aliasName <;>
        simp [number, aliasName] at step ⊢

/-! ## Counting while numbering -/

/-- Gives the next number to a vertex that is used and has none yet. -/
def labelNext
    (config : CompilerConfig)
    (state : JoinGraph × Nat)
    (id : VertexId) : JoinGraph × Nat :=
  if state.1.isUsed id && (state.1.identifier? id).isNone then
    (labelVertex config state.1 (id, state.2), state.2 + 1)
  else state

/-- Numbers what a descent meets, with the next number carried along. -/
def labelBelow (config : CompilerConfig) :
    (fuel : Nat) -> JoinGraph × Nat -> VertexId -> JoinGraph × Nat
  | 0, state, _ => state
  | fuel + 1, state, id =>
      let labelled := labelNext config state id
      (labelled.1.children id).foldl (labelBelow config fuel) labelled

/-- Numbers what is below some roots. Returns the number of labels given out. -/
def countLabels
    (config : CompilerConfig)
    (roots : List VertexId)
    (graph : JoinGraph) : JoinGraph × Nat :=
  roots.foldl (labelBelow config graph.size) (graph, 0)

@[simp] theorem children_labelVertex (numbered : VertexId × Nat) :
    (labelVertex config graph numbered).children other = graph.children other :=
  children_modify graph numbered.1 other fun _ => rfl

@[simp] theorem isUsed_labelVertex (numbered : VertexId × Nat) :
    (labelVertex config graph numbered).isUsed other = graph.isUsed other := by
  unfold isUsed labelVertex
  rw [vertex?_modify]
  split
  · rw [Option.any_map]
  · rfl

theorem children_labelNext (state : JoinGraph × Nat) :
    (labelNext config state id).1.children other = state.1.children other := by
  unfold labelNext
  split
  · exact children_labelVertex _
  · rfl

theorem children_foldl_labelNext
    (ids : List VertexId)
    (state : JoinGraph × Nat) :
    (ids.foldl (labelNext config) state).1.children other = state.1.children other := by
  induction ids generalizing state with
  | nil => rfl
  | cons id ids inductionHypothesis =>
      rw [List.foldl_cons, inductionHypothesis, children_labelNext]

/-- Labels do not change where a descent leads, so several descents label what they would have
met. -/
theorem foldl_eq_of_descents
    {below : JoinGraph × Nat -> VertexId -> JoinGraph × Nat}
    {descent : VertexId -> List VertexId}
    {ids : List VertexId}
    {state : JoinGraph × Nat}
    (each : ∀ state id, (∀ other, state.1.children other = graph.children other) ->
      below state id = (descent id).foldl (labelNext config) state)
    (same : ∀ other, state.1.children other = graph.children other) :
    ids.foldl below state = (ids.flatMap descent).foldl (labelNext config) state := by
  induction ids generalizing state with
  | nil => rfl
  | cons id ids inductionHypothesis =>
      rw [List.foldl_cons, List.flatMap_cons, List.foldl_append, each state id same]
      exact inductionHypothesis fun other => by rw [children_foldl_labelNext, same]

theorem labelBelow_eq
    {fuel : Nat}
    {state : JoinGraph × Nat}
    (same : ∀ other, state.1.children other = graph.children other) :
    labelBelow config fuel state id = (graph.descend fuel id).foldl (labelNext config) state := by
  induction fuel generalizing state id with
  | zero => rfl
  | succ fuel inductionHypothesis =>
      unfold labelBelow descend
      simp only
      rw [children_labelNext, same, List.foldl_cons]
      refine foldl_eq_of_descents (fun _ _ same => inductionHypothesis same) fun other => ?_
      rw [children_labelNext, same]

/-- Vertices without labels are numbered from the next number on. -/
theorem foldl_labelNext_eq
    {ids : List VertexId}
    {next : Nat}
    (nodup : ids.Nodup)
    (bare : ∀ id ∈ ids, graph.identifier? id = none) :
    ids.foldl (labelNext config) (graph, next) =
      (((ids.filter graph.isUsed).zipIdx next).foldl (labelVertex config) graph,
        next + (ids.filter graph.isUsed).length) := by
  induction ids generalizing graph next with
  | nil => rfl
  | cons id ids inductionHypothesis =>
      obtain ⟨once, nodupRest⟩ := List.nodup_cons.mp nodup
      have bareHere := bare id List.mem_cons_self
      rw [List.foldl_cons, List.filter_cons]
      cases used : graph.isUsed id with
      | false =>
          have skipped : labelNext config (graph, next) id = (graph, next) := by
            simp [labelNext, used]
          rw [skipped, if_neg Bool.false_ne_true]
          exact inductionHypothesis nodupRest fun later member =>
            bare later (List.mem_cons_of_mem id member)
      | true =>
          have labelled : labelNext config (graph, next) id =
              (labelVertex config graph (id, next), next + 1) := by
            simp [labelNext, used, bareHere]
          have bareRest : ∀ later ∈ ids,
              (labelVertex config graph (id, next)).identifier? later = none := by
            intro later member
            have differs : ¬ id = later := by
              rintro rfl
              exact once member
            rw [identifier?_labelVertex, if_neg differs]
            exact bare later (List.mem_cons_of_mem id member)
          have sameUse : ids.filter (labelVertex config graph (id, next)).isUsed =
              ids.filter graph.isUsed :=
            List.filter_congr fun later _ => isUsed_labelVertex _
          rw [labelled, if_pos rfl, inductionHypothesis nodupRest bareRest, sameUse,
            List.zipIdx_cons, List.foldl_cons, List.length_cons]
          congr 1
          omega

/-- Numbering with a counter gives every used vertex its place among them, and counts them. -/
theorem countLabels_eq
    (nodup : (graph.preorder roots).Nodup)
    (unlabelled : graph.Unlabelled) :
    graph.countLabels config roots =
      (graph.assignLabels config roots, (graph.usedPreorder roots).length) := by
  have counted : (graph.preorder roots).foldl (labelNext config) (graph, 0) =
      (graph.assignLabels config roots, 0 + (graph.usedPreorder roots).length) :=
    foldl_labelNext_eq nodup fun id _ => unlabelled.identifier? id
  rw [Nat.zero_add] at counted
  unfold countLabels
  rw [← counted]
  exact foldl_eq_of_descents (fun _ _ same => labelBelow_eq same) fun _ => rfl

/-! ## Numbered graphs -/

/-- How many vertices are used. -/
def usedCount (graph : JoinGraph) : Nat := graph.ids.countP graph.isUsed

/-- A vertex has a number and an alias exactly when it is used, and the labels number the used
vertices from zero in the order of the descents from some roots. -/
structure Enumerated
    (graph : JoinGraph)
    (roots : List VertexId) : Prop where
  labelled : ∀ id, (∃ label, graph.label? id = some label) ↔ graph.isUsed id = true
  identified : ∀ id, (∃ number, graph.identifier? id = some number) ↔ graph.isUsed id = true
  named : ∀ id, (∃ text, graph.aliasOf id = .ok text) ↔ graph.isUsed id = true
  /-- The numbers below the number of used vertices are given out, and no other. -/
  numbers : ∀ number, (∃ id label, graph.label? id = some label ∧ label.identifier = number) ↔
    number < graph.usedCount
  distinct : ∀ {first second one other}, graph.label? first = some one ->
    graph.label? second = some other -> one.identifier = other.identifier -> first = second
  ordered : ∀ {first second one other}, graph.label? first = some one ->
    graph.label? second = some other ->
      (one.identifier < other.identifier ↔ graph.Precedes roots first second)
  /-- The used vertices are listed in the order of their numbers. -/
  listed : graph.labelled.map (fun id => (graph.label? id).map VertexLabel.identifier) =
    (List.range graph.usedCount).map some
  complete : ∀ id, id ∈ graph.labelled ↔ graph.isUsed id = true

/-- The vertices that have a number, with their numbers. -/
def entries (graph : JoinGraph) : List (Nat × VertexId) :=
  graph.ids.filterMap fun id => (graph.identifier? id).map fun identifier => (identifier, id)

/-- The numbers of the vertices are their places in a list. -/
def NumberedBy
    (graph : JoinGraph)
    (order : List VertexId) : Prop :=
  ∀ id number, graph.identifier? id = some number ↔ order[number]? = some id

namespace NumberedBy

variable {order : List VertexId}

theorem exists_identifier_iff_mem (numbered : graph.NumberedBy order) :
    (∃ number, graph.identifier? id = some number) ↔ id ∈ order := by
  rw [List.mem_iff_getElem?]
  exact exists_congr fun number => numbered id number

theorem exists_label_iff
    (numbered : graph.NumberedBy order)
    (paired : graph.Paired)
    (number : Nat) :
    (∃ label, graph.label? id = some label ∧ label.identifier = number) ↔
      order[number]? = some id := by
  rw [← numbered, paired.identifier?_eq, Option.map_eq_some_iff]

theorem exists_label_iff_mem
    (numbered : graph.NumberedBy order)
    (paired : graph.Paired) :
    (∃ label, graph.label? id = some label) ↔ id ∈ order := by
  rw [List.mem_iff_getElem?]
  constructor
  · rintro ⟨label, found⟩
    exact ⟨label.identifier, (numbered.exists_label_iff paired _).mp ⟨label, found, rfl⟩⟩
  · rintro ⟨number, place⟩
    obtain ⟨label, found, -⟩ := (numbered.exists_label_iff paired number).mpr place
    exact ⟨label, found⟩

theorem place
    {label : VertexLabel}
    (numbered : graph.NumberedBy order)
    (paired : graph.Paired)
    (found : graph.label? id = some label) :
    order[label.identifier]? = some id :=
  (numbered.exists_label_iff paired _).mp ⟨label, found, rfl⟩

theorem lt_size
    (numbered : graph.NumberedBy order)
    (member : id ∈ order) :
    id.index < graph.size := by
  obtain ⟨number, found⟩ := numbered.exists_identifier_iff_mem.mpr member
  obtain ⟨vertex, present, -⟩ := Option.bind_eq_some_iff.mp found
  exact lt_size_of_vertex? present

theorem mem_entries
    {number : Nat}
    (numbered : graph.NumberedBy order) :
    (number, id) ∈ graph.entries ↔ order[number]? = some id := by
  unfold entries
  rw [List.mem_filterMap, ← numbered]
  constructor
  · rintro ⟨other, -, isEntry⟩
    obtain ⟨identifier, found, same⟩ := Option.map_eq_some_iff.mp isEntry
    cases same
    exact found
  · intro found
    have listed := numbered.exists_identifier_iff_mem.mp ⟨number, found⟩
    exact ⟨id, mem_ids.mpr (numbered.lt_size listed), by rw [found]; rfl⟩

theorem entries_perm (numbered : graph.NumberedBy order) :
    graph.entries.Perm (order.zipIdx.map Prod.swap) := by
  refine (List.perm_ext_iff_of_nodup ?_ ?_).mpr ?_
  · refine (nodup_ids graph).filterMap ?_
    intro first second entry isFirst isSecond
    obtain ⟨_, -, rfl⟩ := Option.map_eq_some_iff.mp isFirst
    obtain ⟨_, -, same⟩ := Option.map_eq_some_iff.mp isSecond
    exact (congrArg Prod.snd same).symm
  · refine List.Nodup.of_map Prod.fst ?_
    rw [List.map_map]
    exact (List.zipIdx_map_snd 0 order).symm ▸ List.nodup_range'
  · rintro ⟨number, id⟩
    rw [numbered.mem_entries, List.mem_map]
    constructor
    · exact fun place => ⟨(id, number), List.mem_zipIdx_iff_getElem?.mpr place, rfl⟩
    · rintro ⟨_, member, same⟩
      cases same
      exact List.mem_zipIdx_iff_getElem?.mp member

/-- Sorting the labelled vertices by their numbers restores the list. -/
theorem labelled_eq (numbered : graph.NumberedBy order) : graph.labelled = order := by
  have sorted : (order.zipIdx.map Prod.swap).Pairwise fun first second =>
      decide (first.1 ≤ second.1) = true := by
    rw [List.pairwise_map]
    have numbers : (order.zipIdx.map Prod.snd).Pairwise (· < ·) := by
      rw [List.zipIdx_map_snd]
      exact List.pairwise_lt_range'
    exact (List.pairwise_map.mp numbers).imp fun before => decide_eq_true (Nat.le_of_lt before)
  have perm : (graph.entries.mergeSort fun first second => first.1 ≤ second.1).Perm
      (order.zipIdx.map Prod.swap) :=
    (List.mergeSort_perm _ _).trans numbered.entries_perm
  have same : (graph.entries.mergeSort fun first second => first.1 ≤ second.1) =
      order.zipIdx.map Prod.swap := by
    refine List.Perm.eq_of_pairwise ?_ ?_ sorted perm
    · rintro ⟨number, first⟩ ⟨other, second⟩ firstMember secondMember below above
      have equal : number = other :=
        Nat.le_antisymm (of_decide_eq_true below) (of_decide_eq_true above)
      have firstPlace := numbered.mem_entries.mp ((List.mergeSort_perm _ _).mem_iff.mp firstMember)
      have secondPlace := numbered.mem_entries.mp (numbered.entries_perm.mem_iff.mpr secondMember)
      rw [equal, secondPlace] at firstPlace
      rw [equal, Option.some.inj firstPlace]
    · refine List.pairwise_mergeSort ?_ ?_ _
      · intro first second third below above
        exact decide_eq_true (Nat.le_trans (of_decide_eq_true below) (of_decide_eq_true above))
      · intro first second
        rcases Nat.le_total first.1 second.1 with below | above
        · simp [below]
        · simp [above]
  change (graph.entries.mergeSort fun first second => first.1 ≤ second.1).map Prod.snd = order
  rw [same, List.map_map]
  exact List.zipIdx_map_fst 0 order

theorem usedCount_eq
    (numbered : graph.NumberedBy order)
    (members : ∀ id, id ∈ order ↔ graph.isUsed id = true)
    (nodup : order.Nodup) :
    graph.usedCount = order.length := by
  unfold usedCount
  rw [List.countP_eq_length_filter]
  refine List.Perm.length_eq ?_
  rw [List.perm_ext_iff_of_nodup ((nodup_ids graph).filter _) nodup]
  intro id
  rw [List.mem_filter, members]
  refine ⟨And.right, fun used => ⟨?_, used⟩⟩
  exact mem_ids.mpr (numbered.lt_size ((members id).mpr used))

/-- A graph that is numbered by its used vertices in the order of a walk is enumerated. -/
theorem enumerated
    (numbered : graph.NumberedBy order)
    (paired : graph.Paired)
    (members : ∀ id, id ∈ order ↔ graph.isUsed id = true)
    (nodup : order.Nodup)
    (sorted : order.Pairwise (graph.Precedes roots))
    (asymm : ∀ {first second}, graph.Precedes roots first second ->
      ¬ graph.Precedes roots second first) :
    graph.Enumerated roots := by
  have labelled : ∀ id, (∃ label, graph.label? id = some label) ↔ graph.isUsed id = true :=
    fun id => (numbered.exists_label_iff_mem paired).trans (members id)
  have count := numbered.usedCount_eq members nodup
  have distinct : ∀ {first second one other}, graph.label? first = some one ->
      graph.label? second = some other -> one.identifier = other.identifier ->
      first = second := by
    intro first second one other isFirst isSecond same
    have place := numbered.place paired isFirst
    rw [same, numbered.place paired isSecond] at place
    exact (Option.some.inj place).symm
  have forward : ∀ {first second one other}, graph.label? first = some one ->
      graph.label? second = some other -> one.identifier < other.identifier ->
      graph.Precedes roots first second := by
    intro first second one other isFirst isSecond before
    obtain ⟨belowOne, firstPlace⟩ := List.getElem?_eq_some_iff.mp (numbered.place paired isFirst)
    obtain ⟨belowOther, secondPlace⟩ := List.getElem?_eq_some_iff.mp (numbered.place paired isSecond)
    have precedes := List.pairwise_iff_getElem.mp sorted _ _ belowOne belowOther before
    rwa [firstPlace, secondPlace] at precedes
  exact {
    labelled := labelled
    identified := fun id => numbered.exists_identifier_iff_mem.trans (members id)
    named := by
      intro id
      rw [← labelled]
      simp only [paired.aliasOf_eq_ok_iff]
      constructor
      · rintro ⟨text, label, found, -⟩
        exact ⟨label, found⟩
      · rintro ⟨label, found⟩
        exact ⟨label.aliasName, label, found, rfl⟩
    numbers := by
      intro number
      simp only [numbered.exists_label_iff paired, count]
      constructor
      · rintro ⟨id, place⟩
        exact (List.getElem?_eq_some_iff.mp place).1
      · exact fun below => ⟨order[number], List.getElem?_eq_getElem below⟩
    distinct := distinct
    ordered := by
      intro first second one other isFirst isSecond
      refine ⟨forward isFirst isSecond, fun precedes => ?_⟩
      rcases Nat.lt_trichotomy one.identifier other.identifier with before | same | after
      · exact before
      · rw [distinct isFirst isSecond same] at precedes
        exact absurd precedes (asymm precedes)
      · exact absurd (forward isSecond isFirst after) (asymm precedes)
    listed := by
      rw [numbered.labelled_eq, count]
      refine List.ext_getElem? fun number => ?_
      rw [List.getElem?_map, List.getElem?_map]
      by_cases below : number < order.length
      · have place : order[number]? = some order[number] := List.getElem?_eq_getElem below
        rw [place, List.getElem?_range below, Option.map_some, Option.map_some,
          ← paired.identifier?_eq]
        exact congrArg some ((numbered _ number).mpr place)
      · rw [List.getElem?_eq_none (Nat.le_of_not_lt below),
          List.getElem?_eq_none (by rw [List.length_range]; exact Nat.le_of_not_lt below)]
        rfl
    complete := by
      intro id
      rw [numbered.labelled_eq, members] }

end NumberedBy

/-! ## Labelling a forest -/

theorem descend_congr
    {fuel : Nat}
    (same : ∀ id, after.children id = before.children id) :
    after.descend fuel id = before.descend fuel id := by
  induction fuel generalizing id with
  | zero => rfl
  | succ fuel inductionHypothesis =>
      unfold descend
      rw [same]
      exact congrArg _ (List.flatMap_congr fun child _ => inductionHypothesis)

@[simp] theorem preorder_assignLabels (ids : List VertexId) :
    (graph.assignLabels config roots).preorder ids = graph.preorder ids := by
  unfold preorder
  rw [size_eq_of_edges edge?_assignLabels]
  exact List.flatMap_congr fun id _ => descend_congr children_assignLabels

/-- Labels are given to the used vertices that the descents meet, by their places among them. -/
theorem numberedBy_assignLabels
    (nodup : (graph.preorder roots).Nodup)
    (unlabelled : graph.Unlabelled) :
    (graph.assignLabels config roots).NumberedBy (graph.usedPreorder roots) := by
  have paired := unlabelled.paired.assignLabels config roots
  have placed : ∀ {id : VertexId} {number : Nat}, (graph.usedPreorder roots)[number]? = some id ->
      (graph.assignLabels config roots).identifier? id = some number := by
    intro id number place
    have used := (List.mem_filter.mp (List.mem_of_getElem? place)).2
    obtain ⟨vertex, found, -⟩ := isUsed_iff.mp used
    rw [paired.identifier?_eq, label?_assignLabels nodup place found]
    rfl
  intro id number
  refine ⟨fun labelled => ?_, placed⟩
  by_cases met : id ∈ graph.usedPreorder roots
  · obtain ⟨other, place⟩ := List.mem_iff_getElem?.mp met
    rw [placed place] at labelled
    rw [← Option.some.inj labelled]
    exact place
  · have bare : (graph.assignLabels config roots).identifier? id = none := by
      unfold assignLabels
      rw [identifier?_foldl_of_not_mem (by rwa [List.zipIdx_map_fst]), unlabelled.identifier?]
    rw [bare] at labelled
    cases labelled

/-! ## What a label says -/

/-- Every label says the alias that its vertex has under its number. -/
def Spelled
    (config : CompilerConfig)
    (graph : JoinGraph) : Prop :=
  ∀ id vertex label, graph.vertex? id = some vertex -> vertex.label = some label ->
    label.aliasName = aliasText config vertex label.identifier

theorem Unlabelled.spelled
    (unlabelled : graph.Unlabelled)
    (config : CompilerConfig) :
    graph.Spelled config := by
  intro id vertex label found labelled
  unfold Vertex.label at labelled
  rw [(unlabelled id vertex found).1] at labelled
  cases labelled

theorem Spelled.labelVertex
    (spelled : graph.Spelled config)
    (numbered : VertexId × Nat) :
    (labelVertex config graph numbered).Spelled config := by
  intro id vertex label found labelled
  unfold JoinGraph.labelVertex at found
  rw [vertex?_modify] at found
  split at found
  · obtain ⟨earlier, -, rfl⟩ := Option.map_eq_some_iff.mp found
    cases labelled
    rfl
  · exact spelled id vertex label found labelled

theorem spelled_assignLabels (unlabelled : graph.Unlabelled) :
    (graph.assignLabels config roots).Spelled config := by
  have spelled := unlabelled.spelled config
  unfold assignLabels
  generalize (graph.usedPreorder roots).zipIdx = numbered
  clear unlabelled
  induction numbered generalizing graph with
  | nil => exact spelled
  | cons first rest inductionHypothesis => exact inductionHypothesis (spelled.labelVertex first)

/-- The labels of a forest enumerate its used vertices, and a counter counts them. -/
theorem enumerated_assignLabels
    {labelled : JoinGraph}
    (same : labelled = graph.assignLabels config graph.rootIds)
    (forest : labelled.Forest)
    (ordered : labelled.Ordered)
    (unlabelled : graph.Unlabelled) :
    labelled.Enumerated labelled.rootIds ∧
      graph.countLabels config labelled.rootIds = (labelled, labelled.usedCount) := by
  have roots : labelled.rootIds = graph.rootIds := by rw [same, rootIds_assignLabels]
  have preorder : labelled.preorder labelled.rootIds = graph.preorder graph.rootIds := by
    rw [roots, same, preorder_assignLabels]
  have used : ∀ id, labelled.isUsed id = graph.isUsed id := by
    rw [same]
    exact isUsed_assignLabels
  have perm := preorder_perm forest ordered
  have met := pairwise_preorder forest ordered fun root isRoot => by
    obtain ⟨vertex, found, -⟩ := mem_rootIds.mp isRoot
    exact lt_size_of_vertex? found
  have nodup := perm.nodup_iff.mpr (nodup_ids labelled)
  rw [preorder] at perm met nodup
  have numbered : labelled.NumberedBy (graph.usedPreorder graph.rootIds) := by
    rw [same]
    exact numberedBy_assignLabels nodup unlabelled
  have members : ∀ id, id ∈ graph.usedPreorder graph.rootIds ↔ labelled.isUsed id = true := by
    intro id
    unfold usedPreorder
    rw [List.mem_filter, used, perm.mem_iff, mem_ids]
    refine ⟨And.right, fun isUsed => ⟨?_, isUsed⟩⟩
    rw [← used] at isUsed
    obtain ⟨vertex, found, -⟩ := isUsed_iff.mp isUsed
    exact lt_size_of_vertex? found
  have paired : labelled.Paired := by
    rw [same]
    exact unlabelled.paired.assignLabels config graph.rootIds
  constructor
  · exact numbered.enumerated paired members (nodup.filter _) (met.filter _)
      (Precedes.asymm forest)
  · rw [numbered.usedCount_eq members (nodup.filter _), roots, countLabels_eq nodup unlabelled,
      same]

end JoinGraph
end QueryGraph
