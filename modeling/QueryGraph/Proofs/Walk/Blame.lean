import QueryGraph.Proofs.Graph.Typed
import QueryGraph.Proofs.Walk.Quiet

/-!
# Walks on a typed graph

A walk leaves a typed graph when the schema is closed. It is refused with an unknown record
type only for one that a root of the tree names.
-/

namespace QueryGraph

open Operation

/-- A record type that a root or a treat of a tree names. -/
inductive Tree.Names (tree : Tree) : String -> Prop
  | root {id : NodeId} {body : Source} {recordType : String}
      (found : tree.node? id = some (.source body))
      (isRoot : body.kind = .root recordType) : Names tree recordType
  | treat {id target : NodeId} {recordType : String}
      (found : tree.node? id = some (.treat target recordType)) : Names tree recordType

/-- On a tree, a walk has declared its sources in a typed graph. -/
structure Walk.Typed
    (schema : Schema)
    (tree : Tree)
    (walk : Walk) : Prop where
  nodes : walk.tree.nodes = tree.nodes
  sources : walk.sources.Typed schema

namespace Walk.Typed

variable {schema : Schema} {tree : Tree} {before after : Walk}

theorem of_quiet
    (typed : before.Typed schema tree)
    (quiet : before.Quiet after) :
    after.Typed schema tree where
  nodes := quiet.nodes.trans typed.nodes
  sources := by
    rw [quiet.sources]
    exact typed.sources

end Walk.Typed

namespace Walking

variable {schema : Schema} {tree : Tree}

/-- The bond of a walk that keeps a typed graph, and reports an unknown record type only when
the tree names it. -/
def blaming (schema : Schema) (tree : Tree) : Bond where
  done before after := before.Typed schema tree -> after.Typed schema tree
  refused error before _ := before.Typed schema tree -> error.Blames tree.Names

theorem blaming_lawful : (blaming schema tree).Lawful where
  done_refl _ typed := typed
  refused_refl blameless _ _ := blameless.blames
  done_trans earlier later typed := later (earlier typed)
  refused_trans earlier later typed := later (earlier typed)

theorem blameless_of_hold
    {id : NodeId}
    {before after : Walk}
    {error : CompileError}
    (refused : hold id before = .error error after) :
    error.Blameless := by
  unfold hold at refused
  split at refused
  · cases refused
  · cases refused
    exact fun _ => nofun

theorem blaming_primitive : (blaming schema tree).Primitive where
  lawful := blaming_lawful
  hold _ _ := ObeysAt.of_cases (fun done typed => typed.of_quiet (quiet_of_hold done))
    fun refused _ => (blameless_of_hold refused).blames
  records stepRecords _ := ObeysAt.of_cases
    (fun done typed => typed.of_quiet (.of_retains (stepRecords.of_ok done)))
    fun refused _ => (stepRecords.of_error refused).1.blames

/-- An operation on the graph that keeps it typed. -/
theorem blaming_onSources
    {action : Graphing α}
    {walk : Walk}
    (ends : walk.Typed schema tree ->
      Ends (fun _ after => after.Typed schema) (·.Blames tree.Names) (action walk.sources)) :
    ObeysAt (blaming schema tree) (onSources action) walk := by
  unfold ObeysAt onSources
  cases result : action walk.sources with
  | ok value sources => exact fun typed => ⟨typed.nodes, (ends typed).of_ok result⟩
  | error error sources => exact fun typed => (ends typed).of_error result

theorem blaming_visitRoot
    (closed : schema.Closed)
    (isFirst : Bool)
    (root : NodeId) :
    Obeys (blaming schema tree) (visitRoot schema isFirst root) := by
  intro walk
  refine ObeysAt.bind blaming_lawful (Obeys.read blaming_lawful _ walk) fun source same reads => ?_
  obtain ⟨found, rfl⟩ := read_eq_ok.mp reads
  refine ObeysAt.bind blaming_lawful (blaming_primitive.holdAll source.ids same)
    fun _ held holds => ?_
  cases isFirst with
  | false => exact Obeys.pure blaming_lawful [] held
  | true =>
      refine ObeysAt.bind blaming_lawful (blaming_onSources fun typed => ?_) fun vertex last _ =>
        Obeys.pure blaming_lawful [vertex] last
      have quiet := quiet_of_holdAll holds
      obtain ⟨id, body, fetches, joins⟩ := source
      obtain ⟨present, -⟩ := SourceTree.readFrom_mk (SourceTree.readFrom_of_ofNode found)
      rw [Tree.node?_eq_of_nodes (quiet.nodes.symm.trans typed.nodes)] at present
      exact Graphing.ends_buildRoot closed typed.sources (.root present)

theorem blaming_visitCorrelation (statement correlated : NodeId) :
    Obeys (blaming schema tree) (visitCorrelation statement correlated) := by
  refine Obeys.bind blaming_lawful (blaming_primitive.hold correlated) fun _ => ?_
  refine Obeys.bind blaming_lawful (Obeys.read blaming_lawful _) fun outer walk => ?_
  have reads : ObeysAt (blaming schema tree) (get : Walking Walk) walk :=
    blaming_lawful.done_refl walk
  refine ObeysAt.bind blaming_lawful reads fun current next done => ?_
  rw [Operation.get_apply] at done
  cases done
  cases found : walk.sources.declared.find? outer with
  | none =>
      refine Obeys.throw blaming_lawful ?_ walk
      exact fun _ => nofun
  | some vertex =>
      refine blaming_onSources fun typed => ?_
      exact typed.sources.declare typed.sources.graph (Nat.le_refl _) (typed.sources.present found)

theorem blaming_elementary (closed : schema.Closed) :
    (blaming schema tree).Elementary schema where
  toPrimitive := blaming_primitive
  sources {id statement walk} _ := by
    have reads : Obeys (blaming schema tree) (get : Walking Walk) := blaming_lawful.done_refl
    refine Obeys.bind blaming_lawful reads (fun before => ?_) walk
    by_cases empty : (statement.roots.isEmpty && statement.correlations.isEmpty) = true
    · simp only [if_pos empty]
      exact Obeys.throw blaming_lawful fun _ => nofun
    simp only [if_neg empty]
    refine Obeys.bind blaming_lawful
      (Obeys.mapM blaming_lawful fun root _ => blaming_visitRoot closed _ root) fun roots => ?_
    refine Obeys.bind blaming_lawful
      (Obeys.forM blaming_lawful fun source _ => blaming_visitCorrelation id source) fun _ => ?_
    split
    · exact fun _ typed => ⟨typed.nodes, typed.sources⟩
    · exact Obeys.pure blaming_lawful _

/-- A walk leaves a typed graph. A root of the tree is to blame for an unknown record type. -/
theorem ends_walkTree
    {owner : Owner}
    (closed : schema.Closed) :
    Ends (fun _ after => after.Typed schema tree) (·.Blames tree.Names)
      (walkTree schema { tree := tree, guard := { owner := owner } }) := by
  have started : Walk.Typed schema tree { tree := tree, guard := { owner := owner } } :=
    ⟨rfl, JoinGraph.typed_empty schema, fun found => by cases found⟩
  have obeys : Obeys (blaming schema tree) (walkTree schema) :=
    obeys_walkTree (blaming_elementary closed).complete
  cases result : walkTree schema { tree := tree, guard := { owner := owner } } with
  | ok value after => exact obeys.of_ok result started
  | error error after => exact obeys.of_error result started

end Walking
end QueryGraph
