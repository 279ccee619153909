import QueryGraph.Proofs.Path.Scope
import QueryGraph.Proofs.Schema.Lookup

/-!
# The type of a path

A source has the record type of its vertex, a treat the type that it names, and a path the
type that its field leads to from the type below. A relation becomes a join below a vertex,
and the vertex knows nothing of treats.
-/

namespace QueryGraph
namespace PathContext

/-- The record type of the vertex of a declared source. -/
def sourceType?
    (context : PathContext)
    (graph : JoinGraph)
    (source : NodeId) : Option String :=
  (context.sources.find? source).bind fun vertex => (graph.vertex? vertex).map Vertex.recordType

variable {context : PathContext} {tree : Tree} {before after : JoinGraph}

/-- The types of sources are settled once the graph agrees with the tree. -/
theorem Sound.sourceType?_eq
    (sound : context.Sound tree before)
    (grows : before.Grows after) :
    context.sourceType? after = context.sourceType? before := by
  funext source
  unfold sourceType?
  cases declared : context.sources.find? source with
  | none => rfl
  | some id =>
      obtain ⟨vertex, found, -⟩ := sound.described declared
      obtain ⟨later, laterFound, sameType, -⟩ := grows id vertex found
      simp only [Option.bind_some, found, laterFound, Option.map_some, sameType]

end PathContext

namespace Route

variable (schema : Schema) (types : NodeId -> Option String)

/-- The type of what a route leads to, given the types of the sources. -/
def type? : Route -> Option String
  | .origin source => types source
  | .join _ source _ _ => types source
  | .field parent name =>
      parent.type?.bind fun type => (schema.fieldOf? type name).bind Field.target?
  | .treat _ asType => some asType

/-- The type of a source is that of its way. -/
theorem Leads.type?_of_source
    {schema : Schema}
    {types : NodeId -> Option String}
    {tree : Tree}
    {id : NodeId}
    {route : Route}
    {body : Source}
    (leads : Leads tree id route)
    (found : tree.node? id = some (.source body)) :
    route.type? schema types = types id := by
  cases leads with
  | origin => rfl
  | join => rfl
  | field again =>
      rw [found] at again
      cases again
  | treat again =>
      rw [found] at again
      cases again

/-- A route without its treats. -/
def untreated : Route -> Route
  | .origin source => .origin source
  | .join parent source relation direction => .join parent.untreated source relation direction
  | .field parent name => .field parent.untreated name
  | .treat target _ => target.untreated

/-- Every field exists in the type below it, every treat names a declared type, and every
field but the last is a relation. -/
def Navigable : (last : Bool) -> Route -> Prop
  | _, .origin _ => True
  | _, .join parent _ _ _ => parent.Navigable false
  | last, .field parent name =>
      parent.Navigable false ∧ ∃ type ∈ parent.type? schema types,
        ∃ declared ∈ schema.fieldOf? type name, last = true ∨ declared.isRelation = true
  | last, .treat target asType =>
      (schema.recordType? asType).isSome = true ∧ target.Navigable last

/-- Every field on a route has the same type whether or not the treats below it count. -/
def Agrees : Route -> Prop
  | .origin _ => True
  | .join parent _ _ _ => parent.Agrees
  | .field parent name =>
      parent.Agrees ∧
        (field parent.untreated name).type? schema types = (field parent name).type? schema types
  | .treat target _ => target.Agrees

/-- The field that a route ends with. -/
def lastField? (parent : Route) (name : String) : Option Field :=
  (parent.type? schema types).bind fun type => schema.fieldOf? type name

/-- The last field of a route is declared in the type below it. -/
theorem lastField?_eq_some
    {schema : Schema}
    {types : NodeId -> Option String}
    {parent : Route}
    {name type : String}
    {declared : Field}
    (typed : parent.type? schema types = some type)
    (found : schema.fieldOf? type name = some declared) :
    lastField? schema types parent name = some declared := by
  simp only [lastField?, typed, Option.bind_some, found]

/-- A route that ends with a relation has the type that the relation leads to. -/
theorem type?_field_eq_some
    {schema : Schema}
    {types : NodeId -> Option String}
    {parent : Route}
    {name type target : String}
    {declared : Field}
    (typed : parent.type? schema types = some type)
    (found : schema.fieldOf? type name = some declared)
    (leads : declared.target? = some target) :
    (field parent name).type? schema types = some target := by
  simp only [type?, typed, Option.bind_some, found, leads]

/-- The treats before an identifier do not matter. A relation to at most one record right
before the identifier needs no join. -/
def OwnerAgrees : Route -> Prop
  | .field owner relation =>
      if (lastField? schema types owner relation).any Field.isToOne then
        owner.Agrees schema types
      else (field owner relation).Agrees schema types
  | parent => parent.Agrees schema types

/-- The fields of a path that become joins have the same type whether or not the treats below
them count. The last field becomes a join only where it is a relation to at most one record
that is selected as a whole. -/
def TreatsAgree (selected : Bool) : Route -> Prop
  | .origin _ => True
  | .join parent _ _ _ => parent.Agrees schema types
  | .treat target _ => target.TreatsAgree selected
  | .field parent name =>
      if (lastField? schema types parent name).any Field.isIdentifier then
        parent.OwnerAgrees schema types
      else if selected && (lastField? schema types parent name).any Field.isToOne then
        (field parent name).Agrees schema types
      else parent.Agrees schema types

instance decidableNavigable :
    (last : Bool) -> (route : Route) -> Decidable (route.Navigable schema types last)
  | _, .origin _ => .isTrue trivial
  | _, .join parent _ _ _ => decidableNavigable false parent
  | last, .field parent name =>
      let _ := decidableNavigable false parent
      inferInstanceAs (Decidable (parent.Navigable schema types false ∧
        ∃ type ∈ parent.type? schema types, ∃ declared ∈ schema.fieldOf? type name,
          last = true ∨ declared.isRelation = true))
  | last, .treat target asType =>
      let _ := decidableNavigable last target
      inferInstanceAs (Decidable ((schema.recordType? asType).isSome = true ∧
        target.Navigable schema types last))

instance decidableAgrees : (route : Route) -> Decidable (route.Agrees schema types)
  | .origin _ => .isTrue trivial
  | .join parent _ _ _ => decidableAgrees parent
  | .field parent name =>
      let _ := decidableAgrees parent
      inferInstanceAs (Decidable (parent.Agrees schema types ∧
        (field parent.untreated name).type? schema types =
          (field parent name).type? schema types))
  | .treat target _ => decidableAgrees target

instance decidableOwnerAgrees : (route : Route) -> Decidable (route.OwnerAgrees schema types)
  | .origin source => decidableAgrees schema types (.origin source)
  | .join parent source relation direction =>
      decidableAgrees schema types (.join parent source relation direction)
  | .field owner relation =>
      inferInstanceAs (Decidable (if (lastField? schema types owner relation).any Field.isToOne then
        owner.Agrees schema types else (field owner relation).Agrees schema types))
  | .treat target asType => decidableAgrees schema types (.treat target asType)

instance decidableTreatsAgree
    (selected : Bool) :
    (route : Route) -> Decidable (route.TreatsAgree schema types selected)
  | .origin _ => .isTrue trivial
  | .join parent _ _ _ => decidableAgrees schema types parent
  | .treat target _ => decidableTreatsAgree selected target
  | .field parent name =>
      inferInstanceAs (Decidable
        (if (lastField? schema types parent name).any Field.isIdentifier then
          parent.OwnerAgrees schema types
        else if selected && (lastField? schema types parent name).any Field.isToOne then
          (field parent name).Agrees schema types
        else parent.Agrees schema types))

/-! ## Paths without treats -/

variable {schema} {types}

theorem untreated_ne_treat
    (route target : Route)
    (asType : String) :
    route.untreated ≠ .treat target asType := by
  induction route with
  | origin source => simp [untreated]
  | join parent source relation direction => simp [untreated]
  | field parent name => simp [untreated]
  | treat inner other inductionHypothesis => exact inductionHypothesis

/-- Where there are no treats, they do not matter. -/
theorem agrees_of_untreated
    {route : Route}
    (treatless : route.untreated = route) :
    route.Agrees schema types := by
  induction route with
  | origin source => trivial
  | join parent source relation direction inductionHypothesis =>
      simp only [untreated, join.injEq, and_true] at treatless
      exact inductionHypothesis treatless
  | field parent name inductionHypothesis =>
      simp only [untreated, field.injEq, and_true] at treatless
      exact ⟨inductionHypothesis treatless, by rw [treatless]⟩
  | treat target asType => exact absurd treatless (untreated_ne_treat target target asType)

theorem treatsAgree_of_untreated
    {route : Route}
    (selected : Bool)
    (treatless : route.untreated = route) :
    route.TreatsAgree schema types selected := by
  have agrees : route.Agrees schema types := agrees_of_untreated treatless
  cases route with
  | origin source => trivial
  | join parent source relation direction => exact agrees
  | treat target asType => exact absurd treatless (untreated_ne_treat target target asType)
  | field parent name =>
      unfold TreatsAgree
      split
      · cases parent with
        | field owner relation =>
            rw [OwnerAgrees]
            split
            · exact agrees.1.1
            · exact agrees.1
        | _ => exact agrees.1
      · split
        · exact agrees
        · exact agrees.1

variable (schema) (types)

/-- Along a route, every vertex that stands for a field was reached over that field and has
its type. -/
def EdgesTyped (graph : JoinGraph) : Route -> List (Option VertexId) -> Prop
  | .origin _, _ => True
  | .join parent _ _ _, _ :: edges => parent.EdgesTyped graph edges
  | .field parent name, edge :: edges =>
      (∀ id ∈ edge, ∃ vertex ∈ graph.vertex? id, vertex.field = some name ∧
        (field parent name).type? schema types = some vertex.recordType) ∧
        parent.EdgesTyped graph edges
  | .treat target _, edges => target.EdgesTyped graph edges
  | _, [] => False

end Route

namespace CompiledPath

/-- The vertex of each link of a path, nearest first. A link to a field has none. -/
def edges (path : CompiledPath) : List (Option VertexId) := path.links.map PathLink.vertex?

@[simp] theorem edges_toVertex_some (id : VertexId) (parent : CompiledPath) :
    (toVertex id (some parent)).edges = some id :: parent.edges := rfl

@[simp] theorem edges_toField (name : String) (parent : CompiledPath) :
    (toField name parent).edges = none :: parent.edges := rfl

@[simp] theorem edges_treat (path : CompiledPath) (asType : String) :
    (path.treat asType).edges = path.edges := rfl

/-- A field that is read without a join has no vertex to be typed. -/
theorem edgesTyped_toField
    {schema : Schema}
    {types : NodeId -> Option String}
    {graph : JoinGraph}
    {parent : Route}
    {name read : String}
    {above : CompiledPath} :
    (Route.field parent name).EdgesTyped schema types graph (toField read above).edges ↔
      parent.EdgesTyped schema types graph above.edges := by
  simp only [edges_toField, Route.EdgesTyped, Option.mem_def, reduceCtorEq, false_implies,
    implies_true, true_and]

end CompiledPath
end QueryGraph
