import QueryGraph.Proofs.Tree.Depth

/-!
# What a step leaves as it was

Which nodes a walk meets does not depend on the aliases of sources, on what is fetched, or on the
sources that a subquery correlates. The outline of a node leaves these out. A step of the builder
keeps the outlines of all nodes but at most one.
-/

namespace QueryGraph

namespace Node

/-- A node without its alias, its fetches and its correlated sources. -/
def outline : Node -> Node
  | .statement body => .statement { body with correlations := [] }
  | .source body => .source { body with aliasHint := none, fetches := [] }
  | .fetch body => .fetch { body with fetches := [] }
  | other => other

/-- Whether a node stays as it was made. -/
def isFinal : Node -> Bool
  | .statement _ | .source _ | .fetch _ => false
  | _ => true

theorem eq_of_isFinal
    {node later : Node}
    (isFinal : node.isFinal = true)
    (same : later.shape = node.shape) :
    later = node := by
  cases node with
  | statement body => cases isFinal
  | source body => cases isFinal
  | fetch body => cases isFinal
  | _ => cases later <;> first | exact same | cases same

end Node

namespace Tree

variable {tree before between after : Tree} {id parent : NodeId} {node child changed grown : Node}
  {closed wider : NodeId -> Prop}

/-- A node that is final is the same in every later tree. -/
theorem Evolves.node?_of_isFinal
    (evolves : before.Evolves after)
    (found : before.node? id = some node)
    (isFinal : node.isFinal = true) :
    after.node? id = some node := by
  obtain ⟨later, foundLater, same⟩ := evolves id node found
  rwa [Node.eq_of_isFinal isFinal same] at foundLater

/-! ## Outlines -/

/-- The outline of a node. -/
def outline? (tree : Tree) (id : NodeId) : Option Node :=
  (tree.node? id).map Node.outline

theorem outline?_of_node?
    (found : tree.node? id = some node) :
    tree.outline? id = some node.outline := by
  rw [outline?, found]
  rfl

theorem exists_of_outline?_statement
    {body : Statement}
    (found : tree.outline? id = some (.statement body)) :
    ∃ full, tree.node? id = some (.statement full) ∧ { full with correlations := [] } = body := by
  obtain ⟨node, present, same⟩ := Option.map_eq_some_iff.mp found
  cases node with
  | statement full => exact ⟨full, present, Node.statement.inj same⟩
  | _ => cases same

theorem exists_of_outline?_source
    {body : Source}
    (found : tree.outline? id = some (.source body)) :
    ∃ full, tree.node? id = some (.source full) ∧
      { full with aliasHint := none, fetches := [] } = body := by
  obtain ⟨node, present, same⟩ := Option.map_eq_some_iff.mp found
  cases node with
  | source full => exact ⟨full, present, Node.source.inj same⟩
  | _ => cases same

/-- The outline of a statement has its kind. -/
theorem kind_eq_of_outline?
    {full body : Statement}
    (present : tree.node? id = some (.statement full))
    (found : tree.outline? id = some (.statement body)) :
    full.kind = body.kind := by
  rw [outline?_of_node? present] at found
  obtain rfl := Node.statement.inj (Option.some.inj found)
  rfl

theorem lt_size_of_outline?
    (found : tree.outline? id = some node) :
    id.index < tree.size := by
  obtain ⟨full, present, -⟩ := Option.map_eq_some_iff.mp found
  exact lt_size_of_node? present

/-! ## Keeping outlines -/

/-- Some nodes of a tree have the same outline in a later one. -/
def Keeps
    (before : Tree)
    (closed : NodeId -> Prop)
    (after : Tree) : Prop :=
  ∀ id node, closed id -> before.outline? id = some node -> after.outline? id = some node

namespace Keeps

theorem refl (tree : Tree) (closed : NodeId -> Prop) : tree.Keeps closed tree :=
  fun _ _ _ found => found

/-- The second of two steps may touch whatever the first one has made. -/
theorem andThen
    (earlier : before.Keeps closed between)
    (later : between.Keeps wider after)
    (narrower : ∀ id, id.index < before.size -> closed id -> wider id) :
    before.Keeps closed after :=
  fun id node isClosed found =>
    later id node (narrower id (lt_size_of_outline? found) isClosed)
      (earlier id node isClosed found)

theorem trans
    (earlier : before.Keeps closed between)
    (later : between.Keeps closed after) :
    before.Keeps closed after :=
  earlier.andThen later fun _ _ isClosed => isClosed

theorem mono
    (keeps : before.Keeps wider after)
    (narrower : ∀ id, id.index < before.size -> closed id -> wider id) :
    before.Keeps closed after :=
  fun id node isClosed found =>
    keeps id node (narrower id (lt_size_of_outline? found) isClosed) found

theorem push (tree : Tree) (added : Node) : tree.Keeps closed (tree.push added) := by
  intro id node _ found
  obtain ⟨full, present, rfl⟩ := Option.map_eq_some_iff.mp found
  exact outline?_of_node? (node?_push_of_some added present)

theorem replace
    (found : tree.node? id = some node)
    (same : closed id -> changed.outline = node.outline) :
    tree.Keeps closed (tree.replace id changed) := by
  intro other kept isClosed foundOther
  obtain ⟨full, present, rfl⟩ := Option.map_eq_some_iff.mp foundOther
  by_cases here : other = id
  · subst here
    rw [found] at present
    cases present
    rw [← same isClosed]
    exact outline?_of_node? (node?_replace_self changed found)
  · rw [← node?_replace_of_ne changed here] at present
    exact outline?_of_node? present

theorem adopt
    (found : before.node? parent = some node)
    (same : closed parent -> grown.outline = node.outline) :
    before.Keeps closed ((before.push child).replace parent grown) :=
  (push before child).trans (replace (node?_push_of_some child found) same)

end Keeps

/-! ## Steps without placeholders -/

/-- Every placeholder of a later tree was there before. -/
def Plain (before after : Tree) : Prop :=
  ∀ id name, after.node? id = some (.parameter name) -> before.node? id = some (.parameter name)

/-- A node that is no placeholder. -/
def NoPlaceholder (node : Node) : Prop := ∀ name, node ≠ .parameter name

theorem Plain.trans
    (earlier : before.Plain between)
    (later : between.Plain after) :
    before.Plain after :=
  fun id name found => earlier id name (later id name found)

theorem Plain.push
    (noPlaceholder : NoPlaceholder child) :
    tree.Plain (tree.push child) := by
  intro id name found
  rw [node?_push] at found
  by_cases new : id.index = tree.size
  · rw [if_pos new] at found
    exact absurd (Option.some.inj found) (noPlaceholder name)
  · rwa [if_neg new] at found

theorem Plain.replace
    (found : tree.node? id = some node)
    (noPlaceholder : NoPlaceholder changed) :
    tree.Plain (tree.replace id changed) := by
  intro other name foundOther
  by_cases here : other = id
  · rw [here, node?_replace_self changed found] at foundOther
    exact absurd (Option.some.inj foundOther) (noPlaceholder name)
  · rwa [node?_replace_of_ne changed here] at foundOther

/-- A later tree in which some nodes have kept their outlines, without a new placeholder. -/
structure Grows
    (before : Tree)
    (closed : NodeId -> Prop)
    (after : Tree) : Prop where
  changes : before.Changes after
  keeps : before.Keeps closed after
  plain : before.Plain after

namespace Grows

theorem push
    (changes : tree.Changes (tree.push child))
    (noPlaceholder : NoPlaceholder child) :
    tree.Grows closed (tree.push child) :=
  ⟨changes, Keeps.push tree child, Plain.push noPlaceholder⟩

theorem replace
    (changes : tree.Changes (tree.replace id changed))
    (found : tree.node? id = some node)
    (noPlaceholder : NoPlaceholder changed)
    (same : closed id -> changed.outline = node.outline) :
    tree.Grows closed (tree.replace id changed) :=
  ⟨changes, Keeps.replace found same, Plain.replace found noPlaceholder⟩

theorem adopt
    (changes : before.Changes ((before.push child).replace parent grown))
    (found : before.node? parent = some node)
    (childNoPlaceholder : NoPlaceholder child)
    (grownNoPlaceholder : NoPlaceholder grown)
    (same : closed parent -> grown.outline = node.outline) :
    before.Grows closed ((before.push child).replace parent grown) :=
  ⟨changes, Keeps.adopt found same,
    (Plain.push childNoPlaceholder).trans
      (Plain.replace (node?_push_of_some child found) grownNoPlaceholder)⟩

end Grows

/-- What is adopted is found under the next number. -/
theorem node?_adopt_child
    (found : before.node? parent = some node) :
    ((before.push child).replace parent grown).node? ⟨before.size⟩ = some child := by
  have differs : (⟨before.size⟩ : NodeId) ≠ parent := by
    rintro rfl
    exact Nat.lt_irrefl _ (lt_size_of_node? found)
  rw [node?_replace_of_ne grown differs, node?_push_size]

theorem node?_adopt_parent
    (found : before.node? parent = some node) :
    ((before.push child).replace parent grown).node? parent = some grown :=
  node?_replace_self grown (node?_push_of_some child found)

/-! ## Amending a statement -/

/-- A step that changes one statement, and keeps the outlines of all other nodes. -/
structure Amends
    (before : Tree)
    (id : NodeId)
    (grow : Statement -> Statement)
    (after : Tree) : Prop where
  grows : before.Grows (fun other => other ≠ id) after
  amended : ∀ body, before.outline? id = some (.statement body) ->
    after.outline? id = some (.statement (grow body))

/-- A change of a statement that does not look at its correlated sources. -/
def IgnoresCorrelations (grow : Statement -> Statement) : Prop :=
  ∀ body correlations,
    { grow body with correlations := correlations } =
      grow { body with correlations := correlations }

section Amends

variable {body : Statement} {grow : Statement -> Statement}

theorem amended_of_node?
    (ignores : IgnoresCorrelations grow)
    (found : before.node? id = some (.statement body))
    (foundLater : after.node? id = some (.statement (grow body)))
    (outlined : Statement)
    (same : before.outline? id = some (.statement outlined)) :
    after.outline? id = some (.statement (grow outlined)) := by
  rw [outline?_of_node? found] at same
  obtain rfl := Node.statement.inj (Option.some.inj same)
  rw [outline?_of_node? foundLater, Node.outline, ignores]

theorem Amends.replace
    (changes : before.Changes (before.replace id (.statement (grow body))))
    (found : before.node? id = some (.statement body))
    (ignores : IgnoresCorrelations grow) :
    before.Amends id grow (before.replace id (.statement (grow body))) where
  grows := .replace changes found (fun _ => nofun) fun differs => absurd rfl differs
  amended := amended_of_node? ignores found (node?_replace_self _ found)

theorem Amends.adopt
    (changes : before.Changes ((before.push child).replace id (.statement (grow body))))
    (found : before.node? id = some (.statement body))
    (noPlaceholder : NoPlaceholder child)
    (ignores : IgnoresCorrelations grow) :
    before.Amends id grow ((before.push child).replace id (.statement (grow body))) where
  grows := .adopt changes found noPlaceholder (fun _ => nofun) fun differs => absurd rfl differs
  amended := amended_of_node? ignores found (node?_adopt_parent found)

end Amends
end Tree
end QueryGraph
