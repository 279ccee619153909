import QueryGraph.Document.Build
import QueryGraph.Proofs.Tree.Frame

/-!
# What is written in a document

The leaves of a document are the paths, placeholders and constants that are written in it, in the
order in which the clauses of a statement are visited. A path that is treated as another type is
one path. A leaf forgets which path it is, while a form keeps the path as it is written, together
with the types that it is treated as. A node of a tree spells a path if it reads the same fields
and is treated as the same types.
-/

namespace QueryGraph
namespace Document

/-! ## Leaves -/

/-- A path, a placeholder or a constant of a document. -/
inductive Leaf
  | path
  | named (name : String)
  | anonymous (label : String)
  | literal (value : Literal)
  deriving DecidableEq, Repr

namespace Leaf

mutual

/-- The leaves of an expression. -/
def ofExpression : Expression -> List Leaf
  | .path _ => [.path]
  | .parameter name => [.named name]
  | .anonymous label => [.anonymous label]
  | .literal value => [.literal value]
  | .treat target _ => ofExpression target
  | .subquery body => ofStatement body
  | .tuple items => ofExpressions items
  | .apply _ operands => ofExpressions operands

/-- The leaves of a statement, clause by clause. -/
def ofStatement : StatementOf Expression -> List Leaf
  | ⟨_, roots, selection, restriction, groups, having, terms, changes⟩ =>
      ofExpressions selection ++ ofRoots roots ++ ofAssignments changes ++
        ofOption restriction ++ ofExpressions groups ++ ofOption having ++ ofOrders terms

/-- The leaves of a list of expressions. -/
def ofExpressions : List Expression -> List Leaf
  | [] => []
  | first :: rest => ofExpression first ++ ofExpressions rest

/-- The leaves of an expression that may be absent. -/
def ofOption : Option Expression -> List Leaf
  | none => []
  | some item => ofExpression item

/-- The leaves of the terms of an order. -/
def ofOrders : List (OrderOf Expression) -> List Leaf
  | [] => []
  | ⟨item, _⟩ :: rest => ofExpression item ++ ofOrders rest

/-- The leaves of assignments, each of which begins with the path that is assigned to. -/
def ofAssignments : List (AssignmentOf Expression) -> List Leaf
  | [] => []
  | ⟨_, value⟩ :: rest => .path :: ofExpression value ++ ofAssignments rest

/-- The leaves of the conditions of joins, each before those of the joins below. -/
def ofJoins : List (JoinOf Expression) -> List Leaf
  | [] => []
  | ⟨_, _, _, _, _, on, nested, _⟩ :: rest => ofOption on ++ ofJoins nested ++ ofJoins rest

/-- The leaves of the conditions below root sources. -/
def ofRoots : List (RootOf Expression) -> List Leaf
  | [] => []
  | ⟨_, _, _, nested, _⟩ :: rest => ofJoins nested ++ ofRoots rest

end

/-- The label of a positional placeholder. -/
def label? : Leaf -> Option String
  | .anonymous label => some label
  | _ => none

end Leaf

/-- The labels of positional placeholders, each as often as it is written. -/
def Statement.labels (statement : Statement) : List String :=
  (Leaf.ofStatement statement).filterMap Leaf.label?

/-! ## Forms -/

/-- A path as it is written, a placeholder or a constant of a document. -/
inductive Form
  /-- A dotted path, or what one is treated as. -/
  | path (written : Expression)
  | named (name : String)
  | anonymous (label : String)
  | literal (value : Literal)
  deriving Repr

namespace Form

/-- A path that is treated as another type is one form, and what stands in it is none. -/
def treated (asType : String) : Form -> Form
  | .path written => .path (.treat written asType)
  | other => other

mutual

/-- The forms of an expression. -/
def ofExpression : Expression -> List Form
  | .path text => [.path (.path text)]
  | .parameter name => [.named name]
  | .anonymous label => [.anonymous label]
  | .literal value => [.literal value]
  | .treat target asType => (ofExpression target).map (treated asType)
  | .subquery body => ofStatement body
  | .tuple items => ofExpressions items
  | .apply _ operands => ofExpressions operands

/-- The forms of a statement, clause by clause. -/
def ofStatement : StatementOf Expression -> List Form
  | ⟨_, roots, selection, restriction, groups, having, terms, changes⟩ =>
      ofExpressions selection ++ ofRoots roots ++ ofAssignments changes ++
        ofOption restriction ++ ofExpressions groups ++ ofOption having ++ ofOrders terms

/-- The forms of a list of expressions. -/
def ofExpressions : List Expression -> List Form
  | [] => []
  | first :: rest => ofExpression first ++ ofExpressions rest

/-- The forms of an expression that may be absent. -/
def ofOption : Option Expression -> List Form
  | none => []
  | some item => ofExpression item

/-- The forms of the terms of an order. -/
def ofOrders : List (OrderOf Expression) -> List Form
  | [] => []
  | ⟨item, _⟩ :: rest => ofExpression item ++ ofOrders rest

/-- The forms of assignments, each of which begins with the path that is assigned to. -/
def ofAssignments : List (AssignmentOf Expression) -> List Form
  | [] => []
  | ⟨target, value⟩ :: rest =>
      .path (.path target) :: ofExpression value ++ ofAssignments rest

/-- The forms of the conditions of joins, each before those of the joins below. -/
def ofJoins : List (JoinOf Expression) -> List Form
  | [] => []
  | ⟨_, _, _, _, _, on, nested, _⟩ :: rest => ofOption on ++ ofJoins nested ++ ofJoins rest

/-- The forms of the conditions below root sources. -/
def ofRoots : List (RootOf Expression) -> List Form
  | [] => []
  | ⟨_, _, _, nested, _⟩ :: rest => ofJoins nested ++ ofRoots rest

end

/-! ## Forms of one kind -/

/-- A path as it is written. -/
def path? : Form -> Option Expression
  | .path written => some written
  | _ => none

/-- The name of a placeholder. -/
def named? : Form -> Option String
  | .named name => some name
  | _ => none

/-- The label of a positional placeholder. -/
def label? : Form -> Option String
  | .anonymous label => some label
  | _ => none

/-- A constant. -/
def literal? : Form -> Option Literal
  | .literal value => some value
  | _ => none

/-! ## Forms and leaves -/

/-- The leaf that a form is. -/
def leaf : Form -> Leaf
  | .path _ => .path
  | .named name => .named name
  | .anonymous label => .anonymous label
  | .literal value => .literal value

@[simp] theorem leaf_treated
    (asType : String)
    (form : Form) :
    (form.treated asType).leaf = form.leaf := by
  cases form <;> rfl

theorem label?_leaf (form : Form) : form.leaf.label? = form.label? := by
  cases form <;> rfl

mutual

theorem leaves_ofExpression (item : Expression) :
    (ofExpression item).map leaf = Leaf.ofExpression item := by
  match item with
  | .path _ | .parameter _ | .anonymous _ | .literal _ => rfl
  | .treat target asType =>
      have inner := leaves_ofExpression target
      simpa [ofExpression, Leaf.ofExpression, Function.comp_def] using inner
  | .subquery body => exact leaves_ofStatement body
  | .tuple items => exact leaves_ofExpressions items
  | .apply _ operands => exact leaves_ofExpressions operands

/-- The leaves of a statement are its forms without the text of the paths. -/
theorem leaves_ofStatement (statement : StatementOf Expression) :
    (ofStatement statement).map leaf = Leaf.ofStatement statement := by
  match statement with
  | ⟨_, roots, selection, restriction, groups, having, terms, changes⟩ =>
      simp only [ofStatement, Leaf.ofStatement, List.map_append, leaves_ofExpressions,
        leaves_ofRoots roots, leaves_ofAssignments changes, leaves_ofOption, leaves_ofOrders terms]

theorem leaves_ofExpressions (items : List Expression) :
    (ofExpressions items).map leaf = Leaf.ofExpressions items := by
  match items with
  | [] => rfl
  | first :: rest =>
      simp only [ofExpressions, Leaf.ofExpressions, List.map_append, leaves_ofExpression first,
        leaves_ofExpressions rest]

theorem leaves_ofOption (item : Option Expression) :
    (ofOption item).map leaf = Leaf.ofOption item := by
  match item with
  | none => rfl
  | some item => exact leaves_ofExpression item

theorem leaves_ofOrders (terms : List (OrderOf Expression)) :
    (ofOrders terms).map leaf = Leaf.ofOrders terms := by
  match terms with
  | [] => rfl
  | ⟨item, _⟩ :: rest =>
      simp only [ofOrders, Leaf.ofOrders, List.map_append, leaves_ofExpression item,
        leaves_ofOrders rest]

theorem leaves_ofAssignments (changes : List (AssignmentOf Expression)) :
    (ofAssignments changes).map leaf = Leaf.ofAssignments changes := by
  match changes with
  | [] => rfl
  | ⟨_, value⟩ :: rest =>
      simp only [ofAssignments, Leaf.ofAssignments, List.cons_append, List.map_cons,
        List.map_append, leaves_ofExpression value, leaves_ofAssignments rest, leaf]

theorem leaves_ofJoins (list : List (JoinOf Expression)) :
    (ofJoins list).map leaf = Leaf.ofJoins list := by
  match list with
  | [] => rfl
  | ⟨_, _, _, _, _, on, nested, _⟩ :: rest =>
      simp only [ofJoins, Leaf.ofJoins, List.map_append, leaves_ofOption on,
        leaves_ofJoins nested, leaves_ofJoins rest]

theorem leaves_ofRoots (list : List (RootOf Expression)) :
    (ofRoots list).map leaf = Leaf.ofRoots list := by
  match list with
  | [] => rfl
  | ⟨_, _, _, nested, _⟩ :: rest =>
      simp only [ofRoots, Leaf.ofRoots, List.map_append, leaves_ofJoins nested,
        leaves_ofRoots rest]

end
end Form

namespace Statement

/-- The forms of a statement, in the order in which its clauses are visited. -/
def forms (statement : Statement) : List Form := Form.ofStatement statement

/-- The targets of assignments, and the paths, treated or not, that stand in no treated one. -/
def paths (statement : Statement) : List Expression := statement.forms.filterMap Form.path?

example : paths { selection := [.treat (.treat (.path "crew") "Ship") "Tug"] } =
    [.treat (.treat (.path "crew") "Ship") "Tug"] := rfl

/-- The names of placeholders, each as often as it is written. -/
def names (statement : Statement) : List String := statement.forms.filterMap Form.named?

/-- The constants, each as often as it is written. -/
def literals (statement : Statement) : List Literal := statement.forms.filterMap Form.literal?

theorem labels_eq (statement : Statement) :
    statement.labels = statement.forms.filterMap Form.label? := by
  unfold labels forms
  rw [← Form.leaves_ofStatement, List.filterMap_map]
  exact List.filterMap_congr fun form _ => form.label?_leaf

end Statement

end Document

namespace Tree

variable {tree before after : Tree} {id : NodeId}

/-- Fields that are read one after another, from a source on. -/
inductive Accesses (tree : Tree) : List String -> NodeId -> Prop
  | source
      {id : NodeId}
      {body : Source}
      (found : tree.node? id = some (.source body)) :
      Accesses tree [] id
  | field
      {id parent : NodeId}
      {name : String}
      {names : List String}
      (found : tree.node? id = some (.path parent name))
      (accesses : Accesses tree names parent) :
      Accesses tree (names ++ [name]) id

/-- A node that says what is written as a path: the fields after the name of the source, and the
types that the path is treated as. -/
inductive Spells (tree : Tree) : NodeId -> Document.Expression -> Prop
  | path
      {id : NodeId}
      {text source : String}
      {names : List String}
      (parts : Document.Drafting.segments text = source :: names)
      (accesses : tree.Accesses names id) :
      Spells tree id (.path text)
  | treat
      {id target : NodeId}
      {asType : String}
      {written : Document.Expression}
      (found : tree.node? id = some (.treat target asType))
      (spells : Spells tree target written) :
      Spells tree id (.treat written asType)

theorem Accesses.of_evolves
    {names : List String}
    (accesses : before.Accesses names id)
    (evolves : before.Evolves after) :
    after.Accesses names id := by
  induction accesses with
  | source found =>
      obtain ⟨later, foundLater, same⟩ := evolves _ _ found
      obtain ⟨body, rfl, -⟩ := Node.shape_eq_source same
      exact .source foundLater
  | field found _ inductionHypothesis =>
      exact .field (evolves.node?_of_isFinal found rfl) inductionHypothesis

theorem Spells.of_evolves
    {written : Document.Expression}
    (spells : before.Spells id written)
    (evolves : before.Evolves after) :
    after.Spells id written := by
  induction spells with
  | path parts accesses => exact .path parts (accesses.of_evolves evolves)
  | treat found _ inductionHypothesis =>
      exact .treat (evolves.node?_of_isFinal found rfl) inductionHypothesis

end Tree
end QueryGraph
