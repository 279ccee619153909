import QueryGraph.Proofs.Document.Sources

/-!
# What a name means

A statement declares sources by name, and a name means the source that the innermost statement
around it declares. A document is scoped in a tree if each path of it is read from a source of its
own statement that stands for what the head of the path means there. What a statement correlates
comes under names of its own, none of which it declares.
-/

namespace QueryGraph

namespace Document

/-! ## Declared names -/

/-- Sources under their names. -/
abbrev Table := List (String × NodeId)

namespace Table

/-- The names of a table. -/
def names (table : Table) : List String := table.map Prod.fst

/-- The sources that have a name, under their names. -/
def ofSources
    (names : List (Option String))
    (sources : List NodeId) : Table :=
  (names.zip sources).filterMap fun entry => entry.1.map fun name => (name, entry.2)

end Table

/-- The names of joins, each before those of the joins below. -/
def namesOfJoins : List (JoinOf ε) -> List (Option String)
  | [] => []
  | ⟨_, aliasHint, name, _, _, _, nested, _⟩ :: rest =>
      name.or aliasHint :: (namesOfJoins nested ++ namesOfJoins rest)

/-- The names of root sources. -/
def namesOfRoots (roots : List (RootOf ε)) : List (Option String) :=
  roots.map fun root => root.name.or root.aliasHint

/-- The names of all joins below root sources. -/
def namesBelow (roots : List (RootOf ε)) : List (Option String) :=
  roots.flatMap fun root => namesOfJoins root.joins

/-- The names that a statement with some roots declares. -/
def declaredNames (roots : List (RootOf ε)) : List String :=
  (namesOfRoots roots ++ namesBelow roots).filterMap id

/-- What a statement declares by name, where the roots and all joins below them have become some
sources. -/
def declaredTable
    (roots : List (RootOf ε))
    (rootIds joinIds : List NodeId) : Table :=
  Table.ofSources (namesOfRoots roots ++ namesBelow roots) (rootIds ++ joinIds)

/-- The source that a name means where some tables are visible, the innermost first. -/
def meaning?
    (tables : List Table)
    (name : String) : Option NodeId :=
  tables.findSome? fun table => table.lookup name

/-! ## Unknown names -/

/-- The head of a path, if it is none of the known names. -/
def unknownHead
    (known : List String)
    (text : String) : List String :=
  ((Drafting.segments text).take 1).filter fun head => head ∉ known

mutual

/-- The heads of paths in an expression that no statement around them declares, where some names
are known. -/
def unknownOfExpression (known : List String) : Expression -> List String
  | .path text => unknownHead known text
  | .parameter _ | .anonymous _ | .literal _ => []
  | .treat target _ => unknownOfExpression known target
  | .subquery body => unknownOfStatement known body
  | .tuple items => unknownOfExpressions known items
  | .apply _ operands => unknownOfExpressions known operands

/-- A statement knows its own names besides those of the statements around it. -/
def unknownOfStatement (known : List String) : StatementOf Expression -> List String
  | ⟨_, roots, selection, restriction, groups, having, terms, changes⟩ =>
      let inner := declaredNames roots ++ known
      unknownOfRoots inner roots ++ unknownOfExpressions inner selection ++
        unknownOfOption inner restriction ++ unknownOfExpressions inner groups ++
        unknownOfOption inner having ++ unknownOfOrders inner terms ++
        unknownOfAssignments inner changes

/-- The unknown heads in a list of expressions. -/
def unknownOfExpressions (known : List String) : List Expression -> List String
  | [] => []
  | first :: rest => unknownOfExpression known first ++ unknownOfExpressions known rest

/-- The unknown heads in an expression that may be absent. -/
def unknownOfOption (known : List String) : Option Expression -> List String
  | none => []
  | some item => unknownOfExpression known item

/-- The unknown heads in the terms of an order. -/
def unknownOfOrders (known : List String) : List (OrderOf Expression) -> List String
  | [] => []
  | ⟨item, _⟩ :: rest => unknownOfExpression known item ++ unknownOfOrders known rest

/-- The unknown heads in assignments. -/
def unknownOfAssignments (known : List String) : List (AssignmentOf Expression) -> List String
  | [] => []
  | ⟨target, value⟩ :: rest =>
      unknownHead known target ++ unknownOfExpression known value ++
        unknownOfAssignments known rest

/-- The unknown heads in the conditions of joins. -/
def unknownOfJoins (known : List String) : List (JoinOf Expression) -> List String
  | [] => []
  | ⟨_, _, _, _, _, on, nested, _⟩ :: rest =>
      unknownOfOption known on ++ unknownOfJoins known nested ++ unknownOfJoins known rest

/-- The unknown heads in the conditions below root sources. -/
def unknownOfRoots (known : List String) : List (RootOf Expression) -> List String
  | [] => []
  | ⟨_, _, _, nested, _⟩ :: rest => unknownOfJoins known nested ++ unknownOfRoots known rest

end

/-! ## Places -/

/-- Where an expression is written: the innermost statement around it, and what this statement and
the ones around it declare, the innermost first. -/
structure Place where
  statement : NodeId
  tables : List Table

/-- The names that are known at a place. -/
def Place.known (place : Place) : List String := place.tables.flatMap Table.names

end Document

namespace Tree

open Document

variable {tree before after : Tree}

/-! ## Scoped documents -/

/-- A source stands for what a name means where some tables are visible. -/
def Means
    (tree : Tree)
    (tables : List Table)
    (name : String)
    (source : NodeId) : Prop :=
  ∃ declared, meaning? tables name = some declared ∧
    tree.resolveCorrelation source = .ok declared

/-- Fields that are read one after another, from a given source on. -/
inductive ReadsFrom (tree : Tree) (source : NodeId) : List String -> NodeId -> Prop
  | source : ReadsFrom tree source [] source
  | field
      {id parent : NodeId}
      {name : String}
      {names : List String}
      (found : tree.node? id = some (.path parent name))
      (reads : ReadsFrom tree source names parent) :
      ReadsFrom tree source (names ++ [name]) id

/-- A path that is read from a source of its statement, one that stands for what the head of the
path means there. -/
structure ScopedPath
    (tree : Tree)
    (place : Place)
    (text : String)
    (id : NodeId) : Prop where
  exists_source : ∃ head fields source, Drafting.segments text = head :: fields ∧
    tree.ReadsFrom source fields id ∧ tree.HasSource place.statement source ∧
    tree.Means place.tables head source

mutual

/-- An expression of a document that has become a node. Each path of it is scoped where it is
written. -/
inductive ScopedExpression (tree : Tree) : Place -> Expression -> NodeId -> Prop
  | path
      {place : Place}
      {text : String}
      {id : NodeId}
      (reads : tree.ScopedPath place text id) :
      ScopedExpression tree place (.path text) id
  | parameter
      {place : Place}
      {name : String}
      {id : NodeId}
      (found : tree.node? id = some (.parameter (some name))) :
      ScopedExpression tree place (.parameter name) id
  | anonymous
      {place : Place}
      {label : String}
      {id : NodeId}
      (found : tree.node? id = some (.parameter none)) :
      ScopedExpression tree place (.anonymous label) id
  | literal
      {place : Place}
      {value : Literal}
      {id : NodeId}
      (found : tree.node? id = some (.literal value)) :
      ScopedExpression tree place (.literal value) id
  | treat
      {place : Place}
      {target : Expression}
      {asType : String}
      {id inner : NodeId}
      (found : tree.node? id = some (.treat inner asType))
      (inside : ScopedExpression tree place target inner) :
      ScopedExpression tree place (.treat target asType) id
  | subquery
      {place : Place}
      {written : Document.Statement}
      {id : NodeId}
      {body : Statement}
      (found : tree.node? id = some (.statement body))
      (within : body.parent = some place.statement)
      (inside : ScopedStatement tree place.tables written id) :
      ScopedExpression tree place (.subquery written) id
  | tuple
      {place : Place}
      {items : List Expression}
      {id : NodeId}
      {operands : List NodeId}
      (found : tree.node? id = some (.expression .tuple operands))
      (inside : ScopedExpressions tree place items operands) :
      ScopedExpression tree place (.tuple items) id
  | apply
      {place : Place}
      {name : String}
      {operator : Operator}
      {items : List Expression}
      {id : NodeId}
      {operands : List NodeId}
      (named : Operator.ofText? name = some operator)
      (found : tree.node? id = some (.expression operator operands))
      (inside : ScopedExpressions tree place items operands) :
      ScopedExpression tree place (.apply name items) id

/-- A statement of a document that has become a node, inside statements with some tables. Each
source that it correlates has a name of its own, which the statement does not declare. -/
inductive ScopedStatement (tree : Tree) : List Table -> Document.Statement -> NodeId -> Prop
  | mk
      {tables : List Table}
      {written : Document.Statement}
      {id : NodeId}
      {body : Statement}
      {joins : List NodeId}
      {own correlated : Table}
      (found : tree.node? id = some (.statement body))
      (sources : tree.Rooted written.sources body.roots joins)
      (declares : own = declaredTable written.sources body.roots joins)
      (correlates : correlated.map Prod.snd = body.correlations)
      (distinct : (own ++ correlated).names.Nodup)
      (means : ∀ entry ∈ correlated, tree.Means tables entry.1 entry.2)
      (conditions : ScopedRoots tree ⟨id, own :: tables⟩ written.sources joins)
      (selection : ScopedExpressions tree ⟨id, own :: tables⟩ written.selection body.selection)
      (restriction : ScopedOption tree ⟨id, own :: tables⟩ written.restriction body.restriction)
      (groups : ScopedExpressions tree ⟨id, own :: tables⟩ written.groupBy body.groupList)
      (having : ScopedOption tree ⟨id, own :: tables⟩ written.having body.groupRestriction)
      (orders : ScopedOrders tree ⟨id, own :: tables⟩ written.orderBy body.orderList)
      (assignments :
        ScopedAssignments tree ⟨id, own :: tables⟩ written.assignments body.assignments) :
      ScopedStatement tree tables written id

/-- Expressions, one after another. -/
inductive ScopedExpressions (tree : Tree) : Place -> List Expression -> List NodeId -> Prop
  | nil {place : Place} : ScopedExpressions tree place [] []
  | cons
      {place : Place}
      {item : Expression}
      {items : List Expression}
      {id : NodeId}
      {ids : List NodeId}
      (first : ScopedExpression tree place item id)
      (rest : ScopedExpressions tree place items ids) :
      ScopedExpressions tree place (item :: items) (id :: ids)

/-- An expression that may be absent. -/
inductive ScopedOption (tree : Tree) : Place -> Option Expression -> Option NodeId -> Prop
  | none {place : Place} : ScopedOption tree place none none
  | some
      {place : Place}
      {item : Expression}
      {id : NodeId}
      (inside : ScopedExpression tree place item id) :
      ScopedOption tree place (some item) (some id)

/-- The terms of an order. -/
inductive ScopedOrders (tree : Tree) : Place -> List Document.Order -> List NodeId -> Prop
  | nil {place : Place} : ScopedOrders tree place [] []
  | cons
      {place : Place}
      {term : Document.Order}
      {terms : List Document.Order}
      {id inner : NodeId}
      {ids : List NodeId}
      (found : tree.node? id = some (.order inner term.ascending))
      (first : ScopedExpression tree place term.expression inner)
      (rest : ScopedOrders tree place terms ids) :
      ScopedOrders tree place (term :: terms) (id :: ids)

/-- Assignments, with the paths that are assigned to. -/
inductive ScopedAssignments (tree : Tree) :
    Place -> List Document.Assignment -> List NodeId -> Prop
  | nil {place : Place} : ScopedAssignments tree place [] []
  | cons
      {place : Place}
      {change : Document.Assignment}
      {changes : List Document.Assignment}
      {id target value : NodeId}
      {ids : List NodeId}
      (found : tree.node? id = some (.assignment target value))
      (assigned : tree.ScopedPath place change.target target)
      (first : ScopedExpression tree place change.value value)
      (rest : ScopedAssignments tree place changes ids) :
      ScopedAssignments tree place (change :: changes) (id :: ids)

/-- The conditions of joins, each before those of the joins below. -/
inductive ScopedJoins (tree : Tree) : Place -> List Document.Join -> List NodeId -> Prop
  | nil {place : Place} : ScopedJoins tree place [] []
  | cons
      {place : Place}
      {join : Document.Join}
      {joins : List Document.Join}
      {id : NodeId}
      {below later : List NodeId}
      (condition : ScopedOption tree place join.on (tree.condition? id))
      (nested : ScopedJoins tree place join.joins below)
      (others : ScopedJoins tree place joins later) :
      ScopedJoins tree place (join :: joins) (id :: below ++ later)

/-- The conditions of all joins below root sources. -/
inductive ScopedRoots (tree : Tree) : Place -> List Document.Root -> List NodeId -> Prop
  | nil {place : Place} : ScopedRoots tree place [] []
  | cons
      {place : Place}
      {root : Document.Root}
      {roots : List Document.Root}
      {below later : List NodeId}
      (nested : ScopedJoins tree place root.joins below)
      (others : ScopedRoots tree place roots later) :
      ScopedRoots tree place (root :: roots) (below ++ later)

end

end Tree
end QueryGraph
