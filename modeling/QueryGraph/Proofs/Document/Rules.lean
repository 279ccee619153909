import QueryGraph.Proofs.Document.Sources

/-!
# What the parts of a document yield

One rule for each construct of a document says what it yields in the tree, given what its parts
yield. An expression yields its forms inside the open statement, and changes no outline. A clause
adds what it yields to its statement.
-/

namespace QueryGraph

open Operation

namespace Document

variable {draft before between after : Draft} {closed : NodeId -> Prop} {statement id : NodeId}
  {first next : Nat} {ids more : List NodeId} {forms others : List Form}

namespace Draft

/-! ## Forms and marks -/

/-- A form of a document and the mark that a visit to it leaves. -/
inductive Denotes (draft : Draft) : Form -> Mark -> Prop
  | path
      {id : NodeId}
      {written : Expression}
      (spells : draft.tree.Spells id written) :
      Denotes draft (.path written) (.path id)
  | named (name : String) : Denotes draft (.named name) (.named name)
  | anonymous
      {label : String}
      {id : NodeId}
      (found : draft.labels.lookup label = some id) :
      Denotes draft (.anonymous label) (.anonymous id)
  | literal
      (value : Literal)
      (id : NodeId) :
      Denotes draft (.literal value) (.literal id value)

theorem Denotes.of_evolves
    {form : Form}
    {mark : Mark}
    (denotes : before.Denotes form mark)
    (evolves : before.tree.Evolves after.tree)
    (labels : ∀ label id, before.labels.lookup label = some id ->
      after.labels.lookup label = some id) :
    after.Denotes form mark := by
  cases denotes with
  | path spells => exact .path (spells.of_evolves evolves)
  | named name => exact .named name
  | anonymous found => exact .anonymous (labels _ _ found)
  | literal value id => exact .literal value id

/-- A leaf of a document and the mark that a visit to it leaves. -/
inductive Means (draft : Draft) : Leaf -> Mark -> Prop
  | path (id : NodeId) : Means draft .path (.path id)
  | named (name : String) : Means draft (.named name) (.named name)
  | anonymous
      {label : String}
      {id : NodeId}
      (found : draft.labels.lookup label = some id) :
      Means draft (.anonymous label) (.anonymous id)
  | literal
      (value : Literal)
      (id : NodeId) :
      Means draft (.literal value) (.literal id value)

theorem Denotes.means
    {form : Form}
    {mark : Mark}
    (denotes : draft.Denotes form mark) :
    draft.Means form.leaf mark := by
  cases denotes with
  | @path id _ _ => exact .path id
  | named name => exact .named name
  | anonymous found => exact .anonymous found
  | literal value id => exact .literal value id

/-- Nodes that yield some forms of the document inside a statement. -/
def Yields
    (draft : Draft)
    (first : Nat)
    (statement : NodeId)
    (ids : List NodeId)
    (forms : List Form) : Prop :=
  ∃ marks, List.Forall₂ draft.Denotes forms marks ∧ draft.tree.Yields first statement ids marks

namespace Yields

theorem nil : draft.Yields first statement [] [] := ⟨[], .nil, .nil⟩

theorem append
    (yields : draft.Yields first statement ids forms)
    (yieldsMore : draft.Yields first statement more others) :
    draft.Yields first statement (ids ++ more) (forms ++ others) := by
  obtain ⟨marks, denotes, yields⟩ := yields
  obtain ⟨otherMarks, otherMeans, yieldsMore⟩ := yieldsMore
  exact ⟨marks ++ otherMarks, List.rel_append denotes otherMeans, yields.append yieldsMore⟩

theorem of_grows
    (yields : before.Yields first statement ids forms)
    (grows : before.Grows closed after)
    (isClosed : ∀ id, id.index < before.tree.size -> first ≤ id.index -> closed id) :
    after.Yields first statement ids forms := by
  obtain ⟨marks, denotes, yields⟩ := yields
  exact ⟨marks, denotes.imp fun _ _ same => same.of_evolves grows.evolves grows.labels,
    yields.of_keeps grows.evolves (grows.keeps.mono isClosed)⟩

theorem lower
    (yields : draft.Yields next statement ids forms)
    (le : first ≤ next) :
    draft.Yields first statement ids forms := by
  obtain ⟨marks, denotes, yields⟩ := yields
  exact ⟨marks, denotes, yields.lower le⟩

end Yields

/-- A statement that yields some forms of the document. -/
def YieldsStatement
    (draft : Draft)
    (statement : NodeId)
    (forms : List Form) : Prop :=
  ∃ marks, List.Forall₂ draft.Denotes forms marks ∧ draft.tree.YieldsStatement statement marks

/-! ## Results -/

/-- An expression that was made inside the open statement. -/
structure Expresses
    (before : Draft)
    (statement id : NodeId)
    (forms : List Form)
    (after : Draft) : Prop where
  grows : before.Grows (fun _ => True) after
  yields : after.Yields before.tree.size statement [id] forms
  /-- A source or a path belongs to the open statement, and is one form. -/
  path : after.tree.HasPathLike id -> after.tree.Reaches statement id ∧
    ∃ written, after.tree.Spells id written ∧ forms = [.path written]

/-- Expressions that were made inside the open statement. -/
structure Lists
    (before : Draft)
    (statement : NodeId)
    (ids : List NodeId)
    (forms : List Form)
    (after : Draft) : Prop where
  grows : before.Grows (fun _ => True) after
  yields : after.Yields before.tree.size statement ids forms

end Draft

namespace Drafting

/-! ## Expressions -/

/-- An action that makes an expression with some forms. -/
def Expresses
    (action : Drafting NodeId)
    (forms : List Form) : Prop :=
  ∀ ⦃before after : Draft⦄ ⦃statement id : NodeId⦄, before.Inside statement -> before.Sound ->
    action before = .ok id after -> before.Expresses statement id forms after

/-- An action that makes several expressions. -/
def Lists
    (action : Drafting (List NodeId))
    (forms : List Form) : Prop :=
  ∀ ⦃before after : Draft⦄ ⦃statement : NodeId⦄ ⦃ids : List NodeId⦄, before.Inside statement ->
    before.Sound -> action before = .ok ids after -> before.Lists statement ids forms after

theorem expresses_path (text : String) : Expresses (path text) [.path (.path text)] := by
  intro before after statement id inside sound done
  obtain ⟨grows, reaches, spells⟩ := of_path inside sound done
  exact ⟨grows, ⟨[.path id], .cons (.path spells) .nil, Tree.yields_of_reaches reaches⟩,
    fun _ => ⟨reaches, _, spells, rfl⟩⟩

/-- A placeholder or a constant is a form of its own. -/
theorem expresses_of_node
    {node : Node}
    {form : Form}
    {mark : Mark}
    (grows : before.Grows (fun _ => True) after)
    (found : after.tree.node? id = some node)
    (isFinal : node.isFinal = true)
    (noPath : node.isPathLike = false)
    (single : node.parts = [])
    (marked : node.mark? id = some mark)
    (denotes : after.Denotes form mark) :
    before.Expresses statement id [form] after where
  grows := grows
  yields := by
    have yields : after.tree.Yields before.tree.size statement [id]
        ((node.mark? id).toList ++ []) :=
      Tree.yields_of_isFinal found isFinal noPath (by simp [single]) (by rw [single]; exact .nil)
    rw [marked] at yields
    exact ⟨[mark], .cons denotes .nil, yields⟩
  path isPathLike := by
    obtain ⟨other, again, contrary⟩ := isPathLike
    rw [found] at again
    cases again
    rw [noPath] at contrary
    cases contrary

theorem expresses_parameter (name : String) : Expresses (parameter name) [.named name] := by
  intro before after statement id _ sound done
  obtain ⟨grows, found⟩ := of_parameter sound done
  exact expresses_of_node grows found rfl rfl rfl rfl (.named name)

theorem expresses_anonymous (label : String) : Expresses (anonymous label) [.anonymous label] := by
  intro before after statement id _ sound done
  obtain ⟨grows, listed, found⟩ := of_anonymous sound done
  exact expresses_of_node grows found rfl rfl rfl rfl (.anonymous listed)

theorem expresses_literal (value : Literal) :
    Expresses (onTree (Build.literal value)) [.literal value] := by
  intro before after statement id _ _ done
  obtain ⟨tree, built, rfl⟩ := onTree_eq_ok done
  obtain ⟨grows, found⟩ := Build.of_literal built
  exact expresses_of_node (.onTree grows) found rfl rfl rfl rfl (.literal value id)

theorem expresses_treat
    {action : Drafting NodeId}
    (expresses : Expresses action forms)
    (asType : String) :
    Expresses (do onTree (Build.treat (← action) asType)) (forms.map (Form.treated asType)) := by
  intro before after statement id inside sound done
  obtain ⟨target, between, made, built⟩ := bind_eq_ok.mp done
  obtain ⟨tree, treated, rfl⟩ := onTree_eq_ok built
  obtain ⟨isPathLike, grown, found⟩ := Build.of_treat treated
  have grows : between.Grows (fun _ => True) { between with tree := tree } := .onTree grown
  have inner := expresses inside sound made
  obtain ⟨reaches, written, spells, rfl⟩ := inner.path isPathLike
  have orderly := ((inner.grows.trans grows).sound sound).orderly
  have reachesLater : tree.Reaches statement id :=
    (reaches.of_evolves grows.evolves).step orderly.placed (Or.inr ⟨asType, found⟩)
  have spellsLater : tree.Spells id (.treat written asType) :=
    .treat found (spells.of_evolves grows.evolves)
  exact ⟨inner.grows.trans grows,
    ⟨[.path id], .cons (.path spellsLater) .nil, Tree.yields_of_reaches reachesLater⟩,
    fun _ => ⟨reachesLater, _, spellsLater, rfl⟩⟩

theorem expresses_expression
    {action : Drafting (List NodeId)}
    (lists : Lists action forms)
    (operator : Operator) :
    Expresses (do onTree (Build.expression operator (← action))) forms := by
  intro before after statement id inside sound done
  obtain ⟨operands, between, made, built⟩ := bind_eq_ok.mp done
  obtain ⟨tree, applied, rfl⟩ := onTree_eq_ok built
  obtain ⟨rfl, areExpressions, grown, found⟩ := Build.of_expression applied
  have grows : between.Grows (fun _ => True) { between with tree := tree } := .onTree grown
  have inner := lists inside sound made
  obtain ⟨marks, denotes, yields⟩ := inner.yields.of_grows grows fun _ _ _ => trivial
  refine ⟨inner.grows.trans grows, ⟨marks, denotes, ?_⟩, ?_⟩
  · exact Tree.yields_of_isFinal found rfl rfl
      (fun operand member => (areExpressions operand member).lt_size) yields
  · rintro ⟨other, again, contrary⟩
    rw [show tree.node? _ = _ from found] at again
    cases again
    cases contrary

theorem expresses_apply
    {action : Drafting (List NodeId)}
    (lists : Lists action forms)
    (name : String) :
    Expresses (do
      let operator ← operator name
      onTree (Build.expression operator (← action))) forms := by
  intro before after statement id inside sound done
  obtain ⟨known, between, named, rest⟩ := bind_eq_ok.mp done
  unfold operator at named
  cases read : Operator.ofText? name with
  | none =>
      rw [read] at named
      cases named
  | some found =>
      rw [read] at named
      cases named
      exact expresses_expression lists known inside sound rest

theorem lists_nil : Lists (pure []) [] := by
  intro before after statement ids _ _ done
  cases done
  exact ⟨.refl _ _, .nil⟩

theorem lists_cons
    {action : Drafting NodeId}
    {rest : Drafting (List NodeId)}
    (expresses : Expresses action forms)
    (lists : Lists rest others) :
    Lists (do
      let first ← action
      return first :: (← rest)) (forms ++ others) := by
  intro before after statement ids inside sound done
  obtain ⟨first, between, made, remaining⟩ := bind_eq_ok.mp done
  obtain ⟨more, last, listed, same⟩ := bind_eq_ok.mp remaining
  cases same
  have head := expresses inside sound made
  have tail := lists (head.grows.inside inside) (head.grows.sound sound) listed
  have le : before.tree.size ≤ between.tree.size := head.grows.evolves.size_le
  exact ⟨head.grows.trans tail.grows,
    (head.yields.of_grows tail.grows fun _ _ _ => trivial).append (tail.yields.lower le)⟩

end Drafting
end Document
end QueryGraph
