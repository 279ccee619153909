import QueryGraph.Graph.Declarations

/-!
# What an edge is made of

Declared joins, navigations through a relation and declared fetches ask for the vertices of a
join graph. The edge that leads to a vertex aggregates what the contributors that came to share
it say, and does not depend on the order in which they came.
-/

namespace QueryGraph

/-- What a source declares about its join. -/
structure JoinDeclaration where
  parent : NodeId
  field : String
  direction : JoinDirection
  mode : JoinMode
  aliasHint : Option String
  on : Option NodeId
  deriving DecidableEq, Repr

/-- The join that a source declares. -/
def Source.join? (source : Source) : Option JoinDeclaration :=
  match source.kind with
  | .join parent field direction mode on =>
      some ⟨parent, field, direction, mode, source.aliasHint, on⟩
  | _ => none

namespace Tree

/-- The join that is declared at a node. -/
def join? (tree : Tree) (id : NodeId) : Option JoinDeclaration :=
  match tree.node? id with
  | some (.source body) => body.join?
  | _ => none

/-- The fetch that is declared at a node. -/
def fetch? (tree : Tree) (id : NodeId) : Option Fetch :=
  match tree.node? id with
  | some (.fetch body) => some body
  | _ => none

theorem join?_eq_some
    {tree : Tree}
    {id : NodeId}
    {declared : JoinDeclaration} :
    tree.join? id = some declared ↔
      ∃ body, tree.node? id = some (.source body) ∧
        body.kind = .join declared.parent declared.field declared.direction declared.mode
          declared.on ∧
        body.aliasHint = declared.aliasHint := by
  unfold join?
  cases tree.node? id with
  | none => simp
  | some node =>
      cases node with
      | source body =>
          obtain ⟨parent, field, direction, mode, aliasHint, on⟩ := declared
          cases kind : body.kind with
          | join => simp [Source.join?, kind, and_left_comm, and_comm]
          | _ => simp [Source.join?, kind]
      | _ => simp

theorem fetch?_eq_some
    {tree : Tree}
    {id : NodeId}
    {declared : Fetch} :
    tree.fetch? id = some declared ↔ tree.node? id = some (.fetch declared) := by
  unfold fetch?
  cases tree.node? id with
  | none => simp
  | some node => cases node <;> simp

end Tree

/-- What asks for a vertex. -/
inductive Contributor
  /-- A declared join. -/
  | join
      (source : NodeId)
      (declared : JoinDeclaration)
  /-- A path that goes on through a relation. -/
  | navigation (field : String)
  /-- A declared fetch. -/
  | fetch
      (fetch : NodeId)
      (declared : Fetch)
  deriving DecidableEq, Repr

namespace Contributor

/-- The relation that leads to the vertex. -/
def field : Contributor -> String
  | .join _ declared => declared.field
  | .navigation field => field
  | .fetch _ declared => declared.field

/-- The direction that is asked for. A navigation needs a partner. -/
def direction : Contributor -> JoinDirection
  | .join _ declared => declared.direction
  | .navigation _ => .inner
  | .fetch _ declared => declared.direction

/-- The mode that is asked for. Only a declared join has one of its own. -/
def mode : Contributor -> JoinMode
  | .join _ declared => declared.mode
  | .navigation _ => .optionallyMergeExisting
  | .fetch _ _ => .optionallyMergeExisting

/-- The alias that is suggested. -/
def aliasHint : Contributor -> Option String
  | .join _ declared => declared.aliasHint
  | .navigation _ => none
  | .fetch _ _ => none

/-- The condition that the edge is to carry. -/
def on : Contributor -> Option NodeId
  | .join _ declared => declared.on
  | .navigation _ => none
  | .fetch _ _ => none

/-- Whether a join is declared. -/
def isJoin : Contributor -> Bool
  | .join _ _ => true
  | _ => false

/-- Whether a fetch is declared. -/
def isFetch : Contributor -> Bool
  | .fetch _ _ => true
  | _ => false

/-- Whether the vertex is part of the result, whatever refers to it. -/
def keeps (contributor : Contributor) : Bool :=
  contributor.mode.isRequired || contributor.on.isSome || contributor.isFetch

/-- Whether the edge may not be shared with any other contributor. -/
def isExclusive (contributor : Contributor) : Bool :=
  contributor.mode.isNew || contributor.on.isSome

/-- The edge of a contributor alone. -/
def edge
    (contributor : Contributor)
    (recordType : String)
    (statement : NodeId)
    (parent : VertexId) : Vertex where
  recordType := recordType
  field := some contributor.field
  direction := contributor.direction
  mode := contributor.mode
  on := contributor.on
  aliasHint := contributor.aliasHint
  parent := some parent
  statement := statement

/-- An edge after a contributor has come to share it. -/
def share
    (contributor : Contributor)
    (edge : Vertex) : Vertex :=
  { edge with
    direction := edge.direction.merge contributor.direction
    mode := if contributor.mode.isRequired then edge.mode.toRequired else edge.mode
    aliasHint := contributor.aliasHint.or edge.aliasHint }

/-- Sharing an edge does not change the family of its mode. -/
theorem isNew_share
    (contributor : Contributor)
    (edge : Vertex) :
    (contributor.share edge).mode.isNew = edge.mode.isNew := by
  unfold share
  simp only
  split
  · exact JoinMode.isNew_toRequired edge.mode
  · rfl

/-- A contributor may share an edge. -/
structure Fits
    (contributor : Contributor)
    (edge : Vertex) : Prop where
  field : edge.field = some contributor.field
  shared : edge.mode.isNew = false
  free : edge.on = none
  inclusive : contributor.isExclusive = false
  aliasHint : ∀ {existing requested}, edge.aliasHint = some existing ->
    contributor.aliasHint = some requested -> existing = requested

theorem isExclusive_eq_false
    {contributor : Contributor} :
    contributor.isExclusive = false ↔
      contributor.mode.isNew = false ∧ contributor.on = none := by
  simp [isExclusive]

/-- Only a declared join has demands of its own. -/
theorem eq_join
    {contributor : Contributor}
    (demanding : contributor.mode.isRequired = true ∨ contributor.aliasHint.isSome = true ∨
      contributor.isExclusive = true) :
    ∃ source declared, contributor = .join source declared := by
  cases contributor with
  | join source declared => exact ⟨source, declared, rfl⟩
  | navigation field => rcases demanding with contrary | contrary | contrary <;> cases contrary
  | fetch fetch declared => rcases demanding with contrary | contrary | contrary <;> cases contrary

end Contributor

/-- A mode is known by its family and by whether it is required. -/
theorem JoinMode.eq_of_flags
    {first second : JoinMode}
    (isNew : first.isNew = second.isNew)
    (isRequired : first.isRequired = second.isRequired) :
    first = second := by
  cases first <;> cases second <;> simp_all [JoinMode.isNew, JoinMode.isRequired]

/-- An edge says what its contributors say together. -/
structure Aggregates
    (asked : Contributor -> Prop)
    (edge : Vertex) : Prop where
  inhabited : ∃ contributor, asked contributor
  field : ∀ {contributor}, asked contributor -> edge.field = some contributor.field
  agreed : ∀ {direction}, (∀ contributor, asked contributor ->
    contributor.direction = direction) -> edge.direction = direction
  disagreed : ∀ {first second}, asked first -> asked second ->
    first.direction ≠ second.direction -> edge.direction = .inner
  aliasHint : ∀ {name}, edge.aliasHint = some name ↔
    ∃ contributor, asked contributor ∧ contributor.aliasHint = some name
  on : ∀ {condition}, edge.on = some condition ↔
    ∃ contributor, asked contributor ∧ contributor.on = some condition
  isNew : ∀ {contributor}, asked contributor -> contributor.mode.isNew = edge.mode.isNew
  isRequired : edge.mode.isRequired = true ↔
    ∃ contributor, asked contributor ∧ contributor.mode.isRequired = true
  alone : ∀ {first second}, asked first -> asked second -> first.isExclusive = true ->
    second = first

namespace Aggregates

variable {asked later : Contributor -> Prop} {edge : Vertex} {contributor : Contributor}

/-- An edge of its own says what its only contributor says. -/
theorem single
    {recordType : String}
    {statement : NodeId}
    {parent : VertexId}
    (only : ∀ other, asked other ↔ other = contributor) :
    Aggregates asked (contributor.edge recordType statement parent) where
  inhabited := ⟨contributor, (only _).mpr rfl⟩
  field asks := by
    cases (only _).mp asks
    rfl
  agreed same := same contributor ((only _).mpr rfl)
  disagreed first second differs := by
    cases (only _).mp first
    cases (only _).mp second
    exact absurd rfl differs
  aliasHint := by simp [only, Contributor.edge]
  on := by simp [only, Contributor.edge]
  isNew asks := by
    cases (only _).mp asks
    rfl
  isRequired := by simp [only, Contributor.edge]
  alone first second _ := by rw [(only _).mp first, (only _).mp second]

/-- An edge with a condition, or one that creates a new edge, fits no contributor. -/
theorem isExclusive_eq_false
    {member : Contributor}
    (aggregates : Aggregates asked edge)
    (fits : contributor.Fits edge)
    (asks : asked member) :
    member.isExclusive = false := by
  refine Contributor.isExclusive_eq_false.mpr ⟨?_, ?_⟩
  · rw [aggregates.isNew asks, fits.shared]
  · cases condition : member.on with
    | none => rfl
    | some node =>
        have carried := aggregates.on.mpr ⟨member, asks, condition⟩
        rw [fits.free] at carried
        cases carried

/-- Contributors that share an edge may share it. -/
theorem isExclusive_eq_false_of_ne
    {first second : Contributor}
    (aggregates : Aggregates asked edge)
    (firstAsks : asked first)
    (secondAsks : asked second)
    (differs : first ≠ second) :
    first.isExclusive = false := by
  cases exclusive : first.isExclusive with
  | false => rfl
  | true => exact absurd (aggregates.alone firstAsks secondAsks exclusive).symm differs

/-- An edge has the direction of a contributor, or is inner. -/
theorem direction_eq_or
    (aggregates : Aggregates asked edge)
    (asks : asked contributor) :
    edge.direction = contributor.direction ∨ edge.direction = .inner := by
  by_cases common : ∀ other, asked other -> other.direction = contributor.direction
  · exact Or.inl (aggregates.agreed common)
  · obtain ⟨other, differs⟩ := Classical.not_forall.mp common
    obtain ⟨otherAsks, apart⟩ := Classical.not_imp.mp differs
    exact Or.inr (aggregates.disagreed otherAsks asks apart)

/-- A shared edge says what its contributors and the new one say together. -/
theorem share
    (aggregates : Aggregates asked edge)
    (fits : contributor.Fits edge)
    (joined : ∀ other, later other ↔ asked other ∨ other = contributor) :
    Aggregates later (contributor.share edge) where
  inhabited := ⟨contributor, (joined _).mpr (Or.inr rfl)⟩
  field asks := by
    rcases (joined _).mp asks with old | rfl
    · exact aggregates.field old
    · exact fits.field
  agreed {direction} same := by
    have before : edge.direction = direction :=
      aggregates.agreed fun other asks => same other ((joined _).mpr (Or.inl asks))
    have now : contributor.direction = direction := same contributor ((joined _).mpr (Or.inr rfl))
    change edge.direction.merge contributor.direction = direction
    rw [before, now, JoinDirection.merge_self]
  disagreed {first second} firstAsks secondAsks differs := by
    -- Two old contributors settle the matter; otherwise one of them is the new one.
    change edge.direction.merge contributor.direction = .inner
    have withOld : ∀ {old}, asked old -> old.direction ≠ contributor.direction ->
        edge.direction.merge contributor.direction = .inner := by
      intro old asks apart
      rcases aggregates.direction_eq_or asks with same | inner
      · rw [same]
        exact if_neg apart
      · rw [inner, JoinDirection.inner_merge]
    rcases (joined _).mp firstAsks with oldFirst | rfl
    · rcases (joined _).mp secondAsks with oldSecond | rfl
      · rw [aggregates.disagreed oldFirst oldSecond differs, JoinDirection.inner_merge]
      · exact withOld oldFirst differs
    · rcases (joined _).mp secondAsks with oldSecond | rfl
      · exact withOld oldSecond differs.symm
      · exact absurd rfl differs
  aliasHint {name} := by
    simp only [joined, or_and_right, exists_or, exists_eq_left, ← aggregates.aliasHint]
    change contributor.aliasHint.or edge.aliasHint = some name ↔ _
    cases requested : contributor.aliasHint with
    | none => simp
    | some wanted =>
        simp only [Option.some_or, Option.some.injEq]
        constructor
        · exact Or.inr
        · rintro (existing | same)
          · exact (fits.aliasHint existing requested).symm
          · exact same
  on {condition} := by
    have free := (Contributor.isExclusive_eq_false.mp fits.inclusive).2
    simp only [joined, or_and_right, exists_or, exists_eq_left, ← aggregates.on, free, reduceCtorEq,
      or_false]
    rfl
  isNew asks := by
    rw [contributor.isNew_share]
    rcases (joined _).mp asks with old | rfl
    · exact aggregates.isNew old
    · rw [(Contributor.isExclusive_eq_false.mp fits.inclusive).1, fits.shared]
  isRequired := by
    simp only [joined, or_and_right, exists_or, exists_eq_left, ← aggregates.isRequired]
    unfold Contributor.share
    simp only
    split
    · next required => simp [required]
    · next optional => simp [optional]
  alone first second exclusive := by
    rcases (joined _).mp first with old | rfl
    · rw [aggregates.isExclusive_eq_false fits old] at exclusive
      cases exclusive
    · rw [fits.inclusive] at exclusive
      cases exclusive

/-- A contributor keeps the vertex when the edge is required or carries a condition, or when it
is a fetch. -/
theorem exists_keeps_iff
    (aggregates : Aggregates asked edge) :
    (∃ contributor, asked contributor ∧ contributor.keeps = true) ↔
      edge.mode.isRequired = true ∨ edge.on.isSome = true ∨
        ∃ contributor, asked contributor ∧ contributor.isFetch = true := by
  have conditioned : edge.on.isSome = true ↔
      ∃ contributor, asked contributor ∧ contributor.on.isSome = true := by
    simp only [Option.isSome_iff_exists, aggregates.on]
    constructor
    · rintro ⟨condition, contributor, asks, declared⟩
      exact ⟨contributor, asks, condition, declared⟩
    · rintro ⟨contributor, asks, condition, declared⟩
      exact ⟨condition, contributor, asks, declared⟩
  rw [aggregates.isRequired, conditioned]
  simp only [Contributor.keeps, Bool.or_eq_true, and_or_left, exists_or, or_assoc]

/-- The mode of an edge that creates a new one is the declared mode. -/
theorem mode_eq
    (aggregates : Aggregates asked edge)
    (asks : asked contributor)
    (exclusive : contributor.isExclusive = true) :
    edge.mode = contributor.mode := by
  refine JoinMode.eq_of_flags (aggregates.isNew asks).symm (Bool.eq_iff_iff.mpr ?_)
  rw [aggregates.isRequired]
  constructor
  · rintro ⟨other, otherAsks, required⟩
    rwa [aggregates.alone asks otherAsks exclusive] at required
  · exact fun required => ⟨contributor, asks, required⟩

/-- An edge has the alias that its joins suggest. -/
theorem aliasHint_iff_join
    (aggregates : Aggregates asked edge)
    {name : String} :
    edge.aliasHint = some name ↔
      ∃ source declared, asked (.join source declared) ∧ declared.aliasHint = some name := by
  rw [aggregates.aliasHint]
  constructor
  · rintro ⟨contributor, asks, suggested⟩
    obtain ⟨source, declared, rfl⟩ :=
      Contributor.eq_join (Or.inr (Or.inl (Option.isSome_iff_exists.mpr ⟨name, suggested⟩)))
    exact ⟨source, declared, asks, suggested⟩
  · rintro ⟨source, declared, asks, suggested⟩
    exact ⟨_, asks, suggested⟩

/-- An edge is required when one of its joins is. -/
theorem isRequired_iff_join
    (aggregates : Aggregates asked edge) :
    edge.mode.isRequired = true ↔
      ∃ source declared, asked (.join source declared) ∧ declared.mode.isRequired = true := by
  rw [aggregates.isRequired]
  constructor
  · rintro ⟨contributor, asks, required⟩
    obtain ⟨source, declared, rfl⟩ := Contributor.eq_join (Or.inl required)
    exact ⟨source, declared, asks, required⟩
  · rintro ⟨source, declared, asks, required⟩
    exact ⟨_, asks, required⟩

/-- When no join asks for an edge of its own, the edge merges. -/
theorem mode_eq_or
    (aggregates : Aggregates asked edge)
    (shared : ∀ source declared, asked (.join source declared) -> declared.mode.isNew = false) :
    edge.mode = .requiredToMergeExisting ∧ edge.mode.isRequired = true ∨
      edge.mode = .optionallyMergeExisting ∧ edge.mode.isRequired = false := by
  obtain ⟨contributor, asks⟩ := aggregates.inhabited
  have family : edge.mode.isNew = false := by
    rw [← aggregates.isNew asks]
    cases contributor with
    | join source declared => exact shared source declared asks
    | navigation field => rfl
    | fetch fetch declared => rfl
  cases mode : edge.mode with
  | optionallyMergeExisting => exact Or.inr ⟨rfl, rfl⟩
  | requiredToMergeExisting => exact Or.inl ⟨rfl, rfl⟩
  | _ =>
      rw [mode] at family
      cases family

/-- An edge that may not be shared is as its only contributor declares it. -/
theorem eq_of_isExclusive
    (aggregates : Aggregates asked edge)
    (asks : asked contributor)
    (exclusive : contributor.isExclusive = true) :
    edge.direction = contributor.direction ∧ edge.mode = contributor.mode ∧
      edge.aliasHint = contributor.aliasHint ∧ edge.on = contributor.on := by
  have only : ∀ other, asked other -> other = contributor := fun other otherAsks =>
    aggregates.alone asks otherAsks exclusive
  have unique : ∀ {value : Contributor -> Prop},
      (∃ other, asked other ∧ value other) ↔ value contributor := by
    intro value
    constructor
    · rintro ⟨other, otherAsks, holds⟩
      rwa [only other otherAsks] at holds
    · exact fun holds => ⟨contributor, asks, holds⟩
  refine ⟨?_, aggregates.mode_eq asks exclusive, ?_, ?_⟩
  · exact aggregates.agreed fun other otherAsks => by rw [only other otherAsks]
  · exact Option.ext fun name => by rw [aggregates.aliasHint, unique]
  · exact Option.ext fun condition => by rw [aggregates.on, unique]

/-- An edge that carries a condition, or that creates a new one, has an exclusive
contributor. -/
theorem exists_isExclusive
    (aggregates : Aggregates asked edge)
    (isolated : edge.on.isSome = true ∨ edge.mode.isNew = true) :
    ∃ contributor, asked contributor ∧ contributor.isExclusive = true := by
  rcases isolated with conditioned | isNew
  · obtain ⟨condition, carried⟩ := Option.isSome_iff_exists.mp conditioned
    obtain ⟨contributor, asks, declared⟩ := aggregates.on.mp carried
    exact ⟨contributor, asks, by simp [Contributor.isExclusive, declared]⟩
  · obtain ⟨contributor, asks⟩ := aggregates.inhabited
    have family := aggregates.isNew asks
    exact ⟨contributor, asks, by simp [Contributor.isExclusive, family, isNew]⟩

/-- The only contributor of an edge that is not shared is a declared join. -/
theorem exists_only_join
    (aggregates : Aggregates asked edge)
    (isolated : edge.on.isSome = true ∨ edge.mode.isNew = true) :
    ∃ source declared, asked (.join source declared) ∧
      (Contributor.join source declared).isExclusive = true := by
  obtain ⟨contributor, asks, exclusive⟩ := aggregates.exists_isExclusive isolated
  obtain ⟨source, declared, rfl⟩ := Contributor.eq_join (Or.inr (Or.inr exclusive))
  exact ⟨source, declared, asks, exclusive⟩

end Aggregates
end QueryGraph
