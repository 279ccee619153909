import QueryGraph.Proofs.Walk.Marks

/-!
# What a walk has recorded

A walk records a path and a constant as often as it meets them, the name of a placeholder when it
meets the name first, and a positional placeholder only once. So the marks of the visits that a
walk has followed tell what it has recorded.
-/

namespace QueryGraph

/-- A walk that has recorded what some visits leave. -/
structure Walk.Records (walk : Walk) (marks : List Mark) : Prop where
  identities : walk.allocator.identities.map PathIdentity.node = marks.filterMap Mark.path?
  literals : walk.literals = marks.filterMap Mark.literal?
  named : walk.parameters.named.map Prod.fst = (marks.filterMap Mark.named?).eraseDups
  anonymous : walk.parameters.anonymous = marks.filterMap Mark.anonymous?
  nodup : walk.parameters.anonymous.Nodup

namespace Walk.Records

variable {before after walk : Walk} {marks : List Mark} {mark : Mark}

/-- A walk that has recorded nothing more. -/
theorem of_eq
    (records : before.Records marks)
    (identities : after.allocator.identities = before.allocator.identities)
    (literals : after.literals = before.literals)
    (parameters : after.parameters = before.parameters) :
    after.Records marks where
  identities := by rw [identities, records.identities]
  literals := by rw [literals, records.literals]
  named := by rw [parameters, records.named]
  anonymous := by rw [parameters, records.anonymous]
  nodup := by
    rw [parameters]
    exact records.nodup

/-- What one more visit adds to each list. -/
theorem append
    (records : before.Records marks)
    (identities : after.allocator.identities.map PathIdentity.node =
      before.allocator.identities.map PathIdentity.node ++ mark.path?.toList)
    (literals : after.literals = before.literals ++ mark.literal?.toList)
    (named : ∀ names : List String, before.parameters.named.map Prod.fst = names.eraseDups ->
      after.parameters.named.map Prod.fst = (names ++ mark.named?.toList).eraseDups)
    (anonymous : after.parameters.anonymous =
      before.parameters.anonymous ++ mark.anonymous?.toList)
    (nodup : after.parameters.anonymous.Nodup) :
    after.Records (marks ++ [mark]) where
  identities := by
    rw [identities, records.identities, Tree.filterMap_append_singleton]
  literals := by
    rw [literals, records.literals, Tree.filterMap_append_singleton]
  named := by
    rw [Tree.filterMap_append_singleton]
    exact named _ records.named
  anonymous := by
    rw [anonymous, records.anonymous, Tree.filterMap_append_singleton]
  nodup := nodup

/-- A path is recorded after the others. -/
theorem path
    {allocator : PathAllocator}
    {id : NodeId}
    (records : walk.Records marks)
    (identities : allocator.identities.map PathIdentity.node =
      walk.allocator.identities.map PathIdentity.node ++ [id]) :
    Records { walk with allocator := allocator } (marks ++ [.path id]) :=
  records.append identities (List.append_nil _).symm
    (fun _ same => same.trans (congrArg _ (List.append_nil _).symm)) (List.append_nil _).symm
    records.nodup

/-- A constant is recorded after the others. -/
theorem literal
    (records : walk.Records marks)
    (id : NodeId)
    (value : Literal) :
    Records { walk with literals := walk.literals ++ [(id, value)] }
      (marks ++ [.literal id value]) :=
  records.append (List.append_nil _).symm rfl
    (fun _ same => same.trans (congrArg _ (List.append_nil _).symm)) (List.append_nil _).symm
    records.nodup

/-- A new name is recorded after the others, and one that was met before is not. -/
theorem named_parameter
    {named : List (String × NodeId)}
    {name : String}
    (records : walk.Records marks)
    (recorded : named.map Prod.fst = if name ∈ walk.parameters.named.map Prod.fst
      then walk.parameters.named.map Prod.fst
      else walk.parameters.named.map Prod.fst ++ [name]) :
    Records { walk with parameters := { walk.parameters with named := named } }
      (marks ++ [.named name]) := by
  refine records.append (List.append_nil _).symm (List.append_nil _).symm (fun names same => ?_)
    (List.append_nil _).symm records.nodup
  change named.map Prod.fst = (names ++ [name]).eraseDups
  rw [recorded, same, Entries.eraseDups_append_singleton]
  simp only [List.mem_eraseDups]

/-- A positional placeholder that was not met before is recorded after the others. -/
theorem positional_parameter
    {id : NodeId}
    (records : walk.Records marks)
    (new : id ∉ walk.parameters.anonymous) :
    Records { walk with parameters :=
      { walk.parameters with anonymous := walk.parameters.anonymous ++ [id] } }
      (marks ++ [.anonymous id]) := by
  refine records.append (List.append_nil _).symm (List.append_nil _).symm (fun names same => ?_)
    rfl (List.nodup_append.mpr ⟨records.nodup, by simp, ?_⟩)
  · exact same.trans (congrArg _ (List.append_nil _).symm)
  · rintro other old last member rfl
    exact new (List.mem_singleton.mp member ▸ old)

/-- A recorded constant is that of its node. -/
theorem node?_of_mem_literals
    {tree : Tree}
    {visits : List Visit}
    {id : NodeId}
    {value : Literal}
    (records : walk.Records (tree.marks visits))
    (member : (id, value) ∈ walk.literals) :
    tree.node? id = some (.literal value) := by
  rw [records.literals] at member
  obtain ⟨mark, marked, isLiteral⟩ := List.mem_filterMap.mp member
  obtain ⟨visit, -, leaves⟩ := List.mem_filterMap.mp marked
  obtain ⟨node, found, isMark⟩ := Option.bind_eq_some_iff.mp leaves
  cases node with
  | literal other =>
      cases isMark
      cases isLiteral
      exact found
  | parameter name => cases name <;> cases isMark <;> cases isLiteral
  | _ => cases isMark <;> cases isLiteral

end Walk.Records
end QueryGraph
