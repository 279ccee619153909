import QueryGraph.Proofs.Graph.Descent

/-!
# The order of a descent

A descent meets a vertex before everything below it, and what is below an older vertex before
what is below a younger one that hangs off the same vertex. The descents from several roots
follow one another. This fixes which of two vertices is met first.
-/

namespace QueryGraph
namespace JoinGraph

variable {graph : JoinGraph} {roots : List VertexId} {id parent above : VertexId}

/-- A vertex comes before another one on the way through the forest below some roots. -/
inductive Precedes
    (graph : JoinGraph)
    (roots : List VertexId) : VertexId -> VertexId -> Prop
  /-- A vertex comes before everything below it. -/
  | above
      {first second : VertexId}
      (under : graph.Under second first)
      (differs : second ≠ first) :
      Precedes graph roots first second
  /-- What is below an older vertex comes before what is below a younger one beside it. -/
  | beside
      {parent older younger first second : VertexId}
      (olderHangs : graph.HangsOff older parent)
      (youngerHangs : graph.HangsOff younger parent)
      (ages : older.index < younger.index)
      (firstUnder : graph.Under first older)
      (secondUnder : graph.Under second younger) :
      Precedes graph roots first second
  /-- What is below a root comes before what is below a later one. -/
  | apart
      {earlier later first second : VertexId}
      (listed : [earlier, later].Sublist roots)
      (firstUnder : graph.Under first earlier)
      (secondUnder : graph.Under second later) :
      Precedes graph roots first second

/-! ## No two vertices precede each other -/

theorem Under.antisymm
    (forest : graph.Forest)
    (under : graph.Under id above)
    (back : graph.Under above id) :
    id = above :=
  VertexId.index_eq_iff.mp (Nat.le_antisymm (back.le forest) (under.le forest))

/-- What is below a vertex, and not that vertex, is below one that hangs off it. -/
theorem Under.exists_child
    (under : graph.Under id parent)
    (differs : id ≠ parent) :
    ∃ child, graph.HangsOff child parent ∧ graph.Under id child := by
  rcases Relation.ReflTransGen.cases_tail under with same | ⟨child, below, hangs⟩
  · exact absurd same.symm differs
  · exact ⟨child, hangs, below⟩

/-- Only one root is above two vertices that are below the same one. -/
theorem Under.root_eq
    {first second one other : VertexId}
    (firstUnder : graph.Under first parent)
    (secondUnder : graph.Under second parent)
    (oneRoot : one ∈ graph.rootIds)
    (otherRoot : other ∈ graph.rootIds)
    (firstOne : graph.Under first one)
    (secondOther : graph.Under second other) :
    one = other := by
  have below : ∀ {low root : VertexId}, root ∈ graph.rootIds -> graph.Under low parent ->
      graph.Under low root -> graph.Under parent root := by
    intro low root isRoot lowParent lowRoot
    rcases lowParent.total lowRoot with under | under
    · exact under
    · rw [under.eq_of_root isRoot]
      exact .refl
  rcases (below oneRoot firstUnder firstOne).total (below otherRoot secondUnder secondOther) with
    under | under
  · exact under.eq_of_root oneRoot
  · exact (under.eq_of_root otherRoot).symm

theorem pairwise_rootIds (graph : JoinGraph) :
    graph.rootIds.Pairwise fun first second => first.index < second.index := by
  refine List.Pairwise.filter _ ?_
  unfold ids
  rw [List.pairwise_map]
  exact List.pairwise_lt_range

/-- Roots are listed in the order of their creation. -/
theorem lt_of_sublist_rootIds
    {earlier later : VertexId}
    (listed : [earlier, later].Sublist graph.rootIds) :
    earlier.index < later.index :=
  List.pairwise_iff_forall_sublist.mp (pairwise_rootIds graph) listed

/-- Where two pairs of siblings are above the same two vertices, crosswise, they hang off the
same vertex. -/
theorem HangsOff.parent_eq
    {other one two three four first second : VertexId}
    (forest : graph.Forest)
    (oneHangs : graph.HangsOff one parent)
    (twoHangs : graph.HangsOff two parent)
    (threeHangs : graph.HangsOff three other)
    (fourHangs : graph.HangsOff four other)
    (apart : one ≠ two)
    (alsoApart : three ≠ four)
    (firstOne : graph.Under first one)
    (secondTwo : graph.Under second two)
    (firstThree : graph.Under first three)
    (secondFour : graph.Under second four) :
    parent = other := by
  -- If one of the two is strictly below the other, then both vertices are below one of its
  -- children, and the siblings there are the same.
  have lower : ∀ {high low left right : VertexId}, graph.HangsOff left high ->
      graph.HangsOff right high -> left ≠ right -> graph.Under first left ->
      graph.Under second right -> graph.Under first low -> graph.Under second low ->
      graph.Under low high -> low = high := by
    intro high low left right leftHangs rightHangs differs firstLeft secondRight firstLow secondLow
      under
    by_contra strict
    obtain ⟨child, hangs, below⟩ := under.exists_child strict
    have isLeft := Under.sibling_eq forest hangs leftHangs (firstLow.trans below) firstLeft
    have isRight := Under.sibling_eq forest hangs rightHangs (secondLow.trans below) secondRight
    exact differs (isLeft.symm.trans isRight)
  have firstParent := firstOne.tail oneHangs
  have secondParent := secondTwo.tail twoHangs
  have firstOther := firstThree.tail threeHangs
  have secondOther := secondFour.tail fourHangs
  rcases Under.total firstParent firstOther with under | under
  · exact lower threeHangs fourHangs alsoApart firstThree secondFour firstParent secondParent under
  · exact (lower oneHangs twoHangs apart firstOne secondTwo firstOther secondOther under).symm

/-- A vertex does not come before one that it is below. -/
theorem Precedes.not_under
    {first second : VertexId}
    (forest : graph.Forest)
    (precedes : graph.Precedes graph.rootIds first second) :
    ¬ graph.Under first second := by
  intro back
  cases precedes with
  | above under differs => exact differs (under.antisymm forest back)
  | @beside parent older younger _ _ olderHangs youngerHangs ages firstUnder secondUnder =>
      have same := Under.sibling_eq forest olderHangs youngerHangs firstUnder
        (back.trans secondUnder)
      exact absurd (congrArg VertexId.index same) (Nat.ne_of_lt ages)
  | @apart earlier later _ _ listed firstUnder secondUnder =>
      have isRoot := listed.subset
      have same := Under.root_eq back .refl (isRoot (by simp)) (isRoot (by simp)) firstUnder
        secondUnder
      exact absurd (congrArg VertexId.index same) (Nat.ne_of_lt (lt_of_sublist_rootIds listed))

theorem Precedes.asymm
    {first second : VertexId}
    (forest : graph.Forest)
    (precedes : graph.Precedes graph.rootIds first second) :
    ¬ graph.Precedes graph.rootIds second first := by
  intro contrary
  cases precedes with
  | above under _ => exact contrary.not_under forest under
  | @beside parent older younger _ _ olderHangs youngerHangs ages firstUnder secondUnder =>
      cases contrary with
      | above under _ =>
          exact (Precedes.beside olderHangs youngerHangs ages firstUnder secondUnder).not_under
            forest under
      | @beside other elder junior _ _ elderHangs juniorHangs order secondElder firstJunior =>
          have apart : older ≠ younger := fun same =>
            Nat.ne_of_lt ages (congrArg VertexId.index same)
          have alsoApart : junior ≠ elder := fun same =>
            Nat.ne_of_lt order (congrArg VertexId.index same).symm
          have same := HangsOff.parent_eq forest olderHangs youngerHangs juniorHangs elderHangs
            apart alsoApart firstUnder secondUnder firstJunior secondElder
          rw [← same] at elderHangs juniorHangs
          have isJunior := Under.sibling_eq forest olderHangs juniorHangs firstUnder firstJunior
          have isElder := Under.sibling_eq forest youngerHangs elderHangs secondUnder secondElder
          rw [isJunior, isElder] at ages
          exact Nat.lt_asymm ages order
      | @apart earlier later _ _ listed secondEarlier firstLater =>
          have isRoot := listed.subset
          have same := Under.root_eq (firstUnder.tail olderHangs) (secondUnder.tail youngerHangs)
            (isRoot (by simp)) (isRoot (by simp)) firstLater secondEarlier
          exact absurd (congrArg VertexId.index same).symm
            (Nat.ne_of_lt (lt_of_sublist_rootIds listed))
  | @apart earlier later _ _ listed firstUnder secondUnder =>
      have isRoot := listed.subset
      cases contrary with
      | above under _ =>
          exact (Precedes.apart listed firstUnder secondUnder).not_under forest under
      | @beside parent elder junior _ _ elderHangs juniorHangs _ secondElder firstJunior =>
          have same := Under.root_eq (firstJunior.tail juniorHangs) (secondElder.tail elderHangs)
            (isRoot (by simp)) (isRoot (by simp)) firstUnder secondUnder
          exact absurd (congrArg VertexId.index same) (Nat.ne_of_lt (lt_of_sublist_rootIds listed))
      | @apart older younger _ _ again secondOlder firstYounger =>
          have alsoRoot := again.subset
          have isYounger : earlier = younger := Under.root_eq .refl .refl (isRoot (by simp))
            (alsoRoot (by simp)) firstUnder firstYounger
          have isOlder : later = older := Under.root_eq .refl .refl (isRoot (by simp))
            (alsoRoot (by simp)) secondUnder secondOlder
          have order := lt_of_sublist_rootIds listed
          rw [isYounger, isOlder] at order
          exact Nat.lt_asymm order (lt_of_sublist_rootIds again)

/-! ## The descents respect the order -/

/-- A descent meets vertices in their order. -/
theorem pairwise_descend
    {fuel : Nat}
    (forest : graph.Forest)
    (ordered : graph.Ordered)
    (enough : graph.size ≤ id.index + fuel)
    (present : id.index < graph.size) :
    (graph.descend fuel id).Pairwise (graph.Precedes roots) := by
  induction fuel generalizing id with
  | zero => exact List.Pairwise.nil
  | succ fuel inductionHypothesis =>
      have deeper : ∀ child ∈ graph.children id,
          graph.HangsOff child id ∧ graph.size ≤ child.index + fuel := by
        intro child member
        have hangs := forest.listed.mp member
        have newer := forest.older hangs
        exact ⟨hangs, by omega⟩
      have below : ∀ child ∈ graph.children id, ∀ other ∈ graph.descend fuel child,
          graph.Under other child := by
        intro child member other met
        obtain ⟨hangs, enoughBelow⟩ := deeper child member
        exact (mem_descend forest enoughBelow hangs.lt_size).mp met
      unfold descend
      rw [List.pairwise_cons, List.pairwise_flatMap]
      refine ⟨?_, ?_, ?_⟩
      · intro other met
        obtain ⟨child, member, metBelow⟩ := List.mem_flatMap.mp met
        obtain ⟨hangs, -⟩ := deeper child member
        have under := below child member other metBelow
        refine .above (under.tail hangs) ?_
        rintro rfl
        exact absurd (under.le forest) (Nat.not_le.mpr (forest.older hangs))
      · intro child member
        obtain ⟨hangs, enoughBelow⟩ := deeper child member
        exact inductionHypothesis enoughBelow hangs.lt_size
      · refine (List.Pairwise.and_mem.mp (ordered id)).imp ?_
        rintro older younger ⟨olderMember, youngerMember, ages⟩ first firstMet second secondMet
        exact .beside (deeper older olderMember).1 (deeper younger youngerMember).1 ages
          (below older olderMember first firstMet) (below younger youngerMember second secondMet)

/-- The descents from roots meet vertices in their order. -/
theorem pairwise_preorder
    (forest : graph.Forest)
    (ordered : graph.Ordered)
    (present : ∀ root ∈ roots, root.index < graph.size) :
    (graph.preorder roots).Pairwise (graph.Precedes roots) := by
  unfold preorder
  rw [List.pairwise_flatMap]
  constructor
  · intro root member
    exact pairwise_descend forest ordered (Nat.le_add_left _ _) (present root member)
  · refine List.pairwise_iff_forall_sublist.mpr fun {earlier later} listed => ?_
    intro first firstMet second secondMet
    have member := listed.subset
    have under : ∀ {root other : VertexId}, root ∈ roots ->
        other ∈ graph.descend graph.size root -> graph.Under other root := fun isRoot met =>
      (mem_descend forest (Nat.le_add_left _ _) (present _ isRoot)).mp met
    exact .apart listed (under (member (by simp)) firstMet) (under (member (by simp)) secondMet)

end JoinGraph
end QueryGraph
