import QueryGraph.Proofs.Tree.Words

/-!
# Releasing a guard

What a guard remembers can be given back behind its back, and the node taken by somebody
else, before the guard is released. A release takes from every node no more than the
owner of the guard still has there, and nothing from anybody else.
-/

namespace QueryGraph

/-! ## Giving back a list of holds -/

/-- The hold that is left when an owner gives back some of them. -/
def Hold.lessened
    (hold : Hold)
    (owner : Owner)
    (times : Nat) : Hold :=
  if hold.owner = some owner then
    ⟨if hold.count - times = 0 then none else some owner, hold.count - times⟩
  else hold

theorem Hold.lessened_of_ne
    {hold : Hold}
    {owner : Owner}
    (other : hold.owner ≠ some owner)
    (times : Nat) :
    hold.lessened owner times = hold :=
  if_neg other

theorem Hold.lessened_zero
    {hold : Hold}
    (balanced : hold.Balanced)
    (owner : Owner) :
    hold.lessened owner 0 = hold := by
  unfold lessened
  split
  · next own =>
      have positive := balanced.count_pos own
      rw [Nat.sub_zero, if_neg (by omega), ← own]
  · rfl

theorem Hold.lessened_lessened
    (hold : Hold)
    (owner : Owner)
    (first second : Nat) :
    (hold.lessened owner first).lessened owner second = hold.lessened owner (first + second) := by
  by_cases own : hold.owner = some owner
  · by_cases spent : hold.count - first = 0
    · have both : hold.count - (first + second) = 0 := by omega
      simp [lessened, own, spent, both]
    · simp [lessened, own, spent, Nat.sub_sub]
  · rw [lessened_of_ne own, lessened_of_ne own, lessened_of_ne own]

theorem Hold.times_lessened
    (hold : Hold)
    (owner : Owner)
    (given : Nat) :
    (hold.lessened owner given).times owner = hold.times owner - given := by
  by_cases own : hold.owner = some owner
  · by_cases spent : hold.count - given = 0
    · simp [lessened, own, spent, times]
    · simp [lessened, own, spent, times]
  · rw [lessened_of_ne own, times_of_ne own, Nat.zero_sub]

namespace Tree

variable {tree : Tree} {owner : Owner}

/-- Why an owner that has no hold on a node cannot give one back. -/
def refusal (tree : Tree) (node : NodeId) (owner : Owner) : FreezeError :=
  match tree.frozenBy node with
  | none => .notFrozen node
  | some current =>
      if current = owner then .notFrozen node else .notOwner node current owner

/-- An owner gives back a hold that it has, and is refused when it has none. -/
theorem unfreeze_of_times
    (owner : Owner)
    {node : NodeId}
    (balanced : tree.Balanced)
    (present : tree.contains node = true) :
    (0 < (tree.hold node).times owner ∧
        unfreeze node owner tree =
          .ok () (tree.setHold node ((tree.hold node).lessened owner 1))) ∨
      ((tree.hold node).times owner = 0 ∧
        unfreeze node owner tree = .error (tree.refusal node owner) tree) := by
  by_cases own : (tree.hold node).owner = some owner
  · have positive := (balanced node).count_pos own
    refine Or.inl ⟨by rwa [Hold.times_of_own own], ?_⟩
    rw [unfreeze_of_own present own, Hold.lessened, if_pos own]
    rfl
  · refine Or.inr ⟨Hold.times_of_ne own, ?_⟩
    unfold refusal
    cases held : tree.frozenBy node with
    | none => exact unfreeze_of_free present held owner
    | some current =>
        have other : current ≠ owner := by
          rintro rfl
          exact own held
        rw [unfreeze_of_other held other]
        simp [other]

/-- One hold given back lowers its node by one, and no other one. -/
theorem hold_setHold_lessened
    (owner : Owner)
    {node : NodeId}
    (balanced : tree.Balanced)
    (present : tree.contains node = true)
    (id : NodeId) :
    (tree.setHold node ((tree.hold node).lessened owner 1)).hold id =
      (tree.hold id).lessened owner ([node].count id) := by
  rw [hold_setHold _ present]
  by_cases here : id = node
  · rw [if_pos here, here, List.count_singleton_self]
  · have elsewhere : [node].count id = 0 := by simp [Ne.symm here]
    rw [if_neg here, elsewhere, Hold.lessened_zero (balanced id)]

/-- Holds that an owner gave back change no refusal of that owner. -/
theorem refusal_of_lessened
    {after : Tree}
    {node : NodeId}
    {times : Nat}
    (lessened : after.hold node = (tree.hold node).lessened owner times) :
    after.refusal node owner = tree.refusal node owner := by
  unfold refusal frozenBy
  by_cases own : (tree.hold node).owner = some owner
  · rw [lessened, Hold.lessened, if_pos own, own]
    by_cases spent : (tree.hold node).count - times = 0
    · simp [spent]
    · simp [spent]
  · rw [lessened, Hold.lessened_of_ne own]

theorem unfreezeAll_cons_of_ok
    {node : NodeId}
    {next : Tree}
    (held : List NodeId)
    (given : unfreeze node owner tree = .ok () next) :
    unfreezeAll owner (node :: held) tree = unfreezeAll owner held next := by
  rw [unfreezeAll, given]

theorem unfreezeAll_cons_of_error
    {node : NodeId}
    {error : FreezeError}
    (held : List NodeId)
    (refused : unfreeze node owner tree = .error error tree) :
    unfreezeAll owner (node :: held) tree = (.error error, (unfreezeAll owner held tree).2) := by
  rw [unfreezeAll, refused]

/-- Giving back a list of holds is giving back one after the other. -/
theorem unfreezeAll_eq_performAll
    (owner : Owner)
    (held : List NodeId)
    (tree : Tree) :
    (unfreezeAll owner held tree).2 =
      tree.performAll (held.map fun node => .unfreeze node owner) := by
  induction held generalizing tree with
  | nil => rfl
  | cons node held inductionHypothesis =>
      rw [List.map_cons, performAll_cons, ← inductionHypothesis, perform]
      rcases unfreeze_cases node owner tree with ⟨-, -, given⟩ | ⟨error, refused⟩
      · rw [unfreezeAll_cons_of_ok held given, given, Operation.finalState_ok]
      · rw [unfreezeAll_cons_of_error held refused, refused, Operation.finalState_error]

theorem count_cons_eq
    (first : NodeId)
    (list : List NodeId)
    (id : NodeId) :
    (first :: list).count id = [first].count id + list.count id := by
  rw [← List.count_append, List.singleton_append]

/-- A list of holds that an owner gives back lowers every node that is his by the times
the node is listed, and no other one. -/
theorem hold_unfreezeAll
    (owner : Owner)
    (balanced : tree.Balanced)
    {held : List NodeId}
    (known : ∀ node ∈ held, tree.contains node = true)
    (node : NodeId) :
    (unfreezeAll owner held tree).2.hold node =
      (tree.hold node).lessened owner (held.count node) := by
  induction held generalizing tree with
  | nil => exact (Hold.lessened_zero (balanced node) owner).symm
  | cons first held inductionHypothesis =>
      have present := known first List.mem_cons_self
      have rest := fun id member => known id (List.mem_cons_of_mem first member)
      rcases unfreeze_of_times owner balanced present with ⟨-, given⟩ | ⟨none, refused⟩
      · have lower := balanced.perform (.unfreeze first owner)
        rw [perform, given, Operation.finalState_ok] at lower
        rw [unfreezeAll_cons_of_ok held given, inductionHypothesis lower rest,
          hold_setHold_lessened owner balanced present, Hold.lessened_lessened, ← count_cons_eq]
      · rw [unfreezeAll_cons_of_error held refused, inductionHypothesis balanced rest]
        by_cases here : node = first
        · have other : (tree.hold node).owner ≠ some owner := by
            intro own
            have positive := (balanced node).count_pos own
            rw [here] at own positive
            rw [Hold.times_of_own own] at none
            omega
          rw [Hold.lessened_of_ne other, Hold.lessened_of_ne other]
        · rw [List.count_cons_of_ne (Ne.symm here)]

/-- The place of a list of holds at which an owner first has none left to give back. -/
structure Overdrawn
    (tree : Tree)
    (owner : Owner)
    (held front : List NodeId)
    (node : NodeId)
    (back : List NodeId) : Prop where
  split : held = front ++ node :: back
  covered : ∀ id, front.count id ≤ (tree.hold id).times owner
  spent : (tree.hold node).times owner = front.count node

/-- An overdrawn list names a node more often than the owner has holds on it. -/
theorem Overdrawn.lt_count
    {held front back : List NodeId}
    {node : NodeId}
    (overdrawn : tree.Overdrawn owner held front node back) :
    (tree.hold node).times owner < held.count node := by
  rw [overdrawn.split, overdrawn.spent, List.count_append, List.count_cons_self]
  omega

/-- Giving back a list of holds succeeds when the owner has them all. Otherwise it reports
the first one that the owner no longer has. -/
theorem unfreezeAll_outcome
    (owner : Owner)
    (balanced : tree.Balanced)
    {held : List NodeId}
    (known : ∀ node ∈ held, tree.contains node = true) :
    ((∀ node, held.count node ≤ (tree.hold node).times owner) ∧
        (unfreezeAll owner held tree).1 = .ok ()) ∨
      ∃ front node back, tree.Overdrawn owner held front node back ∧
        (unfreezeAll owner held tree).1 = .error (tree.refusal node owner) := by
  induction held generalizing tree with
  | nil => exact Or.inl ⟨by simp, rfl⟩
  | cons first held inductionHypothesis =>
      have present := known first List.mem_cons_self
      have rest := fun id member => known id (List.mem_cons_of_mem first member)
      rcases unfreeze_of_times owner balanced present with
        ⟨positive, given⟩ | ⟨none, refused⟩
      · have lower := balanced.perform (.unfreeze first owner)
        rw [perform, given, Operation.finalState_ok] at lower
        have lessened := hold_setHold_lessened owner balanced present
        have one : ∀ id, [first].count id ≤ (tree.hold id).times owner := by
          intro id
          by_cases here : first = id
          · rw [← here, List.count_singleton_self]
            exact positive
          · simp [here]
        rw [unfreezeAll_cons_of_ok held given]
        rcases inductionHypothesis lower rest with ⟨all, done⟩ | ⟨front, node, back, drawn, failed⟩
        · refine Or.inl ⟨fun id => ?_, done⟩
          have enough := all id
          have first := one id
          rw [lessened, Hold.times_lessened] at enough
          rw [count_cons_eq]
          omega
        · refine Or.inr ⟨first :: front, node, back, ⟨?_, fun id => ?_, ?_⟩, ?_⟩
          · rw [drawn.split, List.cons_append]
          · have enough := drawn.covered id
            have first := one id
            rw [lessened, Hold.times_lessened] at enough
            rw [count_cons_eq]
            omega
          · have spent := drawn.spent
            have first := one node
            rw [lessened, Hold.times_lessened] at spent
            rw [count_cons_eq]
            omega
          · rw [failed, refusal_of_lessened (lessened node)]
      · refine Or.inr ⟨[], first, held, ⟨rfl, by simp, by simpa using none⟩, ?_⟩
        rw [unfreezeAll_cons_of_error held refused]

/-- Giving back holds changes no node. -/
theorem nodes_unfreezeAll
    (owner : Owner)
    (held : List NodeId)
    (tree : Tree) :
    (unfreezeAll owner held tree).2.nodes = tree.nodes := by
  induction held generalizing tree with
  | nil => rfl
  | cons node held inductionHypothesis =>
      rcases unfreeze_cases node owner tree with ⟨-, -, given⟩ | ⟨error, refused⟩
      · rw [unfreezeAll_cons_of_ok held given, inductionHypothesis, nodes_setHold]
      · rw [unfreezeAll_cons_of_error held refused, inductionHypothesis]

/-- What stands in front of the overdrawn node is given back without a refusal. -/
theorem Overdrawn.front_done
    {held front back : List NodeId}
    {node : NodeId}
    (overdrawn : tree.Overdrawn owner held front node back)
    (balanced : tree.Balanced)
    (known : ∀ id ∈ held, tree.contains id = true) :
    (unfreezeAll owner front tree).1 = .ok () := by
  have knownFront : ∀ id ∈ front, tree.contains id = true := fun id member =>
    known id (by rw [overdrawn.split]; exact List.mem_append_left _ member)
  rcases unfreezeAll_outcome owner balanced knownFront with
    ⟨-, done⟩ | ⟨_, early, _, drawn, -⟩
  · exact done
  · exact absurd (overdrawn.covered early) (Nat.not_le.mpr drawn.lt_count)

/-- The overdrawn node is refused when it is its turn. -/
theorem Overdrawn.refused
    {held front back : List NodeId}
    {node : NodeId}
    (overdrawn : tree.Overdrawn owner held front node back)
    (balanced : tree.Balanced)
    (known : ∀ id ∈ held, tree.contains id = true) :
    unfreeze node owner (unfreezeAll owner front tree).2 =
      .error (tree.refusal node owner) (unfreezeAll owner front tree).2 := by
  have member : ∀ id ∈ front ++ [node], id ∈ held := fun id member => by
    rw [overdrawn.split]
    simp at member ⊢
    tauto
  have lessened := hold_unfreezeAll owner balanced fun id listed =>
    known id (member id (List.mem_append_left [node] listed))
  have balancedThen : (unfreezeAll owner front tree).2.Balanced := by
    rw [unfreezeAll_eq_performAll]
    exact balanced.performAll _
  have present : (unfreezeAll owner front tree).2.contains node = true := by
    have before := known node (member node (by simp))
    rwa [contains, size, nodes_unfreezeAll]
  have spent : ((unfreezeAll owner front tree).2.hold node).times owner = 0 := by
    rw [lessened, Hold.times_lessened, overdrawn.spent, Nat.sub_self]
  rcases unfreeze_of_times owner balancedThen present with ⟨positive, -⟩ | ⟨-, refused⟩
  · omega
  · rw [refused, refusal_of_lessened (lessened node)]

end Tree

/-! ## Guards -/

namespace Guard

section Lockable

variable {τ : Type} [Lockable τ]

/-- Takes a hold and remembers it. A refused hold is not remembered. -/
def take (guard : Guard) (node : NodeId) : EStateM FreezeError τ Guard := do
  Lockable.answer (.freeze node guard.owner)
  return { guard with held := node :: guard.held }

/-- Gives back the newest hold and forgets it, until the guard remembers none. The first
failure is kept. -/
def drain
    (owner : Owner) :
    (held : List NodeId) -> Except FreezeError Unit -> τ ->
      Except FreezeError Unit × Guard × τ
  | [], outcome, tree => (outcome, ⟨owner, []⟩, tree)
  | node :: held, outcome, tree =>
      match Lockable.answer (.unfreeze node owner) tree with
      | .ok () tree => drain owner held outcome tree
      | .error error tree => drain owner held (outcome.bind fun _ => .error error) tree

/-- A guard that takes a hold makes one call, and remembers the hold that it got. -/
theorem finalState_take
    (guard : Guard)
    (node : NodeId)
    (tree : τ) :
    Operation.finalState (guard.take node tree) =
      Lockable.after tree (.freeze node guard.owner) := by
  rw [take, Operation.bind_apply, Lockable.after]
  cases Lockable.answer (.freeze node guard.owner) tree <;> rfl

/-- A guard that is drained gives back one hold after the other. -/
theorem drain_tree
    (owner : Owner)
    (held : List NodeId)
    (outcome : Except FreezeError Unit)
    (tree : τ) :
    (drain owner held outcome tree).2.2 =
      (held.map fun node => .unfreeze node owner).foldl Lockable.after tree := by
  induction held generalizing outcome tree with
  | nil => rfl
  | cons node held inductionHypothesis =>
      rw [drain, List.map_cons, List.foldl_cons, Lockable.after]
      cases Lockable.answer (.unfreeze node owner) tree with
      | ok done after => exact inductionHypothesis outcome after
      | error error after => exact inductionHypothesis _ after

end Lockable

theorem take_eq_freeze
    (guard : Guard)
    (node : NodeId)
    (tree : Tree) :
    guard.take node tree = guard.freeze node tree := rfl

/-- A guard that is drained reports what a release reports, leaves the tree that a release
leaves, and remembers nothing. -/
theorem drain_eq
    (owner : Owner)
    (held : List NodeId)
    (outcome : Except FreezeError Unit)
    (tree : Tree) :
    drain owner held outcome tree =
      (outcome.bind fun _ => (Tree.unfreezeAll owner held tree).1, ⟨owner, []⟩,
        (Tree.unfreezeAll owner held tree).2) := by
  induction held generalizing outcome tree with
  | nil => cases outcome <;> rfl
  | cons node held inductionHypothesis =>
      rw [drain, Tree.lockable_answer, Tree.answer]
      rcases Tree.unfreeze_cases node owner tree with ⟨-, -, given⟩ | ⟨error, refused⟩
      · rw [given, Tree.unfreezeAll_cons_of_ok held given]
        exact inductionHypothesis outcome _
      · rw [refused, Tree.unfreezeAll_cons_of_error held refused]
        refine (inductionHypothesis _ tree).trans ?_
        cases outcome <;> rfl

/-- A guard takes the same holds on a tree that counts in words. -/
theorem take_words
    {tree : Tree}
    (fits : tree.Fits)
    (balanced : tree.Balanced)
    (guard : Guard)
    (node : NodeId) :
    guard.take node tree.words = Operation.mapState Tree.words (guard.take node tree) := by
  have same := Tree.answer_words fits balanced (.freeze node guard.owner)
  rw [take, take, Tree.lockable_answer, WordTree.lockable_answer]
  cases taken : Tree.answer (.freeze node guard.owner) tree with
  | ok done after =>
      rw [taken] at same
      rw [Operation.bind_of_ok same, Operation.bind_of_ok taken]
      rfl
  | error error after =>
      rw [taken] at same
      rw [Operation.bind_of_error same, Operation.bind_of_error taken]
      rfl

/-- A guard that is drained reports the same on a tree that counts in words. -/
theorem drain_words
    {tree : Tree}
    (fits : tree.Fits)
    (balanced : tree.Balanced)
    (owner : Owner)
    (held : List NodeId)
    (outcome : Except FreezeError Unit) :
    drain owner held outcome tree.words =
      ((drain owner held outcome tree).1, (drain owner held outcome tree).2.1,
        (drain owner held outcome tree).2.2.words) := by
  induction held generalizing outcome tree with
  | nil => rfl
  | cons node held inductionHypothesis =>
      have same := Tree.answer_words fits balanced (.unfreeze node owner)
      have fitsAfter := fits.perform balanced (.unfreeze node owner) id
      have balancedAfter := balanced.perform (.unfreeze node owner)
      rw [← Tree.finalState_answer] at fitsAfter balancedAfter
      rw [drain, drain, Tree.lockable_answer, WordTree.lockable_answer, same]
      cases given : Tree.answer (.unfreeze node owner) tree with
      | ok done after =>
          rw [given] at fitsAfter balancedAfter
          exact inductionHypothesis fitsAfter balancedAfter outcome
      | error error after =>
          rw [given] at fitsAfter balancedAfter
          exact inductionHypothesis fitsAfter balancedAfter _

/-- What the release of a guard does to a tree. -/
structure Releases
    (guard : Guard)
    (tree : Tree)
    (outcome : Except FreezeError Unit)
    (emptied : Guard)
    (after : Tree) : Prop where
  /-- The guard remembers no hold any more. -/
  forgets : emptied = { guard with held := [] }
  /-- No node changes. -/
  nodes : after.nodes = tree.nodes
  /-- A node that the owner still has is lowered by the holds of the guard, as far as
  there are any, and becomes free with the last one. -/
  lowers : ∀ node, tree.frozenBy node = some guard.owner ->
    (after.hold node).count = (tree.hold node).count - guard.held.count node ∧
      after.frozenBy node =
        if (tree.hold node).count - guard.held.count node = 0 then none else some guard.owner
  /-- A node that the owner does not have stays as it is. -/
  spares : ∀ node, tree.frozenBy node ≠ some guard.owner -> after.hold node = tree.hold node
  /-- The release succeeds when the owner has all the holds that the guard remembers. -/
  succeeds : outcome = .ok () ↔
    ∀ node, guard.held.count node ≤ (tree.hold node).times guard.owner
  /-- A failure is that of the first hold, newest first, that the owner no longer has. -/
  fails : ∀ error, outcome = .error error -> ∃ front node back,
    guard.held = front ++ node :: back ∧
      (Tree.unfreezeAll guard.owner front tree).1 = .ok () ∧
      Tree.unfreeze node guard.owner (Tree.unfreezeAll guard.owner front tree).2 =
        .error error (Tree.unfreezeAll guard.owner front tree).2 ∧
      error = tree.refusal node guard.owner

/-- Every guard whose holds are on nodes there are releases as it should. -/
theorem releases_drain
    {guard : Guard}
    {tree : Tree}
    (balanced : tree.Balanced)
    (known : ∀ node ∈ guard.held, tree.contains node = true) :
    guard.Releases tree (drain guard.owner guard.held (.ok ()) tree).1
      (drain guard.owner guard.held (.ok ()) tree).2.1
      (drain guard.owner guard.held (.ok ()) tree).2.2 := by
  have holds := Tree.hold_unfreezeAll guard.owner balanced known
  have outcome := Tree.unfreezeAll_outcome guard.owner balanced known
  rw [drain_eq]
  change guard.Releases tree (Tree.unfreezeAll guard.owner guard.held tree).1 _ _
  refine ⟨rfl, ?_, fun node own => ?_, fun node other => ?_, ⟨fun done => ?_, fun all => ?_⟩, ?_⟩
  · exact Tree.nodes_unfreezeAll guard.owner guard.held tree
  · have own : (tree.hold node).owner = some guard.owner := own
    have after := holds node
    rw [Hold.lessened, if_pos own] at after
    exact ⟨congrArg Hold.count after, congrArg Hold.owner after⟩
  · exact (holds node).trans (Hold.lessened_of_ne other _)
  · rcases outcome with ⟨all, -⟩ | ⟨front, node, back, -, failed⟩
    · exact all
    · rw [failed] at done
      cases done
  · rcases outcome with ⟨-, done⟩ | ⟨front, node, back, drawn, -⟩
    · exact done
    · exact absurd (all node) (Nat.not_le.mpr drawn.lt_count)
  · intro error failure
    rcases outcome with ⟨-, done⟩ | ⟨front, node, back, drawn, failed⟩
    · rw [done] at failure
      cases failure
    · rw [failed] at failure
      cases failure
      refine ⟨front, node, back, drawn.split, ?_, ?_, rfl⟩
      · exact drawn.front_done balanced known
      · exact drawn.refused balanced known

/-- A hold that was given back behind the back of its guard is reported with the owner
that took the node since, who keeps it. -/
example :
    drain ⟨1⟩ [Tree.top] (.ok ())
        ((Tree.ofKind .query).performAll
          [.freeze Tree.top ⟨1⟩, .unfreeze Tree.top ⟨1⟩, .freeze Tree.top ⟨2⟩]) =
      (.error (.notOwner Tree.top ⟨2⟩ ⟨1⟩), ⟨⟨1⟩, []⟩,
        (Tree.ofKind .query).perform (.freeze Tree.top ⟨2⟩)) := by
  rfl

end Guard

end QueryGraph
