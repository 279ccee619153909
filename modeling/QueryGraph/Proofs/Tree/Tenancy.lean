import Mathlib.Data.List.Induction
import QueryGraph.Proofs.Tree.Holds

/-!
# Who has held a node, and how often

Along any history of calls, every call moves at most one hold: it takes one for an
owner, or gives one back. What an owner has of a node is what it took less what it gave
back, and from the moment a node was last free only one owner has moved holds on it.
-/

namespace QueryGraph

/-- A hold on a node that changes hands. -/
inductive Move
  | taken
      (node : NodeId)
      (owner : Owner)
  | given
      (node : NodeId)
      (owner : Owner)
  deriving DecidableEq, Repr

namespace Move

/-- The node whose hold moves. -/
def node : Move -> NodeId
  | .taken node _ => node
  | .given node _ => node

/-- The owner that takes the hold or gives it back. -/
def owner : Move -> Owner
  | .taken _ owner => owner
  | .given _ owner => owner

/-- Whether a hold on a node is taken. -/
def takes (id : NodeId) : Move -> Bool
  | .taken node _ => node = id
  | .given _ _ => false

/-- Whether a hold on a node is given back. -/
def gives (id : NodeId) : Move -> Bool
  | .taken _ _ => false
  | .given node _ => node = id

end Move

/-- How many of the holds on a node an owner has. -/
def Hold.times (hold : Hold) (owner : Owner) : Nat :=
  if hold.owner = some owner then hold.count else 0

theorem Hold.times_of_own
    {hold : Hold}
    {owner : Owner}
    (own : hold.owner = some owner) :
    hold.times owner = hold.count :=
  if_pos own

theorem Hold.times_of_ne
    {hold : Hold}
    {owner : Owner}
    (other : hold.owner ≠ some owner) :
    hold.times owner = 0 :=
  if_neg other

@[simp] theorem Hold.times_some
    (owner other : Owner)
    (count : Nat) :
    (⟨some owner, count⟩ : Hold).times other = if owner = other then count else 0 := by
  simp [Hold.times]

/-- A hold with an owner is counted at least once. -/
theorem Hold.Balanced.count_pos
    {hold : Hold}
    {owner : Owner}
    (balanced : hold.Balanced)
    (own : hold.owner = some owner) :
    0 < hold.count := by
  apply Nat.pos_of_ne_zero
  intro zero
  have free := balanced.mpr zero
  rw [own] at free
  cases free

namespace Tree

/-! ## What one call moves -/

/-- The hold that changes hands in a call. A refused call moves none. -/
def move? (tree : Tree) : TreeCall -> Option Move
  | .build _ => none
  | .freeze node owner =>
      match freeze node owner tree with
      | .ok _ _ => some (.taken node owner)
      | .error _ _ => none
  | .unfreeze node owner =>
      match unfreeze node owner tree with
      | .ok _ _ => some (.given node owner)
      | .error _ _ => none

/-- The holds that change hands in several calls, in order. -/
def moves (tree : Tree) : List TreeCall -> List Move
  | [] => []
  | call :: calls => (tree.move? call).toList ++ (tree.perform call).moves calls

/-- A call takes a hold, gives one back, or leaves all holds as they are. -/
theorem move?_cases (tree : Tree) (call : TreeCall) :
    (tree.move? call = none ∧ ∀ node, (tree.perform call).hold node = tree.hold node) ∨
      (∃ node owner, tree.move? call = some (.taken node owner) ∧
        tree.contains node = true ∧ (tree.hold node).Admits owner ∧
        tree.perform call = tree.setHold node ⟨some owner, (tree.hold node).count + 1⟩) ∨
      ∃ node owner, tree.move? call = some (.given node owner) ∧
        tree.contains node = true ∧ (tree.hold node).owner = some owner ∧
        tree.perform call = tree.setHold node (tree.lowered node owner) := by
  cases call with
  | build call => exact Or.inl ⟨rfl, tree.hold_build call⟩
  | freeze node owner =>
      rcases freeze_cases node owner tree with ⟨present, admits, taken⟩ | ⟨error, refused⟩
      · refine Or.inr (Or.inl ⟨node, owner, ?_, present, admits, ?_⟩)
        · simp [move?, taken]
        · simp [perform, taken]
      · refine Or.inl ⟨?_, fun other => ?_⟩
        · simp [move?, refused]
        · simp [perform, refused]
  | unfreeze node owner =>
      rcases unfreeze_cases node owner tree with ⟨present, own, given⟩ | ⟨error, refused⟩
      · refine Or.inr (Or.inr ⟨node, owner, ?_, present, own, ?_⟩)
        · simp [move?, given]
        · simp [perform, given]
      · refine Or.inl ⟨?_, fun other => ?_⟩
        · simp [move?, refused]
        · simp [perform, refused]

variable {tree : Tree}

/-- One call changes what an owner has of a node by the hold that it moves. -/
theorem times_perform
    (balanced : tree.Balanced)
    (call : TreeCall)
    (node : NodeId)
    (owner : Owner) :
    ((tree.perform call).hold node).times owner +
        (tree.move? call).toList.count (.given node owner) =
      (tree.hold node).times owner + (tree.move? call).toList.count (.taken node owner) := by
  rcases tree.move?_cases call with
    ⟨none, same⟩ | ⟨moved, mover, taken, present, admits, done⟩ |
      ⟨moved, mover, given, present, own, done⟩
  · simp [none, same]
  · rw [taken, done, hold_setHold _ present]
    by_cases here : node = moved
    · subst here
      by_cases his : mover = owner
      · subst his
        have before : (tree.hold node).times mover = (tree.hold node).count := by
          rcases admits with free | own
          · rw [Hold.times_of_ne (by simp [free]), (balanced node).mp free]
          · exact Hold.times_of_own own
        simp [before]
      · have before : (tree.hold node).times owner = 0 := by
          apply Hold.times_of_ne
          rcases admits with free | own
          · simp [free]
          · simp [own, his]
        simp [before, his]
    · have elsewhere : moved ≠ node := Ne.symm here
      simp [here, elsewhere]
  · rw [given, done, hold_setHold _ present]
    by_cases here : node = moved
    · subst here
      have positive := (balanced node).count_pos own
      by_cases his : mover = owner
      · subst his
        have after : (tree.lowered node mover).times mover = (tree.hold node).count - 1 := by
          unfold lowered Hold.times
          split <;> simp_all
        rw [if_pos rfl, after, Hold.times_of_own own]
        simp
        omega
      · have before : (tree.hold node).times owner = 0 := Hold.times_of_ne (by simp [own, his])
        have after : (tree.lowered node mover).times owner = 0 := by
          apply Hold.times_of_ne
          unfold lowered
          split <;> simp [his]
        simp [before, after, his]
    · have elsewhere : moved ≠ node := Ne.symm here
      simp [here, elsewhere]

/-- One call changes the count of a node by the hold that it moves. -/
theorem count_perform
    (balanced : tree.Balanced)
    (call : TreeCall)
    (node : NodeId) :
    ((tree.perform call).hold node).count + (tree.move? call).toList.countP (Move.gives node) =
      (tree.hold node).count + (tree.move? call).toList.countP (Move.takes node) := by
  rcases tree.move?_cases call with
    ⟨none, same⟩ | ⟨moved, mover, taken, present, admits, done⟩ |
      ⟨moved, mover, given, present, own, done⟩
  · simp [none, same]
  · rw [taken, done, hold_setHold _ present]
    by_cases here : node = moved
    · subst here
      simp [Move.gives, Move.takes]
    · have elsewhere : moved ≠ node := Ne.symm here
      simp [Move.gives, Move.takes, here, elsewhere]
  · rw [given, done, hold_setHold _ present]
    by_cases here : node = moved
    · subst here
      have positive := (balanced node).count_pos own
      simp [Move.gives, Move.takes, lowered]
      omega
    · have elsewhere : moved ≠ node := Ne.symm here
      simp [Move.gives, Move.takes, here, elsewhere]

/-- An owner keeps a node that is not free after a call, and a hold that the call moves
on the node is his. -/
theorem frozenBy_perform_of_held
    {call : TreeCall}
    {node : NodeId}
    {owner : Owner}
    (own : tree.frozenBy node = some owner)
    (held : (tree.perform call).frozenBy node ≠ none) :
    (tree.perform call).frozenBy node = some owner ∧
      ∀ move, tree.move? call = some move -> move.node = node -> move.owner = owner := by
  unfold frozenBy at own held ⊢
  rcases tree.move?_cases call with
    ⟨none, same⟩ | ⟨moved, mover, taken, present, admits, done⟩ |
      ⟨moved, mover, given, present, mine, done⟩
  · refine ⟨by rw [same, own], fun move found => ?_⟩
    rw [none] at found
    cases found
  · rw [done, hold_setHold _ present] at held ⊢
    rw [taken]
    by_cases here : node = moved
    · subst here
      have his : mover = owner := by
        rcases admits with free | admitted
        · rw [free] at own
          cases own
        · rw [admitted] at own
          exact Option.some.inj own
      subst his
      exact ⟨by simp, by rintro move ⟨⟩ -; rfl⟩
    · refine ⟨by rw [if_neg here, own], ?_⟩
      rintro move ⟨⟩ same
      exact absurd same (Ne.symm here)
  · rw [done, hold_setHold _ present] at held ⊢
    rw [given]
    by_cases here : node = moved
    · subst here
      have his : mover = owner := by
        rw [mine] at own
        exact Option.some.inj own
      subst his
      rw [if_pos rfl] at held ⊢
      refine ⟨?_, by rintro move ⟨⟩ -; rfl⟩
      unfold lowered at held ⊢
      split at held
      · exact absurd rfl held
      · next positive => exact if_neg positive
    · refine ⟨by rw [if_neg here, own], ?_⟩
      rintro move ⟨⟩ same
      exact absurd same (Ne.symm here)

/-- Whoever moves a hold on a free node takes it. -/
theorem frozenBy_perform_of_free
    {call : TreeCall}
    {move : Move}
    (free : tree.frozenBy move.node = none)
    (moved : tree.move? call = some move) :
    (tree.perform call).frozenBy move.node = some move.owner := by
  unfold frozenBy at free ⊢
  rcases tree.move?_cases call with
    ⟨none, same⟩ | ⟨node, mover, taken, present, admits, done⟩ |
      ⟨node, mover, given, present, own, done⟩
  · rw [none] at moved
    cases moved
  · rw [taken] at moved
    cases moved
    rw [done, hold_setHold _ present]
    exact congrArg Hold.owner (if_pos rfl)
  · rw [given] at moved
    cases moved
    change (tree.hold node).owner = none at free
    rw [free] at own
    cases own

/-! ## What a history of calls moves -/

theorem performAll_append
    (tree : Tree)
    (earlier later : List TreeCall) :
    tree.performAll (earlier ++ later) = (tree.performAll earlier).performAll later := by
  simp [performAll]

theorem Balanced.performAll
    (balanced : tree.Balanced)
    (calls : List TreeCall) :
    (tree.performAll calls).Balanced := by
  induction calls generalizing tree with
  | nil => exact balanced
  | cons call calls inductionHypothesis => exact inductionHypothesis (balanced.perform call)

/-- What an owner has of a node is what it had, with what it took since and without what
it gave back. -/
theorem times_performAll
    (balanced : tree.Balanced)
    (calls : List TreeCall)
    (node : NodeId)
    (owner : Owner) :
    ((tree.performAll calls).hold node).times owner +
        (tree.moves calls).count (.given node owner) =
      (tree.hold node).times owner + (tree.moves calls).count (.taken node owner) := by
  induction calls generalizing tree with
  | nil => rfl
  | cons call calls inductionHypothesis =>
      have first := times_perform balanced call node owner
      have rest := inductionHypothesis (balanced.perform call)
      rw [performAll_cons, moves, List.count_append, List.count_append]
      omega

/-- The count of a node is what it was, with the holds taken since and without the holds
given back. -/
theorem count_performAll
    (balanced : tree.Balanced)
    (calls : List TreeCall)
    (node : NodeId) :
    ((tree.performAll calls).hold node).count + (tree.moves calls).countP (Move.gives node) =
      (tree.hold node).count + (tree.moves calls).countP (Move.takes node) := by
  induction calls generalizing tree with
  | nil => rfl
  | cons call calls inductionHypothesis =>
      have first := count_perform balanced call node
      have rest := inductionHypothesis (balanced.perform call)
      rw [performAll_cons, moves, List.countP_append, List.countP_append]
      omega

/-- A node that somebody holds after each of some calls. -/
def HeldThroughout (tree : Tree) (node : NodeId) : List TreeCall -> Prop
  | [] => True
  | call :: calls =>
      (tree.perform call).frozenBy node ≠ none ∧ (tree.perform call).HeldThroughout node calls

theorem heldThroughout_concat
    {node : NodeId}
    {calls : List TreeCall}
    {call : TreeCall}
    (held : tree.HeldThroughout node calls)
    (last : (tree.performAll (calls ++ [call])).frozenBy node ≠ none) :
    tree.HeldThroughout node (calls ++ [call]) := by
  induction calls generalizing tree with
  | nil => exact ⟨last, trivial⟩
  | cons first calls inductionHypothesis => exact ⟨held.1, inductionHypothesis held.2 last⟩

/-- While a node does not become free, its owner stays and moves all holds on it. -/
theorem HeldThroughout.moves_of_own
    {node : NodeId}
    {owner : Owner}
    {calls : List TreeCall}
    (held : tree.HeldThroughout node calls)
    (own : tree.frozenBy node = some owner) :
    (tree.performAll calls).frozenBy node = some owner ∧
      ∀ move ∈ tree.moves calls, move.node = node -> move.owner = owner := by
  induction calls generalizing tree with
  | nil => exact ⟨own, by simp [moves]⟩
  | cons call calls inductionHypothesis =>
      obtain ⟨still, first⟩ := frozenBy_perform_of_held own held.1
      obtain ⟨last, rest⟩ := inductionHypothesis held.2 still
      refine ⟨last, fun move member same => ?_⟩
      rcases List.mem_append.mp member with now | later
      · exact first move (Option.mem_toList.mp now) same
      · exact rest move later same

/-- From the moment a node was last free, all holds on it are moved by the owner that it
has in the end. -/
theorem HeldThroughout.moves_of_free
    {node : NodeId}
    {calls : List TreeCall}
    (held : tree.HeldThroughout node calls)
    (free : tree.frozenBy node = none) :
    ∀ move ∈ tree.moves calls, move.node = node ->
      (tree.performAll calls).frozenBy node = some move.owner := by
  cases calls with
  | nil => simp [moves]
  | cons call calls =>
      obtain ⟨owner, own⟩ := Option.ne_none_iff_exists'.mp held.1
      obtain ⟨last, rest⟩ := held.2.moves_of_own own
      rintro move member rfl
      rcases List.mem_append.mp member with now | later
      · have mover := frozenBy_perform_of_free free (Option.mem_toList.mp now)
        rw [performAll_cons, last, ← own, mover]
      · rw [performAll_cons, last, rest move later rfl]

/-- Every history splits at the moment at which a node was last free. -/
theorem exists_last_free
    {node : NodeId}
    (free : tree.frozenBy node = none)
    (calls : List TreeCall) :
    ∃ earlier since, calls = earlier ++ since ∧
      (tree.performAll earlier).frozenBy node = none ∧
      (tree.performAll earlier).HeldThroughout node since := by
  induction calls using List.reverseRecOn with
  | nil => exact ⟨[], [], rfl, free, trivial⟩
  | append_singleton calls call inductionHypothesis =>
      by_cases now : (tree.performAll (calls ++ [call])).frozenBy node = none
      · exact ⟨calls ++ [call], [], by simp, now, trivial⟩
      · obtain ⟨earlier, since, rfl, before, held⟩ := inductionHypothesis
        refine ⟨earlier, since ++ [call], by simp, before, heldThroughout_concat held ?_⟩
        rwa [← performAll_append, ← List.append_assoc]

/-! ## The law of the lock -/

/-- What the holds on the nodes of a tree say about the calls that led to it. -/
structure LockLaw (start : Tree) (calls : List TreeCall) : Prop where
  /-- A node has an owner exactly while its count is positive. -/
  owned : ∀ node, ((start.performAll calls).frozenBy node).isSome = true ↔
    0 < ((start.performAll calls).hold node).count
  /-- Every node was free at some moment, and held ever since. -/
  tenanted : ∀ node, ∃ earlier since, calls = earlier ++ since ∧
    (start.performAll earlier).frozenBy node = none ∧
    (start.performAll earlier).HeldThroughout node since
  /-- The count of a node is the holds taken, less the holds given back, since it was
  free. -/
  counted : ∀ node earlier since, calls = earlier ++ since ->
    (start.performAll earlier).frozenBy node = none ->
    ((start.performAll calls).hold node).count +
        ((start.performAll earlier).moves since).countP (Move.gives node) =
      ((start.performAll earlier).moves since).countP (Move.takes node)
  /-- So it is for each owner, and only the one that has the node has holds left. -/
  outstanding : ∀ node owner earlier since, calls = earlier ++ since ->
    (start.performAll earlier).frozenBy node = none ->
    ((start.performAll calls).hold node).times owner +
        ((start.performAll earlier).moves since).count (.given node owner) =
      ((start.performAll earlier).moves since).count (.taken node owner)
  /-- Since a node was last free, only the one owner has moved holds on it. -/
  sole : ∀ node earlier since, calls = earlier ++ since ->
    (start.performAll earlier).frozenBy node = none ->
    (start.performAll earlier).HeldThroughout node since ->
    ∀ move ∈ (start.performAll earlier).moves since, move.node = node ->
      (start.performAll calls).frozenBy node = some move.owner
  /-- A hold that is given back was there to give, and the count falls by exactly it. -/
  lowered : ∀ node owner after,
    unfreeze node owner (start.performAll calls) = .ok () after ->
    (after.hold node).count + 1 = ((start.performAll calls).hold node).count
  /-- Everybody but the owner of a node is refused, and changes nothing. -/
  refused : ∀ node owner other, (start.performAll calls).frozenBy node = some owner ->
    owner ≠ other ->
    freeze node other (start.performAll calls) =
        .error (.frozenByOther node owner) (start.performAll calls) ∧
      unfreeze node other (start.performAll calls) =
        .error (.notOwner node owner other) (start.performAll calls)

/-- A node that has an owner exists. -/
theorem contains_of_frozenBy
    {node : NodeId}
    {owner : Owner}
    (own : tree.frozenBy node = some owner) :
    tree.contains node = true := by
  rcases Nat.lt_or_ge node.index tree.size with below | beyond
  · exact contains_iff.mpr below
  · rw [frozenBy, hold_of_size_le beyond] at own
    cases own

theorem unfreeze_of_free
    {node : NodeId}
    (present : tree.contains node = true)
    (free : tree.frozenBy node = none)
    (owner : Owner) :
    unfreeze node owner tree = .error (.notFrozen node) tree := by
  unfold frozenBy at free
  unfold unfreeze
  rw [Operation.bind_of_ok (Operation.get_apply tree), if_pos present]
  simp [free]

theorem unfreeze_of_other
    {node : NodeId}
    {owner current : Owner}
    (held : tree.frozenBy node = some current)
    (other : current ≠ owner) :
    unfreeze node owner tree = .error (.notOwner node current owner) tree := by
  have present := contains_of_frozenBy held
  unfold frozenBy at held
  unfold unfreeze
  rw [Operation.bind_of_ok (Operation.get_apply tree), if_pos present]
  simp [held, other]

/-- A hold that is given back leaves one less. -/
theorem count_of_unfreeze
    {node : NodeId}
    {owner : Owner}
    {after : Tree}
    (balanced : tree.Balanced)
    (done : unfreeze node owner tree = .ok () after) :
    (after.hold node).count + 1 = (tree.hold node).count := by
  rcases unfreeze_cases node owner tree with ⟨present, own, given⟩ | ⟨error, refused⟩
  · rw [given] at done
    cases done
    have positive := (balanced node).count_pos own
    rw [hold_setHold _ present, if_pos rfl]
    exact Nat.sub_add_cancel positive
  · rw [refused] at done
    cases done

/-- Every history of calls on a tree that nobody held keeps the law of the lock. -/
theorem lockLaw_of_free
    {start : Tree}
    (free : ∀ node, start.hold node = {})
    (calls : List TreeCall) :
    start.LockLaw calls := by
  have balancedStart : start.Balanced := fun node => by
    rw [free node]
    exact Hold.balanced_default
  have balanced := balancedStart.performAll calls
  refine ⟨?_, ?_, ?_, ?_, ?_, ?_, ?_⟩
  · intro node
    have here := balanced node
    unfold Hold.Balanced at here
    rw [frozenBy, Option.isSome_iff_ne_none, Nat.pos_iff_ne_zero]
    exact not_congr here
  · intro node
    refine exists_last_free ?_ calls
    rw [frozenBy, free node]
  · rintro node earlier since rfl freeThen
    have balancedThen := balancedStart.performAll earlier
    have counts := count_performAll balancedThen since node
    rw [(balancedThen node).mp freeThen, Nat.zero_add] at counts
    rw [performAll_append]
    exact counts
  · rintro node owner earlier since rfl freeThen
    have balancedThen := balancedStart.performAll earlier
    have counts := times_performAll balancedThen since node owner
    unfold frozenBy at freeThen
    have nobody : ((start.performAll earlier).hold node).owner ≠ some owner := by
      simp [freeThen]
    rw [Hold.times_of_ne nobody, Nat.zero_add] at counts
    rw [performAll_append]
    exact counts
  · rintro node earlier since rfl freeThen held
    rw [performAll_append]
    exact held.moves_of_free freeThen
  · intro node owner after done
    exact count_of_unfreeze balanced done
  · intro node owner other held differs
    exact ⟨freeze_of_other (contains_of_frozenBy held) held differs,
      unfreeze_of_other held differs⟩

end Tree
end QueryGraph
