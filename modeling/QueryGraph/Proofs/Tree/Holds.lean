import QueryGraph.Proofs.Tree.Calls

/-!
# Holds on the nodes of a tree

Taking a hold raises the count of one node and giving it back lowers it again, so
the holds that one owner took can be read off the list of nodes it took them on. No
call gives back a hold of somebody else, and no call builds on a held node.
-/

namespace QueryGraph
namespace Hold

/-- A hold whose count is positive exactly when it has an owner. -/
def Balanced (hold : Hold) : Prop := hold.owner = none ↔ hold.count = 0

/-- A node that an owner may take a hold on. -/
def Admits (hold : Hold) (owner : Owner) : Prop :=
  hold.owner = none ∨ hold.owner = some owner

/-- The hold after an owner took it some more times. -/
def raised
    (hold : Hold)
    (owner : Owner)
    (times : Nat) : Hold :=
  if times = 0 then hold else ⟨some owner, hold.count + times⟩

@[simp] theorem balanced_default : Balanced {} := by
  simp [Balanced]

@[simp] theorem raised_zero (hold : Hold) (owner : Owner) : hold.raised owner 0 = hold := rfl

@[simp] theorem raised_succ
    (hold : Hold)
    (owner : Owner)
    (times : Nat) :
    hold.raised owner (times + 1) = ⟨some owner, hold.count + times + 1⟩ := rfl

theorem raised_of_pos
    {times : Nat}
    (hold : Hold)
    (owner : Owner)
    (positive : 0 < times) :
    hold.raised owner times = ⟨some owner, hold.count + times⟩ := by
  rw [raised, if_neg (by omega)]

@[simp] theorem count_raised
    (hold : Hold)
    (owner : Owner)
    (times : Nat) :
    (hold.raised owner times).count = hold.count + times := by
  cases times <;> simp [Nat.add_assoc]

/-- What is left of a hold of several times when one of them is given back. -/
theorem lowered_raised
    {hold : Hold}
    {owner : Owner}
    (balanced : hold.Balanced)
    (admits : hold.Admits owner)
    (times : Nat) :
    (⟨if hold.count + times = 0 then none else some owner, hold.count + times⟩ : Hold) =
      hold.raised owner times := by
  cases times with
  | succ times =>
      rw [if_neg (by omega)]
      rfl
  | zero =>
      obtain ⟨holder, count⟩ := hold
      rw [Nat.add_zero, raised_zero]
      rcases admits with free | own
      · have zero : count = 0 := balanced.mp free
        cases free
        rw [if_pos zero]
      · have positive : count ≠ 0 := by
          intro zero
          have free : holder = none := balanced.mpr zero
          rw [free] at own
          cases own
        cases own
        rw [if_neg positive]

end Hold

namespace Tree

/-! ## Taking a hold -/

theorem freeze_of_admits
    {tree : Tree}
    {node : NodeId}
    {owner : Owner}
    (present : tree.contains node = true)
    (admits : (tree.hold node).Admits owner) :
    freeze node owner tree =
      .ok () (tree.setHold node ⟨some owner, (tree.hold node).count + 1⟩) := by
  unfold freeze
  rw [Operation.bind_of_ok (Operation.get_apply tree), if_pos present]
  rcases admits with free | own
  · simp [free]
  · simp [own]

theorem freeze_of_other
    {tree : Tree}
    {node : NodeId}
    {owner current : Owner}
    (present : tree.contains node = true)
    (held : (tree.hold node).owner = some current)
    (other : current ≠ owner) :
    freeze node owner tree = .error (.frozenByOther node current) tree := by
  unfold freeze
  rw [Operation.bind_of_ok (Operation.get_apply tree), if_pos present]
  simp [held, other]

theorem freeze_of_unknown
    {tree : Tree}
    {node : NodeId}
    (owner : Owner)
    (missing : ¬tree.contains node = true) :
    freeze node owner tree = .error (.unknownNode node) tree := by
  unfold freeze
  rw [Operation.bind_of_ok (Operation.get_apply tree), if_neg missing]
  rfl

/-- Everything that taking a hold can do. -/
theorem freeze_cases
    (node : NodeId)
    (owner : Owner)
    (tree : Tree) :
    (tree.contains node = true ∧ (tree.hold node).Admits owner ∧
        freeze node owner tree =
          .ok () (tree.setHold node ⟨some owner, (tree.hold node).count + 1⟩)) ∨
      ∃ error, freeze node owner tree = .error error tree := by
  by_cases present : tree.contains node = true
  · cases held : (tree.hold node).owner with
    | none => exact Or.inl ⟨present, Or.inl held, freeze_of_admits present (Or.inl held)⟩
    | some current =>
        by_cases own : current = owner
        · rw [own] at held
          exact Or.inl ⟨present, Or.inr held, freeze_of_admits present (Or.inr held)⟩
        · exact Or.inr ⟨_, freeze_of_other present held own⟩
  · exact Or.inr ⟨_, freeze_of_unknown owner present⟩

/-! ## Giving a hold back -/

/-- The hold that remains when an owner gives one back. -/
def lowered (tree : Tree) (node : NodeId) (owner : Owner) : Hold :=
  ⟨if (tree.hold node).count - 1 = 0 then none else some owner, (tree.hold node).count - 1⟩

theorem unfreeze_of_own
    {tree : Tree}
    {node : NodeId}
    {owner : Owner}
    (present : tree.contains node = true)
    (own : (tree.hold node).owner = some owner) :
    unfreeze node owner tree = .ok () (tree.setHold node (tree.lowered node owner)) := by
  unfold unfreeze
  rw [Operation.bind_of_ok (Operation.get_apply tree), if_pos present]
  simp [own, lowered]

/-- Everything that giving back a hold can do. -/
theorem unfreeze_cases
    (node : NodeId)
    (owner : Owner)
    (tree : Tree) :
    (tree.contains node = true ∧ (tree.hold node).owner = some owner ∧
        unfreeze node owner tree = .ok () (tree.setHold node (tree.lowered node owner))) ∨
      ∃ error, unfreeze node owner tree = .error error tree := by
  by_cases present : tree.contains node = true
  · cases held : (tree.hold node).owner with
    | none =>
        right
        refine ⟨.notFrozen node, ?_⟩
        unfold unfreeze
        rw [Operation.bind_of_ok (Operation.get_apply tree), if_pos present]
        simp [held]
    | some current =>
        by_cases own : current = owner
        · rw [own] at held
          exact Or.inl ⟨present, by rw [own], unfreeze_of_own present held⟩
        · right
          refine ⟨.notOwner node current owner, ?_⟩
          unfold unfreeze
          rw [Operation.bind_of_ok (Operation.get_apply tree), if_pos present]
          simp [held, own]
  · right
    refine ⟨.unknownNode node, ?_⟩
    unfold unfreeze
    rw [Operation.bind_of_ok (Operation.get_apply tree), if_neg present]
    rfl

/-! ## The holds of one owner -/

/-- The holds of a tree are given ones, raised by one owner once for each time a
node occurs in a list. -/
structure Raised
    (tree : Tree)
    (base : NodeId -> Hold)
    (owner : Owner)
    (held : List NodeId) : Prop where
  hold_eq : ∀ node, tree.hold node = (base node).raised owner (held.count node)
  present : ∀ node ∈ held, tree.contains node = true
  admits : ∀ node ∈ held, (base node).Admits owner

namespace Raised

variable {tree next : Tree} {base : NodeId -> Hold} {owner : Owner} {held : List NodeId}

theorem refl (tree : Tree) (owner : Owner) : tree.Raised tree.hold owner [] where
  hold_eq node := by simp
  present := by simp
  admits := by simp

/-- A node in the list is held by the owner. -/
theorem frozenBy_of_mem
    {node : NodeId}
    (raised : tree.Raised base owner held)
    (member : node ∈ held) :
    tree.frozenBy node = some owner := by
  have positive : 0 < held.count node := List.count_pos_iff.mpr member
  unfold frozenBy
  rw [raised.hold_eq node, Hold.raised_of_pos _ _ positive]

/-- Taking one more hold puts its node in front of the list. -/
theorem freeze
    {node : NodeId}
    (raised : tree.Raised base owner held)
    (done : Tree.freeze node owner tree = .ok () next) :
    next.Raised base owner (node :: held) := by
  rcases freeze_cases node owner tree with ⟨present, admits, taken⟩ | ⟨error, refused⟩
  · rw [taken] at done
    cases done
    have countNode : (tree.hold node).count = (base node).count + held.count node := by
      rw [raised.hold_eq node, Hold.count_raised]
    have admitsBase : (base node).Admits owner := by
      by_cases member : node ∈ held
      · exact raised.admits node member
      · have none : held.count node = 0 := List.count_eq_zero.mpr member
        have same := raised.hold_eq node
        rw [none, Hold.raised_zero] at same
        rwa [same] at admits
    refine ⟨?_, ?_, ?_⟩
    · intro other
      rw [hold_setHold _ present]
      by_cases same : other = node
      · rw [if_pos same, same, List.count_cons_self, Hold.raised_succ, countNode]
      · rw [if_neg same, List.count_cons_of_ne (Ne.symm same)]
        exact raised.hold_eq other
    · intro other member
      rcases List.mem_cons.mp member with same | member
      · rw [same]
        exact present
      · exact raised.present other member
    · intro other member
      rcases List.mem_cons.mp member with same | member
      · rw [same]
        exact admitsBase
      · exact raised.admits other member
  · rw [refused] at done
    cases done

/-- The owner can give back the first hold in the list, and is left with the others. -/
theorem unfreeze
    {node : NodeId}
    (balanced : ∀ node, (base node).Balanced)
    (raised : tree.Raised base owner (node :: held)) :
    ∃ lower, Tree.unfreeze node owner tree = .ok () lower ∧ lower.nodes = tree.nodes ∧
      lower.Raised base owner held := by
  have present := raised.present node List.mem_cons_self
  have own : (tree.hold node).owner = some owner := raised.frozenBy_of_mem List.mem_cons_self
  have countNode : (tree.hold node).count - 1 = (base node).count + held.count node := by
    rw [raised.hold_eq node, Hold.count_raised, List.count_cons_self]
    omega
  refine ⟨_, unfreeze_of_own present own, rfl, ?_, ?_, ?_⟩
  · intro other
    rw [hold_setHold _ present]
    by_cases same : other = node
    · rw [if_pos same, same]
      unfold lowered
      rw [countNode]
      exact Hold.lowered_raised (balanced node) (raised.admits node List.mem_cons_self) _
    · rw [if_neg same, raised.hold_eq other, List.count_cons_of_ne (Ne.symm same)]
  · intro other member
    exact raised.present other (List.mem_cons_of_mem node member)
  · intro other member
    exact raised.admits other (List.mem_cons_of_mem node member)

/-- An owner that gives back everything in the list restores the holds there were
before, and is never refused. -/
theorem unfreezeAll
    (balanced : ∀ node, (base node).Balanced)
    (raised : tree.Raised base owner held) :
    ∃ restored, Tree.unfreezeAll owner held tree = (.ok (), restored) ∧
      restored.nodes = tree.nodes ∧ ∀ node, restored.hold node = base node := by
  induction held generalizing tree with
  | nil => exact ⟨tree, rfl, rfl, fun node => by simpa using raised.hold_eq node⟩
  | cons node held inductionHypothesis =>
      obtain ⟨lower, given, sameNodes, rest⟩ := raised.unfreeze balanced
      obtain ⟨restored, done, nodes, holds⟩ := inductionHypothesis rest
      refine ⟨restored, ?_, nodes.trans sameNodes, holds⟩
      unfold Tree.unfreezeAll
      rw [given]
      exact done

end Raised

/-! ## Calls and holds -/

/-- A change of a tree leaves every hold as it is. -/
theorem Change.hold_eq
    {before after : Tree}
    (change : before.Change after)
    (node : NodeId) :
    after.hold node = before.hold node := by
  cases change with
  | added added loose => exact hold_push before added node
  | adopted parent older child grown found free adopts =>
      rw [hold_replace]
      exact hold_push before child node
  | altered id older changed found free alters => exact hold_replace before id changed node

theorem Changes.hold_eq
    {before after : Tree}
    (changes : before.Changes after)
    (node : NodeId) :
    after.hold node = before.hold node := by
  induction changes with
  | refl => rfl
  | tail earlier change inductionHypothesis =>
      rw [change.hold_eq, inductionHypothesis]

@[simp] theorem hold_build
    (tree : Tree)
    (call : BuilderCall)
    (node : NodeId) :
    (tree.build call).hold node = tree.hold node :=
  (tree.build_changes call).hold_eq node

/-- Everything that a call can do. -/
theorem perform_cases (tree : Tree) (call : TreeCall) :
    tree.Changes (tree.perform call) ∨
      ∃ node owner hold, call.owner? = some owner ∧ tree.contains node = true ∧
        (tree.hold node).Admits owner ∧ hold.Balanced ∧ hold.Admits owner ∧
        tree.perform call = tree.setHold node hold := by
  cases call with
  | build call => exact Or.inl (tree.build_changes call)
  | freeze node owner =>
      rcases freeze_cases node owner tree with ⟨present, admits, taken⟩ | ⟨error, refused⟩
      · refine Or.inr ⟨node, owner, ⟨some owner, (tree.hold node).count + 1⟩, rfl, present,
          admits, ?_, Or.inr rfl, ?_⟩
        · simp [Hold.Balanced]
        · simp [perform, taken]
      · left
        simp only [perform, refused, Operation.finalState_error]
        exact Changes.refl tree
  | unfreeze node owner =>
      rcases unfreeze_cases node owner tree with ⟨present, own, given⟩ | ⟨error, refused⟩
      · refine Or.inr ⟨node, owner, tree.lowered node owner, rfl, present, Or.inr own, ?_, ?_, ?_⟩
        · unfold Hold.Balanced lowered
          split <;> simp_all
        · unfold Hold.Admits lowered
          split <;> simp
        · simp [perform, given]
      · left
        simp only [perform, refused, Operation.finalState_error]
        exact Changes.refl tree

/-- A tree whose nodes are held by somebody exactly when their count says so. -/
def Balanced (tree : Tree) : Prop := ∀ node, (tree.hold node).Balanced

theorem balanced_ofKind (kind : StatementKind) : (ofKind kind).Balanced := by
  intro node
  rw [hold_ofKind]
  exact Hold.balanced_default

theorem Balanced.perform
    {tree : Tree}
    (balanced : tree.Balanced)
    (call : TreeCall) :
    (tree.perform call).Balanced := by
  intro node
  rcases tree.perform_cases call with
    changes | ⟨changed, owner, hold, -, present, -, holdBalanced, -, done⟩
  · rw [changes.hold_eq]
    exact balanced node
  · rw [done, hold_setHold hold present]
    by_cases same : node = changed
    · rw [if_pos same]
      exact holdBalanced
    · rw [if_neg same]
      exact balanced node

theorem Reachable.balanced
    {tree : Tree}
    (reachable : tree.Reachable) :
    tree.Balanced := by
  exact reachable.induction balanced_ofKind fun before call holds => holds.perform call

theorem Raised.balanced
    {tree : Tree}
    {base : NodeId -> Hold}
    {owner : Owner}
    {held : List NodeId}
    (balanced : ∀ node, (base node).Balanced)
    (raised : tree.Raised base owner held) :
    tree.Balanced := by
  intro node
  rw [raised.hold_eq node]
  cases held.count node with
  | zero => exact balanced node
  | succ times => simp [Hold.Balanced]

/-- Nobody but its owner changes the hold on a node. -/
theorem hold_perform_of_other
    {tree : Tree}
    {call : TreeCall}
    {owner : Owner}
    {node : NodeId}
    (other : call.owner? ≠ some owner)
    (own : tree.frozenBy node = some owner) :
    (tree.perform call).hold node = tree.hold node := by
  rcases tree.perform_cases call with
    changes | ⟨changed, caller, hold, called, present, admits, -, -, done⟩
  · exact changes.hold_eq node
  · rw [done, hold_setHold hold present, if_neg]
    rintro rfl
    apply other
    rw [called]
    rcases admits with free | admitted
    · unfold frozenBy at own
      rw [free] at own
      cases own
    · unfold frozenBy at own
      rw [← admitted, own]

/-- A held node is as it was after any change. -/
theorem Change.node?_of_frozen
    {before after : Tree}
    {node : NodeId}
    (change : before.Change after)
    (frozen : before.isFrozen node = true) :
    after.node? node = before.node? node := by
  have below : node.index < before.size := by
    rcases Nat.lt_or_ge node.index before.size with below | beyond
    · exact below
    · rw [isFrozen, frozenBy, hold_of_size_le beyond] at frozen
      cases frozen
  obtain ⟨body, found⟩ := node?_isSome_of_lt below
  cases change with
  | added added loose => rw [node?_push_of_some added found, found]
  | adopted parent older child grown parentFound free adopts =>
      have differs : node ≠ parent := by
        rintro rfl
        rw [free] at frozen
        cases frozen
      rw [node?_replace_of_ne grown differs, node?_push_of_some child found, found]
  | altered id older changed idFound free alters =>
      have differs : node ≠ id := by
        rintro rfl
        rw [free] at frozen
        cases frozen
      exact node?_replace_of_ne changed differs

theorem Changes.node?_of_frozen
    {before after : Tree}
    {node : NodeId}
    (changes : before.Changes after)
    (frozen : before.isFrozen node = true) :
    after.node? node = before.node? node := by
  induction changes with
  | refl => rfl
  | @tail between last earlier change inductionHypothesis =>
      have stillFrozen : between.isFrozen node = true := by
        unfold isFrozen frozenBy
        rw [Changes.hold_eq earlier node]
        exact frozen
      rw [change.node?_of_frozen stillFrozen, inductionHypothesis]

/-- No call changes a held node. -/
theorem node?_perform_of_frozen
    {tree : Tree}
    {node : NodeId}
    (call : TreeCall)
    (frozen : tree.isFrozen node = true) :
    (tree.perform call).node? node = tree.node? node := by
  rcases tree.perform_cases call with changes | ⟨_, _, hold, _, _, _, _, _, done⟩
  · exact changes.node?_of_frozen frozen
  · rw [done, node?_setHold]

theorem Change.size_le
    {before after : Tree}
    (change : before.Change after) :
    before.size ≤ after.size := by
  cases change <;> simp

theorem Changes.size_le
    {before after : Tree}
    (changes : before.Changes after) :
    before.size ≤ after.size := by
  induction changes with
  | refl => exact Nat.le_refl _
  | tail earlier change inductionHypothesis => exact Nat.le_trans inductionHypothesis change.size_le

theorem size_le_perform (tree : Tree) (call : TreeCall) :
    tree.size ≤ (tree.perform call).size := by
  rcases tree.perform_cases call with changes | ⟨_, _, hold, _, _, _, _, _, done⟩
  · exact changes.size_le
  · simp only [done, size_setHold, Nat.le_refl]

/-- Whether an owner holds nothing can be seen from the nodes there are. -/
theorem unclaimed_of_ids
    {tree : Tree}
    {owner : Owner}
    (free : ∀ node ∈ tree.ids, tree.frozenBy node ≠ some owner) :
    tree.Unclaimed owner := by
  intro node
  rcases Nat.lt_or_ge node.index tree.size with below | beyond
  · exact free node (List.mem_map.mpr ⟨node.index, List.mem_range.mpr below, rfl⟩)
  · unfold frozenBy
    rw [hold_of_size_le beyond]
    exact nofun

/-- The holds of an owner outlast the calls of everybody else, and what is below
them stays the same on the held nodes. -/
theorem Raised.performAll
    {tree : Tree}
    {base : NodeId -> Hold}
    {owner : Owner}
    {held : List NodeId}
    {calls : List TreeCall}
    (balanced : ∀ node, (base node).Balanced)
    (raised : tree.Raised base owner held)
    (others : ∀ call ∈ calls, call.owner? ≠ some owner) :
    ∃ later : NodeId -> Hold, (∀ node, (later node).Balanced) ∧
      (∀ node ∈ held, later node = base node) ∧
      (tree.performAll calls).Raised later owner held ∧
      ∀ node ∈ held, (tree.performAll calls).node? node = tree.node? node := by
  induction calls generalizing tree base with
  | nil => exact ⟨base, balanced, fun _ _ => rfl, raised, fun _ _ => rfl⟩
  | cons call calls inductionHypothesis =>
      have other := others call List.mem_cons_self
      let between : NodeId -> Hold := fun node =>
        if node ∈ held then base node else (tree.perform call).hold node
      have betweenBalanced : ∀ node, (between node).Balanced := by
        intro node
        by_cases member : node ∈ held
        · simpa [between, member] using balanced node
        · simpa [between, member] using (raised.balanced balanced).perform call node
      have betweenRaised : (tree.perform call).Raised between owner held := by
        refine ⟨?_, ?_, ?_⟩
        · intro node
          by_cases member : node ∈ held
          · rw [hold_perform_of_other other (raised.frozenBy_of_mem member), raised.hold_eq node]
            simp [between, member]
          · simp [between, member, List.count_eq_zero.mpr member]
        · intro node member
          have below := contains_iff.mp (raised.present node member)
          exact contains_iff.mpr (Nat.lt_of_lt_of_le below (tree.size_le_perform call))
        · intro node member
          simpa [between, member] using raised.admits node member
      obtain ⟨later, laterBalanced, same, laterRaised, nodes⟩ :=
        inductionHypothesis betweenBalanced betweenRaised
          fun next member => others next (List.mem_cons_of_mem call member)
      refine ⟨later, laterBalanced, ?_, laterRaised, ?_⟩
      · intro node member
        rw [same node member]
        simp [between, member]
      · intro node member
        have frozen : tree.isFrozen node = true := by
          unfold isFrozen
          rw [raised.frozenBy_of_mem member]
          rfl
        rw [performAll_cons, nodes node member, node?_perform_of_frozen call frozen]

end Tree
end QueryGraph
