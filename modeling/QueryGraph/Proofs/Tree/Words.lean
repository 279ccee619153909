import QueryGraph.Proofs.Tree.Tenancy

/-!
# Counting holds in words

The holds on a node are counted in a word of 32 bits, and a count that outgrows its word
starts again at zero. As long as none does, a tree that counts in words answers every call
as one that counts exactly, and has the same owners and the same counts. From the moment
one does, its node has an owner and a count of zero.
-/

namespace QueryGraph

/-- Trees that answer calls, whatever they count holds with. -/
class Lockable (τ : Type) where
  /-- Whether a call gets or gives back its hold. A call that builds does neither, and is
  always answered. -/
  answer : TreeCall -> EStateM FreezeError τ Unit

/-- The tree that a call leaves, whether it succeeds or is refused. -/
def Lockable.after
    {τ : Type}
    [Lockable τ]
    (tree : τ)
    (call : TreeCall) : τ :=
  Operation.finalState (answer call tree)

/-- The hold on a node: who holds it, and how many times, as a word. -/
structure WordHold where
  owner : Option Owner := none
  count : UInt32 := 0
  deriving DecidableEq, Repr, Inhabited

namespace Hold

/-- A hold whose count is a word. -/
def Fits (hold : Hold) : Prop := hold.count < UInt32.size

/-- The hold with its count in a word. -/
def word (hold : Hold) : WordHold := ⟨hold.owner, UInt32.ofNat hold.count⟩

@[simp] theorem owner_word (hold : Hold) : hold.word.owner = hold.owner := rfl

@[simp] theorem count_word (hold : Hold) : hold.word.count = UInt32.ofNat hold.count := rfl

@[simp] theorem word_default : word {} = {} := rfl

theorem toNat_count_word {hold : Hold} (fits : hold.Fits) : hold.word.count.toNat = hold.count :=
  UInt32.toNat_ofNat_of_lt' fits

end Hold

/-- The hold with its count as a number. -/
def WordHold.number (hold : WordHold) : Hold := ⟨hold.owner, hold.count.toNat⟩

theorem Hold.number_word {hold : Hold} (fits : hold.Fits) : hold.word.number = hold := by
  rw [WordHold.number, toNat_count_word fits, owner_word]

/-- A query tree whose holds are counted in words. -/
structure WordTree where
  nodes : Array Node
  holds : Array WordHold
  /-- Every node has its hold. -/
  holds_size : holds.size = nodes.size
  deriving DecidableEq, Repr

namespace Tree

/-- The tree with its holds counted in words. -/
def words (tree : Tree) : WordTree where
  nodes := tree.nodes
  holds := tree.holds.map Hold.word
  holds_size := by simp [tree.holds_size]

/-- What a tree answers to a call. -/
def answer : TreeCall -> EStateM FreezeError Tree Unit
  | .build call => modify fun tree => tree.build call
  | .freeze node owner => freeze node owner
  | .unfreeze node owner => unfreeze node owner

instance : Lockable Tree := ⟨answer⟩

theorem lockable_answer (call : TreeCall) :
    (Lockable.answer call : EStateM FreezeError Tree Unit) = answer call := rfl

@[simp] theorem finalState_answer (tree : Tree) (call : TreeCall) :
    Operation.finalState (answer call tree) = tree.perform call := by
  cases call <;> rfl

theorem foldl_after (tree : Tree) (calls : List TreeCall) :
    calls.foldl Lockable.after tree = tree.performAll calls := by
  have same : (Lockable.after : Tree -> TreeCall -> Tree) = perform := by
    funext tree call
    exact finalState_answer tree call
  rw [same, performAll]

end Tree

namespace WordTree

/-- The tree with its holds counted by numbers. -/
def numbers (tree : WordTree) : Tree where
  nodes := tree.nodes
  holds := tree.holds.map WordHold.number
  holds_size := by simp [tree.holds_size]

/-- A tree that consists of an empty top statement. -/
def ofKind (kind : StatementKind) : WordTree where
  nodes := #[.statement { kind := kind }]
  holds := #[{}]
  holds_size := rfl

/-- Whether a node exists. -/
def contains (tree : WordTree) (node : NodeId) : Bool :=
  node.index < tree.nodes.size

/-- The hold on a node. A node that does not exist is not held. -/
def hold (tree : WordTree) (node : NodeId) : WordHold :=
  tree.holds[node.index]?.getD {}

/-- Who holds a node. -/
def frozenBy (tree : WordTree) (node : NodeId) : Option Owner :=
  (tree.hold node).owner

/-- Replaces the hold on a node. -/
def setHold
    (tree : WordTree)
    (id : NodeId)
    (hold : WordHold) : WordTree where
  nodes := tree.nodes
  holds := tree.holds.setIfInBounds id.index hold
  holds_size := by simp [tree.holds_size]

/-- Takes a hold on a node. A count that is the greatest word becomes zero. -/
def freeze
    (node : NodeId)
    (owner : Owner) : EStateM FreezeError WordTree Unit := do
  let tree ← get
  if tree.contains node then
    let hold := tree.hold node
    match hold.owner with
    | some current =>
        if current = owner then
          set (tree.setHold node ⟨some owner, hold.count + 1⟩)
        else throw (.frozenByOther node current)
    | none => set (tree.setHold node ⟨some owner, hold.count + 1⟩)
  else throw (.unknownNode node)

/-- Gives back a hold on a node. With the last hold the node becomes free. A count that is
zero becomes the greatest word. -/
def unfreeze
    (node : NodeId)
    (owner : Owner) : EStateM FreezeError WordTree Unit := do
  let tree ← get
  if tree.contains node then
    let hold := tree.hold node
    match hold.owner with
    | none => throw (.notFrozen node)
    | some current =>
        if current = owner then
          let count := hold.count - 1
          set (tree.setHold node ⟨if count = 0 then none else some owner, count⟩)
        else throw (.notOwner node current owner)
  else throw (.unknownNode node)

/-- What a tree answers to a call. Building reads no count. -/
def answer : TreeCall -> EStateM FreezeError WordTree Unit
  | .build call => modify fun tree => (tree.numbers.build call).words
  | .freeze node owner => freeze node owner
  | .unfreeze node owner => unfreeze node owner

instance : Lockable WordTree := ⟨answer⟩

theorem lockable_answer (call : TreeCall) :
    (Lockable.answer call : EStateM FreezeError WordTree Unit) = answer call := rfl

/-- The tree that a call leaves, whether it succeeds or is refused. -/
def perform (tree : WordTree) (call : TreeCall) : WordTree :=
  Operation.finalState (answer call tree)

/-- The tree that several calls leave, one after the other. -/
def performAll (tree : WordTree) (calls : List TreeCall) : WordTree := calls.foldl perform tree

@[simp] theorem performAll_cons
    (tree : WordTree)
    (call : TreeCall)
    (calls : List TreeCall) :
    tree.performAll (call :: calls) = (tree.perform call).performAll calls := rfl

/-- A call that takes one hold more than its word can count. -/
def Overflows (tree : WordTree) : TreeCall -> Prop
  | .freeze node owner =>
      tree.frozenBy node = some owner ∧ (tree.hold node).count.toNat + 1 = UInt32.size
  | _ => False

instance (tree : WordTree) (call : TreeCall) : Decidable (tree.Overflows call) :=
  match call with
  | .build _ => .isFalse id
  | .freeze _ _ => inferInstanceAs (Decidable (_ ∧ _))
  | .unfreeze _ _ => .isFalse id

/-- No call takes one hold more than its word can count. -/
def NeverOverflows (tree : WordTree) : List TreeCall -> Prop
  | [] => True
  | call :: calls => ¬tree.Overflows call ∧ (tree.perform call).NeverOverflows calls

/-- Giving back holds takes none. -/
theorem neverOverflows_unfreeze
    (tree : WordTree)
    (owner : Owner)
    (held : List NodeId) :
    tree.NeverOverflows (held.map fun node => .unfreeze node owner) := by
  induction held generalizing tree with
  | nil => trivial
  | cons node held inductionHypothesis => exact ⟨id, inductionHypothesis _⟩

theorem neverOverflows_append
    {tree : WordTree}
    {earlier later : List TreeCall} :
    tree.NeverOverflows (earlier ++ later) ↔
      tree.NeverOverflows earlier ∧ (tree.performAll earlier).NeverOverflows later := by
  induction earlier generalizing tree with
  | nil => exact (and_iff_right trivial).symm
  | cons call earlier inductionHypothesis =>
      rw [List.cons_append, NeverOverflows, NeverOverflows, inductionHypothesis,
        performAll_cons, and_assoc]

end WordTree

namespace Tree

variable {tree : Tree}

/-- A tree whose counts are words. -/
def Fits (tree : Tree) : Prop := ∀ node, (tree.hold node).Fits

theorem fits_ofKind (kind : StatementKind) : (ofKind kind).Fits := by
  intro node
  rw [hold_ofKind]
  exact Nat.two_pow_pos 32

@[simp] theorem words_ofKind (kind : StatementKind) :
    (ofKind kind).words = WordTree.ofKind kind := by
  simp [words, ofKind, WordTree.ofKind]

@[simp] theorem contains_words (tree : Tree) (node : NodeId) :
    tree.words.contains node = tree.contains node := rfl

@[simp] theorem hold_words (tree : Tree) (node : NodeId) :
    tree.words.hold node = (tree.hold node).word := by
  unfold WordTree.hold words hold
  rw [Array.getElem?_map]
  cases tree.holds[node.index]? <;> rfl

@[simp] theorem frozenBy_words (tree : Tree) (node : NodeId) :
    tree.words.frozenBy node = tree.frozenBy node := by
  rw [WordTree.frozenBy, hold_words]
  rfl

/-- A count that is a word is the same either way. -/
theorem toNat_count_words (fits : tree.Fits) (node : NodeId) :
    (tree.words.hold node).count.toNat = (tree.hold node).count := by
  rw [hold_words, Hold.toNat_count_word (fits node)]

/-- A node has an owner exactly while its word is positive. -/
theorem isSome_frozenBy_words_iff
    (fits : tree.Fits)
    (balanced : tree.Balanced)
    (node : NodeId) :
    (tree.words.frozenBy node).isSome = true ↔ 0 < (tree.words.hold node).count := by
  rw [UInt32.lt_iff_toNat_lt, toNat_count_words fits, frozenBy_words, Option.isSome_iff_ne_none]
  exact (not_congr (balanced node)).trans Nat.pos_iff_ne_zero.symm

theorem words_setHold
    (tree : Tree)
    (node : NodeId)
    (hold : Hold) :
    (tree.setHold node hold).words = tree.words.setHold node hold.word := by
  simp [words, WordTree.setHold, setHold, Array.map_setIfInBounds]

/-- Counts that are words are the same whichever way they are kept. -/
theorem numbers_words (fits : tree.Fits) : tree.words.numbers = tree := by
  have same : tree.holds.map (WordHold.number ∘ Hold.word) = tree.holds := by
    apply Array.ext
    · simp
    · intro index _ below
      have here := fits ⟨index⟩
      rw [hold, Array.getElem?_eq_getElem below, Option.getD_some] at here
      rw [Array.getElem_map]
      exact Hold.number_word here
  simp [words, WordTree.numbers, same]

/-! ## One call -/

/-- A hold is taken in the same way, and its count goes on by one as a word. -/
theorem freeze_words
    (node : NodeId)
    (owner : Owner)
    (tree : Tree) :
    WordTree.freeze node owner tree.words =
      Operation.mapState words (freeze node owner tree) := by
  have next : (tree.setHold node ⟨some owner, (tree.hold node).count + 1⟩).words =
      tree.words.setHold node ⟨some owner, UInt32.ofNat (tree.hold node).count + 1⟩ := by
    rw [words_setHold, Hold.word, UInt32.ofNat_add]
    rfl
  unfold WordTree.freeze freeze
  rw [Operation.bind_of_ok (Operation.get_apply _), Operation.bind_of_ok (Operation.get_apply _)]
  by_cases present : tree.contains node = true
  · rw [if_pos ((contains_words tree node).trans present), if_pos present]
    simp only [hold_words, Hold.owner_word, Hold.count_word]
    cases (tree.hold node).owner with
    | none => exact congrArg (EStateM.Result.ok ()) next.symm
    | some current =>
        by_cases own : current = owner
        · simp only [if_pos own]
          exact congrArg (EStateM.Result.ok ()) next.symm
        · simp only [if_neg own]
          rfl
  · rw [if_neg ((contains_words tree node).trans_ne present), if_neg present]
    rfl

/-- The count that is left when one of several holds is given back, as a word. -/
theorem word_lowered
    {node : NodeId}
    (fits : tree.Fits)
    (positive : 0 < (tree.hold node).count)
    (owner : Owner) :
    (tree.lowered node owner).word =
      ⟨if UInt32.ofNat (tree.hold node).count - 1 = 0 then none else some owner,
        UInt32.ofNat (tree.hold node).count - 1⟩ := by
  have lower : UInt32.ofNat ((tree.hold node).count - 1) =
      UInt32.ofNat (tree.hold node).count - 1 :=
    UInt32.ofNat_sub positive
  have below : (tree.hold node).count - 1 < UInt32.size :=
    Nat.lt_of_le_of_lt (Nat.sub_le _ 1) (fits node)
  have zero : UInt32.ofNat ((tree.hold node).count - 1) = 0 ↔ (tree.hold node).count - 1 = 0 := by
    rw [← UInt32.toNat_inj, UInt32.toNat_ofNat_of_lt' below]
    rfl
  rw [← lower]
  simp only [zero]
  rfl

/-- A hold is given back in the same way as long as counts are words. -/
theorem unfreeze_words
    (fits : tree.Fits)
    (balanced : tree.Balanced)
    (node : NodeId)
    (owner : Owner) :
    WordTree.unfreeze node owner tree.words =
      Operation.mapState words (unfreeze node owner tree) := by
  unfold WordTree.unfreeze unfreeze
  rw [Operation.bind_of_ok (Operation.get_apply _), Operation.bind_of_ok (Operation.get_apply _)]
  by_cases present : tree.contains node = true
  · rw [if_pos ((contains_words tree node).trans present), if_pos present]
    simp only [hold_words, Hold.owner_word, Hold.count_word]
    cases own : (tree.hold node).owner with
    | none => rfl
    | some current =>
        by_cases same : current = owner
        · have lower := word_lowered fits ((balanced node).count_pos own) owner
          simp only [if_pos same]
          rw [Operation.set_apply, Operation.set_apply, Operation.mapState, words_setHold, ← lower]
          rfl
        · simp only [if_neg same]
          rfl
  · rw [if_neg ((contains_words tree node).trans_ne present), if_neg present]
    rfl

/-- A tree that counts in words answers every call as one that counts exactly, as long as
its counts are words. -/
theorem answer_words
    (fits : tree.Fits)
    (balanced : tree.Balanced)
    (call : TreeCall) :
    WordTree.answer call tree.words = Operation.mapState words (answer call tree) := by
  cases call with
  | build call =>
      simp only [WordTree.answer, answer, Operation.modify_apply, numbers_words fits]
      rfl
  | freeze node owner => exact freeze_words node owner tree
  | unfreeze node owner => exact unfreeze_words fits balanced node owner

theorem perform_words
    (fits : tree.Fits)
    (balanced : tree.Balanced)
    (call : TreeCall) :
    tree.words.perform call = (tree.perform call).words := by
  rw [WordTree.perform, answer_words fits balanced, Operation.finalState_mapState,
    finalState_answer]

/-- Only a call that asks for a hold takes one. -/
theorem eq_freeze_of_move?
    {call : TreeCall}
    {node : NodeId}
    {owner : Owner}
    (taken : tree.move? call = some (.taken node owner)) :
    call = .freeze node owner := by
  cases call with
  | build call => cases taken
  | freeze other mover =>
      simp only [move?] at taken
      split at taken
      · cases taken
        rfl
      · cases taken
  | unfreeze other mover =>
      simp only [move?] at taken
      split at taken
      · cases taken
      · cases taken

/-- Counts are words after every call that takes no hold too many. -/
theorem Fits.perform
    (fits : tree.Fits)
    (balanced : tree.Balanced)
    (call : TreeCall)
    (contained : ¬tree.words.Overflows call) :
    (tree.perform call).Fits := by
  intro node
  have here := fits node
  unfold Hold.Fits at here ⊢
  rcases tree.move?_cases call with
    ⟨-, same⟩ | ⟨moved, mover, taken, present, admits, done⟩ |
      ⟨moved, mover, given, present, own, done⟩
  · rwa [same]
  · rw [done, hold_setHold _ present]
    split
    · next same =>
        subst same
        change (tree.hold node).count + 1 < UInt32.size
        rcases admits with free | own
        · rw [(balanced node).mp free]
          decide
        · have last : (tree.hold node).count + 1 ≠ UInt32.size := by
            intro last
            apply contained
            rw [eq_freeze_of_move? taken]
            refine ⟨?_, ?_⟩
            · rw [frozenBy_words]
              exact own
            · rw [toNat_count_words fits, last]
          omega
    · exact here
  · rw [done, hold_setHold _ present]
    split
    · next same =>
        rw [same] at here
        exact Nat.lt_of_le_of_lt (Nat.sub_le _ 1) here
    · exact here

/-- A hold that is given back leaves one less in its word. -/
theorem count_of_unfreeze_words
    {node : NodeId}
    {owner : Owner}
    {after : WordTree}
    (fits : tree.Fits)
    (balanced : tree.Balanced)
    (done : WordTree.unfreeze node owner tree.words = .ok () after) :
    (after.hold node).count.toNat + 1 = (tree.words.hold node).count.toNat := by
  have fitsAfter := fits.perform balanced (.unfreeze node owner) id
  rw [unfreeze_words fits balanced] at done
  rw [perform] at fitsAfter
  cases given : unfreeze node owner tree with
  | error error next =>
      rw [given] at done
      cases done
  | ok value next =>
      rw [given] at done fitsAfter
      rw [Operation.finalState_ok] at fitsAfter
      cases done
      rw [toNat_count_words fits, toNat_count_words fitsAfter]
      exact count_of_unfreeze balanced given

/-! ## Many calls -/

/-- As long as no call takes one hold too many, a tree that counts in words is after every
call what one that counts exactly is. -/
theorem performAll_words
    {calls past : List TreeCall}
    (fits : tree.Fits)
    (balanced : tree.Balanced)
    (contained : tree.words.NeverOverflows calls)
    (earlier : past <+: calls) :
    tree.words.performAll past = (tree.performAll past).words ∧ (tree.performAll past).Fits := by
  induction calls generalizing tree past with
  | nil =>
      rw [List.prefix_nil.mp earlier]
      exact ⟨rfl, fits⟩
  | cons call calls inductionHypothesis =>
      rcases List.prefix_cons_iff.mp earlier with rfl | ⟨rest, rfl, earlierRest⟩
      · exact ⟨rfl, fits⟩
      · obtain ⟨now, later⟩ := contained
        rw [perform_words fits balanced] at later
        rw [WordTree.performAll_cons, performAll_cons, perform_words fits balanced]
        exact inductionHypothesis (fits.perform balanced call now) (balanced.perform call) later
          earlierRest

end Tree

/-- Whether a call asks for a hold. -/
def TreeCall.asks : TreeCall -> Bool
  | .freeze _ _ => true
  | _ => false

namespace Tree

variable {tree : Tree}

/-- A count grows by no more than the calls that ask for a hold. -/
theorem count_perform_le
    (tree : Tree)
    (call : TreeCall)
    (node : NodeId) :
    ((tree.perform call).hold node).count ≤ (tree.hold node).count + [call].countP (·.asks) := by
  rcases tree.move?_cases call with
    ⟨-, same⟩ | ⟨moved, mover, taken, present, -, done⟩ | ⟨moved, mover, -, present, -, done⟩
  · rw [same]
    exact Nat.le_add_right _ _
  · rw [done, hold_setHold _ present, eq_freeze_of_move? taken]
    split
    · next same =>
        rw [same]
        exact Nat.le_refl _
    · exact Nat.le_add_right _ _
  · rw [done, hold_setHold _ present]
    split
    · next same =>
        rw [same]
        exact Nat.le_add_right_of_le (Nat.sub_le _ 1)
    · exact Nat.le_add_right _ _

/-- Calls that ask for few enough holds take none too many. -/
theorem neverOverflows_of_few
    {calls : List TreeCall}
    (balanced : tree.Balanced)
    (few : ∀ node, (tree.hold node).count + calls.countP (·.asks) < UInt32.size) :
    tree.words.NeverOverflows calls := by
  have fits : tree.Fits := fun node => Nat.lt_of_le_of_lt (Nat.le_add_right _ _) (few node)
  induction calls generalizing tree with
  | nil => trivial
  | cons call calls inductionHypothesis =>
      have split : (call :: calls).countP (·.asks) =
          [call].countP (·.asks) + calls.countP (·.asks) := by
        rw [← List.countP_append, List.singleton_append]
      have fewRest : ∀ node, ((tree.perform call).hold node).count + calls.countP (·.asks) <
          UInt32.size := by
        intro node
        have before := few node
        have grown := count_perform_le tree call node
        omega
      refine ⟨?_, ?_⟩
      · cases call with
        | freeze node owner =>
            rintro ⟨-, last⟩
            have before := few node
            rw [toNat_count_words fits] at last
            have one : [TreeCall.freeze node owner].countP (·.asks) = 1 := rfl
            omega
        | build call => exact id
        | unfreeze node owner => exact id
      · rw [perform_words fits balanced]
        refine inductionHypothesis (balanced.perform call) fewRest fun node => ?_
        exact Nat.lt_of_le_of_lt (Nat.le_add_right _ _) (fewRest node)

end Tree

namespace WordTree

variable {tree : WordTree}

/-- A node that has an owner exists. -/
theorem lt_size_of_frozenBy
    {node : NodeId}
    {owner : Owner}
    (own : tree.frozenBy node = some owner) :
    node.index < tree.nodes.size := by
  rw [← tree.holds_size]
  by_contra beyond
  rw [frozenBy, hold, Array.getElem?_eq_none (Nat.le_of_not_lt beyond)] at own
  cases own

/-- The owner of a node takes another hold on it. -/
theorem perform_freeze_of_own
    {node : NodeId}
    {owner : Owner}
    (own : tree.frozenBy node = some owner) :
    tree.perform (.freeze node owner) =
      tree.setHold node ⟨some owner, (tree.hold node).count + 1⟩ := by
  have present : tree.contains node = true := decide_eq_true (lt_size_of_frozenBy own)
  unfold frozenBy at own
  change Operation.finalState (freeze node owner tree) = _
  unfold freeze
  rw [Operation.bind_of_ok (Operation.get_apply tree), if_pos present]
  simp [own]

theorem hold_setHold_self
    {node : NodeId}
    (below : node.index < tree.nodes.size)
    (hold : WordHold) :
    (tree.setHold node hold).hold node = hold := by
  rw [← tree.holds_size] at below
  simp [WordTree.hold, setHold, below]

/-- A hold too many leaves its node with an owner and a count of zero. -/
theorem exists_of_overflows
    {call : TreeCall}
    (overflows : tree.Overflows call) :
    ∃ node, ((tree.perform call).frozenBy node).isSome = true ∧
      ((tree.perform call).hold node).count = 0 := by
  cases call with
  | freeze node owner =>
      obtain ⟨own, last⟩ := overflows
      have wrapped : (tree.hold node).count + 1 = 0 := by
        rw [← UInt32.toNat_inj, UInt32.toNat_add, UInt32.toNat_one, last]
        rfl
      rw [perform_freeze_of_own own]
      refine ⟨node, ?_, ?_⟩
      · rw [frozenBy, hold_setHold_self (lt_size_of_frozenBy own)]
        rfl
      · rw [hold_setHold_self (lt_size_of_frozenBy own), wrapped]
  | build call => exact overflows.elim
  | unfreeze node owner => exact overflows.elim

/-- The greatest word is followed by zero, and the owner stays. -/
example :
    let tree : WordTree := ⟨#[.statement { kind := .query }], #[⟨some ⟨1⟩, 4294967295⟩], rfl⟩
    tree.Overflows (.freeze Tree.top ⟨1⟩) ∧
      (tree.perform (.freeze Tree.top ⟨1⟩)).hold Tree.top = ⟨some ⟨1⟩, 0⟩ := by
  decide

/-- Where a node has an owner exactly while its count is positive, no hold was one too
many. -/
theorem neverOverflows_of_owned
    {calls : List TreeCall}
    (owned : ∀ past, past <+: calls -> ∀ node,
      ((tree.performAll past).frozenBy node).isSome = true ↔
        0 < ((tree.performAll past).hold node).count) :
    tree.NeverOverflows calls := by
  induction calls generalizing tree with
  | nil => trivial
  | cons call calls inductionHypothesis =>
      refine ⟨fun overflows => ?_, inductionHypothesis fun past earlier => ?_⟩
      · obtain ⟨node, held, zero⟩ := exists_of_overflows overflows
        have positive := (owned [call] (by simp) node).mp held
        rw [show tree.performAll [call] = tree.perform call from rfl, zero] at positive
        exact absurd positive (by decide)
      · exact owned (call :: past) (List.cons_prefix_cons.mpr ⟨rfl, earlier⟩)

end WordTree
end QueryGraph
