import QueryGraph.Proofs.Tree.Release

/-!
# Guards among other callers

Guards of any owners take, release and drop their holds in between the calls that
anybody makes on the tree. Every such history is, for the tree, a history of calls, and
so it keeps the law of the lock. It keeps it with counts in words as long as every count
fits in its word.
-/

namespace QueryGraph

/-- A tree and the guards that live on it. -/
structure Custody (τ : Type) where
  tree : τ
  guards : List Guard := []
  deriving DecidableEq, Repr

/-- Something that happens to a tree and the guards on it. A guard is named by its place
among those that live. -/
inductive CustodyEvent
  | call (call : TreeCall)
  | create (owner : Owner)
  | freeze
      (place : Nat)
      (node : NodeId)
  | release (place : Nat)
  | drop (place : Nat)
  deriving DecidableEq, Repr

namespace Custody

section Lockable

variable {τ : Type} [Lockable τ]

/-- What is left after an event. An event that names no living guard does nothing. -/
def step (custody : Custody τ) : CustodyEvent -> Custody τ
  | .call call => { custody with tree := Lockable.after custody.tree call }
  | .create owner => { custody with guards := custody.guards ++ [{ owner }] }
  | .freeze place node =>
      match custody.guards[place]? with
      | none => custody
      | some guard =>
          match guard.take node custody.tree with
          | .ok guard tree => ⟨tree, custody.guards.set place guard⟩
          | .error _ tree => { custody with tree }
  | .release place =>
      match custody.guards[place]? with
      | none => custody
      | some guard =>
          let (_, guard, tree) := Guard.drain guard.owner guard.held (.ok ()) custody.tree
          ⟨tree, custody.guards.set place guard⟩
  | .drop place =>
      match custody.guards[place]? with
      | none => custody
      | some guard =>
          let (_, _, tree) := Guard.drain guard.owner guard.held (.ok ()) custody.tree
          ⟨tree, custody.guards.eraseIdx place⟩

/-- What is left after several events. -/
def run (custody : Custody τ) (events : List CustodyEvent) : Custody τ :=
  events.foldl step custody

/-- The calls that an event makes on the tree. -/
def callsOf (custody : Custody τ) : CustodyEvent -> List TreeCall
  | .call call => [call]
  | .create _ => []
  | .freeze place node =>
      match custody.guards[place]? with
      | none => []
      | some guard => [.freeze node guard.owner]
  | .release place | .drop place =>
      match custody.guards[place]? with
      | none => []
      | some guard => guard.held.map fun node => .unfreeze node guard.owner

/-- The calls that several events make on the tree, in order. -/
def calls (custody : Custody τ) : List CustodyEvent -> List TreeCall
  | [] => []
  | event :: events => custody.callsOf event ++ (custody.step event).calls events

end Lockable

/-- A new tree, on which no guard lives. -/
def ofKind (kind : StatementKind) : Custody Tree where
  tree := Tree.ofKind kind

/-- A new tree whose holds are counted in words, on which no guard lives. -/
def wordsOfKind (kind : StatementKind) : Custody WordTree where
  tree := WordTree.ofKind kind

/-- The same guards on the tree with its holds counted in words. -/
def words (custody : Custody Tree) : Custody WordTree where
  tree := custody.tree.words
  guards := custody.guards

/-- Whether an event takes one hold more than its word can count. -/
def overflows (custody : Custody WordTree) : CustodyEvent -> Bool
  | .call call => custody.tree.Overflows call
  | .freeze place node =>
      custody.guards[place]?.any fun guard => custody.tree.Overflows (.freeze node guard.owner)
  | _ => false

/-- The events that are left when those that overflow are stopped and change nothing. -/
def admitted (custody : Custody WordTree) : List CustodyEvent -> List CustodyEvent
  | [] => []
  | event :: events =>
      if custody.overflows event then custody.admitted events
      else event :: (custody.step event).admitted events

@[simp] theorem words_ofKind (kind : StatementKind) :
    (ofKind kind).words = wordsOfKind kind := by
  rw [words, wordsOfKind, ← Tree.words_ofKind]
  rfl

/-- Every guard remembers holds on nodes that there are. -/
def Known (custody : Custody Tree) : Prop :=
  ∀ guard ∈ custody.guards, ∀ node ∈ guard.held, custody.tree.contains node = true

variable {custody : Custody Tree}

/-! ## Events are calls -/

theorem step_release
    {place : Nat}
    {guard : Guard}
    (found : custody.guards[place]? = some guard) :
    custody.step (.release place) =
      ⟨(Guard.drain guard.owner guard.held (.ok ()) custody.tree).2.2,
        custody.guards.set place
          (Guard.drain guard.owner guard.held (.ok ()) custody.tree).2.1⟩ := by
  simp only [step, found]

theorem step_drop
    {place : Nat}
    {guard : Guard}
    (found : custody.guards[place]? = some guard) :
    custody.step (.drop place) =
      ⟨(Guard.drain guard.owner guard.held (.ok ()) custody.tree).2.2,
        custody.guards.eraseIdx place⟩ := by
  simp only [step, found]

theorem run_concat
    (custody : Custody Tree)
    (events : List CustodyEvent)
    (event : CustodyEvent) :
    custody.run (events ++ [event]) = (custody.run events).step event := by
  simp [run]

/-- A guard that takes a hold makes one call, and remembers the hold that it got. -/
theorem guard_take_cases
    (guard : Guard)
    (node : NodeId)
    (tree : Tree) :
    (tree.contains node = true ∧
        guard.take node tree =
          .ok { guard with held := node :: guard.held }
            (tree.perform (.freeze node guard.owner))) ∨
      ∃ error, guard.take node tree = .error error (tree.perform (.freeze node guard.owner)) := by
  simp only [Guard.take_eq_freeze, Guard.freeze, Tree.perform]
  rcases Tree.freeze_cases node guard.owner tree with ⟨present, -, taken⟩ | ⟨error, refused⟩
  · refine Or.inl ⟨present, ?_⟩
    rw [Operation.bind_of_ok taken, taken]
    rfl
  · refine Or.inr ⟨error, ?_⟩
    rw [Operation.bind_of_error refused, refused]
    rfl

/-- What an event does to the tree, its calls do. -/
theorem foldl_callsOf
    {τ : Type}
    [Lockable τ]
    (custody : Custody τ)
    (event : CustodyEvent) :
    (custody.callsOf event).foldl Lockable.after custody.tree = (custody.step event).tree := by
  cases event with
  | call call => rfl
  | create owner => rfl
  | freeze place node =>
      simp only [step, callsOf]
      cases custody.guards[place]? with
      | none => rfl
      | some guard =>
          have taken := guard.finalState_take node custody.tree
          cases asked : guard.take node custody.tree with
          | ok grown tree =>
              rw [asked] at taken
              simp only [asked]
              exact taken.symm
          | error error tree =>
              rw [asked] at taken
              simp only [asked]
              exact taken.symm
  | release place =>
      simp only [step, callsOf]
      cases custody.guards[place]? with
      | none => rfl
      | some guard => exact (Guard.drain_tree guard.owner guard.held (.ok ()) custody.tree).symm
  | drop place =>
      simp only [step, callsOf]
      cases custody.guards[place]? with
      | none => rfl
      | some guard => exact (Guard.drain_tree guard.owner guard.held (.ok ()) custody.tree).symm

theorem tree_step
    (custody : Custody Tree)
    (event : CustodyEvent) :
    (custody.step event).tree = custody.tree.performAll (custody.callsOf event) := by
  rw [← foldl_callsOf, Tree.foldl_after]

theorem performAll_callsOf
    (custody : Custody WordTree)
    (event : CustodyEvent) :
    custody.tree.performAll (custody.callsOf event) = (custody.step event).tree :=
  foldl_callsOf custody event

theorem tree_run
    (custody : Custody Tree)
    (events : List CustodyEvent) :
    (custody.run events).tree = custody.tree.performAll (custody.calls events) := by
  induction events generalizing custody with
  | nil => rfl
  | cons event events inductionHypothesis =>
      rw [calls, Tree.performAll_append, ← tree_step]
      exact inductionHypothesis (custody.step event)

/-! ## What guards remember -/

theorem contains_performAll
    {tree : Tree}
    {node : NodeId}
    (present : tree.contains node = true)
    (calls : List TreeCall) :
    (tree.performAll calls).contains node = true := by
  induction calls generalizing tree with
  | nil => exact present
  | cons call calls inductionHypothesis =>
      refine inductionHypothesis (Tree.contains_iff.mpr ?_)
      exact Nat.lt_of_lt_of_le (Tree.contains_iff.mp present) (tree.size_le_perform call)

/-- A guard that lives after an event lived before it and remembers no more, or is new,
or has just taken a hold on a node that there is. -/
theorem held_step
    {event : CustodyEvent}
    {guard : Guard}
    (member : guard ∈ (custody.step event).guards)
    {node : NodeId}
    (held : node ∈ guard.held) :
    (∃ older ∈ custody.guards, node ∈ older.held) ∨ custody.tree.contains node = true := by
  cases event with
  | call call => exact Or.inl ⟨guard, member, held⟩
  | create owner =>
      rcases List.mem_append.mp member with old | new
      · exact Or.inl ⟨guard, old, held⟩
      · cases List.mem_singleton.mp new
        cases held
  | freeze place taken =>
      simp only [step] at member
      cases found : custody.guards[place]? with
      | none =>
          rw [found] at member
          exact Or.inl ⟨guard, member, held⟩
      | some older =>
          rcases guard_take_cases older taken custody.tree with
            ⟨present, got⟩ | ⟨error, refused⟩
          · simp only [found, got] at member
            rcases List.mem_or_eq_of_mem_set member with old | rfl
            · exact Or.inl ⟨guard, old, held⟩
            · rcases List.mem_cons.mp held with rfl | earlier
              · exact Or.inr present
              · exact Or.inl ⟨older, List.mem_of_getElem? found, earlier⟩
          · simp only [found, refused] at member
            exact Or.inl ⟨guard, member, held⟩
  | release place =>
      simp only [step] at member
      cases found : custody.guards[place]? with
      | none =>
          rw [found] at member
          exact Or.inl ⟨guard, member, held⟩
      | some older =>
          simp only [found, Guard.drain_eq] at member
          rcases List.mem_or_eq_of_mem_set member with old | rfl
          · exact Or.inl ⟨guard, old, held⟩
          · cases held
  | drop place =>
      simp only [step] at member
      cases found : custody.guards[place]? with
      | none =>
          rw [found] at member
          exact Or.inl ⟨guard, member, held⟩
      | some older =>
          simp only [found] at member
          exact Or.inl ⟨guard, List.mem_of_mem_eraseIdx member, held⟩

theorem Known.step
    (known : custody.Known)
    (event : CustodyEvent) :
    (custody.step event).Known := by
  intro guard member node held
  have present : custody.tree.contains node = true := by
    rcases held_step member held with ⟨older, lived, remembered⟩ | present
    · exact known older lived node remembered
    · exact present
  rw [tree_step]
  exact contains_performAll present _

theorem Known.run
    (known : custody.Known)
    (events : List CustodyEvent) :
    (custody.run events).Known := by
  induction events generalizing custody with
  | nil => exact known
  | cons event events inductionHypothesis => exact inductionHypothesis (known.step event)

/-! ## Guards on a tree that counts in words -/

/-- Every event asks for one hold at most. -/
theorem countP_callsOf_le
    {τ : Type}
    (custody : Custody τ)
    (event : CustodyEvent) :
    (custody.callsOf event).countP (·.asks) ≤ 1 := by
  have given : ∀ (owner : Owner) (held : List NodeId),
      (held.map fun node => TreeCall.unfreeze node owner).countP (·.asks) ≤ 1 := by
    intro owner held
    rw [List.countP_map]
    refine Nat.le_trans (Nat.le_of_eq ?_) (Nat.zero_le 1)
    exact List.countP_eq_zero.mpr fun node _ => Bool.false_ne_true
  cases event with
  | call call => exact List.countP_le_length
  | create owner => exact Nat.zero_le 1
  | freeze place node =>
      simp only [callsOf]
      cases custody.guards[place]? with
      | none => exact Nat.zero_le 1
      | some guard => exact List.countP_le_length
  | release place =>
      simp only [callsOf]
      cases custody.guards[place]? with
      | none => exact Nat.zero_le 1
      | some guard => exact given guard.owner guard.held
  | drop place =>
      simp only [callsOf]
      cases custody.guards[place]? with
      | none => exact Nat.zero_le 1
      | some guard => exact given guard.owner guard.held

theorem countP_calls_le
    {τ : Type}
    [Lockable τ]
    (custody : Custody τ)
    (events : List CustodyEvent) :
    (custody.calls events).countP (·.asks) ≤ events.length := by
  induction events generalizing custody with
  | nil => exact Nat.le_refl 0
  | cons event events inductionHypothesis =>
      have first := countP_callsOf_le custody event
      have rest := inductionHypothesis (custody.step event)
      rw [calls, List.countP_append, List.length_cons]
      omega

theorem callsOf_words
    (custody : Custody Tree)
    (event : CustodyEvent) :
    custody.words.callsOf event = custody.callsOf event := rfl

/-- Counts that are words are no different for an event. -/
theorem step_words
    (fits : custody.tree.Fits)
    (balanced : custody.tree.Balanced)
    (event : CustodyEvent) :
    custody.words.step event = (custody.step event).words := by
  cases event with
  | call call =>
      have same := Tree.perform_words fits balanced call
      rw [← Tree.finalState_answer] at same
      exact congrArg (Custody.mk · custody.guards) same
  | create owner => rfl
  | freeze place node =>
      simp only [step, words]
      cases custody.guards[place]? with
      | none => rfl
      | some guard =>
          simp only [Guard.take_words fits balanced]
          cases guard.take node custody.tree <;> rfl
  | release place =>
      simp only [step, words]
      cases custody.guards[place]? with
      | none => rfl
      | some guard => simp only [Guard.drain_words fits balanced]
  | drop place =>
      simp only [step, words]
      cases custody.guards[place]? with
      | none => rfl
      | some guard => simp only [Guard.drain_words fits balanced]

/-- As long as no call takes one hold too many, the same guards make the same calls. -/
theorem run_words
    {events : List CustodyEvent}
    (fits : custody.tree.Fits)
    (balanced : custody.tree.Balanced)
    (contained : custody.tree.words.NeverOverflows (custody.words.calls events)) :
    custody.words.run events = (custody.run events).words ∧
      custody.words.calls events = custody.calls events := by
  induction events generalizing custody with
  | nil => exact ⟨rfl, rfl⟩
  | cons event events inductionHypothesis =>
      rw [calls, callsOf_words, WordTree.neverOverflows_append] at contained
      obtain ⟨now, later⟩ := contained
      obtain ⟨same, fitsAfter⟩ := Tree.performAll_words fits balanced now List.prefix_rfl
      have balancedAfter := balanced.performAll (custody.callsOf event)
      rw [← tree_step] at same fitsAfter balancedAfter
      rw [same, step_words fits balanced] at later
      obtain ⟨run, callsAfter⟩ := inductionHypothesis fitsAfter balancedAfter later
      refine ⟨?_, ?_⟩
      · change (custody.words.step event).run events = _
        rw [step_words fits balanced, run]
        rfl
      · rw [calls, calls, step_words fits balanced, callsAfter, callsOf_words]

/-! ## The law of the lock among guards -/

/-- An event that does not overflow makes no call that does. -/
theorem neverOverflows_callsOf
    {custody : Custody WordTree}
    {event : CustodyEvent}
    (contained : custody.overflows event = false) :
    custody.tree.NeverOverflows (custody.callsOf event) := by
  cases event with
  | call call => exact ⟨of_decide_eq_false contained, trivial⟩
  | create owner => trivial
  | freeze place node =>
      simp only [overflows] at contained
      simp only [callsOf]
      cases found : custody.guards[place]? with
      | none => trivial
      | some guard =>
          rw [found] at contained
          exact ⟨of_decide_eq_false contained, trivial⟩
  | release place =>
      simp only [callsOf]
      cases custody.guards[place]? with
      | none => trivial
      | some guard => exact WordTree.neverOverflows_unfreeze custody.tree guard.owner guard.held
  | drop place =>
      simp only [callsOf]
      cases custody.guards[place]? with
      | none => trivial
      | some guard => exact WordTree.neverOverflows_unfreeze custody.tree guard.owner guard.held

/-- Where events that overflow are stopped, no call takes one hold too many. -/
theorem neverOverflows_admitted
    (custody : Custody WordTree)
    (events : List CustodyEvent) :
    custody.tree.NeverOverflows (custody.calls (custody.admitted events)) := by
  induction events generalizing custody with
  | nil => trivial
  | cons event events inductionHypothesis =>
      rw [admitted]
      split
      · exact inductionHypothesis custody
      · next contained =>
          rw [calls, WordTree.neverOverflows_append, performAll_callsOf]
          refine ⟨neverOverflows_callsOf (eq_false_of_ne_true contained), ?_⟩
          exact inductionHypothesis (custody.step event)

/-- What holds after some events on a new tree that counts in words. -/
structure Worded (kind : StatementKind) (events : List CustodyEvent) : Prop where
  /-- The tree and its guards are what they are with exact counts. -/
  run_eq : (wordsOfKind kind).run events = ((ofKind kind).run events).words
  /-- The same calls were made on the tree. -/
  calls_eq : (wordsOfKind kind).calls events = (ofKind kind).calls events
  /-- At every moment, also in the middle of a release, every count was exact. -/
  counted : ∀ past, past <+: (wordsOfKind kind).calls events -> ∀ node,
    (((WordTree.ofKind kind).performAll past).hold node).count.toNat =
      (((Tree.ofKind kind).performAll past).hold node).count
  /-- A node had an owner exactly while its count was positive. -/
  owned : ∀ past, past <+: (wordsOfKind kind).calls events -> ∀ node,
    (((WordTree.ofKind kind).performAll past).frozenBy node).isSome = true ↔
      0 < (((WordTree.ofKind kind).performAll past).hold node).count
  /-- Every call was answered, and left the tree, as with exact counts. -/
  answered : ∀ past, past <+: (wordsOfKind kind).calls events -> ∀ call,
    WordTree.answer call ((WordTree.ofKind kind).performAll past) =
      Operation.mapState Tree.words (Tree.answer call ((Tree.ofKind kind).performAll past))
  /-- A hold that was given back left one less. -/
  lowered : ∀ past, past <+: (wordsOfKind kind).calls events -> ∀ node owner after,
    WordTree.unfreeze node owner ((WordTree.ofKind kind).performAll past) = .ok () after ->
    (after.hold node).count.toNat + 1 =
      (((WordTree.ofKind kind).performAll past).hold node).count.toNat
  /-- A guard that is released or dropped next reports what it reports with exact counts. -/
  drains : ∀ guard ∈ ((wordsOfKind kind).run events).guards,
    Guard.drain guard.owner guard.held (.ok ()) ((wordsOfKind kind).run events).tree =
      ((Guard.drain guard.owner guard.held (.ok ()) ((ofKind kind).run events).tree).1,
        (Guard.drain guard.owner guard.held (.ok ()) ((ofKind kind).run events).tree).2.1,
        (Guard.drain guard.owner guard.held (.ok ()) ((ofKind kind).run events).tree).2.2.words)

/-- As long as no call takes one hold too many, words count as well as numbers. -/
theorem worded_of_neverOverflows
    {kind : StatementKind}
    {events : List CustodyEvent}
    (contained : (WordTree.ofKind kind).NeverOverflows ((wordsOfKind kind).calls events)) :
    Worded kind events := by
  have fits : (Tree.ofKind kind).Fits := Tree.fits_ofKind kind
  have balanced : (Tree.ofKind kind).Balanced := Tree.balanced_ofKind kind
  rw [← Tree.words_ofKind] at contained
  have moment : ∀ past, past <+: (wordsOfKind kind).calls events ->
      (WordTree.ofKind kind).performAll past = ((Tree.ofKind kind).performAll past).words ∧
        ((Tree.ofKind kind).performAll past).Fits := by
    rw [← Tree.words_ofKind]
    exact fun past earlier => Tree.performAll_words fits balanced contained earlier
  have same := @run_words (ofKind kind) events fits balanced
  rw [words_ofKind] at same
  obtain ⟨run, calls⟩ := same contained
  refine ⟨run, calls, ?_, ?_, ?_, ?_, ?_⟩
  · intro past earlier node
    obtain ⟨same, fitsThen⟩ := moment past earlier
    rw [same]
    exact Tree.toNat_count_words fitsThen node
  · intro past earlier node
    obtain ⟨same, fitsThen⟩ := moment past earlier
    rw [same]
    exact Tree.isSome_frozenBy_words_iff fitsThen (balanced.performAll past) node
  · intro past earlier call
    obtain ⟨same, fitsThen⟩ := moment past earlier
    rw [same]
    exact Tree.answer_words fitsThen (balanced.performAll past) call
  · intro past earlier node owner after done
    obtain ⟨same, fitsThen⟩ := moment past earlier
    rw [same] at done ⊢
    exact Tree.count_of_unfreeze_words fitsThen (balanced.performAll past) done
  · intro guard _
    have fitsEnd := (moment _ List.prefix_rfl).2
    have balancedEnd := balanced.performAll ((ofKind kind).calls events)
    have reached := tree_run (ofKind kind) events
    rw [calls] at fitsEnd
    rw [run]
    refine Guard.drain_words ?_ ?_ guard.owner guard.held (.ok ())
    · rw [reached]
      exact fitsEnd
    · rw [reached]
      exact balancedEnd

/-- What holds after any events on a new tree. -/
structure Lawful (kind : StatementKind) (events : List CustodyEvent) : Prop where
  /-- The tree is what the calls of the events make of it. -/
  tree_eq : ((ofKind kind).run events).tree =
    (Tree.ofKind kind).performAll ((ofKind kind).calls events)
  /-- The law of the lock was kept at every moment, also in the middle of a release. -/
  locked : ∀ past future, (ofKind kind).calls events = past ++ future ->
    (Tree.ofKind kind).LockLaw past
  /-- A guard cannot take a node that another owner has, and its try changes nothing. -/
  refused : ∀ guard ∈ ((ofKind kind).run events).guards, ∀ node owner,
    ((ofKind kind).run events).tree.frozenBy node = some owner -> owner ≠ guard.owner ->
    guard.freeze node ((ofKind kind).run events).tree =
      .error (.frozenByOther node owner) ((ofKind kind).run events).tree
  /-- A guard that is released or dropped next gives back what its owner still has. -/
  releases : ∀ place guard, ((ofKind kind).run events).guards[place]? = some guard ->
    ∃ outcome emptied after,
      Guard.drain guard.owner guard.held (.ok ()) ((ofKind kind).run events).tree =
        (outcome, emptied, after) ∧
      guard.Releases ((ofKind kind).run events).tree outcome emptied after ∧
      (ofKind kind).run (events ++ [.release place]) =
        ⟨after, ((ofKind kind).run events).guards.set place emptied⟩ ∧
      (ofKind kind).run (events ++ [.drop place]) =
        ⟨after, ((ofKind kind).run events).guards.eraseIdx place⟩
  /-- Counts in words are as good as exact ones while no hold is one too many. -/
  worded : (WordTree.ofKind kind).NeverOverflows ((wordsOfKind kind).calls events) ->
    Worded kind events
  /-- They are not any longer: a hold too many leaves an owner and a count of zero. -/
  tight : (∀ past, past <+: (wordsOfKind kind).calls events -> ∀ node,
      (((WordTree.ofKind kind).performAll past).frozenBy node).isSome = true ↔
        0 < (((WordTree.ofKind kind).performAll past).hold node).count) ->
    (WordTree.ofKind kind).NeverOverflows ((wordsOfKind kind).calls events)
  /-- Where an event that takes a hold too many is stopped, they always are. -/
  checked : Worded kind ((wordsOfKind kind).admitted events)
  /-- Fewer events than there are words never take a hold too many. -/
  few : events.length < UInt32.size ->
    (WordTree.ofKind kind).NeverOverflows ((wordsOfKind kind).calls events)

/-- Direct calls and guards of any owners, in any order, keep the law of the lock: a node
has an owner exactly while its count is positive, all its holds are holds of that owner,
taken and not given back since the node was last free, and nobody else changes them. A
guard that is released or dropped forgets its holds, takes from each node no more than
its owner still has there, and reports the first hold that the owner had no more. A count
is a word of 32 bits: everything is so with words as well, exactly as long as nobody takes a
hold on a node whose count is the greatest word, and so after fewer events than there are
words. -/
theorem run_lawful
    (kind : StatementKind)
    (events : List CustodyEvent) :
    Lawful kind events := by
  have free : ∀ node, (Tree.ofKind kind).hold node = {} := fun node => Tree.hold_ofKind kind node
  have reached := tree_run (ofKind kind) events
  have start : (ofKind kind).Known := nofun
  have known : ((ofKind kind).run events).Known := start.run events
  have balanced : ((ofKind kind).run events).tree.Balanced := by
    rw [reached]
    exact (Tree.balanced_ofKind kind).performAll _
  refine ⟨reached, fun past _ _ => Tree.lockLaw_of_free free past, ?_, ?_,
    worded_of_neverOverflows, WordTree.neverOverflows_of_owned,
    worded_of_neverOverflows (neverOverflows_admitted (wordsOfKind kind) events), fun few => ?_⟩
  · intro guard member node owner held differs
    unfold Guard.freeze
    exact Operation.bind_of_error
      (Tree.freeze_of_other (Tree.contains_of_frozenBy held) held differs)
  · intro place guard found
    have member := List.mem_of_getElem? found
    refine ⟨_, _, _, rfl, Guard.releases_drain balanced (known guard member), ?_, ?_⟩
    · rw [run_concat, step_release found]
    · rw [run_concat, step_drop found]
  · rw [← Tree.words_ofKind]
    refine Tree.neverOverflows_of_few (Tree.balanced_ofKind kind) fun node => ?_
    have asked := countP_calls_le (wordsOfKind kind) events
    rw [free node, show ({} : Hold).count = 0 from rfl]
    omega

end Custody
end QueryGraph
