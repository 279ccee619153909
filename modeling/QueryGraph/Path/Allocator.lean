import QueryGraph.Compile.Error

/-!
# Allocating path identities

A walk over a tree keeps the surroundings of the current node on a stack and
allocates an identity at every path. A primary allocator records the identities.
A replaying one expects the identities of an earlier walk, in order, and refuses
any other.
-/

namespace QueryGraph

/-- What an allocator does with the identities. -/
inductive AllocatorMode
  | primary (allocated : List PathIdentity)
  | replay
      (expected : List PathIdentity)
      (cursor : Nat)
  deriving DecidableEq, Repr

/-- An allocator of path identities. -/
structure PathAllocator where
  /-- What surrounds the current node, innermost first. -/
  stack : List StackEntry := []
  /-- The path nodes met so far, once for each attempt to allocate. -/
  seen : List NodeId := []
  mode : AllocatorMode := .primary []
  deriving DecidableEq, Repr

namespace PathAllocator

/-- An allocator that records what it allocates. -/
def primary : PathAllocator := {}

/-- An allocator that expects the given identities. -/
def replay (expected : List PathIdentity) : PathAllocator :=
  { mode := .replay expected 0 }

/-- Whether the stack is empty. -/
def isEmpty (allocator : PathAllocator) : Bool := allocator.stack.isEmpty

/-- The innermost entry. -/
def peek (allocator : PathAllocator) : Option StackEntry := allocator.stack.head?

/-- Why an entry may not be pushed onto a stack with the given top. A top-level
statement is at the bottom, a clause follows a statement, and everything else
stands inside a clause. -/
def pushFault? (entry : StackEntry) (top : Option StackEntry) : Option PushFault :=
  match entry with
  | .statement _ kind =>
      if kind.isTopLevel then top.map fun _ => .statementNotAtBottom
      else
        match top with
        | none => some .subqueryAtBottom
        | some top => if top.isStatement then some .subqueryOutsideClause else none
  | .clause _ =>
      match top with
      | none => some .clauseAtBottom
      | some top => if top.isStatement then none else some .clauseWithoutStatement
  | .compound _ | .node _ =>
      match top with
      | none => some .expressionAtBottom
      | some top => if top.isStatement then some .expressionOutsideClause else none

/-- Enters a statement, a clause or an expression. -/
def push (entry : StackEntry) : EStateM CompileError PathAllocator Unit := do
  let allocator ← get
  match pushFault? entry allocator.peek with
  | some fault => throw (.invalidStackPush entry fault)
  | none => set { allocator with stack := entry :: allocator.stack }

/-- Leaves the innermost entry. -/
def pop : EStateM CompileError PathAllocator StackEntry := do
  let allocator ← get
  match allocator.stack with
  | [] => throw .emptyPathStack
  | top :: rest =>
      set { allocator with stack := rest }
      return top

/-- Allocates the identity of the path on top of the stack. The attempt counts as
an occurrence even when a replaying allocator refuses it. -/
def allocate : EStateM CompileError PathAllocator PathIdentity := do
  let allocator ← get
  match allocator.stack with
  | [] => throw .emptyPathStack
  | .node node :: around =>
      let identity : PathIdentity := ⟨node, around, allocator.seen.count node⟩
      let allocator := { allocator with seen := node :: allocator.seen }
      match allocator.mode with
      | .primary allocated =>
          set { allocator with mode := .primary (allocated ++ [identity]) }
          return identity
      | .replay expected cursor =>
          set allocator
          match expected[cursor]? with
          | none => throw (.pathIdentityOverflow expected.length)
          | some next =>
              if next = identity then
                set { allocator with mode := .replay expected (cursor + 1) }
                return next
              else throw (.pathIdentityMismatch next identity)
  | other :: _ => throw (.notAPath other)

/-- The identities recorded, or the identities expected. -/
def identities (allocator : PathAllocator) : List PathIdentity :=
  match allocator.mode with
  | .primary allocated => allocated
  | .replay expected _ => expected

/-- An allocator that expects the identities of this one. -/
def replayOf (allocator : PathAllocator) : PathAllocator :=
  replay allocator.identities

/-- Whether every expected identity was allocated. -/
def isExhausted (allocator : PathAllocator) : Bool :=
  match allocator.mode with
  | .primary _ => true
  | .replay expected cursor => cursor == expected.length

end PathAllocator
end QueryGraph
