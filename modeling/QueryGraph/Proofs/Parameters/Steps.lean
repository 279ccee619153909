import Mathlib.Logic.Function.Basic
import QueryGraph.Parameters
import QueryGraph.Proofs.Entries
import QueryGraph.Proofs.Operation

/-!
# Registering a placeholder

A registration is refused where a name has another node, or where a positional placeholder is
listed already, and a refused one changes nothing. A registry that keeps a table beside each list,
from names to nodes and from nodes to positions, and answers from the tables, gives the same answer
and goes on to tables that again tell what searching the lists finds.
-/

namespace QueryGraph
namespace ParameterRegistry

variable {registry after : ParameterRegistry} {name : String} {parameter first : NodeId}
  {position : Nat}

/-! ## Nodes of names and positions -/

/-- The node of a name. -/
def node? (registry : ParameterRegistry) (name : String) : Option NodeId :=
  registry.named.lookup name

/-- A registry that lists another name with its node. -/
def withNamed
    (registry : ParameterRegistry)
    (name : String)
    (parameter : NodeId) : ParameterRegistry :=
  { registry with named := registry.named ++ [(name, parameter)] }

/-- A registry that lists another positional placeholder. -/
def withAnonymous
    (registry : ParameterRegistry)
    (parameter : NodeId) : ParameterRegistry :=
  { registry with anonymous := registry.anonymous ++ [parameter] }

/-- A new name is found with its node, and the other names with theirs. -/
theorem node?_withNamed
    (new : registry.node? name = none) :
    (registry.withNamed name parameter).node? =
      Function.update registry.node? name (some parameter) := by
  funext other
  unfold node? at new
  unfold node? withNamed
  rw [Entries.lookup_append_singleton]
  by_cases same : other = name
  · rw [same, new, if_pos rfl, Function.update_self]
    rfl
  · rw [if_neg same, Option.or_none, Function.update_of_ne same]

/-- Only what is listed has a position. -/
theorem position?_eq_none_iff :
    registry.position? parameter = none ↔ parameter ∉ registry.anonymous := by
  rw [position?, Option.map_eq_none_iff, List.idxOf?_eq_none_iff]

/-- Where nothing is listed twice, the positions are the places in the list, counted from one. -/
theorem position?_eq_some_iff
    (nodup : registry.anonymous.Nodup) :
    registry.position? parameter = some position ↔
      ∃ index, position = index + 1 ∧ registry.anonymous[index]? = some parameter := by
  simp only [position?, Option.map_eq_some_iff, List.idxOf?_eq_some_iff]
  constructor
  · rintro ⟨index, ⟨inside, here, -⟩, rfl⟩
    exact ⟨index, rfl, List.getElem?_eq_some_iff.mpr ⟨inside, here⟩⟩
  · rintro ⟨index, rfl, listed⟩
    obtain ⟨inside, here⟩ := List.getElem?_eq_some_iff.mp listed
    refine ⟨index, ⟨inside, here, fun other before same => ?_⟩, rfl⟩
    have listedBefore : registry.anonymous[other]? = some parameter :=
      List.getElem?_eq_some_iff.mpr ⟨Nat.lt_trans before inside, same⟩
    have equal := (List.getElem?_inj inside nodup).mp (listed.trans listedBefore.symm)
    omega

/-- A new positional placeholder has the next position, and the others keep theirs. -/
theorem position?_withAnonymous
    (new : parameter ∉ registry.anonymous) :
    (registry.withAnonymous parameter).position? =
      Function.update registry.position? parameter (some (registry.anonymous.length + 1)) := by
  funext other
  have unknown : registry.anonymous.idxOf? parameter = none := List.idxOf?_eq_none_iff.mpr new
  unfold position? withAnonymous
  unfold List.idxOf? at unknown ⊢
  by_cases same : other = parameter
  · subst same
    simp [List.findIdx?_append, unknown]
  · have differs : ¬ parameter = other := fun equal => same equal.symm
    simp [List.findIdx?_append, Function.update_of_ne same, List.findIdx?_cons, differs]

/-! ## One registration -/

/-- A name that has a node is accepted with that node only. -/
theorem registerNamed_apply
    (registry : ParameterRegistry)
    (name : String)
    (parameter : NodeId) :
    registerNamed name parameter registry =
      match registry.node? name with
      | some first =>
          if first = parameter then .ok () registry
          else .error (.namedParameterConflict name first parameter) registry
      | none => .ok () (registry.withNamed name parameter) := by
  unfold registerNamed node?
  rw [Operation.bind_of_ok (Operation.get_apply registry)]
  cases registry.named.lookup name with
  | none => rfl
  | some first => by_cases same : first = parameter <;> simp [same]

/-- A positional placeholder that is listed is not accepted. -/
theorem registerAnonymous_apply
    (registry : ParameterRegistry)
    (parameter : NodeId) :
    registerAnonymous parameter registry =
      if parameter ∈ registry.anonymous then .error (.anonymousParameterReused parameter) registry
      else .ok (registry.anonymous.length + 1) (registry.withAnonymous parameter) := by
  unfold registerAnonymous
  rw [Operation.bind_of_ok (Operation.get_apply registry)]
  by_cases known : parameter ∈ registry.anonymous
  · simp only [if_pos known, Operation.throw_apply]
  · simp only [if_neg known]
    rfl

end ParameterRegistry

/-- A registration of a placeholder. -/
inductive ParameterCall
  | named
      (name : String)
      (parameter : NodeId)
  | anonymous (parameter : NodeId)
  deriving DecidableEq, Repr

/-- What a registration is answered. -/
inductive ParameterAnswer
  | registered
  | placed (position : Nat)
  deriving DecidableEq, Repr

namespace ParameterRegistry

variable {registry after : ParameterRegistry} {call : ParameterCall} {name : String}
  {parameter first : NodeId}

/-- Answers a registration. -/
def answer : ParameterCall -> EStateM CompileError ParameterRegistry ParameterAnswer
  | .named name parameter => do
      registerNamed name parameter
      return .registered
  | .anonymous parameter => return .placed (← registerAnonymous parameter)

theorem answer_named_of_known
    (known : registry.node? name = some first) :
    answer (.named name parameter) registry =
      if first = parameter then .ok .registered registry
      else .error (.namedParameterConflict name first parameter) registry := by
  rw [answer, Operation.bind_apply, registerNamed_apply, known]
  by_cases same : first = parameter <;> simp [same]

theorem answer_named_of_new
    (new : registry.node? name = none) :
    answer (.named name parameter) registry =
      .ok .registered (registry.withNamed name parameter) := by
  rw [answer, Operation.bind_apply, registerNamed_apply, new]
  rfl

theorem answer_anonymous_of_known
    (known : parameter ∈ registry.anonymous) :
    answer (.anonymous parameter) registry =
      .error (.anonymousParameterReused parameter) registry := by
  rw [answer, Operation.bind_apply, registerAnonymous_apply, if_pos known]

theorem answer_anonymous_of_new
    (new : parameter ∉ registry.anonymous) :
    answer (.anonymous parameter) registry =
      .ok (.placed (registry.anonymous.length + 1)) (registry.withAnonymous parameter) := by
  rw [answer, Operation.bind_apply, registerAnonymous_apply, if_neg new]
  rfl

/-- A registration is refused, or has nothing to add, or adds to the end of one list. -/
theorem answer_cases
    (call : ParameterCall)
    (registry : ParameterRegistry) :
    (∃ error, answer call registry = .error error registry) ∨
    answer call registry = .ok .registered registry ∨
    (∃ name parameter, call = .named name parameter ∧ registry.node? name = none ∧
      answer call registry = .ok .registered (registry.withNamed name parameter)) ∨
    ∃ parameter, call = .anonymous parameter ∧ parameter ∉ registry.anonymous ∧
      answer call registry =
        .ok (.placed (registry.anonymous.length + 1)) (registry.withAnonymous parameter) := by
  cases call with
  | named name parameter =>
      cases known : registry.node? name with
      | some first =>
          rw [answer_named_of_known known]
          split
          · exact Or.inr (Or.inl rfl)
          · exact Or.inl ⟨_, rfl⟩
      | none =>
          exact Or.inr (Or.inr (Or.inl ⟨name, parameter, rfl, known, answer_named_of_new known⟩))
  | anonymous parameter =>
      by_cases known : parameter ∈ registry.anonymous
      · exact Or.inl ⟨_, answer_anonymous_of_known known⟩
      · exact Or.inr (Or.inr (Or.inr ⟨parameter, rfl, known, answer_anonymous_of_new known⟩))

/-- A registration that is refused changes nothing. -/
theorem eq_of_refused
    {error : CompileError}
    (refused : answer call registry = .error error after) :
    after = registry := by
  obtain ⟨other, done⟩ | done | ⟨_, _, -, -, done⟩ | ⟨_, -, -, done⟩ :=
    answer_cases call registry <;> rw [done] at refused <;> cases refused
  rfl

/-- A registration leaves every positional placeholder where it is listed. -/
theorem anonymous_prefix_of_answer
    (call : ParameterCall)
    (registry : ParameterRegistry) :
    registry.anonymous <+: (Operation.finalState (answer call registry)).anonymous := by
  obtain ⟨error, done⟩ | done | ⟨name, parameter, -, -, done⟩ | ⟨parameter, -, -, done⟩ :=
    answer_cases call registry <;> rw [done]
  · exact List.prefix_rfl
  · exact List.prefix_rfl
  · exact List.prefix_rfl
  · exact List.prefix_append _ _

end ParameterRegistry

/-! ## Tables beside the lists -/

/-- A registry with a table beside each list: the node of every name, and the position of every
positional placeholder. -/
structure IndexedRegistry where
  named : List (String × NodeId) := []
  nodeOf : String -> Option NodeId := fun _ => none
  anonymous : List NodeId := []
  positionOf : NodeId -> Option Nat := fun _ => none

/-- A registry together with what it finds by searching its lists. -/
def ParameterRegistry.indexed (registry : ParameterRegistry) : IndexedRegistry where
  named := registry.named
  nodeOf := registry.node?
  anonymous := registry.anonymous
  positionOf := registry.position?

namespace IndexedRegistry

/-- Answers a registration from the tables. -/
def answer (call : ParameterCall) : EStateM CompileError IndexedRegistry ParameterAnswer := do
  let registry ← get
  match call with
  | .named name parameter =>
      match registry.nodeOf name with
      | some first =>
          if first = parameter then return .registered
          else throw (.namedParameterConflict name first parameter)
      | none =>
          set { registry with
            nodeOf := Function.update registry.nodeOf name (some parameter)
            named := registry.named ++ [(name, parameter)] }
          return .registered
  | .anonymous parameter =>
      if (registry.positionOf parameter).isSome then throw (.anonymousParameterReused parameter)
      else
        let anonymous := registry.anonymous ++ [parameter]
        set { registry with
          anonymous := anonymous
          positionOf := Function.update registry.positionOf parameter (some anonymous.length) }
        return .placed anonymous.length

end IndexedRegistry

namespace ParameterRegistry

/-- Tables that tell what searching the lists finds tell it after another registration as well, and
the answer is the same. -/
theorem answer_indexed
    (call : ParameterCall)
    (registry : ParameterRegistry) :
    IndexedRegistry.answer call registry.indexed =
      Operation.mapState indexed (answer call registry) := by
  unfold IndexedRegistry.answer
  rw [Operation.bind_of_ok (Operation.get_apply _)]
  cases call with
  | named name parameter =>
      cases known : registry.node? name with
      | some first =>
          have found : registry.indexed.nodeOf name = some first := known
          rw [answer_named_of_known known]
          by_cases same : first = parameter <;> simp [found, same, Operation.mapState]
      | none =>
          have missing : registry.indexed.nodeOf name = none := known
          rw [answer_named_of_new known]
          simp only [missing]
          rw [Operation.bind_of_ok (Operation.set_apply _ _)]
          simp only [Operation.pure_apply, Operation.mapState, indexed, node?_withNamed known]
          rfl
  | anonymous parameter =>
      by_cases known : parameter ∈ registry.anonymous
      · have found : (registry.indexed.positionOf parameter).isSome = true := by
          rw [Option.isSome_iff_ne_none]
          exact fun missing => position?_eq_none_iff.mp missing known
        rw [answer_anonymous_of_known known]
        simp [found, Operation.mapState]
      · have missing : registry.indexed.positionOf parameter = none :=
          position?_eq_none_iff.mpr known
        have longer : (registry.anonymous ++ [parameter]).length =
            registry.anonymous.length + 1 := List.length_append
        rw [answer_anonymous_of_new known]
        simp only [missing, Option.isSome_none, Bool.false_eq_true, if_false]
        rw [Operation.bind_of_ok (Operation.set_apply _ _)]
        simp only [Operation.pure_apply, Operation.mapState, indexed, longer,
          position?_withAnonymous known]
        rfl

end ParameterRegistry
end QueryGraph
