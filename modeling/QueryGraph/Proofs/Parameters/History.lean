import QueryGraph.Proofs.Parameters.Steps

/-!
# Registering placeholders one after another

Since a refused registration changes nothing, the registrations alone tell what is listed: each
name with the node that it came with first, and each positional placeholder once, both in the order
of first registration. A position that was answered is never given to another placeholder, and
tables that are kept beside the lists from the beginning never part from them.
-/

namespace QueryGraph
namespace ParameterCall

/-- The name that a call registers, with its node. -/
def naming? : ParameterCall -> Option (String × NodeId)
  | named name parameter => some (name, parameter)
  | anonymous _ => none

/-- The node that a call registers without a name. -/
def positional? : ParameterCall -> Option NodeId
  | named _ _ => none
  | anonymous parameter => some parameter

/-- The names of some calls with their nodes, accepted or not. -/
def namings (calls : List ParameterCall) : List (String × NodeId) := calls.filterMap naming?

/-- The nodes without a name of some calls, accepted or not. -/
def positionals (calls : List ParameterCall) : List NodeId := calls.filterMap positional?

/-- The node that a name comes with first. -/
def FirstNamed
    (calls : List ParameterCall)
    (name : String)
    (parameter : NodeId) : Prop :=
  ∃ before after, calls = before ++ named name parameter :: after ∧
    ∀ other, named name other ∉ before

variable {call : ParameterCall} {calls : List ParameterCall} {name : String} {parameter : NodeId}

theorem naming?_eq_some_iff :
    call.naming? = some (name, parameter) ↔ call = named name parameter := by
  cases call <;> simp [naming?]

theorem positional?_eq_some_iff :
    call.positional? = some parameter ↔ call = anonymous parameter := by
  cases call <;> simp [positional?]

theorem mem_namings : (name, parameter) ∈ namings calls ↔ named name parameter ∈ calls := by
  simp only [namings, List.mem_filterMap, naming?_eq_some_iff, exists_eq_right]

theorem mem_positionals : parameter ∈ positionals calls ↔ anonymous parameter ∈ calls := by
  simp only [positionals, List.mem_filterMap, positional?_eq_some_iff, exists_eq_right]

theorem namings_append (calls more : List ParameterCall) :
    namings (calls ++ more) = namings calls ++ namings more :=
  List.filterMap_append

theorem positionals_append (calls more : List ParameterCall) :
    positionals (calls ++ more) = positionals calls ++ positionals more :=
  List.filterMap_append

/-- Looking up a name finds the node that it comes with first. -/
theorem lookup_namings_eq_some_iff :
    (namings calls).lookup name = some parameter ↔ FirstNamed calls name parameter := by
  rw [List.lookup_eq_some_iff]
  constructor
  · rintro ⟨front, back, split, others⟩
    obtain ⟨first, second, rfl, rfl, rest⟩ := List.filterMap_eq_append_iff.mp split
    obtain ⟨skipped, call, after, rfl, unnamed, isNamed, -⟩ :=
      List.filterMap_eq_cons_iff.mp rest
    cases naming?_eq_some_iff.mp isNamed
    -- The calls before the one that is found register other names, or none.
    refine ⟨first ++ skipped, after, by simp, fun other member => ?_⟩
    rcases List.mem_append.mp member with early | late
    · have differs := others _ (mem_namings.mpr early)
      simp at differs
    · cases unnamed _ late
  · rintro ⟨before, after, rfl, new⟩
    refine ⟨namings before, namings after, by simp [namings, naming?], ?_⟩
    rintro ⟨other, node⟩ member
    have named := mem_namings.mp member
    simp only [bne_iff_ne, ne_eq]
    rintro rfl
    exact new node named

end ParameterCall

open ParameterCall

/-! ## Registrations one after another -/

/-- The tables and lists that registrations leave, one after the other, whether or not they are
refused. -/
def IndexedRegistry.performAll
    (registry : IndexedRegistry)
    (calls : List ParameterCall) : IndexedRegistry :=
  calls.foldl (fun registry call => Operation.finalState (answer call registry)) registry

namespace ParameterRegistry

variable {registry : ParameterRegistry} {calls : List ParameterCall} {name : String}
  {parameter : NodeId} {position : Nat}

/-- The lists that registrations leave, one after the other, whether or not they are refused. -/
def performAll
    (registry : ParameterRegistry)
    (calls : List ParameterCall) : ParameterRegistry :=
  calls.foldl (fun registry call => Operation.finalState (answer call registry)) registry

theorem performAll_append
    (registry : ParameterRegistry)
    (calls more : List ParameterCall) :
    registry.performAll (calls ++ more) = (registry.performAll calls).performAll more :=
  List.foldl_append

theorem performAll_append_singleton
    (registry : ParameterRegistry)
    (calls : List ParameterCall)
    (call : ParameterCall) :
    registry.performAll (calls ++ [call]) =
      Operation.finalState (answer call (registry.performAll calls)) :=
  registry.performAll_append calls [call]

/-- Tables that are kept along with the lists tell what searching the lists finds. -/
theorem performAll_indexed
    (registry : ParameterRegistry)
    (calls : List ParameterCall) :
    registry.indexed.performAll calls = (registry.performAll calls).indexed := by
  induction calls generalizing registry with
  | nil => rfl
  | cons call calls inductionHypothesis =>
      change IndexedRegistry.performAll
          (Operation.finalState (IndexedRegistry.answer call registry.indexed)) calls =
        ((Operation.finalState (answer call registry)).performAll calls).indexed
      rw [answer_indexed, Operation.finalState_mapState, inductionHypothesis]

/-- Whatever is registered later, a positional placeholder stays where it is listed. -/
theorem anonymous_prefix_performAll
    (registry : ParameterRegistry)
    (calls : List ParameterCall) :
    registry.anonymous <+: (registry.performAll calls).anonymous := by
  induction calls generalizing registry with
  | nil => exact List.prefix_rfl
  | cons call calls inductionHypothesis =>
      exact (anonymous_prefix_of_answer call registry).trans (inductionHypothesis _)

/-- A registry that lists what some registrations were about. -/
structure Reflects
    (registry : ParameterRegistry)
    (calls : List ParameterCall) : Prop where
  names : registry.named.map Prod.fst = ((namings calls).map Prod.fst).eraseDups
  node : ∀ name, registry.node? name = (namings calls).lookup name
  anonymous : registry.anonymous = (positionals calls).eraseDups

namespace Reflects

theorem empty : Reflects {} [] := ⟨rfl, fun _ => rfl, rfl⟩

/-- Registering a name keeps to what the registrations were about. -/
theorem register_named
    (reflects : registry.Reflects calls)
    (name : String)
    (parameter : NodeId) :
    (Operation.finalState (answer (.named name parameter) registry)).Reflects
      (calls ++ [.named name parameter]) := by
  have same : positionals (calls ++ [.named name parameter]) = positionals calls := by
    rw [positionals_append]
    exact List.append_nil _
  have names : ((namings (calls ++ [.named name parameter])).map Prod.fst).eraseDups =
      if name ∈ registry.named.map Prod.fst then registry.named.map Prod.fst
      else registry.named.map Prod.fst ++ [name] := by
    rw [namings_append, List.map_append]
    change ((namings calls).map Prod.fst ++ [name]).eraseDups = _
    simp only [Entries.eraseDups_append_singleton, reflects.names, List.mem_eraseDups]
  have node (other : String) : (namings (calls ++ [.named name parameter])).lookup other =
      (registry.node? other).or (if other = name then some parameter else none) := by
    rw [namings_append, reflects.node]
    exact Entries.lookup_append_singleton _ _ _ _
  cases known : registry.node? name with
  | some first =>
      have listed : name ∈ registry.named.map Prod.fst :=
        List.mem_map.mpr ⟨_, Entries.mem_of_lookup known, rfl⟩
      have unchanged : Operation.finalState (answer (.named name parameter) registry) =
          registry := by
        rw [answer_named_of_known known]
        split <;> rfl
      rw [if_pos listed] at names
      rw [unchanged]
      refine ⟨names.symm, fun other => ?_, same ▸ reflects.anonymous⟩
      rw [node]
      by_cases again : other = name
      · rw [again, known]
        rfl
      · rw [if_neg again, Option.or_none]
  | none =>
      rw [if_neg (Entries.lookup_eq_none_iff.mp known)] at names
      rw [answer_named_of_new known, Operation.finalState_ok]
      refine ⟨List.map_append.trans names.symm, fun other => ?_, same ▸ reflects.anonymous⟩
      rw [node, node?_withNamed known]
      by_cases again : other = name
      · rw [again, Function.update_self, known, if_pos rfl]
        rfl
      · rw [Function.update_of_ne again, if_neg again, Option.or_none]

/-- Registering a positional placeholder keeps to what the registrations were about. -/
theorem register_anonymous
    (reflects : registry.Reflects calls)
    (parameter : NodeId) :
    (Operation.finalState (answer (.anonymous parameter) registry)).Reflects
      (calls ++ [.anonymous parameter]) := by
  have same : namings (calls ++ [.anonymous parameter]) = namings calls := by
    rw [namings_append]
    exact List.append_nil _
  have longer : (positionals (calls ++ [.anonymous parameter])).eraseDups =
      if parameter ∈ registry.anonymous then registry.anonymous
      else registry.anonymous ++ [parameter] := by
    rw [positionals_append]
    change (positionals calls ++ [parameter]).eraseDups = _
    simp only [Entries.eraseDups_append_singleton, reflects.anonymous, List.mem_eraseDups]
  by_cases known : parameter ∈ registry.anonymous
  · rw [answer_anonymous_of_known known]
    rw [if_pos known] at longer
    exact ⟨same ▸ reflects.names, same ▸ reflects.node, longer.symm⟩
  · rw [answer_anonymous_of_new known]
    rw [if_neg known] at longer
    exact ⟨same ▸ reflects.names, same ▸ reflects.node, longer.symm⟩

end Reflects

/-- A registry lists what all registrations so far were about, accepted or not. -/
theorem reflects_performAll (calls : List ParameterCall) :
    (performAll {} calls).Reflects calls := by
  -- From the end: the last registration is answered by what all others left.
  induction calls using List.reverseRecOn with
  | nil => exact Reflects.empty
  | append_singleton calls call reflects =>
      rw [performAll_append_singleton]
      cases call with
      | named name parameter => exact reflects.register_named name parameter
      | anonymous parameter => exact reflects.register_anonymous parameter

example : performAll {} [.named "id" ⟨3⟩, .anonymous ⟨8⟩, .named "id" ⟨4⟩, .anonymous ⟨2⟩,
    .anonymous ⟨8⟩] = ⟨[("id", ⟨3⟩)], [⟨8⟩, ⟨2⟩]⟩ := by
  decide

/-! ## The law of registrations -/

/-- What some registrations on an empty registry come to. -/
structure Lawful
    (calls : List ParameterCall)
    (registry : ParameterRegistry) : Prop where
  /-- Each name is listed once, in the order of first registration. -/
  names : registry.named.map Prod.fst = ((namings calls).map Prod.fst).eraseDups
  distinct : (registry.named.map Prod.fst).Nodup
  /-- It is listed with the node that it was registered with first. -/
  node : ∀ name parameter,
    (name, parameter) ∈ registry.named ↔ FirstNamed calls name parameter
  /-- Each positional placeholder is listed once, in the order of first registration. -/
  anonymous : registry.anonymous = (positionals calls).eraseDups
  nodup : registry.anonymous.Nodup
  /-- Its position is its place in the list, counted from one. -/
  position : ∀ parameter position, registry.position? parameter = some position ↔
    ∃ index, position = index + 1 ∧ registry.anonymous[index]? = some parameter
  unplaced : ∀ parameter, registry.position? parameter = none ↔ parameter ∉ registry.anonymous
  /-- A position that was answered is still the same. -/
  stays : ∀ before later parameter position left,
    calls = before ++ .anonymous parameter :: later ->
    answer (.anonymous parameter) (performAll {} before) = .ok (.placed position) left ->
    registry.position? parameter = some position
  /-- A registration that is refused next changes nothing. -/
  refused : ∀ call error after, answer call registry = .error error after -> after = registry
  /-- A name that was registered can only be registered with the same node. -/
  named_again : ∀ name first parameter, FirstNamed calls name first ->
    answer (.named name parameter) registry =
      if first = parameter then .ok .registered registry
      else .error (.namedParameterConflict name first parameter) registry
  named_new : ∀ name parameter, (∀ other, .named name other ∉ calls) ->
    answer (.named name parameter) registry = .ok .registered (registry.withNamed name parameter)
  /-- A positional placeholder that was registered cannot be registered again. -/
  anonymous_again : ∀ parameter, .anonymous parameter ∈ calls ->
    answer (.anonymous parameter) registry = .error (.anonymousParameterReused parameter) registry
  anonymous_new : ∀ parameter, .anonymous parameter ∉ calls ->
    answer (.anonymous parameter) registry =
      .ok (.placed (registry.anonymous.length + 1)) (registry.withAnonymous parameter)
  /-- Tables that were kept beside the lists tell what searching the lists finds, and what is
  answered from them is the same. -/
  tables : IndexedRegistry.performAll {} calls = registry.indexed
  tabled : ∀ call, IndexedRegistry.answer call registry.indexed =
    Operation.mapState indexed (answer call registry)

namespace Reflects

theorem distinct (reflects : registry.Reflects calls) : (registry.named.map Prod.fst).Nodup := by
  rw [reflects.names]
  exact Entries.nodup_eraseDups _

theorem nodup (reflects : registry.Reflects calls) : registry.anonymous.Nodup := by
  rw [reflects.anonymous]
  exact Entries.nodup_eraseDups _

theorem node?_eq_some_iff
    (reflects : registry.Reflects calls) :
    registry.node? name = some parameter ↔ FirstNamed calls name parameter := by
  rw [reflects.node, lookup_namings_eq_some_iff]

theorem mem_named
    (reflects : registry.Reflects calls) :
    (name, parameter) ∈ registry.named ↔ FirstNamed calls name parameter := by
  rw [← reflects.node?_eq_some_iff]
  exact (Entries.lookup_eq_some_iff reflects.distinct).symm

theorem node?_eq_none
    (reflects : registry.Reflects calls)
    (new : ∀ other, ParameterCall.named name other ∉ calls) :
    registry.node? name = none := by
  rw [reflects.node, Entries.lookup_eq_none_iff]
  intro listed
  obtain ⟨⟨_, other⟩, member, rfl⟩ := List.mem_map.mp listed
  exact new other (mem_namings.mp member)

theorem mem_anonymous
    (reflects : registry.Reflects calls) :
    parameter ∈ registry.anonymous ↔ .anonymous parameter ∈ calls := by
  rw [reflects.anonymous, List.mem_eraseDups, mem_positionals]

end Reflects

/-- A position that was answered is still the same after any other registrations. -/
theorem position?_of_placed
    {before later : List ParameterCall}
    {left : ParameterRegistry}
    (placed : answer (.anonymous parameter) (performAll {} before) = .ok (.placed position) left) :
    (performAll {} (before ++ .anonymous parameter :: later)).position? parameter =
      some position := by
  have goesOn : performAll {} (before ++ .anonymous parameter :: later) =
      left.performAll later := by
    rw [performAll_append]
    change (Operation.finalState (answer (.anonymous parameter) _)).performAll later = _
    rw [placed, Operation.finalState_ok]
  have nodup := (reflects_performAll (before ++ .anonymous parameter :: later)).nodup
  rw [position?_eq_some_iff nodup, goesOn]
  by_cases known : parameter ∈ (performAll {} before).anonymous
  · rw [answer_anonymous_of_known known] at placed
    cases placed
  · rw [answer_anonymous_of_new known] at placed
    cases placed
    obtain ⟨more, longer⟩ :=
      ((performAll {} before).withAnonymous parameter).anonymous_prefix_performAll later
    refine ⟨_, rfl, ?_⟩
    rw [← longer]
    simp [withAnonymous]

/-- Whatever is registered, and whether or not it is refused, the lists have each name and each
positional placeholder once, in the order of first registration, and agree with the tables beside
them. A name is refused where it has another node, and a positional placeholder where it is listed
already. -/
theorem performAll_lawful (calls : List ParameterCall) : Lawful calls (performAll {} calls) := by
  have reflects := reflects_performAll calls
  refine
    { names := reflects.names
      distinct := reflects.distinct
      node := fun _ _ => reflects.mem_named
      anonymous := reflects.anonymous
      nodup := reflects.nodup
      position := fun _ _ => position?_eq_some_iff reflects.nodup
      unplaced := fun _ => position?_eq_none_iff
      stays := ?_
      refused := fun _ _ _ => eq_of_refused
      named_again := fun _ _ _ first => answer_named_of_known (reflects.node?_eq_some_iff.mpr first)
      named_new := fun _ _ new => answer_named_of_new (reflects.node?_eq_none new)
      anonymous_again := fun _ again => answer_anonymous_of_known (reflects.mem_anonymous.mpr again)
      anonymous_new := fun _ new =>
        answer_anonymous_of_new fun listed => new (reflects.mem_anonymous.mp listed)
      tables := performAll_indexed {} calls
      tabled := fun call => answer_indexed call _ }
  rintro before later parameter position left rfl placed
  exact position?_of_placed placed

end ParameterRegistry
end QueryGraph
