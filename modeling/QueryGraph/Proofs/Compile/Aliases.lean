import Mathlib
import QueryGraph.Proofs.Compile.Numbering

/-!
# Generated aliases

Where no source suggests an alias, every alias is one of the two prefixes followed by the number of
the vertex. Different numbers after the same prefix never read the same. After different prefixes
they do exactly when the longer prefix is the shorter one followed by leading digits of the number
after the shorter one, which a valid configuration does not rule out.
-/

namespace QueryGraph

namespace CompilerConfig

/-- The alias of a number that no suggestion replaces. -/
def generated
    (config : CompilerConfig)
    (isShared : Bool)
    (number : Nat) : String :=
  (if isShared then config.sharedAliasPrefix else config.unsharedAliasPrefix) ++ toString number

/-- A number after the shared prefix reads like another one after the unshared prefix: the longer
prefix ends in digits with which the number after the shorter prefix begins. -/
def Confuses
    (config : CompilerConfig)
    (shared unshared : Nat) : Prop :=
  ∃ digits, digits ≠ "" ∧
    (config.unsharedAliasPrefix = config.sharedAliasPrefix ++ digits ∧
        toString shared = digits ++ toString unshared ∨
      config.sharedAliasPrefix = config.unsharedAliasPrefix ++ digits ∧
        toString unshared = digits ++ toString shared)

/-- A text is another one followed by digits, at least one. -/
def extendsByDigits (longer shorter : String) : Bool :=
  shorter.toList.isPrefixOf longer.toList &&
    (let rest := longer.toList.drop shorter.toList.length
     !rest.isEmpty && rest.all Char.isDigit)

/-- Neither prefix is the other one followed by digits. -/
def isUnambiguous (config : CompilerConfig) : Bool :=
  !extendsByDigits config.sharedAliasPrefix config.unsharedAliasPrefix &&
    !extendsByDigits config.unsharedAliasPrefix config.sharedAliasPrefix

variable {config : CompilerConfig} {shared unshared number other : Nat}

/-- Texts that end in numbers are the same when their beginnings are, or when the longer beginning
takes some digits from the number of the other text. -/
theorem append_toString_eq_iff
    {first second : String} :
    first ++ toString number = second ++ toString other ↔
      first = second ∧ number = other ∨ ∃ digits, digits ≠ "" ∧
        (second = first ++ digits ∧ toString number = digits ++ toString other ∨
          first = second ++ digits ∧ toString other = digits ++ toString number) := by
  have split : first ++ toString number = second ++ toString other ↔
      (∃ digits, second = first ++ digits ∧ toString number = digits ++ toString other) ∨
        ∃ digits, first = second ++ digits ∧ toString other = digits ++ toString number := by
    simp only [← String.toList_inj, String.toList_append, List.append_eq_append_iff]
    exact or_congr ⟨fun ⟨digits, same⟩ => ⟨String.ofList digits, by simpa using same⟩,
        fun ⟨digits, same⟩ => ⟨digits.toList, same⟩⟩
      ⟨fun ⟨digits, same⟩ => ⟨String.ofList digits, by simpa using same⟩,
        fun ⟨digits, same⟩ => ⟨digits.toList, same⟩⟩
  rw [split]
  constructor
  · rintro (⟨digits, same, numbers⟩ | ⟨digits, same, numbers⟩) <;>
      by_cases empty : digits = ""
    · subst empty
      exact Or.inl ⟨by simp [same], Nat.repr_inj.mp (by simpa using numbers)⟩
    · exact Or.inr ⟨digits, empty, Or.inl ⟨same, numbers⟩⟩
    · subst empty
      exact Or.inl ⟨by simp [same], (Nat.repr_inj.mp (by simpa using numbers)).symm⟩
    · exact Or.inr ⟨digits, empty, Or.inr ⟨same, numbers⟩⟩
  · rintro (⟨rfl, rfl⟩ | ⟨digits, -, numbers | numbers⟩)
    · exact Or.inl ⟨"", by simp⟩
    · exact Or.inl ⟨digits, numbers⟩
    · exact Or.inr ⟨digits, numbers⟩

theorem generated_ne
    {isShared : Bool}
    (differs : number ≠ other) :
    config.generated isShared number ≠ config.generated isShared other := by
  intro same
  rcases append_toString_eq_iff.mp same with ⟨-, equal⟩ | ⟨digits, some, ⟨longer, -⟩ | ⟨longer, -⟩⟩
  · exact differs equal
  all_goals
    have empty := congrArg String.toList longer
    rw [String.toList_append, List.self_eq_append_right] at empty
    exact some (String.toList_inj.mp empty)

/-- Different numbers have the same alias exactly where a shared and an unshared one are
confused. -/
theorem generated_eq_iff
    {firstShared secondShared : Bool}
    (differs : number ≠ other) :
    config.generated firstShared number = config.generated secondShared other ↔
      firstShared = true ∧ secondShared = false ∧ config.Confuses number other ∨
        firstShared = false ∧ secondShared = true ∧ config.Confuses other number := by
  have mixed : ∀ {shared unshared}, shared ≠ unshared ->
      (config.generated true shared = config.generated false unshared ↔
        config.Confuses shared unshared) := by
    intro shared unshared apart
    change config.sharedAliasPrefix ++ toString shared =
      config.unsharedAliasPrefix ++ toString unshared ↔ _
    rw [append_toString_eq_iff]
    exact or_iff_right fun contrary => apart contrary.2
  cases firstShared <;> cases secondShared
  · simpa using generated_ne differs
  · rw [eq_comm, mixed (Ne.symm differs)]
    simp
  · rw [mixed differs]
    simp
  · simpa using generated_ne differs

theorem extendsByDigits_of_append
    {text digits : String}
    (nonempty : digits ≠ "")
    (numeric : ∀ character ∈ digits.toList, character.isDigit = true) :
    extendsByDigits (text ++ digits) text = true := by
  unfold extendsByDigits
  have rest : digits.toList ≠ [] := fun empty => nonempty (String.toList_inj.mp empty)
  simpa [rest] using numeric

/-- Only ambiguous prefixes confuse numbers. -/
theorem not_confuses_of_isUnambiguous
    (unambiguous : config.isUnambiguous = true) :
    ¬ config.Confuses shared unshared := by
  have numeric : ∀ {digits rest : String} {number : Nat}, toString number = digits ++ rest ->
      ∀ character ∈ digits.toList, character.isDigit = true := by
    intro digits rest number same character member
    refine Nat.isDigit_of_mem_toDigits (by decide) (Nat.le_refl 10) (n := number) ?_
    rw [← Nat.toList_repr, ← Nat.toString_eq_repr, same, String.toList_append]
    exact List.mem_append_left _ member
  have prolonged : ∀ {longer shorter digits rest : String} {number : Nat}, digits ≠ "" ->
      longer = shorter ++ digits -> toString number = digits ++ rest ->
        extendsByDigits longer shorter = true := by
    rintro _ shorter digits rest number nonempty rfl same
    exact extendsByDigits_of_append nonempty (numeric same)
  simp only [isUnambiguous, Bool.and_eq_true, Bool.not_eq_true'] at unambiguous
  rintro ⟨digits, nonempty, ⟨longer, same⟩ | ⟨longer, same⟩⟩
  · have contrary := prolonged nonempty longer same
    rw [unambiguous.2] at contrary
    cases contrary
  · have contrary := prolonged nonempty longer same
    rw [unambiguous.1] at contrary
    cases contrary

end CompilerConfig

namespace JoinGraph

/-- A vertex without a suggestion has a generated alias. -/
theorem aliasText_of_unsuggested
    {config : CompilerConfig}
    {vertex : Vertex}
    {number : Nat}
    (unsuggested : vertex.aliasHint = none) :
    aliasText config vertex number = config.generated vertex.isShared number := by
  unfold aliasText CompilerConfig.generated
  cases vertex.isShared <;> simp [unsuggested]

end JoinGraph

namespace Tree

/-- Whether no source suggests an alias. -/
def isUnnamed (tree : Tree) : Bool :=
  tree.nodes.all fun node =>
    match node with
    | .source body => body.aliasHint.isNone
    | _ => true

theorem not_suggests_of_isUnnamed
    {tree : Tree}
    (unnamed : tree.isUnnamed = true)
    (hint : String) :
    ¬ tree.Suggests hint := by
  rintro ⟨id, body, found, suggested⟩
  have silent := Array.all_eq_true'.mp unnamed _ (Array.mem_of_getElem? found)
  simp [suggested] at silent

variable {tree held : Tree} {schema : Schema} {config : CompilerConfig} {owner : Owner}
  {compiled : CompiledGraph}

/-- Where no source suggests an alias, two used vertices have the same alias exactly where the
prefixes confuse the number of a shared one with that of the other, which is not shared. They do
not when neither prefix is the other one followed by digits. -/
theorem compiled_alias_eq_iff
    {first second : VertexId}
    {vertex other : Vertex}
    (reachable : tree.Reachable)
    (unnamed : tree.isUnnamed = true)
    (done : tree.compile schema config owner = (.ok compiled, held))
    (found : compiled.graph.vertex? first = some vertex)
    (otherFound : compiled.graph.vertex? second = some other)
    (used : vertex.used = true)
    (otherUsed : other.used = true)
    (differs : first ≠ second) :
    ∃ label otherLabel, vertex.label = some label ∧ other.label = some otherLabel ∧
      (label.aliasName = otherLabel.aliasName ↔
        vertex.isShared = true ∧ other.isShared = false ∧
            config.Confuses label.identifier otherLabel.identifier ∨
          vertex.isShared = false ∧ other.isShared = true ∧
            config.Confuses otherLabel.identifier label.identifier) ∧
      (config.isUnambiguous = true -> label.aliasName ≠ otherLabel.aliasName) := by
  obtain ⟨walk, graph, fetched, walked, followed, course⟩ := compile_course reachable done
  have labelOf : ∀ {id vertex}, compiled.graph.vertex? id = some vertex -> vertex.used = true ->
      ∃ label, compiled.graph.label? id = some label ∧ vertex.label = some label ∧
        label.aliasName = config.generated vertex.isShared label.identifier := by
    intro id vertex found used
    have isUsed : compiled.graph.isUsed id = true := by simp [JoinGraph.isUsed, found, used]
    obtain ⟨label, labelled⟩ := (course.enumerated.1.labelled id).mpr isUsed
    have isLabel : vertex.label = some label := by simpa [JoinGraph.label?, found] using labelled
    refine ⟨label, labelled, isLabel, ?_⟩
    rw [course.spelled id vertex label found isLabel]
    refine JoinGraph.aliasText_of_unsuggested (Option.eq_none_iff_forall_ne_some.mpr ?_)
    exact fun hint suggested => not_suggests_of_isUnnamed unnamed hint
      (course.suggests_compiled found suggested)
  obtain ⟨label, labelled, isLabel, text⟩ := labelOf found used
  obtain ⟨otherLabel, otherLabelled, isOtherLabel, otherText⟩ := labelOf otherFound otherUsed
  have apart : label.identifier ≠ otherLabel.identifier := fun same =>
    differs (course.enumerated.1.distinct labelled otherLabelled same)
  refine ⟨label, otherLabel, isLabel, isOtherLabel, ?_, fun unambiguous same => ?_⟩
  · rw [text, otherText]
    exact CompilerConfig.generated_eq_iff apart
  · rw [text, otherText, CompilerConfig.generated_eq_iff apart] at same
    rcases same with ⟨-, -, confused⟩ | ⟨-, -, confused⟩ <;>
      exact CompilerConfig.not_confuses_of_isUnambiguous unambiguous confused

/-- A crew with ten joins to its members, each required to be one of its own. -/
def crewRosters : Tree :=
  (ofKind .query).performAll
    (.build (.root top "Crew") ::
      List.replicate 10 (.build (.join ⟨1⟩ "members" .left .requiredToCreateNew)))

/-- Two prefixes that a valid configuration may have, the first of which is the second one followed
by a digit. -/
def ambiguousPrefixes : CompilerConfig where
  sharedAliasPrefix := "t1"
  unsharedAliasPrefix := "t"

/-- The last roster is called like the crew itself exactly because the prefixes are confused. -/
theorem crewRosters_alias_eq_iff :
    ∃ compiled held root roster label otherLabel,
      crewRosters.compile crews ambiguousPrefixes ⟨8⟩ = (.ok compiled, held) ∧
      compiled.graph.vertex? ⟨0⟩ = some root ∧ compiled.graph.vertex? ⟨10⟩ = some roster ∧
      root.label = some label ∧ roster.label = some otherLabel ∧
      (label.aliasName = otherLabel.aliasName ↔
        root.isShared = true ∧ roster.isShared = false ∧
            ambiguousPrefixes.Confuses label.identifier otherLabel.identifier ∨
          root.isShared = false ∧ roster.isShared = true ∧
            ambiguousPrefixes.Confuses otherLabel.identifier label.identifier) ∧
      (ambiguousPrefixes.isUnambiguous = true -> label.aliasName ≠ otherLabel.aliasName) := by
  have succeeds : ((crewRosters.compile crews ambiguousPrefixes ⟨8⟩).1.toOption.any fun compiled =>
      compiled.graph.isUsed ⟨0⟩ && compiled.graph.isUsed ⟨10⟩) = true := by
    cbv
  have unnamed : crewRosters.isUnnamed = true := by cbv
  obtain ⟨compiled, held, done, used⟩ := exists_compiled succeeds
  obtain ⟨rootUsed, rosterUsed⟩ := Bool.and_eq_true_iff.mp used
  obtain ⟨root, found, isUsed⟩ := JoinGraph.isUsed_iff.mp rootUsed
  obtain ⟨roster, otherFound, otherUsed⟩ := JoinGraph.isUsed_iff.mp rosterUsed
  obtain ⟨label, otherLabel, isLabel, isOtherLabel, agrees, distinct⟩ :=
    compiled_alias_eq_iff ⟨.query, _, rfl⟩ unnamed done found otherFound isUsed otherUsed
      (by decide)
  exact ⟨compiled, held, root, roster, label, otherLabel, done, found, otherFound, isLabel,
    isOtherLabel, agrees, distinct⟩

/-- A valid configuration under which two used vertices have one alias, although no source suggests
any. -/
theorem crewRosters_aliases_collide :
    ambiguousPrefixes.isValid = true ∧ crewRosters.isUnnamed = true ∧
    ∃ compiled held, crewRosters.compile crews ambiguousPrefixes ⟨8⟩ = (.ok compiled, held) ∧
      compiled.graph.isUsed ⟨0⟩ = true ∧ compiled.graph.isUsed ⟨10⟩ = true ∧
      compiled.graph.aliasOf ⟨0⟩ = .ok "t10" ∧ compiled.graph.aliasOf ⟨10⟩ = .ok "t10" := by
  have succeeds : ((crewRosters.compile crews ambiguousPrefixes ⟨8⟩).1.toOption.any fun compiled =>
      decide (compiled.graph.isUsed ⟨0⟩ = true ∧ compiled.graph.isUsed ⟨10⟩ = true ∧
        compiled.graph.aliasOf ⟨0⟩ = .ok "t10" ∧
        compiled.graph.aliasOf ⟨10⟩ = .ok "t10")) = true := by
    cbv
  obtain ⟨compiled, held, done, collide⟩ := exists_compiled succeeds
  have unnamed : crewRosters.isUnnamed = true := by cbv
  exact ⟨by decide, unnamed, compiled, held, done, of_decide_eq_true collide⟩

end Tree
end QueryGraph
