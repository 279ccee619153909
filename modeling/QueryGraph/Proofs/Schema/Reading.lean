import QueryGraph.Proofs.Schema.Construction
import QueryGraph.Schema.Read

/-!
# Schemas that are read

The record types and the relations that are read from a text stand in the order of their names,
whatever order they were written in. A text is therefore read into a schema exactly when it
declares a well-formed one.
-/

namespace QueryGraph

namespace NameMap

variable {map : NameMap α} {name : String} {value : α}

theorem mem_insertEntry
    {entry : String × α}
    {entries : List (String × α)}
    (member : entry ∈ insertEntry name value entries) :
    entry = (name, value) ∨ entry ∈ entries := by
  induction entries with
  | nil => exact Or.inl (List.mem_singleton.mp member)
  | cons first rest inductionHypothesis =>
      unfold insertEntry at member
      split at member
      · rcases List.mem_cons.mp member with inserted | later
        · exact Or.inl inserted
        · exact Or.inr (List.mem_cons_of_mem first later)
      · split at member
        · exact List.mem_cons.mp member
        · rcases List.mem_cons.mp member with same | later
          · exact Or.inr (same ▸ List.mem_cons_self)
          · exact (inductionHypothesis later).imp_right (List.mem_cons_of_mem first)

/-- An insertion keeps the order of the names. -/
theorem Ordered.insert
    (ordered : map.Ordered)
    (name : String)
    (value : α) :
    (map.insert name value).Ordered := by
  obtain ⟨entries⟩ := map
  unfold Ordered NameMap.insert at *
  induction entries with
  | nil => exact List.pairwise_singleton _ _
  | cons first rest inductionHypothesis =>
      obtain ⟨before, orderedRest⟩ := List.pairwise_cons.mp ordered
      dsimp only at before orderedRest ⊢
      unfold insertEntry
      split
      case isTrue same => exact List.pairwise_cons.mpr ⟨same ▸ before, orderedRest⟩
      case isFalse differs =>
        split
        case isTrue less =>
          refine List.pairwise_cons.mpr ⟨?_, ordered⟩
          intro entry member
          rcases List.mem_cons.mp member with rfl | later
          · exact less
          · exact less.trans (before entry later)
        case isFalse notLess =>
          have greater : first.1 < name := lt_of_le_of_ne (not_lt.mp notLess) (Ne.symm differs)
          refine List.pairwise_cons.mpr ⟨?_, inductionHypothesis orderedRest⟩
          intro entry member
          rcases mem_insertEntry member with rfl | later
          · exact greater
          · exact before entry later

/-- The map of a list of entries is in order, whatever the order of the list. -/
theorem ordered_ofList (entries : List (String × α)) : (ofList entries).Ordered := by
  have fromOrdered : ∀ map : NameMap α, map.Ordered ->
      (entries.foldl (fun map entry => map.insert entry.1 entry.2) map).Ordered := by
    induction entries with
    | nil => exact fun _ ordered => ordered
    | cons entry rest inductionHypothesis =>
        exact fun map ordered => inductionHypothesis _ (ordered.insert entry.1 entry.2)
  exact fromOrdered {} List.Pairwise.nil

end NameMap

namespace Yaml

/-- What a reading takes from a document has a property. -/
def Reading.Yields (reading : Reading α) (property : α -> Prop) : Prop :=
  ∀ setting remaining value left, reading setting remaining = .ok (value, left) -> property value

namespace Reading

variable {reading : Reading α} {property : α -> Prop}

theorem yields_pure
    {value : α}
    (holds : property value) :
    (pure value : Reading α).Yields property := by
  rintro setting remaining _ _ ⟨⟩
  exact holds

theorem yields_unfit (misfit : Misfit) : (unfit misfit : Reading α).Yields property := by
  rintro setting remaining _ _ ⟨⟩

/-- What is read after a first reading may rely on what that one yields. -/
theorem Yields.bind
    {rest : α -> Reading β}
    {goal : β -> Prop}
    (first : reading.Yields property)
    (yields : ∀ value, property value -> (rest value).Yields goal) :
    (reading >>= rest).Yields goal := by
  intro setting remaining value left done
  change (reading setting remaining >>= fun result => rest result.1 setting result.2) =
    .ok (value, left) at done
  cases begun : reading setting remaining with
  | error complaint =>
      rw [begun] at done
      cases done
  | ok result =>
      rw [begun] at done
      exact yields result.1 (first _ _ _ _ begun) _ _ _ _ done

theorem yields_true (reading : Reading α) : reading.Yields fun _ => True :=
  fun _ _ _ _ _ => trivial

theorem Yields.located
    (yields : reading.Yields property)
    (mark : Mark) :
    (Reading.located mark reading).Yields property := by
  intro setting remaining value left done
  exact yields setting remaining value left (Operation.mapError_eq_ok.mp done)

theorem Yields.within
    (yields : reading.Yields property)
    (step : Step) :
    (Reading.within step reading).Yields property :=
  fun setting => yields { setting with path := step :: setting.path }

/-- What every known member keeps, the draft of a record has in the end. -/
theorem yields_draft
    {known : Members σ}
    {keeps : σ -> Prop}
    (each : ∀ member ∈ known, ∀ draft, keeps draft -> ∀ node, (member.2 draft node).Yields keeps)
    (entries : List (Node × Node))
    (seen : List String)
    {begun : σ}
    (holds : keeps begun) :
    (Reading.draft known seen begun entries).Yields keeps := by
  induction entries generalizing seen begun with
  | nil => exact yields_pure holds
  | cons entry entries inductionHypothesis =>
      refine (yields_true _).bind fun name _ => ?_
      cases found : known.lookup name with
      | none => exact inductionHypothesis seen holds
      | some read =>
          have listed : (name, read) ∈ known := Entries.mem_of_lookup found
          have rest : ∀ draft, keeps draft ->
              (Reading.draft known (name :: seen) draft entries).Yields keeps :=
            fun draft kept => inductionHypothesis (name :: seen) kept
          have member := ((each _ listed begun holds entry.2).within entry.1.stepTo).bind rest
          dsimp only
          split
          · exact (yields_unfit _).bind fun _ contrary => False.elim contrary
          · exact member

/-- What every known member of a record keeps is known when it is finished. -/
theorem yields_record
    {expected : String}
    {known : Members σ}
    {begun : σ}
    {finish : σ -> Reading α}
    (keeps : σ -> Prop)
    (each : ∀ member ∈ known, ∀ draft, keeps draft -> ∀ node, (member.2 draft node).Yields keeps)
    (holds : keeps begun)
    (finished : ∀ draft, keeps draft -> (finish draft).Yields property)
    (node : Node) :
    (Reading.record expected known begun finish node).Yields property := by
  refine (yields_true _).bind fun target _ => Yields.located ?_ _
  refine (yields_true _).bind fun entries _ => ?_
  exact (yields_draft each entries [] holds).bind finished

/-- What is taken from a whole document has the property as well. -/
theorem Yields.of_run
    {read : Node -> Reading α}
    {document : Serialization}
    {value : α}
    (yields : (read document.root).Yields property)
    (done : Reading.run read document = .ok value) :
    property value := by
  unfold Reading.run at done
  cases taken : read document.root { document } (followsPerNode * document.root.size) with
  | error complaint =>
      rw [taken] at done
      cases done
  | ok result =>
      rw [taken] at done
      have holds := yields _ _ _ _ taken
      dsimp only [bind, Except.bind] at done
      split at done
      · cases done
      · split at done
        · cases done
        · cases done
          exact holds

end Reading
end Yaml

open Yaml

theorem NameMap.yields_ofNode
    (read : Yaml.Node -> Reading α)
    (node : Yaml.Node) :
    (NameMap.ofNode read node).Yields NameMap.Ordered :=
  (Reading.yields_true _).bind fun entries _ => Reading.yields_pure (ordered_ofList entries)

namespace SchemaDeclaration

theorem yields_ofNode (node : Yaml.Node) :
    (SchemaDeclaration.ofNode node).Yields fun declaration => declaration.recordTypes.Ordered := by
  refine Reading.yields_record (fun draft => ∀ map ∈ draft.recordTypes, map.Ordered) ?_ ?_ ?_ node
  · intro member listed draft ordered node
    simp only [List.mem_cons, List.not_mem_nil, or_false] at listed
    rcases listed with rfl | rfl
    · exact (Reading.yields_true _).bind fun _ _ => Reading.yields_pure ordered
    · refine (NameMap.yields_ofNode _ node).bind fun map mapOrdered => Reading.yields_pure ?_
      rintro _ ⟨⟩
      exact mapOrdered
  · rintro _ ⟨⟩
  · intro draft ordered
    cases found : draft.recordTypes with
    | none => exact (Reading.yields_unfit _).bind fun _ contrary => False.elim contrary
    | some map =>
        exact (Reading.yields_pure (ordered map found)).bind fun _ kept => Reading.yields_pure kept

/-- The record types that a text declares stand in the order of their names. -/
theorem ordered_of_ofText
    {text : String}
    {declaration : SchemaDeclaration}
    (read : ofText text = .ok declaration) :
    declaration.recordTypes.Ordered :=
  (yields_ofNode _).of_run (Operation.mapError_eq_ok.mp read)

end SchemaDeclaration

/-- A text is read into a schema when it declares a well-formed one, and the schema is the one it
declares. -/
theorem Schema.ofText_eq_ok_iff
    {text : String}
    {schema : Schema} :
    Schema.ofText text = .ok schema ↔
      ∃ declaration, SchemaDeclaration.ofText text = .ok declaration ∧ declaration.WellFormed ∧
        schema = declaration.described := by
  unfold Schema.ofText
  cases read : SchemaDeclaration.ofText text with
  | error error => simp [bind, Except.bind]
  | ok declaration =>
      have ordered := SchemaDeclaration.ordered_of_ofText read
      rcases declaration.toSchema_outcome ordered with ⟨wellFormed, built⟩ |
        ⟨error, malformed, -, refused⟩
      · simp [bind, Except.bind, built, wellFormed, eq_comm]
      · simp [bind, Except.bind, refused, malformed]

end QueryGraph
