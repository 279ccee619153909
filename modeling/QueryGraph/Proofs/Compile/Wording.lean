import Mathlib
import QueryGraph.Compile.Error
import QueryGraph.Proofs.Compile.Rendering

/-!
# Occurrences told by their texts

The text of an identity is made of words that are joined by marks: a number sign inside an entry,
slashes between entries, and an at sign before the position. The words contain none of these marks,
so the text can be taken apart again, and tells the surroundings, the path and the position of an
identity, wherever it was allocated. A report therefore lists no text of an occurrence twice, and an
error of a replay tells which two identities differ.
-/

namespace QueryGraph

/-! ## Words and marks -/

/-- The marks between the words of an identity, and the blank between the words of an error. -/
def marks : List Char := [' ', '#', '/', '@']

/-- Whether a text contains no mark. -/
def isWord (text : String) : Bool :=
  text.toList.all fun character => !marks.contains character

theorem isWord_iff {text : String} :
    isWord text = true ↔ ∀ mark ∈ marks, mark ∉ text.toList := by
  simp only [isWord, List.all_eq_true, Bool.not_eq_true', Bool.eq_false_iff, ne_eq,
    List.contains_iff_mem]
  exact ⟨fun free mark isMark member => free mark member isMark,
    fun free character member isMark => free character isMark member⟩

theorem isWord_toString (number : Nat) : isWord (toString number) = true := by
  refine isWord_iff.mpr fun mark isMark member => ?_
  rw [Nat.toString_eq_repr, Nat.toList_repr] at member
  have digit := Nat.isDigit_of_mem_toDigits (by decide) (Nat.le_refl 10) member
  have noDigit : ∀ mark ∈ marks, mark.isDigit = false := by simp [marks]
  rw [noDigit mark isMark] at digit
  cases digit

/-- Texts without a mark can be told from the text that joins them by it. -/
theorem eq_of_intercalate_eq
    {separator : String}
    {mark : Char}
    {texts others : List String}
    (isMark : separator.toList = [mark])
    (nonempty : texts ≠ [])
    (othersNonempty : others ≠ [])
    (free : ∀ text ∈ texts, mark ∉ text.toList)
    (othersFree : ∀ text ∈ others, mark ∉ text.toList)
    (same : separator.intercalate texts = separator.intercalate others) :
    texts = others := by
  have takenApart : ∀ {texts : List String}, texts ≠ [] -> (∀ text ∈ texts, mark ∉ text.toList) ->
      (separator.intercalate texts).toList.splitOn mark = texts.map String.toList := by
    intro texts nonempty free
    rw [String.toList_intercalate, isMark]
    exact List.splitOn_intercalate mark (by simpa using free) (by simpa using nonempty)
  have parts := takenApart nonempty free
  rw [same, takenApart othersNonempty othersFree] at parts
  exact List.map_injective_iff.mpr (fun _ _ => String.toList_inj.mp) parts.symm

/-- A joined text has only the characters of its parts and of the separator. -/
theorem mem_intercalate
    {separator : String}
    {character : Char}
    {texts : List String}
    (member : character ∈ (separator.intercalate texts).toList) :
    character ∈ separator.toList ∨ ∃ text ∈ texts, character ∈ text.toList := by
  induction texts with
  | nil => simp at member
  | cons text texts inductionHypothesis =>
      cases texts with
      | nil => exact Or.inr ⟨text, List.mem_cons_self, by simpa using member⟩
      | cons next rest =>
          rw [String.intercalate_cons_cons, String.toList_append, String.toList_append,
            List.mem_append, List.mem_append] at member
          rcases member with (first | between) | later
          · exact Or.inr ⟨text, List.mem_cons_self, first⟩
          · exact Or.inl between
          · rcases inductionHypothesis later with between | ⟨other, listed, inside⟩
            · exact Or.inl between
            · exact Or.inr ⟨other, List.mem_cons_of_mem text listed, inside⟩

/-! ## Entries -/

namespace StatementKind

theorem isWord_name (kind : StatementKind) : isWord kind.name = true := by
  cases kind <;> rfl

theorem name_injective : Function.Injective name := by
  intro first second same
  cases first <;> cases second <;> first | rfl | simp [name] at same

/-- No statement is called like a compound. -/
theorem name_ne_tuple (kind : StatementKind) : kind.name ≠ "tuple" := by
  cases kind <;> simp [name]

theorem name_ne_empty (kind : StatementKind) : kind.name ≠ "" := by
  cases kind <;> simp [name]

end StatementKind

namespace Clause

theorem isWord_name (clause : Clause) : isWord clause.name = true := by
  cases clause <;> rfl

theorem name_injective : Function.Injective name := by
  intro first second same
  cases first <;> cases second <;> first | rfl | simp [name] at same

end Clause

namespace StackEntry

/-- The words of an entry. -/
def words : StackEntry -> List String
  | .statement id kind => [kind.name, toString id.index]
  | .clause kind => [kind.name]
  | .compound id => ["tuple", toString id.index]
  | .node id => ["", toString id.index]

theorem toText_eq_intercalate (entry : StackEntry) :
    entry.toText = "#".intercalate entry.words := by
  cases entry with
  | statement id kind => exact (String.append_assoc ..).symm
  | clause kind => rfl
  | compound id => exact (String.append_assoc ..).symm
  | node id => exact String.empty_append.symm

theorem words_ne_nil (entry : StackEntry) : entry.words ≠ [] := by
  cases entry <;> simp [words]

theorem isWord_of_mem_words
    {entry : StackEntry}
    {word : String}
    (listed : word ∈ entry.words) :
    isWord word = true := by
  have tuple : isWord "tuple" = true := rfl
  have empty : isWord "" = true := rfl
  have all : entry.words.all isWord = true := by
    cases entry <;>
      simp only [words, List.all_cons, List.all_nil, Bool.and_true, isWord_toString, tuple, empty,
        StatementKind.isWord_name, Clause.isWord_name]
  exact List.all_eq_true.mp all word listed

/-- Entries with the same words are the same. -/
theorem words_injective : Function.Injective words := by
  have number : ∀ {first second : NodeId}, toString first.index = toString second.index ->
      first = second := by
    rintro ⟨first⟩ ⟨second⟩ same
    exact congrArg NodeId.mk (Nat.repr_inj.mp same)
  intro first second same
  cases first <;> cases second <;>
    simp only [words, List.cons.injEq, and_true, true_and, reduceCtorEq, and_false, false_and,
      StatementKind.name_ne_tuple, StatementKind.name_ne_empty,
      (StatementKind.name_ne_tuple _).symm, (StatementKind.name_ne_empty _).symm,
      String.reduceEq] at same
  case statement.statement => rw [StatementKind.name_injective same.1, number same.2]
  case clause.clause => rw [Clause.name_injective same]
  case compound.compound => rw [number same]
  case node.node => rw [number same]

/-- Entries with the same text are the same. -/
theorem toText_injective : Function.Injective toText := by
  intro first second same
  rw [toText_eq_intercalate, toText_eq_intercalate] at same
  have free : ∀ {entry : StackEntry}, ∀ word ∈ entry.words, '#' ∉ word.toList :=
    fun word listed => isWord_iff.mp (isWord_of_mem_words listed) '#' (by simp [marks])
  exact words_injective
    (eq_of_intercalate_eq rfl first.words_ne_nil second.words_ne_nil free free same)

/-- The only mark in the text of an entry is the number sign. -/
theorem not_mem_toText
    {mark : Char}
    (isMark : mark ∈ marks)
    (another : mark ≠ '#')
    (entry : StackEntry) :
    mark ∉ entry.toText.toList := by
  rw [toText_eq_intercalate]
  intro member
  rcases mem_intercalate member with between | ⟨word, listed, inside⟩
  · exact another (List.mem_singleton.mp between)
  · exact isWord_iff.mp (isWord_of_mem_words listed) mark isMark inside

end StackEntry

/-! ## Identities -/

namespace PathIdentity

/-- The surroundings and the path in an identity's text, outermost first. -/
def route (identity : PathIdentity) : List String :=
  identity.stack.reverse.map StackEntry.toText

theorem toText_eq_intercalate (identity : PathIdentity) :
    identity.toText =
      "@".intercalate ["/".intercalate identity.route, toString identity.position] := rfl

theorem route_ne_nil (identity : PathIdentity) : identity.route ≠ [] := by
  simp [route, stack]

/-- An identity is its route and its position. -/
theorem eq_of_route_eq
    {first second : PathIdentity}
    (route : first.route = second.route)
    (position : first.position = second.position) :
    first = second := by
  have stack : first.stack = second.stack :=
    List.reverse_injective (List.map_injective_iff.mpr StackEntry.toText_injective route)
  obtain ⟨node, around, _⟩ := first
  obtain ⟨_, _, _⟩ := second
  cases stack
  cases position
  rfl

/-- A mark in a joined route is a number sign or a slash. -/
theorem not_mem_route
    {mark : Char}
    (isMark : mark ∈ marks)
    (noNumber : mark ≠ '#')
    (noSlash : mark ≠ '/')
    (identity : PathIdentity) :
    mark ∉ ("/".intercalate identity.route).toList := by
  intro member
  rcases mem_intercalate member with between | ⟨_, listed, inside⟩
  · exact noSlash (List.mem_singleton.mp between)
  · obtain ⟨entry, -, rfl⟩ := List.mem_map.mp listed
    exact entry.not_mem_toText isMark noNumber inside

/-- There is no blank in the text of an identity. -/
theorem blank_not_mem_toText (identity : PathIdentity) : ' ' ∉ identity.toText.toList := by
  rw [toText_eq_intercalate]
  intro member
  rcases mem_intercalate member with between | ⟨text, listed, inside⟩
  · simp at between
  · rcases List.mem_pair.mp listed with rfl | rfl
    · exact identity.not_mem_route (by simp [marks]) (by simp) (by simp) inside
    · exact isWord_iff.mp (isWord_toString _) ' ' (by simp [marks]) inside

/-- Identities with the same text are the same. -/
theorem toText_injective : Function.Injective toText := by
  intro first second same
  rw [toText_eq_intercalate, toText_eq_intercalate] at same
  have noSlash : ∀ {identity : PathIdentity}, ∀ text ∈ identity.route, '/' ∉ text.toList := by
    intro identity text listed
    obtain ⟨entry, -, rfl⟩ := List.mem_map.mp listed
    exact entry.not_mem_toText (by simp [marks]) (by simp)
  have noAt : ∀ {identity : PathIdentity}, ∀ text ∈
      ["/".intercalate identity.route, toString identity.position], '@' ∉ text.toList := by
    intro identity text listed
    rcases List.mem_pair.mp listed with rfl | rfl
    · exact identity.not_mem_route (by simp [marks]) (by simp) (by simp)
    · exact isWord_iff.mp (isWord_toString _) '@' (by simp [marks])
  have parts := eq_of_intercalate_eq rfl (List.cons_ne_nil _ _) (List.cons_ne_nil _ _) noAt noAt same
  obtain ⟨route, position⟩ := List.cons.inj parts
  refine eq_of_route_eq ?_ (Nat.repr_inj.mp (List.cons.inj position).1)
  exact eq_of_intercalate_eq rfl first.route_ne_nil second.route_ne_nil noSlash noSlash route

end PathIdentity

/-! ## Errors that name identities -/

namespace CompileError

variable {expected found otherExpected otherFound : PathIdentity}

/-- The words of the error of a replay that met another identity than expected. -/
def mismatchWords (expected found : PathIdentity) : List String :=
  ["Replayed", "path", "identity", found.toText, "does", "not", "match", expected.toText]

theorem message_eq_intercalate :
    (pathIdentityMismatch expected found).message =
      " ".intercalate (mismatchWords expected found) := by
  have before : "Replayed path identity " =
      " ".intercalate ["Replayed", "path", "identity"] ++ " " := by
    decide
  have between : " does not match " =
      " " ++ (" ".intercalate ["does", "not", "match"] ++ " ") := by
    decide
  change "Replayed path identity " ++ found.toText ++ " does not match " ++ expected.toText = _
  rw [before, between]
  simp only [mismatchWords, String.intercalate_cons_cons, String.intercalate_singleton,
    String.append_assoc]

/-- Errors of replays that read the same tell of the same identities. -/
theorem identities_of_message_eq
    (same : (pathIdentityMismatch expected found).message =
      (pathIdentityMismatch otherExpected otherFound).message) :
    expected = otherExpected ∧ found = otherFound := by
  rw [message_eq_intercalate, message_eq_intercalate] at same
  have noBlank : ∀ {expected found : PathIdentity}, ∀ text ∈ mismatchWords expected found,
      ' ' ∉ text.toList := by
    intro expected found
    simp [mismatchWords, PathIdentity.blank_not_mem_toText]
  have words := eq_of_intercalate_eq rfl (List.cons_ne_nil _ _) (List.cons_ne_nil _ _)
    noBlank noBlank same
  simp only [List.cons.injEq, and_true, true_and] at words
  exact ⟨PathIdentity.toText_injective words.2, PathIdentity.toText_injective words.1⟩

end CompileError

/-! ## Reports -/

namespace CompiledGraph

variable {compiled : CompiledGraph}

/-- The summary of a path is about its identity. -/
theorem identity_of_pathSummary
    {identity : PathIdentity}
    {path : PathSummary}
    (told : compiled.pathSummary identity = .ok path) :
    path.identity = identity := by
  unfold pathSummary at told
  cases rendered : compiled.renderPath identity with
  | error error =>
      rw [rendered] at told
      cases told
  | ok text =>
      rw [rendered] at told
      cases told
      rfl

/-- A summary lists the paths of a result in their order. -/
theorem identities_of_summary
    {summary : Summary}
    (summarized : compiled.summary = .ok summary) :
    summary.paths.map PathSummary.identity = compiled.identities :=
  Operation.map_of_mapM (parts_of_summary summarized).2 identity_of_pathSummary

end CompiledGraph

/-- The texts of the paths in a summary. -/
def Summary.identityTexts (summary : Summary) : List String :=
  summary.paths.map fun path => path.identity.toText

namespace Tree

/-- A text of an identity belongs to one occurrence only. Identities with the same text have the
same surroundings entry by entry and the same position, and with them the same path and the same
place in the selection. Errors of replays that read the same tell of the same identities, and the
summary of a result lists no text twice. -/
theorem text_tells_occurrence :
    (∀ {first second : PathIdentity}, first.toText = second.toText ->
      first.stack = second.stack ∧ first.position = second.position ∧
        first.node = second.node ∧ first.isDirectlySelected = second.isDirectlySelected) ∧
    (∀ {expected found otherExpected otherFound : PathIdentity},
      (CompileError.pathIdentityMismatch expected found).message =
        (CompileError.pathIdentityMismatch otherExpected otherFound).message ->
      expected = otherExpected ∧ found = otherFound) ∧
    ∀ {tree held : Tree} {schema : Schema} {config : CompilerConfig} {owner : Owner}
      {compiled : CompiledGraph} {summary : Summary},
      tree.Reachable -> tree.compile schema config owner = (.ok compiled, held) ->
      compiled.summary = .ok summary -> summary.identityTexts.Nodup := by
  refine ⟨fun {first second} same => ?_, CompileError.identities_of_message_eq, ?_⟩
  · cases PathIdentity.toText_injective same
    exact ⟨rfl, rfl, rfl, rfl⟩
  · intro tree held schema config owner compiled summary reachable done summarized
    obtain ⟨walk, graph, fetched, walked, followed, course⟩ := compile_course reachable done
    have distinct := (course.reports reachable).distinct
    rw [← CompiledGraph.identities_of_summary summarized] at distinct
    have texts := distinct.map PathIdentity.toText_injective
    rwa [List.map_map] at texts

/-- An occurrence of the name that is selected twice. -/
def namesTwiceIdentity (position : Nat) : PathIdentity :=
  ⟨⟨4⟩, [.clause .selection, .statement ⟨2⟩ .subquery, .clause .selection, .statement top .query],
    position⟩

/-- The two occurrences of the name are listed by two texts, of which the second names no other
occurrence. The error of a replay that meets the second before the first says so in no other
case. -/
theorem namesTwice_texts :
    ∃ compiled held summary, namesTwice.compile colleagues {} ⟨8⟩ = (.ok compiled, held) ∧
      compiled.summary = .ok summary ∧
      summary.identityTexts =
        ["query#0/selection/subquery#2/selection/#4@0",
          "query#0/selection/subquery#2/selection/#4@1"] ∧
      summary.identityTexts.Nodup ∧
      (∀ identity : PathIdentity,
        identity.toText = "query#0/selection/subquery#2/selection/#4@1" ->
          identity.stack = (namesTwiceIdentity 1).stack ∧ identity.position = 1) ∧
      ∀ expected found : PathIdentity,
        (CompileError.pathIdentityMismatch expected found).message =
          (CompileError.pathIdentityMismatch (namesTwiceIdentity 0)
            (namesTwiceIdentity 1)).message ->
        expected = namesTwiceIdentity 0 ∧ found = namesTwiceIdentity 1 := by
  have succeeds : ((namesTwice.compile colleagues {} ⟨8⟩).1.toOption.any fun compiled =>
      compiled.summary.toOption.any fun summary =>
        decide (summary.identityTexts =
          ["query#0/selection/subquery#2/selection/#4@0",
            "query#0/selection/subquery#2/selection/#4@1"])) = true := by
    cbv
  have second : (namesTwiceIdentity 1).toText =
      "query#0/selection/subquery#2/selection/#4@1" := by
    decide
  obtain ⟨compiled, held, done, passes⟩ := exists_compiled succeeds
  obtain ⟨tells, errors, lists⟩ := text_tells_occurrence
  cases summarized : compiled.summary with
  | error error =>
      rw [summarized] at passes
      cases passes
  | ok summary =>
      rw [summarized] at passes
      refine ⟨compiled, held, summary, done, summarized, of_decide_eq_true passes,
        lists ⟨.query, _, rfl⟩ done summarized, fun identity reads => ?_,
        fun expected found => errors⟩
      have same := tells (reads.trans second.symm)
      exact ⟨same.1, same.2.1⟩

end Tree
end QueryGraph
