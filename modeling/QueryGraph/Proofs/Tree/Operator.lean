import Mathlib
import QueryGraph.Tree.Operator

/-!
# Reading what is written of an operator

In lower case a text denotes the operator that has it among its spellings, the aggregate of that
name, or the function whose name follows a marker. What is written of an operator denotes it again,
unless it is an aggregate: an aggregate is written after a marker that nothing denotes.
-/

namespace QueryGraph
namespace Operator

variable {text name : String} {operator : Operator}

/-! ## Letter case -/

/-- A text in lower case stays as it is. -/
@[simp] theorem lowered_lowered (text : String) : lowered (lowered text) = lowered text := by
  simp [lowered, Function.comp_def]

theorem lowered_append (first second : String) :
    lowered (first ++ second) = lowered first ++ lowered second := by
  simp [lowered]

/-- The end of a text in lower case is in lower case. -/
theorem lowered_of_append
    {first second : String}
    (lower : lowered (first ++ second) = first ++ second) :
    lowered second = second := by
  rw [lowered_append] at lower
  have sameLength : (lowered first).toList.length = first.toList.length := by simp [lowered]
  have same := congrArg String.toList lower
  rw [String.toList_append, String.toList_append] at same
  exact String.toList_inj.mp (List.append_inj_right same sameLength)

/-! ## What a text denotes -/

/-- What a text in lower case denotes. -/
inductive Denotes : String -> Operator -> Prop
  | spelled
      {text : String}
      {operator : Operator}
      {texts : List String}
      (listed : (operator, texts) ∈ spellings)
      (spelled : text ∈ texts) :
      Denotes text operator
  | aggregate
      {name : String}
      (listed : name ∈ aggregateNames) :
      Denotes name (.aggregate name)
  | function
      {name : String}
      (nonempty : name ≠ "") :
      Denotes ("fn:" ++ name) (.function name)

/-- The name of a function follows the marker, and is not empty. -/
theorem functionName?_eq_some_iff :
    functionName? text = some name ↔ text = "fn:" ++ name ∧ name ≠ "" := by
  have marker : functionMarker = "fn:".toList := rfl
  constructor
  · intro found
    simp only [functionName?, Option.ite_none_right_eq_some, Option.some.injEq] at found
    obtain ⟨⟨marked, longer⟩, rfl⟩ := found
    constructor
    · rw [← String.toList_inj, String.toList_append, ← marker, ← marked, String.toList_ofList,
        List.take_append_drop]
    · intro empty
      have short := congrArg (fun text => text.toList.length) empty
      simp at short
      omega
  · rintro ⟨rfl, nonempty⟩
    simp [functionName?, marker, nonempty]

/-- No spelling is the marker with a name after it. -/
theorem functionName?_of_spelled
    {texts : List String}
    (listed : (operator, texts) ∈ spellings)
    (spelled : text ∈ texts) :
    functionName? text = none := by
  have all : ∀ spelling ∈ spellings, ∀ text ∈ spelling.2, functionName? text = none := by decide
  exact all (operator, texts) listed text spelled

theorem functionName?_of_aggregate (listed : name ∈ aggregateNames) :
    functionName? name = none := by
  have all : ∀ name ∈ aggregateNames, functionName? name = none := by decide
  exact all name listed

/-- Where a name follows the marker, it is a function that is read. -/
theorem ofLowered?_of_functionName? (found : functionName? text = some name) :
    ofLowered? text = some (.function name) := by
  have unspelled : spellings.find? (fun spelling => spelling.2.contains text) = none := by
    refine List.find?_eq_none.mpr fun spelling listed spelled => ?_
    rw [functionName?_of_spelled listed (List.contains_iff_mem.mp spelled)] at found
    cases found
  have unlisted : aggregateNames.contains text = false := by
    rw [Bool.eq_false_iff, ne_eq, List.contains_iff_mem]
    intro listed
    rw [functionName?_of_aggregate listed] at found
    cases found
  rw [ofLowered?, unspelled]
  simp only [unlisted, found]
  rfl

/-- A text in lower case is read as what it denotes. -/
theorem ofLowered?_eq_some_iff : ofLowered? text = some operator ↔ Denotes text operator := by
  constructor
  · intro read
    unfold ofLowered? at read
    split at read
    next spelling found =>
      cases read
      have spelled := List.find?_some found
      exact .spelled (List.mem_of_find?_eq_some found) (List.contains_iff_mem.mp spelled)
    next =>
      split at read
      next listed =>
        cases read
        exact .aggregate (List.contains_iff_mem.mp listed)
      next =>
        obtain ⟨name, found, rfl⟩ := Option.map_eq_some_iff.mp read
        obtain ⟨rfl, nonempty⟩ := functionName?_eq_some_iff.mp found
        exact .function nonempty
  · intro denotes
    cases denotes with
    | @spelled _ _ texts listed spelled =>
        have all : ∀ spelling ∈ spellings, ∀ text ∈ spelling.2,
            ofLowered? text = some spelling.1 := by
          decide
        exact all (operator, texts) listed text spelled
    | aggregate listed =>
        have all : ∀ name ∈ aggregateNames, ofLowered? name = some (.aggregate name) := by decide
        exact all text listed
    | function nonempty =>
        exact ofLowered?_of_functionName? (functionName?_eq_some_iff.mpr ⟨rfl, nonempty⟩)

/-! ## What is written denotes -/

/-- The first spelling of an operator denotes it. -/
theorem ofText?_toText_of_spelled
    {texts : List String}
    (listed : (operator, texts) ∈ spellings) :
    ofText? operator.toText = some operator := by
  have all : ∀ spelling ∈ spellings, ofText? spelling.1.toText = some spelling.1 := by decide
  exact all (operator, texts) listed

/-- No spelling is the name of an aggregate. -/
theorem not_mem_aggregateNames_of_spelled
    {texts : List String}
    (listed : (operator, texts) ∈ spellings)
    (spelled : text ∈ texts) :
    text ∉ aggregateNames := by
  have all : ∀ spelling ∈ spellings, ∀ text ∈ spelling.2, text ∉ aggregateNames := by decide
  exact all (operator, texts) listed text spelled

/-- What is written of an aggregate denotes nothing. -/
theorem ofText?_toText_of_aggregate (listed : name ∈ aggregateNames) :
    ofText? (aggregate name).toText = none := by
  have all : ∀ name ∈ aggregateNames, ofText? (aggregate name).toText = none := by decide
  exact all name listed

/-- What is written of a function denotes it, where its name is in lower case. -/
theorem ofText?_toText_of_function
    (nonempty : name ≠ "")
    (lower : lowered name = name) :
    ofText? (function name).toText = some (.function name) := by
  have inLowerCase : lowered (function name).toText = "fn:" ++ name := by
    rw [toText, lowered_append, lower]
    rfl
  rw [ofText?, inLowerCase]
  exact ofLowered?_eq_some_iff.mpr (.function nonempty)

/-- What is written of an operator denotes what the text denotes, unless that is the name of an
aggregate. -/
theorem ofText?_toText_of_denotes
    (denotes : Denotes text operator)
    (lower : lowered text = text) :
    ofText? operator.toText = if text ∈ aggregateNames then none else some operator := by
  cases denotes with
  | spelled listed spelled =>
      rw [if_neg (not_mem_aggregateNames_of_spelled listed spelled)]
      exact ofText?_toText_of_spelled listed
  | aggregate listed =>
      rw [if_pos listed]
      exact ofText?_toText_of_aggregate listed
  | @function name nonempty =>
      have marked : functionName? ("fn:" ++ name) = some name :=
        functionName?_eq_some_iff.mpr ⟨rfl, nonempty⟩
      have unlisted : "fn:" ++ name ∉ aggregateNames := by
        intro listed
        rw [functionName?_of_aggregate listed] at marked
        cases marked
      rw [if_neg unlisted]
      exact ofText?_toText_of_function nonempty (lowered_of_append lower)

/-- What is written of an operator that was read, in whatever spelling and letter case, denotes that
operator again, unless an aggregate was read. What is written of an aggregate denotes nothing. -/
theorem ofText?_toText_of_read (read : ofText? text = some operator) :
    ofText? operator.toText =
      if lowered text ∈ aggregateNames then none else some operator :=
  ofText?_toText_of_denotes (ofLowered?_eq_some_iff.mp read) (lowered_lowered text)

/-- A function is read in any letter case, and written with its name in lower case. -/
theorem upper_toText_of_read :
    ofText? "FN:Upper" = some (.function "upper") ∧
      ofText? (function "upper").toText = some (.function "upper") := by
  have read : ofText? "FN:Upper" = some (.function "upper") := by decide
  refine ⟨read, ?_⟩
  rw [ofText?_toText_of_read read]
  decide

/-- Not every operator that is read is written in a way that is read. -/
theorem count_toText_unread :
    ofText? "Count" = some (.aggregate "count") ∧ (aggregate "count").toText = "agg:count" ∧
      ofText? "agg:count" = none ∧
      ¬ ∀ text operator, ofText? text = some operator ->
        ofText? operator.toText = some operator := by
  have read : ofText? "Count" = some (.aggregate "count") := by decide
  have unread : ofText? (aggregate "count").toText = none := by decide
  refine ⟨read, by decide, unread, fun all => ?_⟩
  rw [all "Count" _ read] at unread
  cases unread

end Operator
end QueryGraph
