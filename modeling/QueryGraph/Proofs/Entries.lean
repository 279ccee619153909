import Mathlib.Data.List.Induction

/-!
# Lists of entries

Lists that are searched by a key, where the first entry of a key counts, and lists of which every
item is kept where it occurs first.
-/

namespace QueryGraph
namespace Entries

/-! ## Searching by a key -/

section Lookup

variable [BEq α] [LawfulBEq α] {entries : List (α × β)} {key : α} {value : β}

/-- Only what is listed is found. -/
theorem mem_of_lookup (found : entries.lookup key = some value) : (key, value) ∈ entries := by
  obtain ⟨front, back, split, -⟩ := List.lookup_eq_some_iff.mp found
  rw [split]
  exact List.mem_append_right _ List.mem_cons_self

/-- Nothing is found exactly where the key is not listed. -/
theorem lookup_eq_none_iff : entries.lookup key = none ↔ key ∉ entries.map Prod.fst := by
  rw [List.lookup_eq_none_iff, List.mem_map]
  constructor
  · rintro others ⟨entry, listed, rfl⟩
    simpa using others entry listed
  · intro new entry listed
    exact bne_iff_ne.mpr fun same => new ⟨entry, listed, same.symm⟩

/-- An entry is found by its key where every key is listed once. -/
theorem lookup_of_mem
    (nodup : (entries.map Prod.fst).Nodup)
    (member : (key, value) ∈ entries) :
    entries.lookup key = some value := by
  induction entries with
  | nil => cases member
  | cons entry rest inductionHypothesis =>
      obtain ⟨once, nodupRest⟩ := List.nodup_cons.mp nodup
      rcases List.mem_cons.mp member with rfl | later
      · rw [List.lookup_cons_self]
      · have differs : (key == entry.1) = false := by
          apply beq_false_of_ne
          rintro rfl
          exact once (List.mem_map.mpr ⟨_, later, rfl⟩)
        rw [List.lookup_cons, differs]
        exact inductionHypothesis nodupRest later

theorem lookup_eq_some_iff
    (nodup : (entries.map Prod.fst).Nodup) :
    entries.lookup key = some value ↔ (key, value) ∈ entries :=
  ⟨mem_of_lookup, lookup_of_mem nodup⟩

end Lookup

/-- Another entry is found by its key unless there is one before it. -/
theorem lookup_append_singleton
    [DecidableEq α]
    (entries : List (α × β))
    (key other : α)
    (value : β) :
    (entries ++ [(key, value)]).lookup other =
      (entries.lookup other).or (if other = key then some value else none) := by
  rw [List.lookup_append, List.lookup_cons]
  by_cases same : other = key
  · simp [same]
  · simp [same, beq_false_of_ne same]

/-! ## Keeping first occurrences -/

/-- Another item is kept after the others unless it is among them. -/
theorem eraseDups_append_singleton
    [DecidableEq α]
    (items : List α)
    (last : α) :
    (items ++ [last]).eraseDups =
      if last ∈ items then items.eraseDups else items.eraseDups ++ [last] := by
  rw [List.eraseDups_append]
  unfold List.removeAll
  by_cases member : last ∈ items
  · simp [member]
  · simp [member, List.eraseDups_cons]

/-- Every item that occurs stays once. -/
theorem nodup_eraseDups
    [DecidableEq α]
    (items : List α) :
    items.eraseDups.Nodup := by
  induction items using List.reverseRecOn with
  | nil => exact List.nodup_nil
  | append_singleton items last inductionHypothesis =>
      rw [eraseDups_append_singleton]
      split
      · exact inductionHypothesis
      · rename_i new
        refine List.nodup_append.mpr ⟨inductionHypothesis, List.pairwise_singleton _ last, ?_⟩
        rintro other member _ isLast rfl
        rw [List.mem_singleton.mp isLast, List.mem_eraseDups] at member
        exact new member

end Entries
end QueryGraph
