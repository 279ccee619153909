import Mathlib.Data.List.Forall2

/-!
# Operations that may be refused

An operation takes a state to a value and a new state, or is refused with an error.
The evaluation rules below open a composed operation one step at a time, and the
inversion rules say what the steps of a successful one did.
-/

namespace QueryGraph
namespace Operation

variable {ε σ τ α β : Type}

/-! ## Evaluating an operation -/

@[simp] theorem pure_apply (value : α) (state : σ) :
    (pure value : EStateM ε σ α) state = .ok value state := rfl

@[simp] theorem throw_apply (error : ε) (state : σ) :
    (throw error : EStateM ε σ α) state = .error error state := rfl

@[simp] theorem get_apply (state : σ) :
    (get : EStateM ε σ σ) state = .ok state state := rfl

@[simp] theorem set_apply (next state : σ) :
    (set next : EStateM ε σ PUnit) state = .ok () next := rfl

@[simp] theorem modify_apply (change : σ -> σ) (state : σ) :
    (modify change : EStateM ε σ PUnit) state = .ok () (change state) := rfl

theorem bind_apply
    (first : EStateM ε σ α)
    (rest : α -> EStateM ε σ β)
    (state : σ) :
    (first >>= rest) state =
      match first state with
      | .ok value state => rest value state
      | .error error state => .error error state := by
  change EStateM.bind first rest state = _
  unfold EStateM.bind
  cases first state <;> rfl

/-- Once the first step is known to succeed, the rest goes on from where it ended. -/
theorem bind_of_ok
    {first : EStateM ε σ α}
    {rest : α -> EStateM ε σ β}
    {value : α}
    {before after : σ}
    (done : first before = .ok value after) :
    (first >>= rest) before = rest value after := by
  rw [bind_apply, done]

/-- Once the first step is known to be refused, so is the whole. -/
theorem bind_of_error
    {first : EStateM ε σ α}
    {rest : α -> EStateM ε σ β}
    {error : ε}
    {before after : σ}
    (refused : first before = .error error after) :
    (first >>= rest) before = .error error after := by
  rw [bind_apply, refused]

/-! ## Inverting a successful operation -/

theorem bind_eq_ok
    {first : EStateM ε σ α}
    {rest : α -> EStateM ε σ β}
    {value : β}
    {before after : σ} :
    (first >>= rest) before = .ok value after ↔
      ∃ middle between, first before = .ok middle between ∧
        rest middle between = .ok value after := by
  rw [bind_apply]
  cases first before with
  | ok middle between =>
      constructor
      · intro done
        exact ⟨middle, between, rfl, done⟩
      · rintro ⟨_, _, same, done⟩
        cases same
        exact done
  | error error between => simp

theorem forM_cons_eq_ok
    {action : α -> EStateM ε σ PUnit}
    {item : α}
    {items : List α}
    {before after : σ} :
    (item :: items).forM action before = .ok () after ↔
      ∃ between, action item before = .ok () between ∧
        items.forM action between = .ok () after := by
  change (action item >>= fun _ => items.forM action) before = .ok () after ↔ _
  rw [bind_eq_ok]
  constructor
  · rintro ⟨⟨⟩, between, first, rest⟩
    exact ⟨between, first, rest⟩
  · rintro ⟨between, first, rest⟩
    exact ⟨(), between, first, rest⟩

/-- Actions that are the same on the members of a list are the same on the list. -/
theorem forM_congr
    {first second : α -> EStateM ε σ PUnit}
    {items : List α}
    (same : ∀ item ∈ items, first item = second item) :
    items.forM first = items.forM second := by
  induction items with
  | nil => rfl
  | cons item items inductionHypothesis =>
      have rest := inductionHypothesis fun next member =>
        same next (List.mem_cons_of_mem item member)
      change (first item >>= fun _ => items.forM first) =
        (second item >>= fun _ => items.forM second)
      rw [same item List.mem_cons_self, rest]

/-! ## Reading lists -/

/-- A list of questions is answered when each of them is. -/
theorem mapM_eq_ok
    {query : α -> Except ε β}
    {items : List α}
    {values : List β} :
    items.mapM query = .ok values ↔
      List.Forall₂ (fun item value => query item = .ok value) items values := by
  induction items generalizing values with
  | nil =>
      rw [List.mapM_nil, List.forall₂_nil_left_iff]
      exact ⟨fun same => by cases same; rfl, fun same => by rw [same]; rfl⟩
  | cons item items inductionHypothesis =>
      rw [List.mapM_cons, List.forall₂_cons_left_iff]
      cases first : query item with
      | error error =>
          refine ⟨fun contrary => ?_, ?_⟩
          · cases contrary
          · rintro ⟨_, _, contrary, -⟩
            cases contrary
      | ok value =>
          change (items.mapM query >>= fun rest => Except.ok (value :: rest)) = _ ↔ _
          cases rest : items.mapM query with
          | error error =>
              refine ⟨fun contrary => ?_, ?_⟩
              · cases contrary
              · rintro ⟨_, tail, -, answered, -⟩
                have contrary := inductionHypothesis.mpr answered
                rw [rest] at contrary
                cases contrary
          | ok tail =>
              constructor
              · intro same
                cases same
                exact ⟨value, tail, rfl, inductionHypothesis.mp rest, rfl⟩
              · rintro ⟨_, other, same, answered, rfl⟩
                cases same
                have sameTail := inductionHypothesis.mpr answered
                rw [rest] at sameTail
                cases sameTail
                rfl

theorem exists_of_mapM_eq_ok
    {query : α -> Except ε β}
    {items : List α}
    {values : List β}
    {item : α}
    (answered : items.mapM query = .ok values)
    (member : item ∈ items) :
    ∃ value ∈ values, query item = .ok value := by
  rw [mapM_eq_ok] at answered
  induction answered with
  | nil => cases member
  | cons first rest inductionHypothesis =>
      rcases List.mem_cons.mp member with rfl | later
      · exact ⟨_, List.mem_cons_self, first⟩
      · obtain ⟨value, found, same⟩ := inductionHypothesis later
        exact ⟨value, List.mem_cons_of_mem _ found, same⟩

theorem exists_of_mem_mapM
    {query : α -> Except ε β}
    {items : List α}
    {values : List β}
    {value : β}
    (answered : items.mapM query = .ok values)
    (member : value ∈ values) :
    ∃ item ∈ items, query item = .ok value := by
  rw [mapM_eq_ok] at answered
  induction answered with
  | nil => cases member
  | cons first rest inductionHypothesis =>
      rcases List.mem_cons.mp member with rfl | later
      · exact ⟨_, List.mem_cons_self, first⟩
      · obtain ⟨item, found, same⟩ := inductionHypothesis later
        exact ⟨item, List.mem_cons_of_mem _ found, same⟩

theorem mapError_eq_ok
    {δ : Type}
    {result : Except ε α}
    {change : ε -> δ}
    {value : α} :
    result.mapError change = .ok value ↔ result = .ok value := by
  cases result <;> simp [Except.mapError]

/-- A list of questions is answered when each of them is answered in some way. -/
theorem exists_mapM_eq_ok
    {query : α -> Except ε β}
    {items : List α}
    (answered : ∀ item ∈ items, ∃ value, query item = .ok value) :
    ∃ values, items.mapM query = .ok values := by
  simp only [mapM_eq_ok]
  induction items with
  | nil => exact ⟨[], .nil⟩
  | cons item items inductionHypothesis =>
      obtain ⟨value, first⟩ := answered item List.mem_cons_self
      obtain ⟨values, rest⟩ := inductionHypothesis fun next member =>
        answered next (List.mem_cons_of_mem item member)
      exact ⟨value :: values, .cons first rest⟩

/-- Answers that tell something of what was asked tell it of the list of questions. -/
theorem map_eq_of_mapM
    {γ : Type}
    {query : α -> Except ε β}
    {origin : β -> γ}
    {key : α -> γ}
    {items : List α}
    {values : List β}
    (answered : items.mapM query = .ok values)
    (keeps : ∀ item ∈ items, ∀ value, query item = .ok value -> origin value = key item) :
    values.map origin = items.map key := by
  rw [mapM_eq_ok] at answered
  induction answered with
  | nil => rfl
  | cons first rest inductionHypothesis =>
      rw [List.map_cons, List.map_cons, keeps _ List.mem_cons_self _ first,
        inductionHypothesis fun item member => keeps item (List.mem_cons_of_mem _ member)]

/-- Answers that tell what was asked tell the list of questions. -/
theorem map_of_mapM
    {query : α -> Except ε β}
    {origin : β -> α}
    {items : List α}
    {values : List β}
    (answered : items.mapM query = .ok values)
    (keeps : ∀ {item value}, query item = .ok value -> origin value = item) :
    values.map origin = items := by
  rw [map_eq_of_mapM answered fun _ _ _ done => keeps done]
  exact List.map_id items

/-- Another question has the same answers to a list where it has the same answers to
its members. -/
theorem mapM_eq_ok_of_imp
    {query other : α -> Except ε β}
    {items : List α}
    {values : List β}
    (answered : items.mapM query = .ok values)
    (same : ∀ item ∈ items, ∀ value ∈ values, query item = .ok value -> other item = .ok value) :
    items.mapM other = .ok values := by
  rw [mapM_eq_ok] at answered ⊢
  induction answered with
  | nil => exact List.Forall₂.nil
  | cons first rest inductionHypothesis =>
      refine List.Forall₂.cons (same _ List.mem_cons_self _ List.mem_cons_self first) ?_
      exact inductionHypothesis fun item member value valueMember =>
        same item (List.mem_cons_of_mem _ member) value (List.mem_cons_of_mem _ valueMember)

/-! ## The state an operation leaves -/

/-- The state that an operation leaves, whether it succeeds or is refused. -/
def finalState : EStateM.Result ε σ α -> σ
  | .ok _ state => state
  | .error _ state => state

@[simp] theorem finalState_ok (value : α) (state : σ) :
    finalState (.ok value state : EStateM.Result ε σ α) = state := rfl

@[simp] theorem finalState_error (error : ε) (state : σ) :
    finalState (.error error state : EStateM.Result ε σ α) = state := rfl

/-- The result of an operation with another view of the state that it leaves. -/
def mapState (view : σ -> τ) : EStateM.Result ε σ α -> EStateM.Result ε τ α
  | .ok value state => .ok value (view state)
  | .error error state => .error error (view state)

@[simp] theorem finalState_mapState (view : σ -> τ) (result : EStateM.Result ε σ α) :
    finalState (mapState view result) = view (finalState result) := by
  cases result <;> rfl

/-- An operation that leaves the state as it is, and establishes a fact when it
succeeds. -/
def Checks
    (check : EStateM ε σ α)
    (fact : σ -> α -> Prop) : Prop :=
  ∀ state, (∃ error, check state = .error error state) ∨
    ∃ value, check state = .ok value state ∧ fact state value

theorem Checks.pure (value : α) :
    Checks (pure value : EStateM ε σ α) fun _ result => result = value :=
  fun _ => Or.inr ⟨value, rfl, rfl⟩

theorem Checks.throw
    (error : ε)
    (fact : σ -> α -> Prop) :
    Checks (throw error : EStateM ε σ α) fact :=
  fun _ => Or.inl ⟨error, rfl⟩

theorem Checks.get : Checks (get : EStateM ε σ σ) fun state value => value = state :=
  fun state => Or.inr ⟨state, rfl, rfl⟩

/-- A check after another one may rely on what the first one established. -/
theorem Checks.bind
    {first : EStateM ε σ α}
    {rest : α -> EStateM ε σ β}
    {fact : σ -> α -> Prop}
    {goal : σ -> β -> Prop}
    (firstChecks : Checks first fact)
    (restChecks : ∀ value, Checks (rest value) fun state result =>
      fact state value -> goal state result) :
    Checks (first >>= rest) goal := by
  intro state
  rcases firstChecks state with ⟨error, refused⟩ | ⟨value, passed, holds⟩
  · exact Or.inl ⟨error, bind_of_error refused⟩
  · rw [bind_of_ok passed]
    rcases restChecks value state with refused | ⟨result, done, goal⟩
    · exact Or.inl refused
    · exact Or.inr ⟨result, done, goal holds⟩

theorem Checks.mono
    {check : EStateM ε σ α}
    {fact weaker : σ -> α -> Prop}
    (checks : Checks check fact)
    (implies : ∀ state value, fact state value -> weaker state value) :
    Checks check weaker := by
  intro state
  rcases checks state with refused | ⟨value, passed, holds⟩
  · exact Or.inl refused
  · exact Or.inr ⟨value, passed, implies state value holds⟩

/-- A check that was passed has established its fact, and left the state as it was. -/
theorem Checks.of_ok
    {check : EStateM ε σ α}
    {fact : σ -> α -> Prop}
    {before after : σ}
    {value : α}
    (checks : Checks check fact)
    (done : check before = .ok value after) :
    after = before ∧ fact before value := by
  rcases checks before with ⟨error, refused⟩ | ⟨result, passed, holds⟩
  · rw [refused] at done
    cases done
  · rw [passed] at done
    cases done
    exact ⟨rfl, holds⟩

/-- A condition without which an operation is refused. -/
theorem Checks.guard
    (condition : Prop)
    [Decidable condition]
    (value : α)
    (error : ε) :
    Checks (if condition then Pure.pure value else MonadExcept.throw error : EStateM ε σ α)
      fun _ result => condition ∧ result = value := by
  intro state
  by_cases holds : condition
  · exact Or.inr ⟨value, by simp [holds], holds, rfl⟩
  · exact Or.inl ⟨error, by simp [holds]⟩

/-! ## How an operation ends -/

/-- An operation that succeeded established a fact, and one that was refused has an error of a
kind. -/
def Ends
    (fact : α -> σ -> Prop)
    (fault : ε -> Prop) : EStateM.Result ε σ α -> Prop
  | .ok value state => fact value state
  | .error error _ => fault error

section Ends

variable {fact stronger : α -> σ -> Prop} {goal : β -> σ -> Prop} {fault narrower : ε -> Prop}

theorem Ends.of_ok
    {result : EStateM.Result ε σ α}
    {value : α}
    {after : σ}
    (ends : Ends fact fault result)
    (done : result = .ok value after) :
    fact value after := by
  rwa [done] at ends

theorem Ends.of_error
    {result : EStateM.Result ε σ α}
    {error : ε}
    {after : σ}
    (ends : Ends fact fault result)
    (refused : result = .error error after) :
    fault error := by
  rwa [refused] at ends

theorem Ends.imp
    {result : EStateM.Result ε σ α}
    (ends : Ends stronger narrower result)
    (facts : ∀ value state, stronger value state -> fact value state)
    (faults : ∀ error, narrower error -> fault error) :
    Ends fact fault result := by
  cases result with
  | ok value state => exact facts value state ends
  | error error state => exact faults error ends

/-- What a success establishes may be shown apart from the errors. -/
theorem Ends.of_done
    {result : EStateM.Result ε σ α}
    (ends : Ends (fun _ _ => True) fault result)
    (facts : ∀ value state, result = .ok value state -> fact value state) :
    Ends fact fault result := by
  cases result with
  | ok value state => exact facts value state rfl
  | error error state => exact ends

/-- A success is known together with what it establishes. -/
theorem Ends.attach
    {result : EStateM.Result ε σ α}
    (ends : Ends fact fault result) :
    Ends (fun value after => fact value after ∧ result = .ok value after) fault result := by
  cases result with
  | ok value state => exact ⟨ends, rfl⟩
  | error error state => exact ends

/-- The rest goes on from what the first step established. -/
theorem Ends.bind
    {first : EStateM ε σ α}
    {rest : α -> EStateM ε σ β}
    {before : σ}
    (ends : Ends (fun value between => Ends goal fault (rest value between)) fault (first before)) :
    Ends goal fault ((first >>= rest) before) := by
  rw [bind_apply]
  cases done : first before with
  | ok value between =>
      rw [done] at ends
      exact ends
  | error error between =>
      rw [done] at ends
      exact ends

/-- What holds after the first step is what the rest starts from. -/
theorem Ends.seq
    {first : EStateM ε σ α}
    {rest : α -> EStateM ε σ β}
    {before : σ}
    (ends : Ends fact fault (first before))
    (next : ∀ value between, fact value between -> Ends goal fault (rest value between)) :
    Ends goal fault ((first >>= rest) before) :=
  Ends.bind (ends.imp next fun _ same => same)

theorem Ends.bind_ok
    {first : EStateM ε σ α}
    {rest : α -> EStateM ε σ β}
    {value : α}
    {before between : σ}
    (done : first before = .ok value between)
    (ends : Ends goal fault (rest value between)) :
    Ends goal fault ((first >>= rest) before) := by
  rwa [bind_of_ok done]

/-- What every action keeps, a list of them keeps. -/
theorem Ends.forM
    {action : α -> EStateM ε σ PUnit}
    {items : List α}
    {before : σ}
    (keeps : σ -> Prop)
    (each : ∀ item ∈ items, ∀ state, keeps state ->
      Ends (fun _ after => keeps after) fault (action item state))
    (holds : keeps before) :
    Ends (fun _ after => keeps after) fault (items.forM action before) := by
  induction items generalizing before with
  | nil => exact holds
  | cons item items inductionHypothesis =>
      refine Ends.bind ((each item List.mem_cons_self before holds).imp ?_ fun _ same => same)
      intro _ between kept
      exact inductionHypothesis
        (fun next member => each next (List.mem_cons_of_mem item member)) kept

theorem Ends.mapM
    {action : α -> EStateM ε σ β}
    {items : List α}
    {before : σ}
    (keeps : σ -> Prop)
    (each : ∀ item ∈ items, ∀ state, keeps state ->
      Ends (fun _ after => keeps after) fault (action item state))
    (holds : keeps before) :
    Ends (fun _ after => keeps after) fault (items.mapM action before) := by
  induction items generalizing before with
  | nil => exact holds
  | cons item items inductionHypothesis =>
      rw [List.mapM_cons]
      refine Ends.bind ((each item List.mem_cons_self before holds).imp ?_ fun _ same => same)
      intro first between kept
      refine Ends.bind ((inductionHypothesis
        (fun next member => each next (List.mem_cons_of_mem item member)) kept).imp ?_
          fun _ same => same)
      exact fun rest last done => done

end Ends

/-! ## Two operations side by side -/

/-- Two operations that end alike: both succeed, with related values and related states, or both
are refused with the same error. -/
def Alike
    (values : α -> β -> Prop)
    (states : σ -> τ -> Prop) :
    EStateM.Result ε σ α -> EStateM.Result ε τ β -> Prop
  | .ok first left, .ok second right => values first second ∧ states left right
  | .ok _ _, .error _ _ => False
  | .error _ _, .ok _ _ => False
  | .error first _, .error second _ => first = second

section Alike

variable {γ δ : Type} {values stronger : α -> β -> Prop} {states : σ -> τ -> Prop}

theorem Alike.cases
    {first : EStateM.Result ε σ α}
    {second : EStateM.Result ε τ β}
    (alike : Alike values states first second) :
    (∃ value other left right, first = .ok value left ∧ second = .ok other right ∧
      values value other ∧ states left right) ∨
    ∃ error left right, first = .error error left ∧ second = .error error right := by
  match first, second with
  | .ok value left, .ok other right => exact Or.inl ⟨value, other, left, right, rfl, rfl, alike⟩
  | .error error left, .error other right =>
      cases alike
      exact Or.inr ⟨error, left, right, rfl, rfl⟩

theorem Alike.imp
    {first : EStateM.Result ε σ α}
    {second : EStateM.Result ε τ β}
    (alike : Alike stronger states first second)
    (implies : ∀ value other, stronger value other -> values value other) :
    Alike values states first second := by
  rcases alike.cases with ⟨value, other, left, right, rfl, rfl, related, kept⟩ |
    ⟨error, left, right, rfl, rfl⟩
  · exact ⟨implies value other related, kept⟩
  · rfl

/-- What follows two operations that ended alike ends alike when it does from related values. -/
theorem Alike.bind
    {results : γ -> δ -> Prop}
    {first : EStateM ε σ α}
    {second : EStateM ε τ β}
    {firstRest : α -> EStateM ε σ γ}
    {secondRest : β -> EStateM ε τ δ}
    {left : σ}
    {right : τ}
    (alike : Alike values states (first left) (second right))
    (rest : ∀ value other left right, values value other -> states left right ->
      Alike results states (firstRest value left) (secondRest other right)) :
    Alike results states ((first >>= firstRest) left) ((second >>= secondRest) right) := by
  rcases alike.cases with ⟨value, other, _, _, done, otherDone, related, kept⟩ |
    ⟨error, _, _, refused, otherRefused⟩
  · rw [bind_of_ok done, bind_of_ok otherDone]
    exact rest value other _ _ related kept
  · rw [bind_of_error refused, bind_of_error otherRefused]
    rfl

/-- What is made of the values of two operations that ended alike is related where it is made of
related values. -/
theorem Alike.bind_pure
    {results : γ -> δ -> Prop}
    {first : EStateM ε σ α}
    {second : EStateM ε τ β}
    {change : α -> γ}
    {other : β -> δ}
    {left : σ}
    {right : τ}
    (alike : Alike values states (first left) (second right))
    (related : ∀ value next, values value next -> results (change value) (other next)) :
    Alike results states ((first >>= fun value => pure (change value)) left)
      ((second >>= fun value => pure (other value)) right) :=
  alike.bind fun value next _ _ same kept => ⟨related value next same, kept⟩

theorem Alike.forM
    {first : α -> EStateM ε σ PUnit}
    {second : α -> EStateM ε τ PUnit}
    {items : List α}
    {left : σ}
    {right : τ}
    (each : ∀ item ∈ items, ∀ left right, states left right ->
      Alike Eq states (first item left) (second item right))
    (related : states left right) :
    Alike Eq states (items.forM first left) (items.forM second right) := by
  induction items generalizing left right with
  | nil => exact ⟨rfl, related⟩
  | cons item items inductionHypothesis =>
      refine Alike.bind (each item List.mem_cons_self left right related) ?_
      intro _ _ between other _ kept
      exact inductionHypothesis
        (fun next member => each next (List.mem_cons_of_mem item member)) kept

theorem Alike.mapM
    {first : γ -> EStateM ε σ α}
    {second : γ -> EStateM ε τ β}
    {items : List γ}
    {left : σ}
    {right : τ}
    (each : ∀ item ∈ items, ∀ left right, states left right ->
      Alike values states (first item left) (second item right))
    (related : states left right) :
    Alike (List.Forall₂ values) states (items.mapM first left) (items.mapM second right) := by
  induction items generalizing left right with
  | nil => exact ⟨.nil, related⟩
  | cons item items inductionHypothesis =>
      rw [List.mapM_cons, List.mapM_cons]
      refine Alike.bind (each item List.mem_cons_self left right related) ?_
      intro head otherHead between other heads kept
      refine Alike.bind (inductionHypothesis
        (fun next member => each next (List.mem_cons_of_mem item member)) kept) ?_
      exact fun tail otherTail last otherLast tails stillKept => ⟨.cons heads tails, stillKept⟩

end Alike

end Operation
end QueryGraph
