import Mathlib.Data.List.Perm.Basic
import QueryGraph.Proofs.Graph.Evolution

/-!
# Declared joins below one vertex

What a declared join makes of the vertices below its parent depends on these vertices
alone: it adds one, or shares the one that admits it. Up to the order in which the
vertices are listed, two declared joins may be made in either order.
-/

namespace QueryGraph

open scoped List

theorem JoinDirection.merge_comm (first second : JoinDirection) :
    first.merge second = second.merge first := by
  cases first <;> cases second <;> rfl

theorem JoinDirection.merge_right_comm (first second third : JoinDirection) :
    (first.merge second).merge third = (first.merge third).merge second := by
  cases first <;> cases second <;> cases third <;> rfl

/-! ## Two requests for one relation -/

namespace JoinRequest

/-- A declared join whose target type is told by its relation. -/
def Declares (targetOf : String -> String) (request : JoinRequest) : Prop :=
  request.origin = .explicit ∧ request.targetType = targetOf request.field

/-- Whether a request marks the vertex that it leads to, and everything above, as used. -/
def marks (request : JoinRequest) : Bool := request.mode.isRequired || request.on.isSome

end JoinRequest

namespace Vertex

variable {vertex : Vertex} {parent : VertexId} {statement : NodeId}
  {request first second : JoinRequest} {targetOf : String -> String}

/-- A request may reuse a vertex. -/
def Admits (vertex : Vertex) (request : JoinRequest) : Prop :=
  request.mode.isNew = false ∧ vertex.isMergeable request.field request.origin = true

/-- The vertex that a request adds below a parent. -/
def made
    (parent : VertexId)
    (statement : NodeId)
    (request : JoinRequest) : Vertex :=
  { Vertex.ofRequest request statement with parent := some parent, used := request.marks }

/-- The vertex that a request has come to share. -/
def absorb (vertex : Vertex) (request : JoinRequest) : Vertex :=
  { vertex.mergeRequest request with used := vertex.used || request.mode.isRequired }

/-- A request of a declared join only asks for the relation, and for a vertex that is not
reserved for its creator. -/
theorem admits_iff (explicit : request.origin = .explicit) :
    vertex.Admits request ↔
      request.mode.isNew = false ∧ vertex.field = some request.field ∧
        vertex.mode.isNew = false := by
  simp [Admits, isMergeable, explicit]

theorem mergeFault?_eq_none :
    vertex.mergeFault? request = none ↔
      request.on = none ∧ vertex.on = none ∧
        ∀ existing requested, vertex.aliasHint = some existing ->
          request.aliasHint = some requested -> existing = requested := by
  unfold mergeFault?
  by_cases conditioned : (request.on.isSome || vertex.on.isSome) = true
  · rw [if_pos conditioned]
    simp only [reduceCtorEq, false_iff]
    rintro ⟨requestFree, vertexFree, -⟩
    rw [requestFree, vertexFree] at conditioned
    cases conditioned
  · rw [if_neg conditioned]
    simp only [Bool.or_eq_true, Option.isSome_iff_ne_none, not_or, not_not] at conditioned
    cases vertex.aliasHint <;> cases request.aliasHint <;> simp [conditioned]

/-- A vertex that was shared is reserved for its creator as before. -/
theorem isNew_absorb (vertex : Vertex) (request : JoinRequest) :
    (vertex.absorb request).mode.isNew = vertex.mode.isNew := by
  unfold absorb mergeRequest
  simp only
  split
  · exact JoinMode.isNew_toRequired vertex.mode
  · rfl

theorem admits_absorb (explicit : second.origin = .explicit) :
    (vertex.absorb first).Admits second ↔ vertex.Admits second := by
  rw [admits_iff explicit, admits_iff explicit, isNew_absorb]
  rfl

/-- What may be shared by one of two requests for a relation may be shared by the other. -/
theorem Admits.of_admits_made
    (firstDeclares : first.Declares targetOf)
    (secondDeclares : second.Declares targetOf)
    (shares : (made parent statement first).Admits second)
    (admits : vertex.Admits second) :
    vertex.Admits first := by
  rw [admits_iff secondDeclares.1] at shares admits
  rw [admits_iff firstDeclares.1]
  have sameField : first.field = second.field := Option.some.inj shares.2.1
  exact ⟨shares.2.2, by rw [admits.2.1, sameField], admits.2.2⟩

theorem admits_made_comm
    (firstDeclares : first.Declares targetOf)
    (secondDeclares : second.Declares targetOf) :
    (made parent statement first).Admits second ↔
      (made parent statement second).Admits first := by
  rw [admits_iff secondDeclares.1, admits_iff firstDeclares.1]
  have swap : ∀ {left right : JoinRequest},
      right.mode.isNew = false ∧ some left.field = some right.field ∧ left.mode.isNew = false ->
      left.mode.isNew = false ∧ some right.field = some left.field ∧
        right.mode.isNew = false :=
    fun ⟨rightShares, same, leftShares⟩ => ⟨leftShares, same.symm, rightShares⟩
  exact ⟨swap, swap⟩

/-- Of two requests that a vertex admits one after the other, either may come first. -/
theorem absorb_right_comm
    (granted : vertex.mergeFault? first = none)
    (grantedAfter : (vertex.absorb first).mergeFault? second = none) :
    vertex.mergeFault? second = none ∧ (vertex.absorb second).mergeFault? first = none ∧
      (vertex.absorb first).absorb second = (vertex.absorb second).absorb first := by
  obtain ⟨firstFree, vertexFree, firstAgrees⟩ := mergeFault?_eq_none.mp granted
  obtain ⟨secondFree, -, secondAgrees⟩ := mergeFault?_eq_none.mp grantedAfter
  change ∀ existing requested, first.aliasHint.or vertex.aliasHint = some existing ->
    second.aliasHint = some requested -> existing = requested at secondAgrees
  -- With a suggestion of the first request the vertex has the same suggestion, or none.
  have agrees : ∀ existing requested, vertex.aliasHint = some existing ->
      second.aliasHint = some requested -> existing = requested := by
    intro existing requested suggested asked
    cases hint : first.aliasHint with
    | none => exact secondAgrees existing requested (by simp [hint, suggested]) asked
    | some name =>
        rw [firstAgrees existing name suggested hint]
        exact secondAgrees name requested (by simp [hint]) asked
  have firstAgain : ∀ existing requested, second.aliasHint.or vertex.aliasHint = some existing ->
      first.aliasHint = some requested -> existing = requested := by
    intro existing requested suggested asked
    cases hint : second.aliasHint with
    | none => exact firstAgrees existing requested (by simpa [hint] using suggested) asked
    | some name =>
        have same : existing = name := by simpa [hint] using suggested.symm
        rw [same]
        exact (secondAgrees requested name (by simp [asked]) hint).symm
  have sameHint : second.aliasHint.or (first.aliasHint.or vertex.aliasHint) =
      first.aliasHint.or (second.aliasHint.or vertex.aliasHint) := by
    cases firstHint : first.aliasHint with
    | none => simp
    | some one =>
        cases secondHint : second.aliasHint with
        | none => simp
        | some other => simpa using (secondAgrees one other (by simp [firstHint]) secondHint).symm
  refine ⟨mergeFault?_eq_none.mpr ⟨secondFree, vertexFree, agrees⟩,
    mergeFault?_eq_none.mpr ⟨firstFree, vertexFree, firstAgain⟩, ?_⟩
  have sameMode : (vertex.absorb first |>.absorb second).mode =
      (vertex.absorb second |>.absorb first).mode := by
    unfold absorb mergeRequest
    cases first.mode.isRequired <;> cases second.mode.isRequired <;> rfl
  unfold absorb mergeRequest at sameMode ⊢
  simp only [Vertex.mk.injEq, true_and, and_true]
  exact ⟨JoinDirection.merge_right_comm _ _ _, sameMode, Bool.or_right_comm _ _ _,
    Bool.or_right_comm _ _ _, sameHint⟩

/-- Of two requests for one relation either may add the vertex that the other comes to
share. -/
theorem absorb_made_comm
    (firstDeclares : first.Declares targetOf)
    (secondDeclares : second.Declares targetOf)
    (admits : (made parent statement first).Admits second)
    (granted : (made parent statement first).mergeFault? second = none) :
    (made parent statement second).mergeFault? first = none ∧
      (made parent statement first).absorb second =
        (made parent statement second).absorb first := by
  obtain ⟨secondFree, firstFree, agrees⟩ := mergeFault?_eq_none.mp granted
  obtain ⟨secondShares, sameField, firstShares⟩ := (admits_iff secondDeclares.1).mp admits
  replace sameField : first.field = second.field := Option.some.inj sameField
  replace firstFree : first.on = none := firstFree
  replace firstShares : first.mode.isNew = false := firstShares
  replace agrees : ∀ existing requested, first.aliasHint = some existing ->
    second.aliasHint = some requested -> existing = requested := agrees
  have agreesBack : ∀ existing requested, second.aliasHint = some existing ->
      first.aliasHint = some requested -> existing = requested :=
    fun existing requested suggested asked => (agrees requested existing asked suggested).symm
  refine ⟨mergeFault?_eq_none.mpr ⟨firstFree, secondFree, agreesBack⟩, ?_⟩
  have sameType : first.targetType = second.targetType := by
    rw [firstDeclares.2, secondDeclares.2, sameField]
  have sameHint : second.aliasHint.or first.aliasHint = first.aliasHint.or second.aliasHint := by
    cases firstHint : first.aliasHint with
    | none => simp
    | some one =>
        cases secondHint : second.aliasHint with
        | none => simp
        | some other => simpa using (agrees one other firstHint secondHint).symm
  have sameMode : (made parent statement first |>.absorb second).mode =
      (made parent statement second |>.absorb first).mode := by
    unfold absorb mergeRequest made ofRequest
    cases firstMode : first.mode <;> rw [firstMode] at firstShares <;> cases firstShares <;>
      cases secondMode : second.mode <;> rw [secondMode] at secondShares <;>
      cases secondShares <;> rfl
  unfold absorb mergeRequest made ofRequest at sameMode ⊢
  simp only [JoinRequest.marks, firstFree, secondFree, firstDeclares.1, secondDeclares.1,
    Option.isSome_none, Bool.or_false, decide_true, Bool.or_self, Vertex.mk.injEq, true_and,
    and_true, sameType, sameField]
  exact ⟨JoinDirection.merge_comm _ _, sameMode, Bool.or_comm _ _, sameHint⟩

/-! ## Requests among siblings -/

/-- A request is granted among the vertices below one parent: none of them admits it and it
adds one, or it shares one that admits it. The order of the vertices does not matter. -/
inductive Settles
    (parent : VertexId)
    (statement : NodeId)
    (request : JoinRequest)
    (siblings after : List Vertex) : Prop
  | add
      (free : ∀ vertex ∈ siblings, ¬ vertex.Admits request)
      (perm : after.Perm (made parent statement request :: siblings))
  | share
      (vertex : Vertex)
      (others : List Vertex)
      (place : siblings.Perm (vertex :: others))
      (admits : vertex.Admits request)
      (granted : vertex.mergeFault? request = none)
      (perm : after.Perm (vertex.absorb request :: others))

/-- Requests are granted one after the other. -/
def SettlesAll
    (parent : VertexId)
    (statement : NodeId) : List JoinRequest -> List Vertex -> List Vertex -> Prop
  | [], siblings, after => after.Perm siblings
  | request :: requests, siblings, after =>
      ∃ between, Settles parent statement request siblings between ∧
        SettlesAll parent statement requests between after

variable {siblings others between after later : List Vertex}

theorem Settles.of_perm
    (settles : Settles parent statement request siblings after)
    (perm : siblings.Perm others) :
    Settles parent statement request others after := by
  cases settles with
  | add free last =>
      exact .add (fun vertex member => free vertex (perm.mem_iff.mpr member))
        (last.trans (perm.cons _))
  | share vertex rest place admits granted last =>
      exact .share vertex rest (perm.symm.trans place) admits granted last

theorem SettlesAll.of_perm
    {requests : List JoinRequest}
    (settles : SettlesAll parent statement requests siblings after)
    (perm : siblings.Perm others) :
    SettlesAll parent statement requests others after := by
  cases requests with
  | nil => exact List.Perm.trans settles perm
  | cons request requests =>
      obtain ⟨between, first, rest⟩ := settles
      exact ⟨between, first.of_perm perm, rest⟩

/-- What is left beside a vertex after another one was put in front. -/
theorem perm_rest
    {vertex added : Vertex}
    {rest : List Vertex}
    (place : between.Perm (vertex :: others))
    (grown : between.Perm (added :: siblings))
    (split : siblings.Perm (vertex :: rest)) :
    others.Perm (added :: rest) := by
  refine List.Perm.cons_inv (a := vertex) ?_
  calc vertex :: others
    _ ~ between := place.symm
    _ ~ added :: siblings := grown
    _ ~ added :: vertex :: rest := split.cons _
    _ ~ vertex :: added :: rest := .swap _ _ _

section Swap

variable (firstDeclares : first.Declares targetOf) (secondDeclares : second.Declares targetOf)

include firstDeclares secondDeclares

/-- The first of two declared joins adds a vertex: the second one adds another, shares this one,
or shares an older one that does not admit the first. -/
theorem Settles.swap_add
    (firstFree : ∀ vertex ∈ siblings, ¬ vertex.Admits first)
    (firstPerm : between.Perm (made parent statement first :: siblings))
    (secondSettles : Settles parent statement second between after) :
    ∃ other, Settles parent statement second siblings other ∧
      Settles parent statement first other after := by
  cases secondSettles with
  | add secondFree secondPerm =>
      have older : ∀ {vertex}, vertex ∈ siblings -> vertex ∈ between := fun member =>
        firstPerm.mem_iff.mpr (List.mem_cons_of_mem _ member)
      refine ⟨made parent statement second :: siblings,
        .add (fun vertex member => secondFree vertex (older member)) (.refl _), .add ?_ ?_⟩
      · intro vertex member
        rcases List.mem_cons.mp member with rfl | member
        · intro admits
          exact secondFree _ (firstPerm.mem_iff.mpr List.mem_cons_self)
            ((admits_made_comm firstDeclares secondDeclares).mpr admits)
        · exact firstFree vertex member
      · calc after
          _ ~ made parent statement second :: between := secondPerm
          _ ~ made parent statement second :: made parent statement first :: siblings :=
              firstPerm.cons _
          _ ~ made parent statement first :: made parent statement second :: siblings :=
              .swap _ _ _
  | share vertex others place admits granted secondPerm =>
      have listed : vertex ∈ made parent statement first :: siblings :=
        firstPerm.mem_iff.mp (place.mem_iff.mpr List.mem_cons_self)
      rcases List.mem_cons.mp listed with rfl | member
      · have rest : others.Perm siblings := (place.symm.trans firstPerm).cons_inv
        obtain ⟨grantedBack, same⟩ :=
          absorb_made_comm firstDeclares secondDeclares admits granted
        refine ⟨made parent statement second :: siblings, .add ?_ (.refl _),
          .share _ siblings (.refl _)
            ((admits_made_comm firstDeclares secondDeclares).mp admits) grantedBack ?_⟩
        · exact fun older member admitsOlder => firstFree older member
            (.of_admits_made firstDeclares secondDeclares admits admitsOlder)
        · rw [← same]
          exact secondPerm.trans (rest.cons _)
      · obtain ⟨rest, split⟩ : ∃ rest, siblings.Perm (vertex :: rest) :=
          ⟨_, List.perm_cons_erase member⟩
        refine ⟨vertex.absorb second :: rest, .share vertex rest split admits granted (.refl _),
          .add ?_ ?_⟩
        · intro older listedAfter
          rcases List.mem_cons.mp listedAfter with rfl | inRest
          · rw [admits_absorb firstDeclares.1]
            exact firstFree vertex member
          · exact firstFree older (split.mem_iff.mpr (List.mem_cons_of_mem _ inRest))
        · calc after
            _ ~ vertex.absorb second :: others := secondPerm
            _ ~ vertex.absorb second :: made parent statement first :: rest :=
                (perm_rest place firstPerm split).cons _
            _ ~ made parent statement first :: vertex.absorb second :: rest := .swap _ _ _

/-- The first of two declared joins shares a vertex: the second one adds another, shares the same
one, or shares one beside it. -/
theorem Settles.swap_share
    {vertex : Vertex}
    (place : siblings.Perm (vertex :: others))
    (admits : vertex.Admits first)
    (granted : vertex.mergeFault? first = none)
    (firstPerm : between.Perm (vertex.absorb first :: others))
    (secondSettles : Settles parent statement second between after) :
    ∃ other, Settles parent statement second siblings other ∧
      Settles parent statement first other after := by
  cases secondSettles with
  | add secondFree secondPerm =>
      refine ⟨made parent statement second :: siblings, .add ?_ (.refl _),
        .share vertex (made parent statement second :: others) ?_ admits granted ?_⟩
      · intro older member
        rcases List.mem_cons.mp (place.mem_iff.mp member) with rfl | inOthers
        · have absorbed := secondFree _ (firstPerm.mem_iff.mpr List.mem_cons_self)
          rwa [admits_absorb secondDeclares.1] at absorbed
        · exact secondFree older (firstPerm.mem_iff.mpr (List.mem_cons_of_mem _ inOthers))
      · exact (place.cons _).trans (.swap _ _ _)
      · calc after
          _ ~ made parent statement second :: between := secondPerm
          _ ~ made parent statement second :: vertex.absorb first :: others := firstPerm.cons _
          _ ~ vertex.absorb first :: made parent statement second :: others := .swap _ _ _
  | share other rest otherPlace otherAdmits otherGranted secondPerm =>
      have listed : other ∈ vertex.absorb first :: others :=
        firstPerm.mem_iff.mp (otherPlace.mem_iff.mpr List.mem_cons_self)
      rcases List.mem_cons.mp listed with rfl | member
      · have restPerm : rest.Perm others := (otherPlace.symm.trans firstPerm).cons_inv
        obtain ⟨grantedFirst, grantedAfter, same⟩ := absorb_right_comm granted otherGranted
        refine ⟨vertex.absorb second :: others,
          .share vertex others place ((admits_absorb secondDeclares.1).mp otherAdmits)
            grantedFirst (.refl _),
          .share (vertex.absorb second) others (.refl _)
            ((admits_absorb firstDeclares.1).mpr admits) grantedAfter ?_⟩
        rw [← same]
        exact secondPerm.trans (restPerm.cons _)
      · obtain ⟨beside, split⟩ : ∃ beside, others.Perm (other :: beside) :=
          ⟨_, List.perm_cons_erase member⟩
        refine ⟨other.absorb second :: vertex :: beside,
          .share other (vertex :: beside) ?_ otherAdmits otherGranted (.refl _),
          .share vertex (other.absorb second :: beside) (.swap _ _ _) admits granted ?_⟩
        · calc siblings
            _ ~ vertex :: others := place
            _ ~ vertex :: other :: beside := split.cons _
            _ ~ other :: vertex :: beside := .swap _ _ _
        · calc after
            _ ~ other.absorb second :: rest := secondPerm
            _ ~ other.absorb second :: vertex.absorb first :: beside :=
                (perm_rest otherPlace firstPerm split).cons _
            _ ~ vertex.absorb first :: other.absorb second :: beside := .swap _ _ _

/-- Two declared joins that were granted one after the other are granted in the other order
as well, and then leave the same vertices. -/
theorem Settles.swap
    (firstSettles : Settles parent statement first siblings between)
    (secondSettles : Settles parent statement second between after) :
    ∃ other, Settles parent statement second siblings other ∧
      Settles parent statement first other after := by
  cases firstSettles with
  | add free perm => exact swap_add firstDeclares secondDeclares free perm secondSettles
  | share vertex others place admits granted perm =>
      exact swap_share firstDeclares secondDeclares place admits granted perm secondSettles

end Swap

/-- Declared joins that were granted are granted in every order, and leave the same vertices. -/
theorem SettlesAll.perm
    {requests permuted : List JoinRequest}
    (perm : requests.Perm permuted)
    (declares : ∀ request ∈ requests, request.Declares targetOf)
    (settles : SettlesAll parent statement requests siblings after) :
    SettlesAll parent statement permuted siblings after := by
  induction perm generalizing siblings with
  | nil => exact settles
  | cons request _ inductionHypothesis =>
      obtain ⟨between, first, rest⟩ := settles
      refine ⟨between, first, inductionHypothesis (fun other member => ?_) rest⟩
      exact declares other (List.mem_cons_of_mem request member)
  | swap second first requests =>
      obtain ⟨one, secondSettles, two, firstSettles, rest⟩ := settles
      obtain ⟨other, firstBefore, secondAfter⟩ := Settles.swap
        (declares first (by simp)) (declares second (by simp)) secondSettles firstSettles
      exact ⟨other, firstBefore, two, secondAfter, rest⟩
  | trans firstPerm _ firstHypothesis secondHypothesis =>
      exact secondHypothesis
        (fun request member => declares request (firstPerm.mem_iff.mpr member))
        (firstHypothesis declares settles)

/-! ## At most one vertex for each relation -/

/-- Two vertices of which at most one can be shared by joins over a relation. -/
def Apart (first second : Vertex) : Prop :=
  first.mode.isNew = false -> second.mode.isNew = false -> first.field ≠ second.field

theorem Apart.symm
    {first second : Vertex}
    (apart : first.Apart second) :
    second.Apart first :=
  fun secondShares firstShares same => apart firstShares secondShares same.symm

theorem pairwise_apart_of_perm
    (apart : siblings.Pairwise Apart)
    (perm : siblings.Perm others) :
    others.Pairwise Apart :=
  (perm.pairwise_iff Apart.symm).mp apart

/-- Where at most one vertex can be shared over each relation, at most one of them admits a
request. -/
theorem eq_of_admits
    {vertex other : Vertex}
    (apart : siblings.Pairwise Apart)
    (explicit : request.origin = .explicit)
    (place : siblings.Perm (vertex :: others))
    (admits : vertex.Admits request)
    (member : other ∈ siblings)
    (otherAdmits : other.Admits request) :
    other = vertex := by
  rw [admits_iff explicit] at admits otherAdmits
  rcases List.mem_cons.mp (place.mem_iff.mp member) with same | inOthers
  · exact same
  · have differs := List.rel_of_pairwise_cons (pairwise_apart_of_perm apart place) inOthers
    exact absurd (admits.2.1.trans otherAdmits.2.1.symm) (differs admits.2.2 otherAdmits.2.2)

theorem Settles.apart
    (explicit : request.origin = .explicit)
    (apart : siblings.Pairwise Apart)
    (settles : Settles parent statement request siblings after) :
    after.Pairwise Apart := by
  cases settles with
  | add free perm =>
      refine pairwise_apart_of_perm (List.pairwise_cons.mpr ⟨?_, apart⟩) perm.symm
      intro vertex member madeShares vertexShares same
      exact free vertex member ((admits_iff explicit).mpr ⟨madeShares, same.symm, vertexShares⟩)
  | share vertex others place admits granted perm =>
      have split := List.pairwise_cons.mp (pairwise_apart_of_perm apart place)
      refine pairwise_apart_of_perm (List.pairwise_cons.mpr ⟨?_, split.2⟩) perm.symm
      intro other member shares otherShares
      rw [isNew_absorb] at shares
      exact split.1 other member shares otherShares

/-- A request leaves the same vertices however it is granted. -/
theorem Settles.unique
    (explicit : request.origin = .explicit)
    (apart : siblings.Pairwise Apart)
    (settles : Settles parent statement request siblings after)
    (again : Settles parent statement request siblings later) :
    after.Perm later := by
  cases settles with
  | add free perm =>
      cases again with
      | add _ permAgain => exact perm.trans permAgain.symm
      | share vertex others place admits _ _ =>
          exact absurd admits (free vertex (place.mem_iff.mpr List.mem_cons_self))
  | share vertex others place admits _ perm =>
      have member := place.mem_iff.mpr List.mem_cons_self
      cases again with
      | add free _ => exact absurd admits (free vertex member)
      | share other rest otherPlace otherAdmits _ permAgain =>
          obtain rfl := eq_of_admits apart explicit otherPlace otherAdmits member admits
          have same : others.Perm rest := (place.symm.trans otherPlace).cons_inv
          exact perm.trans ((same.cons _).trans permAgain.symm)

theorem SettlesAll.unique
    {requests : List JoinRequest}
    (explicit : ∀ request ∈ requests, request.origin = .explicit)
    (apart : siblings.Pairwise Apart)
    (settles : SettlesAll parent statement requests siblings after)
    (again : SettlesAll parent statement requests siblings later) :
    after.Perm later := by
  induction requests generalizing siblings with
  | nil => exact List.Perm.trans settles (List.Perm.symm again)
  | cons request requests inductionHypothesis =>
      obtain ⟨between, first, rest⟩ := settles
      obtain ⟨other, firstAgain, restAgain⟩ := again
      have isExplicit := explicit request List.mem_cons_self
      have same := Settles.unique isExplicit apart first firstAgain
      exact inductionHypothesis (fun next member => explicit next (List.mem_cons_of_mem _ member))
        (first.apart isExplicit apart) rest (restAgain.of_perm same.symm)

end Vertex
end QueryGraph
