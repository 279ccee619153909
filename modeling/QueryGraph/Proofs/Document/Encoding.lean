import QueryGraph.Document.Decode
import QueryGraph.Proofs.Document.Forms

/-!
# Reading what was written

A document that is written as a value is read back as the same document. A record is written with
all of its members, and so none takes its default. An expression is told from the others by the
name of its first member, because no two forms have a name in common, and so every form but its own
is passed over. The one thing that is not read back is an integer that a constant cannot hold.
-/

namespace QueryGraph

/-- Whether a constant is one of the language: its integers have 64 bits. -/
def Literal.fits : Literal -> Bool
  | .integer value =>
      decide (Document.integerBounds.1 ≤ value) && decide (value ≤ Document.integerBounds.2)
  | .null | .bool _ | .float _ | .string _ => true

namespace Document

open Value

variable {fuel : Nat} {names written : List String} {values : List Value}

/-! ## Words and constants -/

@[simp] theorem direction?_name
    (emptyRecords : Bool)
    (direction : JoinDirection) :
    direction? emptyRecords (.text direction.name) = some direction := by
  cases direction <;> rfl

@[simp] theorem mode?_name
    (emptyRecords : Bool)
    (mode : JoinMode) :
    mode? emptyRecords (.text mode.name) = some mode := by
  cases mode <;> rfl

@[simp] theorem collection?_name
    (emptyRecords : Bool)
    (collection : CollectionFetch) :
    collection? emptyRecords (.text collection.name) = some collection := by
  cases collection <;> rfl

@[simp] theorem kind?_name (kind : StatementKind) : kind? (.text kind.name) = some kind := by
  cases kind <;> rfl

theorem literal?_literalValue
    (value : Literal)
    (fits : value.fits) :
    literal? (literalValue value) = some value := by
  cases value with
  | null | bool | float | string => rfl
  | integer value => simp_all [literalValue, literal?, Literal.fits]

@[simp] theorem optional?_optionalText (text : Option String) :
    optional? text? (optionalText text) = some text := by
  cases text <;> rfl

/-! ## Records -/

/-- The members of a record that is written after the `done` ones stand at the positions after
those. -/
theorem membersOf?_zip
    (done rest : List String)
    (distinct : (done ++ rest).Nodup)
    (complete : values.length = rest.length) :
    ∃ found, membersOf? (done ++ rest) ((rest.map Key.name).zip values) = some found ∧
      ∀ index, found.lookup index =
        if index < done.length then none else values[index - done.length]? := by
  induction rest generalizing done values with
  | nil =>
      obtain rfl : values = [] := List.eq_nil_of_length_eq_zero complete
      exact ⟨[], rfl, by simp⟩
  | cons name rest inductionHypothesis =>
      obtain ⟨value, values, rfl⟩ := List.exists_cons_of_length_eq_add_one complete
      obtain ⟨found, read, lookup⟩ :=
        inductionHypothesis (done ++ [name]) (by simpa using distinct) (Nat.succ.inj complete)
      have position : (done ++ name :: rest).idxOf? name = some done.length := by
        refine List.idxOf?_eq_some_iff.mpr ⟨by simp, by simp, fun index before same => ?_⟩
        rw [List.getElem_append_left before] at same
        exact (List.nodup_append.mp distinct).2.2 _ (List.getElem_mem before) name (by simp) same
      have unread : found.lookup done.length = none := by simp [lookup]
      refine ⟨(done.length, value) :: found, ?_, fun index => ?_⟩
      · simp only [List.append_assoc, List.cons_append, List.nil_append] at read
        simp [membersOf?, Key.resolve?, position, read, unread]
      · rw [List.lookup_cons]
        by_cases here : index = done.length
        · simp [here]
        · have elsewhere : (index == done.length) = false := beq_eq_false_iff_ne.mpr here
          simp only [elsewhere, lookup, List.length_append, List.length_singleton]
          by_cases before : index < done.length
          · simp [before, Nat.lt_succ_of_lt before]
          · have unmoved : ¬index < done.length + 1 := by omega
            have shifted : index - done.length = index - (done.length + 1) + 1 := by omega
            simp only [before, unmoved, if_false, shifted, List.getElem?_cons_succ]

/-- A record that is written in full is read in full. -/
theorem recordMembers?_recordOf
    (distinct : names.Nodup)
    (complete : values.length = names.length) :
    (recordOf names values).recordMembers? names = some fun index => values[index]? := by
  obtain ⟨found, read, lookup⟩ := membersOf?_zip [] names distinct complete
  simp only [List.nil_append, List.length_nil, Nat.not_lt_zero, if_false, Nat.sub_zero]
    at read lookup
  simp [recordOf, recordMembers?, read, lookup]

/-- No member is found where none of the names is a declared one. -/
theorem recordMembers?_foreign (foreign : ∀ name ∈ written, name ∉ names) :
    (recordOf written values).recordMembers? names = some fun _ => none := by
  have unread : membersOf? names ((written.map Key.name).zip values) = some [] := by
    induction written generalizing values with
    | nil => rfl
    | cons name written inductionHypothesis =>
        cases values with
        | nil => rfl
        | cons value values =>
            have unknown := foreign name (by simp)
            have rest : membersOf? names ((written.map Key.name).zip values) = some [] :=
              inductionHypothesis fun name member => foreign name (by simp [member])
            simp [membersOf?, Key.resolve?, List.idxOf?_eq_none_iff.mpr unknown, rest]
  simp [recordOf, recordMembers?, unread]

theorem declaredMembers?_recordOf
    (distinct : names.Nodup)
    (complete : values.length = names.length) :
    (recordOf names values).declaredMembers? names = some fun index => values[index]? :=
  recordMembers?_recordOf distinct complete

@[simp] theorem text?_text (text : String) : (Value.text text).text? = some text := rfl

@[simp] theorem text?_recordOf : (recordOf names values).text? = none := rfl

/-- A form is read by all members of a record that is written in it. -/
theorem form?_recordOf
    (read : (Nat -> Option Value) -> Option Expression)
    (distinct : names.Nodup)
    (complete : values.length = names.length) :
    form? (recordOf names values) names read = read fun index => values[index]? := by
  simp [form?, recordMembers?_recordOf distinct complete]

/-- A form finds nothing in a record that is written in another one. -/
theorem form?_foreign
    (read : (Nat -> Option Value) -> Option Expression)
    (foreign : ∀ name ∈ written, name ∉ names) :
    form? (recordOf written values) names read = read fun _ => none := by
  simp [form?, recordMembers?_foreign foreign]

@[simp] theorem required?_none
    (index : Nat)
    (read : Value -> Option α) :
    required? (fun _ => none) index read = none :=
  rfl

@[simp] theorem listOf?_list
    (read : Value -> Option α)
    (items : List Value) :
    listOf? read (.list items) = items.mapM read :=
  rfl

/-! ## Nesting -/

theorem depth_pos (value : Value) : 0 < value.depth := by
  cases value <;> simp [depth]

theorem itemsDepth_le (items : List Value) :
    depth.itemsDepth items ≤ fuel ↔ ∀ item ∈ items, item.depth ≤ fuel := by
  induction items with
  | nil => simp [depth.itemsDepth]
  | cons item items inductionHypothesis =>
      simp only [depth.itemsDepth, Nat.max_le, inductionHypothesis, List.forall_mem_cons]

/-- The items of a list are nested less deep than the list. -/
theorem depth_le_of_list
    {items : List Value}
    (enough : (Value.list items).depth ≤ fuel) :
    ∀ item ∈ items, item.depth ≤ fuel :=
  (itemsDepth_le items).mp (Nat.le_of_succ_le enough)

theorem membersDepth_zip_le
    (complete : values.length = names.length) :
    depth.membersDepth ((names.map Key.name).zip values) ≤ fuel ↔
      ∀ value ∈ values, value.depth ≤ fuel := by
  induction names generalizing values with
  | nil =>
      obtain rfl : values = [] := List.eq_nil_of_length_eq_zero complete
      simp [depth.membersDepth]
  | cons name names inductionHypothesis =>
      obtain ⟨value, values, rfl⟩ := List.exists_cons_of_length_eq_add_one complete
      simp only [List.map_cons, List.zip_cons_cons, depth.membersDepth, Nat.max_le,
        inductionHypothesis (Nat.succ.inj complete), List.forall_mem_cons]

theorem depth_recordOf_le
    (complete : values.length = names.length) :
    (recordOf names values).depth ≤ fuel + 1 ↔ ∀ value ∈ values, value.depth ≤ fuel := by
  simp [recordOf, depth, membersDepth_zip_le complete]

/-- The members of a record are nested less deep than the record. -/
theorem depth_le_of_recordOf
    (complete : values.length = names.length)
    (enough : (recordOf names values).depth ≤ fuel) :
    ∀ value ∈ values, value.depth ≤ fuel :=
  (membersDepth_zip_le complete).mp (Nat.le_of_succ_le enough)

/-- What has to be read takes at least one step. -/
theorem exists_fuel
    {value : Value}
    (enough : value.depth ≤ fuel) :
    ∃ rest, fuel = rest + 1 :=
  Nat.exists_eq_add_one.mpr (Nat.lt_of_lt_of_le (depth_pos value) enough)

/-! ## Fetches -/

theorem encodeFetches_eq_map (fetches : List Fetch) :
    encodeFetch.encodeFetches fetches = fetches.map encodeFetch := by
  induction fetches with
  | nil => rfl
  | cons fetch fetches inductionHypothesis =>
      simp [encodeFetch.encodeFetches, inductionHypothesis]

mutual

/-- A fetch is read as it was written. -/
theorem fetch?_encodeFetch
    (emptyRecords : Bool)
    (fetch : Fetch)
    (fuel : Nat)
    (enough : (encodeFetch fetch).depth ≤ fuel) :
    fetch? emptyRecords fuel (encodeFetch fetch) = some fetch := by
  match fetch with
  | ⟨field, direction, collection, fetches⟩ =>
      obtain ⟨fuel, rfl⟩ := exists_fuel enough
      have members := (depth_recordOf_le rfl).mp enough
      have nested := fetches?_encodeFetches emptyRecords fetches fuel
        (depth_le_of_list (members _ (by simp)))
      rw [fetch?, encodeFetch, declaredMembers?_recordOf (by decide) rfl]
      simp [required?, withDefault?, nested]

theorem fetches?_encodeFetches
    (emptyRecords : Bool)
    (fetches : List Fetch)
    (fuel : Nat)
    (enough : ∀ value ∈ encodeFetch.encodeFetches fetches, value.depth ≤ fuel) :
    (encodeFetch.encodeFetches fetches).mapM (fetch? emptyRecords fuel) = some fetches := by
  match fetches with
  | [] => rfl
  | fetch :: fetches =>
      obtain ⟨first, others⟩ := List.forall_mem_cons.mp enough
      simp [encodeFetch.encodeFetches, fetch?_encodeFetch emptyRecords fetch fuel first,
        fetches?_encodeFetches emptyRecords fetches fuel others]

end

/-- The fetches of a source are read as they were written. -/
theorem fetches?_map
    (emptyRecords : Bool)
    (fetches : List Fetch)
    (enough : (Value.list (fetches.map encodeFetch)).depth ≤ fuel) :
    (fetches.map encodeFetch).mapM (fetch? emptyRecords fuel) = some fetches := by
  rw [← encodeFetches_eq_map] at enough ⊢
  exact fetches?_encodeFetches emptyRecords fetches fuel (depth_le_of_list enough)

/-! ## Constants that fit -/

/-- Every constant among some leaves is one of the language. -/
def Leaf.Fit (leaves : List Leaf) : Prop :=
  ∀ value, .literal value ∈ leaves → value.fits

@[simp] theorem Leaf.fit_append (before after : List Leaf) :
    Fit (before ++ after) ↔ Fit before ∧ Fit after := by
  simp [Fit, or_imp, forall_and]

@[simp] theorem Leaf.fit_path_cons (leaves : List Leaf) :
    Fit (.path :: leaves) ↔ Fit leaves := by
  simp [Fit]

/-- The constants of a statement are those among its leaves. -/
theorem Leaf.fit_ofStatement
    (statement : Statement)
    (fits : ∀ value ∈ statement.literals, value.fits) :
    Fit (ofStatement statement) := by
  intro value found
  rw [← Form.leaves_ofStatement] at found
  obtain ⟨form, member, isLiteral⟩ := List.mem_map.mp found
  refine fits value (List.mem_filterMap.mpr ⟨form, member, ?_⟩)
  cases form with
  | path | named | anonymous => contradiction
  | literal other => simpa [Form.leaf, Form.literal?] using isLiteral

/-! ## Expressions and statements -/

/-- An expression is never written as nothing. -/
theorem encodeExpression_ne_null (item : Expression) : encodeExpression item ≠ .null := by
  cases item <;> simp [encodeExpression, recordOf]

theorem optional?_of_ne_null
    (read : Value -> Option α)
    {value : Value}
    (present : value ≠ .null) :
    optional? read value = (read value).map some := by
  cases value with
  | null => contradiction
  | bool | integer | float | text | list | record => rfl

theorem encodeMembers_length (statement : Statement) :
    (encodeMembers statement).length = statementNames.length := by
  cases statement
  rw [encodeMembers]
  rfl

mutual

/-- An expression is read in the form in which it was written. -/
theorem expression?_encodeExpression
    (item : Expression)
    (fuel : Nat)
    (enough : (encodeExpression item).depth ≤ fuel)
    (fits : Leaf.Fit (Leaf.ofExpression item)) :
    expression? fuel (encodeExpression item) = some item := by
  obtain ⟨fuel, rfl⟩ := exists_fuel enough
  -- The record is read in full by its own form, and every form tried before finds nothing in it.
  match item with
  | .path _ => simp [expression?, encodeExpression]
  | .parameter name =>
      rw [encodeExpression, expression?, form?_recordOf _ (by decide) rfl]
      simp [required?]
  | .anonymous label =>
      rw [encodeExpression, expression?, form?_recordOf _ (by decide) rfl]
      simp (disch := decide) only [form?_foreign]
      simp [required?]
  | .literal value =>
      have same := literal?_literalValue value (fits value (by simp [Leaf.ofExpression]))
      rw [encodeExpression, expression?, form?_recordOf _ (by decide) rfl]
      simp (disch := decide) only [form?_foreign]
      simp [required?, same]
  | .treat target asType =>
      rw [encodeExpression] at enough ⊢
      have members := (depth_recordOf_le rfl).mp enough
      have inner := expression?_encodeExpression target fuel (members _ (by simp))
        (by simpa [Leaf.ofExpression] using fits)
      rw [expression?, form?_recordOf _ (by decide) rfl]
      simp (disch := decide) only [form?_foreign]
      simp [required?, inner]
  | .subquery body =>
      rw [encodeExpression, encodeStatement] at enough ⊢
      have members := (depth_recordOf_le rfl).mp enough
      have inner := depth_le_of_recordOf (encodeMembers_length body)
        (members _ (List.mem_singleton_self _))
      have same := statementMembers?_encodeMembers false body fuel inner
        (by simpa [Leaf.ofExpression] using fits)
      rw [expression?, form?_recordOf _ (by decide) rfl]
      simp (disch := decide) only [form?_foreign]
      simp [required?, statement?,
        declaredMembers?_recordOf (by decide) (encodeMembers_length body), same]
  | .tuple items =>
      rw [encodeExpression] at enough ⊢
      have members := (depth_recordOf_le rfl).mp enough
      have inner := expressions?_encodeExpressions items fuel
        (depth_le_of_list (members _ (by simp))) (by simpa [Leaf.ofExpression] using fits)
      rw [expression?, form?_recordOf _ (by decide) rfl]
      simp (disch := decide) only [form?_foreign]
      simp [required?, inner]
  | .apply operator operands =>
      rw [encodeExpression] at enough ⊢
      have members := (depth_recordOf_le rfl).mp enough
      have inner := expressions?_encodeExpressions operands fuel
        (depth_le_of_list (members _ (by simp))) (by simpa [Leaf.ofExpression] using fits)
      rw [expression?, form?_recordOf _ (by decide) rfl]
      simp (disch := decide) only [form?_foreign]
      simp [required?, withDefault?, inner]

theorem expressions?_encodeExpressions
    (items : List Expression)
    (fuel : Nat)
    (enough : ∀ value ∈ encodeExpressions items, value.depth ≤ fuel)
    (fits : Leaf.Fit (Leaf.ofExpressions items)) :
    (encodeExpressions items).mapM (expression? fuel) = some items := by
  match items with
  | [] => simp [encodeExpressions]
  | item :: items =>
      rw [encodeExpressions] at enough ⊢
      obtain ⟨first, others⟩ := List.forall_mem_cons.mp enough
      obtain ⟨fitsFirst, fitsOthers⟩ := (Leaf.fit_append _ _).mp fits
      simp [expression?_encodeExpression item fuel first fitsFirst,
        expressions?_encodeExpressions items fuel others fitsOthers]

theorem optional?_encodeOptional
    (item : Option Expression)
    (fuel : Nat)
    (enough : (encodeOptional item).depth ≤ fuel)
    (fits : Leaf.Fit (Leaf.ofOption item)) :
    optional? (expression? fuel) (encodeOptional item) = some item := by
  match item with
  | none => simp [encodeOptional, optional?]
  | some item =>
      rw [encodeOptional] at enough ⊢
      rw [optional?_of_ne_null _ (encodeExpression_ne_null item),
        expression?_encodeExpression item fuel enough (by simpa [Leaf.ofOption] using fits)]
      rfl

theorem joins?_encodeJoins
    (emptyRecords : Bool)
    (joins : List (JoinOf Expression))
    (outer fuel : Nat)
    (within : fuel ≤ outer)
    (enough : ∀ value ∈ encodeJoins joins, value.depth ≤ fuel)
    (fits : Leaf.Fit (Leaf.ofJoins joins)) :
    (encodeJoins joins).mapM (join? emptyRecords (expression? outer) fuel) = some joins := by
  match joins with
  | [] => simp [encodeJoins]
  | ⟨field, aliasHint, name, direction, mode, on, nested, fetches⟩ :: rest =>
      rw [encodeJoins] at enough ⊢
      obtain ⟨first, others⟩ := List.forall_mem_cons.mp enough
      simp only [Leaf.ofJoins, Leaf.fit_append] at fits
      obtain ⟨⟨fitsOn, fitsNested⟩, fitsRest⟩ := fits
      have later := joins?_encodeJoins emptyRecords rest outer fuel within others fitsRest
      obtain ⟨fuel, rfl⟩ := exists_fuel first
      have members := (depth_recordOf_le rfl).mp first
      -- A condition is read as if it stood outside of all joins.
      have condition := optional?_encodeOptional on outer
        (Nat.le_trans (members _ (by simp)) (Nat.le_of_succ_le within)) fitsOn
      have below := joins?_encodeJoins emptyRecords nested outer fuel (Nat.le_of_succ_le within)
        (depth_le_of_list (members _ (by simp))) fitsNested
      have fetched := fetches?_map emptyRecords fetches (members _ (by simp))
      rw [List.mapM_cons, join?, declaredMembers?_recordOf (by decide) rfl]
      simp [required?, withDefault?, condition, below, fetched, later]

theorem roots?_encodeRoots
    (emptyRecords : Bool)
    (roots : List (RootOf Expression))
    (fuel : Nat)
    (enough : ∀ value ∈ encodeRoots roots, value.depth ≤ fuel)
    (fits : Leaf.Fit (Leaf.ofRoots roots)) :
    (encodeRoots roots).mapM (root? emptyRecords (expression? fuel) fuel) = some roots := by
  match roots with
  | [] => simp [encodeRoots]
  | ⟨recordType, aliasHint, name, nested, fetches⟩ :: rest =>
      rw [encodeRoots] at enough ⊢
      obtain ⟨first, others⟩ := List.forall_mem_cons.mp enough
      simp only [Leaf.ofRoots, Leaf.fit_append] at fits
      obtain ⟨fitsNested, fitsRest⟩ := fits
      have later := roots?_encodeRoots emptyRecords rest fuel others fitsRest
      have members := depth_le_of_recordOf rfl first
      have below := joins?_encodeJoins emptyRecords nested fuel fuel (Nat.le_refl fuel)
        (depth_le_of_list (members _ (by simp))) fitsNested
      have fetched := fetches?_map emptyRecords fetches (members _ (by simp))
      rw [List.mapM_cons, root?, declaredMembers?_recordOf (by decide) rfl]
      simp [required?, withDefault?, below, fetched, later]

theorem orders?_encodeOrders
    (terms : List (OrderOf Expression))
    (fuel : Nat)
    (enough : ∀ value ∈ encodeOrders terms, value.depth ≤ fuel)
    (fits : Leaf.Fit (Leaf.ofOrders terms)) :
    (encodeOrders terms).mapM (order? (expression? fuel)) = some terms := by
  match terms with
  | [] => simp [encodeOrders]
  | ⟨item, ascending⟩ :: rest =>
      rw [encodeOrders] at enough ⊢
      obtain ⟨first, others⟩ := List.forall_mem_cons.mp enough
      simp only [Leaf.ofOrders, Leaf.fit_append] at fits
      have later := orders?_encodeOrders rest fuel others fits.2
      have members := depth_le_of_recordOf rfl first
      have inner := expression?_encodeExpression item fuel (members _ (by simp)) fits.1
      rw [List.mapM_cons, order?, declaredMembers?_recordOf (by decide) rfl]
      simp [required?, withDefault?, bool?, inner, later]

theorem assignments?_encodeAssignments
    (changes : List (AssignmentOf Expression))
    (fuel : Nat)
    (enough : ∀ value ∈ encodeAssignments changes, value.depth ≤ fuel)
    (fits : Leaf.Fit (Leaf.ofAssignments changes)) :
    (encodeAssignments changes).mapM (assignment? (expression? fuel)) = some changes := by
  match changes with
  | [] => simp [encodeAssignments]
  | ⟨target, value⟩ :: rest =>
      rw [encodeAssignments] at enough ⊢
      obtain ⟨first, others⟩ := List.forall_mem_cons.mp enough
      simp only [Leaf.ofAssignments, List.cons_append, Leaf.fit_path_cons, Leaf.fit_append] at fits
      have later := assignments?_encodeAssignments rest fuel others fits.2
      have members := depth_le_of_recordOf rfl first
      have inner := expression?_encodeExpression value fuel (members _ (by simp)) fits.1
      rw [List.mapM_cons, assignment?, declaredMembers?_recordOf (by decide) rfl]
      simp [required?, inner, later]

/-- The members of a statement are read as they were written. -/
theorem statementMembers?_encodeMembers
    (emptyRecords : Bool)
    (statement : StatementOf Expression)
    (fuel : Nat)
    (enough : ∀ value ∈ encodeMembers statement, value.depth ≤ fuel)
    (fits : Leaf.Fit (Leaf.ofStatement statement)) :
    statementMembers? emptyRecords (expression? fuel) fuel
      (fun index => (encodeMembers statement)[index]?) = some statement := by
  match statement with
  | ⟨distinct, sources, selection, restriction, groups, having, terms, changes⟩ =>
      simp only [Leaf.ofStatement, Leaf.fit_append] at fits
      obtain ⟨⟨⟨⟨⟨⟨fitSelection, fitRoots⟩, fitChanges⟩, fitRestriction⟩, fitGroups⟩,
        fitHaving⟩, fitTerms⟩ := fits
      simp only [encodeMembers, List.forall_mem_cons] at enough
      obtain ⟨-, sourcesDepth, selectionDepth, restrictionDepth, groupsDepth, havingDepth,
        termsDepth, changesDepth, -⟩ := enough
      have roots := roots?_encodeRoots emptyRecords sources fuel
        (depth_le_of_list sourcesDepth) fitRoots
      have selected := expressions?_encodeExpressions selection fuel
        (depth_le_of_list selectionDepth) fitSelection
      have restricted := optional?_encodeOptional restriction fuel restrictionDepth fitRestriction
      have grouped := expressions?_encodeExpressions groups fuel
        (depth_le_of_list groupsDepth) fitGroups
      have held := optional?_encodeOptional having fuel havingDepth fitHaving
      have ordered := orders?_encodeOrders terms fuel (depth_le_of_list termsDepth) fitTerms
      have changed := assignments?_encodeAssignments changes fuel
        (depth_le_of_list changesDepth) fitChanges
      simp [statementMembers?, encodeMembers, withDefault?, bool?, roots, selected, restricted,
        grouped, held, ordered, changed]

end

end Document

/-- Reading a document that was written as a value gives the same document. -/
theorem QueryDocument.decode?_encode
    (document : QueryDocument)
    (fits : ∀ value ∈ document.statement.literals, value.fits) :
    decode? document.encode = some document := by
  have complete :
      (.text document.kind.name :: Document.encodeMembers document.statement).length =
        Document.documentNames.length := by
    rw [List.length_cons, Document.encodeMembers_length]
    rfl
  have below : ∀ value ∈ Document.encodeMembers document.statement,
      value.depth ≤ document.encode.depth + 1 := fun value member =>
    Document.depth_le_of_recordOf complete (Nat.le_succ _) value (List.mem_cons_of_mem _ member)
  have same := Document.statementMembers?_encodeMembers true document.statement _ below
    (Document.Leaf.fit_ofStatement _ fits)
  rw [decode?, encode, Document.recordMembers?_recordOf (by decide) complete, ← encode]
  simp [Value.withDefault?, same]

/-- A document with every kind of record and every form of an expression. -/
def QueryDocument.everyForm : QueryDocument where
  kind := .update
  statement :=
    { distinct := true
      sources :=
        [ { recordType := "Ship"
            aliasHint := some "s"
            joins :=
              [ { field := "crew"
                  name := some "c"
                  direction := .left
                  mode := .requiredToCreateNew
                  on := some (.apply ">" [.path "c.age", .literal (.integer 18)])
                  joins := [{ field := "cabin" }] } ]
            fetches :=
              [ { field := "port"
                  collection := .partially
                  fetches := [{ field := "owner" }] } ] } ]
      selection := [.treat (.path "c") "Captain", .tuple [.literal .null, .literal (.bool true)]]
      restriction := some (.apply "in" [.path "s.id", .subquery
        { sources := [{ recordType := "Ship", name := some "t" }], selection := [.path "t.id"] }])
      groupBy := [.path "s.port"]
      having := some (.parameter "large")
      orderBy := [{ expression := .path "s.name", ascending := false }]
      assignments := [{ target := "s.name", value := .anonymous "renamed" }] }

theorem QueryDocument.decode?_everyForm :
    everyForm.statement.literals.all Literal.fits = true ∧
      decode? everyForm.encode = some everyForm :=
  have fits : everyForm.statement.literals.all Literal.fits = true := by decide
  ⟨fits, decode?_encode everyForm (List.all_eq_true.mp fits)⟩

end QueryGraph
