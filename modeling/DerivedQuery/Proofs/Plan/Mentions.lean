import DerivedQuery.Proofs.Plan.Reading

/-!
# Parameters that a text mentions

A reader of a query text finds the parameters in it without knowing the query: an `@` outside of quotes
starts a name, which goes on as long as there are name characters (`Sql.mentions`). In the text of a query
it finds the names of the bound parameters, each one once and in the order in which they are bound
(`mentions_render`), whatever the fields are called.
-/

namespace DerivedQuery.Sql

/-! ## Reading names -/

/-- Where a reader of a text stands. -/
inductive Place where
  | plain
  | quoted
  | escaped
  /-- In a name of which this has been read. -/
  | name (read : List Char)

/-- The place behind a character that stands neither in quotes nor in a name. -/
def Place.enter (c : Char) : Place :=
  if c = '"' then .quoted else if c = '@' then .name ['@'] else .plain

/-- The names in a text, read from a place on. -/
def mentionsFrom : Place → List Char → List (List Char)
  | .name read, [] => [read]
  | _, [] => []
  | .plain, c :: rest => mentionsFrom (.enter c) rest
  | .quoted, c :: rest =>
    mentionsFrom (if c = '\\' then .escaped else if c = '"' then .plain else .quoted) rest
  | .escaped, _ :: rest => mentionsFrom .quoted rest
  | .name read, c :: rest =>
    if isNameChar c then mentionsFrom (.name (read ++ [c])) rest
    else read :: mentionsFrom (.enter c) rest

/-- The names of parameters in a text, in order. -/
def mentions (text : String) : List String := (mentionsFrom .plain text.toList).map String.ofList

/-- The character starts neither a quoted text nor a name. -/
def isPlain (c : Char) : Bool := c != '"' && c != '@'

variable {rest : List Char}

theorem enter_of_isPlain {c : Char} (h : isPlain c) : Place.enter c = .plain := by
  simp only [isPlain, Bool.and_eq_true, bne_iff_ne] at h
  rw [Place.enter, if_neg h.1, if_neg h.2]

theorem mentionsFrom_plain_append {text : List Char} (h : text.all isPlain) :
    mentionsFrom .plain (text ++ rest) = mentionsFrom .plain rest := by
  induction text with
  | nil => rfl
  | cons c text ih =>
    rw [List.all_cons, Bool.and_eq_true] at h
    rw [List.cons_append, mentionsFrom, enter_of_isPlain h.1, ih h.2]

/-- Quotes hide what is in them. -/
theorem mentionsFrom_quoted_append (text rest : List Char) :
    mentionsFrom .quoted (text.flatMap escapeChar ++ '"' :: rest) = mentionsFrom .plain rest := by
  induction text with
  | nil => rfl
  | cons c text ih =>
    rw [List.flatMap_cons, List.append_assoc, escapeChar]
    split
    · exact ih
    · next hc =>
      obtain ⟨hbackslash, hquote⟩ := not_or.mp hc
      rw [List.cons_append, mentionsFrom, if_neg hbackslash, if_neg hquote]
      exact ih

theorem mentionsFrom_name_append {read name : List Char} (hname : ∀ c ∈ name, isNameChar c)
    (hrest : EndsName rest) :
    mentionsFrom (.name read) (name ++ rest) = (read ++ name) :: mentionsFrom .plain rest := by
  induction name generalizing read with
  | nil =>
    rw [List.append_nil]
    cases rest with
    | nil => rfl
    | cons c rest =>
      simp [mentionsFrom, hrest c rfl]
  | cons c name ih =>
    obtain ⟨hc, hname⟩ := List.forall_mem_cons.mp hname
    rw [List.cons_append, mentionsFrom, if_pos hc, ih hname, List.append_assoc, List.singleton_append]

theorem isPlain_of_isNameChar {c : Char} (h : isNameChar c) : isPlain c := by
  rw [isPlain, Bool.and_eq_true, bne_iff_ne, bne_iff_ne]
  constructor
  · rintro rfl
    cases h
  · rintro rfl
    cases h

theorem mentionsFrom_segment_append (segment : List Char) :
    mentionsFrom .plain (segmentRef segment ++ rest) = mentionsFrom .plain rest := by
  unfold segmentRef
  split
  · next hsegment =>
    have hplain : ('.' :: segment).all isPlain :=
      List.all_eq_true.mpr (List.forall_mem_cons.mpr ⟨rfl, fun c hc =>
        isPlain_of_isNameChar (isNameChar_of_isIdentifier hsegment c hc)⟩)
    exact mentionsFrom_plain_append hplain
  · rw [List.append_assoc]
    exact mentionsFrom_quoted_append segment (']' :: rest)

/-- Fields mention nothing. -/
theorem mentionsFrom_field_append (dotted : String) :
    mentionsFrom .plain ((fieldRef dotted).toList ++ rest) = mentionsFrom .plain rest := by
  rw [toList_fieldRef]
  change mentionsFrom .plain (((Text.split '.' dotted.toList).flatMap segmentRef) ++ rest) = _
  induction Text.split '.' dotted.toList with
  | nil => rfl
  | cons segment segments ih =>
    rw [List.flatMap_cons, List.append_assoc, mentionsFrom_segment_append, ih]

/-! ## Shapes -/

/-- The parameter that a piece stands for. -/
def Piece.offset? : Piece → Option Nat
  | parameter offset => some offset
  | _ => none

/-- The fixed characters of a shape mention nothing. -/
def isPlainShape (shape : List Piece) : Bool :=
  shape.all fun piece => match piece with
    | .char c => isPlain c
    | _ => true

/-- The names in a filled shape are those in its blanks. -/
theorem mentionsFrom_fill_append {blanks : Blanks} {shape : List Piece} (hspaced : isSpaced shape)
    (hplain : isPlainShape shape) (hrest : Delimited rest) :
    mentionsFrom .plain (fill blanks shape ++ rest)
      = (shape.filterMap Piece.offset?).map (fun offset => (blanks.parameter offset).toList) ++
          mentionsFrom .plain rest := by
  induction shape with
  | nil => rfl
  | cons piece shape ih =>
    rw [isPlainShape, List.all_cons, Bool.and_eq_true] at hplain
    have ih := ih (isSpaced_of_cons hspaced) hplain.2
    rw [fill_cons, List.append_assoc]
    cases piece with
    | char c =>
      have hc : [c].all isPlain := by
        rw [List.all_cons, List.all_nil, Bool.and_true]
        exact hplain.1
      have hhead : mentionsFrom .plain ([c] ++ (fill blanks shape ++ rest))
          = mentionsFrom .plain (fill blanks shape ++ rest) :=
        mentionsFrom_plain_append hc
      exact hhead.trans ih
    | field =>
      rw [Piece.text, mentionsFrom_field_append, ih]
      rfl
    | parameter offset =>
      obtain ⟨name, hparameter, hname⟩ := blanks.isParameter offset
      have hnext : EndsName (fill blanks shape ++ rest) :=
        (delimited_of_isSpaced hspaced hrest rfl).endsName
      have hhead : mentionsFrom (.name ['@']) (name ++ (fill blanks shape ++ rest))
          = ('@' :: name) :: mentionsFrom .plain (fill blanks shape ++ rest) :=
        mentionsFrom_name_append hname hnext
      rw [Piece.text, hparameter]
      change mentionsFrom (.name ['@']) (name ++ (fill blanks shape ++ rest)) = _
      rw [hhead, ih, List.filterMap_cons_some (by rfl), List.map_cons, hparameter]
      rfl

/-- A condition mentions as many parameters as its operator takes, in order. -/
theorem offsets_conditionShape : ∀ operator ∈ Operator.all, ∀ ignoreCase isArray : Bool,
    (conditionShape operator ignoreCase isArray).filterMap Piece.offset? = List.range operator.arity := by
  decide +kernel

theorem isPlainShape_conditionShape : ∀ operator ∈ Operator.all, ∀ ignoreCase isArray : Bool,
    isPlainShape (conditionShape operator ignoreCase isArray) := by
  decide +kernel

/-! ## Conditions and their parameters -/

theorem length_boundValues (predicate : Predicate) :
    (boundValues predicate).length = predicate.operator.arity := by
  unfold boundValues
  cases predicate.operator <;> rfl

/-- The names of the parameters that a predicate binds. -/
theorem names_mapIdx (predicate : Predicate) (position : Nat) :
    ((boundValues predicate).mapIdx fun offset value => ({
        name := parameterName predicate.property (position + offset), value } : SqlParameter)).map
        (·.name.toList)
      = (List.range predicate.operator.arity).map
          fun offset => ((predicate.blanks position).parameter offset).toList := by
  rw [← length_boundValues, List.mapIdx_eq_zipIdx_map, List.range_eq_range', ← List.zipIdx_map_snd,
    List.map_map, List.map_map]
  rfl

theorem mentionsFrom_condition_append (predicate : Predicate) (position : Nat) {rest : List Char}
    (hrest : Delimited rest) :
    mentionsFrom .plain (fill (predicate.blanks position) predicate.shape ++ rest)
      = (List.range predicate.operator.arity).map
          (fun offset => ((predicate.blanks position).parameter offset).toList) ++
          mentionsFrom .plain rest := by
  have hmem := Operator.mem_all predicate.operator
  rw [mentionsFrom_fill_append predicate.isSpaced_shape (isPlainShape_conditionShape _ hmem _ _) hrest,
    Predicate.shape, offsets_conditionShape _ hmem]

/-- **Joined conditions mention the parameters of their predicates.** -/
theorem mentionsFrom_joined_append (connector : Connector) {predicates : List Predicate}
    (hne : predicates ≠ []) (position : Nat) {rest : List Char} (hrest : Delimited rest) :
    mentionsFrom .plain (joined connector position predicates ++ rest)
      = (parameters position predicates).map (·.name.toList) ++ mentionsFrom .plain rest := by
  induction predicates generalizing position with
  | nil => exact absurd rfl hne
  | cons predicate predicates ih =>
    rw [parameters, List.map_append, names_mapIdx]
    cases predicates with
    | nil =>
      rw [joined_singleton, mentionsFrom_condition_append predicate position hrest, parameters,
        List.map_nil, List.append_nil]
    | cons next predicates =>
      have hplain : (separator connector).toList.all isPlain := by
        cases connector <;> decide
      rw [joined_cons_cons, List.append_assoc, List.append_assoc,
        mentionsFrom_condition_append predicate position (delimited_separator_append _ _),
        mentionsFrom_plain_append hplain, ih (List.cons_ne_nil _ _), List.append_assoc]

theorem mentionsFrom_ordering (action : Action) (order : Option OrderKey) :
    mentionsFrom .plain (ordering action order).toList = [] := by
  unfold ordering
  split
  · rfl
  · rfl
  · next key _ =>
    have hdirection : (" " ++ key.direction.name).toList.all isPlain := by
      cases key.direction <;> decide
    have hword : " ORDER BY ".toList.all isPlain := by decide
    rw [String.append_assoc, String.append_assoc, String.toList_append, String.toList_append,
      mentionsFrom_plain_append hword, mentionsFrom_field_append]
    exact (congrArg _ (List.append_nil _).symm).trans (mentionsFrom_plain_append hdirection)

theorem mentionsFrom_filter_append (tree : PredicateTree) (rest : List Char) :
    mentionsFrom .plain ((filter tree).toList ++ rest)
      = (parameters 0 tree.predicates).map (·.name.toList) ++ mentionsFrom .plain rest := by
  by_cases hempty : tree.predicates = []
  · rw [filter_eq_empty hempty, hempty]
    rfl
  · have hword : " WHERE (".toList.all isPlain := by decide
    have hclose : Delimited (')' :: rest) := by
      rintro _ ⟨⟩
      rfl
    rw [toList_filter hempty, List.append_assoc, List.append_assoc, mentionsFrom_plain_append hword]
    exact mentionsFrom_joined_append tree.connector hempty 0 hclose

/-- **A text mentions the bound parameters, in order, and nothing else.** -/
theorem mentions_render (query : Query) :
    mentions (render query).text = (render query).parameters.map (·.name) := by
  have hselection : (selection query.action).toList.all isPlain := by
    cases query.action <;> decide
  simp only [mentions, render, String.toList_append, List.append_assoc]
  rw [mentionsFrom_plain_append hselection, mentionsFrom_filter_append, mentionsFrom_ordering,
    List.append_nil, List.map_map]
  exact List.map_congr_left fun parameter _ => String.ofList_toList

end DerivedQuery.Sql
