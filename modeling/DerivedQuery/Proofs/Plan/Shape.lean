import DerivedQuery.Proofs.Plan.Binding
import DerivedQuery.Proofs.Plan.Names

/-!
# Shapes of conditions

The text of a condition is a shape of fixed characters with blanks in it, for the field and for the
parameters (`toList_condition`). The shape depends on the operator, on whether case is ignored, and on
whether the field holds an array. Behind each blank stands a delimiter, so two texts of one shape have the
same field in them (`fill_append_inj`), and texts of shapes that part are never the same
(`not_parts_of_fill_append`). Two shapes either part or are equal, and equal ones belong to operators that
always agree (`shape_eq_or_parts`).
-/

namespace DerivedQuery

namespace Sql

/-! ## Pieces -/

/-- A piece of the text of a condition. -/
inductive Piece where
  | char (c : Char)
  | field
  | parameter (offset : Nat)
  deriving DecidableEq

/-- What stands in the blanks of a condition. -/
structure Blanks where
  field : String
  parameter : Nat → String
  isParameter : ∀ offset, IsParameter (parameter offset).toList

namespace Piece

/-- The piece is a fixed character. -/
def isChar : Piece → Bool
  | char _ => true
  | _ => false

/-- The first character of a piece, whatever stands in the blanks. -/
def start : Piece → Char
  | char c => c
  | field => 'r'
  | parameter _ => '@'

/-- The text of a piece. -/
def text (blanks : Blanks) : Piece → List Char
  | char c => [c]
  | field => (fieldRef blanks.field).toList
  | parameter offset => (blanks.parameter offset).toList

theorem exists_text_eq_start_cons (blanks : Blanks) (piece : Piece) :
    ∃ rest, piece.text blanks = piece.start :: rest := by
  cases piece with
  | char c => exact ⟨[], rfl⟩
  | field => exact ⟨_, toList_fieldRef blanks.field⟩
  | parameter offset =>
    obtain ⟨name, hname, -⟩ := blanks.isParameter offset
    exact ⟨name, hname⟩

variable {piece other : Piece} {blanks blanks' : Blanks} {rest rest' : List Char}

theorem start_eq_of_text_append (h : piece.text blanks ++ rest = other.text blanks' ++ rest') :
    piece.start = other.start := by
  obtain ⟨text, htext⟩ := exists_text_eq_start_cons blanks piece
  obtain ⟨text', htext'⟩ := exists_text_eq_start_cons blanks' other
  rw [htext, htext'] at h
  exact List.head_eq_of_cons_eq h

/-- Two fixed characters, or two blanks with delimiters behind them, can be told from what follows. -/
theorem text_append_inj (hkind : piece.isChar = other.isChar)
    (hrest : piece.isChar = false → Delimited rest) (hrest' : other.isChar = false → Delimited rest')
    (h : piece.text blanks ++ rest = other.text blanks' ++ rest') :
    (piece = field → blanks.field = blanks'.field) ∧ rest = rest' := by
  have hstart := start_eq_of_text_append h
  cases piece with
  | char c =>
    cases other with
    | char d => exact ⟨nofun, List.tail_eq_of_cons_eq h⟩
    | field => cases hkind
    | parameter offset => cases hkind
  | field =>
    cases other with
    | char d => cases hkind
    | field =>
      obtain ⟨hfield, heq⟩ := fieldRef_append_inj (hrest rfl) (hrest' rfl) h
      exact ⟨fun _ => hfield, heq⟩
    | parameter offset => cases hstart
  | parameter offset =>
    cases other with
    | char d => cases hkind
    | field => cases hstart
    | parameter offset' =>
      obtain ⟨-, heq⟩ := (blanks.isParameter offset).append_inj (blanks'.isParameter offset')
        (hrest rfl) (hrest' rfl) h
      exact ⟨nofun, heq⟩

end Piece

/-! ## Filled shapes -/

/-- A shape with its blanks filled. -/
def fill (blanks : Blanks) (shape : List Piece) : List Char := shape.flatMap (Piece.text blanks)

/-- Fixed characters. -/
def words (text : String) : List Piece := text.toList.map .char

@[simp]
theorem fill_nil (blanks : Blanks) : fill blanks [] = [] := rfl

@[simp]
theorem fill_cons (blanks : Blanks) (piece : Piece) (shape : List Piece) :
    fill blanks (piece :: shape) = piece.text blanks ++ fill blanks shape := List.flatMap_cons

@[simp]
theorem fill_append (blanks : Blanks) (shape other : List Piece) :
    fill blanks (shape ++ other) = fill blanks shape ++ fill blanks other := List.flatMap_append

@[simp]
theorem fill_words (blanks : Blanks) (text : String) : fill blanks (words text) = text.toList := by
  rw [fill, words, List.flatMap_map]
  exact List.flatMap_singleton' text.toList

/-- The shape goes on with a delimiter, if at all. -/
def delimits : List Piece → Bool
  | [] => true
  | .char c :: _ => isDelimiter c
  | _ :: _ => false

/-- Behind each blank stands a delimiter, or nothing. -/
def isSpaced : List Piece → Bool
  | [] => true
  | piece :: shape => (piece.isChar || delimits shape) && isSpaced shape

/-- The shapes part: at some place one has a character with which the piece of the other one cannot
start, and up to there they are alike. -/
def parts : List Piece → List Piece → Bool
  | piece :: shape, other :: shape' =>
    piece.start != other.start || (piece.isChar == other.isChar && parts shape shape')
  | _, _ => false

section Reading

variable {blanks blanks' : Blanks} {shape shape' : List Piece} {rest rest' : List Char}

theorem delimited_fill_append (h : delimits shape) (hrest : Delimited rest) :
    Delimited (fill blanks shape ++ rest) := by
  cases shape with
  | nil => exact hrest
  | cons piece shape =>
    cases piece with
    | char c =>
      rintro _ ⟨⟩
      exact h
    | field => cases h
    | parameter offset => cases h

/-- What stands behind the first piece of a spaced shape delimits a blank. -/
theorem delimited_of_isSpaced {piece : Piece} (h : isSpaced (piece :: shape)) (hrest : Delimited rest)
    (hblank : piece.isChar = false) : Delimited (fill blanks shape ++ rest) := by
  rw [isSpaced, hblank, Bool.false_or, Bool.and_eq_true] at h
  exact delimited_fill_append h.1 hrest

theorem isSpaced_of_cons {piece : Piece} (h : isSpaced (piece :: shape)) : isSpaced shape := by
  rw [isSpaced, Bool.and_eq_true] at h
  exact h.2

/-- **Two texts of one shape have the same field.** -/
theorem fill_append_inj (hshape : isSpaced shape) (hrest : Delimited rest) (hrest' : Delimited rest')
    (h : fill blanks shape ++ rest = fill blanks' shape ++ rest') :
    (.field ∈ shape → blanks.field = blanks'.field) ∧ rest = rest' := by
  induction shape with
  | nil => exact ⟨nofun, h⟩
  | cons piece shape ih =>
    rw [fill_cons, fill_cons, List.append_assoc, List.append_assoc] at h
    obtain ⟨hfield, htail⟩ := Piece.text_append_inj rfl (delimited_of_isSpaced hshape hrest)
      (delimited_of_isSpaced hshape hrest') h
    obtain ⟨hfields, heq⟩ := ih (isSpaced_of_cons hshape) htail
    refine ⟨?_, heq⟩
    intro hmem
    rcases List.mem_cons.mp hmem with hhead | hmem
    · exact hfield hhead.symm
    · exact hfields hmem

/-- **No text can be read in two shapes that part.** -/
theorem not_parts_of_fill_append (hshape : isSpaced shape) (hshape' : isSpaced shape')
    (hrest : Delimited rest) (hrest' : Delimited rest')
    (h : fill blanks shape ++ rest = fill blanks' shape' ++ rest') : ¬ parts shape shape' := by
  induction shape generalizing shape' with
  | nil => exact nofun
  | cons piece shape ih =>
    cases shape' with
    | nil => exact nofun
    | cons other shape' =>
      rw [fill_cons, fill_cons, List.append_assoc, List.append_assoc] at h
      rw [parts, Piece.start_eq_of_text_append h]
      simp only [bne_self_eq_false, Bool.false_or, Bool.and_eq_true, beq_iff_eq]
      rintro ⟨hkind, hparts⟩
      obtain ⟨-, htail⟩ := Piece.text_append_inj hkind (delimited_of_isSpaced hshape hrest)
        (delimited_of_isSpaced hshape' hrest') h
      exact ih (isSpaced_of_cons hshape) (isSpaced_of_cons hshape') htail hparts

end Reading

/-! ## The shape of each condition -/

/-- The shape of a comparison. -/
def comparisonShape (ignoreCase : Bool) (operator : String) (operand : List Piece) : List Piece :=
  if ignoreCase then
    words "UPPER(" ++ [.field] ++ words ") " ++ words operator ++ words " UPPER(" ++ operand ++
      words ")"
  else [.field] ++ words " " ++ words operator ++ words " " ++ operand

/-- The shape of a call of a function of two texts. -/
def textFunctionShape (name : String) (ignoreCase : Bool) : List Piece :=
  words name ++ words "(" ++ [.field] ++ words ", " ++ [.parameter 0] ++
    words (ignoreCaseFlag ignoreCase) ++ words ")"

/-- The shape of the test for an element or a part. -/
def containingShape (ignoreCase isArray : Bool) : List Piece :=
  if isArray then words "ARRAY_CONTAINS(" ++ [.field] ++ words ", " ++ [.parameter 0] ++ words ")"
  else textFunctionShape "CONTAINS" ignoreCase

/-- The shape of the test for membership. -/
def membershipShape (ignoreCase : Bool) : List Piece :=
  if ignoreCase then
    words "ARRAY_CONTAINS(" ++ [.parameter 0] ++ words ", UPPER(" ++ [.field] ++ words "))"
  else words "ARRAY_CONTAINS(" ++ [.parameter 0] ++ words ", " ++ [.field] ++ words ")"

/-- The shape of a condition. -/
def conditionShape (operator : Operator) (ignoreCase isArray : Bool) : List Piece :=
  match operator with
  | .equal => comparisonShape ignoreCase "=" [.parameter 0]
  | .notEqual => comparisonShape ignoreCase "!=" [.parameter 0]
  | .containing => containingShape ignoreCase isArray
  | .notContaining => words "NOT " ++ containingShape ignoreCase isArray
  | .startsWith => textFunctionShape "STARTSWITH" ignoreCase
  | .endsWith => textFunctionShape "ENDSWITH" ignoreCase
  | .isIn => membershipShape ignoreCase
  | .notIn => words "NOT " ++ membershipShape ignoreCase
  | .greaterThan | .after => comparisonShape false ">" [.parameter 0]
  | .greaterThanEqual => comparisonShape false ">=" [.parameter 0]
  | .lessThan | .before => comparisonShape false "<" [.parameter 0]
  | .lessThanEqual => comparisonShape false "<=" [.parameter 0]
  | .between =>
    words "(" ++ comparisonShape false ">=" [.parameter 0] ++ words " AND " ++
      comparisonShape false "<=" [.parameter 1] ++ words ")"
  | .isNull => words "(NOT IS_DEFINED(" ++ [.field] ++ words ") OR IS_NULL(" ++ [.field] ++ words "))"
  | .isNotNull =>
    words "(IS_DEFINED(" ++ [.field] ++ words ") AND NOT IS_NULL(" ++ [.field] ++ words "))"
  | .isTrue => comparisonShape false "=" (words "true")
  | .isFalse => comparisonShape false "=" (words "false")

end Sql

namespace Predicate

/-- What stands in the blanks of a predicate's condition, its first parameter being at a position. -/
def blanks (predicate : Predicate) (position : Nat) : Sql.Blanks where
  field := predicate.field
  parameter offset := Sql.parameterName predicate.property (position + offset)
  isParameter _ := Sql.isParameter_parameterName _ _

/-- The shape of a predicate's condition. -/
def shape (predicate : Predicate) : List Sql.Piece :=
  Sql.conditionShape predicate.operator predicate.ignoreCase predicate.property.type.isArray

end Predicate

namespace Sql

/-- **The text of a condition is its shape with the blanks filled.** -/
theorem toList_condition (predicate : Predicate) (position : Nat) :
    (condition predicate (parameterName predicate.property position)
        (parameterName predicate.property (position + 1))).toList
      = fill (predicate.blanks position) predicate.shape := by
  obtain ⟨property, field, operator, ignoreCase, values⟩ := predicate
  cases operator <;> cases ignoreCase <;> cases hkind : property.type.isArray <;>
    simp [condition, Predicate.shape, conditionShape, comparison, comparisonShape, textFunction,
      textFunctionShape, containing, containingShape, membership, membershipShape, Predicate.blanks,
      Piece.text, hkind]

theorem isSpaced_conditionShape : ∀ operator ∈ Operator.all, ∀ ignoreCase isArray : Bool,
    isSpaced (conditionShape operator ignoreCase isArray) := by
  decide +kernel

theorem field_mem_conditionShape : ∀ operator ∈ Operator.all, ∀ ignoreCase isArray : Bool,
    .field ∈ conditionShape operator ignoreCase isArray := by
  decide +kernel

end Sql

/-! ## Shapes that part -/

/-- The operator that stands for all that are tested alike. -/
def Operator.standard : Operator → Operator
  | .after => .greaterThan
  | .before => .lessThan
  | operator => operator

/-- Any two shapes part, unless they are equal and the conditions are tested alike. Case is ignored only
where it can be, and never for arrays. -/
theorem Sql.conditionShape_eq_or_parts : ∀ operator ∈ Operator.all, ∀ operator' ∈ Operator.all,
    ∀ ignoreCase ignoreCase' isArray isArray' : Bool,
    (ignoreCase → operator.supportsIgnoreCase ∧ isArray = false) →
    (ignoreCase' → operator'.supportsIgnoreCase ∧ isArray' = false) →
    parts (conditionShape operator ignoreCase isArray)
        (conditionShape operator' ignoreCase' isArray') ∨
      operator.standard = operator'.standard ∧ ignoreCase = ignoreCase' ∧
        conditionShape operator ignoreCase isArray = conditionShape operator' ignoreCase' isArray' := by
  decide +kernel

namespace Predicate

theorem isSpaced_shape (predicate : Predicate) : Sql.isSpaced predicate.shape :=
  Sql.isSpaced_conditionShape _ (Operator.mem_all _) _ _

theorem field_mem_shape (predicate : Predicate) : .field ∈ predicate.shape :=
  Sql.field_mem_conditionShape _ (Operator.mem_all _) _ _

/-- Case is ignored only where it can be, and never for arrays. -/
theorem WellFormed.supportsCase {predicate : Predicate} (h : predicate.WellFormed) :
    predicate.ignoreCase →
      predicate.operator.supportsIgnoreCase ∧ predicate.property.type.isArray = false := by
  intro hcase
  refine ⟨h.supportsIgnoreCase hcase, ?_⟩
  have htextual := h.isTextual hcase
  cases htype : predicate.property.type with
  | array element =>
    rw [htype] at htextual
    cases htextual
  | _ => rfl

/-- **The shapes of two predicates part, or they are equal and the predicates are tested alike.** -/
theorem shape_eq_or_parts {predicate other : Predicate} (h : predicate.WellFormed)
    (hother : other.WellFormed) :
    Sql.parts predicate.shape other.shape ∨
      predicate.operator.standard = other.operator.standard ∧
        predicate.ignoreCase = other.ignoreCase ∧ predicate.shape = other.shape :=
  Sql.conditionShape_eq_or_parts _ (Operator.mem_all _) _ (Operator.mem_all _) _ _ _ _ h.supportsCase
    hother.supportsCase

end Predicate

end DerivedQuery
