import DerivedQuery.Entity.Metadata
import DerivedQuery.Method.Operation
import DerivedQuery.Method.Reference
import DerivedQuery.Text.Digits
import DerivedQuery.Text.Infix

/-!
# Parsing method names

A method name is a verb, a subject, `By` with criteria, and `OrderBy` with properties; all but the verb
may be missing. For instance `findByNameAndStarCountGreaterThanOrderByNameDesc` selects by two criteria
and orders by one property.

* The order clause stands behind the last word `OrderBy`, and the criteria behind the first word `By`
  before it.
* Criteria are joined by the words `And` or `Or`, but not by both.
* A criterion refers to a property and ends in a keyword for its operator. The longest keyword whose
  removal leaves a reference to a property counts; without a keyword the operator is equality.
* `IgnoreCase` behind a criterion ignores case there, and `AllIgnoreCase` behind all of them ignores
  case wherever the property is textual.
-/

namespace DerivedQuery.Method

/-! ## Vocabulary -/

/-- The verbs and their actions. -/
def verbs : List (Word Action) := [
  ("exists".toList, .exists), ("count".toList, .count), ("delete".toList, .delete),
  ("remove".toList, .delete), ("find".toList, .find), ("read".toList, .find), ("get".toList, .find),
  ("query".toList, .find), ("search".toList, .find), ("stream".toList, .find)]

/-- The keywords and their operators. -/
def keywords : List (Word Operator) := [
  ("Is".toList, .equal), ("Equals".toList, .equal),
  ("IsNot".toList, .notEqual), ("Not".toList, .notEqual),
  ("Containing".toList, .containing), ("IsContaining".toList, .containing),
  ("Contains".toList, .containing),
  ("NotContaining".toList, .notContaining), ("IsNotContaining".toList, .notContaining),
  ("NotContains".toList, .notContaining),
  ("StartingWith".toList, .startsWith), ("IsStartingWith".toList, .startsWith),
  ("StartsWith".toList, .startsWith),
  ("EndingWith".toList, .endsWith), ("IsEndingWith".toList, .endsWith),
  ("EndsWith".toList, .endsWith),
  ("In".toList, .isIn), ("IsIn".toList, .isIn),
  ("NotIn".toList, .notIn), ("IsNotIn".toList, .notIn),
  ("GreaterThan".toList, .greaterThan), ("IsGreaterThan".toList, .greaterThan),
  ("GreaterThanEqual".toList, .greaterThanEqual), ("IsGreaterThanEqual".toList, .greaterThanEqual),
  ("LessThan".toList, .lessThan), ("IsLessThan".toList, .lessThan),
  ("LessThanEqual".toList, .lessThanEqual), ("IsLessThanEqual".toList, .lessThanEqual),
  ("Before".toList, .before), ("IsBefore".toList, .before),
  ("After".toList, .after), ("IsAfter".toList, .after),
  ("Between".toList, .between), ("IsBetween".toList, .between),
  ("IsNull".toList, .isNull), ("Null".toList, .isNull),
  ("IsNotNull".toList, .isNotNull), ("NotNull".toList, .isNotNull),
  ("True".toList, .isTrue), ("IsTrue".toList, .isTrue),
  ("False".toList, .isFalse), ("IsFalse".toList, .isFalse)]

/-- The words that join criteria. -/
def connectors : List (Word Connector) := [("And".toList, .and), ("Or".toList, .or)]

/-- The words behind a property of the order clause. -/
def directions : List (Word Direction) := [("Desc".toList, .desc), ("Asc".toList, .asc)]

/-- Endings of a criterion that ignores case. -/
def ignoreCaseEndings : List (List Char) := ["IgnoringCase".toList, "IgnoreCase".toList]

/-- Endings of criteria that all ignore case. -/
def allIgnoreCaseEndings : List (List Char) := ["AllIgnoringCase".toList, "AllIgnoreCase".toList]

/-! ## Verb and subject -/

/-- The action of the verb, and the rest of the name. -/
def splitVerb? (method : List Char) : Option (Action × List Char) :=
  verbs.findSome? fun (verb, action) => (behind? verb method).map (action, ·)

/-- The number behind a limiting marker, if the subject has the marker as a word with a number. A missing
number stands for one; a number beyond 32 bits is a fault. -/
def limit? (marker : String) (subject : List Char) : Option (Except NameFault Nat) :=
  match behindMarker? marker.toList subject with
  | none => none
  | some after =>
    let digits := after.takeWhile Char.isDigit
    if !startsWord (after.dropWhile Char.isDigit) then none
    else if digits.isEmpty then some (.ok 1)
    else if Text.digitsValue digits < UInt32.size then some (.ok (Text.digitsValue digits))
    else some (.error (.limit marker))

/-- The subject between the verb and the criteria. -/
def parseSubject (text : List Char) : Except NameFault Subject := do
  let distinct := Text.hasInfix "Distinct".toList text
  match (limit? "First" text).or (limit? "Top" text) with
  | none => .ok { distinct }
  | some limit => .ok { distinct, limit := some (← limit) }

/-! ## Criteria -/

/-- The keywords that a criterion ends in, with something before them, and that something. The longest
keyword comes first. -/
def keywordEndings (text : List Char) : List (List Char × Operator) :=
  let found := keywords.filter fun (word, _) =>
    word.length < text.length && word.isSuffixOf text
  let longestFirst := found.mergeSort fun a b => b.1.length ≤ a.1.length
  longestFirst.map fun (word, operator) => (text.take (text.length - word.length), operator)

/-- The property and the operator of a criterion. -/
def propertyAndOperator? (table : PropertyTable) (text : List Char) :
    Option (PropertyPath × Operator) :=
  ((keywordEndings text).findSome? fun (head, operator) => (refer table head).map (·, operator)).or
    ((refer table text).map (·, .equal))

/-- The error for a text that refers to no property. -/
def unknownProperty (m : EntityMetadata) (text : List Char) : QueryError :=
  .unknownProperty m.typeName (String.ofList (Text.decapitalize text))

/-- One criterion. -/
def parseCriterion (m : EntityMetadata) (method : String) (allIgnoreCase : Bool)
    (text : List Char) : Except QueryError Criterion :=
  let (body, ignoreCase) := dropEnding ignoreCaseEndings text
  if body.isEmpty then .error (.invalidMethodName method .emptySegment)
  else match propertyAndOperator? m.properties body with
    | none => .error (unknownProperty m body)
    | some (property, operator) =>
      .ok { property, operator, ignoreCase := ignoreCase || (allIgnoreCase && property.type.isTextual) }

/-- The one connector of criteria, `And` if they need none. -/
def theConnector? (used : List Connector) : Option Connector :=
  if used.contains .and && used.contains .or then none
  else if used.contains .or then some .or
  else some .and

/-- The criteria behind `By`. -/
def parseCriteria (m : EntityMetadata) (method : String) (text : List Char) :
    Except QueryError (Connector × List Criterion) :=
  let (text, allIgnoreCase) := dropEnding allIgnoreCaseEndings text
  let (joined, last) := cut connectors text
  match theConnector? (joined.map (·.2)) with
  | none => .error (.mixedConnector method)
  | some connector => do
    let criteria ← (joined.map (·.1) ++ [last]).mapM (parseCriterion m method allIgnoreCase)
    .ok (connector, criteria)

/-! ## Order -/

/-- One key of the order clause. -/
def parseKey (m : EntityMetadata) (piece : List Char × Direction) : Except QueryError SortKey :=
  match refer m.properties piece.1 with
  | some path => .ok { property := path.dotted, direction := piece.2 }
  | none => .error (unknownProperty m piece.1)

/-- The order behind `OrderBy`. A last property without direction is ascending. -/
def parseOrder (m : EntityMetadata) (method : String) (text : List Char) :
    Except QueryError Sorting :=
  if text.isEmpty then .error (.invalidMethodName method .noOrder)
  else
    let (directed, last) := cut directions text
    (directed ++ if last.isEmpty then [] else [(last, Direction.asc)]).mapM (parseKey m)

/-! ## Names -/

/-- The parts of the text behind the verb: the subject, what is behind `By`, and what is behind
`OrderBy`. -/
def clauses (text : List Char) : List Char × Option (List Char) × Option (List Char) :=
  let (head, order) := match splitLast? "OrderBy".toList text with
    | some (head, order) => (head, some order)
    | none => (text, none)
  match splitFirst? "By".toList head with
  | some (subject, criteria) => (subject, some criteria, order)
  | none => (head, none, order)

/-- Parses a method name for an entity. -/
def parse (m : EntityMetadata) (method : String) : Except QueryError Operation := do
  let (action, text) ← match splitVerb? method.toList with
    | some split => .ok split
    | none => .error (.invalidMethodName method .noVerb)
  let (subjectText, criteriaText, orderText) := clauses text
  let subject ← (parseSubject subjectText).mapError (.invalidMethodName method)
  let (connector, criteria) ← match criteriaText with
    | none => .ok (.and, [])
    | some [] =>
      if orderText.isSome then .ok (.and, []) else .error (.invalidMethodName method .noCriteria)
    | some text => parseCriteria m method text
  let order ← match orderText with
    | none => .ok []
    | some text => parseOrder m method text
  .ok { method, action, subject, connector, criteria, order }

end DerivedQuery.Method
