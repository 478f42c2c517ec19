import DerivedQuery.Entity.PropertyType
import DerivedQuery.Method.Operator
import DerivedQuery.Store.Error

/-!
# Errors

Everything that can go wrong with a call, by cause. Validation errors are found by looking at the call
alone, before the store is asked for anything; the others come from the store or from a value that does
not fit a document.
-/

namespace DerivedQuery

/-- Why a method name does not follow the grammar. -/
inductive NameFault where
  | noVerb
  | noCriteria
  | noOrder
  | emptySegment
  /-- The number behind `First` or `Top` is too large. -/
  | limit (marker : String)
  /-- The verb stands for another action than the one called. -/
  | otherAction (actual expected : Action)
  deriving DecidableEq, Repr

/-- Why an argument is refused. -/
inductive ArgumentFault where
  | notArray (operator : Operator)
  | unknownLevel (level : String)
  deriving DecidableEq, Repr

/-- Why a sort order is not supported. -/
inductive SortFault where
  | manyKeys (count : Nat)
  | ignoreCase (property : String)
  | identifier (property : String)
  | unorderable (typeName property : String)
  deriving DecidableEq, Repr

/-- Why a query is not supported. -/
inductive QueryFault where
  | nestedIdentifier (property : String)
  | limited (method : String) (limit : Nat)
  | ignoreCaseOnType (typeName property : String)
  | ignoreCaseOnOperator (operator : Operator) (property : String)
  deriving DecidableEq, Repr

/-- Why a value cannot be mapped to or from a document. -/
inductive ConversionFault where
  | entityNotObject (typeName kind : String)
  | documentNotObject (kind : String)
  | idKind (kind : String)
  | idMissing (typeName : String)
  | idNotGenerated (typeName property idType : String)
  deriving DecidableEq, Repr

/-- Why a call fails. -/
inductive QueryError where
  | unknownProperty (entity property : String)
  | mixedConnector (method : String)
  | invalidMethodName (method : String) (fault : NameFault)
  | argumentCount (method : String) (expected actual : Nat)
  | invalidArgument (property : String) (fault : ArgumentFault)
  | unsupportedSort (fault : SortFault)
  | unsupportedQuery (fault : QueryFault)
  | partitionKeyRequired (collection : String)
  | invalidPageSize (size : Int)
  /-- The store kept handing out continuation tokens beyond its own bound. -/
  | endlessWalk (collection : String)
  | storeAccess (error : StoreError)
  | conversion (fault : ConversionFault)
  deriving DecidableEq, Repr

/-- Text of a fault. -/
def NameFault.message : NameFault → String
  | noVerb => "expected a find, exists, count or delete verb"
  | noCriteria => "expected criteria after 'By'"
  | noOrder => "expected a property after 'OrderBy'"
  | emptySegment => "empty predicate segment"
  | limit marker => "invalid " ++ marker ++ " limit"
  | otherAction actual expected =>
    "is a " ++ actual.name ++ " operation, not " ++ expected.name

/-- Text of a fault. -/
def ArgumentFault.message : ArgumentFault → String
  | notArray operator => operator.name ++ " requires an array argument"
  | unknownLevel level => "unknown level '" ++ level ++ "'"

/-- Text of a fault. -/
def SortFault.message : SortFault → String
  | manyKeys count => "Multi-property sort is not supported (" ++ toString count ++ " keys requested)"
  | ignoreCase property => "Ignore-case sort is not supported (property '" ++ property ++ "')"
  | identifier property => "Sorting by the identifier '" ++ property ++ "' is not supported"
  | unorderable typeName property =>
    "Cannot sort by " ++ typeName ++ " property '" ++ property ++ "'"

/-- Text of a fault. -/
def QueryFault.message : QueryFault → String
  | nestedIdentifier property => "identifier '" ++ property ++ "' must be a top-level property"
  | limited method limit =>
    "Limiting is not supported ('" ++ method ++ "' limits to " ++ toString limit ++ " result(s))"
  | ignoreCaseOnType typeName property =>
    "IgnoreCase is not supported on " ++ typeName ++ " property '" ++ property ++ "'"
  | ignoreCaseOnOperator operator property =>
    "IgnoreCase is not supported with " ++ operator.name ++ " on '" ++ property ++ "'"

/-- Text of a fault. -/
def ConversionFault.message : ConversionFault → String
  | entityNotObject typeName kind =>
    typeName ++ " serialized to " ++ kind ++ ", expected an object"
  | documentNotObject kind => "expected an object document, got " ++ kind
  | idKind kind => "document id must be a string or number, got " ++ kind
  | idMissing typeName => typeName ++ " document has no 'id' field"
  | idNotGenerated typeName property idType =>
    typeName ++ " has no '" ++ property ++ "' and a " ++ idType ++ " id cannot be generated"

namespace QueryError

/-- Stable code of an error. -/
def code : QueryError → String
  | unknownProperty .. => "DOCREPO_UNKNOWN_PROPERTY"
  | mixedConnector .. => "DOCREPO_MIXED_CONNECTOR"
  | invalidMethodName .. => "DOCREPO_INVALID_METHOD_NAME"
  | argumentCount .. => "DOCREPO_ARGUMENT_COUNT_MISMATCH"
  | invalidArgument .. => "DOCREPO_INVALID_ARGUMENT"
  | unsupportedSort .. => "DOCREPO_UNSUPPORTED_SORT_SHAPE"
  | unsupportedQuery .. => "DOCREPO_UNSUPPORTED_QUERY_SHAPE"
  | partitionKeyRequired .. => "DOCREPO_PARTITION_KEY_REQUIRED"
  | invalidPageSize .. => "DOCREPO_INVALID_PAGE_SIZE"
  | endlessWalk .. => "DOCREPO_ENDLESS_WALK"
  | storeAccess .. => "DOCREPO_STORE_ACCESS"
  | conversion .. => "DOCREPO_CONVERSION"

/-- Text of an error. -/
def message : QueryError → String
  | unknownProperty entity property =>
    "Unknown property '" ++ property ++ "' on entity '" ++ entity ++ "'"
  | mixedConnector method => "Operation '" ++ method ++ "' mixes And and Or connectors"
  | invalidMethodName method fault =>
    "Invalid operation name '" ++ method ++ "': " ++ fault.message
  | argumentCount method expected actual =>
    "Operation '" ++ method ++ "' expects " ++ toString expected ++ " argument(s), got " ++
      toString actual
  | invalidArgument property fault =>
    "Invalid argument for '" ++ property ++ "': " ++ fault.message
  | unsupportedSort fault => "Unsupported sort: " ++ fault.message
  | unsupportedQuery fault => "Unsupported query: " ++ fault.message
  | partitionKeyRequired collection =>
    "PartitionKey value must be supplied for this operation on collection '" ++ collection ++ "'"
  | invalidPageSize size => "Page size must be positive, got " ++ toString size
  | endlessWalk collection => "Walk over collection '" ++ collection ++ "' does not end"
  | storeAccess error => "Store access failed: " ++ error.message
  | conversion fault => "Conversion failed: " ++ fault.message

/-- The error is found by looking at the call alone. -/
def isValidation : QueryError → Bool
  | endlessWalk _ | storeAccess _ | conversion _ => false
  | _ => true

end QueryError

end DerivedQuery
