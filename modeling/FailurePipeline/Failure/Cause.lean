/-!
# Where failures come from, and why

A failure has one of three types, after the stage that observed it, and each type has causes of its own.
Every enumeration is written by name; `all` lists its members in the order in which messages name them.
-/

namespace FailurePipeline

inductive FailureType where
  | indexing
  | processing
  | input
  deriving Repr, DecidableEq, Inhabited

namespace FailureType

def all : List FailureType := [.indexing, .processing, .input]

def name : FailureType → String
  | .indexing => "indexing"
  | .processing => "processing"
  | .input => "input"

/-- The capitalised name. -/
def title : FailureType → String
  | .indexing => "Indexing"
  | .processing => "Processing"
  | .input => "Input"

def ofName? (s : String) : Option FailureType := all.find? (·.name == s)

end FailureType

inductive IndexingCause where
  | mappingError
  | unknown
  deriving Repr, DecidableEq, Inhabited

namespace IndexingCause

def all : List IndexingCause := [.mappingError, .unknown]

def name : IndexingCause → String
  | .mappingError => "MappingError"
  | .unknown => "Unknown"

def ofName? (s : String) : Option IndexingCause := all.find? (·.name == s)

end IndexingCause

inductive ProcessingCause where
  | ruleStatement
  | ruleCondition
  | extractor
  | messageFilter
  | invalidTimestamp
  | unknown
  deriving Repr, DecidableEq, Inhabited

namespace ProcessingCause

def all : List ProcessingCause :=
  [.ruleStatement, .ruleCondition, .extractor, .messageFilter, .invalidTimestamp, .unknown]

def name : ProcessingCause → String
  | .ruleStatement => "RuleStatementEvaluationError"
  | .ruleCondition => "RuleConditionEvaluationError"
  | .extractor => "ExtractorException"
  | .messageFilter => "MessageFilterException"
  | .invalidTimestamp => "InvalidTimestampException"
  | .unknown => "Unknown"

def ofName? (s : String) : Option ProcessingCause := all.find? (·.name == s)

end ProcessingCause

inductive InputCause where
  | parse
  deriving Repr, DecidableEq, Inhabited

namespace InputCause

def all : List InputCause := [.parse]

def name : InputCause → String
  | .parse => "InputParse"

def ofName? (s : String) : Option InputCause := all.find? (·.name == s)

end InputCause

end FailurePipeline
