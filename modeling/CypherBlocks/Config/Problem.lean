import CypherBlocks.Text.Quoted

/-!
# What can be wrong with a configuration file

One constructor per cause, and the line that sums it up for the reader.
-/

namespace CypherBlocks.Config

inductive Problem where
  -- characters
  | unsupportedOperator | invalidCharacter | invalidEncoding | multiLineString
  | invalidEscape | invalidNumber
  -- arguments and blocks
  | invalidArgumentName | unclosedBlock | itemRequired | argumentRequired | attributeRedefined
  | noNewlineAfterArgument | commaAfterArgument | noNewlineAfterBlock
  | invalidBlock | invalidOneLineBlock | invalidTextLiteral | unterminatedTextLiteral
  -- expressions
  | invalidExpression | noFalseBranch | unbalancedParentheses
  | invalidLegacyIndex | invalidAttributeName | nestedSplat | splatNotClosed | indexNotClosed
  | noFunctionName | noOpenParenthesis | noCloseParenthesis | unterminatedCall | noArgumentSeparator
  | unterminatedTuple | noItemSeparator
  | noAttributeValue | noKeySeparator | unterminatedObject | noAttributeSeparator
  | invalidFor
  -- templates
  | unclosedInterpolation | extraAfterInterpolation | invalidDirective | invalidForDirective
  | invalidDirectiveKeyword | extraInMarker (keyword : String)
  | unterminatedTemplate | unexpectedTemplateEnd | unexpectedDirective (keyword : String)
  -- evaluation
  | variablesNotAllowed | unknownVariable | functionsNotAllowed
  | invalidInterpolationValue | inconsistentBranches | nullCondition | wrongConditionType
  | invalidOperand | operationFailed
  | iterationOverNull | notIterable | nullForCondition | invalidForCondition
  | invalidObjectKey | duplicateObjectKey
  | splatOfNull | ambiguousKey | nullKey | wrongKeyType
  | attributeOfNull | unsupportedAttribute | missingMapElement | indexOfNull | invalidIndex
  -- shape of a body
  | extraLabel (block : String) | missingLabel (label block : String)
  | unsupportedArgument | unsupportedBlock | unexpectedBlock (block : String)
  -- JSON text
  | noValue | noJsonValue | noArrayElement | invalidStart | invalidPropertyName | noObjectValue
  | noColon | trailingCommaInObject | trailingCommaInArray | unclosedObject | mismatchedBraces
  | mismatchedBrackets
  | noComma | invalidArrayValue | invalidJsonText | invalidJsonNumber | invalidJsonKeyword
  | extraData | rootNotObject
  -- shape of a JSON body
  | wrongJsonType | noBlockLabel | extraProperty | duplicateAttribute | duplicateProperty
  deriving Repr, DecidableEq

def Problem.summary : Problem → String
  | .unsupportedOperator => "Unsupported operator"
  | .invalidCharacter => "Invalid character"
  | .invalidEncoding => "Invalid character encoding"
  | .multiLineString => "Invalid multi-line string"
  | .invalidEscape => "Invalid escape sequence"
  | .invalidNumber => "Invalid number literal"
  | .invalidArgumentName => "Invalid argument name"
  | .unclosedBlock => "Unclosed configuration block"
  | .itemRequired => "Argument or block definition required"
  | .argumentRequired => "Argument definition required"
  | .attributeRedefined => "Attribute redefined"
  | .noNewlineAfterArgument => "Missing newline after argument"
  | .commaAfterArgument => "Unexpected comma after argument"
  | .noNewlineAfterBlock => "Missing newline after block definition"
  | .invalidBlock => "Invalid block definition"
  | .invalidOneLineBlock => "Invalid single-argument block definition"
  | .invalidTextLiteral => "Invalid string literal"
  | .unterminatedTextLiteral => "Unterminated string literal"
  | .invalidExpression => "Invalid expression"
  | .noFalseBranch => "Missing false expression in conditional"
  | .unbalancedParentheses => "Unbalanced parentheses"
  | .invalidLegacyIndex => "Invalid legacy index syntax"
  | .invalidAttributeName => "Invalid attribute name"
  | .nestedSplat => "Nested splat expression not allowed"
  | .splatNotClosed => "Missing close bracket on splat index"
  | .indexNotClosed => "Missing close bracket on index"
  | .noFunctionName => "Missing function name"
  | .noOpenParenthesis => "Missing open parenthesis"
  | .noCloseParenthesis => "Missing closing parenthesis"
  | .unterminatedCall => "Unterminated function call"
  | .noArgumentSeparator => "Missing argument separator"
  | .unterminatedTuple => "Unterminated tuple constructor expression"
  | .noItemSeparator => "Missing item separator"
  | .noAttributeValue => "Missing attribute value"
  | .noKeySeparator => "Missing key/value separator"
  | .unterminatedObject => "Unterminated object constructor expression"
  | .noAttributeSeparator => "Missing attribute separator"
  | .invalidFor => "Invalid 'for' expression"
  | .unclosedInterpolation => "Unclosed template interpolation sequence"
  | .extraAfterInterpolation => "Extra characters after interpolation expression"
  | .invalidDirective => "Invalid template directive"
  | .invalidForDirective => "Invalid 'for' directive"
  | .invalidDirectiveKeyword => "Invalid template control keyword"
  | .extraInMarker keyword => s!"Extra characters in {keyword} marker"
  | .unterminatedTemplate => "Unterminated template string"
  | .unexpectedTemplateEnd => "Unexpected end of template"
  | .unexpectedDirective keyword => s!"Unexpected {keyword} directive"
  | .variablesNotAllowed => "Variables not allowed"
  | .unknownVariable => "Unknown variable"
  | .functionsNotAllowed => "Function calls not allowed"
  | .invalidInterpolationValue => "Invalid template interpolation value"
  | .inconsistentBranches => "Inconsistent conditional result types"
  | .nullCondition => "Null condition"
  | .wrongConditionType => "Incorrect condition type"
  | .invalidOperand => "Invalid operand"
  | .operationFailed => "Operation failed"
  | .iterationOverNull => "Iteration over null value"
  | .notIterable => "Iteration over non-iterable value"
  | .nullForCondition => "Condition is null"
  | .invalidForCondition => "Invalid 'for' condition"
  | .invalidObjectKey => "Invalid object key"
  | .duplicateObjectKey => "Duplicate object key"
  | .splatOfNull => "Splat of null value"
  | .ambiguousKey => "Ambiguous attribute key"
  | .nullKey => "Null value as key"
  | .wrongKeyType => "Incorrect key type"
  | .attributeOfNull => "Attempt to get attribute from null value"
  | .unsupportedAttribute => "Unsupported attribute"
  | .missingMapElement => "Missing map element"
  | .indexOfNull => "Attempt to index null value"
  | .invalidIndex => "Invalid index"
  | .extraLabel block => s!"Extraneous label for {block}"
  | .missingLabel label block => s!"Missing {label} for {block}"
  | .unsupportedArgument => "Unsupported argument"
  | .unsupportedBlock => "Unsupported block type"
  | .unexpectedBlock block => s!"Unexpected {Text.quoted block} block"
  | .noValue => "Missing value"
  | .noJsonValue => "Missing JSON value"
  | .noArrayElement => "Missing array element value"
  | .invalidStart => "Invalid start of value"
  | .invalidPropertyName => "Invalid object property name"
  | .noObjectValue => "Missing object value"
  | .noColon => "Missing property value colon"
  | .trailingCommaInObject => "Trailing comma in object"
  | .trailingCommaInArray => "Trailing comma in array"
  | .unclosedObject => "Unclosed object"
  | .mismatchedBraces => "Mismatched braces"
  | .mismatchedBrackets => "Mismatched brackets"
  | .noComma => "Missing attribute seperator comma"
  | .invalidArrayValue => "Invalid array value"
  | .invalidJsonText => "Invalid JSON string"
  | .invalidJsonNumber => "Invalid JSON number"
  | .invalidJsonKeyword => "Invalid JSON keyword"
  | .extraData => "Extraneous data after value"
  | .rootNotObject => "Root value must be object"
  | .wrongJsonType => "Incorrect JSON value type"
  | .noBlockLabel => "Missing block label"
  | .extraProperty => "Extraneous JSON object property"
  | .duplicateAttribute => "Duplicate attribute definition"
  | .duplicateProperty => "Duplicate object attribute"

end CypherBlocks.Config
