/-! # Pattern errors

Why a text is not a pattern.
-/

namespace VirtualShell

inductive PatternError
  | tooMuchNesting
  | duplicateGroupName
  | unclosedGroup
  | unclosedGroupQuestion
  | unopenedGroup
  | lookAround
  | emptyFlags
  | missingGroupName
  | invalidGroupName
  | unclosedGroupName
  | emptyGroupName
  | unrecognizedFlag
  | repeatedNegation
  | duplicateFlag
  | unclosedFlags
  | danglingNegation
  | decimalWithoutDigits
  | decimalTooLarge
  | hexBracesBadDigit
  | hexBracesUnclosed
  | hexBracesEmpty
  | hexBracesInvalid
  | hexFixedUnfinished
  | hexFixedBadDigit
  | hexFixedInvalid
  | hexUnfinished
  | escapeUnfinished
  | backreference
  | unicodeClass
  | unrecognizedEscape
  | nothingToRepeat
  | nothingToCount
  | countUnclosed
  | countUnclosedAfterMin
  | countUnclosedAfterComma
  | countUnclosedAfterMax
  | countInvalid
  | countOutOfOrder
  | classUnclosedAfterItem
  | classRangeNotChars
  | classInvalidItem
  | classUnclosedAfterDash
  | classUnclosedAfterNegation
  | classUnclosedAfterClosing
  | classRangeOutOfOrder
  | classUnclosed
  | classNested
  | classIntersection
  | classDifference
  | classSymmetricDifference
  | boundaryUnclosed
  | boundaryUnrecognized
  | boundaryUnfinished
  | tooLarge
deriving DecidableEq, Repr

def PatternError.reason : PatternError → String
  | tooMuchNesting => "pattern has too much nesting"
  | duplicateGroupName => "duplicate capture group name"
  | unclosedGroup => "found open group without closing ')'"
  | unclosedGroupQuestion => "expected closing ')', but got end of pattern"
  | unopenedGroup => "found closing ')' without matching '('"
  | lookAround => "look-around is not supported"
  | emptyFlags => "empty flag directive '(?)' is not allowed"
  | missingGroupName => "expected capture group name, but got end of pattern"
  | invalidGroupName => "invalid group name"
  | unclosedGroupName => "expected end of capture group name, but got end of pattern"
  | emptyGroupName => "empty capture group names are not allowed"
  | unrecognizedFlag => "unrecognized inline flag"
  | repeatedNegation => "inline flag negation cannot be repeated"
  | duplicateFlag => "duplicate inline flag is not allowed"
  | unclosedFlags => "expected ':' or ')' to end inline flags, but got end of pattern"
  | danglingNegation => "inline flags cannot end with negation directive"
  | decimalWithoutDigits => "expected decimal number, but found no digits"
  | decimalTooLarge => "got invalid decimal number"
  | hexBracesBadDigit => "expected hexadecimal number in braces, but got non-hex digit"
  | hexBracesUnclosed => "expected hexadecimal number, but saw end of pattern before closing brace"
  | hexBracesEmpty => "expected hexadecimal number in braces, but got no digits"
  | hexBracesInvalid => "got invalid hexadecimal number in braces"
  | hexFixedUnfinished => "expected fixed length hexadecimal number, but saw end of pattern first"
  | hexFixedBadDigit => "expected fixed length hexadecimal number, but got non-hex digit"
  | hexFixedInvalid => "got invalid fixed length hexadecimal number"
  | hexUnfinished => "expected hexadecimal number, but saw end of pattern first"
  | escapeUnfinished => "saw start of escape sequence, but saw end of pattern before it finished"
  | backreference => "backreferences are not supported"
  | unicodeClass => "Unicode character classes are not supported"
  | unrecognizedEscape => "unrecognized escape sequence"
  | nothingToRepeat => "uncounted repetition operator must be applied to a sub-expression"
  | nothingToCount => "counted repetition operator must be applied to a sub-expression"
  | countUnclosed => "found unclosed counted repetition operator"
  | countUnclosedAfterMin => "found incomplete and unclosed counted repetition operator"
  | countUnclosedAfterComma => "found counted repetition operator with a comma that is unclosed"
  | countUnclosedAfterMax => "found counted repetition with min and max that is unclosed"
  | countInvalid => "expected closing brace for counted repetition, but got something else"
  | countOutOfOrder => "found counted repetition with a min bigger than its max"
  | classUnclosedAfterItem => "non-empty character class has no closing bracket"
  | classRangeNotChars => "character class ranges must start and end with a single character"
  | classInvalidItem => "invalid escape sequence in character class"
  | classUnclosedAfterDash => "non-empty character class has no closing bracket after dash"
  | classUnclosedAfterNegation => "negated character class has no closing bracket"
  | classUnclosedAfterClosing => "character class begins with literal ']' but has no closing bracket"
  | classRangeOutOfOrder => "invalid range in character class"
  | classUnclosed => "found unclosed character class"
  | classNested => "nested character classes are not supported"
  | classIntersection => "character class intersection is not supported"
  | classDifference => "character class difference is not supported"
  | classSymmetricDifference => "character class symmetric difference is not supported"
  | boundaryUnclosed => "special word boundary assertion is unclosed or has an invalid character"
  | boundaryUnrecognized => "special word boundary assertion is unrecognized"
  | boundaryUnfinished => "found start of special word boundary or repetition without an end"
  | tooLarge => "compiled regex exceeded size limit"

end VirtualShell
