/-!
# Pattern errors

Why a text is no pattern. An error is never taken for "no match": every
question that consults the pattern fails with it.
-/

set_option autoImplicit false

namespace ClassPolicy

inductive PatternFault
  | missingTypeName
  | illegalCharacter (c : Char)
  | emptySegment
  | missingParameterList
  | openParameterList
  | missingMemberName
  | missingReturnType
  | unqualifiedMember
  | unknownModifier (word : String)
  | illegalNameCharacter (c : Char)
  | emptyParameter
  | tooLarge (limit : Nat)
deriving DecidableEq, Repr

inductive PatternError
  | empty
  | malformed (pattern : String) (fault : PatternFault)
deriving DecidableEq, Repr

def PatternFault.message : PatternFault → String
  | .missingTypeName => "missing type name"
  | .illegalCharacter c => "illegal character `" ++ c.toString ++ "`"
  | .emptySegment => "empty name segment"
  | .missingParameterList => "missing parameter list"
  | .openParameterList => "parameter list must close the pattern"
  | .missingMemberName => "missing member name"
  | .missingReturnType => "missing return type"
  | .unqualifiedMember => "member name must be qualified by a type"
  | .unknownModifier word => "unknown modifier `" ++ word ++ "`"
  | .illegalNameCharacter c => "illegal character `" ++ c.toString ++ "` in member name"
  | .emptyParameter => "empty parameter"
  | .tooLarge limit =>
    "Compiled regex exceeds size limit of " ++ toString limit ++ " bytes."

def PatternError.message : PatternError → String
  | .empty => "empty pattern"
  | .malformed pattern fault => "malformed pattern `" ++ pattern ++ "`: " ++ fault.message

end ClassPolicy
