/-!
# What can be wrong with a YAML text
-/

namespace SymSolve.Yaml

/-- Why a scalar does not have a value of the kind that its tag asks for. -/
inductive ValueFault where
  /-- It cannot be read as a number, a date or a character. -/
  | unreadable
  /-- It is empty where a number has to be. -/
  | empty
  /-- It is none of the words for truth values. -/
  | unknownWord
  /-- It does not have the form of a date. -/
  | notDate
  /-- It is a collection where a date has to be. -/
  | collection
  /-- It stands for a number that is too large. -/
  | tooLarge
  /-- It refers to itself. -/
  | endless
  deriving DecidableEq, Repr

/-- What can be wrong with a text. -/
inductive Fault where
  /-- A character that no text may hold. -/
  | character
  /-- Characters that make up no token. -/
  | token
  /-- A token where its indentation or its line does not allow it. -/
  | layout
  /-- Tokens that make up no document. -/
  | arrangement
  /-- An anchor that is set twice, or an alias of none. -/
  | reference
  /-- More than one document. -/
  | documents
  /-- A tag that is not known, or that does not fit what it stands at. -/
  | tag
  /-- A collection as the key of a mapping. -/
  | key
  /-- A scalar without a value. -/
  | value (cause : ValueFault)
  deriving DecidableEq, Repr

/-- The text of a fault in a scalar. -/
def ValueFault.text : ValueFault → String
  | unreadable => "a value cannot be read"
  | empty => "a value is empty"
  | unknownWord => "a word is no truth value"
  | notDate => "a value is no date"
  | collection => "a collection is no date"
  | tooLarge => "a number is too large"
  | endless => "a value refers to itself"

/-- The text of a fault. -/
def Fault.text : Fault → String
  | character => "a character is not allowed"
  | token => "characters make up no token"
  | layout => "a token stands where its indentation or its line does not allow it"
  | arrangement => "tokens make up no document"
  | reference => "an anchor is set twice, or an alias refers to none"
  | documents => "there is more than one document"
  | tag => "a tag is not known or does not fit"
  | key => "a key is a collection"
  | value cause => cause.text

end SymSolve.Yaml
