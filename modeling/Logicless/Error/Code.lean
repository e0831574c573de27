/-!
# Error codes

Every kind of error that a template can cause has a searchable code, made of the area of the
error and a number. The code is the stable name of the kind; the wording of a message is not.

## Shape of the module

* `ErrorCode` lists the kinds and `ErrorCode.all` gives them in order.
* `ErrorCode.text`, `constantName`, `kindName`, `category` and `link` are what is shown of a code.
-/

namespace Logicless

/-- The kinds of errors that have a code. -/
inductive ErrorCode where
  /-- The stream of tokens broke off. -/
  | tokenizationFailure
  /-- A tag holds a malformed expression. -/
  | expressionSyntax
  /-- A closing tag does not close the innermost open tag. -/
  | unmatchedClosingTag
  /-- The template ended inside a tag. -/
  | unclosedTag
  /-- A template or a block has an invalid name. -/
  | invalidName
  /-- No source knows the template. -/
  | templateNotFound
  /-- An included template could not be provided. -/
  | partialResolution
deriving DecidableEq, Repr

/-- The area that an error comes from. -/
inductive ErrorArea where
  | tokens
  | compiler
  | templates
deriving DecidableEq, Repr

namespace ErrorCode

/-- All codes in order. -/
def all : List ErrorCode :=
  [tokenizationFailure, expressionSyntax, unmatchedClosingTag, unclosedTag, invalidName,
   templateNotFound, partialResolution]

/-- The area of a code. -/
def area : ErrorCode → ErrorArea
  | tokenizationFailure => .tokens
  | expressionSyntax | unmatchedClosingTag | unclosedTag | invalidName => .compiler
  | templateNotFound | partialResolution => .templates

/-- The number of a code within its area. -/
def number : ErrorCode → String
  | tokenizationFailure | expressionSyntax | templateNotFound => "001"
  | unmatchedClosingTag | partialResolution => "002"
  | unclosedTag => "003"
  | invalidName => "004"

/-- The three letters of an area. -/
def areaLetters : ErrorArea → String
  | .tokens => "LEX"
  | .compiler => "PAR"
  | .templates => "TPL"

/-- The three letters of an area in lower case, as they stand in links. -/
def areaAnchor : ErrorArea → String
  | .tokens => "lex"
  | .compiler => "par"
  | .templates => "tpl"

/-- The word for the area of a code. -/
def category (code : ErrorCode) : String :=
  match code.area with
  | .tokens => "lexer"
  | .compiler => "compiler"
  | .templates => "template"

/-- The code as it is shown. -/
def text (code : ErrorCode) : String :=
  "S-" ++ areaLetters code.area ++ "-" ++ code.number

/-- The words of a kind's name. -/
def words : ErrorCode → List String
  | tokenizationFailure => ["Tokenization", "Failure"]
  | expressionSyntax => ["Expression", "Syntax", "Error"]
  | unmatchedClosingTag => ["Unmatched", "Closing", "Tag"]
  | unclosedTag => ["Unclosed", "Tag"]
  | invalidName => ["Invalid", "Name"]
  | templateNotFound => ["Template", "Not", "Found"]
  | partialResolution => ["Partial", "Resolution", "Error"]

/-- The name of a kind as one capitalized word. -/
def kindName (code : ErrorCode) : String :=
  String.join code.words

/-- The name of a kind as a constant: upper-case words between underscores. -/
def constantName (code : ErrorCode) : String :=
  "_".intercalate (code.words.map String.toUpper)

/-- The page that explains all codes. -/
def explanations : String :=
  "https://stache.readthedocs.io/en/latest/errors"

/-- The place on `explanations` that explains a code. -/
def link (code : ErrorCode) : String :=
  explanations ++ "/#s-" ++ areaAnchor code.area ++ "-" ++ code.number

end ErrorCode

end Logicless
