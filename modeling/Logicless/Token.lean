import Logicless.Text.Quoted

/-!
# Tokens

A template arrives as a stream of tokens: pieces of text and tags. Each token knows the line where
it starts and may know the template that it comes from.

## Shape of the module

* `TokenKind` lists the kinds of tokens, with the word and the constant that name them.
* `Token` is a token and `Token.inspect` shows one to a developer.
-/

namespace Logicless

/-- The kinds of tokens. -/
inductive TokenKind where
  /-- A tag that changes the delimiters of tags: `{{=<% %>=}}`. -/
  | setDelimiters
  /-- A comment: `{{! … }}`. -/
  | comment
  /-- A pragma: `{{% … }}`. -/
  | pragma
  /-- Text between tags. -/
  | text
  /-- A variable whose value is escaped: `{{ x }}`. -/
  | escapedVariable
  /-- A variable whose value is not escaped: `{{{ x }}}` or `{{& x }}`. -/
  | unescapedVariable
  /-- The start of a section: `{{# x }}`. -/
  | openSection
  /-- The start of an inverted section: `{{^ x }}`. -/
  | openInverted
  /-- The start of a block: `{{$ x }}`. -/
  | openBlock
  /-- The start of a layout: `{{< x }}`. -/
  | openLayout
  /-- The end of a section, block or layout: `{{/ x }}`. -/
  | close
  /-- The inclusion of a template: `{{> x }}`. -/
  | inclusion
deriving DecidableEq, Repr

namespace TokenKind

/-- All kinds. -/
def all : List TokenKind :=
  [setDelimiters, comment, pragma, text, escapedVariable, unescapedVariable, openSection,
   openInverted, openBlock, openLayout, close, inclusion]

/-- The word that names a kind in streams of tokens. -/
def word : TokenKind → String
  | setDelimiters => "set_delimiters"
  | comment => "comment"
  | pragma => "pragma"
  | text => "text"
  | escapedVariable => "escaped_variable"
  | unescapedVariable => "unescaped_variable"
  | openSection => "section"
  | openInverted => "inverted_section"
  | openBlock => "inheritable_section"
  | openLayout => "inheritable_partial"
  | close => "close"
  | inclusion => "partial"

/-- The kind that a word names. -/
def named? (word : String) : Option TokenKind :=
  all.find? fun kind => kind.word = word

/-- The constant that names a kind when a token is shown. -/
def constantName (kind : TokenKind) : String :=
  kind.word.toUpper

end TokenKind

/-- A token of a template. -/
structure Token where
  /-- The kind. -/
  kind : TokenKind
  /-- The text, or the content of the tag. -/
  content : String
  /-- The line where the token starts. -/
  line : Int
  /-- The id of the template that the token comes from, if known. -/
  template : Option String
deriving DecidableEq, Repr

/-- A token as it is shown to a developer. -/
def Token.inspect (token : Token) : String :=
  "TemplateToken(" ++ token.kind.constantName ++ ", " ++ Text.quoted token.content ++ ", line=" ++
    toString token.line ++ ")"

end Logicless
