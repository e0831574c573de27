import Logicless.Expr.Basic
import Logicless.Text.Quoted

/-!
# Reading expressions

An expression is read one character at a time by an automaton with a stack:

    expression := primary ( "." identifier | "(" expression ")" )*
    primary    := "." [ identifier ] | identifier

Blank characters are allowed around the whole expression and around an argument in parentheses,
and nowhere else.

## Shape of the module

* `Place` says what has been read of the innermost expression, and `Reader` adds the functions
  whose argument is still open, innermost first.
* `Reader.step` reads one character; `Reader.finish` ends the text. Both refuse with a `Refusal` at
  the first character that no expression could have there.
* `Expr.parse` runs the automaton. Blank text is told apart from malformed text, because some tags
  may be blank.
* `Parser` is a parser that is used for one text after another.
-/

namespace Logicless

@[simp]
theorem mapError_ok {ε ε' α : Type} (f : ε → ε') (value : α) :
    (.ok value : Except ε α).mapError f = .ok value :=
  rfl

@[simp]
theorem mapError_error {ε ε' α : Type} (f : ε → ε') (error : ε) :
    (.error error : Except ε α).mapError f = .error (f error) :=
  rfl

end Logicless

namespace Logicless.Expr

/-- Why a text stopped being the start of an expression. -/
inductive Refusal where
  /-- A character that cannot stand where it stands. -/
  | unexpectedCharacter (c : Char)
  /-- The text ended where an expression had to start. -/
  | unexpectedEnd
  /-- A dot after an expression was not followed by an identifier. -/
  | missingIdentifier
  /-- The argument of a filter was not followed by its closing parenthesis. -/
  | missingParenthesis
deriving DecidableEq, Repr

/-- The wording of a refusal. -/
def Refusal.message : Refusal → String
  | unexpectedCharacter c => "Unexpected character " ++ Text.quoted (String.singleton c)
  | unexpectedEnd => "Unexpected end"
  | missingIdentifier => "Missing identifier after '.'"
  | missingParenthesis => "Missing closing parenthesis"

/-- Why a text is no expression. -/
inductive ParseError where
  /-- The text is blank. -/
  | blank
  /-- The text is not blank; `source` is the text without the blank characters around it. -/
  | malformed (refusal : Refusal) (source : String)
deriving DecidableEq, Repr

/-- The wording of a parse error. -/
def ParseError.message : ParseError → String
  | blank => "Missing expression"
  | malformed refusal source => refusal.message ++ " in expression " ++ Text.quoted source

/-- A blank text, rather than a malformed one, was met. -/
def ParseError.isBlank : ParseError → Bool
  | blank => true
  | malformed _ _ => false

/-! ## The automaton -/

/-- What has been read of the innermost expression. Identifiers being read are held back to
front. -/
inductive Place where
  /-- Nothing: an expression has to start. -/
  | start
  /-- A leading dot, which an identifier may follow. -/
  | dot
  /-- Part of a leading identifier. -/
  | naming (word : List Char)
  /-- A complete expression and a dot, which an identifier has to follow. -/
  | selecting (base : Expr)
  /-- A complete expression, a dot and part of an identifier. -/
  | member (base : Expr) (word : List Char)
  /-- An expression that ended with a closing parenthesis. -/
  | closed (expression : Expr)
  /-- A complete expression and blank characters after it. -/
  | spaced (expression : Expr)
deriving DecidableEq, Repr

/-- The expression read so far, if what was read is one. -/
def Place.expression? : Place → Option Expr
  | start => none
  | dot => some .implicit
  | naming word => some (.identifier (String.ofList word.reverse))
  | selecting _ => none
  | member base word => some (.member base (String.ofList word.reverse))
  | closed expression => some expression
  | spaced expression => some expression

/-- The place after one more identifier character, where one may stand. -/
def Place.extend? (c : Char) : Place → Option Place
  | start => some (naming [c])
  | dot => some (member .implicit [c])
  | naming word => some (naming (c :: word))
  | selecting base => some (member base [c])
  | member base word => some (member base (c :: word))
  | closed _ => none
  | spaced _ => none

/-- The automaton's state. -/
structure Reader where
  /-- The functions whose argument is still open, innermost first. -/
  functions : List Expr
  /-- What has been read of the innermost expression. -/
  place : Place
deriving DecidableEq, Repr

namespace Reader

/-- Nothing has been read. -/
def initial : Reader :=
  ⟨[], .start⟩

/-- Why `c` is refused after a complete expression: inside parentheses they have to be closed. -/
def refusalAfter (functions : List Expr) (c : Char) : Refusal :=
  if functions.isEmpty then .unexpectedCharacter c else .missingParenthesis

/-- Reads a character that is no identifier character after the complete expression `e`. After
blank characters only the end of the expression may follow. -/
def operator (functions : List Expr) (e : Expr) (spaced : Bool) (c : Char) :
    Except Refusal Reader :=
  if Text.isBlank c then .ok ⟨functions, .spaced e⟩
  else match c, functions with
    | ')', function :: functions => .ok ⟨functions, .closed (.filtered function e)⟩
    | '.', _ => if spaced then .error (refusalAfter functions c) else .ok ⟨functions, .selecting e⟩
    | '(', _ => if spaced then .error (refusalAfter functions c) else .ok ⟨e :: functions, .start⟩
    | _, _ => .error (refusalAfter functions c)

/-- Reads one character. -/
def step (reader : Reader) (c : Char) : Except Refusal Reader :=
  if isIdentifierChar c then
    match reader.place.extend? c with
    | some place => .ok ⟨reader.functions, place⟩
    | none => .error (refusalAfter reader.functions c)
  else match reader.place with
    | .start =>
      if Text.isBlank c then .ok reader
      else if c = '.' then .ok ⟨reader.functions, .dot⟩
      else .error (.unexpectedCharacter c)
    | .selecting _ => .error .missingIdentifier
    | .dot => operator reader.functions .implicit false c
    | .naming word => operator reader.functions (.identifier (String.ofList word.reverse)) false c
    | .member base word =>
      operator reader.functions (.member base (String.ofList word.reverse)) false c
    | .closed e => operator reader.functions e false c
    | .spaced e => operator reader.functions e true c

/-- Ends the text: every parenthesis has to be closed and an expression complete. -/
def finish (reader : Reader) : Except Refusal Expr :=
  match reader.place, reader.place.expression?, reader.functions with
  | _, some e, [] => .ok e
  | _, some _, _ :: _ => .error .missingParenthesis
  | .selecting _, none, _ => .error .missingIdentifier
  | _, none, _ => .error .unexpectedEnd

/-- Reads a text to its end. A refusal comes with the characters that were not read. -/
def run (reader : Reader) : List Char → Except (Refusal × List Char) Expr
  | [] => reader.finish.mapError fun refusal => (refusal, [])
  | c :: cs =>
    match reader.step c with
    | .ok reader => reader.run cs
    | .error refusal => .error (refusal, c :: cs)

end Reader

/-- Reads an expression. -/
def parse (source : String) : Except ParseError Expr :=
  if source.toList.all Text.isBlank then .error .blank
  else (Reader.initial.run source.toList).mapError fun stop =>
    .malformed stop.1 (Text.trimmed source)

/-! ## Parsers that are used again -/

/-- A parser between two texts. It keeps the text that it was given last and its place in it. -/
structure Parser where
  /-- The text. -/
  source : String
  /-- The characters of the text that were not read. -/
  rest : List Char
deriving DecidableEq, Repr

namespace Parser

/-- A parser that was given no text yet. -/
def unused : Parser :=
  ⟨"", []⟩

/-- Reads the rest of the text as an expression. -/
def readRest (parser : Parser) : Except ParseError Expr × Parser :=
  match Reader.initial.run parser.rest with
  | .ok e => (.ok e, { parser with rest := [] })
  | .error (refusal, rest) =>
    (.error (.malformed refusal (Text.trimmed parser.source)), { parser with rest })

/-- Reads a text as an expression. A blank one is refused before the parser turns to it. -/
def parse (parser : Parser) (source : String) : Except ParseError Expr × Parser :=
  if source.toList.all Text.isBlank then (.error .blank, parser)
  else readRest ⟨source, source.toList⟩

/-- A parser answers as if it were used for the first time. -/
@[simp]
theorem parse_fst (parser : Parser) (source : String) :
    (parser.parse source).1 = Expr.parse source := by
  rw [parse, Expr.parse]
  split
  · rfl
  · rw [readRest]
    cases Reader.initial.run source.toList with
    | ok e => rfl
    | error stop => rfl

end Parser

end Logicless.Expr
