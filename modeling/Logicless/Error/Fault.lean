import Logicless.Error.Code
import Logicless.Expr.Parser
import Logicless.Name
import Logicless.Text.Resemblance

/-!
# Faults and failures

A fault is one thing that went wrong, given by its cause and not by its wording; `Fault.message`
words it. A failure is a fault together with the faults that led to it, the nearest first: a
template that cannot be compiled because of an included one fails with its own fault, and the fault
of the included template is the first of its causes.

## Shape of the module

* `LocatedFault` is a fault at a line of a template. It is the only kind that a compilation records.
* `Absence` says why a template was not found.
* `ScopeBreach` is a misuse of the stack of open tags.
* `Fault` collects all of them and `Failure` adds the causes.
-/

namespace Logicless

/-! ## Faults at a line of a template -/

/-- What is wrong at a line of a template. -/
inductive LocatedKind where
  /-- No particular kind. -/
  | general
  /-- The stream of tokens broke off. -/
  | tokenization
  /-- A tag holds a malformed expression. -/
  | expression
  /-- A closing tag does not close the innermost open tag. -/
  | unmatchedClose
  /-- The template ended inside a tag. -/
  | unclosed
  /-- A template or a block has an invalid name. -/
  | name
  /-- An included template could not be provided. -/
  | inclusion
deriving DecidableEq, Repr

/-- The code of a kind; the general kind has none. -/
def LocatedKind.code? : LocatedKind → Option ErrorCode
  | general => none
  | tokenization => some .tokenizationFailure
  | expression => some .expressionSyntax
  | unmatchedClose => some .unmatchedClosingTag
  | unclosed => some .unclosedTag
  | name => some .invalidName
  | inclusion => some .partialResolution

/-- The name of a kind in event messages. -/
def LocatedKind.label (kind : LocatedKind) : String :=
  match kind.code? with
  | some code => code.kindName
  | none => "TemplateSyntaxError"

/-- A fault at a line of a template. -/
structure LocatedFault where
  /-- What is wrong. -/
  kind : LocatedKind
  /-- The wording, without the place. -/
  detail : String
  /-- The line, if known. -/
  line : Option Int
  /-- The id of the template, if known. -/
  template : Option String
deriving DecidableEq, Repr

/-- The name of a template in messages; a template without an id, or with an empty one, is shown by
a placeholder. -/
def shownTemplate : Option String → String
  | none => "<template>"
  | some id => if id.isEmpty then "<template>" else id

/-- A line in messages; an unknown line, or line zero, is not shown. -/
def shownLine : Option Int → String
  | none => ""
  | some line => if line = 0 then "" else ":" ++ toString line

/-- The place of a fault. -/
def LocatedFault.location (fault : LocatedFault) : String :=
  shownTemplate fault.template ++ shownLine fault.line

/-- The wording of a fault with its place. -/
def LocatedFault.message (fault : LocatedFault) : String :=
  "Syntax Error: " ++ fault.detail ++ "\n  --> " ++ fault.location

/-! ## Templates that were not found -/

/-- Why a template was not found. -/
inductive Absence where
  /-- It is none of the templates `known`, which are in increasing order. -/
  | unlisted (id : String) (known : List String)
  /-- The source does not know it. -/
  | unknown (id : String)
  /-- None of several sources knows it. -/
  | everywhere (id : String) (sources : Nat)
  /-- The source words the absence itself. -/
  | stated (message : String)
deriving DecidableEq, Repr

/-- The number of known templates that an absence lists. -/
def listedTemplates : Nat :=
  10

/-- What a list of known templates adds to the wording: the template most alike to the wanted one,
or else the first few of the list. -/
def knownTemplatesHint (id : String) (known : List String) : String :=
  match Text.closest? id known, known with
  | some similar, _ => ". Did you mean '" ++ similar ++ "'?"
  | none, [] => ""
  | none, _ :: _ =>
    ". Available: " ++ ", ".intercalate (known.take listedTemplates) ++
      if known.length > listedTemplates then " ... (" ++ toString known.length ++ " total)" else ""

/-- The wording of an absence. -/
def Absence.message : Absence → String
  | unlisted id known => "Template '" ++ id ++ "' not found" ++ knownTemplatesHint id known
  | unknown id => "Template '" ++ id ++ "' not found"
  | everywhere id sources =>
    "Template '" ++ id ++ "' not found in any of " ++ toString sources ++ " token sources"
  | stated message => message

/-! ## Misuses of the stack of open tags -/

/-- A misuse of the stack of open tags. A compilation never causes one. -/
inductive ScopeBreach where
  /-- The scope of the whole template was to be closed. -/
  | rootPopped
  /-- A section without an expression was to be closed. -/
  | missingExpression
  /-- A block or layout without a name was to be closed. -/
  | missingName
deriving DecidableEq, Repr

/-- The wording of a breach. -/
def ScopeBreach.message : ScopeBreach → String
  | rootPopped => "The root scope cannot be popped"
  | missingExpression => "The section has no expression"
  | missingName => "The block or layout has no name"

/-! ## Faults and failures -/

/-- One thing that went wrong. -/
inductive Fault where
  /-- A fault at a line of a template. -/
  | located (fault : LocatedFault)
  /-- A template was not found. -/
  | notFound (absence : Absence)
  /-- A fault of templates without a particular kind. -/
  | general (message : String)
  /-- The content of a tag is no expression. -/
  | expression (error : Expr.ParseError)
  /-- The content of a tag is no name. -/
  | name (error : NameError)
  /-- A fault from outside, of a kind that goes by `label`. -/
  | foreign (label message : String)
  /-- A misuse of the stack of open tags. -/
  | scope (breach : ScopeBreach)
  /-- A template that is complete was to be completed again. -/
  | alreadyFilled
  /-- A choice of sources was made out of none. -/
  | noSources
  /-- Inclusions are nested deeper than there are templates. -/
  | tooDeep
deriving DecidableEq, Repr

/-- The wording of a fault. -/
def Fault.message : Fault → String
  | located fault => fault.message
  | notFound absence => absence.message
  | general message => message
  | expression error => error.message
  | name error => error.message
  | foreign _ message => message
  | scope breach => breach.message
  | alreadyFilled => "Only a placeholder TemplateAST can be updated"
  | noSources => "ChoiceTokenSource needs at least one token source"
  | tooDeep => "Inclusions are nested too deeply"

/-- The name of the kind of a fault that is none of templates. -/
def Fault.label? : Fault → Option String
  | located _ | notFound _ | general _ => none
  | expression _ => some "ExpressionParseError"
  | name _ => some "NameParseError"
  | foreign label _ => some label
  | scope _ => some "RuntimeError"
  | alreadyFilled | noSources => some "ValueError"
  | tooDeep => some "RecursionError"

/-- The code of a fault, if it has one. -/
def Fault.code? : Fault → Option ErrorCode
  | located fault => fault.kind.code?
  | notFound _ => some .templateNotFound
  | _ => none

/-- The fault is that a stream of tokens broke off. -/
def Fault.isTokenization : Fault → Bool
  | located fault => fault.kind = .tokenization
  | _ => false

/-- The fault is that a template was not found. -/
def Fault.isAbsence : Fault → Bool
  | notFound _ => true
  | _ => false

/-- A fault and what led to it. -/
structure Failure where
  /-- The fault. -/
  fault : Fault
  /-- The faults that led to it, the nearest first. -/
  causes : List Fault
deriving DecidableEq, Repr

/-- A fault that nothing led to. -/
def Fault.alone (fault : Fault) : Failure :=
  ⟨fault, []⟩

/-- All faults of a failure, the outermost first. -/
def Failure.faults (failure : Failure) : List Fault :=
  failure.fault :: failure.causes

/-- A failure whose fault is at a line of a template. -/
structure LocatedFailure where
  /-- The fault. -/
  fault : LocatedFault
  /-- The faults that led to it, the nearest first. -/
  causes : List Fault
deriving DecidableEq, Repr

/-- A located failure as a failure. -/
def LocatedFailure.toFailure (failure : LocatedFailure) : Failure :=
  ⟨.located failure.fault, failure.causes⟩

/-- A failure whose fault is at a line of a template, as such. -/
def Failure.located? (failure : Failure) : Option LocatedFailure :=
  match failure.fault with
  | .located fault => some ⟨fault, failure.causes⟩
  | _ => none

end Logicless
