import Logicless.Tree.Scope

/-!
# The effect of one token

How a token changes the stack of open tags. No included template is loaded here: where a tag needs
one, the move says which, and what the stack becomes once the template is there.

A section tag directly inside a section of the opposite polarity, with the same expression or with
blank content, does not open a section inside it. It closes that section and opens its alternative
on the same expression.

## Shape of the module

* `Setting` is what a compilation is told from outside; `cite` places a fault at a token.
* `Move` is the effect of a token and `ScopeStack.move` computes it, by a function for each kind of
  tag.
-/

namespace Logicless

/-- What a compilation is told from outside. -/
structure Setting where
  /-- The content type of all bodies. -/
  contentType : ContentType
  /-- The id of the template, if it has one. -/
  template : Option String
deriving DecidableEq, Repr

/-- The id that a fault cites: the one of its token, or else the one of the template. An empty id of
a token counts as none. -/
def citedTemplate (own template : Option String) : Option String :=
  match own with
  | some id => if id.isEmpty then template else some id
  | none => template

/-- A fault at the place of a token. -/
def Setting.cite (setting : Setting) (token : Option Token) (kind : LocatedKind)
    (detail : String) : LocatedFault :=
  ⟨kind, detail, token.map Token.line, citedTemplate (token.bind Token.template) setting.template⟩

/-- The effect of one token on the stack of open tags. -/
inductive Move (ρ : Type) where
  /-- The stack changes. -/
  | proceed (stack : ScopeStack ρ)
  /-- The token is not accepted. -/
  | refuse (failure : LocatedFailure)
  /-- The template `name` has to be loaded; a failure to do so is placed at the token `citing`. -/
  | load (name : String) (citing : Option Token) (resume : ρ → ScopeStack ρ)
  /-- The stack cannot take the token. -/
  | breach (breach : ScopeBreach)

namespace Move

variable {ρ : Type}

/-- The move to a stack, unless reaching it is a misuse. -/
def ofStack : Except ScopeBreach (ScopeStack ρ) → Move ρ
  | .ok stack => proceed stack
  | .error fault => breach fault

/-- Goes on with the value of a step that may refuse the token. -/
def andThen {α : Type} (value : Except LocatedFailure α) (next : α → Move ρ) : Move ρ :=
  match value with
  | .ok value => next value
  | .error failure => refuse failure

end Move

/-! ## The content of tags -/

namespace Setting

/-- The expression in a tag. -/
def readExpression (setting : Setting) (token : Token) : Except LocatedFailure Expr :=
  (Expr.parse token.content).mapError fun error =>
    ⟨setting.cite (some token) .expression error.message, [.expression error]⟩

/-- The expression in a tag that may be blank. -/
def readOptionalExpression (setting : Setting) (token : Token) :
    Except LocatedFailure (Option Expr) :=
  match Expr.parse token.content with
  | .ok expression => .ok (some expression)
  | .error error =>
    if error.isBlank then .ok none
    else .error ⟨setting.cite (some token) .expression error.message, [.expression error]⟩

/-- The name in a tag. -/
def readName (setting : Setting) (role : NameRole) (token : Token) :
    Except LocatedFailure String :=
  (parseName role token.content).mapError fun error =>
    ⟨setting.cite (some token) .name error.message, [.name error]⟩

/-- The name in a tag that may be blank. -/
def readOptionalName (setting : Setting) (role : NameRole) (token : Token) :
    Except LocatedFailure (Option String) :=
  match parseName role token.content with
  | .ok name => .ok (some name)
  | .error error =>
    if error.isBlank then .ok none
    else .error ⟨setting.cite (some token) .name error.message, [.name error]⟩

end Setting

/-! ## The tags -/

namespace ScopeStack

variable {ρ : Type}

/-- The refusal of a closing tag that does not close the innermost open tag. -/
def unmatched (setting : Setting) (token : Token) : Move ρ :=
  .refuse ⟨setting.cite (some token) .unmatchedClose "Unmatched closing tag", []⟩

/-- A variable. -/
def moveVariable (setting : Setting) (stack : ScopeStack ρ) (token : Token) (escape : Bool) :
    Move ρ :=
  .andThen (setting.readExpression token) fun expression =>
    .proceed (stack.append (.interpolation token.line expression escape))

/-- A section tag of kind `kind` continues the innermost scope as its alternative if that scope is a
section of the kind `opposite`, and the content of the tag is blank or its expression. -/
def continues (stack : ScopeStack ρ) (opposite : Scope.Kind) (content : Option Expr) : Bool :=
  stack.current.kind = opposite && (content.isNone || content = stack.current.expression)

/-- A section, an inverted section or an alternative, of the kind `kind`. -/
def moveSection (setting : Setting) (stack : ScopeStack ρ) (token : Token)
    (kind opposite : Scope.Kind) : Move ρ :=
  .andThen (setting.readOptionalExpression token) fun content =>
    if stack.continues opposite content then
      let alternative : Scope ρ :=
        { kind := kind, opening := some token, expression := stack.current.expression }
      .ofStack do
        let below ← stack.collapse (Scope.toBranch setting.contentType)
        return below.push alternative
    else match content with
      | some expression =>
        .proceed (stack.push
          { kind := kind, opening := some token, expression := some expression })
      | none => .refuse ⟨setting.cite (some token) .expression "Missing expression", []⟩

/-- A block or a layout. -/
def moveNamed (setting : Setting) (stack : ScopeStack ρ) (token : Token) (kind : Scope.Kind)
    (role : NameRole) : Move ρ :=
  .andThen (setting.readName role token) fun name =>
    .proceed (stack.push { kind := kind, opening := some token, name := some name })

/-- An inclusion. -/
def moveInclusion (setting : Setting) (stack : ScopeStack ρ) (token : Token) : Move ρ :=
  .andThen (setting.readName .template token) fun name =>
    .load name (some token) fun target => stack.append (.inclusion ⟨token.line, name, target⟩)

/-- The end of a section. -/
def closeBranch (setting : Setting) (stack : ScopeStack ρ) (token : Token) : Move ρ :=
  .andThen (setting.readOptionalExpression token) fun content =>
    if content.isNone || content = stack.current.expression then
      .ofStack (stack.collapse (Scope.toBranch setting.contentType))
    else unmatched setting token

/-- The end of a block. -/
def closeBlock (setting : Setting) (stack : ScopeStack ρ) (token : Token) : Move ρ :=
  .andThen (setting.readOptionalName .block token) fun content =>
    if content.isNone || content = stack.current.name then
      .ofStack (stack.collapse (Scope.toBlock setting.contentType))
    else unmatched setting token

/-- The end of a layout. Its template is loaded now, and a failure to do so is placed at the tag
that opened the layout. -/
def closeLayout (setting : Setting) (stack : ScopeStack ρ) (token : Token) : Move ρ :=
  .andThen (setting.readOptionalName .template token) fun content =>
    if content.isNone || content = stack.current.name then
      match stack.current.name, stack.pop with
      | _, .error fault => .breach fault
      | none, .ok _ => .breach .missingName
      | some name, .ok (scope, below) =>
        .load name scope.opening fun target =>
          below.append (scope.toLayout setting.contentType name target)
    else unmatched setting token

/-- A closing tag. -/
def moveClose (setting : Setting) (stack : ScopeStack ρ) (token : Token) : Move ρ :=
  match stack.current.kind with
  | .root => unmatched setting token
  | .branch | .inverted => stack.closeBranch setting token
  | .layout => stack.closeLayout setting token
  | .block => stack.closeBlock setting token

/-- The effect of a token. -/
def move (setting : Setting) (stack : ScopeStack ρ) (token : Token) : Move ρ :=
  match token.kind with
  | .setDelimiters | .comment | .pragma => .proceed stack
  | .text => .proceed (stack.append (.text token.line token.content))
  | .escapedVariable => stack.moveVariable setting token true
  | .unescapedVariable => stack.moveVariable setting token false
  | .openSection => stack.moveSection setting token .branch .inverted
  | .openInverted => stack.moveSection setting token .inverted .branch
  | .openBlock => stack.moveNamed setting token .block .block
  | .openLayout => stack.moveNamed setting token .layout .template
  | .close => stack.moveClose setting token
  | .inclusion => stack.moveInclusion setting token

end ScopeStack

end Logicless
