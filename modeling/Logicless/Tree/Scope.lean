import Logicless.Error.Fault
import Logicless.Token
import Logicless.Tree.Basic

/-!
# Open tags

While a template is compiled, every open tag has a scope, which collects the nodes of its body. The
scopes form a stack above the scope of the whole template, which is never popped.

## Shape of the module

* `Scope` is an open tag with the nodes of its body so far.
* `ScopeStack` is the stack. Its innermost scope always exists, so `ScopeStack.pop` fails on the
  last scope and on nothing else.
* `Scope.toBranch`, `toBlock` and `toLayout` are the nodes that closed tags become.
-/

namespace Logicless

/-- The tags that open a scope, and the whole template. -/
inductive Scope.Kind where
  /-- The whole template. -/
  | root
  /-- A section. -/
  | branch
  /-- An inverted section. -/
  | inverted
  /-- A layout. -/
  | layout
  /-- A block. -/
  | block
deriving DecidableEq, Repr

namespace Scope.Kind

/-- All kinds. -/
def all : List Scope.Kind :=
  [root, branch, inverted, layout, block]

/-- The word that names a kind. -/
def word : Scope.Kind → String
  | root => "root"
  | branch => "section"
  | inverted => "inverted_section"
  | layout => "inheritable_partial"
  | block => "inheritable_section"

/-- The kind that a word names. -/
def named? (word : String) : Option Scope.Kind :=
  all.find? fun kind => kind.word = word

end Scope.Kind

/-- An open tag and the nodes of its body so far. -/
structure Scope (ρ : Type) where
  /-- The tag that opened the scope. -/
  kind : Scope.Kind
  /-- The token that opened the scope; the whole template has none. -/
  opening : Option Token := none
  /-- The expression of a section. -/
  expression : Option Expr := none
  /-- The name of a block, or of a layout's template. -/
  name : Option String := none
  /-- The nodes of the body so far, in order. -/
  nodes : List (Node Unit ρ) := []

namespace Scope

variable {ρ : Type}

/-- The line of the opening token; zero for the whole template. -/
def line (scope : Scope ρ) : Int :=
  match scope.opening with
  | some token => token.line
  | none => 0

/-- A scope with one more node. -/
def append (scope : Scope ρ) (node : Node Unit ρ) : Scope ρ :=
  { scope with nodes := scope.nodes ++ [node] }

/-- The body that a scope has collected. -/
def body (contentType : ContentType) (scope : Scope ρ) : Template Unit ρ :=
  ⟨(), contentType, scope.nodes⟩

/-- The node that a closed section becomes. -/
def toBranch (contentType : ContentType) (scope : Scope ρ) : Except ScopeBreach (Node Unit ρ) :=
  match scope.expression with
  | some expression =>
    .ok (.branch scope.line expression (scope.kind = .inverted) (scope.body contentType))
  | none => .error .missingExpression

/-- The node that a closed block becomes. -/
def toBlock (contentType : ContentType) (scope : Scope ρ) : Except ScopeBreach (Node Unit ρ) :=
  match scope.name with
  | some name => .ok (.block ⟨(), scope.line, name, scope.body contentType⟩)
  | none => .error .missingName

/-- The node that a closed layout becomes, given its template's name and what stands for it. -/
def toLayout (contentType : ContentType) (scope : Scope ρ) (name : String) (target : ρ) :
    Node Unit ρ :=
  .layout ⟨scope.line, ⟨scope.line, name, target⟩, scope.body contentType⟩

end Scope

/-- The stack of open tags. -/
structure ScopeStack (ρ : Type) where
  /-- The innermost scope. -/
  current : Scope ρ
  /-- The scopes around it, the nearest first. -/
  enclosing : List (Scope ρ)

namespace ScopeStack

variable {ρ : Type}

/-- The stack without open tags. -/
def initial : ScopeStack ρ :=
  ⟨{ kind := .root }, []⟩

/-- The number of scopes, the whole template included. -/
def depth (stack : ScopeStack ρ) : Nat :=
  stack.enclosing.length + 1

/-- All scopes, the whole template first. -/
def scopes (stack : ScopeStack ρ) : List (Scope ρ) :=
  (stack.current :: stack.enclosing).reverse

/-- Opens a scope. -/
def push (stack : ScopeStack ρ) (scope : Scope ρ) : ScopeStack ρ :=
  ⟨scope, stack.current :: stack.enclosing⟩

/-- Closes the innermost scope and returns it with the scopes below. The last scope stays. -/
def pop (stack : ScopeStack ρ) : Except ScopeBreach (Scope ρ × ScopeStack ρ) :=
  match stack.enclosing with
  | [] => .error .rootPopped
  | below :: enclosing => .ok (stack.current, ⟨below, enclosing⟩)

/-- Appends a node to the innermost scope. -/
def append (stack : ScopeStack ρ) (node : Node Unit ρ) : ScopeStack ρ :=
  ⟨stack.current.append node, stack.enclosing⟩

/-- Closes the innermost scope and appends the node that it becomes to the scope below. -/
def collapse (stack : ScopeStack ρ) (toNode : Scope ρ → Except ScopeBreach (Node Unit ρ)) :
    Except ScopeBreach (ScopeStack ρ) := do
  let (scope, below) ← stack.pop
  return below.append (← toNode scope)

end ScopeStack

end Logicless
