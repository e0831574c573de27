import Logicless.ContentType
import Logicless.Expr.Basic

/-!
# Template trees

A compiled template is a tree of nodes. Sections, blocks and layouts have a body, which is a part of
the tree; an inclusion refers to another template, and templates may include each other in cycles.

## Shape of the module

Trees have two parameters:

* `ρ` is what stands for an included template. As an inclusion holds a `ρ` and no tree, trees are
  finite even where templates include themselves.
* `μ` is the type of marks. Blocks and bodies carry one, so that those of a compiled template can be
  told apart even when they look the same. The compiler builds trees with marks of type `Unit`;
  the store of a repository gives out the others.

A body is `Body μ ν` over its type `ν` of nodes, and likewise for `Block` and `Layout`; `Node` ties
the knot. `Template` is the body of a whole template.
-/

namespace Logicless

/-- A sequence of nodes that is rendered as one, with its content type. -/
structure Body (μ ν : Type) where
  /-- Tells the body apart from others with the same nodes. -/
  mark : μ
  /-- Whether values are escaped. -/
  contentType : ContentType
  /-- The nodes in order. -/
  nodes : List ν
deriving Inhabited

/-- A reference to another template. -/
structure Inclusion (ρ : Type) where
  /-- The line of the tag. -/
  line : Int
  /-- The name by which the template is referred to. -/
  name : String
  /-- The template. -/
  target : ρ
deriving DecidableEq, Repr

/-- A named part of a template that layouts around it may override. -/
structure Block (μ ν : Type) where
  /-- Tells the block apart from others that look the same. -/
  mark : μ
  /-- The line of the opening tag. -/
  line : Int
  /-- The name under which the block is overridden. -/
  name : String
  /-- What is rendered unless the block is overridden. -/
  body : Body μ ν

/-- A reference to another template together with blocks that override blocks of it. -/
structure Layout (μ ρ ν : Type) where
  /-- The line of the opening tag. -/
  line : Int
  /-- The reference. -/
  inclusion : Inclusion ρ
  /-- The blocks among these nodes, and those that nested layouts supply, are the overrides. -/
  overrides : Body μ ν

/-- A node of a template. -/
inductive Node (μ ρ : Type) where
  /-- Text between tags. -/
  | text (line : Int) (text : String)
  /-- The value of an expression. -/
  | interpolation (line : Int) (expression : Expr) (escape : Bool)
  /-- A section, or an inverted section. -/
  | branch (line : Int) (expression : Expr) (inverted : Bool) (body : Body μ (Node μ ρ))
  /-- Another template. -/
  | inclusion (inclusion : Inclusion ρ)
  /-- A part that may be overridden. -/
  | block (block : Block μ (Node μ ρ))
  /-- Another template with overrides. -/
  | layout (layout : Layout μ ρ (Node μ ρ))

/-- The empty text. -/
instance {μ ρ : Type} : Inhabited (Node μ ρ) :=
  ⟨.text 0 ""⟩

/-- The body of a whole template. -/
abbrev Template (μ ρ : Type) : Type :=
  Body μ (Node μ ρ)

/-- The line of the tag that a node comes from. -/
def Node.line {μ ρ : Type} : Node μ ρ → Int
  | text line _ => line
  | interpolation line _ _ => line
  | branch line _ _ _ => line
  | inclusion reference => reference.line
  | block part => part.line
  | layout outer => outer.line

/-- Inclusions are alike when they have the same name and the same target. -/
def Inclusion.alike {ρ : Type} [DecidableEq ρ] (a b : Inclusion ρ) : Bool :=
  a.name = b.name && a.target = b.target

/-- Nodes are alike when they agree in everything but lines and the marks of blocks. Bodies are
compared by their marks, and so count as one only if they are the same part of a tree. -/
def Node.alike {μ ρ : Type} [DecidableEq μ] [DecidableEq ρ] : Node μ ρ → Node μ ρ → Bool
  | text _ a, text _ b => a = b
  | interpolation _ e escape, interpolation _ e' escape' => e = e' && escape = escape'
  | branch _ e inverted body, branch _ e' inverted' body' =>
    e = e' && inverted = inverted' && body.mark = body'.mark
  | inclusion a, inclusion b => a.alike b
  | block a, block b => a.name = b.name && a.body.mark = b.body.mark
  | layout a, layout b => a.inclusion.alike b.inclusion && a.overrides.mark = b.overrides.mark
  | _, _ => false

end Logicless
