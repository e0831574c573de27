import Logicless.Render.Value
import Logicless.Tree.Basic

/-!
# Contexts

A context is the chain of values and layouts around a place of a template, the innermost first.
Entering a section pushes its value and entering a layout pushes the layout; identifiers are looked
up in the values, and blocks ask the layouts for their override. The values are those of any domain.

## Shape of the module

* `Frame` is a link of the chain and `Context` the chain. The empty chain is the root.
* `Context.current`, `lookup` and `evaluate` depend on the value frames alone.
* `Layout.override` finds the override of a block in one layout and `Context.override` in a chain;
  they depend on the layout frames alone.
-/

namespace Logicless

variable {ε : Type}

/-- A link of a chain. -/
inductive Frame (D : Domain ε) (μ ρ : Type) where
  /-- A value. -/
  | value (value : D.Carrier)
  /-- A layout. -/
  | layout (layout : Layout μ ρ (Node μ ρ))

/-- The values and layouts around a place of a template, the innermost first. -/
abbrev Context (D : Domain ε) (μ ρ : Type) : Type :=
  List (Frame D μ ρ)

namespace Context

variable {D : Domain ε} {μ ρ : Type}

/-- The chain with a value on top. A value that stands for absence is not pushed. -/
def push (context : Context D μ ρ) (value : D.Carrier) : Context D μ ρ :=
  if D.isNull value then context else .value value :: context

/-- The chain with a layout on top. -/
def pushLayout (context : Context D μ ρ) (layout : Layout μ ρ (Node μ ρ)) : Context D μ ρ :=
  .layout layout :: context

/-! ## Values -/

/-- The innermost value; null if there is none. -/
def current : Context D μ ρ → D.Carrier
  | [] => D.null
  | .value value :: context => if D.isNull value then current context else value
  | .layout _ :: context => current context

/-- The answer of the innermost value that knows an identifier; null if none does. The values are asked
from the innermost outwards, and a failure to answer ends the search. -/
def lookup (identifier : String) : Context D μ ρ → Except ε D.Carrier
  | [] => .ok D.null
  | .value value :: context =>
    if D.isNull value then lookup identifier context
    else do
      let found ← D.answer value identifier
      if D.isNull found then lookup identifier context else return found
  | .layout _ :: context => lookup identifier context

/-- The value of an expression. Only an identifier at the start of a path is looked up in the chain;
those after a dot are asked of the value in front of it. What is no filter is not applied: the
result is null, and the argument is not evaluated. -/
def evaluate (context : Context D μ ρ) : Expr → Except (RenderFault ε) D.Carrier
  | .implicit => .ok context.current
  | .identifier name => (context.lookup name).mapError .raised
  | .member base name => do
    let value ← context.evaluate base
    if D.isNull value then return D.null else (D.answer value name).mapError .raised
  | .filtered function argument => do
    match D.filter? (← context.evaluate function) with
    | some apply => (apply (← context.evaluate argument)).mapError .raised
    | none => return D.null
  | .unknown => .error .unknownExpression

end Context

/-! ## Overrides -/

mutual

/-- The candidate for a block, after one node of the overrides of a layout. A block replaces a
candidate of its name, and a nested layout gets to replace the candidate in turn. -/
def Node.override {μ ρ : Type} (candidate : Block μ (Node μ ρ)) : Node μ ρ → Block μ (Node μ ρ)
  | .block part => if part.name = candidate.name then part else candidate
  | .layout outer => overrideAll candidate outer.overrides.nodes
  | .text _ _ | .interpolation _ _ _ | .branch _ _ _ _ | .inclusion _ => candidate
termination_by structural node => node

/-- The candidate for a block, after some nodes of the overrides of a layout in order. -/
def overrideAll {μ ρ : Type} (candidate : Block μ (Node μ ρ)) :
    List (Node μ ρ) → Block μ (Node μ ρ)
  | [] => candidate
  | node :: nodes => overrideAll (node.override candidate) nodes
termination_by structural nodes => nodes

end

/-- The block that replaces a block according to a layout; the block itself if the layout does not
override it. -/
def Layout.override {μ ρ : Type} (layout : Layout μ ρ (Node μ ρ)) (block : Block μ (Node μ ρ)) :
    Block μ (Node μ ρ) :=
  overrideAll block layout.overrides.nodes

namespace Context

variable {D : Domain ε} {μ ρ : Type} [DecidableEq μ] [DecidableEq ρ]

/-- The block that replaces a candidate according to the layouts of a chain. A layout is passed over
if its template is among those `used`; a template is used once a layout of it has replaced the
candidate by another block. -/
def overrideFrom (used : List ρ) (candidate : Block μ (Node μ ρ)) :
    Context D μ ρ → Block μ (Node μ ρ)
  | [] => candidate
  | .value _ :: context => overrideFrom used candidate context
  | .layout layout :: context =>
    if layout.inclusion.target ∈ used then overrideFrom used candidate context
    else
      let resolved := layout.override candidate
      if resolved.mark = candidate.mark then overrideFrom used candidate context
      else overrideFrom (layout.inclusion.target :: used) resolved context

/-- The block that is rendered in place of a block. The layouts of the chain are asked from the
innermost outwards, and each may replace what the ones before it have found. -/
def override (context : Context D μ ρ) (block : Block μ (Node μ ρ)) : Block μ (Node μ ρ) :=
  overrideFrom [] block context

/-- The node that is rendered in place of a node. Only blocks are replaced. -/
def overrideNode (context : Context D μ ρ) (node : Node μ ρ) : Node μ ρ :=
  match node with
  | .block part => .block (context.override part)
  | other => other

end Context

/-! ## A context as it is shown to a developer -/

/-- A chain of plain values and layouts is shown by its innermost frame and the number of its frames. -/
def Context.inspect {μ ρ : Type} (context : Context .standard μ ρ) : Except ValueFault String :=
  match context with
  | [] => .ok "Context()"
  | frame :: _ => do
    let shown ← match frame with
      | .value value => Value.inspect value
      | .layout layout => .ok ("<" ++ layout.inclusion.name ++ ">")
    return "Context(" ++ shown ++ ", depth=" ++ toString context.length ++ ")"

end Logicless
