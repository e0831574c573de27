import Logicless.Render.Context
import Logicless.Tree.Store

/-!
# Rendering

The text of a template in a context. No value is escaped: that is left to whoever writes the text
into markup.

Templates can include themselves as often as their values are nested, and without end if a section
around the inclusion never runs out of values. So rendering is bounded by a depth, and a text that
needs a greater depth is told apart from one that cannot be rendered.

## Shape of the module

* `Store.renderNode` renders one node and `Store.render` the template in a slot.
-/

namespace Logicless

/-- The texts of some items one after another; the first failure ends them. -/
def concatTexts {φ α : Type} (text : α → Except φ String) : List α → Except φ String
  | [] => .ok ""
  | item :: items => do
    let first ← text item
    let rest ← concatTexts text items
    return first ++ rest

namespace Store

variable {ε : Type} {D : Domain ε}

/-- The text of a node. Each body or template that is entered needs one unit of `depth`. -/
def renderNode (store : Store) :
    (depth : Nat) → Context D Mark Slot → StoredNode → Except (RenderFault ε) String
  | 0, _, _ => .error .tooDeep
  | depth + 1, context, node =>
    let renderAll (context : Context D Mark Slot) (nodes : List StoredNode) :=
      concatTexts (renderNode store depth context) nodes
    match node with
    | .text _ text => .ok text
    | .interpolation _ expression _ => do
      let value ← context.evaluate expression
      if D.isNull value then return "" else (D.display value).mapError .raised
    | .branch _ expression inverted body => do
      let value ← context.evaluate expression
      let shown ← (D.truthy value).mapError .raised
      if inverted then
        if shown then return "" else renderAll context body.nodes
      else if shown then
        match D.items? value with
        | some items =>
          concatTexts (fun item => do
            let item ← item.mapError .raised
            renderAll (context.push item) body.nodes) items
        | none => renderAll (context.push value) body.nodes
      else return ""
    | .inclusion reference => renderAll context (store.nodes reference.target)
    | .layout outer => renderAll (context.pushLayout outer) (store.nodes outer.inclusion.target)
    | .block part => renderAll context (context.override part).body.nodes

/-- The text of the template in a slot. -/
def render (store : Store) (depth : Nat) (context : Context D Mark Slot) (slot : Slot) :
    Except (RenderFault ε) String :=
  concatTexts (store.renderNode depth context) (store.nodes slot)

end Store

end Logicless
