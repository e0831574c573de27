import Logicless.Text.Quoted
import Logicless.Tree.Store

/-!
# Trees as they are shown to a developer

Expressions and nodes are shown with the names of their parts. The template that a node refers to,
and the body that it has, are shown by their number of nodes and their content type alone, so that
the text is finite and short.

## Shape of the module

* `Expr.inspect` shows an expression, `Store.inspect` a template and `Store.inspectNode` a node.
-/

namespace Logicless

/-- Names of parts with their texts, as they stand in the parentheses behind the name of a whole. -/
def inspectParts (whole : String) (parts : List (String × String)) : String :=
  whole ++ "(" ++ ", ".intercalate (parts.map fun part => part.1 ++ "=" ++ part.2) ++ ")"

/-- A truth value as it is shown. -/
def inspectBool (b : Bool) : String :=
  if b then "True" else "False"

/-- An expression as it is shown. -/
def Expr.inspect : Expr → String
  | implicit => inspectParts "ImplicitIterator" []
  | identifier name => inspectParts "Identifier" [("name", Text.quoted name)]
  | member base name =>
    inspectParts "Scoped" [("base", base.inspect), ("identifier", Text.quoted name)]
  | filtered function argument =>
    inspectParts "Filtered" [("filter", function.inspect), ("argument", argument.inspect)]
  | unknown => inspectParts "Expression" []

/-- A template as it is shown, given its nodes unless it is a placeholder. -/
def inspectTemplate {ν : Type} (contentType : ContentType) (content : Option (List ν)) : String :=
  let size := match content with
    | some nodes => toString nodes.length ++ " nodes"
    | none => "<placeholder>"
  "TemplateAST(" ++ size ++ ", " ++ contentType.constantName ++ ")"

namespace Store

/-- The template in a slot as it is shown. -/
def inspect (store : Store) (slot : Slot) : String :=
  match store.cell? slot with
  | some cell => inspectTemplate cell.contentType cell.content
  | none => inspectTemplate .html (none : Option (List StoredNode))

/-- A body as it is shown. A body may be the whole template of a slot; it is shown as the store has
it. -/
def inspectBody (store : Store) (body : Body Mark StoredNode) : String :=
  if body.mark.path.isEmpty then store.inspect body.mark.slot
  else inspectTemplate body.contentType (some body.nodes)

/-- An inclusion as it is shown. -/
def inspectInclusion (store : Store) (inclusion : Inclusion Slot) : String :=
  inspectParts "Partial"
    [("name", Text.quoted inclusion.name), ("template_ast", store.inspect inclusion.target)]

/-- A node as it is shown. -/
def inspectNode (store : Store) : StoredNode → String
  | .text _ text => inspectParts "Text" [("text", Text.quoted text)]
  | .interpolation _ expression escape =>
    inspectParts "Variable" [("expression", expression.inspect), ("escape", inspectBool escape)]
  | .branch _ expression inverted body =>
    inspectParts "Section"
      [("expression", expression.inspect), ("inverted", inspectBool inverted),
       ("body", store.inspectBody body)]
  | .inclusion reference => store.inspectInclusion reference
  | .block part =>
    inspectParts "InheritableSection"
      [("name", Text.quoted part.name), ("body", store.inspectBody part.body)]
  | .layout outer =>
    inspectParts "InheritablePartial"
      [("partial", store.inspectInclusion outer.inclusion),
       ("overriding_ast", store.inspectBody outer.overrides)]

end Store

end Logicless
