import Logicless.Compile.Compiler

/-!
# Sources of tokens

What a repository needs to know of a source: the id that a template name stands for, and the tokens
of an id. Everything else about a source is its own business. The sources at hand serve finitely many
ids and are described by catalogues.
-/

namespace Logicless

/-- A source of tokens. -/
structure Source where
  /-- The id of the template with a name, used inside the template with an id if any. -/
  templateId : (name : String) → (relativeTo : Option String) → String
  /-- The tokens of an id. -/
  tokens : (id : String) → Except Failure Stream

/-- A source that serves finitely many ids, all of which it lists. -/
structure FiniteSource extends Source where
  /-- Ids, among them all for which there are tokens. -/
  ids : List String
  /-- Every id for which there are tokens is listed. -/
  mem_ids : ∀ id stream, tokens id = .ok stream → id ∈ ids

end Logicless
