import Logicless.Render.Context
import Logicless.Tree.Store

/-!
# Configurations

What all templates of a repository share: their content type, and the context that rendering starts
from. The values in it are plain ones.
-/

namespace Logicless

/-- What all templates of a repository share. -/
structure Configuration where
  /-- The content type that templates are compiled with. -/
  contentType : ContentType := .html
  /-- The context that rendering starts from. -/
  base : Context .standard Mark Slot := []

/-- The configuration with a value on top of its base context. -/
def Configuration.push (configuration : Configuration) (value : Value) : Configuration :=
  { configuration with base := configuration.base.push value }

end Logicless
