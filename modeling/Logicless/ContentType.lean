/-!
# Content types

Whether the values of a template are escaped when it is rendered. Every body of a template has the
content type that the template was compiled with.
-/

namespace Logicless

/-- Whether values are escaped for markup when a template is rendered. -/
inductive ContentType where
  /-- Values are escaped. -/
  | html
  /-- Values are plain text. -/
  | text
deriving DecidableEq, Repr, Inhabited

namespace ContentType

/-- The word for a content type. -/
def word : ContentType → String
  | html => "html"
  | text => "text"

/-- The content type that a word names. -/
def named? : String → Option ContentType
  | "html" => some html
  | "text" => some text
  | _ => none

/-- The constant that names a content type when a template is shown. -/
def constantName : ContentType → String
  | html => "HTML"
  | text => "TEXT"

end ContentType

end Logicless
