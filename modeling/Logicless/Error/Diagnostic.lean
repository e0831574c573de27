import Logicless.Error.Fault
import Logicless.Text.Ansi

/-!
# Diagnostics

A fault of a template is shown on a terminal in a compact form: a header with its code, its place,
and a link to its explanation. Each part has a role, and each role a fixed style.

## Shape of the module

* `Role` lists the roles and `Role.styles` their styles.
* `Diagnostic.header`, `place` and `explanation` write the parts and `Diagnostic.compact` the whole.
* `ColourSwitches` decides whether colours are wanted.
-/

namespace Logicless

/-- The roles of the parts of a diagnostic. -/
inductive Role where
  | code
  | location
  | secondary
  | link
deriving DecidableEq, Repr

namespace Role

/-- The names that roles are asked for by. -/
def named? : String → Option Role
  | "code" => some code
  | "location" => some location
  | "secondary" => some secondary
  | "link" => some link
  | _ => none

/-- The styles of a role. -/
def styles : Role → List Text.Style
  | code => [.brightRed, .bold]
  | location => [.cyan]
  | secondary => [.dim]
  | link => [.brightBlue]

/-- A text in the style of its role. -/
def paint (colours : Bool) (role : Role) (text : String) : String :=
  Text.paint colours role.styles text

end Role

/-- A text in the styles of some names; names that no style has are passed over. -/
def paintNamed (colours : Bool) (names : List String) (text : String) : String :=
  Text.paint colours (names.filterMap Text.Style.named?) text

/-! ## Diagnostics -/

namespace Diagnostic

/-- The first line: the code, if there is one, and the message. -/
def header (colours : Bool) (code : Option String) (message : String) : String :=
  match code with
  | none => message
  | some code =>
    if code.isEmpty then message else Role.code.paint colours code ++ ": " ++ message

/-- The line that points at the place of a fault. -/
def place (colours : Bool) (location : String) : String :=
  "  --> " ++ Role.location.paint colours location

/-- The line that points at the explanation of a code. -/
def explanation (colours : Bool) (url : String) : String :=
  "  " ++ Role.secondary.paint colours "Docs:" ++ " " ++ Role.link.paint colours url

/-- The lines about a fault in front of its explanation. A fault at a line of a template shows its
place below its detail; any other fault shows its message without the blank characters around it. -/
def summary (colours : Bool) (fault : Fault) : List String :=
  let code := fault.code?.map ErrorCode.text
  match fault with
  | .located fault => [header colours code fault.detail, place colours fault.location]
  | fault => [header colours code (Text.trimmed fault.message)]

/-- All lines about a fault. A fault without a code has no explanation. -/
def lines (colours : Bool) (fault : Fault) : List String :=
  summary colours fault ++ (fault.code?.map fun code => explanation colours code.link).toList

/-- A fault in compact form. -/
def compact (colours : Bool) (fault : Fault) : String :=
  "\n".intercalate (lines colours fault)

end Diagnostic

/-! ## Colours -/

/-- What decides whether colours are wanted. A switch that is set to the empty text counts as not
set. -/
structure ColourSwitches where
  /-- Asks for colours. -/
  force : Option String
  /-- Asks for no colours. -/
  forbid : Option String
  /-- The output goes to a terminal. -/
  terminal : Bool
deriving DecidableEq, Repr

/-- A switch that is set to a text that is not empty. -/
def isSet : Option String → Bool
  | none => false
  | some text => !text.isEmpty

/-- Colours are wanted if they are asked for; otherwise, on a terminal, unless they are asked not to
be used. -/
def ColourSwitches.wanted (switches : ColourSwitches) : Bool :=
  isSet switches.force || (!isSet switches.forbid && switches.terminal)

end Logicless
