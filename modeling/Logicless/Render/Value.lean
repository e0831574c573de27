import Logicless.Render.Domain
import Logicless.Text.Quoted

/-!
# Plain values

A domain of values that can be written down: null, truth values, integers, texts, lists, objects with
named fields in order, and values with a behaviour. A value with a behaviour answers for identifiers, or
is one of a few filters, or both.

Null stands for absence: a field that is null is as good as missing.

## Shape of the module

* `Value` and `Filter` are the types.
* `Value.truthy` decides which values a section is rendered for.
* `Value.answer` asks a value for an identifier, `Filter.apply` applies a filter.
* `Value.inspect` shows a value to a developer and `Value.display` puts it into a rendered text. An
  integer with very many digits can be neither shown nor written.
* `Domain.standard` is the domain of these values.
-/

namespace Logicless

mutual

/-- A plain value. -/
inductive Value where
  /-- The absent value. -/
  | null
  /-- A truth value. -/
  | bool (b : Bool)
  /-- An integer. -/
  | int (n : Int)
  /-- A text. -/
  | str (s : String)
  /-- A list of values. -/
  | list (items : List Value)
  /-- Named fields in order. -/
  | object (fields : List (String × Value))
  /-- A value that answers for identifiers itself. -/
  | answering (answers : List (String × Value))
  /-- A filter. -/
  | filter (filter : Filter)
  /-- A filter that answers for identifiers itself. -/
  | answeringFilter (answers : List (String × Value)) (filter : Filter)

/-- One of the filters among plain values. -/
inductive Filter where
  /-- Returns its argument. -/
  | identity
  /-- Returns null. -/
  | none
  /-- Returns whether its argument is null. -/
  | isNull
  /-- Returns the text of its argument between angle brackets. -/
  | wrap
  /-- Returns the list that holds its argument twice. -/
  | twice
  /-- Returns the filter that holds its argument. -/
  | hold
  /-- Fails. -/
  | failing
  /-- Ignores its argument and returns the value that it holds. -/
  | held (value : Value)

end

instance : Inhabited Value :=
  ⟨.null⟩

instance : Inhabited Filter :=
  ⟨.identity⟩

/-- How a plain value or a filter fails. -/
inductive ValueFault where
  /-- The filter was applied that always fails. -/
  | filterFailed
  /-- An integer has too many digits to be written. -/
  | tooManyDigits
deriving DecidableEq, Repr

/-- The number of digits that an integer can be written with. -/
def maxDigits : Nat :=
  4300

/-- The wording of the failure of a value or a filter. -/
def ValueFault.message : ValueFault → String
  | filterFailed => "filter bug"
  | tooManyDigits =>
    "Exceeds the limit (" ++ toString maxDigits ++ " digits) for integer string conversion; " ++
      "use sys.set_int_max_str_digits() to increase the limit"

/-- The wording of a reason for which there is no text. -/
def RenderFault.message : RenderFault ValueFault → String
  | raised failure => failure.message
  | unknownExpression => "Unknown expression type: Expression"
  | tooDeep => "maximum recursion depth exceeded"

/-- The word for a filter. -/
def Filter.word : Filter → String
  | identity => "identity"
  | none => "none"
  | isNull => "is_none"
  | wrap => "wrap"
  | twice => "list"
  | hold => "const"
  | failing => "raise"
  | held _ => "held"

/-- The filter that a word names. A filter that holds a value has no name of its own. -/
def Filter.named? (word : String) : Option Filter :=
  [identity, none, isNull, wrap, twice, hold, failing].find? fun filter => filter.word = word

namespace Value

/-- The value is absent. -/
def isNull : Value → Bool
  | null => true
  | _ => false

/-- A section is rendered for all values but null, false, zero and whatever is empty. -/
def truthy : Value → Bool
  | null => false
  | bool b => b
  | int n => n ≠ 0
  | str s => !s.isEmpty
  | list items => !items.isEmpty
  | object fields => !fields.isEmpty
  | answering _ | filter _ | answeringFilter _ _ => true

/-- What a value answers for an identifier; null if it does not know the identifier. Texts, numbers
and lists know none. -/
def answer (value : Value) (identifier : String) : Value :=
  match value with
  | object fields => (fields.lookup identifier).getD null
  | answering answers | answeringFilter answers _ => (answers.lookup identifier).getD null
  | _ => null

/-- The filter that a value is, if it is one. -/
def filter? : Value → Option Filter
  | filter function | answeringFilter _ function => some function
  | _ => none

/-! ## Texts of values -/

/-- The digits of an integer, with its sign. -/
def decimal (n : Int) : Except ValueFault String :=
  if maxDigits < (toString n.natAbs).length then .error .tooManyDigits else .ok (toString n)

mutual

/-- A value as it is shown to a developer. -/
def inspect : Value → Except ValueFault String
  | null => .ok "None"
  | bool b => .ok (if b then "True" else "False")
  | int n => decimal n
  | str s => .ok (Text.quoted s)
  | list items => do
    return "[" ++ ", ".intercalate (← inspectItems items) ++ "]"
  | object fields => do
    return "\x7b" ++ ", ".intercalate (← inspectFields fields) ++ "\x7d"
  | answering _ | answeringFilter _ _ => .ok "<lookup>"
  | filter function => .ok ("<filter " ++ function.word ++ ">")
termination_by structural value => value

/-- The items of a list as they are shown. -/
def inspectItems : List Value → Except ValueFault (List String)
  | [] => .ok []
  | item :: items => do
    return (← item.inspect) :: (← inspectItems items)
termination_by structural items => items

/-- The fields of an object as they are shown. -/
def inspectFields : List (String × Value) → Except ValueFault (List String)
  | [] => .ok []
  | (name, value) :: fields => do
    return (Text.quoted name ++ ": " ++ (← value.inspect)) :: (← inspectFields fields)
termination_by structural fields => fields

end

/-- A value in a rendered text: a text stands for itself, and any other value is shown as to a
developer. -/
def display : Value → Except ValueFault String
  | str s => .ok s
  | value => value.inspect

end Value

/-- Applies a filter. -/
def Filter.apply (function : Filter) (argument : Value) : Except ValueFault Value :=
  match function with
  | identity => .ok argument
  | none => .ok .null
  | isNull => .ok (.bool argument.isNull)
  | wrap => do
    return .str ("<" ++ (← argument.display) ++ ">")
  | twice => .ok (.list [argument, argument])
  | hold => .ok (.filter (.held argument))
  | failing => .error .filterFailed
  | held value => .ok value

/-- The domain of plain values. -/
@[reducible]
def Domain.standard : Domain ValueFault where
  Carrier := Value
  null := .null
  isNull := Value.isNull
  isNull_null := rfl
  truthy value := .ok value.truthy
  items?
    | .list items => some (items.map .ok)
    | _ => none
  answer value identifier := .ok (value.answer identifier)
  filter? value := value.filter?.map Filter.apply
  display := Value.display

end Logicless
