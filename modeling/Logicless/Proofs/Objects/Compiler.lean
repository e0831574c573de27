import Logicless.Proofs.Compile.Simulation
import Logicless.Proofs.Objects.Heap
import Logicless.Proofs.Repository.Session

/-!
# Compiling to objects

The compiler and the repository once more, now on a heap. An open tag collects nodes that refer to objects;
when it is closed, a body with these nodes is made, and the node that the tag becomes refers to it. A
repository makes a placeholder before the template is compiled, and fills it with the nodes that the
compilation has come to. The object that a compilation ends with has no other use than to hand on its nodes,
so there is none on the heap.

What the compiler does with a token depends on the innermost open tag and not on what is inside it. So this
part is said once for trees and objects.

## Shape of the module

* `Tag` is an open tag without its nodes, and `Tag.action` says what the compiler does with a token there.
  `ScopeStack.move_eq_action` says that the compiler of trees does the same.
* `Action.perform` does it on a heap. `ObjectStack.follow` takes the tokens up to the end of a stream and
  `ObjectRepository.compileObject` compiles a stream.
* `ObjectRepository` has what `Repository` has, on a heap, with `resolveWithin` and `compileWithin`; and
  `ObjectSession` is the use of one.
-/

namespace Logicless

/-! ## What the compiler does with a token -/

/-- An open tag without what is inside it. -/
structure Tag where
  /-- The tag that opened the scope. -/
  kind : Scope.Kind
  /-- The token that opened the scope; the whole template has none. -/
  opening : Option Token := none
  /-- The expression of a section. -/
  expression : Option Expr := none
  /-- The name of a block, or of a layout's template. -/
  name : Option String := none

/-- A node without a body. -/
inductive Leaf where
  /-- Text between tags. -/
  | text (line : Int) (text : String)
  /-- The value of an expression. -/
  | interpolation (line : Int) (expression : Expr) (escape : Bool)

/-- What a closed tag becomes, but for its body. -/
inductive Closing where
  /-- A section, or an inverted section. -/
  | branch (line : Int) (expression : Expr) (inverted : Bool)
  /-- A block. -/
  | block (line : Int) (name : String)

/-- What the compiler does with a token. -/
inductive Action where
  /-- Nothing. -/
  | keep
  /-- It appends a node to the innermost scope. -/
  | append (leaf : Leaf)
  /-- It opens a tag. -/
  | enter (tag : Tag)
  /-- It closes the innermost tag, and it may open another one instead. -/
  | close (closing : Except ScopeBreach Closing) (next : Option Tag)
  /-- It includes a template. -/
  | load (line : Int) (name : String) (citing : Token)
  /-- It loads the template of a layout and closes the layout. -/
  | closeLayout (line : Int) (name : Option String) (citing : Option Token)
  /-- It fails. -/
  | refuse (failure : LocatedFailure)

/-- Goes on with the value of a step that may refuse the token. -/
def Action.andThen {α : Type} (value : Except LocatedFailure α) (next : α → Action) : Action :=
  match value with
  | .ok value => next value
  | .error failure => .refuse failure

namespace Tag

/-- The line of the opening token; zero for the whole template. -/
def line (tag : Tag) : Int :=
  match tag.opening with
  | some token => token.line
  | none => 0

/-- What a closed section becomes. -/
def toBranch (tag : Tag) : Except ScopeBreach Closing :=
  match tag.expression with
  | some expression => .ok (.branch tag.line expression (tag.kind = .inverted))
  | none => .error .missingExpression

/-- What a closed block becomes. -/
def toBlock (tag : Tag) : Except ScopeBreach Closing :=
  match tag.name with
  | some name => .ok (.block tag.line name)
  | none => .error .missingName

variable (setting : Setting) (tag : Tag) (token : Token)

/-- The refusal of a closing tag that does not close the innermost open tag. -/
def unmatched : Action :=
  .refuse ⟨setting.cite (some token) .unmatchedClose "Unmatched closing tag", []⟩

/-- A variable. -/
def onVariable (escape : Bool) : Action :=
  .andThen (setting.readExpression token) fun expression =>
    .append (.interpolation token.line expression escape)

/-- A section, an inverted section or an alternative, of the kind `kind`. -/
def onSection (kind opposite : Scope.Kind) : Action :=
  .andThen (setting.readOptionalExpression token) fun content =>
    if tag.kind = opposite && (content.isNone || content = tag.expression) then
      .close tag.toBranch (some { kind := kind, opening := some token, expression := tag.expression })
    else match content with
      | some expression =>
        .enter { kind := kind, opening := some token, expression := some expression }
      | none => .refuse ⟨setting.cite (some token) .expression "Missing expression", []⟩

/-- A block or a layout. -/
def onNamed (kind : Scope.Kind) (role : NameRole) : Action :=
  .andThen (setting.readName role token) fun name =>
    .enter { kind := kind, opening := some token, name := some name }

/-- An inclusion. -/
def onInclusion : Action :=
  .andThen (setting.readName .template token) fun name => .load token.line name token

/-- The end of a section. -/
def closeBranch : Action :=
  .andThen (setting.readOptionalExpression token) fun content =>
    if content.isNone || content = tag.expression then .close tag.toBranch none
    else unmatched setting token

/-- The end of a block. -/
def closeBlock : Action :=
  .andThen (setting.readOptionalName .block token) fun content =>
    if content.isNone || content = tag.name then .close tag.toBlock none
    else unmatched setting token

/-- The end of a layout. -/
def closeLayout : Action :=
  .andThen (setting.readOptionalName .template token) fun content =>
    if content.isNone || content = tag.name then .closeLayout tag.line tag.name tag.opening
    else unmatched setting token

/-- A closing tag. -/
def onClose : Action :=
  match tag.kind with
  | .root => unmatched setting token
  | .branch | .inverted => tag.closeBranch setting token
  | .layout => tag.closeLayout setting token
  | .block => tag.closeBlock setting token

/-- What the compiler does with a token where a tag is the innermost one. -/
def action : Action :=
  match token.kind with
  | .setDelimiters | .comment | .pragma => .keep
  | .text => .append (.text token.line token.content)
  | .escapedVariable => onVariable setting token true
  | .unescapedVariable => onVariable setting token false
  | .openSection => tag.onSection setting token .branch .inverted
  | .openInverted => tag.onSection setting token .inverted .branch
  | .openBlock => onNamed setting token .block .block
  | .openLayout => onNamed setting token .layout .template
  | .close => tag.onClose setting token
  | .inclusion => onInclusion setting token

end Tag

/-- A misuse of the stack ends a compilation. -/
def ScopeBreach.halt (breach : ScopeBreach) : Halt :=
  .escaped (Fault.scope breach).alone

/-! ## On trees -/

section Trees

variable {ρ : Type}

/-- A scope without its nodes. -/
def Scope.tag (scope : Scope ρ) : Tag :=
  ⟨scope.kind, scope.opening, scope.expression, scope.name⟩

/-- The scope of a tag that was just opened. -/
def Tag.scope (tag : Tag) : Scope ρ :=
  ⟨tag.kind, tag.opening, tag.expression, tag.name, []⟩

/-- The node of a tree. -/
def Leaf.node : Leaf → Node Unit ρ
  | text line content => .text line content
  | interpolation line expression escape => .interpolation line expression escape

/-- The node of a tree that has the body inside it. -/
def Closing.node (body : Template Unit ρ) : Closing → Node Unit ρ
  | branch line expression inverted => .branch line expression inverted body
  | block line name => .block ⟨(), line, name, body⟩

/-- The stack with one more tag, if any. -/
def ScopeStack.reopen (stack : ScopeStack ρ) : Option Tag → ScopeStack ρ
  | none => stack
  | some tag => stack.push tag.scope

/-- What the compiler of trees does. -/
def Action.move (setting : Setting) (stack : ScopeStack ρ) : Action → Move ρ
  | keep => .proceed stack
  | append leaf => .proceed (stack.append leaf.node)
  | enter tag => .proceed (stack.push tag.scope)
  | close closing next =>
    .ofStack ((stack.collapse fun scope =>
      closing.map (Closing.node (scope.body setting.contentType))).map (·.reopen next))
  | load line name citing =>
    .load name (some citing) fun target => stack.append (.inclusion ⟨line, name, target⟩)
  | closeLayout line name citing =>
    match name, stack.pop with
    | _, .error fault => .breach fault
    | none, .ok _ => .breach .missingName
    | some name, .ok (scope, below) =>
      .load name citing fun target =>
        below.append (.layout ⟨line, ⟨line, name, target⟩, scope.body setting.contentType⟩)
  | refuse failure => .refuse failure

theorem Scope.toBranch_eq (contentType : ContentType) (scope : Scope ρ) :
    scope.toBranch contentType = scope.tag.toBranch.map (Closing.node (scope.body contentType)) := by
  rw [Scope.toBranch, Tag.toBranch, show scope.tag.expression = scope.expression from rfl]
  cases scope.expression <;> rfl

theorem Scope.toBlock_eq (contentType : ContentType) (scope : Scope ρ) :
    scope.toBlock contentType = scope.tag.toBlock.map (Closing.node (scope.body contentType)) := by
  rw [Scope.toBlock, Tag.toBlock, show scope.tag.name = scope.name from rfl]
  cases scope.name <;> rfl

namespace ScopeStack

variable (setting : Setting) (stack : ScopeStack ρ) (token : Token)

theorem andThen_eq_move {α : Type} (value : Except LocatedFailure α) {next : α → Move ρ}
    {next' : α → Action} (h : ∀ a, next a = (next' a).move setting stack) :
    Move.andThen value next = (Action.andThen value next').move setting stack := by
  cases value with
  | ok value => exact h value
  | error failure => rfl

/-- What a closed scope becomes is asked of the innermost one alone. -/
theorem collapse_eq {toNode : Scope ρ → Except ScopeBreach (Node Unit ρ)} {closing : Except ScopeBreach Closing}
    (h : toNode stack.current = closing.map (Closing.node (stack.current.body setting.contentType))) :
    stack.collapse toNode =
      stack.collapse fun scope => closing.map (Closing.node (scope.body setting.contentType)) := by
  obtain ⟨scope, enclosing⟩ := stack
  cases enclosing with
  | nil => rfl
  | cons below enclosing =>
    simp only [collapse, pop, bind, Except.bind]
    rw [h]

/-- The innermost tag is closed, and no other one is opened. -/
theorem ofStack_collapse_eq_move {toNode : Scope ρ → Except ScopeBreach (Node Unit ρ)}
    {closing : Except ScopeBreach Closing}
    (h : toNode stack.current = closing.map (Closing.node (stack.current.body setting.contentType))) :
    .ofStack (stack.collapse toNode) = (Action.close closing none).move setting stack := by
  rw [stack.collapse_eq setting h]
  exact congrArg Move.ofStack (congrFun Except.map_id _).symm

theorem moveSection_eq_move (kind opposite : Scope.Kind) :
    stack.moveSection setting token kind opposite =
      (stack.current.tag.onSection setting token kind opposite).move setting stack := by
  refine stack.andThen_eq_move setting _ fun content => ?_
  show (if stack.continues opposite content then _ else _) =
    (if stack.continues opposite content then _ else _ : Action).move setting stack
  split
  · rw [stack.collapse_eq setting (Scope.toBranch_eq setting.contentType stack.current), Action.move]
    cases stack.collapse fun scope =>
      stack.current.tag.toBranch.map (Closing.node (scope.body setting.contentType)) <;> rfl
  · cases content <;> rfl

theorem closeBranch_eq_move :
    stack.closeBranch setting token = (stack.current.tag.closeBranch setting token).move setting stack := by
  refine stack.andThen_eq_move setting _ fun content => ?_
  show (if content.isNone || content = stack.current.expression then _ else _) =
    (if content.isNone || content = stack.current.expression then _ else _ : Action).move setting stack
  split
  · exact stack.ofStack_collapse_eq_move setting (Scope.toBranch_eq setting.contentType stack.current)
  · rfl

theorem closeBlock_eq_move :
    stack.closeBlock setting token = (stack.current.tag.closeBlock setting token).move setting stack := by
  refine stack.andThen_eq_move setting _ fun content => ?_
  show (if content.isNone || content = stack.current.name then _ else _) =
    (if content.isNone || content = stack.current.name then _ else _ : Action).move setting stack
  split
  · exact stack.ofStack_collapse_eq_move setting (Scope.toBlock_eq setting.contentType stack.current)
  · rfl

theorem closeLayout_eq_move :
    stack.closeLayout setting token = (stack.current.tag.closeLayout setting token).move setting stack := by
  refine stack.andThen_eq_move setting _ fun content => ?_
  show (if content.isNone || content = stack.current.name then _ else _) =
    (if content.isNone || content = stack.current.name then _ else _ : Action).move setting stack
  split
  · obtain ⟨⟨kind, opening, expression, name, nodes⟩, enclosing⟩ := stack
    cases enclosing <;> cases name <;> rfl
  · rfl

/-- The compiler of trees does with a token what the innermost open tag says. -/
theorem move_eq_action :
    stack.move setting token = (stack.current.tag.action setting token).move setting stack := by
  rw [move, Tag.action]
  cases token.kind with
  | setDelimiters | comment | pragma | text => rfl
  | escapedVariable | unescapedVariable => exact stack.andThen_eq_move setting _ fun _ => rfl
  | openSection | openInverted => exact stack.moveSection_eq_move setting token _ _
  | openBlock | openLayout => exact stack.andThen_eq_move setting _ fun _ => rfl
  | inclusion => exact stack.andThen_eq_move setting _ fun _ => rfl
  | close =>
    show stack.moveClose setting token = (stack.current.tag.onClose setting token).move setting stack
    rw [moveClose, Tag.onClose, show stack.current.tag.kind = stack.current.kind from rfl]
    cases stack.current.kind with
    | root => rfl
    | branch | inverted => exact stack.closeBranch_eq_move setting token
    | layout => exact stack.closeLayout_eq_move setting token
    | block => exact stack.closeBlock_eq_move setting token

end ScopeStack

/-- What a move comes to once the template that it may need was asked for. -/
def Move.outcome {σ : Type} (setting : Setting) (loader : Loader σ ρ) (state : σ) :
    Move ρ → Except Halt (ScopeStack ρ) × σ
  | proceed stack => (.ok stack, state)
  | refuse failure => (.error (.recorded failure), state)
  | breach fault => (.error fault.halt, state)
  | load name citing resume =>
    match loader name setting.template state with
    | (.ok target, state) => (.ok (resume target), state)
    | (.error failure, state) =>
      (.error (.recorded (setting.inclusionFailure citing name failure)), state)

/-- One more token is an action of the compiler. -/
theorem ScopeStack.follow_cons {σ : Type} (setting : Setting) (loader : Loader σ ρ)
    (ending : Option Failure) (token : Token) (tokens : List Token) (stack : ScopeStack ρ) (state : σ) :
    stack.follow setting loader ending (token :: tokens) state =
      match ((stack.current.tag.action setting token).move setting stack).outcome setting loader state with
      | (.ok stack, state) => stack.follow setting loader ending tokens state
      | (.error halt, state) => (.error halt, state) := by
  rw [follow, ← stack.move_eq_action]
  cases stack.move setting token with
  | proceed next => rfl
  | refuse failure => rfl
  | breach breach => rfl
  | load name citing resume =>
    simp only [Move.outcome]
    rcases loader name setting.template state with ⟨_ | _, _⟩ <;> rfl

end Trees

/-! ## On a heap -/

/-- The node of an object. -/
def Leaf.objectNode : Leaf → ObjectNode
  | text line content => .text line content
  | interpolation line expression escape => .interpolation line expression escape

/-- The node of an object that refers to the body. -/
def Closing.objectNode (body : Address) : Closing → ObjectNode
  | branch line expression inverted => .branch line expression inverted body
  | block line name => .block line name body

/-- An open tag and the nodes of its body so far. -/
structure ObjectScope where
  /-- The tag. -/
  tag : Tag
  /-- The nodes, in order. -/
  nodes : List ObjectNode := []

/-- A scope with one more node. -/
def ObjectScope.append (scope : ObjectScope) (node : ObjectNode) : ObjectScope :=
  { scope with nodes := scope.nodes ++ [node] }

/-- The stack of open tags. -/
structure ObjectStack where
  /-- The innermost scope. -/
  current : ObjectScope
  /-- The scopes around it, the nearest first. -/
  enclosing : List ObjectScope

namespace ObjectStack

/-- The stack without open tags. -/
def initial : ObjectStack :=
  ⟨⟨{ kind := .root }, []⟩, []⟩

/-- Appends a node to the innermost scope. -/
def append (stack : ObjectStack) (node : ObjectNode) : ObjectStack :=
  ⟨stack.current.append node, stack.enclosing⟩

/-- Opens a tag. -/
def push (stack : ObjectStack) (tag : Tag) : ObjectStack :=
  ⟨⟨tag, []⟩, stack.current :: stack.enclosing⟩

/-- The stack with one more tag, if any. -/
def reopen (stack : ObjectStack) : Option Tag → ObjectStack
  | none => stack
  | some tag => stack.push tag

end ObjectStack

/-- A repository on a heap. -/
structure ObjectRepository where
  /-- All objects that were ever made. -/
  heap : Heap := {}
  /-- The templates of ids, in the order in which their compilations started. -/
  cache : List (String × Address) := []
  /-- The heaps that requests for templates have met, latest first. -/
  met : List Heap := []

namespace ObjectRepository

/-- Makes a body. -/
def make (repository : ObjectRepository) (contentType : ContentType) (nodes : List ObjectNode) :
    Address × ObjectRepository :=
  let (body, heap) := repository.heap.make contentType nodes
  (body, { repository with heap := heap })

/-- Caches an id with a new placeholder. -/
def reserve (repository : ObjectRepository) (id : String) (contentType : ContentType) :
    Address × ObjectRepository :=
  let (address, heap) := repository.heap.enter ⟨contentType, none⟩
  (address, { repository with heap := heap, cache := repository.cache ++ [(id, address)] })

/-- Removes an id and everything cached after it. -/
def evict (repository : ObjectRepository) (id : String) : ObjectRepository :=
  { repository with cache := repository.cache.takeWhile fun entry => entry.1 ≠ id }

/-- Fills the placeholder of a template that was compiled. -/
def complete (repository : ObjectRepository) (address : Address) (contentType : ContentType)
    (nodes : List ObjectNode) : Except Failure Address × ObjectRepository :=
  match repository.heap.fill address contentType nodes with
  | .ok heap => (.ok address, { repository with heap := heap })
  | .error fault => (.error fault.alone, repository)

/-- Notes what a request for a template meets. -/
def noted (repository : ObjectRepository) : ObjectRepository :=
  { repository with met := repository.heap :: repository.met }

/-- Forgets all templates. -/
def clear (repository : ObjectRepository) : ObjectRepository :=
  { repository with cache := [] }

end ObjectRepository

/-- What the compiler of objects does. -/
def Action.perform (setting : Setting) (loader : Loader ObjectRepository Address) (stack : ObjectStack)
    (repository : ObjectRepository) : Action → Except Halt ObjectStack × ObjectRepository
  | keep => (.ok stack, repository)
  | append leaf => (.ok (stack.append leaf.objectNode), repository)
  | enter tag => (.ok (stack.push tag), repository)
  | close closing next =>
    match stack.enclosing, closing with
    | [], _ => (.error ScopeBreach.rootPopped.halt, repository)
    | _ :: _, .error breach => (.error breach.halt, repository)
    | below :: enclosing, .ok closing =>
      let (body, repository) := repository.make setting.contentType stack.current.nodes
      (.ok (ObjectStack.reopen ⟨below.append (closing.objectNode body), enclosing⟩ next), repository)
  | load line name citing =>
    match loader name setting.template repository with
    | (.ok target, repository) => (.ok (stack.append (.inclusion ⟨line, name, target⟩)), repository)
    | (.error failure, repository) =>
      (.error (.recorded (setting.inclusionFailure (some citing) name failure)), repository)
  | closeLayout line name citing =>
    match stack.enclosing, name with
    | [], _ => (.error ScopeBreach.rootPopped.halt, repository)
    | _ :: _, none => (.error ScopeBreach.missingName.halt, repository)
    | below :: enclosing, some name =>
      match loader name setting.template repository with
      | (.ok target, repository) =>
        let (overrides, repository) := repository.make setting.contentType stack.current.nodes
        (.ok ⟨below.append (.layout line ⟨line, name, target⟩ overrides), enclosing⟩, repository)
      | (.error failure, repository) =>
        (.error (.recorded (setting.inclusionFailure citing name failure)), repository)
  | refuse failure => (.error (.recorded failure), repository)

namespace ObjectStack

/-- What the end of a stream makes of the open tags. -/
def settle (setting : Setting) (ending : Option Failure) (stack : ObjectStack) :
    Except Halt (List ObjectNode) :=
  match ending with
  | none =>
    match stack.enclosing with
    | [] => .ok stack.current.nodes
    | _ :: _ => .error (.recorded (Compiler.unclosed setting (stack.current.tag.scope : Scope Address)))
  | some failure =>
    if failure.fault.isTokenization then
      .error (.recorded (Compiler.brokenOff setting failure))
    else .error (.escaped failure)

/-- What the tokens up to the end of a stream come to. -/
def follow (setting : Setting) (loader : Loader ObjectRepository Address) (ending : Option Failure) :
    List Token → ObjectStack → ObjectRepository → Except Halt (List ObjectNode) × ObjectRepository
  | [], stack, repository => (stack.settle setting ending, repository)
  | token :: tokens, stack, repository =>
    match (stack.current.tag.action setting token).perform setting loader stack repository with
    | (.ok stack, repository) => follow setting loader ending tokens stack repository
    | (.error halt, repository) => (.error halt, repository)

end ObjectStack

/-- Compiles a whole template to the nodes that it has at the top. -/
def compileObject (setting : Setting) (loader : Loader ObjectRepository Address) (stream : Stream)
    (repository : ObjectRepository) : Except Halt (List ObjectNode) × ObjectRepository :=
  match stream with
  | .unopened failure => (.error (.escaped failure), repository)
  | .opened tokens ending => ObjectStack.initial.follow setting loader ending tokens repository

namespace ObjectRepository

/-- The template with a name, used inside the template with an id if any. Each nested compilation
needs one unit of `fuel`. -/
def resolveWithin (source : Source) (contentType : ContentType) :
    (fuel : Nat) → Loader ObjectRepository Address
  | 0, _, _, repository => (.error Fault.tooDeep.alone, repository)
  | fuel + 1, name, relativeTo, repository =>
    let id := source.templateId name relativeTo
    let repository := repository.noted
    match repository.cache.lookup id with
    | some address => (.ok address, repository)
    | none =>
      let (address, repository) := repository.reserve id contentType
      match source.tokens id with
      | .error failure => (.error failure, repository.evict id)
      | .ok stream =>
        match compileObject ⟨contentType, some id⟩ (resolveWithin source contentType fuel) stream
            repository with
        | (.ok nodes, repository) => repository.complete address contentType nodes
        | (.error halt, repository) => (.error halt.failure, repository.evict id)

/-- Compiles a template that is not cached. Its inclusions are, with nested compilations bounded by
`fuel`. -/
def compileWithin (source : Source) (contentType : ContentType) (fuel : Nat)
    (template : Option String) (stream : Stream) (repository : ObjectRepository) :
    Except Failure Address × ObjectRepository :=
  match compileObject ⟨contentType, template⟩ (resolveWithin source contentType fuel) stream
      repository with
  | (.ok nodes, repository) =>
    let (address, heap) := repository.heap.enter ⟨contentType, some nodes⟩
    (.ok address, { repository with heap := heap })
  | (.error halt, repository) => (.error halt.failure, repository)

end ObjectRepository

/-- The use of a repository on a heap. -/
structure ObjectSession where
  /-- The source, as it is now. -/
  source : Source
  /-- The content type that templates are compiled with. -/
  contentType : ContentType
  /-- The repository. -/
  repository : ObjectRepository := {}
  /-- What loading and compiling templates has come to, latest first. -/
  answers : List (Except Failure Address) := []

namespace ObjectSession

/-- The session after an answer of the repository. -/
def answered (session : ObjectSession) (result : Except Failure Address × ObjectRepository) :
    ObjectSession :=
  { session with repository := result.2, answers := result.1 :: session.answers }

/-- The session after one more operation. -/
def perform (session : ObjectSession) : Operation → ObjectSession
  | .resolve depth name relativeTo =>
    session.answered (ObjectRepository.resolveWithin session.source session.contentType depth name
      relativeTo session.repository)
  | .compile depth template stream =>
    session.answered (ObjectRepository.compileWithin session.source session.contentType depth template
      stream session.repository)
  | .clear => { session with repository := session.repository.clear }
  | .serve tokens => { session with source := { session.source with tokens := tokens } }

/-- The session after some operations on a new repository. -/
def run (source : Source) (contentType : ContentType) (operations : List Operation) : ObjectSession :=
  operations.foldl perform { source := source, contentType := contentType }

/-- A template was handed out. -/
def Returned (session : ObjectSession) (address : Address) : Prop :=
  .ok address ∈ session.answers

end ObjectSession

end Logicless
