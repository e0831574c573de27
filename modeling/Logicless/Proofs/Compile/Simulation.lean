import Logicless.Proofs.Compile.Included
import Logicless.Proofs.Tree.Relabelling

/-!
# Two compilations of the same tokens

Two compilations of the same tokens may differ in what their loaders answer. As long as the answers
correspond, the compilations do the same: they load the same names in the same order and end alike.
What stands for the loaded templates goes into the tree and decides nothing.

One of the two loaders may also give up, where the other one goes on; from then on the two compilations
need have nothing in common.

## Shape of the module

* `ScopeStack.follow` is the course of a compilation without the compiler around it, and
  `compileTemplate_eq_follow` says that nothing is lost.
* `Agree` compares two results: one is lost, or both are the same failure, or both are values.
* `ScopeStack.Simulation` is what is asked of a relation between the open tags of the two compilations.
  `Simulation.follow` is the induction on the tokens, and `Simulation.compileTemplate` is the rule that
  it comes to.
* Equality is such a relation (`Simulation.eq`), and so is having the same shape (`Simulation.shape`):
  `move_shape` says that tokens act on the shape of the open tags alone.
-/

namespace Logicless

variable {σ σ' ρ ρ' : Type}

/-! ## The course of a compilation -/

namespace ScopeStack

/-- What the end of a stream makes of the open tags. -/
def settle (setting : Setting) (ending : Option Failure) (stack : ScopeStack ρ) :
    Except Halt (Template Unit ρ) :=
  match ending with
  | none => (Compiler.running setting stack).conclude.1
  | some failure =>
    if failure.fault.isTokenization then
      .error (.recorded (Compiler.brokenOff setting failure))
    else .error (.escaped failure)

/-- What the tokens up to the end of a stream make of the open tags and of the loader's state. -/
def follow (setting : Setting) (loader : Loader σ ρ) (ending : Option Failure) :
    List Token → ScopeStack ρ → σ → Except Halt (Template Unit ρ) × σ
  | [], stack, state => (stack.settle setting ending, state)
  | token :: tokens, stack, state =>
    match stack.move setting token with
    | .proceed stack => follow setting loader ending tokens stack state
    | .refuse failure => (.error (.recorded failure), state)
    | .breach breach => (.error (.escaped (Fault.scope breach).alone), state)
    | .load name citing resume =>
      match loader name setting.template state with
      | (.ok target, state) => follow setting loader ending tokens (resume target) state
      | (.error failure, state) =>
        (.error (.recorded (setting.inclusionFailure citing name failure)), state)

end ScopeStack

theorem Compiler.read_eq_follow (setting : Setting) (loader : Loader σ ρ)
    (ending : Option Failure) (tokens : List Token) (stack : ScopeStack ρ) (state : σ) :
    (((Compiler.running setting stack).read (some loader) tokens ending state).1,
        ((Compiler.running setting stack).read (some loader) tokens ending state).2.2) =
      stack.follow setting loader ending tokens state := by
  induction tokens generalizing stack state with
  | nil =>
    rw [ScopeStack.follow, read, feedAll]
    cases ending with
    | none => rfl
    | some failure =>
      simp only [ScopeStack.settle]
      split
      · rfl
      · rfl
  | cons token tokens ih =>
    rw [ScopeStack.follow]
    cases hmove : stack.move setting token with
    | proceed next =>
      simp only [read, feedAll, feed, hmove]
      exact ih next state
    | refuse failure =>
      simp only [read, feedAll, feed, hmove]
      rfl
    | breach breach => simp only [read, feedAll, feed, hmove]
    | load name citing resume =>
      rcases hload : loader name setting.template state with ⟨failure | target, after⟩
      · simp only [read, feedAll, feed, hmove, load_some_eq, hload]
        rfl
      · simp only [read, feedAll, feed, hmove, load_some_eq, hload]
        exact ih (resume target) after

/-- The compilation of an opened stream takes its course from the stack without open tags. -/
theorem compileTemplate_eq_follow (setting : Setting) (loader : Loader σ ρ) (tokens : List Token)
    (ending : Option Failure) (state : σ) :
    compileTemplate setting (some loader) (.opened tokens ending) state =
      ScopeStack.initial.follow setting loader ending tokens state :=
  Compiler.read_eq_follow setting loader ending tokens .initial state

/-! ## Results that agree -/

/-- How the results of two computations with states compare. The first one may be `Lost`; otherwise both
have failed alike, with states that are related by `Failed`, or both have values related by `Same` and
states related by `Kept`. -/
inductive Agree {ε α α' : Type} (Lost : ε → Prop) (Same : α → α' → Prop)
    (Kept Failed : σ → σ' → Prop) : Except ε α × σ → Except ε α' × σ' → Prop
  | lost {error : ε} {state : σ} {result : Except ε α' × σ'} (hlost : Lost error) :
      Agree Lost Same Kept Failed (.error error, state) result
  | failed {error : ε} {state : σ} {state' : σ'} (hfailed : Failed state state') :
      Agree Lost Same Kept Failed (.error error, state) (.error error, state')
  | done {value : α} {value' : α'} {state : σ} {state' : σ'} (hsame : Same value value')
      (hkept : Kept state state') : Agree Lost Same Kept Failed (.ok value, state) (.ok value', state')

/-- How the moves of two compilations compare. -/
inductive Move.Related (Same : ρ → ρ' → Prop) (K : ScopeStack ρ → ScopeStack ρ' → Prop) :
    Move ρ → Move ρ' → Prop
  | proceed {stack : ScopeStack ρ} {stack' : ScopeStack ρ'} (h : K stack stack') :
      Related Same K (.proceed stack) (.proceed stack')
  | refuse {failure : LocatedFailure} : Related Same K (.refuse failure) (.refuse failure)
  | load {name : String} {citing : Option Token} {resume : ρ → ScopeStack ρ}
      {resume' : ρ' → ScopeStack ρ'}
      (h : ∀ target target', Same target target' → K (resume target) (resume' target')) :
      Related Same K (.load name citing resume) (.load name citing resume')
  | breach {breach : ScopeBreach} : Related Same K (.breach breach) (.breach breach)

/-- What is asked of a relation `K` between the open tags of two compilations, where the templates that
they load are related by `Same` and the templates that they come to by `Result`. -/
structure ScopeStack.Simulation (setting : Setting) (Same : ρ → ρ' → Prop)
    (K : ScopeStack ρ → ScopeStack ρ' → Prop) (Result : Template Unit ρ → Template Unit ρ' → Prop) :
    Prop where
  initial : K .initial .initial
  move : ∀ {stack stack'}, K stack stack' → ∀ token,
    (stack.move setting token).Related Same K (stack'.move setting token)
  settle : ∀ {stack stack'}, K stack stack' → ∀ ending,
    (∃ halt, stack.settle setting ending = .error halt ∧ stack'.settle setting ending = .error halt) ∨
      ∃ template template', stack.settle setting ending = .ok template ∧
        stack'.settle setting ending = .ok template' ∧ Result template template'

namespace ScopeStack.Simulation

variable {setting : Setting} {Same : ρ → ρ' → Prop} {K : ScopeStack ρ → ScopeStack ρ' → Prop}
  {Result : Template Unit ρ → Template Unit ρ' → Prop} {loader : Loader σ ρ} {loader' : Loader σ' ρ'}
  {P : String → Prop} {Lost : Failure → Prop} {LostHalt : Halt → Prop} {Kept Failed : σ → σ' → Prop}

/-- What is asked of the loaders: they agree on the names with the property `P`. -/
structure Loaders (setting : Setting) (loader : Loader σ ρ) (loader' : Loader σ' ρ')
    (P : String → Prop) (Lost : Failure → Prop) (LostHalt : Halt → Prop) (Same : ρ → ρ' → Prop)
    (Kept Failed : σ → σ' → Prop) : Prop where
  lost : ∀ citing name failure, Lost failure →
    LostHalt (.recorded (setting.inclusionFailure citing name failure))
  failed : ∀ state state', Kept state state' → Failed state state'
  load : ∀ name, P name → ∀ state state', Kept state state' →
    Agree Lost Same Kept Failed (loader name setting.template state)
      (loader' name setting.template state')

/-- Two compilations whose loaders agree, agree. -/
theorem follow [Inhabited ρ] (hsimulation : Simulation setting Same K Result)
    (hloaders : Loaders setting loader loader' P Lost LostHalt Same Kept Failed)
    (ending : Option Failure) {tokens : List Token}
    (htokens : ∀ token ∈ tokens, ∀ name, token.includedName? = some name → P name)
    {stack : ScopeStack ρ} {stack' : ScopeStack ρ'} (hK : K stack stack') (hawaits : stack.Awaits P)
    {state : σ} {state' : σ'} (hkept : Kept state state') :
    Agree LostHalt Result Kept Failed (stack.follow setting loader ending tokens state)
      (stack'.follow setting loader' ending tokens state') := by
  induction tokens generalizing stack stack' state state' with
  | nil =>
    rw [ScopeStack.follow, ScopeStack.follow]
    rcases hsimulation.settle hK ending with
      ⟨halt, hhalt, hhalt'⟩ | ⟨template, template', htemplate, htemplate', hresult⟩
    · rw [hhalt, hhalt']
      exact .failed (hloaders.failed _ _ hkept)
    · rw [htemplate, htemplate']
      exact .done hresult hkept
  | cons token tokens ih =>
    have hrest := fun other hother => htokens other (List.mem_cons_of_mem token hother)
    have htoken := htokens token List.mem_cons_self
    have hrelated := hsimulation.move hK token
    rw [ScopeStack.follow, ScopeStack.follow]
    -- the stacks move together, so what is left is the load that a move may ask for
    generalize hmove : stack.move setting token = move at hrelated
    generalize stack'.move setting token = move' at hrelated
    cases hrelated with
    | @proceed next _ hnext =>
      have hadvance : Advance setting loader token (stack, state) (next, state) :=
        advance_of_move hmove
      exact ih hrest hnext (hawaits.advance hadvance htoken) hkept
    | refuse => exact .failed (hloaders.failed _ _ hkept)
    | breach => exact .failed (hloaders.failed _ _ hkept)
    | @load name citing resume resume' hnext =>
      have hagree := hloaders.load name (hawaits.of_move_load hmove htoken) state state' hkept
      dsimp only
      generalize hload : loader name setting.template state = result at hagree
      generalize loader' name setting.template state' = result' at hagree
      cases hagree with
      | lost hlost => exact .lost (hloaders.lost citing name _ hlost)
      | failed hfailed => exact .failed hfailed
      | done hsame hkept =>
        exact ih hrest (hnext _ _ hsame) (hawaits.advance (advance_of_move_load hmove hload) htoken)
          hkept

/-- Two compilations of a template agree if their loaders agree on the names that it includes. -/
theorem compileTemplate [Inhabited ρ] (hsimulation : Simulation setting Same K Result)
    {stream : Stream}
    (hloaders : Loaders setting loader loader' (· ∈ stream.includedNames) Lost LostHalt Same Kept
      Failed)
    (state : σ) (state' : σ') (hkept : Kept state state') :
    Agree LostHalt Result Kept Failed (compileTemplate setting (some loader) stream state)
      (Logicless.compileTemplate setting (some loader') stream state') := by
  cases stream with
  | unopened failure => exact .failed (hloaders.failed state state' hkept)
  | opened tokens ending =>
    rw [compileTemplate_eq_follow, compileTemplate_eq_follow]
    refine hsimulation.follow hloaders _ ?_ hsimulation.initial .initial hkept
    intro token htoken name hname
    exact List.mem_filterMap.mpr ⟨token, htoken, hname⟩

/-- Compilations with the same open tags go on alike if they load the same. -/
theorem eq (setting : Setting) :
    Simulation setting (Eq : ρ → ρ → Prop) Eq (Eq : Template Unit ρ → Template Unit ρ → Prop) where
  initial := rfl
  move := by
    rintro stack _ rfl token
    cases stack.move setting token with
    | proceed next => exact .proceed rfl
    | refuse failure => exact .refuse
    | breach breach => exact .breach
    | load name citing resume => exact .load fun target target' heq => congrArg resume heq
  settle := by
    rintro stack _ rfl ending
    cases h : stack.settle setting ending with
    | error halt => exact .inl ⟨halt, rfl, rfl⟩
    | ok template => exact .inr ⟨template, template, rfl, rfl, rfl⟩

end ScopeStack.Simulation

/-! ## The shape of the open tags -/

/-- A scope without the targets of the inclusions in it. -/
def Scope.shape (scope : Scope ρ) : Scope Unit :=
  ⟨scope.kind, scope.opening, scope.expression, scope.name, shapeOf scope.nodes⟩

/-- The open tags without the targets of the inclusions in them. -/
def ScopeStack.shape (stack : ScopeStack ρ) : ScopeStack Unit :=
  ⟨stack.current.shape, stack.enclosing.map Scope.shape⟩

/-- A move without targets. Where a template is to be loaded, `target` stands for it. -/
def Move.shape (target : ρ) : Move ρ → Move Unit
  | .proceed stack => .proceed stack.shape
  | .refuse failure => .refuse failure
  | .load name citing resume => .load name citing fun _ => (resume target).shape
  | .breach fault => .breach fault

theorem Move.shape_andThen {α : Type} (target : ρ) (value : Except LocatedFailure α)
    (next : α → Move ρ) :
    (Move.andThen value next).shape target = .andThen value fun a => (next a).shape target := by
  cases value <;> rfl

theorem Move.shape_ofStack (target : ρ) (result : Except ScopeBreach (ScopeStack ρ)) :
    (Move.ofStack result).shape target = .ofStack (result.map ScopeStack.shape) := by
  cases result <;> rfl

theorem Scope.shape_append (scope : Scope ρ) (node : Node Unit ρ) :
    (scope.append node).shape = scope.shape.append node.shape := by
  rw [Scope.shape, Scope.append, shapeOf_append]
  rfl

theorem Scope.toBranch_shape (contentType : ContentType) (scope : Scope ρ) :
    scope.shape.toBranch contentType = (scope.toBranch contentType).map Node.shape := by
  rw [Scope.toBranch, Scope.toBranch, show scope.shape.expression = scope.expression from rfl]
  cases scope.expression <;> rfl

theorem Scope.toBlock_shape (contentType : ContentType) (scope : Scope ρ) :
    scope.shape.toBlock contentType = (scope.toBlock contentType).map Node.shape := by
  rw [Scope.toBlock, Scope.toBlock, show scope.shape.name = scope.name from rfl]
  cases scope.name <;> rfl

namespace ScopeStack

variable {setting : Setting} {stack : ScopeStack ρ} {token : Token} (target : ρ)

theorem shape_append (stack : ScopeStack ρ) (node : Node Unit ρ) :
    (stack.append node).shape = stack.shape.append node.shape := by
  rw [ScopeStack.shape, ScopeStack.append, Scope.shape_append]
  rfl

/-- Closing the innermost scope, and doing so without targets. -/
theorem collapse_shape {toNode : Scope ρ → Except ScopeBreach (Node Unit ρ)}
    {toNode' : Scope Unit → Except ScopeBreach (Node Unit Unit)}
    (h : ∀ scope, toNode' scope.shape = (toNode scope).map Node.shape) (stack : ScopeStack ρ) :
    stack.shape.collapse toNode' = (stack.collapse toNode).map ScopeStack.shape := by
  obtain ⟨scope, enclosing⟩ := stack
  cases enclosing with
  | nil => rfl
  | cons below enclosing =>
    simp only [collapse, pop, ScopeStack.shape, List.map_cons, bind, Except.bind, h]
    cases toNode scope with
    | error breach => rfl
    | ok node =>
      exact congrArg Except.ok (shape_append ⟨below, enclosing⟩ node).symm

theorem moveVariable_shape (escape : Bool) :
    stack.shape.moveVariable setting token escape =
      (stack.moveVariable setting token escape).shape target := by
  rw [moveVariable, moveVariable, Move.shape_andThen]
  congr 1
  funext expression
  exact congrArg Move.proceed
    (shape_append stack (.interpolation token.line expression escape)).symm

theorem moveSection_shape (kind opposite : Scope.Kind) :
    stack.shape.moveSection setting token kind opposite =
      (stack.moveSection setting token kind opposite).shape target := by
  rw [moveSection, moveSection, Move.shape_andThen]
  congr 1
  funext content
  show (if stack.continues opposite content then _ else _) = _
  split
  · rw [Move.shape_ofStack, collapse_shape (Scope.toBranch_shape setting.contentType)]
    cases stack.collapse (Scope.toBranch setting.contentType) <;> rfl
  · cases content <;> rfl

theorem moveNamed_shape (kind : Scope.Kind) (role : NameRole) :
    stack.shape.moveNamed setting token kind role =
      (stack.moveNamed setting token kind role).shape target := by
  rw [moveNamed, moveNamed, Move.shape_andThen]
  rfl

theorem closeBranch_shape :
    stack.shape.closeBranch setting token = (stack.closeBranch setting token).shape target := by
  rw [closeBranch, closeBranch, Move.shape_andThen,
    collapse_shape (Scope.toBranch_shape setting.contentType)]
  congr 1
  funext content
  show (if content.isNone || content = stack.current.expression then _ else _) = _
  split
  · rw [Move.shape_ofStack]
  · rfl

theorem closeBlock_shape :
    stack.shape.closeBlock setting token = (stack.closeBlock setting token).shape target := by
  rw [closeBlock, closeBlock, Move.shape_andThen,
    collapse_shape (Scope.toBlock_shape setting.contentType)]
  congr 1
  funext content
  show (if content.isNone || content = stack.current.name then _ else _) = _
  split
  · rw [Move.shape_ofStack]
  · rfl

theorem closeLayout_shape :
    stack.shape.closeLayout setting token = (stack.closeLayout setting token).shape target := by
  rw [closeLayout, closeLayout, Move.shape_andThen]
  congr 1
  funext content
  show (if content.isNone || content = stack.current.name then _ else _) = _
  split
  · obtain ⟨scope, enclosing⟩ := stack
    cases enclosing with
    | nil => rfl
    | cons below enclosing =>
      cases hname : scope.name with
      | none => simp [pop, ScopeStack.shape, Scope.shape, hname, Move.shape]
      | some name =>
        have hname' : scope.shape.name = some name := hname
        simp only [pop, ScopeStack.shape, List.map_cons, hname', Move.shape]
        refine congrArg (Move.load name scope.opening) (funext fun _ => ?_)
        exact (shape_append ⟨below, enclosing⟩ (scope.toLayout setting.contentType name target)).symm
  · rfl

/-- What a token does to the open tags does not depend on the targets in them. -/
theorem move_shape (stack : ScopeStack ρ) (token : Token) :
    stack.shape.move setting token = (stack.move setting token).shape target := by
  rw [move, move]
  cases token.kind with
  | setDelimiters | comment | pragma => rfl
  | text => exact congrArg Move.proceed (shape_append stack (.text token.line token.content)).symm
  | escapedVariable => exact moveVariable_shape target true
  | unescapedVariable => exact moveVariable_shape target false
  | openSection | openInverted => exact moveSection_shape target _ _
  | openBlock | openLayout => exact moveNamed_shape target _ _
  | close =>
    show stack.shape.moveClose setting token = (stack.moveClose setting token).shape target
    rw [moveClose, moveClose, show stack.shape.current.kind = stack.current.kind from rfl]
    cases stack.current.kind with
    | root => rfl
    | branch | inverted => exact closeBranch_shape target
    | layout => exact closeLayout_shape target
    | block => exact closeBlock_shape target
  | inclusion =>
    show stack.shape.moveInclusion setting token = (stack.moveInclusion setting token).shape target
    rw [moveInclusion, moveInclusion, Move.shape_andThen]
    congr 1
    funext name
    refine congrArg (Move.load name (some token)) (funext fun _ => ?_)
    exact (shape_append stack (.inclusion ⟨token.line, name, target⟩)).symm

/-- What the end of a stream makes of the open tags does not depend on the targets in them. -/
theorem settle_shape (setting : Setting) (ending : Option Failure) (stack : ScopeStack ρ) :
    stack.shape.settle setting ending = (stack.settle setting ending).map Body.shape := by
  cases ending with
  | some failure =>
    simp only [settle]
    split
    · rfl
    · rfl
  | none =>
    obtain ⟨scope, enclosing⟩ := stack
    cases enclosing with
    | nil => rfl
    | cons below enclosing => rfl

/-- Moves of open tags of the same shape lead to open tags of the same shape again. -/
theorem related_of_shape_eq {ρ' : Type} [Inhabited ρ] [Inhabited ρ'] {move : Move ρ}
    {move' : Move ρ'} (h : ∀ target target', move.shape target = move'.shape target') :
    move.Related (fun _ _ => True) (fun stack stack' => stack.shape = stack'.shape) move' := by
  have hdefault := h default default
  cases move <;> cases move' <;> simp only [Move.shape, reduceCtorEq] at hdefault
  case proceed.proceed => exact .proceed (Move.proceed.inj hdefault)
  case refuse.refuse =>
    obtain rfl := Move.refuse.inj hdefault
    exact .refuse
  case load.load =>
    obtain ⟨rfl, rfl, _⟩ := Move.load.inj hdefault
    refine .load fun target target' _ => ?_
    exact congrFun (Move.load.inj (h target target')).2.2 ()
  case breach.breach =>
    obtain rfl := Move.breach.inj hdefault
    exact .breach

/-- Compilations whose open tags have the same shape go on alike, whatever they load. -/
theorem Simulation.shape (setting : Setting) {ρ' : Type} [Inhabited ρ] [Inhabited ρ'] :
    Simulation setting (fun (_ : ρ) (_ : ρ') => True) (fun stack stack' => stack.shape = stack'.shape)
      (fun template template' => template.shape = template'.shape) where
  initial := rfl
  move h token := by
    refine related_of_shape_eq fun target target' => ?_
    rw [← move_shape target, ← move_shape target', h]
  settle := by
    intro stack stack' h ending
    have hsettle : (stack.settle setting ending).map Body.shape =
        (stack'.settle setting ending).map Body.shape := by
      rw [← settle_shape, ← settle_shape, h]
    cases hx : stack.settle setting ending <;> cases hx' : stack'.settle setting ending <;>
      rw [hx, hx'] at hsettle
    case error.error halt halt' =>
      obtain rfl : halt = halt' := Except.error.inj hsettle
      exact .inl ⟨_, rfl, rfl⟩
    case ok.ok => exact .inr ⟨_, _, rfl, rfl, Except.ok.inj hsettle⟩
    all_goals cases hsettle

end ScopeStack

end Logicless
