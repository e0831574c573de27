import Logicless.Compile.Move

/-!
# Compiling a stream of tokens

A compiler takes the tokens of a template one by one. It is either running, with its stack of open
tags, or it has failed. The first failure is final: later tokens are ignored, and the end of the
template reports it.

Included templates are loaded as soon as they are met, by a loader that may change a state of its
own even when it fails.

## Shape of the module

* `Loader` loads templates; `inclusionFailure` is how a failure to load is reported.
* `Compiler` is the compiler with the operations `feed`, `fail`, `finish` and `compile`.
* `Stream` is a sequence of tokens that may fail to be opened and may break off. A stream that breaks
  off by a tokenization fault makes the compilation fail; any other failure of a stream escapes and
  leaves the compiler as it was. `Halt` tells the two apart.
-/

namespace Logicless

/-- Loads the template with a name, used inside the template with an id if any. -/
abbrev Loader (σ ρ : Type) : Type :=
  (name : String) → (relativeTo : Option String) → σ → Except Failure ρ × σ

/-- A sequence of tokens that is opened and then read one by one. -/
inductive Stream where
  /-- It cannot be opened. No token is read. -/
  | unopened (failure : Failure)
  /-- It gives the tokens, and then it may break off with a failure instead of ending. -/
  | opened (tokens : List Token) (ending : Option Failure)
deriving DecidableEq, Repr

namespace Stream

/-- A stream of tokens that is opened and ends. -/
def ofTokens (tokens : List Token) : Stream :=
  opened tokens none

/-- The tokens that can be read. -/
def tokens : Stream → List Token
  | unopened _ => []
  | opened tokens _ => tokens

/-- Why the stream cannot be opened, if it cannot. -/
def opening : Stream → Option Failure
  | unopened failure => some failure
  | opened _ _ => none

/-- How the stream breaks off, if it does. -/
def ending : Stream → Option Failure
  | unopened _ => none
  | opened _ ending => ending

/-- The failure that the stream has of its own: it cannot be opened, or it breaks off. -/
def failure? : Stream → Option Failure
  | unopened failure => some failure
  | opened _ ending => ending

theorem failure?_of_opening {stream : Stream} {failure : Failure}
    (h : stream.opening = some failure) : stream.failure? = some failure := by
  cases stream with
  | unopened _ => exact h
  | opened _ _ => cases h

theorem failure?_of_ending {stream : Stream} {failure : Failure}
    (h : stream.ending = some failure) : stream.failure? = some failure := by
  cases stream with
  | unopened _ => cases h
  | opened _ _ => exact h

end Stream

/-! ## Failures of inclusions -/

/-- How the failure of an included template is quoted in the failure of the including one: with its
place if it has one, and with the name of its kind if it is none of templates. -/
def Failure.quotation (failure : Failure) : String :=
  match failure.fault with
  | .located fault => fault.detail ++ " (" ++ fault.location ++ ")"
  | fault =>
    match fault.label? with
    | some label => label ++ ": " ++ fault.message
    | none => fault.message

/-- The detail of a failure to include the template `name` for some reason. -/
def inclusionDetail (name reason : String) : String :=
  "Cannot load partial '" ++ name ++ "': " ++ reason

/-- The failure to include the template `name` because loading it failed. -/
def Setting.inclusionFailure (setting : Setting) (citing : Option Token) (name : String)
    (failure : Failure) : LocatedFailure :=
  ⟨setting.cite citing .inclusion (inclusionDetail name failure.quotation), failure.faults⟩

/-- The failure to include the template `name` because there is no loader. -/
def Setting.loaderMissing (setting : Setting) (citing : Option Token) (name : String) :
    LocatedFailure :=
  ⟨setting.cite citing .inclusion (inclusionDetail name "no template repository"), []⟩

/-- Loads an included template. -/
def Setting.load {σ ρ : Type} (setting : Setting) (loader : Option (Loader σ ρ))
    (citing : Option Token) (name : String) (state : σ) : Except LocatedFailure ρ × σ :=
  match loader with
  | none => (.error (setting.loaderMissing citing name), state)
  | some loader =>
    match loader name setting.template state with
    | (.ok target, state) => (.ok target, state)
    | (.error failure, state) => (.error (setting.inclusionFailure citing name failure), state)

/-! ## The compiler -/

/-- How far a compilation has come. -/
inductive Progress (ρ : Type) where
  /-- It goes on, with these open tags. -/
  | running (stack : ScopeStack ρ)
  /-- It has failed. -/
  | failed (failure : LocatedFailure)

/-- A compiler. -/
structure Compiler (ρ : Type) where
  /-- What the compilation was told from outside. -/
  setting : Setting
  /-- How far it has come. -/
  progress : Progress ρ

/-- What became of a token. -/
inductive Reception where
  /-- It was taken. -/
  | accepted
  /-- The compilation has failed, by this token or before. -/
  | refused
  /-- The stack of open tags could not take it. -/
  | broken (breach : ScopeBreach)
deriving DecidableEq, Repr

/-- Why a compilation gives no template. -/
inductive Halt where
  /-- It has failed; the compiler keeps the failure. -/
  | recorded (failure : LocatedFailure)
  /-- A failure that is not its own went through it. -/
  | escaped (failure : Failure)
deriving DecidableEq, Repr

/-- The failure in either case. -/
def Halt.failure : Halt → Failure
  | recorded failure => failure.toFailure
  | escaped failure => failure

namespace Compiler

variable {σ ρ : Type}

/-- A compiler that has met no token. -/
def initial (setting : Setting) : Compiler ρ :=
  ⟨setting, .running .initial⟩

/-- The failure of the compilation, if it has failed. -/
def failure? (compiler : Compiler ρ) : Option LocatedFailure :=
  match compiler.progress with
  | .running _ => none
  | .failed failure => some failure

/-- The open tags, unless the compilation has failed. -/
def stack? (compiler : Compiler ρ) : Option (ScopeStack ρ) :=
  match compiler.progress with
  | .running stack => some stack
  | .failed _ => none

/-- The compiler with other open tags. -/
def runningWith (compiler : Compiler ρ) (stack : ScopeStack ρ) : Compiler ρ :=
  { compiler with progress := .running stack }

/-- The compiler after its first failure. -/
def failedWith (compiler : Compiler ρ) (failure : LocatedFailure) : Compiler ρ :=
  { compiler with progress := .failed failure }

/-- Takes one token. -/
def feed (loader : Option (Loader σ ρ)) (compiler : Compiler ρ) (token : Token) (state : σ) :
    Reception × Compiler ρ × σ :=
  match compiler.progress with
  | .failed _ => (.refused, compiler, state)
  | .running stack =>
    match stack.move compiler.setting token with
    | .proceed stack => (.accepted, compiler.runningWith stack, state)
    | .refuse failure => (.refused, compiler.failedWith failure, state)
    | .breach breach => (.broken breach, compiler, state)
    | .load name citing resume =>
      match compiler.setting.load loader citing name state with
      | (.ok target, state) => (.accepted, compiler.runningWith (resume target), state)
      | (.error failure, state) => (.refused, compiler.failedWith failure, state)

/-- The failure that a compilation records when its tokens break off: the given one if it has a
place in a template, else one that it is the cause of. -/
def brokenOff (setting : Setting) (failure : Failure) : LocatedFailure :=
  match failure.located? with
  | some failure => failure
  | none =>
    ⟨⟨.tokenization, failure.fault.message, none, setting.template⟩, failure.faults⟩

/-- Makes the compilation fail because its tokens broke off, unless it has failed already. -/
def fail (compiler : Compiler ρ) (failure : Failure) : Compiler ρ :=
  match compiler.progress with
  | .failed _ => compiler
  | .running _ => compiler.failedWith (brokenOff compiler.setting failure)

/-- The failure to close the innermost open tag, placed where the tag was opened. -/
def unclosed (setting : Setting) (scope : Scope ρ) : LocatedFailure :=
  ⟨setting.cite scope.opening .unclosed "Unclosed Mustache tag", []⟩

/-- Ends the template. An open tag makes the compilation fail. -/
def finish (compiler : Compiler ρ) : Except LocatedFailure (Template Unit ρ) × Compiler ρ :=
  match compiler.progress with
  | .failed failure => (.error failure, compiler)
  | .running stack =>
    match stack.enclosing with
    | [] => (.ok (stack.current.body compiler.setting.contentType), compiler)
    | _ :: _ =>
      let failure := unclosed compiler.setting stack.current
      (.error failure, compiler.failedWith failure)

/-- Takes tokens until one is not accepted. -/
def feedAll (loader : Option (Loader σ ρ)) :
    List Token → Compiler ρ → σ → Reception × Compiler ρ × σ
  | [], compiler, state => (.accepted, compiler, state)
  | token :: tokens, compiler, state =>
    match compiler.feed loader token state with
    | (.accepted, compiler, state) => feedAll loader tokens compiler state
    | stopped => stopped

/-- `finish`, with the failure as a halt. -/
def conclude (compiler : Compiler ρ) : Except Halt (Template Unit ρ) × Compiler ρ :=
  (compiler.finish.1.mapError .recorded, compiler.finish.2)

/-- Takes the tokens of a stream that may break off after them, and ends the template. -/
def read (loader : Option (Loader σ ρ)) (compiler : Compiler ρ) (tokens : List Token)
    (ending : Option Failure) (state : σ) : Except Halt (Template Unit ρ) × Compiler ρ × σ :=
  match compiler.feedAll loader tokens state with
  | (.broken breach, compiler, state) =>
    (.error (.escaped (Fault.scope breach).alone), compiler, state)
  | (.refused, compiler, state) => (compiler.conclude.1, compiler.conclude.2, state)
  | (.accepted, compiler, state) =>
    match ending with
    | none => (compiler.conclude.1, compiler.conclude.2, state)
    | some failure =>
      if failure.fault.isTokenization then
        let compiler := compiler.fail failure
        (compiler.conclude.1, compiler.conclude.2, state)
      else (.error (.escaped failure), compiler, state)

/-- Opens a stream, takes its tokens and ends the template. What keeps the stream from being opened
goes through the compilation, whatever it is. -/
def compile (loader : Option (Loader σ ρ)) (compiler : Compiler ρ) (stream : Stream) (state : σ) :
    Except Halt (Template Unit ρ) × Compiler ρ × σ :=
  match stream with
  | .unopened failure => (.error (.escaped failure), compiler, state)
  | .opened tokens ending => compiler.read loader tokens ending state

end Compiler

/-- Compiles a whole template. -/
def compileTemplate {σ ρ : Type} (setting : Setting) (loader : Option (Loader σ ρ))
    (stream : Stream) (state : σ) : Except Halt (Template Unit ρ) × σ :=
  let result := (Compiler.initial setting).compile loader stream state
  (result.1, result.2.2)

end Logicless
