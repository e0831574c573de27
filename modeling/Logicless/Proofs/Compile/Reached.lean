import Logicless.Proofs.Compile.Finality
import Logicless.Proofs.Compile.Shape

/-!
# Compilers that were used before

A compiler can be used in any order, and streams of tokens may break off in it. If it still goes on, it is
where some tokens bring a new compiler that accepts them one after another. So what accepted tokens keep
of the open tags is true of every compiler that goes on. An example is that the open tags can be closed by
what opened them: their expressions and names are such that tags can be written with them.

## Shape of the module

* `Compiler.Reached` says that a compiler, unless it has failed, is where accepted tokens bring it.
  `Reached.feed` is the step for tokens, and `Course.reached_after` is about all uses of a compiler.
* `ScopeStack.Legible` is what the open tags are known to say; `Legible.advance` is the step and
  `Legible.run` the run.
-/

namespace Logicless

variable {σ ρ : Type}

/-! ## Compilers that go on -/

namespace Compiler

/-- Unless it has failed, the compiler has come from `start` to where it is by tokens that were accepted one
after another. -/
def Reached (setting : Setting) (loader : Option (Loader σ ρ)) (start : Progression σ ρ)
    (compiler : Compiler ρ) (state : σ) : Prop :=
  compiler.failure? = none →
    ∃ stack accepted, compiler = running setting stack ∧
      Run setting (loader.getD .absent) accepted start (stack, state)

/-- A token that the stack cannot take changes nothing. -/
theorem eq_of_feed_eq_broken {loader : Option (Loader σ ρ)} {compiler compiler' : Compiler ρ}
    {token : Token} {state state' : σ} {breach : ScopeBreach}
    (h : compiler.feed loader token state = (.broken breach, compiler', state')) :
    compiler' = compiler ∧ state' = state := by
  rw [feed] at h
  split at h
  · cases h
  · split at h
    · cases h
    · cases h
    · cases h
      exact ⟨rfl, rfl⟩
    · split at h <;> cases h

namespace Reached

variable {setting : Setting} {loader : Option (Loader σ ρ)} {start : Progression σ ρ}
  {compiler : Compiler ρ} {state : σ}

theorem of_failure? {failure : LocatedFailure} (h : compiler.failure? = some failure) :
    compiler.Reached setting loader start state := by
  intro hrunning
  cases h.symm.trans hrunning

theorem feed (h : compiler.Reached setting loader start state) (token : Token) :
    (compiler.feed loader token state).2.1.Reached setting loader start
      (compiler.feed loader token state).2.2 := by
  cases hfailure : compiler.failure? with
  | some failure =>
    rw [feed_of_failure? hfailure]
    exact of_failure? hfailure
  | none =>
    obtain ⟨stack, accepted, rfl, hrun⟩ := h hfailure
    rcases hfeed : (running setting stack).feed loader token state with ⟨reception, next, after⟩
    intro hrunning
    cases reception with
    | accepted =>
      obtain ⟨stack', rfl, hadvance⟩ := feed_eq_accepted_iff_advance.mp hfeed
      exact ⟨stack', accepted ++ [token], rfl, hrun.append (.single hadvance)⟩
    | refused =>
      obtain ⟨failure, hfailed⟩ := failed_of_feed_eq_refused hfeed
      exact of_failure? (progress_eq_failed_iff.mp hfailed) hrunning
    | broken breach =>
      obtain ⟨rfl, rfl⟩ := eq_of_feed_eq_broken hfeed
      exact ⟨stack, accepted, rfl, hrun⟩

theorem feedAll (h : compiler.Reached setting loader start state) (tokens : List Token) :
    (compiler.feedAll loader tokens state).2.1.Reached setting loader start
      (compiler.feedAll loader tokens state).2.2 := by
  induction tokens generalizing compiler state with
  | nil => exact h
  | cons token tokens ih =>
    have hnext := h.feed token
    rw [Compiler.feedAll]
    generalize compiler.feed loader token state = result at hnext
    obtain ⟨reception, next, after⟩ := result
    cases reception with
    | accepted => exact ih hnext
    | refused | broken => exact hnext

theorem fail (compiler : Compiler ρ) (failure : Failure) (state : σ) :
    (compiler.fail failure).Reached setting loader start state := by
  obtain ⟨recorded, hfailed⟩ := failed_of_fail compiler failure
  exact of_failure? (progress_eq_failed_iff.mp hfailed)

theorem conclude (h : compiler.Reached setting loader start state) :
    compiler.conclude.2.Reached setting loader start state := by
  rcases conclude_cases compiler with ⟨_, _, hsame⟩ | ⟨_, _, hfailed⟩
  · rw [hsame]
    exact h
  · exact of_failure? hfailed

theorem compile (h : compiler.Reached setting loader start state) (stream : Stream) :
    (compiler.compile loader stream state).2.1.Reached setting loader start
      (compiler.compile loader stream state).2.2 := by
  have hfed := h.feedAll stream.tokens
  have hending := ending_compile loader compiler stream state
  generalize compiler.compile loader stream state = result at hending
  cases hending with
  | unopened => exact h
  | broken heq | escaped heq => rw [heq] at hfed; exact hfed
  | refused heq | complete heq => rw [heq] at hfed; exact hfed.conclude
  | brokenOff => exact (fail _ _ _).conclude

end Reached

namespace Course

variable {setting : Setting} {loader : Option (Loader σ ρ)}
  {start : Progression (σ × List (Loader.Call σ)) ρ} {course : Course σ ρ}

/-- Where a course has come to by accepted tokens, unless its compiler has failed. -/
abbrev Reached (setting : Setting) (loader : Option (Loader σ ρ))
    (start : Progression (σ × List (Loader.Call σ)) ρ) (course : Course σ ρ) : Prop :=
  course.compiler.Reached setting (loader.map .logged) start (course.state, course.calls)

theorem Reached.perform (h : course.Reached setting loader start) (step : Step) :
    (course.perform loader step).2.Reached setting loader start := by
  cases step with
  | feed token => exact h.feed token
  | fail failure => exact .fail course.compiler failure _
  | finish => exact h.conclude
  | compile stream => exact h.compile stream

theorem Reached.after (h : course.Reached setting loader start) (steps : List Step) :
    (course.after loader steps).Reached setting loader start := by
  induction steps generalizing course with
  | nil => exact h
  | cons step steps ih => exact ih (h.perform step)

/-- A token that has an advance is accepted. -/
theorem perform_feed_of_advance (loader : Option (Loader σ ρ)) {stack stack' : ScopeStack ρ}
    {token : Token} {state' : σ} {calls' : List (Loader.Call σ)}
    (hcompiler : course.compiler = running setting stack)
    (hadvance : ScopeStack.Advance setting ((loader.map Loader.logged).getD .absent) token
      (stack, (course.state, course.calls)) (stack', (state', calls'))) :
    course.perform loader (.feed token) =
      (.received .accepted, ⟨running setting stack', state', calls'⟩) := by
  have hfeed : course.compiler.feed (loader.map .logged) token (course.state, course.calls) =
      (.accepted, running setting stack', state', calls') := by
    rw [hcompiler]
    exact feed_running_iff_advance.mpr hadvance
  simp only [perform, hfeed]

/-- Whatever a compiler was used for, if it goes on it is where accepted tokens bring a new one. -/
theorem exists_run_of_after {state : σ} {steps : List Step} {stack : ScopeStack ρ}
    (h : ((Course.start setting state).after loader steps).compiler.progress = .running stack) :
    let course := (Course.start setting state).after loader steps
    course.compiler = running setting stack ∧
      ∃ accepted, Run setting ((loader.map Loader.logged).getD .absent) accepted
        (.initial, (state, [])) (stack, (course.state, course.calls)) := by
  intro course
  have hstart : (Course.start setting state).Reached setting loader (.initial, (state, [])) :=
    fun _ => ⟨.initial, [], rfl, .nil⟩
  have hrunning : course.compiler.failure? = none := by rw [failure?, h]
  obtain ⟨stack', accepted, hcompiler, hrun⟩ := hstart.after steps hrunning
  rw [show course.compiler = _ from hcompiler] at h
  obtain rfl : stack' = stack := Progress.running.inj h
  exact ⟨hcompiler, accepted, hrun⟩

end Course

end Compiler

/-! ## What the open tags say -/

/-- The expression and the name of a scope, where it has them, can be written in a tag. -/
structure Scope.Legible (scope : Scope ρ) : Prop where
  expression : ∀ expression, scope.expression = some expression → expression.Legible
  name : ∀ name, scope.name = some name → IsName name

namespace ScopeStack

/-- All scopes have legible expressions and names. -/
def Legible (stack : ScopeStack ρ) : Prop :=
  ∀ scope ∈ stack.current :: stack.enclosing, scope.Legible

namespace Legible

variable {setting : Setting} {loader : Loader σ ρ} {token : Token} {tokens : List Token}
  {stack stack' : ScopeStack ρ} {scope below : Scope ρ} {enclosing : List (Scope ρ)} {state state' : σ}

theorem initial : (ScopeStack.initial : ScopeStack ρ).Legible := by
  intro scope hscope
  obtain rfl := List.mem_singleton.mp hscope
  exact ⟨nofun, nofun⟩

theorem current (h : stack.Legible) : stack.current.Legible :=
  h _ List.mem_cons_self

theorem outside (h : Legible ⟨scope, below :: enclosing⟩) : Legible ⟨below, enclosing⟩ :=
  fun _ hscope => h _ (List.mem_cons_of_mem _ hscope)

theorem append (h : stack.Legible) (node : Node Unit ρ) : (stack.append node).Legible := by
  intro scope hscope
  rcases List.mem_cons.mp hscope with rfl | hscope
  · exact ⟨h.current.expression, h.current.name⟩
  · exact h _ (List.mem_cons_of_mem _ hscope)

theorem push (h : stack.Legible) (hscope : scope.Legible) : (stack.push scope).Legible :=
  List.forall_mem_cons.mpr ⟨hscope, h⟩

/-- A tag that opens a section says its expression. -/
theorem pushSection {expression : Expr} {inverted : Bool} (h : stack.Legible)
    (hexpression : expression.Legible) :
    (stack.push ⟨.ofSection inverted, some token, some expression, none, []⟩).Legible := by
  refine h.push ⟨?_, nofun⟩
  rintro _ ⟨⟩
  exact hexpression

/-- A tag that opens a block or a layout says its name. -/
theorem pushNamed {kind : Scope.Kind} {role : NameRole} {name : String} (h : stack.Legible)
    (hname : token.Names role name) :
    (stack.push ⟨kind, some token, none, some name, []⟩).Legible := by
  refine h.push ⟨nofun, ?_⟩
  rintro _ ⟨⟩
  exact (parseName_eq_ok_iff.mp hname).2

theorem advance (hadvance : Advance setting loader token (stack, state) (stack', state'))
    (h : stack.Legible) : stack'.Legible := by
  cases hadvance with
  | skip => exact h
  | text | interpolation | inclusion => exact h.append _
  | openSection _ hreads => exact h.pushSection ⟨_, hreads⟩
  | alternative _ hscope =>
    -- the tag may be blank, but the branch before it has the expression
    exact (h.outside.append _).pushSection (h.current.expression _ hscope.2)
  | openBlock _ hname | openLayout _ hname => exact h.pushNamed hname
  | closeSection | closeBlock | closeLayout => exact h.outside.append _

theorem run {p q : Progression σ ρ} (hrun : Run setting loader tokens p q) (h : p.1.Legible) :
    q.1.Legible := by
  induction hrun with
  | nil => exact h
  | cons hadvance _ ih => exact ih (h.advance hadvance)

end Legible

end ScopeStack

end Logicless
