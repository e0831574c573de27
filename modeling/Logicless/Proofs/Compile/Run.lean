import Logicless.Proofs.Compile.Advance

/-!
# What accepted tokens do

A compilation succeeds exactly if its tokens are all accepted, one after another, and leave no tag
open. So what is known of single advances carries over to whole templates by induction on the run.

## Shape of the module

* `Run` is a sequence of advances, one for each token.
* `feed_eq_accepted_iff` and `feedAll_eq_accepted_iff` say that the compiler accepts tokens exactly
  where they have a run, and `compileTemplate_eq_ok_iff` says what a template is compiled to.
* `exists_compileTemplate_some` says that nothing of this depends on there being a loader, and
  `feedAll_eq_accepted_iff_run` states it for compilers with or without one.
* `feedAll_append` and `compile_append` take tokens in two parts.
-/

namespace Logicless

variable {σ ρ : Type}

/-! ## Several tokens -/

/-- What some tokens that are all accepted do to the open tags and to the state of the loader. -/
inductive Run (setting : Setting) (loader : Loader σ ρ) :
    List Token → Progression σ ρ → Progression σ ρ → Prop
  | nil {p : Progression σ ρ} : Run setting loader [] p p
  | cons {token : Token} {tokens : List Token} {p q r : Progression σ ρ}
      (hadvance : ScopeStack.Advance setting loader token p q)
      (hrun : Run setting loader tokens q r) : Run setting loader (token :: tokens) p r

namespace Run

variable {setting : Setting} {loader : Loader σ ρ} {tokens tokens' : List Token}
  {p q r : Progression σ ρ}

theorem append (h : Run setting loader tokens p q) (h' : Run setting loader tokens' q r) :
    Run setting loader (tokens ++ tokens') p r := by
  induction h with
  | nil => exact h'
  | cons hadvance _ ih => exact .cons hadvance (ih h')

theorem single {token : Token} (h : ScopeStack.Advance setting loader token p q) :
    Run setting loader [token] p q :=
  .cons h .nil

end Run

namespace Compiler

variable {setting : Setting} {loader : Loader σ ρ} {token : Token} {stack stack' : ScopeStack ρ}
  {state state' : σ}

/-- A compiler that runs on with these open tags. -/
abbrev running (setting : Setting) (stack : ScopeStack ρ) : Compiler ρ :=
  ⟨setting, .running stack⟩

theorem load_some_eq (citing : Option Token) (name : String) (state : σ) :
    setting.load (some loader) citing name state =
      ((loader name setting.template state).1.mapError (setting.inclusionFailure citing name),
        (loader name setting.template state).2) := by
  rw [Setting.load]
  rcases loader name setting.template state with ⟨_ | _, _⟩ <;> rfl

/-- A token is accepted exactly if it has an advance. -/
theorem feed_eq_accepted_iff {compiler' : Compiler ρ} :
    (running setting stack).feed (some loader) token state = (.accepted, compiler', state') ↔
      ∃ stack', compiler' = running setting stack' ∧
        ScopeStack.Advance setting loader token (stack, state) (stack', state') := by
  simp only [← ScopeStack.yields_iff_advance]
  rw [feed]
  cases hmove : stack.move setting token with
  | proceed next =>
    simp only [hmove, Move.Yields, runningWith, Prod.mk.injEq, true_and, Move.proceed.injEq,
      reduceCtorEq, false_and, exists_false, or_false]
    constructor
    · rintro ⟨rfl, rfl⟩
      exact ⟨next, rfl, rfl, rfl⟩
    · rintro ⟨_, rfl, rfl, rfl⟩
      exact ⟨rfl, rfl⟩
  | refuse failure => simp [hmove, Move.Yields]
  | breach breach => simp [hmove, Move.Yields]
  | load name citing resume =>
    simp only [hmove, load_some_eq, Move.Yields, Move.load.injEq, reduceCtorEq, false_and,
      false_or]
    constructor
    · intro h
      rcases hload : loader name setting.template state with ⟨_ | target, after⟩
      · simp [hload] at h
      · simp only [hload, mapError_ok, Prod.mk.injEq, true_and] at h
        obtain ⟨rfl, rfl⟩ := h
        exact ⟨_, rfl, name, citing, resume, target, ⟨rfl, rfl, rfl⟩, hload, rfl⟩
    · rintro ⟨_, rfl, _, _, _, target, ⟨rfl, rfl, rfl⟩, hload, rfl⟩
      simp [hload, runningWith]

/-- Tokens are all accepted exactly if they have a run. -/
theorem feedAll_eq_accepted_iff {tokens : List Token} {compiler' : Compiler ρ} :
    (running setting stack).feedAll (some loader) tokens state = (.accepted, compiler', state') ↔
      ∃ stack', compiler' = running setting stack' ∧
        Run setting loader tokens (stack, state) (stack', state') := by
  induction tokens generalizing stack state with
  | nil =>
    rw [feedAll]
    constructor
    · intro h
      cases h
      exact ⟨stack, rfl, .nil⟩
    · rintro ⟨_, rfl, h⟩
      cases h
      rfl
  | cons token tokens ih =>
    rw [feedAll]
    constructor
    · intro h
      split at h
      · rename_i compiler'' state'' hfeed
        obtain ⟨stack'', rfl, hadvance⟩ := feed_eq_accepted_iff.mp hfeed
        obtain ⟨stack', rfl, hrun⟩ := ih.mp h
        exact ⟨stack', rfl, .cons hadvance hrun⟩
      · rename_i hstopped
        exact absurd h (hstopped _ _)
    · rintro ⟨stack', rfl, h⟩
      cases h with
      | @cons _ _ _ q _ hadvance hrun =>
        rw [feed_eq_accepted_iff.mpr ⟨q.1, rfl, hadvance⟩]
        exact ih.mpr ⟨stack', rfl, hrun⟩

/-- A token that is refused leaves the compiler failed. -/
theorem failed_of_feed_eq_refused {loader : Option (Loader σ ρ)} {compiler compiler' : Compiler ρ}
    (h : compiler.feed loader token state = (.refused, compiler', state')) :
    ∃ failure, compiler'.progress = .failed failure := by
  rw [feed] at h
  split at h
  · rename_i failure hprogress
    cases h
    exact ⟨failure, hprogress⟩
  · split at h
    · cases h
    · cases h
      exact ⟨_, rfl⟩
    · cases h
    · split at h
      · cases h
      · cases h
        exact ⟨_, rfl⟩

/-- Tokens that are not all accepted leave the compiler failed, or break the stack. -/
theorem failed_of_feedAll_eq_refused {loader : Option (Loader σ ρ)} {tokens : List Token}
    {compiler compiler' : Compiler ρ}
    (h : compiler.feedAll loader tokens state = (.refused, compiler', state')) :
    ∃ failure, compiler'.progress = .failed failure := by
  induction tokens generalizing compiler state with
  | nil =>
    rw [feedAll] at h
    cases h
  | cons token tokens ih =>
    rw [feedAll] at h
    split at h
    · exact ih h
    · exact failed_of_feed_eq_refused h

theorem conclude_of_failed {compiler : Compiler ρ} {failure : LocatedFailure}
    (h : compiler.progress = .failed failure) :
    compiler.conclude = (.error (.recorded failure), compiler) := by
  simp [conclude, finish, h]

/-- A running compiler ends with a template exactly if no tag is open. -/
theorem conclude_running_eq_ok_iff {template : Template Unit ρ} :
    (running setting stack).conclude.1 = .ok template ↔
      stack.enclosing = [] ∧ template = stack.current.body setting.contentType := by
  simp only [conclude, finish]
  cases stack.enclosing <;> simp [eq_comm]

theorem failed_of_fail (compiler : Compiler ρ) (failure : Failure) :
    ∃ recorded, (compiler.fail failure).progress = .failed recorded := by
  rw [fail]
  cases h : compiler.progress with
  | running _ => exact ⟨_, rfl⟩
  | failed recorded => exact ⟨recorded, h⟩

/-- A token that is accepted without a loader is accepted with any. -/
theorem feed_of_feed_none {compiler compiler' : Compiler ρ} (loader : Loader σ ρ)
    (h : compiler.feed none token state = (.accepted, compiler', state')) :
    compiler.feed (some loader) token state = (.accepted, compiler', state') := by
  rw [feed] at h ⊢
  split at h
  · cases h
  · split at h
    · exact h
    · cases h
    · cases h
    · -- there is nothing to load with, so a token that needs a template is refused
      simp [Setting.load] at h

theorem feedAll_of_feedAll_none {tokens : List Token} {compiler compiler' : Compiler ρ}
    (loader : Loader σ ρ)
    (h : compiler.feedAll none tokens state = (.accepted, compiler', state')) :
    compiler.feedAll (some loader) tokens state = (.accepted, compiler', state') := by
  induction tokens generalizing compiler state with
  | nil => exact h
  | cons token tokens ih =>
    rw [feedAll] at h ⊢
    split at h
    · rename_i hfeed
      rw [feed_of_feed_none loader hfeed]
      exact ih h
    · rename_i hstopped
      exact absurd h (hstopped _ _)

end Compiler

/-- An opened stream is compiled exactly if it ends and its tokens run to the end of every tag. -/
theorem compileTemplate_opened_eq_ok_iff {setting : Setting} {loader : Loader σ ρ}
    {tokens : List Token} {ending : Option Failure} {state state' : σ} {template : Template Unit ρ} :
    compileTemplate setting (some loader) (.opened tokens ending) state = (.ok template, state') ↔
      ending = none ∧ ∃ scope, template = scope.body setting.contentType ∧
        Run setting loader tokens (.initial, state) (⟨scope, []⟩, state') := by
  rw [compileTemplate, Compiler.compile, Compiler.read, Compiler.initial]
  rcases hfeed : (Compiler.running setting .initial).feedAll (some loader) tokens state with
    ⟨reception, compiler, after⟩
  -- a run to the end of every tag is what the compiler has made of the tokens
  have heq : ∀ scope,
      Run setting loader tokens (.initial, state) (⟨scope, []⟩, state') →
        (reception, compiler, after) = (.accepted, Compiler.running setting ⟨scope, []⟩, state') := by
    intro scope hrun
    rw [← hfeed, Compiler.feedAll_eq_accepted_iff]
    exact ⟨_, rfl, hrun⟩
  cases reception with
  | broken breach =>
    simp only [Prod.mk.injEq, reduceCtorEq, false_and, false_iff]
    rintro ⟨_, scope, _, hrun⟩
    cases heq scope hrun
  | refused =>
    obtain ⟨failure, hfailed⟩ := Compiler.failed_of_feedAll_eq_refused hfeed
    simp only [Compiler.conclude_of_failed hfailed, Prod.mk.injEq, reduceCtorEq, false_and, false_iff]
    rintro ⟨_, scope, _, hrun⟩
    cases heq scope hrun
  | accepted =>
    obtain ⟨stack, rfl, hrun⟩ := Compiler.feedAll_eq_accepted_iff.mp hfeed
    cases ending with
    | some failure =>
      obtain ⟨recorded, hfailed⟩ := Compiler.failed_of_fail (.running setting stack) failure
      simp only [Compiler.conclude_of_failed hfailed, reduceCtorEq, false_and, iff_false]
      split <;> simp
    | none =>
      simp only [Prod.mk.injEq, Compiler.conclude_running_eq_ok_iff, true_and]
      constructor
      · rintro ⟨⟨henclosing, rfl⟩, rfl⟩
        obtain ⟨scope, enclosing⟩ := stack
        obtain rfl := henclosing
        exact ⟨scope, rfl, hrun⟩
      · rintro ⟨scope, rfl, hscope⟩
        cases heq scope hscope
        exact ⟨⟨rfl, rfl⟩, rfl⟩

/-- A template is compiled exactly if its stream is opened and ends and its tokens run to the end of
every tag. -/
theorem compileTemplate_eq_ok_iff {setting : Setting} {loader : Loader σ ρ} {stream : Stream}
    {state state' : σ} {template : Template Unit ρ} :
    compileTemplate setting (some loader) stream state = (.ok template, state') ↔
      stream.failure? = none ∧ ∃ scope, template = scope.body setting.contentType ∧
        Run setting loader stream.tokens (.initial, state) (⟨scope, []⟩, state') := by
  cases stream with
  | unopened failure => simp [compileTemplate, Compiler.compile, Stream.failure?]
  | opened tokens ending => exact compileTemplate_opened_eq_ok_iff

/-- A template that compiles without a loader compiles with any, to the same. -/
theorem compileTemplate_of_none {setting : Setting} {stream : Stream} {state state' : σ}
    {template : Template Unit ρ} (loader : Loader σ ρ)
    (h : compileTemplate setting none stream state = (.ok template, state')) :
    compileTemplate setting (some loader) stream state = (.ok template, state') := by
  cases stream with
  | unopened failure => cases h
  | opened tokens ending =>
    rw [compileTemplate, Compiler.compile, Compiler.read] at h ⊢
    rcases hfeed : (Compiler.initial setting : Compiler ρ).feedAll none tokens state with
      ⟨reception, compiler, after⟩
    rw [hfeed] at h
    cases reception with
    | broken breach => cases h
    | refused =>
      obtain ⟨failure, hfailed⟩ := Compiler.failed_of_feedAll_eq_refused hfeed
      simp [Compiler.conclude_of_failed hfailed] at h
    | accepted => rwa [Compiler.feedAll_of_feedAll_none loader hfeed]

/-- What compiles with or without a loader compiles with some loader. -/
theorem exists_compileTemplate_some {setting : Setting} {loader : Option (Loader σ ρ)}
    {stream : Stream} {state state' : σ} {template : Template Unit ρ}
    (h : compileTemplate setting loader stream state = (.ok template, state')) :
    ∃ loader, compileTemplate setting (some loader) stream state = (.ok template, state') := by
  cases loader with
  | some loader => exact ⟨loader, h⟩
  | none =>
    exact ⟨_, compileTemplate_of_none (fun _ _ state => (.error Fault.tooDeep.alone, state)) h⟩

/-! ## With or without a loader -/

/-- Stands in for a loader where there is none. It finds nothing. -/
def Loader.absent : Loader σ ρ :=
  fun name _ state => (.error (Fault.notFound (.unknown name)).alone, state)

namespace Compiler

variable {setting : Setting} {loader : Option (Loader σ ρ)} {token : Token}
  {tokens tokens' : List Token} {stack stack' : ScopeStack ρ} {compiler compiler' : Compiler ρ}
  {state state' : σ}

/-- A token is accepted without a loader exactly if it is accepted where nothing can be loaded. -/
theorem feed_getD_absent_eq_accepted_iff :
    compiler.feed (some (loader.getD .absent)) token state = (.accepted, compiler', state') ↔
      compiler.feed loader token state = (.accepted, compiler', state') := by
  cases loader with
  | some loader => exact Iff.rfl
  | none =>
    refine ⟨fun h => ?_, feed_of_feed_none Loader.absent⟩
    rw [feed] at h ⊢
    split at h
    · cases h
    · split at h
      · exact h
      · cases h
      · cases h
      · -- the token would need a template
        rw [load_some_eq] at h
        simp [Loader.absent] at h

/-- A compiler, with a loader or without, accepts a token exactly if the token has an advance. -/
theorem feed_eq_accepted_iff_advance :
    (running setting stack).feed loader token state = (.accepted, compiler', state') ↔
      ∃ stack', compiler' = running setting stack' ∧
        ScopeStack.Advance setting (loader.getD .absent) token (stack, state) (stack', state') := by
  rw [← feed_getD_absent_eq_accepted_iff, feed_eq_accepted_iff]

/-- The same for the open tags that the token leaves. -/
theorem feed_running_iff_advance :
    (running setting stack).feed loader token state = (.accepted, running setting stack', state') ↔
      ScopeStack.Advance setting (loader.getD .absent) token (stack, state) (stack', state') := by
  simp [feed_eq_accepted_iff_advance]

theorem feedAll_getD_absent_eq_accepted_iff :
    compiler.feedAll (some (loader.getD .absent)) tokens state = (.accepted, compiler', state') ↔
      compiler.feedAll loader tokens state = (.accepted, compiler', state') := by
  induction tokens generalizing compiler state with
  | nil => exact Iff.rfl
  | cons token tokens ih =>
    rw [feedAll, feedAll]
    constructor
    · intro h
      split at h
      · rename_i hfeed
        rw [feed_getD_absent_eq_accepted_iff.mp hfeed]
        exact ih.mp h
      · rename_i hstopped
        exact absurd h (hstopped _ _)
    · intro h
      split at h
      · rename_i hfeed
        rw [feed_getD_absent_eq_accepted_iff.mpr hfeed]
        exact ih.mpr h
      · rename_i hstopped
        exact absurd h (hstopped _ _)

/-- A compiler, with a loader or without, accepts tokens exactly if they have a run. -/
theorem feedAll_eq_accepted_iff_run :
    (running setting stack).feedAll loader tokens state = (.accepted, compiler', state') ↔
      ∃ stack', compiler' = running setting stack' ∧
        Run setting (loader.getD .absent) tokens (stack, state) (stack', state') := by
  rw [← feedAll_getD_absent_eq_accepted_iff, feedAll_eq_accepted_iff]

/-- The same for the open tags that the tokens leave. -/
theorem feedAll_running_iff_run :
    (running setting stack).feedAll loader tokens state = (.accepted, running setting stack', state') ↔
      Run setting (loader.getD .absent) tokens (stack, state) (stack', state') := by
  simp [feedAll_eq_accepted_iff_run]

/-- Once some tokens are accepted, others are taken as if they were the first. -/
theorem feedAll_append
    (h : compiler.feedAll loader tokens state = (.accepted, compiler', state'))
    (tokens' : List Token) :
    compiler.feedAll loader (tokens ++ tokens') state = compiler'.feedAll loader tokens' state' := by
  induction tokens generalizing compiler state with
  | nil =>
    cases h
    rfl
  | cons token tokens ih =>
    rw [List.cons_append, feedAll]
    rw [feedAll] at h
    split at h
    · exact ih h
    · rename_i hstopped
      exact absurd h (hstopped _ _)

/-- Tokens that are accepted together with others are accepted on their own. -/
theorem exists_feedAll_of_append
    (h : compiler.feedAll loader (tokens ++ tokens') state = (.accepted, compiler', state')) :
    ∃ between after, compiler.feedAll loader tokens state = (.accepted, between, after) := by
  induction tokens generalizing compiler state with
  | nil => exact ⟨compiler, state, rfl⟩
  | cons token tokens ih =>
    rw [List.cons_append, feedAll] at h
    rw [feedAll]
    split at h
    · exact ih h
    · rename_i hstopped
      exact absurd h (hstopped _ _)

/-- Once the first tokens of an opened stream are accepted, the rest is compiled as if it were all. -/
theorem compile_append (h : compiler.feedAll loader tokens state = (.accepted, compiler', state'))
    (others : List Token) (ending : Option Failure) :
    compiler.compile loader (.opened (tokens ++ others) ending) state =
      compiler'.compile loader (.opened others ending) state' := by
  rw [compile, compile, read, read, feedAll_append h]

end Compiler

/-- A template is compiled, with a loader or without, exactly if its stream is opened and ends and its
tokens run to the end of every tag. -/
theorem compileTemplate_eq_ok_iff_run {setting : Setting} {loader : Option (Loader σ ρ)}
    {stream : Stream} {state state' : σ} {template : Template Unit ρ} :
    compileTemplate setting loader stream state = (.ok template, state') ↔
      stream.failure? = none ∧ ∃ scope, template = scope.body setting.contentType ∧
        Run setting (loader.getD .absent) stream.tokens (.initial, state) (⟨scope, []⟩, state') := by
  cases loader with
  | some loader => exact compileTemplate_eq_ok_iff
  | none =>
    refine ⟨fun h => compileTemplate_eq_ok_iff.mp (compileTemplate_of_none .absent h), ?_⟩
    rintro ⟨hfailure, scope, rfl, hrun⟩
    cases stream with
    | unopened failure => cases hfailure
    | opened tokens ending =>
      obtain rfl : ending = none := hfailure
      have hfeed : (Compiler.initial setting).feedAll none tokens state =
          (.accepted, .running setting ⟨scope, []⟩, state') :=
        Compiler.feedAll_running_iff_run.mpr hrun
      rw [compileTemplate, Compiler.compile, Compiler.read, hfeed]
      rfl

end Logicless
