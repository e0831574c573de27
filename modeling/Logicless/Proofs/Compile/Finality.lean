import Logicless.Proofs.Compile.Calls
import Logicless.Proofs.Compile.Grounded

/-!
# The first failure is final

A compiler can be used in any order: it is fed tokens, told that its tokens broke off, asked for its
template, and made to compile whole streams, more than once. Whatever it is asked for, it goes on as
long as nothing fails, and the first failure is the only one of its own that it ever reports.

What goes through a compiler is not its own: a stream may break off by a failure that is no
tokenization fault, and the compiler stays as the tokens before have left it.

## Shape of the module

* `Step` is what a compiler is asked for and `Reply` what it answers. `Course` is how far the use of a
  compiler has come, with all uses of its loader; `Course.perform` is one step.
* `Ending` lists how the compilation of a stream ends.
* `perform_of_failure?` says that a compiler that has failed stays as it is, and `steady_perform` that
  the open tags of one that has not are never in the way. `Course.Final` is what a failure means for
  all that follows.
* `tells_perform` says that the answer to a step tells whether the compiler goes on.
* `first_failure_final` is about all uses of a compiler and `syntax_failure_recorded` about a single
  stream.
-/

namespace Logicless

namespace Compiler

variable {σ ρ : Type}

/-! ## Courses -/

/-- What a compiler is asked for. -/
inductive Step where
  /-- To take a token. -/
  | feed (token : Token)
  /-- To fail, since its tokens broke off. -/
  | fail (failure : Failure)
  /-- To end the template. -/
  | finish
  /-- To take the tokens of a stream and end the template. -/
  | compile (stream : Stream)

/-- What a compiler answers. -/
inductive Reply (ρ : Type) where
  /-- What became of a token. -/
  | received (reception : Reception)
  /-- Nothing. -/
  | noted
  /-- The template, or why there is none. -/
  | ended (result : Except Halt (Template Unit ρ))

/-- How far the use of a compiler has come. -/
structure Course (σ ρ : Type) where
  /-- The compiler. -/
  compiler : Compiler ρ
  /-- The state of its loader. -/
  state : σ
  /-- What the loader was used for, the first use first. -/
  calls : List (Loader.Call σ) := []

namespace Course

/-- The use of a compiler that has met no token. -/
def start (setting : Setting) (state : σ) : Course σ ρ :=
  { compiler := .initial setting, state := state }

/-- One step, with the answer to it. The loader is used as it is, and its uses are noted. -/
def perform (loader : Option (Loader σ ρ)) (course : Course σ ρ) : Step → Reply ρ × Course σ ρ
  | .feed token =>
    let result := course.compiler.feed (loader.map .logged) token (course.state, course.calls)
    (.received result.1, ⟨result.2.1, result.2.2.1, result.2.2.2⟩)
  | .fail failure => (.noted, { course with compiler := course.compiler.fail failure })
  | .finish =>
    (.ended course.compiler.conclude.1, { course with compiler := course.compiler.conclude.2 })
  | .compile stream =>
    let result := course.compiler.compile (loader.map .logged) stream (course.state, course.calls)
    (.ended result.1, ⟨result.2.1, result.2.2.1, result.2.2.2⟩)

/-- The course after some steps. -/
def after (loader : Option (Loader σ ρ)) (course : Course σ ρ) (steps : List Step) : Course σ ρ :=
  steps.foldl (fun course step => (course.perform loader step).2) course

/-- The answers to some steps. -/
def replies (loader : Option (Loader σ ρ)) : Course σ ρ → List Step → List (Reply ρ)
  | _, [] => []
  | course, step :: steps =>
    (course.perform loader step).1 :: replies loader (course.perform loader step).2 steps

end Course

/-! ## How a compilation ends -/

/-- What the compilation of a stream comes to, by whether it is opened, what becomes of its tokens and
how it breaks off. -/
inductive Ending (loader : Option (Loader σ ρ)) (compiler : Compiler ρ) (stream : Stream)
    (state : σ) : Except Halt (Template Unit ρ) × Compiler ρ × σ → Prop
  | unopened {failure : Failure} (hopening : stream.opening = some failure) :
      Ending loader compiler stream state (.error (.escaped failure), compiler, state)
  | broken {breach : ScopeBreach} {last : Compiler ρ} {after : σ}
      (hfed : compiler.feedAll loader stream.tokens state = (.broken breach, last, after)) :
      Ending loader compiler stream state (.error (.escaped (Fault.scope breach).alone), last, after)
  | refused {last : Compiler ρ} {after : σ}
      (hfed : compiler.feedAll loader stream.tokens state = (.refused, last, after)) :
      Ending loader compiler stream state (last.conclude.1, last.conclude.2, after)
  | complete {last : Compiler ρ} {after : σ}
      (hfed : compiler.feedAll loader stream.tokens state = (.accepted, last, after))
      (hfailure : stream.failure? = none) :
      Ending loader compiler stream state (last.conclude.1, last.conclude.2, after)
  | brokenOff {last : Compiler ρ} {after : σ} {failure : Failure}
      (hfed : compiler.feedAll loader stream.tokens state = (.accepted, last, after))
      (hending : stream.ending = some failure) (htokenization : failure.fault.isTokenization = true) :
      Ending loader compiler stream state
        ((last.fail failure).conclude.1, (last.fail failure).conclude.2, after)
  | escaped {last : Compiler ρ} {after : σ} {failure : Failure}
      (hfed : compiler.feedAll loader stream.tokens state = (.accepted, last, after))
      (hending : stream.ending = some failure) (hforeign : failure.fault.isTokenization = false) :
      Ending loader compiler stream state (.error (.escaped failure), last, after)

/-- Every compilation of a stream ends in one of these ways. -/
theorem ending_compile (loader : Option (Loader σ ρ)) (compiler : Compiler ρ) (stream : Stream)
    (state : σ) : Ending loader compiler stream state (compiler.compile loader stream state) := by
  cases stream with
  | unopened failure => exact .unopened rfl
  | opened tokens ending =>
    rw [compile, read]
    rcases hfed : compiler.feedAll loader tokens state with ⟨reception, last, after⟩
    cases reception with
    | broken breach => exact .broken hfed
    | refused => exact .refused hfed
    | accepted =>
      cases ending with
      | none => exact .complete hfed rfl
      | some failure =>
        dsimp only
        by_cases htokenization : failure.fault.isTokenization = true
        · rw [if_pos htokenization]
          exact .brokenOff hfed rfl htokenization
        · rw [if_neg htokenization]
          exact .escaped hfed rfl (Bool.eq_false_iff.mpr htokenization)

/-! ## A compiler that has failed -/

section Failed

variable {loader : Option (Loader σ ρ)} {compiler : Compiler ρ} {failure : LocatedFailure}

theorem progress_eq_failed_iff :
    compiler.progress = .failed failure ↔ compiler.failure? = some failure := by
  rw [failure?]
  cases compiler.progress <;> simp

/-- Ending the template reports the failure again. -/
theorem conclude_of_failure? (h : compiler.failure? = some failure) :
    compiler.conclude = (.error (.recorded failure), compiler) :=
  conclude_of_failed (progress_eq_failed_iff.mpr h)

/-- A second failure is ignored. -/
theorem fail_of_failure? (h : compiler.failure? = some failure) (broken : Failure) :
    compiler.fail broken = compiler := by
  have hprogress : compiler.progress = .failed failure := progress_eq_failed_iff.mpr h
  rw [fail, hprogress]

theorem feed_of_failure? (h : compiler.failure? = some failure) (token : Token) (state : σ) :
    compiler.feed loader token state = (.refused, compiler, state) := by
  have hprogress : compiler.progress = .failed failure := progress_eq_failed_iff.mpr h
  rw [feed, hprogress]

/-- Tokens do nothing, whether there are any or not. -/
theorem feedAll_of_failure? (loader : Option (Loader σ ρ)) (h : compiler.failure? = some failure)
    (tokens : List Token) (state : σ) :
    compiler.feedAll loader tokens state = (.accepted, compiler, state) ∨
      compiler.feedAll loader tokens state = (.refused, compiler, state) := by
  cases tokens with
  | nil => exact .inl rfl
  | cons token tokens =>
    right
    rw [feedAll, feed_of_failure? h]

/-- The compilation of a stream changes nothing, and it reports the failure again unless the stream has
a failure of its own. -/
theorem compile_of_failure? (h : compiler.failure? = some failure) (stream : Stream) (state : σ) :
    (compiler.compile loader stream state).2 = (compiler, state) ∧
      (stream.failure? = none →
        (compiler.compile loader stream state).1 = .error (.recorded failure)) := by
  have hfed := feedAll_of_failure? loader h stream.tokens state
  have hlast : ∀ {reception last after},
      compiler.feedAll loader stream.tokens state = (reception, last, after) →
        last = compiler ∧ after = state ∧ ∀ breach, reception ≠ .broken breach := by
    intro reception last after heq
    rcases hfed with hfed | hfed
    · cases hfed.symm.trans heq
      exact ⟨rfl, rfl, by simp⟩
    · cases hfed.symm.trans heq
      exact ⟨rfl, rfl, by simp⟩
  have hending := ending_compile loader compiler stream state
  generalize compiler.compile loader stream state = result at hending
  cases hending with
  | unopened hopening =>
    refine ⟨rfl, fun hnone => ?_⟩
    cases hnone.symm.trans (Stream.failure?_of_opening hopening)
  | broken heq => exact absurd rfl ((hlast heq).2.2 _)
  | refused heq =>
    obtain ⟨rfl, rfl, _⟩ := hlast heq
    rw [conclude_of_failure? h]
    exact ⟨rfl, fun _ => rfl⟩
  | complete heq _ =>
    obtain ⟨rfl, rfl, _⟩ := hlast heq
    rw [conclude_of_failure? h]
    exact ⟨rfl, fun _ => rfl⟩
  | brokenOff heq _ =>
    obtain ⟨rfl, rfl, _⟩ := hlast heq
    rw [fail_of_failure? h, conclude_of_failure? h]
    exact ⟨rfl, fun _ => rfl⟩
  | escaped heq hending =>
    obtain ⟨rfl, rfl, _⟩ := hlast heq
    refine ⟨rfl, fun hnone => ?_⟩
    cases hnone.symm.trans (Stream.failure?_of_ending hending)

end Failed

/-- The end of a template changes nothing if there is a template, and else the compiler has failed. -/
theorem conclude_cases (compiler : Compiler ρ) :
    (compiler.failure? = none ∧ ∃ template, compiler.conclude = (.ok template, compiler)) ∨
      ∃ failure, compiler.conclude.1 = .error (.recorded failure) ∧
        compiler.conclude.2.failure? = some failure := by
  obtain ⟨setting, ⟨scope, enclosing⟩ | failure⟩ := compiler
  · cases enclosing with
    | nil => exact .inl ⟨rfl, _, rfl⟩
    | cons below enclosing => exact .inr ⟨_, rfl, rfl⟩
  · exact .inr ⟨failure, rfl, rfl⟩

/-! ## A compiler that goes on -/

namespace Steady

variable {loader : Option (Loader σ ρ)} {compiler : Compiler ρ}

theorem feedAll (h : compiler.Steady) (loader : Option (Loader σ ρ)) (tokens : List Token)
    (state : σ) :
    (compiler.feedAll loader tokens state).2.1.Steady ∧
      ∀ breach, (compiler.feedAll loader tokens state).1 ≠ .broken breach := by
  induction tokens generalizing compiler state with
  | nil => exact ⟨h, by simp [Compiler.feedAll]⟩
  | cons token tokens ih =>
    have hfeed := h.feed loader token state
    rw [Compiler.feedAll]
    generalize compiler.feed loader token state = result at hfeed
    obtain ⟨reception, last, after⟩ := result
    obtain ⟨hsteady, htells⟩ := hfeed
    cases reception with
    | accepted => exact ih hsteady after
    | refused => exact ⟨hsteady, by simp⟩
    | broken breach => rcases htells with ⟨hreception, _⟩ | ⟨hreception, _⟩ <;> cases hreception

theorem of_failure? {failure : LocatedFailure} (h : compiler.failure? = some failure) :
    compiler.Steady := by
  intro stack hstack
  cases (progress_eq_failed_iff.mpr h).symm.trans hstack

theorem fail (compiler : Compiler ρ) (broken : Failure) : (compiler.fail broken).Steady := by
  obtain ⟨failure, hfailed⟩ := failed_of_fail compiler broken
  exact of_failure? (progress_eq_failed_iff.mp hfailed)

theorem conclude (h : compiler.Steady) : compiler.conclude.2.Steady := by
  rcases conclude_cases compiler with ⟨_, _, hsame⟩ | ⟨_, _, hfailed⟩
  · rw [hsame]
    exact h
  · exact of_failure? hfailed

theorem compile (h : compiler.Steady) (stream : Stream) (state : σ) :
    (compiler.compile loader stream state).2.1.Steady := by
  have hfed := h.feedAll loader stream.tokens state
  have hending := ending_compile loader compiler stream state
  generalize compiler.compile loader stream state = result at hending
  cases hending with
  | unopened => exact h
  | broken heq => rw [heq] at hfed; exact hfed.1
  | refused heq => rw [heq] at hfed; exact hfed.1.conclude
  | complete heq => rw [heq] at hfed; exact hfed.1.conclude
  | brokenOff => exact (fail _ _).conclude
  | escaped heq => rw [heq] at hfed; exact hfed.1

end Steady

namespace Course

variable {loader : Option (Loader σ ρ)} {course : Course σ ρ}

/-- A compiler stays steady, whatever it is asked for. -/
theorem steady_perform (h : course.compiler.Steady) (step : Step) :
    (course.perform loader step).2.compiler.Steady := by
  cases step with
  | feed token => exact (h.feed _ token _).1
  | fail broken => exact .fail course.compiler broken
  | finish => exact h.conclude
  | compile stream => exact h.compile stream _

/-- A compiler that has failed stays as it is, and it uses its loader no more. -/
theorem perform_of_failure? {failure : LocatedFailure} (h : course.compiler.failure? = some failure)
    (step : Step) : (course.perform loader step).2 = course := by
  obtain ⟨compiler, state, calls⟩ := course
  cases step with
  | feed token => simp only [perform, feed_of_failure? h]
  | fail broken => simp only [perform, fail_of_failure? h]
  | finish => simp only [perform, conclude_of_failure? h]
  | compile stream => simp only [perform, (compile_of_failure? h stream _).1]

theorem after_of_failure? {failure : LocatedFailure} (h : course.compiler.failure? = some failure)
    (steps : List Step) : course.after loader steps = course := by
  induction steps with
  | nil => rfl
  | cons step steps ih =>
    rw [after, List.foldl_cons, perform_of_failure? h]
    exact ih

theorem steady_after (h : course.compiler.Steady) (steps : List Step) :
    (course.after loader steps).compiler.Steady := by
  induction steps generalizing course with
  | nil => exact h
  | cons step steps ih => exact ih (steady_perform h step)

/-- As long as nothing has failed, all tokens were accepted. -/
theorem accepted_of_after (h : course.compiler.Steady) (steps : List Step)
    (hrunning : (course.after loader steps).compiler.failure? = none) {reception : Reception}
    (hreply : .received reception ∈ course.replies loader steps) : reception = .accepted := by
  induction steps generalizing course with
  | nil => cases hreply
  | cons step steps ih =>
    rcases List.mem_cons.mp hreply with hreply | hreply
    · cases step with
      | fail broken | finish | compile stream => cases hreply
      | feed token =>
        rcases (h.feed (loader.map .logged) token (course.state, course.calls)).2 with
          ⟨haccepted, _⟩ | ⟨_, failure, hfailed⟩
        · exact (Reply.received.inj hreply).trans haccepted
        · -- the compiler has failed by this token, and it would have stayed so
          have hafter : (course.after loader (.feed token :: steps)).compiler.failure? =
              some failure := by
            rw [after, List.foldl_cons]
            exact (congrArg (failure? ∘ compiler) (after_of_failure? hfailed steps)).trans hfailed
          cases hafter.symm.trans hrunning
    · exact ih (steady_perform h step) hrunning hreply

/-- The tokens of a stream that are all accepted are as good as fed one by one. -/
theorem after_feed_of_feedAll (tokens : List Token) {last : Compiler ρ}
    {after : σ × List (Loader.Call σ)}
    (h : course.compiler.feedAll (loader.map .logged) tokens (course.state, course.calls) =
      (.accepted, last, after)) :
    course.after loader (tokens.map .feed) = ⟨last, after.1, after.2⟩ := by
  induction tokens generalizing course with
  | nil =>
    cases h
    rfl
  | cons token tokens ih =>
    rw [feedAll] at h
    split at h
    · rename_i next between hfeed
      have hperform : (course.perform loader (.feed token)).2 = ⟨next, between.1, between.2⟩ := by
        simp only [perform, hfeed]
      rw [List.map_cons, Course.after, List.foldl_cons, hperform]
      exact ih h
    · rename_i hstopped
      exact absurd h (hstopped _ _)

/-- A failure has the last word: whatever a compiler is asked for from now on changes nothing, every
token is refused, and the end of the template reports the failure, after a stream of tokens as well. -/
structure Final (loader : Option (Loader σ ρ)) (course : Course σ ρ) (failure : LocatedFailure) :
    Prop where
  unchanged : ∀ later, course.after loader later = course
  refused : ∀ later token,
    ((course.after loader later).perform loader (.feed token)).1 = .received .refused
  finish : ∀ later,
    ((course.after loader later).perform loader .finish).1 = .ended (.error (.recorded failure))
  compile : ∀ later tokens,
    ((course.after loader later).perform loader (.compile (.ofTokens tokens))).1 =
      .ended (.error (.recorded failure))

theorem final_of_failure? {failure : LocatedFailure} (h : course.compiler.failure? = some failure) :
    course.Final loader failure where
  unchanged later := after_of_failure? h later
  refused later token := by
    rw [after_of_failure? h, perform, feed_of_failure? h]
  finish later := by
    rw [after_of_failure? h, perform, conclude_of_failure? h]
  compile later tokens := by
    rw [after_of_failure? h, perform, (compile_of_failure? h (.ofTokens tokens) _).2 rfl]

end Course

/-! ## The last word -/

/-- The answer tells whether the compiler goes on. A failure that it reports is the one that the
compiler has failed with. -/
def Reply.Tells : Reply ρ → Compiler ρ → Prop
  | .received reception, compiler => Compiler.Tells reception compiler
  | .noted, compiler => ∃ failure, compiler.failure? = some failure
  | .ended (.ok _), compiler => compiler.failure? = none
  | .ended (.error halt), compiler =>
    ∃ failure, halt = .recorded failure ∧ compiler.failure? = some failure

theorem tells_conclude (compiler : Compiler ρ) :
    (Reply.ended compiler.conclude.1).Tells compiler.conclude.2 := by
  rcases conclude_cases compiler with ⟨hrunning, template, hok⟩ | ⟨failure, herror, hfailed⟩
  · rw [hok]
    exact hrunning
  · rw [herror]
    exact ⟨failure, rfl, hfailed⟩

/-- The answer to a stream tells whether the compiler goes on, unless the stack has been broken or a
failure of the stream went through the compiler, which had accepted all tokens or was not given any. -/
theorem tells_compile_or (loader : Option (Loader σ ρ)) (compiler : Compiler ρ) (stream : Stream)
    (state : σ) :
    (Reply.ended (compiler.compile loader stream state).1).Tells
        (compiler.compile loader stream state).2.1 ∨
      (∃ breach, (compiler.compile loader stream state).1 =
          .error (.escaped (Fault.scope breach).alone) ∧
        (compiler.feedAll loader stream.tokens state).1 = .broken breach) ∨
      (∃ failure, (compiler.compile loader stream state).1 = .error (.escaped failure) ∧
        stream.ending = some failure ∧ failure.fault.isTokenization = false ∧
        compiler.feedAll loader stream.tokens state =
          (.accepted, (compiler.compile loader stream state).2)) ∨
      ∃ failure, compiler.compile loader stream state = (.error (.escaped failure), compiler, state) ∧
        stream.opening = some failure := by
  have hending := ending_compile loader compiler stream state
  generalize compiler.compile loader stream state = result at hending
  cases hending with
  | unopened hopening => exact .inr (.inr (.inr ⟨_, rfl, hopening⟩))
  | broken hfed => exact .inr (.inl ⟨_, rfl, by rw [hfed]⟩)
  | refused _ => exact .inl (tells_conclude _)
  | complete _ _ => exact .inl (tells_conclude _)
  | brokenOff _ _ _ => exact .inl (tells_conclude _)
  | escaped hfed hending hforeign => exact .inr (.inr (.inl ⟨_, rfl, hending, hforeign, hfed⟩))

/-- A step whose tokens are read to their end, unless the compiler refuses one. -/
def Step.Ends : Step → Prop
  | .compile stream => stream.failure? = none
  | _ => True

/-- The answer to a step tells whether the compiler goes on, if the stream has no failure of its own. -/
theorem Course.tells_perform {loader : Option (Loader σ ρ)} {course : Course σ ρ}
    (h : course.compiler.Steady) {step : Step} (hends : step.Ends) :
    (course.perform loader step).1.Tells (course.perform loader step).2.compiler := by
  cases step with
  | feed token => exact (h.feed (loader.map .logged) token (course.state, course.calls)).2
  | fail broken =>
    obtain ⟨failure, hfailed⟩ := failed_of_fail course.compiler broken
    exact ⟨failure, progress_eq_failed_iff.mp hfailed⟩
  | finish => exact tells_conclude course.compiler
  | compile stream =>
    rcases tells_compile_or (loader.map .logged) course.compiler stream (course.state, course.calls)
      with htells | ⟨breach, _, hbroken⟩ | ⟨failure, _, hending, _, _⟩ | ⟨failure, _, hopening⟩
    · exact htells
    · exact absurd hbroken ((h.feedAll _ stream.tokens _).2 breach)
    · cases hends.symm.trans (Stream.failure?_of_ending hending)
    · cases hends.symm.trans (Stream.failure?_of_opening hopening)

/-- In whatever order a compiler is used, the first failure has the last word. It is the one that is
reported when it happens. Until then all tokens are accepted, and the end of the template leaves
everything as it was. -/
theorem first_failure_final (setting : Setting) (loader : Option (Loader σ ρ)) (state : σ)
    (steps : List Step) :
    let start : Course σ ρ := .start setting state
    let course := start.after loader steps
    (∀ failure, course.compiler.failure? = some failure → course.Final loader failure) ∧
      (∀ step : Step, step.Ends →
        (course.perform loader step).1.Tells (course.perform loader step).2.compiler) ∧
      (course.compiler.failure? = none →
        ∀ reception, .received reception ∈ start.replies loader steps → reception = .accepted) ∧
      ∀ template, (course.perform loader .finish).1 = .ended (.ok template) →
        (course.perform loader .finish).2 = course := by
  intro start course
  have hstart : start.compiler.Steady := .initial
  have hsteady : course.compiler.Steady := Course.steady_after hstart steps
  refine ⟨fun _ => Course.final_of_failure?, fun _ => Course.tells_perform hsteady,
    fun hrunning _ => Course.accepted_of_after hstart steps hrunning, ?_⟩
  intro template hok
  rcases conclude_cases course.compiler with ⟨_, _, hsame⟩ | ⟨failure, herror, _⟩
  · simp only [Course.perform, hsame]
  · cases (Reply.ended.inj hok).symm.trans herror

/-- The end of a template with an open section is the first failure: the tag that would close the
section comes too late. -/
theorem first_failure_final_unclosed :
    let steps := [.feed ⟨.openSection, "a", 3, none⟩, .finish]
    let course : Course Unit Unit := (Course.start ⟨.html, some "page"⟩ ()).after none steps
    let failure : LocatedFailure :=
      ⟨⟨.unclosed, "Unclosed Mustache tag", some 3, some "page"⟩, []⟩
    course.compiler.failure? = some failure ∧ course.Final none failure := by
  intro steps course failure
  have hfailed : course.compiler.failure? = some failure := rfl
  exact ⟨hfailed, (first_failure_final ⟨.html, some "page"⟩ none () steps).1 failure hfailed⟩

/-- A failure that has a place in a template and that a compilation reports has the last word, unless
the stream itself has it and it is no tokenization fault, or the stream has it before it is opened. A
failure of the stream that is no tokenization fault goes through the compiler and leaves it as if the
tokens that were read, which it has accepted, had been fed to it. -/
theorem syntax_failure_recorded (loader : Option (Loader σ ρ)) (course : Course σ ρ)
    (stream : Stream) (halt : Halt) (failure : LocatedFailure)
    (hraised : (course.perform loader (.compile stream)).1 = .ended (.error halt))
    (hlocated : halt.failure = failure.toFailure) :
    (halt = .recorded failure ∧ (course.perform loader (.compile stream)).2.Final loader failure) ∨
      (halt = .escaped failure.toFailure ∧ stream.ending = some failure.toFailure ∧
        failure.fault.kind ≠ .tokenization ∧
        (course.perform loader (.compile stream)).2 =
          course.after loader (stream.tokens.map .feed)) ∨
      (halt = .escaped failure.toFailure ∧ stream.opening = some failure.toFailure ∧
        (failure.fault.kind ≠ .tokenization → (course.perform loader (.compile stream)).2 = course)) := by
  have hhalt : (course.compiler.compile (loader.map .logged) stream (course.state, course.calls)).1 =
      .error halt := Reply.ended.inj hraised
  rcases tells_compile_or (loader.map .logged) course.compiler stream (course.state, course.calls)
    with htells | ⟨breach, hbroken, _⟩ | ⟨escaped, hescaped, hending, hforeign, hfed⟩ |
      ⟨escaped, hescaped, hopening⟩
  · rw [hhalt] at htells
    obtain ⟨recorded, rfl, hfailed⟩ := htells
    obtain rfl : recorded = failure := by
      obtain ⟨fault, causes⟩ := recorded
      cases hlocated
      rfl
    exact .inl ⟨rfl, Course.final_of_failure? hfailed⟩
  · -- a misuse of the open tags has no place in a template
    obtain rfl : halt = _ := Except.error.inj (hhalt.symm.trans hbroken)
    cases hlocated
  · obtain rfl : halt = _ := Except.error.inj (hhalt.symm.trans hescaped)
    obtain rfl : escaped = failure.toFailure := hlocated
    refine .inr (.inl ⟨rfl, hending, ?_, (Course.after_feed_of_feedAll stream.tokens hfed).symm⟩)
    simpa [LocatedFailure.toFailure, Fault.isTokenization] using hforeign
  · obtain rfl : halt = _ := Except.error.inj (hhalt.symm.trans (congrArg Prod.fst hescaped))
    obtain rfl : escaped = failure.toFailure := hlocated
    refine .inr (.inr ⟨rfl, hopening, fun _ => ?_⟩)
    simp only [Course.perform, hescaped]

/-- A stream that breaks off inside a section: what is reported is how it broke off, and not that the
section is open. -/
theorem syntax_failure_recorded_cutOff :
    let failure : LocatedFailure :=
      ⟨⟨.tokenization, "Unterminated tag", some 2, some "page"⟩, []⟩
    let stream : Stream := .opened [⟨.openSection, "a", 1, none⟩] (some failure.toFailure)
    let course : Course Unit Unit := .start ⟨.html, some "page"⟩ ()
    (course.perform none (.compile stream)).1 = .ended (.error (.recorded failure)) ∧
      (course.perform none (.compile stream)).2.Final none failure := by
  intro failure stream course
  have hraised : (course.perform none (.compile stream)).1 =
      .ended (.error (.recorded failure)) := rfl
  refine ⟨hraised, ?_⟩
  rcases syntax_failure_recorded none course stream (.recorded failure) failure hraised rfl with
    ⟨_, hfinal⟩ | ⟨hescaped, _⟩ | ⟨hescaped, _⟩
  · exact hfinal
  · cases hescaped
  · cases hescaped

/-- A stream that breaks off by a failure of no particular kind: the compilation reports the failure but
has not failed, and the end of the template gives what was compiled of it. -/
theorem syntax_failure_not_recorded :
    let failure : LocatedFailure := ⟨⟨.general, "broken", none, none⟩, []⟩
    let stream : Stream := .opened [⟨.text, "a", 1, none⟩] (some failure.toFailure)
    let course : Course Unit Unit := .start ⟨.html, none⟩ ()
    let after := (course.perform none (.compile stream)).2
    (course.perform none (.compile stream)).1 = .ended (.error (.escaped failure.toFailure)) ∧
      after.compiler.failure? = none ∧
      (after.perform none .finish).1 = .ended (.ok ⟨(), .html, [.text 1 "a"]⟩) := by
  exact ⟨rfl, rfl, rfl⟩

end Compiler

end Logicless
