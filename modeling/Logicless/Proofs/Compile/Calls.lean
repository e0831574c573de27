import Logicless.Proofs.Compile.Preservation
import Logicless.Proofs.Compile.Simulation

/-!
# What a compilation asks of its loader

A compilation uses its loader step by step, each time in the state that the use before has left, and
stops at the first template that cannot be loaded. So what the loader does when it succeeds holds of the
whole compilation, followed by what it does when it fails, if it fails at all.

## Shape of the module

* `Loader.Call` is a use of a loader, and `Loader.logged` a loader that keeps a list of its uses. It
  serves a compiler as the loader itself does (`feed_logged`, `compile_logged`).
* `traced_compileTemplate` says what notes on the uses of a loader say of the whole compilation, and
  `mem_calls_of_compileTemplate` in which states a compilation uses its loader.
* `Outcome` says of a computation with a state what it does when it succeeds and what when it fails.
  `outcome_of_compileTemplate` carries this from the loader to compilations.
-/

namespace Logicless

variable {σ ρ : Type}

/-! ## The uses of a loader -/

/-- A use of a loader. -/
structure Loader.Call (σ : Type) where
  /-- The name of the template. -/
  name : String
  /-- The id of the template inside which the name is used, if any. -/
  relativeTo : Option String
  /-- The state of the loader at that time. -/
  state : σ

/-- The loader with a list of its uses, the first one first. -/
def Loader.logged (loader : Loader σ ρ) : Loader (σ × List (Loader.Call σ)) ρ :=
  fun name relativeTo state =>
    ((loader name relativeTo state.1).1, (loader name relativeTo state.1).2,
      state.2 ++ [⟨name, relativeTo, state.1⟩])

/-- A result without the list of the uses of a loader. -/
def withoutCalls {α β : Type} (result : α × β × σ × List (Loader.Call σ)) : α × β × σ :=
  (result.1, result.2.1, result.2.2.1)

namespace Compiler

variable (loader : Option (Loader σ ρ)) (compiler : Compiler ρ) (state : σ)
  (calls : List (Loader.Call σ))

/-- A list of the uses of its loader changes nothing for a compiler that takes a token. -/
theorem feed_logged (token : Token) :
    withoutCalls (compiler.feed (loader.map .logged) token (state, calls)) =
      compiler.feed loader token state := by
  rw [feed, feed]
  cases compiler.progress with
  | failed failure => rfl
  | running stack =>
    dsimp only
    cases stack.move compiler.setting token with
    | proceed | refuse | breach => rfl
    | load name citing resume =>
      cases loader with
      | none => rfl
      | some loader =>
        simp only [Setting.load, Option.map_some, Loader.logged]
        rcases loader name compiler.setting.template state with ⟨failure | target, after⟩
        · rfl
        · rfl

theorem feedAll_logged (tokens : List Token) :
    withoutCalls (compiler.feedAll (loader.map .logged) tokens (state, calls)) =
      compiler.feedAll loader tokens state := by
  induction tokens generalizing compiler state calls with
  | nil => rfl
  | cons token tokens ih =>
    rw [feedAll, feedAll, ← feed_logged loader compiler state calls token]
    rcases compiler.feed (loader.map .logged) token (state, calls) with
      ⟨reception, next, after, calls'⟩
    cases reception with
    | accepted => exact ih next after calls'
    | refused | broken => rfl

theorem compile_logged (stream : Stream) :
    withoutCalls (compiler.compile (loader.map .logged) stream (state, calls)) =
      compiler.compile loader stream state := by
  cases stream with
  | unopened failure => rfl
  | opened tokens ending =>
    rw [compile, compile, read, read, ← feedAll_logged loader compiler state calls tokens]
    rcases compiler.feedAll (loader.map .logged) tokens (state, calls) with
      ⟨reception, last, after, calls'⟩
    cases reception with
    | refused | broken => rfl
    | accepted =>
      simp only [withoutCalls]
      cases ending with
      | none => rfl
      | some failure =>
        dsimp only
        split
        · rfl
        · rfl

end Compiler

section Logged

variable {setting : Setting} {loader : Loader σ ρ}

/-- A list of the uses of its loader changes nothing in the compilation of a template. -/
theorem compileTemplate_logged (setting : Setting) (loader : Loader σ ρ) (stream : Stream)
    (state : σ) (calls : List (Loader.Call σ)) :
    (compileTemplate setting (some loader.logged) stream (state, calls)).1 =
        (compileTemplate setting (some loader) stream state).1 ∧
      (compileTemplate setting (some loader.logged) stream (state, calls)).2.1 =
        (compileTemplate setting (some loader) stream state).2 := by
  rw [compileTemplate, compileTemplate,
    ← Compiler.compile_logged (some loader) (.initial setting) state calls stream]
  exact ⟨rfl, rfl⟩

/-- From the state before to the one after, the loader was used inside the template with an id if any.
The notes on its uses, one after another, say what was done to the state, `T`, up to each use as well as
to the end. -/
def Loader.Traced {α : Type} (T : σ → List α → σ → Prop) (note : Loader.Call σ → List α)
    (template : Option String) (before after : σ × List (Loader.Call σ)) : Prop :=
  ∃ calls, after.2 = before.2 ++ calls ∧ T before.1 (calls.flatMap note) after.1 ∧
    ∀ earlier call later, calls = earlier ++ call :: later →
      T before.1 (earlier.flatMap note) call.state ∧ call.relativeTo = template

namespace Loader.Traced

variable {α : Type} {T : σ → List α → σ → Prop} {note : Loader.Call σ → List α}
  {template : Option String} {a b c : σ × List (Loader.Call σ)}

theorem refl (hnil : ∀ state, T state [] state) : Traced T note template a a :=
  ⟨[], (List.append_nil _).symm, hnil _, by simp⟩

theorem trans (happend : ∀ {a b c notes notes'}, T a notes b → T b notes' c → T a (notes ++ notes') c)
    (h : Traced T note template a b) (h' : Traced T note template b c) :
    Traced T note template a c := by
  obtain ⟨calls, hcalls, htrace, huses⟩ := h
  obtain ⟨calls', hcalls', htrace', huses'⟩ := h'
  refine ⟨calls ++ calls', by rw [hcalls', hcalls, List.append_assoc], ?_, ?_⟩
  · rw [List.flatMap_append]
    exact happend htrace htrace'
  · intro earlier call later heq
    -- the use is one of the first calls, or one of those behind all of them
    rcases List.append_eq_append_iff.mp heq with ⟨between, rfl, hcalls'⟩ | ⟨between, hcalls, hlater⟩
    · rw [List.flatMap_append]
      obtain ⟨huse, hrelative⟩ := huses' between call later hcalls'
      exact ⟨happend htrace huse, hrelative⟩
    · cases between with
      | nil =>
        rw [List.append_nil] at hcalls
        obtain ⟨huse, hrelative⟩ := huses' [] call later hlater.symm
        rw [← hcalls]
        have hjoined := happend htrace huse
        rw [List.flatMap_nil, List.append_nil] at hjoined
        exact ⟨hjoined, hrelative⟩
      | cons first between =>
        obtain ⟨rfl, _⟩ := List.cons.inj hlater
        exact huses earlier call between hcalls

theorem single (hnil : ∀ state, T state [] state) {loader : Loader σ ρ} {name : String}
    {state : σ} {calls : List (Loader.Call σ)}
    (h : T state (note ⟨name, template, state⟩) (loader name template state).2) :
    Traced T note template (state, calls) (loader.logged name template (state, calls)).2 := by
  refine ⟨[⟨name, template, state⟩], rfl, ?_, ?_⟩
  · rw [List.flatMap_singleton]
    exact h
  · intro earlier call later heq
    obtain ⟨rfl, rfl, rfl⟩ : earlier = [] ∧ call = ⟨name, template, state⟩ ∧ later = [] := by
      rcases earlier with _ | ⟨first, earlier⟩
      · obtain ⟨hcall, hlater⟩ := List.cons.inj heq
        exact ⟨rfl, hcall.symm, hlater.symm⟩
      · simp at heq
    exact ⟨hnil state, rfl⟩

end Loader.Traced

/-- If the note on each use of the loader says what the use does to the state, then the notes on all uses
in a compilation say what the compilation does, and those before a use in which state it is made. -/
theorem traced_compileTemplate {α : Type} (T : σ → List α → σ → Prop)
    (note : Loader.Call σ → List α) (hnil : ∀ state, T state [] state)
    (happend : ∀ {a b c notes notes'}, T a notes b → T b notes' c → T a (notes ++ notes') c)
    (hload : ∀ name state,
      T state (note ⟨name, setting.template, state⟩) (loader name setting.template state).2)
    (stream : Stream) (state : σ) :
    let calls := (compileTemplate setting (some loader.logged) stream (state, [])).2.2
    T state (calls.flatMap note) (compileTemplate setting (some loader) stream state).2 ∧
      ∀ earlier call later, calls = earlier ++ call :: later →
        T state (earlier.flatMap note) call.state ∧ call.relativeTo = setting.template := by
  intro calls
  have htraced : Loader.Traced T note setting.template (state, [])
      (compileTemplate setting (some loader.logged) stream (state, [])).2 :=
    state_of_compileTemplate (R := Loader.Traced T note setting.template) (fun _ => .refl hnil)
      (.trans happend) (fun name state => .single hnil (hload name state.1)) stream (state, [])
  obtain ⟨calls', hcalls, htrace, huses⟩ := htraced
  obtain rfl : calls = calls' := hcalls
  rw [(compileTemplate_logged setting loader stream state []).2] at htrace
  exact ⟨htrace, huses⟩

/-- Whatever every use of the loader does to the state has been done, step by step, when a compilation
uses it. -/
theorem mem_calls_of_compileTemplate {R : σ → σ → Prop} (hrefl : ∀ state, R state state)
    (htrans : ∀ {a b c}, R a b → R b c → R a c)
    (hload : ∀ name state, R state (loader name setting.template state).2) (stream : Stream)
    (state : σ) {call : Loader.Call σ}
    (hcall : call ∈ (compileTemplate setting (some loader.logged) stream (state, [])).2.2) :
    R state call.state ∧ call.relativeTo = setting.template := by
  obtain ⟨earlier, later, hcalls⟩ := List.append_of_mem hcall
  -- nothing has to be noted of a use but that it was made
  have htraced := traced_compileTemplate (fun before (_ : List Unit) after => R before after)
    (fun _ => []) hrefl htrans hload stream state
  exact htraced.2 earlier call later hcalls

end Logged

/-! ## Success and failure -/

/-- What a computation does to the state when it succeeds, and what when it fails. -/
structure Outcome {ε α : Type} (Done Failed : σ → σ → Prop) (state : σ)
    (result : Except ε α × σ) : Prop where
  done : ∀ value, result.1 = .ok value → Done state result.2
  failed : ∀ error, result.1 = .error error → Failed state result.2

namespace Outcome

variable {ε α : Type} {Done Failed : σ → σ → Prop} {state state' : σ}

theorem ok {value : α} (h : Done state state') :
    Outcome Done Failed state ((.ok value, state') : Except ε α × σ) :=
  ⟨fun _ _ => h, fun _ herror => (nomatch herror)⟩

theorem error {error : ε} (h : Failed state state') :
    Outcome Done Failed state ((.error error, state') : Except ε α × σ) :=
  ⟨fun _ hok => (nomatch hok), fun _ _ => h⟩

/-- What a computation does after some success. -/
theorem after {result : Except ε α × σ} (hdone : ∀ {c}, Done state' c → Done state c)
    (hfailed : ∀ {c}, Failed state' c → Failed state c) (h : Outcome Done Failed state' result) :
    Outcome Done Failed state result :=
  ⟨fun value hok => hdone (h.done value hok), fun error herror => hfailed (h.failed error herror)⟩

end Outcome

/-- What is asked of changes `Done` by successes and `Failed` by failures: they follow each other, and a
compilation may fail without a failing load. -/
structure Sequential (Done Failed : σ → σ → Prop) : Prop where
  refl : ∀ state, Done state state
  trans : ∀ {a b c}, Done a b → Done b c → Done a c
  failed : ∀ {a b c}, Done a b → Failed b c → Failed a c
  halted : ∀ {a b}, Done a b → Failed a b

section

variable {setting : Setting} {loader : Loader σ ρ} {Done Failed : σ → σ → Prop}

/-- A computation that fails without a change. -/
theorem Sequential.refuse {ε α : Type} (h : Sequential Done Failed) (error : ε) (state : σ) :
    Outcome Done Failed state ((.error error, state) : Except ε α × σ) :=
  .error (h.halted (h.refl state))

theorem outcome_of_follow (hsequential : Sequential Done Failed)
    (hload : ∀ name state, Outcome Done Failed state (loader name setting.template state))
    (ending : Option Failure) (tokens : List Token) (stack : ScopeStack ρ) (state : σ) :
    Outcome Done Failed state (stack.follow setting loader ending tokens state) := by
  induction tokens generalizing stack state with
  | nil =>
    rw [ScopeStack.follow]
    cases stack.settle setting ending with
    | error halt => exact hsequential.refuse halt state
    | ok template => exact .ok (hsequential.refl state)
  | cons token tokens ih =>
    rw [ScopeStack.follow]
    cases stack.move setting token with
    | proceed next => exact ih next state
    | refuse failure => exact hsequential.refuse _ state
    | breach breach => exact hsequential.refuse _ state
    | load name citing resume =>
      have houtcome := hload name state
      dsimp only
      generalize loader name setting.template state = result at houtcome
      rcases result with ⟨failure | target, after⟩
      · exact .error (houtcome.failed failure rfl)
      · have hdone : Done state after := houtcome.done target rfl
        exact (ih (resume target) after).after (hsequential.trans hdone) (hsequential.failed hdone)

/-- What the loader does to the state when it succeeds and when it fails, a compilation does. -/
theorem outcome_of_compileTemplate (hsequential : Sequential Done Failed)
    (hload : ∀ name state, Outcome Done Failed state (loader name setting.template state))
    (stream : Stream) (state : σ) :
    Outcome Done Failed state (compileTemplate setting (some loader) stream state) := by
  cases stream with
  | unopened failure => exact hsequential.refuse _ state
  | opened tokens ending =>
    rw [compileTemplate_eq_follow]
    exact outcome_of_follow hsequential hload ending tokens .initial state

end

end Logicless
