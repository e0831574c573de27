import Logicless.Proofs.Compile.Finality

/-!
# Compilers that do the same

The compiler reads what a tag says once. From then on it goes by the expression or the name that it has
read, and of the tag itself it uses no more than the place, which faults cite. The nodes that it has
collected do not decide anything either. So two compilers whose open tags differ in such things alone
accept the same tokens, load the same templates and report the same failures.

## Shape of the module

* `Token.place` is what faults cite of a token.
* `ScopeStack.Mirrors` relates the open tags of two compilers: the second one may have more nodes in
  front of the template, and its tags may say other things at the same places.
* `ScopeStack.Mirrors.move` is the step. `Compiler.Mirrors` carries it over to compilers: `Mirrors.feed` and
  `Mirrors.compile` say that they answer alike, up to the nodes in front.
* `Course.replies_eq_of_mirrors` says that without such nodes no use tells two compilers apart.
-/

namespace Logicless

variable {σ ρ : Type}

/-! ## The places of tokens -/

/-- What a fault cites of a token. -/
def Token.place (token : Token) : Int × Option String :=
  (token.line, token.template)

namespace Setting

variable {setting : Setting} {citing citing' : Option Token}

theorem cite_eq_of_place (h : citing'.map Token.place = citing.map Token.place)
    (kind : LocatedKind) (detail : String) :
    setting.cite citing' kind detail = setting.cite citing kind detail := by
  cases citing <;> cases citing' <;>
    simp_all [cite, Token.place]

theorem load_eq_of_place (h : citing'.map Token.place = citing.map Token.place)
    (loader : Option (Loader σ ρ)) (name : String) (state : σ) :
    setting.load loader citing' name state = setting.load loader citing name state := by
  simp only [load, loaderMissing, inclusionFailure, cite_eq_of_place h]

end Setting

/-! ## Open tags -/

/-- The second scope is the first one with `front` ahead of its nodes. The tags that have opened the two
may say different things at the same place. -/
structure Scope.Mirrors (front : List (Node Unit ρ)) (scope scope' : Scope ρ) : Prop where
  kind : scope'.kind = scope.kind
  place : scope'.opening.map Token.place = scope.opening.map Token.place
  expression : scope'.expression = scope.expression
  name : scope'.name = scope.name
  nodes : scope'.nodes = front ++ scope.nodes

namespace Scope.Mirrors

variable {front : List (Node Unit ρ)} {scope scope' : Scope ρ}

theorem refl (scope : Scope ρ) : scope.Mirrors [] scope :=
  ⟨rfl, rfl, rfl, rfl, rfl⟩

theorem trans {scope'' : Scope ρ} (h : scope.Mirrors [] scope') (h' : scope'.Mirrors [] scope'') :
    scope.Mirrors [] scope'' where
  kind := h'.kind.trans h.kind
  place := h'.place.trans h.place
  expression := h'.expression.trans h.expression
  name := h'.name.trans h.name
  nodes := h'.nodes.trans (congrArg ([] ++ ·) h.nodes)

theorem append (h : scope.Mirrors front scope') (node : Node Unit ρ) :
    (scope.append node).Mirrors front (scope'.append node) where
  kind := h.kind
  place := h.place
  expression := h.expression
  name := h.name
  nodes := by simp [Scope.append, h.nodes]

theorem line (h : scope.Mirrors front scope') : scope'.line = scope.line := by
  have hplace := h.place
  rw [Scope.line, Scope.line]
  cases hopening : scope.opening <;> cases hopening' : scope'.opening <;>
    simp_all [Token.place]

theorem body (h : scope.Mirrors [] scope') (contentType : ContentType) :
    scope'.body contentType = scope.body contentType := by
  rw [Scope.body, Scope.body, h.nodes, List.nil_append]

theorem toBranch (h : scope.Mirrors [] scope') (contentType : ContentType) :
    scope'.toBranch contentType = scope.toBranch contentType := by
  rw [Scope.toBranch, Scope.toBranch, h.expression, h.line, h.kind, h.body]

theorem toBlock (h : scope.Mirrors [] scope') (contentType : ContentType) :
    scope'.toBlock contentType = scope.toBlock contentType := by
  rw [Scope.toBlock, Scope.toBlock, h.name, h.line, h.body]

theorem toLayout (h : scope.Mirrors [] scope') (contentType : ContentType) (name : String)
    (target : ρ) : scope'.toLayout contentType name target = scope.toLayout contentType name target := by
  rw [Scope.toLayout, Scope.toLayout, h.line, h.body]

end Scope.Mirrors

/-- The second stack has the open tags of the first, and `front` ahead of the nodes of the template. -/
inductive ScopeStack.Mirrors (front : List (Node Unit ρ)) : ScopeStack ρ → ScopeStack ρ → Prop
  | root {scope scope' : Scope ρ} (h : scope.Mirrors front scope') :
      Mirrors front ⟨scope, []⟩ ⟨scope', []⟩
  | tag {scope scope' below below' : Scope ρ} {enclosing enclosing' : List (Scope ρ)}
      (h : scope.Mirrors [] scope') (hbelow : Mirrors front ⟨below, enclosing⟩ ⟨below', enclosing'⟩) :
      Mirrors front ⟨scope, below :: enclosing⟩ ⟨scope', below' :: enclosing'⟩

/-- How two moves on such stacks compare. -/
inductive Move.Mirrors (front : List (Node Unit ρ)) : Move ρ → Move ρ → Prop
  | proceed {stack stack' : ScopeStack ρ} (h : stack.Mirrors front stack') :
      Mirrors front (.proceed stack) (.proceed stack')
  | refuse {failure : LocatedFailure} : Mirrors front (.refuse failure) (.refuse failure)
  | load {name : String} {citing citing' : Option Token} {resume resume' : ρ → ScopeStack ρ}
      (hplace : citing'.map Token.place = citing.map Token.place)
      (h : ∀ target, (resume target).Mirrors front (resume' target)) :
      Mirrors front (.load name citing resume) (.load name citing' resume')
  | breach {breach : ScopeBreach} : Mirrors front (.breach breach) (.breach breach)

theorem Move.Mirrors.andThen {front : List (Node Unit ρ)} {α : Type}
    {value : Except LocatedFailure α} {next next' : α → Move ρ}
    (h : ∀ a, (next a).Mirrors front (next' a)) :
    (Move.andThen value next).Mirrors front (Move.andThen value next') := by
  cases value with
  | error failure => exact .refuse
  | ok a => exact h a

namespace ScopeStack.Mirrors

variable {front : List (Node Unit ρ)} {stack stack' : ScopeStack ρ} {setting : Setting}
  {token : Token}

theorem refl (stack : ScopeStack ρ) : stack.Mirrors [] stack := by
  obtain ⟨scope, enclosing⟩ := stack
  induction enclosing generalizing scope with
  | nil => exact .root (.refl scope)
  | cons below enclosing ih => exact .tag (.refl scope) (ih below)

theorem trans {stack'' : ScopeStack ρ} (h : stack.Mirrors [] stack') (h' : stack'.Mirrors [] stack'') :
    stack.Mirrors [] stack'' := by
  induction h generalizing stack'' with
  | root h =>
    cases h' with
    | root h' => exact .root (h.trans h')
  | tag h _ ih =>
    cases h' with
    | tag h' hbelow' => exact .tag (h.trans h') (ih hbelow')

theorem exists_current (h : stack.Mirrors front stack') :
    ∃ front', stack.current.Mirrors front' stack'.current := by
  cases h with
  | root h => exact ⟨front, h⟩
  | tag h _ => exact ⟨[], h⟩

theorem append (h : stack.Mirrors front stack') (node : Node Unit ρ) :
    (stack.append node).Mirrors front (stack'.append node) := by
  cases h with
  | root h => exact .root (h.append node)
  | tag h hbelow => exact .tag (h.append node) hbelow

theorem push {scope scope' : Scope ρ} (h : stack.Mirrors front stack')
    (hscope : scope.Mirrors [] scope') : (stack.push scope).Mirrors front (stack'.push scope') :=
  .tag hscope h

/-- The innermost scopes can be closed in both stacks or in none, and they become the same node. -/
theorem collapse {toNode : Scope ρ → Except ScopeBreach (Node Unit ρ)}
    (h : stack.Mirrors front stack')
    (hnode : ∀ {scope scope' : Scope ρ}, scope.Mirrors [] scope' → toNode scope' = toNode scope) :
    (∃ breach, stack.collapse toNode = .error breach ∧ stack'.collapse toNode = .error breach) ∨
      ∃ below below', stack.collapse toNode = .ok below ∧ stack'.collapse toNode = .ok below' ∧
        below.Mirrors front below' := by
  cases h with
  | root => exact .inl ⟨_, rfl, rfl⟩
  | tag h hbelow =>
    simp only [ScopeStack.collapse, pop, bind, Except.bind, hnode h]
    cases toNode _ with
    | error breach => exact .inl ⟨breach, rfl, rfl⟩
    | ok node => exact .inr ⟨_, _, rfl, rfl, hbelow.append node⟩

/-- What closing the innermost scopes comes to. -/
theorem ofStack_collapse {toNode : Scope ρ → Except ScopeBreach (Node Unit ρ)}
    (h : stack.Mirrors front stack')
    (hnode : ∀ {scope scope' : Scope ρ}, scope.Mirrors [] scope' → toNode scope' = toNode scope) :
    (Move.ofStack (stack.collapse toNode)).Mirrors front (.ofStack (stack'.collapse toNode)) := by
  rcases h.collapse hnode with ⟨breach, hstack, hstack'⟩ | ⟨below, below', hstack, hstack', hbelow⟩
  · rw [hstack, hstack']
    exact .breach
  · rw [hstack, hstack']
    exact .proceed hbelow

theorem moveVariable (h : stack.Mirrors front stack') (escape : Bool) :
    (stack.moveVariable setting token escape).Mirrors front
      (stack'.moveVariable setting token escape) :=
  .andThen fun _ => .proceed (h.append _)

theorem moveSection (h : stack.Mirrors front stack') (kind opposite : Scope.Kind) :
    (stack.moveSection setting token kind opposite).Mirrors front
      (stack'.moveSection setting token kind opposite) := by
  refine .andThen fun content => ?_
  obtain ⟨_, hcurrent⟩ := h.exists_current
  have hcontinues : stack'.continues opposite content = stack.continues opposite content := by
    rw [continues, continues, hcurrent.kind, hcurrent.expression]
  dsimp only
  rw [hcontinues, hcurrent.expression]
  split
  · rcases h.collapse fun h => h.toBranch setting.contentType with
      ⟨breach, hstack, hstack'⟩ | ⟨below, below', hstack, hstack', hbelow⟩
    · rw [hstack, hstack']
      exact .breach
    · rw [hstack, hstack']
      exact .proceed (hbelow.push (.refl _))
  · cases content with
    | some expression => exact .proceed (h.push (.refl _))
    | none => exact .refuse

theorem moveNamed (h : stack.Mirrors front stack') (kind : Scope.Kind) (role : NameRole) :
    (stack.moveNamed setting token kind role).Mirrors front
      (stack'.moveNamed setting token kind role) :=
  .andThen fun _ => .proceed (h.push (.refl _))

theorem moveInclusion (h : stack.Mirrors front stack') :
    (stack.moveInclusion setting token).Mirrors front (stack'.moveInclusion setting token) :=
  .andThen fun _ => .load rfl fun _ => h.append _

theorem closeBranch (h : stack.Mirrors front stack') :
    (stack.closeBranch setting token).Mirrors front (stack'.closeBranch setting token) := by
  refine .andThen fun content => ?_
  obtain ⟨_, hcurrent⟩ := h.exists_current
  rw [hcurrent.expression]
  split
  · exact h.ofStack_collapse fun h => h.toBranch setting.contentType
  · exact .refuse

theorem closeBlock (h : stack.Mirrors front stack') :
    (stack.closeBlock setting token).Mirrors front (stack'.closeBlock setting token) := by
  refine .andThen fun content => ?_
  obtain ⟨_, hcurrent⟩ := h.exists_current
  rw [hcurrent.name]
  split
  · exact h.ofStack_collapse fun h => h.toBlock setting.contentType
  · exact .refuse

theorem closeLayout (h : stack.Mirrors front stack') :
    (stack.closeLayout setting token).Mirrors front (stack'.closeLayout setting token) := by
  refine .andThen fun content => ?_
  obtain ⟨_, hcurrent⟩ := h.exists_current
  rw [hcurrent.name]
  split
  · cases h with
    | root => exact .breach
    | @tag scope scope' below below' enclosing enclosing' h hbelow =>
      simp only [pop]
      cases scope.name with
      | none => exact .breach
      | some name =>
        refine .load h.place fun target => ?_
        rw [h.toLayout]
        exact hbelow.append _
  · exact .refuse

theorem moveClose (h : stack.Mirrors front stack') :
    (stack.moveClose setting token).Mirrors front (stack'.moveClose setting token) := by
  obtain ⟨_, hcurrent⟩ := h.exists_current
  rw [ScopeStack.moveClose, ScopeStack.moveClose, hcurrent.kind]
  cases stack.current.kind with
  | root => exact .refuse
  | branch | inverted => exact h.closeBranch
  | layout => exact h.closeLayout
  | block => exact h.closeBlock

/-- A token does the same to the two stacks. -/
theorem move (h : stack.Mirrors front stack') (setting : Setting) (token : Token) :
    (stack.move setting token).Mirrors front (stack'.move setting token) := by
  rw [ScopeStack.move, ScopeStack.move]
  cases token.kind with
  | setDelimiters | comment | pragma => exact .proceed h
  | text => exact .proceed (h.append _)
  | escapedVariable => exact h.moveVariable true
  | unescapedVariable => exact h.moveVariable false
  | openSection => exact h.moveSection .branch .inverted
  | openInverted => exact h.moveSection .inverted .branch
  | openBlock => exact h.moveNamed .block .block
  | openLayout => exact h.moveNamed .layout .template
  | inclusion => exact h.moveInclusion
  | close => exact h.moveClose

end ScopeStack.Mirrors

theorem Move.Mirrors.refl (move : Move ρ) : move.Mirrors [] move := by
  cases move with
  | proceed stack => exact .proceed (.refl stack)
  | refuse failure => exact .refuse
  | load name citing resume => exact .load rfl fun _ => .refl _
  | breach breach => exact .breach

theorem Move.Mirrors.trans {move move' move'' : Move ρ} (h : move.Mirrors [] move')
    (h' : move'.Mirrors [] move'') : move.Mirrors [] move'' := by
  cases h with
  | proceed h =>
    cases h' with
    | proceed h' => exact .proceed (h.trans h')
  | refuse =>
    cases h'
    exact .refuse
  | load hplace h =>
    cases h' with
    | load hplace' h' => exact .load (hplace'.trans hplace) fun target => (h target).trans (h' target)
  | breach =>
    cases h'
    exact .breach

/-! ## Compilers -/

/-- A template with more nodes in front. -/
def Body.behind {μ ν : Type} (front : List ν) (template : Body μ ν) : Body μ ν :=
  { template with nodes := front ++ template.nodes }

theorem Body.map_behind_nil {ε μ ν : Type} (result : Except ε (Body μ ν)) :
    result.map (·.behind []) = result := by
  rcases result with error | template
  · rfl
  · rfl

namespace Compiler

/-- Two compilers that go on with such open tags, or that have failed alike. -/
inductive Mirrors (front : List (Node Unit ρ)) : Compiler ρ → Compiler ρ → Prop
  | running {setting : Setting} {stack stack' : ScopeStack ρ} (h : stack.Mirrors front stack') :
      Mirrors front ⟨setting, .running stack⟩ ⟨setting, .running stack'⟩
  | failed {setting : Setting} {failure : LocatedFailure} :
      Mirrors front ⟨setting, .failed failure⟩ ⟨setting, .failed failure⟩

namespace Mirrors

variable {front : List (Node Unit ρ)} {compiler compiler' : Compiler ρ}

/-- Two tokens are taken alike if their moves compare. -/
theorem feed_of_move {setting : Setting} {stack stack' : ScopeStack ρ} {token token' : Token}
    (h : stack.Mirrors front stack')
    (hmove : (stack.move setting token).Mirrors front (stack'.move setting token'))
    (loader : Option (Loader σ ρ)) (state : σ) :
    ∃ reception next next' after,
      (Compiler.running setting stack).feed loader token state = (reception, next, after) ∧
      (Compiler.running setting stack').feed loader token' state = (reception, next', after) ∧
        next.Mirrors front next' := by
  simp only [Compiler.feed, Compiler.running]
  generalize stack.move setting token = move, stack'.move setting token' = move' at hmove
  cases hmove with
  | proceed h => exact ⟨.accepted, _, _, state, rfl, rfl, .running h⟩
  | refuse => exact ⟨.refused, _, _, state, rfl, rfl, .failed⟩
  | breach => exact ⟨.broken _, _, _, state, rfl, rfl, .running h⟩
  | @load name citing citing' resume resume' hplace h =>
    simp only [Setting.load_eq_of_place hplace]
    rcases setting.load loader citing name state with ⟨failure | target, after⟩
    · exact ⟨.refused, _, _, after, rfl, rfl, .failed⟩
    · exact ⟨.accepted, _, _, after, rfl, rfl, .running (h target)⟩

theorem feed (h : compiler.Mirrors front compiler') (loader : Option (Loader σ ρ)) (token : Token)
    (state : σ) :
    ∃ reception next next' after, compiler.feed loader token state = (reception, next, after) ∧
      compiler'.feed loader token state = (reception, next', after) ∧ next.Mirrors front next' := by
  cases h with
  | @failed setting failure => exact ⟨.refused, _, _, state, rfl, rfl, .failed⟩
  | @running setting stack stack' h => exact feed_of_move h (h.move setting token) loader state

theorem feedAll (h : compiler.Mirrors front compiler') (loader : Option (Loader σ ρ))
    (tokens : List Token) (state : σ) :
    ∃ reception last last' after, compiler.feedAll loader tokens state = (reception, last, after) ∧
      compiler'.feedAll loader tokens state = (reception, last', after) ∧ last.Mirrors front last' := by
  induction tokens generalizing compiler compiler' state with
  | nil => exact ⟨.accepted, compiler, compiler', state, rfl, rfl, h⟩
  | cons token tokens ih =>
    obtain ⟨reception, next, next', after, hfeed, hfeed', hnext⟩ := h.feed loader token state
    rw [Compiler.feedAll, Compiler.feedAll, hfeed, hfeed']
    cases reception with
    | accepted => exact ih hnext after
    | refused | broken => exact ⟨_, next, next', after, rfl, rfl, hnext⟩

/-- They end alike, with `front` ahead of the nodes of the second template. -/
theorem conclude (h : compiler.Mirrors front compiler') :
    compiler'.conclude.1 = compiler.conclude.1.map (·.behind front) ∧
      compiler.conclude.2.Mirrors front compiler'.conclude.2 := by
  cases h with
  | failed => exact ⟨rfl, .failed⟩
  | @running setting stack stack' h =>
    cases h with
    | @root scope scope' h =>
      refine ⟨?_, .running (.root h)⟩
      show Except.ok _ = Except.ok _
      rw [Scope.body, Scope.body, h.nodes]
      rfl
    | @tag scope scope' below below' enclosing enclosing' h hbelow =>
      have hunclosed : unclosed setting scope' = unclosed setting scope := by
        rw [unclosed, unclosed, setting.cite_eq_of_place h.place]
      simp only [Compiler.conclude, finish, hunclosed]
      exact ⟨rfl, .failed⟩

theorem fail (h : compiler.Mirrors front compiler') (failure : Failure) :
    (compiler.fail failure).Mirrors front (compiler'.fail failure) := by
  cases h with
  | failed => exact .failed
  | running h => exact .failed

/-- Once they have taken the tokens of their streams alike, they end alike. -/
theorem read_of_feedAll {tokens tokens' : List Token} {reception : Reception}
    {last last' : Compiler ρ} {loader : Option (Loader σ ρ)} {state after : σ}
    (hfed : compiler.feedAll loader tokens state = (reception, last, after))
    (hfed' : compiler'.feedAll loader tokens' state = (reception, last', after))
    (hlast : last.Mirrors front last') (ending : Option Failure) :
    ∃ result last last' after,
      compiler.read loader tokens ending state = (result, last, after) ∧
      compiler'.read loader tokens' ending state = (result.map (·.behind front), last', after) ∧
        last.Mirrors front last' := by
  rw [Compiler.read, Compiler.read, hfed, hfed']
  have hconcluded := hlast.conclude
  cases reception with
  | broken breach => exact ⟨_, last, last', after, rfl, rfl, hlast⟩
  | refused => exact ⟨_, _, _, after, rfl, by rw [← hconcluded.1], hconcluded.2⟩
  | accepted =>
    dsimp only
    cases ending with
    | none => exact ⟨_, _, _, after, rfl, by rw [← hconcluded.1], hconcluded.2⟩
    | some failure =>
      dsimp only
      split
      · have hfailed := (hlast.fail failure).conclude
        exact ⟨_, _, _, after, rfl, by rw [← hfailed.1], hfailed.2⟩
      · exact ⟨_, last, last', after, rfl, rfl, hlast⟩

/-- They compile streams alike, with `front` ahead of the nodes of the second template. -/
theorem compile (h : compiler.Mirrors front compiler') (loader : Option (Loader σ ρ))
    (stream : Stream) (state : σ) :
    ∃ result last last' after, compiler.compile loader stream state = (result, last, after) ∧
      compiler'.compile loader stream state = (result.map (·.behind front), last', after) ∧
        last.Mirrors front last' := by
  cases stream with
  | unopened failure => exact ⟨_, compiler, compiler', state, rfl, rfl, h⟩
  | opened tokens ending =>
    obtain ⟨reception, last, last', after, hfed, hfed', hlast⟩ := h.feedAll loader tokens state
    exact read_of_feedAll hfed hfed' hlast ending

end Mirrors

namespace Course

variable {loader : Option (Loader σ ρ)} {course course' : Course σ ρ}

/-- The compilers of two courses have the same open tags, up to what the tags say, and their loaders have
been used alike. -/
structure Mirrors (course course' : Course σ ρ) : Prop where
  compiler : course.compiler.Mirrors [] course'.compiler
  state : course'.state = course.state
  calls : course'.calls = course.calls

theorem Mirrors.perform (h : course.Mirrors course') (step : Step) :
    (course'.perform loader step).1 = (course.perform loader step).1 ∧
      (course.perform loader step).2.Mirrors (course'.perform loader step).2 := by
  obtain ⟨first, _, _⟩ := course
  obtain ⟨second, now, earlier⟩ := course'
  obtain ⟨hcompiler, rfl, rfl⟩ := h
  cases step with
  | feed token =>
    obtain ⟨reception, next, next', after, hfeed, hfeed', hnext⟩ :=
      hcompiler.feed (loader.map .logged) token (now, earlier)
    simp only [Course.perform, hfeed, hfeed']
    exact ⟨trivial, hnext, rfl, rfl⟩
  | fail failure => exact ⟨rfl, hcompiler.fail failure, rfl, rfl⟩
  | finish =>
    have hconcluded := hcompiler.conclude
    simp only [Course.perform, hconcluded.1, Body.map_behind_nil]
    exact ⟨trivial, hconcluded.2, rfl, rfl⟩
  | compile stream =>
    obtain ⟨result, last, last', after, hcompile, hcompile', hlast⟩ :=
      hcompiler.compile (loader.map .logged) stream (now, earlier)
    simp only [Course.perform, hcompile, hcompile', Body.map_behind_nil]
    exact ⟨trivial, hlast, rfl, rfl⟩

/-- No use tells two compilers apart whose open tags are the same up to what the tags say. -/
theorem replies_eq_of_mirrors (h : course.Mirrors course') (steps : List Step) :
    course'.replies loader steps = course.replies loader steps := by
  induction steps generalizing course course' with
  | nil => rfl
  | cons step steps ih =>
    obtain ⟨hreply, hnext⟩ := h.perform step
    rw [replies, replies, hreply, ih hnext]

end Course

end Compiler

end Logicless
