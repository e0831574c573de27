import Logicless.Proofs.Compile.Run

/-!
# What a compilation preserves

A compilation changes the state of its loader by loading templates and in no other way, and it builds
its nodes from their parts. So a relation between states that every load respects holds between the
state before a compilation and the one after it, whether it succeeds or fails; and a property that
passes from the parts of a node to the node holds of all nodes of a compiled template.

## Shape of the module

* `state_of_compileTemplate` is the first of these rules.
* `Hereditary` collects what the second one asks of a property of nodes, and `Loading` what it asks
  of the loader where the property depends on the loader's state.
* `nodes_of_compileTemplate` is the second rule.
-/

namespace Logicless

variable {σ ρ : Type} {setting : Setting} {loader : Loader σ ρ}

/-! ## The state of the loader -/

section State

variable {R : σ → σ → Prop}

/-- Taking a token leaves the state alone or loads one template. -/
theorem state_of_feed (hrefl : ∀ state, R state state)
    (hload : ∀ name state, R state (loader name setting.template state).2)
    {compiler : Compiler ρ} (hsetting : compiler.setting = setting) (token : Token) (state : σ) :
    R state (compiler.feed (some loader) token state).2.2 ∧
      (compiler.feed (some loader) token state).2.1.setting = setting := by
  rw [Compiler.feed]
  split
  · exact ⟨hrefl state, hsetting⟩
  · split
    · exact ⟨hrefl state, hsetting⟩
    · exact ⟨hrefl state, hsetting⟩
    · exact ⟨hrefl state, hsetting⟩
    · rename_i name citing resume _
      rw [hsetting, Compiler.load_some_eq]
      have h := hload name state
      revert h
      rcases loader name setting.template state with ⟨_ | _, _⟩ <;>
        exact fun h => ⟨h, hsetting⟩

theorem state_of_feedAll (hrefl : ∀ state, R state state)
    (htrans : ∀ {a b c}, R a b → R b c → R a c)
    (hload : ∀ name state, R state (loader name setting.template state).2) (tokens : List Token)
    {compiler : Compiler ρ} (hsetting : compiler.setting = setting) (state : σ) :
    R state (compiler.feedAll (some loader) tokens state).2.2 := by
  induction tokens generalizing compiler state with
  | nil => exact hrefl state
  | cons token tokens ih =>
    have hfeed := state_of_feed hrefl hload hsetting token state
    rw [Compiler.feedAll]
    split
    · rename_i heq
      rw [heq] at hfeed
      exact htrans hfeed.1 (ih hfeed.2 _)
    · exact hfeed.1

/-- A compilation leaves the state as it is once its tokens are taken. -/
theorem state_compileTemplate_eq (setting : Setting) (loader : Option (Loader σ ρ)) (stream : Stream)
    (state : σ) :
    (compileTemplate setting loader stream state).2 =
      ((Compiler.initial setting).feedAll loader stream.tokens state).2.2 := by
  cases stream with
  | unopened failure => rfl
  | opened tokens ending =>
    simp only [compileTemplate, Compiler.compile, Compiler.read, Stream.tokens]
    rcases (Compiler.initial setting).feedAll loader tokens state with ⟨reception, compiler, after⟩
    cases reception with
    | broken | refused => rfl
    | accepted =>
      cases ending with
      | none => rfl
      | some failure => dsimp only; split <;> rfl

/-- What every load does to the state, a whole compilation does, whatever comes of it. -/
theorem state_of_compileTemplate (hrefl : ∀ state, R state state)
    (htrans : ∀ {a b c}, R a b → R b c → R a c)
    (hload : ∀ name state, R state (loader name setting.template state).2) (stream : Stream)
    (state : σ) : R state (compileTemplate setting (some loader) stream state).2 := by
  rw [state_compileTemplate_eq]
  exact state_of_feedAll hrefl htrans hload stream.tokens rfl state

end State

/-! ## The nodes of a template -/

/-- A property that passes from the parts of a node to the node. `Loaded` is what is known of an
included template. -/
structure Hereditary (contentType : ContentType) (Loaded : String → ρ → Prop)
    (P : Node Unit ρ → Prop) : Prop where
  text : ∀ line text, P (.text line text)
  interpolation : ∀ line expression escape, P (.interpolation line expression escape)
  branch : ∀ line expression inverted nodes, (∀ node ∈ nodes, P node) →
    P (.branch line expression inverted ⟨(), contentType, nodes⟩)
  inclusion : ∀ line name target, Loaded name target → P (.inclusion ⟨line, name, target⟩)
  block : ∀ line name nodes, (∀ node ∈ nodes, P node) →
    P (.block ⟨(), line, name, ⟨(), contentType, nodes⟩⟩)
  layout : ∀ line name target nodes, Loaded name target → (∀ node ∈ nodes, P node) →
    P (.layout ⟨line, ⟨line, name, target⟩, ⟨(), contentType, nodes⟩⟩)

/-- All nodes under the open tags have a property. -/
def ScopeStack.Forall (P : Node Unit ρ → Prop) (stack : ScopeStack ρ) : Prop :=
  ∀ scope ∈ stack.current :: stack.enclosing, ∀ node ∈ scope.nodes, P node

namespace ScopeStack.Forall

variable {P : Node Unit ρ → Prop} {stack : ScopeStack ρ}

theorem initial : (ScopeStack.initial : ScopeStack ρ).Forall P := by
  simp [ScopeStack.Forall, ScopeStack.initial]

theorem mono {P' : Node Unit ρ → Prop} (h : stack.Forall P) (hP : ∀ node, P node → P' node) :
    stack.Forall P' :=
  fun scope hscope node hnode => hP node (h scope hscope node hnode)

theorem append {node : Node Unit ρ} (h : stack.Forall P) (hnode : P node) :
    (stack.append node).Forall P := by
  intro scope hscope other hother
  rcases List.mem_cons.mp hscope with rfl | hscope
  · rcases List.mem_append.mp hother with hother | hother
    · exact h _ List.mem_cons_self _ hother
    · obtain rfl := List.mem_singleton.mp hother
      exact hnode
  · exact h scope (List.mem_cons_of_mem _ hscope) other hother

theorem push {scope : Scope ρ} (h : stack.Forall P) (hscope : scope.nodes = []) :
    (stack.push scope).Forall P := by
  intro other hother node hnode
  rcases List.mem_cons.mp hother with rfl | hother
  · simp [hscope] at hnode
  · exact h other hother node hnode

theorem below {scope below : Scope ρ} {enclosing : List (Scope ρ)}
    (h : ScopeStack.Forall P ⟨scope, below :: enclosing⟩) :
    ScopeStack.Forall P ⟨below, enclosing⟩ :=
  fun other hother => h other (List.mem_cons_of_mem _ hother)

/-- An advance keeps a hereditary property of all nodes. -/
theorem advance {Loaded : String → ρ → Prop} {token : Token} {state state' : σ}
    {stack' : ScopeStack ρ} (hP : Hereditary setting.contentType Loaded P)
    (hload : ∀ name target, loader name setting.template state = (.ok target, state') →
      Loaded name target)
    (hadvance : ScopeStack.Advance setting loader token (stack, state) (stack', state'))
    (h : stack.Forall P) : stack'.Forall P := by
  cases hadvance with
  | skip => exact h
  | text => exact h.append (hP.text _ _)
  | interpolation => exact h.append (hP.interpolation _ _ _)
  | inclusion _ _ hloaded => exact h.append (hP.inclusion _ _ _ (hload _ _ hloaded))
  | openSection => exact h.push rfl
  | @alternative scope below enclosing _ inverted expression =>
    have hnode := hP.branch scope.line expression (!inverted) _ (h _ List.mem_cons_self)
    exact (h.below.append hnode).push rfl
  | openBlock => exact h.push rfl
  | openLayout => exact h.push rfl
  | closeSection =>
    exact h.below.append (hP.branch _ _ _ _ (h _ List.mem_cons_self))
  | closeBlock =>
    exact h.below.append (hP.block _ _ _ (h _ List.mem_cons_self))
  | closeLayout _ _ _ _ hloaded =>
    exact h.below.append
      (hP.layout _ _ _ _ (hload _ _ hloaded) (h _ List.mem_cons_self))

end ScopeStack.Forall

/-- What the rule for nodes asks where a property of nodes depends on the loader's state: the state
changes along `R`, which keeps the property, and a template that is loaded is known by `Loaded`. -/
structure Loading (setting : Setting) (loader : Loader σ ρ) (R : σ → σ → Prop)
    (Loaded : σ → String → ρ → Prop) (P : σ → Node Unit ρ → Prop) : Prop where
  refl : ∀ state, R state state
  load : ∀ name state, R state (loader name setting.template state).2
  loaded : ∀ name target state state',
    loader name setting.template state = (.ok target, state') → Loaded state' name target
  mono : ∀ state state' node, R state state' → P state node → P state' node
  hereditary : ∀ state, Hereditary setting.contentType (Loaded state) (P state)

namespace Loading

variable {R : σ → σ → Prop} {Loaded : σ → String → ρ → Prop} {P : σ → Node Unit ρ → Prop}

/-- The state after an advance is related to the one before. -/
theorem state_of_advance (hloading : Loading setting loader R Loaded P) {token : Token}
    {p q : Progression σ ρ} (h : ScopeStack.Advance setting loader token p q) : R p.2 q.2 := by
  have hload : ∀ {name target state state'},
      loader name setting.template state = (.ok target, state') → R state state' := by
    intro name target state state' hloaded
    have := hloading.load name state
    rwa [hloaded] at this
  cases h with
  | inclusion _ _ hloaded => exact hload hloaded
  | closeLayout _ _ _ _ hloaded => exact hload hloaded
  | _ => exact hloading.refl _

theorem forall_of_run (hloading : Loading setting loader R Loaded P) {tokens : List Token}
    {p q : Progression σ ρ} (hrun : Run setting loader tokens p q) (h : p.1.Forall (P p.2)) :
    q.1.Forall (P q.2) := by
  induction hrun with
  | nil => exact h
  | @cons token tokens p q r hadvance _ ih =>
    have hR := hloading.state_of_advance hadvance
    exact ih ((h.mono fun node => hloading.mono _ _ node hR).advance (hloading.hereditary q.2)
      (fun name target => hloading.loaded name target _ _) hadvance)

/-- All nodes of a compiled template have a property that is hereditary while templates are
loaded. -/
theorem nodes_of_compileTemplate (hloading : Loading setting loader R Loaded P) {stream : Stream}
    {state state' : σ} {template : Template Unit ρ}
    (h : compileTemplate setting (some loader) stream state = (.ok template, state')) :
    ∀ node ∈ template.nodes, P state' node := by
  obtain ⟨_, scope, rfl, hrun⟩ := compileTemplate_eq_ok_iff.mp h
  exact hloading.forall_of_run hrun .initial scope List.mem_cons_self

end Loading

end Logicless
