import Logicless.Proofs.Compile.Run

/-!
# Tags that can be closed

Closing a tag takes a scope off the stack and reads the expression or the name in it. None of this can
go wrong: every scope but that of the whole template has been opened by a tag, with an expression or a
name, and the scope of the whole template, which is never closed, lies below all of them. So the
stack takes every token, or the token is refused for what it says.

## Shape of the module

* `Scope.IsTag` is a scope that a tag has opened, and `ScopeStack.Grounded` a stack of such scopes above
  that of a whole template.
* `Move.Safe` says of a move that it breaks nothing and leads to stacks with a property; `safe_move` is
  the step.
* `Compiler.Steady` is the invariant of a compiler, and `Steady.feed` says what a token can do to it.
-/

namespace Logicless

variable {σ ρ : Type}

/-- A scope that was opened by a tag: that of a section, with its expression, or that of a block or a
layout, with its name. -/
inductive Scope.IsTag : Scope ρ → Prop
  | ofSection {inverted : Bool} {token : Token} {expression : Expr} {nodes : List (Node Unit ρ)} :
      IsTag ⟨.ofSection inverted, some token, some expression, none, nodes⟩
  | block {token : Token} {name : String} {nodes : List (Node Unit ρ)} :
      IsTag ⟨.block, some token, none, some name, nodes⟩
  | layout {token : Token} {name : String} {nodes : List (Node Unit ρ)} :
      IsTag ⟨.layout, some token, none, some name, nodes⟩

theorem Scope.Kind.ofSection_ne_root (inverted : Bool) : Kind.ofSection inverted ≠ .root := by
  cases inverted <;> simp [ofSection]

theorem Scope.IsTag.append {scope : Scope ρ} (h : scope.IsTag) (node : Node Unit ρ) :
    (scope.append node).IsTag := by
  cases h with
  | ofSection => exact .ofSection
  | block => exact .block
  | layout => exact .layout

/-- A scope with the kind of a section has an expression. -/
theorem Scope.IsTag.exists_expression {scope : Scope ρ} {inverted : Bool} (h : scope.IsTag)
    (hkind : scope.kind = .ofSection inverted) :
    ∃ expression, scope.expression = some expression := by
  cases h with
  | ofSection => exact ⟨_, rfl⟩
  | block | layout => cases inverted <;> cases hkind

/-- A scope with the kind of a block or a layout has a name. -/
theorem Scope.IsTag.exists_name {scope : Scope ρ} (h : scope.IsTag)
    (hkind : scope.kind = .block ∨ scope.kind = .layout) : ∃ name, scope.name = some name := by
  cases h with
  | @ofSection inverted => cases inverted <;> rcases hkind with hkind | hkind <;> cases hkind
  | block | layout => exact ⟨_, rfl⟩

/-- A scope that a tag has opened remembers the tag. -/
theorem Scope.IsTag.exists_opening {scope : Scope ρ} (h : scope.IsTag) :
    ∃ opening, scope.opening = some opening := by
  cases h with
  | ofSection | block | layout => exact ⟨_, rfl⟩

/-- The scopes of open tags lie above that of a whole template. -/
inductive ScopeStack.Grounded : ScopeStack ρ → Prop
  | root {scope : Scope ρ} (hroot : scope.kind = .root) : Grounded ⟨scope, []⟩
  | tag {scope below : Scope ρ} {enclosing : List (Scope ρ)} (htag : scope.IsTag)
      (hbelow : Grounded ⟨below, enclosing⟩) : Grounded ⟨scope, below :: enclosing⟩

/-! ## Moves -/

/-- The move breaks nothing, and the stacks that it leads to have a property. -/
def Move.Safe (P : ScopeStack ρ → Prop) : Move ρ → Prop
  | .proceed stack => P stack
  | .refuse _ => True
  | .load _ _ resume => ∀ target, P (resume target)
  | .breach _ => False

theorem Move.Safe.andThen {P : ScopeStack ρ → Prop} {α : Type} {value : Except LocatedFailure α}
    {next : α → Move ρ} (h : ∀ a, (next a).Safe P) : (Move.andThen value next).Safe P := by
  cases value with
  | error failure => trivial
  | ok a => exact h a

namespace ScopeStack.Grounded

variable {setting : Setting} {stack : ScopeStack ρ} {token : Token}

theorem initial : (ScopeStack.initial : ScopeStack ρ).Grounded :=
  .root rfl

theorem append (h : stack.Grounded) (node : Node Unit ρ) : (stack.append node).Grounded := by
  cases h with
  | root hroot => exact .root hroot
  | tag htag hbelow => exact .tag (htag.append node) hbelow

theorem push {scope : Scope ρ} (h : stack.Grounded) (htag : scope.IsTag) :
    (stack.push scope).Grounded :=
  .tag htag h

/-- The innermost scope is that of a tag unless its kind is that of a whole template. -/
theorem exists_below (h : stack.Grounded) (hkind : stack.current.kind ≠ .root) :
    ∃ below enclosing, stack.enclosing = below :: enclosing ∧ stack.current.IsTag ∧
      Grounded ⟨below, enclosing⟩ := by
  cases h with
  | root hroot => exact absurd hroot hkind
  | tag htag hbelow => exact ⟨_, _, rfl, htag, hbelow⟩

/-- The innermost scope becomes a node of the scope below, where it can become a node at all. -/
theorem collapse {toNode : Scope ρ → Except ScopeBreach (Node Unit ρ)} (h : stack.Grounded)
    (hkind : stack.current.kind ≠ .root) (hnode : ∃ node, toNode stack.current = .ok node) :
    ∃ stack', stack.collapse toNode = .ok stack' ∧ stack'.Grounded := by
  obtain ⟨below, enclosing, henclosing, _, hbelow⟩ := h.exists_below hkind
  obtain ⟨node, hnode⟩ := hnode
  exact ⟨_, collapse_eq_ok_iff.mpr ⟨below, enclosing, node, henclosing, hnode, rfl⟩,
    hbelow.append node⟩

/-- The innermost section has an expression and can be closed. -/
theorem collapse_toBranch (contentType : ContentType) {inverted : Bool} (h : stack.Grounded)
    (hkind : stack.current.kind = .ofSection inverted) :
    ∃ expression below, stack.current.expression = some expression ∧
      stack.collapse (Scope.toBranch contentType) = .ok below ∧ below.Grounded := by
  have hroot : stack.current.kind ≠ .root := by
    rw [hkind]
    exact Scope.Kind.ofSection_ne_root inverted
  obtain ⟨_, _, _, htag, _⟩ := h.exists_below hroot
  obtain ⟨expression, hexpression⟩ := htag.exists_expression hkind
  obtain ⟨below, hbelow, hgrounded⟩ :=
    h.collapse hroot ⟨_, toBranch_eq_ok_iff.mpr ⟨expression, hexpression, rfl⟩⟩
  exact ⟨expression, below, hexpression, hbelow, hgrounded⟩

theorem safe_moveVariable (h : stack.Grounded) (escape : Bool) :
    (stack.moveVariable setting token escape).Safe Grounded :=
  .andThen fun _ => h.append _

/-- A section tag opens a section, or it continues the innermost one, which has an expression to go on
with. -/
theorem safe_moveSection (h : stack.Grounded) (inverted : Bool) :
    (stack.moveSection setting token (.ofSection inverted) (.ofSection !inverted)).Safe Grounded := by
  refine .andThen fun content => ?_
  dsimp only
  by_cases hcontinues : stack.continues (.ofSection !inverted) content = true
  · have hkind : stack.current.kind = .ofSection !inverted := by
      simp only [continues, Bool.and_eq_true, decide_eq_true_eq] at hcontinues
      exact hcontinues.1
    obtain ⟨expression, below, hexpression, hbelow, hgrounded⟩ :=
      h.collapse_toBranch setting.contentType hkind
    rw [if_pos hcontinues, hbelow, hexpression]
    exact hgrounded.push .ofSection
  · rw [if_neg hcontinues]
    cases content with
    | some expression => exact h.push .ofSection
    | none => trivial

theorem safe_closeBranch (h : stack.Grounded) (inverted : Bool)
    (hkind : stack.current.kind = .ofSection inverted) :
    (stack.closeBranch setting token).Safe Grounded := by
  refine .andThen fun content => ?_
  split
  · obtain ⟨_, below, _, hbelow, hgrounded⟩ := h.collapse_toBranch setting.contentType hkind
    rw [hbelow]
    exact hgrounded
  · trivial

theorem safe_closeBlock (h : stack.Grounded) (hkind : stack.current.kind = .block) :
    (stack.closeBlock setting token).Safe Grounded := by
  refine .andThen fun content => ?_
  split
  · have hroot : stack.current.kind ≠ .root := by simp [hkind]
    obtain ⟨_, _, _, htag, _⟩ := h.exists_below hroot
    obtain ⟨name, hname⟩ := htag.exists_name (.inl hkind)
    have hnode : ∃ node, stack.current.toBlock setting.contentType = .ok node :=
      ⟨_, toBlock_eq_ok_iff.mpr ⟨name, hname, rfl⟩⟩
    obtain ⟨below, hbelow, hgrounded⟩ := h.collapse hroot hnode
    rw [hbelow]
    exact hgrounded
  · trivial

/-- The template of a layout takes the place of its scope, once it is loaded. -/
theorem safe_closeLayout (h : stack.Grounded) (hkind : stack.current.kind = .layout) :
    (stack.closeLayout setting token).Safe Grounded := by
  refine .andThen fun content => ?_
  split
  · obtain ⟨below, enclosing, henclosing, htag, hbelow⟩ := h.exists_below (by simp [hkind])
    obtain ⟨name, hname⟩ := htag.exists_name (.inr hkind)
    simp only [hname, pop, henclosing]
    exact fun target => hbelow.append _
  · trivial

/-- No token breaks the stack, and whatever stack it leads to is grounded again. -/
theorem safe_move (h : stack.Grounded) (setting : Setting) (token : Token) :
    (stack.move setting token).Safe Grounded := by
  rw [move]
  cases token.kind with
  | setDelimiters | comment | pragma => exact h
  | text => exact h.append _
  | escapedVariable => exact h.safe_moveVariable true
  | unescapedVariable => exact h.safe_moveVariable false
  | openSection => exact h.safe_moveSection false
  | openInverted => exact h.safe_moveSection true
  | openBlock => exact .andThen fun _ => h.push .block
  | openLayout => exact .andThen fun _ => h.push .layout
  | inclusion => exact .andThen fun _ _ => h.append _
  | close =>
    show (stack.moveClose setting token).Safe Grounded
    rw [moveClose]
    cases hkind : stack.current.kind with
    | root => trivial
    | branch => exact h.safe_closeBranch false hkind
    | inverted => exact h.safe_closeBranch true hkind
    | layout => exact h.safe_closeLayout hkind
    | block => exact h.safe_closeBlock hkind

end ScopeStack.Grounded

/-! ## Compilers -/

namespace Compiler

/-- The open tags of a compiler that has not failed are grounded. -/
def Steady (compiler : Compiler ρ) : Prop :=
  ∀ stack, compiler.progress = .running stack → stack.Grounded

/-- The answer to a token tells whether the compiler goes on or has failed. -/
def Tells (reception : Reception) (compiler : Compiler ρ) : Prop :=
  (reception = .accepted ∧ compiler.failure? = none) ∨
    (reception = .refused ∧ ∃ failure, compiler.failure? = some failure)

namespace Steady

variable {setting : Setting} {compiler : Compiler ρ}

theorem running {stack : ScopeStack ρ} (h : stack.Grounded) :
    (Compiler.running setting stack).Steady := by
  rintro stack' hstack
  obtain rfl := Progress.running.inj hstack
  exact h

theorem failed {failure : LocatedFailure} : (⟨setting, .failed failure⟩ : Compiler ρ).Steady := by
  rintro stack hstack
  cases hstack

theorem initial : (Compiler.initial setting : Compiler ρ).Steady :=
  running .initial

/-- A token is accepted by a compiler that goes on, or refused by one that has failed; it never breaks
the stack. -/
theorem feed (h : compiler.Steady) (loader : Option (Loader σ ρ)) (token : Token) (state : σ) :
    (compiler.feed loader token state).2.1.Steady ∧
      Tells (compiler.feed loader token state).1 (compiler.feed loader token state).2.1 := by
  obtain ⟨setting, stack | failure⟩ := compiler
  · have hsafe := (h stack rfl).safe_move setting token
    cases hmove : stack.move setting token with
    | proceed next =>
      rw [hmove] at hsafe
      simp only [Compiler.feed, hmove]
      exact ⟨running hsafe, .inl ⟨rfl, rfl⟩⟩
    | refuse failure =>
      simp only [Compiler.feed, hmove]
      exact ⟨failed, .inr ⟨rfl, failure, rfl⟩⟩
    | breach breach =>
      rw [hmove] at hsafe
      exact hsafe.elim
    | load name citing resume =>
      rw [hmove] at hsafe
      simp only [Compiler.feed, hmove]
      rcases setting.load loader citing name state with ⟨failure | target, after⟩
      · exact ⟨failed, .inr ⟨rfl, failure, rfl⟩⟩
      · exact ⟨running (hsafe target), .inl ⟨rfl, rfl⟩⟩
  · exact ⟨failed, .inr ⟨rfl, failure, rfl⟩⟩

end Steady

end Compiler

end Logicless
