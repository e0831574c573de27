import Logicless.Proofs.Compile.Run

/-!
# The tags that hold scopes open

Every open scope belongs to one of the tags that were read. Which one it is can be told from the number of
scopes that each token has left: the tag of the scope at some depth is the last one that has opened a scope
at this depth. The tag between two branches of a section opens a scope too, at the depth of the one that it
closes, and so takes the place of the tag before it.

## Shape of the module

* `Compiler.depths` goes with the tokens and notes how many scopes each of them leaves.
* `HoldsOpen` says by such notes alone which tag the scope at some depth belongs to.
* `ScopeStack.Held` is the invariant of the compiler: it knows of each open scope which tag this is.
  `Held.advance` is the step and `Held.run` the run.
-/

namespace Logicless

variable {σ ρ : Type}

/-- The tags that open a scope. -/
def TokenKind.opens : TokenKind → Bool
  | openSection | openInverted | openBlock | openLayout => true
  | setDelimiters | comment | pragma | text | escapedVariable | unescapedVariable | close
  | inclusion => false

theorem TokenKind.opens_of_isSilent {kind : TokenKind} (h : kind.IsSilent) : kind.opens = false := by
  obtain rfl | rfl | rfl := h <;> rfl

theorem TokenKind.opens_ofVariable (escape : Bool) : (ofVariable escape).opens = false := by
  cases escape <;> rfl

theorem TokenKind.opens_ofSection (inverted : Bool) : (ofSection inverted).opens = true := by
  cases inverted <;> rfl

namespace Compiler

/-- The number of scopes of a compiler. One that has failed has none. -/
def depth (compiler : Compiler ρ) : Nat :=
  match compiler.progress with
  | .running stack => stack.depth
  | .failed _ => 0

/-- The tokens, each with the number of scopes that it leaves. -/
def depths (loader : Option (Loader σ ρ)) : List Token → Compiler ρ → σ → List (Token × Nat)
  | [], _, _ => []
  | token :: tokens, compiler, state =>
    let result := compiler.feed loader token state
    (token, result.2.1.depth) :: depths loader tokens result.2.1 result.2.2

end Compiler

/-- Of all tags that were read, `opening` is the one that the scope at `depth` belongs to. It has left so
many scopes, none of the tokens behind it has left fewer, and none has opened a scope at the same
depth. -/
def HoldsOpen (history : List (Token × Nat)) (depth : Nat) (opening : Token) : Prop :=
  ∃ before behind, history = before ++ (opening, depth) :: behind ∧ opening.kind.opens = true ∧
    ∀ later ∈ behind, depth ≤ later.2 ∧ (later.1.kind.opens = true → depth < later.2)

namespace HoldsOpen

variable {history : List (Token × Nat)} {depth left : Nat} {opening token : Token}

theorem last (hopens : token.kind.opens = true) :
    HoldsOpen (history ++ [(token, left)]) left token :=
  ⟨history, [], rfl, hopens, by simp⟩

theorem concat (h : HoldsOpen history depth opening) (hdepth : depth ≤ left)
    (hopens : token.kind.opens = true → depth < left) :
    HoldsOpen (history ++ [(token, left)]) depth opening := by
  obtain ⟨before, behind, rfl, hopening, hbehind⟩ := h
  refine ⟨before, behind ++ [(token, left)], by simp, hopening, ?_⟩
  intro later hlater
  rcases List.mem_append.mp hlater with hlater | hlater
  · exact hbehind later hlater
  · obtain rfl := List.mem_singleton.mp hlater
    exact ⟨hdepth, hopens⟩

end HoldsOpen

namespace ScopeStack

/-- Each open scope knows the tag that it belongs to. -/
inductive Held (history : List (Token × Nat)) : ScopeStack ρ → Prop
  | root {scope : Scope ρ} : Held history ⟨scope, []⟩
  | tag {opening : Token} {scope below : Scope ρ} {enclosing : List (Scope ρ)}
      (hopening : scope.opening = some opening)
      (hholds : HoldsOpen history (depth ⟨scope, below :: enclosing⟩) opening)
      (hbelow : Held history ⟨below, enclosing⟩) : Held history ⟨scope, below :: enclosing⟩

namespace Held

variable {history : List (Token × Nat)} {left : Nat} {token : Token} {stack stack' : ScopeStack ρ}
  {scope below : Scope ρ} {enclosing : List (Scope ρ)} {setting : Setting} {state state' : σ}

theorem exists_opening (h : stack.Held history) (hopen : 1 < stack.depth) :
    ∃ opening, stack.current.opening = some opening ∧ HoldsOpen history stack.depth opening := by
  cases h with
  | root => simp [depth] at hopen
  | tag hopening hholds hbelow => exact ⟨_, hopening, hholds⟩

theorem append (h : stack.Held history) (node : Node Unit ρ) : (stack.append node).Held history := by
  cases h with
  | root => exact .root
  | tag hopening hholds hbelow => exact .tag hopening hholds hbelow

theorem outside (h : Held history ⟨scope, below :: enclosing⟩) : Held history ⟨below, enclosing⟩ := by
  cases h with
  | tag _ _ hbelow => exact hbelow

/-- Scopes stay with their tags as long as they are neither closed nor replaced. -/
theorem concat (h : stack.Held history) (hdepth : stack.depth ≤ left)
    (hopens : token.kind.opens = true → stack.depth < left) :
    stack.Held (history ++ [(token, left)]) := by
  induction h with
  | root => exact .root
  | @tag opening scope below enclosing hopening hholds hbelow ih =>
    have hless : depth ⟨below, enclosing⟩ < depth ⟨scope, below :: enclosing⟩ := by simp [depth]
    refine .tag hopening (hholds.concat hdepth hopens) (ih ?_ ?_)
    · omega
    · intro _
      omega

/-- The scope that a tag opens belongs to the tag. -/
theorem push (h : stack.Held history) (hopens : token.kind.opens = true)
    (hopening : scope.opening = some token) :
    (stack.push scope).Held (history ++ [(token, (stack.push scope).depth)]) := by
  refine .tag hopening (.last hopens) (h.concat ?_ ?_)
  · exact Nat.le_succ _
  · intro _
    exact Nat.lt_succ_self _

/-- A token that opens nothing takes no scope from its tag. -/
theorem quiet (h : stack.Held history) (hquiet : token.kind.opens = false) :
    stack.Held (history ++ [(token, stack.depth)]) := by
  refine h.concat le_rfl fun hopens => ?_
  rw [hquiet] at hopens
  cases hopens

theorem advance {loader : Loader σ ρ}
    (hadvance : Advance setting loader token (stack, state) (stack', state'))
    (h : stack.Held history) : stack'.Held (history ++ [(token, stack'.depth)]) := by
  cases hadvance with
  | skip hkind => exact h.quiet (TokenKind.opens_of_isSilent hkind)
  | text hkind => exact (h.append _).quiet (by rw [hkind]; rfl)
  | interpolation hkind => exact (h.append _).quiet (by rw [hkind, TokenKind.opens_ofVariable])
  | inclusion hkind => exact (h.append _).quiet (by rw [hkind]; rfl)
  | openSection hkind => exact h.push (by rw [hkind, TokenKind.opens_ofSection]) rfl
  | alternative hkind =>
    exact (h.outside.append _).push (by rw [hkind, TokenKind.opens_ofSection]) rfl
  | openBlock hkind => exact h.push (by rw [hkind]; rfl) rfl
  | openLayout hkind => exact h.push (by rw [hkind]; rfl) rfl
  | closeSection hkind => exact (h.outside.append _).quiet (by rw [hkind]; rfl)
  | closeBlock hkind => exact (h.outside.append _).quiet (by rw [hkind]; rfl)
  | closeLayout hkind => exact (h.outside.append _).quiet (by rw [hkind]; rfl)

/-- After tokens that are all accepted, each open scope knows the tag that it belongs to. -/
theorem run {loader : Option (Loader σ ρ)} {tokens : List Token} {p q : Progression σ ρ}
    (hrun : Run setting (loader.getD .absent) tokens p q) (h : p.1.Held history) :
    q.1.Held (history ++ (Compiler.running setting p.1).depths loader tokens p.2) := by
  induction hrun generalizing history with
  | nil => simpa [Compiler.depths] using h
  | @cons token tokens p q r hadvance _ ih =>
    have hfeed : (Compiler.running setting p.1).feed loader token p.2 =
        (.accepted, .running setting q.1, q.2) :=
      Compiler.feed_running_iff_advance.mpr hadvance
    have hrest := ih (h.advance hadvance)
    rw [Compiler.depths, hfeed]
    rwa [List.append_assoc] at hrest

end Held

end ScopeStack

/-- Which tag the innermost open scope of a compilation belongs to. -/
theorem exists_holdsOpen_of_feedAll {setting : Setting} {loader : Option (Loader σ ρ)}
    {tokens : List Token} {state state' : σ} {stack : ScopeStack ρ}
    (hfed : (Compiler.initial setting).feedAll loader tokens state =
      (.accepted, .running setting stack, state')) (hopen : 1 < stack.depth) :
    ∃ opening, stack.current.opening = some opening ∧
      HoldsOpen ((Compiler.initial setting).depths loader tokens state) stack.depth opening := by
  have hrun := Compiler.feedAll_running_iff_run.mp hfed
  have hheld : stack.Held ([] ++ (Compiler.initial setting).depths loader tokens state) :=
    ScopeStack.Held.run hrun .root
  exact hheld.exists_opening hopen

end Logicless
