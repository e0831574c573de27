import Logicless.Proofs.Compile.Grammar
import Logicless.Proofs.Tree.Inclusions

/-!
# The names that a template includes

The tags of a template say which other templates it includes: the tag of an inclusion by its content,
and that of a layout by the content of its opening tag. The compiler loads templates by these names and
by no others, and a template that compiles has an inclusion for each of them.

## Shape of the module

* `Token.includedName?` is the name in a tag that includes a template, and `Stream.includedNames` lists
  the names of a stream.
* `ScopeStack.Awaits` says of the names of open layouts what is to be known of names that are loaded:
  the template of a layout is loaded when the layout is closed. `Awaits.advance` is the step and
  `Awaits.of_move_load` is what it is for.
* `includedNames_of_compileTemplate` compares the tags of a template with the tree that it compiles to.
-/

namespace Logicless

variable {σ ρ : Type}

/-- The name of the template that a tag includes. -/
def Token.includedName? (token : Token) : Option String :=
  if token.kind = .inclusion ∨ token.kind = .openLayout then
    (parseName .template token.content).toOption
  else none

/-- The names of the templates that the tags of a stream include. -/
def Stream.includedNames (stream : Stream) : List String :=
  stream.tokens.filterMap Token.includedName?

theorem Token.includedName?_of_names {token : Token} {name : String}
    (hkind : token.kind = .inclusion ∨ token.kind = .openLayout)
    (hname : token.Names .template name) : token.includedName? = some name := by
  rw [Token.includedName?, if_pos hkind, show parseName _ _ = _ from hname]
  rfl

theorem Token.includedName?_eq_none {token : Token}
    (h : ¬(token.kind = .inclusion ∨ token.kind = .openLayout)) : token.includedName? = none := by
  rw [Token.includedName?, if_neg h]

/-! ## Names that are loaded -/

/-- The names of all open layouts have a property. -/
def ScopeStack.Awaits (P : String → Prop) (stack : ScopeStack ρ) : Prop :=
  ∀ scope ∈ stack.current :: stack.enclosing, scope.kind = .layout →
    ∀ name, scope.name = some name → P name

/-- A loader that keeps the last name in its state. -/
def Loader.recording [Inhabited ρ] : Loader (Option String) ρ :=
  fun name _ _ => (.ok default, some name)

namespace ScopeStack.Awaits

variable {setting : Setting} {loader : Loader σ ρ} {P : String → Prop} {stack stack' : ScopeStack ρ}
  {token : Token} {state state' : σ}

theorem initial : (ScopeStack.initial : ScopeStack ρ).Awaits P := by
  simp [ScopeStack.Awaits, ScopeStack.initial]

theorem append (h : stack.Awaits P) (node : Node Unit ρ) : (stack.append node).Awaits P := by
  intro scope hscope
  rcases List.mem_cons.mp hscope with rfl | hscope
  · exact h stack.current List.mem_cons_self
  · exact h scope (List.mem_cons_of_mem _ hscope)

theorem push {scope : Scope ρ} (h : stack.Awaits P)
    (hscope : scope.kind = .layout → ∀ name, scope.name = some name → P name) :
    (stack.push scope).Awaits P := by
  intro other hother
  rcases List.mem_cons.mp hother with rfl | hother
  · exact hscope
  · exact h other hother

theorem below {scope below : Scope ρ} {enclosing : List (Scope ρ)}
    (h : ScopeStack.Awaits P ⟨scope, below :: enclosing⟩) :
    ScopeStack.Awaits P ⟨below, enclosing⟩ :=
  fun other hother => h other (List.mem_cons_of_mem _ hother)

/-- The open layouts after a token are those before it and perhaps the one that it opens. -/
theorem advance (hadvance : Advance setting loader token (stack, state) (stack', state'))
    (htoken : ∀ name, token.includedName? = some name → P name) (h : stack.Awaits P) :
    stack'.Awaits P := by
  cases hadvance with
  | skip => exact h
  | text | interpolation | inclusion => exact h.append _
  | openSection => exact h.push fun hkind => absurd hkind (Scope.Kind.ofSection_ne_layout _)
  | alternative =>
    exact (h.below.append _).push fun hkind => absurd hkind (Scope.Kind.ofSection_ne_layout _)
  | openBlock =>
    refine h.push fun hkind => ?_
    cases hkind
  | openLayout hkind hname =>
    refine h.push fun _ name heq => ?_
    obtain rfl := Option.some.inj heq
    exact htoken _ (Token.includedName?_of_names (.inr hkind) hname)
  | closeSection | closeBlock | closeLayout => exact h.below.append _

/-- A name that is loaded is that of the tag, or that of the innermost open layout. -/
theorem of_move_load [Inhabited ρ] {name : String} {citing : Option Token}
    {resume : ρ → ScopeStack ρ} (hmove : stack.move setting token = .load name citing resume)
    (htoken : ∀ name, token.includedName? = some name → P name) (h : stack.Awaits P) : P name := by
  -- an advance has loaded the name that it leaves in the state
  have hadvance : Advance setting .recording token (stack, none) (resume default, some name) :=
    advance_of_move_load hmove rfl
  generalize resume default = stack', hlast : some name = last, hfirst : none = first at hadvance
  cases hadvance with
  | inclusion hkind hname hload =>
    obtain rfl := Option.some.inj (hlast.trans (Prod.mk.inj hload).2.symm)
    exact htoken _ (Token.includedName?_of_names (.inl hkind) hname)
  | closeLayout hkind hscope hname hfits hload =>
    obtain rfl := Option.some.inj (hlast.trans (Prod.mk.inj hload).2.symm)
    exact h _ List.mem_cons_self hscope _ hname
  | _ => cases hlast.trans hfirst.symm

end ScopeStack.Awaits

/-! ## Templates that compile -/

section

open Grammar

variable {setting : Setting} {resolver : Resolver ρ}

theorem includedName?_of_isSilent {token : Token} (h : token.kind.IsSilent) :
    token.includedName? = none := by
  obtain h | h | h := h <;> exact Token.includedName?_eq_none (by simp [h])

theorem includedName?_of_ofVariable {token : Token} {escape : Bool}
    (h : token.kind = .ofVariable escape) : token.includedName? = none := by
  cases escape <;> exact Token.includedName?_eq_none (by simp [h, TokenKind.ofVariable])

theorem includedName?_of_ofSection {token : Token} {inverted : Bool}
    (h : token.kind = .ofSection inverted) : token.includedName? = none := by
  cases inverted <;> exact Token.includedName?_eq_none (by simp [h, TokenKind.ofSection])

/-- A closing tag includes nothing. -/
theorem filterMap_includedName?_closed {closing : Token} (hcloses : closing.kind = .close)
    (tokens : List Token) :
    (tokens ++ [closing]).filterMap Token.includedName? = tokens.filterMap Token.includedName? := by
  rw [List.filterMap_append,
    List.filterMap_cons_none (Token.includedName?_eq_none (by simp [hcloses])), List.filterMap_nil,
    List.append_nil]

theorem map_name_inclusionsAmong_append (nodes nodes' : List (Node Unit ρ)) :
    (inclusionsAmong (nodes ++ nodes')).map Inclusion.name =
      (inclusionsAmong nodes).map Inclusion.name ++ (inclusionsAmong nodes').map Inclusion.name := by
  induction nodes with
  | nil => rfl
  | cons node nodes ih =>
    simp only [List.cons_append, inclusionsAmong, List.map_append, ih, List.append_assoc]

mutual

theorem includedNames_of_forest {around : Option (Expr × Bool)} {tokens : List Token}
    {nodes : List (Node Unit ρ)} (h : Forest setting resolver around tokens nodes) :
    tokens.filterMap Token.includedName? = (inclusionsAmong nodes).map Inclusion.name := by
  match h with
  | .nil => rfl
  | .cons hitem hforest =>
    rw [List.filterMap_append, map_name_inclusionsAmong_append, includedNames_of_item hitem,
      includedNames_of_forest hforest]

theorem includedNames_of_item {around : Option (Expr × Bool)} {tokens : List Token}
    {nodes : List (Node Unit ρ)} (h : Item setting resolver around tokens nodes) :
    tokens.filterMap Token.includedName? = (inclusionsAmong nodes).map Inclusion.name := by
  match h with
  | .skip hkind =>
    rw [List.filterMap_cons_none (includedName?_of_isSilent hkind)]
    rfl
  | .text hkind =>
    rw [List.filterMap_cons_none (Token.includedName?_eq_none (by simp [hkind]))]
    rfl
  | .interpolation hkind _ =>
    rw [List.filterMap_cons_none (includedName?_of_ofVariable hkind)]
    rfl
  | .inclusion hkind hname _ =>
    rw [List.filterMap_cons_some (Token.includedName?_of_names (.inl hkind) hname)]
    rfl
  | .section hkind _ _ hbranches =>
    rw [List.filterMap_cons_none (includedName?_of_ofSection hkind),
      includedNames_of_branches hbranches]
  | .block hkind _ hforest hcloses _ =>
    rw [List.filterMap_cons_none (Token.includedName?_eq_none (by simp [hkind])),
      filterMap_includedName?_closed hcloses, includedNames_of_forest hforest]
    simp [inclusionsAmong, Node.inclusions]
  | .layout hkind hname hforest hcloses _ _ =>
    rw [List.filterMap_cons_some (Token.includedName?_of_names (.inr hkind) hname),
      filterMap_includedName?_closed hcloses, includedNames_of_forest hforest]
    simp [inclusionsAmong, Node.inclusions]

theorem includedNames_of_branches {expression : Expr} {inverted : Bool} {opening : Token}
    {tokens : List Token} {nodes : List (Node Unit ρ)}
    (h : Branches setting resolver expression inverted opening tokens nodes) :
    tokens.filterMap Token.includedName? = (inclusionsAmong nodes).map Inclusion.name := by
  match h with
  | .last hforest hcloses _ =>
    rw [filterMap_includedName?_closed hcloses, includedNames_of_forest hforest]
    simp [inclusionsAmong, Node.inclusions]
  | .alternative hforest hkind _ hbranches =>
    rw [List.filterMap_append, List.filterMap_cons_none (includedName?_of_ofSection hkind),
      includedNames_of_forest hforest, includedNames_of_branches hbranches]
    simp [inclusionsAmong, Node.inclusions]

end

/-- A template that compiles has an inclusion for each of its tags that include a template, in the same
order. -/
theorem includedNames_of_compileTemplate {stream : Stream} {state state' : σ}
    {template : Template Unit ρ}
    (h : compileTemplate setting (some resolver.loader) stream state = (.ok template, state')) :
    stream.includedNames = (inclusionsAmong template.nodes).map Inclusion.name := by
  obtain ⟨_, scope, rfl, hrun⟩ := compileTemplate_eq_ok_iff.mp h
  have hparsed := Parsed.initial.run hrun
  cases hparsed with
  | root hforest hcollected =>
    rw [List.append_nil] at hcollected
    subst hcollected
    exact includedNames_of_forest hforest

end

end Logicless
