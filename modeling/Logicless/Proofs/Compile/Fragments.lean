import Logicless.Proofs.Compile.Mirroring
import Mathlib.Data.List.Forall2

/-!
# Fragments of templates

Tokens that make a template of their own can stand anywhere in another template. The compiler takes them
there as it does on their own, and adds their nodes to the innermost open scope. There is one exception:
directly inside a section, a section tag of the fragment may be taken for the next branch of that section.

## Shape of the proof

* `OpensSection` says which sections a fragment opens outside of all its own tags.
* `ScopeStack.Over` puts the open tags of a fragment on top of those of its surroundings. `Over.advance` is
  the step, for the tags that are open in the middle of the fragment, and `Over.run` the run.
* `ScopeStack.SameTags` relates open tags with different nodes. By `SameTags.advance` and `SameTags.run` the
  content type, which goes into the nodes, has no say in whether tokens are accepted.
* `fragment_independent_of_surroundings` adds what comes behind the fragment: there the nodes of the
  fragment are only nodes in front.
-/

namespace Logicless

variable {σ ρ : Type}

/-- Outside of all their own tags, the tokens open a section of the expression and the polarity. What
stands before its opening tag is a template of its own, so no tag is open there and the section is not the
next branch of another one. -/
def OpensSection (setting : Setting) (loader : Option (Loader σ ρ)) (state : σ) (tokens : List Token)
    (expression : Expr) (inverted : Bool) : Prop :=
  ∃ before opening behind, tokens = before ++ opening :: behind ∧
    opening.kind = .ofSection inverted ∧ opening.Reads expression ∧
      ∃ template after, compileTemplate setting loader (.ofTokens before) state = (.ok template, after)

namespace ScopeStack

/-! ## A stack on top of another one -/

theorem extend_append (stack : ScopeStack ρ) (nodes : List (Node Unit ρ)) (node : Node Unit ρ) :
    stack.extend (nodes ++ [node]) = (stack.extend nodes).append node := by
  rw [ScopeStack.extend, Scope.extend_append]
  rfl

/-- The open tags of a stack on top of those of `base`. What is outside of the former is added to the
innermost scope of the latter. -/
inductive Over (base : ScopeStack ρ) : ScopeStack ρ → ScopeStack ρ → Prop
  | root {scope : Scope ρ} : Over base ⟨scope, []⟩ (base.extend scope.nodes)
  | tag {scope below : Scope ρ} {enclosing : List (Scope ρ)} {stack' : ScopeStack ρ}
      (hbelow : Over base ⟨below, enclosing⟩ stack') :
      Over base ⟨scope, below :: enclosing⟩ (stack'.push scope)

namespace Over

variable {base stack stack' next : ScopeStack ρ} {setting : Setting} {loader : Loader σ ρ}
  {token : Token} {tokens : List Token} {state after : σ}

theorem initial (base : ScopeStack ρ) : Over base .initial base := by
  have h : Over base .initial (base.extend []) := .root
  rwa [ScopeStack.extend, Scope.extend_nil] at h

/-- Once all tags on top are closed, their nodes are in the innermost scope of the base. -/
theorem eq_extend {scope : Scope ρ} (h : Over base ⟨scope, []⟩ stack') :
    stack' = base.extend scope.nodes := by
  cases h with
  | root => rfl

theorem append (h : Over base stack stack') (node : Node Unit ρ) :
    Over base (stack.append node) (stack'.append node) := by
  cases h with
  | @root scope =>
    rw [← extend_append]
    exact .root
  | tag hbelow => exact .tag hbelow

theorem push (h : Over base stack stack') (scope : Scope ρ) :
    Over base (stack.push scope) (stack'.push scope) :=
  .tag h

/-- If the innermost scope is that of a section, it is so without the base too, or it is in the base. -/
theorem isSection (h : Over base stack stack') {expression : Expr} {inverted : Bool}
    (hsection : stack'.current.IsSection expression inverted) :
    stack.current.IsSection expression inverted ∨
      stack.enclosing = [] ∧ base.current.IsSection expression inverted := by
  cases h with
  | root => exact .inr ⟨rfl, hsection⟩
  | tag => exact .inl hsection

/-- A token that is accepted does the same on top of the base, unless it is taken for the next branch of
the innermost section there. -/
theorem advance (h : Over base stack stack')
    (hadvance : Advance setting loader token (stack, state) (next, after))
    (hopens : stack.enclosing = [] → ∀ expression inverted, token.kind = .ofSection inverted →
      token.Reads expression → ¬ base.current.IsSection expression (!inverted)) :
    ∃ next', Over base next next' ∧
      Advance setting loader token (stack', state) (next', after) := by
  cases hadvance with
  | skip hkind => exact ⟨_, h, .skip hkind⟩
  | text hkind => exact ⟨_, h.append _, .text hkind⟩
  | interpolation hkind hreads => exact ⟨_, h.append _, .interpolation hkind hreads⟩
  | inclusion hkind hname hload => exact ⟨_, h.append _, .inclusion hkind hname hload⟩
  | openSection hkind hreads hcurrent =>
    refine ⟨_, h.push _, .openSection hkind hreads fun hsection => ?_⟩
    rcases h.isSection hsection with hsame | ⟨hroot, hbase⟩
    · exact hcurrent hsame
    · exact hopens hroot _ _ hkind hreads hbase
  | openBlock hkind hname => exact ⟨_, h.push _, .openBlock hkind hname⟩
  | openLayout hkind hname => exact ⟨_, h.push _, .openLayout hkind hname⟩
  | alternative hkind hscope hfits =>
    cases h with
    | tag hbelow => exact ⟨_, (hbelow.append _).push _, .alternative hkind hscope hfits⟩
  | closeSection hkind hscope hfits =>
    cases h with
    | tag hbelow => exact ⟨_, hbelow.append _, .closeSection hkind hscope hfits⟩
  | closeBlock hkind hscope hname hfits =>
    cases h with
    | tag hbelow => exact ⟨_, hbelow.append _, .closeBlock hkind hscope hname hfits⟩
  | closeLayout hkind hscope hname hfits hload =>
    cases h with
    | tag hbelow => exact ⟨_, hbelow.append _, .closeLayout hkind hscope hname hfits hload⟩

/-- Tokens that are all accepted do the same on top of the base. -/
theorem run {p q : Progression σ ρ} (hrun : Run setting loader tokens p q)
    (h : Over base p.1 stack')
    (hopens : ∀ before opening behind, tokens = before ++ opening :: behind →
      ∀ r, Run setting loader before p r → r.1.enclosing = [] →
        ∀ expression inverted, opening.kind = .ofSection inverted → opening.Reads expression →
          ¬ base.current.IsSection expression (!inverted)) :
    ∃ last, Over base q.1 last ∧ Run setting loader tokens (stack', p.2) (last, q.2) := by
  induction hrun generalizing stack' with
  | nil => exact ⟨stack', h, .nil⟩
  | @cons token tokens p q r hadvance hrun ih =>
    obtain ⟨next', hnext, hadvance'⟩ := h.advance hadvance (hopens [] token tokens rfl p .nil)
    obtain ⟨last, hlast, hrun'⟩ := ih hnext fun before opening behind htokens r hbefore =>
      hopens (token :: before) opening behind (congrArg (token :: ·) htokens) r (.cons hadvance hbefore)
    exact ⟨last, hlast, .cons hadvance' hrun'⟩

end Over

end ScopeStack

/-! ## Other content types -/

/-- The same tag has opened the two scopes. -/
structure Scope.SameTag (scope scope' : Scope ρ) : Prop where
  kind : scope'.kind = scope.kind
  opening : scope'.opening = scope.opening
  expression : scope'.expression = scope.expression
  name : scope'.name = scope.name

/-- The two stacks have the same open tags, whatever their nodes are. -/
def ScopeStack.SameTags (stack stack' : ScopeStack ρ) : Prop :=
  List.Forall₂ Scope.SameTag (stack.current :: stack.enclosing) (stack'.current :: stack'.enclosing)

theorem Scope.SameTag.append {scope scope' : Scope ρ} (h : scope.SameTag scope')
    (node node' : Node Unit ρ) : (scope.append node).SameTag (scope'.append node') :=
  ⟨h.kind, h.opening, h.expression, h.name⟩

theorem Scope.SameTag.isSection_iff {scope scope' : Scope ρ} (h : scope.SameTag scope')
    {expression : Expr} {inverted : Bool} :
    scope'.IsSection expression inverted ↔ scope.IsSection expression inverted := by
  rw [Scope.IsSection, Scope.IsSection, h.kind, h.expression]

namespace ScopeStack.SameTags

variable {stack stack' next : ScopeStack ρ} {setting other : Setting} {loader : Loader σ ρ}
  {token : Token} {tokens : List Token} {state after : σ}

theorem refl (stack : ScopeStack ρ) : stack.SameTags stack :=
  List.forall₂_same.mpr fun _ _ => ⟨rfl, rfl, rfl, rfl⟩

theorem append (h : stack.SameTags stack') (node node' : Node Unit ρ) :
    (stack.append node).SameTags (stack'.append node') := by
  cases h with
  | cons hcurrent henclosing => exact .cons (hcurrent.append node node') henclosing

theorem push (h : stack.SameTags stack') (scope : Scope ρ) :
    (stack.push scope).SameTags (stack'.push scope) :=
  .cons ⟨rfl, rfl, rfl, rfl⟩ h

theorem exists_below {scope below : Scope ρ} {enclosing : List (Scope ρ)}
    (h : SameTags ⟨scope, below :: enclosing⟩ stack') :
    ∃ scope' below' enclosing', stack' = ⟨scope', below' :: enclosing'⟩ ∧ scope.SameTag scope' ∧
      SameTags ⟨below, enclosing⟩ ⟨below', enclosing'⟩ := by
  obtain ⟨scope', enclosing'⟩ := stack'
  obtain ⟨hscope, hbelow⟩ := List.forall₂_cons.mp h
  cases hbelow with
  | cons hbelow henclosing => exact ⟨scope', _, _, rfl, hscope, .cons hbelow henclosing⟩

/-- The content type of a template goes into its bodies and decides nothing. -/
theorem advance (h : stack.SameTags stack') (hother : other.template = setting.template)
    (hadvance : Advance setting loader token (stack, state) (next, after)) :
    ∃ next', Advance other loader token (stack', state) (next', after) ∧ next.SameTags next' := by
  cases hadvance with
  | skip hkind => exact ⟨_, .skip hkind, h⟩
  | text hkind => exact ⟨_, .text hkind, h.append _ _⟩
  | interpolation hkind hreads => exact ⟨_, .interpolation hkind hreads, h.append _ _⟩
  | inclusion hkind hname hload =>
    rw [← hother] at hload
    exact ⟨_, .inclusion hkind hname hload, h.append _ _⟩
  | openSection hkind hreads hopens =>
    obtain ⟨current', enclosing'⟩ := stack'
    have hopens' : ¬ current'.IsSection _ _ := (List.forall₂_cons.mp h).1.isSection_iff.not.mpr hopens
    exact ⟨_, .openSection hkind hreads hopens', h.push _⟩
  | openBlock hkind hname => exact ⟨_, .openBlock hkind hname, h.push _⟩
  | openLayout hkind hname => exact ⟨_, .openLayout hkind hname, h.push _⟩
  | alternative hkind hscope hfits =>
    obtain ⟨scope', below', enclosing', rfl, hsame, hbelow⟩ := h.exists_below
    refine ⟨_, .alternative hkind (hsame.isSection_iff.mpr hscope) hfits, ?_⟩
    exact (hbelow.append _ _).push _
  | closeSection hkind hscope hfits =>
    obtain ⟨scope', below', enclosing', rfl, hsame, hbelow⟩ := h.exists_below
    exact ⟨_, .closeSection hkind (hsame.isSection_iff.mpr hscope) hfits, hbelow.append _ _⟩
  | closeBlock hkind hscope hname hfits =>
    obtain ⟨scope', below', enclosing', rfl, hsame, hbelow⟩ := h.exists_below
    have hscope' := hsame.kind.trans hscope
    exact ⟨_, .closeBlock hkind hscope' (hsame.name.trans hname) hfits, hbelow.append _ _⟩
  | closeLayout hkind hscope hname hfits hload =>
    obtain ⟨scope', below', enclosing', rfl, hsame, hbelow⟩ := h.exists_below
    have hscope' := hsame.kind.trans hscope
    rw [← hother] at hload
    exact ⟨_, .closeLayout hkind hscope' (hsame.name.trans hname) hfits hload, hbelow.append _ _⟩

theorem run {p q : Progression σ ρ} (hrun : Run setting loader tokens p q)
    (hother : other.template = setting.template) (h : p.1.SameTags stack') :
    ∃ last, Run other loader tokens (stack', p.2) (last, q.2) ∧ q.1.SameTags last := by
  induction hrun generalizing stack' with
  | nil => exact ⟨stack', .nil, h⟩
  | cons hadvance _ ih =>
    obtain ⟨next', hadvance', hnext⟩ := h.advance hother hadvance
    obtain ⟨last, hrun', hlast⟩ := ih hnext
    exact ⟨last, .cons hadvance' hrun', hlast⟩

end ScopeStack.SameTags

/-- Tokens that compile for one content type compile for any other. -/
theorem exists_compileTemplate_of_template_eq {setting other : Setting} {loader : Option (Loader σ ρ)}
    {stream : Stream} {state after : σ} {template : Template Unit ρ}
    (hother : other.template = setting.template)
    (h : compileTemplate setting loader stream state = (.ok template, after)) :
    ∃ template', compileTemplate other loader stream state = (.ok template', after) := by
  obtain ⟨hending, scope, _, hrun⟩ := compileTemplate_eq_ok_iff_run.mp h
  obtain ⟨⟨scope', enclosing'⟩, hrun', hlast⟩ := ScopeStack.SameTags.run hrun hother (.refl .initial)
  obtain rfl : enclosing' = [] := List.forall₂_nil_left_iff.mp (List.forall₂_cons.mp hlast).2
  exact ⟨_, compileTemplate_eq_ok_iff_run.mpr ⟨hending, scope', rfl, hrun'⟩⟩

/-! ## Fragments -/

/-- A compiler accepts the tokens of a template and adds their nodes to its innermost scope, unless they open
a section that the innermost section takes for its next branch. -/
theorem feedAll_of_compileTemplate {setting : Setting} {loader : Option (Loader σ ρ)}
    {tokens : List Token} {state state' : σ} {template : Template Unit ρ}
    (hfragment : compileTemplate setting loader (.ofTokens tokens) state = (.ok template, state'))
    (stack : ScopeStack ρ)
    (hstack : ∀ expression inverted, stack.current.IsSection expression inverted →
      ¬ OpensSection setting loader state tokens expression (!inverted)) :
    (Compiler.running setting stack).feedAll loader tokens state =
      (.accepted, .running setting (stack.extend template.nodes), state') := by
  obtain ⟨_, scope, rfl, hrun⟩ := compileTemplate_eq_ok_iff_run.mp hfragment
  have hopens : ∀ before opening behind, tokens = before ++ opening :: behind →
      ∀ r, Run setting (loader.getD .absent) before (.initial, state) r → r.1.enclosing = [] →
        ∀ expression inverted, opening.kind = .ofSection inverted → opening.Reads expression →
          ¬ stack.current.IsSection expression (!inverted) := by
    rintro before opening behind htokens ⟨⟨outside, _⟩, after⟩ hbefore rfl expression inverted hkind
      hreads hsection
    rw [← Bool.not_not inverted] at hkind
    refine hstack expression (!inverted) hsection ⟨before, opening, behind, htokens, hkind, hreads, ?_⟩
    exact ⟨_, after, compileTemplate_eq_ok_iff_run.mpr ⟨rfl, outside, rfl, hbefore⟩⟩
  obtain ⟨last, hlast, hrun'⟩ := ScopeStack.Over.run hrun (.initial stack) hopens
  rw [hlast.eq_extend] at hrun'
  exact Compiler.feedAll_running_iff_run.mpr hrun'

/-- Tokens that compile on their own do the same wherever they stand. A compiler of any content type accepts
them and adds their nodes to its innermost open scope, and nothing else changes, unless they open a section
that the innermost section takes for its next branch. In front of other tokens they add their nodes to the
template, and the failures of the other tokens stay the same. -/
theorem fragment_independent_of_surroundings (setting : Setting) (loader : Option (Loader σ ρ))
    (tokens : List Token) (state state' : σ) (template : Template Unit ρ)
    (hfragment : compileTemplate setting loader (.ofTokens tokens) state = (.ok template, state')) :
    (∀ other : Setting, other.template = setting.template →
      ∃ fragment : Template Unit ρ,
        compileTemplate other loader (.ofTokens tokens) state = (.ok fragment, state') ∧
        (other = setting → fragment = template) ∧
        ∀ stack : ScopeStack ρ,
          (∀ expression inverted, stack.current.IsSection expression inverted →
            ¬ OpensSection setting loader state tokens expression (!inverted)) →
          (Compiler.running other stack).feedAll loader tokens state =
            (.accepted, .running other (stack.extend fragment.nodes), state')) ∧
    ∀ others ending,
      compileTemplate setting loader (.opened (tokens ++ others) ending) state =
        ((compileTemplate setting loader (.opened others ending) state').1.map (·.behind template.nodes),
          (compileTemplate setting loader (.opened others ending) state').2) := by
  refine ⟨?_, fun others ending => ?_⟩
  · intro other hother
    obtain ⟨fragment, hcompile⟩ := exists_compileTemplate_of_template_eq hother hfragment
    refine ⟨fragment, hcompile, ?_, ?_⟩
    · rintro rfl
      exact Except.ok.inj (congrArg Prod.fst (hcompile.symm.trans hfragment))
    · intro stack hstack
      refine feedAll_of_compileTemplate hcompile stack ?_
      rintro expression inverted hsection
        ⟨before, opening, behind, htokens, hkind, hreads, _, after, hbefore⟩
      -- what stands before a section is a template for either content type
      obtain ⟨outside, houtside⟩ := exists_compileTemplate_of_template_eq hother.symm hbefore
      exact hstack expression inverted hsection
        ⟨before, opening, behind, htokens, hkind, hreads, outside, after, houtside⟩
  · -- behind the fragment, its nodes are in front of the template and nothing else is different
    have hroot : (Compiler.initial setting).feedAll loader tokens state =
        (.accepted, .running setting (ScopeStack.initial.extend template.nodes), state') := by
      refine feedAll_of_compileTemplate hfragment .initial fun expression inverted hsection => ?_
      exact absurd hsection.1.symm (Scope.Kind.ofSection_ne_root inverted)
    have hmirrors : (Compiler.initial setting).Mirrors template.nodes
        (Compiler.running setting (ScopeStack.initial.extend template.nodes)) :=
      .running (.root ⟨rfl, rfl, rfl, rfl, (List.append_nil _).symm⟩)
    obtain ⟨result, last, last', after, hcompile, hcompile', _⟩ := hmirrors.compile loader (.opened others ending) state'
    rw [compileTemplate, compileTemplate, Compiler.compile_append hroot, hcompile', hcompile]

/-- A section with a blank tag between its branches. -/
def twoBranches : List Token :=
  [⟨.openSection, "a", 5, none⟩, ⟨.text, "x", 5, none⟩, ⟨.openInverted, " ", 6, none⟩,
   ⟨.inclusion, "item", 6, none⟩, ⟨.close, "a", 7, none⟩]

/-- What the section is compiled to where a name stands for itself. -/
def twoBranchesNodes : List (Node Unit String) :=
  [.branch 5 (.identifier "a") false ⟨(), .html, [.text 5 "x"]⟩,
    .branch 6 (.identifier "a") true ⟨(), .html, [.inclusion ⟨6, "item", "item"⟩]⟩]

/-- Inside a section of the same expression, the section is compiled as it is on its own: the tag between
its branches does not continue the outer section. A closing tag behind it fails as on its own. -/
theorem fragment_independent_of_surroundings_twoBranches :
    let setting : Setting := ⟨.html, some "page"⟩
    let loader : Option (Loader Unit String) := some fun name _ state => (.ok name, state)
    let outer : ScopeStack String :=
      ⟨⟨.branch, some ⟨.openSection, "a", 1, none⟩, some (.identifier "a"), none, [.text 1 "y"]⟩,
        [{ kind := .root }]⟩
    compileTemplate setting loader (.ofTokens twoBranches) () = (.ok ⟨(), .html, twoBranchesNodes⟩, ()) ∧
      (Compiler.running setting outer).feedAll loader twoBranches () =
        (.accepted, .running setting (outer.extend twoBranchesNodes), ()) ∧
      (compileTemplate setting loader (.ofTokens (twoBranches ++ [⟨.close, "a", 8, none⟩])) ()).1 =
        .error (.recorded
          ⟨⟨.unmatchedClose, "Unmatched closing tag", some 8, some "page"⟩, []⟩) := by
  intro setting loader outer
  have hcompile : compileTemplate setting loader (.ofTokens twoBranches) () =
      (.ok ⟨(), .html, twoBranchesNodes⟩, ()) := rfl
  obtain ⟨hfragment, happended⟩ :=
    fragment_independent_of_surroundings setting loader twoBranches () () _ hcompile
  obtain ⟨fragment, _, hsame, hfed⟩ := hfragment setting rfl
  obtain rfl := hsame rfl
  refine ⟨hcompile, hfed outer ?_, ?_⟩
  · rintro expression inverted ⟨hkind, hexpression⟩ ⟨before, opening, behind, htokens, hopening, hreads, _⟩
    obtain rfl := Option.some.inj hexpression
    -- the only tag that could continue the outer section is blank
    have hmem : opening ∈ twoBranches := by simp [htokens]
    cases inverted with
    | true => cases hkind
    | false =>
      simp only [twoBranches, List.mem_cons, List.not_mem_nil, or_false] at hmem
      rcases hmem with rfl | rfl | rfl | rfl | rfl <;> cases hopening
      cases hreads
  · exact congrArg Prod.fst (happended [⟨.close, "a", 8, none⟩] none)

end Logicless
