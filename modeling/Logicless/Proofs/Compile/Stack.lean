import Logicless.Proofs.Compile.OpenTags
import Logicless.Proofs.Compile.Reached
import Mathlib.Data.List.Chain

/-!
# The stack of open tags

Closing a tag relies on what opening it has left behind: that there is a scope to close, that the scope has
the expression or the name that its node needs, that it remembers its tag. This holds of every compiler that
has not failed, whatever tokens it was fed and whatever loads templates for it. The tokens also tell how many
tags are open: one that opens a tag counts for it and one that closes a tag against it, while the tag between
two branches closes one and opens the other.

## Shape of the proof

* `ScopeStack.ReadsAlternative` says which tags stand between two branches, and `Course.alternatives` lists
  them as the compiler meets them. With them, `ScopeStack.depth_advance` counts the open tags.
* `Scope.Continues` is about two scopes of which one lies on the other: where they could be two branches of
  one section, they are, and the first branch has become a node. `ScopeStack.Alternating` is the invariant,
  with the step `Alternating.advance` and the run `Alternating.run`.
* `ScopeStack.Orderly` collects what holds of the open tags, and `Compiler.fed_stack_orderly` is the result.
-/

namespace Logicless

variable {σ ρ : Type}

/-! ## Tags between branches -/

instance (token : Token) : DecidablePred token.Reads :=
  fun _ => inferInstanceAs (Decidable (_ = _))

instance (token : Token) : DecidablePred token.Fits :=
  fun _ => inferInstanceAs (Decidable (_ ∨ _))

theorem TokenKind.ofSection_ne_close (inverted : Bool) : ofSection inverted ≠ .close := by
  cases inverted <;> simp [ofSection]

theorem Token.Fits.eq_of_reads {token : Token} {expression expression' : Expr} (h : token.Fits expression)
    (hreads : token.Reads expression') : expression = expression' := by
  rcases h with hblank | hreads'
  · cases hblank.symm.trans hreads
  · exact Except.ok.inj (hreads'.symm.trans hreads)

namespace ScopeStack

variable {setting : Setting} {loader : Loader σ ρ} {token : Token} {stack stack' : ScopeStack ρ}
  {state state' : σ}

/-- The tag is that of a section. The innermost scope is a section of the other polarity, and the tag is
blank or has the expression of this section. -/
def ReadsAlternative (stack : ScopeStack ρ) (token : Token) : Prop :=
  ∃ inverted, token.kind = .ofSection inverted ∧ stack.current.kind = .ofSection !inverted ∧
    ∃ expression ∈ stack.current.expression, token.Fits expression

instance (stack : ScopeStack ρ) : DecidablePred stack.ReadsAlternative :=
  fun _ => inferInstanceAs (Decidable (∃ _ : Bool, _))

theorem ReadsAlternative.kind_cases (h : stack.ReadsAlternative token) :
    token.kind = .openSection ∨ token.kind = .openInverted := by
  obtain ⟨inverted, hkind, _⟩ := h
  cases inverted with
  | false => exact .inl hkind
  | true => exact .inr hkind

/-- A section tag opens a section unless it is read as an alternative. -/
theorem not_readsAlternative_of_reads {inverted : Bool} {expression : Expr}
    (hkind : token.kind = .ofSection inverted) (hreads : token.Reads expression)
    (hopens : ¬ stack.current.IsSection expression (!inverted)) : ¬ stack.ReadsAlternative token := by
  rintro ⟨inverted', hkind', hscope, expression', hexpression, hfits⟩
  obtain rfl := TokenKind.ofSection_inj.mp (hkind.symm.trans hkind')
  obtain rfl := hfits.eq_of_reads hreads
  exact hopens ⟨hscope, hexpression⟩

/-- How many scopes a token leaves: one more if it opens a tag, one less if it closes a tag, and as many as
before if it stands between two branches. -/
theorem depth_advance (hadvance : Advance setting loader token (stack, state) (stack', state')) :
    stack'.depth + (if token.kind = .close then 1 else 0) +
        (if stack.ReadsAlternative token then 1 else 0) =
      stack.depth + (if token.kind.opens then 1 else 0) := by
  -- tags of other kinds are no alternatives
  have hother : token.kind ≠ .openSection → token.kind ≠ .openInverted →
      ¬ stack.ReadsAlternative token := fun hsection hinverted h =>
    h.kind_cases.elim hsection hinverted
  cases hadvance with
  | skip hkind =>
    rcases hkind with hkind | hkind | hkind <;>
      simp [hkind, TokenKind.opens, hother (by simp [hkind]) (by simp [hkind])]
  | @interpolation _ _ escape _ hkind =>
    cases escape <;>
      simp [hkind, TokenKind.ofVariable, TokenKind.opens, depth, append,
        hother (by simp [hkind, TokenKind.ofVariable]) (by simp [hkind, TokenKind.ofVariable])]
  | text hkind | inclusion hkind =>
    simp [hkind, TokenKind.opens, depth, append, hother (by simp [hkind]) (by simp [hkind])]
  | openBlock hkind | openLayout hkind =>
    simp [hkind, TokenKind.opens, depth, push, hother (by simp [hkind]) (by simp [hkind])]
  | @openSection _ _ inverted _ hkind hreads hopens =>
    have hclose := hkind.trans_ne (TokenKind.ofSection_ne_close inverted)
    rw [if_neg hclose, if_neg (not_readsAlternative_of_reads hkind hreads hopens), hkind,
      TokenKind.opens_ofSection]
    rfl
  | @alternative scope below enclosing _ inverted expression hkind hscope hfits =>
    have hclose := hkind.trans_ne (TokenKind.ofSection_ne_close inverted)
    have halternative : ReadsAlternative ⟨scope, below :: enclosing⟩ token :=
      ⟨inverted, hkind, hscope.1, expression, hscope.2, hfits⟩
    rw [if_neg hclose, if_pos halternative, hkind, TokenKind.opens_ofSection]
    rfl
  | closeSection hkind | closeBlock hkind | closeLayout hkind =>
    simp [hkind, TokenKind.opens, depth, hother (by simp [hkind]) (by simp [hkind])]

end ScopeStack

/-! ## Branches on each other -/

/-- Where a section lies on one of the same expression and the other polarity, the last node of the lower one
is a section of its expression and its polarity. -/
def Scope.Continues (upper lower : Scope ρ) : Prop :=
  ∀ expression inverted, upper.IsSection expression inverted → lower.IsSection expression (!inverted) →
    ∃ line body, lower.nodes.getLast? = some (.branch line expression (!inverted) body)

namespace ScopeStack

/-- Every scope continues the one that it lies on. -/
def Alternating (stack : ScopeStack ρ) : Prop :=
  List.IsChain Scope.Continues (stack.current :: stack.enclosing)

namespace Alternating

variable {setting : Setting} {loader : Loader σ ρ} {token : Token} {tokens : List Token}
  {stack stack' : ScopeStack ρ} {scope below : Scope ρ} {enclosing : List (Scope ρ)} {state state' : σ}

theorem initial : (ScopeStack.initial : ScopeStack ρ).Alternating :=
  .singleton _

theorem outside (h : Alternating ⟨scope, below :: enclosing⟩) : Alternating ⟨below, enclosing⟩ :=
  h.tail

/-- What goes into the innermost scope is not seen by the scopes below. -/
theorem append (h : stack.Alternating) (node : Node Unit ρ) : (stack.append node).Alternating := by
  obtain ⟨scope, enclosing⟩ := stack
  cases enclosing with
  | nil => exact .singleton _
  | cons below enclosing =>
    obtain ⟨hcontinues, hbelow⟩ := List.isChain_cons_cons.mp h
    exact List.isChain_cons_cons.mpr ⟨hcontinues, hbelow⟩

theorem push (h : stack.Alternating) (hscope : scope.Continues stack.current) :
    (stack.push scope).Alternating :=
  List.isChain_cons_cons.mpr ⟨hscope, h⟩

/-- A block or a layout is no branch of any section. -/
theorem continues_of_named {kind : Scope.Kind} {name : String} (lower : Scope ρ) :
    Scope.Continues ⟨kind, some token, none, some name, []⟩ lower := by
  rintro expression inverted ⟨_, hexpression⟩
  cases hexpression

/-- A tag that opens a section is no alternative of the scope that it stands in. -/
theorem continues_of_opens {inverted : Bool} {expression : Expr} {lower : Scope ρ}
    (hopens : ¬ lower.IsSection expression (!inverted)) :
    Scope.Continues ⟨.ofSection inverted, some token, some expression, none, []⟩ lower := by
  rintro expression' inverted' ⟨hkind, hexpression⟩ hlower
  obtain rfl := Option.some.inj hexpression
  obtain rfl := Scope.Kind.ofSection_inj.mp hkind
  exact absurd hlower hopens

/-- The branch in front of an alternative becomes the last node of the scope that both lie on. -/
theorem continues_of_alternative {inverted : Bool} {expression : Expr} {line : Int}
    {body : Body Unit (Node Unit ρ)} :
    Scope.Continues ⟨.ofSection inverted, some token, some expression, none, []⟩
      (below.append (.branch line expression (!inverted) body)) := by
  rintro expression' inverted' ⟨hkind, hexpression⟩ _
  obtain rfl := Option.some.inj hexpression
  obtain rfl := Scope.Kind.ofSection_inj.mp hkind
  exact ⟨line, body, List.getLast?_concat⟩

theorem advance (hadvance : Advance setting loader token (stack, state) (stack', state'))
    (h : stack.Alternating) : stack'.Alternating := by
  cases hadvance with
  | skip => exact h
  | text | interpolation | inclusion => exact h.append _
  | openSection _ _ hopens => exact h.push (continues_of_opens hopens)
  | alternative => exact (h.outside.append _).push continues_of_alternative
  | openBlock | openLayout => exact h.push (continues_of_named _)
  | closeSection | closeBlock | closeLayout => exact h.outside.append _

theorem run {p q : Progression σ ρ} (hrun : Run setting loader tokens p q) (h : p.1.Alternating) :
    q.1.Alternating := by
  induction hrun with
  | nil => exact h
  | cons hadvance _ ih => exact ih (h.advance hadvance)

end Alternating

/-! ## All that holds of the open tags -/

/-- What the stack of open tags is like while a template is compiled. -/
structure Orderly (stack : ScopeStack ρ) : Prop where
  /-- The scope of the whole template is at the bottom and nowhere else. All others remember their tags. -/
  bottom : ∃ root opened, stack.scopes = root :: opened ∧ root.kind = .root ∧
    ∀ scope ∈ opened, scope.kind ≠ .root ∧ ∃ token, scope.opening = some token
  /-- Sections have expressions and no names. -/
  sections : ∀ scope ∈ stack.scopes, scope.kind = .branch ∨ scope.kind = .inverted →
    scope.name = none ∧ ∃ expression, scope.expression = some expression
  /-- Blocks and layouts have names that can be written in a tag, and no expressions. -/
  named : ∀ scope ∈ stack.scopes, scope.kind = .block ∨ scope.kind = .layout →
    scope.expression = none ∧ ∃ name, scope.name = some name ∧ IsName name
  /-- A section lies on one that it could be the alternative of only where another branch has been. -/
  alternating : stack.Alternating

/-- Above the scope of the whole template there are those of tags alone. -/
theorem Grounded.exists_scopes {stack : ScopeStack ρ} (h : stack.Grounded) :
    ∃ root opened, stack.scopes = root :: opened ∧ root.kind = .root ∧
      ∀ scope ∈ opened, scope.IsTag := by
  induction h with
  | @root scope hroot => exact ⟨scope, [], rfl, hroot, by simp⟩
  | @tag scope below enclosing htag _ ih =>
    obtain ⟨root, opened, hscopes, hroot, htags⟩ := ih
    refine ⟨root, opened ++ [scope], ?_, hroot, ?_⟩
    · rw [scopes, List.reverse_cons]
      exact congrArg (· ++ [scope]) hscopes
    · intro other hother
      rcases List.mem_append.mp hother with hother | hother
      · exact htags other hother
      · obtain rfl := List.mem_singleton.mp hother
        exact htag

theorem Orderly.of_grounded {stack : ScopeStack ρ} (h : stack.Grounded) (hlegible : stack.Legible)
    (halternating : stack.Alternating) : stack.Orderly := by
  obtain ⟨root, opened, hscopes, hroot, htags⟩ := h.exists_scopes
  have hname : ∀ scope ∈ stack.scopes, ∀ name, scope.name = some name → IsName name := by
    intro scope hscope
    exact (hlegible scope (List.mem_reverse.mp hscope)).name
  have hkinds : ∀ scope ∈ stack.scopes, scope.kind ≠ .root → scope.IsTag := by
    intro scope hscope hkind
    rw [hscopes] at hscope
    rcases List.mem_cons.mp hscope with rfl | hopened
    · exact absurd hroot hkind
    · exact htags scope hopened
  refine ⟨⟨root, opened, hscopes, hroot, fun scope hscope => ?_⟩, ?_, ?_, halternating⟩
  · refine ⟨?_, (htags scope hscope).exists_opening⟩
    cases htags scope hscope with
    | @ofSection inverted => exact Scope.Kind.ofSection_ne_root inverted
    | block | layout => simp
  · intro scope hscope hkind
    have htag := hkinds scope hscope (by rcases hkind with hkind | hkind <;> simp [hkind])
    cases htag with
    | ofSection => exact ⟨rfl, _, rfl⟩
    | block | layout => rcases hkind with hkind | hkind <;> cases hkind
  · intro scope hscope hkind
    have htag := hkinds scope hscope (by rcases hkind with hkind | hkind <;> simp [hkind])
    have hvalid := hname scope hscope
    cases htag with
    | @ofSection inverted => cases inverted <;> rcases hkind with hkind | hkind <;> cases hkind
    | block | layout => exact ⟨rfl, _, rfl, hvalid _ rfl⟩

end ScopeStack

/-! ## Compilers -/

namespace Compiler

/-- The tag is read as standing between two branches, by a compiler that has not failed. -/
def ReadsAlternative (compiler : Compiler ρ) (token : Token) : Prop :=
  ∃ stack ∈ compiler.stack?, stack.ReadsAlternative token

instance (compiler : Compiler ρ) : DecidablePred compiler.ReadsAlternative :=
  fun _ => inferInstanceAs (Decidable (∃ _ ∈ _, _))

theorem readsAlternative_running_iff {setting : Setting} {stack : ScopeStack ρ} {token : Token} :
    (running setting stack).ReadsAlternative token ↔ stack.ReadsAlternative token := by
  simp [Compiler.ReadsAlternative, stack?]

namespace Course

variable {loader : Option (Loader σ ρ)} {course : Course σ ρ}

/-- The tags that are read as standing between two branches when a compiler is fed some tokens. -/
def alternatives (loader : Option (Loader σ ρ)) : Course σ ρ → List Token → List Token
  | _, [] => []
  | course, token :: tokens =>
    let later := alternatives loader (course.perform loader (.feed token)).2 tokens
    if course.compiler.ReadsAlternative token then token :: later else later

theorem length_alternatives_cons (token : Token) (tokens : List Token) :
    (course.alternatives loader (token :: tokens)).length =
      ((course.perform loader (.feed token)).2.alternatives loader tokens).length +
        (if course.compiler.ReadsAlternative token then 1 else 0) := by
  rw [alternatives]
  split <;> rfl

/-- Tokens that are fed to a compiler that does not fail by them leave as many scopes as they open and do
not close. -/
theorem depth_after_feed {setting : Setting} {stack stack' : ScopeStack ρ}
    (hcompiler : course.compiler = running setting stack) (hsteady : course.compiler.Steady)
    (tokens : List Token)
    (hafter : (course.after loader (tokens.map .feed)).compiler.progress = .running stack') :
    stack'.depth + tokens.countP (·.kind = .close) + (course.alternatives loader tokens).length =
      stack.depth + tokens.countP (·.kind.opens) := by
  obtain ⟨_, state, calls⟩ := course
  obtain rfl := hcompiler
  induction tokens generalizing stack state calls with
  | nil =>
    obtain rfl := Progress.running.inj hafter
    rfl
  | cons token tokens ih =>
    rcases hfeed : (running setting stack).feed (loader.map .logged) token (state, calls) with
      ⟨reception, next, state', calls'⟩
    have hperform : (Course.perform loader ⟨running setting stack, state, calls⟩ (.feed token)).2 =
        ⟨next, state', calls'⟩ := by
      simp only [perform, hfeed]
    have hnext := hsteady.feed (loader.map .logged) token (state, calls)
    rw [hfeed] at hnext
    obtain ⟨hsteady', ⟨rfl, _⟩ | ⟨_, failure, hfailed⟩⟩ := hnext
    · obtain ⟨between, rfl, hadvance⟩ := feed_eq_accepted_iff_advance.mp hfeed
      rw [List.map_cons, Course.after, List.foldl_cons, hperform] at hafter
      have hlater := ih _ _ hsteady' hafter
      have htoken := ScopeStack.depth_advance hadvance
      rw [length_alternatives_cons, hperform]
      simp only [readsAlternative_running_iff, List.countP_cons, decide_eq_true_eq]
      omega
    · -- a compiler that has failed would have stayed so
      rw [List.map_cons, Course.after, List.foldl_cons, hperform] at hafter
      rw [← Course.after, after_of_failure? hfailed] at hafter
      cases (progress_eq_failed_iff.mpr hfailed).symm.trans hafter

end Course

/-- What the open tags are like after a compiler was fed any tokens, unless it has failed. There is a scope
for the whole template and one for each tag that was opened and not closed. -/
theorem fed_stack_orderly (setting : Setting) (loader : Option (Loader σ ρ)) (state : σ)
    (tokens : List Token) :
    let start : Course σ ρ := .start setting state
    let course := start.after loader (tokens.map .feed)
    (∀ stack, course.compiler.progress = .running stack →
        stack.Orderly ∧
          (stack.depth : Int) - 1 = tokens.countP (·.kind.opens) - (start.alternatives loader tokens).length -
            tokens.countP (·.kind = .close)) ∧
      ∀ token, (course.perform loader (.feed token)).1 = .received .accepted ∨
        (course.perform loader (.feed token)).1 = .received .refused := by
  intro start course
  have hstart : start.compiler.Steady := .initial
  have hsteady : course.compiler.Steady := Course.steady_after hstart _
  constructor
  · intro stack hstack
    obtain ⟨hcompiler, accepted, hrun⟩ := Course.exists_run_of_after hstack
    refine ⟨.of_grounded (hsteady stack hstack) ?_ ?_, ?_⟩
    · exact ScopeStack.Legible.run hrun .initial
    · exact ScopeStack.Alternating.run hrun .initial
    · have hdepth := Course.depth_after_feed rfl hstart tokens hstack
      have hinitial : (ScopeStack.initial : ScopeStack ρ).depth = 1 := rfl
      omega
  · intro token
    rcases (hsteady.feed (loader.map .logged) token (course.state, course.calls)).2 with
      ⟨haccepted, _⟩ | ⟨hrefused, _⟩
    · exact .inl (congrArg Reply.received haccepted)
    · exact .inr (congrArg Reply.received hrefused)

/-- A section inside one of the same expression, its other branch, and a block in that one. -/
def branchTokens : List Token :=
  [⟨.openSection, "a", 1, none⟩, ⟨.openSection, "a", 2, none⟩, ⟨.openInverted, "", 3, none⟩,
   ⟨.openBlock, "title", 4, none⟩, ⟨.close, "title", 5, none⟩]

/-- The inverted section lies on the outer section, which could have been its other branch, and which has the
inner section as its last node. Of the four tags that could open something one is an alternative, and one
closing tag has been read. -/
theorem fed_stack_orderly_branches :
    let start : Course Unit Unit := .start ⟨.html, none⟩ ()
    ∃ stack outer upper root,
      (start.after none (branchTokens.map .feed)).compiler.progress = .running stack ∧ stack.Orderly ∧
        stack.scopes = [root, outer, upper] ∧ outer.IsSection (.identifier "a") false ∧
        upper.IsSection (.identifier "a") true ∧
        (∃ line body, outer.nodes.getLast? = some (.branch line (.identifier "a") false body)) ∧
        start.alternatives none branchTokens = [⟨.openInverted, "", 3, none⟩] ∧
        (stack.depth : Int) - 1 = 4 - 1 - 1 := by
  intro start
  have hfed : ∃ stack, (start.after none (branchTokens.map .feed)).compiler.progress = .running stack :=
    ⟨_, rfl⟩
  obtain ⟨stack, hstack⟩ := hfed
  obtain ⟨horderly, hdepth⟩ := (fed_stack_orderly ⟨.html, none⟩ none () branchTokens).1 stack hstack
  obtain rfl : _ = stack := Progress.running.inj hstack
  have halternatives : start.alternatives none branchTokens = [⟨.openInverted, "", 3, none⟩] := rfl
  have hlast := (List.isChain_cons_cons.mp horderly.alternating).1 _ true ⟨rfl, rfl⟩ ⟨rfl, rfl⟩
  rw [halternatives] at hdepth
  exact ⟨_, _, _, _, rfl, horderly, rfl, ⟨rfl, rfl⟩, ⟨rfl, rfl⟩, hlast, halternatives, hdepth⟩

end Compiler

end Logicless
