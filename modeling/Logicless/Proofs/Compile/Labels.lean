import Logicless.Proofs.Compile.Mirroring
import Logicless.Proofs.Compile.Printing
import Logicless.Proofs.Compile.Reached

/-!
# Tags that end a scope

A closing tag may be blank or say what it closes, and so may the tag between two branches of a section.
What they say is compared with the innermost scope and goes nowhere: the same template is compiled, with
the same templates loaded, if these tags are made blank or say what the scopes are called.

The tag between two branches does two things at once. It closes the branch before it as a blank closing tag
would, and opens the other one as a section tag with the expression would. The one place where the two tags
do something else is directly inside a section of the same expression and the same polarity: once the inner
section is closed, the section tag goes on with the outer one.

## Shape of the proof

* `ScopeStack.Relabels` compares two tokens that end the innermost scope, and `Relabelled` does so for
  all tokens of a template.
* `Relabels.advance` is the step: the two tokens do the same, up to what the tag at hand has said.
  `Relabelled.feedAll` is the run, where the open tags of the two compilations mirror each other.
* `alternative_as_closing_and_opening` is about the two ways into the other branch. They end in the same
  open tags, again up to what one tag has said (`ScopeStack.openedBy`).
-/

namespace Logicless

variable {σ ρ : Type}

/-- A token that says something else. -/
def Token.saying (token : Token) (content : String) : Token :=
  { token with content := content }

/-- What a scope is called by the tags that end it: a section by its expression as it is printed, a block
and a layout by the name. -/
def Scope.label? (scope : Scope ρ) : Option String :=
  match scope.kind with
  | .root => none
  | .branch | .inverted => scope.expression.map Expr.print
  | .layout | .block => scope.name

theorem Scope.label?_of_isSection {scope : Scope ρ} {expression : Expr} {inverted : Bool}
    (h : scope.IsSection expression inverted) : scope.label? = some expression.print := by
  rw [label?, h.1, h.2]
  cases inverted <;> rfl

/-- An expression that was read somewhere is read of its print. -/
theorem Token.reads_saying_print {expression : Expr} (h : expression.Legible) (token : Token) :
    (token.saying expression.print).Reads expression :=
  h.reads_print token.kind token.line

/-! ## Other labels -/

namespace ScopeStack

/-- The open tags as if the innermost one had been opened by another token. -/
def openedBy (stack : ScopeStack ρ) (opening : Token) : ScopeStack ρ :=
  { stack with current := { stack.current with opening := some opening } }

theorem mirrors_openedBy {stack : ScopeStack ρ} {token opening : Token}
    (htoken : stack.current.opening = some token) (hplace : opening.place = token.place) :
    stack.Mirrors [] (stack.openedBy opening) := by
  obtain ⟨scope, enclosing⟩ := stack
  have hscope : scope.Mirrors [] { scope with opening := some opening } := by
    refine ⟨rfl, ?_, rfl, rfl, rfl⟩
    rw [show scope.opening = some token from htoken, Option.map_some, Option.map_some, hplace]
  cases enclosing with
  | nil => exact .root hscope
  | cons below enclosing => exact .tag hscope (.refl _)

/-- The token ends the innermost scope, as a closing tag or as the tag of the next branch. -/
def EndedBy (stack : ScopeStack ρ) (token : Token) : Prop :=
  token.kind = .close ∨ ∃ expression inverted, token.kind = .ofSection (!inverted) ∧
    stack.current.IsSection expression inverted ∧ token.Fits expression

/-- The second token is the first one, or the two end the innermost scope and what the second one says is
blank or what the scope is called. -/
inductive Relabels (stack : ScopeStack ρ) (token : Token) : Token → Prop
  | same : Relabels stack token token
  | ending {content : String} (hends : stack.EndedBy token)
      (hlabel : (token.saying content).IsBlank ∨ stack.current.label? = some content) :
      Relabels stack token (token.saying content)

theorem EndedBy.kind_mem {stack : ScopeStack ρ} {token : Token} (h : stack.EndedBy token) :
    token.kind ∈ [.close, .openSection, .openInverted] := by
  obtain hkind | ⟨_, inverted, hkind, _⟩ := h
  · simp [hkind]
  · cases inverted <;> simp [hkind, TokenKind.ofSection]

section

variable {setting : Setting} {loader : Loader σ ρ} {stack next : ScopeStack ρ} {scope : Scope ρ}
  {token token' : Token} {content : String} {state after : σ}

theorem fits_of_label {expression : Expr} {inverted : Bool} (hlegible : scope.Legible)
    (hsection : scope.IsSection expression inverted)
    (hlabel : (token.saying content).IsBlank ∨ scope.label? = some content) :
    (token.saying content).Fits expression := by
  obtain hblank | hlabel := hlabel
  · exact hblank.fits expression
  · obtain rfl := Option.some.inj ((Scope.label?_of_isSection hsection).symm.trans hlabel)
    exact .inr (Token.reads_saying_print (hlegible.expression _ hsection.2) token)

theorem fitsName_of_label {name : String} (role : NameRole) (hlegible : scope.Legible)
    (hkind : scope.kind = .block ∨ scope.kind = .layout) (hname : scope.name = some name)
    (hlabel : (token.saying content).IsBlank ∨ scope.label? = some content) :
    (token.saying content).FitsName role name := by
  obtain hblank | hlabel := hlabel
  · exact hblank.fitsName role name
  · have hcalled : scope.label? = scope.name := by
      obtain hkind | hkind := hkind <;> simp only [Scope.label?, hkind]
    obtain rfl := Option.some.inj (hname.symm.trans (hcalled.symm.trans hlabel))
    exact .inr (parseName_of_isName (hlegible.name _ hname) role)

/-- A tag that opens a section inside the innermost scope does not end this scope. -/
theorem not_endedBy_of_opens {expression : Expr} {inverted : Bool}
    (hkind : token.kind = .ofSection inverted) (hreads : token.Reads expression)
    (hopens : ¬ stack.current.IsSection expression (!inverted)) : ¬ stack.EndedBy token := by
  rintro (hclose | ⟨expression', inverted', hkind', hsection, hfits⟩)
  · cases inverted <;> cases hclose.symm.trans hkind
  · have hinverted : inverted' = !inverted := by
      have hsame := hkind'.symm.trans hkind
      cases inverted <;> cases inverted' <;> first | rfl | cases hsame
    obtain hblank | hreads' := hfits
    · cases hblank.symm.trans hreads
    · rw [hinverted, Except.ok.inj (hreads'.symm.trans hreads)] at hsection
      exact hopens hsection

/-- The token with the other label does the same as the token. -/
theorem Relabels.advance (h : stack.Relabels token token') (hlegible : stack.Legible)
    (hadvance : Advance setting loader token (stack, state) (next, after)) :
    ∃ next', Advance setting loader token' (stack, state) (next', after) ∧ next.Mirrors [] next' := by
  cases h with
  | same => exact ⟨next, hadvance, .refl next⟩
  | @ending content hends hlabel =>
    have hkinds := hends.kind_mem
    cases hadvance with
    | closeSection hkind hscope =>
      exact ⟨_, .closeSection hkind hscope (fits_of_label hlegible.current hscope hlabel), .refl _⟩
    | closeBlock hkind hscope hname =>
      have hfits := fitsName_of_label .block hlegible.current (.inl hscope) hname hlabel
      exact ⟨_, .closeBlock hkind hscope hname hfits, .refl _⟩
    | closeLayout hkind hscope hname _ hload =>
      have hfits := fitsName_of_label .template hlegible.current (.inr hscope) hname hlabel
      exact ⟨_, .closeLayout hkind hscope hname hfits hload, .refl _⟩
    | alternative hkind hscope =>
      refine ⟨_, .alternative hkind hscope (fits_of_label hlegible.current hscope hlabel), ?_⟩
      exact mirrors_openedBy rfl rfl
    | openSection hkind hreads hopens => exact absurd hends (not_endedBy_of_opens hkind hreads hopens)
    | skip hkind => rcases hkind with hkind | hkind | hkind <;> simp [hkind] at hkinds
    | text hkind | inclusion hkind | openBlock hkind | openLayout hkind => simp [hkind] at hkinds
    | @interpolation _ _ escape _ hkind =>
      cases escape <;> simp [hkind, TokenKind.ofVariable] at hkinds

end

end ScopeStack

/-- The second tokens are the first ones, some of which may end their scopes by other labels. The compiler
accepts the first ones, one after another, and goes on from the open tags `stack`. -/
inductive Relabelled (setting : Setting) (loader : Option (Loader σ ρ)) :
    ScopeStack ρ → σ → List Token → List Token → Prop
  | nil {stack : ScopeStack ρ} {state : σ} : Relabelled setting loader stack state [] []
  | cons {stack next : ScopeStack ρ} {state after : σ} {token token' : Token}
      {tokens tokens' : List Token}
      (hfeed : (Compiler.running setting stack).feed loader token state =
        (.accepted, .running setting next, after))
      (htoken : stack.Relabels token token')
      (hrest : Relabelled setting loader next after tokens tokens') :
      Relabelled setting loader stack state (token :: tokens) (token' :: tokens')

section

variable {setting : Setting} {loader : Option (Loader σ ρ)} {stack stack' next : ScopeStack ρ}
  {token token' : Token} {tokens tokens' : List Token} {state after : σ}

/-- A compiler that mirrors another one does so after a token with another label. -/
theorem ScopeStack.Relabels.feed (h : stack.Relabels token token') (hlegible : stack.Legible)
    (hmirrors : stack.Mirrors [] stack')
    (hfeed : (Compiler.running setting stack).feed loader token state =
      (.accepted, .running setting next, after)) :
    ∃ next', (Compiler.running setting stack').feed loader token' state =
      (.accepted, .running setting next', after) ∧ next.Mirrors [] next' := by
  obtain ⟨between, hadvance', hbetween⟩ :=
    h.advance hlegible (Compiler.feed_running_iff_advance.mp hfeed)
  have hfeed' : (Compiler.running setting stack).feed loader token' state =
      (.accepted, .running setting between, after) :=
    Compiler.feed_running_iff_advance.mpr hadvance'
  obtain ⟨_, _, next', _, hfirst, hsecond, hmirrors'⟩ :=
    (Compiler.Mirrors.running hmirrors).feed loader token' state
  cases hfeed'.symm.trans hfirst
  cases hmirrors' with
  | running hmirrors' => exact ⟨_, hsecond, hbetween.trans hmirrors'⟩

/-- Compilers that mirror each other still do so after tokens and the same tokens with other labels. -/
theorem Relabelled.feedAll (h : Relabelled setting loader stack state tokens tokens')
    (hlegible : stack.Legible) (hmirrors : stack.Mirrors [] stack') :
    ∃ last last' after,
      (Compiler.running setting stack).feedAll loader tokens state =
        (.accepted, .running setting last, after) ∧
      (Compiler.running setting stack').feedAll loader tokens' state =
        (.accepted, .running setting last', after) ∧ last.Mirrors [] last' := by
  induction h generalizing stack' with
  | @nil stack state => exact ⟨stack, stack', state, rfl, rfl, hmirrors⟩
  | cons hfeed htoken _ ih =>
    obtain ⟨next', hfeed', hnext⟩ := htoken.feed hlegible hmirrors hfeed
    rw [Compiler.feedAll, Compiler.feedAll, hfeed, hfeed']
    exact ih (hlegible.advance (Compiler.feed_running_iff_advance.mp hfeed)) hnext

end

/-- What closing tags and the tags between two branches say is checked and decides nothing. A template that
compiles is compiled to the same tree, by the same uses of the loader, if any of these tags are made blank
or say what the scopes that they end are called. -/
theorem compileTemplate_relabelled (setting : Setting) (loader : Option (Loader σ ρ)) (state : σ)
    (tokens tokens' : List Token) (template : Template Unit ρ) (after : σ × List (Loader.Call σ))
    (hcompile : compileTemplate setting (loader.map .logged) (.ofTokens tokens) (state, []) =
      (.ok template, after))
    (hrelabelled : Relabelled setting (loader.map .logged) .initial (state, []) tokens tokens') :
    compileTemplate setting (loader.map .logged) (.ofTokens tokens') (state, []) =
      (.ok template, after) := by
  obtain ⟨last, last', after', hfed, hfed', hmirrors⟩ :=
    hrelabelled.feedAll .initial (.refl .initial)
  have hlast : (Compiler.running setting last).Mirrors [] (.running setting last') := .running hmirrors
  have hconcluded := hlast.conclude.1
  rw [Body.map_behind_nil] at hconcluded
  rw [← hcompile, compileTemplate, compileTemplate, Stream.ofTokens, Stream.ofTokens, Compiler.compile,
    Compiler.compile, Compiler.read, Compiler.read,
    show Compiler.initial setting = Compiler.running setting .initial from rfl, hfed, hfed']
  exact Prod.ext hconcluded rfl

/-- A layout with a block in it, where a section has two branches. All tags that end a scope are labelled,
some of them with blank characters that are not printed. -/
def labelledTags : List Token :=
  [⟨.openLayout, "base", 1, none⟩, ⟨.openBlock, "title", 2, none⟩, ⟨.openSection, "f( a.b )", 3, none⟩,
   ⟨.text, "x", 3, none⟩, ⟨.openInverted, " f(a.b)", 4, none⟩, ⟨.close, "f( a.b)", 5, none⟩,
   ⟨.close, "title", 6, none⟩, ⟨.close, "base", 7, none⟩]

/-- The same tags with other labels, or without labels. -/
def relabelledTags : List Token :=
  [⟨.openLayout, "base", 1, none⟩, ⟨.openBlock, "title", 2, none⟩, ⟨.openSection, "f( a.b )", 3, none⟩,
   ⟨.text, "x", 3, none⟩, ⟨.openInverted, "", 4, none⟩, ⟨.close, "f(a.b)", 5, none⟩,
   ⟨.close, "title", 6, none⟩, ⟨.close, " ", 7, none⟩]

/-- Both are compiled to one template, and both load the layout once. -/
theorem compileTemplate_relabelled_layout :
    let setting : Setting := ⟨.html, some "page"⟩
    let loader : Option (Loader Unit String) := some fun name _ state => (.ok name, state)
    let calls : List (Loader.Call Unit) := [⟨"base", some "page", ()⟩]
    ∃ template,
      compileTemplate setting (loader.map .logged) (.ofTokens labelledTags) ((), []) =
        (.ok template, (), calls) ∧
      compileTemplate setting (loader.map .logged) (.ofTokens relabelledTags) ((), []) =
        (.ok template, (), calls) := by
  intro setting loader calls
  have hcompile : ∃ template, compileTemplate setting (loader.map .logged) (.ofTokens labelledTags)
      ((), []) = (.ok template, (), calls) := ⟨_, rfl⟩
  have hrelabelled : Relabelled setting (loader.map .logged) .initial ((), []) labelledTags
      relabelledTags :=
    .cons rfl .same <| .cons rfl .same <| .cons rfl .same <| .cons rfl .same <|
    .cons rfl (.ending (.inr ⟨.filtered (.identifier "f") (.member (.identifier "a") "b"), false,
      rfl, ⟨rfl, rfl⟩, .inr rfl⟩) (.inl nofun)) <|
    .cons rfl (.ending (.inl rfl) (.inr rfl)) <|
    .cons rfl .same <|
    .cons rfl (.ending (.inl rfl) (.inl (by simp [Token.IsBlank, Token.saying]; decide))) .nil
  obtain ⟨template, hcompile⟩ := hcompile
  exact ⟨template, hcompile, compileTemplate_relabelled _ _ _ _ _ _ _ hcompile hrelabelled⟩

/-! ## The next branch -/

namespace Compiler

/-- The tag between two branches stands for two tags: a closing tag without a label, and at the same place a
section tag with the expression in print. A compiler is left with the same open tags by either, and goes on
in the same way, unless the section is directly inside another section of the same expression and the same
polarity, which would then go on with its own next branch. -/
theorem alternative_as_closing_and_opening (setting : Setting) (loader : Option (Loader σ ρ)) (state : σ)
    (steps : List Step) (stack : ScopeStack ρ) (expression : Expr) (inverted : Bool)
    (token closing : Token)
    (hrunning : ((Course.start setting state).after loader steps).compiler.progress = .running stack)
    (hsection : stack.current.IsSection expression inverted)
    (houtside : ∀ below ∈ stack.enclosing.head?, ¬ below.IsSection expression inverted)
    (hkind : token.kind = .ofSection (!inverted)) (hfits : token.Fits expression)
    (hclosing : closing.IsBareClosing) :
    let course := (Course.start setting state).after loader steps
    let opening := token.saying expression.print
    ∃ next : ScopeStack ρ, next.current.opening = some token ∧
      course.perform loader (.feed token) =
        (.received .accepted, ⟨running setting next, course.state, course.calls⟩) ∧
      course.replies loader [.feed closing, .feed opening] =
        [.received .accepted, .received .accepted] ∧
      course.after loader [.feed closing, .feed opening] =
        ⟨running setting (next.openedBy opening), course.state, course.calls⟩ ∧
      ∀ later, (course.after loader [.feed closing, .feed opening]).replies loader later =
        (course.after loader [.feed token]).replies loader later := by
  intro course opening
  obtain ⟨hcompiler, _, hrun⟩ := Course.exists_run_of_after hrunning
  have hlegible : stack.Legible := ScopeStack.Legible.run hrun .initial
  have hreads : opening.Reads expression :=
    Token.reads_saying_print (hlegible.current.expression _ hsection.2) token
  have hgrounded : stack.Grounded := Course.steady_after Steady.initial steps stack hrunning
  cases hgrounded with
  | root hroot => exact absurd (hsection.1.symm.trans hroot) (Scope.Kind.ofSection_ne_root _)
  | @tag scope below enclosing =>
    obtain ⟨polarity, rfl⟩ : ∃ polarity, inverted = !polarity := ⟨!inverted, (Bool.not_not _).symm⟩
    rw [Bool.not_not] at hkind
    have hbelow : ¬ below.IsSection expression (!polarity) := houtside below rfl
    let outside : ScopeStack ρ :=
      ⟨below.append (.branch scope.line expression (!polarity) (scope.body setting.contentType)),
        enclosing⟩
    let next : ScopeStack ρ :=
      outside.push ⟨.ofSection polarity, some token, some expression, none, []⟩
    have hbranch : course.perform loader (.feed token) =
        (.received .accepted, ⟨running setting next, course.state, course.calls⟩) :=
      Course.perform_feed_of_advance loader hcompiler (.alternative hkind hsection hfits)
    have hclose : course.perform loader (.feed closing) =
        (.received .accepted, ⟨running setting outside, course.state, course.calls⟩) :=
      Course.perform_feed_of_advance loader hcompiler
        (.closeSection hclosing.kind hsection (hclosing.blank.fits expression))
    have hopen : Course.perform loader ⟨running setting outside, course.state, course.calls⟩
        (.feed opening) =
        (.received .accepted, ⟨running setting (next.openedBy opening), course.state, course.calls⟩) :=
      Course.perform_feed_of_advance loader rfl (.openSection hkind hreads hbelow)
    refine ⟨next, rfl, hbranch, ?_, ?_, fun later => Course.replies_eq_of_mirrors ?_ later⟩
    · simp only [Course.replies, hclose, hopen]
    · simp only [Course.after, List.foldl_cons, List.foldl_nil, hclose, hopen]
    · simp only [Course.after, List.foldl_cons, List.foldl_nil, hbranch, hclose, hopen]
      exact ⟨.running (ScopeStack.mirrors_openedBy rfl rfl), rfl, rfl⟩

/-- An inverted section inside a section goes on with its next branch either way, even if the stream that its
first branch is from has broken off. -/
theorem alternative_as_closing_and_opening_nested :
    let setting : Setting := ⟨.html, some "page"⟩
    let loader : Option (Loader Unit String) := some fun name _ state => (.ok name, state)
    let steps : List Step :=
      [.feed ⟨.openSection, "b", 1, none⟩, .feed ⟨.openInverted, "f( a )", 2, none⟩,
        .compile (.opened [⟨.inclusion, "item", 2, none⟩] (some (Fault.notFound (.unknown "x")).alone))]
    let course := (Course.start setting ()).after loader steps
    let branch : Token := ⟨.openSection, " ", 3, none⟩
    let closing : Token := ⟨.close, "", 9, none⟩
    let opening : Token := ⟨.openSection, "f(a)", 3, none⟩
    (course.perform loader (.feed branch)).1 = .received .accepted ∧
      ∀ later, (course.after loader [.feed closing, .feed opening]).replies loader later =
        (course.after loader [.feed branch]).replies loader later := by
  intro setting loader steps course branch closing opening
  have hblank : branch.IsBlank := by
    simp [Token.IsBlank, branch]
    decide
  let expression : Expr := .filtered (.identifier "f") (.identifier "a")
  let stack : ScopeStack String :=
    ⟨⟨.inverted, some ⟨.openInverted, "f( a )", 2, none⟩, some expression, none,
        [.inclusion ⟨2, "item", "item"⟩]⟩,
      [⟨.branch, some ⟨.openSection, "b", 1, none⟩, some (.identifier "b"), none, []⟩, { kind := .root }]⟩
  have houtside : ∀ below ∈ stack.enclosing.head?, ¬ below.IsSection expression true := by
    rintro _ ⟨⟩ ⟨hkind, _⟩
    cases hkind
  obtain ⟨next, _, hbranch, _, _, hlater⟩ :=
    alternative_as_closing_and_opening setting loader () steps stack expression true branch closing
      rfl ⟨rfl, rfl⟩ houtside rfl (hblank.fits expression) ⟨rfl, nofun⟩
  exact ⟨congrArg Prod.fst hbranch, hlater⟩

/-- Directly inside a section of the same expression and the same polarity, the section tag behind the closing
tag would go on with the outer section. -/
example :
    let depthAfter (steps : List Step) : Option Nat :=
      let start : Course Unit String := .start ⟨.html, none⟩ ()
      (start.after none steps).compiler.stack?.map ScopeStack.depth
    let token (kind : TokenKind) (content : String) : Step := .feed ⟨kind, content, 1, none⟩
    depthAfter [token .openSection "a", token .openSection "a", token .openInverted ""] = some 3 ∧
      depthAfter [token .openSection "a", token .openSection "a", token .close "",
        token .openInverted "a"] = some 2 := by
  exact ⟨rfl, rfl⟩

end Compiler

end Logicless
