import Logicless.Proofs.Compile.Closing
import Logicless.Proofs.Compile.Included

/-!
# Why a compilation fails

A compilation that fails has met a first token that is refused, or a tag is open at the end, or its stream
breaks off. A token is refused because of what it says, or because a template cannot be loaded: the one of
an inclusion at the tag itself, that of a layout where the layout is closed. So a failure to load is a matter
of the tag with the name, which the open tags have to remember.

## Shape of the module

* `LocatedFault.Cites` says that a fault is placed at a token.
* `refusesAt_move` and `exists_loadsFor_of_move` say at which token the moves place their failures.
  `ScopeStack.LayoutsFrom` is the invariant that the scope of a layout remembers its tag, with the name.
* `Compiler.Refusal` is what a refused token comes to, and `exists_refused_of_feedAll` finds it.
* `Compiler.FailedAt` lists the ways to fail, and `failedAt_of_compileTemplate` says that there are no more.
-/

namespace Logicless

variable {σ ρ : Type}

/-! ## Places -/

/-- The fault is placed at a token: it cites the line of the token, and the id of the token, or if the token
has none or an empty one the id of the template. -/
structure LocatedFault.Cites (fault : LocatedFault) (token : Token) (template : Option String) :
    Prop where
  line : fault.line = some token.line
  own : ∀ id, token.template = some id → id ≠ "" → fault.template = some id
  inherited : token.template = none ∨ token.template = some "" → fault.template = template

theorem Setting.cites (setting : Setting) (token : Token) (kind : LocatedKind) (detail : String) :
    (setting.cite (some token) kind detail).Cites token setting.template where
  line := rfl
  own := by
    intro id hid hne
    simp [cite, citedTemplate, hid, hne]
  inherited := by
    rintro (hid | hid)
    · simp [cite, citedTemplate, hid]
    · simp [cite, citedTemplate, hid]

/-- The failure is one of what a token says, and it is placed at the token. -/
structure LocatedFailure.Blames (failure : LocatedFailure) (token : Token) (template : Option String) :
    Prop where
  cites : failure.fault.Cites token template
  kind : failure.fault.kind ≠ .inclusion

theorem Setting.blames (setting : Setting) (token : Token) (kind : LocatedKind)
    (hkind : kind ≠ .inclusion) (detail : String) (causes : List Fault) :
    LocatedFailure.Blames ⟨setting.cite (some token) kind detail, causes⟩ token setting.template :=
  ⟨setting.cites token kind detail, hkind⟩

/-! ## Tokens that are refused for what they say -/

/-- If the move refuses the token, it is for what the token says. -/
def Move.RefusesAt (token : Token) (template : Option String) : Move ρ → Prop
  | .refuse failure => failure.Blames token template
  | .proceed _ | .load _ _ _ | .breach _ => True

namespace Setting

variable {setting : Setting} {token : Token} {failure : LocatedFailure}

theorem blames_of_readExpression (h : setting.readExpression token = .error failure) :
    failure.Blames token setting.template := by
  rw [readExpression] at h
  cases hparse : Expr.parse token.content with
  | ok expression => simp [hparse] at h
  | error error =>
    rw [hparse] at h
    obtain rfl := Except.error.inj h
    exact setting.blames token .expression (by decide) _ _

theorem blames_of_readOptionalExpression (h : setting.readOptionalExpression token = .error failure) :
    failure.Blames token setting.template := by
  rw [readOptionalExpression] at h
  split at h
  · cases h
  · split at h
    · cases h
    · obtain rfl := Except.error.inj h
      exact setting.blames token .expression (by decide) _ _

theorem blames_of_readName {role : NameRole} (h : setting.readName role token = .error failure) :
    failure.Blames token setting.template := by
  rw [readName] at h
  cases hparse : parseName role token.content with
  | ok name => simp [hparse] at h
  | error error =>
    rw [hparse] at h
    obtain rfl := Except.error.inj h
    exact setting.blames token .name (by decide) _ _

theorem blames_of_readOptionalName {role : NameRole}
    (h : setting.readOptionalName role token = .error failure) :
    failure.Blames token setting.template := by
  rw [readOptionalName] at h
  split at h
  · cases h
  · split at h
    · cases h
    · obtain rfl := Except.error.inj h
      exact setting.blames token .name (by decide) _ _

end Setting

namespace Move.RefusesAt

variable {token : Token} {setting : Setting}

theorem andThen {template : Option String} {α : Type} {value : Except LocatedFailure α}
    {next : α → Move ρ}
    (hvalue : ∀ {failure}, value = .error failure → failure.Blames token template)
    (hnext : ∀ a, (next a).RefusesAt token template) : (Move.andThen value next).RefusesAt token template := by
  cases value with
  | error failure => exact hvalue rfl
  | ok a => exact hnext a

theorem ofStack {template : Option String} (result : Except ScopeBreach (ScopeStack ρ)) :
    (Move.ofStack result).RefusesAt token template := by
  cases result with
  | error breach => trivial
  | ok stack => trivial

theorem unmatched : (ScopeStack.unmatched setting token : Move ρ).RefusesAt token setting.template :=
  setting.blames token .unmatchedClose (by decide) _ _

end Move.RefusesAt

namespace ScopeStack

variable {setting : Setting} {stack : ScopeStack ρ} {token : Token}

theorem refusesAt_moveSection (kind opposite : Scope.Kind) :
    (stack.moveSection setting token kind opposite).RefusesAt token setting.template := by
  refine .andThen Setting.blames_of_readOptionalExpression fun content => ?_
  dsimp only
  split
  · exact .ofStack _
  · cases content with
    | some expression => trivial
    | none => exact setting.blames token .expression (by decide) _ _

theorem refusesAt_closeBranch : (stack.closeBranch setting token).RefusesAt token setting.template := by
  refine .andThen Setting.blames_of_readOptionalExpression fun content => ?_
  split
  · exact .ofStack _
  · exact .unmatched

theorem refusesAt_closeBlock : (stack.closeBlock setting token).RefusesAt token setting.template := by
  refine .andThen Setting.blames_of_readOptionalName fun content => ?_
  split
  · exact .ofStack _
  · exact .unmatched

theorem refusesAt_closeLayout : (stack.closeLayout setting token).RefusesAt token setting.template := by
  refine .andThen Setting.blames_of_readOptionalName fun content => ?_
  split
  · split <;> trivial
  · exact .unmatched

/-- A move refuses its token for what the token says. -/
theorem refusesAt_move (setting : Setting) (stack : ScopeStack ρ) (token : Token) :
    (stack.move setting token).RefusesAt token setting.template := by
  rw [move]
  cases token.kind with
  | setDelimiters | comment | pragma | text => trivial
  | escapedVariable | unescapedVariable =>
    exact .andThen Setting.blames_of_readExpression fun _ => trivial
  | openSection | openInverted => exact refusesAt_moveSection _ _
  | openBlock | openLayout | inclusion => exact .andThen Setting.blames_of_readName fun _ => trivial
  | close =>
    show (stack.moveClose setting token).RefusesAt token setting.template
    rw [moveClose]
    cases stack.current.kind with
    | root => exact .unmatched
    | branch | inverted => exact refusesAt_closeBranch
    | layout => exact refusesAt_closeLayout
    | block => exact refusesAt_closeBlock

/-! ## Tokens that need a template -/

/-- The tag that a template with the name is loaded for: the token itself, or the tag of the innermost
layout, if the token closes it. -/
inductive LoadsFor (stack : ScopeStack ρ) (token : Token) (name : String) : Token → Prop
  | inclusion (hkind : token.kind = .inclusion) (hname : token.includedName? = some name) :
      LoadsFor stack token name token
  | layout {tag : Token} (hkind : token.kind = .close) (hscope : stack.current.kind = .layout)
      (htag : stack.current.opening = some tag) (hname : stack.current.name = some name) :
      LoadsFor stack token name tag

theorem exists_loadsFor_of_closeLayout {name : String} {citing : Option Token}
    {resume : ρ → ScopeStack ρ} (hgrounded : stack.Grounded) (hkind : token.kind = .close)
    (hscope : stack.current.kind = .layout)
    (h : stack.closeLayout setting token = .load name citing resume) :
    ∃ tag, citing = some tag ∧ stack.LoadsFor token name tag := by
  obtain ⟨_, _, henclosing, htag, _⟩ := hgrounded.exists_below (by simp [hscope])
  obtain ⟨content, _, h⟩ := andThen_eq_load_iff.mp h
  obtain ⟨own, hown⟩ := htag.exists_name (.inr hscope)
  obtain ⟨opening, hopening⟩ := htag.exists_opening
  split at h
  · simp only [hown, pop, henclosing, Move.load.injEq] at h
    obtain ⟨rfl, rfl, _⟩ := h
    exact ⟨opening, hopening, .layout hkind hscope hopening hown⟩
  · cases h

/-- A move that needs a template cites the tag with its name. -/
theorem exists_loadsFor_of_move {name : String} {citing : Option Token} {resume : ρ → ScopeStack ρ}
    (hgrounded : stack.Grounded) (h : stack.move setting token = .load name citing resume) :
    ∃ tag, citing = some tag ∧ stack.LoadsFor token name tag := by
  rw [move] at h
  split at h
  case h_5 | h_6 | h_9 | h_10 =>
    obtain ⟨_, _, h⟩ := andThen_eq_load_iff.mp h
    cases h
  case h_7 | h_8 => exact absurd h moveSection_ne_load
  case h_11 hkind =>
    rw [moveClose] at h
    split at h
    · cases h
    · exact absurd h closeBranch_ne_load
    · exact absurd h closeBranch_ne_load
    · exact exists_loadsFor_of_closeLayout hgrounded hkind ‹_› h
    · exact absurd h closeBlock_ne_load
  case h_12 hkind =>
    obtain ⟨own, hread, h⟩ := andThen_eq_load_iff.mp h
    obtain ⟨rfl, rfl, _⟩ := Move.load.inj h
    have hname : token.Names .template own := Setting.readName_eq_ok_iff.mp hread
    exact ⟨token, rfl, .inclusion hkind (Token.includedName?_of_names (.inl hkind) hname)⟩
  all_goals cases h

/-- The scope of a layout remembers its tag, which is one of some tags, and the name in it. -/
def LayoutsFrom (tags : List Token) (stack : ScopeStack ρ) : Prop :=
  ∀ scope ∈ stack.current :: stack.enclosing, scope.kind = .layout →
    ∃ tag ∈ tags, scope.opening = some tag ∧ tag.kind = .openLayout ∧ scope.name = tag.includedName?

namespace LayoutsFrom

variable {loader : Loader σ ρ} {tags tokens : List Token} {stack' : ScopeStack ρ} {state state' : σ}

theorem initial : (ScopeStack.initial : ScopeStack ρ).LayoutsFrom tags := by
  simp [LayoutsFrom, ScopeStack.initial]

theorem append (h : stack.LayoutsFrom tags) (node : Node Unit ρ) :
    (stack.append node).LayoutsFrom tags := by
  intro scope hscope
  rcases List.mem_cons.mp hscope with rfl | hscope
  · exact h stack.current List.mem_cons_self
  · exact h scope (List.mem_cons_of_mem _ hscope)

theorem push {scope : Scope ρ} (h : stack.LayoutsFrom tags)
    (hscope : scope.kind = .layout → ∃ tag ∈ tags, scope.opening = some tag ∧
      tag.kind = .openLayout ∧ scope.name = tag.includedName?) : (stack.push scope).LayoutsFrom tags := by
  intro other hother
  rcases List.mem_cons.mp hother with rfl | hother
  · exact hscope
  · exact h other hother

theorem below {scope below : Scope ρ} {enclosing : List (Scope ρ)}
    (h : LayoutsFrom tags ⟨scope, below :: enclosing⟩) : LayoutsFrom tags ⟨below, enclosing⟩ :=
  fun other hother => h other (List.mem_cons_of_mem _ hother)

theorem advance (hadvance : Advance setting loader token (stack, state) (stack', state'))
    (htoken : token ∈ tags) (h : stack.LayoutsFrom tags) : stack'.LayoutsFrom tags := by
  cases hadvance with
  | skip => exact h
  | text | interpolation | inclusion => exact h.append _
  | openSection => exact h.push fun hkind => absurd hkind (Scope.Kind.ofSection_ne_layout _)
  | alternative =>
    exact (h.below.append _).push fun hkind => absurd hkind (Scope.Kind.ofSection_ne_layout _)
  | openBlock => exact h.push fun hkind => by cases hkind
  | openLayout hkind hname =>
    have hincluded := Token.includedName?_of_names (.inr hkind) hname
    exact h.push fun _ => ⟨token, htoken, rfl, hkind, hincluded.symm⟩
  | closeSection | closeBlock | closeLayout => exact h.below.append _

theorem run {p q : Progression σ ρ} (hrun : Run setting loader tokens p q)
    (htokens : ∀ token ∈ tokens, token ∈ tags) (h : p.1.LayoutsFrom tags) : q.1.LayoutsFrom tags := by
  induction hrun with
  | nil => exact h
  | cons hadvance _ ih =>
    obtain ⟨htoken, hrest⟩ := List.forall_mem_cons.mp htokens
    exact ih hrest (h.advance hadvance htoken)

/-- The tag that a template is loaded for includes it. -/
theorem includes {tag : Token} {name : String} (h : stack.LayoutsFrom tags) (htoken : token ∈ tags)
    (hloads : stack.LoadsFor token name tag) : tag ∈ tags ∧ tag.includedName? = some name := by
  cases hloads with
  | inclusion hkind hname => exact ⟨htoken, hname⟩
  | layout hkind hscope htag hname =>
    obtain ⟨tag', hmem, htag', _, hname'⟩ := h _ List.mem_cons_self hscope
    obtain rfl := Option.some.inj (htag'.symm.trans htag)
    exact ⟨hmem, hname'.symm.trans hname⟩

end LayoutsFrom

end ScopeStack

/-! ## Tokens that are refused -/

namespace Compiler

variable {setting : Setting} {loader : Option (Loader σ ρ)} {compiler last : Compiler ρ}
  {stack : ScopeStack ρ} {token : Token} {tokens : List Token} {state after : σ}

/-- Why a token is refused. -/
inductive Refusal (setting : Setting) (loader : Option (Loader σ ρ)) (stack : ScopeStack ρ)
    (token : Token) (state after : σ) (failure : LocatedFailure) : Prop
  /-- What it says is wrong here. -/
  | own (hblames : failure.Blames token setting.template)
  /-- A template cannot be loaded. -/
  | load {name : String} {tag : Token} (hloads : stack.LoadsFor token name tag)
      (hload : setting.load loader (some tag) name state = (.error failure, after))

/-- A template that cannot be loaded is reported at the tag that it is loaded for. -/
theorem cites_of_load {citing : Token} {name : String} {failure : LocatedFailure}
    (h : setting.load loader (some citing) name state = (.error failure, after)) :
    failure.fault.kind = .inclusion ∧ failure.fault.Cites citing setting.template := by
  cases loader with
  | none =>
    cases h
    exact ⟨rfl, setting.cites _ _ _⟩
  | some loader =>
    rw [load_some_eq] at h
    rcases hload : loader name setting.template state with ⟨cause | target, between⟩
    · rw [hload] at h
      cases h
      exact ⟨rfl, setting.cites _ _ _⟩
    · rw [hload] at h
      cases h

/-- A token that is refused leaves the compiler failed for one of these reasons. -/
theorem exists_refusal_of_feed (hgrounded : stack.Grounded)
    (h : (running setting stack).feed loader token state = (.refused, last, after)) :
    ∃ failure, last = ⟨setting, .failed failure⟩ ∧
      Refusal setting loader stack token state after failure := by
  have hrefuses := stack.refusesAt_move setting token
  rw [feed] at h
  cases hmove : stack.move setting token with
  | proceed next => simp [hmove] at h
  | breach breach => simp [hmove] at h
  | refuse failure =>
    rw [hmove] at hrefuses
    simp only [hmove, Prod.mk.injEq, true_and] at h
    exact ⟨failure, h.1.symm, .own hrefuses⟩
  | load name citing resume =>
    obtain ⟨tag, rfl, hloads⟩ := stack.exists_loadsFor_of_move hgrounded hmove
    simp only [hmove] at h
    rcases hload : setting.load loader (some tag) name state with ⟨failure | target, between⟩
    · simp only [hload, Prod.mk.injEq, true_and] at h
      obtain ⟨rfl, rfl⟩ := h
      exact ⟨failure, rfl, .load hloads hload⟩
    · simp [hload] at h

/-- If some tokens are not all accepted, one of them is the first that is not. -/
theorem exists_refused_of_feedAll (h : compiler.feedAll loader tokens state = (.refused, last, after)) :
    ∃ before token behind reached between, tokens = before ++ token :: behind ∧
      compiler.feedAll loader before state = (.accepted, reached, between) ∧
      reached.feed loader token between = (.refused, last, after) := by
  induction tokens generalizing compiler state with
  | nil => cases h
  | cons token tokens ih =>
    rw [feedAll] at h
    split at h
    · rename_i next between hfeed
      obtain ⟨before, refused, behind, reached, between, rfl, hbefore, hrefused⟩ := ih h
      refine ⟨token :: before, refused, behind, reached, between, rfl, ?_, hrefused⟩
      rw [feedAll, hfeed]
      exact hbefore
    · exact ⟨[], token, tokens, compiler, state, rfl, rfl, h⟩

/-- What stands behind the first token that is refused makes no difference. -/
theorem compile_of_refused {before : List Token} {reached : Compiler ρ} {between : σ}
    (hbefore : compiler.feedAll loader before state = (.accepted, reached, between))
    (htoken : reached.feed loader token between = (.refused, last, after)) (behind : List Token)
    (ending : Option Failure) :
    compiler.compile loader (.opened (before ++ token :: behind) ending) state =
      (last.conclude.1, last.conclude.2, after) := by
  rw [compile, read, feedAll_append hbefore, feedAll, htoken]

/-! ## Compilations that fail -/

/-- How the compilation of a stream fails. -/
inductive FailedAt (setting : Setting) (loader : Option (Loader σ ρ)) (stream : Stream) (state : σ) :
    Halt → σ → Prop
  /-- A token is refused. -/
  | refused {before behind : List Token} {token : Token} {stack : ScopeStack ρ} {between after : σ}
      {failure : LocatedFailure} (htokens : stream.tokens = before ++ token :: behind)
      (hbefore : (Compiler.initial setting).feedAll loader before state =
        (.accepted, running setting stack, between))
      (htoken : (running setting stack).feed loader token between =
        (.refused, ⟨setting, .failed failure⟩, after))
      (hrefusal : Refusal setting loader stack token between after failure) :
      FailedAt setting loader stream state (.recorded failure) after
  /-- A tag is open at the end. -/
  | unclosed {stack : ScopeStack ρ} {after : σ}
      (hfed : (Compiler.initial setting).feedAll loader stream.tokens state =
        (.accepted, running setting stack, after))
      (hfailure : stream.failure? = none) (hopen : 1 < stack.depth) :
      FailedAt setting loader stream state (.recorded (unclosed setting stack.current)) after
  /-- The stream cannot be opened, or it breaks off, by a tokenization fault or by a failure that
  escapes. -/
  | brokenOff {stack : ScopeStack ρ} {after : σ} {halt : Halt}
      (hfed : (Compiler.initial setting).feedAll loader stream.tokens state =
        (.accepted, running setting stack, after))
      (hfailure : stream.failure? = some halt.failure)
      (hhalt : ∀ failure, halt = .recorded failure → failure.fault.kind = .tokenization) :
      FailedAt setting loader stream state halt after

/-- A tokenization fault that breaks off a stream is recorded as it is. -/
theorem brokenOff_of_isTokenization {failure : Failure} (h : failure.fault.isTokenization = true) :
    (brokenOff setting failure).toFailure = failure ∧
      (brokenOff setting failure).fault.kind = .tokenization := by
  obtain ⟨fault, causes⟩ := failure
  cases fault with
  | located fault => exact ⟨rfl, of_decide_eq_true h⟩
  | _ => cases h

/-- A compilation that fails does so in one of these ways. -/
theorem failedAt_of_compileTemplate {stream : Stream} {halt : Halt}
    (h : compileTemplate setting loader stream state = (.error halt, after)) :
    FailedAt setting loader stream state halt after := by
  have hsteady := (Steady.initial : (Compiler.initial setting : Compiler ρ).Steady).feedAll loader
    stream.tokens state
  have hending := ending_compile loader (.initial setting) stream state
  rw [compileTemplate] at h
  generalize (Compiler.initial setting).compile loader stream state = result at h hending
  -- as long as all tokens are accepted, the compiler goes on
  have hrunning : ∀ {last : Compiler ρ} {after},
      (Compiler.initial setting).feedAll loader stream.tokens state = (.accepted, last, after) →
        ∃ stack, last = running setting stack := by
    intro last after hfed
    obtain ⟨stack, rfl, _⟩ := feedAll_eq_accepted_iff_run.mp hfed
    exact ⟨stack, rfl⟩
  cases hending with
  | unopened hopening =>
    cases h
    have hfed : (Compiler.initial setting : Compiler ρ).feedAll loader stream.tokens state =
        (.accepted, running setting .initial, state) := by
      cases stream with
      | unopened _ => rfl
      | opened _ _ => cases hopening
    refine .brokenOff hfed (Stream.failure?_of_opening hopening) fun recorded h => ?_
    cases h
  | @broken breach last after hfed =>
    rw [hfed] at hsteady
    exact absurd rfl (hsteady.2 breach)
  | refused hfed =>
    obtain ⟨before, token, behind, reached, between, htokens, hbefore, htoken⟩ :=
      exists_refused_of_feedAll hfed
    obtain ⟨stack, rfl, _⟩ := feedAll_eq_accepted_iff_run.mp hbefore
    obtain ⟨failure, rfl, hrefusal⟩ := exists_refusal_of_feed (grounded_of_feedAll hbefore) htoken
    rw [conclude_of_failed rfl] at h
    cases h
    exact .refused htokens hbefore htoken hrefusal
  | complete hfed hfailure =>
    obtain ⟨⟨scope, enclosing⟩, rfl⟩ := hrunning hfed
    cases enclosing with
    | nil => cases h
    | cons below enclosing =>
      cases h
      exact .unclosed hfed hfailure (by simp [ScopeStack.depth])
  | @brokenOff last _ failure hfed hending htokenization =>
    obtain ⟨stack, rfl⟩ := hrunning hfed
    cases h
    obtain ⟨hrecorded, hkind⟩ := brokenOff_of_isTokenization htokenization
    have hfailure : stream.failure? = some (brokenOff setting failure).toFailure :=
      hrecorded.symm ▸ Stream.failure?_of_ending hending
    refine .brokenOff hfed hfailure fun recorded h => ?_
    obtain rfl := Halt.recorded.inj h
    exact hkind
  | escaped hfed hending =>
    obtain ⟨stack, rfl⟩ := hrunning hfed
    cases h
    refine .brokenOff hfed (Stream.failure?_of_ending hending) fun recorded h => ?_
    cases h

end Compiler

end Logicless
