import Logicless.Proofs.Compile.Included
import Logicless.Proofs.Compile.OpenTags

/-!
# The order in which templates are loaded

The template of an inclusion is loaded where its tag stands. That of a layout is loaded at the closing tag,
so after all that the body of the layout includes. Which tag a closing tag belongs to can be told from the
tokens alone, with the tags that are open in front of it.

## Shape of the module

* `OpenTag.after` follows the open tags through the tokens, and `Token.loadedName?` is the name that a token
  loads a template by. `Stream.loadedNames` lists these names for a stream.
* `Loader.Chain` says that a loader is used for some names one after another, with success.
* `ScopeStack.Tagged` is the invariant of the compiler: its scopes are those of the open tags. It is kept by
  each accepted token, which loads the template that `Token.loadedName?` says and leaves the rest of what it
  includes to the closing tags (`Tagged.advance` is the step and `Tagged.run` the run).
* `chain_of_compileTemplate` is what this comes to for a template: it loads what its tags include, in the
  order of `Stream.loadedNames`.
-/

namespace Logicless

variable {σ ρ : Type}

/-! ## Names by the tokens -/

/-- A tag that waits for its closing tag. -/
inductive OpenTag where
  /-- A branch of a section. -/
  | branch (expression : Expr) (inverted : Bool)
  /-- A block. -/
  | block
  /-- A layout, whose template has a name. -/
  | layout (name : String)
deriving DecidableEq

namespace OpenTag

/-- The name of the template that a layout waits for. -/
def awaitedName? : OpenTag → Option String
  | layout name => some name
  | branch _ _ | block => none

/-- The names of the templates that open layouts wait for, the innermost first. -/
def awaitedNames (tags : List OpenTag) : List String :=
  tags.filterMap awaitedName?

/-- The open tags after the tag of a section. It starts the next branch of the innermost one if its polarity
is the other one and its content is the same expression or blank. Otherwise it opens a section inside. -/
def afterSection (inverted : Bool) (token : Token) (tags : List OpenTag) : List OpenTag :=
  match Expr.parse token.content with
  | .ok expression =>
    if tags.head? = some (.branch expression (!inverted)) then .branch expression inverted :: tags.tail
    else .branch expression inverted :: tags
  | .error _ =>
    match tags with
    | .branch expression _ :: outer => .branch expression inverted :: outer
    | _ => tags

/-- The open tags, the innermost first, after one more token. -/
def after (token : Token) (tags : List OpenTag) : List OpenTag :=
  match token.kind with
  | .openSection => afterSection false token tags
  | .openInverted => afterSection true token tags
  | .openBlock => .block :: tags
  | .openLayout =>
    match parseName .template token.content with
    | .ok name => .layout name :: tags
    | .error _ => tags
  | .close => tags.tail
  | _ => tags

variable {token : Token} {tags : List OpenTag} {inverted : Bool} {expression : Expr}

@[simp]
theorem awaitedNames_branch : awaitedNames (.branch expression inverted :: tags) = awaitedNames tags :=
  rfl

@[simp]
theorem awaitedNames_block : awaitedNames (.block :: tags) = awaitedNames tags :=
  rfl

@[simp]
theorem awaitedNames_layout (name : String) :
    awaitedNames (.layout name :: tags) = name :: awaitedNames tags :=
  rfl

/-- Text, variables, inclusions and silent tokens leave all tags open. -/
theorem after_eq_self (hopens : token.kind.opens = false) (hclose : token.kind ≠ .close)
    (tags : List OpenTag) : after token tags = tags := by
  rw [after]
  split <;> simp_all [TokenKind.opens]

theorem after_of_close (hkind : token.kind = .close) (tags : List OpenTag) :
    after token tags = tags.tail := by
  simp only [after, hkind]

theorem after_of_openBlock (hkind : token.kind = .openBlock) (tags : List OpenTag) :
    after token tags = .block :: tags := by
  simp only [after, hkind]

theorem after_of_openLayout {name : String} (hkind : token.kind = .openLayout)
    (hname : token.Names .template name) (tags : List OpenTag) :
    after token tags = .layout name :: tags := by
  simp only [after, hkind]
  rw [show parseName _ _ = _ from hname]

theorem after_of_ofSection (hkind : token.kind = .ofSection inverted) (tags : List OpenTag) :
    after token tags = afterSection inverted token tags := by
  cases inverted <;> simp [after, hkind, TokenKind.ofSection]

/-- A tag with another expression than the innermost section, or of the same polarity, starts a section. -/
theorem afterSection_of_reads (hreads : token.Reads expression)
    (hopens : tags.head? ≠ some (.branch expression (!inverted))) :
    afterSection inverted token tags = .branch expression inverted :: tags := by
  rw [afterSection.eq_def, show Expr.parse token.content = .ok expression from hreads]
  exact if_neg hopens

/-- A tag that fits the innermost section starts its next branch. -/
theorem afterSection_of_fits (hfits : token.Fits expression) :
    afterSection inverted token (.branch expression (!inverted) :: tags) =
      .branch expression inverted :: tags := by
  obtain hblank | hreads := hfits
  · simp only [afterSection, hblank]
  · rw [afterSection, show Expr.parse token.content = .ok expression from hreads]
    exact if_pos rfl

end OpenTag

/-- The name by which a token loads a template, behind some open tags: that of an inclusion at its own tag,
and that of a layout at the tag that closes it. -/
def Token.loadedName? (token : Token) (tags : List OpenTag) : Option String :=
  match token.kind with
  | .inclusion => (parseName .template token.content).toOption
  | .close => tags.head?.bind OpenTag.awaitedName?
  | _ => none

namespace Token

variable {token : Token} {inverted escape : Bool}

theorem loadedName?_eq_none (h : ¬(token.kind = .inclusion ∨ token.kind = .close)) (tags : List OpenTag) :
    token.loadedName? tags = none := by
  rw [not_or] at h
  rw [loadedName?]
  split
  · exact absurd ‹_› h.1
  · exact absurd ‹_› h.2
  · rfl

theorem loadedName?_of_isSilent (h : token.kind.IsSilent) (tags : List OpenTag) :
    token.loadedName? tags = none := by
  obtain h | h | h := h <;> exact loadedName?_eq_none (by simp [h]) tags

theorem loadedName?_of_ofVariable (h : token.kind = .ofVariable escape) (tags : List OpenTag) :
    token.loadedName? tags = none := by
  cases escape <;> exact loadedName?_eq_none (by simp [h, TokenKind.ofVariable]) tags

theorem loadedName?_of_ofSection (h : token.kind = .ofSection inverted) (tags : List OpenTag) :
    token.loadedName? tags = none := by
  cases inverted <;> exact loadedName?_eq_none (by simp [h, TokenKind.ofSection]) tags

theorem loadedName?_of_names {name : String} (hkind : token.kind = .inclusion)
    (hname : token.Names .template name) (tags : List OpenTag) : token.loadedName? tags = some name := by
  simp only [loadedName?, hkind]
  rw [show parseName _ _ = _ from hname]
  rfl

theorem loadedName?_of_close (hkind : token.kind = .close) (tag : OpenTag) (tags : List OpenTag) :
    token.loadedName? (tag :: tags) = tag.awaitedName? := by
  simp [loadedName?, hkind]

end Token

/-- The names by which tokens load templates, behind some open tags, in order. -/
def loadedNamesFrom (tags : List OpenTag) : List Token → List String
  | [] => []
  | token :: tokens =>
    (token.loadedName? tags).toList ++ loadedNamesFrom (OpenTag.after token tags) tokens

/-- The names by which the tokens of a stream load templates, in order. -/
def Stream.loadedNames (stream : Stream) : List String :=
  loadedNamesFrom [] stream.tokens

/-! ## Loading one after another -/

/-- With some names, one after another, a loader is used with success inside the template with an id if
any. -/
inductive Loader.Chain (loader : Loader σ ρ) (relativeTo : Option String) :
    List String → σ → σ → Prop
  | nil {state : σ} : Chain loader relativeTo [] state state
  | cons {name : String} {names : List String} {target : ρ} {state between after : σ}
      (hload : loader name relativeTo state = (.ok target, between))
      (hrest : Chain loader relativeTo names between after) :
      Chain loader relativeTo (name :: names) state after

namespace Loader.Chain

variable {loader : Loader σ ρ} {relativeTo : Option String} {names names' : List String} {a b c : σ}

theorem append (h : Chain loader relativeTo names a b) (h' : Chain loader relativeTo names' b c) :
    Chain loader relativeTo (names ++ names') a c := by
  induction h with
  | nil => exact h'
  | cons hload _ ih => exact .cons hload (ih h')

end Loader.Chain

/-! ## The open tags of a compiler -/

/-- The scope is that of an open tag. -/
inductive Scope.HasTag (scope : Scope ρ) : OpenTag → Prop
  | branch {expression : Expr} {inverted : Bool} (h : scope.IsSection expression inverted) :
      HasTag scope (.branch expression inverted)
  | block (h : scope.kind = .block) : HasTag scope .block
  | layout {name : String} (hkind : scope.kind = .layout) (hname : scope.name = some name) :
      HasTag scope (.layout name)

namespace Scope.HasTag

variable {scope : Scope ρ} {tag : OpenTag}

theorem append (h : scope.HasTag tag) (node : Node Unit ρ) : (scope.append node).HasTag tag := by
  cases h with
  | branch h => exact .branch h
  | block h => exact .block h
  | layout hkind hname => exact .layout hkind hname

theorem eq_branch {expression : Expr} {inverted : Bool} (h : scope.HasTag tag)
    (hsection : scope.IsSection expression inverted) : tag = .branch expression inverted := by
  obtain ⟨hkind, hexpression⟩ := hsection
  cases h with
  | branch h =>
    obtain rfl := Option.some.inj (h.2.symm.trans hexpression)
    rw [Scope.Kind.ofSection_inj.mp (h.1.symm.trans hkind)]
  | block h => exact absurd (hkind.symm.trans h) (Scope.Kind.ofSection_ne_block _)
  | layout h => exact absurd (hkind.symm.trans h) (Scope.Kind.ofSection_ne_layout _)

theorem eq_block (h : scope.HasTag tag) (hkind : scope.kind = .block) : tag = .block := by
  cases h with
  | branch h => exact absurd (h.1.symm.trans hkind) (Scope.Kind.ofSection_ne_block _)
  | block => rfl
  | layout h => cases h.symm.trans hkind

theorem eq_layout {name : String} (h : scope.HasTag tag) (hkind : scope.kind = .layout)
    (hname : scope.name = some name) : tag = .layout name := by
  cases h with
  | branch h => exact absurd (h.1.symm.trans hkind) (Scope.Kind.ofSection_ne_layout _)
  | block h => cases h.symm.trans hkind
  | layout _ h =>
    obtain rfl := Option.some.inj (h.symm.trans hname)
    rfl

end Scope.HasTag

namespace ScopeStack

/-- The scopes are those of the open tags, inside that of the whole template. -/
inductive Tagged : ScopeStack ρ → List OpenTag → Prop
  | root {scope : Scope ρ} : Tagged ⟨scope, []⟩ []
  | tag {scope below : Scope ρ} {enclosing : List (Scope ρ)} {tag : OpenTag} {tags : List OpenTag}
      (htag : scope.HasTag tag) (hbelow : Tagged ⟨below, enclosing⟩ tags) :
      Tagged ⟨scope, below :: enclosing⟩ (tag :: tags)

namespace Tagged

variable {setting : Setting} {loader : Loader σ ρ} {stack stack' : ScopeStack ρ} {token : Token}
  {tokens : List Token} {tag : OpenTag} {tags : List OpenTag} {state state' : σ} {scope : Scope ρ}

theorem append (h : stack.Tagged tags) (node : Node Unit ρ) : (stack.append node).Tagged tags := by
  cases h with
  | root => exact .root
  | tag htag hbelow => exact .tag (htag.append node) hbelow

theorem push (h : stack.Tagged tags) (htag : scope.HasTag tag) : (stack.push scope).Tagged (tag :: tags) :=
  .tag htag h

theorem head?_ne_branch {expression : Expr} {inverted : Bool} (h : stack.Tagged tags)
    (hcurrent : ¬ stack.current.IsSection expression inverted) :
    tags.head? ≠ some (.branch expression inverted) := by
  cases h with
  | root => exact nofun
  | tag htag =>
    rintro ⟨⟩
    cases htag with
    | branch hsection => exact hcurrent hsection

/-- An accepted token changes the scopes as it changes the open tags, and loads the template that it says,
if any. This and what it leaves to be loaded by closing tags is what was left before and what the token
includes. -/
theorem advance (h : stack.Tagged tags)
    (hadvance : Advance setting loader token (stack, state) (stack', state')) :
    stack'.Tagged (OpenTag.after token tags) ∧
      loader.Chain setting.template (token.loadedName? tags).toList state state' ∧
      ((token.loadedName? tags).toList ++ OpenTag.awaitedNames (OpenTag.after token tags)).Perm
        (OpenTag.awaitedNames tags ++ token.includedName?.toList) := by
  cases hadvance with
  | skip hkind =>
    have hclose : token.kind ≠ .close := by
      obtain h | h | h := hkind <;> simp [h]
    rw [OpenTag.after_eq_self (TokenKind.opens_of_isSilent hkind) hclose,
      Token.loadedName?_of_isSilent hkind, includedName?_of_isSilent hkind]
    exact ⟨h, .nil, by simp⟩
  | text hkind =>
    rw [OpenTag.after_eq_self (by simp [hkind, TokenKind.opens]) (by simp [hkind]),
      Token.loadedName?_eq_none (by simp [hkind]), Token.includedName?_eq_none (by simp [hkind])]
    exact ⟨h.append _, .nil, by simp⟩
  | @interpolation _ _ escape _ hkind =>
    have hclose : token.kind ≠ .close := by
      cases escape <;> simp [hkind, TokenKind.ofVariable]
    rw [OpenTag.after_eq_self (hkind ▸ TokenKind.opens_ofVariable escape) hclose,
      Token.loadedName?_of_ofVariable hkind, includedName?_of_ofVariable hkind]
    exact ⟨h.append _, .nil, by simp⟩
  | inclusion hkind hname hload =>
    rw [OpenTag.after_eq_self (by simp [hkind, TokenKind.opens]) (by simp [hkind]),
      Token.loadedName?_of_names hkind hname, Token.includedName?_of_names (.inl hkind) hname]
    exact ⟨h.append _, .cons hload .nil, List.perm_append_comm⟩
  | openSection hkind hreads hopens =>
    rw [OpenTag.after_of_ofSection hkind, OpenTag.afterSection_of_reads hreads (h.head?_ne_branch hopens),
      Token.loadedName?_of_ofSection hkind, includedName?_of_ofSection hkind]
    exact ⟨h.push (.branch ⟨rfl, rfl⟩), .nil, by simp⟩
  | alternative hkind hscope hfits =>
    cases h with
    | tag htag hbelow =>
      obtain rfl := htag.eq_branch hscope
      rw [OpenTag.after_of_ofSection hkind, OpenTag.afterSection_of_fits hfits,
        Token.loadedName?_of_ofSection hkind, includedName?_of_ofSection hkind]
      exact ⟨.tag (.branch ⟨rfl, rfl⟩) (hbelow.append _), .nil, by simp⟩
  | openBlock hkind hname =>
    rw [OpenTag.after_of_openBlock hkind, Token.loadedName?_eq_none (by simp [hkind]),
      Token.includedName?_eq_none (by simp [hkind])]
    exact ⟨h.push (.block rfl), .nil, by simp⟩
  | openLayout hkind hname =>
    rw [OpenTag.after_of_openLayout hkind hname, Token.loadedName?_eq_none (by simp [hkind]),
      Token.includedName?_of_names (.inr hkind) hname]
    exact ⟨h.push (.layout rfl rfl), .nil, (List.perm_append_singleton _ _).symm⟩
  | closeSection hkind hscope =>
    cases h with
    | tag htag hbelow =>
      obtain rfl := htag.eq_branch hscope
      rw [OpenTag.after_of_close hkind, Token.loadedName?_of_close hkind,
        Token.includedName?_eq_none (by simp [hkind])]
      exact ⟨hbelow.append _, .nil, by simp [OpenTag.awaitedName?]⟩
  | closeBlock hkind hscope =>
    cases h with
    | tag htag hbelow =>
      obtain rfl := htag.eq_block hscope
      rw [OpenTag.after_of_close hkind, Token.loadedName?_of_close hkind,
        Token.includedName?_eq_none (by simp [hkind])]
      exact ⟨hbelow.append _, .nil, by simp [OpenTag.awaitedName?]⟩
  | closeLayout hkind hscope hname _ hload =>
    cases h with
    | tag htag hbelow =>
      obtain rfl := htag.eq_layout hscope hname
      rw [OpenTag.after_of_close hkind, Token.loadedName?_of_close hkind,
        Token.includedName?_eq_none (by simp [hkind])]
      exact ⟨hbelow.append _, .cons hload .nil, by simp [OpenTag.awaitedName?]⟩

/-- Accepted tokens load the templates that they say, in this order. With what they leave to be loaded by
closing tags, these are what was left before and what the tokens include. -/
theorem run (h : stack.Tagged tags)
    (hrun : Run setting loader tokens (stack, state) (stack', state')) :
    ∃ tags', stack'.Tagged tags' ∧
      loader.Chain setting.template (loadedNamesFrom tags tokens) state state' ∧
      (loadedNamesFrom tags tokens ++ OpenTag.awaitedNames tags').Perm
        (OpenTag.awaitedNames tags ++ tokens.filterMap Token.includedName?) := by
  induction tokens generalizing stack tags state with
  | nil =>
    cases hrun
    exact ⟨tags, h, .nil, by simp [loadedNamesFrom]⟩
  | cons token tokens ih =>
    cases hrun with
    | cons hadvance hrun =>
      obtain ⟨hnext, hload, hpermToken⟩ := h.advance hadvance
      obtain ⟨tags', hlast, hchain, hperm⟩ := ih hnext hrun
      refine ⟨tags', hlast, hload.append hchain, ?_⟩
      have hincluded : (token :: tokens).filterMap Token.includedName? =
          token.includedName?.toList ++ tokens.filterMap Token.includedName? := by
        cases hname : token.includedName? <;> simp [hname]
      rw [hincluded, loadedNamesFrom, List.append_assoc]
      refine (hperm.append_left _).trans ?_
      rw [← List.append_assoc, ← List.append_assoc]
      exact hpermToken.append_right _

end Tagged

end ScopeStack

/-- A template that compiles has loaded the templates with the names that its tokens say, in this order.
These are the names that its tags include. -/
theorem chain_of_compileTemplate {setting : Setting} {loader : Loader σ ρ} {stream : Stream}
    {state state' : σ} {template : Template Unit ρ}
    (h : compileTemplate setting (some loader) stream state = (.ok template, state')) :
    loader.Chain setting.template stream.loadedNames state state' ∧
      stream.loadedNames.Perm stream.includedNames := by
  obtain ⟨-, scope, -, hrun⟩ := compileTemplate_eq_ok_iff.mp h
  have hinitial : (ScopeStack.initial : ScopeStack ρ).Tagged [] := .root
  obtain ⟨tags, htagged, hchain, hperm⟩ := hinitial.run hrun
  cases htagged with
  | root =>
    refine ⟨hchain, ?_⟩
    rwa [OpenTag.awaitedNames, List.filterMap_nil, List.append_nil, List.nil_append] at hperm

end Logicless
