import Logicless.Proofs.Compile.Labels
import Logicless.Proofs.Expr.Spacing
import Mathlib.Data.List.Forall2

/-!
# The spelling of tags

The compiler uses what a tag says through the expression or the name that it reads of it, never as a text.
An expression or a name has many spellings: blank characters may stand around it, and an expression has
room for more inside its parentheses. Tags that are spelt in another way leave the outcome of a compilation
as it is, the template as well as the failure. Only blank characters around the content may be changed where
the tag is not accepted, because a malformed expression is quoted in the failure.

## Shape of the proof

* `Token.Respaces` and `ScopeStack.Respells` compare two tokens at the same place, the second one for a
  compiler with the given open tags.
* `move_saying` is the step: what a token does depends on the expression and the name that are read of it.
* `Respelled` compares two lists of tokens along a compilation, and `Respelled.feedAll` is the run, where
  the open tags of the two compilations mirror each other.
-/

namespace Logicless

variable {σ ρ : Type}

/-! ## Reading other spellings -/

namespace Setting

variable {setting : Setting} {token : Token} {content : String}

theorem readExpression_saying (h : Expr.parse content = Expr.parse token.content) :
    setting.readExpression (token.saying content) = setting.readExpression token := by
  rw [readExpression, readExpression, show (token.saying content).content = content from rfl, h]
  rfl

theorem readOptionalExpression_saying (h : Expr.parse content = Expr.parse token.content) :
    setting.readOptionalExpression (token.saying content) = setting.readOptionalExpression token := by
  rw [readOptionalExpression, readOptionalExpression,
    show (token.saying content).content = content from rfl, h]
  rfl

theorem readName_saying {role : NameRole} (h : parseName role content = parseName role token.content) :
    setting.readName role (token.saying content) = setting.readName role token := by
  rw [readName, readName, show (token.saying content).content = content from rfl, h]
  rfl

theorem readOptionalName_saying {role : NameRole}
    (h : parseName role content = parseName role token.content) :
    setting.readOptionalName role (token.saying content) = setting.readOptionalName role token := by
  rw [readOptionalName, readOptionalName, show (token.saying content).content = content from rfl, h]
  rfl

end Setting

/-! ## One token -/

/-- The second token is the first one, or both are the same tag with other blank characters around its
content. -/
inductive Token.Respaces (token : Token) : Token → Prop
  | same : Respaces token token
  | spacing {content : String} (hkind : token.kind ≠ .text)
      (hcontent : Text.SameInside token.content content) : Respaces token (token.saying content)

namespace ScopeStack

/-- The content of the token stands for an expression: the token is a variable or opens a section, or it is
a closing tag and the innermost scope is a section. -/
def TakesExpression (stack : ScopeStack ρ) (token : Token) : Prop :=
  (∃ escape, token.kind = .ofVariable escape) ∨ (∃ inverted, token.kind = .ofSection inverted) ∨
    token.kind = .close ∧ ∃ inverted, stack.current.kind = .ofSection inverted

/-- The second token is the first one with other blank characters around its content, or with another
spelling of the expression that it stands for. -/
inductive Respells (stack : ScopeStack ρ) (token : Token) : Token → Prop
  | spacing {token' : Token} (h : token.Respaces token') : Respells stack token token'
  | expression {content : String} {expression : Expr} (htakes : stack.TakesExpression token)
      (hreads : token.Reads expression) (hreads' : (token.saying content).Reads expression) :
      Respells stack token (token.saying content)

variable {setting : Setting} {stack stack' : ScopeStack ρ} {token token' : Token} {content : String}

theorem moveVariable_saying (h : Expr.parse content = Expr.parse token.content) (escape : Bool) :
    stack.moveVariable setting (token.saying content) escape =
      stack.moveVariable setting token escape := by
  rw [moveVariable, moveVariable, Setting.readExpression_saying h]
  rfl

theorem moveSection_saying (h : Expr.parse content = Expr.parse token.content)
    (kind opposite : Scope.Kind) :
    (stack.moveSection setting token kind opposite).Mirrors []
      (stack.moveSection setting (token.saying content) kind opposite) := by
  -- the tags that are opened say different things at the same place
  have hopened : ∀ (below : ScopeStack ρ) (expression : Option Expr),
      (below.push { kind := kind, opening := some token, expression := expression }).Mirrors []
        (below.push
          { kind := kind, opening := some (token.saying content), expression := expression }) :=
    fun below _ => .tag ⟨rfl, rfl, rfl, rfl, rfl⟩ (.refl below)
  rw [moveSection, moveSection, Setting.readOptionalExpression_saying h]
  refine .andThen fun said => ?_
  dsimp only
  split
  · cases stack.collapse (Scope.toBranch setting.contentType) with
    | error breach => exact .breach
    | ok below => exact .proceed (hopened below _)
  · cases said with
    | none => exact .refuse
    | some expression => exact .proceed (hopened stack _)

theorem moveNamed_saying {role : NameRole} (h : parseName role content = parseName role token.content)
    (kind : Scope.Kind) :
    (stack.moveNamed setting token kind role).Mirrors []
      (stack.moveNamed setting (token.saying content) kind role) := by
  rw [moveNamed, moveNamed, Setting.readName_saying h]
  exact .andThen fun _ => .proceed (.tag ⟨rfl, rfl, rfl, rfl, rfl⟩ (.refl stack))

theorem moveInclusion_saying (h : parseName .template content = parseName .template token.content) :
    (stack.moveInclusion setting token).Mirrors []
      (stack.moveInclusion setting (token.saying content)) := by
  rw [moveInclusion, moveInclusion, Setting.readName_saying h]
  exact .andThen fun _ => .load rfl fun _ => .refl _

theorem closeBranch_saying (h : Expr.parse content = Expr.parse token.content) :
    stack.closeBranch setting (token.saying content) = stack.closeBranch setting token := by
  rw [closeBranch, closeBranch, Setting.readOptionalExpression_saying h]
  rfl

theorem closeBlock_saying (h : parseName .block content = parseName .block token.content) :
    stack.closeBlock setting (token.saying content) = stack.closeBlock setting token := by
  rw [closeBlock, closeBlock, Setting.readOptionalName_saying h]
  rfl

theorem closeLayout_saying (h : parseName .template content = parseName .template token.content) :
    stack.closeLayout setting (token.saying content) = stack.closeLayout setting token := by
  rw [closeLayout, closeLayout, Setting.readOptionalName_saying h]
  rfl

/-- A token that stands for no expression is no closing tag of a section, and of no kind that always stands
for one. -/
theorem not_takesExpression (hkind : token.kind ∈ [.openBlock, .openLayout, .inclusion] ∨
    token.kind = .close ∧ (stack.current.kind = .block ∨ stack.current.kind = .layout)) :
    ¬ stack.TakesExpression token := by
  rintro (⟨escape, h⟩ | ⟨inverted, h⟩ | ⟨h, inverted, hscope⟩)
  · cases escape <;> simp [h, TokenKind.ofVariable] at hkind
  · cases inverted <;> simp [h, TokenKind.ofSection] at hkind
  · cases inverted <;> simp [h, hscope, Scope.Kind.ofSection] at hkind

theorem moveClose_saying (hkind : token.kind = .close)
    (hexpression : Expr.parse content = Expr.parse token.content)
    (hname : stack.TakesExpression token ∨
      ∀ role, parseName role content = parseName role token.content) :
    stack.moveClose setting (token.saying content) = stack.moveClose setting token := by
  rw [moveClose, moveClose]
  cases hscope : stack.current.kind with
  | root => rfl
  | branch | inverted => exact closeBranch_saying hexpression
  | block =>
    have htakes : ¬ stack.TakesExpression token := not_takesExpression (.inr ⟨hkind, .inl hscope⟩)
    exact closeBlock_saying (hname.resolve_left htakes .block)
  | layout =>
    have htakes : ¬ stack.TakesExpression token := not_takesExpression (.inr ⟨hkind, .inr hscope⟩)
    exact closeLayout_saying (hname.resolve_left htakes .template)

/-- Of what a tag says, nothing matters but the expression or the name that is read of it. -/
theorem move_saying (hkind : token.kind ≠ .text)
    (hexpression : Expr.parse content = Expr.parse token.content)
    (hname : stack.TakesExpression token ∨
      ∀ role, parseName role content = parseName role token.content) :
    (stack.move setting token).Mirrors [] (stack.move setting (token.saying content)) := by
  have hnamed : ∀ role, token.kind ∈ [.openBlock, .openLayout, .inclusion] →
      parseName role content = parseName role token.content :=
    fun role hmem => hname.resolve_left (not_takesExpression (.inl hmem)) role
  rw [move, move, show (token.saying content).kind = token.kind from rfl]
  cases h : token.kind with
  | setDelimiters | comment | pragma => exact .proceed (.refl stack)
  | text => exact absurd h hkind
  | escapedVariable =>
    rw [moveVariable_saying hexpression true]
    exact .refl _
  | unescapedVariable =>
    rw [moveVariable_saying hexpression false]
    exact .refl _
  | openSection => exact moveSection_saying hexpression .branch .inverted
  | openInverted => exact moveSection_saying hexpression .inverted .branch
  | openBlock => exact moveNamed_saying (hnamed .block (by simp [h])) .block
  | openLayout => exact moveNamed_saying (hnamed .template (by simp [h])) .layout
  | inclusion => exact moveInclusion_saying (hnamed .template (by simp [h]))
  | close =>
    rw [moveClose_saying h hexpression hname]
    exact .refl _

/-- A token with another spelling does the same. -/
theorem Respells.move (h : stack.Respells token token') :
    (stack.move setting token).Mirrors [] (stack.move setting token') := by
  cases h with
  | spacing h =>
    cases h with
    | same => exact .refl _
    | spacing hkind hcontent =>
      exact move_saying hkind (Expr.parse_eq_of_sameInside hcontent)
        (.inr (parseName_eq_of_sameInside hcontent))
  | expression htakes hreads hreads' =>
    refine move_saying ?_ (hreads'.trans hreads.symm) (.inl htakes)
    rintro htext
    obtain ⟨escape, h⟩ | ⟨inverted, h⟩ | ⟨h, _⟩ := htakes
    · cases escape <;> cases htext.symm.trans h
    · cases inverted <;> cases htext.symm.trans h
    · cases htext.symm.trans h

end ScopeStack

/-! ## All tokens -/

/-- The second tokens are the first ones in another spelling, as a compiler that takes the first ones reads
them. Once it has failed it reads nothing, so nothing is said about the tokens that are left. -/
inductive Respelled (loader : Option (Loader σ ρ)) :
    Compiler ρ → σ → List Token → List Token → Prop
  | nil {compiler : Compiler ρ} {state : σ} : Respelled loader compiler state [] []
  | cons {compiler : Compiler ρ} {state : σ} {token token' : Token} {tokens tokens' : List Token}
      (htoken : ∀ stack, compiler.stack? = some stack → stack.Respells token token')
      (hrest : Respelled loader (compiler.feed loader token state).2.1
        (compiler.feed loader token state).2.2 tokens tokens') :
      Respelled loader compiler state (token :: tokens) (token' :: tokens')

section

variable {loader : Option (Loader σ ρ)} {compiler compiler' : Compiler ρ} {state : σ}
  {tokens tokens' : List Token}

/-- Tags with other blank characters around their content are in another spelling wherever they are met. -/
theorem respelled_of_respaces (h : List.Forall₂ Token.Respaces tokens tokens') :
    Respelled loader compiler state tokens tokens' := by
  induction h generalizing compiler state with
  | nil => exact .nil
  | cons htoken _ ih => exact .cons (fun _ _ => .spacing htoken) ih

/-- Compilers that mirror each other take tokens and the same tokens in another spelling alike. -/
theorem Respelled.feedAll (h : Respelled loader compiler state tokens tokens')
    (hmirrors : compiler.Mirrors [] compiler') :
    ∃ reception last last' after,
      compiler.feedAll loader tokens state = (reception, last, after) ∧
      compiler'.feedAll loader tokens' state = (reception, last', after) ∧ last.Mirrors [] last' := by
  induction h generalizing compiler' with
  | @nil compiler state => exact ⟨.accepted, compiler, compiler', state, rfl, rfl, hmirrors⟩
  | @cons compiler state token token' tokens tokens' htoken hrest ih =>
    have hfeed : ∃ reception next next' after,
        compiler.feed loader token state = (reception, next, after) ∧
        compiler'.feed loader token' state = (reception, next', after) ∧ next.Mirrors [] next' := by
      cases hmirrors with
      | failed => exact ⟨.refused, _, _, state, rfl, rfl, .failed⟩
      | @running setting stack stack' h =>
        have hmove : (stack.move setting token).Mirrors [] (stack.move setting token') :=
          (htoken stack rfl).move
        exact Compiler.Mirrors.feed_of_move h (hmove.trans (h.move setting token')) loader state
    obtain ⟨reception, next, next', after, hfeed, hfeed', hnext⟩ := hfeed
    rw [hfeed] at ih
    rw [Compiler.feedAll, Compiler.feedAll, hfeed, hfeed']
    cases reception with
    | accepted => exact ih hnext
    | refused | broken => exact ⟨_, next, next', after, rfl, rfl, hnext⟩

/-- A template is compiled to the same outcome in another spelling. -/
theorem Respelled.compileTemplate {setting : Setting}
    (h : Respelled loader (.initial setting) state tokens tokens') :
    compileTemplate setting loader (.ofTokens tokens') state =
      compileTemplate setting loader (.ofTokens tokens) state := by
  have hmirrors : (Compiler.initial setting : Compiler ρ).Mirrors [] (.initial setting) :=
    .running (.refl _)
  obtain ⟨reception, last, last', after, hfed, hfed', hlast⟩ := h.feedAll hmirrors
  obtain ⟨result, _, _, _, hread, hread', _⟩ :=
    Compiler.Mirrors.read_of_feedAll hfed hfed' hlast none
  rw [Logicless.compileTemplate, Logicless.compileTemplate, Stream.ofTokens, Stream.ofTokens,
    Compiler.compile, Compiler.compile, hread, hread', Body.map_behind_nil]

end

/-- The spelling of tags decides nothing. Blank characters around the content of tags can be added and
removed in any list of tokens, and the outcome stays, be it a template or a failure. In a list that compiles,
any expression can be spelt in another way, in variables, in tags that open sections and in tags that close
them. The loader is used alike, since its state, which may record its uses, is the same in the end. -/
theorem compileTemplate_respelled (setting : Setting) (loader : Option (Loader σ ρ)) (state : σ)
    (tokens tokens' : List Token) :
    (List.Forall₂ Token.Respaces tokens tokens' →
      compileTemplate setting loader (.ofTokens tokens') state =
        compileTemplate setting loader (.ofTokens tokens) state) ∧
    ∀ template after,
      compileTemplate setting loader (.ofTokens tokens) state = (.ok template, after) →
      Respelled loader (.initial setting) state tokens tokens' →
      compileTemplate setting loader (.ofTokens tokens') state = (.ok template, after) := by
  refine ⟨fun h => (respelled_of_respaces h).compileTemplate, ?_⟩
  intro template after hcompile h
  rw [h.compileTemplate, hcompile]

/-- A section of a filtered value, with a variable and an inclusion in it. -/
def plainSpelling : List Token :=
  [⟨.openSection, "f(a)", 1, none⟩, ⟨.escapedVariable, "x", 2, none⟩, ⟨.inclusion, "part", 3, none⟩,
   ⟨.close, "f(a)", 4, none⟩]

/-- The same section with blank characters around the content of its tags. -/
def spacedSpelling : List Token :=
  [⟨.openSection, " f(a)", 1, none⟩, ⟨.escapedVariable, "x", 2, none⟩,
   ⟨.inclusion, "\tpart ", 3, none⟩, ⟨.close, " f(a) ", 4, none⟩]

/-- The same section with blank characters inside its expression, where it is opened and where it is
closed. -/
def looseSpelling : List Token :=
  [⟨.openSection, "f( a)", 1, none⟩, ⟨.escapedVariable, "x", 2, none⟩, ⟨.inclusion, "part", 3, none⟩,
   ⟨.close, "f(a )", 4, none⟩]

/-- All three are compiled to one template. -/
theorem compileTemplate_respelled_section :
    let setting : Setting := ⟨.html, some "page"⟩
    let loader : Option (Loader (List String) String) :=
      some fun name _ names => (.ok name, names ++ [name])
    ∃ template,
      compileTemplate setting loader (.ofTokens plainSpelling) [] = (.ok template, ["part"]) ∧
      compileTemplate setting loader (.ofTokens spacedSpelling) [] = (.ok template, ["part"]) ∧
      compileTemplate setting loader (.ofTokens looseSpelling) [] = (.ok template, ["part"]) := by
  intro setting loader
  have hcompile : ∃ template, compileTemplate setting loader (.ofTokens plainSpelling) [] =
      (.ok template, ["part"]) := ⟨_, rfl⟩
  have hspacing : ∀ {token : Token} (content : String), token.kind ≠ .text →
      Text.trim token.content.toList = Text.trim content.toList →
      token.Respaces (token.saying content) :=
    fun content hkind htrim => .spacing hkind (Text.sameInside_iff.mpr htrim)
  have hspaced : List.Forall₂ Token.Respaces plainSpelling spacedSpelling :=
    .cons (hspacing " f(a)" (by decide) (by decide)) <| .cons .same <|
    .cons (hspacing "\tpart " (by decide) (by decide)) <|
    .cons (hspacing " f(a) " (by decide) (by decide)) .nil
  let expression : Expr := .filtered (.identifier "f") (.identifier "a")
  have hloose : Respelled loader (.initial setting) [] plainSpelling looseSpelling := by
    refine .cons (fun stack hstack => ?_) <| .cons (fun _ _ => .spacing .same) <|
      .cons (fun _ _ => .spacing .same) <| .cons (fun stack hstack => ?_) .nil
    · exact .expression (.inr (.inl ⟨false, rfl⟩)) (show Token.Reads _ expression from rfl) rfl
    · obtain rfl := Option.some.inj hstack
      exact .expression (.inr (.inr ⟨rfl, false, rfl⟩)) (show Token.Reads _ expression from rfl) rfl
  obtain ⟨template, hcompile⟩ := hcompile
  have hrespelled := compileTemplate_respelled setting loader [] plainSpelling
  exact ⟨template, hcompile, ((hrespelled spacedSpelling).1 hspaced).trans hcompile,
    (hrespelled looseSpelling).2 template ["part"] hcompile hloose⟩

end Logicless
