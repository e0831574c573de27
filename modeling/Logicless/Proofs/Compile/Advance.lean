import Logicless.Compile.Compiler
import Mathlib.Data.List.TakeWhile

/-!
# What an accepted token does

The compiler answers each token by a move on its stack of open tags. This module says once what a
token that is accepted does to the stack, by a relation with a case for each kind of tag, so that
properties of whole compilations need not look into the moves.

## Shape of the module

* `Token.Reads`, `Token.Fits` and their twins for names say what the content of a tag is. A blank tag
  fits everything.
* `ScopeStack.Advance` relates the stack and the loader's state before an accepted token to those
  after it.
* `yields_iff_advance` says that these advances are exactly what the moves come to.
-/

namespace Logicless

variable {σ ρ : Type}

/-! ## The content of tags -/

/-- The content of a tag is an expression. -/
def Token.Reads (token : Token) (expression : Expr) : Prop :=
  Expr.parse token.content = .ok expression

/-- The content of a tag is blank or the given expression. -/
def Token.Fits (token : Token) (expression : Expr) : Prop :=
  Expr.parse token.content = .error .blank ∨ token.Reads expression

/-- The content of a tag is a name. -/
def Token.Names (token : Token) (role : NameRole) (name : String) : Prop :=
  parseName role token.content = .ok name

/-- The content of a tag is blank or the given name. -/
def Token.FitsName (token : Token) (role : NameRole) (name : String) : Prop :=
  parseName role token.content = .error (.missing role) ∨ token.Names role name

/-- The content of a tag is blank. -/
def Token.IsBlank (token : Token) : Prop :=
  ∀ c ∈ token.content.toList, Text.isBlank c = true

theorem Token.IsBlank.fits {token : Token} (h : token.IsBlank) (expression : Expr) :
    token.Fits expression :=
  .inl (if_pos (List.all_eq_true.mpr h))

theorem Token.IsBlank.fitsName {token : Token} (h : token.IsBlank) (role : NameRole)
    (name : String) : token.FitsName role name := by
  have hstart : Text.trimStart token.content.toList = [] := List.dropWhile_eq_nil_iff.mpr h
  have htrim : Text.trim token.content.toList = [] := by
    rw [Text.trim, hstart]
    rfl
  left
  rw [parseName, htrim]
  rfl

/-- A closing tag without a label. -/
structure Token.IsBareClosing (token : Token) : Prop where
  kind : token.kind = .close
  blank : token.IsBlank

/-- The kind of the tag that opens a section of a polarity. -/
def TokenKind.ofSection (inverted : Bool) : TokenKind :=
  if inverted then .openInverted else .openSection

theorem TokenKind.ofSection_inj {inverted inverted' : Bool} :
    ofSection inverted = ofSection inverted' ↔ inverted = inverted' := by
  cases inverted <;> cases inverted' <;> simp [ofSection]

/-- The kind of the tag that writes a variable, escaped or not. -/
def TokenKind.ofVariable (escape : Bool) : TokenKind :=
  if escape then .escapedVariable else .unescapedVariable

/-- The tokens that leave no trace in a template. -/
def TokenKind.IsSilent (kind : TokenKind) : Prop :=
  kind = .setDelimiters ∨ kind = .comment ∨ kind = .pragma

/-- The kind of the scope of a section of a polarity. -/
def Scope.Kind.ofSection (inverted : Bool) : Scope.Kind :=
  if inverted then .inverted else .branch

theorem Scope.Kind.ofSection_inj {inverted inverted' : Bool} :
    Kind.ofSection inverted = .ofSection inverted' ↔ inverted = inverted' := by
  cases inverted <;> cases inverted' <;> simp [Kind.ofSection]

/-- The scope is that of a section of an expression and a polarity. -/
def Scope.IsSection (scope : Scope ρ) (expression : Expr) (inverted : Bool) : Prop :=
  scope.kind = .ofSection inverted ∧ scope.expression = some expression

namespace Setting

variable {setting : Setting} {token : Token}

theorem readExpression_eq_ok_iff {expression : Expr} :
    setting.readExpression token = .ok expression ↔ token.Reads expression := by
  rw [readExpression, Token.Reads]
  cases Expr.parse token.content <;> simp

theorem readName_eq_ok_iff {role : NameRole} {name : String} :
    setting.readName role token = .ok name ↔ token.Names role name := by
  rw [readName, Token.Names]
  cases parseName role token.content <;> simp

theorem readOptionalExpression_eq_some_iff {expression : Expr} :
    setting.readOptionalExpression token = .ok (some expression) ↔ token.Reads expression := by
  rw [readOptionalExpression, Token.Reads]
  cases Expr.parse token.content with
  | ok _ => simp
  | error error => cases error <;> simp [Expr.ParseError.isBlank]

theorem readOptionalExpression_eq_none_iff :
    setting.readOptionalExpression token = .ok none ↔
      Expr.parse token.content = .error .blank := by
  rw [readOptionalExpression]
  cases Expr.parse token.content with
  | ok _ => simp
  | error error => cases error <;> simp [Expr.ParseError.isBlank]

theorem readOptionalName_eq_some_iff {role : NameRole} {name : String} :
    setting.readOptionalName role token = .ok (some name) ↔ token.Names role name := by
  rw [readOptionalName, Token.Names]
  cases parseName role token.content with
  | ok _ => simp
  | error error => cases error <;> simp [NameError.isBlank]

/-- A name is only ever missing in the role that was asked for. -/
theorem eq_of_parseName_eq_missing {role role' : NameRole} {content : String}
    (h : parseName role content = .error (.missing role')) : role' = role := by
  rw [parseName] at h
  split at h
  · simp_all
  · split at h <;> simp_all

theorem readOptionalName_eq_none_iff {role : NameRole} :
    setting.readOptionalName role token = .ok none ↔
      parseName role token.content = .error (.missing role) := by
  rw [readOptionalName]
  cases h : parseName role token.content with
  | ok _ => simp
  | error error =>
    cases error with
    | missing role' =>
      obtain rfl := eq_of_parseName_eq_missing h
      simp [NameError.isBlank]
    | invalid role' => simp [NameError.isBlank]

end Setting

/-! ## One token -/

/-- The open tags and the state of the loader. -/
abbrev Progression (σ ρ : Type) : Type :=
  ScopeStack ρ × σ

/-- What a token that is accepted does to the open tags and to the state of the loader. -/
inductive ScopeStack.Advance (setting : Setting) (loader : Loader σ ρ) (token : Token) :
    Progression σ ρ → Progression σ ρ → Prop
  /-- A token that leaves no trace. -/
  | skip {stack : ScopeStack ρ} {state : σ} (hkind : token.kind.IsSilent) :
      Advance setting loader token (stack, state) (stack, state)
  /-- Text. -/
  | text {stack : ScopeStack ρ} {state : σ} (hkind : token.kind = .text) :
      Advance setting loader token (stack, state)
        (stack.append (.text token.line token.content), state)
  /-- A variable. -/
  | interpolation {stack : ScopeStack ρ} {state : σ} {escape : Bool} {expression : Expr}
      (hkind : token.kind = .ofVariable escape) (hreads : token.Reads expression) :
      Advance setting loader token (stack, state)
        (stack.append (.interpolation token.line expression escape), state)
  /-- An inclusion, whose template is loaded. -/
  | inclusion {stack : ScopeStack ρ} {state state' : σ} {name : String} {target : ρ}
      (hkind : token.kind = .inclusion) (hname : token.Names .template name)
      (hload : loader name setting.template state = (.ok target, state')) :
      Advance setting loader token (stack, state)
        (stack.append (.inclusion ⟨token.line, name, target⟩), state')
  /-- The start of a section, unless it continues the innermost one. -/
  | openSection {stack : ScopeStack ρ} {state : σ} {inverted : Bool} {expression : Expr}
      (hkind : token.kind = .ofSection inverted) (hreads : token.Reads expression)
      (hopens : ¬ stack.current.IsSection expression (!inverted)) :
      Advance setting loader token (stack, state)
        (stack.push ⟨.ofSection inverted, some token, some expression, none, []⟩, state)
  /-- The alternative of the innermost section. -/
  | alternative {scope below : Scope ρ} {enclosing : List (Scope ρ)} {state : σ} {inverted : Bool}
      {expression : Expr} (hkind : token.kind = .ofSection inverted)
      (hscope : scope.IsSection expression (!inverted)) (hfits : token.Fits expression) :
      Advance setting loader token (⟨scope, below :: enclosing⟩, state)
        (⟨⟨.ofSection inverted, some token, some expression, none, []⟩,
          below.append (.branch scope.line expression (!inverted) (scope.body setting.contentType)) ::
            enclosing⟩, state)
  /-- The start of a block. -/
  | openBlock {stack : ScopeStack ρ} {state : σ} {name : String}
      (hkind : token.kind = .openBlock) (hname : token.Names .block name) :
      Advance setting loader token (stack, state)
        (stack.push ⟨.block, some token, none, some name, []⟩, state)
  /-- The start of a layout. -/
  | openLayout {stack : ScopeStack ρ} {state : σ} {name : String}
      (hkind : token.kind = .openLayout) (hname : token.Names .template name) :
      Advance setting loader token (stack, state)
        (stack.push ⟨.layout, some token, none, some name, []⟩, state)
  /-- The end of a section. -/
  | closeSection {scope below : Scope ρ} {enclosing : List (Scope ρ)} {state : σ} {inverted : Bool}
      {expression : Expr} (hkind : token.kind = .close)
      (hscope : scope.IsSection expression inverted) (hfits : token.Fits expression) :
      Advance setting loader token (⟨scope, below :: enclosing⟩, state)
        (⟨below.append (.branch scope.line expression inverted (scope.body setting.contentType)),
          enclosing⟩, state)
  /-- The end of a block. -/
  | closeBlock {scope below : Scope ρ} {enclosing : List (Scope ρ)} {state : σ} {name : String}
      (hkind : token.kind = .close) (hscope : scope.kind = .block)
      (hname : scope.name = some name) (hfits : token.FitsName .block name) :
      Advance setting loader token (⟨scope, below :: enclosing⟩, state)
        (⟨below.append (.block ⟨(), scope.line, name, scope.body setting.contentType⟩), enclosing⟩,
          state)
  /-- The end of a layout, whose template is loaded. -/
  | closeLayout {scope below : Scope ρ} {enclosing : List (Scope ρ)} {state state' : σ}
      {name : String} {target : ρ} (hkind : token.kind = .close) (hscope : scope.kind = .layout)
      (hname : scope.name = some name) (hfits : token.FitsName .template name)
      (hload : loader name setting.template state = (.ok target, state')) :
      Advance setting loader token (⟨scope, below :: enclosing⟩, state)
        (⟨below.append (scope.toLayout setting.contentType name target), enclosing⟩, state')

/-- What a move comes to once the template that it may need is loaded. -/
def Move.Yields (setting : Setting) (loader : Loader σ ρ) (move : Move ρ) (state : σ)
    (stack' : ScopeStack ρ) (state' : σ) : Prop :=
  (move = .proceed stack' ∧ state' = state) ∨
    ∃ name citing resume target, move = .load name citing resume ∧
      loader name setting.template state = (.ok target, state') ∧ stack' = resume target

namespace ScopeStack

variable {setting : Setting} {loader : Loader σ ρ} {token : Token} {stack stack' : ScopeStack ρ}
  {state state' : σ}

/-! ### From moves to advances -/

theorem andThen_eq_proceed_iff {α : Type} {value : Except LocatedFailure α} {next : α → Move ρ} :
    Move.andThen value next = .proceed stack ↔ ∃ a, value = .ok a ∧ next a = .proceed stack := by
  cases value <;> simp [Move.andThen]

theorem andThen_eq_load_iff {α : Type} {value : Except LocatedFailure α} {next : α → Move ρ}
    {name : String} {citing : Option Token} {resume : ρ → ScopeStack ρ} :
    Move.andThen value next = .load name citing resume ↔
      ∃ a, value = .ok a ∧ next a = .load name citing resume := by
  cases value <;> simp [Move.andThen]

theorem ofStack_ne_load {result : Except ScopeBreach (ScopeStack ρ)} {name : String}
    {citing : Option Token} {resume : ρ → ScopeStack ρ} :
    Move.ofStack result ≠ .load name citing resume := by
  cases result <;> simp [Move.ofStack]

theorem ofStack_eq_proceed_iff {result : Except ScopeBreach (ScopeStack ρ)} :
    Move.ofStack result = .proceed stack ↔ result = .ok stack := by
  cases result <;> simp [Move.ofStack]

/-- Collapsing takes the innermost scope off the stack and puts a node in its place. -/
theorem collapse_eq_ok_iff {toNode : Scope ρ → Except ScopeBreach (Node Unit ρ)} :
    stack.collapse toNode = .ok stack' ↔
      ∃ below enclosing node, stack.enclosing = below :: enclosing ∧
        toNode stack.current = .ok node ∧ stack' = ⟨below.append node, enclosing⟩ := by
  rw [collapse, pop]
  cases stack.enclosing with
  | nil => simp [bind, Except.bind]
  | cons below enclosing =>
    cases htoNode : toNode stack.current with
    | error _ => simp [bind, Except.bind, htoNode]
    | ok node =>
      simp only [bind, Except.bind, pure, Except.pure, append, htoNode, Except.ok.injEq,
        List.cons.injEq]
      constructor
      · rintro rfl
        exact ⟨below, enclosing, node, ⟨rfl, rfl⟩, rfl, rfl⟩
      · rintro ⟨_, _, _, ⟨rfl, rfl⟩, rfl, rfl⟩
        rfl

theorem toBranch_eq_ok_iff {contentType : ContentType} {scope : Scope ρ} {node : Node Unit ρ} :
    scope.toBranch contentType = .ok node ↔
      ∃ expression, scope.expression = some expression ∧
        node = .branch scope.line expression (scope.kind = .inverted) (scope.body contentType) := by
  rw [Scope.toBranch]
  cases scope.expression <;> simp [eq_comm]

theorem toBlock_eq_ok_iff {contentType : ContentType} {scope : Scope ρ} {node : Node Unit ρ} :
    scope.toBlock contentType = .ok node ↔
      ∃ name, scope.name = some name ∧
        node = .block ⟨(), scope.line, name, scope.body contentType⟩ := by
  rw [Scope.toBlock]
  cases scope.name <;> simp [eq_comm]

theorem bind_eq_ok_iff {ε α β : Type} {x : Except ε α} {f : α → Except ε β} {b : β} :
    (x >>= f) = .ok b ↔ ∃ a, x = .ok a ∧ f a = .ok b := by
  cases x <;> simp [bind, Except.bind]

/-- Where closing the innermost scope as a section succeeds, that scope has an expression and is not
the last one. -/
theorem collapse_toBranch_eq_ok {contentType : ContentType}
    (h : stack.collapse (Scope.toBranch contentType) = .ok stack') :
    ∃ scope below enclosing expression, stack = ⟨scope, below :: enclosing⟩ ∧
      scope.expression = some expression ∧
      stack' = ⟨below.append (.branch scope.line expression (scope.kind = .inverted)
        (scope.body contentType)), enclosing⟩ := by
  obtain ⟨below, enclosing, node, henclosing, hnode, rfl⟩ := collapse_eq_ok_iff.mp h
  obtain ⟨expression, hexpression, rfl⟩ := toBranch_eq_ok_iff.mp hnode
  obtain ⟨scope, _⟩ := stack
  obtain rfl := henclosing
  exact ⟨scope, below, enclosing, expression, rfl, hexpression, rfl⟩

@[simp]
theorem ofSection_eq_inverted (inverted : Bool) :
    decide (Scope.Kind.ofSection inverted = .inverted) = inverted := by
  cases inverted <;> rfl

/-- The content of a tag fits an expression as soon as it is blank or that expression. -/
theorem fits_of_readOptionalExpression {content : Option Expr} {expression : Expr}
    (hread : setting.readOptionalExpression token = .ok content)
    (h : content = none ∨ content = some expression) : token.Fits expression := by
  obtain rfl | rfl := h
  · exact .inl (Setting.readOptionalExpression_eq_none_iff.mp hread)
  · exact .inr (Setting.readOptionalExpression_eq_some_iff.mp hread)

theorem advance_of_moveSection (inverted : Bool) (hkind : token.kind = .ofSection inverted)
    (h : stack.moveSection setting token (.ofSection inverted) (.ofSection !inverted) =
      .proceed stack') :
    Advance setting loader token (stack, state) (stack', state) := by
  obtain ⟨content, hread, h⟩ := andThen_eq_proceed_iff.mp h
  dsimp only at h
  split at h
  · rename_i hcontinues
    obtain ⟨_, hcollapse, h⟩ := bind_eq_ok_iff.mp (ofStack_eq_proceed_iff.mp h)
    obtain ⟨scope, below, enclosing, expression, rfl, hexpression, rfl⟩ :=
      collapse_toBranch_eq_ok hcollapse
    simp only [continues, hexpression, Bool.and_eq_true, Bool.or_eq_true, decide_eq_true_eq,
      Option.isNone_iff_eq_none] at hcontinues
    obtain ⟨hscope, hcontent⟩ := hcontinues
    obtain rfl := Except.ok.inj h
    have hadvance : Advance setting loader token (⟨scope, below :: enclosing⟩, state) _ :=
      .alternative hkind ⟨hscope, hexpression⟩ (fits_of_readOptionalExpression hread hcontent)
    simpa [push, hscope, hexpression] using hadvance
  · rename_i hcontinues
    split at h
    · rename_i expression
      obtain rfl := Move.proceed.inj h
      refine .openSection hkind (Setting.readOptionalExpression_eq_some_iff.mp hread) ?_
      rintro ⟨hscope, hexpression⟩
      simp [continues, hscope, hexpression] at hcontinues
    · cases h

theorem fitsName_of_readOptionalName {role : NameRole} {content : Option String} {name : String}
    (hread : setting.readOptionalName role token = .ok content)
    (h : content = none ∨ content = some name) : token.FitsName role name := by
  obtain rfl | rfl := h
  · exact .inl (Setting.readOptionalName_eq_none_iff.mp hread)
  · exact .inr (Setting.readOptionalName_eq_some_iff.mp hread)

theorem advance_of_moveVariable (escape : Bool) (hkind : token.kind = .ofVariable escape)
    (h : stack.moveVariable setting token escape = .proceed stack') :
    Advance setting loader token (stack, state) (stack', state) := by
  obtain ⟨expression, hread, h⟩ := andThen_eq_proceed_iff.mp h
  obtain rfl := Move.proceed.inj h
  exact .interpolation hkind (Setting.readExpression_eq_ok_iff.mp hread)

theorem advance_of_closeBranch (inverted : Bool) (hkind : token.kind = .close)
    (hscope : stack.current.kind = .ofSection inverted)
    (h : stack.closeBranch setting token = .proceed stack') :
    Advance setting loader token (stack, state) (stack', state) := by
  obtain ⟨content, hread, h⟩ := andThen_eq_proceed_iff.mp h
  split at h
  · rename_i hcontent
    obtain ⟨scope, below, enclosing, expression, rfl, hexpression, rfl⟩ :=
      collapse_toBranch_eq_ok (ofStack_eq_proceed_iff.mp h)
    simp only [hexpression, Bool.or_eq_true, decide_eq_true_eq, Option.isNone_iff_eq_none]
      at hcontent
    have hadvance : Advance setting loader token (⟨scope, below :: enclosing⟩, state) _ :=
      .closeSection hkind ⟨hscope, hexpression⟩ (fits_of_readOptionalExpression hread hcontent)
    simpa [show scope.kind = _ from hscope] using hadvance
  · cases h

theorem advance_of_closeBlock (hkind : token.kind = .close) (hscope : stack.current.kind = .block)
    (h : stack.closeBlock setting token = .proceed stack') :
    Advance setting loader token (stack, state) (stack', state) := by
  obtain ⟨content, hread, h⟩ := andThen_eq_proceed_iff.mp h
  split at h
  · rename_i hcontent
    obtain ⟨below, enclosing, node, henclosing, hnode, rfl⟩ :=
      collapse_eq_ok_iff.mp (ofStack_eq_proceed_iff.mp h)
    obtain ⟨name, hname, rfl⟩ := toBlock_eq_ok_iff.mp hnode
    obtain ⟨scope, _⟩ := stack
    obtain rfl := henclosing
    simp only [show scope.name = some name from hname, Bool.or_eq_true, decide_eq_true_eq,
      Option.isNone_iff_eq_none] at hcontent
    exact .closeBlock hkind hscope hname (fitsName_of_readOptionalName hread hcontent)
  · cases h

/-- A move without loading is an advance. -/
theorem advance_of_move (h : stack.move setting token = .proceed stack') :
    Advance setting loader token (stack, state) (stack', state) := by
  rw [move] at h
  split at h
  · rename_i hkind
    obtain rfl := Move.proceed.inj h
    exact .skip (.inl hkind)
  · rename_i hkind
    obtain rfl := Move.proceed.inj h
    exact .skip (.inr (.inl hkind))
  · rename_i hkind
    obtain rfl := Move.proceed.inj h
    exact .skip (.inr (.inr hkind))
  · rename_i hkind
    obtain rfl := Move.proceed.inj h
    exact .text hkind
  · exact advance_of_moveVariable true ‹_› h
  · exact advance_of_moveVariable false ‹_› h
  · exact advance_of_moveSection false ‹_› h
  · exact advance_of_moveSection true ‹_› h
  · rename_i hkind
    obtain ⟨name, hread, h⟩ := andThen_eq_proceed_iff.mp h
    obtain rfl := Move.proceed.inj h
    exact .openBlock hkind (Setting.readName_eq_ok_iff.mp hread)
  · rename_i hkind
    obtain ⟨name, hread, h⟩ := andThen_eq_proceed_iff.mp h
    obtain rfl := Move.proceed.inj h
    exact .openLayout hkind (Setting.readName_eq_ok_iff.mp hread)
  · rename_i hkind
    rw [moveClose] at h
    split at h
    · cases h
    · exact advance_of_closeBranch false hkind ‹_› h
    · exact advance_of_closeBranch true hkind ‹_› h
    · -- the end of a layout loads a template, so it never proceeds at once
      obtain ⟨content, _, h⟩ := andThen_eq_proceed_iff.mp h
      split at h
      · split at h <;> cases h
      · cases h
    · exact advance_of_closeBlock hkind ‹_› h
  · obtain ⟨name, _, h⟩ := andThen_eq_proceed_iff.mp h
    cases h

theorem moveSection_ne_load {kind opposite : Scope.Kind} {name : String} {citing : Option Token}
    {resume : ρ → ScopeStack ρ} :
    stack.moveSection setting token kind opposite ≠ .load name citing resume := by
  intro h
  obtain ⟨content, _, h⟩ := andThen_eq_load_iff.mp h
  dsimp only at h
  split at h
  · exact ofStack_ne_load h
  · split at h <;> cases h

theorem closeBranch_ne_load {name : String} {citing : Option Token} {resume : ρ → ScopeStack ρ} :
    stack.closeBranch setting token ≠ .load name citing resume := by
  intro h
  obtain ⟨content, _, h⟩ := andThen_eq_load_iff.mp h
  split at h
  · exact ofStack_ne_load h
  · cases h

theorem closeBlock_ne_load {name : String} {citing : Option Token} {resume : ρ → ScopeStack ρ} :
    stack.closeBlock setting token ≠ .load name citing resume := by
  intro h
  obtain ⟨content, _, h⟩ := andThen_eq_load_iff.mp h
  split at h
  · exact ofStack_ne_load h
  · cases h

theorem advance_of_closeLayout {name : String} {citing : Option Token} {resume : ρ → ScopeStack ρ}
    {target : ρ} (hkind : token.kind = .close) (hscope : stack.current.kind = .layout)
    (h : stack.closeLayout setting token = .load name citing resume)
    (hload : loader name setting.template state = (.ok target, state')) :
    Advance setting loader token (stack, state) (resume target, state') := by
  obtain ⟨content, hread, h⟩ := andThen_eq_load_iff.mp h
  split at h
  · rename_i hcontent
    obtain ⟨scope, enclosing⟩ := stack
    cases enclosing with
    | nil => simp [pop] at h
    | cons below enclosing =>
      cases hname : scope.name with
      | none => simp [pop, hname] at h
      | some own =>
        simp only [pop, hname, Move.load.injEq] at h
        obtain ⟨rfl, _, rfl⟩ := h
        simp only [hname, Bool.or_eq_true, decide_eq_true_eq, Option.isNone_iff_eq_none]
          at hcontent
        exact .closeLayout hkind hscope hname (fitsName_of_readOptionalName hread hcontent) hload
  · cases h

/-- A move that loads a template is an advance once the template is there. -/
theorem advance_of_move_load {name : String} {citing : Option Token} {resume : ρ → ScopeStack ρ}
    {target : ρ} (h : stack.move setting token = .load name citing resume)
    (hload : loader name setting.template state = (.ok target, state')) :
    Advance setting loader token (stack, state) (resume target, state') := by
  rw [move] at h
  split at h
  case h_5 | h_6 | h_9 | h_10 =>
    obtain ⟨_, _, h⟩ := andThen_eq_load_iff.mp h
    cases h
  case h_7 | h_8 => exact absurd h moveSection_ne_load
  case h_11 hkind =>
    rw [moveClose] at h
    split at h
    · cases h
    · exact absurd h closeBranch_ne_load
    · exact absurd h closeBranch_ne_load
    · exact advance_of_closeLayout hkind ‹_› h hload
    · exact absurd h closeBlock_ne_load
  case h_12 hkind =>
    obtain ⟨own, hread, h⟩ := andThen_eq_load_iff.mp h
    obtain ⟨rfl, _, rfl⟩ := Move.load.inj h
    exact .inclusion hkind (Setting.readName_eq_ok_iff.mp hread) hload
  all_goals cases h

/-! ### From advances to moves -/

theorem readOptionalExpression_of_fits (setting : Setting) {expression : Expr}
    (h : token.Fits expression) :
    ∃ content, setting.readOptionalExpression token = .ok content ∧
      (content = none ∨ content = some expression) := by
  obtain h | h := h
  · exact ⟨none, Setting.readOptionalExpression_eq_none_iff.mpr h, .inl rfl⟩
  · exact ⟨_, Setting.readOptionalExpression_eq_some_iff.mpr h, .inr rfl⟩

theorem readOptionalName_of_fitsName (setting : Setting) {role : NameRole} {name : String}
    (h : token.FitsName role name) :
    ∃ content, setting.readOptionalName role token = .ok content ∧
      (content = none ∨ content = some name) := by
  obtain h | h := h
  · exact ⟨none, Setting.readOptionalName_eq_none_iff.mpr h, .inl rfl⟩
  · exact ⟨_, Setting.readOptionalName_eq_some_iff.mpr h, .inr rfl⟩

/-- The innermost section collapses to its node. -/
theorem collapse_of_isSection {contentType : ContentType} {scope below : Scope ρ}
    {enclosing : List (Scope ρ)} {expression : Expr} {inverted : Bool}
    (hscope : scope.IsSection expression inverted) :
    collapse ⟨scope, below :: enclosing⟩ (Scope.toBranch contentType) =
      .ok ⟨below.append (.branch scope.line expression inverted (scope.body contentType)),
        enclosing⟩ := by
  refine collapse_eq_ok_iff.mpr ⟨below, enclosing, _, rfl,
    toBranch_eq_ok_iff.mpr ⟨expression, hscope.2, rfl⟩, ?_⟩
  rw [hscope.1, ofSection_eq_inverted]

theorem move_of_ofSection {inverted : Bool} (hkind : token.kind = .ofSection inverted) :
    stack.move setting token =
      stack.moveSection setting token (.ofSection inverted) (.ofSection !inverted) := by
  cases inverted <;> simp [move, hkind, TokenKind.ofSection, Scope.Kind.ofSection]

/-- Every advance is made by a move. -/
theorem yields_of_advance
    (h : Advance setting loader token (stack, state) (stack', state')) :
    (stack.move setting token).Yields setting loader state stack' state' := by
  cases h with
  | skip hkind =>
    left
    obtain h | h | h := hkind <;> simp [move, h]
  | text hkind =>
    left
    simp [move, hkind]
  | @interpolation _ _ escape _ hkind hreads =>
    left
    have hread : setting.readExpression token = _ := Setting.readExpression_eq_ok_iff.mpr hreads
    cases escape <;>
      simp [move, hkind, TokenKind.ofVariable, moveVariable, hread, Move.andThen]
  | inclusion hkind hname hload =>
    right
    have hread : setting.readName _ token = _ := Setting.readName_eq_ok_iff.mpr hname
    refine ⟨_, some token, fun target => stack.append (.inclusion ⟨token.line, _, target⟩), _, ?_,
      hload, rfl⟩
    simp [move, hkind, moveInclusion, hread, Move.andThen]
  | @openSection _ _ inverted expression hkind hreads hopens =>
    left
    have hread : setting.readOptionalExpression token = _ :=
      Setting.readOptionalExpression_eq_some_iff.mpr hreads
    have hcontinues : stack.continues (.ofSection !inverted) (some expression) = false := by
      rw [Bool.eq_false_iff]
      intro h
      simp only [continues, Option.isNone_some, Bool.false_or, Bool.and_eq_true,
        decide_eq_true_eq] at h
      exact hopens ⟨h.1, h.2.symm⟩
    rw [move_of_ofSection hkind, moveSection, hread]
    simp [Move.andThen, hcontinues]
  | @alternative scope below enclosing _ inverted expression hkind hscope hfits =>
    left
    obtain ⟨content, hread, hcontent⟩ := readOptionalExpression_of_fits setting hfits
    have hcontinues :
        continues ⟨scope, below :: enclosing⟩ (.ofSection !inverted) content = true := by
      simpa [continues, hscope.1, hscope.2] using hcontent
    refine ⟨?_, rfl⟩
    rw [move_of_ofSection hkind, moveSection, hread]
    simp only [Move.andThen, hcontinues, if_true, collapse_of_isSection hscope, hscope.2]
    rfl
  | openBlock hkind hname =>
    left
    have hread : setting.readName _ token = _ := Setting.readName_eq_ok_iff.mpr hname
    simp [move, hkind, moveNamed, hread, Move.andThen]
  | openLayout hkind hname =>
    left
    have hread : setting.readName _ token = _ := Setting.readName_eq_ok_iff.mpr hname
    simp [move, hkind, moveNamed, hread, Move.andThen]
  | @closeSection scope below enclosing _ inverted expression hkind hscope hfits =>
    left
    obtain ⟨content, hread, hcontent⟩ := readOptionalExpression_of_fits setting hfits
    have hmove : move setting ⟨scope, below :: enclosing⟩ token =
        closeBranch setting ⟨scope, below :: enclosing⟩ token := by
      cases inverted <;> simp [move, hkind, moveClose, hscope.1, Scope.Kind.ofSection]
    refine ⟨?_, rfl⟩
    rw [hmove, closeBranch, hread]
    simp only [Move.andThen, hscope.2, Bool.or_eq_true, Option.isNone_iff_eq_none,
      decide_eq_true_eq, hcontent, if_true, collapse_of_isSection hscope]
    rfl
  | @closeBlock scope below enclosing _ name hkind hscope hname hfits =>
    left
    obtain ⟨content, hread, hcontent⟩ := readOptionalName_of_fitsName setting hfits
    refine ⟨?_, rfl⟩
    simp only [move, hkind, moveClose, hscope, closeBlock, hread]
    simp only [Move.andThen, hname, Bool.or_eq_true, Option.isNone_iff_eq_none,
      decide_eq_true_eq, hcontent, if_true]
    exact ofStack_eq_proceed_iff.mpr (collapse_eq_ok_iff.mpr
      ⟨below, enclosing, _, rfl, toBlock_eq_ok_iff.mpr ⟨name, hname, rfl⟩, rfl⟩)
  | @closeLayout scope below enclosing _ _ name target hkind hscope hname hfits hload =>
    right
    obtain ⟨content, hread, hcontent⟩ := readOptionalName_of_fitsName setting hfits
    refine ⟨name, scope.opening,
      fun target => ⟨below.append (scope.toLayout setting.contentType name target), enclosing⟩,
      target, ?_, hload, rfl⟩
    simp only [move, hkind, moveClose, hscope, closeLayout, hread]
    simp only [Move.andThen, hname, Bool.or_eq_true, Option.isNone_iff_eq_none,
      decide_eq_true_eq, hcontent, if_true, pop]
    rfl

/-- What a move yields are exactly the advances by the token. -/
theorem yields_iff_advance :
    (stack.move setting token).Yields setting loader state stack' state' ↔
      Advance setting loader token (stack, state) (stack', state') := by
  constructor
  · rintro (⟨hmove, rfl⟩ | ⟨name, citing, resume, target, hmove, hload, rfl⟩)
    · exact advance_of_move hmove
    · exact advance_of_move_load hmove hload
  · exact yields_of_advance

end ScopeStack

end Logicless
