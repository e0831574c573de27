import Logicless.Proofs.Compile.Run

/-!
# The grammar of templates

The compiler keeps a stack of open tags and decides by the innermost one what a token does. Seen from
a distance it reads a grammar: a template is a sequence of items, and an item is a token on its own or
runs from an opening tag to the closing tag that belongs to it. A section has branches, and a tag
between two of them ends one and starts the next at once.

The grammar is not ambiguous where a tag could start a section or the next branch alike: directly
inside a branch, a section tag of the opposite polarity with blank content or with the same expression
always starts the next branch.

## Shape of the module

* `Forest`, `Item` and `Branches` are the grammar, with the nodes that are read.
* `run_of_forest` follows a derivation: its tokens are accepted on any stack, and the nodes are added
  to the innermost scope.
* `Started` says how the first tokens of an open scope begin an item, and `Parsed` how all tokens that
  were accepted so far are read, given the open tags. It holds of every stack that is reached
  (`Parsed.advance` is the step and `Parsed.run` the run).
* `compileTemplate_eq_ok_iff_forest` joins the two directions.
-/

namespace Logicless

/-- What stands for the templates of names, where it depends on the name and on the including template
alone. -/
abbrev Resolver (ρ : Type) : Type :=
  (name : String) → (relativeTo : Option String) → Except Failure ρ

/-- The loader that asks a resolver. -/
def Resolver.loader {σ ρ : Type} (resolver : Resolver ρ) : Loader σ ρ :=
  fun name relativeTo state => (resolver name relativeTo, state)

namespace Grammar

/-! ## The grammar -/

mutual

/-- A sequence of items. `around` is the branch that the sequence is directly inside of, given by the
expression and the polarity of its section. -/
inductive Forest {ρ : Type} (setting : Setting) (resolver : Resolver ρ) :
    (around : Option (Expr × Bool)) → List Token → List (Node Unit ρ) → Prop
  | nil {around : Option (Expr × Bool)} : Forest setting resolver around [] []
  | cons {around : Option (Expr × Bool)} {tokens tokens' : List Token}
      {nodes nodes' : List (Node Unit ρ)} (hitem : Item setting resolver around tokens nodes)
      (hforest : Forest setting resolver around tokens' nodes') :
      Forest setting resolver around (tokens ++ tokens') (nodes ++ nodes')

/-- A token on its own, or all tokens from an opening tag to its closing tag. -/
inductive Item {ρ : Type} (setting : Setting) (resolver : Resolver ρ) :
    (around : Option (Expr × Bool)) → List Token → List (Node Unit ρ) → Prop
  /-- A token that leaves no trace. -/
  | skip {around : Option (Expr × Bool)} {token : Token} (hkind : token.kind.IsSilent) :
      Item setting resolver around [token] []
  /-- Text. -/
  | text {around : Option (Expr × Bool)} {token : Token} (hkind : token.kind = .text) :
      Item setting resolver around [token] [.text token.line token.content]
  /-- A variable. -/
  | interpolation {around : Option (Expr × Bool)} {token : Token} {escape : Bool}
      {expression : Expr} (hkind : token.kind = .ofVariable escape)
      (hreads : token.Reads expression) :
      Item setting resolver around [token] [.interpolation token.line expression escape]
  /-- An inclusion. -/
  | inclusion {around : Option (Expr × Bool)} {token : Token} {name : String} {target : ρ}
      (hkind : token.kind = .inclusion) (hname : token.Names .template name)
      (hresolve : resolver name setting.template = .ok target) :
      Item setting resolver around [token] [.inclusion ⟨token.line, name, target⟩]
  /-- A section with its branches. Its opening tag is none that starts the next branch of the section
  around it. -/
  | section {around : Option (Expr × Bool)} {opening : Token} {inverted : Bool}
      {expression : Expr} {tokens : List Token} {nodes : List (Node Unit ρ)}
      (hkind : opening.kind = .ofSection inverted) (hreads : opening.Reads expression)
      (hopens : around ≠ some (expression, !inverted))
      (hbranches : Branches setting resolver expression inverted opening tokens nodes) :
      Item setting resolver around (opening :: tokens) nodes
  /-- A block. -/
  | block {around : Option (Expr × Bool)} {opening closing : Token} {name : String}
      {tokens : List Token} {nodes : List (Node Unit ρ)} (hkind : opening.kind = .openBlock)
      (hname : opening.Names .block name) (hforest : Forest setting resolver none tokens nodes)
      (hcloses : closing.kind = .close) (hfits : closing.FitsName .block name) :
      Item setting resolver around (opening :: (tokens ++ [closing]))
        [.block ⟨(), opening.line, name, ⟨(), setting.contentType, nodes⟩⟩]
  /-- A layout. -/
  | layout {around : Option (Expr × Bool)} {opening closing : Token} {name : String} {target : ρ}
      {tokens : List Token} {nodes : List (Node Unit ρ)} (hkind : opening.kind = .openLayout)
      (hname : opening.Names .template name) (hforest : Forest setting resolver none tokens nodes)
      (hcloses : closing.kind = .close) (hfits : closing.FitsName .template name)
      (hresolve : resolver name setting.template = .ok target) :
      Item setting resolver around (opening :: (tokens ++ [closing]))
        [.layout ⟨opening.line, ⟨opening.line, name, target⟩, ⟨(), setting.contentType, nodes⟩⟩]

/-- The branches of a section of an expression, from behind the tag `opening` that starts the first of
them to the closing tag. Each branch has the polarity opposite to the one before it. -/
inductive Branches {ρ : Type} (setting : Setting) (resolver : Resolver ρ) :
    (expression : Expr) → (inverted : Bool) → (opening : Token) → List Token →
      List (Node Unit ρ) → Prop
  /-- The last branch. -/
  | last {expression : Expr} {inverted : Bool} {opening closing : Token} {tokens : List Token}
      {nodes : List (Node Unit ρ)}
      (hforest : Forest setting resolver (some (expression, inverted)) tokens nodes)
      (hcloses : closing.kind = .close) (hfits : closing.Fits expression) :
      Branches setting resolver expression inverted opening (tokens ++ [closing])
        [.branch opening.line expression inverted ⟨(), setting.contentType, nodes⟩]
  /-- A branch with others behind it. -/
  | alternative {expression : Expr} {inverted : Bool} {opening next : Token}
      {tokens tokens' : List Token} {nodes nodes' : List (Node Unit ρ)}
      (hforest : Forest setting resolver (some (expression, inverted)) tokens nodes)
      (hkind : next.kind = .ofSection !inverted) (hfits : next.Fits expression)
      (hbranches : Branches setting resolver expression (!inverted) next tokens' nodes') :
      Branches setting resolver expression inverted opening (tokens ++ next :: tokens')
        (.branch opening.line expression inverted ⟨(), setting.contentType, nodes⟩ :: nodes')

end

end Grammar

/-! ## The innermost scope -/

section Scopes

variable {ρ : Type}

/-- The section that a scope is a branch of. -/
def Scope.section? (scope : Scope ρ) : Option (Expr × Bool) :=
  match scope.kind, scope.expression with
  | .branch, some expression => some (expression, false)
  | .inverted, some expression => some (expression, true)
  | _, _ => none

/-- A scope with more nodes. -/
def Scope.extend (scope : Scope ρ) (nodes : List (Node Unit ρ)) : Scope ρ :=
  { scope with nodes := scope.nodes ++ nodes }

/-- A stack with more nodes in the innermost scope. -/
def ScopeStack.extend (stack : ScopeStack ρ) (nodes : List (Node Unit ρ)) : ScopeStack ρ :=
  ⟨stack.current.extend nodes, stack.enclosing⟩

theorem Scope.Kind.ofSection_ne_block (inverted : Bool) : Kind.ofSection inverted ≠ .block := by
  cases inverted <;> simp [ofSection]

theorem Scope.Kind.ofSection_ne_layout (inverted : Bool) : Kind.ofSection inverted ≠ .layout := by
  cases inverted <;> simp [ofSection]

theorem Scope.section?_eq_some_iff {scope : Scope ρ} {expression : Expr} {inverted : Bool} :
    scope.section? = some (expression, inverted) ↔ scope.IsSection expression inverted := by
  rw [Scope.section?, Scope.IsSection]
  cases scope.kind <;> cases scope.expression <;> cases inverted <;> simp [Kind.ofSection]

@[simp]
theorem Scope.extend_nil (scope : Scope ρ) : scope.extend [] = scope := by
  simp [Scope.extend]

theorem Scope.extend_append (scope : Scope ρ) (nodes nodes' : List (Node Unit ρ)) :
    scope.extend (nodes ++ nodes') = (scope.extend nodes).extend nodes' := by
  simp [Scope.extend]

theorem Scope.extend_cons (scope : Scope ρ) (node : Node Unit ρ) (nodes : List (Node Unit ρ)) :
    scope.extend (node :: nodes) = (scope.append node).extend nodes :=
  scope.extend_append [node] nodes

end Scopes

/-! ## From derivations to runs -/

section

variable {σ ρ : Type} {setting : Setting} {resolver : Resolver ρ} {state : σ}

open Grammar

theorem load_of_resolve {name : String} {target : ρ}
    (h : resolver name setting.template = .ok target) :
    (resolver.loader : Loader σ ρ) name setting.template state = (.ok target, state) := by
  rw [Resolver.loader, h]

/-- The scope of a branch. -/
theorem section?_branch (inverted : Bool) (opening : Token) (expression : Expr)
    (nodes : List (Node Unit ρ)) :
    (⟨.ofSection inverted, some opening, some expression, none, nodes⟩ : Scope ρ).section? =
      some (expression, inverted) :=
  Scope.section?_eq_some_iff.mpr ⟨rfl, rfl⟩

/-- The next branch of the innermost section has the polarity opposite to the one of the section. -/
theorem ScopeStack.Advance.next {loader : Loader σ ρ} {token : Token} {scope below : Scope ρ}
    {enclosing : List (Scope ρ)} {inverted : Bool} {expression : Expr}
    (hkind : token.kind = .ofSection !inverted) (hscope : scope.IsSection expression inverted)
    (hfits : token.Fits expression) :
    ScopeStack.Advance setting loader token (⟨scope, below :: enclosing⟩, state)
      (⟨⟨.ofSection !inverted, some token, some expression, none, []⟩,
        below.append (.branch scope.line expression inverted (scope.body setting.contentType)) ::
          enclosing⟩, state) := by
  rw [← Bool.not_not inverted] at hscope
  have hadvance : ScopeStack.Advance setting loader token (⟨scope, below :: enclosing⟩, state) _ :=
    .alternative hkind hscope hfits
  rwa [Bool.not_not] at hadvance

mutual

/-- The tokens of a sequence of items are accepted where the innermost scope is the branch around
them, and their nodes are added to it. -/
theorem run_of_forest {around : Option (Expr × Bool)} {tokens : List Token}
    {nodes : List (Node Unit ρ)} (h : Forest setting resolver around tokens nodes)
    {stack : ScopeStack ρ} (haround : stack.current.section? = around) :
    Run setting resolver.loader tokens (stack, state) (stack.extend nodes, state) := by
  match h with
  | .nil =>
    rw [ScopeStack.extend, Scope.extend_nil]
    exact .nil
  | .cons hitem hforest =>
    rw [ScopeStack.extend, Scope.extend_append]
    exact (run_of_item hitem haround).append (run_of_forest hforest haround)

/-- The tokens of an item are accepted. -/
theorem run_of_item {around : Option (Expr × Bool)} {tokens : List Token}
    {nodes : List (Node Unit ρ)} (h : Item setting resolver around tokens nodes)
    {stack : ScopeStack ρ} (haround : stack.current.section? = around) :
    Run setting resolver.loader tokens (stack, state) (stack.extend nodes, state) := by
  match h with
  | .skip hkind =>
    rw [ScopeStack.extend, Scope.extend_nil]
    exact .single (.skip hkind)
  | .text hkind => exact .single (.text hkind)
  | .interpolation hkind hreads => exact .single (.interpolation hkind hreads)
  | .inclusion hkind hname hresolve =>
    exact .single (.inclusion hkind hname (load_of_resolve hresolve))
  | .section hkind hreads hopens hbranches =>
    refine .cons (.openSection hkind hreads ?_) (run_of_branches hbranches)
    rwa [← Scope.section?_eq_some_iff, haround]
  | .block hkind hname hforest hcloses hfits =>
    refine .cons (.openBlock hkind hname) ((run_of_forest hforest rfl).append ?_)
    exact .single (.closeBlock hcloses rfl rfl hfits)
  | .layout hkind hname hforest hcloses hfits hresolve =>
    refine .cons (.openLayout hkind hname) ((run_of_forest hforest rfl).append ?_)
    exact .single (.closeLayout hcloses rfl rfl hfits (load_of_resolve hresolve))

/-- The tokens of the branches of a section are accepted once the first of them is open. -/
theorem run_of_branches {expression : Expr} {inverted : Bool} {opening : Token}
    {tokens : List Token} {nodes : List (Node Unit ρ)}
    (h : Branches setting resolver expression inverted opening tokens nodes) {below : Scope ρ}
    {enclosing : List (Scope ρ)} :
    Run setting resolver.loader tokens
      (⟨⟨.ofSection inverted, some opening, some expression, none, []⟩, below :: enclosing⟩, state)
      (⟨below.extend nodes, enclosing⟩, state) := by
  match h with
  | .last hforest hcloses hfits =>
    refine (run_of_forest hforest (section?_branch inverted opening expression [])).append ?_
    exact .single (.closeSection hcloses ⟨rfl, rfl⟩ hfits)
  | .alternative hforest hkind hfits hbranches =>
    refine (run_of_forest hforest (section?_branch inverted opening expression [])).append ?_
    rw [Scope.extend_cons]
    refine .cons (.next hkind ⟨rfl, rfl⟩ hfits) (run_of_branches hbranches)

end

/-! ## From runs to derivations -/

/-- How the tokens `started` at the front of an open scope begin an item of the scope around it, where
`around` is what that scope is a branch of. The nodes `earlier` of the item are there already: they are
the branches of a section before the one that is open. -/
inductive Started (setting : Setting) (resolver : Resolver ρ) (around : Option (Expr × Bool)) :
    Scope ρ → (started : List Token) → (earlier : List (Node Unit ρ)) → Prop
  /-- A branch of a section is open. Whatever branches follow complete the item. -/
  | branch {started : List Token} {earlier collected : List (Node Unit ρ)} {opening : Token}
      {expression : Expr} {inverted : Bool}
      (hitem : ∀ rest more, Branches setting resolver expression inverted opening rest more →
        Item setting resolver around (started ++ rest) (earlier ++ more)) :
      Started setting resolver around
        ⟨.ofSection inverted, some opening, some expression, none, collected⟩ started earlier
  /-- A block is open. -/
  | block {collected : List (Node Unit ρ)} {opening : Token} {name : String}
      (hkind : opening.kind = .openBlock) (hname : opening.Names .block name) :
      Started setting resolver around ⟨.block, some opening, none, some name, collected⟩ [opening] []
  /-- A layout is open. -/
  | layout {collected : List (Node Unit ρ)} {opening : Token} {name : String}
      (hkind : opening.kind = .openLayout) (hname : opening.Names .template name) :
      Started setting resolver around ⟨.layout, some opening, none, some name, collected⟩ [opening] []

/-- How the tokens `read` that were accepted so far are read, given the open tags. The last nodes of
the innermost scope may be `pending`: they are branches of a section that is not closed yet, so no item
has been read that they belong to. -/
inductive Parsed (setting : Setting) (resolver : Resolver ρ) :
    ScopeStack ρ → (read : List Token) → (pending : List (Node Unit ρ)) → Prop
  /-- No tag is open. -/
  | root {tokens : List Token} {collected nodes pending : List (Node Unit ρ)}
      (hforest : Forest setting resolver none tokens nodes)
      (hcollected : collected = nodes ++ pending) :
      Parsed setting resolver ⟨⟨.root, none, none, none, collected⟩, []⟩ tokens pending
  /-- The innermost open tag starts an item, and behind it a sequence of items has been read. -/
  | opened {scope below : Scope ρ} {enclosing : List (Scope ρ)} {before started tokens : List Token}
      {earlier nodes pending : List (Node Unit ρ)}
      (hbelow : Parsed setting resolver ⟨below, enclosing⟩ before earlier)
      (hstarted : Started setting resolver below.section? scope started earlier)
      (hforest : Forest setting resolver scope.section? tokens nodes)
      (hcollected : scope.nodes = nodes ++ pending) :
      Parsed setting resolver ⟨scope, below :: enclosing⟩ (before ++ (started ++ tokens)) pending

/-- The nodes of an open scope play no part in how it started. -/
theorem Started.extend {around : Option (Expr × Bool)} {scope : Scope ρ} {started : List Token}
    {earlier : List (Node Unit ρ)} (h : Started setting resolver around scope started earlier)
    (nodes : List (Node Unit ρ)) :
    Started setting resolver around (scope.extend nodes) started earlier := by
  cases h with
  | branch hitem => exact .branch hitem
  | block hkind hname => exact .block hkind hname
  | layout hkind hname => exact .layout hkind hname

/-- A sequence of items with one more item. -/
theorem Grammar.Forest.concat {around : Option (Expr × Bool)} {tokens tokens' : List Token}
    {nodes nodes' : List (Node Unit ρ)} (h : Forest setting resolver around tokens nodes)
    (hitem : Item setting resolver around tokens' nodes') :
    Forest setting resolver around (tokens ++ tokens') (nodes ++ nodes') := by
  match h with
  | .nil => simpa using Forest.cons hitem .nil
  | .cons hitem' hforest =>
    rw [List.append_assoc, List.append_assoc]
    exact .cons hitem' (hforest.concat hitem)

namespace Parsed

variable {stack stack' : ScopeStack ρ} {read tokens : List Token}
  {pending nodes : List (Node Unit ρ)} {token : Token}

theorem initial : Parsed setting resolver .initial [] [] :=
  .root .nil rfl

/-- Nodes that no item has been read for stay pending. -/
theorem suspend (h : Parsed setting resolver stack read pending) (nodes : List (Node Unit ρ)) :
    Parsed setting resolver (stack.extend nodes) read (pending ++ nodes) := by
  cases h with
  | root hforest hcollected => exact .root hforest (by simp [hcollected])
  | opened hbelow hstarted hforest hcollected =>
    exact .opened hbelow (hstarted.extend nodes) hforest (by simp [Scope.extend, hcollected])

/-- With the item that they belong to, no nodes are pending any more. -/
theorem absorb (h : Parsed setting resolver stack read pending)
    (hitem : Item setting resolver stack.current.section? tokens (pending ++ nodes)) :
    Parsed setting resolver (stack.extend nodes) (read ++ tokens) [] := by
  cases h with
  | root hforest hcollected => exact .root (hforest.concat hitem) (by simp [hcollected])
  | opened hbelow hstarted hforest hcollected =>
    rw [List.append_assoc, List.append_assoc]
    exact .opened hbelow (hstarted.extend nodes) (hforest.concat hitem)
      (by simp [Scope.extend, hcollected])

/-- The branches of the innermost section, once it is closed, make an item of the scope below. -/
theorem of_branch {scope below : Scope ρ} {enclosing : List (Scope ρ)} {expression : Expr}
    {inverted : Bool} (h : Parsed setting resolver ⟨scope, below :: enclosing⟩ read [])
    (hscope : scope.IsSection expression inverted) :
    ∃ before started tokens earlier opening, read = before ++ (started ++ tokens) ∧
      scope.opening = some opening ∧ Parsed setting resolver ⟨below, enclosing⟩ before earlier ∧
      Forest setting resolver (some (expression, inverted)) tokens scope.nodes ∧
      ∀ rest more, Branches setting resolver expression inverted opening rest more →
        Item setting resolver below.section? (started ++ rest) (earlier ++ more) := by
  rw [← Scope.section?_eq_some_iff] at hscope
  cases h with
  | opened hbelow hstarted hforest hcollected =>
    rw [hscope] at hforest
    rw [hcollected, List.append_nil]
    cases hstarted with
    | branch hitem =>
      rw [section?_branch] at hscope
      obtain ⟨rfl, rfl⟩ := Prod.mk.inj (Option.some.inj hscope)
      exact ⟨_, _, _, _, _, rfl, rfl, hbelow, hforest, hitem⟩
    | block => cases hscope
    | layout => cases hscope

/-- The end of a branch that another branch follows. -/
theorem alternative {scope below : Scope ρ} {enclosing : List (Scope ρ)} {expression : Expr}
    {inverted : Bool} (h : Parsed setting resolver ⟨scope, below :: enclosing⟩ read [])
    (hkind : token.kind = .ofSection inverted) (hscope : scope.IsSection expression (!inverted))
    (hfits : token.Fits expression) :
    Parsed setting resolver
      ⟨⟨.ofSection inverted, some token, some expression, none, []⟩,
        below.append (.branch scope.line expression (!inverted) (scope.body setting.contentType)) ::
          enclosing⟩ (read ++ [token]) [] := by
  obtain ⟨before, started, tokens, earlier, opening, rfl, hopening, hbelow, hforest, hitem⟩ :=
    h.of_branch hscope
  have hline : scope.line = opening.line := by rw [Scope.line, hopening]
  rw [hline]
  -- the branch that ends is pending until the section is closed
  have hpending := hbelow.suspend
    [.branch opening.line expression (!inverted) (scope.body setting.contentType)]
  have hnext : ∀ rest more, Branches setting resolver expression inverted token rest more →
      Item setting resolver below.section? ((started ++ (tokens ++ [token])) ++ rest)
        ((earlier ++
          [.branch opening.line expression (!inverted) (scope.body setting.contentType)]) ++
            more) := by
    intro rest more hbranches
    rw [← Bool.not_not inverted] at hkind hbranches
    have hitem := hitem _ _ (.alternative hforest hkind hfits hbranches)
    simpa [Scope.body] using hitem
  have hparsed : Parsed setting resolver
      ⟨⟨.ofSection inverted, some token, some expression, none, []⟩,
        below.append (.branch opening.line expression (!inverted) (scope.body setting.contentType)) ::
          enclosing⟩ (before ++ ((started ++ (tokens ++ [token])) ++ [])) [] :=
    .opened hpending (.branch hnext) .nil rfl
  simpa using hparsed

/-- The end of a section. -/
theorem closeSection {scope below : Scope ρ} {enclosing : List (Scope ρ)} {expression : Expr}
    {inverted : Bool} (h : Parsed setting resolver ⟨scope, below :: enclosing⟩ read [])
    (hkind : token.kind = .close) (hscope : scope.IsSection expression inverted)
    (hfits : token.Fits expression) :
    Parsed setting resolver
      ⟨below.append (.branch scope.line expression inverted (scope.body setting.contentType)),
        enclosing⟩ (read ++ [token]) [] := by
  obtain ⟨before, started, tokens, earlier, opening, rfl, hopening, hbelow, hforest, hitem⟩ :=
    h.of_branch hscope
  have hline : scope.line = opening.line := by rw [Scope.line, hopening]
  rw [hline, List.append_assoc, List.append_assoc]
  exact hbelow.absorb (hitem _ _ (.last hforest hkind hfits))

/-- The end of a block. -/
theorem closeBlock {scope below : Scope ρ} {enclosing : List (Scope ρ)} {name : String}
    (h : Parsed setting resolver ⟨scope, below :: enclosing⟩ read [])
    (hkind : token.kind = .close) (hscope : scope.kind = .block) (hname : scope.name = some name)
    (hfits : token.FitsName .block name) :
    Parsed setting resolver
      ⟨below.append (.block ⟨(), scope.line, name, scope.body setting.contentType⟩), enclosing⟩
      (read ++ [token]) [] := by
  cases h with
  | opened hbelow hstarted hforest hcollected =>
    rw [List.append_nil] at hcollected
    subst hcollected
    cases hstarted with
    | branch => exact absurd hscope (Scope.Kind.ofSection_ne_block _)
    | layout => cases hscope
    | block hopening hnames =>
      obtain rfl := Option.some.inj hname
      rw [List.append_assoc]
      exact hbelow.absorb (.block hopening hnames hforest hkind hfits)

/-- The end of a layout. -/
theorem closeLayout {scope below : Scope ρ} {enclosing : List (Scope ρ)} {name : String}
    {target : ρ} (h : Parsed setting resolver ⟨scope, below :: enclosing⟩ read [])
    (hkind : token.kind = .close) (hscope : scope.kind = .layout) (hname : scope.name = some name)
    (hfits : token.FitsName .template name)
    (hresolve : resolver name setting.template = .ok target) :
    Parsed setting resolver
      ⟨below.append (scope.toLayout setting.contentType name target), enclosing⟩
      (read ++ [token]) [] := by
  cases h with
  | opened hbelow hstarted hforest hcollected =>
    rw [List.append_nil] at hcollected
    subst hcollected
    cases hstarted with
    | branch => exact absurd hscope (Scope.Kind.ofSection_ne_layout _)
    | block => cases hscope
    | layout hopening hnames =>
      obtain rfl := Option.some.inj hname
      rw [List.append_assoc]
      exact hbelow.absorb (.layout hopening hnames hforest hkind hfits hresolve)

/-- An accepted token is read with the tokens before it. -/
theorem advance {state' : σ} (h : Parsed setting resolver stack read [])
    (hadvance : ScopeStack.Advance setting resolver.loader token (stack, state) (stack', state')) :
    Parsed setting resolver stack' (read ++ [token]) [] := by
  cases hadvance with
  | skip hkind =>
    have hparsed : Parsed setting resolver (stack.extend []) (read ++ [token]) [] :=
      h.absorb (.skip hkind)
    rwa [ScopeStack.extend, Scope.extend_nil] at hparsed
  | text hkind => exact h.absorb (.text hkind)
  | interpolation hkind hreads => exact h.absorb (.interpolation hkind hreads)
  | inclusion hkind hname hload =>
    exact h.absorb (.inclusion hkind hname (congrArg Prod.fst hload))
  | @openSection _ _ inverted expression hkind hreads hopens =>
    rw [← Scope.section?_eq_some_iff] at hopens
    -- whatever branches follow, together with this token they are an item
    have hitem : ∀ rest more, Branches setting resolver expression inverted token rest more →
        Item setting resolver stack.current.section? ([token] ++ rest) ([] ++ more) :=
      fun rest more hbranches => .section hkind hreads hopens hbranches
    exact .opened h (.branch hitem) .nil rfl
  | openBlock hkind hname => exact .opened h (.block hkind hname) .nil rfl
  | openLayout hkind hname => exact .opened h (.layout hkind hname) .nil rfl
  | alternative hkind hscope hfits => exact h.alternative hkind hscope hfits
  | closeSection hkind hscope hfits => exact h.closeSection hkind hscope hfits
  | closeBlock hkind hscope hname hfits => exact h.closeBlock hkind hscope hname hfits
  | closeLayout hkind hscope hname hfits hload =>
    exact h.closeLayout hkind hscope hname hfits (congrArg Prod.fst hload)

/-- Tokens that are all accepted are read. -/
theorem run {p q : Progression σ ρ} (h : Parsed setting resolver p.1 read [])
    (hrun : Run setting resolver.loader tokens p q) :
    Parsed setting resolver q.1 (read ++ tokens) [] := by
  induction hrun generalizing read with
  | nil => rwa [List.append_nil]
  | @cons token tokens p q r hadvance _ ih =>
    have hparsed := ih (h.advance hadvance)
    rwa [List.append_assoc, List.singleton_append] at hparsed

end Parsed

/-! ## The templates that compile -/

/-- A list of tokens compiles to a template exactly if the nodes of the template are derived from it by
the grammar. -/
theorem compileTemplate_eq_ok_iff_forest (setting : Setting) (resolver : Resolver ρ)
    (tokens : List Token) (state : σ) (template : Template Unit ρ) :
    (compileTemplate setting (some resolver.loader) (.ofTokens tokens) state).1 = .ok template ↔
      ∃ nodes, Forest setting resolver none tokens nodes ∧
        template = ⟨(), setting.contentType, nodes⟩ := by
  constructor
  · intro hcompile
    obtain ⟨_, scope, rfl, hrun⟩ := compileTemplate_eq_ok_iff.mp (Prod.ext hcompile rfl)
    have hparsed := Parsed.initial.run hrun
    cases hparsed with
    | root hforest hcollected =>
      rw [List.append_nil] at hcollected
      exact ⟨_, hforest, by rw [Scope.body, hcollected]⟩
  · rintro ⟨nodes, hforest, rfl⟩
    have hrun : Run setting resolver.loader tokens (.initial, state)
        (ScopeStack.initial.extend nodes, state) := run_of_forest hforest rfl
    have hcompile : compileTemplate setting (some resolver.loader) (.ofTokens tokens) state =
        (.ok ⟨(), setting.contentType, nodes⟩, state) :=
      compileTemplate_eq_ok_iff.mpr ⟨rfl, ScopeStack.initial.current.extend nodes, rfl, hrun⟩
    rw [hcompile]

end

end Logicless
