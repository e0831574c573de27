import Logicless.Proofs.Compile.Shape
import Mathlib.Data.List.Forall2

/-!
# Tokens and the nodes that they become

A node gets into a template when its tag is closed, and the tag that starts the next branch of a section
closes one branch and opens another. All the same, no token is lost, and none changes its place: going
through a template in the order in which it is written meets one node for each token that is neither
silent nor a closing tag, in the order of the tokens.

## Shape of the proof

* `visitsAfter` goes through a list of nodes, depth first. A visit knows the sibling right before its
  node, since a tag with blank content takes its expression from there.
* `Token.Becomes` says which visits a token accounts for.
* `ScopeStack.Traced` is the invariant of the compiler. Each open scope splits the tokens that were read:
  its opening token has not become a node yet but is bound to (`Scope.OpenedBy`), those before it are in
  the scopes below, and those behind it have become the nodes of the scope.
-/

namespace Logicless

/-! ## Going through a template -/

/-- A node with the sibling right before it, if there is one. -/
structure Visit (μ ρ : Type) where
  /-- The sibling. -/
  previous : Option (Node μ ρ)
  /-- The node. -/
  node : Node μ ρ

mutual

/-- The visits of a node and of all nodes inside it, the outer ones first. -/
def Node.visits {μ ρ : Type} (previous : Option (Node μ ρ)) : Node μ ρ → List (Visit μ ρ)
  | .branch line expression inverted body =>
    ⟨previous, .branch line expression inverted body⟩ :: visitsAfter none body.nodes
  | .block part => ⟨previous, .block part⟩ :: visitsAfter none part.body.nodes
  | .layout outer => ⟨previous, .layout outer⟩ :: visitsAfter none outer.overrides.nodes
  | .text line text => [⟨previous, .text line text⟩]
  | .interpolation line expression escape => [⟨previous, .interpolation line expression escape⟩]
  | .inclusion reference => [⟨previous, .inclusion reference⟩]
termination_by structural node => node

/-- The visits of some nodes behind a sibling, in order. -/
def visitsAfter {μ ρ : Type} (previous : Option (Node μ ρ)) : List (Node μ ρ) → List (Visit μ ρ)
  | [] => []
  | node :: nodes => node.visits previous ++ visitsAfter (some node) nodes
termination_by structural nodes => nodes

end

variable {σ ρ : Type}

theorem visitsAfter_append (previous : Option (Node Unit ρ)) (nodes : List (Node Unit ρ))
    (node : Node Unit ρ) :
    visitsAfter previous (nodes ++ [node]) =
      visitsAfter previous nodes ++ node.visits (nodes.getLast?.or previous) := by
  induction nodes generalizing previous with
  | nil => simp [visitsAfter]
  | cons first nodes ih =>
    have hlast : (first :: nodes).getLast?.or previous = nodes.getLast?.or (some first) := by
      rw [List.getLast?_cons]
      cases nodes.getLast? <;> rfl
    simp only [List.cons_append, visitsAfter, ih, hlast, List.append_assoc]

/-! ## What becomes of a token -/

/-- The tokens that become nodes: all but the silent ones and closing tags. -/
def TokenKind.makesNode : TokenKind → Bool
  | setDelimiters | comment | pragma | close => false
  | text | escapedVariable | unescapedVariable | openSection | openInverted | openBlock | openLayout
  | inclusion => true

/-- The token has become the node of a visit. The node has the kind and the line of the token, and the
expression or the name that its content is read as. A section whose tag is blank has the expression of the
section right before it, which is of the opposite polarity. -/
inductive Token.Becomes (token : Token) : Visit Unit ρ → Prop
  /-- Text. -/
  | text {previous : Option (Node Unit ρ)} (hkind : token.kind = .text) :
      Becomes token ⟨previous, .text token.line token.content⟩
  /-- A variable. -/
  | interpolation {previous : Option (Node Unit ρ)} {escape : Bool} {expression : Expr}
      (hkind : token.kind = .ofVariable escape) (hreads : token.Reads expression) :
      Becomes token ⟨previous, .interpolation token.line expression escape⟩
  /-- An inclusion. -/
  | inclusion {previous : Option (Node Unit ρ)} {name : String} {target : ρ}
      (hkind : token.kind = .inclusion) (hname : token.Names .template name) :
      Becomes token ⟨previous, .inclusion ⟨token.line, name, target⟩⟩
  /-- A section whose tag has an expression. -/
  | section {previous : Option (Node Unit ρ)} {inverted : Bool} {expression : Expr}
      {body : Template Unit ρ} (hkind : token.kind = .ofSection inverted)
      (hreads : token.Reads expression) :
      Becomes token ⟨previous, .branch token.line expression inverted body⟩
  /-- A section whose tag is blank. -/
  | alternative {sibling : Node Unit ρ} {inverted : Bool} {expression : Expr}
      {body : Template Unit ρ} (hkind : token.kind = .ofSection inverted)
      (hblank : Expr.parse token.content = .error .blank)
      (hsibling : sibling.section? = some (expression, !inverted)) :
      Becomes token ⟨some sibling, .branch token.line expression inverted body⟩
  /-- A block. -/
  | block {previous : Option (Node Unit ρ)} {name : String} {body : Template Unit ρ}
      (hkind : token.kind = .openBlock) (hname : token.Names .block name) :
      Becomes token ⟨previous, .block ⟨(), token.line, name, body⟩⟩
  /-- A layout. -/
  | layout {previous : Option (Node Unit ρ)} {name : String} {target : ρ}
      {overrides : Template Unit ρ} (hkind : token.kind = .openLayout)
      (hname : token.Names .template name) :
      Becomes token ⟨previous, .layout ⟨token.line, ⟨token.line, name, target⟩, overrides⟩⟩

theorem TokenKind.makesNode_of_isSilent {kind : TokenKind} (h : kind.IsSilent) :
    kind.makesNode = false := by
  obtain rfl | rfl | rfl := h <;> rfl

theorem TokenKind.makesNode_ofSection (inverted : Bool) :
    (TokenKind.ofSection inverted).makesNode = true := by
  cases inverted <;> rfl

theorem TokenKind.makesNode_ofVariable (escape : Bool) :
    (TokenKind.ofVariable escape).makesNode = true := by
  cases escape <;> rfl

/-! ## Open scopes -/

/-- Whatever node the scope becomes when it is closed, behind the sibling `previous`, the token will have
become this node. -/
structure Scope.OpenedBy (scope : Scope ρ) (token : Token) (previous : Option (Node Unit ρ)) :
    Prop where
  branch : ∀ expression inverted, scope.IsSection expression inverted → ∀ body,
    token.Becomes ⟨previous, .branch scope.line expression inverted body⟩
  block : ∀ name, scope.kind = .block → scope.name = some name → ∀ body,
    token.Becomes ⟨previous, .block ⟨(), scope.line, name, body⟩⟩
  layout : ∀ name, scope.kind = .layout → scope.name = some name → ∀ target overrides,
    token.Becomes ⟨previous, .layout ⟨scope.line, ⟨scope.line, name, target⟩, overrides⟩⟩

namespace Scope.OpenedBy

variable {token : Token} {previous : Option (Node Unit ρ)}

/-- The scope of a section, whether or not its tag has an expression. -/
theorem of_section {inverted : Bool} {expression : Expr}
    (h : ∀ body, token.Becomes ⟨previous, .branch token.line expression inverted body⟩) :
    OpenedBy ⟨.ofSection inverted, some token, some expression, none, []⟩ token previous where
  branch := by
    rintro expression' inverted' ⟨hkind, hexpression⟩ body
    obtain rfl := Option.some.inj hexpression
    have hinverted : inverted = inverted' := by
      cases inverted <;> cases inverted' <;> simp [Kind.ofSection] at hkind ⊢
    subst hinverted
    exact h body
  block := by
    intro name hkind
    exact absurd hkind (Kind.ofSection_ne_block inverted)
  layout := by
    intro name hkind
    exact absurd hkind (Kind.ofSection_ne_layout inverted)

theorem of_block {name : String} (hkind : token.kind = .openBlock) (hname : token.Names .block name) :
    OpenedBy ⟨.block, some token, none, some name, []⟩ token previous where
  branch := by
    rintro expression inverted ⟨_, hexpression⟩
    cases hexpression
  block := by
    rintro _ _ ⟨⟩ body
    exact .block hkind hname
  layout := by
    rintro _ ⟨⟩

theorem of_layout {name : String} (hkind : token.kind = .openLayout)
    (hname : token.Names .template name) :
    OpenedBy ⟨.layout, some token, none, some name, []⟩ token previous where
  branch := by
    rintro expression inverted ⟨_, hexpression⟩
    cases hexpression
  block := by
    rintro _ ⟨⟩
  layout := by
    rintro _ _ ⟨⟩ target overrides
    exact .layout hkind hname

/-- What a scope becomes does not depend on the nodes inside it. -/
theorem append {scope : Scope ρ} (h : scope.OpenedBy token previous) (node : Node Unit ρ) :
    (scope.append node).OpenedBy token previous where
  branch := h.branch
  block := h.block
  layout := h.layout

end Scope.OpenedBy

/-- The tokens have become the nodes, one token for each node that is met. -/
def Traces (tokens : List Token) (visits : List (Visit Unit ρ)) : Prop :=
  List.Forall₂ Token.Becomes tokens visits

/-- What has become of the tokens `read`, given the open tags. -/
inductive ScopeStack.Traced : (read : List Token) → ScopeStack ρ → Prop
  /-- No tag is open. -/
  | root {read : List Token} {scope : Scope ρ} (hread : Traces read (visitsAfter none scope.nodes)) :
      Traced read ⟨scope, []⟩
  /-- A tag is open, inside of whatever else is open. -/
  | opened {outside inside : List Token} {opening : Token} {scope below : Scope ρ}
      {enclosing : List (Scope ρ)} (hbelow : Traced outside ⟨below, enclosing⟩)
      (hopens : scope.OpenedBy opening below.nodes.getLast?)
      (hinside : Traces inside (visitsAfter none scope.nodes)) :
      Traced (outside ++ opening :: inside) ⟨scope, below :: enclosing⟩

namespace ScopeStack.Traced

variable {setting : Setting} {loader : Loader σ ρ} {stack stack' : ScopeStack ρ}
  {scope below : Scope ρ} {enclosing : List (Scope ρ)} {token : Token} {read tokens : List Token}
  {node : Node Unit ρ}

theorem initial : Traced [] (ScopeStack.initial : ScopeStack ρ) :=
  .root .nil

/-- The nodes of the innermost scope with one more behind them. -/
theorem traces_append (h : Traces read (visitsAfter none scope.nodes))
    (hnode : Traces tokens (node.visits scope.nodes.getLast?)) :
    Traces (read ++ tokens) (visitsAfter none (scope.append node).nodes) := by
  rw [Scope.append, visitsAfter_append, Option.or_none]
  exact List.rel_append h hnode

/-- Once no tag is open, all that was read has become nodes. -/
theorem traces (h : Traced read ⟨scope, []⟩) : Traces read (visitsAfter none scope.nodes) := by
  cases h with
  | root hread => exact hread

/-- Some tokens become one more node of the innermost scope. -/
theorem append (h : Traced read stack)
    (hnode : Traces tokens (node.visits stack.current.nodes.getLast?)) :
    Traced (read ++ tokens) (stack.append node) := by
  cases h with
  | root hread => exact .root (traces_append hread hnode)
  | opened hbelow hopens hinside =>
    rw [List.append_assoc, List.cons_append]
    exact .opened hbelow (hopens.append node) (traces_append hinside hnode)

/-- A token opens a scope. -/
theorem push (h : Traced read stack) (hopens : scope.OpenedBy token stack.current.nodes.getLast?)
    (hscope : scope.nodes = []) : Traced (read ++ [token]) (stack.push scope) := by
  refine .opened h hopens ?_
  rw [hscope]
  exact .nil

/-- The innermost scope is closed: all that was read becomes nodes of the scope below, where the scope
itself becomes a node that its opening token becomes. -/
theorem collapse (h : Traced read ⟨scope, below :: enclosing⟩)
    (hvisits : ∀ previous, node.visits previous = ⟨previous, node⟩ :: visitsAfter none scope.nodes)
    (hnode : ∀ token previous, scope.OpenedBy token previous → token.Becomes ⟨previous, node⟩) :
    Traced read ⟨below.append node, enclosing⟩ := by
  cases h with
  | opened hbelow hopens hinside =>
    refine hbelow.append ?_
    rw [hvisits]
    exact .cons (hnode _ _ hopens) hinside

theorem collapse_section {expression : Expr} {inverted : Bool} (contentType : ContentType)
    (h : Traced read ⟨scope, below :: enclosing⟩) (hscope : scope.IsSection expression inverted) :
    Traced read
      ⟨below.append (.branch scope.line expression inverted (scope.body contentType)), enclosing⟩ :=
  h.collapse (fun _ => rfl) fun _ _ hopens => hopens.branch _ _ hscope _

theorem collapse_block {name : String} (contentType : ContentType)
    (h : Traced read ⟨scope, below :: enclosing⟩) (hscope : scope.kind = .block)
    (hname : scope.name = some name) :
    Traced read
      ⟨below.append (.block ⟨(), scope.line, name, scope.body contentType⟩), enclosing⟩ :=
  h.collapse (fun _ => rfl) fun _ _ hopens => hopens.block _ hscope hname _

theorem collapse_layout {name : String} (contentType : ContentType) (target : ρ)
    (h : Traced read ⟨scope, below :: enclosing⟩) (hscope : scope.kind = .layout)
    (hname : scope.name = some name) :
    Traced read ⟨below.append (scope.toLayout contentType name target), enclosing⟩ :=
  h.collapse (fun _ => rfl) fun _ _ hopens => hopens.layout _ hscope hname _ _

/-- A token that is accepted becomes a node, at once or when its tag is closed, unless it is silent or a
closing tag itself. -/
theorem advance {state state' : σ}
    (hadvance : Advance setting loader token (stack, state) (stack', state'))
    (h : Traced read stack) :
    Traced (read ++ [token].filter (·.kind.makesNode)) stack' := by
  cases hadvance with
  | skip hkind => simpa [TokenKind.makesNode_of_isSilent hkind] using h
  | text hkind =>
    rw [List.filter_singleton, hkind]
    exact h.append (.cons (.text hkind) .nil)
  | interpolation hkind hreads =>
    rw [List.filter_singleton, hkind, TokenKind.makesNode_ofVariable]
    exact h.append (.cons (.interpolation hkind hreads) .nil)
  | inclusion hkind hname hload =>
    rw [List.filter_singleton, hkind]
    exact h.append (.cons (.inclusion hkind hname) .nil)
  | openSection hkind hreads hopens =>
    rw [List.filter_singleton, hkind, TokenKind.makesNode_ofSection]
    exact h.push (.of_section fun _ => .section hkind hreads) rfl
  | alternative hkind hscope hfits =>
    rw [List.filter_singleton, hkind, TokenKind.makesNode_ofSection]
    refine (h.collapse_section setting.contentType hscope).push (.of_section fun body => ?_) rfl
    -- the section that has just been closed is the sibling right before the new one
    rcases hfits with hblank | hreads
    · rw [Scope.append, List.getLast?_concat]
      exact .alternative hkind hblank rfl
    · exact .section hkind hreads
  | openBlock hkind hname =>
    rw [List.filter_singleton, hkind]
    exact h.push (.of_block hkind hname) rfl
  | openLayout hkind hname =>
    rw [List.filter_singleton, hkind]
    exact h.push (.of_layout hkind hname) rfl
  | closeSection hkind hscope hfits =>
    rw [List.filter_singleton, hkind]
    simpa [TokenKind.makesNode] using h.collapse_section setting.contentType hscope
  | closeBlock hkind hscope hname hfits =>
    rw [List.filter_singleton, hkind]
    simpa [TokenKind.makesNode] using h.collapse_block setting.contentType hscope hname
  | @closeLayout _ _ _ _ _ _ target hkind hscope hname hfits hload =>
    rw [List.filter_singleton, hkind]
    simpa [TokenKind.makesNode] using h.collapse_layout setting.contentType target hscope hname

/-- Of tokens that are all accepted, all but the silent ones and closing tags become nodes. -/
theorem run {p q : Progression σ ρ} (hrun : Run setting loader tokens p q) (h : Traced read p.1) :
    Traced (read ++ tokens.filter (·.kind.makesNode)) q.1 := by
  induction hrun generalizing read with
  | nil => simpa using h
  | @cons token tokens p q r hadvance _ ih =>
    have hrest := ih (h.advance hadvance)
    rwa [List.append_assoc, ← List.filter_append, List.singleton_append] at hrest

end ScopeStack.Traced

/-! ## Templates that compile -/

/-- No token is lost, doubled or moved. Going through a compiled template meets one node for each token
that is neither silent nor a closing tag, in the order of the tokens, and each node is what its token
becomes. -/
theorem tokens_become_visits (setting : Setting) (loader : Option (Loader σ ρ)) (stream : Stream)
    (state state' : σ) (template : Template Unit ρ)
    (h : compileTemplate setting loader stream state = (.ok template, state')) :
    List.Forall₂ Token.Becomes (stream.tokens.filter fun token => token.kind.makesNode)
      (visitsAfter none template.nodes) := by
  obtain ⟨loader, hcompile⟩ := exists_compileTemplate_some h
  obtain ⟨_, scope, rfl, hrun⟩ := compileTemplate_eq_ok_iff.mp hcompile
  exact (ScopeStack.Traced.initial.run hrun).traces

/-- A section with a blank tag between its branches, around a comment and a block. -/
def branchesWithBlock : List Token :=
  [⟨.openSection, "a", 1, none⟩, ⟨.comment, "?", 1, none⟩, ⟨.text, "x", 2, none⟩,
   ⟨.openInverted, "", 3, none⟩, ⟨.openBlock, "b", 4, none⟩, ⟨.unescapedVariable, "c", 5, none⟩,
   ⟨.close, "b", 6, none⟩, ⟨.close, "", 7, none⟩]

/-- What the tokens are compiled to. -/
def branchesWithBlockTemplate : Template Unit Empty :=
  ⟨(), .html,
    [.branch 1 (.identifier "a") false ⟨(), .html, [.text 2 "x"]⟩,
      .branch 3 (.identifier "a") true ⟨(), .html,
        [.block ⟨(), 4, "b", ⟨(), .html, [.interpolation 5 (.identifier "c") false]⟩⟩]⟩]⟩

/-- Five of the eight tokens become nodes; the fourth of these is inside the third, which has its expression
from the first. -/
theorem tokens_become_visits_branchesWithBlock :
    compileTemplate ⟨.html, none⟩ none (.ofTokens branchesWithBlock) () =
        (.ok branchesWithBlockTemplate, ()) ∧
      List.Forall₂ Token.Becomes (branchesWithBlock.filter fun token => token.kind.makesNode)
        (visitsAfter none branchesWithBlockTemplate.nodes) ∧
      (visitsAfter none branchesWithBlockTemplate.nodes).map (fun visit => visit.node.line) =
        [1, 2, 3, 4, 5] := by
  have hcompile : compileTemplate ⟨.html, none⟩ (none : Option (Loader Unit Empty))
      (.ofTokens branchesWithBlock) () = (.ok branchesWithBlockTemplate, ()) := rfl
  exact ⟨hcompile, tokens_become_visits _ _ _ _ _ _ hcompile, rfl⟩

end Logicless
