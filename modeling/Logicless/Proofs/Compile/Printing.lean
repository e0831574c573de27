import Logicless.Proofs.Compile.Shape
import Logicless.Proofs.Expr.Printing

/-!
# Printing templates

A template is printed tag by tag. A branch that stands directly inside a branch of the same expression and
the opposite polarity cannot be printed as a section of its own, since its opening tag would be read as the
next branch of the section around it. It is printed as the next branch of the section before it: the closing
tag of that section is left out. What is printed so is compiled to the template, if any tokens are.

## Shape of the proof

* `Node.front` and `Node.closing` are the tokens of a node, and `printNodes` leaves out a closing tag
  where `Node.continuedBy` says so.
* `Grammar.Item.of_node` reads a node that is printed on its own, and `Grammar.Item.of_pair` two nodes where
  the second continues the first. Both need what is printed of the bodies to be read
  (`Node.BodyPrints`).
* `forest_printNodes` puts them together along a list of nodes, and `Node.bodyPrints` goes down the tree.
* `compileTemplate_image` joins this with what is known of the shape of compiled templates.
-/

namespace Logicless

variable {ρ : Type}

/-! ## The printer -/

/-- A token that comes from no known template. -/
def Token.plain (kind : TokenKind) (content : String) (line : Int) : Token :=
  ⟨kind, content, line, none⟩

/-- The closing tag of a node, if it has one. -/
def Node.closing : Node Unit ρ → List Token
  | .branch line expression _ _ => [.plain .close expression.print line]
  | .block part => [.plain .close part.name part.line]
  | .layout outer => [.plain .close outer.inclusion.name outer.line]
  | .text _ _ | .interpolation _ _ _ | .inclusion _ => []

/-- Directly inside a branch, a node of the same section is continued by a node of the opposite polarity
right behind it. -/
def Node.continuedBy (around : Option (Expr × Bool)) (node : Node Unit ρ)
    (behind : List (Node Unit ρ)) : Bool :=
  match around with
  | some (expression, inverted) =>
    node.section? = some (expression, inverted) &&
      behind.head?.bind Node.section? = some (expression, !inverted)
  | none => false

mutual

/-- The tokens of a node without its closing tag. -/
def Node.front : Node Unit ρ → List Token
  | .text line text => [.plain .text text line]
  | .interpolation line expression escape => [.plain (.ofVariable escape) expression.print line]
  | .branch line expression inverted body =>
    .plain (.ofSection inverted) expression.print line ::
      printNodes (some (expression, inverted)) body.nodes
  | .inclusion reference => [.plain .inclusion reference.name reference.line]
  | .block part => .plain .openBlock part.name part.line :: printNodes none part.body.nodes
  | .layout outer =>
    .plain .openLayout outer.inclusion.name outer.line :: printNodes none outer.overrides.nodes
termination_by structural node => node

/-- The tokens of some nodes, directly inside the branch `around` if any. -/
def printNodes (around : Option (Expr × Bool)) : List (Node Unit ρ) → List Token
  | [] => []
  | node :: nodes =>
    node.front ++ (if node.continuedBy around nodes then [] else node.closing) ++
      printNodes around nodes
termination_by structural nodes => nodes

end

/-- The tokens of a template. -/
def Body.print (template : Template Unit ρ) : List Token :=
  printNodes none template.nodes

section

variable {setting : Setting} {resolver : Resolver ρ} {around : Option (Expr × Bool)}
  {expression : Expr} {inverted : Bool} {node next : Node Unit ρ} {nodes : List (Node Unit ρ)}

theorem Node.continuedBy_iff :
    node.continuedBy around nodes ↔
      ∃ expression inverted next rest, around = some (expression, inverted) ∧
        nodes = next :: rest ∧ node.section? = some (expression, inverted) ∧
          next.section? = some (expression, !inverted) := by
  rcases around with _ | ⟨expression, inverted⟩
  · simp [continuedBy]
  · simp only [continuedBy, Bool.and_eq_true, decide_eq_true_eq, Option.bind_eq_some_iff,
      List.head?_eq_some_iff]
    constructor
    · rintro ⟨hsection, next, ⟨rest, rfl⟩, hsection'⟩
      exact ⟨expression, inverted, next, rest, rfl, rfl, hsection, hsection'⟩
    · rintro ⟨_, _, next, rest, ⟨⟩, rfl, hsection, hsection'⟩
      exact ⟨hsection, next, ⟨rest, rfl⟩, hsection'⟩

theorem Node.exists_branch_of_section? (h : node.section? = some (expression, inverted)) :
    ∃ line body, node = .branch line expression inverted body := by
  cases node with
  | branch line _ _ body =>
    obtain ⟨rfl, rfl⟩ := Prod.mk.inj (Option.some.inj h)
    exact ⟨line, body, rfl⟩
  | text | interpolation | inclusion | block | layout => cases h

/-! ## What is printed of single nodes -/

theorem Expr.Legible.reads_print (h : expression.Legible) (kind : TokenKind) (line : Int) :
    (Token.plain kind expression.print line).Reads expression := by
  obtain ⟨content, hparse⟩ := h
  exact parse_of_wellFormed (wellFormed_of_parse hparse)

open Grammar

/-- What is printed of the body of a node is read as its nodes. -/
def Node.BodyPrints (setting : Setting) (resolver : Resolver ρ) : Node Unit ρ → Prop
  | .branch _ expression inverted body =>
    Forest setting resolver (some (expression, inverted))
      (printNodes (some (expression, inverted)) body.nodes) body.nodes
  | .block part => Forest setting resolver none (printNodes none part.body.nodes) part.body.nodes
  | .layout outer =>
    Forest setting resolver none (printNodes none outer.overrides.nodes) outer.overrides.nodes
  | .text _ _ | .interpolation _ _ _ | .inclusion _ => True

/-- A node that is printed with its closing tag is an item, unless its opening tag continues the branch
around it. -/
theorem Grammar.Item.of_node (hnode : node.WellFormed setting resolver)
    (hbody : node.BodyPrints setting resolver)
    (hopens : ∀ expression inverted, node.section? = some (expression, inverted) →
      around ≠ some (expression, !inverted)) :
    Item setting resolver around (node.front ++ node.closing) [node] := by
  cases node with
  | text line text => exact .text rfl
  | interpolation line expression escape =>
    have hlegible : expression.Legible := hnode
    exact .interpolation rfl (hlegible.reads_print _ _)
  | branch line expression inverted body =>
    obtain ⟨⟩ := body
    obtain ⟨hlegible, _, rfl, _⟩ := hnode
    exact .section rfl (hlegible.reads_print _ _) (hopens _ _ rfl)
      (.last hbody rfl (.inr (hlegible.reads_print _ _)))
  | inclusion reference =>
    obtain ⟨hname, hresolve⟩ := hnode
    exact .inclusion rfl (parseName_of_isName hname _) hresolve
  | block part =>
    obtain ⟨_, line, name, ⟨⟩⟩ := part
    obtain ⟨hname, rfl, _⟩ := hnode
    have hreads := parseName_of_isName hname .block
    exact .block rfl hreads hbody rfl (.inr hreads)
  | layout outer =>
    obtain ⟨line, ⟨inner, name, target⟩, ⟨⟩⟩ := outer
    obtain ⟨⟨hname, hresolve⟩, hline, rfl, _⟩ := hnode
    obtain rfl : inner = line := hline
    have hreads := parseName_of_isName hname .template
    exact .layout rfl hreads hbody rfl (.inr hreads) hresolve

/-- Two branches are an item if the second one continues the first. -/
theorem Grammar.Item.of_pair (hnode : node.WellFormed setting resolver)
    (hbody : node.BodyPrints setting resolver) (hnext : next.WellFormed setting resolver)
    (hbody' : next.BodyPrints setting resolver)
    (hsection : node.section? = some (expression, inverted))
    (hsection' : next.section? = some (expression, !inverted)) :
    Item setting resolver (some (expression, inverted))
      (node.front ++ (next.front ++ next.closing)) [node, next] := by
  obtain ⟨line, ⟨⟩, rfl⟩ := Node.exists_branch_of_section? hsection
  obtain ⟨line', ⟨⟩, rfl⟩ := Node.exists_branch_of_section? hsection'
  obtain ⟨hlegible, _, rfl, _⟩ := hnode
  obtain ⟨_, _, rfl, _⟩ := hnext
  refine .section rfl (hlegible.reads_print _ _) (by simp) (.alternative hbody rfl ?_ ?_)
  · exact .inr (hlegible.reads_print _ _)
  · exact .last hbody' rfl (.inr (hlegible.reads_print _ _))

/-! ## What is printed of several nodes -/

/-- The first of some guarded nodes does not continue the branch around them. -/
theorem Guarded.section?_ne (h : Guarded expression inverted (node :: nodes)) :
    node.section? ≠ some (expression, !inverted) := by
  intro hsection
  obtain ⟨earlier, sibling, hempty, _⟩ := h [] node nodes rfl hsection
  simp at hempty

/-- The nodes behind a node that none of them continues are guarded as well. -/
theorem Guarded.behind (front : List (Node Unit ρ))
    (h : Guarded expression inverted (front ++ node :: nodes))
    (hends : ¬ node.continuedBy (some (expression, inverted)) nodes) :
    Guarded expression inverted nodes := by
  rintro before child after rfl hchild
  obtain ⟨earlier, sibling, hbefore, hsibling⟩ :=
    h (front ++ node :: before) child after (by simp) hchild
  rcases List.eq_nil_or_concat before with rfl | ⟨before, last, rfl⟩
  · -- the child stands right behind the node, so it continues it
    obtain ⟨_, hlast⟩ := List.append_inj' hbefore rfl
    obtain rfl := List.singleton_inj.mp hlast
    exact absurd (Node.continuedBy_iff.mpr ⟨_, _, _, _, rfl, rfl, hsibling, hchild⟩) hends
  · rw [List.concat_eq_append, ← List.cons_append, ← List.append_assoc] at hbefore
    obtain ⟨_, hlast⟩ := List.append_inj' hbefore rfl
    obtain rfl := List.singleton_inj.mp hlast
    exact ⟨before, last, List.concat_eq_append .., hsibling⟩

/-- What is printed of some nodes is read as the nodes, if it is so for their bodies. -/
theorem forest_printNodes (nodes : List (Node Unit ρ)) (around : Option (Expr × Bool))
    (hnodes : ∀ node ∈ nodes, node.WellFormed setting resolver ∧ node.BodyPrints setting resolver)
    (hguarded : ∀ expression inverted, around = some (expression, inverted) →
      Guarded expression inverted nodes) :
    Forest setting resolver around (printNodes around nodes) nodes := by
  match nodes with
  | [] => exact .nil
  | node :: rest =>
    obtain ⟨⟨hnode, hbody⟩, hrest⟩ := List.forall_mem_cons.mp hnodes
    by_cases hcontinued : node.continuedBy around rest
    · -- the two nodes are one item, and nothing else continues the second of them
      obtain ⟨expression, inverted, next, others, rfl, rfl, hsection, hsection'⟩ :=
        Node.continuedBy_iff.mp hcontinued
      obtain ⟨⟨hnext, hbody'⟩, hothers⟩ := List.forall_mem_cons.mp hrest
      have hends : ¬ next.continuedBy (some (expression, inverted)) others := by
        simp [Node.continuedBy, hsection']
      have hguarded' : ∀ e i, some (expression, inverted) = some (e, i) → Guarded e i others := by
        rintro _ _ ⟨⟩
        exact Guarded.behind [node] (hguarded _ _ rfl) hends
      have hpair := Item.of_pair hnode hbody hnext hbody' hsection hsection'
      have hforest := Forest.cons hpair (forest_printNodes others _ hothers hguarded')
      simpa [printNodes, hcontinued, hends] using hforest
    · have hguarded' : ∀ e i, around = some (e, i) → Guarded e i rest := by
        rintro e i rfl
        exact Guarded.behind [] (hguarded _ _ rfl) hcontinued
      have hopens : ∀ e i, node.section? = some (e, i) → around ≠ some (e, !i) := by
        rintro e i hsection rfl
        exact (hguarded _ _ rfl).section?_ne (by rwa [Bool.not_not])
      have hitem := Item.of_node hnode hbody hopens
      have hforest := Forest.cons hitem (forest_printNodes rest around hrest hguarded')
      simpa [printNodes, hcontinued] using hforest
termination_by nodes.length

mutual

/-- What is printed of the body of a well-formed node is read as its nodes. -/
theorem Node.bodyPrints :
    (node : Node Unit ρ) → node.WellFormed setting resolver → node.BodyPrints setting resolver
  | .text _ _, _ | .interpolation _ _ _, _ | .inclusion _, _ => trivial
  | .branch _ expression inverted body, ⟨_, hguarded, _, hnodes⟩ => by
    refine forest_printNodes body.nodes _ (bodyPrints_of_mem body.nodes hnodes) ?_
    rintro _ _ ⟨⟩
    exact hguarded
  | .block part, ⟨_, _, hnodes⟩ =>
    forest_printNodes part.body.nodes none (bodyPrints_of_mem part.body.nodes hnodes) nofun
  | .layout outer, ⟨_, _, _, hnodes⟩ =>
    forest_printNodes outer.overrides.nodes none (bodyPrints_of_mem outer.overrides.nodes hnodes) nofun

theorem bodyPrints_of_mem :
    (nodes : List (Node Unit ρ)) → WellFormedNodes setting resolver nodes →
      ∀ node ∈ nodes, node.WellFormed setting resolver ∧ node.BodyPrints setting resolver
  | [], _ => by simp
  | node :: nodes, ⟨hnode, hnodes⟩ =>
    List.forall_mem_cons.mpr ⟨⟨hnode, node.bodyPrints hnode⟩, bodyPrints_of_mem nodes hnodes⟩

end

/-! ## Compiling what is printed -/

variable {σ : Type} {state : σ} {template : Template Unit ρ}

/-- Whatever tokens a template is compiled from, it is well-formed. -/
theorem wellFormed_of_compileTemplate {tokens : List Token}
    (h : (compileTemplate setting (some resolver.loader) (.ofTokens tokens) state).1 = .ok template) :
    template.WellFormed setting resolver := by
  obtain ⟨_, scope, rfl, hrun⟩ := compileTemplate_eq_ok_iff.mp (Prod.ext h rfl)
  cases Parsed.initial.run hrun with
  | root hforest hcollected =>
    rw [List.append_nil] at hcollected
    subst hcollected
    exact ⟨rfl, (wellFormed_of_forest hforest).1⟩

/-- A well-formed template is compiled from what is printed of it. -/
theorem compileTemplate_print (h : template.WellFormed setting resolver) :
    compileTemplate setting (some resolver.loader) (.ofTokens template.print) state =
      (.ok template, state) := by
  obtain ⟨_, contentType, nodes⟩ := template
  obtain ⟨hcontentType, hnodes⟩ := h
  obtain rfl : contentType = setting.contentType := hcontentType
  have hforest : Forest setting resolver none (printNodes none nodes) nodes :=
    forest_printNodes nodes none (bodyPrints_of_mem nodes hnodes) nofun
  have hrun : Run setting resolver.loader (printNodes none nodes) (.initial, state)
      (ScopeStack.initial.extend nodes, state) := run_of_forest hforest rfl
  exact compileTemplate_eq_ok_iff.mpr ⟨rfl, Scope.extend ScopeStack.initial.current nodes, rfl, hrun⟩

end

/-- The compiler gives exactly the well-formed templates, and printing undoes compiling: of every such
template the printer gives tokens that are compiled back to it. -/
theorem compileTemplate_image {σ : Type} (setting : Setting) (resolver : Resolver ρ) (state : σ)
    (template : Template Unit ρ) :
    ((∃ tokens,
      (compileTemplate setting (some resolver.loader) (.ofTokens tokens) state).1 = .ok template) ↔
        template.WellFormed setting resolver) ∧
      (template.WellFormed setting resolver →
        (compileTemplate setting (some resolver.loader) (.ofTokens template.print) state).1 =
          .ok template) := by
  have hprint : template.WellFormed setting resolver →
      (compileTemplate setting (some resolver.loader) (.ofTokens template.print) state).1 =
        .ok template := by
    intro h
    rw [compileTemplate_print h]
  refine ⟨⟨?_, ?_⟩, hprint⟩
  · rintro ⟨tokens, hcompile⟩
    exact wellFormed_of_compileTemplate hcompile
  · intro h
    exact ⟨template.print, hprint h⟩

/-! ### A section with two branches inside a section of the same expression -/

/-- A branch of the section of `x` in a template in plain text. -/
def branchOfX (line : Int) (inverted : Bool) (nodes : List (Node Unit String)) : Node Unit String :=
  .branch line (.identifier "x") inverted ⟨(), .text, nodes⟩

/-- A section with a section of the same expression and its alternative inside. -/
def nestedBranches : Template Unit String :=
  ⟨(), .text, [branchOfX 1 false
    [branchOfX 2 false [.text 2 "a"], branchOfX 3 true [.inclusion ⟨3, "b", "b"⟩]]]⟩

/-- The alternative is printed behind the section that it belongs to, without a closing tag between
them. -/
theorem compileTemplate_image_nestedBranches :
    nestedBranches.WellFormed ⟨.text, none⟩ (fun name _ => .ok name) ∧
      nestedBranches.print =
        [.plain .openSection "x" 1, .plain .openSection "x" 2, .plain .text "a" 2,
          .plain .openInverted "x" 3, .plain .inclusion "b" 3, .plain .close "x" 3,
          .plain .close "x" 1] ∧
      (compileTemplate (σ := Unit) ⟨.text, none⟩ (some (Resolver.loader fun name _ => .ok name))
        (.ofTokens nestedBranches.print) ()).1 = .ok nestedBranches := by
  have hx : Expr.IsIdentifier "x" := by decide
  have hlegible : Expr.Legible (.identifier "x") :=
    ⟨_, Expr.parse_of_wellFormed (e := .identifier "x") hx⟩
  have hread : parseName .template "b" = .ok "b" := rfl
  have hname : IsName "b" := (parseName_eq_ok_iff.mp hread).2
  have halternates : Alternates (.identifier "x") false
      [branchOfX 2 false [.text 2 "a"], branchOfX 3 true [.inclusion ⟨3, "b", "b"⟩]] :=
    ⟨rfl, rfl, trivial⟩
  have hinner : WellFormedNodes ⟨.text, none⟩ (fun name _ => .ok name)
      [branchOfX 2 false [.text 2 "a"], branchOfX 3 true [.inclusion ⟨3, "b", "b"⟩]] :=
    ⟨⟨hlegible, guarded_singleton rfl, rfl, trivial, trivial⟩,
      ⟨hlegible, guarded_singleton rfl, rfl, ⟨hname, rfl⟩, trivial⟩, trivial⟩
  have hwellFormed : nestedBranches.WellFormed ⟨.text, none⟩ (fun name _ => .ok name) :=
    ⟨rfl, ⟨hlegible, halternates.guarded (by simp), rfl, hinner⟩, trivial⟩
  exact ⟨hwellFormed, rfl, (compileTemplate_image _ _ _ _).2 hwellFormed⟩

end Logicless
