import Logicless.Proofs.Compile.Traversal
import Logicless.Proofs.Render.Precedence
import Logicless.Proofs.Tree.Inside
import Logicless.Proofs.Tree.Relabelling

/-!
# Overrides in nested layouts

Among the overrides of a layout there may be further layouts, and theirs count as well. So the search for
the override of a block calls itself for each layout that it comes upon, with whatever candidate it has by
then. It is not obvious that it finds the last block of the name: a nested layout may replace a candidate
that an earlier node has found, and be replaced in turn by a later one. What carries the search through is
that candidates never change their name.

## Shape of the proof

* `LastNamed` says which block is to be found in the list of all that a layout supplies, and
  `Layout.override_lastNamed` that it is found.
* `Layout.overrideWithin` is the search with a limit on how many calls may be inside each other, and
  `Layout.overrideWithin_eq_some_iff` says which limits it keeps within: those from
  `Layout.nesting` on.
* Layouts are nested in a template no more deeply than there are layouts on the way through it
  (`Inside.nesting_le`), and each of them comes from a token of its own
  (`layoutCount_of_compileTemplate`).
-/

namespace Logicless

variable {μ μ' ρ ρ' σ : Type}

/-! ## The last block of a name -/

/-- The block is the last of some blocks with a name. -/
def LastNamed (name : String) (blocks : List (Block μ (Node μ ρ))) (part : Block μ (Node μ ρ)) : Prop :=
  part.name = name ∧
    ∃ before after, blocks = before ++ part :: after ∧ ∀ later ∈ after, later.name ≠ name

section

variable {name : String} {blocks : List (Block μ (Node μ ρ))} {part : Block μ (Node μ ρ)}

theorem lastNamed_of_lastNamed? (h : lastNamed? name blocks = some part) :
    LastNamed name blocks part := by
  obtain ⟨hname, after, before, hblocks, hafter⟩ := List.find?_eq_some_iff_append.mp h
  refine ⟨by simpa using hname, before.reverse, after.reverse, ?_, ?_⟩
  · rw [← List.reverse_reverse blocks, hblocks]
    simp
  · simpa using hafter

theorem lastNamed?_eq_none_iff :
    lastNamed? name blocks = none ↔ ∀ part ∈ blocks, part.name ≠ name := by
  simp [lastNamed?]

end

namespace Layout

/-- A layout replaces a block by the last one of its name that it supplies, if there is one. -/
theorem override_lastNamed (outer : Layout μ ρ (Node μ ρ)) (block : Block μ (Node μ ρ)) :
    LastNamed block.name outer.supplied (outer.override block) ∨
      (outer.override block = block ∧ ∀ part ∈ outer.supplied, part.name ≠ block.name) := by
  rw [override_eq]
  cases hlast : lastNamed? block.name outer.supplied with
  | some part => exact .inl (lastNamed_of_lastNamed? hlast)
  | none => exact .inr ⟨rfl, lastNamed?_eq_none_iff.mp hlast⟩

/-- What a layout has replaced is not replaced by it again. -/
theorem override_override (outer : Layout μ ρ (Node μ ρ)) (block : Block μ (Node μ ρ)) :
    outer.override (outer.override block) = outer.override block := by
  rw [override_eq outer (outer.override block), name_override]
  cases hlast : lastNamed? block.name outer.supplied with
  | some part => rw [override_eq, hlast, Option.getD_some, Option.getD_some]
  | none => rfl

end Layout

/-! ## Calls inside each other -/

/-- The candidate for a block after one node of the overrides of a layout, where nested layouts are asked
by a call. There is none if the call has no answer. -/
def Node.overrideBy
    (call : Layout μ ρ (Node μ ρ) → Block μ (Node μ ρ) → Option (Block μ (Node μ ρ)))
    (candidate : Block μ (Node μ ρ)) : Node μ ρ → Option (Block μ (Node μ ρ))
  | .block part => some (if part.name = candidate.name then part else candidate)
  | .layout inner => call inner candidate
  | .text _ _ | .interpolation _ _ _ | .branch _ _ _ _ | .inclusion _ => some candidate

/-- The block that replaces a block according to a layout, found with at most `depth` calls inside each
other. -/
def Layout.overrideWithin :
    (depth : Nat) → Layout μ ρ (Node μ ρ) → Block μ (Node μ ρ) → Option (Block μ (Node μ ρ))
  | 0, _, _ => none
  | depth + 1, outer, block => outer.overrides.nodes.foldlM (Node.overrideBy (overrideWithin depth)) block

mutual

/-- How many layouts are inside each other, each among the overrides of the one around it. -/
def Node.nesting {μ ρ : Type} : Node μ ρ → Nat
  | .layout outer => nestingAmong outer.overrides.nodes + 1
  | .text _ _ | .interpolation _ _ _ | .branch _ _ _ _ | .inclusion _ | .block _ => 0
termination_by structural node => node

/-- How many layouts are inside each other at some place among the nodes. -/
def nestingAmong {μ ρ : Type} : List (Node μ ρ) → Nat
  | [] => 0
  | node :: nodes => max node.nesting (nestingAmong nodes)
termination_by structural nodes => nodes

end

/-- How many layouts are inside each other, from a layout inwards. -/
def Layout.nesting (outer : Layout μ ρ (Node μ ρ)) : Nat :=
  (Node.layout outer).nesting

theorem Layout.nesting_le_succ_iff {outer : Layout μ ρ (Node μ ρ)} {depth : Nat} :
    outer.nesting ≤ depth + 1 ↔ nestingAmong outer.overrides.nodes ≤ depth := by
  rw [nesting, Node.nesting, Nat.add_le_add_iff_right]

section

variable {depth : Nat}
  {call : Layout μ ρ (Node μ ρ) → Block μ (Node μ ρ) → Option (Block μ (Node μ ρ))}
  (hcall : ∀ inner candidate found,
    call inner candidate = some found ↔ inner.nesting ≤ depth ∧ inner.override candidate = found)

include hcall

/-- One turn of the search, given which calls have an answer. -/
theorem Node.overrideBy_eq_some_iff {candidate found : Block μ (Node μ ρ)} {node : Node μ ρ} :
    node.overrideBy call candidate = some found ↔
      node.nesting ≤ depth ∧ node.override candidate = found := by
  cases node with
  | layout inner => exact hcall inner candidate found
  | text | interpolation | branch | inclusion | block =>
    simp [Node.overrideBy, Node.override, Node.nesting]

/-- All turns of the search, given which calls have an answer. -/
theorem foldlM_overrideBy_eq_some_iff {candidate found : Block μ (Node μ ρ)}
    {nodes : List (Node μ ρ)} :
    nodes.foldlM (Node.overrideBy call) candidate = some found ↔
      nestingAmong nodes ≤ depth ∧ overrideAll candidate nodes = found := by
  induction nodes generalizing candidate with
  | nil => simp [nestingAmong, overrideAll]
  | cons node nodes ih =>
    simp only [List.foldlM_cons, Option.bind_eq_bind, Option.bind_eq_some_iff,
      Node.overrideBy_eq_some_iff hcall, ih, nestingAmong, overrideAll, Nat.max_le]
    constructor
    · rintro ⟨_, ⟨hnode, rfl⟩, hnodes, hfound⟩
      exact ⟨⟨hnode, hnodes⟩, hfound⟩
    · rintro ⟨⟨hnode, hnodes⟩, hfound⟩
      exact ⟨_, ⟨hnode, rfl⟩, hnodes, hfound⟩

end

/-- The search keeps within a limit exactly if layouts are nested no more deeply than that. -/
theorem Layout.overrideWithin_eq_some_iff {depth : Nat} {outer : Layout μ ρ (Node μ ρ)}
    {block found : Block μ (Node μ ρ)} :
    outer.overrideWithin depth block = some found ↔
      outer.nesting ≤ depth ∧ outer.override block = found := by
  induction depth generalizing outer block found with
  | zero => simp [overrideWithin, nesting, Node.nesting]
  | succ depth ih =>
    rw [overrideWithin, nesting_le_succ_iff]
    exact foldlM_overrideBy_eq_some_iff fun _ _ _ => ih

/-! ## Layouts in a template -/

/-- The node is a layout. -/
def Node.isLayout : Node μ ρ → Bool
  | .layout _ => true
  | .text _ _ | .interpolation _ _ _ | .branch _ _ _ _ | .inclusion _ | .block _ => false

/-- How many layouts are met. -/
def layoutCount (visits : List (Visit μ ρ)) : Nat :=
  visits.countP fun visit => visit.node.isLayout

theorem layoutCount_append (visits visits' : List (Visit μ ρ)) :
    layoutCount (visits ++ visits') = layoutCount visits + layoutCount visits' :=
  List.countP_append

theorem layoutCount_layout (previous : Option (Node μ ρ)) (outer : Layout μ ρ (Node μ ρ)) :
    layoutCount ((Node.layout outer).visits previous) =
      layoutCount (visitsAfter none outer.overrides.nodes) + 1 :=
  List.countP_cons_of_pos rfl

theorem Node.visits_eq_cons (previous : Option (Node μ ρ)) (node : Node μ ρ) :
    node.visits previous = ⟨previous, node⟩ :: visitsAfter none node.children := by
  cases node <;> rfl

mutual

/-- Layouts inside each other are met on the way through the outermost one. -/
theorem Node.nesting_le (previous : Option (Node μ ρ)) :
    (node : Node μ ρ) → node.nesting ≤ layoutCount (node.visits previous)
  | .layout outer => by
    rw [Node.nesting, layoutCount_layout]
    exact Nat.succ_le_succ (nestingAmong_le none outer.overrides.nodes)
  | .text _ _ | .interpolation _ _ _ | .branch _ _ _ _ | .inclusion _ | .block _ => by
    rw [Node.nesting]
    exact Nat.zero_le _

theorem nestingAmong_le (previous : Option (Node μ ρ)) :
    (nodes : List (Node μ ρ)) → nestingAmong nodes ≤ layoutCount (visitsAfter previous nodes)
  | [] => Nat.zero_le _
  | node :: nodes => by
    have hnode := Node.nesting_le previous node
    have hnodes := nestingAmong_le (some node) nodes
    rw [nestingAmong, visitsAfter, layoutCount_append]
    omega

end

/-- A node that is met brings with it what is met on the way through it. -/
theorem sublist_visitsAfter {node : Node μ ρ} {nodes : List (Node μ ρ)} (h : node ∈ nodes)
    (previous : Option (Node μ ρ)) :
    ∃ sibling, (node.visits sibling).Sublist (visitsAfter previous nodes) := by
  induction nodes generalizing previous with
  | nil => cases h
  | cons first nodes ih =>
    rcases List.mem_cons.mp h with rfl | h
    · exact ⟨previous, List.sublist_append_left _ _⟩
    · obtain ⟨sibling, hsibling⟩ := ih h (some first)
      exact ⟨sibling, hsibling.trans (List.sublist_append_right _ _)⟩

/-- What is met on the way through a node inside some others is met on the way through these. -/
theorem Inside.sublist_visits {node : Node μ ρ} {nodes : List (Node μ ρ)} (h : Inside node nodes) :
    ∃ sibling, (node.visits sibling).Sublist (visitsAfter none nodes) := by
  refine h.forall_of_children
    (fun node => ∃ sibling, (node.visits sibling).Sublist (visitsAfter none nodes)) ?_ ?_
  · intro top htop
    exact sublist_visitsAfter htop none
  · rintro parent ⟨sibling, hparent⟩ child hchild
    obtain ⟨sibling', hsublist⟩ := sublist_visitsAfter hchild none
    rw [Node.visits_eq_cons] at hparent
    exact ⟨sibling', hsublist.trans (List.sublist_of_cons_sublist hparent)⟩

/-- Layouts are nested in some nodes no more deeply than there are layouts. -/
theorem Inside.nesting_le {outer : Layout μ ρ (Node μ ρ)} {nodes : List (Node μ ρ)}
    (h : Inside (.layout outer) nodes) : outer.nesting ≤ layoutCount (visitsAfter none nodes) := by
  obtain ⟨sibling, hsublist⟩ := h.sublist_visits
  exact (Node.nesting_le sibling _).trans hsublist.countP_le

/-! ### Labels -/

section

variable (onMark : μ → μ') (onTarget : Inclusion ρ → ρ')

mutual

theorem Node.layoutCount_relabel (previous : Option (Node μ ρ)) (previous' : Option (Node μ' ρ')) :
    (node : Node μ ρ) →
      layoutCount ((node.relabel onMark onTarget).visits previous') = layoutCount (node.visits previous)
  | .text _ _ | .interpolation _ _ _ | .inclusion _ => rfl
  | .branch _ _ _ body => layoutCount_relabelNodes none none body.nodes
  | .block part => layoutCount_relabelNodes none none part.body.nodes
  | .layout outer => by
    rw [Node.relabel, layoutCount_layout, layoutCount_layout]
    exact congrArg (· + 1) (layoutCount_relabelNodes none none outer.overrides.nodes)

/-- There are as many layouts whatever the labels are. -/
theorem layoutCount_relabelNodes (previous : Option (Node μ ρ)) (previous' : Option (Node μ' ρ')) :
    (nodes : List (Node μ ρ)) →
      layoutCount (visitsAfter previous' (relabelNodes onMark onTarget nodes)) =
        layoutCount (visitsAfter previous nodes)
  | [] => rfl
  | node :: nodes => by
    rw [relabelNodes, visitsAfter, visitsAfter, layoutCount_append, layoutCount_append,
      Node.layoutCount_relabel previous previous' node,
      layoutCount_relabelNodes (some node) (some (node.relabel onMark onTarget)) nodes]

end

end

/-! ### Tokens -/

/-- How many of some tokens open a layout. -/
def openLayoutCount (tokens : List Token) : Nat :=
  tokens.countP fun token => token.kind = .openLayout

/-- A token becomes a layout exactly if it opens one. -/
theorem Token.Becomes.isLayout_iff {token : Token} {visit : Visit Unit ρ} (h : token.Becomes visit) :
    visit.node.isLayout ↔ token.kind = .openLayout := by
  cases h with
  | @interpolation _ escape _ hkind =>
    rw [hkind]
    cases escape <;> simp [Node.isLayout, TokenKind.ofVariable]
  | @«section» _ inverted _ _ hkind | @alternative _ inverted _ _ hkind =>
    rw [hkind]
    cases inverted <;> simp [Node.isLayout, TokenKind.ofSection]
  | text hkind | inclusion hkind | block hkind | layout hkind => simp [Node.isLayout, hkind]

theorem layoutCount_of_becomes {tokens : List Token} {visits : List (Visit Unit ρ)}
    (h : List.Forall₂ Token.Becomes tokens visits) : layoutCount visits = openLayoutCount tokens := by
  induction h with
  | nil => rfl
  | cons hbecomes _ ih =>
    rw [layoutCount, openLayoutCount] at ih ⊢
    simp only [List.countP_cons, ih, hbecomes.isLayout_iff, decide_eq_true_eq]

/-- A template has one layout for each token that opens one. -/
theorem layoutCount_of_compileTemplate {setting : Setting} {loader : Option (Loader σ ρ)}
    {stream : Stream} {state state' : σ} {template : Template Unit ρ}
    (h : compileTemplate setting loader stream state = (.ok template, state')) :
    layoutCount (visitsAfter none template.nodes) = openLayoutCount stream.tokens := by
  rw [layoutCount_of_becomes (tokens_become_visits setting loader stream state state' template h),
    openLayoutCount, List.countP_filter]
  refine List.countP_congr fun token _ => ?_
  -- a token that opens a layout makes a node
  simp only [Bool.and_eq_true, decide_eq_true_eq, and_iff_left_iff_imp]
  intro hkind
  rw [hkind]
  rfl

/-! ## The search in compiled templates -/

/-- In a compiled template, whatever marks its nodes have been given, the search for the override of a
block in a layout comes to an end: no more calls are ever inside each other than the template has layout
tags. It finds the last block of the name in the list of all that the layout supplies, nested layouts in
their places included, and the block itself if there is none; and what it finds, it finds again. -/
theorem Layout.override_of_compileTemplate {setting : Setting} {loader : Option (Loader σ ρ)}
    {stream : Stream} {state state' : σ} {template : Template Unit ρ}
    (h : compileTemplate setting loader stream state = (.ok template, state'))
    {nodes : List (Node μ ρ)}
    (hmarks : relabelNodes (fun _ => ()) Inclusion.target nodes = template.nodes)
    {outer : Layout μ ρ (Node μ ρ)} (hinside : Inside (.layout outer) nodes)
    (block : Block μ (Node μ ρ)) :
    outer.overrideWithin (openLayoutCount stream.tokens) block = some (outer.override block) ∧
      (LastNamed block.name outer.supplied (outer.override block) ∨
        (outer.override block = block ∧ ∀ part ∈ outer.supplied, part.name ≠ block.name)) ∧
      outer.override (outer.override block) = outer.override block := by
  have hcount : layoutCount (visitsAfter none nodes) = openLayoutCount stream.tokens := by
    rw [← layoutCount_of_compileTemplate h, ← hmarks, layoutCount_relabelNodes _ _ none none]
  have hnesting : outer.nesting ≤ openLayoutCount stream.tokens := by
    rw [← hcount]
    exact hinside.nesting_le
  exact ⟨overrideWithin_eq_some_iff.mpr ⟨hnesting, rfl⟩, outer.override_lastNamed block,
    outer.override_override block⟩

/-- A layout with a title, another title in a nested layout, and one in a section. -/
def titleTokens : List Token :=
  [⟨.openLayout, "page", 1, none⟩, ⟨.openBlock, "title", 2, none⟩, ⟨.close, "", 2, none⟩,
   ⟨.openLayout, "base", 3, none⟩, ⟨.openBlock, "title", 4, none⟩, ⟨.close, "", 4, none⟩,
   ⟨.close, "", 5, none⟩, ⟨.openSection, "a", 6, none⟩, ⟨.openBlock, "title", 7, none⟩,
   ⟨.close, "", 7, none⟩, ⟨.close, "", 8, none⟩, ⟨.close, "page", 9, none⟩]

/-- A block for a title without anything in it. -/
def titleBlock (mark : Nat) (line : Int) : Block Nat (Node Nat Unit) :=
  ⟨mark, line, "title", ⟨mark, .html, []⟩⟩

/-- What the tokens are compiled to, with marks. -/
def titleLayout : Layout Nat Unit (Node Nat Unit) :=
  ⟨1, ⟨1, "page", ()⟩, ⟨0, .html,
    [.block (titleBlock 1 2),
      .layout ⟨3, ⟨3, "base", ()⟩, ⟨2, .html, [.block (titleBlock 3 4)]⟩⟩,
      .branch 6 (.identifier "a") false ⟨4, .html, [.block (titleBlock 5 7)]⟩]⟩⟩

/-- The title of the nested layout replaces the one before it, and the one in the section does not count.
It takes two calls inside each other to find it. -/
theorem Layout.override_of_compileTemplate_title :
    let loader : Loader Unit Unit := fun _ _ state => (.ok (), state)
    let template : Template Unit Unit :=
      ⟨(), .html, relabelNodes (fun _ => ()) Inclusion.target [.layout titleLayout]⟩
    compileTemplate ⟨.html, none⟩ (some loader) (.ofTokens titleTokens) () = (.ok template, ()) ∧
      titleLayout.overrideWithin (openLayoutCount titleTokens) (titleBlock 6 1) =
        some (titleBlock 3 4) ∧
      titleLayout.supplied = [titleBlock 1 2] ++ titleBlock 3 4 :: [] ∧
      titleLayout.overrideWithin 1 (titleBlock 6 1) = none := by
  intro loader template
  have hcompile : compileTemplate ⟨.html, none⟩ (some loader) (.ofTokens titleTokens) () =
      (.ok template, ()) := rfl
  have hinside : Inside (.layout titleLayout) [.layout titleLayout] :=
    .of_mem (List.mem_singleton_self _)
  exact ⟨hcompile, (Layout.override_of_compileTemplate hcompile rfl hinside (titleBlock 6 1)).1, rfl,
    rfl⟩

end Logicless
