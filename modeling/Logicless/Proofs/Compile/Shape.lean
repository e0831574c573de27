import Logicless.Proofs.Compile.Grammar

/-!
# The shape of compiled templates

Not every tree of nodes comes from a template. What tags say must be legible, inclusions refer to what
their names stand for, and all bodies have one content type. One condition is left that is about more than
a single node: a tag that opens a section directly inside a section of the same expression and the opposite
polarity does not start an item but the next branch. So directly inside such a section, a branch of the
opposite polarity stands right behind one of the section's own polarity.

## Shape of the proof

* `parseName_eq_ok_iff` says what names are read.
* `Node.WellFormed` and `Guarded` are the conditions.
* `Alternates` says what the branches of one section look like, and `Alternates.guarded` that they are fine
  inside any section that does not continue with the first of them.
* `wellFormed_of_forest` goes through the derivations of the grammar.
-/

namespace Logicless

/-! ## Names -/

theorem Text.trim_of_not_blank {cs : List Char} (h : ∀ c ∈ cs, isBlank c = false) : trim cs = cs := by
  have hstart : trimStart cs = cs := by
    cases cs with
    | nil => rfl
    | cons c cs => rw [trimStart, List.dropWhile_cons_of_neg (by simp [h c])]
  have hend : cs.reverse.dropWhile isBlank = cs.reverse := by
    cases hreverse : cs.reverse with
    | nil => rfl
    | cons c rest =>
      have hmem : c ∈ cs := by
        rw [← List.mem_reverse, hreverse]
        exact List.mem_cons_self
      rw [List.dropWhile_cons_of_neg (by simp [h c hmem])]
  rw [trim, hstart, trimEnd, hend, List.reverse_reverse]

/-- A name is read where it stands between blank characters, and nothing else is read. -/
theorem parseName_eq_ok_iff {role : NameRole} {content name : String} :
    parseName role content = .ok name ↔ Text.trim content.toList = name.toList ∧ IsName name := by
  rw [parseName, IsName]
  constructor
  · intro h
    split at h
    · cases h
    · split at h
      · cases h
      · rename_i hempty hblank
        obtain rfl := Except.ok.inj h
        simpa using And.intro hempty hblank
  · rintro ⟨htrim, hne, hblank⟩
    have hblank' : name.toList.any Text.isBlank = false := by simpa using hblank
    simp [htrim, hne, hblank']

theorem parseName_of_isName {name : String} (h : IsName name) (role : NameRole) :
    parseName role name = .ok name :=
  parseName_eq_ok_iff.mpr ⟨Text.trim_of_not_blank h.2, h⟩

/-! ## The conditions -/

variable {ρ : Type}

/-- Some text is read as the expression. -/
def Expr.Legible (expression : Expr) : Prop :=
  ∃ content, parse content = .ok expression

/-- The section that a node is a branch of. -/
def Node.section? {μ : Type} : Node μ ρ → Option (Expr × Bool)
  | .branch _ expression inverted _ => some (expression, inverted)
  | .text _ _ | .interpolation _ _ _ | .inclusion _ | .block _ | .layout _ => none

/-- Among some nodes directly inside a branch, a branch of the same expression and of the opposite
polarity stands right behind one of the same polarity. -/
def Guarded (expression : Expr) (inverted : Bool) (nodes : List (Node Unit ρ)) : Prop :=
  ∀ before child after, nodes = before ++ child :: after →
    child.section? = some (expression, !inverted) →
      ∃ earlier sibling, before = earlier ++ [sibling] ∧
        sibling.section? = some (expression, inverted)

/-- An inclusion has a name and refers to what the name stands for. -/
def Inclusion.Resolved (setting : Setting) (resolver : Resolver ρ) (reference : Inclusion ρ) : Prop :=
  IsName reference.name ∧ resolver reference.name setting.template = .ok reference.target

mutual

/-- The tags of a node can be written, and it refers to what they stand for. -/
def Node.WellFormed (setting : Setting) (resolver : Resolver ρ) : Node Unit ρ → Prop
  | .text _ _ => True
  | .interpolation _ expression _ => expression.Legible
  | .branch _ expression inverted body =>
    expression.Legible ∧ Guarded expression inverted body.nodes ∧
      body.contentType = setting.contentType ∧ WellFormedNodes setting resolver body.nodes
  | .inclusion reference => reference.Resolved setting resolver
  | .block part =>
    IsName part.name ∧ part.body.contentType = setting.contentType ∧
      WellFormedNodes setting resolver part.body.nodes
  | .layout outer =>
    outer.inclusion.Resolved setting resolver ∧ outer.inclusion.line = outer.line ∧
      outer.overrides.contentType = setting.contentType ∧
        WellFormedNodes setting resolver outer.overrides.nodes
termination_by structural node => node

/-- All of some nodes are well-formed. -/
def WellFormedNodes (setting : Setting) (resolver : Resolver ρ) : List (Node Unit ρ) → Prop
  | [] => True
  | node :: nodes => node.WellFormed setting resolver ∧ WellFormedNodes setting resolver nodes
termination_by structural nodes => nodes

end

/-- A template that could have been compiled. It is directly inside of no section. -/
def Body.WellFormed (setting : Setting) (resolver : Resolver ρ) (template : Template Unit ρ) : Prop :=
  template.contentType = setting.contentType ∧ WellFormedNodes setting resolver template.nodes

section

variable {setting : Setting} {resolver : Resolver ρ} {expression : Expr} {inverted : Bool}
  {nodes nodes' : List (Node Unit ρ)}

theorem wellFormedNodes_iff :
    WellFormedNodes setting resolver nodes ↔ ∀ node ∈ nodes, node.WellFormed setting resolver := by
  induction nodes with
  | nil => simp [WellFormedNodes]
  | cons node nodes ih => simp [WellFormedNodes, ih]

theorem wellFormedNodes_append :
    WellFormedNodes setting resolver (nodes ++ nodes') ↔
      WellFormedNodes setting resolver nodes ∧ WellFormedNodes setting resolver nodes' := by
  simp only [wellFormedNodes_iff, List.forall_mem_append]

theorem Guarded.nil : Guarded expression inverted ([] : List (Node Unit ρ)) := by
  intro before child after h
  simp at h

theorem Guarded.append (h : Guarded expression inverted nodes)
    (h' : Guarded expression inverted nodes') : Guarded expression inverted (nodes ++ nodes') := by
  intro before child after heq hchild
  rcases List.append_eq_append_iff.mp heq with ⟨between, rfl, hnodes'⟩ | ⟨between, hnodes, hafter⟩
  · obtain ⟨earlier, sibling, rfl, hsibling⟩ := h' between child after hnodes' hchild
    exact ⟨nodes ++ earlier, sibling, (List.append_assoc ..).symm, hsibling⟩
  · cases between with
    | nil =>
      -- the child is the first of the further nodes, where nothing stands before it
      obtain ⟨earlier, sibling, hempty, _⟩ := h' [] child after hafter.symm hchild
      simp at hempty
    | cons first between =>
      obtain ⟨rfl, _⟩ := List.cons.inj hafter
      exact h before child between hnodes hchild

theorem guarded_singleton {node : Node Unit ρ} (h : node.section? = none) :
    Guarded expression inverted [node] := by
  intro before child after heq hchild
  have hmem : child ∈ [node] := by simp [heq]
  rw [List.mem_singleton.mp hmem, h] at hchild
  cases hchild

/-! ## The branches of one section -/

/-- All nodes are branches of an expression. The first of them has the given polarity, and every other one
the polarity opposite to that of the one before it. -/
def Alternates (expression : Expr) : (inverted : Bool) → List (Node Unit ρ) → Prop
  | _, [] => True
  | inverted, node :: nodes =>
    node.section? = some (expression, inverted) ∧ Alternates expression (!inverted) nodes

theorem Alternates.of_split {before after : List (Node Unit ρ)} {child : Node Unit ρ}
    (h : Alternates expression inverted (before ++ child :: after)) :
    ∃ polarity, child.section? = some (expression, polarity) ∧
      (before = [] ∧ polarity = inverted ∨
        ∃ earlier sibling, before = earlier ++ [sibling] ∧
          sibling.section? = some (expression, !polarity)) := by
  induction before generalizing inverted with
  | nil => exact ⟨inverted, h.1, .inl ⟨rfl, rfl⟩⟩
  | cons node before ih =>
    obtain ⟨hnode, hrest⟩ := h
    obtain ⟨polarity, hchild, ⟨rfl, rfl⟩ | ⟨earlier, sibling, rfl, hsibling⟩⟩ := ih hrest
    · exact ⟨!inverted, hchild, .inr ⟨[], node, rfl, by rwa [Bool.not_not]⟩⟩
    · exact ⟨polarity, hchild, .inr ⟨node :: earlier, sibling, rfl, hsibling⟩⟩

/-- Branches that alternate are guarded inside any section that their first tag does not continue. -/
theorem Alternates.guarded (h : Alternates expression inverted nodes) {expression' : Expr}
    {inverted' : Bool}
    (hopens : some (expression', inverted') ≠ some (expression, !inverted)) :
    Guarded expression' inverted' nodes := by
  rintro before child after rfl hchild
  obtain ⟨polarity, hpolarity, hplace⟩ := h.of_split
  rw [hchild] at hpolarity
  obtain ⟨rfl, rfl⟩ := Prod.mk.inj (Option.some.inj hpolarity)
  rcases hplace with ⟨_, rfl⟩ | ⟨earlier, sibling, hbefore, hsibling⟩
  · rw [Bool.not_not] at hopens
    exact absurd rfl hopens
  · rw [Bool.not_not] at hsibling
    exact ⟨earlier, sibling, hbefore, hsibling⟩

/-! ## What the grammar derives -/

open Grammar

mutual

/-- The nodes of a sequence of items are well-formed and guarded inside the branch around them. -/
theorem wellFormed_of_forest {around : Option (Expr × Bool)} {tokens : List Token}
    {nodes : List (Node Unit ρ)} (h : Forest setting resolver around tokens nodes) :
    WellFormedNodes setting resolver nodes ∧
      ∀ expression inverted, around = some (expression, inverted) →
        Guarded expression inverted nodes := by
  match h with
  | .nil => exact ⟨trivial, fun _ _ _ => .nil⟩
  | .cons hitem hforest =>
    obtain ⟨hnodes, hguarded⟩ := wellFormed_of_item hitem
    obtain ⟨hnodes', hguarded'⟩ := wellFormed_of_forest hforest
    exact ⟨wellFormedNodes_append.mpr ⟨hnodes, hnodes'⟩,
      fun e i haround => (hguarded e i haround).append (hguarded' e i haround)⟩

/-- The nodes of an item are well-formed and guarded inside the branch around them. -/
theorem wellFormed_of_item {around : Option (Expr × Bool)} {tokens : List Token}
    {nodes : List (Node Unit ρ)} (h : Item setting resolver around tokens nodes) :
    WellFormedNodes setting resolver nodes ∧
      ∀ expression inverted, around = some (expression, inverted) →
        Guarded expression inverted nodes := by
  match h with
  | .skip _ => exact ⟨trivial, fun _ _ _ => .nil⟩
  | .text _ => exact ⟨⟨trivial, trivial⟩, fun _ _ _ => guarded_singleton rfl⟩
  | .interpolation _ hreads =>
    exact ⟨⟨⟨_, hreads⟩, trivial⟩, fun _ _ _ => guarded_singleton rfl⟩
  | .inclusion _ hname hresolve =>
    have hname := (parseName_eq_ok_iff.mp hname).2
    exact ⟨⟨⟨hname, hresolve⟩, trivial⟩, fun _ _ _ => guarded_singleton rfl⟩
  | .section _ hreads hopens hbranches =>
    obtain ⟨hnodes, halternates⟩ := wellFormed_of_branches ⟨_, hreads⟩ hbranches
    refine ⟨hnodes, ?_⟩
    rintro expression inverted rfl
    exact halternates.guarded hopens
  | .block _ hname hforest _ _ =>
    have hname := (parseName_eq_ok_iff.mp hname).2
    have hnodes := (wellFormed_of_forest hforest).1
    exact ⟨⟨⟨hname, rfl, hnodes⟩, trivial⟩, fun _ _ _ => guarded_singleton rfl⟩
  | .layout _ hname hforest _ _ hresolve =>
    have hname := (parseName_eq_ok_iff.mp hname).2
    have hnodes := (wellFormed_of_forest hforest).1
    exact ⟨⟨⟨⟨hname, hresolve⟩, rfl, rfl, hnodes⟩, trivial⟩, fun _ _ _ => guarded_singleton rfl⟩

/-- The branches of a section are well-formed, and their polarities alternate. -/
theorem wellFormed_of_branches {expression : Expr} {inverted : Bool} {opening : Token}
    {tokens : List Token} {nodes : List (Node Unit ρ)} (hlegible : expression.Legible)
    (h : Branches setting resolver expression inverted opening tokens nodes) :
    WellFormedNodes setting resolver nodes ∧ Alternates expression inverted nodes := by
  match h with
  | .last hforest _ _ =>
    obtain ⟨hnodes, hguarded⟩ := wellFormed_of_forest hforest
    exact ⟨⟨⟨hlegible, hguarded _ _ rfl, rfl, hnodes⟩, trivial⟩, rfl, trivial⟩
  | .alternative hforest _ _ hbranches =>
    obtain ⟨hnodes, hguarded⟩ := wellFormed_of_forest hforest
    obtain ⟨hnodes', halternates⟩ := wellFormed_of_branches hlegible hbranches
    exact ⟨⟨⟨hlegible, hguarded _ _ rfl, rfl, hnodes⟩, hnodes'⟩, rfl, halternates⟩

end

end

end Logicless
