import Logicless.Render.Context
import Mathlib.Logic.Basic

/-!
# Which layout overrides a block

A block is rendered by asking the layouts around it, from the innermost outwards, and each may replace
what the ones before it have found. In the end one of them decides. Among layouts of one template it is
the innermost that has an override for the block, since later ones are passed over; between layouts of
different templates it is the outermost.

## Shape of the proof

* `Layout.supplied` lists the blocks that a layout can put in the place of others. Asked for an override,
  a layout gives the last of them with the right name (`Layout.override_eq`).
* `Context.DecidedBy` says which layout of a chain decides. There is at most one
  (`DecidedBy.unique`).
* `Context.Walked` is the invariant of the walk along a chain: the templates that are used up are those
  of the layouts met so far that match the name, and the candidate is what the deciding one of these
  layouts supplies.
-/

namespace Logicless

/-! ## One layout -/

mutual

/-- The blocks that a node among the overrides of a layout supplies, in order. -/
def Node.supplied {μ ρ : Type} : Node μ ρ → List (Block μ (Node μ ρ))
  | .block part => [part]
  | .layout outer => suppliedAmong outer.overrides.nodes
  | .text _ _ | .interpolation _ _ _ | .branch _ _ _ _ | .inclusion _ => []
termination_by structural node => node

/-- The blocks that some nodes among the overrides of a layout supply, in order. -/
def suppliedAmong {μ ρ : Type} : List (Node μ ρ) → List (Block μ (Node μ ρ))
  | [] => []
  | node :: nodes => node.supplied ++ suppliedAmong nodes
termination_by structural nodes => nodes

end

section

variable {μ ρ : Type}

/-- The last of some blocks with a name. -/
def lastNamed? (name : String) (blocks : List (Block μ (Node μ ρ))) :
    Option (Block μ (Node μ ρ)) :=
  blocks.reverse.find? fun part => part.name = name

theorem lastNamed?_append (name : String) (blocks blocks' : List (Block μ (Node μ ρ))) :
    lastNamed? name (blocks ++ blocks') = (lastNamed? name blocks').or (lastNamed? name blocks) := by
  rw [lastNamed?, List.reverse_append, List.find?_append, ← lastNamed?, ← lastNamed?]

theorem name_of_lastNamed? {name : String} {blocks : List (Block μ (Node μ ρ))}
    {part : Block μ (Node μ ρ)} (h : lastNamed? name blocks = some part) : part.name = name := by
  have hname := List.find?_some h
  simpa using hname

theorem mem_of_lastNamed? {name : String} {blocks : List (Block μ (Node μ ρ))}
    {part : Block μ (Node μ ρ)} (h : lastNamed? name blocks = some part) : part ∈ blocks :=
  List.mem_reverse.mp (List.mem_of_find?_eq_some h)

/-- The choice of an override keeps the name. -/
theorem name_getD_lastNamed? (candidate : Block μ (Node μ ρ)) (blocks : List (Block μ (Node μ ρ))) :
    ((lastNamed? candidate.name blocks).getD candidate).name = candidate.name := by
  cases h : lastNamed? candidate.name blocks with
  | none => rfl
  | some part => exact name_of_lastNamed? h

mutual

/-- A node replaces a candidate by the last block with its name that it supplies. -/
theorem Node.override_eq (candidate : Block μ (Node μ ρ)) :
    (node : Node μ ρ) →
      node.override candidate = (lastNamed? candidate.name node.supplied).getD candidate
  | .block part => by
    simp only [Node.override, Node.supplied, lastNamed?, List.reverse_singleton, List.find?_singleton]
    split <;> simp_all
  | .layout outer => by
    simp only [Node.override, Node.supplied]
    exact overrideAll_eq candidate outer.overrides.nodes
  | .text _ _ | .interpolation _ _ _ | .branch _ _ _ _ | .inclusion _ => by
    simp [Node.override, Node.supplied, lastNamed?]

/-- Some nodes replace a candidate by the last block with its name that they supply. -/
theorem overrideAll_eq (candidate : Block μ (Node μ ρ)) :
    (nodes : List (Node μ ρ)) →
      overrideAll candidate nodes =
        (lastNamed? candidate.name (suppliedAmong nodes)).getD candidate
  | [] => by simp [overrideAll, suppliedAmong, lastNamed?]
  | node :: nodes => by
    rw [overrideAll, suppliedAmong, overrideAll_eq (node.override candidate) nodes,
      Node.override_eq candidate node, name_getD_lastNamed?, lastNamed?_append]
    cases lastNamed? candidate.name (suppliedAmong nodes) <;> rfl

end

namespace Layout

variable {layout : Layout μ ρ (Node μ ρ)} {block block' : Block μ (Node μ ρ)} {name : String}

/-- The blocks that a layout can put in the place of others, in order. -/
def supplied (layout : Layout μ ρ (Node μ ρ)) : List (Block μ (Node μ ρ)) :=
  suppliedAmong layout.overrides.nodes

/-- A layout matches a name if it replaces a block of that name. -/
def Matches (layout : Layout μ ρ (Node μ ρ)) (name : String) : Prop :=
  ∃ block, block.name = name ∧ (layout.override block).mark ≠ block.mark

/-- A layout replaces a block by the last one of its name that it supplies. -/
theorem override_eq (layout : Layout μ ρ (Node μ ρ)) (block : Block μ (Node μ ρ)) :
    layout.override block = (lastNamed? block.name layout.supplied).getD block :=
  overrideAll_eq block layout.overrides.nodes

/-- What a layout that matches a name supplies for it. -/
theorem exists_lastNamed?_of_matches (h : layout.Matches name) :
    ∃ part, lastNamed? name layout.supplied = some part := by
  obtain ⟨block, rfl, hne⟩ := h
  rw [override_eq] at hne
  cases hsupplied : lastNamed? block.name layout.supplied with
  | none =>
    rw [hsupplied] at hne
    exact absurd rfl hne
  | some part => exact ⟨part, rfl⟩

theorem override_mem_supplied (h : layout.Matches block.name) :
    layout.override block ∈ layout.supplied := by
  obtain ⟨part, hpart⟩ := exists_lastNamed?_of_matches h
  rw [override_eq, hpart]
  exact mem_of_lastNamed? hpart

/-- A layout that matches a name replaces all blocks of the name by the same one. -/
theorem override_congr (h : layout.Matches block.name) (hname : block'.name = block.name) :
    layout.override block' = layout.override block := by
  obtain ⟨part, hpart⟩ := exists_lastNamed?_of_matches h
  rw [override_eq, override_eq, hname, hpart]
  rfl

theorem name_override : (layout.override block).name = block.name := by
  rw [override_eq, name_getD_lastNamed?]

/-- A layout replaces a block that it does not supply itself exactly if it matches its name. -/
theorem mark_override_ne_iff (hforeign : ∀ part ∈ layout.supplied, part.mark ≠ block.mark) :
    (layout.override block).mark ≠ block.mark ↔ layout.Matches block.name := by
  constructor
  · intro hne
    exact ⟨block, rfl, hne⟩
  · intro hmatches
    exact hforeign _ (override_mem_supplied hmatches)

end Layout

end

/-! ## Chains -/

namespace Context

variable {ε : Type} {D : Domain ε} {μ ρ : Type}

/-- Behind the frames `near`, a layout is the first of its template that matches a name. -/
def FirstMatch (name : String) (near : Context D μ ρ) (layout : Layout μ ρ (Node μ ρ)) : Prop :=
  layout.Matches name ∧
    ∀ nearer, .layout nearer ∈ near → nearer.inclusion.target = layout.inclusion.target →
      ¬ nearer.Matches name

/-- The layout decides what is rendered in place of the blocks of a name: it is the outermost layout of
the chain that matches the name while no nearer one of the same template does. -/
def DecidedBy (context : Context D μ ρ) (name : String) (layout : Layout μ ρ (Node μ ρ)) : Prop :=
  ∃ near far, context = near ++ .layout layout :: far ∧ FirstMatch name near layout ∧
    ∀ between outer beyond, far = between ++ .layout outer :: beyond →
      ¬ FirstMatch name (near ++ .layout layout :: between) outer

/-- The block is none of those that the layouts of the chain supply. -/
def Foreign (context : Context D μ ρ) (block : Block μ (Node μ ρ)) : Prop :=
  ∀ layout, .layout layout ∈ context → ∀ part ∈ layout.supplied, part.mark ≠ block.mark

/-- Layouts of different templates supply different blocks. -/
def Separate (context : Context D μ ρ) : Prop :=
  ∀ layout layout', .layout layout ∈ context → .layout layout' ∈ context →
    layout.inclusion.target ≠ layout'.inclusion.target →
      ∀ part ∈ layout.supplied, ∀ part' ∈ layout'.supplied, part.mark ≠ part'.mark

namespace DecidedBy

variable {context near : Context D μ ρ} {frame : Frame D μ ρ} {name : String}
  {layout layout' : Layout μ ρ (Node μ ρ)}

/-- At most one layout decides. -/
theorem unique (h : context.DecidedBy name layout) (h' : context.DecidedBy name layout') :
    layout = layout' := by
  obtain ⟨near, far, rfl, hfirst, houtermost⟩ := h
  obtain ⟨near', far', heq, hfirst', houtermost'⟩ := h'
  rcases List.append_eq_append_iff.mp heq with ⟨between, rfl, hfar⟩ | ⟨between, rfl, hfar⟩
  · cases between with
    | nil =>
      obtain ⟨hframe, _⟩ := List.cons.inj hfar
      exact Frame.layout.inj hframe
    | cons frame between =>
      obtain ⟨rfl, rfl⟩ := List.cons.inj hfar
      exact absurd hfirst' (houtermost _ _ _ rfl)
  · cases between with
    | nil =>
      obtain ⟨hframe, _⟩ := List.cons.inj hfar
      exact (Frame.layout.inj hframe).symm
    | cons frame between =>
      obtain ⟨rfl, rfl⟩ := List.cons.inj hfar
      exact absurd hfirst (houtermost' _ _ _ rfl)

/-- A layout that is the first match of its template decides where the chain ends behind it. -/
theorem concat_self (h : FirstMatch name near layout) :
    DecidedBy (near ++ [.layout layout]) name layout := by
  refine ⟨near, [], rfl, h, ?_⟩
  intro between outer beyond hfar
  simp at hfar

/-- Frames behind the deciding layout change nothing unless they are first matches. -/
theorem concat (h : near.DecidedBy name layout)
    (hframe : ∀ outer, frame = .layout outer → ¬ FirstMatch name near outer) :
    DecidedBy (near ++ [frame]) name layout := by
  obtain ⟨nearer, far, rfl, hfirst, houtermost⟩ := h
  refine ⟨nearer, far ++ [frame], by simp, hfirst, ?_⟩
  intro between outer beyond hfar
  rcases List.eq_nil_or_concat beyond with rfl | ⟨beyond, last, rfl⟩
  · obtain ⟨rfl, hlast⟩ := List.append_inj' hfar rfl
    exact hframe outer (List.cons.inj hlast).1
  · rw [List.concat_eq_append, ← List.cons_append, ← List.append_assoc] at hfar
    obtain ⟨rfl, _⟩ := List.append_inj' hfar rfl
    exact houtermost between outer beyond rfl

end DecidedBy

/-! ## What a search can find -/

section Found

variable [DecidableEq μ] [DecidableEq ρ]

/-- A search ends at the candidate, or at a block of its name that a layout of the chain supplies. -/
theorem overrideFrom_cases (used : List ρ) (candidate : Block μ (Node μ ρ)) (context : Context D μ ρ) :
    (overrideFrom used candidate context).name = candidate.name ∧
      (overrideFrom used candidate context = candidate ∨
        ∃ layout, .layout layout ∈ context ∧ overrideFrom used candidate context ∈ layout.supplied) := by
  induction context generalizing used candidate with
  | nil => exact ⟨rfl, .inl rfl⟩
  | cons frame context ih =>
    -- what is found behind the first frame is found in the chain
    have hpass : (overrideFrom used candidate context).name = candidate.name ∧
        (overrideFrom used candidate context = candidate ∨
          ∃ layout, .layout layout ∈ frame :: context ∧
            overrideFrom used candidate context ∈ layout.supplied) := by
      obtain ⟨hname, heq | ⟨layout, hmem, hsupplied⟩⟩ := ih used candidate
      · exact ⟨hname, .inl heq⟩
      · exact ⟨hname, .inr ⟨layout, List.mem_cons_of_mem _ hmem, hsupplied⟩⟩
    cases frame with
    | value value => exact hpass
    | layout outer =>
      rw [overrideFrom]
      split
      · exact hpass
      · dsimp only
        split
        · exact hpass
        · rename_i hmark
          obtain ⟨hname, heq | ⟨layout, hmem, hsupplied⟩⟩ :=
            ih (outer.inclusion.target :: used) (outer.override candidate)
          · rw [heq]
            refine ⟨Layout.name_override, .inr ⟨outer, List.mem_cons_self, ?_⟩⟩
            exact Layout.override_mem_supplied ⟨candidate, rfl, hmark⟩
          · refine ⟨hname.trans Layout.name_override, .inr ⟨layout, ?_, hsupplied⟩⟩
            exact List.mem_cons_of_mem _ hmem

/-- A block is replaced by a block of its name: by itself or by one that a layout of the chain
supplies. -/
theorem override_cases (context : Context D μ ρ) (block : Block μ (Node μ ρ)) :
    (context.override block).name = block.name ∧
      (context.override block = block ∨
        ∃ layout, .layout layout ∈ context ∧ context.override block ∈ layout.supplied) :=
  overrideFrom_cases [] block context

end Found

section Walk

variable {context near : Context D μ ρ} {used : List ρ}
  {block candidate : Block μ (Node μ ρ)} {layout : Layout μ ρ (Node μ ρ)}

/-- How far the search for the override of a block has come behind the frames `near`. -/
structure Walked (block : Block μ (Node μ ρ)) (near : Context D μ ρ) (used : List ρ)
    (candidate : Block μ (Node μ ρ)) : Prop where
  used_iff : ∀ target, target ∈ used ↔
    ∃ layout, .layout layout ∈ near ∧ layout.inclusion.target = target ∧ layout.Matches block.name
  candidate_eq : (used = [] ∧ candidate = block) ∨
    ∃ layout, near.DecidedBy block.name layout ∧ candidate = layout.override block

namespace Walked

theorem nil (block : Block μ (Node μ ρ)) : Walked block ([] : Context D μ ρ) [] block where
  used_iff := by simp
  candidate_eq := .inl ⟨rfl, rfl⟩

theorem name_eq (h : Walked block near used candidate) : candidate.name = block.name := by
  rcases h.candidate_eq with ⟨_, rfl⟩ | ⟨layout, _, rfl⟩
  · rfl
  · exact Layout.name_override

/-- A layout is a first match exactly if it matches and its template is not used up. -/
theorem firstMatch_iff (h : Walked block near used candidate) :
    FirstMatch block.name near layout ↔
      layout.Matches block.name ∧ layout.inclusion.target ∉ used := by
  rw [FirstMatch, h.used_iff]
  constructor
  · rintro ⟨hmatches, hnearer⟩
    refine ⟨hmatches, ?_⟩
    rintro ⟨nearer, hmem, htarget, hmatches'⟩
    exact hnearer nearer hmem htarget hmatches'
  · rintro ⟨hmatches, hunused⟩
    refine ⟨hmatches, ?_⟩
    intro nearer hmem htarget hmatches'
    exact hunused ⟨nearer, hmem, htarget, hmatches'⟩

/-- The search goes past a frame that is no first match. -/
theorem pass (h : Walked block near used candidate) {frame : Frame D μ ρ}
    (hframe : ∀ outer, frame = .layout outer → ¬ FirstMatch block.name near outer) :
    Walked block (near ++ [frame]) used candidate where
  used_iff := by
    intro target
    rw [h.used_iff]
    constructor
    · rintro ⟨layout, hmem, htarget, hmatches⟩
      exact ⟨layout, List.mem_append_left _ hmem, htarget, hmatches⟩
    · rintro ⟨layout, hmem, rfl, hmatches⟩
      rcases List.mem_append.mp hmem with hmem | hmem
      · exact ⟨layout, hmem, rfl, hmatches⟩
      · -- a match that is not the first one has a nearer layout of its template before it
        have hnot := hframe layout (List.mem_singleton.mp hmem).symm
        rw [h.firstMatch_iff, not_and_not_right] at hnot
        exact (h.used_iff _).mp (hnot hmatches)
  candidate_eq := by
    rcases h.candidate_eq with hnone | ⟨layout, hdecided, rfl⟩
    · exact .inl hnone
    · exact .inr ⟨layout, hdecided.concat hframe, rfl⟩

/-- The search takes what a first match supplies. -/
theorem take (h : Walked block near used candidate) (hfirst : FirstMatch block.name near layout) :
    Walked block (near ++ [.layout layout]) (layout.inclusion.target :: used)
      (layout.override candidate) where
  used_iff := by
    intro target
    rw [List.mem_cons, h.used_iff]
    constructor
    · rintro (rfl | ⟨nearer, hmem, htarget, hmatches⟩)
      · exact ⟨layout, by simp, rfl, hfirst.1⟩
      · exact ⟨nearer, List.mem_append_left _ hmem, htarget, hmatches⟩
    · rintro ⟨nearer, hmem, rfl, hmatches⟩
      rcases List.mem_append.mp hmem with hmem | hmem
      · exact .inr ⟨nearer, hmem, rfl, hmatches⟩
      · obtain rfl := Frame.layout.inj (List.mem_singleton.mp hmem)
        exact .inl rfl
  candidate_eq :=
    .inr ⟨layout, .concat_self hfirst, Layout.override_congr hfirst.1 h.name_eq⟩

/-- A layout whose template is not used up supplies no candidate that was found before it. -/
theorem foreign (h : Walked block near used candidate) (hmem : .layout layout ∈ context)
    (hnear : ∀ frame ∈ near, frame ∈ context) (hforeign : context.Foreign block)
    (hseparate : context.Separate) (hunused : layout.inclusion.target ∉ used) :
    ∀ part ∈ layout.supplied, part.mark ≠ candidate.mark := by
  rcases h.candidate_eq with ⟨_, rfl⟩ | ⟨nearer, ⟨before, after, rfl, hfirst, _⟩, rfl⟩
  · exact hforeign layout hmem
  · intro part hpart
    have hnearer : Frame.layout nearer ∈ before ++ .layout nearer :: after := by simp
    have htarget : layout.inclusion.target ≠ nearer.inclusion.target := by
      intro heq
      exact hunused ((h.used_iff _).mpr ⟨nearer, hnearer, heq.symm, hfirst.1⟩)
    exact hseparate layout nearer hmem (hnear _ hnearer) htarget part hpart _
      (Layout.override_mem_supplied hfirst.1)

/-- Once a layout matches, one of the layouts met so far decides. -/
theorem exists_decidedBy (h : Walked block near used candidate) (hmem : .layout layout ∈ near)
    (hmatches : layout.Matches block.name) :
    ∃ layout, near.DecidedBy block.name layout ∧ candidate = layout.override block := by
  rcases h.candidate_eq with ⟨rfl, _⟩ | hdecided
  · have hused := (h.used_iff layout.inclusion.target).mpr ⟨layout, hmem, rfl, hmatches⟩
    cases hused
  · exact hdecided

variable [DecidableEq μ] [DecidableEq ρ]

/-- The search to the end of a chain. -/
theorem overrideFrom (hforeign : context.Foreign block) (hseparate : context.Separate)
    {far : Context D μ ρ} (h : Walked block near used candidate) (hcontext : context = near ++ far) :
    ∃ used', Walked block context used' (overrideFrom used candidate far) := by
  induction far generalizing near used candidate with
  | nil =>
    rw [List.append_nil] at hcontext
    subst hcontext
    exact ⟨used, h⟩
  | cons frame far ih =>
    have hcontext' : context = (near ++ [frame]) ++ far := by simp [hcontext]
    cases frame with
    | value value => exact ih (h.pass (by simp)) hcontext'
    | layout layout =>
      rw [Context.overrideFrom]
      by_cases hused : layout.inclusion.target ∈ used
      · -- a layout of a used template is passed over, and it is no first match
        rw [if_pos hused]
        refine ih (h.pass ?_) hcontext'
        rintro outer ⟨⟩ hfirst
        exact (h.firstMatch_iff.mp hfirst).2 hused
      · rw [if_neg hused]
        have hmem : Frame.layout layout ∈ context := by simp [hcontext]
        have hnear : ∀ frame ∈ near, frame ∈ context := by
          intro frame hframe
          rw [hcontext]
          exact List.mem_append_left _ hframe
        -- the candidate is foreign to the layout, so a new mark tells that the layout matches
        have hmark := Layout.mark_override_ne_iff (h.foreign hmem hnear hforeign hseparate hused)
        rw [h.name_eq] at hmark
        dsimp only
        by_cases hmatches : layout.Matches block.name
        · rw [if_neg (hmark.mpr hmatches)]
          exact ih (h.take (h.firstMatch_iff.mpr ⟨hmatches, hused⟩)) hcontext'
        · rw [if_pos (not_not.mp (mt hmark.mp hmatches))]
          refine ih (h.pass ?_) hcontext'
          rintro outer ⟨⟩ hfirst
          exact hmatches hfirst.1

end Walked

variable [DecidableEq μ] [DecidableEq ρ]

/-- A block is replaced by what the deciding layout supplies for its name. There is one as soon as any
layout of the chain matches the name, and otherwise the block stays as it is. -/
theorem overrideNode_of_decidedBy (hforeign : context.Foreign block)
    (hseparate : context.Separate) :
    (∀ layout, context.DecidedBy block.name layout →
      layout.override block ∈ layout.supplied ∧
        context.overrideNode (.block block) = .block (layout.override block)) ∧
      ((∃ layout, .layout layout ∈ context ∧ layout.Matches block.name) →
        ∃ layout, context.DecidedBy block.name layout) ∧
      ((∀ layout, .layout layout ∈ context → ¬ layout.Matches block.name) →
        context.overrideNode (.block block) = .block block) := by
  obtain ⟨used, hwalked⟩ := (Walked.nil block).overrideFrom hforeign hseparate (List.nil_append _).symm
  have hnode : context.overrideNode (.block block) = .block (overrideFrom [] block context) := rfl
  rw [hnode]
  refine ⟨?_, ?_, ?_⟩
  · intro layout hdecided
    obtain ⟨near, far, hcontext, hfirst, _⟩ := id hdecided
    have hmem : Frame.layout layout ∈ context := by simp [hcontext]
    obtain ⟨layout', hdecided', heq⟩ := hwalked.exists_decidedBy hmem hfirst.1
    obtain rfl := hdecided.unique hdecided'
    rw [heq]
    exact ⟨Layout.override_mem_supplied hfirst.1, rfl⟩
  · rintro ⟨layout, hmem, hmatches⟩
    obtain ⟨layout', hdecided, _⟩ := hwalked.exists_decidedBy hmem hmatches
    exact ⟨layout', hdecided⟩
  · intro hnone
    rcases hwalked.candidate_eq with ⟨_, heq⟩ | ⟨layout, ⟨near, far, hcontext, hfirst, _⟩, _⟩
    · rw [heq]
    · exact absurd hfirst.1 (hnone layout (by simp [hcontext]))

end Walk

/-! ### Two instances of one template around another -/

/-- A layout of a template with an override of the block `main`. -/
def mainLayout (target mark : Nat) : Layout Nat Nat (Node Nat Nat) :=
  ⟨1, ⟨1, "layout", target⟩, ⟨mark, .html, [.block ⟨mark, 1, "main", ⟨mark, .html, []⟩⟩]⟩⟩

/-- A layout of one template between two layouts of another. -/
def interleaved : Context .standard Nat Nat :=
  [.layout (mainLayout 0 1), .layout (mainLayout 1 2), .layout (mainLayout 0 3)]

theorem matches_mainLayout (target mark : Nat) : (mainLayout target (mark + 1)).Matches "main" := by
  refine ⟨⟨0, 1, "main", ⟨0, .html, []⟩⟩, rfl, ?_⟩
  simp [mainLayout, Layout.override, overrideAll, Node.override]

theorem mark_of_mem_supplied_mainLayout {target mark : Nat} {part : Block Nat (Node Nat Nat)}
    (h : part ∈ (mainLayout target mark).supplied) : part.mark = mark := by
  obtain rfl : part = ⟨mark, 1, "main", ⟨mark, .html, []⟩⟩ := by
    simpa [mainLayout, Layout.supplied, suppliedAmong, Node.supplied] using h
  rfl

/-- The layout in the middle decides: the outermost one is passed over for the innermost one, which is
of the same template. -/
theorem overrideNode_interleaved :
    let block : Block Nat (Node Nat Nat) := ⟨0, 1, "main", ⟨0, .html, []⟩⟩
    interleaved.Foreign block ∧ interleaved.Separate ∧
      interleaved.DecidedBy block.name (mainLayout 1 2) ∧
      interleaved.overrideNode (.block block) = .block ((mainLayout 1 2).override block) := by
  intro block
  have hforeign : interleaved.Foreign block := by
    simp [Foreign, interleaved, block, mainLayout, Layout.supplied, suppliedAmong, Node.supplied]
  have hseparate : interleaved.Separate := by
    intro layout layout' hmem hmem' htarget part hpart part' hpart'
    simp only [interleaved, List.mem_cons, Frame.layout.injEq, List.not_mem_nil, or_false]
      at hmem hmem'
    rcases hmem with rfl | rfl | rfl <;> rcases hmem' with rfl | rfl | rfl <;>
      rw [mark_of_mem_supplied_mainLayout hpart, mark_of_mem_supplied_mainLayout hpart'] <;>
      first | decide | exact absurd rfl htarget
  have hdecided : interleaved.DecidedBy block.name (mainLayout 1 2) := by
    show DecidedBy ([.layout (mainLayout 0 1)] ++ [.layout (mainLayout 1 2)] ++
      [.layout (mainLayout 0 3)]) "main" (mainLayout 1 2)
    refine .concat (.concat_self ⟨matches_mainLayout 1 1, ?_⟩) ?_
    · simp [mainLayout]
    · rintro outer ⟨⟩ hfirst
      exact hfirst.2 (mainLayout 0 1) (by simp) rfl (matches_mainLayout 0 0)
  exact ⟨hforeign, hseparate, hdecided,
    ((overrideNode_of_decidedBy hforeign hseparate).1 _ hdecided).2⟩

end Context

end Logicless
