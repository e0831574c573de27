import Logicless.Proofs.Render.Precedence
import Logicless.Proofs.Render.Scene
import Mathlib.Data.Set.Function

/-!
# Overrides without marks

While the override of a block is searched for, marks are compared in one place: a layout that answers
with the candidate itself has not replaced it. But a candidate never meets the layout that supplies it. A
block that is rendered is not among the overrides of a layout to begin with, and one that is taken from
the overrides of a layout uses up the template of the layout. So it is enough to ask each layout for a
block of the name, and which marks the blocks have does not show.

## Shape of the proof

* `Node.Attributed` says that marks tell blocks apart by the layouts that supply them: blocks that no
  layout supplies have no owner, and blocks among overrides are owned by the template of the layout. The
  marks that a slot gives out do so (`attributed_stampNodes`).
* `chooseFrom` is the search without marks. `Context.overrideFrom_eq_chooseFrom` says that it finds the
  same block, and `chooseFrom_relabel` that it commutes with giving other targets to inclusions.
-/

namespace Logicless

variable {μ μ' ρ ρ' : Type}

/-! ## The owners of blocks -/

mutual

/-- Marks have the right owners inside a node. Around the node there may be the overrides of a layout,
for the template `around`. -/
def Node.Attributed (owner : μ → Option ρ) : (around : Option ρ) → Node μ ρ → Prop
  | _, .text _ _ | _, .interpolation _ _ _ | _, .inclusion _ => True
  | _, .branch _ _ _ body => AttributedAmong owner none body.nodes
  | around, .block part => owner part.mark = around ∧ AttributedAmong owner none part.body.nodes
  | around, .layout outer =>
    AttributedAmong owner (some (around.getD outer.inclusion.target)) outer.overrides.nodes
termination_by structural _ node => node

/-- Marks have the right owners inside some nodes. -/
def AttributedAmong (owner : μ → Option ρ) : (around : Option ρ) → List (Node μ ρ) → Prop
  | _, [] => True
  | around, node :: nodes => node.Attributed owner around ∧ AttributedAmong owner around nodes
termination_by structural _ nodes => nodes

end

theorem attributedAmong_iff {owner : μ → Option ρ} {around : Option ρ} {nodes : List (Node μ ρ)} :
    AttributedAmong owner around nodes ↔ ∀ node ∈ nodes, node.Attributed owner around := by
  induction nodes with
  | nil => simp [AttributedAmong]
  | cons node nodes ih => rw [AttributedAmong, ih, List.forall_mem_cons]

section Supplied

variable {owner : μ → Option ρ} {target : ρ}

mutual

theorem Node.attributed_of_mem_supplied : (node : Node μ ρ) → node.Attributed owner (some target) →
    ∀ part ∈ node.supplied, owner part.mark = some target ∧ AttributedAmong owner none part.body.nodes
  | .block other, h => by
    rw [Node.Attributed] at h
    rw [Node.supplied]
    exact List.forall_mem_singleton.mpr h
  | .layout outer, h => by
    rw [Node.Attributed] at h
    rw [Node.supplied]
    exact attributed_of_mem_suppliedAmong outer.overrides.nodes h
  | .text _ _, _ | .interpolation _ _ _, _ | .branch _ _ _ _, _ | .inclusion _, _ => by
    rw [Node.supplied]
    exact List.forall_mem_nil _

theorem attributed_of_mem_suppliedAmong : (nodes : List (Node μ ρ)) →
    AttributedAmong owner (some target) nodes →
      ∀ part ∈ suppliedAmong nodes,
        owner part.mark = some target ∧ AttributedAmong owner none part.body.nodes
  | [], _ => by
    rw [suppliedAmong]
    exact List.forall_mem_nil _
  | node :: nodes, h => by
    rw [AttributedAmong] at h
    rw [suppliedAmong]
    exact List.forall_mem_append.mpr
      ⟨Node.attributed_of_mem_supplied node h.1, attributed_of_mem_suppliedAmong nodes h.2⟩

end

/-- What a layout supplies is owned by its template. -/
theorem Layout.attributed_of_mem_supplied {outer : Layout μ ρ (Node μ ρ)}
    (h : (Node.layout outer).Attributed owner none) {part : Block μ (Node μ ρ)}
    (hpart : part ∈ outer.supplied) :
    owner part.mark = some outer.inclusion.target ∧ AttributedAmong owner none part.body.nodes := by
  rw [Node.Attributed] at h
  exact attributed_of_mem_suppliedAmong outer.overrides.nodes h part hpart

end Supplied

/-! ### The marks of a slot -/

/-- The owner of the block at the end of a path through some nodes. -/
def ownerAmong : (path : List Nat) → (around : Option ρ) → List (Node μ ρ) → Option ρ
  | [], _, _ => none
  | position :: path, around, nodes =>
    match nodes[position]? with
    | some (.block part) => if path.isEmpty then around else ownerAmong path none part.body.nodes
    | some (.branch _ _ _ body) => ownerAmong path none body.nodes
    | some (.layout outer) =>
      ownerAmong path (some (around.getD outer.inclusion.target)) outer.overrides.nodes
    | _ => none

section Stamp

variable {owner : Mark → Option ρ} {slot : Slot}

/-- Where marks have the owners that are found at their places in a node, they have those that are found
in its body. -/
theorem owner_below {places : List Nat} {around around' : Option ρ} {node : Node Mark ρ}
    {nodes : List (Node Mark ρ)}
    (h : ∀ path, owner ⟨slot, path.reverse ++ places⟩ = ownerAmong (0 :: path) around [node])
    (hbody : ∀ position path,
      ownerAmong (0 :: position :: path) around [node] = ownerAmong (position :: path) around' nodes)
    (position : Nat) (path : List Nat) :
    owner ⟨slot, path.reverse ++ (0 + position) :: places⟩ =
      ownerAmong (position :: path) around' nodes := by
  rw [← hbody, ← h, List.reverse_cons, List.append_assoc, Nat.zero_add]
  rfl

mutual

theorem attributed_stamp : (node : Node Unit ρ) → (places : List Nat) → (around : Option ρ) →
    (∀ path, owner ⟨slot, path.reverse ++ places⟩ =
      ownerAmong (0 :: path) around [node.stamp ⟨slot, places⟩]) →
    (node.stamp ⟨slot, places⟩).Attributed owner around
  | .text _ _, _, _, _ | .interpolation _ _ _, _, _, _ | .inclusion _, _, _, _ => by
    simp only [Node.stamp, Node.Attributed]
  | .branch _ _ _ body, places, around, h => by
    rw [Node.stamp] at h ⊢
    rw [Node.Attributed]
    exact attributed_stampNodes body.nodes places 0 none (owner_below h fun _ _ => rfl)
  | .block part, places, around, h => by
    rw [Node.stamp] at h ⊢
    rw [Node.Attributed]
    exact ⟨h [], attributed_stampNodes part.body.nodes places 0 none (owner_below h fun _ _ => rfl)⟩
  | .layout outer, places, around, h => by
    rw [Node.stamp] at h ⊢
    rw [Node.Attributed]
    exact attributed_stampNodes outer.overrides.nodes places 0 _ (owner_below h fun _ _ => rfl)

/-- The marks that a slot gives out have the owners that are found at their places. -/
theorem attributed_stampNodes : (nodes : List (Node Unit ρ)) → (places : List Nat) →
    (start : Nat) → (around : Option ρ) →
    (∀ position path, owner ⟨slot, path.reverse ++ (start + position) :: places⟩ =
      ownerAmong (position :: path) around (stampNodes ⟨slot, places⟩ start nodes)) →
    AttributedAmong owner around (stampNodes ⟨slot, places⟩ start nodes)
  | [], _, _, _, _ => by
    simp only [stampNodes, AttributedAmong]
  | node :: nodes, places, start, around, h => by
    rw [stampNodes] at h ⊢
    rw [AttributedAmong]
    constructor
    · exact attributed_stamp node (start :: places) around fun path => h 0 path
    · refine attributed_stampNodes nodes places (start + 1) around fun position path => ?_
      rw [Nat.add_right_comm start 1 position]
      exact h (position + 1) path

end

end Stamp

/-! ## The search -/

/-- The block that replaces a candidate according to some layouts, the innermost first. A layout is
passed over if its template is among those `used`; a template is used once a layout of it has supplied a
block of the name. -/
def chooseFrom [DecidableEq ρ] (used : List ρ) (candidate : Block μ (Node μ ρ)) :
    List (Layout μ ρ (Node μ ρ)) → Block μ (Node μ ρ)
  | [] => candidate
  | outer :: layouts =>
    if outer.inclusion.target ∈ used then chooseFrom used candidate layouts
    else
      match lastNamed? candidate.name outer.supplied with
      | none => chooseFrom used candidate layouts
      | some part => chooseFrom (outer.inclusion.target :: used) part layouts

/-- Where marks have the right owners, the search finds the same block without them. The template of the
layout that owns the candidate is always used up. -/
theorem Context.overrideFrom_eq_chooseFrom [DecidableEq μ] [DecidableEq ρ] {ε : Type} {D : Domain ε}
    {owner : μ → Option ρ}
    {layouts : List (Layout μ ρ (Node μ ρ))} {used : List ρ} {candidate : Block μ (Node μ ρ)}
    (hlayouts : ∀ outer ∈ layouts, (Node.layout outer).Attributed owner none)
    (hcandidate : ∀ target, owner candidate.mark = some target → target ∈ used) :
    overrideFrom used candidate (ofLayouts D layouts) = chooseFrom used candidate layouts := by
  induction layouts generalizing used candidate with
  | nil => rfl
  | cons outer layouts ih =>
    obtain ⟨houter, hlayouts⟩ := List.forall_mem_cons.mp hlayouts
    rw [ofLayouts, List.map_cons, overrideFrom, chooseFrom, Layout.override_eq]
    by_cases hused : outer.inclusion.target ∈ used
    · rw [if_pos hused, if_pos hused]
      exact ih hlayouts hcandidate
    · rw [if_neg hused, if_neg hused]
      cases hfound : lastNamed? candidate.name outer.supplied with
      | none =>
        rw [Option.getD_none, if_pos rfl]
        exact ih hlayouts hcandidate
      | some part =>
        have howner := (Layout.attributed_of_mem_supplied houter (mem_of_lastNamed? hfound)).1
        have hne : part.mark ≠ candidate.mark := by
          intro heq
          rw [heq] at howner
          exact hused (hcandidate _ howner)
        rw [Option.getD_some, if_neg hne]
        refine ih hlayouts fun target htarget => ?_
        rw [howner] at htarget
        rw [← Option.some.inj htarget]
        exact List.mem_cons_self

/-! ### Other targets -/

section Relabel

variable (onMark : μ → μ') (onTarget : Inclusion ρ → ρ')

mutual

theorem Node.supplied_relabel : (node : Node μ ρ) →
    (node.relabel onMark onTarget).supplied = node.supplied.map (Block.relabel onMark onTarget)
  | .block part => by
    rw [Node.relabel_block, Node.supplied, Node.supplied, List.map_singleton]
  | .layout outer => by
    rw [Node.relabel_layout, Node.supplied, Node.supplied]
    exact suppliedAmong_relabelNodes outer.overrides.nodes
  | .text _ _ | .interpolation _ _ _ | .branch _ _ _ _ | .inclusion _ => by
    simp only [Node.relabel, Node.supplied, List.map_nil]

theorem suppliedAmong_relabelNodes : (nodes : List (Node μ ρ)) →
    suppliedAmong (relabelNodes onMark onTarget nodes) =
      (suppliedAmong nodes).map (Block.relabel onMark onTarget)
  | [] => by simp only [relabelNodes, suppliedAmong, List.map_nil]
  | node :: nodes => by
    rw [relabelNodes, suppliedAmong, suppliedAmong, Node.supplied_relabel node,
      suppliedAmong_relabelNodes nodes, List.map_append]

end

/-- A layout with other labels supplies the same blocks, with other labels. -/
theorem Layout.supplied_relabel (outer : Layout μ ρ (Node μ ρ)) :
    (outer.relabel onMark onTarget).supplied = outer.supplied.map (Block.relabel onMark onTarget) :=
  suppliedAmong_relabelNodes onMark onTarget outer.overrides.nodes

theorem lastNamed?_map_relabel (name : String) (blocks : List (Block μ (Node μ ρ))) :
    lastNamed? name (blocks.map (Block.relabel onMark onTarget)) =
      (lastNamed? name blocks).map (Block.relabel onMark onTarget) := by
  rw [lastNamed?, ← List.map_reverse, List.find?_map]
  rfl

end Relabel

/-- The search does not depend on what stands for the templates, as long as they are told apart. -/
theorem chooseFrom_relabel [DecidableEq ρ] [DecidableEq ρ'] (onMark : μ → μ') {onTarget : ρ → ρ'}
    {targets : Set ρ} (hinjective : Set.InjOn onTarget targets)
    {layouts : List (Layout μ ρ (Node μ ρ))} {used : List ρ} (candidate : Block μ (Node μ ρ))
    (hlayouts : ∀ outer ∈ layouts, outer.inclusion.target ∈ targets)
    (hused : ∀ target ∈ used, target ∈ targets) :
    chooseFrom (used.map onTarget) (candidate.relabel onMark fun reference => onTarget reference.target)
        (layouts.map (Layout.relabel onMark fun reference => onTarget reference.target)) =
      (chooseFrom used candidate layouts).relabel onMark fun reference => onTarget reference.target := by
  induction layouts generalizing used candidate with
  | nil => rfl
  | cons outer layouts ih =>
    obtain ⟨houter, hlayouts⟩ := List.forall_mem_cons.mp hlayouts
    have hmem : onTarget outer.inclusion.target ∈ used.map onTarget ↔
        outer.inclusion.target ∈ used := by
      refine ⟨fun h => ?_, fun h => List.mem_map_of_mem h⟩
      obtain ⟨target, htarget, heq⟩ := List.mem_map.mp h
      rwa [← hinjective (hused target htarget) houter heq]
    rw [List.map_cons, chooseFrom, chooseFrom, Layout.supplied_relabel, Layout.target_relabel,
      Block.name_relabel, lastNamed?_map_relabel]
    by_cases h : outer.inclusion.target ∈ used
    · rw [if_pos h, if_pos (hmem.mpr h)]
      exact ih candidate hlayouts hused
    · rw [if_neg h, if_neg (hmem.not.mpr h)]
      cases lastNamed? candidate.name outer.supplied with
      | none => exact ih candidate hlayouts hused
      | some part => exact ih part hlayouts (List.forall_mem_cons.mpr ⟨houter, hused⟩)

end Logicless
