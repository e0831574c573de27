import Logicless.Proofs.Tree.Inclusions

/-!
# Trees with other labels

A tree holds labels of two kinds: the marks of its blocks and bodies, and what stands for the templates
that it includes. Relabelling a tree replaces both and keeps everything else. The new target of an
inclusion may depend on its name, so that a tree whose targets were forgotten can be given others by
the names that are left.

## Shape of the module

* `Node.relabel` and `relabelNodes` replace the labels of a tree; `relabelNodes_relabelNodes` says that
  doing so twice is doing so once.
* `relabelNodes_congr` says that the targets of a relabelled tree depend on its own inclusions alone.
* `shapeOf` is a tree without labels.
* `unmark_stampNodes` takes the marks off a tree again that a slot has put on it.
-/

namespace Logicless

variable {μ μ' μ'' ρ ρ' ρ'' : Type}

/-- An inclusion with another target. -/
def Inclusion.retarget (onTarget : Inclusion ρ → ρ') (inclusion : Inclusion ρ) : Inclusion ρ' :=
  ⟨inclusion.line, inclusion.name, onTarget inclusion⟩

mutual

/-- A node with other marks and other targets. -/
def Node.relabel (onMark : μ → μ') (onTarget : Inclusion ρ → ρ') : Node μ ρ → Node μ' ρ'
  | .text line text => .text line text
  | .interpolation line expression escape => .interpolation line expression escape
  | .branch line expression inverted body =>
    .branch line expression inverted
      ⟨onMark body.mark, body.contentType, relabelNodes onMark onTarget body.nodes⟩
  | .inclusion reference => .inclusion (reference.retarget onTarget)
  | .block part =>
    .block ⟨onMark part.mark, part.line, part.name,
      ⟨onMark part.body.mark, part.body.contentType, relabelNodes onMark onTarget part.body.nodes⟩⟩
  | .layout outer =>
    .layout ⟨outer.line, outer.inclusion.retarget onTarget,
      ⟨onMark outer.overrides.mark, outer.overrides.contentType,
        relabelNodes onMark onTarget outer.overrides.nodes⟩⟩
termination_by structural node => node

/-- Some nodes with other marks and other targets. -/
def relabelNodes (onMark : μ → μ') (onTarget : Inclusion ρ → ρ') : List (Node μ ρ) → List (Node μ' ρ')
  | [] => []
  | node :: nodes => node.relabel onMark onTarget :: relabelNodes onMark onTarget nodes
termination_by structural nodes => nodes

end

/-- A block with other marks and other targets. -/
def Block.relabel (onMark : μ → μ') (onTarget : Inclusion ρ → ρ') (part : Block μ (Node μ ρ)) :
    Block μ' (Node μ' ρ') :=
  ⟨onMark part.mark, part.line, part.name,
    ⟨onMark part.body.mark, part.body.contentType, relabelNodes onMark onTarget part.body.nodes⟩⟩

/-- A layout with other marks and other targets. -/
def Layout.relabel (onMark : μ → μ') (onTarget : Inclusion ρ → ρ')
    (outer : Layout μ ρ (Node μ ρ)) : Layout μ' ρ' (Node μ' ρ') :=
  ⟨outer.line, outer.inclusion.retarget onTarget,
    ⟨onMark outer.overrides.mark, outer.overrides.contentType,
      relabelNodes onMark onTarget outer.overrides.nodes⟩⟩

theorem Block.name_relabel (onMark : μ → μ') (onTarget : Inclusion ρ → ρ')
    (part : Block μ (Node μ ρ)) : (part.relabel onMark onTarget).name = part.name :=
  rfl

theorem Layout.target_relabel (onMark : μ → μ') (onTarget : Inclusion ρ → ρ')
    (outer : Layout μ ρ (Node μ ρ)) :
    (outer.relabel onMark onTarget).inclusion.target = onTarget outer.inclusion :=
  rfl

theorem Node.relabel_block (onMark : μ → μ') (onTarget : Inclusion ρ → ρ')
    (part : Block μ (Node μ ρ)) :
    (Node.block part).relabel onMark onTarget = .block (part.relabel onMark onTarget) :=
  rfl

theorem Node.relabel_layout (onMark : μ → μ') (onTarget : Inclusion ρ → ρ')
    (outer : Layout μ ρ (Node μ ρ)) :
    (Node.layout outer).relabel onMark onTarget = .layout (outer.relabel onMark onTarget) :=
  rfl

theorem relabelNodes_eq_map (onMark : μ → μ') (onTarget : Inclusion ρ → ρ')
    (nodes : List (Node μ ρ)) :
    relabelNodes onMark onTarget nodes = nodes.map (Node.relabel onMark onTarget) := by
  induction nodes with
  | nil => rfl
  | cons node nodes ih => rw [relabelNodes, ih, List.map_cons]

theorem relabelNodes_append (onMark : μ → μ') (onTarget : Inclusion ρ → ρ')
    (nodes nodes' : List (Node μ ρ)) :
    relabelNodes onMark onTarget (nodes ++ nodes') =
      relabelNodes onMark onTarget nodes ++ relabelNodes onMark onTarget nodes' := by
  simp only [relabelNodes_eq_map, List.map_append]

/-! ## Relabelling twice -/

section Twice

variable (onMark : μ → μ') (onMark' : μ' → μ'') (onTarget : Inclusion ρ → ρ')
  (onTarget' : Inclusion ρ' → ρ'')

mutual

theorem Node.relabel_relabel : (node : Node μ ρ) →
    (node.relabel onMark onTarget).relabel onMark' onTarget' =
      node.relabel (onMark' ∘ onMark) (onTarget' ∘ Inclusion.retarget onTarget)
  | .text _ _ | .interpolation _ _ _ => by simp only [Node.relabel]
  | .inclusion _ => rfl
  | .branch _ _ _ body => by
    simp only [Node.relabel, relabelNodes_relabelNodes body.nodes]
    rfl
  | .block part => by
    simp only [Node.relabel, relabelNodes_relabelNodes part.body.nodes]
    rfl
  | .layout outer => by
    simp only [Node.relabel, relabelNodes_relabelNodes outer.overrides.nodes]
    rfl

/-- Replacing labels twice is replacing them once. -/
theorem relabelNodes_relabelNodes : (nodes : List (Node μ ρ)) →
    relabelNodes onMark' onTarget' (relabelNodes onMark onTarget nodes) =
      relabelNodes (onMark' ∘ onMark) (onTarget' ∘ Inclusion.retarget onTarget) nodes
  | [] => rfl
  | node :: nodes => by
    simp only [relabelNodes]
    rw [Node.relabel_relabel node, relabelNodes_relabelNodes nodes]

end

end Twice

/-! ## The inclusions of a relabelled tree -/

section Inclusions

variable (onMark : μ → μ') (onTarget : Inclusion ρ → ρ')

mutual

theorem inclusions_relabel : (node : Node μ ρ) →
    (node.relabel onMark onTarget).inclusions = node.inclusions.map (Inclusion.retarget onTarget)
  | .text _ _ | .interpolation _ _ _ | .inclusion _ => by
    simp only [Node.relabel, Node.inclusions, List.map_nil, List.map_cons]
  | .branch _ _ _ body => by
    simp only [Node.relabel, Node.inclusions]
    exact inclusionsAmong_relabelNodes body.nodes
  | .block part => by
    simp only [Node.relabel, Node.inclusions]
    exact inclusionsAmong_relabelNodes part.body.nodes
  | .layout outer => by
    simp only [Node.relabel, Node.inclusions, List.map_cons]
    rw [inclusionsAmong_relabelNodes outer.overrides.nodes]

/-- A relabelled tree has the same inclusions, with their new targets. -/
theorem inclusionsAmong_relabelNodes : (nodes : List (Node μ ρ)) →
    inclusionsAmong (relabelNodes onMark onTarget nodes) =
      (inclusionsAmong nodes).map (Inclusion.retarget onTarget)
  | [] => rfl
  | node :: nodes => by
    simp only [relabelNodes, inclusionsAmong, List.map_append]
    rw [inclusions_relabel node, inclusionsAmong_relabelNodes nodes]

end

variable {onTarget} {onTarget' : Inclusion ρ → ρ'}

mutual

theorem Node.relabel_congr : (node : Node μ ρ) →
    (∀ reference ∈ node.inclusions, onTarget reference = onTarget' reference) →
      node.relabel onMark onTarget = node.relabel onMark onTarget'
  | .text _ _, _ | .interpolation _ _ _, _ => by simp only [Node.relabel]
  | .inclusion reference, h => by
    simp only [Node.relabel, Inclusion.retarget, h reference (by simp [Node.inclusions])]
  | .branch _ _ _ body, h => by
    simp only [Node.inclusions] at h
    simp only [Node.relabel, relabelNodes_congr body.nodes h]
  | .block part, h => by
    simp only [Node.inclusions] at h
    simp only [Node.relabel, relabelNodes_congr part.body.nodes h]
  | .layout outer, h => by
    simp only [Node.inclusions, List.forall_mem_cons] at h
    simp only [Node.relabel, Inclusion.retarget, h.1, relabelNodes_congr outer.overrides.nodes h.2]

/-- The targets of a relabelled tree depend on the inclusions alone that occur in the tree. -/
theorem relabelNodes_congr : (nodes : List (Node μ ρ)) →
    (∀ reference ∈ inclusionsAmong nodes, onTarget reference = onTarget' reference) →
      relabelNodes onMark onTarget nodes = relabelNodes onMark onTarget' nodes
  | [], _ => rfl
  | node :: nodes, h => by
    simp only [inclusionsAmong, List.forall_mem_append] at h
    simp only [relabelNodes]
    rw [Node.relabel_congr node h.1, relabelNodes_congr nodes h.2]

end

end Inclusions

mutual

theorem Node.relabel_target : (node : Node μ ρ) → node.relabel id Inclusion.target = node
  | .text _ _ | .interpolation _ _ _ => by simp only [Node.relabel]
  | .inclusion _ => rfl
  | .branch _ _ _ body => by
    simp only [Node.relabel, relabelNodes_target body.nodes]
    rfl
  | .block part => by
    simp only [Node.relabel, relabelNodes_target part.body.nodes]
    rfl
  | .layout outer => by
    simp only [Node.relabel, relabelNodes_target outer.overrides.nodes]
    rfl

/-- Putting every label back into its place changes nothing. -/
theorem relabelNodes_target : (nodes : List (Node μ ρ)) →
    relabelNodes id Inclusion.target nodes = nodes
  | [] => rfl
  | node :: nodes => by rw [relabelNodes, Node.relabel_target node, relabelNodes_target nodes]

end

/-! ## Shapes -/

/-- A node without its labels. -/
def Node.shape (node : Node μ ρ) : Node Unit Unit :=
  node.relabel (fun _ => ()) (fun _ => ())

/-- Some nodes without their labels. -/
def shapeOf (nodes : List (Node μ ρ)) : List (Node Unit Unit) :=
  relabelNodes (fun _ => ()) (fun _ => ()) nodes

/-- A template without the targets of its inclusions. -/
def Body.shape (template : Template Unit ρ) : Template Unit Unit :=
  ⟨(), template.contentType, shapeOf template.nodes⟩

/-- A template without labels is its own shape. -/
theorem shape_eq_self (template : Template Unit Unit) : template.shape = template := by
  rw [Body.shape, show shapeOf template.nodes = template.nodes from relabelNodes_target _]

theorem shapeOf_append (nodes nodes' : List (Node μ ρ)) :
    shapeOf (nodes ++ nodes') = shapeOf nodes ++ shapeOf nodes' :=
  relabelNodes_append _ _ nodes nodes'

/-- The inclusions of a tree have their names from its shape. -/
theorem map_name_shapeOf (nodes : List (Node μ ρ)) :
    (inclusionsAmong (shapeOf nodes)).map Inclusion.name =
      (inclusionsAmong nodes).map Inclusion.name := by
  rw [shapeOf, inclusionsAmong_relabelNodes, List.map_map]
  rfl

/-! ## Marks -/

section Unmarked

variable (onTarget : Inclusion ρ → ρ')

mutual

theorem Node.unmark_stamp (mark : Mark) : (node : Node Unit ρ) →
    (node.stamp mark).relabel (fun _ => ()) onTarget = node.relabel id onTarget
  | .text _ _ | .interpolation _ _ _ | .inclusion _ => by
    simp only [Node.stamp, Node.relabel]
  | .branch _ _ _ body => by
    simp only [Node.stamp, Node.relabel, unmark_stampNodes mark 0 body.nodes]
  | .block part => by
    simp only [Node.stamp, Node.relabel, unmark_stampNodes mark 0 part.body.nodes]
  | .layout outer => by
    simp only [Node.stamp, Node.relabel, unmark_stampNodes mark 0 outer.overrides.nodes]

/-- Marks that are put on a tree and removed again leave the tree. -/
theorem unmark_stampNodes (mark : Mark) (position : Nat) : (nodes : List (Node Unit ρ)) →
    relabelNodes (fun _ => ()) onTarget (stampNodes mark position nodes) =
      relabelNodes id onTarget nodes
  | [] => rfl
  | node :: nodes => by
    simp only [stampNodes, relabelNodes]
    rw [Node.unmark_stamp _ node, unmark_stampNodes mark (position + 1) nodes]

end

end Unmarked

/-- A template has the same shape in its slot as outside the store. -/
theorem shapeOf_stamp (slot : Slot) (template : Template Unit Slot) :
    shapeOf (slot.stamp template) = shapeOf template.nodes :=
  unmark_stampNodes _ slot.mark 0 template.nodes

end Logicless
