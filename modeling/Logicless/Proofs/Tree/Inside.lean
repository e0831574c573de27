import Logicless.Proofs.Tree.Inclusions
import Mathlib.Data.Set.Finite.Lattice

/-!
# Nodes inside each other

A tree holds more than the nodes at its top: there are nodes in the bodies of its sections and blocks
and among the overrides of its layouts, and again in those. There are finitely many of them, in a tree
and in a whole store.

## Shape of the module

* `Node.children` lists the nodes directly inside a node, and `Inside` says that a node is somewhere in
  a list of nodes. What passes to the children of a node passes to all that is inside it
  (`Inside.forall_of_children`).
* `finite_inside` counts the nodes of a tree and `Store.finite_contains` those of a store.
-/

namespace Logicless

variable {μ ρ : Type}

/-- The nodes directly inside a node. -/
def Node.children : Node μ ρ → List (Node μ ρ)
  | branch _ _ _ body => body.nodes
  | block part => part.body.nodes
  | layout outer => outer.overrides.nodes
  | text _ _ | interpolation _ _ _ | inclusion _ => []

/-- A node is another one, or inside it at some depth. -/
abbrev Node.Below (outer node : Node μ ρ) : Prop :=
  Relation.ReflTransGen (fun parent child => child ∈ parent.children) outer node

/-- A node is one of some nodes, or inside one of them, at any depth. -/
def Inside (node : Node μ ρ) (nodes : List (Node μ ρ)) : Prop :=
  ∃ top ∈ nodes, top.Below node

namespace Inside

variable {node : Node μ ρ} {nodes : List (Node μ ρ)}

theorem of_mem (h : node ∈ nodes) : Inside node nodes :=
  ⟨node, h, .refl⟩

theorem child {inner : Node μ ρ} (h : Inside node nodes) (hinner : inner ∈ node.children) :
    Inside inner nodes := by
  obtain ⟨top, htop, hinside⟩ := h
  exact ⟨top, htop, hinside.tail hinner⟩

/-- A property that passes to the nodes directly inside a node passes to all nodes inside it. -/
theorem forall_of_children (P : Node μ ρ → Prop) (h : Inside node nodes)
    (hnodes : ∀ node ∈ nodes, P node)
    (hchildren : ∀ node, P node → ∀ child ∈ node.children, P child) : P node := by
  obtain ⟨top, htop, hinside⟩ := h
  induction hinside with
  | refl => exact hnodes top htop
  | tail _ hchild ih => exact hchildren _ ih _ hchild

/-- Nodes inside a node that is inside some others. -/
theorem trans {outer : Node μ ρ} (h : Inside outer nodes) (hinner : Inside node outer.children) :
    Inside node nodes := by
  obtain ⟨top, htop, hinside⟩ := hinner
  obtain ⟨root, hroot, houter⟩ := h.child htop
  exact ⟨root, hroot, houter.trans hinside⟩

end Inside

/-- A node is below another one if it is that one or inside what is directly inside it. -/
theorem Node.below_iff {outer node : Node μ ρ} :
    outer.Below node ↔ node = outer ∨ Inside node outer.children := by
  rw [Below, Relation.ReflTransGen.cases_head_iff]
  constructor
  · rintro (rfl | ⟨child, hchild, hbelow⟩)
    · exact .inl rfl
    · exact .inr ⟨child, hchild, hbelow⟩
  · rintro (rfl | ⟨child, hchild, hbelow⟩)
    · exact .inl rfl
    · exact .inr ⟨child, hchild, hbelow⟩

/-! ## Inclusions -/

/-- What is included inside a node is included by it. -/
theorem Node.inclusions_subset_of_mem_children {node child : Node μ ρ} (h : child ∈ node.children) :
    child.inclusions ⊆ node.inclusions := by
  intro reference hreference
  cases node with
  | text | interpolation | inclusion => cases h
  | branch line expression inverted body =>
    rw [inclusions]
    exact mem_inclusionsAmong.mpr ⟨child, h, hreference⟩
  | block part =>
    rw [inclusions]
    exact mem_inclusionsAmong.mpr ⟨child, h, hreference⟩
  | layout outer =>
    rw [inclusions]
    exact List.mem_cons_of_mem _ (mem_inclusionsAmong.mpr ⟨child, h, hreference⟩)

/-- What is included anywhere inside some nodes is included by them. -/
theorem Inside.inclusions_subset {node : Node μ ρ} {nodes : List (Node μ ρ)} (h : Inside node nodes) :
    node.inclusions ⊆ inclusionsAmong nodes := by
  refine h.forall_of_children (fun node => node.inclusions ⊆ inclusionsAmong nodes) ?_ ?_
  · intro top htop reference hreference
    exact mem_inclusionsAmong.mpr ⟨top, htop, hreference⟩
  · intro parent hparent child hchild
    exact List.Subset.trans (Node.inclusions_subset_of_mem_children hchild) hparent

/-! ## There are finitely many -/

theorem finite_inside_nil : {node : Node μ ρ | Inside node []}.Finite := by
  simp [Inside]

theorem Node.finite_below_of_children {node : Node μ ρ}
    (h : {inner | Inside inner node.children}.Finite) : {inner | node.Below inner}.Finite := by
  refine (h.insert node).subset ?_
  intro inner hbelow
  exact Node.below_iff.mp hbelow

mutual

theorem Node.finite_below : (node : Node μ ρ) → {inner | node.Below inner}.Finite
  | .branch _ _ _ body => Node.finite_below_of_children (finite_inside body.nodes)
  | .block part => Node.finite_below_of_children (finite_inside part.body.nodes)
  | .layout outer => Node.finite_below_of_children (finite_inside outer.overrides.nodes)
  | .text _ _ | .interpolation _ _ _ | .inclusion _ =>
    Node.finite_below_of_children finite_inside_nil

/-- There are finitely many nodes inside some nodes. -/
theorem finite_inside : (nodes : List (Node μ ρ)) → {node | Inside node nodes}.Finite
  | [] => finite_inside_nil
  | node :: nodes => by
    refine ((Node.finite_below node).union (finite_inside nodes)).subset ?_
    rintro inner ⟨top, htop, hbelow⟩
    rcases List.mem_cons.mp htop with rfl | htop
    · exact .inl hbelow
    · exact .inr ⟨top, htop, hbelow⟩

end

/-! ## Stores -/

namespace Store

/-- A node is somewhere in a store. -/
def Contains (store : Store) (node : StoredNode) : Prop :=
  ∃ slot, Inside node (store.nodes slot)

/-- A node is somewhere in the template of one of these slots. -/
def Within (store : Store) (slots : Set Slot) (node : StoredNode) : Prop :=
  ∃ slot ∈ slots, Inside node (store.nodes slot)

variable {store : Store} {slots : Set Slot}

theorem within_univ : store.Within Set.univ = store.Contains := by
  funext node
  simp [Within, Contains]

theorem Within.contains {node : StoredNode} (h : store.Within slots node) : store.Contains node := by
  obtain ⟨slot, _, hinside⟩ := h
  exact ⟨slot, hinside⟩

theorem Within.child {node inner : StoredNode} (h : store.Within slots node)
    (hinner : inner ∈ node.children) : store.Within slots inner := by
  obtain ⟨slot, hslot, hinside⟩ := h
  exact ⟨slot, hslot, hinside.child hinner⟩

/-- What a node includes is included by its template. -/
theorem Within.includes {node : StoredNode} (h : store.Within slots node) {reference : Inclusion Slot}
    (hreference : reference ∈ node.inclusions) :
    ∃ slot ∈ slots, store.Includes slot reference.target := by
  obtain ⟨slot, hslot, hinside⟩ := h
  exact ⟨slot, hslot, reference, hinside.inclusions_subset hreference, rfl⟩

end Store

end Logicless
