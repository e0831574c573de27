import Logicless.Tree.Store
import Mathlib.Logic.Relation

/-!
# The inclusions of a tree

A tree refers to other templates by its inclusions, at any depth: in the bodies of sections and
blocks, in the overrides of layouts, and by the inclusion that a layout itself holds. Through them
one template of a store reaches others, in cycles where templates include themselves.

## Shape of the module

* `Node.inclusions` lists the inclusions of a node and `inclusionsAmong` those of several. Marks play
  no part in them (`inclusions_stamp`).
* `Store.Holds` says that a slot is filled, and with what. `Store.Evolves` says what may become of the
  slots of a store: it grows, or a placeholder is filled.
* `Store.Includes` relates a slot to the slots that its template includes; `Store.Sealed` slots reach
  filled slots alone. In a later store, they reach the same slots as before (`Sealed.reaches_iff`).
-/

namespace Logicless

mutual

/-- The inclusions of a node, at any depth. -/
def Node.inclusions {μ ρ : Type} : Node μ ρ → List (Inclusion ρ)
  | .text _ _ | .interpolation _ _ _ => []
  | .branch _ _ _ body => inclusionsAmong body.nodes
  | .inclusion reference => [reference]
  | .block part => inclusionsAmong part.body.nodes
  | .layout outer => outer.inclusion :: inclusionsAmong outer.overrides.nodes
termination_by structural node => node

/-- The inclusions of some nodes, at any depth. -/
def inclusionsAmong {μ ρ : Type} : List (Node μ ρ) → List (Inclusion ρ)
  | [] => []
  | node :: nodes => node.inclusions ++ inclusionsAmong nodes
termination_by structural nodes => nodes

end

theorem mem_inclusionsAmong {μ ρ : Type} {reference : Inclusion ρ} {nodes : List (Node μ ρ)} :
    reference ∈ inclusionsAmong nodes ↔ ∃ node ∈ nodes, reference ∈ node.inclusions := by
  induction nodes with
  | nil => simp [inclusionsAmong]
  | cons node nodes ih => simp [inclusionsAmong, ih]

mutual

/-- Marks play no part in the inclusions of a node. -/
theorem inclusions_stamp {ρ : Type} (mark : Mark) :
    (node : Node Unit ρ) → (node.stamp mark).inclusions = node.inclusions
  | .text _ _ | .interpolation _ _ _ | .inclusion _ => by
    simp only [Node.stamp, Node.inclusions]
  | .branch _ _ _ body => by
    simp only [Node.stamp, Node.inclusions]
    exact inclusionsAmong_stampNodes mark 0 body.nodes
  | .block part => by
    simp only [Node.stamp, Node.inclusions]
    exact inclusionsAmong_stampNodes mark 0 part.body.nodes
  | .layout outer => by
    simp only [Node.stamp, Node.inclusions]
    rw [inclusionsAmong_stampNodes mark 0 outer.overrides.nodes]

/-- Marks play no part in the inclusions of some nodes. -/
theorem inclusionsAmong_stampNodes {ρ : Type} (mark : Mark) (position : Nat) :
    (nodes : List (Node Unit ρ)) →
      inclusionsAmong (stampNodes mark position nodes) = inclusionsAmong nodes
  | [] => by simp only [stampNodes, inclusionsAmong]
  | node :: nodes => by
    simp only [stampNodes, inclusionsAmong]
    rw [inclusions_stamp _ node, inclusionsAmong_stampNodes mark (position + 1) nodes]

end

/-- A template has the same inclusions in its slot as outside the store. -/
theorem inclusionsAmong_stamp (slot : Slot) (template : Template Unit Slot) :
    inclusionsAmong (slot.stamp template) = inclusionsAmong template.nodes :=
  inclusionsAmong_stampNodes slot.mark 0 template.nodes

namespace Store

/-! ## Filled slots -/

/-- The slot is filled with these nodes. -/
def Holds (store : Store) (slot : Slot) (nodes : List StoredNode) : Prop :=
  ∃ contentType, store.cell? slot = some ⟨contentType, some nodes⟩

/-! ## Growing and filling -/

/-- A slot that is reserved stays as it is when the store grows. -/
theorem cell?_of_prefix {store store' : Store} (hgrow : store.cells <+: store'.cells) {slot : Slot}
    {cell : Cell} (h : store.cell? slot = some cell) : store'.cell? slot = some cell := by
  obtain ⟨more, hmore⟩ := hgrow
  have hlt : slot.index < store.cells.length := (List.getElem?_eq_some_iff.mp h).1
  rw [cell?, ← hmore, List.getElem?_append_left hlt]
  exact h

/-- A slot can be filled exactly if it is a placeholder. -/
theorem fill_eq_ok_iff {store store' : Store} {slot : Slot} {contentType : ContentType}
    {nodes : List StoredNode} :
    store.fill slot contentType nodes = .ok store' ↔
      ∃ placeholder, store.cell? slot = some ⟨placeholder, none⟩ ∧
        store' = ⟨store.cells.set slot.index ⟨contentType, some nodes⟩⟩ := by
  rw [fill, isPlaceholder]
  rcases hcell : store.cell? slot with _ | ⟨placeholder, content⟩
  · simp
  · cases content <;> simp [eq_comm]

/-- Filling the placeholder behind some slots. -/
theorem fill_of_cells_eq {store : Store} {before after : List Cell} {placeholder : ContentType}
    (h : store.cells = before ++ ⟨placeholder, none⟩ :: after) (contentType : ContentType)
    (nodes : List StoredNode) :
    store.fill ⟨before.length⟩ contentType nodes =
      .ok ⟨before ++ ⟨contentType, some nodes⟩ :: after⟩ :=
  fill_eq_ok_iff.mpr ⟨placeholder, by simp [cell?, h], by simp [h]⟩

/-! ## Stores that evolve -/

/-- From one store to a later one, no slot has gone, and each is as it was unless it was a placeholder
and is filled now. -/
def Evolves (store store' : Store) : Prop :=
  ∀ slot cell, store.cell? slot = some cell →
    store'.cell? slot = some cell ∨ (cell.content = none ∧ ∃ nodes, store'.Holds slot nodes)

section

variable {store store' store'' : Store} {slot : Slot}

namespace Evolves

theorem of_growth (h : store.cells <+: store'.cells) : Evolves store store' := by
  intro slot cell hcell
  left
  exact cell?_of_prefix h hcell

/-- A slot that is filled stays as it is. -/
theorem cell?_of_filled {contentType : ContentType} {nodes : List StoredNode}
    (h : Evolves store store') (hcell : store.cell? slot = some ⟨contentType, some nodes⟩) :
    store'.cell? slot = some ⟨contentType, some nodes⟩ := by
  have hkept := h slot _ hcell
  simpa using hkept

theorem holds {nodes : List StoredNode} (h : Evolves store store') (hnodes : store.Holds slot nodes) :
    store'.Holds slot nodes := by
  obtain ⟨contentType, hcell⟩ := hnodes
  exact ⟨contentType, h.cell?_of_filled hcell⟩

theorem refl (store : Store) : Evolves store store :=
  of_growth (List.prefix_refl _)

theorem trans (h : Evolves store store') (h' : Evolves store' store'') : Evolves store store'' := by
  intro slot cell hcell
  rcases h slot cell hcell with hkept | ⟨hempty, nodes, hnodes⟩
  · exact h' slot cell hkept
  · exact .inr ⟨hempty, nodes, h'.holds hnodes⟩

/-- Filling a slot changes this slot alone, which was a placeholder. -/
theorem of_fill {contentType : ContentType} {nodes : List StoredNode}
    (hfill : store.fill slot contentType nodes = .ok store') : Evolves store store' := by
  obtain ⟨placeholder, hplaceholder, rfl⟩ := fill_eq_ok_iff.mp hfill
  intro other cell hcell
  have hlt : other.index < store.cells.length := (List.getElem?_eq_some_iff.mp hcell).1
  by_cases heq : other = slot
  · subst heq
    obtain rfl := Option.some.inj (hplaceholder.symm.trans hcell)
    exact .inr ⟨rfl, nodes, contentType, List.getElem?_set_self hlt⟩
  · have hne : slot.index ≠ other.index := fun hindex => heq (congrArg Slot.mk hindex.symm)
    left
    rw [cell?, List.getElem?_set_ne hne]
    exact hcell

end Evolves

theorem Holds.mono {nodes : List StoredNode} (hgrow : store.cells <+: store'.cells)
    (h : store.Holds slot nodes) : store'.Holds slot nodes :=
  (Evolves.of_growth hgrow).holds h

/-- A slot that is filled keeps its content when a placeholder is filled. -/
theorem Holds.fill {placeholder : Slot} {nodes nodes' : List StoredNode} {contentType : ContentType}
    (hfill : store.fill placeholder contentType nodes' = .ok store') (h : store.Holds slot nodes) :
    store'.Holds slot nodes :=
  (Evolves.of_fill hfill).holds h

end

/-! ## Slots that reach each other -/

/-- The template in a slot includes the one in another slot, at any depth. -/
def Includes (store : Store) (slot target : Slot) : Prop :=
  ∃ reference ∈ inclusionsAmong (store.nodes slot), reference.target = target

/-- Whatever a slot reaches through inclusions, itself included, is filled. -/
def Sealed (store : Store) (slot : Slot) : Prop :=
  ∀ target, Relation.ReflTransGen store.Includes slot target → ∃ nodes, store.Holds target nodes

theorem Holds.nodes_eq {store : Store} {slot : Slot} {nodes : List StoredNode}
    (h : store.Holds slot nodes) : store.nodes slot = nodes := by
  obtain ⟨_, h⟩ := h
  simp [Store.nodes, h]

/-- A set of filled slots that is closed under inclusions is sealed. -/
theorem sealed_of_closed {store : Store} {P : Slot → Prop}
    (hheld : ∀ slot, P slot → ∃ nodes, store.Holds slot nodes)
    (hclosed : ∀ slot target, P slot → store.Includes slot target → P target)
    {slot : Slot} (h : P slot) : store.Sealed slot := by
  intro target hreach
  have hP : P target := by
    induction hreach with
    | refl => exact h
    | tail _ hstep ih => exact hclosed _ _ ih hstep
  exact hheld target hP

section

variable {store store' : Store} {slot : Slot}

/-- A filled slot includes the same slots in a later store. -/
theorem Evolves.includes_iff {nodes : List StoredNode} {target : Slot} (h : Evolves store store')
    (hnodes : store.Holds slot nodes) :
    store'.Includes slot target ↔ store.Includes slot target := by
  rw [Includes, Includes, hnodes.nodes_eq, (h.holds hnodes).nodes_eq]

/-- From a slot that reaches filled slots alone, the same slots are reached in a later store. -/
theorem Sealed.reaches_iff (hsealed : store.Sealed slot) (h : Evolves store store') (target : Slot) :
    Relation.ReflTransGen store'.Includes slot target ↔
      Relation.ReflTransGen store.Includes slot target := by
  constructor
  · intro hreach
    induction hreach with
    | refl => exact .refl
    | tail _ hstep ih =>
      obtain ⟨nodes, hnodes⟩ := hsealed _ ih
      exact ih.tail ((h.includes_iff hnodes).mp hstep)
  · intro hreach
    induction hreach with
    | refl => exact .refl
    | tail hbefore hstep ih =>
      obtain ⟨nodes, hnodes⟩ := hsealed _ hbefore
      exact ih.tail ((h.includes_iff hnodes).mpr hstep)

/-- What is sealed stays so when the store grows. -/
theorem Sealed.mono (hgrow : store.cells <+: store'.cells) (h : store.Sealed slot) :
    store'.Sealed slot := by
  intro target hreach
  have hevolves := Evolves.of_growth hgrow
  obtain ⟨nodes, hnodes⟩ := h target ((h.reaches_iff hevolves target).mp hreach)
  exact ⟨nodes, hevolves.holds hnodes⟩

end

end Store

end Logicless
