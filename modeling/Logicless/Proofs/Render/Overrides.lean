import Logicless.Proofs.Render.Channels
import Logicless.Proofs.Render.Precedence

/-!
# What the overrides of a layout are good for

A layout stays in the context for as long as the template that it refers to is rendered, through whatever
that template includes and through the overrides of further layouts. All the time it does nothing but
answer which block replaces another. So a layout can be exchanged for another of the same template that
gives the same answers, and one that never has an answer can be left out.

## Shape of the proof

* `Layout.override_congr_of_supplied` and `Layout.override_of_silent` turn what a layout supplies for each
  name into what it answers for each block.
* `Context.Interchangeable.exchange` and `Context.interchangeable_pushLayout` put such layouts on top
  of a context. The first one goes on with the templates that are used up, which are the same on both
  sides; the second one does not add to them.
* What is rendered inside then has the same text by `Store.renderNode_congr`.
-/

namespace Logicless

variable {μ ρ : Type}

/-! ## Answers of a layout -/

/-- A block is out of reach behind a later one of its name. -/
theorem lastNamed?_shadowed {part : Block μ (Node μ ρ)} {blocks later : List (Block μ (Node μ ρ))}
    (h : ∃ part' ∈ later, part'.name = part.name) (name : String) :
    lastNamed? name (blocks ++ part :: later) = lastNamed? name (blocks ++ later) := by
  rw [← List.singleton_append, ← List.append_assoc, lastNamed?_append, lastNamed?_append name blocks,
    lastNamed?_append name blocks]
  cases hlater : lastNamed? name later with
  | some found => rfl
  | none =>
    -- nothing later has the name, so neither has the block
    have hnone : ∀ part' ∈ later, part'.name ≠ name := by
      simpa [lastNamed?] using hlater
    obtain ⟨part', hmem, hname⟩ := h
    have hne : part.name ≠ name := by
      rw [← hname]
      exact hnone part' hmem
    simp [lastNamed?, hne]

namespace Layout

variable {outer outer' : Layout μ ρ (Node μ ρ)}

/-- Layouts that supply the same for each name answer the same. -/
theorem override_congr_of_supplied
    (h : ∀ name, lastNamed? name outer.supplied = lastNamed? name outer'.supplied)
    (block : Block μ (Node μ ρ)) : outer.override block = outer'.override block := by
  rw [override_eq, override_eq, h]

/-- A layout that supplies nothing keeps every block. -/
theorem override_of_silent (h : ∀ name, lastNamed? name outer.supplied = none)
    (block : Block μ (Node μ ρ)) : outer.override block = block := by
  rw [override_eq, h, Option.getD_none]

end Layout

/-! ## Layouts on top of a context -/

namespace Context

variable [DecidableEq μ] [DecidableEq ρ] {outer : Layout μ ρ (Node μ ρ)}

/-- A layout that keeps every block may as well not be there. Its template is never used up by it, since
what it answers is the candidate itself. -/
theorem interchangeable_pushLayout {ε : Type} {D : Domain ε} (context : Context D μ ρ)
    (hanswers : ∀ block, outer.override block = block) :
    (context.pushLayout outer).Interchangeable context where
  values := rfl
  overrideFrom := by
    intro used candidate
    simp only [pushLayout, Context.overrideFrom, hanswers, if_true, ite_self]

end Context

/-! ## Texts of layouts -/

namespace Layout

/-- A layout matters only through its overrides. In every context, whatever values and filters there are,
two layouts of one template that supply the same block for each name, or none, have the same text or the
same fault; and a layout that supplies none for any name has the text of the mere inclusion. -/
theorem text_of_supplied (outer outer' : Layout Mark Slot StoredNode) :
    (outer.inclusion.target = outer'.inclusion.target →
      (∀ name, lastNamed? name outer.supplied = lastNamed? name outer'.supplied) →
        ∀ {ε : Type} {D : Domain ε} (store : Store) (depth : Nat) (context : Context D Mark Slot),
          store.renderNode depth context (.layout outer) =
            store.renderNode depth context (.layout outer')) ∧
      ((∀ name, lastNamed? name outer.supplied = none) →
        ∀ {ε : Type} {D : Domain ε} (store : Store) (depth : Nat) (context : Context D Mark Slot),
          store.renderNode depth context (.layout outer) =
            store.renderNode depth context (.inclusion outer.inclusion)) := by
  constructor
  · intro htarget hsupplied ε D store depth context
    cases depth with
    | zero => rfl
    | succ depth =>
      have hexchange : (context.pushLayout outer).Interchangeable (context.pushLayout outer') :=
        .exchange (.refl context) htarget (override_congr_of_supplied hsupplied)
      simp only [Store.renderNode, store.renderNode_congr depth hexchange, htarget]
  · intro hsilent ε D store depth context
    cases depth with
    | zero => rfl
    | succ depth =>
      have hleft := context.interchangeable_pushLayout (override_of_silent hsilent)
      simp only [Store.renderNode, store.renderNode_congr depth hleft]

/-! ### A layout with clutter among its overrides, and one with nothing else -/

/-- A layout that overrides the block `end` among other nodes, twice. -/
def cluttered : Layout Mark Slot StoredNode :=
  ⟨1, ⟨1, "greeting", ⟨0⟩⟩, ⟨⟨⟨1⟩, [0]⟩, .text,
    [.interpolation 1 (.identifier "name") true,
      .block ⟨⟨⟨1⟩, [3, 0]⟩, 1, "end", ⟨⟨⟨1⟩, [3, 0]⟩, .text, []⟩⟩,
      .block ⟨⟨⟨1⟩, [0, 0]⟩, 1, "end", ⟨⟨⟨1⟩, [0, 0]⟩, .text, [.text 1 "!"]⟩⟩,
      .text 1 " "]⟩⟩

/-- A layout that overrides nothing. -/
def idle : Layout Mark Slot StoredNode :=
  ⟨1, ⟨1, "greeting", ⟨0⟩⟩, ⟨⟨⟨1⟩, [0]⟩, .text, [.text 1 " "]⟩⟩

/-- A context with a value alone. -/
def aroundBob : Context .standard Mark Slot :=
  [.value Context.bob]

/-- Without the clutter the text is the same, and so it is without the layout that overrides nothing. -/
theorem text_of_supplied_greeting :
    (∀ name, lastNamed? name cluttered.supplied = lastNamed? name Context.emphatic.supplied) ∧
      (∀ name, lastNamed? name idle.supplied = none) ∧
      Context.greeting.renderNode 4 aroundBob (.layout cluttered) = .ok "Bob!" ∧
      Context.greeting.renderNode 4 aroundBob (.layout idle) = .ok "Bob?" := by
  have hsupplied : ∀ name,
      lastNamed? name cluttered.supplied = lastNamed? name Context.emphatic.supplied :=
    lastNamed?_shadowed ⟨_, List.mem_singleton_self _, rfl⟩
  have hsilent : ∀ name, lastNamed? name idle.supplied = none := fun _ => rfl
  refine ⟨hsupplied, hsilent, ?_, ?_⟩
  · rw [(text_of_supplied cluttered Context.emphatic).1 rfl hsupplied]
    rfl
  · rw [(text_of_supplied idle idle).2 hsilent]
    rfl

end Layout

end Logicless
