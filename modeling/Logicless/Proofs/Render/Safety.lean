import Logicless.Proofs.Compile.Shape
import Logicless.Proofs.Expr.Printing
import Logicless.Proofs.Render.Precedence
import Logicless.Proofs.Render.Scene
import Logicless.Proofs.Repository.Fidelity
import Logicless.Proofs.Tree.Changes
import Logicless.Proofs.Tree.Inside

/-!
# What can keep a template from being rendered

A renderer is prepared for what should not happen: an expression of no known form, or something else than
a block in the place of a block. Of compiled templates none of this is ever met. Whatever is in a store
has been compiled, all that is rendered is somewhere in the store, and a block is replaced by blocks of
its name alone. So a template has a text, unless a value or a filter fails or it is nested without end.
Values need not be filters to fail: `unwritable_value_stops_rendering` has one that cannot be written.

## Shape of the proof

* `Context.override_cases` says which block is rendered in place of another.
* `Store.Contains` is the invariant of rendering: a node is somewhere in the store
  (`Store.closed_contains`).
* `Store.Compiled` says that every slot holds what has been compiled. The changes of a repository keep
  it (`Repository.keeps_compiled`), and all tags in such a store can be read
  (`Store.Compiled.wellFormed_of_contains`).
* `rendering_fails_by_values` is the result, by `Scene.fault_of_text`.
-/

namespace Logicless

variable {μ ρ : Type}

/-! ## Whatever is rendered is in the store -/

mutual

theorem Node.inside_of_mem_supplied {part : Block μ (Node μ ρ)} :
    (node : Node μ ρ) → part ∈ node.supplied → Inside (.block part) [node]
  | .block other, h => by
    rw [Node.supplied] at h
    obtain rfl := List.mem_singleton.mp h
    exact .of_mem (List.mem_singleton_self _)
  | .layout outer, h => by
    rw [Node.supplied] at h
    exact (Inside.of_mem (List.mem_singleton_self _)).trans
      (inside_of_mem_suppliedAmong outer.overrides.nodes h)
  | .text _ _, h | .interpolation _ _ _, h | .branch _ _ _ _, h | .inclusion _, h => by
    rw [Node.supplied] at h
    cases h

theorem inside_of_mem_suppliedAmong {part : Block μ (Node μ ρ)} :
    (nodes : List (Node μ ρ)) → part ∈ suppliedAmong nodes → Inside (.block part) nodes
  | [], h => by
    rw [suppliedAmong] at h
    cases h
  | node :: nodes, h => by
    rw [suppliedAmong] at h
    rcases List.mem_append.mp h with h | h
    · obtain ⟨top, htop, hinside⟩ := Node.inside_of_mem_supplied node h
      obtain rfl := List.mem_singleton.mp htop
      exact ⟨top, List.mem_cons_self, hinside⟩
    · obtain ⟨top, htop, hinside⟩ := inside_of_mem_suppliedAmong nodes h
      exact ⟨top, List.mem_cons_of_mem _ htop, hinside⟩

end

namespace Store

variable {store : Store} {slots : Set Slot}

/-- A layout supplies blocks of its own template alone. -/
theorem Within.supplied {outer : Layout Mark Slot StoredNode} {part : Block Mark StoredNode}
    (h : store.Within slots (.layout outer)) (hpart : part ∈ outer.supplied) :
    store.Within slots (.block part) := by
  obtain ⟨slot, hslot, hinside⟩ := h
  exact ⟨slot, hslot, hinside.trans (inside_of_mem_suppliedAmong outer.overrides.nodes hpart)⟩

/-- A block is rendered as a block of its name: itself, or one that a layout supplies. -/
theorem replace_cases (store : Store) (layouts : List (Layout Mark Slot StoredNode))
    (part : Block Mark StoredNode) :
    (store.scene.replace layouts part).name = part.name ∧
      (store.scene.replace layouts part = part ∨
        ∃ outer ∈ layouts, store.scene.replace layouts part ∈ outer.supplied) := by
  obtain ⟨hname, heq | ⟨outer, houter, hsupplied⟩⟩ :=
    Context.override_cases (Context.ofLayouts .standard layouts) part
  · exact ⟨hname, .inl heq⟩
  · rw [Context.ofLayouts, List.mem_map] at houter
    obtain ⟨outer', houter', heq⟩ := houter
    obtain rfl := Frame.layout.inj heq
    exact ⟨hname, .inr ⟨_, houter', hsupplied⟩⟩

/-- Rendering never leaves slots that include no others. -/
theorem closed_within (hslots : ∀ slot ∈ slots, ∀ target, store.Includes slot target → target ∈ slots) :
    store.scene.Closed (store.Within slots) where
  branch h _ hmem := h.child hmem
  inclusion h _ hmem := by
    obtain ⟨slot, hslot, hincludes⟩ := h.includes (List.mem_singleton_self _)
    exact ⟨_, hslots slot hslot _ hincludes, .of_mem hmem⟩
  layout h _ hmem := by
    obtain ⟨slot, hslot, hincludes⟩ := h.includes List.mem_cons_self
    exact ⟨_, hslots slot hslot _ hincludes, .of_mem hmem⟩
  block {layouts part} hlayouts h node hmem := by
    obtain ⟨_, heq | ⟨outer, houter, hsupplied⟩⟩ := store.replace_cases layouts part
    · rw [heq] at hmem
      exact h.child hmem
    · exact ((hlayouts outer houter).supplied hsupplied).child hmem

/-- Whatever is rendered in the course of rendering nodes of a store is in the store as well. -/
theorem closed_contains (store : Store) : store.scene.Closed store.Contains := by
  rw [← within_univ]
  exact closed_within fun _ _ _ _ => Set.mem_univ _

end Store

/-! ## Stores of compiled templates -/

/-- The template has been compiled, in whatever setting, with any loader or none. -/
def Body.Compiled (template : Template Unit ρ) : Prop :=
  ∃ (σ : Type) (setting : Setting) (loader : Option (Loader σ ρ)) (stream : Stream) (before after : σ),
    compileTemplate setting loader stream before = (.ok template, after)

/-- Whatever a slot holds is a template that has been compiled. -/
def Store.Compiled (store : Store) : Prop :=
  ∀ slot nodes, store.Holds slot nodes →
    ∃ template : Template Unit Slot, template.Compiled ∧ nodes = slot.stamp template

namespace Store

variable {store store' : Store}

theorem compiled_empty : Compiled {} :=
  fun _ _ hnodes => absurd hnodes not_holds_empty

/-- What is done to a store keeps it compiled, if nothing but compiled templates goes into it. -/
theorem Compiled.make (change : Change) (h : store.Compiled) (hmake : store.make change = .ok store')
    (hinsert : ∀ template, change = .insert template → template.Compiled)
    (hfill : ∀ slot template, change = .fill slot template → template.Compiled) : store'.Compiled := by
  intro slot nodes hnodes
  rcases holds_make hmake hnodes with hnodes | ⟨template, rfl, rfl | rfl⟩
  · exact h slot nodes hnodes
  · exact ⟨template, hinsert template rfl, rfl⟩
  · exact ⟨template, hfill slot template rfl, rfl⟩

end Store

/-- A repository has nothing in its store but compiled templates, whatever it does. -/
theorem Repository.keeps_compiled (source : Source) (contentType : ContentType) :
    Keeps source contentType fun r => r.store.Compiled where
  report _ h := h
  begun _ h := h.make (.reserve contentType) rfl (by simp) (by simp)
  evict _ h := h
  complete {r _ _ slot _ _ template} h _ _ hcompile := by
    rw [complete]
    cases hfill : r.store.fill slot template.contentType (slot.stamp template) with
    | error fault => exact h
    | ok store =>
      refine h.make (.fill slot template) hfill (by simp) ?_
      rintro _ _ ⟨⟩
      exact ⟨_, _, _, _, _, _, hcompile⟩
  insert {_ _ _ _ _ template} h hcompile := by
    refine h.make (.insert template) rfl ?_ (by simp)
    rintro _ ⟨⟩
    exact ⟨_, _, _, _, _, _, hcompile⟩

/-! ## Tags that can be read -/

/-- The nodes directly inside a node without its labels are those inside it, without theirs. -/
theorem Node.children_shape (node : Node μ ρ) : node.shape.children = shapeOf node.children := by
  cases node <;> rfl

theorem Node.expression?_shape (node : Node μ ρ) : node.shape.expression? = node.expression? := by
  cases node <;> rfl

section

variable {setting : Setting} {resolver : Resolver ρ} {node : Node Unit ρ}

theorem Node.WellFormed.children (h : node.WellFormed setting resolver) :
    ∀ child ∈ node.children, child.WellFormed setting resolver := by
  cases node with
  | text | interpolation | inclusion => simp [Node.children]
  | branch line expression inverted body =>
    rw [Node.WellFormed] at h
    exact wellFormedNodes_iff.mp h.2.2.2
  | block part =>
    rw [Node.WellFormed] at h
    exact wellFormedNodes_iff.mp h.2.2
  | layout outer =>
    rw [Node.WellFormed] at h
    exact wellFormedNodes_iff.mp h.2.2.2

/-- The expression in a tag that can be written has a known form. -/
theorem Node.WellFormed.expression (h : node.WellFormed setting resolver) {expression : Expr}
    (hexpression : node.expression? = some expression) : expression.WellFormed := by
  have hlegible : expression.Legible := by
    cases node with
    | text | inclusion | block | layout => cases hexpression
    | interpolation line other escape =>
      obtain rfl := Option.some.inj hexpression
      rwa [Node.WellFormed] at h
    | branch line other inverted body =>
      obtain rfl := Option.some.inj hexpression
      rw [Node.WellFormed] at h
      exact h.1
  obtain ⟨content, hparse⟩ := hlegible
  exact Expr.wellFormed_of_parse hparse

end

/-- A template that has been compiled is well-formed, apart from the templates that it includes. -/
theorem Body.Compiled.wellFormed {template : Template Unit Slot} (h : template.Compiled) :
    ∃ setting, WellFormedNodes setting Resolver.accepting (shapeOf template.nodes) := by
  obtain ⟨σ, setting, loader, stream, before, after, hcompile⟩ := h
  obtain ⟨loader, hcompile⟩ := exists_compileTemplate_some hcompile
  obtain ⟨_, scope, hscope, hrun⟩ :=
    compileTemplate_eq_ok_iff.mp (Prod.ext (shape_of_compileTemplate hcompile) rfl)
  have hparsed := Parsed.initial.run hrun
  refine ⟨setting, ?_⟩
  rw [show shapeOf template.nodes = scope.nodes from congrArg Body.nodes hscope]
  cases hparsed with
  | root hforest hcollected =>
    rw [List.append_nil] at hcollected
    subst hcollected
    exact (wellFormed_of_forest hforest).1

namespace Store

variable {store : Store} {node : StoredNode}

/-- A slot in which there are nodes is filled with them. -/
theorem holds_of_mem_nodes {slot : Slot} (h : node ∈ store.nodes slot) :
    store.Holds slot (store.nodes slot) := by
  rw [nodes] at h ⊢
  cases hcell : store.cell? slot with
  | none =>
    rw [hcell] at h
    cases h
  | some cell =>
    obtain ⟨contentType, content⟩ := cell
    cases content with
    | none =>
      rw [hcell] at h
      cases h
    | some nodes => exact ⟨contentType, hcell⟩

/-- All expressions in a store of compiled templates have a known form. -/
theorem Compiled.wellFormed_of_contains (h : store.Compiled) (hnode : store.Contains node)
    {expression : Expr} (hexpression : node.expression? = some expression) :
    expression.WellFormed := by
  obtain ⟨slot, hinside⟩ := hnode
  obtain ⟨top, htop, _⟩ := id hinside
  obtain ⟨template, hcompiled, hstamp⟩ := h slot _ (holds_of_mem_nodes htop)
  obtain ⟨setting, hwellFormed⟩ := hcompiled.wellFormed
  rw [hstamp] at hinside
  have hshape : node.shape.WellFormed setting Resolver.accepting := by
    refine hinside.forall_of_children (fun node => node.shape.WellFormed setting Resolver.accepting)
      ?_ ?_
    · intro top htop
      refine wellFormedNodes_iff.mp hwellFormed _ ?_
      rw [← shapeOf_stamp slot, shapeOf, relabelNodes_eq_map]
      exact List.mem_map_of_mem htop
    · intro parent hparent child hchild
      refine hparent.children _ ?_
      rw [Node.children_shape, shapeOf, relabelNodes_eq_map]
      exact List.mem_map_of_mem hchild
  exact hshape.expression (by rwa [Node.expression?_shape])

end Store

/-- The store of a repository is one of compiled templates, whatever it is asked for and whatever becomes
of its source. -/
theorem Session.compiled_run (source : Source) (contentType : ContentType) (operations : List Operation) :
    (Session.run source contentType operations).repository.store.Compiled :=
  Session.invariant_foldl (I := fun r => r.store.Compiled) Repository.keeps_compiled id operations
    Store.compiled_empty

/-! ## What is left to fail -/

/-- Rendering compiled templates fails through values and filters alone. In every context, a block is
replaced by a block of its name, which is the block itself or one that a layout of the context supplies,
and every other node is left as it is. A store in which all templates are compiled has in it all that is
rendered in the course of rendering them, in any layouts of the store, and all expressions there have a
known form. So whatever the values and the filters are, the only reason for not giving a text is that one
of them fails, unless the given depth is too small: a filter when it is applied, or a value when it is
asked whether a section is rendered for it, for an item, for an identifier or for its text. Compiling
templates keeps such a store so, and the store of a repository is one at all times, whatever becomes of
its source. -/
theorem rendering_fails_by_values :
    (∀ {ε μ ρ : Type} {D : Domain ε} [DecidableEq μ] [DecidableEq ρ] (context : Context D μ ρ),
      (∀ block, ∃ part, context.overrideNode (.block block) = .block part ∧ part.name = block.name ∧
        (part = block ∨ ∃ layout, .layout layout ∈ context ∧ part ∈ layout.supplied)) ∧
      ∀ node, (∀ block, node ≠ .block block) → context.overrideNode node = node) ∧
    (∀ store : Store, store.Compiled →
      store.scene.Closed store.Contains ∧
      (∀ node, store.Contains node → ∀ expression, node.expression? = some expression →
        expression.WellFormed) ∧
      ∀ {ε : Type} {D : Domain ε} (context : Context D Mark Slot),
        (∀ outer ∈ context.layouts, store.Contains (.layout outer)) → ∀ depth slot fault,
          store.render depth context slot = .error fault →
            fault = .tooDeep ∨ ∃ failure, fault = .raised failure ∧ D.Raises failure) ∧
    (∀ (store : Store) (template : Template Unit Slot), store.Compiled → template.Compiled →
      (store.insert template).2.Compiled) ∧
    ∀ source contentType operations,
      (Session.run source contentType operations).repository.store.Compiled := by
  refine ⟨?blocks, ?texts, ?insert, Session.compiled_run⟩
  case blocks =>
    intro ε μ ρ D _ _ context
    refine ⟨fun block => ?_, fun node hnode => ?_⟩
    · obtain ⟨hname, hcases⟩ := context.override_cases block
      exact ⟨context.override block, rfl, hname, hcases⟩
    · cases node with
      | block part => exact absurd rfl (hnode part)
      | text | interpolation | branch | inclusion | layout => rfl
  case texts =>
    intro store hcompiled
    have hwellFormed : ∀ node, store.Contains node → ∀ expression,
        node.expression? = some expression → expression.WellFormed :=
      fun node hnode expression => hcompiled.wellFormed_of_contains hnode
    refine ⟨store.closed_contains, hwellFormed, ?_⟩
    intro ε D context hlayouts depth slot fault h
    rw [Store.render_eq_texts] at h
    obtain ⟨node, hmem, htext⟩ := exists_mem_of_concatTexts h
    exact Scene.fault_of_text store.closed_contains hwellFormed hlayouts ⟨slot, .of_mem hmem⟩ htext
  case insert =>
    intro store template hcompiled htemplate
    refine hcompiled.make (.insert template) rfl ?_ (by simp)
    rintro _ ⟨⟩
    exact htemplate

/-- A source with a page on which a value is put through a filter. -/
def filteredPage : Source where
  templateId name _ := name
  tokens _ := .ok (.ofTokens [⟨.escapedVariable, "f(x)", 1, none⟩])

/-- The filter fails, and so there is no text. -/
theorem rendering_fails_by_values_filteredPage :
    let store := (Session.run filteredPage .html [.resolve 1 "page" none]).repository.store
    let context : Context .standard Mark Slot :=
      [.value (.object [("f", .filter .failing), ("x", .int 1)])]
    store.Compiled ∧ store.render 1 context ⟨0⟩ = .error (.raised .filterFailed) ∧
      Domain.standard.Raises .filterFailed := by
  intro store context
  have hcompiled : store.Compiled := rendering_fails_by_values.2.2.2 _ _ _
  have hrender : store.render 1 context ⟨0⟩ = .error (.raised .filterFailed) := rfl
  have hlayouts : ∀ outer ∈ context.layouts, store.Contains (.layout outer) := by
    simp [context, Context.layouts]
  obtain hdeep | ⟨failure, hfailure, hraises⟩ :=
    (rendering_fails_by_values.2.1 store hcompiled).2.2 context hlayouts 1 ⟨0⟩ _ hrender
  · cases hdeep
  · obtain rfl := RenderFault.raised.inj hfailure
    exact ⟨hcompiled, hrender, hraises⟩

/-! ### A value that cannot be written -/

/-- A source with a page on which a value is written. -/
def plainPage : Source where
  templateId name _ := name
  tokens _ := .ok (.ofTokens [⟨.escapedVariable, ".", 1, none⟩])

/-- Values without any filter among them, each of which is present or not. A value that is present cannot
be written. -/
def Domain.unwritable : Domain Unit where
  Carrier := Bool
  null := false
  isNull present := !present
  isNull_null := rfl
  truthy := .ok
  items? _ := none
  answer _ _ := .ok false
  filter? _ := none
  display _ := .error ()

/-- A compiled template has no text because of a value, although nothing is a filter. -/
theorem unwritable_value_stops_rendering :
    let store := (Session.run plainPage .html [.resolve 1 "page" none]).repository.store
    let context : Context .unwritable Mark Slot := [.value true]
    store.Compiled ∧ (∀ value, Domain.unwritable.filter? value = none) ∧
      store.render 1 context ⟨0⟩ = .error (.raised ()) :=
  ⟨Session.compiled_run _ _ _, fun _ => rfl, rfl⟩

end Logicless
