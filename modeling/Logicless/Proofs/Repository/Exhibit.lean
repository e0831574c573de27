import Logicless.Proofs.Render.Marks
import Logicless.Proofs.Render.Safety

/-!
# What slots show of the source

Templates are kept in slots of a store and refer to each other by these slots. Which slots they are in
depends on what was loaded before, and a template that is compiled without being cached is in the store
twice, if it is cached as well. None of this can be seen from outside: a source by itself says what its
templates unfold to and how they are rendered, and so do the slots.

## Shape of the module

* `Source.scene` is what a source says of its templates by itself, with ids in the place of slots and no
  marks at all. `Source.unfold` is the tree of a template with the trees of those that it includes inside
  it, to some depth, and `Store.unfold` the same for a slot.
* `Store.Shows` says that a slot holds the template of an id, and that what it includes is in the slots of
  an index. A store that exhibits an index shows all of it (`Store.Exhibits`).
* `Exhibits.unfold_eq` and `Exhibits.render_eq` say that a slot that shows an id unfolds to what the id
  unfolds to, and has the same texts.
-/

namespace Logicless

variable {source : Source} {contentType : ContentType}

/-! ## What a source says -/

/-- The nodes of the template of an id, with ids in the place of the templates that it includes. There
are none if the id is not well-formed. -/
def Source.nodes (source : Source) (contentType : ContentType) (key : String) :
    List (Node Unit String) :=
  match source.tokens key with
  | .error _ => []
  | .ok stream =>
    match (compileTemplate ⟨contentType, some key⟩
      (some (Resolver.accepting.loader : Loader Unit Unit)) stream ()).1 with
    | .error _ => []
    | .ok outline =>
      relabelNodes id (fun reference => source.templateId reference.name (some key)) outline.nodes

/-- The templates of a source. -/
def Source.scene (source : Source) (contentType : ContentType) : Scene Unit String where
  nodes := source.nodes contentType
  replace layouts part := chooseFrom [] part layouts

/-- Templates with the templates that they include inside them, to some depth. -/
def Unfolded : (depth : Nat) → Type
  | 0 => Unit
  | depth + 1 => Template Unit (Unfolded depth)

/-- The template in a slot with the templates that it includes inside it, to some depth. -/
def Store.unfold (store : Store) : (depth : Nat) → Slot → Unfolded depth
  | 0, _ => ()
  | depth + 1, slot =>
    ⟨(), store.contentType slot,
      relabelNodes (fun _ => ()) (fun reference => store.unfold depth reference.target)
        (store.nodes slot)⟩

/-- The template of an id with the templates that it includes inside it, to some depth. -/
def Source.unfold (source : Source) (contentType : ContentType) :
    (depth : Nat) → (key : String) → Unfolded depth
  | 0, _ => ()
  | depth + 1, key =>
    ⟨(), contentType,
      relabelNodes id (fun reference => source.unfold contentType depth reference.target)
        (source.nodes contentType key)⟩

theorem Source.Outline.nodes_eq {key : String} {outline : Template Unit Unit}
    (h : source.Outline contentType key outline) :
    source.nodes contentType key =
      relabelNodes id (fun reference => source.templateId reference.name (some key)) outline.nodes := by
  obtain ⟨stream, htokens, houtline⟩ := h
  rw [nodes, htokens]
  simp only [houtline]

/-! ## Slots that show ids -/

/-- The id that a slot has in an index. -/
def keyIn (index : List (String × Slot)) (slot : Slot) : String :=
  ((index.find? fun entry => entry.2 = slot).map Prod.fst).getD ""

/-- The owners of the blocks of a store, as they are found at the places of their marks. -/
def Store.owner (store : Store) (mark : Mark) : Option Slot :=
  ownerAmong mark.path.reverse none (store.nodes mark.slot)

/-- A slot holds the template of an id, and whatever it includes is in the slot that the id of it has in
the index. -/
def Store.Shows (store : Store) (source : Source) (contentType : ContentType)
    (index : List (String × Slot)) (entry : String × Slot) : Prop :=
  ∃ template : Template Unit Slot, source.Outline contentType entry.1 template.shape ∧
    store.cell? entry.2 = some ⟨contentType, some (entry.2.stamp template)⟩ ∧
    ∀ reference ∈ inclusionsAmong template.nodes,
      (source.templateId reference.name (some entry.1), reference.target) ∈ index

/-- Ids have slots of their own in an index, which show them. -/
structure Store.Exhibits (store : Store) (source : Source) (contentType : ContentType)
    (index : List (String × Slot)) : Prop where
  keys : (index.map Prod.fst).Nodup
  slots : (index.map Prod.snd).Nodup
  shows : ∀ entry ∈ index, store.Shows source contentType index entry

namespace Store

variable {store store' : Store} {index : List (String × Slot)} {key : String} {slot : Slot}

namespace Shows

/-- What a slot shows, it shows in a later store. -/
theorem mono (hevolves : store.Evolves store')
    (h : store.Shows source contentType index (key, slot)) :
    store'.Shows source contentType index (key, slot) := by
  obtain ⟨template, houtline, hcell, htargets⟩ := h
  exact ⟨template, houtline, hevolves.cell?_of_filled hcell, htargets⟩

theorem contentType_eq (h : store.Shows source contentType index (key, slot)) :
    store.contentType slot = contentType := by
  obtain ⟨template, _, hcell, _⟩ := h
  rw [Store.contentType, hcell]

/-- What a slot includes is in the index. -/
theorem exists_mem_of_includes (h : store.Shows source contentType index (key, slot)) {target : Slot}
    (hincludes : store.Includes slot target) : ∃ key', (key', target) ∈ index := by
  obtain ⟨template, _, hcell, htargets⟩ := h
  obtain ⟨reference, hreference, rfl⟩ := hincludes
  have hholds : store.Holds slot (slot.stamp template) := ⟨contentType, hcell⟩
  rw [hholds.nodes_eq, inclusionsAmong_stamp] at hreference
  exact ⟨_, htargets reference hreference⟩

/-- Marks have the right owners in a slot that shows something. -/
theorem attributed (h : store.Shows source contentType index (key, slot)) :
    AttributedAmong store.owner none (store.nodes slot) := by
  obtain ⟨template, _, hcell, _⟩ := h
  have hholds : store.Holds slot (slot.stamp template) := ⟨contentType, hcell⟩
  rw [hholds.nodes_eq]
  refine attributed_stampNodes template.nodes [] 0 none fun position path => ?_
  rw [owner, hholds.nodes_eq, List.reverse_append, List.reverse_reverse, Nat.zero_add]
  rfl

end Shows

namespace Exhibits

theorem mono (hevolves : store.Evolves store') (h : store.Exhibits source contentType index) :
    store'.Exhibits source contentType index where
  keys := h.keys
  slots := h.slots
  shows := fun entry hentry => (h.shows entry hentry).mono hevolves

theorem keyIn_eq (h : store.Exhibits source contentType index) (hentry : (key, slot) ∈ index) :
    keyIn index slot = key := by
  have hfind : index.find? (fun entry => entry.2 = slot) = some (key, slot) := by
    cases hfound : index.find? fun entry => entry.2 = slot with
    | none =>
      have hne := List.find?_eq_none.mp hfound _ hentry
      simp at hne
    | some entry =>
      -- no two entries have the same slot
      have hslot : entry.2 = slot := by simpa using List.find?_some hfound
      exact congrArg some
        (List.inj_on_of_nodup_map h.slots (List.mem_of_find?_eq_some hfound) hentry hslot)
  rw [keyIn, hfind]
  rfl

/-- The slots of an index are told apart by their ids. -/
theorem injOn_keyIn (h : store.Exhibits source contentType index) :
    Set.InjOn (keyIn index) {slot | ∃ key, (key, slot) ∈ index} := by
  rintro slot ⟨key, hentry⟩ slot' ⟨key', hentry'⟩ heq
  rw [h.keyIn_eq hentry, h.keyIn_eq hentry'] at heq
  have hsame := List.inj_on_of_nodup_map h.keys hentry hentry' heq
  exact (Prod.mk.inj hsame).2

/-- Without marks, and with ids in the place of slots, a slot holds what the source says. -/
theorem nodes_eq (h : store.Exhibits source contentType index)
    (hshows : store.Shows source contentType index (key, slot)) :
    source.nodes contentType key =
      relabelNodes (fun _ => ()) (fun reference => keyIn index reference.target)
        (store.nodes slot) := by
  obtain ⟨template, houtline, hcell, htargets⟩ := hshows
  have hholds : store.Holds slot (slot.stamp template) := ⟨contentType, hcell⟩
  rw [houtline.nodes_eq, hholds.nodes_eq, Slot.stamp, unmark_stampNodes]
  calc relabelNodes id (fun reference => source.templateId reference.name (some key)) template.shape.nodes
      = relabelNodes id (fun reference => source.templateId reference.name (some key))
          template.nodes :=
        relabelNodes_relabelNodes _ _ _ _ template.nodes
    _ = relabelNodes id (fun reference => keyIn index reference.target) template.nodes :=
        relabelNodes_congr id template.nodes fun reference hreference =>
          (h.keyIn_eq (htargets reference hreference)).symm

/-! ## Unfoldings and texts -/

/-- A slot unfolds to what the id unfolds to that it shows. -/
theorem unfold_eq (h : store.Exhibits source contentType index)
    (hshows : store.Shows source contentType index (key, slot)) (depth : Nat) :
    store.unfold depth slot = source.unfold contentType depth key := by
  induction depth generalizing key slot with
  | zero => rfl
  | succ depth ih =>
    rw [Store.unfold, Source.unfold, hshows.contentType_eq, h.nodes_eq hshows,
      relabelNodes_relabelNodes]
    congr 1
    refine relabelNodes_congr _ (store.nodes slot) fun reference hreference => ?_
    obtain ⟨key', hentry⟩ := hshows.exists_mem_of_includes ⟨reference, hreference, rfl⟩
    rw [ih (h.shows _ hentry)]
    exact congrArg _ (h.keyIn_eq hentry).symm

/-- What a node of slots that show something includes is in the index. -/
theorem exists_mem_of_within (h : store.Exhibits source contentType index) {node : StoredNode}
    (hnode : store.Within {slot | ∃ key, store.Shows source contentType index (key, slot)} node)
    {reference : Inclusion Slot} (hreference : reference ∈ node.inclusions) :
    ∃ key, (key, reference.target) ∈ index ∧
      store.Shows source contentType index (key, reference.target) := by
  obtain ⟨slot, ⟨key, hshows⟩, hincludes⟩ := hnode.includes hreference
  obtain ⟨key', hentry⟩ := hshows.exists_mem_of_includes hincludes
  exact ⟨key', hentry, h.shows _ hentry⟩

/-- Rendering stays in slots that show something, and marks have the right owners wherever it comes. -/
theorem closed (h : store.Exhibits source contentType index) :
    store.scene.Closed fun node =>
      store.Within {slot | ∃ key, store.Shows source contentType index (key, slot)} node ∧
        node.Attributed store.owner none := by
  have hwithin : store.scene.Closed
      (store.Within {slot | ∃ key, store.Shows source contentType index (key, slot)}) := by
    refine store.closed_within ?_
    rintro slot ⟨key, hshows⟩ target hincludes
    obtain ⟨key', hentry⟩ := hshows.exists_mem_of_includes hincludes
    exact ⟨key', h.shows _ hentry⟩
  refine ⟨?branch, ?inclusion, ?layout, ?block⟩
  case branch =>
    rintro line expression inverted body ⟨hnode, howners⟩ inner hinner
    rw [Node.Attributed] at howners
    exact ⟨hwithin.branch hnode inner hinner, attributedAmong_iff.mp howners inner hinner⟩
  case inclusion =>
    rintro reference ⟨hnode, _⟩ inner hinner
    obtain ⟨key, _, hshows⟩ := h.exists_mem_of_within hnode (List.mem_singleton_self _)
    exact ⟨hwithin.inclusion hnode inner hinner, attributedAmong_iff.mp hshows.attributed inner hinner⟩
  case layout =>
    rintro outer ⟨hnode, _⟩ inner hinner
    obtain ⟨key, _, hshows⟩ := h.exists_mem_of_within hnode List.mem_cons_self
    exact ⟨hwithin.layout hnode inner hinner, attributedAmong_iff.mp hshows.attributed inner hinner⟩
  case block =>
    rintro layouts part hlayouts ⟨hnode, howners⟩ inner hinner
    refine ⟨hwithin.block (fun outer houter => (hlayouts outer houter).1) hnode inner hinner, ?_⟩
    obtain ⟨_, heq | ⟨outer, houter, hsupplied⟩⟩ := store.replace_cases layouts part
    · rw [Node.Attributed] at howners
      rw [heq] at hinner
      exact attributedAmong_iff.mp howners.2 inner hinner
    · have hpart := Layout.attributed_of_mem_supplied (hlayouts outer houter).2 hsupplied
      exact attributedAmong_iff.mp hpart.2 inner hinner

/-- The scene of a store projects to that of the source. -/
theorem projects (h : store.Exhibits source contentType index) :
    store.scene.Projects (fun node =>
        store.Within {slot | ∃ key, store.Shows source contentType index (key, slot)} node ∧
          node.Attributed store.owner none)
      (fun _ => ()) (fun reference => keyIn index reference.target) (source.scene contentType) where
  closed := h.closed
  inclusion := by
    rintro reference ⟨hnode, _⟩
    obtain ⟨key, hentry, hshows⟩ := h.exists_mem_of_within hnode (List.mem_singleton_self _)
    rw [h.keyIn_eq hentry]
    exact h.nodes_eq hshows
  layout := by
    rintro outer ⟨hnode, _⟩
    obtain ⟨key, hentry, hshows⟩ := h.exists_mem_of_within hnode List.mem_cons_self
    rw [h.keyIn_eq hentry]
    exact h.nodes_eq hshows
  replace := by
    rintro layouts part hlayouts ⟨_, howners⟩
    have hchoose : store.scene.replace layouts part = chooseFrom [] part layouts := by
      refine Context.overrideFrom_eq_chooseFrom (fun outer houter => (hlayouts outer houter).2) ?_
      -- a block that is rendered has no owner
      intro target htarget
      rw [Node.Attributed] at howners
      rw [howners.1] at htarget
      cases htarget
    have hindexed : ∀ outer ∈ layouts, ∃ key, (key, outer.inclusion.target) ∈ index := by
      intro outer houter
      obtain ⟨key, hentry, _⟩ := h.exists_mem_of_within (hlayouts outer houter).1 List.mem_cons_self
      exact ⟨key, hentry⟩
    rw [hchoose]
    exact chooseFrom_relabel _ h.injOn_keyIn part hindexed (List.forall_mem_nil _)

/-- Among some values, whatever they are, a slot has the same text as the id that it shows has by the source
alone. -/
theorem render_eq {ε : Type} {D : Domain ε} (h : store.Exhibits source contentType index)
    (hshows : store.Shows source contentType index (key, slot)) (depth : Nat)
    (values : List D.Carrier) :
    store.render depth (values.map .value) slot =
      concatTexts ((source.scene contentType).text D depth values [])
        (source.nodes contentType key) := by
  rw [Store.render_eq_texts_of_values, h.nodes_eq hshows, relabelNodes_eq_map, concatTexts_map]
  refine concatTexts_congr fun node hnode => ?_
  have howners := attributedAmong_iff.mp hshows.attributed node hnode
  exact (Scene.text_relabel h.projects (List.forall_mem_nil _)
    ⟨⟨slot, ⟨key, hshows⟩, .of_mem hnode⟩, howners⟩).symm

end Exhibits

end Store

/-! ## Repositories -/

namespace Repository

variable {r r' : Repository}

/-- The cache of a repository is exhibited by its store. -/
theorem Faithful.exhibits (h : Faithful source contentType r) (hsound : Sound source.templateId r) :
    r.store.Exhibits source contentType r.cache where
  keys := hsound.nodup
  slots := h.nodup
  shows := by
    rintro ⟨key, slot⟩ hentry
    obtain ⟨template, houtline, hcell, hcached⟩ := h.template_of_mem hsound hentry
    exact ⟨template, houtline, hcell, fun reference hreference =>
      mem_cache_of_slot? (hcached reference hreference)⟩

end Repository

end Logicless
