import Logicless.Proofs.Repository.Depth
import Logicless.Proofs.Repository.Invariant

/-!
# What the cache says of the source

A template is compiled from the tokens of its id, and the templates that it includes are known to it by
their names alone. So what a template is, apart from the slots that it refers to, depends on its own
stream. While the source serves the same tokens, this is true of all templates in the cache.

## Shape of the module

* `Source.Outline` is the template of an id without the templates that it includes; an id that has one is
  well-formed. Every compilation of the id comes to this outline or fails (`outline_of_compileTemplate`),
  and the outline includes what the tags do (`Source.Outline.includes_iff`).
* `Repository.Faithful` says that the slots of cached ids are distinct and hold nothing but their
  outlines, with marks and targets. Every change of a repository keeps this.
* `Session.faithful_run` says it of all times, where the source is never changed.
-/

namespace Logicless

/-- The resolver that knows a template for every name. -/
def Resolver.accepting : Resolver Unit :=
  fun _ _ => .ok ()

namespace Source

variable {source : Source} {contentType : ContentType} {id : String} {outline : Template Unit Unit}

/-- What the stream of an id compiles to where every name is accepted: the template without those that
it includes. -/
def Outline (source : Source) (contentType : ContentType) (id : String)
    (outline : Template Unit Unit) : Prop :=
  ∃ stream, source.tokens id = .ok stream ∧
    (compileTemplate ⟨contentType, some id⟩ (some (Resolver.accepting.loader : Loader Unit Unit)) stream
      ()).1 = .ok outline

/-- The source serves a stream for the id, and the stream compiles where every name is accepted. -/
def WellFormed (source : Source) (contentType : ContentType) (id : String) : Prop :=
  ∃ outline, source.Outline contentType id outline

/-- An id has one outline at most. -/
theorem Outline.unique {outline' : Template Unit Unit} (h : source.Outline contentType id outline)
    (h' : source.Outline contentType id outline') : outline = outline' := by
  obtain ⟨stream, htokens, hcompile⟩ := h
  obtain ⟨stream', htokens', hcompile'⟩ := h'
  obtain rfl := Except.ok.inj (htokens.symm.trans htokens')
  exact Except.ok.inj (hcompile.symm.trans hcompile')

theorem Outline.contentType_eq (h : source.Outline contentType id outline) :
    outline.contentType = contentType := by
  obtain ⟨stream, _, hcompile⟩ := h
  obtain ⟨_, scope, rfl, _⟩ := compileTemplate_eq_ok_iff.mp (Prod.ext hcompile rfl)
  rfl

/-- A template that compiles includes by its tree what it includes by its tags. -/
theorem Outline.includes_iff (h : source.Outline contentType id outline) {id' : String} :
    source.Includes id id' ↔ ∃ name ∈ (inclusionsAmong outline.nodes).map Inclusion.name,
      source.templateId name (some id) = id' := by
  obtain ⟨stream, htokens, hcompile⟩ := h
  rw [← includedNames_of_compileTemplate (Prod.ext hcompile rfl)]
  constructor
  · rintro ⟨stream', htokens', hname⟩
    obtain rfl := Except.ok.inj (htokens.symm.trans htokens')
    exact hname
  · exact fun hname => ⟨stream, htokens, hname⟩

end Source

section Outlines

variable {σ ρ : Type} [Inhabited ρ] {source : Source} {contentType : ContentType} {id : String}
  {setting : Setting} {loader : Loader σ ρ} {stream : Stream} {state state' : σ}
  {template : Template Unit ρ}

/-- A template could not be included. -/
def Halt.IsInclusion (halt : Halt) : Prop :=
  ∃ failure, halt = .recorded failure ∧ failure.fault.kind = .inclusion

/-- A compilation and the one that accepts every name come to the same, up to the templates that are
included, unless one of these cannot be loaded. -/
theorem agree_accepting (setting : Setting) (loader : Loader σ ρ) (stream : Stream) (state : σ) :
    Agree Halt.IsInclusion (fun template template' => template.shape = template'.shape) (fun _ _ => True)
      (fun _ _ => True) (compileTemplate setting (some loader) stream state)
      (compileTemplate setting (some (Resolver.accepting.loader : Loader Unit Unit)) stream ()) := by
  -- the loader may fail where the resolver accepts, so nothing is said of its failures
  have hloaders : ScopeStack.Simulation.Loaders setting loader
      (Resolver.accepting.loader : Loader Unit Unit) (· ∈ stream.includedNames) (fun _ => True)
      Halt.IsInclusion (fun _ _ => True) (fun _ _ => True) (fun _ _ => True) := {
    lost := fun _ _ _ _ => ⟨_, rfl, rfl⟩
    failed := fun _ _ _ => trivial
    load := by
      intro name _ state _ _
      rcases loader name setting.template state with ⟨failure | target, after⟩
      · exact .lost trivial
      · exact .done trivial trivial }
  exact (ScopeStack.Simulation.shape _).compileTemplate hloaders state () trivial

/-- What compiles with some loader compiles where every name is accepted, to a template of the same
shape. -/
theorem shape_of_compileTemplate
    (hcompile : compileTemplate setting (some loader) stream state = (.ok template, state')) :
    (compileTemplate setting (some (Resolver.accepting.loader : Loader Unit Unit)) stream ()).1 =
      .ok template.shape := by
  have hagree := agree_accepting setting loader stream state
  rw [hcompile] at hagree
  generalize compileTemplate setting (some (Resolver.accepting.loader : Loader Unit Unit)) stream () =
    right at hagree
  cases hagree with
  | done hshape _ => rw [hshape, shape_eq_self]

/-- What fails with some loader, but not for want of a template, fails where every name is accepted. -/
theorem accepting_of_compileTemplate {halt : Halt}
    (hcompile : compileTemplate setting (some loader) stream state = (.error halt, state'))
    (hhalt : ¬ halt.IsInclusion) :
    (compileTemplate setting (some (Resolver.accepting.loader : Loader Unit Unit)) stream ()).1 =
      .error halt := by
  have hagree := agree_accepting setting loader stream state
  rw [hcompile] at hagree
  generalize compileTemplate setting (some (Resolver.accepting.loader : Loader Unit Unit)) stream () =
    right at hagree
  cases hagree with
  | lost hlost => exact absurd hlost hhalt
  | failed => rfl

/-- A template that compiles with any loader has the outline of its id as its shape. -/
theorem outline_of_compileTemplate (htokens : source.tokens id = .ok stream)
    (hcompile : compileTemplate ⟨contentType, some id⟩ (some loader) stream state =
      (.ok template, state')) :
    source.Outline contentType id template.shape :=
  ⟨stream, htokens, shape_of_compileTemplate hcompile⟩

end Outlines

namespace Repository

variable {source : Source} {contentType : ContentType} {r r' : Repository}

/-- A slot is empty, or it holds the outline of the id that it is cached under, with marks of its own
and with targets. -/
def Depicts (source : Source) (contentType : ContentType) (entry : String × Slot) (cell : Cell) : Prop :=
  ∀ nodes, cell.content = some nodes → cell.contentType = contentType ∧
    ∃ template : Template Unit Slot, source.Outline contentType entry.1 template.shape ∧
      nodes = entry.2.stamp template

/-- Each cached id has a slot of its own, which holds nothing but the template of the id. -/
structure Faithful (source : Source) (contentType : ContentType) (r : Repository) : Prop where
  nodup : (r.cache.map Prod.snd).Nodup
  depicts : ∀ entry ∈ r.cache, ∃ cell, r.store.cell? entry.2 = some cell ∧
    Depicts source contentType entry cell

namespace Faithful

theorem empty : Faithful source contentType {} where
  nodup := List.nodup_nil
  depicts := by simp

/-- A repository stays faithful when it forgets entries. -/
theorem of_sublist (h : Faithful source contentType r) (hstore : r'.store = r.store)
    (hcache : r'.cache.Sublist r.cache) : Faithful source contentType r' where
  nodup := h.nodup.sublist (hcache.map Prod.snd)
  depicts := by
    rw [hstore]
    exact fun entry hentry => h.depicts entry (hcache.subset hentry)

/-- A repository stays faithful when its store grows. -/
theorem of_prefix (h : Faithful source contentType r) (hstore : r.store.cells <+: r'.store.cells)
    (hcache : r'.cache = r.cache) : Faithful source contentType r' where
  nodup := by rw [hcache]; exact h.nodup
  depicts := by
    rw [hcache]
    intro entry hentry
    obtain ⟨cell, hcell, hdepicts⟩ := h.depicts entry hentry
    exact ⟨cell, Store.cell?_of_prefix hstore hcell, hdepicts⟩

theorem report (h : Faithful source contentType r) (event : Event) :
    Faithful source contentType (r.report event) :=
  h.of_sublist rfl (List.Sublist.refl _)

theorem evict (h : Faithful source contentType r) (id : String) :
    Faithful source contentType (r.evict id) :=
  h.of_sublist rfl (List.takeWhile_sublist _)

/-- The slots of cached ids are in the store, so the next slot is none of them. -/
theorem next_not_mem (h : Faithful source contentType r) : r.store.next ∉ r.cache.map Prod.snd := by
  intro hmem
  obtain ⟨entry, hentry, hnext⟩ := List.mem_map.mp hmem
  obtain ⟨cell, hcell, _⟩ := h.depicts entry hentry
  rw [hnext, Store.cell?, Store.next, List.getElem?_length] at hcell
  cases hcell

theorem begun (h : Faithful source contentType r) (id : String) :
    Faithful source contentType (r.begun id contentType) where
  nodup := by
    rw [cache_begun, List.map_append, List.map_singleton, List.nodup_append]
    refine ⟨h.nodup, List.nodup_singleton _, ?_⟩
    rintro slot hslot _ hnext rfl
    obtain rfl := List.mem_singleton.mp hnext
    exact h.next_not_mem hslot
  depicts := by
    intro entry hentry
    rw [cache_begun, List.mem_append, List.mem_singleton] at hentry
    rcases hentry with hentry | rfl
    · obtain ⟨cell, hcell, hdepicts⟩ := h.depicts entry hentry
      exact ⟨cell, Store.cell?_of_prefix (List.prefix_append _ _) hcell, hdepicts⟩
    · refine ⟨⟨contentType, none⟩, ?_, fun nodes hnodes => by cases hnodes⟩
      rw [Store.cell?, cells_begun]
      exact List.getElem?_concat_length

/-- Filling the slot of an id with its template. -/
theorem complete (h : Faithful source contentType r) {id : String} {slot : Slot}
    (hentry : (id, slot) ∈ r.cache) {template : Template Unit Slot}
    (houtline : source.Outline contentType id template.shape) :
    Faithful source contentType (r.complete slot template).2 := by
  rw [Repository.complete, Store.fill]
  split
  · rename_i store hstore
    split at hstore
    · obtain rfl := Except.ok.inj hstore
      refine ⟨h.nodup, fun entry hother => ?_⟩
      obtain ⟨cell, hcell, hdepicts⟩ := h.depicts entry hother
      by_cases heq : entry.2 = slot
      · -- no other id is cached under the slot
        obtain rfl : entry = (id, slot) := List.inj_on_of_nodup_map h.nodup hother hentry heq
        refine ⟨⟨template.contentType, some (slot.stamp template)⟩, ?_, ?_⟩
        · have hlt : slot.index < r.store.cells.length := (List.getElem?_eq_some_iff.mp hcell).1
          exact List.getElem?_set_self hlt
        · rintro nodes hnodes
          obtain rfl := Option.some.inj hnodes
          exact ⟨houtline.contentType_eq, template, houtline, rfl⟩
      · refine ⟨cell, ?_, hdepicts⟩
        have hne : slot.index ≠ entry.2.index :=
          fun hindex => heq (congrArg Slot.mk hindex.symm)
        rw [Store.cell?, List.getElem?_set_ne hne]
        exact hcell
    · cases hstore
  · exact h

end Faithful

/-- Loading and compiling templates keeps a repository faithful. -/
theorem keeps_faithful (source : Source) (contentType : ContentType) :
    Keeps source contentType (Faithful source contentType) where
  report event h := h.report event
  begun id h := h.begun id
  evict id h := h.evict id
  complete h hentry htokens hcompile :=
    h.complete hentry (outline_of_compileTemplate htokens hcompile)
  insert h _ := h.of_prefix (List.prefix_append _ _) rfl

/-! ## Cached ids -/

/-- What is cached under an id is its outline, with marks of the slot and with the slots of the ids that
it includes as its targets. -/
theorem Faithful.template_of_mem (h : Faithful source contentType r)
    (hsound : Sound source.templateId r) {id : String} {slot : Slot} (hentry : (id, slot) ∈ r.cache) :
    ∃ template : Template Unit Slot, source.Outline contentType id template.shape ∧
      r.store.cell? slot = some ⟨contentType, some (slot.stamp template)⟩ ∧
      ∀ reference ∈ inclusionsAmong template.nodes,
        r.slot? (source.templateId reference.name (some id)) = some reference.target := by
  obtain ⟨nodes, ⟨contentType', hcell⟩, hcached⟩ := hsound.complete _ hentry
  obtain ⟨cell, hcell', hdepicts⟩ := h.depicts _ hentry
  obtain rfl := Option.some.inj (hcell.symm.trans hcell')
  obtain ⟨hcontentType, template, houtline, rfl⟩ := hdepicts nodes rfl
  obtain rfl : contentType' = contentType := hcontentType
  rw [inclusionsAmong_stamp] at hcached
  exact ⟨template, houtline, hcell, hcached⟩

theorem mem_keys_of_slot? {id : String} {slot : Slot} (h : r.slot? id = some slot) : id ∈ r.keys :=
  List.mem_map_of_mem (f := Prod.fst) (mem_cache_of_slot? h)

/-- A cached id is well-formed, and the ids that it includes are cached as well. -/
theorem Faithful.wellFormed_of_mem (h : Faithful source contentType r)
    (hsound : Sound source.templateId r) {id : String} (hid : id ∈ r.keys) :
    source.WellFormed contentType id ∧ ∀ id', source.Includes id id' → id' ∈ r.keys := by
  obtain ⟨⟨_, slot⟩, hentry, rfl⟩ := List.mem_map.mp hid
  obtain ⟨template, houtline, _, hcached⟩ := h.template_of_mem hsound hentry
  refine ⟨⟨_, houtline⟩, fun id' hincludes => ?_⟩
  obtain ⟨name, hname, rfl⟩ := houtline.includes_iff.mp hincludes
  rw [show template.shape.nodes = shapeOf template.nodes from rfl, map_name_shapeOf] at hname
  obtain ⟨reference, hreference, rfl⟩ := List.mem_map.mp hname
  exact mem_keys_of_slot? (hcached reference hreference)

end Repository

/-! ## Sessions -/

/-- The operation leaves the source as it is. -/
def Operation.KeepsSource : Operation → Prop
  | .serve _ => False
  | _ => True

namespace Session

variable {source : Source} {contentType : ContentType}

variable {session : Session}

/-- One operation that leaves the source as it is keeps the repository faithful. -/
theorem faithful_perform {operation : Operation} (hkeeps : operation.KeepsSource)
    (h : session.repository.Faithful session.source session.contentType) :
    (session.perform operation).repository.Faithful session.source session.contentType ∧
      (session.perform operation).source = session.source ∧
      (session.perform operation).contentType = session.contentType := by
  cases operation with
  | resolve depth name relativeTo =>
    exact ⟨(Repository.keeps_faithful _ _).resolveWithin depth name relativeTo h, rfl, rfl⟩
  | compile depth template stream =>
    exact ⟨(Repository.keeps_faithful _ _).compileWithin depth template stream h, rfl, rfl⟩
  | clear => exact ⟨h.of_sublist rfl (List.nil_sublist _), rfl, rfl⟩
  | serve tokens => exact hkeeps.elim

theorem faithful_foldl (session : Session) {operations : List Operation}
    (hkeeps : ∀ operation ∈ operations, operation.KeepsSource)
    (h : session.repository.Faithful session.source session.contentType) :
    (operations.foldl perform session).repository.Faithful session.source session.contentType := by
  induction operations generalizing session with
  | nil => exact h
  | cons operation operations ih =>
    obtain ⟨hoperation, hoperations⟩ := List.forall_mem_cons.mp hkeeps
    obtain ⟨hfaithful, hsource, hcontentType⟩ := faithful_perform hoperation h
    rw [← hsource, ← hcontentType] at hfaithful ⊢
    exact ih (session.perform operation) hoperations hfaithful

/-- At any time of a session in which the source is never changed, the repository is sound and
faithful. -/
theorem faithful_run (source : Source) (contentType : ContentType) {operations : List Operation}
    (hkeeps : ∀ operation ∈ operations, operation.KeepsSource) :
    (run source contentType operations).repository.Sound source.templateId ∧
      (run source contentType operations).repository.Faithful source contentType := by
  have hsound := (sound_run source contentType operations).repository
  rw [templateId_run] at hsound
  exact ⟨hsound, faithful_foldl { source, contentType } hkeeps Repository.Faithful.empty⟩

end Session

end Logicless
