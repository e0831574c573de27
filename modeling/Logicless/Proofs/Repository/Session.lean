import Logicless.Repository.Catalogue
import Logicless.Proofs.Repository.Growth

/-!
# Sessions with a repository

A repository is used for a long time: templates are loaded, others are compiled without being cached,
the cache is cleared, and the source comes to serve other tokens in between. Some operations fail. A
session is such a use from the start on, with all that the repository has answered.

How deep compilations can be nested is up to each operation, since the sources of a session may
serve ids without end. On a finite source, `nesting` is deep enough for what `Repository.resolve` and
`Repository.compile` do.

## Shape of the module

* `Operation` is what a repository is asked for and `Session.perform` does it; `Session.run` performs
  several operations from the start.
* `Repository.Sound` is what holds of a repository whenever no operation is in progress, and
  `Session.Sound` adds what is known of the templates that were handed out.
* `sound_perform` is the step and `sound_run` the run: a session is sound throughout.
-/

namespace Logicless

/-- What a repository is asked for. -/
inductive Operation where
  /-- The template with a name, used inside the template with an id if any. -/
  | resolve (depth : Nat) (name : String) (relativeTo : Option String)
  /-- A template that is not cached. -/
  | compile (depth : Nat) (template : Option String) (stream : Stream)
  /-- To forget all templates. -/
  | clear
  /-- Nothing: from now on, the source serves other tokens. -/
  | serve (tokens : (id : String) → Except Failure Stream)

/-- The use of a repository. -/
structure Session where
  /-- The source, as it is now. -/
  source : Source
  /-- The content type that templates are compiled with. -/
  contentType : ContentType
  /-- The repository. -/
  repository : Repository := {}
  /-- What loading and compiling templates has come to, latest first. -/
  answers : List (Except Failure Slot) := []

namespace Session

/-- The session after an answer of the repository. -/
def answered (session : Session) (result : Except Failure Slot × Repository) : Session :=
  { session with repository := result.2, answers := result.1 :: session.answers }

/-- The session after one more operation. -/
def perform (session : Session) : Operation → Session
  | .resolve depth name relativeTo =>
    session.answered (Repository.resolveWithin session.source session.contentType depth name
      relativeTo session.repository)
  | .compile depth template stream =>
    session.answered (Repository.compileWithin session.source session.contentType depth template
      stream session.repository)
  | .clear => { session with repository := session.repository.clear }
  | .serve tokens => { session with source := { session.source with tokens := tokens } }

/-- The session after some operations on a new repository. -/
def run (source : Source) (contentType : ContentType) (operations : List Operation) : Session :=
  operations.foldl perform { source := source, contentType := contentType }

/-- A template was handed out. -/
def Returned (session : Session) (slot : Slot) : Prop :=
  .ok slot ∈ session.answers

end Session

/-- The tokens that a catalogue serves after an edit are other tokens of the same source. -/
theorem Catalogue.templateId_edit (change : Catalogue.Edit) (index : Nat) (name : String)
    (relativeTo : Option String) :
    (catalogue : Catalogue) →
      (catalogue.edit change index).templateId name relativeTo = catalogue.templateId name relativeTo
  | .table true _ | .table false _ | .function _ => rfl
  | .choice first rest => by
    rw [edit, templateId]
    split
    · exact templateId_edit change index name relativeTo first
    · rfl

/-! ## Soundness -/

namespace Repository

variable {templateId : String → Option String → String} {r r' : Repository}

/-- No id is cached twice, and all cached templates are complete. -/
structure Sound (templateId : String → Option String → String) (r : Repository) : Prop where
  nodup : r.keys.Nodup
  complete : ∀ entry ∈ r.cache, r.Complete templateId entry

theorem sound_empty : Sound templateId {} where
  nodup := List.nodup_nil
  complete := by simp

/-- A repository that grows stays sound. -/
theorem Sound.grows (h : Sound templateId r) (hgrows : Grows templateId r r') :
    Sound templateId r' := by
  obtain ⟨added, hgrows⟩ := hgrows
  constructor
  · rw [keys_append hgrows.cache, List.nodup_append]
    refine ⟨h.nodup, hgrows.nodup, ?_⟩
    rintro key hkey _ hadded rfl
    obtain ⟨entry, hentry, rfl⟩ := List.mem_map.mp hadded
    exact hgrows.fresh entry hentry hkey
  · intro entry hentry
    rw [hgrows.cache] at hentry
    rcases List.mem_append.mp hentry with hentry | hentry
    · exact (h.complete entry hentry).mono hgrows.store hgrows.cache
    · exact hgrows.complete entry hentry

theorem mem_cache_of_slot? {id : String} {slot : Slot} (h : r.slot? id = some slot) :
    (id, slot) ∈ r.cache := by
  obtain ⟨before, after, hcache, _⟩ := List.lookup_eq_some_iff.mp h
  rw [hcache]
  simp

/-- From a filled slot whose inclusions are all cached, filled slots alone are reached. -/
theorem Sound.sealed_of_holds (h : Sound templateId r) {slot : Slot} {nodes : List StoredNode}
    (hnodes : r.store.Holds slot nodes)
    (hcached : ∀ reference ∈ inclusionsAmong nodes, ∃ id, r.slot? id = some reference.target) :
    r.store.Sealed slot := by
  refine Store.sealed_of_closed (P := fun s => s = slot ∨ ∃ id, r.slot? id = some s) ?_ ?_
    (.inl rfl)
  · rintro s (rfl | ⟨id, hid⟩)
    · exact ⟨nodes, hnodes⟩
    · obtain ⟨nodes, hnodes, _⟩ := h.complete _ (mem_cache_of_slot? hid)
      exact ⟨nodes, hnodes⟩
  · rintro s target hs ⟨reference, hreference, rfl⟩
    right
    rcases hs with rfl | ⟨id, hid⟩
    · rw [hnodes.nodes_eq] at hreference
      exact hcached reference hreference
    · obtain ⟨nodes, hnodes, hcached⟩ := h.complete _ (mem_cache_of_slot? hid)
      rw [hnodes.nodes_eq] at hreference
      exact ⟨_, hcached reference hreference⟩

theorem Sound.sealed_of_mem (h : Sound templateId r) {entry : String × Slot}
    (hentry : entry ∈ r.cache) : r.store.Sealed entry.2 := by
  obtain ⟨nodes, hnodes, hcached⟩ := h.complete entry hentry
  exact h.sealed_of_holds hnodes fun reference hmem => ⟨_, hcached reference hmem⟩

end Repository

namespace Session

variable {session : Session}

/-- The repository is sound, and whatever was handed out reaches filled slots alone. -/
structure Sound (session : Session) : Prop where
  repository : session.repository.Sound session.source.templateId
  sealed : ∀ slot, session.Returned slot → session.repository.store.Sealed slot

theorem sound_answered (h : session.Sound) {result : Except Failure Slot × Repository}
    (hgrows : Repository.Grows session.source.templateId session.repository result.2)
    (hsealed : ∀ slot, result.1 = .ok slot → result.2.store.Sealed slot) :
    (session.answered result).Sound where
  repository := h.repository.grows hgrows
  sealed := by
    intro slot hslot
    rcases List.mem_cons.mp hslot with hslot | hslot
    · exact hsealed slot hslot.symm
    · obtain ⟨added, hgrows⟩ := hgrows
      exact (h.sealed slot hslot).mono hgrows.store

/-- One operation keeps a session sound. -/
theorem sound_perform (h : session.Sound) (operation : Operation) :
    (session.perform operation).Sound := by
  cases operation with
  | resolve depth name relativeTo =>
    have hsettles := Repository.resolves_resolveWithin session.source session.contentType depth name
      relativeTo session.repository
    refine sound_answered h hsettles.grows ?_
    intro slot hslot
    have hcached := Repository.mem_cache_of_slot? (hsettles.cached slot hslot)
    exact (h.repository.grows hsettles.grows).sealed_of_mem hcached
  | compile depth template stream =>
    have hgrows := Repository.grows_compileWithin session.source session.contentType depth template
      stream session.repository
    refine sound_answered h hgrows ?_
    intro slot hslot
    obtain ⟨nodes, hnodes, hcached⟩ :=
      Repository.holds_of_compileWithin (Prod.ext hslot rfl)
    exact (h.repository.grows hgrows).sealed_of_holds hnodes
      fun reference hmem => ⟨_, hcached reference hmem⟩
  | clear =>
    refine ⟨⟨List.nodup_nil, ?_⟩, h.sealed⟩
    intro entry hentry
    cases hentry
  | serve tokens => exact ⟨h.repository, h.sealed⟩

theorem sound_foldl (operations : List Operation) (h : session.Sound) :
    (operations.foldl perform session).Sound := by
  induction operations generalizing session with
  | nil => exact h
  | cons operation operations ih => exact ih (sound_perform h operation)

/-- A session is sound throughout. -/
theorem sound_run (source : Source) (contentType : ContentType) (operations : List Operation) :
    (run source contentType operations).Sound := by
  refine sound_foldl operations ⟨Repository.sound_empty, ?_⟩
  intro slot hslot
  cases hslot

theorem templateId_foldl (operations : List Operation) :
    (operations.foldl perform session).source.templateId = session.source.templateId := by
  induction operations generalizing session with
  | nil => rfl
  | cons operation operations ih =>
    rw [List.foldl_cons, ih]
    cases operation <;> rfl

/-- Names stand for the same ids throughout a session. -/
theorem templateId_run (source : Source) (contentType : ContentType) (operations : List Operation) :
    (run source contentType operations).source.templateId = source.templateId :=
  templateId_foldl operations

end Session

end Logicless
