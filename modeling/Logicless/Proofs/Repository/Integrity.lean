import Logicless.Proofs.Repository.Session

/-!
# The integrity of the cache

Whenever no operation is in progress, the cache of a repository holds complete templates alone, and
each of them refers to the templates that are cached under the ids of its inclusions. An operation
that fails leaves the templates that were cached before it as they were.

## Shape of the module

* `cache_complete` is about all templates that are cached or were handed out, at any time.
* `Repository.contents` is the cache with what its slots hold. A repository that grows keeps it as it
  is (`contents_of_growsBy`).
* `failed_load_restores_cache` is about what an operation that fails leaves behind, and about what is
  removed from the cache on the way.
-/

namespace Logicless

namespace Session

/-- Throughout a session, every cached template is filled, with inclusions that refer at any depth to
the very templates that are cached under their ids; so what is reached from a template that is cached,
or that was ever handed out, is filled. -/
theorem cache_complete (source : Source) (contentType : ContentType)
    (operations : List Operation) :
    let session := run source contentType operations
    let repository := session.repository
    repository.keys.Nodup ∧
      (∀ entry ∈ repository.cache, ∃ nodes, repository.store.Holds entry.2 nodes ∧
        ∀ reference ∈ inclusionsAmong nodes,
          repository.slot? (source.templateId reference.name (some entry.1)) =
            some reference.target) ∧
      (∀ entry ∈ repository.cache, repository.store.Sealed entry.2) ∧
      ∀ slot, session.Returned slot → repository.store.Sealed slot := by
  intro session repository
  have hsound : session.Sound := sound_run source contentType operations
  have hids : session.source.templateId = source.templateId :=
    templateId_run source contentType operations
  refine ⟨hsound.repository.nodup, ?_, ?_, hsound.sealed⟩
  · intro entry hentry
    have hcomplete := hsound.repository.complete entry hentry
    rwa [hids] at hcomplete
  · intro entry hentry
    exact hsound.repository.sealed_of_mem hentry

end Session

/-! ## Failures -/

namespace Repository

variable {templateId : String → Option String → String} {r r' : Repository}

/-- The entries of the cache, with what their slots hold. -/
def contents (repository : Repository) : List ((String × Slot) × Option Cell) :=
  repository.cache.map fun entry => (entry, repository.store.cell? entry.2)

/-- Entries that are complete are filled. -/
theorem exists_content_of_complete {entry : String × Slot} (h : r.Complete templateId entry) :
    ∃ contentType nodes, r.store.cell? entry.2 = some ⟨contentType, some nodes⟩ := by
  obtain ⟨nodes, ⟨contentType, hcell⟩, _⟩ := h
  exact ⟨contentType, nodes, hcell⟩

/-- A repository that grows keeps the entries of its cache, and their slots keep what they hold. -/
theorem contents_of_growsBy {added : List (String × Slot)} (h : r.Sound templateId)
    (hgrows : GrowsBy templateId r added r') :
    r'.contents = r.contents ++ added.map fun entry => (entry, r'.store.cell? entry.2) := by
  rw [contents, hgrows.cache, List.map_append, contents]
  congr 1
  refine List.map_congr_left fun entry hentry => ?_
  obtain ⟨contentType, nodes, hcell⟩ := exists_content_of_complete (h.complete entry hentry)
  rw [Store.cell?_of_prefix hgrows.store hcell, hcell]

/-- Loading a template spares whatever is cached. -/
theorem spares_of_grows (hgrows : Grows templateId r r') :
    ∃ reported, r'.events = reported ++ r.events ∧ Spares r.keys reported := by
  obtain ⟨added, hgrows⟩ := hgrows
  exact hgrows.events

end Repository

namespace Session

/-- At any time, a template that fails to load leaves the cache as it was, down to the trees in it.
When a template that is not cached fails to compile, the cache has only grown, by filled templates at
its end. Whatever is removed on the way is found in the cache and was added on the way. -/
theorem failed_load_restores_cache (source : Source) (contentType : ContentType)
    (operations : List Operation) :
    let session := run source contentType operations
    let before := session.repository
    (∀ depth name relativeTo failure after,
      Repository.resolveWithin session.source session.contentType depth name relativeTo before =
          (.error failure, after) →
        after.contents = before.contents) ∧
      (∀ depth template stream failure after,
        Repository.compileWithin session.source session.contentType depth template stream before =
            (.error failure, after) →
          ∃ added, after.contents = before.contents ++ added ∧
            ∀ entry ∈ added, ∃ contentType nodes, entry.2 = some ⟨contentType, some nodes⟩) ∧
      ∀ operation, ∃ reported,
        (session.perform operation).repository.events = reported ++ before.events ∧
          Repository.Spares before.keys reported := by
  intro session before
  have hsound : session.Sound := sound_run source contentType operations
  refine ⟨?_, ?_, ?_⟩
  · intro depth name relativeTo failure after hfailed
    have hsettles := Repository.resolves_resolveWithin session.source session.contentType depth name
      relativeTo before
    rw [hfailed] at hsettles
    obtain ⟨added, hgrows⟩ := hsettles.grows
    -- nothing is added, since the cache is the same list
    have hadded : added = [] := by
      have hrestored := hsettles.restored failure rfl
      rwa [hgrows.cache, List.append_right_eq_self] at hrestored
    have hcontents := Repository.contents_of_growsBy hsound.repository hgrows
    rwa [hadded, List.map_nil, List.append_nil] at hcontents
  · intro depth template stream failure after hfailed
    have hgrows := Repository.grows_compileWithin session.source session.contentType depth template
      stream before
    rw [hfailed] at hgrows
    obtain ⟨added, hgrows⟩ := hgrows
    refine ⟨_, Repository.contents_of_growsBy hsound.repository hgrows, ?_⟩
    intro content hcontent
    obtain ⟨entry, hentry, rfl⟩ := List.mem_map.mp hcontent
    exact Repository.exists_content_of_complete (hgrows.complete entry hentry)
  · intro operation
    cases operation with
    | resolve depth name relativeTo =>
      exact Repository.spares_of_grows (Repository.resolves_resolveWithin session.source
        session.contentType depth name relativeTo before).grows
    | compile depth template stream =>
      exact Repository.spares_of_grows (Repository.grows_compileWithin session.source
        session.contentType depth template stream before)
    | clear | serve tokens => exact ⟨[], rfl, Repository.spares_nil⟩

/-- A source with a page that includes a part, which includes the page again, and then a template that
there is none of. -/
def brokenPage : Source where
  templateId name _ := name
  tokens id :=
    if id = "page" then
      .ok (.ofTokens [⟨.inclusion, "part", 1, none⟩, ⟨.inclusion, "missing", 2, none⟩])
    else if id = "part" then .ok (.ofTokens [⟨.inclusion, "page", 1, none⟩])
    else if id = "note" then .ok (.ofTokens [⟨.text, "Note", 1, none⟩])
    else .error (Fault.notFound (.unknown id)).alone

/-- Loading the page fails although its part was compiled, and leaves the note alone in the cache. -/
theorem failed_load_restores_cache_brokenPage :
    let before := (run brokenPage .html [.resolve 3 "note" none]).repository
    ∃ failure after, Repository.resolveWithin brokenPage .html 3 "page" none before =
        (.error failure, after) ∧ after.contents = before.contents ∧ before.keys = ["note"] := by
  intro before
  have hfailed : ∃ failure after, Repository.resolveWithin brokenPage .html 3 "page" none before =
      (.error failure, after) := ⟨_, _, rfl⟩
  obtain ⟨failure, after, hfailed⟩ := hfailed
  have hcontents := (failed_load_restores_cache brokenPage .html [.resolve 3 "note" none]).1 3 "page"
    none failure after hfailed
  exact ⟨failure, after, hfailed, hcontents, rfl⟩

end Session

end Logicless
