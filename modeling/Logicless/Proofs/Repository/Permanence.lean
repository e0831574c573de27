import Logicless.Proofs.Repository.Session
import Logicless.Proofs.Repository.Termination

/-!
# A template is compiled once

Once a template was handed out by an operation of its own, it stays the template of its id until the
cache is cleared. Compilations that fail remove what was cached since they started, and whenever one
starts, the template is cached already. So it does not matter what fails, nor whether the source still
serves the id.

## Shape of the module

* `Session.requests` lists the requests in the course of an operation.
* `grows_foldl` says that the repository only grows as long as its cache is not cleared, and
  `started_foldl` that nothing is compiled in the meantime that was cached before.
* `compiled_once` is the result.
-/

namespace Logicless

namespace Repository

variable {source : Source} {contentType : ContentType} {r : Repository} {id : String} {slot : Slot}

/-- A template that is cached is handed out, and the source is not asked for its tokens. -/
theorem answer_of_cached {request : Request} (hcache : r.cache <+: request.repository.cache)
    (hslot : r.slot? (request.id source) = some slot) :
    ¬ request.Asks source ∧ (request.depth ≠ 0 → request.answer source contentType = .ok slot) := by
  have hcached : request.repository.slot? (request.id source) = some slot := slot?_of_cache hcache hslot
  constructor
  · rintro ⟨_, hnone⟩
    cases hnone.symm.trans hcached
  · intro hdepth
    obtain ⟨depth, hdepth⟩ := Nat.exists_eq_succ_of_ne_zero hdepth
    rw [Request.answer, hdepth, resolveWithin_of_cached rfl hcached]

end Repository

namespace Session

variable {session : Session}

/-- The requests in the course of an operation. -/
def requests (session : Session) : Operation → List Request
  | .resolve depth name relativeTo =>
    Repository.requestsWithin session.source session.contentType depth [] name relativeTo
      session.repository
  | .compile depth template stream =>
    Repository.compileRequests session.source session.contentType depth template stream
      session.repository
  | .clear | .serve _ => []

/-- Whatever is cached when an operation starts, is cached whenever a request is made in its course. -/
theorem cache_of_mem_requests {operation : Operation} {request : Request}
    (h : request ∈ session.requests operation) :
    session.repository.cache <+: request.repository.cache := by
  cases operation with
  | resolve depth name relativeTo =>
    obtain ⟨_, _, hnested, _⟩ := Repository.mem_requestsWithin h
    exact hnested.cache
  | compile depth template stream => exact (Repository.mem_compileRequests h).1.cache
  | clear | serve tokens => cases h

/-! ## Sessions in which the cache is not cleared -/

theorem grows_perform (session : Session) {operation : Operation} (h : operation ≠ .clear) :
    Repository.Grows session.source.templateId session.repository
      (session.perform operation).repository := by
  cases operation with
  | resolve depth name relativeTo =>
    exact (Repository.resolves_resolveWithin session.source session.contentType depth name relativeTo
      session.repository).grows
  | compile depth template stream =>
    exact Repository.grows_compileWithin session.source session.contentType depth template stream
      session.repository
  | clear => exact absurd rfl h
  | serve tokens => exact .refl

/-- The repository grows as long as its cache is not cleared. -/
theorem grows_foldl (session : Session) (operations : List Operation) (h : .clear ∉ operations) :
    Repository.Grows session.source.templateId session.repository
      (operations.foldl perform session).repository := by
  induction operations generalizing session with
  | nil => exact .refl
  | cons operation operations ih =>
    have hfirst : operation ≠ .clear := (List.ne_of_not_mem_cons h).symm
    have hids : (session.perform operation).source.templateId = session.source.templateId :=
      templateId_foldl [operation]
    have hgrows := ih (session.perform operation) (List.not_mem_of_not_mem_cons h)
    rw [hids] at hgrows
    exact (grows_perform session hfirst).trans hgrows

/-- No operation starts to compile what was cached before. -/
theorem started_perform (session : Session) (operation : Operation) :
    ∃ reported, (session.perform operation).repository.events =
        reported ++ session.repository.events ∧
      ∀ id ∈ session.repository.keys, id ∉ reported.filterMap Event.started? := by
  have htried : ∀ {ids : List String} {r' : Repository},
      Repository.Inquired session.repository ids r' → ∃ reported,
        r'.events = reported ++ session.repository.events ∧
        ∀ id ∈ session.repository.keys, id ∉ reported.filterMap Event.started? := by
    intro ids r' h
    obtain ⟨reported, hevents, hstarted⟩ := h.reported
    refine ⟨reported, hevents, fun id hkey hid => ?_⟩
    rw [hstarted, List.mem_reverse] at hid
    exact h.fresh id hid hkey
  cases operation with
  | resolve depth name relativeTo =>
    exact htried (Repository.inquiries_requestsWithin session.source session.contentType depth [] name
      relativeTo session.repository).tried.toInquired
  | compile depth template stream =>
    exact htried (Repository.inquiries_compileRequests session.source session.contentType depth
      template stream session.repository).tried.toInquired
  | clear | serve tokens => exact ⟨[], rfl, by simp⟩

/-- As long as the cache is not cleared, nothing is compiled that was cached at the start. -/
theorem started_foldl (session : Session) (operations : List Operation)
    (h : .clear ∉ operations) :
    ∃ reported, (operations.foldl perform session).repository.events =
        reported ++ session.repository.events ∧
      ∀ id ∈ session.repository.keys, id ∉ reported.filterMap Event.started? := by
  induction operations generalizing session with
  | nil => exact ⟨[], rfl, by simp⟩
  | cons operation operations ih =>
    have hfirst : operation ≠ .clear := (List.ne_of_not_mem_cons h).symm
    obtain ⟨reported, hevents, hstarted⟩ := started_perform session operation
    obtain ⟨reported', hevents', hstarted'⟩ :=
      ih (session.perform operation) (List.not_mem_of_not_mem_cons h)
    have hkeys := Repository.keys_subset_of_grows (grows_perform session hfirst)
    refine ⟨reported' ++ reported, by rw [List.foldl_cons, hevents', hevents, List.append_assoc], ?_⟩
    intro id hkey hid
    rw [List.filterMap_append, List.mem_append] at hid
    rcases hid with hid | hid
    · exact hstarted' id (hkeys hkey) hid
    · exact hstarted id hkey hid

/-! ## The template of an id -/

/-- A template that an operation has handed out is cached under its id, and filled. -/
theorem cached_of_answer (session : Session) {depth : Nat} {name : String}
    {relativeTo : Option String} {slot : Slot} (h : session.Sound)
    (hanswer : (session.perform (.resolve depth name relativeTo)).answers.head? = some (.ok slot)) :
    let repository := (session.perform (.resolve depth name relativeTo)).repository
    repository.slot? (session.source.templateId name relativeTo) = some slot ∧
      ∃ nodes, repository.store.Holds slot nodes := by
  intro repository
  have hresolved := Option.some.inj hanswer
  have hcached := (Repository.resolves_resolveWithin session.source session.contentType depth name
    relativeTo session.repository).cached slot hresolved
  have hsound : repository.Sound session.source.templateId :=
    (sound_perform h (.resolve depth name relativeTo)).repository
  obtain ⟨nodes, hnodes, _⟩ := hsound.complete _ (Repository.mem_cache_of_slot? hcached)
  exact ⟨hcached, nodes, hnodes⟩

/-- Once an operation has handed out a template, then as long as the cache is not cleared, and whatever
is done, fails or becomes of the source, it is the template of its id: the same tree in the same slot,
which every request for the id is answered by, without asking the source, and which all inclusions that
stand for the id refer to, in cached templates and in those that are not. -/
theorem compiled_once (source : Source) (contentType : ContentType) (before later : List Operation)
    (depth : Nat) (name : String) (relativeTo : Option String) (slot : Slot)
    (hanswer : ((run source contentType before).perform
      (.resolve depth name relativeTo)).answers.head? = some (.ok slot))
    (hclear : .clear ∉ later) :
    let id := source.templateId name relativeTo
    let earlier := (run source contentType before).perform (.resolve depth name relativeTo)
    let session := later.foldl perform earlier
    let repository := session.repository
    repository.slot? id = some slot ∧
      (∃ nodes, earlier.repository.store.Holds slot nodes ∧ repository.store.Holds slot nodes) ∧
      (∃ reported, repository.events = reported ++ earlier.repository.events ∧
        id ∉ reported.filterMap Event.started?) ∧
      (∀ operation, ∀ request ∈ session.requests operation, request.id session.source = id →
        ¬ request.Asks session.source ∧
          (request.depth ≠ 0 →
            request.answer session.source session.contentType = .ok slot)) ∧
      (∀ entry ∈ repository.cache, ∃ nodes, repository.store.Holds entry.2 nodes ∧
        ∀ reference ∈ inclusionsAmong nodes,
          source.templateId reference.name (some entry.1) = id → reference.target = slot) ∧
      ∀ depth template stream compiled after,
        Repository.compileWithin session.source session.contentType depth template stream repository =
            (.ok compiled, after) →
          ∃ nodes, after.store.Holds compiled nodes ∧ ∀ reference ∈ inclusionsAmong nodes,
            source.templateId reference.name template = id → reference.target = slot := by
  intro id earlier session repository
  have hids : ∀ operations, (run source contentType operations).source.templateId =
      source.templateId := templateId_run source contentType
  have hearlier : earlier.source.templateId = source.templateId :=
    (templateId_foldl [.resolve depth name relativeTo]).trans (hids before)
  have hsource : session.source.templateId = source.templateId :=
    (templateId_foldl later).trans hearlier
  have hsound : session.Sound :=
    sound_foldl later (sound_perform (sound_run source contentType before) _)
  obtain ⟨hcached, nodes, hnodes⟩ :=
    cached_of_answer _ (sound_run source contentType before) hanswer
  rw [hids before] at hcached
  obtain ⟨added, hgrows⟩ := grows_foldl earlier later hclear
  have hslot : repository.slot? id = some slot := Repository.slot?_mono hgrows.cache hcached
  refine ⟨hslot, ⟨nodes, hnodes, hnodes.mono hgrows.store⟩, ?_, ?_, ?_, ?_⟩
  · obtain ⟨reported, hevents, hstarted⟩ := started_foldl earlier later hclear
    refine ⟨reported, hevents, hstarted id ?_⟩
    exact List.mem_map_of_mem (Repository.mem_cache_of_slot? hcached)
  · intro operation request hrequest hid
    exact Repository.answer_of_cached (cache_of_mem_requests hrequest) (hid ▸ hslot)
  · intro entry hentry
    obtain ⟨nodes, hnodes, hincluded⟩ := hsound.repository.complete entry hentry
    refine ⟨nodes, hnodes, fun reference hreference hid => ?_⟩
    have htarget := hincluded reference hreference
    rw [hsource, hid] at htarget
    exact Option.some.inj (htarget.symm.trans hslot)
  · intro depth template stream compiled after hcompiled
    obtain ⟨nodes, hnodes, hincluded⟩ := Repository.holds_of_compileWithin hcompiled
    refine ⟨nodes, hnodes, fun reference hreference hid => ?_⟩
    -- what is cached by now is cached still when the compilation has ended
    have hgrows := Repository.grows_compileWithin session.source session.contentType depth template
      stream repository
    rw [hcompiled] at hgrows
    have htarget := hincluded reference hreference
    rw [hsource, hid] at htarget
    have hkept := Repository.slot?_of_cache (Repository.prefix_cache_of_grows hgrows) hslot
    exact Option.some.inj (htarget.symm.trans hkept)

/-- A source with a page that includes a note, and without a template of the name `missing`. -/
def notedPage : Source where
  templateId name _ := name
  tokens id :=
    if id = "page" then
      .ok (.ofTokens [⟨.inclusion, "note", 1, none⟩, ⟨.inclusion, "missing", 2, none⟩])
    else if id = "note" then .ok (.ofTokens [⟨.text, "Note", 1, none⟩])
    else .error (Fault.notFound (.unknown id)).alone

/-- A note stays cached when a page that includes it fails to compile, and when the source serves nothing
any more. -/
theorem compiled_once_notedPage :
    let later := [.resolve 3 "page" none,
      .serve fun id => .error (Fault.notFound (.unknown id)).alone]
    let earlier := (run notedPage .html []).perform (.resolve 3 "note" none)
    earlier.answers.head? = some (.ok ⟨0⟩) ∧ .clear ∉ later ∧
      (later.foldl perform earlier).repository.slot? "note" = some ⟨0⟩ := by
  intro later earlier
  have hanswer : earlier.answers.head? = some (.ok ⟨0⟩) := rfl
  have hclear : .clear ∉ later := by simp [later]
  exact ⟨hanswer, hclear, (compiled_once notedPage .html [] later 3 "note" none ⟨0⟩ hanswer hclear).1⟩

end Session

end Logicless
