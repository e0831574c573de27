import Logicless.Proofs.Compile.Calls
import Logicless.Proofs.Repository.Depth

/-!
# The requests that loading a template leads to

Loading a template leads to requests for the templates that it includes, these to further ones, and so
on. `requestsWithin` lists them in the order in which they are made, each with the repository that it
meets and with the templates that are being compiled around it.

While these are compiled, they are in the cache, and nothing that was cached before has gone. So no two
of them are the same, and none of them was cached at the start.

## Shape of the module

* `Request` is a request, and `Request.Asks` says that it asks the source for tokens.
* `Repository.requestsWithin` and `Repository.compileRequests` list the requests that loading a template
  and compiling one that is not cached lead to.
* `Nested` is what is known of the repository while templates are being compiled that were not cached
  before; `mem_requestsWithin` and `mem_compileRequests` say where in the course of an operation a
  request can be made.
-/

namespace Logicless

/-- The source serves an id. -/
def Source.Serves (source : Source) (id : String) : Prop :=
  ∃ stream, source.tokens id = .ok stream

instance (source : Source) : DecidablePred source.Serves := fun id =>
  match htokens : source.tokens id with
  | .ok stream => .isTrue ⟨stream, htokens⟩
  | .error _ => .isFalse fun ⟨_, hserved⟩ => by cases htokens.symm.trans hserved

/-- A request for a template. -/
structure Request where
  /-- How deep compilations may be nested from here on. -/
  depth : Nat
  /-- The name of the template. -/
  name : String
  /-- The id of the template inside which the name is used, if any. -/
  relativeTo : Option String
  /-- The repository at that time. -/
  repository : Repository
  /-- The ids of the cached templates that are being compiled, the outermost first. -/
  running : List String

namespace Request

/-- The id of the template. -/
def id (source : Source) (request : Request) : String :=
  source.templateId request.name request.relativeTo

/-- What the request comes to. -/
def answer (source : Source) (contentType : ContentType) (request : Request) :
    Except Failure Slot :=
  (Repository.resolveWithin source contentType request.depth request.name request.relativeTo
    request.repository).1

/-- The template is not cached, so the source is asked for its tokens. -/
def Asks (source : Source) (request : Request) : Prop :=
  request.depth ≠ 0 ∧ request.repository.slot? (request.id source) = none

instance (source : Source) : DecidablePred (Asks source) :=
  fun request => inferInstanceAs (Decidable (request.depth ≠ 0 ∧ _))

/-- The ids of the cached templates that are being compiled once the request is at work: its own is one
of them if the request asks for its tokens and gets them. -/
def compiling (source : Source) (request : Request) : List String :=
  if request.Asks source ∧ source.Serves (request.id source) then
    request.running ++ [request.id source]
  else request.running

end Request

/-- The ids for whose tokens some requests ask the source, in order. -/
def Source.asked (source : Source) (requests : List Request) : List String :=
  (requests.filter fun request => request.Asks source).map (Request.id source)

namespace Repository

/-- The requests that the inclusions of a stream lead to, if a single inclusion leads to `requests`. -/
def inclusionRequests (source : Source) (contentType : ContentType)
    (requests : (name : String) → (relativeTo : Option String) → Repository → List Request)
    (depth : Nat) (template : Option String) (stream : Stream) (r : Repository) : List Request :=
  (compileTemplate ⟨contentType, template⟩
      (some (resolveWithin source contentType depth).logged) stream (r, [])).2.2.flatMap
    fun call => requests call.name call.relativeTo call.state

/-- The requests that loading a template leads to while some templates are being compiled, itself the
first. -/
def requestsWithin (source : Source) (contentType : ContentType) :
    (depth : Nat) → (running : List String) → (name : String) → (relativeTo : Option String) →
      Repository → List Request
  | 0, running, name, relativeTo, r => [⟨0, name, relativeTo, r, running⟩]
  | depth + 1, running, name, relativeTo, r =>
    let id := source.templateId name relativeTo
    ⟨depth + 1, name, relativeTo, r, running⟩ ::
      match r.slot? id, source.tokens id with
      | none, .ok stream =>
        inclusionRequests source contentType
          (requestsWithin source contentType depth (running ++ [id])) depth (some id) stream
          (r.begun id contentType)
      | _, _ => []

/-- The requests that the compilation of a template that is not cached leads to. -/
def compileRequests (source : Source) (contentType : ContentType) (depth : Nat)
    (template : Option String) (stream : Stream) (r : Repository) : List Request :=
  inclusionRequests source contentType (requestsWithin source contentType depth []) depth template
    stream r

variable {source : Source} {contentType : ContentType} {depth : Nat} {running : List String}
  {name id : String} {relativeTo template : Option String} {stream : Stream} {r r' : Repository}

/-! ## Unfolding the requests -/

theorem requestsWithin_of_cached {slot : Slot} (hid : source.templateId name relativeTo = id)
    (hslot : r.slot? id = some slot) :
    requestsWithin source contentType (depth + 1) running name relativeTo r =
      [⟨depth + 1, name, relativeTo, r, running⟩] := by
  rw [requestsWithin, hid]
  simp only [hslot]

theorem requestsWithin_of_no_tokens {failure : Failure}
    (hid : source.templateId name relativeTo = id) (htokens : source.tokens id = .error failure) :
    requestsWithin source contentType (depth + 1) running name relativeTo r =
      [⟨depth + 1, name, relativeTo, r, running⟩] := by
  rw [requestsWithin, hid]
  simp only [htokens]
  cases r.slot? id <;> rfl

theorem requestsWithin_of_tokens (hid : source.templateId name relativeTo = id)
    (hslot : r.slot? id = none) (htokens : source.tokens id = .ok stream) :
    requestsWithin source contentType (depth + 1) running name relativeTo r =
      ⟨depth + 1, name, relativeTo, r, running⟩ ::
        inclusionRequests source contentType
          (requestsWithin source contentType depth (running ++ [id])) depth (some id) stream
          (r.begun id contentType) := by
  rw [requestsWithin, hid]
  simp only [hslot, htokens]

/-! ## The place of a request -/

theorem prefix_cache_begun (r : Repository) (id : String) (contentType : ContentType) :
    r.cache <+: (r.begun id contentType).cache := by
  rw [cache_begun]
  exact List.prefix_append _ _

theorem keys_subset_of_cache (h : r.cache <+: r'.cache) : r.keys ⊆ r'.keys :=
  (h.map Prod.fst).subset

theorem prefix_cache_of_grows {templateId : String → Option String → String}
    (h : Grows templateId r r') : r.cache <+: r'.cache := by
  obtain ⟨added, h⟩ := h
  exact ⟨added, h.cache.symm⟩

theorem slot?_of_cache {slot : Slot} (hcache : r.cache <+: r'.cache) (h : r.slot? id = some slot) :
    r'.slot? id = some slot := by
  obtain ⟨added, hcache⟩ := hcache
  exact slot?_mono hcache.symm h

/-- A request inside a compilation is made for one of its inclusions, and nothing that was cached at the
start of the compilation has gone by then. -/
theorem mem_inclusionRequests
    {requests : (name : String) → (relativeTo : Option String) → Repository → List Request}
    {request : Request}
    (h : request ∈ inclusionRequests source contentType requests depth template stream r) :
    ∃ name state, r.cache <+: state.cache ∧ request ∈ requests name template state := by
  obtain ⟨call, hcall, hrequest⟩ := List.mem_flatMap.mp h
  obtain ⟨hcache, hrelative⟩ := mem_calls_of_compileTemplate
    (R := fun r r' : Repository => r.cache <+: r'.cache) (fun _ => List.prefix_refl _)
    (fun hab hbc => hab.trans hbc)
    (fun name state => prefix_cache_of_grows
      (resolves_resolveWithin source contentType depth name template state).grows) stream r hcall
  rw [hrelative] at hrequest
  exact ⟨call.name, call.state, hcache, hrequest⟩

/-- What is known of a repository while some templates are being compiled that were not at the start:
they are cached now, and all that was cached is cached still. -/
structure Nested (source : Source) (r : Repository) (compiling : List String) (r' : Repository) :
    Prop where
  cache : r.cache <+: r'.cache
  nodup : compiling.Nodup
  fresh : ∀ id ∈ compiling, id ∉ r.keys
  cached : ∀ id ∈ compiling, id ∈ r'.keys
  served : ∀ id ∈ compiling, source.Serves id

theorem Nested.of_cache (h : r.cache <+: r'.cache) : Nested source r [] r' where
  cache := h
  nodup := List.nodup_nil
  fresh := by simp
  cached := by simp
  served := by simp

/-- The compilation of one template, around those of others. -/
theorem Nested.cons {compiling : List String} (hnew : id ∉ r.keys)
    (htokens : source.tokens id = .ok stream)
    (h : Nested source (r.begun id contentType) compiling r') :
    Nested source r (id :: compiling) r' where
  cache := (prefix_cache_begun r id contentType).trans h.cache
  nodup := by
    refine List.nodup_cons.mpr ⟨fun hmem => h.fresh id hmem ?_, h.nodup⟩
    rw [keys_begun]
    exact List.mem_append_right _ (List.mem_singleton_self id)
  fresh := by
    rintro other hother
    rcases List.mem_cons.mp hother with rfl | hother
    · exact hnew
    · exact fun hmem => h.fresh other hother (subset_keys_begun r id contentType hmem)
  cached := by
    rintro other hother
    rcases List.mem_cons.mp hother with rfl | hother
    · refine keys_subset_of_cache h.cache ?_
      rw [keys_begun]
      exact List.mem_append_right _ (List.mem_singleton_self _)
    · exact h.cached other hother
  served := by
    rintro other hother
    rcases List.mem_cons.mp hother with rfl | hother
    · exact ⟨stream, htokens⟩
    · exact h.served other hother

theorem Nested.start_of_cache {start : Repository} {compiling : List String}
    (hcache : start.cache <+: r.cache) (h : Nested source r compiling r') :
    Nested source start compiling r' where
  cache := hcache.trans h.cache
  nodup := h.nodup
  fresh id hid hmem := h.fresh id hid (keys_subset_of_cache hcache hmem)
  cached := h.cached
  served := h.served

/-- Every request in the course of loading a template is made inside compilations of templates that are
new since then, and each of these has taken one unit of the depth. -/
theorem mem_requestsWithin {request : Request}
    (h : request ∈ requestsWithin source contentType depth running name relativeTo r) :
    ∃ compiling, request.running = running ++ compiling ∧
      Nested source r compiling request.repository ∧
      request.depth + compiling.length = depth := by
  induction depth generalizing running name relativeTo r with
  | zero =>
    obtain rfl := List.mem_singleton.mp h
    exact ⟨[], (List.append_nil _).symm, .of_cache (List.prefix_refl _), rfl⟩
  | succ depth ih =>
    generalize hid : source.templateId name relativeTo = id
    have hfirst : ∀ first : Request, first = ⟨depth + 1, name, relativeTo, r, running⟩ →
        ∃ compiling, first.running = running ++ compiling ∧
          Nested source r compiling first.repository ∧
          first.depth + compiling.length = depth + 1 := by
      rintro first rfl
      exact ⟨[], (List.append_nil _).symm, .of_cache (List.prefix_refl _), rfl⟩
    cases hslot : r.slot? id with
    | some slot =>
      rw [requestsWithin_of_cached hid hslot] at h
      exact hfirst request (List.mem_singleton.mp h)
    | none =>
      cases htokens : source.tokens id with
      | error failure =>
        rw [requestsWithin_of_no_tokens hid htokens] at h
        exact hfirst request (List.mem_singleton.mp h)
      | ok stream =>
        rw [requestsWithin_of_tokens hid hslot htokens] at h
        rcases List.mem_cons.mp h with h | h
        · exact hfirst request h
        · obtain ⟨inner, state, hcache, h⟩ := mem_inclusionRequests h
          obtain ⟨compiling, hrunning, hnested, hdepth⟩ := ih h
          refine ⟨id :: compiling, ?_, ?_, ?_⟩
          · rw [hrunning, List.append_assoc, List.singleton_append]
          · exact .cons (slot?_eq_none_iff.mp hslot) htokens (hnested.start_of_cache hcache)
          · rw [List.length_cons, ← hdepth, Nat.add_assoc]

/-- The templates that are being compiled once a request is at work are all different, and the source
serves them. -/
theorem Nested.compiling {request : Request} (h : Nested source r request.running request.repository) :
    (request.compiling source).Nodup ∧ ∀ id ∈ request.compiling source, source.Serves id := by
  rw [Request.compiling]
  split
  · rename_i hasks
    -- the template of the request is not cached, unlike those that are being compiled
    have hnew : request.id source ∉ request.running := fun hmem =>
      slot?_eq_none_iff.mp hasks.1.2 (h.cached _ hmem)
    refine ⟨?_, ?_⟩
    · rw [List.nodup_append]
      refine ⟨h.nodup, List.nodup_singleton _, ?_⟩
      rintro id hid _ hown rfl
      obtain rfl := List.mem_singleton.mp hown
      exact hnew hid
    · intro id hid
      rcases List.mem_append.mp hid with hid | hid
      · exact h.served id hid
      · obtain rfl := List.mem_singleton.mp hid
        exact hasks.2
  · exact ⟨h.nodup, h.served⟩

/-- Every request in the course of a compilation is made inside compilations of templates that are new
since then. -/
theorem mem_compileRequests {request : Request}
    (h : request ∈ compileRequests source contentType depth template stream r) :
    Nested source r request.running request.repository ∧
      request.depth + request.running.length = depth := by
  obtain ⟨inner, state, hcache, h⟩ := mem_inclusionRequests h
  obtain ⟨compiling, hrunning, hnested, hdepth⟩ := mem_requestsWithin h
  rw [List.nil_append] at hrunning
  rw [hrunning]
  exact ⟨hnested.start_of_cache hcache, hdepth⟩

end Repository

end Logicless
