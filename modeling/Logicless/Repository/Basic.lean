import Logicless.Repository.Source
import Logicless.Tree.Store

/-!
# The repository

A repository compiles templates by name and keeps them. Included templates come from the repository
itself, relative to the id of the including one.

An id is cached, with a slot that is still a placeholder, before its template is compiled. So a
template that includes itself, directly or through others, is compiled to a tree that refers to its
own slot. If the compilation fails, the id is removed from the cache together with everything that
was cached after it: those templates may refer to the slot that is never filled.

## Shape of the module

* `Event` is what a repository reports of its work.
* `Repository` is the state: the store, the cache in the order in which compilations started, and
  the events, latest first.
* `Repository.resolveWithin` loads a template and `Repository.compileWithin` compiles one that is not
  cached. Compilations of included templates are nested; `fuel` bounds how deep.
* `Repository.resolve` and `Repository.compile` are the operations on a finite source. Each nested
  compilation is of an id that the source serves and that was not cached, so `nesting` is enough: the
  number of listed ids and one more, for an id that no source serves or that is cached.
-/

namespace Logicless

/-- What a repository reports of its work. -/
inductive Event where
  /-- The compilation of a template starts. -/
  | compiling (id : String)
  /-- A template includes one that is being compiled. -/
  | recursion (id : String)
  /-- The compilation of a template has failed. -/
  | failed (template : Option String) (fault : LocatedFault)
  /-- The templates `removed` were removed from the cache, because the one with the id `id` was not
  compiled. -/
  | evicted (removed : List String) (id : String)
deriving DecidableEq, Repr

/-- The wording of an event. -/
def Event.message : Event → String
  | compiling id => "Compiling template " ++ id
  | recursion id => "Recursive reference to template " ++ id
  | failed template fault =>
    "Compilation of " ++ shownTemplate template ++ " failed (" ++ fault.kind.label ++ "): " ++
      fault.detail
  | evicted removed id =>
    "Evicted " ++ toString removed.length ++ " template(s) after " ++ id ++ " failed to compile"

/-- The state of a repository. -/
structure Repository where
  /-- All templates that were ever compiled. -/
  store : Store := {}
  /-- The slots of ids, in the order in which their compilations started. -/
  cache : List (String × Slot) := []
  /-- What was reported, latest first. -/
  events : List Event := []

namespace Repository

/-- Reports an event. -/
def report (repository : Repository) (event : Event) : Repository :=
  { repository with events := event :: repository.events }

/-- The slot that an id is cached under. -/
def slot? (repository : Repository) (id : String) : Option Slot :=
  repository.cache.lookup id

/-- The ids of the templates that are compiled, in the order in which their compilations started. -/
def cachedIds (repository : Repository) : List String :=
  (repository.cache.filter fun entry => !repository.store.isPlaceholder entry.2).map Prod.fst

/-- Forgets all templates. -/
def clear (repository : Repository) : Repository :=
  { repository with cache := [] }

/-- Caches an id with a new placeholder. -/
def reserve (repository : Repository) (id : String) (contentType : ContentType) :
    Slot × Repository :=
  let (slot, store) := repository.store.reserve contentType
  (slot, { repository with store := store, cache := repository.cache ++ [(id, slot)] })

/-- Removes an id and everything cached after it. -/
def evict (repository : Repository) (id : String) : Repository :=
  let kept := repository.cache.takeWhile fun entry => entry.1 ≠ id
  let removed := repository.cache.dropWhile fun entry => entry.1 ≠ id
  { repository with cache := kept }.report (.evicted (removed.map Prod.fst) id)

/-- Fills the placeholder of a template that was compiled. -/
def complete (repository : Repository) (slot : Slot) (template : Template Unit Slot) :
    Except Failure Slot × Repository :=
  match repository.store.fill slot template.contentType (slot.stamp template) with
  | .ok store => (.ok slot, { repository with store := store })
  | .error fault => (.error fault.alone, repository)

/-- The end of a compilation that gave no template: a failure of the compilation itself is
reported. -/
def halted (repository : Repository) (template : Option String) : Halt → Repository
  | .recorded failure => repository.report (.failed template failure.fault)
  | .escaped _ => repository

/-- The template with a name, used inside the template with an id if any. Each nested compilation
needs one unit of `fuel`. -/
def resolveWithin (source : Source) (contentType : ContentType) :
    (fuel : Nat) → Loader Repository Slot
  | 0, _, _, repository => (.error Fault.tooDeep.alone, repository)
  | fuel + 1, name, relativeTo, repository =>
    let id := source.templateId name relativeTo
    match repository.slot? id with
    | some slot =>
      (.ok slot,
        if repository.store.isPlaceholder slot then repository.report (.recursion id)
        else repository)
    | none =>
      let (slot, repository) := (repository.report (.compiling id)).reserve id contentType
      match source.tokens id with
      | .error failure => (.error failure, repository.evict id)
      | .ok stream =>
        match compileTemplate ⟨contentType, some id⟩
            (some (resolveWithin source contentType fuel)) stream repository with
        | (.ok template, repository) => repository.complete slot template
        | (.error halt, repository) =>
          (.error halt.failure, (repository.halted (some id) halt).evict id)

/-- Compiles a template that is not cached. Its inclusions are, with nested compilations bounded by
`fuel`. -/
def compileWithin (source : Source) (contentType : ContentType) (fuel : Nat)
    (template : Option String) (stream : Stream) (repository : Repository) :
    Except Failure Slot × Repository :=
  match compileTemplate ⟨contentType, template⟩ (some (resolveWithin source contentType fuel)) stream
      repository with
  | (.ok compiled, repository) =>
    let (slot, store) := repository.store.insert compiled
    (.ok slot, { repository with store := store })
  | (.error halt, repository) => (.error halt.failure, repository.halted template halt)

/-! ## Finite sources -/

/-- How deep compilations can be nested. -/
def nesting (source : FiniteSource) : Nat :=
  source.ids.eraseDups.length + 1

/-- The template with a name, used inside the template with an id if any. -/
def resolve (source : FiniteSource) (contentType : ContentType) : Loader Repository Slot :=
  resolveWithin source.toSource contentType (nesting source)

/-- Compiles a template that is not cached. Its inclusions are. -/
def compile (source : FiniteSource) (contentType : ContentType) (template : Option String)
    (stream : Stream) (repository : Repository) : Except Failure Slot × Repository :=
  compileWithin source.toSource contentType (nesting source) template stream repository

end Repository

end Logicless
