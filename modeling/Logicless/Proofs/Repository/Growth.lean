import Logicless.Proofs.Compile.Preservation
import Logicless.Proofs.Tree.Inclusions
import Logicless.Repository.Basic

/-!
# How loading a template changes a repository

While a template is compiled, its id is cached with a placeholder, and so is every template whose
compilation is still going on around it. From the outside none of this is seen: between its start and
its end, loading a template only adds to the end of the cache, and it adds complete templates alone.
When it fails it adds nothing, since everything cached after the template is removed with it.

## Shape of the proof

* `Repository.Complete` says that a cached template is filled and that whatever it includes is cached.
* `Repository.GrowsBy` says how a repository changes: by which entries its cache grows, that these are
  complete, and that no entry from before is ever removed on the way.
* `Resolves` is what is asked of a loader. A compilation with such a loader makes the repository grow
  (`Resolves.compile`), so `resolveWithin` is such a loader as well, by induction on how deep
  compilations are nested (`resolves_resolveWithin`).
-/

namespace Logicless

namespace Repository

variable {templateId : String → Option String → String} {r r' r'' : Repository}

/-- The ids in the cache. -/
def keys (repository : Repository) : List String :=
  repository.cache.map Prod.fst

/-- The template of an entry of the cache is filled, and whatever it includes is cached. -/
def Complete (templateId : String → Option String → String) (repository : Repository)
    (entry : String × Slot) : Prop :=
  ∃ nodes, repository.store.Holds entry.2 nodes ∧ ∀ reference ∈ inclusionsAmong nodes,
    repository.slot? (templateId reference.name (some entry.1)) = some reference.target

/-- Whatever was removed from the cache since some events were reported was found there, and none of
it is among the ids `kept`. -/
def Spares (kept : List String) (reported : List Event) : Prop :=
  ∀ removed id, .evicted removed id ∈ reported → removed.head? = some id ∧ ∀ key ∈ removed, key ∉ kept

/-- The cache has grown by complete entries with new ids, and nothing was removed from it. -/
structure GrowsBy (templateId : String → Option String → String) (r : Repository)
    (added : List (String × Slot)) (r' : Repository) : Prop where
  store : r.store.cells <+: r'.store.cells
  cache : r'.cache = r.cache ++ added
  complete : ∀ entry ∈ added, r'.Complete templateId entry
  fresh : ∀ entry ∈ added, entry.1 ∉ r.keys
  nodup : (added.map Prod.fst).Nodup
  events : ∃ reported, r'.events = reported ++ r.events ∧ Spares r.keys reported

/-- The repository has grown. -/
def Grows (templateId : String → Option String → String) (r r' : Repository) : Prop :=
  ∃ added, GrowsBy templateId r added r'

/-! ## Caches that grow -/

theorem keys_append {added : List (String × Slot)} (h : r'.cache = r.cache ++ added) :
    r'.keys = r.keys ++ added.map Prod.fst := by
  rw [keys, h, List.map_append, keys]

theorem slot?_eq_none_iff {id : String} : r.slot? id = none ↔ id ∉ r.keys := by
  rw [slot?, keys, List.lookup_eq_none_iff, List.mem_map, not_exists]
  refine forall_congr' fun entry => ?_
  rw [not_and, bne_iff_ne, ne_comm]

theorem slot?_mono {added : List (String × Slot)} (hcache : r'.cache = r.cache ++ added) {id : String}
    {slot : Slot} (h : r.slot? id = some slot) : r'.slot? id = some slot := by
  rw [slot?, hcache, List.lookup_append]
  rw [slot?] at h
  rw [h, Option.some_or]

/-- A complete entry stays complete when the store and the cache grow. -/
theorem Complete.mono {entry : String × Slot} {added : List (String × Slot)}
    (hstore : r.store.cells <+: r'.store.cells) (hcache : r'.cache = r.cache ++ added)
    (h : r.Complete templateId entry) : r'.Complete templateId entry := by
  obtain ⟨nodes, hnodes, hcached⟩ := h
  exact ⟨nodes, hnodes.mono hstore, fun reference hmem => slot?_mono hcache (hcached reference hmem)⟩

theorem spares_nil {kept : List String} : Spares kept [] := by
  simp [Spares]

theorem Spares.append {kept : List String} {reported reported' : List Event}
    (h : Spares kept reported) (h' : Spares kept reported') : Spares kept (reported ++ reported') := by
  intro removed id hmem
  rcases List.mem_append.mp hmem with hmem | hmem
  · exact h removed id hmem
  · exact h' removed id hmem

theorem Spares.cons {kept : List String} {event : Event} {reported : List Event}
    (hevent : Spares kept [event]) (h : Spares kept reported) : Spares kept (event :: reported) :=
  hevent.append h

/-- Fewer ids are spared whenever more are. -/
theorem Spares.mono {kept kept' : List String} {reported : List Event} (hsub : kept ⊆ kept')
    (h : Spares kept' reported) : Spares kept reported :=
  fun removed id hmem => ⟨(h removed id hmem).1, fun key hkey hkept =>
    (h removed id hmem).2 key hkey (hsub hkept)⟩

/-- An event that is no removal spares everything. -/
theorem spares_single {kept : List String} {event : Event}
    (h : ∀ removed id, event ≠ .evicted removed id) : Spares kept [event] := by
  intro removed id hmem
  exact absurd (List.mem_singleton.mp hmem).symm (h removed id)

namespace GrowsBy

variable {added added' : List (String × Slot)}

theorem refl : GrowsBy templateId r [] r where
  store := List.prefix_refl _
  cache := by simp
  complete := by simp
  fresh := by simp
  nodup := by simp
  events := ⟨[], rfl, spares_nil⟩

theorem trans (h : GrowsBy templateId r added r') (h' : GrowsBy templateId r' added' r'') :
    GrowsBy templateId r (added ++ added') r'' where
  store := h.store.trans h'.store
  cache := by rw [h'.cache, h.cache, List.append_assoc]
  complete := by
    intro entry hentry
    rcases List.mem_append.mp hentry with hentry | hentry
    · exact (h.complete entry hentry).mono h'.store h'.cache
    · exact h'.complete entry hentry
  fresh := by
    intro entry hentry
    rcases List.mem_append.mp hentry with hentry | hentry
    · exact h.fresh entry hentry
    · intro hmem
      refine h'.fresh entry hentry ?_
      rw [keys_append h.cache]
      exact List.mem_append_left _ hmem
  nodup := by
    rw [List.map_append, List.nodup_append]
    refine ⟨h.nodup, h'.nodup, ?_⟩
    rintro key hkey _ hkey' rfl
    obtain ⟨entry, hentry, rfl⟩ := List.mem_map.mp hkey'
    refine h'.fresh entry hentry ?_
    rw [keys_append h.cache]
    exact List.mem_append_right _ hkey
  events := by
    obtain ⟨reported, hreported, hspares⟩ := h.events
    obtain ⟨reported', hreported', hspares'⟩ := h'.events
    refine ⟨reported' ++ reported, by rw [hreported', hreported, List.append_assoc], ?_⟩
    refine Spares.append (hspares'.mono ?_) hspares
    rw [keys_append h.cache]
    exact List.subset_append_left _ _

/-- Reporting something else than a removal changes nothing else. -/
theorem report {event : Event} (h : ∀ removed id, event ≠ .evicted removed id) :
    GrowsBy templateId r [] (r.report event) where
  store := List.prefix_refl _
  cache := by simp [Repository.report]
  complete := by simp
  fresh := by simp
  nodup := by simp
  events := ⟨[event], rfl, spares_single h⟩

end GrowsBy

theorem Grows.refl : Grows templateId r r :=
  ⟨[], .refl⟩

theorem Grows.trans (h : Grows templateId r r') (h' : Grows templateId r' r'') :
    Grows templateId r r'' := by
  obtain ⟨added, h⟩ := h
  obtain ⟨added', h'⟩ := h'
  exact ⟨added ++ added', h.trans h'⟩

/-! ## The compilation of one template -/

/-- The repository while the template of an id starts being compiled. -/
def begun (r : Repository) (id : String) (contentType : ContentType) : Repository :=
  ((r.report (.compiling id)).reserve id contentType).2

theorem cells_begun (r : Repository) (id : String) (contentType : ContentType) :
    (r.begun id contentType).store.cells = r.store.cells ++ [⟨contentType, none⟩] :=
  rfl

theorem cache_begun (r : Repository) (id : String) (contentType : ContentType) :
    (r.begun id contentType).cache = r.cache ++ [(id, r.store.next)] :=
  rfl

section OneTemplate

variable {id : String} {contentType : ContentType} {added : List (String × Slot)}

theorem keys_begun (r : Repository) (id : String) (contentType : ContentType) :
    (r.begun id contentType).keys = r.keys ++ [id] :=
  keys_append (cache_begun r id contentType)

theorem subset_keys_begun (r : Repository) (id : String) (contentType : ContentType) :
    r.keys ⊆ (r.begun id contentType).keys := by
  rw [keys_begun]
  exact List.subset_append_left _ _

/-- What is cached since the start of a compilation follows the template itself. -/
theorem cache_of_begun (h : GrowsBy templateId (r.begun id contentType) added r') :
    r'.cache = r.cache ++ (id, r.store.next) :: added := by
  rw [h.cache, cache_begun, List.append_assoc, List.singleton_append]

/-- What is cached since the start of a compilation has new ids. -/
theorem fresh_of_begun (hnew : id ∉ r.keys)
    (h : GrowsBy templateId (r.begun id contentType) added r') :
    ∀ entry ∈ (id, r.store.next) :: added, entry.1 ∉ r.keys := by
  intro entry hentry
  rcases List.mem_cons.mp hentry with rfl | hentry
  · exact hnew
  · exact fun hmem => h.fresh entry hentry (subset_keys_begun r id contentType hmem)

/-- What is reported since the start of a compilation spares what was cached before. -/
theorem events_of_begun (h : GrowsBy templateId (r.begun id contentType) added r') :
    ∃ reported, r'.events = reported ++ r.events ∧ Spares r.keys reported := by
  obtain ⟨reported, hreported, hspares⟩ := h.events
  refine ⟨reported ++ [.compiling id], ?_, ?_⟩
  · rw [hreported, List.append_assoc]
    rfl
  · exact (hspares.mono (subset_keys_begun r id contentType)).append (spares_single (by simp))

/-- Removing a template that failed to compile removes what was cached since it started being
compiled, and nothing else. -/
theorem growsBy_evict (hnew : id ∉ r.keys)
    (h : GrowsBy templateId (r.begun id contentType) added r') :
    (r'.evict id).cache = r.cache ∧ GrowsBy templateId r [] (r'.evict id) := by
  have hcache := cache_of_begun h
  have hbefore : ∀ entry ∈ r.cache, decide (entry.1 ≠ id) = true := by
    intro entry hentry
    rw [decide_eq_true_eq]
    rintro rfl
    exact hnew (List.mem_map_of_mem hentry)
  have hkept : (r'.evict id).cache = r.cache := by
    show r'.cache.takeWhile _ = r.cache
    rw [hcache, List.takeWhile_append_of_pos hbefore]
    simp
  have hremoved : (r'.cache.dropWhile fun entry => decide (entry.1 ≠ id)) =
      (id, r.store.next) :: added := by
    rw [hcache, List.dropWhile_append_of_pos hbefore]
    simp
  refine ⟨hkept, ?_⟩
  constructor
  case store => exact (List.prefix_append _ _).trans h.store
  case cache => simp [hkept]
  case complete | fresh | nodup => simp
  case events =>
    obtain ⟨reported, hreported, hspares⟩ := events_of_begun h
    refine ⟨.evicted ((r'.cache.dropWhile fun entry => decide (entry.1 ≠ id)).map Prod.fst) id ::
      reported, ?_, ?_⟩
    · rw [List.cons_append, ← hreported]
      rfl
    · refine Spares.cons ?_ hspares
      intro removed id' hmem
      obtain ⟨rfl, rfl⟩ := Event.evicted.inj (List.mem_singleton.mp hmem)
      rw [hremoved]
      refine ⟨rfl, ?_⟩
      intro key hkey
      obtain ⟨entry, hentry, rfl⟩ := List.mem_map.mp hkey
      exact fresh_of_begun hnew h entry hentry

/-- Completing a template fills its placeholder and changes nothing else. -/
theorem growsBy_complete (hnew : id ∉ r.keys) {template : Template Unit Slot}
    (hincluded : ∀ node ∈ template.nodes, ∀ reference ∈ node.inclusions,
      r'.slot? (templateId reference.name (some id)) = some reference.target)
    (h : GrowsBy templateId (r.begun id contentType) added r') :
    (r'.complete r.store.next template).1 = .ok r.store.next ∧
      GrowsBy templateId r ((id, r.store.next) :: added) (r'.complete r.store.next template).2 := by
  obtain ⟨more, hcells⟩ := h.store
  rw [cells_begun, List.append_assoc, List.singleton_append] at hcells
  have hfill : r'.store.fill r.store.next template.contentType (r.store.next.stamp template) = _ :=
    Store.fill_of_cells_eq hcells.symm _ _
  rw [Repository.complete, hfill]
  have hcache := cache_of_begun h
  have hevents := events_of_begun h
  refine ⟨rfl, ?_⟩
  constructor
  case store => exact List.prefix_append _ _
  case cache => exact hcache
  case complete =>
    intro entry hentry
    rcases List.mem_cons.mp hentry with rfl | hentry
    · refine ⟨r.store.next.stamp template, ⟨template.contentType, ?_⟩, ?_⟩
      · simp [Store.cell?, Store.next]
      · intro reference hmem
        rw [inclusionsAmong_stamp, mem_inclusionsAmong] at hmem
        obtain ⟨node, hnode, hmem⟩ := hmem
        exact hincluded node hnode reference hmem
    · obtain ⟨nodes, hnodes, hcached⟩ := h.complete entry hentry
      exact ⟨nodes, hnodes.fill hfill, hcached⟩
  case fresh => exact fresh_of_begun hnew h
  case nodup =>
    rw [List.map_cons, List.nodup_cons]
    refine ⟨?_, h.nodup⟩
    intro hmem
    obtain ⟨entry, hentry, heq⟩ := List.mem_map.mp hmem
    refine h.fresh entry hentry ?_
    rw [keys_begun, heq]
    simp
  case events => exact hevents

theorem complete_cache (r : Repository) (slot : Slot) (template : Template Unit Slot) :
    (r.complete slot template).2.cache = r.cache := by
  rw [Repository.complete]
  split
  · rfl
  · rfl

theorem keys_complete (r : Repository) (slot : Slot) (template : Template Unit Slot) :
    (r.complete slot template).2.keys = r.keys := by
  rw [keys, complete_cache, keys]

theorem events_complete (r : Repository) (slot : Slot) (template : Template Unit Slot) :
    (r.complete slot template).2.events = r.events := by
  rw [Repository.complete]
  split
  · rfl
  · rfl

end OneTemplate

/-! ## Compilations with a loader that makes the repository grow -/

/-- What comes of loading the template of an id: the repository has grown. The slot that is handed out
is the one that the id is cached under; without one, the cache is as before. -/
structure Settles (templateId : String → Option String → String) (r : Repository) (id : String)
    (result : Except Failure Slot × Repository) : Prop where
  grows : Grows templateId r result.2
  cached : ∀ slot, result.1 = .ok slot → result.2.slot? id = some slot
  restored : ∀ failure, result.1 = .error failure → result.2.cache = r.cache

/-- A loader with which the repository grows. -/
def Resolves (templateId : String → Option String → String) (loader : Loader Repository Slot) : Prop :=
  ∀ name relativeTo r, Settles templateId r (templateId name relativeTo) (loader name relativeTo r)

/-- A property of the templates that are loaded is one of all inclusions of a node. -/
theorem hereditary_inclusions {ρ : Type} {contentType : ContentType} {Loaded : String → ρ → Prop} :
    Hereditary contentType Loaded
      fun node => ∀ reference ∈ node.inclusions, Loaded reference.name reference.target where
  text _ _ := by simp [Node.inclusions]
  interpolation _ _ _ := by simp [Node.inclusions]
  branch _ _ _ nodes h := by
    intro reference hmem
    obtain ⟨node, hnode, hmem⟩ := mem_inclusionsAmong.mp hmem
    exact h node hnode reference hmem
  inclusion _ _ _ h := by simpa [Node.inclusions] using h
  block _ _ nodes h := by
    intro reference hmem
    obtain ⟨node, hnode, hmem⟩ := mem_inclusionsAmong.mp hmem
    exact h node hnode reference hmem
  layout _ _ _ nodes hloaded h := by
    intro reference hmem
    rcases List.mem_cons.mp hmem with rfl | hmem
    · exact hloaded
    · obtain ⟨node, hnode, hmem⟩ := mem_inclusionsAmong.mp hmem
      exact h node hnode reference hmem

namespace Resolves

variable {loader : Loader Repository Slot}

/-- While a template is compiled, the inclusions that it has so far are cached. -/
theorem loading (h : Resolves templateId loader) (setting : Setting) :
    Loading setting loader (Grows templateId)
      (fun r name target => r.slot? (templateId name setting.template) = some target)
      (fun r node => ∀ reference ∈ node.inclusions,
        r.slot? (templateId reference.name setting.template) = some reference.target) where
  refl := fun _ => .refl
  load := fun name r => (h name setting.template r).grows
  loaded := by
    intro name target r r' hload
    have hcached := (h name setting.template r).cached target
    rw [hload] at hcached
    exact hcached rfl
  mono := by
    rintro r r' node ⟨added, hgrows⟩ hcached reference hmem
    exact slot?_mono hgrows.cache (hcached reference hmem)
  hereditary := fun _ => hereditary_inclusions

/-- A compilation makes the repository grow, whatever comes of it. -/
theorem grows_compileTemplate (h : Resolves templateId loader) (setting : Setting) (stream : Stream)
    (r : Repository) : Grows templateId r (compileTemplate setting (some loader) stream r).2 :=
  state_of_compileTemplate (R := Grows templateId) (fun _ => .refl) Grows.trans
    (fun name r => (h name setting.template r).grows) stream r

/-- Whatever a compiled template includes is cached. -/
theorem cached_of_compileTemplate (h : Resolves templateId loader) {setting : Setting}
    {stream : Stream} {template : Template Unit Slot}
    (hcompile : compileTemplate setting (some loader) stream r = (.ok template, r')) :
    ∀ node ∈ template.nodes, ∀ reference ∈ node.inclusions,
      r'.slot? (templateId reference.name setting.template) = some reference.target :=
  (h.loading setting).nodes_of_compileTemplate hcompile

end Resolves

/-- Reporting how a compilation ended makes the repository grow by nothing. -/
theorem growsBy_halted (r : Repository) (template : Option String) (halt : Halt) :
    GrowsBy templateId r [] (r.halted template halt) := by
  cases halt with
  | recorded failure => exact .report (by simp)
  | escaped failure => exact .refl

/-- A template that is cached is handed out, perhaps as a placeholder. -/
theorem settles_cached {id : String} {slot : Slot} (hslot : r.slot? id = some slot) :
    Settles templateId r id
      (.ok slot, if r.store.isPlaceholder slot then r.report (.recursion id) else r) := by
  refine ⟨?_, ?_, ?_⟩
  · dsimp only
    split
    · exact ⟨[], .report (by simp)⟩
    · exact .refl
  · intro slot' h
    obtain rfl := Except.ok.inj h
    dsimp only
    split
    · exact hslot
    · exact hslot
  · intro failure hfailure
    cases hfailure

/-- A template that failed to compile is removed again without a trace in the cache. -/
theorem settles_evict {id : String} {contentType : ContentType} {added : List (String × Slot)}
    {failure : Failure} (hnew : id ∉ r.keys)
    (h : GrowsBy templateId (r.begun id contentType) added r') :
    Settles templateId r id (.error failure, r'.evict id) := by
  obtain ⟨hcache, hgrows⟩ := growsBy_evict hnew h
  refine ⟨⟨[], hgrows⟩, ?_, fun _ _ => hcache⟩
  intro slot hslot
  cases hslot

/-- A template that was compiled is cached from then on. -/
theorem settles_complete {id : String} {contentType : ContentType} {added : List (String × Slot)}
    (hnew : id ∉ r.keys) {template : Template Unit Slot}
    (hincluded : ∀ node ∈ template.nodes, ∀ reference ∈ node.inclusions,
      r'.slot? (templateId reference.name (some id)) = some reference.target)
    (h : GrowsBy templateId (r.begun id contentType) added r') :
    Settles templateId r id (r'.complete r.store.next template) := by
  obtain ⟨hresult, hgrows⟩ := growsBy_complete hnew hincluded h
  refine ⟨⟨_, hgrows⟩, ?_, ?_⟩
  · intro slot hslot
    obtain rfl := Except.ok.inj (hresult.symm.trans hslot)
    rw [slot?, hgrows.cache, List.lookup_append, ← slot?, slot?_eq_none_iff.mpr hnew]
    simp
  · intro failure hfailure
    cases hresult.symm.trans hfailure

section Nested

variable {source : Source} {contentType : ContentType} {fuel : Nat} {name id : String}
  {relativeTo : Option String}

/-- An id that is cached is not compiled again. -/
theorem resolveWithin_of_cached {slot : Slot} (hid : source.templateId name relativeTo = id)
    (hslot : r.slot? id = some slot) :
    resolveWithin source contentType (fuel + 1) name relativeTo r =
      (.ok slot, if r.store.isPlaceholder slot then r.report (.recursion id) else r) := by
  rw [resolveWithin, hid]
  simp only [hslot]

/-- An id without tokens is cached and removed again. -/
theorem resolveWithin_of_no_tokens {failure : Failure}
    (hid : source.templateId name relativeTo = id) (hslot : r.slot? id = none)
    (htokens : source.tokens id = .error failure) :
    resolveWithin source contentType (fuel + 1) name relativeTo r =
      (.error failure, (r.begun id contentType).evict id) := by
  rw [resolveWithin, hid]
  simp only [hslot, htokens]
  rfl

/-- A template that compiles fills the placeholder of its id. -/
theorem resolveWithin_of_compiled {stream : Stream} {template : Template Unit Slot}
    (hid : source.templateId name relativeTo = id) (hslot : r.slot? id = none)
    (htokens : source.tokens id = .ok stream)
    (hcompile : compileTemplate ⟨contentType, some id⟩
      (some (resolveWithin source contentType fuel)) stream (r.begun id contentType) =
        (.ok template, r')) :
    resolveWithin source contentType (fuel + 1) name relativeTo r =
      r'.complete r.store.next template := by
  rw [resolveWithin, hid]
  simp only [hslot, htokens]
  rw [begun] at hcompile
  rw [hcompile]
  rfl

/-- A template that does not compile is reported and removed. -/
theorem resolveWithin_of_halted {stream : Stream} {halt : Halt}
    (hid : source.templateId name relativeTo = id) (hslot : r.slot? id = none)
    (htokens : source.tokens id = .ok stream)
    (hcompile : compileTemplate ⟨contentType, some id⟩
      (some (resolveWithin source contentType fuel)) stream (r.begun id contentType) =
        (.error halt, r')) :
    resolveWithin source contentType (fuel + 1) name relativeTo r =
      (.error halt.failure, (r'.halted (some id) halt).evict id) := by
  rw [resolveWithin, hid]
  simp only [hslot, htokens]
  rw [begun] at hcompile
  rw [hcompile]

/-- A compilation that is nested one deeper settles a template as the ones inside it do: a template that
is not cached is either completed at the end of the cache or removed again without a trace in it. -/
theorem settles_succ (h : Resolves source.templateId (resolveWithin source contentType fuel))
    (name : String) (relativeTo : Option String) (r : Repository) :
    Settles source.templateId r (source.templateId name relativeTo)
      (resolveWithin source contentType (fuel + 1) name relativeTo r) := by
  generalize hid : source.templateId name relativeTo = id
  cases hslot : r.slot? id with
  | some slot =>
    rw [resolveWithin_of_cached hid hslot]
    exact settles_cached hslot
  | none =>
    -- the id is new, so removing it removes what was cached since and nothing from before
    have hnew : id ∉ r.keys := slot?_eq_none_iff.mp hslot
    cases htokens : source.tokens id with
    | error failure =>
      rw [resolveWithin_of_no_tokens hid hslot htokens]
      exact settles_evict hnew .refl
    | ok stream =>
      have hgrows := h.grows_compileTemplate ⟨contentType, some id⟩ stream (r.begun id contentType)
      rcases hcompile : compileTemplate ⟨contentType, some id⟩
        (some (resolveWithin source contentType fuel)) stream (r.begun id contentType) with
        ⟨halt | template, r'⟩
      · rw [hcompile] at hgrows
        obtain ⟨added, hgrows⟩ := hgrows
        rw [resolveWithin_of_halted hid hslot htokens hcompile]
        exact settles_evict hnew (hgrows.trans (growsBy_halted r' (some id) halt))
      · rw [hcompile] at hgrows
        obtain ⟨added, hgrows⟩ := hgrows
        rw [resolveWithin_of_compiled hid hslot htokens hcompile]
        exact settles_complete hnew (h.cached_of_compileTemplate hcompile) hgrows

end Nested

/-- Loading templates makes a repository grow, however deep compilations may be nested. -/
theorem resolves_resolveWithin (source : Source) (contentType : ContentType) (fuel : Nat) :
    Resolves source.templateId (resolveWithin source contentType fuel) := by
  induction fuel with
  | zero =>
    intro name relativeTo r
    refine ⟨.refl, ?_, fun _ _ => rfl⟩
    intro slot h
    cases h
  | succ fuel ih => exact settles_succ ih

/-! ## Templates that are not cached -/

/-- Putting a compiled template into the store makes the repository grow by nothing. -/
theorem growsBy_insert (r : Repository) (template : Template Unit Slot) :
    GrowsBy templateId r [] { r with store := (r.store.insert template).2 } where
  store := List.prefix_append _ _
  cache := by simp
  complete := by simp
  fresh := by simp
  nodup := by simp
  events := ⟨[], rfl, spares_nil⟩

theorem grows_compileWithin (source : Source) (contentType : ContentType) (fuel : Nat)
    (template : Option String) (stream : Stream) (r : Repository) :
    Grows source.templateId r
      (compileWithin source contentType fuel template stream r).2 := by
  have hgrows := (resolves_resolveWithin source contentType fuel).grows_compileTemplate
    ⟨contentType, template⟩ stream r
  rw [compileWithin]
  split
  · rename_i compiled r' hcompile
    rw [hcompile] at hgrows
    exact hgrows.trans ⟨[], growsBy_insert r' compiled⟩
  · rename_i halt r' hcompile
    rw [hcompile] at hgrows
    exact hgrows.trans ⟨[], growsBy_halted r' template halt⟩

/-- A template that is compiled without being cached is filled, and whatever it includes is cached. -/
theorem holds_of_compileWithin {source : Source} {contentType : ContentType} {fuel : Nat}
    {template : Option String} {stream : Stream} {slot : Slot}
    (h : compileWithin source contentType fuel template stream r = (.ok slot, r')) :
    ∃ nodes, r'.store.Holds slot nodes ∧ ∀ reference ∈ inclusionsAmong nodes,
      r'.slot? (source.templateId reference.name template) = some reference.target := by
  rw [compileWithin] at h
  split at h
  · rename_i compiled r'' hcompile
    cases h
    have hcached := (resolves_resolveWithin source contentType fuel).cached_of_compileTemplate hcompile
    refine ⟨r''.store.next.stamp compiled, ⟨compiled.contentType, ?_⟩, ?_⟩
    · show (r''.store.cells ++ [_])[r''.store.cells.length]? = _
      rw [List.getElem?_concat_length]
    · intro reference hmem
      rw [inclusionsAmong_stamp, mem_inclusionsAmong] at hmem
      obtain ⟨node, hnode, hmem⟩ := hmem
      exact hcached node hnode reference hmem
  · cases h

end Repository

end Logicless
