import Logicless.Proofs.Repository.Exhibit
import Logicless.Proofs.Repository.Frozen
import Logicless.Proofs.Repository.WellFormed

/-!
# Templates that are compiled without being cached

The tokens of an id may be compiled without caching the template, while the templates that it includes
are cached as ever. So where a template includes itself, the one that is not cached refers to a cached
copy of it, which refers to itself. Still, the tokens compile exactly if the template can be loaded, and
the two templates are the same as far as can be seen.

## Shape of the proof

* `exists_compile_iff` says when the tokens compile: if all ids that are reached from theirs are
  well-formed. By `exists_resolve_iff` that is when the template is handed out.
* A slot with a template that is not cached shows the id all the same (`shows_of_compileWithin`), and it
  never gets into the cache (`keeps_outside`).
* `Session.Gives` says that an operation of a session has given out a template, and
  `Session.cached_uncached_agree` is the result.
-/

namespace Logicless

namespace Repository

variable {source : Source} {contentType : ContentType} {name id : String} {reached : String → Prop}
  {stream : Stream} {r r' : Repository} {depth : Nat} {slot : Slot}

/-! ## When tokens compile -/

/-- The tokens of a well-formed id compile if the ids that it includes are ready to be loaded. -/
theorem exists_compileWithin_of_ready {ids : Finset String} (h : Ready source contentType reached r)
    (hlisted : ∀ id, reached id → id ∉ r.keys → id ∈ ids)
    (hwellFormed : source.WellFormed contentType id) (htokens : source.tokens id = .ok stream)
    (hincluded : ∀ id', source.Includes id id' → reached id') (hdepth : ids.card < depth) :
    ∃ slot after, compileWithin source contentType depth (some id) stream r = (.ok slot, after) := by
  obtain ⟨outline, stream', htokens', houtline⟩ := hwellFormed
  obtain rfl := Except.ok.inj (htokens.symm.trans htokens')
  -- no load fails, so this compilation ends like the one that accepts every name
  have hloaders : ScopeStack.Simulation.Loaders ⟨contentType, some id⟩
      (resolveWithin source contentType depth) (Resolver.accepting.loader : Loader Unit Unit)
      (· ∈ stream.includedNames) (fun _ => False) (fun _ => False) (fun _ _ => True)
      (fun s _ => Extends reached r s) (fun _ _ => True) := {
    lost := fun _ _ _ hfalse => hfalse
    failed := fun _ _ _ => trivial
    load := by
      intro name hname s _ hextends
      obtain ⟨slot, after, hresolved, hmore⟩ := exists_resolveWithin_of_ready
        (h.mono hextends.subset)
        (fun other hother hnew => hlisted other hother fun hmem => hnew (hextends.subset hmem))
        (hincluded _ ⟨stream, htokens, name, hname, rfl⟩) hdepth
      rw [hresolved]
      exact .done trivial (hextends.trans hmore) }
  have hagree := (ScopeStack.Simulation.shape _).compileTemplate hloaders r () Extends.refl
  rw [compileWithin]
  generalize compileTemplate ⟨contentType, some id⟩
    (some (resolveWithin source contentType depth)) stream r = result at hagree
  generalize compileTemplate ⟨contentType, some id⟩
    (some (Resolver.accepting.loader : Loader Unit Unit)) stream () = result' at hagree houtline
  cases hagree with
  | lost hfalse => exact hfalse.elim
  | failed => cases houtline
  | done => exact ⟨_, _, rfl⟩

/-- A template that is not cached shows the id of its tokens, by what is cached. -/
theorem shows_of_compileWithin (htokens : source.tokens id = .ok stream)
    (h : compileWithin source contentType depth (some id) stream r = (.ok slot, r')) :
    r'.store.Shows source contentType r'.cache (id, slot) := by
  rw [compileWithin] at h
  split at h
  · rename_i compiled after hcompile
    cases h
    have houtline := outline_of_compileTemplate htokens hcompile
    have hcached := (resolves_resolveWithin source contentType depth).cached_of_compileTemplate hcompile
    have hcell : (after.store.insert compiled).2.cell? after.store.next =
        some ⟨compiled.contentType, some (after.store.next.stamp compiled)⟩ :=
      List.getElem?_concat_length
    rw [show compiled.contentType = contentType from houtline.contentType_eq] at hcell
    refine ⟨compiled, houtline, hcell, fun reference hreference => ?_⟩
    obtain ⟨node, hnode, hreference⟩ := mem_inclusionsAmong.mp hreference
    exact mem_cache_of_slot? (hcached node hnode reference hreference)
  · cases h

/-- What the slot of an id shows is well-formed, and so is what is reached from there. -/
theorem Faithful.wellFormed_of_shows (h : Faithful source contentType r)
    (hsound : Sound source.templateId r)
    (hshows : r.store.Shows source contentType r.cache (id, slot)) :
    ∀ id', Relation.ReflTransGen source.Includes id id' → source.WellFormed contentType id' := by
  obtain ⟨template, houtline, _, htargets⟩ := hshows
  intro id' hreached
  rcases Relation.ReflTransGen.cases_head hreached with rfl | ⟨next, hincludes, hreached⟩
  · exact ⟨_, houtline⟩
  · -- what is included is cached, together with all that it reaches
    obtain ⟨name, hname, rfl⟩ := houtline.includes_iff.mp hincludes
    rw [show template.shape.nodes = shapeOf template.nodes from rfl, map_name_shapeOf] at hname
    obtain ⟨reference, hreference, rfl⟩ := List.mem_map.mp hname
    have hkey := List.mem_map_of_mem (f := Prod.fst) (htargets reference hreference)
    exact (h.wellFormed_of_mem hsound (mem_keys_of_reached hsound h hkey hreached)).1

/-- On a source that lists its ids, the tokens of an id compile exactly if all ids that are reached from
there are well-formed. -/
theorem exists_compile_iff (source : FiniteSource) (hsound : Sound source.templateId r)
    (hfaithful : Faithful source.toSource contentType r) (htokens : source.tokens id = .ok stream) :
    (∃ slot after, compile source contentType (some id) stream r = (.ok slot, after)) ↔
      ∀ id', Relation.ReflTransGen source.Includes id id' → source.WellFormed contentType id' := by
  constructor
  · rintro ⟨slot, after, hcompile⟩
    have hgrows := grows_compileWithin source.toSource contentType (nesting source) (some id) stream r
    have hfaithful' := (keeps_faithful source.toSource contentType).compileWithin (nesting source)
      (some id) stream hfaithful
    rw [show compileWithin source.toSource contentType (nesting source) (some id) stream r =
      (.ok slot, after) from hcompile] at hgrows hfaithful'
    exact hfaithful'.wellFormed_of_shows (hsound.grows hgrows) (shows_of_compileWithin htokens hcompile)
  · intro hwellFormed
    have hready : Ready source.toSource contentType (Relation.ReflTransGen source.Includes id) r :=
      fun id' hid _ => ⟨hwellFormed id' hid, fun _ hincludes => hid.tail hincludes⟩
    refine exists_compileWithin_of_ready hready ?_ (hwellFormed id .refl) htokens
      (fun _ hincludes => .single hincludes) (card_served_lt_nesting source)
    intro id' hid _
    obtain ⟨_, stream', htokens', _⟩ := hwellFormed id' hid
    exact FiniteSource.mem_served.mpr ⟨stream', htokens'⟩

/-! ## Slots outside of the cache -/

/-- A slot has been reserved, and no id is cached under it. -/
def Outside (slot : Slot) (r : Repository) : Prop :=
  slot.index < r.store.cells.length ∧ slot ∉ r.cache.map Prod.snd

/-- Ids are cached under new slots alone, so a slot outside of the cache stays there. -/
theorem keeps_outside (source : Source) (contentType : ContentType) (slot : Slot) :
    Keeps source contentType (Outside slot) where
  report _ h := h
  begun {r} id h := by
    obtain ⟨hlt, hnot⟩ := h
    refine ⟨?_, ?_⟩
    · rw [cells_begun, List.length_append]
      exact Nat.lt_add_right _ hlt
    · rw [cache_begun, List.map_append, List.mem_append, not_or]
      refine ⟨hnot, fun hmem => ?_⟩
      rw [List.mem_singleton.mp hmem] at hlt
      exact Nat.lt_irrefl _ hlt
  evict id h := by
    refine ⟨h.1, fun hmem => h.2 ?_⟩
    exact ((List.takeWhile_sublist _).map Prod.snd).subset hmem
  complete {r _ id slot' _ _ template} h _ _ _ := by
    rw [complete]
    cases hfill : r.store.fill slot' template.contentType (slot'.stamp template) with
    | error fault => exact h
    | ok store =>
      obtain ⟨_, _, rfl⟩ := Store.fill_eq_ok_iff.mp hfill
      exact ⟨by simpa using h.1, h.2⟩
  insert {r _ _ _ _ template} h _ := by
    refine ⟨?_, h.2⟩
    show slot.index < (r.store.cells ++ [_]).length
    rw [List.length_append]
    exact Nat.lt_add_right _ h.1

/-- A template that is not cached goes into a new slot, which is outside of the cache. -/
theorem outside_of_compileWithin (hfaithful : Faithful source contentType r)
    {template : Option String}
    (h : compileWithin source contentType depth template stream r = (.ok slot, r')) :
    r.store.cell? slot = none ∧ Outside slot r' := by
  have hgrows := (resolves_resolveWithin source contentType depth).grows_compileTemplate
    ⟨contentType, template⟩ stream r
  have hfaithful' : Faithful source contentType (compileTemplate ⟨contentType, template⟩
      (some (resolveWithin source contentType depth)) stream r).2 :=
    invariant_compileTemplate _
      (fun name _ => (keeps_faithful source contentType).resolveWithin depth name template) stream
      hfaithful
  rw [compileWithin] at h
  split at h
  · rename_i compiled after hcompile
    cases h
    rw [hcompile] at hgrows hfaithful'
    obtain ⟨added, hgrows⟩ := hgrows
    refine ⟨List.getElem?_eq_none hgrows.store.length_le, ?_, hfaithful'.next_not_mem⟩
    show after.store.cells.length < (after.store.cells ++ [_]).length
    rw [List.length_append]
    exact Nat.lt_succ_self _
  · cases h

end Repository

/-! ## Sessions -/

namespace Session

open Repository

variable {source : Source} {contentType : ContentType} {operations : List Operation}

/-- In the course of some operations, one of them gave out a template. -/
def Gives (source : Source) (contentType : ContentType) (operations : List Operation)
    (operation : Operation) (slot : Slot) : Prop :=
  ∃ before, before ++ [operation] <+: operations ∧
    (run source contentType (before ++ [operation])).answers.head? = some (.ok slot)

theorem run_concat (source : Source) (contentType : ContentType) (before : List Operation)
    (operation : Operation) :
    run source contentType (before ++ [operation]) =
      (run source contentType before).perform operation := by
  rw [run, List.foldl_append]
  rfl

/-- A source that is never changed is the source of the session throughout. -/
theorem setting_run (source : Source) (contentType : ContentType)
    (hkeeps : ∀ operation ∈ operations, operation.KeepsSource) :
    (run source contentType operations).source = source ∧
      (run source contentType operations).contentType = contentType := by
  induction operations using List.reverseRecOn with
  | nil => exact ⟨rfl, rfl⟩
  | append_singleton operations operation ih =>
    obtain ⟨hoperations, hoperation⟩ := List.forall_mem_append.mp hkeeps
    rw [run_concat]
    cases operation with
    | resolve | compile | clear => exact ih hoperations
    | serve tokens => exact (hoperation _ (List.mem_singleton_self _)).elim

theorem run_append (source : Source) (contentType : ContentType) (before later : List Operation) :
    run source contentType (before ++ later) = later.foldl perform (run source contentType before) :=
  List.foldl_append

/-- From one time of a session to a later one, the store evolves. -/
theorem evolves_of_earlier {before : List Operation} (h : before <+: operations) :
    (run source contentType before).repository.store.Evolves
      (run source contentType operations).repository.store := by
  obtain ⟨later, rfl⟩ := h
  rw [run_append]
  exact Store.evolves_replay (replays_history _ later)

/-- When an operation gives out a template by its name, the template is cached. -/
theorem cached_of_gives (hkeeps : ∀ operation ∈ operations, operation.KeepsSource) {depth : Nat}
    {name : String} {relativeTo : Option String} {slot : Slot}
    (h : Gives source contentType operations (.resolve depth name relativeTo) slot) :
    ∃ before, before ++ [.resolve depth name relativeTo] <+: operations ∧
      let repository := (run source contentType (before ++ [.resolve depth name relativeTo])).repository
      repository.Sound source.templateId ∧ repository.Faithful source contentType ∧
        (source.templateId name relativeTo, slot) ∈ repository.cache := by
  obtain ⟨before, hwithin, hanswer⟩ := h
  refine ⟨before, hwithin, ?_⟩
  have hkeeps' : ∀ operation ∈ before ++ [.resolve depth name relativeTo], operation.KeepsSource :=
    fun operation hmem => hkeeps operation (hwithin.subset hmem)
  obtain ⟨hsound, hfaithful⟩ := faithful_run source contentType hkeeps'
  refine ⟨hsound, hfaithful, ?_⟩
  rw [run_concat] at hanswer ⊢
  have hcached := (cached_of_answer _ (sound_run source contentType before) hanswer).1
  rw [templateId_run] at hcached
  exact mem_cache_of_slot? hcached

/-- When an operation gives out a template without caching it, the template is in a new slot, which shows
the id of the tokens and is outside of the cache. -/
theorem outside_of_gives (hkeeps : ∀ operation ∈ operations, operation.KeepsSource) {depth : Nat}
    {id : String} {stream : Stream} {slot : Slot} (htokens : source.tokens id = .ok stream)
    (h : Gives source contentType operations (.compile depth (some id) stream) slot) :
    ∃ before, before ++ [.compile depth (some id) stream] <+: operations ∧
      (run source contentType before).repository.store.cell? slot = none ∧
      let repository := (run source contentType (before ++ [.compile depth (some id) stream])).repository
      repository.Sound source.templateId ∧ repository.Faithful source contentType ∧
        repository.store.Shows source contentType repository.cache (id, slot) ∧
        Outside slot repository := by
  obtain ⟨before, hwithin, hanswer⟩ := h
  have hkeeps' : ∀ operation ∈ before ++ [.compile depth (some id) stream], operation.KeepsSource :=
    fun operation hmem => hkeeps operation (hwithin.subset hmem)
  obtain ⟨hsound, hfaithful⟩ := faithful_run source contentType hkeeps'
  obtain ⟨hbefore, _⟩ := List.forall_mem_append.mp hkeeps'
  have hcompiled : compileWithin source contentType depth (some id) stream
      (run source contentType before).repository =
        (.ok slot, (run source contentType (before ++ [.compile depth (some id) stream])).repository) := by
    obtain ⟨hsource, hcontentType⟩ := setting_run source contentType hbefore
    rw [run_concat] at hanswer ⊢
    rw [perform, hsource, hcontentType] at hanswer ⊢
    exact Prod.ext (Option.some.inj hanswer) rfl
  obtain ⟨hnew, houtside⟩ :=
    outside_of_compileWithin (faithful_run source contentType hbefore).2 hcompiled
  exact ⟨before, hwithin, hnew, hsound, hfaithful, shows_of_compileWithin htokens hcompiled, houtside⟩

/-- A template that is cached and one that is not are in different slots, whichever came first. -/
theorem ne_of_gives (hkeeps : ∀ operation ∈ operations, operation.KeepsSource) {depth depth' : Nat}
    {name id : String} {relativeTo : Option String} {stream : Stream} {cached uncached : Slot}
    (htokens : source.tokens id = .ok stream)
    (hcached : Gives source contentType operations (.resolve depth name relativeTo) cached)
    (huncached : Gives source contentType operations (.compile depth' (some id) stream) uncached) :
    cached ≠ uncached := by
  rintro rfl
  obtain ⟨before, hwithin, hsound, hfaithful, hentry⟩ := cached_of_gives hkeeps hcached
  obtain ⟨before', hwithin', hnew, _, _, _, houtside⟩ := outside_of_gives hkeeps htokens huncached
  rcases List.prefix_or_prefix_of_prefix hwithin hwithin' with hearlier | hearlier
  · -- the slot was filled before the tokens were compiled, so it is none of the new ones
    rcases List.prefix_concat_iff.mp hearlier with heq | hearlier
    · obtain ⟨_, hlast⟩ := List.append_inj' heq rfl
      cases hlast
    · obtain ⟨_, _, hcell, _⟩ :=
        ((hfaithful.exhibits hsound).shows _ hentry).mono (evolves_of_earlier hearlier)
      cases hnew.symm.trans hcell
  · -- the tokens were compiled first, and their slot has stayed outside of the cache
    obtain ⟨later, hlater⟩ := hearlier
    rw [← hlater, run_append] at hentry
    have houtside := invariant_foldl (I := Outside cached)
      (fun source contentType => keeps_outside source contentType cached)
      (fun h => ⟨h.1, List.not_mem_nil⟩) later houtside
    exact houtside.2 (List.mem_map_of_mem (f := Prod.snd) hentry)

/-- Compiling the tokens of an id without caching the template agrees with loading the template by a name
of the id, at all times of a session in which the source is never changed. The one succeeds exactly if the
other does. Wherever templates have been given out in the two ways, they are in different slots, unfold to
the same trees at every depth, and have the same texts with the same values around them, or fail to have
one for the same reason, whatever the values and the filters are. -/
theorem cached_uncached_agree (source : FiniteSource) (contentType : ContentType)
    (hkeeps : ∀ operation ∈ operations, operation.KeepsSource) {name id : String} {stream : Stream}
    (hid : source.templateId name none = id) (htokens : source.tokens id = .ok stream) :
    let repository := (run source.toSource contentType operations).repository
    let store := repository.store
    ((∃ slot after, compile source contentType (some id) stream repository = (.ok slot, after)) ↔
        ∃ slot after, resolve source contentType name none repository = (.ok slot, after)) ∧
      ∀ {depth depth' : Nat} {cached uncached : Slot},
        Gives source.toSource contentType operations (.resolve depth name none) cached →
        Gives source.toSource contentType operations (.compile depth' (some id) stream) uncached →
          cached ≠ uncached ∧ (∀ depth, store.unfold depth cached = store.unfold depth uncached) ∧
          ∀ {ε : Type} {D : Domain ε} (depth : Nat) (values : List D.Carrier),
            store.render depth (values.map .value) cached =
              store.render depth (values.map .value) uncached := by
  subst hid
  intro repository store
  obtain ⟨hsound, hfaithful⟩ := faithful_run source.toSource contentType hkeeps
  refine ⟨?_, fun {depth depth' cached uncached} hcached huncached => ?_⟩
  · exact (exists_compile_iff source hsound hfaithful htokens).trans
      (exists_resolve_iff source name none hsound hfaithful).symm
  obtain ⟨before, hwithin, hsound, hfaithful, hentry⟩ := cached_of_gives hkeeps hcached
  obtain ⟨before', hwithin', _, hsound', hfaithful', hshows', _⟩ :=
    outside_of_gives hkeeps htokens huncached
  have hexhibits := hfaithful.exhibits hsound
  have hshows := hexhibits.shows _ hentry
  -- both slots show the id, each by what was cached when it was given out
  have hexhibits := hexhibits.mono (evolves_of_earlier hwithin)
  have hexhibits' := (hfaithful'.exhibits hsound').mono (evolves_of_earlier hwithin')
  have hshows := hshows.mono (evolves_of_earlier hwithin)
  have hshows' := hshows'.mono (evolves_of_earlier hwithin')
  refine ⟨ne_of_gives hkeeps htokens hcached huncached, fun depth => ?_, fun depth values => ?_⟩
  · exact (hexhibits.unfold_eq hshows depth).trans (hexhibits'.unfold_eq hshows' depth).symm
  · exact (hexhibits.render_eq hshows depth values).trans (hexhibits'.render_eq hshows' depth values).symm

/-- A source with a page that includes itself in a section. -/
def nestedPage : FiniteSource where
  templateId name _ := name
  tokens id :=
    if id = "page" then
      .ok (.ofTokens [⟨.text, "-", 1, none⟩, ⟨.openSection, "x", 1, none⟩,
        ⟨.inclusion, "page", 1, none⟩, ⟨.close, "x", 1, none⟩])
    else .error (Fault.notFound (.unknown id)).alone
  ids := ["page"]
  mem_ids id stream htokens := by
    by_contra hid
    simp only [List.mem_singleton] at hid
    simp [hid] at htokens

/-- The page is compiled from its tokens, which has it compiled and cached as well, and then it is loaded.
The two templates are in two slots and agree. -/
theorem cached_uncached_agree_nestedPage :
    let stream := .ofTokens [⟨.text, "-", 1, none⟩, ⟨.openSection, "x", 1, none⟩,
      ⟨.inclusion, "page", 1, none⟩, ⟨.close, "x", 1, none⟩]
    let operations := [.compile 2 (some "page") stream, .resolve 2 "page" none]
    let store := (run nestedPage.toSource .html operations).repository.store
    (∀ operation ∈ operations, operation.KeepsSource) ∧ nestedPage.templateId "page" none = "page" ∧
      nestedPage.tokens "page" = .ok stream ∧
      Gives nestedPage.toSource .html operations (.resolve 2 "page" none) ⟨0⟩ ∧
      Gives nestedPage.toSource .html operations (.compile 2 (some "page") stream) ⟨1⟩ ∧
      (∀ depth, store.unfold depth ⟨0⟩ = store.unfold depth ⟨1⟩) ∧
      ∀ {ε : Type} {D : Domain ε} (depth : Nat) (values : List D.Carrier),
        store.render depth (values.map .value) ⟨0⟩ = store.render depth (values.map .value) ⟨1⟩ := by
  intro stream operations store
  have hkeeps : ∀ operation ∈ operations, operation.KeepsSource := by
    simp [operations, Operation.KeepsSource]
  have hcached : Gives nestedPage.toSource .html operations (.resolve 2 "page" none) ⟨0⟩ :=
    ⟨[.compile 2 (some "page") stream], List.prefix_refl _, rfl⟩
  have huncached : Gives nestedPage.toSource .html operations (.compile 2 (some "page") stream) ⟨1⟩ :=
    ⟨[], List.prefix_append _ _, rfl⟩
  have hagree := (cached_uncached_agree nestedPage .html hkeeps rfl rfl).2 hcached
    huncached
  exact ⟨hkeeps, rfl, rfl, hcached, huncached, hagree.2.1, hagree.2.2⟩

end Session

end Logicless
