import Logicless.Proofs.Compile.LoadOrder
import Logicless.Proofs.Repository.Depth
import Logicless.Proofs.Repository.Session

/-!
# Templates are cached depth first

An id is cached when the compilation of its template starts, and the templates that it includes are loaded
while it goes on. So the cache grows in the order of a depth-first search: first the template itself, then
what its first inclusion leads to, and so on. The search does not enter a template that was cached before
or that it has met already, so it ends on inclusions that are shared and on those that lead back.

## Shape of the proof

* `DepthFirst` is the search, as a relation between the ids visited before, those to be visited and those
  that are met. There is one result at most (`DepthFirst.unique`), and it has all ids that can be reached
  without the ids from before, and no others (`DepthFirst.mem_iff`).
* Two searches, the second one with what the first has met, are a search (`DepthFirst.append`). So a
  compilation searches if its loader does (`searches_of_chain`), and by induction on how deep compilations
  are nested, loading a template does (`searches_resolveWithin`).
* `depthFirst_of_run` says this of every call in the course of a session.
-/

namespace Logicless

/-! ## The search -/

/-- The ids by which the tokens of a stream load templates, inside the template with an id if any, in
order. -/
def Source.loadedIds (source : Source) (relativeTo : Option String) (stream : Stream) : List String :=
  stream.loadedNames.map fun name => source.templateId name relativeTo

/-- From the ids `visited`, a depth-first search that visits those `pending`, one after another, meets
those in `order`. An id is met before its template is searched, and the ids that this loads are visited in
the order in which its tokens load them. An id that was met or visited before is passed. -/
inductive DepthFirst (source : Source) : (visited pending order : List String) → Prop
  | done {visited : List String} : DepthFirst source visited [] []
  | pass {visited pending order : List String} {id : String} (hvisited : id ∈ visited)
      (hrest : DepthFirst source visited pending order) :
      DepthFirst source visited (id :: pending) order
  | visit {visited pending inside rest : List String} {id : String} {stream : Stream}
      (hnew : id ∉ visited) (htokens : source.tokens id = .ok stream)
      (hinside : DepthFirst source (visited ++ [id]) (source.loadedIds (some id) stream) inside)
      (hrest : DepthFirst source (visited ++ id :: inside) pending rest) :
      DepthFirst source visited (id :: pending) (id :: inside ++ rest)

/-- The tokens of an id load what its tags include. -/
def Source.LoadsAll (source : Source) (id : String) : Prop :=
  ∀ stream, source.tokens id = .ok stream → stream.loadedNames.Perm stream.includedNames

/-- The template of an id includes that of another one, which was not visited before. -/
def Source.IncludesNew (source : Source) (visited : List String) (id id' : String) : Prop :=
  source.Includes id id' ∧ id' ∉ visited

theorem Source.LoadsAll.includes_iff {source : Source} {id id' : String} {stream : Stream}
    (h : source.LoadsAll id) (htokens : source.tokens id = .ok stream) :
    source.Includes id id' ↔ id' ∈ source.loadedIds (some id) stream := by
  rw [Source.Includes, Source.loadedIds, List.mem_map]
  constructor
  · rintro ⟨stream', htokens', name, hname, hid⟩
    obtain rfl := Except.ok.inj (htokens'.symm.trans htokens)
    exact ⟨name, (h _ htokens).mem_iff.mpr hname, hid⟩
  · rintro ⟨name, hname, hid⟩
    exact ⟨stream, htokens, name, (h _ htokens).mem_iff.mp hname, hid⟩

namespace DepthFirst

variable {source : Source} {visited pending pending' order order' : List String} {id : String}

/-- There is one order at most. -/
theorem unique (h : DepthFirst source visited pending order)
    (h' : DepthFirst source visited pending order') : order = order' := by
  induction h generalizing order' with
  | done =>
    cases h'
    rfl
  | pass hvisited _ ih =>
    cases h' with
    | pass _ hrest => exact ih hrest
    | visit hnew => exact absurd hvisited hnew
  | visit hnew htokens _ _ ihInside ihRest =>
    cases h' with
    | pass hvisited => exact absurd hvisited hnew
    | visit _ htokens' hinside hrest =>
      obtain rfl := Except.ok.inj (htokens.symm.trans htokens')
      obtain rfl := ihInside hinside
      rw [ihRest hrest]

/-- A search goes on with what it has met. -/
theorem append (h : DepthFirst source visited pending order)
    (h' : DepthFirst source (visited ++ order) pending' order') :
    DepthFirst source visited (pending ++ pending') (order ++ order') := by
  induction h with
  | done =>
    rw [List.append_nil] at h'
    exact h'
  | pass hvisited _ ih => exact .pass hvisited (ih h')
  | @visit visited pending inside rest id stream hnew htokens hinside _ _ ih =>
    rw [← List.append_assoc] at h'
    rw [List.append_assoc]
    exact .visit hnew htokens hinside (ih h')

/-- The ids that a search passes or meets have their inclusions among them. -/
theorem covers (h : DepthFirst source visited pending order) :
    (∀ id ∈ pending, id ∈ visited ++ order) ∧
      ∀ id ∈ order, ∀ stream, source.tokens id = .ok stream →
        source.loadedIds (some id) stream ⊆ visited ++ order := by
  induction h with
  | done => exact ⟨nofun, nofun⟩
  | pass hvisited _ ih =>
    exact ⟨List.forall_mem_cons.mpr ⟨List.mem_append_left _ hvisited, ih.1⟩, ih.2⟩
  | @visit visited pending inside rest id stream hnew htokens _ _ ihInside ihRest =>
    rw [List.append_assoc, List.singleton_append] at ihInside
    rw [List.append_assoc] at ihRest
    have hmore : visited ++ id :: inside ⊆ visited ++ (id :: inside ++ rest) := by
      rw [← List.append_assoc]
      exact List.subset_append_left _ _
    refine ⟨List.forall_mem_cons.mpr ⟨by simp, ihRest.1⟩, ?_⟩
    intro other hother stream' htokens'
    rcases List.mem_append.mp hother with hother | hother
    · rcases List.mem_cons.mp hother with rfl | hother
      · obtain rfl := Except.ok.inj (htokens.symm.trans htokens')
        exact List.Subset.trans ihInside.1 hmore
      · exact List.Subset.trans (ihInside.2 other hother stream' htokens') hmore
    · exact ihRest.2 other hother stream' htokens'

/-- What a search meets is reached from where it starts, around the ids visited before. -/
theorem exists_start (h : DepthFirst source visited pending order)
    (hall : ∀ id ∈ order, source.LoadsAll id) (hid : id ∈ order) :
    ∃ start ∈ pending, start ∉ visited ∧
      Relation.ReflTransGen (source.IncludesNew visited) start id := by
  induction h with
  | done => cases hid
  | pass _ _ ih =>
    obtain ⟨start, hstart, hreached⟩ := ih hall hid
    exact ⟨start, List.mem_cons_of_mem _ hstart, hreached⟩
  | @visit visited pending inside rest first stream hnew htokens _ _ ihInside ihRest =>
    have hless {more : List String} {start : String}
        (hpath : Relation.ReflTransGen (source.IncludesNew (visited ++ more)) start id) :
        Relation.ReflTransGen (source.IncludesNew visited) start id :=
      Relation.ReflTransGen.mono
        (fun _ _ hstep => ⟨hstep.1, fun hmem => hstep.2 (List.mem_append_left _ hmem)⟩) _ _ hpath
    obtain ⟨hallInside, hallRest⟩ := List.forall_mem_append.mp hall
    obtain ⟨hfirst, hallInside⟩ := List.forall_mem_cons.mp hallInside
    rcases List.mem_append.mp hid with hid | hid
    · rcases List.mem_cons.mp hid with rfl | hid
      · exact ⟨_, List.mem_cons_self, hnew, .refl⟩
      · obtain ⟨next, hnext, hnew', hpath⟩ := ihInside hallInside hid
        have hstep : source.IncludesNew visited first next :=
          ⟨(hfirst.includes_iff htokens).mpr hnext, fun hmem => hnew' (List.mem_append_left _ hmem)⟩
        exact ⟨first, List.mem_cons_self, hnew, .head hstep (hless hpath)⟩
    · obtain ⟨start, hstart, hnew', hpath⟩ := ihRest hallRest hid
      exact ⟨start, List.mem_cons_of_mem _ hstart,
        fun hmem => hnew' (List.mem_append_left _ hmem), hless hpath⟩

/-- A search meets exactly what is reached from where it starts, around the ids visited before. -/
theorem mem_iff (h : DepthFirst source visited pending order)
    (hall : ∀ id ∈ order, source.LoadsAll id) :
    id ∈ order ↔ ∃ start ∈ pending, start ∉ visited ∧
      Relation.ReflTransGen (source.IncludesNew visited) start id := by
  refine ⟨h.exists_start hall, ?_⟩
  rintro ⟨start, hstart, hnew, hpath⟩
  obtain ⟨hpending, hclosed⟩ := h.covers
  induction hpath with
  | refl => exact (List.mem_append.mp (hpending start hstart)).resolve_left hnew
  | @tail between id _ hstep ih =>
    obtain ⟨⟨stream, htokens, hnames⟩, hid⟩ := hstep
    have hloaded := ((hall between ih).includes_iff htokens).mp ⟨stream, htokens, hnames⟩
    exact (List.mem_append.mp (hclosed between ih stream htokens hloaded)).resolve_left hid

end DepthFirst

/-! ## Searches of a repository -/

namespace Repository

variable {source : Source} {contentType : ContentType} {depth : Nat} {starts starts' : List String}
  {r r' r'' : Repository} {slot : Slot}

/-- The cache has grown by what a search meets, from the cached ids, when it visits the ids `starts`. -/
def Searches (source : Source) (starts : List String) (r r' : Repository) : Prop :=
  ∃ added, r'.cache = r.cache ++ added ∧ DepthFirst source r.keys starts (added.map Prod.fst) ∧
    ∀ id ∈ added.map Prod.fst, source.LoadsAll id

theorem Searches.trans (h : Searches source starts r r') (h' : Searches source starts' r' r'') :
    Searches source (starts ++ starts') r r'' := by
  obtain ⟨added, hcache, hsearch, hall⟩ := h
  obtain ⟨added', hcache', hsearch', hall'⟩ := h'
  rw [keys_append hcache] at hsearch'
  refine ⟨added ++ added', by rw [hcache', hcache, List.append_assoc], ?_, ?_⟩
  · rw [List.map_append]
    exact hsearch.append hsearch'
  · rw [List.map_append]
    exact List.forall_mem_append.mpr ⟨hall, hall'⟩

/-- Templates that are loaded one after another are searched one after another. -/
theorem searches_of_chain {loader : Loader Repository Slot} {relativeTo : Option String}
    {names : List String}
    (hload : ∀ name r r' slot, loader name relativeTo r = (.ok slot, r') →
      Searches source [source.templateId name relativeTo] r r')
    (h : loader.Chain relativeTo names r r') :
    Searches source (names.map fun name => source.templateId name relativeTo) r r' := by
  induction h with
  | nil => exact ⟨[], (List.append_nil _).symm, .done, nofun⟩
  | cons hfirst _ ih => exact (hload _ _ _ _ hfirst).trans ih

/-- A template is met before what was searched while it was compiled. -/
theorem Searches.complete {id : String} {stream : Stream} (hnew : id ∉ r.keys)
    (htokens : source.tokens id = .ok stream)
    (hperm : stream.loadedNames.Perm stream.includedNames) (template : Template Unit Slot)
    (h : Searches source (source.loadedIds (some id) stream) (r.begun id contentType) r') :
    Searches source [id] r (r'.complete r.store.next template).2 := by
  obtain ⟨added, hcache, hsearch, hall⟩ := h
  rw [cache_begun, List.append_assoc, List.singleton_append] at hcache
  rw [keys_begun] at hsearch
  refine ⟨(id, r.store.next) :: added, by rw [complete_cache, hcache], ?_, ?_⟩
  · have hfirst := DepthFirst.visit hnew htokens hsearch .done
    rwa [List.append_nil] at hfirst
  · refine List.forall_mem_cons.mpr ⟨?_, hall⟩
    intro stream' htokens'
    obtain rfl := Except.ok.inj (htokens.symm.trans htokens')
    exact hperm

/-- A template that is handed out has been searched. -/
theorem searches_resolveWithin {name : String} {relativeTo : Option String}
    (h : resolveWithin source contentType depth name relativeTo r = (.ok slot, r')) :
    Searches source [source.templateId name relativeTo] r r' := by
  induction depth generalizing name relativeTo r r' slot with
  | zero => cases h
  | succ depth ih =>
    generalize hid : source.templateId name relativeTo = id
    cases hslot : r.slot? id with
    | some cached =>
      have hkey : id ∈ r.keys := by
        by_contra hnew
        rw [slot?_eq_none_iff.mpr hnew] at hslot
        cases hslot
      rw [resolveWithin_of_cached hid hslot] at h
      refine ⟨[], ?_, .pass hkey .done, nofun⟩
      rw [List.append_nil, ← (Prod.mk.inj h).2]
      split <;> rfl
    | none =>
      cases htokens : source.tokens id with
      | error failure =>
        rw [resolveWithin_of_no_tokens hid hslot htokens] at h
        cases h
      | ok stream =>
        rcases hcompile : compileTemplate ⟨contentType, some id⟩
          (some (resolveWithin source contentType depth)) stream (r.begun id contentType) with
          ⟨halt | template, after⟩
        · rw [resolveWithin_of_halted hid hslot htokens hcompile] at h
          cases h
        · rw [resolveWithin_of_compiled hid hslot htokens hcompile] at h
          obtain ⟨hchain, hperm⟩ := chain_of_compileTemplate hcompile
          have hsearches : Searches source (source.loadedIds (some id) stream)
              (r.begun id contentType) after := searches_of_chain (fun _ _ _ _ => ih) hchain
          have hafter : r' = (after.complete r.store.next template).2 := by rw [h]
          rw [hafter]
          exact hsearches.complete (slot?_eq_none_iff.mp hslot) htokens hperm template

/-- A template that was compiled without being cached has had the templates searched that its tokens load.
These are all that its tags include. -/
theorem searches_compileWithin {template : Option String} {stream : Stream}
    (h : compileWithin source contentType depth template stream r = (.ok slot, r')) :
    Searches source (source.loadedIds template stream) r r' ∧
      stream.loadedNames.Perm stream.includedNames := by
  rw [compileWithin] at h
  split at h
  · rename_i compiled after hcompile
    cases h
    obtain ⟨hchain, hperm⟩ := chain_of_compileTemplate hcompile
    have hsearches : Searches source (source.loadedIds template stream) r after :=
      searches_of_chain (fun _ _ _ _ => searches_resolveWithin) hchain
    exact ⟨hsearches, hperm⟩
  · cases h

/-! ## What a call that succeeds has cached -/

/-- The cache has grown by what a search from the cached ids meets when it visits the ids `starts`. These
are the ids, each once, that are reached around the ids cached before, and all cached ids are listed. -/
structure GrowsDepthFirst (source : Source) (starts : List String) (r : Repository)
    (added : List (String × Slot)) (r' : Repository) : Prop where
  cache : r'.cache = r.cache ++ added
  search : DepthFirst source r.keys starts (added.map Prod.fst)
  unique : ∀ order, DepthFirst source r.keys starts order → order = added.map Prod.fst
  nodup : (added.map Prod.fst).Nodup
  mem_iff : ∀ id, id ∈ added.map Prod.fst ↔ ∃ start ∈ starts, start ∉ r.keys ∧
    Relation.ReflTransGen (source.IncludesNew r.keys) start id
  listed : r'.cachedIds = r'.keys

/-- While nothing is being compiled, all cached ids are listed. -/
theorem Sound.cachedIds_eq {templateId : String → Option String → String} (h : Sound templateId r) :
    r.cachedIds = r.keys := by
  have hfilled : ∀ entry ∈ r.cache, (!r.store.isPlaceholder entry.2) = true := by
    intro entry hentry
    obtain ⟨nodes, ⟨contentType, hcell⟩, -⟩ := h.complete entry hentry
    rw [Store.isPlaceholder, hcell]
    rfl
  rw [cachedIds, List.filter_eq_self.mpr hfilled, keys]

/-- Where the repository is sound afterwards, a search has added each id once, and all cached ids are
listed. -/
theorem Searches.growsDepthFirst (hsearches : Searches source starts r r')
    (hsound : Sound source.templateId r') : ∃ added, GrowsDepthFirst source starts r added r' := by
  obtain ⟨added, hcache, hsearch, hall⟩ := hsearches
  have hnodup := hsound.nodup
  rw [keys_append hcache, List.nodup_append] at hnodup
  exact ⟨added, hcache, hsearch, fun _ horder => horder.unique hsearch, hnodup.2.1,
    fun _ => hsearch.mem_iff hall, hsound.cachedIds_eq⟩

end Repository

namespace Session

open Repository

/-- Every call that succeeds in the course of a session, adds to the cache what a depth-first search meets:
from the id that is asked for, or from those that the given tokens load. -/
theorem growsDepthFirst_of_run (source : Source) (contentType : ContentType)
    (operations : List Operation) (depth : Nat) :
    let session := run source contentType operations
    (∀ name relativeTo slot after,
      resolveWithin session.source session.contentType depth name relativeTo session.repository =
        (.ok slot, after) →
      ∃ added, GrowsDepthFirst session.source [session.source.templateId name relativeTo]
        session.repository added after) ∧
    ∀ template stream slot after,
      compileWithin session.source session.contentType depth template stream session.repository =
        (.ok slot, after) →
      stream.loadedNames.Perm stream.includedNames ∧
      ∃ added, GrowsDepthFirst session.source (session.source.loadedIds template stream)
        session.repository added after := by
  intro session
  have hsound : session.repository.Sound session.source.templateId :=
    (sound_run source contentType operations).repository
  constructor
  · intro name relativeTo slot after h
    have hgrows := (resolves_resolveWithin session.source session.contentType depth name relativeTo
      session.repository).grows
    rw [h] at hgrows
    exact (searches_resolveWithin h).growsDepthFirst (hsound.grows hgrows)
  · intro template stream slot after h
    have hgrows := grows_compileWithin session.source session.contentType depth template stream
      session.repository
    rw [h] at hgrows
    obtain ⟨hsearches, hperm⟩ := searches_compileWithin h
    exact ⟨hperm, hsearches.growsDepthFirst (hsound.grows hgrows)⟩

/-- A page with a head and a layout around an aside. The layout includes the page again, and both the
layout and the aside include a foot. -/
def layoutAroundAside : FiniteSource where
  templateId name _ := name
  tokens id :=
    match id with
    | "page" => .ok (.ofTokens [⟨.inclusion, "head", 1, none⟩, ⟨.openLayout, "layout", 1, none⟩,
        ⟨.inclusion, "aside", 1, none⟩, ⟨.close, "layout", 1, none⟩])
    | "aside" => .ok (.ofTokens [⟨.inclusion, "foot", 1, none⟩, ⟨.inclusion, "head", 1, none⟩])
    | "layout" => .ok (.ofTokens [⟨.inclusion, "page", 1, none⟩, ⟨.inclusion, "foot", 1, none⟩,
        ⟨.inclusion, "end", 1, none⟩])
    | "head" | "foot" | "end" => .ok (.ofTokens [])
    | _ => .error (Fault.notFound (.unknown id)).alone
  ids := ["page", "aside", "layout", "head", "foot", "end"]
  mem_ids id stream htokens := by
    by_contra hid
    split at htokens <;> simp_all

/-- Tokens of the layout around the aside, with the head behind it. -/
def layoutBeforeHead : Stream :=
  .ofTokens [⟨.openLayout, "layout", 1, none⟩, ⟨.inclusion, "aside", 1, none⟩,
    ⟨.close, "layout", 1, none⟩, ⟨.inclusion, "head", 1, none⟩]

/-- Where the foot is cached, the page is cached with its head, then with what is inside the layout, then
with the layout. Tokens of the layout around the aside have the aside cached before the layout, and the
head as soon as the aside includes it. -/
theorem growsDepthFirst_of_run_layoutAroundAside :
    let session := run layoutAroundAside.toSource .html [.resolve 2 "foot" none]
    let loaded := resolveWithin session.source session.contentType 4 "page" none session.repository
    let compiled := compileWithin session.source session.contentType 4 none layoutBeforeHead
      session.repository
    (loaded.1 = .ok ⟨1⟩ ∧ ∃ added,
      GrowsDepthFirst session.source ["page"] session.repository added loaded.2 ∧
      added.map Prod.fst = ["page", "head", "aside", "layout", "end"]) ∧
    compiled.1 = .ok ⟨6⟩ ∧ layoutBeforeHead.loadedNames = ["aside", "layout", "head"] ∧ ∃ added,
      GrowsDepthFirst session.source ["aside", "layout", "head"] session.repository added compiled.2 ∧
      added.map Prod.fst = ["aside", "head", "layout", "page", "end"] := by
  intro session loaded compiled
  have hgrows := growsDepthFirst_of_run layoutAroundAside.toSource .html [.resolve 2 "foot" none] 4
  have hloaded : loaded.1 = .ok ⟨1⟩ := by decide +kernel
  have hcompiled : compiled.1 = .ok ⟨6⟩ := by decide +kernel
  have hnames : layoutBeforeHead.loadedNames = ["aside", "layout", "head"] := by decide +kernel
  obtain ⟨added, hadded⟩ :=
    hgrows.1 "page" none ⟨1⟩ loaded.2 (show loaded = (.ok ⟨1⟩, loaded.2) by rw [← hloaded])
  obtain ⟨-, added', hadded'⟩ := hgrows.2 none layoutBeforeHead ⟨6⟩ compiled.2
    (show compiled = (.ok ⟨6⟩, compiled.2) by rw [← hcompiled])
  have hkeys : loaded.2.keys = ["foot"] ++ ["page", "head", "aside", "layout", "end"] := by
    decide +kernel
  have hkeys' : compiled.2.keys = ["foot"] ++ ["aside", "head", "layout", "page", "end"] := by
    decide +kernel
  rw [keys_append hadded.cache] at hkeys
  rw [keys_append hadded'.cache] at hkeys'
  rw [Source.loadedIds, hnames] at hadded'
  exact ⟨⟨hloaded, added, hadded, List.append_cancel_left hkeys⟩, hcompiled, hnames, added', hadded',
    List.append_cancel_left hkeys'⟩

end Session

end Logicless
