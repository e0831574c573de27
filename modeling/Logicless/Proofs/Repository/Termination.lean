import Logicless.Proofs.Repository.Requests

/-!
# Loading templates comes to an end

Templates may include each other in any way. Still, loading one comes to an end: a template that is
being compiled is cached, so it is not compiled again by what it includes, and a source that serves
finitely many ids runs out of others.

Nor is the source asked twice for the tokens of an id. As long as templates compile, they stay cached;
the first one that does not compile makes those around it fail, and nothing is asked for any more. So
only the last id that the source is asked for can be one that it does not serve.

## Shape of the proof

* `Repository.Fetched` says which ids the source was asked for while all went well, and
  `Repository.Tried` while something failed. They follow each other (`sequential_logged`), so they hold
  of a compilation if they hold of its loader, and by induction on the depth of all that
  `resolveWithin` and `compileWithin` do.
* `compileWithin_eq_of_nesting` says that a depth greater than the number of ids that are served changes
  nothing, as `resolveWithin_eq_of_nesting` does for single templates.
* `loading_terminates` puts the two together with the place of every request.
-/

namespace Logicless

/-- The id of the template whose compilation starts. -/
def Event.started? : Event → Option String
  | compiling id => some id
  | _ => none

namespace Source

variable {source : Source}

theorem asked_cons_of_asks {request : Request} (h : request.Asks source) (requests : List Request) :
    source.asked (request :: requests) = request.id source :: source.asked requests := by
  simp [asked, h]

theorem asked_cons_of_not_asks {request : Request} (h : ¬ request.Asks source)
    (requests : List Request) :
    source.asked (request :: requests) = source.asked requests := by
  simp [asked, h]

theorem asked_flatMap {α : Type} (requests : α → List Request) (list : List α) :
    source.asked (list.flatMap requests) = list.flatMap fun a => source.asked (requests a) := by
  simp only [asked, List.filter_flatMap, List.map_flatMap]

end Source

namespace Repository

variable {source : Source} {contentType : ContentType} {depth : Nat} {running : List String}
  {name id : String} {relativeTo template : Option String} {stream : Stream} {r r' r'' : Repository}
  {ids ids' : List String}

/-! ## What the source is asked for -/

/-- The source was asked for the tokens of some ids, each once and none that was cached before, and this
is what was reported of compilations that start. -/
structure Inquired (r : Repository) (ids : List String) (r' : Repository) : Prop where
  nodup : ids.Nodup
  fresh : ∀ id ∈ ids, id ∉ r.keys
  reported : ∃ reported, r'.events = reported ++ r.events ∧
    reported.filterMap Event.started? = ids.reverse

/-- The source was asked for the tokens of some ids. It served them, and they are cached since. -/
structure Fetched (source : Source) (r : Repository) (ids : List String) (r' : Repository) : Prop
    extends Inquired r ids r' where
  served : ∀ id ∈ ids, source.Serves id
  cached : ids ⊆ r'.keys
  kept : r.keys ⊆ r'.keys

/-- The source was asked for the tokens of some ids. It served all of them but one at most. -/
structure Tried (source : Source) (r : Repository) (ids : List String) (r' : Repository) : Prop
    extends Inquired r ids r' where
  absent : (ids.filter fun id => ¬ source.Serves id).length ≤ 1

namespace Inquired

theorem refl : Inquired r [] r where
  nodup := List.nodup_nil
  fresh := by simp
  reported := ⟨[], rfl, rfl⟩

theorem append (h : Inquired r ids r') (hkept : r.keys ⊆ r'.keys) (hcached : ids ⊆ r'.keys)
    (h' : Inquired r' ids' r'') : Inquired r (ids ++ ids') r'' where
  nodup := by
    rw [List.nodup_append]
    refine ⟨h.nodup, h'.nodup, ?_⟩
    rintro id hid _ hid' rfl
    exact h'.fresh id hid' (hcached hid)
  fresh := by
    intro id hid
    rcases List.mem_append.mp hid with hid | hid
    · exact h.fresh id hid
    · exact fun hmem => h'.fresh id hid (hkept hmem)
  reported := by
    obtain ⟨reported, hevents, hstarted⟩ := h.reported
    obtain ⟨reported', hevents', hstarted'⟩ := h'.reported
    refine ⟨reported' ++ reported, by rw [hevents', hevents, List.append_assoc], ?_⟩
    rw [List.filterMap_append, hstarted, hstarted', List.reverse_append]

/-- The start of a compilation is where the source is asked. -/
theorem begun (r : Repository) (hnew : id ∉ r.keys) (contentType : ContentType) :
    Inquired r [id] (r.begun id contentType) where
  nodup := List.nodup_singleton id
  fresh := by
    intro other hother
    obtain rfl := List.mem_singleton.mp hother
    exact hnew
  reported := ⟨[.compiling id], rfl, rfl⟩

/-- Other events, and whatever is done without one, leave the inquiries as they are. -/
theorem quiet (more : List Event) (h : Inquired r ids r')
    (hevents : r''.events = more ++ r'.events) (hquiet : more.filterMap Event.started? = []) :
    Inquired r ids r'' where
  nodup := h.nodup
  fresh := h.fresh
  reported := by
    obtain ⟨reported, hevents', hstarted⟩ := h.reported
    refine ⟨more ++ reported, by rw [hevents, hevents', List.append_assoc], ?_⟩
    rw [List.filterMap_append, hquiet, hstarted, List.nil_append]

theorem halted (h : Inquired r ids r') (template : Option String) (halt : Halt) :
    Inquired r ids (r'.halted template halt) := by
  cases halt with
  | recorded failure => exact h.quiet [.failed template failure.fault] rfl rfl
  | escaped failure => exact h

theorem evict (h : Inquired r ids r') (id : String) : Inquired r ids (r'.evict id) :=
  h.quiet [.evicted ((r'.cache.dropWhile fun entry => entry.1 ≠ id).map Prod.fst) id] rfl rfl

end Inquired

namespace Fetched

theorem refl (source : Source) (r : Repository) : Fetched source r [] r where
  toInquired := .refl
  served := by simp
  cached := List.nil_subset _
  kept := List.Subset.refl _

theorem append (h : Fetched source r ids r') (h' : Fetched source r' ids' r'') :
    Fetched source r (ids ++ ids') r'' where
  toInquired := h.toInquired.append h.kept h.cached h'.toInquired
  served := by
    intro id hid
    rcases List.mem_append.mp hid with hid | hid
    · exact h.served id hid
    · exact h'.served id hid
  cached := List.append_subset.mpr ⟨List.Subset.trans h.cached h'.kept, h'.cached⟩
  kept := List.Subset.trans h.kept h'.kept

theorem filter_absent (h : Fetched source r ids r') :
    ids.filter (fun id => ¬ source.Serves id) = [] := by
  rw [List.filter_eq_nil_iff]
  intro id hid
  simpa using h.served id hid

/-- What is tried after all went well. -/
theorem append_tried (h : Fetched source r ids r') (h' : Tried source r' ids' r'') :
    Tried source r (ids ++ ids') r'' where
  toInquired := h.toInquired.append h.kept h.cached h'.toInquired
  absent := by
    rw [List.filter_append, h.filter_absent, List.nil_append]
    exact h'.absent

theorem tried (h : Fetched source r ids r') : Tried source r ids r' where
  toInquired := h.toInquired
  absent := by
    rw [h.filter_absent]
    exact Nat.zero_le 1

theorem begun (r : Repository) (hnew : id ∉ r.keys) (hserves : source.Serves id)
    (contentType : ContentType) : Fetched source r [id] (r.begun id contentType) where
  toInquired := .begun r hnew contentType
  served := by
    intro other hother
    obtain rfl := List.mem_singleton.mp hother
    exact hserves
  cached := by
    rw [keys_begun]
    exact List.subset_append_right _ _
  kept := subset_keys_begun r id contentType

theorem quiet (more : List Event) (h : Fetched source r ids r') (hkeys : r''.keys = r'.keys)
    (hevents : r''.events = more ++ r'.events) (hquiet : more.filterMap Event.started? = []) :
    Fetched source r ids r'' where
  toInquired := h.toInquired.quiet more hevents hquiet
  served := h.served
  cached := hkeys ▸ h.cached
  kept := hkeys ▸ h.kept

end Fetched

theorem Tried.halted (h : Tried source r ids r') (template : Option String) (halt : Halt) :
    Tried source r ids (r'.halted template halt) where
  toInquired := h.toInquired.halted template halt
  absent := h.absent

theorem Tried.evict (h : Tried source r ids r') (id : String) :
    Tried source r ids (r'.evict id) where
  toInquired := h.toInquired.evict id
  absent := h.absent

/-- A source that has no tokens for an id may be asked for them. -/
theorem Tried.begun (source : Source) (r : Repository) (hnew : id ∉ r.keys)
    (contentType : ContentType) : Tried source r [id] (r.begun id contentType) where
  toInquired := .begun r hnew contentType
  absent := List.length_filter_le _ _

/-! ## Compilations -/

/-- What holds of the ids that the uses of a loader ask for, from one state to a later one. -/
def Logged (T : Repository → List String → Repository → Prop)
    (ask : Loader.Call Repository → List String)
    (before after : Repository × List (Loader.Call Repository)) : Prop :=
  ∃ calls, after.2 = before.2 ++ calls ∧ T before.1 (calls.flatMap ask) after.1

/-- What is asked for while all goes well comes first, and then what is asked for by a failure. -/
theorem sequential_logged (source : Source) (ask : Loader.Call Repository → List String) :
    Sequential (Logged (Fetched source) ask) (Logged (Tried source) ask) where
  refl before := ⟨[], (List.append_nil _).symm, .refl source before.1⟩
  trans := by
    rintro a b c ⟨calls, hcalls, h⟩ ⟨calls', hcalls', h'⟩
    refine ⟨calls ++ calls', by rw [hcalls', hcalls, List.append_assoc], ?_⟩
    rw [List.flatMap_append]
    exact h.append h'
  failed := by
    rintro a b c ⟨calls, hcalls, h⟩ ⟨calls', hcalls', h'⟩
    refine ⟨calls ++ calls', by rw [hcalls', hcalls, List.append_assoc], ?_⟩
    rw [List.flatMap_append]
    exact h.append_tried h'
  halted := by
    rintro a b ⟨calls, hcalls, h⟩
    exact ⟨calls, hcalls, h.tried⟩

/-- The ids that a use of the loader asks for, if a single inclusion leads to `requests`. -/
def askedBy (source : Source)
    (requests : (name : String) → (relativeTo : Option String) → Repository → List Request)
    (call : Loader.Call Repository) : List String :=
  source.asked (requests call.name call.relativeTo call.state)

/-- What is asked for by requests, depending on whether they have come to something. -/
abbrev Inquiries {ε α : Type} (source : Source) (requests : List Request) (r : Repository)
    (result : Except ε α × Repository) : Prop :=
  Outcome (fun r r' => Fetched source r (source.asked requests) r')
    (fun r r' => Tried source r (source.asked requests) r') r result

/-- What loading templates asks for, a compilation asks for. -/
theorem inquiries_inclusionRequests
    {requests : (name : String) → (relativeTo : Option String) → Repository → List Request}
    (hload : ∀ name r, Inquiries source (requests name template r) r
      (resolveWithin source contentType depth name template r))
    (stream : Stream) (r : Repository) :
    Inquiries source (inclusionRequests source contentType requests depth template stream r) r
      (compileTemplate ⟨contentType, template⟩ (some (resolveWithin source contentType depth))
        stream r) := by
  have hload' : ∀ name state,
      Outcome (Logged (Fetched source) (askedBy source requests))
        (Logged (Tried source) (askedBy source requests)) state
        ((resolveWithin source contentType depth).logged name template state) := by
    rintro name ⟨r, calls⟩
    refine ⟨fun slot hslot => ⟨[⟨name, template, r⟩], rfl, ?_⟩,
      fun failure hfailure => ⟨[⟨name, template, r⟩], rfl, ?_⟩⟩
    · rw [List.flatMap_singleton]
      exact (hload name r).done slot hslot
    · rw [List.flatMap_singleton]
      exact (hload name r).failed failure hfailure
  have hlogged : Outcome (Logged (Fetched source) (askedBy source requests))
      (Logged (Tried source) (askedBy source requests)) (r, [])
      (compileTemplate ⟨contentType, template⟩
        (some (resolveWithin source contentType depth).logged) stream (r, [])) :=
    outcome_of_compileTemplate (sequential_logged source _) hload' stream (r, [])
  obtain ⟨hvalue, hstate⟩ := compileTemplate_logged ⟨contentType, template⟩
    (resolveWithin source contentType depth) stream r []
  rw [Inquiries, inclusionRequests, Source.asked_flatMap]
  generalize compileTemplate ⟨contentType, template⟩
    (some (resolveWithin source contentType depth).logged) stream (r, []) = logged
    at hlogged hvalue hstate
  refine ⟨fun compiled hcompiled => ?_, fun halt hhalt => ?_⟩
  · obtain ⟨calls, hcalls, hfetched⟩ := hlogged.done compiled (hvalue.trans hcompiled)
    rw [← hstate, hcalls]
    exact hfetched
  · obtain ⟨calls, hcalls, htried⟩ := hlogged.failed halt (hvalue.trans hhalt)
    rw [← hstate, hcalls]
    exact htried

/-- The requests in the course of loading a template ask for ids that are cached in the end, or else for
one at most that the source does not serve. -/
theorem inquiries_requestsWithin (source : Source) (contentType : ContentType) (depth : Nat)
    (running : List String) (name : String) (relativeTo : Option String) (r : Repository) :
    Inquiries source (requestsWithin source contentType depth running name relativeTo r) r
      (resolveWithin source contentType depth name relativeTo r) := by
  induction depth generalizing running name relativeTo r with
  | zero => exact .error (Fetched.refl source r).tried
  | succ depth ih =>
    generalize hid : source.templateId name relativeTo = id
    cases hslot : r.slot? id with
    | some slot =>
      have hasks : ¬ Request.Asks source ⟨depth + 1, name, relativeTo, r, running⟩ := by
        rintro ⟨_, hnone⟩
        rw [Request.id, hid, hslot] at hnone
        cases hnone
      rw [requestsWithin_of_cached hid hslot, resolveWithin_of_cached hid hslot, Inquiries,
        Source.asked_cons_of_not_asks hasks]
      refine .ok ?_
      split
      · exact (Fetched.refl source r).quiet [.recursion id] rfl rfl rfl
      · exact .refl source r
    | none =>
      have hnew : id ∉ r.keys := slot?_eq_none_iff.mp hslot
      have hasks : Request.Asks source ⟨depth + 1, name, relativeTo, r, running⟩ :=
        ⟨Nat.succ_ne_zero depth, by rw [Request.id, hid, hslot]⟩
      have hasked : ∀ requests, source.asked (⟨depth + 1, name, relativeTo, r, running⟩ :: requests) =
          [id] ++ source.asked requests := by
        intro requests
        rw [Source.asked_cons_of_asks hasks, Request.id, hid]
        rfl
      cases htokens : source.tokens id with
      | error failure =>
        rw [requestsWithin_of_no_tokens hid htokens, resolveWithin_of_no_tokens hid hslot htokens,
          Inquiries, hasked]
        exact .error ((Tried.begun source r hnew contentType).evict id)
      | ok stream =>
        have hbegun : Fetched source r [id] (r.begun id contentType) :=
          .begun r hnew ⟨stream, htokens⟩ contentType
        have hinner := inquiries_inclusionRequests
          (fun inner => ih (running ++ [id]) inner (some id)) stream (r.begun id contentType)
        rw [requestsWithin_of_tokens hid hslot htokens, Inquiries, hasked]
        rcases hcompile : compileTemplate ⟨contentType, some id⟩
          (some (resolveWithin source contentType depth)) stream (r.begun id contentType) with
          ⟨halt | template, r'⟩
        · rw [hcompile] at hinner
          rw [resolveWithin_of_halted hid hslot htokens hcompile]
          have htried := hbegun.append_tried (hinner.failed halt rfl)
          exact .error ((htried.halted (some id) halt).evict id)
        · rw [hcompile] at hinner
          rw [resolveWithin_of_compiled hid hslot htokens hcompile]
          have hfetched := (hbegun.append (hinner.done template rfl)).quiet []
            (keys_complete r' r.store.next template) (events_complete r' r.store.next template) rfl
          exact ⟨fun _ _ => hfetched, fun _ _ => hfetched.tried⟩

/-- The same of the requests in the course of compiling a template that is not cached. -/
theorem inquiries_compileRequests (source : Source) (contentType : ContentType) (depth : Nat)
    (template : Option String) (stream : Stream) (r : Repository) :
    Inquiries source (compileRequests source contentType depth template stream r) r
      (compileWithin source contentType depth template stream r) := by
  have hinner := inquiries_inclusionRequests
    (fun inner => inquiries_requestsWithin source contentType depth [] inner template) stream r
  rw [compileRequests, compileWithin]
  rcases hcompile : compileTemplate ⟨contentType, template⟩
    (some (resolveWithin source contentType depth)) stream r with ⟨halt | compiled, r'⟩
  · rw [hcompile] at hinner
    exact .error ((hinner.failed halt rfl).halted template halt)
  · rw [hcompile] at hinner
    exact .ok ((hinner.done compiled rfl).quiet [] rfl rfl rfl)

theorem Inquiries.tried {ε α : Type} {requests : List Request}
    {result : Except ε α × Repository} (h : Inquiries source requests r result) :
    Tried source r (source.asked requests) result.2 := by
  obtain ⟨error | value, r'⟩ := result
  · exact h.failed error rfl
  · exact (h.done value rfl).tried

end Repository

/-! ## Finite sources -/

/-- The ids that the source serves. -/
def FiniteSource.served (source : FiniteSource) : Finset String :=
  source.ids.toFinset.filter source.Serves

theorem FiniteSource.mem_served {source : FiniteSource} {id : String} :
    id ∈ source.served ↔ source.Serves id := by
  rw [served, Finset.mem_filter, List.mem_toFinset, and_iff_right_iff_imp]
  rintro ⟨stream, htokens⟩
  exact source.mem_ids id stream htokens

namespace Repository

theorem card_served_lt_nesting (source : FiniteSource) : source.served.card < nesting source := by
  have hsub : source.served ⊆ source.ids.eraseDups.toFinset := by
    intro id hid
    rw [List.mem_toFinset, List.mem_eraseDups, ← List.mem_toFinset]
    exact Finset.mem_of_mem_filter id hid
  calc source.served.card
      ≤ source.ids.eraseDups.toFinset.card := Finset.card_le_card hsub
    _ ≤ source.ids.eraseDups.length := List.toFinset_card_le _
    _ < nesting source := Nat.lt_succ_self _

theorem confined_served (source : FiniteSource) (r : Repository) :
    Confined source.toSource (fun _ => True) source.served r where
  closed _ _ _ _ _ := trivial
  listed _ stream _ _ htokens := FiniteSource.mem_served.mpr ⟨stream, htokens⟩

theorem card_uncached_served_lt {source : FiniteSource} {depth : Nat}
    (hdepth : source.served.card < depth) (r : Repository) :
    (r.uncached source.served).card < depth :=
  Nat.lt_of_le_of_lt (Finset.card_filter_le _ _) hdepth

/-- A depth that is greater than the number of ids that are served is as good as any other. -/
theorem resolveWithin_eq_resolve {source : FiniteSource} {depth : Nat}
    (hdepth : source.served.card < depth) (name : String) (relativeTo : Option String)
    (r : Repository) :
    resolveWithin source.toSource contentType depth name relativeTo r =
      resolve source contentType name relativeTo r :=
  calc resolveWithin source.toSource contentType depth name relativeTo r
      = resolveWithin source.toSource contentType (max depth (nesting source)) name relativeTo r :=
        resolveWithin_eq_of_nesting name relativeTo r (confined_served source r) trivial
          (card_uncached_served_lt hdepth r) (le_max_left _ _)
    _ = resolve source contentType name relativeTo r :=
        (resolveWithin_eq_of_nesting name relativeTo r (confined_served source r) trivial
          (card_uncached_served_lt (card_served_lt_nesting source) r) (le_max_right _ _)).symm

theorem compileWithin_eq_compile {source : FiniteSource} {depth : Nat}
    (hdepth : source.served.card < depth) (template : Option String) (stream : Stream)
    (r : Repository) :
    compileWithin source.toSource contentType depth template stream r =
      compile source contentType template stream r :=
  calc compileWithin source.toSource contentType depth template stream r
      = compileWithin source.toSource contentType (max depth (nesting source)) template stream r :=
        compileWithin_eq_of_nesting template stream r (confined_served source r)
          (fun _ _ => trivial) (card_uncached_served_lt hdepth r) (le_max_left _ _)
    _ = compile source contentType template stream r :=
        (compileWithin_eq_of_nesting template stream r (confined_served source r)
          (fun _ _ => trivial) (card_uncached_served_lt (card_served_lt_nesting source) r)
          (le_max_right _ _)).symm

/-- What a finite source is used for in the course of an operation: no request is kept from compiling
its template by the bound on the depth, the compilations that are nested in each other are no more than
the ids that are served, and the source is asked once at most for each id and for one id at most that it
does not serve. There are `outer` compilations around all of them. -/
structure Bounded (source : FiniteSource) (outer : Nat) (requests : List Request) : Prop where
  deep : ∀ request ∈ requests, request.depth ≠ 0
  nested : ∀ request ∈ requests,
    outer + (request.compiling source.toSource).length ≤ source.served.card + outer
  once : (source.asked requests).Nodup
  absent : ((source.asked requests).filter fun id => ¬ source.Serves id).length ≤ 1

/-- Different ids that a source serves are no more than all that it serves. -/
theorem length_le_card_served {source : FiniteSource} {ids : List String} (hnodup : ids.Nodup)
    (hserved : ∀ id ∈ ids, source.Serves id) : ids.length ≤ source.served.card := by
  rw [← List.toFinset_card_of_nodup hnodup]
  refine Finset.card_le_card fun id hid => ?_
  exact FiniteSource.mem_served.mpr (hserved id (List.mem_toFinset.mp hid))

/-- Requests are bounded where each of them is made inside new compilations that have taken the depth
that it lacks. -/
theorem bounded_of_nested {source : FiniteSource} {requests : List Request} {r r' : Repository}
    (hrequests : ∀ request ∈ requests,
      Nested source.toSource r request.running request.repository ∧
        request.depth + request.running.length = nesting source)
    (htried : Tried source.toSource r (source.asked requests) r') (outer : Nat) :
    Bounded source outer requests where
  deep request hrequest := by
    obtain ⟨hnested, hdepth⟩ := hrequests request hrequest
    have hrunning := length_le_card_served hnested.nodup hnested.served
    have hserved := card_served_lt_nesting source
    omega
  nested request hrequest := by
    obtain ⟨hnodup, hserved⟩ := (hrequests request hrequest).1.compiling
    have hlength := length_le_card_served hnodup hserved
    omega
  once := htried.nodup
  absent := htried.absent

/-- On a finite source, whatever the templates include, loading one and compiling one that is not cached
come to an end: a depth that is greater than the number of ids that are served changes nothing, since no
request meets the bound. The compilations nested in each other are as many as these ids at most, or one
more with the template that is not cached around them. The source is asked for tokens where the start of
a compilation is reported, once at most for each id and for one id at most that it does not serve. -/
theorem loading_terminates (source : FiniteSource) (contentType : ContentType) (r : Repository) :
    (∀ name relativeTo,
      let requests :=
        requestsWithin source.toSource contentType (nesting source) [] name relativeTo r
      let result := resolve source contentType name relativeTo r
      (∀ depth, source.served.card < depth →
        resolveWithin source.toSource contentType depth name relativeTo r = result) ∧
      Bounded source 0 requests ∧
      ∃ reported, result.2.events = reported ++ r.events ∧
        reported.filterMap Event.started? = (source.asked requests).reverse) ∧
    ∀ template stream,
      let requests :=
        compileRequests source.toSource contentType (nesting source) template stream r
      let result := compile source contentType template stream r
      (∀ depth, source.served.card < depth →
        compileWithin source.toSource contentType depth template stream r = result) ∧
      Bounded source 1 requests ∧
      ∃ reported, result.2.events = reported ++ r.events ∧
        reported.filterMap Event.started? = (source.asked requests).reverse := by
  refine ⟨fun name relativeTo => ?_, fun template stream => ?_⟩
  · have htried := (inquiries_requestsWithin source.toSource contentType (nesting source) [] name
      relativeTo r).tried
    refine ⟨fun depth hdepth => ?_, bounded_of_nested (fun request hrequest => ?_) htried 0,
      htried.reported⟩
    · exact resolveWithin_eq_resolve hdepth name relativeTo r
    · obtain ⟨compiling, hrunning, hnested, hdepth⟩ := mem_requestsWithin hrequest
      rw [List.nil_append] at hrunning
      rw [hrunning]
      exact ⟨hnested, hdepth⟩
  · have htried := (inquiries_compileRequests source.toSource contentType (nesting source) template
      stream r).tried
    refine ⟨fun depth hdepth => ?_, bounded_of_nested (fun _ => mem_compileRequests) htried 1,
      htried.reported⟩
    exact compileWithin_eq_compile hdepth template stream r

/-- A source with a page and a part that include each other, and in the part a template that there is
none of. -/
def brokenLoop : FiniteSource where
  templateId name _ := name
  tokens id :=
    if id = "page" then .ok (.ofTokens [⟨.inclusion, "part", 1, none⟩])
    else if id = "part" then
      .ok (.ofTokens [⟨.inclusion, "page", 1, none⟩, ⟨.inclusion, "missing", 2, none⟩])
    else .error (Fault.notFound (.unknown id)).alone
  ids := ["page", "part"]
  mem_ids id stream htokens := by
    by_contra hid
    simp only [List.mem_cons, List.not_mem_nil, or_false, not_or] at hid
    simp [hid] at htokens

/-- Loading the page asks for the page, the part and the template that is missing, each once. The
request that fails is made inside two compilations, and the source serves two ids. -/
theorem loading_terminates_brokenLoop :
    let requests := requestsWithin brokenLoop.toSource .html (nesting brokenLoop) [] "page" none {}
    brokenLoop.asked requests = ["page", "part", "missing"] ∧ Bounded brokenLoop 0 requests ∧
      ∃ request ∈ requests, request.name = "missing" ∧
        request.compiling brokenLoop.toSource = ["page", "part"] := by
  intro requests
  have hasked : brokenLoop.asked requests = ["page", "part", "missing"] := rfl
  have hbounded : Bounded brokenLoop 0 requests :=
    ((loading_terminates brokenLoop .html {}).1 "page" none).2.1
  exact ⟨hasked, hbounded, requests[3], List.getElem_mem _, rfl, rfl⟩

end Repository

end Logicless
