import Logicless.Proofs.Repository.Fidelity
import Mathlib.Data.Finset.Lattice.Fold

/-!
# The templates that can be loaded

A template is compiled on the assumption that the templates around it, whose compilations have started
but not ended, will compile as well. So it is not obvious which templates can be loaded, nor that the
cache has no say in it. They are those from which finitely many ids are reached, all of them well-formed.
On a source that serves ever new ids, well-formedness alone is not enough: `endlessItems` is such a source.

## Shape of the proof

* `Repository.Ready` is what a set of ids needs for their templates to compile: those that are not cached
  are well-formed, and they include ids of the set alone.
* `agree_of_wellFormed` runs the compilation of an id side by side with the one that accepts every name,
  and `agree_of_ready` is the induction: loading one of the ids succeeds, unless it runs out of depth.
* In the other direction, a template that was loaded is cached, and a cache is closed under inclusions.
* `Session.resolves_iff_wellFormed` joins the two.
-/

namespace Logicless

namespace Repository

variable {source : Source} {contentType : ContentType} {name id : String} {relativeTo : Option String}
  {reached : String → Prop} {r r' s s' : Repository} {depth fuel : Nat}

/-- The ids `reached` that are not cached are well-formed, and they include ids `reached` alone. -/
def Ready (source : Source) (contentType : ContentType) (reached : String → Prop) (r : Repository) :
    Prop :=
  ∀ id, reached id → id ∉ r.keys →
    source.WellFormed contentType id ∧ ∀ id', source.Includes id id' → reached id'

/-- What is cached has only grown, by ids `reached`. -/
structure Extends (reached : String → Prop) (r s : Repository) : Prop where
  subset : r.keys ⊆ s.keys
  reached : ∀ id ∈ s.keys, id ∈ r.keys ∨ reached id

theorem Ready.mono (h : Ready source contentType reached r) (hsub : r.keys ⊆ s.keys) :
    Ready source contentType reached s :=
  fun id hid hnew => h id hid fun hmem => hnew (hsub hmem)

theorem Extends.refl : Extends reached r r :=
  ⟨List.Subset.refl _, fun _ hid => .inl hid⟩

theorem Extends.trans (h : Extends reached r s) (h' : Extends reached s s') :
    Extends reached r s' := by
  refine ⟨List.Subset.trans h.subset h'.subset, fun id hid => ?_⟩
  rcases h'.reached id hid with hid | hid
  · exact h.reached id hid
  · exact .inr hid

theorem Extends.of_keys_eq (h : Extends reached r s) (hkeys : s'.keys = s.keys) :
    Extends reached r s' :=
  ⟨hkeys ▸ h.subset, fun id hid => h.reached id (hkeys ▸ hid)⟩

theorem Extends.begun (r : Repository) (contentType : ContentType) (hid : reached id) :
    Extends reached r (r.begun id contentType) := by
  refine ⟨subset_keys_begun r id contentType, fun key hkey => ?_⟩
  rw [keys_begun, List.mem_append, List.mem_singleton] at hkey
  rcases hkey with hkey | rfl
  · exact .inl hkey
  · exact .inr hid

/-- A template that is cached is handed out, and what is cached stays the same. -/
theorem exists_resolveWithin_of_cached (contentType : ContentType) (fuel : Nat) {slot : Slot}
    (hid : source.templateId name relativeTo = id) (hslot : r.slot? id = some slot) :
    ∃ after, resolveWithin source contentType (fuel + 1) name relativeTo r = (.ok slot, after) ∧
      after.keys = r.keys := by
  rw [resolveWithin_of_cached hid hslot]
  refine ⟨_, rfl, ?_⟩
  split
  · rfl
  · rfl

/-- A template that compiles is handed out, and what is cached is what its compilation has left. -/
theorem exists_resolveWithin_of_compiled {stream : Stream} {template : Template Unit Slot}
    (hid : source.templateId name relativeTo = id) (hslot : r.slot? id = none)
    (htokens : source.tokens id = .ok stream)
    (hcompile : compileTemplate ⟨contentType, some id⟩
      (some (resolveWithin source contentType fuel)) stream (r.begun id contentType) =
        (.ok template, r')) :
    ∃ slot after, resolveWithin source contentType (fuel + 1) name relativeTo r = (.ok slot, after) ∧
      after.keys = r'.keys := by
  have hresolves := resolves_resolveWithin source contentType fuel
  have hgrows := hresolves.grows_compileTemplate ⟨contentType, some id⟩ stream (r.begun id contentType)
  rw [hcompile] at hgrows
  obtain ⟨added, hgrows⟩ := hgrows
  have hcompleted := growsBy_complete (slot?_eq_none_iff.mp hslot)
    (hresolves.cached_of_compileTemplate hcompile) hgrows
  rw [resolveWithin_of_compiled hid hslot htokens hcompile]
  exact ⟨r.store.next, _, Prod.ext hcompleted.1 rfl, keys_complete _ _ _⟩

/-- A well-formed id that is not cached is compiled if the ids that it includes can be loaded, unless
loading them runs out of depth. -/
theorem agree_of_wellFormed (hid : source.templateId name relativeTo = id) (hslot : r.slot? id = none)
    (hreached : reached id) (hwellFormed : source.WellFormed contentType id)
    (hload : ∀ name s, source.Includes id (source.templateId name (some id)) → Extends reached r s →
      Agree (Failure.Exceeds depth) (fun _ _ => True) (fun s' _ => Extends reached s s')
        (fun _ _ => True) (resolveWithin source contentType depth name (some id) s)
        ((Resolver.accepting.loader : Loader Unit Unit) name (some id) ())) :
    Agree (Failure.Exceeds (depth + 1)) (fun _ _ => True) (fun s _ => Extends reached r s)
      (fun _ _ => True) (resolveWithin source contentType (depth + 1) name relativeTo r)
      ((Resolver.accepting.loader : Loader Unit Unit) name relativeTo ()) := by
  obtain ⟨outline, stream, htokens, houtline⟩ := hwellFormed
  have hloaders : ScopeStack.Simulation.Loaders ⟨contentType, some id⟩
      (resolveWithin source contentType depth) (Resolver.accepting.loader : Loader Unit Unit)
      (· ∈ stream.includedNames) (Failure.Exceeds depth)
      (fun halt => halt.failure.Exceeds (depth + 1)) (fun _ _ => True)
      (fun s _ => Extends reached r s) (fun _ _ => True) := {
    lost := fun citing name failure hlost => hlost.inclusion _ citing name
    failed := fun _ _ _ => trivial
    load := by
      intro name hname s _ hextends
      have hagree := hload name s ⟨stream, htokens, name, hname, rfl⟩ hextends
      generalize resolveWithin source contentType depth name (some id) s = result at hagree
      cases hagree with
      | lost hlost => exact .lost hlost
      | done _ hmore => exact .done trivial (hextends.trans hmore) }
  have hagree := (ScopeStack.Simulation.shape _).compileTemplate hloaders _ ()
    (Extends.begun r contentType hreached)
  generalize hcompile : compileTemplate ⟨contentType, some id⟩
    (some (resolveWithin source contentType depth)) stream (r.begun id contentType) = result
    at hagree
  generalize compileTemplate ⟨contentType, some id⟩
    (some (Resolver.accepting.loader : Loader Unit Unit)) stream () = result' at hagree houtline
  -- the other compilation is known to succeed, so only a lack of depth can stop this one
  cases hagree with
  | lost hlost =>
    rw [resolveWithin_of_halted hid hslot htokens hcompile]
    exact .lost hlost
  | failed => cases houtline
  | done _ hextends =>
    obtain ⟨slot, after, hresolved, hkeys⟩ :=
      exists_resolveWithin_of_compiled hid hslot htokens hcompile
    rw [hresolved]
    exact .done trivial (hextends.of_keys_eq hkeys)

/-- Loading one of the ids that are ready succeeds, unless it runs out of depth. -/
theorem agree_of_ready (depth : Nat) (h : Ready source contentType reached r)
    (hreached : reached (source.templateId name relativeTo)) :
    Agree (Failure.Exceeds depth) (fun _ _ => True) (fun s _ => Extends reached r s) (fun _ _ => True)
      (resolveWithin source contentType depth name relativeTo r)
      ((Resolver.accepting.loader : Loader Unit Unit) name relativeTo ()) := by
  induction depth generalizing name relativeTo r with
  | zero => exact .lost Nat.zero_lt_one
  | succ depth ih =>
    generalize hid : source.templateId name relativeTo = id at hreached
    cases hslot : r.slot? id with
    | some slot =>
      obtain ⟨after, hresolved, hkeys⟩ :=
        exists_resolveWithin_of_cached contentType depth hid hslot
      rw [hresolved]
      exact .done trivial (Extends.refl.of_keys_eq hkeys)
    | none =>
      obtain ⟨hwellFormed, hclosed⟩ := h id hreached (slot?_eq_none_iff.mp hslot)
      refine agree_of_wellFormed hid hslot hreached hwellFormed fun name s hincludes hextends => ?_
      exact ih (h.mono hextends.subset) (hclosed _ hincludes)

/-! ## Answers -/

/-- An answer is reached at some depth, and if it is a failure, then not for want of depth. -/
theorem Answers.exists_depth {result : Except Failure Slot × Repository}
    (h : Answers source contentType name relativeTo r result) :
    ∃ depth, resolveWithin source contentType depth name relativeTo r = result ∧
      ∀ failure, result.1 = .error failure → ¬ failure.Exceeds depth := by
  obtain ⟨bound, h⟩ := h
  obtain ⟨answer, after⟩ := result
  cases answer with
  | ok slot => exact ⟨bound, h bound (Nat.le_refl _), fun _ hfailure => by cases hfailure⟩
  | error failure =>
    refine ⟨max bound failure.faults.length, h _ (Nat.le_max_left _ _), fun failure' hfailure => ?_⟩
    obtain rfl := Except.error.inj hfailure
    exact Nat.not_lt.mpr (Nat.le_max_right _ _)

/-- An id that is ready is loaded at a depth greater than the number of those that are not cached. -/
theorem exists_resolveWithin_of_ready {ids : Finset String} (h : Ready source contentType reached r)
    (hlisted : ∀ id, reached id → id ∉ r.keys → id ∈ ids)
    (hreached : reached (source.templateId name relativeTo)) (hdepth : ids.card < depth) :
    ∃ slot after, resolveWithin source contentType depth name relativeTo r = (.ok slot, after) ∧
      Extends reached r after := by
  have hconfined : Confined source reached ids r := {
    closed := fun id id' hid hnew hincludes => (h id hid hnew).2 id' hincludes
    listed := fun id _ hid hnew _ => hlisted id hid hnew }
  have hanswers : Answers source contentType name relativeTo r
      (resolveWithin source contentType depth name relativeTo r) :=
    answers_of_confined hconfined hreached (Nat.lt_of_le_of_lt (Finset.card_filter_le _ _) hdepth)
  -- a failure would be the answer at its own depth too, where it is not for want of depth
  obtain ⟨depth', hdepth', hlost⟩ := hanswers.exists_depth
  have hagree := agree_of_ready depth' h hreached
  rw [hdepth'] at hagree
  generalize resolveWithin source contentType depth name relativeTo r = result at hlost hagree
  cases hagree with
  | lost hexceeds => exact absurd hexceeds (hlost _ rfl)
  | done _ hextends => exact ⟨_, _, rfl, hextends⟩

/-- Once a template is handed out, it is cached in a repository that is sound and faithful still. -/
theorem loaded_of_resolveWithin {slot : Slot} {after : Repository}
    (hsound : Sound source.templateId r) (hfaithful : Faithful source contentType r)
    (h : resolveWithin source contentType depth name relativeTo r = (.ok slot, after)) :
    Sound source.templateId after ∧ Faithful source contentType after ∧
      after.slot? (source.templateId name relativeTo) = some slot := by
  have hsettles := resolves_resolveWithin source contentType depth name relativeTo r
  have hfaithful' := (keeps_faithful source contentType).resolveWithin depth name relativeTo hfaithful
  rw [h] at hsettles hfaithful'
  exact ⟨hsound.grows hsettles.grows, hfaithful', hsettles.cached slot rfl⟩

/-- An id is cached together with everything that it reaches. -/
theorem mem_keys_of_reached (hsound : Sound source.templateId r)
    (hfaithful : Faithful source contentType r) {root : String} (hroot : root ∈ r.keys)
    (hreached : Relation.ReflTransGen source.Includes root id) : id ∈ r.keys := by
  induction hreached with
  | refl => exact hroot
  | tail _ hincludes ih => exact (hfaithful.wellFormed_of_mem hsound ih).2 _ hincludes

/-- A template is handed out exactly if the ids that it reaches are finitely many and well-formed. -/
theorem exists_answers_ok_iff (name : String) (relativeTo : Option String)
    (hsound : Sound source.templateId r)
    (hfaithful : Faithful source contentType r) :
    (∃ slot after, Answers source contentType name relativeTo r (.ok slot, after)) ↔
      {id | Relation.ReflTransGen source.Includes (source.templateId name relativeTo) id}.Finite ∧
        ∀ id, Relation.ReflTransGen source.Includes (source.templateId name relativeTo) id →
          source.WellFormed contentType id := by
  constructor
  · rintro ⟨slot, after, bound, hanswers⟩
    obtain ⟨hsound, hfaithful, hslot⟩ :=
      loaded_of_resolveWithin hsound hfaithful (hanswers bound (Nat.le_refl _))
    have hcached : ∀ id,
        Relation.ReflTransGen source.Includes (source.templateId name relativeTo) id →
          id ∈ after.keys :=
      fun _ => mem_keys_of_reached hsound hfaithful (mem_keys_of_slot? hslot)
    refine ⟨after.keys.toFinset.finite_toSet.subset fun id hid => ?_, fun id hid => ?_⟩
    · exact List.mem_toFinset.mpr (hcached id hid)
    · exact (hfaithful.wellFormed_of_mem hsound (hcached id hid)).1
  · rintro ⟨hfinite, hwellFormed⟩
    have hready : Ready source contentType
        (Relation.ReflTransGen source.Includes (source.templateId name relativeTo)) r :=
      fun id hid _ => ⟨hwellFormed id hid, fun _ hincludes => hid.tail hincludes⟩
    obtain ⟨slot, after, hresolved, _⟩ := exists_resolveWithin_of_ready hready
      (fun _ hid _ => hfinite.mem_toFinset.mpr hid) .refl (Nat.lt_succ_self _)
    exact ⟨slot, after, answers_of_ok hresolved⟩

end Repository

/-- The well-formed ids of a source that lists its ids are finitely many. -/
theorem FiniteSource.finite_of_wellFormed (source : FiniteSource) {contentType : ContentType}
    {reached : String → Prop} (h : ∀ id, reached id → source.WellFormed contentType id) :
    {id | reached id}.Finite := by
  refine source.ids.toFinset.finite_toSet.subset fun id hid => ?_
  obtain ⟨_, stream, htokens, _⟩ := h id hid
  exact List.mem_toFinset.mpr (source.mem_ids id stream htokens)

namespace Repository

/-- On a source that lists its ids, a template is handed out exactly if all ids that it reaches are
well-formed. -/
theorem exists_resolve_iff (source : FiniteSource) {contentType : ContentType} {r : Repository}
    (name : String) (relativeTo : Option String) (hsound : Sound source.templateId r)
    (hfaithful : Faithful source.toSource contentType r) :
    (∃ slot after, resolve source contentType name relativeTo r = (.ok slot, after)) ↔
      ∀ id, Relation.ReflTransGen source.Includes (source.templateId name relativeTo) id →
        source.WellFormed contentType id := by
  have hiff := exists_answers_ok_iff name relativeTo hsound hfaithful
  have hresolve := answers_resolve source contentType name relativeTo r
  constructor
  · rintro ⟨slot, after, heq⟩
    rw [heq] at hresolve
    exact (hiff.mp ⟨slot, after, hresolve⟩).2
  · intro hwellFormed
    obtain ⟨slot, after, hanswers⟩ := hiff.mpr ⟨source.finite_of_wellFormed hwellFormed, hwellFormed⟩
    exact ⟨slot, after, hresolve.unique hanswers⟩

end Repository

namespace Session

open Repository

/-- Which templates can be loaded. At any time of a session in which the source is never changed, a
template is handed out exactly if the ids that it reaches by the tags of streams are finitely many and all
well-formed. Where they are finitely many, loading it has an answer. On a source that lists its ids, they
are always finitely many if they are well-formed, and `resolve` hands the template out exactly then. -/
theorem resolves_iff_wellFormed (source : Source) (contentType : ContentType)
    (operations : List Operation) (hkeeps : ∀ operation ∈ operations, operation.KeepsSource)
    (name : String) (relativeTo : Option String) :
    let repository := (run source contentType operations).repository
    let reached := Relation.ReflTransGen source.Includes (source.templateId name relativeTo)
    ((∃ slot after, Answers source contentType name relativeTo repository (.ok slot, after)) ↔
        {id | reached id}.Finite ∧ ∀ id, reached id → source.WellFormed contentType id) ∧
      ({id | reached id}.Finite →
        ∃ result, Answers source contentType name relativeTo repository result) ∧
      ∀ ids mem_ids,
        (∃ slot after, resolve ⟨source, ids, mem_ids⟩ contentType name relativeTo repository =
            (.ok slot, after)) ↔
          ∀ id, reached id → source.WellFormed contentType id := by
  intro repository reached
  obtain ⟨hsound, hfaithful⟩ := faithful_run source contentType hkeeps
  exact ⟨exists_answers_ok_iff name relativeTo hsound hfaithful,
    exists_answers source contentType name relativeTo repository, fun ids mem_ids =>
      exists_resolve_iff ⟨source, ids, mem_ids⟩ name relativeTo hsound hfaithful⟩

/-- A source with a page and a part that include each other. -/
def mutualPage : Source where
  templateId name _ := name
  tokens id :=
    if id = "page" then .ok (.ofTokens [⟨.inclusion, "part", 1, none⟩])
    else if id = "part" then .ok (.ofTokens [⟨.inclusion, "page", 1, none⟩])
    else .error (Fault.notFound (.unknown id)).alone

/-- The page is handed out after its part was loaded and forgotten again, so all that it reaches is
well-formed. -/
theorem resolves_iff_wellFormed_mutualPage :
    let operations := [.resolve 3 "part" none, .clear]
    let repository := (run mutualPage .html operations).repository
    (∀ operation ∈ operations, operation.KeepsSource) ∧
      (∃ slot after, Answers mutualPage .html "page" none repository (.ok slot, after)) ∧
      ∀ id, Relation.ReflTransGen mutualPage.Includes "page" id → mutualPage.WellFormed .html id := by
  intro operations repository
  have hkeeps : ∀ operation ∈ operations, operation.KeepsSource := by
    simp [operations, Operation.KeepsSource]
  have hanswers : ∃ slot after, Answers mutualPage .html "page" none repository (.ok slot, after) := by
    have hresolved : ∃ slot after,
        resolveWithin mutualPage .html 3 "page" none repository = (.ok slot, after) := ⟨_, _, rfl⟩
    obtain ⟨slot, after, hresolved⟩ := hresolved
    exact ⟨slot, after, answers_of_ok hresolved⟩
  refine ⟨hkeeps, hanswers, ?_⟩
  exact ((resolves_iff_wellFormed mutualPage .html operations hkeeps "page" none).1.mp hanswers).2

/-- A source in which every template includes another one, whose id is longer. -/
def endlessItems : Source where
  templateId name relativeTo := relativeTo.getD "" ++ name
  tokens _ := .ok (.ofTokens [⟨.inclusion, "x", 1, none⟩])

theorem includes_endlessItems (id : String) : endlessItems.Includes id (id ++ "x") :=
  ⟨_, rfl, "x", List.mem_singleton_self _, rfl⟩

/-- All ids that an item reaches are well-formed, but there are infinitely many of them, and so the item is
never handed out. -/
theorem endlessItems_never_resolved :
    let repository := (run endlessItems .html []).repository
    (∀ id, Relation.ReflTransGen endlessItems.Includes (endlessItems.templateId "x" none) id →
        endlessItems.WellFormed .html id) ∧
      ¬ ∃ slot after, Answers endlessItems .html "x" none repository (.ok slot, after) := by
  intro repository
  refine ⟨fun id _ => ⟨_, _, rfl, rfl⟩, fun hanswers => ?_⟩
  obtain ⟨hsound, hfaithful⟩ := faithful_run endlessItems .html (List.forall_mem_nil Operation.KeepsSource)
  have hfinite := ((exists_answers_ok_iff "x" none hsound hfaithful).mp hanswers).1
  -- the ids that are reached are of any length
  have hlong : ∀ n, ∃ id, Relation.ReflTransGen endlessItems.Includes
      (endlessItems.templateId "x" none) id ∧ n ≤ id.length := by
    intro n
    induction n with
    | zero => exact ⟨_, .refl, Nat.zero_le _⟩
    | succ n ih =>
      obtain ⟨id, hreached, hlength⟩ := ih
      refine ⟨id ++ "x", hreached.tail (includes_endlessItems id), ?_⟩
      rw [String.length_append]
      exact Nat.add_le_add_right hlength _
  obtain ⟨id, hreached, hlength⟩ := hlong (hfinite.toFinset.sup String.length + 1)
  have hbounded : id.length ≤ hfinite.toFinset.sup String.length :=
    Finset.le_sup (hfinite.mem_toFinset.mpr hreached)
  omega

end Session

end Logicless
