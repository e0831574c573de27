import Logicless.Proofs.Compile.Simulation
import Logicless.Proofs.Repository.Growth
import Mathlib.Data.Finset.Card
import Mathlib.Data.Set.Finite.Basic

/-!
# How deep compilations are nested

Loading a template is bounded by a depth: a compilation that would be nested deeper fails. What comes of
loading a template is its answer beyond some bound. This module says that there is not more than one
answer, and that there is one wherever the templates that may be needed are finitely many.

## Shape of the module

* `Source.Includes` relates the ids of templates by the tags of their streams.
* `Repository.Answers` says what loading a template comes to.
* `agree_of_le`: a greater depth changes nothing, unless the failure at the smaller depth has more causes
  than that depth. A compilation that runs out of depth fails like that, as each compilation around it
  adds a fault.
* `resolveWithin_eq_of_nesting`: each nested compilation is of an id that is not cached yet. So the
  number of such ids is deep enough, where they are listed. `compileWithin_eq_of_nesting` is the same for
  a template that is not cached.
-/

namespace Logicless

/-- The template of an id includes that of another one by one of its tags. -/
def Source.Includes (source : Source) (id id' : String) : Prop :=
  ∃ stream, source.tokens id = .ok stream ∧
    ∃ name ∈ stream.includedNames, source.templateId name (some id) = id'

/-- The failure has more faults than a number of nested compilations accounts for. -/
def Failure.Exceeds (depth : Nat) (failure : Failure) : Prop :=
  depth < failure.faults.length

theorem Failure.Exceeds.mono {depth depth' : Nat} {failure : Failure} (hle : depth ≤ depth')
    (h : failure.Exceeds depth') : failure.Exceeds depth :=
  Nat.lt_of_le_of_lt hle h

/-- A failure to include a template has one fault more than the failure of that template. -/
theorem Failure.Exceeds.inclusion {depth : Nat} {failure : Failure} (h : failure.Exceeds depth)
    (setting : Setting) (citing : Option Token) (name : String) :
    (Halt.recorded (setting.inclusionFailure citing name failure)).failure.Exceeds (depth + 1) :=
  Nat.succ_lt_succ h

namespace Agree

variable {ε α σ : Type} {Lost : ε → Prop} {x y : Except ε α × σ}

theorem refl (x : Except ε α × σ) : Agree Lost Eq Eq Eq x x := by
  obtain ⟨error | value, state⟩ := x
  · exact .failed rfl
  · exact .done rfl rfl

/-- Results that agree in values and states are equal, unless the first one is lost. -/
theorem lost_or_eq (h : Agree Lost Eq Eq Eq x y) : (∃ error, x.1 = .error error ∧ Lost error) ∨ x = y := by
  cases h with
  | lost hlost => exact .inl ⟨_, rfl, hlost⟩
  | failed hstate => exact .inr (by rw [hstate])
  | done hvalue hstate => exact .inr (by rw [hvalue, hstate])

end Agree

namespace Repository

variable {source : Source} {contentType : ContentType} {name : String} {relativeTo : Option String}
  {r r' : Repository} {result result' : Except Failure Slot × Repository} {depth depth' : Nat}

/-- However deep compilations may be nested beyond some bound, loading a template comes to `result`. -/
def Answers (source : Source) (contentType : ContentType) (name : String) (relativeTo : Option String)
    (r : Repository) (result : Except Failure Slot × Repository) : Prop :=
  ∃ bound, ∀ depth, bound ≤ depth →
    resolveWithin source contentType depth name relativeTo r = result

/-- There is not more than one answer. -/
theorem Answers.unique (h : Answers source contentType name relativeTo r result)
    (h' : Answers source contentType name relativeTo r result') : result = result' := by
  obtain ⟨bound, h⟩ := h
  obtain ⟨bound', h'⟩ := h'
  rw [← h (max bound bound') (le_max_left _ _), h' _ (le_max_right _ _)]

/-! ## Greater depths -/

/-- If the compilations of a template that is not cached agree at two depths, so do their results. -/
theorem agree_succ {Lost : Failure → Prop} {Kept : Repository → Repository → Prop} {id : String}
    (hid : source.templateId name relativeTo = id) (hslot : r.slot? id = none)
    (hkept : ∀ s s', Kept s s' → s = s')
    (hcompile : ∀ stream, source.tokens id = .ok stream →
      Agree (fun halt => Lost halt.failure) Eq Kept Eq
        (compileTemplate ⟨contentType, some id⟩ (some (resolveWithin source contentType depth)) stream
          (r.begun id contentType))
        (compileTemplate ⟨contentType, some id⟩ (some (resolveWithin source contentType depth')) stream
          (r.begun id contentType))) :
    Agree Lost Eq Eq Eq (resolveWithin source contentType (depth + 1) name relativeTo r)
      (resolveWithin source contentType (depth' + 1) name relativeTo r) := by
  cases htokens : source.tokens id with
  | error failure =>
    rw [resolveWithin_of_no_tokens hid hslot htokens, resolveWithin_of_no_tokens hid hslot htokens]
    exact .refl _
  | ok stream =>
    have hagree := hcompile stream htokens
    generalize hleft : compileTemplate ⟨contentType, some id⟩
      (some (resolveWithin source contentType depth)) stream (r.begun id contentType) = left at hagree
    generalize hright : compileTemplate ⟨contentType, some id⟩
      (some (resolveWithin source contentType depth')) stream (r.begun id contentType) = right at hagree
    cases hagree with
    | lost hlost =>
      rw [resolveWithin_of_halted hid hslot htokens hleft]
      exact .lost hlost
    | failed hstate =>
      obtain rfl := hstate
      rw [resolveWithin_of_halted hid hslot htokens hleft,
        resolveWithin_of_halted hid hslot htokens hright]
      exact .refl _
    | done htemplate hstate =>
      obtain rfl := htemplate
      obtain rfl := hkept _ _ hstate
      rw [resolveWithin_of_compiled hid hslot htokens hleft,
        resolveWithin_of_compiled hid hslot htokens hright]
      exact .refl _

/-- At a greater depth, loading a template comes to the same, unless it has failed for want of depth. -/
theorem agree_of_le (hle : depth ≤ depth') (name : String) (relativeTo : Option String)
    (r : Repository) :
    Agree (Failure.Exceeds depth) Eq Eq Eq
      (resolveWithin source contentType depth name relativeTo r)
      (resolveWithin source contentType depth' name relativeTo r) := by
  induction depth generalizing depth' name relativeTo r with
  | zero => exact .lost Nat.zero_lt_one
  | succ depth ih =>
    obtain ⟨depth', rfl⟩ := Nat.exists_eq_add_of_lt hle
    generalize hid : source.templateId name relativeTo = id
    cases hslot : r.slot? id with
    | some slot =>
      rw [resolveWithin_of_cached hid hslot, resolveWithin_of_cached hid hslot]
      exact .refl _
    | none =>
      refine agree_succ hid hslot (fun _ _ heq => heq) fun stream _ => ?_
      -- a failure for want of depth becomes the cause of one that is longer by a fault
      have hloaders : ScopeStack.Simulation.Loaders ⟨contentType, some id⟩
          (resolveWithin source contentType depth) (resolveWithin source contentType (depth + depth'))
          (· ∈ stream.includedNames) (Failure.Exceeds depth)
          (fun halt => halt.failure.Exceeds (depth + 1)) Eq Eq Eq := {
        lost := fun citing name failure hlost => hlost.inclusion _ citing name
        failed := fun _ _ heq => heq
        load := by
          rintro name _ state _ rfl
          exact ih (Nat.le_add_right _ _) name (some id) state }
      exact (ScopeStack.Simulation.eq _).compileTemplate hloaders _ _ rfl

/-- A result that is not for want of depth is the answer. -/
theorem answers_of_not_exceeds
    (h : resolveWithin source contentType depth name relativeTo r = result)
    (hlost : ∀ failure, result.1 = .error failure → ¬ failure.Exceeds depth) :
    Answers source contentType name relativeTo r result := by
  refine ⟨depth, fun depth' hle => ?_⟩
  rcases (agree_of_le hle name relativeTo r).lost_or_eq with ⟨failure, hfailure, hexceeds⟩ | heq
  · rw [h] at hfailure
    exact absurd hexceeds (hlost failure hfailure)
  · rw [← heq, h]

/-- A template that is handed out at some depth is the answer. -/
theorem answers_of_ok {slot : Slot}
    (h : resolveWithin source contentType depth name relativeTo r = (.ok slot, r')) :
    Answers source contentType name relativeTo r (.ok slot, r') :=
  answers_of_not_exceeds h fun _ hfailure => by cases hfailure

/-! ## Depths that are great enough -/

/-- The ids among some that are not cached. -/
def uncached (r : Repository) (ids : Finset String) : Finset String :=
  ids.filter (· ∉ r.keys)

theorem card_uncached_le (hsub : r.keys ⊆ r'.keys) (ids : Finset String) :
    (r'.uncached ids).card ≤ (r.uncached ids).card := by
  refine Finset.card_le_card fun id hid => ?_
  simp only [uncached, Finset.mem_filter] at hid ⊢
  exact ⟨hid.1, fun hmem => hid.2 (hsub hmem)⟩

/-- While an id is compiled, there is one id less that is not cached. -/
theorem card_uncached_begun_lt {id : String} {ids : Finset String} (hnew : id ∉ r.keys)
    (hmem : id ∈ ids) :
    ((r.begun id contentType).uncached ids).card < (r.uncached ids).card := by
  refine Finset.card_lt_card ((Finset.ssubset_iff_of_subset fun other hother => ?_).mpr ⟨id, ?_, ?_⟩)
  · simp only [uncached, Finset.mem_filter] at hother ⊢
    exact ⟨hother.1, fun hkey => hother.2 (subset_keys_begun r id contentType hkey)⟩
  · simp [uncached, hmem, hnew]
  · simp [uncached, keys_begun]

theorem keys_subset_of_grows {templateId : String → Option String → String}
    (h : Grows templateId r r') : r.keys ⊆ r'.keys := by
  obtain ⟨added, h⟩ := h
  rw [keys_append h.cache]
  exact List.subset_append_left _ _

/-- The ids that may come up are those `reached`, and of these the ones with tokens are listed. Cached
ids do not matter, since nothing is compiled for them. -/
structure Confined (source : Source) (reached : String → Prop) (ids : Finset String)
    (r : Repository) : Prop where
  closed : ∀ id id', reached id → id ∉ r.keys → source.Includes id id' → reached id'
  listed : ∀ id stream, reached id → id ∉ r.keys → source.tokens id = .ok stream → id ∈ ids

theorem Confined.mono {reached : String → Prop} {ids : Finset String}
    (h : Confined source reached ids r) (hsub : r.keys ⊆ r'.keys) :
    Confined source reached ids r' where
  closed id id' hid hnew := h.closed id id' hid fun hmem => hnew (hsub hmem)
  listed id stream hid hnew := h.listed id stream hid fun hmem => hnew (hsub hmem)

/-- Two depths at which every template comes to the same once some ids are cached, serve a compilation
alike, since no id is forgotten while it goes on. -/
theorem loaders_of_eq {template : Option String} {P : String → Prop}
    (heq : ∀ name, P name → ∀ state : Repository, r.keys ⊆ state.keys →
      resolveWithin source contentType depth name template state =
        resolveWithin source contentType depth' name template state) :
    ScopeStack.Simulation.Loaders ⟨contentType, template⟩ (resolveWithin source contentType depth)
      (resolveWithin source contentType depth') P (fun _ => False) (fun _ => False) Eq
      (fun state state' => state = state' ∧ r.keys ⊆ state.keys) Eq where
  lost _ _ _ hfalse := hfalse
  failed _ _ h := h.1
  load := by
    rintro name hname state _ ⟨rfl, hsub⟩
    have hgrows := (resolves_resolveWithin source contentType depth name template state).grows
    rw [← heq name hname state hsub]
    generalize resolveWithin source contentType depth name template state = result at hgrows
    obtain ⟨failure | slot, after⟩ := result
    · exact .failed rfl
    · exact .done rfl ⟨rfl, List.Subset.trans hsub (keys_subset_of_grows hgrows)⟩

/-- Once there are fewer ids left to compile than compilations may be nested, a greater depth changes
nothing. -/
theorem resolveWithin_eq_of_nesting {reached : String → Prop} {ids : Finset String}
    (name : String) (relativeTo : Option String) (r : Repository)
    (hconfined : Confined source reached ids r)
    (hreached : reached (source.templateId name relativeTo))
    (hdepth : (r.uncached ids).card < depth) (hle : depth ≤ depth') :
    resolveWithin source contentType depth name relativeTo r =
      resolveWithin source contentType depth' name relativeTo r := by
  induction depth generalizing depth' name relativeTo r with
  | zero => exact absurd hdepth (Nat.not_lt_zero _)
  | succ depth ih =>
    obtain ⟨depth', rfl⟩ := Nat.exists_eq_add_of_lt hle
    generalize hid : source.templateId name relativeTo = id at hreached
    cases hslot : r.slot? id with
    | some slot => rw [resolveWithin_of_cached hid hslot, resolveWithin_of_cached hid hslot]
    | none =>
      have hnew : id ∉ r.keys := slot?_eq_none_iff.mp hslot
      have hload : ∀ stream, source.tokens id = .ok stream → ∀ name ∈ stream.includedNames,
          ∀ state : Repository, (r.begun id contentType).keys ⊆ state.keys →
            resolveWithin source contentType depth name (some id) state =
              resolveWithin source contentType (depth + depth') name (some id) state := by
        intro stream htokens name hname state hsub
        have hstate : Confined source reached ids state :=
          hconfined.mono (List.Subset.trans (subset_keys_begun r id contentType) hsub)
        have hincluded : reached (source.templateId name (some id)) :=
          hconfined.closed id _ hreached hnew ⟨stream, htokens, name, hname, rfl⟩
        -- the compilation starts with one id less, and later on there are not more again
        have hleft : (state.uncached ids).card < depth := by
          calc (state.uncached ids).card
              ≤ ((r.begun id contentType).uncached ids).card := card_uncached_le hsub ids
            _ < (r.uncached ids).card :=
              card_uncached_begun_lt hnew (hconfined.listed id stream hreached hnew htokens)
            _ ≤ depth := Nat.lt_succ_iff.mp hdepth
        exact ih name (some id) state hstate hincluded hleft (Nat.le_add_right _ _)
      have hagree : Agree (fun _ => False) Eq Eq Eq
          (resolveWithin source contentType (depth + 1) name relativeTo r)
          (resolveWithin source contentType (depth + depth' + 1) name relativeTo r) :=
        agree_succ hid hslot (fun _ _ h => h.1) fun stream htokens =>
          (ScopeStack.Simulation.eq _).compileTemplate (loaders_of_eq (hload stream htokens)) _ _
            ⟨rfl, List.Subset.refl _⟩
      rcases hagree.lost_or_eq with ⟨_, _, hfalse⟩ | heq
      · exact hfalse.elim
      · exact heq

/-- Once there are fewer ids left to compile than compilations may be nested, a greater depth changes
nothing for a template that is not cached either. -/
theorem compileWithin_eq_of_nesting {reached : String → Prop} {ids : Finset String}
    (template : Option String) (stream : Stream) (r : Repository)
    (hconfined : Confined source reached ids r)
    (hreached : ∀ name ∈ stream.includedNames, reached (source.templateId name template))
    (hdepth : (r.uncached ids).card < depth) (hle : depth ≤ depth') :
    compileWithin source contentType depth template stream r =
      compileWithin source contentType depth' template stream r := by
  have hload : ∀ name ∈ stream.includedNames, ∀ state : Repository, r.keys ⊆ state.keys →
      resolveWithin source contentType depth name template state =
        resolveWithin source contentType depth' name template state := by
    intro name hname state hsub
    exact resolveWithin_eq_of_nesting name template state (hconfined.mono hsub) (hreached name hname)
      (Nat.lt_of_le_of_lt (card_uncached_le hsub ids) hdepth) hle
  have hagree := (ScopeStack.Simulation.eq ⟨contentType, template⟩).compileTemplate
    (loaders_of_eq hload) r r ⟨rfl, List.Subset.refl _⟩
  rw [compileWithin, compileWithin]
  generalize compileTemplate ⟨contentType, template⟩
    (some (resolveWithin source contentType depth)) stream r = result at hagree
  generalize compileTemplate ⟨contentType, template⟩
    (some (resolveWithin source contentType depth')) stream r = result' at hagree
  cases hagree with
  | lost hfalse => exact hfalse.elim
  | failed hstate =>
    obtain rfl := hstate
    rfl
  | done htemplate hstate =>
    obtain rfl := htemplate
    obtain ⟨rfl, _⟩ := hstate
    rfl

/-- What loading a template comes to where more compilations may be nested than there are ids left to
compile, is the answer. -/
theorem answers_of_confined {reached : String → Prop} {ids : Finset String}
    (hconfined : Confined source reached ids r)
    (hreached : reached (source.templateId name relativeTo))
    (hdepth : (r.uncached ids).card < depth) :
    Answers source contentType name relativeTo r
      (resolveWithin source contentType depth name relativeTo r) :=
  ⟨depth, fun _ hle =>
    (resolveWithin_eq_of_nesting name relativeTo r hconfined hreached hdepth hle).symm⟩

/-- Where the ids are finitely many that a template reaches by the tags of streams, loading it has an
answer. -/
theorem exists_answers (source : Source) (contentType : ContentType) (name : String)
    (relativeTo : Option String) (r : Repository)
    (hfinite : {id | Relation.ReflTransGen source.Includes (source.templateId name relativeTo) id}.Finite) :
    ∃ result, Answers source contentType name relativeTo r result := by
  have hconfined : Confined source
      (Relation.ReflTransGen source.Includes (source.templateId name relativeTo))
      hfinite.toFinset r := {
    closed := fun _ _ hreached _ hincludes => hreached.tail hincludes
    listed := fun _ _ hreached _ _ => hfinite.mem_toFinset.mpr hreached }
  exact ⟨_, answers_of_confined hconfined .refl (Nat.lt_succ_self _)⟩

/-- On a source that lists its ids, the answer is what `resolve` comes to. -/
theorem answers_resolve (source : FiniteSource) (contentType : ContentType) (name : String)
    (relativeTo : Option String) (r : Repository) :
    Answers source.toSource contentType name relativeTo r
      (resolve source contentType name relativeTo r) := by
  have hconfined : Confined source.toSource (fun _ => True) source.ids.eraseDups.toFinset r := {
    closed := fun _ _ _ _ _ => trivial
    listed := by
      intro id stream _ _ htokens
      rw [List.mem_toFinset, List.mem_eraseDups]
      exact source.mem_ids id stream htokens }
  refine answers_of_confined hconfined trivial ?_
  calc (r.uncached source.ids.eraseDups.toFinset).card
      ≤ source.ids.eraseDups.toFinset.card := Finset.card_filter_le _ _
    _ ≤ source.ids.eraseDups.length := List.toFinset_card_le _
    _ < nesting source := Nat.lt_succ_self _

end Repository

end Logicless
