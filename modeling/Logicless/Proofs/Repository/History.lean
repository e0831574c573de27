import Logicless.Proofs.Repository.Exhibit
import Logicless.Proofs.Repository.WellFormed

/-!
# The history of a cache

What is cached cuts off parts of a compilation, and cycles of templates may have been entered from
anywhere. Still no user of a repository can tell what was loaded before: a template is handed out or fails
to load in any two repositories alike, with the same failure or with templates that cannot be told apart.

## Shape of the proof

* `Repository.Alike` relates two repositories while both load the same template: what one of them has
  cached and the other has not is well-formed and includes nothing but what the first one has cached.
* `agree_of_alike` is the induction. Where both have cached an id, or neither has, they do the same. Where
  only one has, the other one is bound to load it, since it is ready.
* `Indistinguishable` compares what two repositories hand out, by unfoldings and texts. In both, the slot
  shows the same id, and what it shows is up to the source (`indistinguishable_of_cached`).
* `Session.history_unobservable` is the result.
-/

namespace Logicless

namespace Repository

variable {source : Source} {contentType : ContentType} {name id : String} {relativeTo : Option String}
  {extra : Finset String} {r r' w w' : Repository} {depth depth' : Nat}

/-! ## Two repositories side by side -/

/-- What is cached in one of two repositories and not in the other is ready there. What is cached in the
first one alone is among the ids `extra`. -/
structure Alike (source : Source) (contentType : ContentType) (extra : Finset String)
    (r w : Repository) : Prop where
  left : Ready source contentType (· ∈ w.keys) r
  right : Ready source contentType (· ∈ r.keys) w
  extra : ∀ id ∈ r.keys, id ∉ w.keys → id ∈ extra

namespace Alike

/-- The first repository catches up with the second one. -/
theorem extend_left (h : Alike source contentType extra r w) (hextends : Extends (· ∈ w.keys) r r') :
    Alike source contentType extra r' w := by
  have hearlier : ∀ id ∈ r'.keys, id ∉ w.keys → id ∈ r.keys := fun id hid hnew =>
    (hextends.reached id hid).resolve_right hnew
  refine ⟨h.left.mono hextends.subset, fun id hid hnew => ?_, fun id hid hnew => ?_⟩
  · obtain ⟨hwellFormed, hclosed⟩ := h.right id (hearlier id hid hnew) hnew
    exact ⟨hwellFormed, fun id' hincludes => hextends.subset (hclosed id' hincludes)⟩
  · exact h.extra id (hearlier id hid hnew) hnew

/-- The second repository catches up with the first one. -/
theorem extend_right (h : Alike source contentType extra r w) (hextends : Extends (· ∈ r.keys) w w') :
    Alike source contentType extra r w' := by
  refine ⟨fun id hid hnew => ?_, h.right.mono hextends.subset, fun id hid hnew => ?_⟩
  · obtain ⟨hwellFormed, hclosed⟩ := h.left id ((hextends.reached id hid).resolve_right hnew) hnew
    exact ⟨hwellFormed, fun id' hincludes => hextends.subset (hclosed id' hincludes)⟩
  · exact h.extra id hid fun hmem => hnew (hextends.subset hmem)

/-- Only the ids that are cached matter. -/
theorem of_keys_eq (h : Alike source contentType extra r w) (hr : r'.keys = r.keys)
    (hw : w'.keys = w.keys) : Alike source contentType extra r' w' :=
  (h.extend_left (Extends.refl.of_keys_eq hr)).extend_right (Extends.refl.of_keys_eq hw)

/-- Both repositories start the compilation of an id. -/
theorem begun (h : Alike source contentType extra r w) (id : String) :
    Alike source contentType extra (r.begun id contentType) (w.begun id contentType) := by
  have hearlier : ∀ {r w : Repository}, ∀ key ∈ (r.begun id contentType).keys,
      key ∉ (w.begun id contentType).keys → key ∈ r.keys ∧ key ∉ w.keys := by
    intro r w key hkey hnew
    rw [keys_begun, List.mem_append, List.mem_singleton] at hkey hnew
    obtain ⟨hnew, hne⟩ := not_or.mp hnew
    exact ⟨hkey.resolve_right hne, hnew⟩
  refine ⟨fun key hkey hnew => ?_, fun key hkey hnew => ?_, fun key hkey hnew => ?_⟩
  · obtain ⟨hkey, hnew⟩ := hearlier key hkey hnew
    obtain ⟨hwellFormed, hclosed⟩ := h.left key hkey hnew
    exact ⟨hwellFormed, fun id' hincludes => subset_keys_begun w id contentType (hclosed id' hincludes)⟩
  · obtain ⟨hkey, hnew⟩ := hearlier key hkey hnew
    obtain ⟨hwellFormed, hclosed⟩ := h.right key hkey hnew
    exact ⟨hwellFormed, fun id' hincludes => subset_keys_begun r id contentType (hclosed id' hincludes)⟩
  · obtain ⟨hkey, hnew⟩ := hearlier key hkey hnew
    exact h.extra key hkey hnew

end Alike

/-- Where neither repository has cached an id, both compile it, and they do the same if they do so for
the templates that it includes. -/
theorem agree_of_uncached (h : Alike source contentType extra r w)
    (hload : ∀ name r w, Alike source contentType extra r w →
      Agree (Failure.Exceeds depth) (fun _ _ => True) (Alike source contentType extra) (fun _ _ => True)
        (resolveWithin source contentType depth name (some id) r)
        (resolveWithin source contentType depth' name (some id) w))
    (hid : source.templateId name relativeTo = id) (hleft : r.slot? id = none)
    (hright : w.slot? id = none) :
    Agree (Failure.Exceeds (depth + 1)) (fun _ _ => True) (Alike source contentType extra)
      (fun _ _ => True) (resolveWithin source contentType (depth + 1) name relativeTo r)
      (resolveWithin source contentType (depth' + 1) name relativeTo w) := by
  cases htokens : source.tokens id with
  | error failure =>
    rw [resolveWithin_of_no_tokens hid hleft htokens, resolveWithin_of_no_tokens hid hright htokens]
    exact .failed trivial
  | ok stream =>
    have hloaders : ScopeStack.Simulation.Loaders ⟨contentType, some id⟩
        (resolveWithin source contentType depth) (resolveWithin source contentType depth')
        (· ∈ stream.includedNames) (Failure.Exceeds depth)
        (fun halt => halt.failure.Exceeds (depth + 1)) (fun _ _ => True)
        (Alike source contentType extra) (fun _ _ => True) := {
      lost := fun citing name failure hlost => hlost.inclusion _ citing name
      failed := fun _ _ _ => trivial
      load := fun name _ r w halike => hload name r w halike }
    have hagree := (ScopeStack.Simulation.shape _).compileTemplate hloaders _ _ (h.begun id)
    generalize hcompile : compileTemplate ⟨contentType, some id⟩
      (some (resolveWithin source contentType depth)) stream (r.begun id contentType) = left at hagree
    generalize hcompile' : compileTemplate ⟨contentType, some id⟩
      (some (resolveWithin source contentType depth')) stream (w.begun id contentType) = right
      at hagree
    cases hagree with
    | lost hlost =>
      rw [resolveWithin_of_halted hid hleft htokens hcompile]
      exact .lost hlost
    | failed _ =>
      rw [resolveWithin_of_halted hid hleft htokens hcompile,
        resolveWithin_of_halted hid hright htokens hcompile']
      exact .failed trivial
    | done _ halike =>
      obtain ⟨slot, after, hresolved, hkeys⟩ :=
        exists_resolveWithin_of_compiled hid hleft htokens hcompile
      obtain ⟨slot', after', hresolved', hkeys'⟩ :=
        exists_resolveWithin_of_compiled hid hright htokens hcompile'
      rw [hresolved, hresolved']
      exact .done trivial (halike.of_keys_eq hkeys hkeys')

/-- Two repositories that are alike do the same where each of them loads a template. The second one has
room for all ids that are cached in the first one alone. -/
theorem agree_of_alike (name : String) (relativeTo : Option String)
    (h : Alike source contentType extra r w) (hdepth : depth + extra.card ≤ depth') :
    Agree (Failure.Exceeds depth) (fun _ _ => True) (Alike source contentType extra) (fun _ _ => True)
      (resolveWithin source contentType depth name relativeTo r)
      (resolveWithin source contentType depth' name relativeTo w) := by
  -- the second depth stays ahead of the first one by the ids that the second repository may lack
  induction depth generalizing depth' name relativeTo r w with
  | zero => exact .lost Nat.zero_lt_one
  | succ depth ih =>
    obtain ⟨depth', rfl⟩ : ∃ deeper, depth' = deeper + 1 := ⟨depth' - 1, by omega⟩
    generalize hid : source.templateId name relativeTo = id
    cases hleft : r.slot? id with
    | some slot =>
      obtain ⟨after, hresolved, hkeys⟩ :=
        exists_resolveWithin_of_cached contentType depth hid hleft
      rw [hresolved]
      cases hright : w.slot? id with
      | some slot' =>
        obtain ⟨after', hresolved', hkeys'⟩ :=
          exists_resolveWithin_of_cached contentType depth' hid hright
        rw [hresolved']
        exact .done trivial (h.of_keys_eq hkeys hkeys')
      | none =>
        obtain ⟨slot', after', hresolved', hextends⟩ := exists_resolveWithin_of_ready h.right h.extra
          (hid ▸ mem_keys_of_slot? hleft) (show extra.card < depth' + 1 by omega)
        rw [hresolved']
        exact .done trivial ((h.extend_right hextends).of_keys_eq hkeys rfl)
    | none =>
      cases hright : w.slot? id with
      | some slot' =>
        obtain ⟨after', hresolved', hkeys'⟩ :=
          exists_resolveWithin_of_cached contentType depth' hid hright
        have hagree := agree_of_ready (depth + 1) h.left (hid ▸ mem_keys_of_slot? hright)
        rw [hresolved']
        generalize resolveWithin source contentType (depth + 1) name relativeTo r = left at hagree
        cases hagree with
        | lost hlost => exact .lost hlost
        | done _ hextends => exact .done trivial ((h.extend_left hextends).of_keys_eq rfl hkeys')
      | none =>
        exact agree_of_uncached h (fun name _ _ halike => ih name (some id) halike (by omega)) hid
          hleft hright

/-- Repositories between operations are alike. -/
theorem alike_of_faithful (hr : Sound source.templateId r) (hr' : Faithful source contentType r)
    (hw : Sound source.templateId w) (hw' : Faithful source contentType w) :
    Alike source contentType r.keys.toFinset r w where
  left _ hid _ := hw'.wellFormed_of_mem hw hid
  right _ hid _ := hr'.wellFormed_of_mem hr hid
  extra _ hid _ := List.mem_toFinset.mpr hid

/-- Where loading a template has an answer in one of two repositories that are alike, it has one in the
other, and both answers are failures with the same causes, or none is a failure. -/
theorem Answers.of_alike {result : Except Failure Slot × Repository}
    (h : Alike source contentType extra r w)
    (hanswers : Answers source contentType name relativeTo r result) :
    ∃ result', Answers source contentType name relativeTo w result' ∧
      Agree (fun _ => False) (fun _ _ => True) (Alike source contentType extra) (fun _ _ => True) result
        result' := by
  obtain ⟨depth, hdepth, hlost⟩ := hanswers.exists_depth
  have hagree := agree_of_alike name relativeTo h (Nat.le_refl (depth + extra.card))
  rw [hdepth] at hagree
  generalize hdeeper : resolveWithin source contentType (depth + extra.card) name relativeTo w = result'
    at hagree
  refine ⟨result', ?_⟩
  cases hagree with
  | lost hexceeds => exact absurd hexceeds (hlost _ rfl)
  | failed _ =>
    -- the failure is the same one, so at the greater depth it is not for want of depth either
    refine ⟨answers_of_not_exceeds hdeeper fun failure hfailure hexceeds => ?_, .failed trivial⟩
    exact hlost failure hfailure (hexceeds.mono (Nat.le_add_right _ _))
  | done _ halike => exact ⟨answers_of_ok hdeeper, .done trivial halike⟩

end Repository

/-! ## What can be observed -/

open Repository

/-- Two results of loading a template cannot be told apart: they are the same failure, or templates that
unfold to the same trees and have the same texts with the same values around them, whatever values and
filters there are. -/
inductive Indistinguishable :
    Except Failure Slot × Repository → Except Failure Slot × Repository → Prop
  /-- The same failure. -/
  | failed {failure : Failure} {r w : Repository} :
      Indistinguishable (.error failure, r) (.error failure, w)
  /-- Templates with the same unfoldings and the same texts, at every depth. -/
  | loaded {slot slot' : Slot} {r w : Repository}
      (hunfold : ∀ depth, r.store.unfold depth slot = w.store.unfold depth slot')
      (hrender : ∀ {ε : Type} {D : Domain ε} depth (values : List D.Carrier),
        r.store.render depth (values.map .value) slot =
          w.store.render depth (values.map .value) slot') :
      Indistinguishable (.ok slot, r) (.ok slot', w)

section Loaded

variable {source : Source} {contentType : ContentType} {root : String} {slot slot' : Slot}
  {r w : Repository}

/-- What two repositories have cached under an id cannot be told apart. -/
theorem indistinguishable_of_cached (hr : Sound source.templateId r)
    (hr' : Faithful source contentType r) (hslot : r.slot? root = some slot)
    (hw : Sound source.templateId w) (hw' : Faithful source contentType w)
    (hslot' : w.slot? root = some slot') : Indistinguishable (.ok slot, r) (.ok slot', w) := by
  have hexhibits := hr'.exhibits hr
  have hexhibits' := hw'.exhibits hw
  -- both slots show the same id, and the source says what that is
  have hshows := hexhibits.shows _ (mem_cache_of_slot? hslot)
  have hshows' := hexhibits'.shows _ (mem_cache_of_slot? hslot')
  refine .loaded (fun depth => ?_) fun depth values => ?_
  · rw [hexhibits.unfold_eq hshows, hexhibits'.unfold_eq hshows']
  · rw [hexhibits.render_eq hshows, hexhibits'.render_eq hshows']

/-- A template has an answer in the one repository wherever it has one in the other, and the two answers
cannot be told apart. -/
theorem exists_indistinguishable_answer {name : String} {relativeTo : Option String}
    {result : Except Failure Slot × Repository} (hr : Sound source.templateId r)
    (hr' : Faithful source contentType r) (hw : Sound source.templateId w)
    (hw' : Faithful source contentType w)
    (hresult : Answers source contentType name relativeTo r result) :
    ∃ result', Answers source contentType name relativeTo w result' ∧
      Indistinguishable result result' := by
  obtain ⟨result', hresult', hagree⟩ := hresult.of_alike (alike_of_faithful hr hr' hw hw')
  refine ⟨result', hresult', ?_⟩
  cases hagree with
  | lost hfalse => exact hfalse.elim
  | failed => exact .failed
  | done =>
    obtain ⟨bound, hresult⟩ := hresult
    obtain ⟨bound', hresult'⟩ := hresult'
    obtain ⟨hr, hr', hslot⟩ := loaded_of_resolveWithin hr hr' (hresult bound (Nat.le_refl _))
    obtain ⟨hw, hw', hslot'⟩ := loaded_of_resolveWithin hw hw' (hresult' bound' (Nat.le_refl _))
    exact indistinguishable_of_cached hr hr' hslot hw hw' hslot'

end Loaded

namespace Session

/-- What was loaded before is not observable. Wherever loading a template has an answer, it has an answer
after any other history, and the two cannot be told apart. There are such answers where the ids that the
template reaches are finitely many. On a source that lists its ids, what `resolve` comes to after one
history cannot be told apart from what it comes to after another one. -/
theorem history_unobservable (source : Source) (contentType : ContentType)
    (operations operations' : List Operation)
    (hkeeps : ∀ operation ∈ operations, operation.KeepsSource)
    (hkeeps' : ∀ operation ∈ operations', operation.KeepsSource) (name : String)
    (relativeTo : Option String) :
    let repository := (run source contentType operations).repository
    let repository' := (run source contentType operations').repository
    (∀ result, Answers source contentType name relativeTo repository result →
        ∃ result', Answers source contentType name relativeTo repository' result' ∧
          Indistinguishable result result') ∧
      ({id | Relation.ReflTransGen source.Includes (source.templateId name relativeTo) id}.Finite →
        ∃ result result', Answers source contentType name relativeTo repository result ∧
          Answers source contentType name relativeTo repository' result' ∧
          Indistinguishable result result') ∧
      ∀ ids mem_ids, Indistinguishable
        (resolve ⟨source, ids, mem_ids⟩ contentType name relativeTo repository)
        (resolve ⟨source, ids, mem_ids⟩ contentType name relativeTo repository') := by
  intro repository repository'
  obtain ⟨hsound, hfaithful⟩ := faithful_run source contentType hkeeps
  obtain ⟨hsound', hfaithful'⟩ := faithful_run source contentType hkeeps'
  have hanswers : ∀ result, Answers source contentType name relativeTo repository result →
      ∃ result', Answers source contentType name relativeTo repository' result' ∧
        Indistinguishable result result' :=
    fun _ => exists_indistinguishable_answer hsound hfaithful hsound' hfaithful'
  refine ⟨hanswers, fun hfinite => ?_, fun ids mem_ids => ?_⟩
  · obtain ⟨result, hresult⟩ :=
      exists_answers source contentType name relativeTo repository hfinite
    obtain ⟨result', hresult', hsame⟩ := hanswers result hresult
    exact ⟨result, result', hresult, hresult', hsame⟩
  · obtain ⟨result', hresult', hsame⟩ := hanswers _
      (answers_resolve ⟨source, ids, mem_ids⟩ contentType name relativeTo repository)
    rwa [(answers_resolve ⟨source, ids, mem_ids⟩ contentType name relativeTo repository').unique
      hresult']

/-- The page is in another slot where its part was loaded before it, after a template that there is none
of. The difference cannot be observed. -/
theorem history_unobservable_mutualPage :
    let operations := [.resolve 3 "missing" none, .resolve 3 "part" none]
    let repository := (run mutualPage .html []).repository
    let repository' := (run mutualPage .html operations).repository
    (∀ operation ∈ operations, operation.KeepsSource) ∧
      ∃ after after', Answers mutualPage .html "page" none repository (.ok ⟨0⟩, after) ∧
        Answers mutualPage .html "page" none repository' (.ok ⟨2⟩, after') ∧
        Indistinguishable (.ok ⟨0⟩, after) (.ok ⟨2⟩, after') := by
  intro operations repository repository'
  have hkeeps : ∀ operation ∈ operations, operation.KeepsSource := by
    simp [operations, Operation.KeepsSource]
  have hresolved : ∃ after,
      resolveWithin mutualPage .html 3 "page" none repository = (.ok ⟨0⟩, after) := ⟨_, rfl⟩
  have hresolved' : ∃ after',
      resolveWithin mutualPage .html 3 "page" none repository' = (.ok ⟨2⟩, after') := ⟨_, rfl⟩
  obtain ⟨after, hresolved⟩ := hresolved
  obtain ⟨after', hresolved'⟩ := hresolved'
  refine ⟨hkeeps, after, after', answers_of_ok hresolved, answers_of_ok hresolved', ?_⟩
  obtain ⟨result', hresult', hsame⟩ :=
    (history_unobservable mutualPage .html [] operations (by simp) hkeeps "page" none).1 _
      (answers_of_ok hresolved)
  rwa [hresult'.unique (answers_of_ok hresolved')] at hsame

end Session

end Logicless
