import Logicless.Proofs.Compile.Simulation
import Logicless.Proofs.Repository.Session
import Mathlib.Data.List.Forall2

/-!
# Sources that word absences differently

Two sources may serve the same tokens and still say in different words that they have none. A repository
does not read these words. An id without tokens is cached and removed again, and the template that was to
include it fails at the same tag, with a detail that quotes the words. So with the one source and with the
other, a repository goes through the same states, and it fails at the same times. The failures differ in
the words of the absence at their end, and in the details that quote them.

## Shape of the proof

* `Failure.Reworded` relates such failures. Fault by fault, they have the same kind and the same place
  (`Failure.Reworded.akin`).
* `Echoes` compares what two computations come to. `ScopeStack.echoes_follow` is the induction on the
  tokens of a template, and `Repository.echoes_resolveWithin` the one on the nesting of compilations.
* `Source.Rewords` relates the sources and `Repository.Coincides` the repositories.
* `Session.Mirrors` relates the sessions; `mirrors_perform` is the step and `mirrors_run` the result.
-/

namespace Logicless

/-! ## Failures in other words -/

/-- Two failures are the same but for the words of an absence, and for the details of inclusions that
quote them. -/
inductive Failure.Reworded : Failure → Failure → Prop
  | same {failure : Failure} : Reworded failure failure
  | absence {absence absence' : Absence} :
      Reworded (Fault.notFound absence).alone (Fault.notFound absence').alone
  | inclusion {failure failure' : Failure} (setting : Setting) (citing : Option Token) (name : String)
      (h : Reworded failure failure') :
      Reworded (setting.inclusionFailure citing name failure).toFailure
        (setting.inclusionFailure citing name failure').toFailure

/-- Two faults of the same kind, at the same line of the same template if they are at a line. -/
inductive Fault.Akin : Fault → Fault → Prop
  | same {fault : Fault} : Akin fault fault
  | notFound {absence absence' : Absence} : Akin (.notFound absence) (.notFound absence')
  | located {kind : LocatedKind} {detail detail' : String} {line : Option Int} {template : Option String} :
      Akin (.located ⟨kind, detail, line, template⟩) (.located ⟨kind, detail', line, template⟩)

/-- Failures in other words have faults of the same kinds at the same places, all along their causes. -/
theorem Failure.Reworded.akin {failure failure' : Failure} (h : failure.Reworded failure') :
    List.Forall₂ Fault.Akin failure.faults failure'.faults := by
  induction h with
  | same => exact List.forall₂_same.mpr fun _ _ => .same
  | absence => exact .cons .notFound .nil
  | inclusion setting citing name _ ih => exact .cons .located ih

/-- How two compilations that give no template compare. -/
inductive Halt.Reworded : Halt → Halt → Prop
  | same {halt : Halt} : Reworded halt halt
  | recorded {failure failure' : LocatedFailure} (h : failure.toFailure.Reworded failure'.toFailure) :
      Reworded (.recorded failure) (.recorded failure')

theorem Halt.Reworded.failure {halt halt' : Halt} (h : halt.Reworded halt') :
    halt.failure.Reworded halt'.failure := by
  cases h with
  | same => exact .same
  | recorded h => exact h

/-! ## Compilations -/

section

variable {σ σ' ρ ε α : Type}

/-- The same value twice, or errors that are related. -/
inductive Alike (Errors : ε → ε → Prop) : Except ε α → Except ε α → Prop
  | failed {error error' : ε} (h : Errors error error') : Alike Errors (.error error) (.error error')
  | done {value : α} : Alike Errors (.ok value) (.ok value)

theorem Alike.refl {Errors : ε → ε → Prop} (h : ∀ error, Errors error error) (outcome : Except ε α) :
    Alike Errors outcome outcome := by
  cases outcome with
  | error error => exact .failed (h error)
  | ok value => exact .done

/-- Two computations with states come to alike results in related states. -/
structure Echoes (Errors : ε → ε → Prop) (Kept : σ → σ' → Prop) (result : Except ε α × σ)
    (result' : Except ε α × σ') : Prop where
  alike : Alike Errors result.1 result'.1
  kept : Kept result.2 result'.2

/-- Two computations either fail or come to a value. -/
theorem Echoes.cases {Errors : ε → ε → Prop} {Kept : σ → σ' → Prop} {result : Except ε α × σ}
    {result' : Except ε α × σ'} (h : Echoes Errors Kept result result') :
    (∃ error error' state state', result = (.error error, state) ∧ result' = (.error error', state') ∧
        Errors error error' ∧ Kept state state') ∨
      ∃ value state state', result = (.ok value, state) ∧ result' = (.ok value, state') ∧
        Kept state state' := by
  obtain ⟨answer, state⟩ := result
  obtain ⟨answer', state'⟩ := result'
  obtain ⟨halike, hkept⟩ := h
  cases halike with
  | failed herror => exact .inl ⟨_, _, state, state', rfl, rfl, herror, hkept⟩
  | done => exact .inr ⟨_, state, state', rfl, rfl, hkept⟩

variable (setting : Setting) {loader : Loader σ ρ} {loader' : Loader σ' ρ} {Kept : σ → σ' → Prop}
  {state : σ} {state' : σ'}

/-- From the same open tags on, the same tokens come to the same if the loaders answer alike. -/
theorem ScopeStack.echoes_follow
    (hload : ∀ name state state', Kept state state' →
      Echoes Failure.Reworded Kept (loader name setting.template state)
        (loader' name setting.template state'))
    (ending : Option Failure) (tokens : List Token) (stack : ScopeStack ρ) (hkept : Kept state state') :
    Echoes Halt.Reworded Kept (stack.follow setting loader ending tokens state)
      (stack.follow setting loader' ending tokens state') := by
  induction tokens generalizing stack state state' with
  | nil =>
    rw [ScopeStack.follow, ScopeStack.follow]
    exact ⟨.refl (fun _ => .same) _, hkept⟩
  | cons token tokens ih =>
    rw [ScopeStack.follow, ScopeStack.follow]
    cases stack.move setting token with
    | proceed next => exact ih next hkept
    | refuse failure => exact ⟨.failed .same, hkept⟩
    | breach breach => exact ⟨.failed .same, hkept⟩
    | load name citing resume =>
      rcases (hload name state state' hkept).cases with
        ⟨failure, failure', after, after', hloaded, hloaded', hreworded, hkept⟩ |
        ⟨target, after, after', hloaded, hloaded', hkept⟩
      · -- the words go into the detail of the inclusion and nowhere else
        simp only [hloaded, hloaded']
        exact ⟨.failed (.recorded (.inclusion setting citing name hreworded)), hkept⟩
      · simp only [hloaded, hloaded']
        exact ih (resume target) hkept

/-- The same stream is compiled to the same if the loaders answer alike. -/
theorem echoes_compileTemplate
    (hload : ∀ name state state', Kept state state' →
      Echoes Failure.Reworded Kept (loader name setting.template state)
        (loader' name setting.template state'))
    (stream : Stream) (hkept : Kept state state') :
    Echoes Halt.Reworded Kept (compileTemplate setting (some loader) stream state)
      (compileTemplate setting (some loader') stream state') := by
  cases stream with
  | unopened failure => exact ⟨.failed .same, hkept⟩
  | opened tokens ending =>
    rw [compileTemplate_eq_follow, compileTemplate_eq_follow]
    exact ScopeStack.echoes_follow setting hload _ _ _ hkept

end

/-! ## Repositories -/

/-- Two sources take the same names for the same ids and serve the same tokens. Where they have none, they
say so in other words at most. -/
structure Source.Rewords (source source' : Source) : Prop where
  templateId : source.templateId = source'.templateId
  tokens : ∀ id, Alike Failure.Reworded (source.tokens id) (source'.tokens id)

namespace Repository

/-- Two repositories have the same store and the same cache. What they have reported may differ. -/
structure Coincides (r r' : Repository) : Prop where
  store : r.store = r'.store
  cache : r.cache = r'.cache

namespace Coincides

variable {r r' : Repository}

theorem slot?_eq (h : r.Coincides r') (id : String) : r.slot? id = r'.slot? id := by
  rw [slot?, h.cache, slot?]

theorem cachedIds_eq (h : r.Coincides r') : r.cachedIds = r'.cachedIds := by
  rw [cachedIds, h.cache, h.store, cachedIds]

/-- Reports make no difference. -/
theorem report (h : r.Coincides r') (event event' : Event) :
    (r.report event).Coincides (r'.report event') :=
  ⟨h.store, h.cache⟩

theorem halted (h : r.Coincides r') (template : Option String) (halt halt' : Halt) :
    (r.halted template halt).Coincides (r'.halted template halt') := by
  cases halt <;> cases halt' <;> exact ⟨h.store, h.cache⟩

theorem begun (h : r.Coincides r') (id : String) (contentType : ContentType) :
    (r.begun id contentType).Coincides (r'.begun id contentType) := by
  constructor
  · rw [Repository.begun, Repository.begun]
    simp [reserve, Repository.report, h.store]
  · rw [cache_begun, cache_begun, h.cache, h.store]

theorem evict (h : r.Coincides r') (id : String) : (r.evict id).Coincides (r'.evict id) := by
  refine ⟨h.store, ?_⟩
  simp [Repository.evict, Repository.report, h.cache]

theorem clear (h : r.Coincides r') : r.clear.Coincides r'.clear :=
  ⟨h.store, rfl⟩

theorem complete (h : r.Coincides r') (slot : Slot) (template : Template Unit Slot) :
    Echoes Failure.Reworded Coincides (r.complete slot template) (r'.complete slot template) := by
  rw [Repository.complete, Repository.complete, h.store]
  split
  · exact ⟨.done, rfl, h.cache⟩
  · exact ⟨.failed .same, h⟩

end Coincides

variable {source source' : Source} {r r' : Repository}

/-- A template is loaded from both sources alike. -/
theorem echoes_resolveWithin (h : source.Rewords source') (contentType : ContentType) (depth : Nat)
    (name : String) (relativeTo : Option String) (hr : r.Coincides r') :
    Echoes Failure.Reworded Coincides (resolveWithin source contentType depth name relativeTo r)
      (resolveWithin source' contentType depth name relativeTo r') := by
  induction depth generalizing name relativeTo r r' with
  | zero => exact ⟨.failed .same, hr⟩
  | succ depth ih =>
    generalize hid : source.templateId name relativeTo = id
    have hid' : source'.templateId name relativeTo = id := by rw [← h.templateId, hid]
    have hslots := hr.slot?_eq id
    cases hslot : r.slot? id with
    | some slot =>
      rw [resolveWithin_of_cached hid hslot, resolveWithin_of_cached hid' (hslots ▸ hslot), hr.store]
      refine ⟨.done, ?_⟩
      dsimp only
      split
      · exact hr.report _ _
      · exact hr
    | none =>
      have hslot' : r'.slot? id = none := hslots ▸ hslot
      have htokens := h.tokens id
      have hbegun := hr.begun id contentType
      generalize hstream : source.tokens id = provided at htokens
      generalize hstream' : source'.tokens id = provided' at htokens
      cases htokens with
      | failed hreworded =>
        -- whatever the words are, the id is removed again
        rw [resolveWithin_of_no_tokens hid hslot hstream, resolveWithin_of_no_tokens hid' hslot' hstream']
        exact ⟨.failed hreworded, hbegun.evict id⟩
      | @done stream =>
        have hechoes := echoes_compileTemplate ⟨contentType, some id⟩
          (fun name _ _ hkept => ih name (some id) hkept) stream hbegun
        rcases hechoes.cases with
          ⟨halt, halt', after, after', hcompile, hcompile', hreworded, hkept⟩ |
          ⟨template, after, after', hcompile, hcompile', hkept⟩
        · rw [resolveWithin_of_halted hid hslot hstream hcompile,
            resolveWithin_of_halted hid' hslot' hstream' hcompile']
          exact ⟨.failed hreworded.failure, (hkept.halted _ _ _).evict id⟩
        · rw [resolveWithin_of_compiled hid hslot hstream hcompile,
            resolveWithin_of_compiled hid' hslot' hstream' hcompile', hr.store]
          exact hkept.complete _ template

/-- A template that is not cached is compiled alike, whichever source its inclusions are from. -/
theorem echoes_compileWithin (h : source.Rewords source') (contentType : ContentType) (depth : Nat)
    (template : Option String) (stream : Stream) (hr : r.Coincides r') :
    Echoes Failure.Reworded Coincides (compileWithin source contentType depth template stream r)
      (compileWithin source' contentType depth template stream r') := by
  have hechoes := echoes_compileTemplate ⟨contentType, template⟩
    (fun name _ _ hkept => echoes_resolveWithin h contentType depth name template hkept) stream hr
  rw [compileWithin, compileWithin]
  rcases hechoes.cases with
    ⟨halt, halt', after, after', hcompile, hcompile', hreworded, hkept⟩ |
    ⟨compiled, after, after', hcompile, hcompile', hkept⟩
  · simp only [hcompile, hcompile']
    exact ⟨.failed hreworded.failure, hkept.halted _ _ _⟩
  · simp only [hcompile, hcompile', hkept.store]
    exact ⟨.done, rfl, hkept.cache⟩

end Repository

/-! ## Sessions -/

namespace Session

open Repository

/-- Two sessions are over sources that differ in words at most, and they have come to the same. -/
structure Mirrors (session session' : Session) : Prop where
  source : session.source.Rewords session'.source
  contentType : session.contentType = session'.contentType
  repository : session.repository.Coincides session'.repository
  answers : List.Forall₂ (Alike Failure.Reworded) session.answers session'.answers

variable {session session' : Session}

theorem Mirrors.answered (h : session.Mirrors session') {result result' : Except Failure Slot × Repository}
    (hechoes : Echoes Failure.Reworded Coincides result result') :
    (session.answered result).Mirrors (session'.answered result') where
  source := h.source
  contentType := h.contentType
  repository := hechoes.kept
  answers := .cons hechoes.alike h.answers

/-- The same operation leaves the sessions with the same. -/
theorem mirrors_perform (h : session.Mirrors session') (operation : Operation) :
    (session.perform operation).Mirrors (session'.perform operation) := by
  cases operation with
  | resolve depth name relativeTo =>
    simp only [perform]
    rw [← h.contentType]
    exact h.answered (echoes_resolveWithin h.source _ depth name relativeTo h.repository)
  | compile depth template stream =>
    simp only [perform]
    rw [← h.contentType]
    exact h.answered (echoes_compileWithin h.source _ depth template stream h.repository)
  | clear => exact ⟨h.source, h.contentType, h.repository.clear, h.answers⟩
  | serve tokens =>
    have htokens : ∀ id, Alike Failure.Reworded (tokens id) (tokens id) :=
      fun id => .refl (fun _ => .same) (tokens id)
    exact ⟨⟨h.source.templateId, htokens⟩, h.contentType, h.repository, h.answers⟩

theorem mirrors_foldl (operations : List Operation) (h : session.Mirrors session') :
    (operations.foldl perform session).Mirrors (operations.foldl perform session') := by
  induction operations generalizing session session' with
  | nil => exact h
  | cons operation operations ih => exact ih (mirrors_perform h operation)

/-- Sessions with the same operations come to the same. -/
theorem mirrors_run {source source' : Source} (h : source.Rewords source') (contentType : ContentType)
    (operations : List Operation) :
    (run source contentType operations).Mirrors (run source' contentType operations) :=
  mirrors_foldl operations ⟨h, rfl, ⟨rfl, rfl⟩, .nil⟩

end Session

end Logicless
