import Logicless.Proofs.Repository.Session

/-!
# Invariants of a repository

A repository changes by few things: something is reported, the compilation of an id begins or ends, and
a template that is not cached goes into the store. Whatever each of them keeps is kept by all that a
repository does, with any number of compilations nested in each other.

## Shape of the module

* `Repository.Keeps` collects what is asked of an invariant. When a compilation ends, its slot is still
  the one of the id, and the template is what the stream compiles to.
* `Keeps.resolveWithin` and `Keeps.compileWithin` are the rule for the two operations, and
  `Session.invariant_foldl` is the rule for sessions, in which the source may change.
-/

namespace Logicless

namespace Repository

variable {source : Source} {contentType : ContentType} {I : Repository → Prop} {r : Repository}

/-- A compilation keeps what all loads keep. -/
theorem invariant_compileTemplate (I : Repository → Prop) {setting : Setting}
    {loader : Loader Repository Slot}
    (hload : ∀ name s, I s → I (loader name setting.template s).2) (stream : Stream) (hr : I r) :
    I (compileTemplate setting (some loader) stream r).2 :=
  state_of_compileTemplate (R := fun s s' => I s → I s') (fun _ hs => hs)
    (fun hst htu hs => htu (hst hs)) hload stream r hr

/-- Each of the changes of a repository keeps a property. -/
structure Keeps (source : Source) (contentType : ContentType) (I : Repository → Prop) : Prop where
  report : ∀ {r} event, I r → I (r.report event)
  begun : ∀ {r} id, I r → I (r.begun id contentType)
  evict : ∀ {r} id, I r → I (r.evict id)
  complete : ∀ {r before : Repository} {id slot stream loader template}, I r → (id, slot) ∈ r.cache →
    source.tokens id = .ok stream →
      compileTemplate ⟨contentType, some id⟩ (some loader) stream before = (.ok template, r) →
        I (r.complete slot template).2
  insert : ∀ {r before : Repository} {setting stream loader template}, I r →
    compileTemplate setting (some loader) stream before = (.ok template, r) →
      I { r with store := (r.store.insert template).2 }

namespace Keeps

theorem halted (h : Keeps source contentType I) (template : Option String) (halt : Halt) (hr : I r) :
    I (r.halted template halt) := by
  cases halt with
  | recorded failure => exact h.report _ hr
  | escaped failure => exact hr

/-- Loading a template keeps an invariant, whatever comes of it. -/
theorem resolveWithin (h : Keeps source contentType I) (fuel : Nat) (name : String)
    (relativeTo : Option String) (hr : I r) :
    I (Repository.resolveWithin source contentType fuel name relativeTo r).2 := by
  induction fuel generalizing name relativeTo r with
  | zero => exact hr
  | succ fuel ih =>
    generalize hid : source.templateId name relativeTo = id
    cases hslot : r.slot? id with
    | some slot =>
      rw [resolveWithin_of_cached hid hslot]
      dsimp only
      split
      · exact h.report _ hr
      · exact hr
    | none =>
      cases htokens : source.tokens id with
      | error failure =>
        rw [resolveWithin_of_no_tokens hid hslot htokens]
        exact h.evict id (h.begun id hr)
      | ok stream =>
        have hcompiled : I (compileTemplate ⟨contentType, some id⟩
            (some (Repository.resolveWithin source contentType fuel)) stream
              (r.begun id contentType)).2 :=
          invariant_compileTemplate I (fun name s hs => ih name (some id) hs) stream (h.begun id hr)
        have hgrows := (resolves_resolveWithin source contentType fuel).grows_compileTemplate
          ⟨contentType, some id⟩ stream (r.begun id contentType)
        rcases hcompile : compileTemplate ⟨contentType, some id⟩
          (some (Repository.resolveWithin source contentType fuel)) stream
            (r.begun id contentType) with ⟨halt | template, after⟩
        · rw [hcompile] at hcompiled
          rw [resolveWithin_of_halted hid hslot htokens hcompile]
          exact h.evict id (h.halted (some id) halt hcompiled)
        · rw [hcompile] at hcompiled hgrows
          obtain ⟨added, hgrows⟩ := hgrows
          rw [resolveWithin_of_compiled hid hslot htokens hcompile]
          -- the slot that the compilation began with is still the one of the id
          refine h.complete hcompiled ?_ htokens hcompile
          rw [cache_of_begun hgrows]
          simp

/-- Compiling a template that is not cached keeps an invariant, whatever comes of it. -/
theorem compileWithin (h : Keeps source contentType I) (fuel : Nat) (template : Option String)
    (stream : Stream) (hr : I r) :
    I (Repository.compileWithin source contentType fuel template stream r).2 := by
  have hcompiled : I (compileTemplate ⟨contentType, template⟩
      (some (Repository.resolveWithin source contentType fuel)) stream r).2 :=
    invariant_compileTemplate I (fun name s hs => h.resolveWithin fuel name template hs) stream hr
  rw [Repository.compileWithin]
  split
  · rename_i compiled after hcompile
    rw [hcompile] at hcompiled
    exact h.insert hcompiled hcompile
  · rename_i halt after hcompile
    rw [hcompile] at hcompiled
    exact h.halted template halt hcompiled

end Keeps

end Repository

namespace Session

variable {I : Repository → Prop}

/-- What every change keeps, with any source, holds throughout a session. -/
theorem invariant_foldl (hkeeps : ∀ source contentType, Repository.Keeps source contentType I)
    (hclear : ∀ {r}, I r → I r.clear) (operations : List Operation) {session : Session}
    (h : I session.repository) : I (operations.foldl perform session).repository := by
  induction operations generalizing session with
  | nil => exact h
  | cons operation operations ih =>
    refine ih ?_
    cases operation with
    | resolve depth name relativeTo => exact (hkeeps _ _).resolveWithin depth name relativeTo h
    | compile depth template stream => exact (hkeeps _ _).compileWithin depth template stream h
    | clear => exact hclear h
    | serve tokens => exact h

end Session

end Logicless
