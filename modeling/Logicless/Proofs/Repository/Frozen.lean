import Logicless.Proofs.Repository.Integrity
import Logicless.Proofs.Repository.Permanence
import Logicless.Proofs.Repository.WellFormed
import Logicless.Proofs.Tree.Changes

/-!
# Templates that are filled never change

A repository reserves a slot before it compiles the template for it, hands the slot out to the templates
that include it in the meantime, and fills it when the compilation has succeeded. All that is done to the
store of a repository is listed here, from the start of a session to its end and in the midst of its
operations. Every change on the list can be made: no slot that is to be filled is ever found filled. So
a slot changes once at most, and a template that an operation has handed out stays what it is, with all
that it includes.

## Shape of the proof

* `Repository.changesWithin` and `Repository.compileChanges` list what loading a template and compiling
  one that is not cached do to the store, and `Session.history` what the operations of a session do.
* `replay_changesWithin` says that these changes can be made, and that they lead to the store in the end.
  While the templates that a template includes are loaded, its own slot stays a placeholder, since a
  repository that grows keeps what its slots hold.
* `exists_changes_of_mem_requestsWithin` says that what a request meets is what some of the changes have
  led to, the first ones.
* `filled_templates_frozen` is the result.
-/

namespace Logicless

namespace Repository

variable {source : Source} {contentType : ContentType} {depth : Nat} {running : List String}
  {name id : String} {relativeTo template : Option String} {stream : Stream} {r r' : Repository}

/-! ## What is done to the store -/

/-- What the inclusions of a stream lead to being done to the store, if a single inclusion leads to
`changes`. -/
def inclusionChanges (source : Source) (contentType : ContentType)
    (changes : (name : String) → (relativeTo : Option String) → Repository → List Store.Change)
    (depth : Nat) (template : Option String) (stream : Stream) (r : Repository) :
    List Store.Change :=
  (compileTemplate ⟨contentType, template⟩
      (some (resolveWithin source contentType depth).logged) stream (r, [])).2.2.flatMap
    fun call => changes call.name call.relativeTo call.state

/-- What is done to the store after a compilation: what it has come to, if anything, goes into the store
by a change. -/
def outcomeChange (change : Template Unit Slot → Store.Change) :
    Except Halt (Template Unit Slot) → List Store.Change
  | .ok template => [change template]
  | .error _ => []

/-- What loading a template does to the store. Unless the template is cached, its slot is reserved first
and filled last. -/
def changesWithin (source : Source) (contentType : ContentType) :
    (depth : Nat) → (name : String) → (relativeTo : Option String) → Repository → List Store.Change
  | 0, _, _, _ => []
  | depth + 1, name, relativeTo, r =>
    let id := source.templateId name relativeTo
    match r.slot? id, source.tokens id with
    | some _, _ => []
    | none, .error _ => [.reserve contentType]
    | none, .ok stream =>
      let begun := r.begun id contentType
      .reserve contentType ::
        (inclusionChanges source contentType (changesWithin source contentType depth) depth (some id)
            stream begun ++
          outcomeChange (.fill r.store.next)
            (compileTemplate ⟨contentType, some id⟩ (some (resolveWithin source contentType depth))
              stream begun).1)

/-- What compiling a template that is not cached does to the store. -/
def compileChanges (source : Source) (contentType : ContentType) (depth : Nat)
    (template : Option String) (stream : Stream) (r : Repository) : List Store.Change :=
  inclusionChanges source contentType (changesWithin source contentType depth) depth template stream r ++
    outcomeChange .insert
      (compileTemplate ⟨contentType, template⟩ (some (resolveWithin source contentType depth)) stream
        r).1

/-! ## The changes can be made -/

/-- The changes can be made, and they lead from the store of one repository to that of the other. -/
def Replays (r : Repository) (changes : List Store.Change) (r' : Repository) : Prop :=
  r.store.replay changes = .ok r'.store

namespace Replays

variable {changes changes' : List Store.Change} {r'' : Repository}

theorem of_store_eq (h : r'.store = r.store) : Replays r [] r' := by
  rw [Replays, h]
  rfl

theorem append (h : Replays r changes r') (h' : Replays r' changes' r'') :
    Replays r (changes ++ changes') r'' :=
  Store.replay_append_eq_ok_iff.mpr ⟨r'.store, h, h'⟩

/-- Reserving the slot of a template. -/
theorem begun (r : Repository) (id : String) (contentType : ContentType) :
    Replays r [.reserve contentType] (r.begun id contentType) :=
  rfl

end Replays

/-- The inclusions of a stream, with the repository that each of them meets. -/
theorem replays_inclusionChanges (source : Source) (contentType : ContentType) (depth : Nat)
    (template : Option String)
    {changes : (name : String) → (relativeTo : Option String) → Repository → List Store.Change}
    (hload : ∀ name r, Replays r (changes name template r)
      (resolveWithin source contentType depth name template r).2)
    (stream : Stream) (r : Repository) :
    let calls := (compileTemplate ⟨contentType, template⟩
      (some (resolveWithin source contentType depth).logged) stream (r, [])).2.2
    let note := fun call : Loader.Call Repository => changes call.name call.relativeTo call.state
    Replays r (inclusionChanges source contentType changes depth template stream r)
        (compileTemplate ⟨contentType, template⟩ (some (resolveWithin source contentType depth)) stream
          r).2 ∧
      ∀ earlier call later, calls = earlier ++ call :: later →
        Replays r (earlier.flatMap note) call.state ∧ call.relativeTo = template :=
  traced_compileTemplate Replays _ (fun _ => rfl) .append hload stream r

/-- Completing a template fills its slot, where that is possible. -/
theorem replays_complete {slot slot' : Slot} {compiled : Template Unit Slot}
    (h : (r.complete slot compiled).1 = .ok slot') :
    Replays r [.fill slot compiled] (r.complete slot compiled).2 := by
  rw [complete] at h ⊢
  refine Store.replay_cons_eq_ok_iff.mpr ?_
  cases hfill : r.store.fill slot compiled.contentType (slot.stamp compiled) with
  | ok store => exact ⟨store, hfill, rfl⟩
  | error fault => simp [hfill] at h

theorem store_halted (r : Repository) (template : Option String) (halt : Halt) :
    (r.halted template halt).store = r.store := by
  cases halt <;> rfl

/-- What loading a template does to the store can be done, and nothing else is done to it. -/
theorem replay_changesWithin (source : Source) (contentType : ContentType) (depth : Nat)
    (name : String) (relativeTo : Option String) (r : Repository) :
    Replays r (changesWithin source contentType depth name relativeTo r)
      (resolveWithin source contentType depth name relativeTo r).2 := by
  induction depth generalizing name relativeTo r with
  | zero => rfl
  | succ depth ih =>
    generalize hid : source.templateId name relativeTo = id
    rw [changesWithin, hid]
    cases hslot : r.slot? id with
    | some slot =>
      rw [resolveWithin_of_cached hid hslot]
      refine .of_store_eq ?_
      dsimp only
      split <;> rfl
    | none =>
      have hnew : id ∉ r.keys := slot?_eq_none_iff.mp hslot
      cases htokens : source.tokens id with
      | error failure =>
        rw [resolveWithin_of_no_tokens hid hslot htokens]
        exact .begun r id contentType
      | ok stream =>
        have hbegun : Replays r [.reserve contentType] (r.begun id contentType) :=
          .begun r id contentType
        have hinner := (replays_inclusionChanges source contentType depth (some id)
          (fun name r => ih name (some id) r) stream (r.begun id contentType)).1
        have hgrows := (resolves_resolveWithin source contentType depth).grows_compileTemplate
          ⟨contentType, some id⟩ stream (r.begun id contentType)
        dsimp only
        rw [← List.singleton_append]
        rcases hcompile : compileTemplate ⟨contentType, some id⟩
          (some (resolveWithin source contentType depth)) stream (r.begun id contentType) with
          ⟨halt | compiled, after⟩
        · rw [hcompile] at hinner
          rw [resolveWithin_of_halted hid hslot htokens hcompile]
          refine hbegun.append (hinner.append (.of_store_eq ?_))
          exact store_halted after (some id) halt
        · rw [hcompile] at hinner hgrows
          obtain ⟨added, hgrows⟩ := hgrows
          rw [resolveWithin_of_compiled hid hslot htokens hcompile]
          -- the repository has only grown in the meantime, so the slot is still a placeholder
          have hcached := (resolves_resolveWithin source contentType depth).cached_of_compileTemplate
            hcompile
          have hcomplete := (growsBy_complete hnew hcached hgrows).1
          exact hbegun.append (hinner.append (replays_complete hcomplete))

theorem replay_compileChanges (source : Source) (contentType : ContentType) (depth : Nat)
    (template : Option String) (stream : Stream) (r : Repository) :
    Replays r (compileChanges source contentType depth template stream r)
      (compileWithin source contentType depth template stream r).2 := by
  have hinner := (replays_inclusionChanges source contentType depth template
    (fun name r => replay_changesWithin source contentType depth name template r) stream r).1
  rw [compileChanges, compileWithin]
  rcases hcompile : compileTemplate ⟨contentType, template⟩
    (some (resolveWithin source contentType depth)) stream r with ⟨halt | compiled, after⟩
  · rw [hcompile] at hinner
    exact hinner.append (.of_store_eq (store_halted after template halt))
  · rw [hcompile] at hinner
    exact hinner.append rfl

/-! ## What requests meet -/

/-- A request inside a compilation meets what the changes up to it have led to. -/
theorem exists_changes_of_mem_inclusionRequests
    {requests : (name : String) → (relativeTo : Option String) → Repository → List Request}
    {request : Request}
    (hinner : ∀ name r, request ∈ requests name template r →
      ∃ made, made <+: changesWithin source contentType depth name template r ∧
        Replays r made request.repository)
    (h : request ∈ inclusionRequests source contentType requests depth template stream r) :
    ∃ made, made <+: inclusionChanges source contentType (changesWithin source contentType depth) depth
        template stream r ∧ Replays r made request.repository := by
  obtain ⟨call, hcall, hrequest⟩ := List.mem_flatMap.mp h
  obtain ⟨earlier, later, hcalls⟩ := List.append_of_mem hcall
  obtain ⟨hearlier, hrelative⟩ := (replays_inclusionChanges source contentType depth template
    (fun name r => replay_changesWithin source contentType depth name template r) stream r).2
      earlier call later hcalls
  rw [hrelative] at hrequest
  obtain ⟨made, hmade, hreplays⟩ := hinner call.name call.state hrequest
  refine ⟨_, ?_, hearlier.append hreplays⟩
  rw [inclusionChanges, hcalls, List.flatMap_append, List.flatMap_cons, hrelative]
  exact (List.prefix_append_right_inj _).mpr (hmade.trans (List.prefix_append _ _))

/-- A request in the course of loading a template meets what the changes up to it have led to. -/
theorem exists_changes_of_mem_requestsWithin {request : Request}
    (h : request ∈ requestsWithin source contentType depth running name relativeTo r) :
    ∃ made, made <+: changesWithin source contentType depth name relativeTo r ∧
      Replays r made request.repository := by
  induction depth generalizing running name relativeTo r with
  | zero =>
    obtain rfl := List.mem_singleton.mp h
    exact ⟨[], List.nil_prefix, rfl⟩
  | succ depth ih =>
    rw [requestsWithin] at h
    rcases List.mem_cons.mp h with rfl | h
    · exact ⟨[], List.nil_prefix, rfl⟩
    · rw [changesWithin]
      split at h
      · rename_i stream hslot htokens
        obtain ⟨made, hmade, hreplays⟩ := exists_changes_of_mem_inclusionRequests (fun _ _ => ih) h
        have hbegun := Replays.begun r (source.templateId name relativeTo) contentType
        refine ⟨_, ?_, hbegun.append hreplays⟩
        simp only [hslot, htokens, List.singleton_append]
        exact List.cons_prefix_cons.mpr ⟨rfl, hmade.trans (List.prefix_append _ _)⟩
      · cases h

end Repository

namespace Session

open Repository

variable {session : Session}

/-! ## Sessions -/

/-- What an operation does to the store. -/
def changes (session : Session) : Operation → List Store.Change
  | .resolve depth name relativeTo =>
    changesWithin session.source session.contentType depth name relativeTo session.repository
  | .compile depth template stream =>
    compileChanges session.source session.contentType depth template stream session.repository
  | .clear | .serve _ => []

/-- What some operations do to the store. -/
def history (session : Session) : List Operation → List Store.Change
  | [] => []
  | operation :: operations =>
    session.changes operation ++ (session.perform operation).history operations

theorem replays_changes (session : Session) (operation : Operation) :
    Replays session.repository (session.changes operation) (session.perform operation).repository := by
  cases operation with
  | resolve depth name relativeTo =>
    exact replay_changesWithin session.source session.contentType depth name relativeTo _
  | compile depth template stream =>
    exact replay_compileChanges session.source session.contentType depth template stream _
  | clear | serve tokens => exact .of_store_eq rfl

/-- What is done to the store in the course of some operations can be done, and it leads to the store
after them. -/
theorem replays_history (session : Session) (operations : List Operation) :
    Replays session.repository (session.history operations)
      (operations.foldl perform session).repository := by
  induction operations generalizing session with
  | nil => rfl
  | cons operation operations ih =>
    exact (replays_changes session operation).append (ih (session.perform operation))

/-- A request in the course of an operation meets what the changes up to it have led to. -/
theorem exists_changes_of_mem_requests {operation : Operation} {request : Request}
    (h : request ∈ session.requests operation) :
    ∃ made, made <+: session.changes operation ∧
      Replays session.repository made request.repository := by
  cases operation with
  | resolve depth name relativeTo => exact exists_changes_of_mem_requestsWithin h
  | compile depth template stream =>
    obtain ⟨made, hmade, hreplays⟩ := exists_changes_of_mem_inclusionRequests
      (fun _ _ => exists_changes_of_mem_requestsWithin) h
    exact ⟨made, hmade.trans (List.prefix_append _ _), hreplays⟩
  | clear | serve tokens => cases h

/-! ## Templates that were handed out -/

/-- From the start of a session on, every change of the store can be made, so no template is ever filled
that is filled already. Each slot is filled once at most, between any two times it stays as it is unless
it is a placeholder and gets filled, and what a request meets in the midst of an operation is a store of
one of these times. So from a template that was handed out, the same slots are reached at all later times,
and they hold the same. -/
theorem filled_templates_frozen (source : Source) (contentType : ContentType)
    (operations : List Operation) :
    let start : Session := { source := source, contentType := contentType }
    let session := run source contentType operations
    let store := session.repository.store
    Store.replay {} (start.history operations) = .ok store ∧
      ((start.history operations).filterMap Store.Change.filled?).Nodup ∧
      (∀ made more rest, start.history operations = made ++ (more ++ rest) →
        ∃ earlier later, Store.replay {} made = .ok earlier ∧ earlier.replay more = .ok later ∧
          earlier.Evolves later) ∧
      (∀ operation, ∀ request ∈ session.requests operation, ∃ made,
        made <+: session.changes operation ∧ store.replay made = .ok request.repository.store) ∧
      ∀ slot, session.Returned slot → ∀ operations' made, made <+: session.history operations' →
        ∃ later, store.replay made = .ok later ∧ ∀ target,
          (Relation.ReflTransGen later.Includes slot target ↔
            Relation.ReflTransGen store.Includes slot target) ∧
          (Relation.ReflTransGen store.Includes slot target →
            ∃ contentType nodes, store.cell? target = some ⟨contentType, some nodes⟩ ∧
              later.cell? target = some ⟨contentType, some nodes⟩) := by
  intro start session store
  have hhistory : Store.replay {} (start.history operations) = .ok store :=
    replays_history start operations
  refine ⟨hhistory, Store.nodup_filled_of_replay hhistory, ?_, ?_, ?_⟩
  · intro made more rest heq
    rw [heq] at hhistory
    obtain ⟨earlier, hmade, hrest⟩ := Store.replay_append_eq_ok_iff.mp hhistory
    obtain ⟨later, hmore, _⟩ := Store.replay_append_eq_ok_iff.mp hrest
    exact ⟨earlier, later, hmade, hmore, Store.evolves_replay hmore⟩
  · intro operation request hrequest
    exact exists_changes_of_mem_requests hrequest
  · rintro slot hreturned operations' made ⟨rest, hmade⟩
    have hsealed : store.Sealed slot := (sound_run source contentType operations).sealed slot hreturned
    have hlater : store.replay (session.history operations') = .ok _ :=
      replays_history session operations'
    rw [← hmade] at hlater
    obtain ⟨later, hlater, _⟩ := Store.replay_append_eq_ok_iff.mp hlater
    have hevolves : store.Evolves later := Store.evolves_replay hlater
    refine ⟨later, hlater, fun target => ⟨hsealed.reaches_iff hevolves target, fun hreach => ?_⟩⟩
    obtain ⟨nodes, contentType, hcell⟩ := hsealed target hreach
    exact ⟨contentType, nodes, hcell, hevolves.cell?_of_filled hcell⟩

/-- A page and its part are what they were after the cache was cleared and the page has failed to compile
from other tokens, which has filled a new slot for the part. -/
theorem filled_templates_frozen_mutualPage :
    let session := run mutualPage .html [.resolve 3 "page" none]
    let later := [.clear, .serve brokenPage.tokens, .resolve 3 "page" none]
    session.Returned ⟨0⟩ ∧
      (session.history later).filterMap Store.Change.filled? = [⟨3⟩] ∧
      ∃ store, session.repository.store.replay (session.history later) = .ok store ∧
        ∀ target, Relation.ReflTransGen store.Includes ⟨0⟩ target ↔
          Relation.ReflTransGen session.repository.store.Includes ⟨0⟩ target := by
  intro session later
  have hreturned : session.Returned ⟨0⟩ := List.mem_cons_self
  have hfilled : (session.history later).filterMap Store.Change.filled? = [⟨3⟩] := by decide +kernel
  obtain ⟨store, hreplay, hreached⟩ :=
    (filled_templates_frozen mutualPage .html [.resolve 3 "page" none]).2.2.2.2 ⟨0⟩ hreturned later _
      (List.prefix_refl _)
  exact ⟨hreturned, hfilled, store, hreplay, fun target => (hreached target).1⟩

end Session

end Logicless
