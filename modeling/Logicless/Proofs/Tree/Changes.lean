import Logicless.Proofs.Tree.Inclusions

/-!
# What is done to a store

Three things are done to a store: a slot is reserved, a slot is reserved and filled at once, or a slot
that was reserved before is filled. So every store has a history, which can be made again from the store
that it started with.

Filling is refused for a slot that is filled already. So a history that can be made at all fills no slot
twice, and what is reached from slots that are all filled stays as it is to the end.

## Shape of the module

* `Store.Change` is one thing that is done to a store. `Store.make` does it, and `Store.replay` does
  several of them. What each change keeps, they keep together (`replay_induction`).
* `evolves_make` says that a change takes nothing from a slot that is filled, and `evolves_replay` says so
  of a history.
* `holds_make` says how a slot has come to be filled, and `not_mem_filled_of_holds` and
  `nodup_filled_of_replay` that this happens once.
-/

namespace Logicless

namespace Store

/-- What is done to a store. -/
inductive Change where
  /-- A slot is reserved and left a placeholder. -/
  | reserve (contentType : ContentType)
  /-- A slot is reserved and filled with a template. -/
  | insert (template : Template Unit Slot)
  /-- A slot that was reserved before is filled with a template. -/
  | fill (slot : Slot) (template : Template Unit Slot)

/-- The slot that was there before and that a change fills, if any. -/
def Change.filled? : Change → Option Slot
  | reserve _ | insert _ => none
  | fill slot _ => some slot

/-- The store after a change. -/
def make (store : Store) : Change → Except Fault Store
  | .reserve contentType => .ok (store.reserve contentType).2
  | .insert template => .ok (store.insert template).2
  | .fill slot template => store.fill slot template.contentType (slot.stamp template)

/-- The store after some changes, if all of them can be made. -/
def replay (store : Store) : List Change → Except Fault Store
  | [] => .ok store
  | change :: changes => do
    let store ← store.make change
    store.replay changes

variable {store store' store'' : Store} {slot : Slot} {change : Change}
  {changes changes' : List Change}

theorem replay_cons_eq_ok_iff :
    store.replay (change :: changes) = .ok store'' ↔
      ∃ store', store.make change = .ok store' ∧ store'.replay changes = .ok store'' := by
  rw [replay]
  cases store.make change <;> simp [bind, Except.bind]

theorem replay_append_eq_ok_iff :
    store.replay (changes ++ changes') = .ok store'' ↔
      ∃ store', store.replay changes = .ok store' ∧ store'.replay changes' = .ok store'' := by
  induction changes generalizing store with
  | nil => simp [replay]
  | cons change changes ih =>
    simp only [List.cons_append, replay_cons_eq_ok_iff, ih]
    constructor
    · rintro ⟨next, hmake, store', hchanges, hchanges'⟩
      exact ⟨store', ⟨next, hmake, hchanges⟩, hchanges'⟩
    · rintro ⟨store', ⟨next, hmake, hchanges⟩, hchanges'⟩
      exact ⟨next, hmake, store', hchanges, hchanges'⟩

/-- What each of some changes keeps holds of the store after them. -/
theorem replay_induction {P : Store → Prop} (h : P store)
    (hkeeps : ∀ change ∈ changes, ∀ before after, P before → before.make change = .ok after → P after)
    (hreplay : store.replay changes = .ok store') : P store' := by
  induction changes generalizing store with
  | nil =>
    obtain rfl := Except.ok.inj hreplay
    exact h
  | cons change changes ih =>
    obtain ⟨next, hmake, hreplay⟩ := replay_cons_eq_ok_iff.mp hreplay
    rw [List.forall_mem_cons] at hkeeps
    exact ih (hkeeps.1 store next h hmake) hkeeps.2 hreplay

/-- No change takes anything from a slot that is filled. -/
theorem evolves_make (h : store.make change = .ok store') : Evolves store store' := by
  cases change with
  | reserve contentType =>
    obtain rfl := Except.ok.inj h
    exact .of_growth (List.prefix_append _ _)
  | insert template =>
    obtain rfl := Except.ok.inj h
    exact .of_growth (List.prefix_append _ _)
  | fill slot template => exact .of_fill h

theorem evolves_replay (h : store.replay changes = .ok store') : Evolves store store' :=
  replay_induction (.refl store) (fun _ _ _ _ hbefore hmake => hbefore.trans (evolves_make hmake)) h

/-! ## The slots that are filled -/

theorem not_holds_empty {nodes : List StoredNode} : ¬ ({} : Store).Holds slot nodes := by
  rintro ⟨contentType, hcell⟩
  simp [cell?] at hcell

/-- A slot that is filled after another one was reserved was filled before, or it is the new one. -/
theorem holds_push {cell : Cell} {slot : Slot} {nodes : List StoredNode}
    (h : (store.push cell).Holds slot nodes) :
    store.Holds slot nodes ∨ slot = store.next ∧ cell.content = some nodes := by
  obtain ⟨contentType, hcell⟩ := h
  rw [cell?, push] at hcell
  by_cases hlt : slot.index < store.cells.length
  · rw [List.getElem?_append_left hlt] at hcell
    exact .inl ⟨contentType, hcell⟩
  · rw [List.getElem?_append_right (Nat.le_of_not_lt hlt), List.getElem?_singleton] at hcell
    split at hcell
    · rename_i hindex
      have hslot : slot = store.next := congrArg Slot.mk (show slot.index = store.cells.length by omega)
      exact .inr ⟨hslot, by rw [Option.some.inj hcell]⟩
    · cases hcell

/-- A slot that is filled after a change was filled before, or the change has put a template there. -/
theorem holds_make {nodes : List StoredNode} (h : store.make change = .ok store')
    (hnodes : store'.Holds slot nodes) :
    store.Holds slot nodes ∨ ∃ template : Template Unit Slot, nodes = slot.stamp template ∧
      (change = .insert template ∨ change = .fill slot template) := by
  cases change with
  | reserve contentType =>
    obtain rfl := Except.ok.inj h
    rcases holds_push hnodes with hnodes | ⟨_, hcontent⟩
    · exact .inl hnodes
    · cases hcontent
  | insert template =>
    obtain rfl := Except.ok.inj h
    rcases holds_push hnodes with hnodes | ⟨rfl, hcontent⟩
    · exact .inl hnodes
    · exact .inr ⟨template, (Option.some.inj hcontent).symm, .inl rfl⟩
  | fill filled template =>
    obtain ⟨placeholder, hcell, rfl⟩ := fill_eq_ok_iff.mp h
    obtain ⟨contentType, hcell'⟩ := hnodes
    by_cases heq : slot = filled
    · subst heq
      have hlt : slot.index < store.cells.length := (List.getElem?_eq_some_iff.mp hcell).1
      rw [cell?, List.getElem?_set_self hlt] at hcell'
      obtain ⟨_, hcontent⟩ := Cell.mk.inj (Option.some.inj hcell')
      exact .inr ⟨template, (Option.some.inj hcontent).symm, .inr rfl⟩
    · have hne : filled.index ≠ slot.index := fun hindex => heq (congrArg Slot.mk hindex.symm)
      rw [cell?, List.getElem?_set_ne hne] at hcell'
      exact .inl ⟨contentType, hcell'⟩

/-- A change that fills a slot meets a placeholder there and leaves nodes. -/
theorem of_filled? (h : store.make change = .ok store') (hfilled : change.filled? = some slot) :
    (∀ nodes, ¬ store.Holds slot nodes) ∧ ∃ nodes, store'.Holds slot nodes := by
  cases change with
  | reserve contentType => cases hfilled
  | insert template => cases hfilled
  | fill other template =>
    obtain rfl := Option.some.inj hfilled
    obtain ⟨placeholder, hcell, rfl⟩ := fill_eq_ok_iff.mp h
    have hlt : other.index < store.cells.length := (List.getElem?_eq_some_iff.mp hcell).1
    refine ⟨?_, _, template.contentType, List.getElem?_set_self hlt⟩
    rintro nodes ⟨contentType, hnodes⟩
    cases hcell.symm.trans hnodes

/-- A slot that is filled is not filled again. -/
theorem not_mem_filled_of_holds {nodes : List StoredNode} (h : store.replay changes = .ok store')
    (hnodes : store.Holds slot nodes) : slot ∉ changes.filterMap Change.filled? := by
  induction changes generalizing store with
  | nil => exact List.not_mem_nil
  | cons change changes ih =>
    obtain ⟨next, hmake, hreplay⟩ := replay_cons_eq_ok_iff.mp h
    have hrest := ih hreplay ((evolves_make hmake).holds hnodes)
    cases hfilled : change.filled? with
    | none => rwa [List.filterMap_cons_none hfilled]
    | some other =>
      rw [List.filterMap_cons_some hfilled, List.mem_cons, not_or]
      refine ⟨?_, hrest⟩
      rintro rfl
      exact (of_filled? hmake hfilled).1 nodes hnodes

/-- Changes that can all be made fill no slot twice. -/
theorem nodup_filled_of_replay (h : store.replay changes = .ok store') :
    (changes.filterMap Change.filled?).Nodup := by
  induction changes generalizing store with
  | nil => exact List.nodup_nil
  | cons change changes ih =>
    obtain ⟨next, hmake, hreplay⟩ := replay_cons_eq_ok_iff.mp h
    cases hfilled : change.filled? with
    | none =>
      rw [List.filterMap_cons_none hfilled]
      exact ih hreplay
    | some slot =>
      obtain ⟨_, nodes, hnodes⟩ := of_filled? hmake hfilled
      rw [List.filterMap_cons_some hfilled, List.nodup_cons]
      exact ⟨not_mem_filled_of_holds hreplay hnodes, ih hreplay⟩

end Store

end Logicless
