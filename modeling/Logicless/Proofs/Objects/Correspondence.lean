import Logicless.Proofs.Objects.Compiler

/-!
# Objects and trees

Compiling to objects is compiling to trees. At each step, a heap shows what there is in trees: the nodes of an
object are those of a tree, with an object for each body, and slots are templates in the order in which they
were made. So a session on a heap has the same answers as one with a store, and both have the same templates
in their caches.

A heap goes on showing what it shows, since an object that has its nodes keeps them.

## Shape of the proof

* `Heap.ShowsAll` relates the nodes of objects to those of trees, together with `Heap.Shows` for one node and
  `Heap.ShowsBody` for a body. `Heap.Extends` is what heaps do over time, and `ShowsAll.mono` is the reason
  for it.
* `Heap.Mirrors` relates a heap to a store. What is done to one is done to the other (`Mirrors.enter`,
  `Mirrors.make`, `Mirrors.fill`).
* `Corresponds` relates the results of two computations. `corresponds_perform` is the step, for each action of
  the compiler, and `simulates_resolveWithin` the run through nested compilations.
* `ObjectSession.mirrors_run` is about sessions.
-/

namespace Logicless

namespace Heap

variable {μ : Type} {heap heap' heap'' : Heap} {contentType : ContentType}

/-! ## What a heap shows -/

/-- The template that is in a slot. -/
def template? (heap : Heap) (slot : Slot) : Option Address :=
  heap.templates[slot.index]?

mutual

/-- A node of an object is that of a tree. -/
inductive Shows {μ : Type} (heap : Heap) : ObjectNode → Node μ Slot → Prop
  | text {line : Int} {text : String} : Shows heap (.text line text) (.text line text)
  | interpolation {line : Int} {expression : Expr} {escape : Bool} :
      Shows heap (.interpolation line expression escape) (.interpolation line expression escape)
  | branch {line : Int} {expression : Expr} {inverted : Bool} {address : Address}
      {body : Body μ (Node μ Slot)} (hbody : ShowsBody heap address body) :
      Shows heap (.branch line expression inverted address) (.branch line expression inverted body)
  | inclusion {line : Int} {name : String} {address : Address} {slot : Slot}
      (htarget : heap.template? slot = some address) :
      Shows heap (.inclusion ⟨line, name, address⟩) (.inclusion ⟨line, name, slot⟩)
  | block {mark : μ} {line : Int} {name : String} {address : Address} {body : Body μ (Node μ Slot)}
      (hbody : ShowsBody heap address body) :
      Shows heap (.block line name address) (.block ⟨mark, line, name, body⟩)
  | layout {line line' : Int} {name : String} {target address : Address} {slot : Slot}
      {body : Body μ (Node μ Slot)} (htarget : heap.template? slot = some target)
      (hbody : ShowsBody heap address body) :
      Shows heap (.layout line ⟨line', name, target⟩ address) (.layout ⟨line, ⟨line', name, slot⟩, body⟩)

/-- An object is a body of a tree. -/
inductive ShowsBody {μ : Type} (heap : Heap) : Address → Body μ (Node μ Slot) → Prop
  | intro {mark : μ} {contentType : ContentType} {address : Address} {nodes : List ObjectNode}
      {nodes' : List (Node μ Slot)} (hobject : heap.object? address = some ⟨contentType, some nodes⟩)
      (hnodes : ShowsAll heap nodes nodes') : ShowsBody heap address ⟨mark, contentType, nodes'⟩

/-- The nodes of an object are those of a tree. -/
inductive ShowsAll {μ : Type} (heap : Heap) : List ObjectNode → List (Node μ Slot) → Prop
  | nil : ShowsAll heap [] []
  | cons {node : ObjectNode} {node' : Node μ Slot} {nodes : List ObjectNode} {nodes' : List (Node μ Slot)}
      (hnode : Shows heap node node') (hnodes : ShowsAll heap nodes nodes') :
      ShowsAll heap (node :: nodes) (node' :: nodes')

end

/-- A heap has got more templates, and what has its nodes has kept them. -/
structure Extends (heap heap' : Heap) : Prop where
  templates : heap.templates <+: heap'.templates
  filled : ∀ address contentType nodes, heap.object? address = some ⟨contentType, some nodes⟩ →
    heap'.object? address = some ⟨contentType, some nodes⟩

theorem Extends.refl (heap : Heap) : heap.Extends heap :=
  ⟨List.prefix_rfl, fun _ _ _ => id⟩

theorem Extends.trans (h : heap.Extends heap') (h' : heap'.Extends heap'') : heap.Extends heap'' :=
  ⟨h.templates.trans h'.templates, fun address contentType nodes hobject =>
    h'.filled address contentType nodes (h.filled address contentType nodes hobject)⟩

theorem Extends.template? (h : heap.Extends heap') {slot : Slot} {address : Address}
    (hslot : heap.template? slot = some address) :
    heap'.template? slot = some address := by
  obtain ⟨more, hmore⟩ := h.templates
  rw [Heap.template?, ← hmore, List.getElem?_append_left (List.getElem?_eq_some_iff.mp hslot).1]
  exact hslot

theorem extends_make (heap : Heap) (contentType : ContentType) (nodes : List ObjectNode) :
    heap.Extends (heap.make contentType nodes).2 :=
  ⟨List.prefix_rfl, fun _ _ _ hobject => object?_push _ hobject⟩

theorem extends_enter (heap : Heap) (object : Object) : heap.Extends (heap.enter object).2 :=
  ⟨List.prefix_append _ _, fun _ _ _ hobject => object?_push _ hobject⟩

theorem extends_fill {address : Address} {nodes : List ObjectNode}
    (h : heap.fill address contentType nodes = .ok heap') :
    heap.Extends heap' := by
  obtain ⟨⟨contentType', hplaceholder⟩, rfl⟩ := fill_eq_ok_iff.mp h
  refine ⟨List.prefix_rfl, fun other _ _ hobject => ?_⟩
  have hother : address ≠ other := by
    rintro rfl
    rw [hplaceholder] at hobject
    cases hobject
  rw [object?_set_ne _ hother]
  exact hobject

mutual

theorem Shows.mono {node : ObjectNode} {node' : Node μ Slot} (hextends : heap.Extends heap')
    (h : heap.Shows node node') : heap'.Shows node node' := by
  cases h with
  | text => exact .text
  | interpolation => exact .interpolation
  | branch hbody => exact .branch (hbody.mono hextends)
  | inclusion htarget => exact .inclusion (hextends.template? htarget)
  | block hbody => exact .block (hbody.mono hextends)
  | layout htarget hbody => exact .layout (hextends.template? htarget) (hbody.mono hextends)

theorem ShowsBody.mono {address : Address} {body : Body μ (Node μ Slot)} (hextends : heap.Extends heap')
    (h : heap.ShowsBody address body) : heap'.ShowsBody address body := by
  cases h with
  | intro hobject hnodes =>
    exact .intro (hextends.filled _ _ _ hobject) (hnodes.mono hextends)

theorem ShowsAll.mono {nodes : List ObjectNode} {nodes' : List (Node μ Slot)}
    (hextends : heap.Extends heap') (h : heap.ShowsAll nodes nodes') : heap'.ShowsAll nodes nodes' := by
  cases h with
  | nil => exact .nil
  | cons hnode hnodes => exact .cons (hnode.mono hextends) (hnodes.mono hextends)

end

/-! ## Marks do not matter -/

mutual

theorem Shows.stamp {node : ObjectNode} {node' : Node Unit Slot} (mark : Mark)
    (h : heap.Shows node node') : heap.Shows node (node'.stamp mark) := by
  cases h with
  | text => exact .text
  | interpolation => exact .interpolation
  | branch hbody => exact .branch (hbody.stamp mark)
  | inclusion htarget => exact .inclusion htarget
  | block hbody => exact .block (hbody.stamp mark)
  | layout htarget hbody => exact .layout htarget (hbody.stamp mark)

theorem ShowsBody.stamp {address : Address} {body : Body Unit (Node Unit Slot)} (mark : Mark)
    (h : heap.ShowsBody address body) :
    heap.ShowsBody address ⟨mark, body.contentType, stampNodes mark 0 body.nodes⟩ := by
  cases h with
  | intro hobject hnodes => exact .intro hobject (hnodes.stamp mark 0)

theorem ShowsAll.stamp {nodes : List ObjectNode} {nodes' : List (Node Unit Slot)} (mark : Mark)
    (position : Nat) (h : heap.ShowsAll nodes nodes') :
    heap.ShowsAll nodes (stampNodes mark position nodes') := by
  cases h with
  | nil => exact .nil
  | cons hnode hnodes => exact .cons (hnode.stamp _) (hnodes.stamp mark (position + 1))

end

theorem ShowsAll.append {nodes : List ObjectNode} {nodes' : List (Node μ Slot)} {node : ObjectNode}
    {node' : Node μ Slot} (h : heap.ShowsAll nodes nodes') (hnode : heap.Shows node node') :
    heap.ShowsAll (nodes ++ [node]) (nodes' ++ [node']) := by
  induction nodes generalizing nodes' with
  | nil =>
    cases h
    exact .cons hnode .nil
  | cons other nodes ih =>
    cases h with
    | cons hother h => exact .cons hother (ih h)

/-! ## Heaps and stores -/

/-- An object is what a slot holds. -/
inductive ShowsCell (heap : Heap) : Object → Cell → Prop
  | placeholder {contentType : ContentType} : ShowsCell heap ⟨contentType, none⟩ ⟨contentType, none⟩
  | filled {contentType : ContentType} {nodes : List ObjectNode} {nodes' : List StoredNode}
      (hnodes : heap.ShowsAll nodes nodes') :
      ShowsCell heap ⟨contentType, some nodes⟩ ⟨contentType, some nodes'⟩

theorem ShowsCell.mono {object : Object} {cell : Cell} (hextends : heap.Extends heap')
    (h : heap.ShowsCell object cell) : heap'.ShowsCell object cell := by
  cases h with
  | placeholder => exact .placeholder
  | filled hnodes => exact .filled (hnodes.mono hextends)

/-- The templates of a heap are those of a store. -/
structure Mirrors (heap : Heap) (store : Store) : Prop where
  /-- There are as many. -/
  length : heap.templates.length = store.cells.length
  /-- No two slots have the same template. -/
  nodup : heap.templates.Nodup
  /-- The template of a slot is what the slot holds. -/
  shows : ∀ slot address, heap.template? slot = some address →
    ∃ object cell, heap.object? address = some object ∧ store.cell? slot = some cell ∧
      heap.ShowsCell object cell

namespace Mirrors

variable {store : Store}

theorem empty : ({} : Heap).Mirrors {} where
  length := rfl
  nodup := List.nodup_nil
  shows := by
    intro slot address hslot
    cases hslot

theorem make (h : heap.Mirrors store) (contentType : ContentType) (nodes : List ObjectNode) :
    (heap.make contentType nodes).2.Mirrors store where
  length := h.length
  nodup := h.nodup
  shows := by
    intro slot address hslot
    obtain ⟨object, cell, hobject, hcell, hshows⟩ := h.shows slot address hslot
    exact ⟨object, cell, object?_push _ hobject, hcell, hshows.mono (extends_make heap contentType nodes)⟩

/-- The template that is made next is in the slot that is reserved next. -/
theorem template?_enter (h : heap.Mirrors store) (object : Object) :
    (heap.enter object).2.template? store.next = some heap.next := by
  rw [Heap.template?, Store.next, ← h.length]
  exact List.getElem?_concat_length

theorem enter (h : heap.Mirrors store) {object : Object} {cell : Cell} (hshows : heap.ShowsCell object cell) :
    (heap.enter object).2.Mirrors (store.push cell) where
  length := by
    show (heap.templates ++ [heap.next]).length = (store.cells ++ [cell]).length
    rw [List.length_append, List.length_append, h.length]
    rfl
  nodup := by
    refine List.nodup_append.mpr ⟨h.nodup, by simp, ?_⟩
    rintro template htemplate _ hnext rfl
    rw [List.mem_singleton] at hnext
    obtain ⟨index, hindex⟩ := List.mem_iff_getElem?.mp htemplate
    obtain ⟨object, _, hobject, _⟩ := h.shows ⟨index⟩ template hindex
    exact Nat.lt_irrefl _ (hnext ▸ lt_of_object? hobject)
  shows := by
    intro slot address hslot
    have hextends := extends_enter heap object
    rw [Heap.template?, Heap.enter, List.getElem?_append] at hslot
    split at hslot
    · rename_i hlt
      obtain ⟨object', cell', hobject, hcell, hshows'⟩ := h.shows slot address hslot
      refine ⟨object', cell', object?_push _ hobject, ?_, hshows'.mono hextends⟩
      rw [Store.cell?, Store.push, List.getElem?_append_left (h.length ▸ hlt)]
      exact hcell
    · obtain ⟨hindex, haddress⟩ := List.getElem?_eq_some_iff.mp hslot
      simp only [List.length_singleton] at hindex
      obtain rfl : heap.next = address := by simpa using haddress
      have hslot : slot.index = store.cells.length := by
        rw [← h.length]
        omega
      refine ⟨object, cell, object?_push_next heap object, ?_, hshows.mono hextends⟩
      rw [Store.cell?, Store.push, hslot]
      exact List.getElem?_concat_length

/-- Filling a template fills its slot. Neither is possible if there are nodes already. -/
theorem fill (h : heap.Mirrors store) {slot : Slot} {address : Address}
    (hslot : heap.template? slot = some address) {nodes : List ObjectNode} {nodes' : List StoredNode}
    (hnodes : heap.ShowsAll nodes nodes') (contentType : ContentType) :
    (∃ fault, heap.fill address contentType nodes = .error fault ∧
        store.fill slot contentType nodes' = .error fault) ∨
      ∃ heap' store', heap.fill address contentType nodes = .ok heap' ∧
        store.fill slot contentType nodes' = .ok store' ∧ heap'.Mirrors store' := by
  obtain ⟨object, cell, hobject, hcell, hshows⟩ := h.shows slot address hslot
  cases hshows with
  | filled _ =>
    left
    exact ⟨.alreadyFilled, by simp [Heap.fill, hobject],
      by simp [Store.fill, Store.isPlaceholder, hcell]⟩
  | @placeholder contentType' =>
    right
    have hfill : heap.fill address contentType nodes = .ok (heap.set address ⟨contentType, some nodes⟩) :=
      fill_eq_ok_iff.mpr ⟨⟨contentType', hobject⟩, rfl⟩
    have hextends := extends_fill hfill
    refine ⟨_, ⟨store.cells.set slot.index ⟨contentType, some nodes'⟩⟩, hfill,
      by simp [Store.fill, Store.isPlaceholder, hcell], ⟨?_, h.nodup, ?_⟩⟩
    · rw [List.length_set]
      exact h.length
    · intro other address' hother
      obtain ⟨object', cell', hobject', hcell', hshows'⟩ := h.shows other address' hother
      by_cases hsame : slot = other
      · subst hsame
        obtain rfl : address = address' := Option.some.inj (hslot.symm.trans hother)
        refine ⟨_, _, object?_set_self _ hobject, ?_, .filled (hnodes.mono hextends)⟩
        exact List.getElem?_set_self (List.getElem?_eq_some_iff.mp hcell).1
      · -- another slot has another template
        have hne : address ≠ address' := by
          rintro rfl
          have hlt : slot.index < heap.templates.length := (List.getElem?_eq_some_iff.mp hslot).1
          exact hsame (congrArg Slot.mk ((List.getElem?_inj hlt h.nodup).mp (hslot.trans hother.symm)))
        refine ⟨object', cell', (object?_set_ne _ hne).trans hobject', ?_, hshows'.mono hextends⟩
        exact (List.getElem?_set_ne fun hindex => hsame (congrArg Slot.mk hindex)).trans hcell'

end Mirrors

end Heap

/-! ## The compiler -/

/-- An open tag and its nodes are those of a scope of a tree. -/
structure ObjectScope.Shows (heap : Heap) (scope : ObjectScope) (scope' : Scope Slot) : Prop where
  tag : scope'.tag = scope.tag
  nodes : heap.ShowsAll scope.nodes scope'.nodes

/-- The open tags are those of a tree. -/
structure ObjectStack.Shows (heap : Heap) (stack : ObjectStack) (stack' : ScopeStack Slot) : Prop where
  current : stack.current.Shows heap stack'.current
  enclosing : List.Forall₂ (ObjectScope.Shows heap) stack.enclosing stack'.enclosing

section

variable {heap heap' : Heap} {scope : ObjectScope} {scope' : Scope Slot} {stack : ObjectStack}
  {stack' : ScopeStack Slot} {node : ObjectNode} {node' : Node Unit Slot}

theorem ObjectScope.Shows.mono (h : scope.Shows heap scope') (hextends : heap.Extends heap') :
    scope.Shows heap' scope' :=
  ⟨h.tag, h.nodes.mono hextends⟩

theorem ObjectScope.Shows.append (h : scope.Shows heap scope') (hnode : heap.Shows node node') :
    (scope.append node).Shows heap (scope'.append node') :=
  ⟨h.tag, h.nodes.append hnode⟩

namespace ObjectStack.Shows

theorem initial : ObjectStack.initial.Shows heap .initial :=
  ⟨⟨rfl, .nil⟩, .nil⟩

theorem mono (h : stack.Shows heap stack') (hextends : heap.Extends heap') : stack.Shows heap' stack' :=
  ⟨h.current.mono hextends, h.enclosing.imp fun _ _ hscope => hscope.mono hextends⟩

theorem append (h : stack.Shows heap stack') (hnode : heap.Shows node node') :
    (stack.append node).Shows heap (stack'.append node') :=
  ⟨h.current.append hnode, h.enclosing⟩

theorem push (h : stack.Shows heap stack') (tag : Tag) : (stack.push tag).Shows heap (stack'.push tag.scope) :=
  ⟨⟨rfl, .nil⟩, .cons h.current h.enclosing⟩

theorem reopen (h : stack.Shows heap stack') (next : Option Tag) :
    (stack.reopen next).Shows heap (stack'.reopen next) := by
  cases next with
  | none => exact h
  | some tag => exact h.push tag

end ObjectStack.Shows

end

/-! ## Results that correspond -/

namespace ObjectRepository

/-- An id is cached with the same template. -/
def SameEntry (heap : Heap) (entry : String × Address) (entry' : String × Slot) : Prop :=
  entry.1 = entry'.1 ∧ heap.template? entry'.2 = some entry.2

theorem SameEntry.mono {heap heap' : Heap} {entry : String × Address} {entry' : String × Slot}
    (hextends : heap.Extends heap') (h : SameEntry heap entry entry') : SameEntry heap' entry entry' :=
  ⟨h.1, hextends.template? h.2⟩

/-- A repository on a heap is one with a store. -/
structure Mirrors (repository : ObjectRepository) (repository' : Repository) : Prop where
  heap : repository.heap.Mirrors repository'.store
  cache : List.Forall₂ (SameEntry repository.heap) repository.cache repository'.cache

end ObjectRepository

/-- Two computations have the same failure or related values. -/
inductive SameAnswer {ε α α' : Type} (Same : α → α' → Prop) : Except ε α → Except ε α' → Prop
  | error {error : ε} : SameAnswer Same (.error error) (.error error)
  | ok {value : α} {value' : α'} (hsame : Same value value') : SameAnswer Same (.ok value) (.ok value')

/-- Two computations, one on a heap and one with a store, have come to the same. The one on a heap started
with the heap `before`. -/
structure Corresponds {ε α α' : Type} (Same : Heap → α → α' → Prop) (before : Heap)
    (result : Except ε α × ObjectRepository) (result' : Except ε α' × Repository) : Prop where
  extension : before.Extends result.2.heap
  mirrors : result.2.Mirrors result'.2
  answers : SameAnswer (Same result.2.heap) result.1 result'.1

/-- A template is that of a slot. -/
def Heap.IsTemplate (heap : Heap) (address : Address) (slot : Slot) : Prop :=
  heap.template? slot = some address

/-- Two loaders, one on a heap and one with a store, do the same. -/
def Loader.Simulates (loader : Loader ObjectRepository Address) (loader' : Loader Repository Slot) : Prop :=
  ∀ name relativeTo repository repository', repository.Mirrors repository' →
    Corresponds Heap.IsTemplate repository.heap (loader name relativeTo repository)
      (loader' name relativeTo repository')

section

variable {ε α α' : Type} {Same : Heap → α → α' → Prop} {before : Heap} {repository : ObjectRepository}
  {repository' : Repository}

theorem Corresponds.error (hextension : before.Extends repository.heap)
    (hmirrors : repository.Mirrors repository') (error : ε) :
    Corresponds Same before (.error error, repository) (.error error, repository') :=
  ⟨hextension, hmirrors, .error⟩

theorem Corresponds.ok {value : α} {value' : α'} (hextension : before.Extends repository.heap)
    (hmirrors : repository.Mirrors repository') (hsame : Same repository.heap value value') :
    Corresponds Same before ((.ok value : Except ε α), repository)
      ((.ok value' : Except ε α'), repository') :=
  ⟨hextension, hmirrors, .ok hsame⟩

/-- Computations that have come to the same have failed alike, or they have related values. -/
theorem Corresponds.cases {result : Except ε α × ObjectRepository} {result' : Except ε α' × Repository}
    (h : Corresponds Same before result result') :
    (∃ error after after', result = (.error error, after) ∧ result' = (.error error, after') ∧
        before.Extends after.heap ∧ after.Mirrors after') ∨
      ∃ value value' after after', result = (.ok value, after) ∧ result' = (.ok value', after') ∧
        before.Extends after.heap ∧ after.Mirrors after' ∧ Same after.heap value value' := by
  obtain ⟨answer, after⟩ := result
  obtain ⟨answer', after'⟩ := result'
  obtain ⟨hextension, hmirrors, hanswers⟩ := h
  cases hanswers with
  | error => exact .inl ⟨_, after, after', rfl, rfl, hextension, hmirrors⟩
  | ok hsame => exact .inr ⟨_, _, after, after', rfl, rfl, hextension, hmirrors, hsame⟩

/-- The computation on the heap may have done something before. -/
theorem Corresponds.after {earlier : Heap} {result : Except ε α × ObjectRepository}
    {result' : Except ε α' × Repository} (h : Corresponds Same before result result')
    (hextends : earlier.Extends before) : Corresponds Same earlier result result' :=
  ⟨hextends.trans h.extension, h.mirrors, h.answers⟩

end

section

variable {setting : Setting} {loader : Loader ObjectRepository Address} {loader' : Loader Repository Slot}
  {stack : ObjectStack} {stack' : ScopeStack Slot} {repository : ObjectRepository}
  {repository' : Repository}

theorem ObjectRepository.Mirrors.make (h : repository.Mirrors repository') (contentType : ContentType)
    (nodes : List ObjectNode) : (repository.make contentType nodes).2.Mirrors repository' :=
  ⟨h.heap.make contentType nodes, h.cache⟩

/-- The innermost tag is closed on a heap and in trees. -/
theorem ObjectStack.Shows.close {scope below : ObjectScope} {scope' below' : Scope Slot}
    {enclosing : List ObjectScope} {enclosing' : List (Scope Slot)}
    (h : ObjectStack.Shows repository.heap ⟨scope, below :: enclosing⟩ ⟨scope', below' :: enclosing'⟩)
    (contentType : ContentType) {node : ObjectNode} {node' : Node Unit Slot}
    (hnode : ∀ heap : Heap, repository.heap.Extends heap →
      heap.ShowsBody repository.heap.next (scope'.body contentType) → heap.Shows node node') :
    ObjectStack.Shows (repository.make contentType scope.nodes).2.heap ⟨below.append node, enclosing⟩
      ⟨below'.append node', enclosing'⟩ := by
  have hextends := Heap.extends_make repository.heap contentType scope.nodes
  obtain ⟨hscope, henclosing⟩ := h
  obtain ⟨hbelow, henclosing⟩ := List.forall₂_cons.mp henclosing
  have hbody : (repository.make contentType scope.nodes).2.heap.ShowsBody repository.heap.next
      (scope'.body contentType) :=
    .intro (Heap.object?_push_next _ _) (hscope.nodes.mono hextends)
  exact ⟨(hbelow.mono hextends).append (hnode _ hextends hbody),
    henclosing.imp fun _ _ h => h.mono hextends⟩

/-- Whatever the compiler does with a token, it does on a heap and in trees. -/
theorem corresponds_perform (hloader : loader.Simulates loader') (hstack : stack.Shows repository.heap stack')
    (hmirrors : repository.Mirrors repository') (action : Action) :
    Corresponds ObjectStack.Shows repository.heap (action.perform setting loader stack repository)
      ((action.move setting stack').outcome setting loader' repository') := by
  have hrefl := Heap.Extends.refl repository.heap
  cases action with
  | keep => exact .ok hrefl hmirrors hstack
  | append leaf =>
    refine .ok hrefl hmirrors (hstack.append ?_)
    cases leaf with
    | text => exact .text
    | interpolation => exact .interpolation
  | enter tag => exact .ok hrefl hmirrors (hstack.push tag)
  | refuse failure => exact .error hrefl hmirrors _
  | close closing next =>
    obtain ⟨scope, enclosing⟩ := stack
    obtain ⟨scope', enclosing'⟩ := stack'
    cases hstack.enclosing with
    | nil => exact .error hrefl hmirrors _
    | cons =>
      cases closing with
      | error breach => exact .error hrefl hmirrors _
      | ok closing =>
        refine .ok (Heap.extends_make _ _ _) (hmirrors.make _ _) (.reopen (hstack.close _ ?_) next)
        intro heap _ hbody
        cases closing with
        | branch => exact .branch hbody
        | block => exact .block hbody
  | load line name citing =>
    simp only [Action.perform, Action.move, Move.outcome]
    obtain ⟨failure, after, after', hload, hload', hextends, hmirrors⟩ |
      ⟨target, slot, after, after', hload, hload', hextends, hmirrors, htarget⟩ :=
        (hloader name setting.template repository repository' hmirrors).cases
    · rw [hload, hload']
      exact .error hextends hmirrors _
    · rw [hload, hload']
      exact .ok hextends hmirrors ((hstack.mono hextends).append (.inclusion htarget))
  | closeLayout line name citing =>
    obtain ⟨scope, enclosing⟩ := stack
    obtain ⟨scope', enclosing'⟩ := stack'
    cases hstack.enclosing with
    | nil => exact .error hrefl hmirrors _
    | cons =>
      cases name with
      | none => exact .error hrefl hmirrors _
      | some name =>
        simp only [Action.perform, Action.move, ScopeStack.pop, Move.outcome]
        obtain ⟨failure, after, after', hload, hload', hextends, hmirrors⟩ |
          ⟨target, slot, after, after', hload, hload', hextends, hmirrors, htarget⟩ :=
            (hloader name setting.template repository repository' hmirrors).cases
        · rw [hload, hload']
          exact .error hextends hmirrors _
        · rw [hload, hload']
          refine .ok (hextends.trans (Heap.extends_make _ _ _)) (hmirrors.make _ _)
            ((hstack.mono hextends).close _ ?_)
          intro heap hextends hbody
          exact .layout (hextends.template? htarget) hbody

/-- The nodes that a compilation has come to are those of a template. -/
def Heap.ShowsTemplate (contentType : ContentType) (heap : Heap) (nodes : List ObjectNode)
    (template : Template Unit Slot) : Prop :=
  template.contentType = contentType ∧ heap.ShowsAll nodes template.nodes

/-- The end of a stream makes the same of open tags on a heap and in trees. -/
theorem answers_settle {heap : Heap} (hstack : stack.Shows heap stack') (ending : Option Failure) :
    SameAnswer (heap.ShowsTemplate setting.contentType) (stack.settle setting ending)
      (stack'.settle setting ending) := by
  cases ending with
  | some failure =>
    simp only [ObjectStack.settle, ScopeStack.settle]
    split
    · exact .error
    · exact .error
  | none =>
    obtain ⟨scope, enclosing⟩ := stack
    obtain ⟨scope', enclosing'⟩ := stack'
    obtain ⟨⟨htag, hnodes⟩, henclosing⟩ := hstack
    cases henclosing with
    | nil => exact .ok ⟨rfl, hnodes⟩
    | cons =>
      have hopening : scope'.opening = scope.tag.opening := congrArg Tag.opening htag
      have hunclosed : Compiler.unclosed setting scope' =
          Compiler.unclosed setting (scope.tag.scope : Scope Address) := by
        rw [Compiler.unclosed, hopening]
        rfl
      have hhalt := congrArg Halt.recorded hunclosed
      show SameAnswer _ (Except.error (Halt.recorded _)) (Except.error (Halt.recorded _))
      rw [hhalt]
      exact .error

/-- Tokens come to the same on a heap and in trees. -/
theorem corresponds_follow (hloader : loader.Simulates loader') (ending : Option Failure)
    (tokens : List Token) (hstack : stack.Shows repository.heap stack')
    (hmirrors : repository.Mirrors repository') :
    Corresponds (Heap.ShowsTemplate setting.contentType) repository.heap
      (stack.follow setting loader ending tokens repository)
      (stack'.follow setting loader' ending tokens repository') := by
  induction tokens generalizing stack stack' repository repository' with
  | nil => exact ⟨.refl _, hmirrors, answers_settle hstack ending⟩
  | cons token tokens ih =>
    rw [ObjectStack.follow, ScopeStack.follow_cons, hstack.current.tag]
    obtain ⟨halt, after, after', hperform, hperform', hextends, hmirrors⟩ |
      ⟨next, next', after, after', hperform, hperform', hextends, hmirrors, hnext⟩ :=
        (corresponds_perform hloader hstack hmirrors (stack.current.tag.action setting token)).cases
    · rw [hperform, hperform']
      exact .error hextends hmirrors _
    · rw [hperform, hperform']
      exact (ih hnext hmirrors).after hextends

/-- A stream is compiled to the same on a heap and in trees. -/
theorem corresponds_compileObject (setting : Setting) (hloader : loader.Simulates loader')
    (stream : Stream) (hmirrors : repository.Mirrors repository') :
    Corresponds (Heap.ShowsTemplate setting.contentType) repository.heap
      (compileObject setting loader stream repository)
      (compileTemplate setting (some loader') stream repository') := by
  cases stream with
  | unopened failure => exact .error (.refl _) hmirrors _
  | opened tokens ending =>
    rw [compileTemplate_eq_follow]
    exact corresponds_follow hloader ending tokens .initial hmirrors

end

/-! ## The repository -/

namespace ObjectRepository

variable {repository : ObjectRepository} {repository' : Repository} {id : String}

namespace Mirrors

/-- What is reported does not matter. -/
theorem halted (h : repository.Mirrors repository') (template : Option String) (halt : Halt) :
    repository.Mirrors (repository'.halted template halt) := by
  cases halt with
  | recorded failure => exact ⟨h.heap, h.cache⟩
  | escaped failure => exact h

theorem noted (h : repository.Mirrors repository') : repository.noted.Mirrors repository' :=
  ⟨h.heap, h.cache⟩

/-- An id is cached on both sides or on neither. -/
theorem lookup (h : repository.Mirrors repository') (id : String) :
    (repository.cache.lookup id = none ∧ repository'.slot? id = none) ∨
      ∃ address slot, repository.cache.lookup id = some address ∧ repository'.slot? id = some slot ∧
        repository.heap.IsTemplate address slot := by
  rw [Repository.slot?]
  have hcache := h.cache
  generalize repository.cache = cache at hcache
  generalize repository'.cache = cache' at hcache
  induction hcache with
  | nil => exact .inl ⟨rfl, rfl⟩
  | @cons entry entry' _ _ hentry _ ih =>
    obtain ⟨key, address⟩ := entry
    obtain ⟨key', slot⟩ := entry'
    obtain ⟨hkeys, htemplate⟩ := hentry
    obtain rfl : key = key' := hkeys
    rw [List.lookup_cons, List.lookup_cons]
    cases id == key with
    | true => exact .inr ⟨address, slot, rfl, rfl, htemplate⟩
    | false => exact ih

theorem evict (h : repository.Mirrors repository') (id : String) :
    (repository.evict id).Mirrors (repository'.evict id) where
  heap := h.heap
  cache := by
    show List.Forall₂ (SameEntry repository.heap) (repository.cache.takeWhile _)
      (repository'.cache.takeWhile _)
    have hcache := h.cache
    generalize repository.cache = cache at hcache
    generalize repository'.cache = cache' at hcache
    induction hcache with
    | nil => exact .nil
    | @cons entry entry' _ _ hentry _ ih =>
      rw [List.takeWhile_cons, List.takeWhile_cons, hentry.1]
      split
      · exact .cons hentry ih
      · exact .nil

theorem reserve (h : repository.Mirrors repository') (id : String) (contentType : ContentType) :
    (repository.reserve id contentType).2.Mirrors (repository'.begun id contentType) where
  heap := h.heap.enter .placeholder
  cache := by
    have hextends := Heap.extends_enter repository.heap ⟨contentType, none⟩
    exact List.rel_append (h.cache.imp fun _ _ => .mono hextends)
      (.cons ⟨rfl, h.heap.template?_enter _⟩ .nil)

end Mirrors

/-- Completing a template is the same on a heap and in trees. -/
theorem corresponds_complete (h : repository.Mirrors repository') {address : Address} {slot : Slot}
    (htemplate : repository.heap.IsTemplate address slot) {contentType : ContentType}
    {nodes : List ObjectNode} {template : Template Unit Slot}
    (hnodes : repository.heap.ShowsTemplate contentType nodes template) :
    Corresponds Heap.IsTemplate repository.heap (repository.complete address contentType nodes)
      (repository'.complete slot template) := by
  obtain ⟨rfl, hnodes⟩ := hnodes
  rw [ObjectRepository.complete, Repository.complete]
  obtain ⟨fault, hfill, hfill'⟩ | ⟨heap, store, hfill, hfill', hmirrors⟩ :=
    h.heap.fill htemplate (hnodes.stamp slot.mark 0) template.contentType
  · rw [hfill, show repository'.store.fill slot _ (slot.stamp template) = _ from hfill']
    exact .error (.refl _) h _
  · have hextends := Heap.extends_fill hfill
    rw [hfill, show repository'.store.fill slot _ (slot.stamp template) = _ from hfill']
    have hcache := h.cache.imp fun _ _ => SameEntry.mono hextends
    exact .ok hextends ⟨hmirrors, hcache⟩ (hextends.template? htemplate)

/-- Loading a template is the same on a heap and in trees. -/
theorem simulates_resolveWithin (source : Source) (contentType : ContentType) (fuel : Nat) :
    (resolveWithin source contentType fuel).Simulates
      (Repository.resolveWithin source contentType fuel) := by
  induction fuel with
  | zero => exact fun name relativeTo repository repository' h => .error (.refl _) h _
  | succ fuel ih =>
    intro name relativeTo repository repository' h
    have hnoted := h.noted
    generalize hid : source.templateId name relativeTo = id
    rw [resolveWithin, hid]
    obtain ⟨hlookup, hslot⟩ | ⟨address, slot, hlookup, hslot, htemplate⟩ := hnoted.lookup id
    · have hreserved := hnoted.reserve id contentType
      have hextends := Heap.extends_enter repository.heap ⟨contentType, none⟩
      simp only [hlookup]
      cases htokens : source.tokens id with
      | error failure =>
        rw [Repository.resolveWithin_of_no_tokens hid hslot htokens]
        exact ⟨hextends, hreserved.evict id, .error⟩
      | ok stream =>
        obtain ⟨halt, after, after', hcompile, hcompile', hextends', hafter⟩ |
          ⟨nodes, template, after, after', hcompile, hcompile', hextends', hafter, hnodes⟩ :=
            (corresponds_compileObject ⟨contentType, some id⟩ ih stream hreserved).cases
        · simp only [hcompile]
          rw [Repository.resolveWithin_of_halted hid hslot htokens hcompile']
          exact ⟨hextends.trans hextends', (hafter.halted (some id) halt).evict id, .error⟩
        · simp only [hcompile]
          rw [Repository.resolveWithin_of_compiled hid hslot htokens hcompile']
          have htemplate : after.heap.IsTemplate repository.heap.next repository'.store.next :=
            hextends'.template? (hnoted.heap.template?_enter _)
          exact (corresponds_complete hafter htemplate hnodes).after (hextends.trans hextends')
    · simp only [hlookup]
      rw [Repository.resolveWithin_of_cached hid hslot]
      refine .ok (.refl _) ?_ htemplate
      split
      · exact ⟨hnoted.heap, hnoted.cache⟩
      · exact hnoted

/-- Compiling a template that is not cached is the same on a heap and in trees. -/
theorem corresponds_compileWithin (source : Source) (contentType : ContentType) (fuel : Nat)
    (template : Option String) (stream : Stream) (h : repository.Mirrors repository') :
    Corresponds Heap.IsTemplate repository.heap
      (compileWithin source contentType fuel template stream repository)
      (Repository.compileWithin source contentType fuel template stream repository') := by
  rw [compileWithin, Repository.compileWithin]
  obtain ⟨halt, after, after', hcompile, hcompile', hextends, hafter⟩ |
    ⟨nodes, compiled, after, after', hcompile, hcompile', hextends, hafter, htype, hnodes⟩ :=
      (corresponds_compileObject ⟨contentType, template⟩
        (simulates_resolveWithin source contentType fuel) stream h).cases
  · rw [hcompile, hcompile']
    exact .error hextends (hafter.halted template halt) _
  · rw [hcompile, hcompile']
    have hextends' := Heap.extends_enter after.heap ⟨contentType, some nodes⟩
    obtain rfl : compiled.contentType = contentType := htype
    have hcache := hafter.cache.imp fun _ _ => SameEntry.mono hextends'
    exact .ok (hextends.trans hextends') ⟨hafter.heap.enter (.filled (hnodes.stamp _ 0)), hcache⟩
      (hafter.heap.template?_enter _)

end ObjectRepository

/-! ## Sessions -/

namespace ObjectSession

variable {session : ObjectSession} {session' : Session}

/-- A session on a heap is one with a store: it has the same templates and has given the same answers. -/
structure Mirrors (session : ObjectSession) (session' : Session) : Prop where
  source : session.source = session'.source
  contentType : session.contentType = session'.contentType
  repository : session.repository.Mirrors session'.repository
  answers : List.Forall₂ (SameAnswer session.repository.heap.IsTemplate) session.answers session'.answers

theorem mirrors_answered (h : session.Mirrors session') {result : Except Failure Address × ObjectRepository}
    {result' : Except Failure Slot × Repository}
    (hresult : Corresponds Heap.IsTemplate session.repository.heap result result') :
    (session.answered result).Mirrors (session'.answered result') where
  source := h.source
  contentType := h.contentType
  repository := hresult.mirrors
  answers := by
    refine .cons hresult.answers (h.answers.imp fun answer answer' hanswer => ?_)
    cases hanswer with
    | error => exact .error
    | ok htemplate => exact .ok (hresult.extension.template? htemplate)

/-- An operation does the same on a heap and in trees. -/
theorem mirrors_perform (h : session.Mirrors session') (operation : Operation) :
    (session.perform operation).Mirrors (session'.perform operation) := by
  cases operation with
  | resolve depth name relativeTo =>
    refine mirrors_answered h ?_
    rw [← h.source, ← h.contentType]
    exact ObjectRepository.simulates_resolveWithin _ _ depth name relativeTo _ _ h.repository
  | compile depth template stream =>
    refine mirrors_answered h ?_
    rw [← h.source, ← h.contentType]
    exact ObjectRepository.corresponds_compileWithin _ _ depth template stream h.repository
  | clear => exact ⟨h.source, h.contentType, ⟨h.repository.heap, .nil⟩, h.answers⟩
  | serve tokens =>
    refine ⟨?_, h.contentType, h.repository, h.answers⟩
    show ({ session.source with tokens := tokens } : Source) = { session'.source with tokens := tokens }
    rw [h.source]

theorem mirrors_foldl (operations : List Operation) (h : session.Mirrors session') :
    (operations.foldl perform session).Mirrors (operations.foldl Session.perform session') := by
  induction operations generalizing session session' with
  | nil => exact h
  | cons operation operations ih => exact ih (mirrors_perform h operation)

/-- A session is the same on a heap and in trees. -/
theorem mirrors_run (source : Source) (contentType : ContentType) (operations : List Operation) :
    (run source contentType operations).Mirrors (Session.run source contentType operations) :=
  mirrors_foldl operations ⟨rfl, rfl, ⟨.empty, .nil⟩, .nil⟩

/-- Elements of lists that are related one by one have related ones. -/
theorem exists_of_mem_forall₂ {α β : Type} {R : α → β → Prop} {list : List α} {list' : List β}
    (h : List.Forall₂ R list list') {a : α} (ha : a ∈ list) : ∃ b, R a b := by
  induction h with
  | nil => cases ha
  | cons hhead _ ih =>
    rcases List.mem_cons.mp ha with rfl | ha
    · exact ⟨_, hhead⟩
    · exact ih ha

/-- What was handed out or is cached is a template. -/
theorem Mirrors.mem_templates (h : session.Mirrors session') {address : Address}
    (haddress : session.Returned address ∨ address ∈ session.repository.cache.map Prod.snd) :
    address ∈ session.repository.heap.templates := by
  rcases haddress with hreturned | hcached
  · obtain ⟨_, hanswer⟩ := exists_of_mem_forall₂ h.answers hreturned
    cases hanswer with
    | ok htemplate => exact List.mem_of_getElem? htemplate
  · obtain ⟨entry, hentry, rfl⟩ := List.mem_map.mp hcached
    obtain ⟨_, _, htemplate⟩ := exists_of_mem_forall₂ h.repository.cache hentry
    exact List.mem_of_getElem? htemplate

end ObjectSession

end Logicless
