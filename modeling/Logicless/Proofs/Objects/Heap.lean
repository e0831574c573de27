import Logicless.Tree.Store
import Mathlib.Data.List.Chain
import Mathlib.Logic.Relation

/-!
# Templates as objects

A tree has the bodies of its nodes inside it. At run time there are no trees: a template is an object, each
body is an object of its own, and nodes refer to both by address. Two bodies are one and the same if they
have one address, whatever is in them, and nothing about references alone keeps a body from being the body
of two nodes, or from being inside itself.

The bodies of a heap make up a forest if each belongs to one node and if going from bodies to those inside
them comes to an end. It is shown elsewhere that the compiler leaves such a heap. What it comes to is in
the order in which objects are made: a body is made when its tag is closed, after all that is inside it and
before the node that has it.

## Shape of the module

* `Heap` is a heap of objects with what is done to it: `enter` adds a template, which may be a placeholder,
  `make` a body, and `fill` fills a placeholder.
* `Heap.Carries` says at which place of which object a body is, `Heap.Contains` that there is such a place.
  `Heap.Includes` is about inclusions, and `Heap.Leads` about both.
* `Heap.IsForest` is the property of a heap, and `Heap.exists_includes_of_isChain` takes cycles apart.
* `Heap.overrideWithin` is the search for an override on a heap.
-/

namespace Logicless

/-- Where an object is. -/
structure Address where
  /-- Objects are numbered in the order in which they were made. -/
  index : Nat
deriving DecidableEq, Repr, Inhabited

/-- A node of an object. Its body and the template that it includes are other objects. -/
inductive ObjectNode where
  /-- Text between tags. -/
  | text (line : Int) (text : String)
  /-- The value of an expression. -/
  | interpolation (line : Int) (expression : Expr) (escape : Bool)
  /-- A section, or an inverted section. -/
  | branch (line : Int) (expression : Expr) (inverted : Bool) (body : Address)
  /-- Another template. -/
  | inclusion (inclusion : Inclusion Address)
  /-- A part that may be overridden. -/
  | block (line : Int) (name : String) (body : Address)
  /-- Another template with overrides. -/
  | layout (line : Int) (inclusion : Inclusion Address) (overrides : Address)
deriving DecidableEq, Repr

namespace ObjectNode

/-- The body of a node: that of a section or a block, or the overrides of a layout. -/
def body? : ObjectNode → Option Address
  | branch _ _ _ body => some body
  | block _ _ body => some body
  | layout _ _ overrides => some overrides
  | text _ _ | interpolation _ _ _ | inclusion _ => none

/-- The template that a node includes. -/
def target? : ObjectNode → Option Address
  | inclusion reference => some reference.target
  | layout _ reference _ => some reference.target
  | text _ _ | interpolation _ _ _ | branch _ _ _ _ | block _ _ _ => none

end ObjectNode

/-- A template or a body. -/
structure Object where
  /-- Whether values are escaped. -/
  contentType : ContentType
  /-- The nodes in order, once there are any: until then, the object is a placeholder. -/
  content : Option (List ObjectNode)
deriving DecidableEq, Repr

/-- The nodes of an object; a placeholder has none. -/
def Object.nodes (object : Object) : List ObjectNode :=
  object.content.getD []

/-- A heap of objects. -/
structure Heap where
  /-- The objects, in the order in which they were made. -/
  objects : List Object := []
  /-- Which objects are templates, in the order in which they were made. The others are bodies. -/
  templates : List Address := []
deriving DecidableEq, Repr

namespace Heap

/-- The object at an address. -/
def object? (heap : Heap) (address : Address) : Option Object :=
  heap.objects[address.index]?

/-- The nodes of the object at an address. -/
def nodes (heap : Heap) (address : Address) : List ObjectNode :=
  match heap.object? address with
  | some object => object.nodes
  | none => []

/-- The address of the object that is made next. -/
def next (heap : Heap) : Address :=
  ⟨heap.objects.length⟩

/-- The heap with one more object. -/
def push (heap : Heap) (object : Object) : Heap :=
  { heap with objects := heap.objects ++ [object] }

/-- Makes a body. -/
def make (heap : Heap) (contentType : ContentType) (nodes : List ObjectNode) : Address × Heap :=
  (heap.next, heap.push ⟨contentType, some nodes⟩)

/-- Makes a template, which may be a placeholder. -/
def enter (heap : Heap) (object : Object) : Address × Heap :=
  (heap.next, { heap.push object with templates := heap.templates ++ [heap.next] })

/-- The heap with another object at an address. -/
def set (heap : Heap) (address : Address) (object : Object) : Heap :=
  { heap with objects := heap.objects.set address.index object }

/-- Fills a placeholder. -/
def fill (heap : Heap) (address : Address) (contentType : ContentType) (nodes : List ObjectNode) :
    Except Fault Heap :=
  match heap.object? address with
  | some ⟨_, none⟩ => .ok (heap.set address ⟨contentType, some nodes⟩)
  | _ => .error .alreadyFilled

variable {heap heap' : Heap} {address owner body : Address} {object : Object}
  {contentType : ContentType} {nodes : List ObjectNode}

theorem nodes_of_object? (h : heap.object? address = some object) :
    heap.nodes address = object.nodes := by
  rw [Heap.nodes, h]

theorem lt_of_object? (h : heap.object? address = some object) :
    address.index < heap.objects.length :=
  (List.getElem?_eq_some_iff.mp h).1

theorem object?_push_next (heap : Heap) (object : Object) :
    (heap.push object).object? heap.next = some object :=
  List.getElem?_concat_length

theorem object?_push (object' : Object) (h : heap.object? address = some object) :
    (heap.push object').object? address = some object := by
  rw [object?, push, List.getElem?_append_left (lt_of_object? h)]
  exact h

/-- What there is after an object was made was there before, or it is the new object. -/
theorem object?_push_eq_some {object' : Object} (h : (heap.push object').object? address = some object) :
    heap.object? address = some object ∨ address = heap.next ∧ object = object' := by
  rw [object?, push, List.getElem?_append] at h
  split at h
  · exact .inl h
  · obtain ⟨hindex, hobject⟩ := List.getElem?_eq_some_iff.mp h
    simp only [List.length_singleton] at hindex
    have haddress : address.index = heap.objects.length := by omega
    exact .inr ⟨congrArg Address.mk haddress, by simpa using hobject.symm⟩

theorem object?_set_self (object' : Object) (h : heap.object? address = some object) :
    (heap.set address object').object? address = some object' := by
  rw [object?, set, List.getElem?_set_self (lt_of_object? h)]

theorem object?_set_ne (object' : Object) {other : Address} (h : address ≠ other) :
    (heap.set address object').object? other = heap.object? other :=
  List.getElem?_set_ne fun hindex => h (congrArg Address.mk hindex)

theorem fill_eq_ok_iff :
    heap.fill address contentType nodes = .ok heap' ↔
      (∃ contentType', heap.object? address = some ⟨contentType', none⟩) ∧
        heap' = heap.set address ⟨contentType, some nodes⟩ := by
  rw [fill]
  split
  · rename_i contentType' hobject
    simp [hobject, eq_comm]
  · rename_i hnone
    simp only [reduceCtorEq, false_iff]
    rintro ⟨⟨contentType', hobject⟩, _⟩
    exact hnone contentType' hobject

theorem templates_fill (h : heap.fill address contentType nodes = .ok heap') :
    heap'.templates = heap.templates := by
  obtain ⟨_, rfl⟩ := fill_eq_ok_iff.mp h
  rfl

/-! ## Edges -/

/-- The body at some place of an object. -/
def Carries (heap : Heap) (owner : Address) (position : Nat) (body : Address) : Prop :=
  ∃ node, (heap.nodes owner)[position]? = some node ∧ node.body? = some body

/-- A body of an object. -/
def Contains (heap : Heap) (owner body : Address) : Prop :=
  ∃ node ∈ heap.nodes owner, node.body? = some body

/-- A template that an object includes. -/
def Includes (heap : Heap) (includer target : Address) : Prop :=
  ∃ node ∈ heap.nodes includer, node.target? = some target

/-- What an object leads to. -/
def Leads (heap : Heap) (address address' : Address) : Prop :=
  heap.Contains address address' ∨ heap.Includes address address'

theorem contains_iff_carries : heap.Contains owner body ↔ ∃ position, heap.Carries owner position body := by
  constructor
  · rintro ⟨node, hnode, hbody⟩
    obtain ⟨position, hposition⟩ := List.mem_iff_getElem?.mp hnode
    exact ⟨position, node, hposition, hbody⟩
  · rintro ⟨position, node, hposition, hbody⟩
    exact ⟨node, List.mem_of_getElem? hposition, hbody⟩

/-! ## Forests -/

/-- By bodies alone, the objects of a heap are a forest. -/
structure IsForest (heap : Heap) : Prop where
  /-- A body belongs to one node. -/
  owned : ∀ owner body, heap.Contains owner body →
    ∃! place : Address × Nat, heap.Carries place.1 place.2 body
  /-- A body is no placeholder. -/
  filled : ∀ owner body, heap.Contains owner body →
    ∃ contentType nodes, heap.object? body = some ⟨contentType, some nodes⟩
  /-- A body is no template. -/
  apart : ∀ owner body, heap.Contains owner body → body ∉ heap.templates
  /-- What is included is a template. -/
  included : ∀ includer target, heap.Includes includer target → target ∈ heap.templates
  /-- A walk that comes back to where it started has followed an inclusion. -/
  cycles : ∀ address walk, (address :: walk).IsChain heap.Leads → walk.getLast? = some address →
    ∃ front includer target back, address :: walk = front ++ includer :: target :: back ∧
      heap.Includes includer target
  /-- Whoever goes from objects to the bodies inside them comes to an end. -/
  wellFounded : WellFounded fun body owner => heap.Contains owner body

/-- A walk with no inclusion in it follows bodies alone. -/
theorem transGen_contains_of_isChain {walk : List Address} {last : Address}
    (hwalk : (address :: walk).IsChain heap.Leads) (hlast : walk.getLast? = some last)
    (hnone : ∀ front includer target back, address :: walk = front ++ includer :: target :: back →
      ¬ heap.Includes includer target) :
    Relation.TransGen heap.Contains address last := by
  induction walk generalizing address with
  | nil => cases hlast
  | cons after walk ih =>
    obtain ⟨hleads, hwalk⟩ := List.isChain_cons_cons.mp hwalk
    have hstep : heap.Contains address after := hleads.resolve_right (hnone [] address after walk rfl)
    cases walk with
    | nil =>
      obtain rfl : after = last := Option.some.inj hlast
      exact .single hstep
    | cons other walk =>
      refine .head hstep (ih hwalk ?_ ?_)
      · simpa using hlast
      · intro front includer target back heq
        exact hnone (address :: front) includer target back (congrArg (address :: ·) heq)

/-- If going from bodies to those inside them comes to an end, then a walk that comes back to where it
started has followed an inclusion. -/
theorem exists_includes_of_isChain (hwell : WellFounded fun body owner => heap.Contains owner body)
    {walk : List Address} (hwalk : (address :: walk).IsChain heap.Leads)
    (hlast : walk.getLast? = some address) :
    ∃ front includer target back, address :: walk = front ++ includer :: target :: back ∧
      heap.Includes includer target := by
  by_contra hnone
  have hcycle : Relation.TransGen heap.Contains address address :=
    transGen_contains_of_isChain hwalk hlast fun front includer target back heq hincludes =>
      hnone ⟨front, includer, target, back, heq, hincludes⟩
  have hcycle : Relation.TransGen (Function.swap heap.Contains) address address :=
    Relation.transGen_swap.mpr hcycle
  exact hwell.transGen.asymmetric _ _ hcycle hcycle

/-! ## The search for an override -/

/-- The node that one of some overrides puts in place of another one, where `call` searches the overrides of
a layout. -/
def overrideBy (call : Address → ObjectNode → Option ObjectNode) (candidate : ObjectNode) :
    ObjectNode → Option ObjectNode
  | .block line name body =>
    match candidate with
    | .block _ name' _ => some (if name' = name then .block line name body else candidate)
    | _ => some candidate
  | .layout _ _ overrides => call overrides candidate
  | .text _ _ | .interpolation _ _ _ | .branch _ _ _ _ | .inclusion _ => some candidate

/-- The node that some overrides put in place of another one, found with at most `depth` calls inside each
other. -/
def overrideWithin (heap : Heap) : (depth : Nat) → (overrides : Address) → ObjectNode → Option ObjectNode
  | 0, _, _ => none
  | depth + 1, overrides, candidate =>
    (heap.nodes overrides).foldlM (overrideBy (heap.overrideWithin depth)) candidate

end Heap

end Logicless
