import Logicless.Error.Fault
import Logicless.Tree.Basic

/-!
# The store of templates

Templates that include each other refer to each other by slots of a store. A slot is reserved before
the template for it is compiled, so that the template can include itself; it is filled once, and
nothing else ever changes a slot. Slots are never given back.

## Shape of the module

* `Slot` is a place in a store and `Mark` a place in the template of a slot. The trees in a store
  have marks of type `Mark`, so each block and each body in a store has a mark of its own.
* `Node.stamp` puts marks on the tree that the compiler built.
* `Store` is the store, with `reserve`, `insert` and `fill`.
-/

namespace Logicless

/-- A place for a template. -/
structure Slot where
  /-- Slots are numbered in the order in which they were reserved. -/
  index : Nat
deriving DecidableEq, Repr, Inhabited

/-- A place in the template of a slot. -/
structure Mark where
  /-- The slot. -/
  slot : Slot
  /-- The positions of the nodes to go through from the root of the template, last one first. The
  template itself has the empty path. -/
  path : List Nat
deriving DecidableEq, Repr, Inhabited

/-- The place of a whole template. -/
def Slot.mark (slot : Slot) : Mark :=
  ⟨slot, []⟩

/-! ## Marking a tree -/

mutual

/-- The node at `mark` of a template, with marks on it and below it. A block and its body, and also
the body of any other node, are marked by the place of the node. -/
def Node.stamp {ρ : Type} (mark : Mark) : Node Unit ρ → Node Mark ρ
  | .text line text => .text line text
  | .interpolation line expression escape => .interpolation line expression escape
  | .branch line expression inverted body =>
    .branch line expression inverted ⟨mark, body.contentType, stampNodes mark 0 body.nodes⟩
  | .inclusion reference => .inclusion reference
  | .block part =>
    .block ⟨mark, part.line, part.name,
      ⟨mark, part.body.contentType, stampNodes mark 0 part.body.nodes⟩⟩
  | .layout outer =>
    .layout ⟨outer.line, outer.inclusion,
      ⟨mark, outer.overrides.contentType, stampNodes mark 0 outer.overrides.nodes⟩⟩
termination_by structural node => node

/-- The nodes from `position` on of the body at `mark` of a template, with marks. -/
def stampNodes {ρ : Type} (mark : Mark) (position : Nat) : List (Node Unit ρ) → List (Node Mark ρ)
  | [] => []
  | node :: nodes =>
    node.stamp ⟨mark.slot, position :: mark.path⟩ :: stampNodes mark (position + 1) nodes
termination_by structural nodes => nodes

end

/-- The trees in a store. -/
abbrev StoredNode : Type :=
  Node Mark Slot

/-- The nodes of a compiled template, with the marks of the slot that it goes into. -/
def Slot.stamp (slot : Slot) (template : Template Unit Slot) : List StoredNode :=
  stampNodes slot.mark 0 template.nodes

/-! ## The store -/

/-- What a slot holds. -/
structure Cell where
  /-- The content type of the template. -/
  contentType : ContentType
  /-- The nodes of the template, once there are any: until then, the slot is a placeholder. -/
  content : Option (List StoredNode)

/-- A store of templates. -/
structure Store where
  /-- What the slots hold, in the order of their numbers. -/
  cells : List Cell := []

namespace Store

/-- What a slot holds. -/
def cell? (store : Store) (slot : Slot) : Option Cell :=
  store.cells[slot.index]?

/-- The slot has been reserved and not yet been filled. -/
def isPlaceholder (store : Store) (slot : Slot) : Bool :=
  match store.cell? slot with
  | some cell => cell.content.isNone
  | none => false

/-- The nodes of the template in a slot; a placeholder has none. -/
def nodes (store : Store) (slot : Slot) : List StoredNode :=
  match store.cell? slot with
  | some cell => cell.content.getD []
  | none => []

/-- The content type of the template in a slot. -/
def contentType (store : Store) (slot : Slot) : ContentType :=
  match store.cell? slot with
  | some cell => cell.contentType
  | none => .html

/-- The slot that is reserved next. -/
def next (store : Store) : Slot :=
  ⟨store.cells.length⟩

/-- The store with one more slot. -/
def push (store : Store) (cell : Cell) : Store :=
  ⟨store.cells ++ [cell]⟩

/-- Reserves a slot and leaves it a placeholder. -/
def reserve (store : Store) (contentType : ContentType) : Slot × Store :=
  (store.next, store.push ⟨contentType, none⟩)

/-- Reserves a slot and fills it with a compiled template. -/
def insert (store : Store) (template : Template Unit Slot) : Slot × Store :=
  (store.next, store.push ⟨template.contentType, some (store.next.stamp template)⟩)

/-- Fills a placeholder. -/
def fill (store : Store) (slot : Slot) (contentType : ContentType) (nodes : List StoredNode) :
    Except Fault Store :=
  if store.isPlaceholder slot then
    .ok ⟨store.cells.set slot.index ⟨contentType, some nodes⟩⟩
  else .error .alreadyFilled

end Store

end Logicless
