import Logicless.Proofs.Tree.Inside

/-!
# The graph of trees

A tree leads to others in two ways. A node of it has a body, which is a tree itself, or a node includes
another template. By bodies alone, a tree leads to what is inside it; by inclusions it leads on to other
slots of the store, in cycles where templates include themselves.

## Shape of the module

* `Node.body?` and `Node.inclusion?` are what a node leads to. `Body.Encloses` goes by bodies alone.
* `Body.stamp` puts marks on a body, and `exists_encloses_of_stamp` says that the bodies inside it are
  those that were inside it before, with marks.
* `Store.Tree` is a template of a store or a body in one, and `Store.Leads` relates trees. What is reached
  from a template lies in the slots that its slot reaches (`exists_lies_of_leads`).
-/

namespace Logicless

section

variable {μ ρ : Type}

/-! ## What a node leads to -/

/-- The body of a node: that of a section or a block, or the overrides of a layout. -/
def Node.body? : Node μ ρ → Option (Body μ (Node μ ρ))
  | branch _ _ _ body => some body
  | block part => some part.body
  | layout outer => some outer.overrides
  | text _ _ | interpolation _ _ _ | inclusion _ => none

/-- What a node itself includes, not what the nodes inside it do. -/
def Node.inclusion? : Node μ ρ → Option (Inclusion ρ)
  | inclusion reference => some reference
  | layout outer => some outer.inclusion
  | text _ _ | interpolation _ _ _ | branch _ _ _ _ | block _ => none

/-- The nodes directly inside a node are those of its body. -/
theorem Node.mem_children_iff {node child : Node μ ρ} :
    child ∈ node.children ↔ ∃ body, node.body? = some body ∧ child ∈ body.nodes := by
  cases node <;> simp [children, body?]

theorem Node.mem_inclusions_of_inclusion? {node : Node μ ρ} {reference : Inclusion ρ}
    (h : node.inclusion? = some reference) : reference ∈ node.inclusions := by
  cases node with
  | text | interpolation | branch | block => cases h
  | inclusion | layout =>
    cases h
    simp [inclusions]

/-- A body is that of a node of another one. -/
def Body.Encloses (outer inner : Body μ (Node μ ρ)) : Prop :=
  ∃ node ∈ outer.nodes, node.body? = some inner

end

/-! ## Marked bodies -/

section

variable {ρ : Type}

/-- A body with marks. -/
def Body.stamp (mark : Mark) (body : Body Unit (Node Unit ρ)) : Body Mark (Node Mark ρ) :=
  ⟨mark, body.contentType, stampNodes mark 0 body.nodes⟩

theorem Node.body?_stamp (mark : Mark) (node : Node Unit ρ) :
    (node.stamp mark).body? = node.body?.map (Body.stamp mark) := by
  cases node <;> rfl

theorem exists_of_mem_stampNodes {mark : Mark} {position : Nat} {nodes : List (Node Unit ρ)}
    {stamped : Node Mark ρ} (h : stamped ∈ stampNodes mark position nodes) :
    ∃ node ∈ nodes, ∃ mark', stamped = node.stamp mark' := by
  induction nodes generalizing position with
  | nil => cases h
  | cons node nodes ih =>
    rw [stampNodes] at h
    rcases List.mem_cons.mp h with rfl | h
    · exact ⟨node, List.mem_cons_self, _, rfl⟩
    · obtain ⟨other, hother, hstamped⟩ := ih h
      exact ⟨other, List.mem_cons_of_mem _ hother, hstamped⟩

/-- A body inside a marked one was inside it before it was marked. -/
theorem exists_encloses_of_stamp {mark : Mark} {body : Body Unit (Node Unit ρ)}
    {inner : Body Mark (Node Mark ρ)} (h : Relation.ReflTransGen Body.Encloses (body.stamp mark) inner) :
    ∃ origin mark', Relation.ReflTransGen Body.Encloses body origin ∧ inner = origin.stamp mark' := by
  induction h with
  | refl => exact ⟨body, mark, .refl, rfl⟩
  | tail _ hencloses ih =>
    obtain ⟨origin, mark', hreached, rfl⟩ := ih
    obtain ⟨stamped, hstamped, hbody⟩ := hencloses
    obtain ⟨node, hnode, mark'', rfl⟩ := exists_of_mem_stampNodes hstamped
    rw [Node.body?_stamp] at hbody
    obtain ⟨inside, hinside, rfl⟩ := Option.map_eq_some_iff.mp hbody
    exact ⟨inside, mark'', hreached.tail ⟨node, hnode, hinside⟩, rfl⟩

end

/-! ## Trees of a store -/

namespace Store

/-- A tree of a store. -/
inductive Tree where
  /-- The template in a slot. -/
  | template (slot : Slot)
  /-- A body. -/
  | body (inner : Body Mark StoredNode)

/-- The nodes at the top of a tree. -/
def Tree.nodes (store : Store) : Tree → List StoredNode
  | .template slot => store.nodes slot
  | .body inner => inner.nodes

/-- The content type of a tree, which a slot that was never reserved has none of. -/
def Tree.contentType? (store : Store) : Tree → Option ContentType
  | .template slot => (store.cell? slot).map Cell.contentType
  | .body inner => some inner.contentType

/-- One tree leads to another by one of its nodes: to the body of the node, or to the template that the
node includes. -/
inductive Leads (store : Store) : Tree → Tree → Prop
  | body {tree : Tree} {node : StoredNode} {body : Body Mark StoredNode} (hnode : node ∈ tree.nodes store)
      (hbody : node.body? = some body) : Leads store tree (.body body)
  | template {tree : Tree} {node : StoredNode} {reference : Inclusion Slot}
      (hnode : node ∈ tree.nodes store) (hreference : node.inclusion? = some reference) :
      Leads store tree (.template reference.target)

/-- A tree is the template of a slot or a body inside it. -/
inductive Lies (store : Store) (slot : Slot) : Tree → Prop
  | template : Lies store slot (.template slot)
  | body {node : StoredNode} {body : Body Mark StoredNode} (hnode : Inside node (store.nodes slot))
      (hbody : node.body? = some body) : Lies store slot (.body body)

variable {store : Store} {slot : Slot} {tree : Tree}

/-- The nodes of a tree are inside the template that it lies in. -/
theorem Lies.inside {node : StoredNode} (h : store.Lies slot tree) (hnode : node ∈ tree.nodes store) :
    Inside node (store.nodes slot) := by
  cases h with
  | template => exact .of_mem hnode
  | body hinside hbody => exact hinside.child (Node.mem_children_iff.mpr ⟨_, hbody, hnode⟩)

/-- What is reached from a tree lies in the slots that its slot reaches by inclusions. -/
theorem exists_lies_of_leads {tree' : Tree} (h : store.Lies slot tree)
    (hreached : Relation.ReflTransGen store.Leads tree tree') :
    ∃ target, Relation.ReflTransGen store.Includes slot target ∧ store.Lies target tree' := by
  induction hreached with
  | refl => exact ⟨slot, .refl, h⟩
  | tail _ hleads ih =>
    obtain ⟨target, hreaches, hlies⟩ := ih
    cases hleads with
    | body hnode hbody => exact ⟨target, hreaches, .body (hlies.inside hnode) hbody⟩
    | template hnode hreference =>
      have hincludes := (hlies.inside hnode).inclusions_subset (Node.mem_inclusions_of_inclusion? hreference)
      exact ⟨_, hreaches.tail ⟨_, hincludes, rfl⟩, .template⟩

end Store

end Logicless
