import Logicless.Proofs.Objects.Compiler
import Mathlib.Data.List.Perm.Subperm
import Mathlib.Order.WellFounded

/-!
# The order in which objects are made

A body is made when its tag is closed. What is in it was collected while the tag was open, so the bodies
among its nodes were made before, and each of them is in no other place: the node that a closed tag becomes
is handed to the scope below, and from there to one body or to one template. Templates are made before what
is in them, but no node has a template for its body. So going from an object to a body in it goes from a
template to a body or from one body to an earlier one.

All of this is about the nodes on the heap together with the loose ones, which are still in the scopes of
open tags. While an included template is compiled, the open tags of the including one wait, and so do those
of any template around it; `loose` stands for whatever nodes are waiting.

## Shape of the proof

* `Heap.Tidy` is what holds of the nodes of a heap and the loose ones, in whatever order.
* `Heap.Consistent` is the invariant. `enter`, `make` and `fill` keep it, where they take the nodes that the
  new or filled object has from the loose ones. `Consistent.isForest` is what it comes to.
* `consistent_perform` is the step, for each action of the compiler, and `consistent_resolveWithin` the run
  through nested compilations.
* `ObjectSession.consistent_run` is about sessions.
-/

namespace Logicless

/-- The bodies of some nodes. -/
def bodiesAmong (nodes : List ObjectNode) : List Address :=
  nodes.filterMap ObjectNode.body?

namespace Heap

variable {heap heap' : Heap} {nodes nodes' loose loose' : List ObjectNode} {node : ObjectNode}
  {address owner owner' body target : Address} {contentType : ContentType}

/-- The nodes of all objects. -/
def allNodes (heap : Heap) : List ObjectNode :=
  heap.objects.flatMap Object.nodes

/-- Some nodes are tidy: no body is the body of two of them, bodies are objects of the heap and no
templates, and what is included is a template. -/
structure Tidy (heap : Heap) (nodes : List ObjectNode) : Prop where
  nodup : (bodiesAmong nodes).Nodup
  body : ∀ body ∈ bodiesAmong nodes, body.index < heap.objects.length ∧ body ∉ heap.templates
  target : ∀ node ∈ nodes, ∀ target, node.target? = some target → target ∈ heap.templates

/-- The invariant of a heap with some loose nodes. -/
structure Consistent (heap : Heap) (loose : List ObjectNode) : Prop where
  /-- Templates are objects of the heap. -/
  bounded : ∀ template ∈ heap.templates, template.index < heap.objects.length
  /-- A body has its nodes from the start, and the bodies in it were made before it. -/
  settled : ∀ address object, heap.object? address = some object → address ∉ heap.templates →
    ∃ contentType nodes, object = ⟨contentType, some nodes⟩ ∧
      ∀ body ∈ bodiesAmong nodes, body.index < address.index
  /-- The nodes are tidy. -/
  tidy : heap.Tidy (heap.allNodes ++ loose)

/-! ## Tidy nodes -/

theorem Tidy.subperm (h : heap.Tidy nodes) (hnodes : nodes'.Subperm nodes) : heap.Tidy nodes' := by
  obtain ⟨sub, hperm, hsub⟩ := hnodes
  have hbodies : (bodiesAmong sub).Sublist (bodiesAmong nodes) := hsub.filterMap _
  have hsame : (bodiesAmong sub).Perm (bodiesAmong nodes') := hperm.filterMap _
  refine ⟨hsame.nodup (h.nodup.sublist hbodies), ?_, ?_⟩
  · intro body hbody
    exact h.body body (hbodies.subset (hsame.mem_iff.mpr hbody))
  · intro node hnode
    exact h.target node (hsub.subset (hperm.mem_iff.mpr hnode))

/-- Nodes stay tidy when more objects are made, unless one of their bodies is a template now. -/
theorem Tidy.mono (h : heap.Tidy nodes) (hlength : heap.objects.length ≤ heap'.objects.length)
    (htemplates : ∀ template ∈ heap.templates, template ∈ heap'.templates)
    (hnew : ∀ template ∈ heap'.templates, template ∈ heap.templates ∨ template = heap.next) :
    heap'.Tidy nodes where
  nodup := h.nodup
  body := by
    intro body hbody
    obtain ⟨hlt, hbodies⟩ := h.body body hbody
    refine ⟨hlt.trans_le hlength, fun hmem => ?_⟩
    rcases hnew body hmem with hmem | rfl
    · exact hbodies hmem
    · exact Nat.lt_irrefl _ hlt
  target := fun node hnode target htarget => htemplates target (h.target node hnode target htarget)

theorem Tidy.cons_of_body?_eq_none (h : heap.Tidy nodes) (hbody : node.body? = none)
    (htarget : ∀ target, node.target? = some target → target ∈ heap.templates) :
    heap.Tidy (node :: nodes) := by
  have hbodies : bodiesAmong (node :: nodes) = bodiesAmong nodes := List.filterMap_cons_none hbody
  refine ⟨hbodies ▸ h.nodup, hbodies ▸ h.body, ?_⟩
  intro other hother
  rcases List.mem_cons.mp hother with rfl | hother
  · exact htarget
  · exact h.target other hother

theorem Tidy.cons_of_body? (h : heap.Tidy nodes) (hbody : node.body? = some body)
    (hnew : body ∉ bodiesAmong nodes)
    (hplace : body.index < heap.objects.length ∧ body ∉ heap.templates)
    (htarget : ∀ target, node.target? = some target → target ∈ heap.templates) :
    heap.Tidy (node :: nodes) := by
  have hbodies : bodiesAmong (node :: nodes) = body :: bodiesAmong nodes :=
    List.filterMap_cons_some hbody
  refine ⟨hbodies ▸ List.nodup_cons.mpr ⟨hnew, h.nodup⟩, ?_, ?_⟩
  · rw [hbodies]
    exact List.forall_mem_cons.mpr ⟨hplace, h.body⟩
  · exact List.forall_mem_cons.mpr ⟨htarget, h.target⟩

/-! ## What keeps a heap consistent -/

theorem Consistent.empty : ({} : Heap).Consistent [] where
  bounded := by simp
  settled := by
    intro address object hobject
    cases hobject
  tidy := ⟨List.nodup_nil, by simp [allNodes, bodiesAmong], by simp [allNodes]⟩

/-- Loose nodes can be put in another order, and some can be dropped. -/
theorem Consistent.subperm (h : heap.Consistent loose) (hloose : loose'.Subperm loose) :
    heap.Consistent loose' :=
  ⟨h.bounded, h.settled, h.tidy.subperm ((List.subperm_append_left _).mpr hloose)⟩

theorem Consistent.drop (h : heap.Consistent (nodes ++ loose)) : heap.Consistent loose :=
  h.subperm (List.sublist_append_right nodes loose).subperm

/-- A node with no body becomes loose. -/
theorem Consistent.cons (h : heap.Consistent loose) (hbody : node.body? = none)
    (htarget : ∀ target, node.target? = some target → target ∈ heap.templates) :
    heap.Consistent (node :: loose) :=
  ⟨h.bounded, h.settled,
    (h.tidy.cons_of_body?_eq_none hbody htarget).subperm List.perm_middle.subperm⟩

theorem allNodes_push (heap : Heap) (object : Object) :
    (heap.push object).allNodes = heap.allNodes ++ object.nodes := by
  rw [allNodes, push, List.flatMap_append, List.flatMap_singleton]
  rfl

/-- Loose nodes become those of a template. -/
theorem Consistent.enter {object : Object} (h : heap.Consistent (object.nodes ++ loose)) :
    (heap.enter object).2.Consistent loose where
  bounded := by
    intro template htemplate
    show template.index < (heap.objects ++ [object]).length
    rw [List.length_append, List.length_singleton]
    rcases List.mem_append.mp htemplate with htemplate | htemplate
    · exact Nat.lt_succ_of_lt (h.bounded template htemplate)
    · rw [List.mem_singleton.mp htemplate]
      exact Nat.lt_succ_self _
  settled := by
    intro address object' hobject htemplate
    rw [Heap.enter, List.mem_append, not_or] at htemplate
    rcases object?_push_eq_some hobject with hobject | ⟨rfl, _⟩
    · exact h.settled address object' hobject htemplate.1
    · exact absurd (List.mem_singleton_self _) htemplate.2
  tidy := by
    rw [show (heap.enter object).2.allNodes = heap.allNodes ++ object.nodes from allNodes_push heap object,
      List.append_assoc]
    refine h.tidy.mono ?_ ?_ ?_
    · exact (List.length_append ▸ Nat.le_add_right _ _ :
        heap.objects.length ≤ (heap.objects ++ [object]).length)
    · exact fun template htemplate => List.mem_append_left _ htemplate
    · intro template htemplate
      rcases List.mem_append.mp htemplate with htemplate | htemplate
      · exact .inl htemplate
      · exact .inr (List.mem_singleton.mp htemplate)

/-- Loose nodes become those of a body, and the node that has the body becomes loose. -/
theorem Consistent.make (h : heap.Consistent (nodes ++ loose)) (hbody : node.body? = some heap.next)
    (htarget : ∀ target, node.target? = some target → target ∈ heap.templates) :
    (heap.make contentType nodes).2.Consistent (node :: loose) := by
  have hlength : (heap.make contentType nodes).2.objects.length = heap.objects.length + 1 :=
    List.length_append
  have hall : (heap.make contentType nodes).2.allNodes = heap.allNodes ++ nodes := allNodes_push heap _
  have hlater : heap.next ∉ bodiesAmong (heap.allNodes ++ (nodes ++ loose)) :=
    fun hmem => Nat.lt_irrefl _ (h.tidy.body _ hmem).1
  refine ⟨?_, ?_, ?_⟩
  · intro template htemplate
    rw [hlength]
    exact Nat.lt_succ_of_lt (h.bounded template htemplate)
  · intro address object hobject htemplate
    rcases object?_push_eq_some hobject with hobject | ⟨rfl, rfl⟩
    · exact h.settled address object hobject htemplate
    · -- the bodies among the loose nodes were made before this one
      refine ⟨contentType, nodes, rfl, fun body hmem => (h.tidy.body body ?_).1⟩
      simp only [bodiesAmong, List.filterMap_append, List.mem_append] at hmem ⊢
      exact .inr (.inl hmem)
  · have htidy : (heap.make contentType nodes).2.Tidy (node :: (heap.allNodes ++ (nodes ++ loose))) := by
      have hbefore : (heap.make contentType nodes).2.Tidy (heap.allNodes ++ (nodes ++ loose)) :=
        h.tidy.mono (hlength ▸ Nat.le_succ _) (fun _ => id) fun _ => .inl
      refine hbefore.cons_of_body? hbody hlater ?_ htarget
      rw [hlength]
      exact ⟨Nat.lt_succ_self _, fun hmem => Nat.lt_irrefl _ (h.bounded _ hmem)⟩
    rw [hall]
    refine htidy.subperm (List.Perm.subperm ?_)
    rw [List.append_assoc, ← List.append_assoc heap.allNodes, ← List.append_assoc heap.allNodes]
    exact List.perm_middle

/-- The nodes of some objects once one without nodes has got some. -/
theorem perm_flatMap_set {objects : List Object} {index : Nat} {object object' : Object}
    (h : objects[index]? = some object) (hnone : object.nodes = []) :
    ((objects.set index object').flatMap Object.nodes).Perm
      (objects.flatMap Object.nodes ++ object'.nodes) := by
  obtain ⟨hlt, rfl⟩ := List.getElem?_eq_some_iff.mp h
  rw [List.set_eq_take_append_cons_drop, if_pos hlt, List.flatMap_append, List.flatMap_cons]
  conv_rhs => rw [← List.take_append_drop index objects, List.drop_eq_getElem_cons hlt,
    List.flatMap_append, List.flatMap_cons, hnone, List.nil_append, List.append_assoc]
  exact List.perm_append_comm.append_left _

/-- A body has its nodes from the start, so what can be filled is a template. -/
theorem Consistent.mem_templates_of_fill (h : heap.Consistent loose)
    (hfill : heap.fill address contentType nodes = .ok heap') : address ∈ heap.templates := by
  obtain ⟨⟨contentType', hplaceholder⟩, _⟩ := fill_eq_ok_iff.mp hfill
  by_contra htemplate
  obtain ⟨_, _, hsettled, _⟩ := h.settled address _ hplaceholder htemplate
  cases hsettled

/-- Loose nodes become those of a placeholder. -/
theorem Consistent.fill (h : heap.Consistent (nodes ++ loose))
    (hfill : heap.fill address contentType nodes = .ok heap') : heap'.Consistent loose := by
  have htemplate' := h.mem_templates_of_fill hfill
  obtain ⟨⟨contentType', hplaceholder⟩, rfl⟩ := fill_eq_ok_iff.mp hfill
  have hlength : (heap.set address ⟨contentType, some nodes⟩).objects.length = heap.objects.length :=
    List.length_set
  refine ⟨?_, ?_, ?_⟩
  · intro template htemplate
    rw [hlength]
    exact h.bounded template htemplate
  · intro other object hobject htemplate
    have hother : address ≠ other := by
      rintro rfl
      exact htemplate htemplate'
    rw [object?_set_ne _ hother] at hobject
    exact h.settled other object hobject htemplate
  · have hperm : (heap.set address ⟨contentType, some nodes⟩).allNodes.Perm (heap.allNodes ++ nodes) :=
      perm_flatMap_set hplaceholder rfl
    have htidy : heap.Tidy _ := h.tidy.subperm ((hperm.append_right loose).trans
      (List.append_assoc heap.allNodes nodes loose ▸ .refl _)).subperm
    exact ⟨htidy.nodup, hlength.symm ▸ htidy.body, htidy.target⟩

/-! ## What a consistent heap is like -/

theorem exists_object?_of_mem_nodes (hnode : node ∈ heap.nodes address) :
    ∃ object, heap.object? address = some object ∧ heap.nodes address = object.nodes := by
  rw [Heap.nodes] at hnode ⊢
  split at hnode
  · rename_i object hobject
    exact ⟨object, hobject, rfl⟩
  · cases hnode

theorem mem_allNodes (hnode : node ∈ heap.nodes address) : node ∈ heap.allNodes := by
  obtain ⟨object, hobject, hnodes⟩ := exists_object?_of_mem_nodes hnode
  exact List.mem_flatMap.mpr ⟨object, List.mem_of_getElem? hobject, hnodes ▸ hnode⟩

theorem mem_bodiesAmong_of_contains (h : heap.Contains owner body) (loose : List ObjectNode) :
    body ∈ bodiesAmong (heap.allNodes ++ loose) := by
  obtain ⟨node, hnode, hbody⟩ := h
  exact List.mem_filterMap.mpr ⟨node, List.mem_append_left _ (mem_allNodes hnode), hbody⟩

/-- Where a relation holds between all elements of a list, it is between different ones. -/
theorem eq_of_pairwise {α : Type} {R : α → α → Prop} {list : List α} (h : list.Pairwise R)
    (hsymm : ∀ a b, R a b → R b a) {i j : Nat} {a b : α} (ha : list[i]? = some a) (hb : list[j]? = some b)
    (hnot : ¬ R a b) : i = j := by
  obtain ⟨hi, rfl⟩ := List.getElem?_eq_some_iff.mp ha
  obtain ⟨hj, rfl⟩ := List.getElem?_eq_some_iff.mp hb
  rcases Nat.lt_trichotomy i j with hlt | heq | hlt
  · exact absurd (List.pairwise_iff_getElem.mp h i j hi hj hlt) hnot
  · exact heq
  · exact absurd (hsymm _ _ (List.pairwise_iff_getElem.mp h j i hj hi hlt)) hnot

/-- If all nodes have different bodies, a body is in one place. -/
theorem eq_of_carries (hnodup : (bodiesAmong heap.allNodes).Nodup) {position position' : Nat}
    (h : heap.Carries owner position body) (h' : heap.Carries owner' position' body) :
    owner = owner' ∧ position = position' := by
  have hnodes := List.pairwise_filterMap.mp hnodup
  obtain ⟨hinside, hbetween⟩ := List.pairwise_flatMap.mp hnodes
  obtain ⟨node, hnode, hbody⟩ := h
  obtain ⟨node', hnode', hbody'⟩ := h'
  obtain ⟨object, hobject, heq⟩ := exists_object?_of_mem_nodes (List.mem_of_getElem? hnode)
  obtain ⟨object', hobject', heq'⟩ := exists_object?_of_mem_nodes (List.mem_of_getElem? hnode')
  have hsame : ¬ ∀ b, node.body? = some b → ∀ b', node'.body? = some b' → b ≠ b' :=
    fun hne => hne body hbody body hbody' rfl
  have hindex : owner.index = owner'.index := by
    refine eq_of_pairwise hbetween ?_ hobject hobject' fun hne => ?_
    · exact fun a b hne y hy x hx b hb b' hb' => (hne x hx y hy b' hb' b hb).symm
    · exact hsame (hne node (heq ▸ List.mem_of_getElem? hnode) node' (heq' ▸ List.mem_of_getElem? hnode'))
  obtain rfl : owner = owner' := congrArg Address.mk hindex
  refine ⟨rfl, eq_of_pairwise (hinside object (List.mem_of_getElem? hobject)) ?_ (heq ▸ hnode)
    (heq ▸ hnode') hsame⟩
  exact fun a b hne x hx y hy => (hne y hy x hx).symm

/-- A body in a body was made before it. -/
theorem Consistent.lt_of_contains (h : heap.Consistent loose) (hbody : heap.Contains owner body)
    (howner : owner ∉ heap.templates) : body.index < owner.index := by
  obtain ⟨node, hnode, hbody⟩ := hbody
  obtain ⟨object, hobject, hnodes⟩ := exists_object?_of_mem_nodes hnode
  obtain ⟨_, nodes, rfl, hearlier⟩ := h.settled owner object hobject howner
  rw [hnodes] at hnode
  exact hearlier body (List.mem_filterMap.mpr ⟨node, hnode, hbody⟩)

/-- From an object to a body in it, one goes from a template to a body or from a body to an earlier one. So
this comes to an end. -/
theorem Consistent.wellFounded (h : heap.Consistent loose) :
    WellFounded fun body owner => heap.Contains owner body := by
  let rank (address : Address) : Nat :=
    if address ∈ heap.templates then heap.objects.length else address.index
  refine Subrelation.wf ?_ (InvImage.wf rank wellFounded_lt)
  intro body owner hbody
  obtain ⟨hlt, hapart⟩ := h.tidy.body body (mem_bodiesAmong_of_contains hbody loose)
  show rank body < rank owner
  simp only [rank, if_neg hapart]
  split
  · exact hlt
  · exact h.lt_of_contains hbody ‹_›

/-- The bodies of a consistent heap are a forest. -/
theorem Consistent.isForest (h : heap.Consistent loose) : heap.IsForest where
  owned owner body hbody := by
    obtain ⟨position, hcarries⟩ := contains_iff_carries.mp hbody
    have hnodup : (bodiesAmong heap.allNodes).Nodup :=
      (h.tidy.subperm (List.sublist_append_left _ loose).subperm).nodup
    refine ⟨(owner, position), hcarries, fun place hplace => ?_⟩
    obtain ⟨howner, hposition⟩ := eq_of_carries hnodup hplace hcarries
    exact Prod.ext howner hposition
  filled owner body hbody := by
    obtain ⟨hlt, hapart⟩ := h.tidy.body body (mem_bodiesAmong_of_contains hbody loose)
    have hobject : heap.object? body = some heap.objects[body.index] := List.getElem?_eq_getElem hlt
    obtain ⟨contentType, nodes, heq, _⟩ := h.settled body _ hobject hapart
    exact ⟨contentType, nodes, heq ▸ hobject⟩
  apart owner body hbody := (h.tidy.body body (mem_bodiesAmong_of_contains hbody loose)).2
  included includer target := by
    rintro ⟨node, hnode, htarget⟩
    exact h.tidy.target node (List.mem_append_left _ (mem_allNodes hnode)) target htarget
  cycles _ _ := exists_includes_of_isChain h.wellFounded
  wellFounded := h.wellFounded

end Heap

/-! ## The compiler -/

/-- The nodes in the scopes of open tags. -/
def ObjectStack.nodes (stack : ObjectStack) : List ObjectNode :=
  stack.current.nodes ++ stack.enclosing.flatMap ObjectScope.nodes

theorem ObjectStack.perm_nodes_append (stack : ObjectStack) (node : ObjectNode) (loose : List ObjectNode) :
    ((stack.append node).nodes ++ loose).Perm (node :: (stack.nodes ++ loose)) := by
  show ((stack.current.nodes ++ [node]) ++ _ ++ loose).Perm (node :: (stack.current.nodes ++ _ ++ loose))
  rw [List.append_assoc, List.append_assoc, List.append_assoc]
  exact List.perm_middle

theorem ObjectStack.nodes_push (stack : ObjectStack) (tag : Tag) : (stack.push tag).nodes = stack.nodes := by
  simp [ObjectStack.nodes, ObjectStack.push]

theorem ObjectStack.nodes_reopen (stack : ObjectStack) (next : Option Tag) :
    (stack.reopen next).nodes = stack.nodes := by
  cases next with
  | none => rfl
  | some tag => exact stack.nodes_push tag

namespace ObjectRepository

variable {repository : ObjectRepository} {nodes loose loose' : List ObjectNode} {node : ObjectNode}

/-- The invariant of a repository with some loose nodes. -/
structure Consistent (repository : ObjectRepository) (loose : List ObjectNode) : Prop where
  heap : repository.heap.Consistent loose
  cached : ∀ entry ∈ repository.cache, entry.2 ∈ repository.heap.templates
  met : ∀ heap ∈ repository.met, heap.IsForest

namespace Consistent

theorem empty : ({} : ObjectRepository).Consistent [] :=
  ⟨.empty, by simp, by simp⟩

theorem subperm (h : repository.Consistent loose) (hloose : loose'.Subperm loose) :
    repository.Consistent loose' :=
  ⟨h.heap.subperm hloose, h.cached, h.met⟩

theorem drop (h : repository.Consistent (nodes ++ loose)) : repository.Consistent loose :=
  ⟨h.heap.drop, h.cached, h.met⟩

theorem cons (h : repository.Consistent loose) (hbody : node.body? = none)
    (htarget : ∀ target, node.target? = some target → target ∈ repository.heap.templates) :
    repository.Consistent (node :: loose) :=
  ⟨h.heap.cons hbody htarget, h.cached, h.met⟩

theorem make (h : repository.Consistent (nodes ++ loose)) (contentType : ContentType)
    (hbody : node.body? = some repository.heap.next)
    (htarget : ∀ target, node.target? = some target → target ∈ repository.heap.templates) :
    (repository.make contentType nodes).2.Consistent (node :: loose) :=
  ⟨h.heap.make hbody htarget, h.cached, h.met⟩

theorem noted (h : repository.Consistent loose) : repository.noted.Consistent loose :=
  ⟨h.heap, h.cached, List.forall_mem_cons.mpr ⟨h.heap.isForest, h.met⟩⟩

theorem evict (h : repository.Consistent loose) (id : String) : (repository.evict id).Consistent loose :=
  ⟨h.heap, fun entry hentry => h.cached entry (List.takeWhile_subset _ hentry), h.met⟩

end Consistent

end ObjectRepository

/-- A loader keeps a repository consistent, whatever nodes are loose, and loads templates. -/
def Loader.Keeps (loader : Loader ObjectRepository Address) : Prop :=
  ∀ name relativeTo repository loose, repository.Consistent loose →
    (loader name relativeTo repository).2.Consistent loose ∧
      ∀ target, (loader name relativeTo repository).1 = .ok target →
        target ∈ (loader name relativeTo repository).2.heap.templates

/-- A computation has left a repository consistent, with the nodes loose that its value has, if any. -/
def Leaves {ε α : Type} (nodesOf : α → List ObjectNode) (loose : List ObjectNode) :
    Except ε α × ObjectRepository → Prop
  | (.ok value, repository) => repository.Consistent (nodesOf value ++ loose)
  | (.error _, repository) => repository.Consistent loose

section

variable {setting : Setting} {loader : Loader ObjectRepository Address} {stack : ObjectStack}
  {repository : ObjectRepository} {loose : List ObjectNode}

/-- The innermost tag is closed, and the node that it becomes is appended to the scope below. -/
theorem ObjectRepository.Consistent.close {scope below : ObjectScope} {enclosing : List ObjectScope}
    {node : ObjectNode} (h : repository.Consistent (ObjectStack.nodes ⟨scope, below :: enclosing⟩ ++ loose))
    (contentType : ContentType) (hbody : node.body? = some repository.heap.next)
    (htarget : ∀ target, node.target? = some target → target ∈ repository.heap.templates) :
    (repository.make contentType scope.nodes).2.Consistent
      (ObjectStack.nodes ⟨below.append node, enclosing⟩ ++ loose) := by
  have h : repository.Consistent (scope.nodes ++ (ObjectStack.nodes ⟨below, enclosing⟩ ++ loose)) := by
    rwa [← List.append_assoc]
  exact (h.make contentType hbody htarget).subperm
    (ObjectStack.perm_nodes_append ⟨below, enclosing⟩ node loose).subperm

/-- A node with no body is appended to the innermost scope. -/
theorem ObjectRepository.Consistent.append {node : ObjectNode}
    (h : repository.Consistent (stack.nodes ++ loose)) (hbody : node.body? = none)
    (htarget : ∀ target, node.target? = some target → target ∈ repository.heap.templates) :
    repository.Consistent ((stack.append node).nodes ++ loose) :=
  (h.cons hbody htarget).subperm (stack.perm_nodes_append node loose).subperm

/-- Whatever the compiler does with a token leaves the repository consistent. -/
theorem leaves_perform (hloader : loader.Keeps) (h : repository.Consistent (stack.nodes ++ loose))
    (action : Action) :
    Leaves ObjectStack.nodes loose (action.perform setting loader stack repository) := by
  cases action with
  | keep => exact h
  | append leaf => cases leaf <;> exact h.append rfl (by simp [Leaf.objectNode, ObjectNode.target?])
  | enter tag =>
    show repository.Consistent ((stack.push tag).nodes ++ loose)
    rwa [stack.nodes_push tag]
  | close closing next =>
    obtain ⟨scope, enclosing⟩ := stack
    cases enclosing with
    | nil => exact h.drop
    | cons below enclosing =>
      cases closing with
      | error breach => exact h.drop
      | ok closing =>
        show ObjectRepository.Consistent _ ((ObjectStack.reopen _ next).nodes ++ loose)
        rw [ObjectStack.nodes_reopen]
        cases closing <;> exact h.close setting.contentType rfl
          (by simp [Closing.objectNode, ObjectNode.target?])
  | load line name citing =>
    obtain ⟨hkeeps, htarget⟩ := hloader name setting.template repository _ h
    simp only [Action.perform]
    rcases hload : loader name setting.template repository with ⟨failure | target, after⟩
    · rw [hload] at hkeeps
      exact hkeeps.drop
    · rw [hload] at hkeeps htarget
      exact hkeeps.append rfl fun _ heq => Option.some.inj heq ▸ htarget target rfl
  | closeLayout line name citing =>
    obtain ⟨scope, enclosing⟩ := stack
    cases enclosing with
    | nil => exact h.drop
    | cons below enclosing =>
      cases name with
      | none => exact h.drop
      | some name =>
        obtain ⟨hkeeps, htarget⟩ := hloader name setting.template repository _ h
        simp only [Action.perform]
        rcases hload : loader name setting.template repository with ⟨failure | target, after⟩
        · rw [hload] at hkeeps
          exact hkeeps.drop
        · rw [hload] at hkeeps htarget
          exact hkeeps.close setting.contentType rfl fun _ heq => Option.some.inj heq ▸ htarget target rfl
  | refuse failure => exact h.drop

/-- Whatever a stream comes to leaves the repository consistent. -/
theorem leaves_follow (hloader : loader.Keeps) (ending : Option Failure) (tokens : List Token)
    (h : repository.Consistent (stack.nodes ++ loose)) :
    Leaves id loose (stack.follow setting loader ending tokens repository) := by
  induction tokens generalizing stack repository with
  | nil =>
    rw [ObjectStack.follow]
    cases ending with
    | none =>
      obtain ⟨scope, enclosing⟩ := stack
      cases enclosing with
      | nil => simpa [Leaves, ObjectStack.settle, ObjectStack.nodes] using h
      | cons below enclosing => exact h.drop
    | some failure =>
      simp only [ObjectStack.settle]
      split
      · exact h.drop
      · exact h.drop
  | cons token tokens ih =>
    have hstep : Leaves ObjectStack.nodes loose
        ((stack.current.tag.action setting token).perform setting loader stack repository) :=
      leaves_perform hloader h _
    rw [ObjectStack.follow]
    split
    · rename_i hperform
      rw [hperform] at hstep
      exact ih hstep
    · rename_i hperform
      rw [hperform] at hstep
      exact hstep

theorem leaves_compileObject (setting : Setting) (hloader : loader.Keeps) (stream : Stream)
    (h : repository.Consistent loose) :
    Leaves id loose (compileObject setting loader stream repository) := by
  cases stream with
  | unopened failure => exact h
  | opened tokens ending => exact leaves_follow hloader ending tokens h

end

/-! ## The repository -/

namespace ObjectRepository

variable {repository : ObjectRepository} {loose nodes : List ObjectNode}

theorem Consistent.reserve (h : repository.Consistent loose) (id : String) (contentType : ContentType) :
    (repository.reserve id contentType).2.Consistent loose where
  heap := by
    have hheap : repository.heap.Consistent ((⟨contentType, none⟩ : Object).nodes ++ loose) := h.heap
    exact hheap.enter
  cached := by
    intro entry hentry
    rcases List.mem_append.mp hentry with hentry | hentry
    · exact List.mem_append_left _ (h.cached entry hentry)
    · rw [List.mem_singleton.mp hentry]
      exact List.mem_append_right _ (List.mem_singleton_self _)
  met := h.met

/-- The template that is completed has been a template all the time. -/
theorem Consistent.complete (h : repository.Consistent (nodes ++ loose)) (address : Address)
    (contentType : ContentType) :
    (repository.complete address contentType nodes).2.Consistent loose ∧
      ∀ target, (repository.complete address contentType nodes).1 = .ok target →
        target ∈ (repository.complete address contentType nodes).2.heap.templates := by
  rw [ObjectRepository.complete]
  split
  · rename_i heap hfill
    have htemplates := Heap.templates_fill hfill
    refine ⟨⟨h.heap.fill hfill, fun entry hentry => htemplates ▸ h.cached entry hentry, h.met⟩, ?_⟩
    intro target htarget
    obtain rfl := Except.ok.inj htarget
    exact htemplates ▸ h.heap.mem_templates_of_fill hfill
  · exact ⟨h.drop, by simp⟩

theorem mem_cache_of_lookup {id : String} {address : Address}
    (h : repository.cache.lookup id = some address) : (id, address) ∈ repository.cache := by
  obtain ⟨before, after, hcache, _⟩ := List.lookup_eq_some_iff.mp h
  rw [hcache]
  exact List.mem_append_right _ List.mem_cons_self

/-- Loading a template keeps a repository consistent. -/
theorem keeps_resolveWithin (source : Source) (contentType : ContentType) (fuel : Nat) :
    (resolveWithin source contentType fuel).Keeps := by
  induction fuel with
  | zero =>
    intro name relativeTo repository loose h
    exact ⟨h, by simp [resolveWithin]⟩
  | succ fuel ih =>
    intro name relativeTo repository loose h
    rw [resolveWithin]
    generalize source.templateId name relativeTo = id
    dsimp only
    split
    · rename_i address hlookup
      refine ⟨h.noted, fun target htarget => ?_⟩
      obtain rfl := Except.ok.inj htarget
      exact h.cached _ (mem_cache_of_lookup hlookup)
    · have hreserved := h.noted.reserve id contentType
      split
      · exact ⟨hreserved.evict id, by simp⟩
      · rename_i stream _
        have hleaves := leaves_compileObject ⟨contentType, some id⟩ ih stream hreserved
        split
        · rename_i hcompile
          rw [hcompile] at hleaves
          exact hleaves.complete _ contentType
        · rename_i hcompile
          rw [hcompile] at hleaves
          exact ⟨ObjectRepository.Consistent.evict hleaves id, by simp⟩

theorem consistent_compileWithin {source : Source} {contentType : ContentType} (fuel : Nat)
    (template : Option String) (stream : Stream) (h : repository.Consistent []) :
    (compileWithin source contentType fuel template stream repository).2.Consistent [] := by
  have hleaves : Leaves id [] _ := leaves_compileObject ⟨contentType, template⟩
    (keeps_resolveWithin source contentType fuel) stream h
  rw [compileWithin]
  split
  · rename_i nodes after hcompile
    rw [hcompile] at hleaves
    have hheap : after.heap.Consistent ((⟨contentType, some nodes⟩ : Object).nodes ++ []) := hleaves.heap
    exact ⟨hheap.enter, fun entry hentry => List.mem_append_left _ (hleaves.cached entry hentry),
      hleaves.met⟩
  · rename_i hcompile
    rw [hcompile] at hleaves
    exact hleaves

end ObjectRepository

namespace ObjectSession

variable {session : ObjectSession}

/-- One operation keeps the repository of a session consistent. -/
theorem consistent_perform (h : session.repository.Consistent []) (operation : Operation) :
    (session.perform operation).repository.Consistent [] := by
  cases operation with
  | resolve depth name relativeTo =>
    exact (ObjectRepository.keeps_resolveWithin session.source session.contentType depth name relativeTo
      session.repository [] h).1
  | compile depth template stream =>
    exact ObjectRepository.consistent_compileWithin depth template stream h
  | clear => exact ⟨h.heap, by simp [perform, ObjectRepository.clear], h.met⟩
  | serve tokens => exact h

/-- The repository of a session is consistent throughout. -/
theorem consistent_run (source : Source) (contentType : ContentType) (operations : List Operation) :
    (run source contentType operations).repository.Consistent [] := by
  rw [run]
  generalize hstart : ({ source := source, contentType := contentType } : ObjectSession) = start
  have h : start.repository.Consistent [] := hstart ▸ ObjectRepository.Consistent.empty
  clear hstart
  induction operations generalizing start with
  | nil => exact h
  | cons operation operations ih => exact ih _ (consistent_perform h operation)

end ObjectSession

end Logicless
