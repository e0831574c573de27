import Logicless.Proofs.Objects.Correspondence
import Logicless.Proofs.Objects.Order
import Logicless.Proofs.Render.Nesting
import Logicless.Proofs.Repository.Escaping

/-!
# Cycles of templates

A template is handed out before it is compiled, so templates that include themselves are compiled to objects
that lead back to themselves. But the compiler makes a new body for each tag that it closes, after all that
is inside it, and what a node includes is never a body. So at any time of a session, also while some
templates are still placeholders, bodies belong to one node each and the way around a cycle goes through an
inclusion. Whoever follows bodies alone, as the search for an override does, comes to an end however
recursive the templates are.

## Shape of the proof

* `Heap.Consistent.exists_overrideWithin` is about the search for an override: overrides that are inside
  others were made earlier, so their number is a limit to the calls inside each other.
* `Heap.overrideWithin_shows` says that the search on a heap finds what the search in trees does.
* `Session.cycles_lead_through_inclusions` is the result.
-/

namespace Logicless

namespace Heap

variable {heap : Heap} {loose : List ObjectNode} {overrides : Address}

/-! ## The search for an override -/

/-- A walk through nodes has an answer if each turn has one. -/
theorem exists_foldlM {turn : ObjectNode → ObjectNode → Option ObjectNode} {nodes : List ObjectNode}
    (h : ∀ node ∈ nodes, ∀ candidate, ∃ found, turn candidate node = some found) (candidate : ObjectNode) :
    ∃ found, nodes.foldlM turn candidate = some found := by
  induction nodes generalizing candidate with
  | nil => exact ⟨candidate, rfl⟩
  | cons node nodes ih =>
    obtain ⟨next, hnext⟩ := h node List.mem_cons_self candidate
    obtain ⟨found, hfound⟩ := ih (fun other hother => h other (List.mem_cons_of_mem _ hother)) next
    exact ⟨found, by rw [List.foldlM_cons, hnext]; exact hfound⟩

/-- The search through some overrides has an answer. -/
theorem Consistent.exists_overrideWithin (h : heap.Consistent loose) {depth : Nat}
    (hoverrides : overrides ∉ heap.templates) (hdepth : overrides.index < depth) (candidate : ObjectNode) :
    ∃ found, heap.overrideWithin depth overrides candidate = some found := by
  induction depth generalizing overrides candidate with
  | zero => exact absurd hdepth (Nat.not_lt_zero _)
  | succ depth ih =>
    refine exists_foldlM (fun node hnode candidate => ?_) candidate
    cases node with
    | text | interpolation | branch | inclusion => exact ⟨candidate, rfl⟩
    | block line name body => cases candidate <;> exact ⟨_, rfl⟩
    | layout line reference inner =>
      have hinner : heap.Contains overrides inner := ⟨_, hnode, rfl⟩
      have hearlier := h.lt_of_contains hinner hoverrides
      exact ih (h.isForest.apart _ _ hinner) (by omega) candidate

section

variable {μ : Type} {depth : Nat}

section Turns

variable {call : Address → ObjectNode → Option ObjectNode}
  {call' : Layout μ Slot (Node μ Slot) → Block μ (Node μ Slot) → Option (Block μ (Node μ Slot))}
  (hcall : ∀ address outer candidate block found, heap.ShowsBody address outer.overrides →
    heap.Shows candidate (.block block) → call address candidate = some found →
      ∃ part, call' outer block = some part ∧ heap.Shows found (.block part))

include hcall

/-- A turn of the search on a heap is one of the search in trees. -/
theorem overrideBy_shows {node candidate found : ObjectNode} {node' : Node μ Slot}
    {block : Block μ (Node μ Slot)} (hnode : heap.Shows node node')
    (hcandidate : heap.Shows candidate (.block block)) (h : overrideBy call candidate node = some found) :
    ∃ part, node'.overrideBy call' block = some part ∧ heap.Shows found (.block part) := by
  cases hnode with
  | text | interpolation | branch | inclusion =>
    obtain rfl := Option.some.inj h
    exact ⟨block, rfl, hcandidate⟩
  | layout _ hbody => exact hcall _ _ candidate block found hbody hcandidate h
  | block hbody =>
    cases hcandidate with
    | block hcandidate =>
      obtain rfl := Option.some.inj h
      refine ⟨_, rfl, ?_⟩
      simp only [eq_comm]
      split
      · exact .block hbody
      · exact .block hcandidate

/-- All turns of the search on a heap are those of the search in trees. -/
theorem foldlM_overrideBy_shows {nodes : List ObjectNode} {nodes' : List (Node μ Slot)}
    {candidate found : ObjectNode} {block : Block μ (Node μ Slot)} (hnodes : heap.ShowsAll nodes nodes')
    (hcandidate : heap.Shows candidate (.block block))
    (h : nodes.foldlM (overrideBy call) candidate = some found) :
    ∃ part, nodes'.foldlM (Node.overrideBy call') block = some part ∧ heap.Shows found (.block part) := by
  induction nodes generalizing nodes' candidate block with
  | nil =>
    cases hnodes
    obtain rfl := Option.some.inj h
    exact ⟨block, rfl, hcandidate⟩
  | cons node nodes ih =>
    cases hnodes with
    | cons hnode hnodes =>
      obtain ⟨next, hnext, h⟩ := Option.bind_eq_some_iff.mp h
      obtain ⟨part, hpart, hshows⟩ := overrideBy_shows hcall hnode hcandidate hnext
      obtain ⟨last, hlast, hfound⟩ := ih hnodes hshows h
      exact ⟨last, Option.bind_eq_some_iff.mpr ⟨part, hpart, hlast⟩, hfound⟩

end Turns

/-- With the same limit, the search on a heap and the search in trees find the same. -/
theorem exists_overrideWithin_shows {outer : Layout μ Slot (Node μ Slot)} {candidate found : ObjectNode}
    {block : Block μ (Node μ Slot)} (hbody : heap.ShowsBody overrides outer.overrides)
    (hcandidate : heap.Shows candidate (.block block))
    (h : heap.overrideWithin depth overrides candidate = some found) :
    ∃ part, outer.overrideWithin depth block = some part ∧ heap.Shows found (.block part) := by
  induction depth generalizing overrides outer candidate block found with
  | zero => cases h
  | succ depth ih =>
    rw [Layout.overrideWithin]
    generalize outer.overrides = body at hbody
    cases hbody with
    | intro hobject hnodes =>
      rw [overrideWithin, nodes_of_object? hobject] at h
      exact foldlM_overrideBy_shows (fun _ _ _ _ _ => ih) hnodes hcandidate h

/-- What the search on a heap finds is the override. -/
theorem overrideWithin_shows {outer : Layout μ Slot (Node μ Slot)} {candidate found : ObjectNode}
    {block : Block μ (Node μ Slot)} (hbody : heap.ShowsBody overrides outer.overrides)
    (hcandidate : heap.Shows candidate (.block block))
    (h : heap.overrideWithin depth overrides candidate = some found) :
    heap.Shows found (.block (outer.override block)) := by
  obtain ⟨part, hpart, hfound⟩ := exists_overrideWithin_shows hbody hcandidate h
  obtain ⟨_, rfl⟩ := Layout.overrideWithin_eq_some_iff.mp hpart
  exact hfound

end

end Heap

namespace Session

/-- Cycles go through inclusions alone. A session on a heap is the session with a store: the heap has an
object for each slot and for each body in it, and the same is handed out and cached. After any operations,
also at each request for a template in the midst of them, the bodies on the heap are a forest: each belongs
to one node and is neither a placeholder nor a template, a walk that comes back to its start has followed an
inclusion, and going from objects to the bodies in them comes to an end. So the search for an override has an
answer for each layout on the heap, whatever is looked for, and what it finds for a block is the override. -/
theorem cycles_lead_through_inclusions (source : Source) (contentType : ContentType)
    (operations : List Operation) :
    let session := run source contentType operations
    let objects := ObjectSession.run source contentType operations
    let heap := objects.repository.heap
    objects.Mirrors session ∧
      (∀ address, objects.Returned address ∨ address ∈ objects.repository.cache.map Prod.snd →
        address ∈ heap.templates) ∧
      heap.IsForest ∧ (∀ earlier ∈ objects.repository.met, earlier.IsForest) ∧
      ∀ address line reference overrides, .layout line reference overrides ∈ heap.nodes address →
        ∃ depth, ∀ candidate, ∃ found, heap.overrideWithin depth overrides candidate = some found ∧
          ∀ (outer : Layout Mark Slot StoredNode) (block : Block Mark StoredNode),
            heap.ShowsBody overrides outer.overrides → heap.Shows candidate (.block block) →
              heap.Shows found (.block (outer.override block)) := by
  intro session objects heap
  have hmirrors : objects.Mirrors session := ObjectSession.mirrors_run source contentType operations
  have hconsistent : objects.repository.Consistent [] :=
    ObjectSession.consistent_run source contentType operations
  have hforest := hconsistent.heap.isForest
  refine ⟨hmirrors, fun address => hmirrors.mem_templates, hforest, hconsistent.met, ?_⟩
  intro address line reference overrides hlayout
  have hoverrides : heap.Contains address overrides := ⟨_, hlayout, rfl⟩
  refine ⟨overrides.index + 1, fun candidate => ?_⟩
  obtain ⟨found, hfound⟩ := hconsistent.heap.exists_overrideWithin (hforest.apart _ _ hoverrides)
    (Nat.lt_succ_self _) candidate
  exact ⟨found, hfound, fun outer block hbody hcandidate =>
    Heap.overrideWithin_shows hbody hcandidate hfound⟩

/-- Closing the layout has made its overrides, and closing the block around it the body that they are in.
The request inside the page has met a placeholder, so the body leads back to the page. The way around goes
through this inclusion, the overrides belong to one node, and the search for the block in them has an
answer. -/
theorem cycles_lead_through_inclusions_framedPage :
    let objects := ObjectSession.run framedPage .text [.resolve 3 "page" none]
    let heap := objects.repository.heap
    heap = ⟨[⟨.text, some [.block 1 "main" ⟨2⟩]⟩, ⟨.text, some []⟩,
        ⟨.text, some [.layout 2 ⟨2, "page", ⟨0⟩⟩ ⟨1⟩]⟩], [⟨0⟩]⟩ ∧
      objects.repository.met = [⟨[⟨.text, none⟩], [⟨0⟩]⟩, {}] ∧
      objects.Returned ⟨0⟩ ∧
      [⟨0⟩, ⟨2⟩, ⟨0⟩].IsChain heap.Leads ∧
      (∃ front includer target back, [⟨0⟩, ⟨2⟩, ⟨0⟩] = front ++ includer :: target :: back ∧
        heap.Includes includer target) ∧
      (∃! place : Address × Nat, heap.Carries place.1 place.2 ⟨1⟩) ∧ ⟨1⟩ ∉ heap.templates ∧
      ∃ depth found, heap.overrideWithin depth ⟨1⟩ (.block 1 "main" ⟨2⟩) = some found := by
  intro objects heap
  have hheap : heap = ⟨[⟨.text, some [.block 1 "main" ⟨2⟩]⟩, ⟨.text, some []⟩,
      ⟨.text, some [.layout 2 ⟨2, "page", ⟨0⟩⟩ ⟨1⟩]⟩], [⟨0⟩]⟩ := by decide +kernel
  have hmet : objects.repository.met = [⟨[⟨.text, none⟩], [⟨0⟩]⟩, {}] := by decide +kernel
  obtain ⟨_, _, hforest, _, hanswers⟩ :=
    cycles_lead_through_inclusions framedPage .text [.resolve 3 "page" none]
  have hlayout : .layout 2 ⟨2, "page", ⟨0⟩⟩ ⟨1⟩ ∈ heap.nodes ⟨2⟩ := by
    rw [hheap]
    exact List.mem_cons_self
  have hbody : heap.Contains ⟨0⟩ ⟨2⟩ := by
    rw [hheap]
    exact ⟨_, List.mem_cons_self, rfl⟩
  have hoverrides : heap.Contains ⟨2⟩ ⟨1⟩ := ⟨_, hlayout, rfl⟩
  have hwalk : [⟨0⟩, ⟨2⟩, ⟨0⟩].IsChain heap.Leads :=
    .cons_cons (.inl hbody) (.cons_cons (.inr ⟨_, hlayout, rfl⟩) (.singleton _))
  obtain ⟨depth, hdepth⟩ := hanswers _ _ _ _ hlayout
  obtain ⟨found, hfound, _⟩ := hdepth (.block 1 "main" ⟨2⟩)
  exact ⟨hheap, hmet, List.mem_cons_self, hwalk, hforest.cycles _ _ hwalk rfl,
    hforest.owned _ _ hoverrides, hforest.apart _ _ hoverrides, depth, found, hfound⟩

end Session

end Logicless
