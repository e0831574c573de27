import Logicless.Proofs.Compile.Preservation
import Logicless.Proofs.Repository.Frozen
import Logicless.Proofs.Tree.Graph

/-!
# A repository has one escaping mode

Whether values are escaped is up to the content type of the body that they stand in, and every body has a
content type of its own: that of a section, that of a block, the overrides of a layout, the whole
template. A repository is used with one content type, and it is that of all of them. It is given to a slot
when the slot is reserved and again when the slot is filled, and to a body when its tag is closed. So no
template that includes another leaves the escaping that it is rendered with.

## Shape of the proof

* `Body.Uniform` bodies have one content type at any depth. A compilation builds nothing else
  (`uniform_of_compileTemplate`).
* `Store.Change.Uniform` changes keep a store uniform (`uniform_replay`), and nothing else is done to the
  store of a repository (`uniform_changesWithin`, `uniform_history`).
* `Store.Uniform.contentType?_of_lies` reads off the content type of a tree in a uniform store.
* `Session.one_content_type` is the result.
-/

namespace Logicless

variable {contentType : ContentType}

/-! ## Uniform trees -/

section

variable {μ ρ σ : Type}

/-- A body has a content type, and so has every body inside it. -/
def Body.Uniform (contentType : ContentType) (body : Body μ (Node μ ρ)) : Prop :=
  ∀ inner, Relation.ReflTransGen Body.Encloses body inner → inner.contentType = contentType

/-- The body of a node, if it has one, is uniform. -/
def Node.Uniform (contentType : ContentType) (node : Node μ ρ) : Prop :=
  ∀ body, node.body? = some body → body.Uniform contentType

theorem Body.uniform_iff {body : Body μ (Node μ ρ)} :
    body.Uniform contentType ↔
      body.contentType = contentType ∧ ∀ node ∈ body.nodes, node.Uniform contentType := by
  constructor
  · intro h
    refine ⟨h body .refl, fun node hnode inner hbody innermost hreached => ?_⟩
    exact h innermost (.head ⟨node, hnode, hbody⟩ hreached)
  · rintro ⟨hcontentType, hnodes⟩ inner hreached
    rcases Relation.ReflTransGen.cases_head hreached with rfl | ⟨next, ⟨node, hnode, hbody⟩, hreached⟩
    · exact hcontentType
    · exact hnodes node hnode next hbody inner hreached

/-- What is inside uniform nodes is uniform. -/
theorem Node.Uniform.of_inside {nodes : List (Node μ ρ)} {node : Node μ ρ}
    (h : ∀ node ∈ nodes, node.Uniform contentType) (hinside : Inside node nodes) :
    node.Uniform contentType := by
  refine hinside.forall_of_children (Node.Uniform contentType) h fun outer houter child hchild => ?_
  obtain ⟨body, hbody, hmem⟩ := Node.mem_children_iff.mp hchild
  exact (Body.uniform_iff.mp (houter body hbody)).2 child hmem

/-- A node with a body that was collected from uniform nodes is uniform. -/
theorem Node.Uniform.of_collected {node : Node Unit ρ} {nodes : List (Node Unit ρ)}
    (hbody : node.body? = some ⟨(), contentType, nodes⟩) (h : ∀ node ∈ nodes, node.Uniform contentType) :
    node.Uniform contentType := by
  intro body hbody'
  obtain rfl := Option.some.inj (hbody.symm.trans hbody')
  exact Body.uniform_iff.mpr ⟨rfl, h⟩

theorem hereditary_uniform (contentType : ContentType) :
    Hereditary contentType (fun _ _ => True) (Node.Uniform contentType : Node Unit ρ → Prop) where
  text _ _ := by
    intro body hbody
    cases hbody
  interpolation _ _ _ := by
    intro body hbody
    cases hbody
  branch _ _ _ _ h := .of_collected rfl h
  inclusion _ _ _ _ := by
    intro body hbody
    cases hbody
  block _ _ _ h := .of_collected rfl h
  layout _ _ _ _ _ h := .of_collected rfl h

/-- A template has the content type that it is compiled with, and so has every body inside it. -/
theorem uniform_of_compileTemplate {setting : Setting} {loader : Option (Loader σ ρ)} {stream : Stream}
    {state state' : σ} {template : Template Unit ρ}
    (h : compileTemplate setting loader stream state = (.ok template, state')) :
    template.Uniform setting.contentType := by
  obtain ⟨_, scope, rfl, hrun⟩ := compileTemplate_eq_ok_iff_run.mp h
  have hloading : Loading setting (loader.getD .absent) (fun _ _ => True) (fun _ _ _ => True)
      (fun _ => Node.Uniform setting.contentType) := {
    refl := fun _ => trivial
    load := fun _ _ => trivial
    loaded := fun _ _ _ _ _ => trivial
    mono := fun _ _ _ _ huniform => huniform
    hereditary := fun _ => hereditary_uniform setting.contentType }
  have hnodes := hloading.forall_of_run hrun .initial scope List.mem_cons_self
  exact Body.uniform_iff.mpr ⟨rfl, hnodes⟩

theorem Body.Uniform.stamp {body : Body Unit (Node Unit ρ)} (h : body.Uniform contentType) (mark : Mark) :
    (body.stamp mark).Uniform contentType := by
  intro inner hreached
  obtain ⟨origin, mark', horigin, rfl⟩ := exists_encloses_of_stamp hreached
  exact h origin horigin

end

/-! ## Uniform stores -/

/-- A slot has a content type, whether it is filled or not, and so has every body inside it. -/
def Cell.Uniform (contentType : ContentType) (cell : Cell) : Prop :=
  cell.contentType = contentType ∧ ∀ node ∈ cell.content.getD [], node.Uniform contentType

/-- Filling a slot with a uniform template makes it uniform. -/
theorem Cell.Uniform.of_template {template : Template Unit Slot} (h : template.Uniform contentType)
    (slot : Slot) : Cell.Uniform contentType ⟨template.contentType, some (slot.stamp template)⟩ :=
  Body.uniform_iff.mp (h.stamp slot.mark)

namespace Store

/-- All slots of a store have a content type, and so has every body in them. -/
def Uniform (contentType : ContentType) (store : Store) : Prop :=
  ∀ cell ∈ store.cells, cell.Uniform contentType

/-- A change that gives a content type to a slot, and to every body in it. -/
def Change.Uniform (contentType : ContentType) : Change → Prop
  | reserve contentType' => contentType' = contentType
  | insert template | fill _ template => template.Uniform contentType

variable {store store' : Store} {slot : Slot}

theorem Uniform.empty : ({} : Store).Uniform contentType := by
  intro cell hcell
  cases hcell

theorem Uniform.push {cell : Cell} (h : store.Uniform contentType) (hcell : cell.Uniform contentType) :
    (store.push cell).Uniform contentType := by
  intro other hother
  rcases List.mem_append.mp hother with hother | hother
  · exact h other hother
  · obtain rfl := List.mem_singleton.mp hother
    exact hcell

theorem uniform_make {change : Change} (h : store.Uniform contentType)
    (hchange : change.Uniform contentType) (hmake : store.make change = .ok store') :
    store'.Uniform contentType := by
  cases change with
  | reserve contentType' =>
    obtain rfl := Except.ok.inj hmake
    refine h.push ⟨hchange, fun node hnode => ?_⟩
    cases hnode
  | insert template =>
    obtain rfl := Except.ok.inj hmake
    exact h.push (.of_template hchange _)
  | fill slot template =>
    obtain ⟨_, _, rfl⟩ := fill_eq_ok_iff.mp hmake
    intro cell hcell
    rcases List.mem_or_eq_of_mem_set hcell with hcell | rfl
    · exact h cell hcell
    · exact .of_template hchange slot

/-- Uniform changes keep a store uniform. -/
theorem uniform_replay {changes : List Change} (h : store.Uniform contentType)
    (hchanges : ∀ change ∈ changes, change.Uniform contentType)
    (hreplay : store.replay changes = .ok store') : store'.Uniform contentType :=
  replay_induction h
    (fun change hmem _ _ huniform hmake => uniform_make huniform (hchanges change hmem) hmake) hreplay

/-- All that lies in a slot of a uniform store has its content type. -/
theorem Uniform.contentType?_of_lies {cell : Cell} {tree : Tree} (h : store.Uniform contentType)
    (hcell : store.cell? slot = some cell) (hlies : store.Lies slot tree) :
    tree.contentType? store = some contentType := by
  obtain ⟨hcontentType, hcontent⟩ := h cell (List.mem_of_getElem? hcell)
  cases hlies with
  | template => rw [Tree.contentType?, hcell, Option.map_some, hcontentType]
  | @body node body hnode hbody =>
    rw [Store.nodes, hcell] at hnode
    have huniform := Node.Uniform.of_inside hcontent hnode body hbody
    rw [Tree.contentType?, (Body.uniform_iff.mp huniform).1]

end Store

/-! ## Repositories -/

namespace Repository

variable {source : Source}

theorem uniform_outcomeChange {change : Template Unit Slot → Store.Change}
    {outcome : Except Halt (Template Unit Slot)}
    (hchange : ∀ template, template.Uniform contentType → (change template).Uniform contentType)
    (h : ∀ template, outcome = .ok template → template.Uniform contentType) :
    ∀ made ∈ outcomeChange change outcome, made.Uniform contentType := by
  intro made hmade
  cases outcome with
  | error halt => cases hmade
  | ok template =>
    obtain rfl := List.mem_singleton.mp hmade
    exact hchange template (h template rfl)

/-- Loading a template gives the content type of the repository alone. -/
theorem uniform_changesWithin (source : Source) (contentType : ContentType) (depth : Nat) (name : String)
    (relativeTo : Option String) (r : Repository) :
    ∀ change ∈ changesWithin source contentType depth name relativeTo r, change.Uniform contentType := by
  induction depth generalizing name relativeTo r with
  | zero => exact fun _ hchange => by cases hchange
  | succ depth ih =>
    rw [changesWithin]
    dsimp only
    split
    · exact fun _ hchange => by cases hchange
    · intro change hchange
      obtain rfl := List.mem_singleton.mp hchange
      rfl
    · rename_i stream _ _
      intro change hchange
      rcases List.mem_cons.mp hchange with rfl | hchange
      · rfl
      · rcases List.mem_append.mp hchange with hinner | hfilled
        · obtain ⟨call, _, hchange⟩ := List.mem_flatMap.mp hinner
          exact ih call.name call.relativeTo call.state change hchange
        · refine uniform_outcomeChange (fun _ huniform => ?_) (fun template htemplate => ?_) change hfilled
          · exact huniform
          · exact uniform_of_compileTemplate (Prod.ext htemplate rfl)

theorem uniform_compileChanges (source : Source) (contentType : ContentType) (depth : Nat)
    (template : Option String) (stream : Stream) (r : Repository) :
    ∀ change ∈ compileChanges source contentType depth template stream r, change.Uniform contentType := by
  intro change hchange
  rcases List.mem_append.mp hchange with hinner | hinserted
  · obtain ⟨call, _, hchange⟩ := List.mem_flatMap.mp hinner
    exact uniform_changesWithin source contentType depth call.name call.relativeTo call.state change hchange
  · refine uniform_outcomeChange (fun _ huniform => ?_) (fun template htemplate => ?_) change hinserted
    · exact huniform
    · exact uniform_of_compileTemplate (Prod.ext htemplate rfl)

end Repository

namespace Session

open Repository

theorem uniform_changes (session : Session) (operation : Operation) :
    ∀ change ∈ session.changes operation, change.Uniform session.contentType := by
  cases operation with
  | resolve depth name relativeTo => exact uniform_changesWithin _ _ depth name relativeTo _
  | compile depth template stream => exact uniform_compileChanges _ _ depth template stream _
  | clear | serve tokens => exact fun _ hchange => by cases hchange

theorem contentType_perform (session : Session) (operation : Operation) :
    (session.perform operation).contentType = session.contentType := by
  cases operation <;> rfl

/-- All that is done to the store in a session gives its content type. -/
theorem uniform_history (session : Session) (operations : List Operation) :
    ∀ change ∈ session.history operations, change.Uniform session.contentType := by
  induction operations generalizing session with
  | nil => exact fun _ hchange => by cases hchange
  | cons operation operations ih =>
    intro change hchange
    rcases List.mem_append.mp hchange with hchange | hchange
    · exact uniform_changes session operation change hchange
    · have hrest := ih (session.perform operation) change hchange
      rwa [contentType_perform] at hrest

/-- A repository has one escaping mode. At any time from the start of a session on, also in the midst of
its operations, every slot of the store has the content type of the session, whether it is filled yet or
not, and so has every body in it. So every tree that is reached from a template that was handed out or is
cached, by bodies and by inclusions and through cycles, has this content type. And where any template is
compiled, with whatever loads the templates that it includes, all bodies inside it have the content type
that it is compiled with. -/
theorem one_content_type (source : Source) (contentType : ContentType) (operations : List Operation) :
    let start : Session := { source := source, contentType := contentType }
    let session := run source contentType operations
    let store := session.repository.store
    (∀ made, made <+: start.history operations →
        ∃ earlier, Store.replay {} made = .ok earlier ∧ earlier.Uniform contentType) ∧
      (∀ slot tree, session.Returned slot ∨ slot ∈ session.repository.cache.map Prod.snd →
        Relation.ReflTransGen store.Leads (.template slot) tree →
          tree.contentType? store = some contentType) ∧
      ∀ (σ ρ : Type) (setting : Setting) (loader : Option (Loader σ ρ)) (stream : Stream)
        (state state' : σ) (template : Template Unit ρ),
        compileTemplate setting loader stream state = (.ok template, state') →
          ∀ body, Relation.ReflTransGen Body.Encloses template body →
            body.contentType = setting.contentType := by
  intro start session store
  have hhistory : Store.replay {} (start.history operations) = .ok store :=
    replays_history start operations
  have hchanges : ∀ change ∈ start.history operations, change.Uniform contentType :=
    uniform_history start operations
  refine ⟨?_, ?_, ?_⟩
  · rintro made ⟨rest, hmade⟩
    rw [← hmade] at hhistory hchanges
    obtain ⟨earlier, hearlier, _⟩ := Store.replay_append_eq_ok_iff.mp hhistory
    -- the changes that were made so far are among those of the whole session
    refine ⟨earlier, hearlier, Store.uniform_replay .empty (fun change hchange => ?_) hearlier⟩
    exact hchanges change (List.mem_append_left _ hchange)
  · intro slot tree hslot hreached
    have hsound : session.Sound := sound_run source contentType operations
    have hsealed : store.Sealed slot := by
      rcases hslot with hreturned | hcached
      · exact hsound.sealed slot hreturned
      · obtain ⟨entry, hentry, rfl⟩ := List.mem_map.mp hcached
        exact hsound.repository.sealed_of_mem hentry
    obtain ⟨target, htarget, hlies⟩ := Store.exists_lies_of_leads .template hreached
    obtain ⟨nodes, contentType', hcell⟩ := hsealed target htarget
    exact (Store.uniform_replay .empty hchanges hhistory).contentType?_of_lies hcell hlies
  · intro σ ρ setting loader stream state state' template hcompile
    exact uniform_of_compileTemplate hcompile

/-- A page with a block that holds a layout. The template of the layout is the page again. -/
def framedPage : Source where
  templateId name _ := name
  tokens id :=
    if id = "page" then
      .ok (.ofTokens [⟨.openBlock, "main", 1, none⟩, ⟨.openLayout, "page", 2, none⟩,
        ⟨.close, "page", 2, none⟩, ⟨.close, "main", 3, none⟩])
    else .error (Fault.notFound (.unknown id)).alone

/-- The block of the page leads back to the page, and to the overrides of the layout, which are a plain
text like the page. -/
theorem one_content_type_framedPage :
    let session := run framedPage .text [.resolve 3 "page" none]
    let store := session.repository.store
    session.Returned ⟨0⟩ ∧
      ∃ main overrides, store.Leads (.template ⟨0⟩) (.body main) ∧
        store.Leads (.body main) (.template ⟨0⟩) ∧ store.Leads (.body main) (.body overrides) ∧
        overrides.contentType = .text := by
  intro session store
  have hreturned : session.Returned ⟨0⟩ := List.mem_cons_self
  have hnodes : ∃ part outer, store.nodes ⟨0⟩ = [.block part] ∧ part.body.nodes = [.layout outer] ∧
      outer.inclusion.target = ⟨0⟩ := ⟨_, _, rfl, rfl, rfl⟩
  obtain ⟨part, outer, hpage, hmain, htarget⟩ := hnodes
  have hblock : .block part ∈ Store.Tree.nodes store (.template ⟨0⟩) := by simp [Store.Tree.nodes, hpage]
  have hlayout : .layout outer ∈ Store.Tree.nodes store (.body part.body) := by
    simp [Store.Tree.nodes, hmain]
  have hbody : store.Leads (.template ⟨0⟩) (.body part.body) := .body hblock rfl
  have hcycle : store.Leads (.body part.body) (.template ⟨0⟩) := htarget ▸ .template hlayout rfl
  have hoverrides : store.Leads (.body part.body) (.body outer.overrides) := .body hlayout rfl
  -- once around the cycle, and then into the overrides
  have hreached : Relation.ReflTransGen store.Leads (.template ⟨0⟩) (.body outer.overrides) :=
    (((Relation.ReflTransGen.single hbody).tail hcycle).tail hbody).tail hoverrides
  have hcontentType := (one_content_type framedPage .text [.resolve 3 "page" none]).2.1 ⟨0⟩ _
    (.inl hreturned) hreached
  exact ⟨hreturned, part.body, outer.overrides, hbody, hcycle, hoverrides, Option.some.inj hcontentType⟩

end Session

end Logicless
