import Logicless.Render.Basic

/-!
# Values and layouts do not interfere

A context has two kinds of frames. Expressions are evaluated in the values alone and blocks are
overridden by the layouts alone, so it does not matter how the values and the layouts of a context are
interleaved. Rendering keeps it so: while a template is rendered, frames of both kinds are pushed, and
which ones depends on what the frames below have answered.

## Shape of the proof

* `Context.values` and `Context.layouts` are the two channels of a context. Expressions are evaluated among
  the values (`Domain.evaluate`, `Context.evaluate_eq`), and a search for an override goes past them
  (`overrideFrom_ofLayouts`). So expressions depend on the one channel (`evaluate_congr`) and overrides on
  the other (`overrideFrom_congr`).
* `Context.Interchangeable` is the invariant of two runs: the values are the same, and every search for
  an override ends at the same block, wherever it starts. Both kinds of push preserve it (`push`,
  `exchange`).
* `Store.renderNode_congr` carries it through the renderer by induction on the depth.
-/

namespace Logicless

variable {ε : Type}

/-! ## Expressions among values -/

namespace Domain

variable (D : Domain ε)

/-- The first value that is present; null if there is none. -/
def firstPresent (values : List D.Carrier) : D.Carrier :=
  (values.find? fun value => !D.isNull value).getD D.null

/-- The first answer for an identifier that is present; null if there is none. Values are asked in order
until one has an answer or fails. -/
def firstAnswer (identifier : String) : List D.Carrier → Except ε D.Carrier
  | [] => .ok D.null
  | value :: values =>
    if D.isNull value then firstAnswer identifier values
    else do
      let found ← D.answer value identifier
      if D.isNull found then firstAnswer identifier values else return found

/-- The value of an expression among some values, the innermost first. -/
def evaluate (values : List D.Carrier) : Expr → Except (RenderFault ε) D.Carrier
  | .implicit => .ok (D.firstPresent values)
  | .identifier name => (D.firstAnswer name values).mapError .raised
  | .member base name => do
    let value ← evaluate values base
    if D.isNull value then return D.null else (D.answer value name).mapError .raised
  | .filtered function argument => do
    match D.filter? (← evaluate values function) with
    | some apply => (apply (← evaluate values argument)).mapError .raised
    | none => return D.null
  | .unknown => .error .unknownExpression

/-- Some values with one more inside them, unless it stands for absence. -/
def push (values : List D.Carrier) (value : D.Carrier) : List D.Carrier :=
  if D.isNull value then values else value :: values

theorem firstPresent_cons (value : D.Carrier) (values : List D.Carrier) :
    D.firstPresent (value :: values) =
      if D.isNull value then D.firstPresent values else value := by
  cases h : D.isNull value <;> simp [firstPresent, h]

end Domain

namespace Context

variable {D : Domain ε} {μ ρ : Type}

/-! ## The two channels -/

/-- The values of a context, the innermost first. -/
def values : Context D μ ρ → List D.Carrier
  | [] => []
  | .value value :: context => value :: values context
  | .layout _ :: context => values context

/-- The layouts of a context, the innermost first. -/
def layouts : Context D μ ρ → List (Layout μ ρ (Node μ ρ))
  | [] => []
  | .value _ :: context => layouts context
  | .layout layout :: context => layout :: layouts context

/-- The context of some layouts without any value. -/
def ofLayouts (D : Domain ε) (layouts : List (Layout μ ρ (Node μ ρ))) : Context D μ ρ :=
  layouts.map .layout

theorem values_push (context : Context D μ ρ) (value : D.Carrier) :
    (context.push value).values = D.push context.values value := by
  rw [push, apply_ite values]
  rfl

theorem layouts_push (context : Context D μ ρ) (value : D.Carrier) :
    (context.push value).layouts = context.layouts := by
  rw [push, apply_ite layouts]
  exact ite_self _

/-! ### Expressions -/

theorem current_eq (context : Context D μ ρ) : context.current = D.firstPresent context.values := by
  induction context with
  | nil => rfl
  | cons frame context ih =>
    cases frame with
    | value value => rw [current, values, D.firstPresent_cons, ih]
    | layout layout => exact ih

theorem lookup_eq (context : Context D μ ρ) (identifier : String) :
    context.lookup identifier = D.firstAnswer identifier context.values := by
  induction context with
  | nil => rfl
  | cons frame context ih =>
    cases frame with
    | value value => rw [lookup, values, Domain.firstAnswer, ih]
    | layout layout => exact ih

/-- Expressions are evaluated among the values of a context. -/
theorem evaluate_eq (context : Context D μ ρ) (expression : Expr) :
    context.evaluate expression = D.evaluate context.values expression := by
  induction expression with
  | implicit => rw [evaluate, Domain.evaluate, current_eq]
  | identifier name => rw [evaluate, Domain.evaluate, lookup_eq]
  | member base name ih => rw [evaluate, Domain.evaluate, ih]
  | filtered function argument ihFunction ihArgument =>
    rw [evaluate, ihFunction, ihArgument]
    rfl
  | unknown => rfl

/-- An expression has the same value wherever the values are the same, whatever the layouts are. -/
theorem evaluate_congr {μ' ρ' : Type} {context : Context D μ ρ} {context' : Context D μ' ρ'}
    (h : context.values = context'.values) (expression : Expr) :
    context.evaluate expression = context'.evaluate expression := by
  rw [evaluate_eq, evaluate_eq, h]

/-! ### Overrides -/

variable [DecidableEq μ] [DecidableEq ρ]

/-- A search for an override ends where it ends without the values, whatever domain they are of. -/
theorem overrideFrom_ofLayouts {ε' : Type} (D' : Domain ε') (context : Context D μ ρ) (used : List ρ)
    (candidate : Block μ (Node μ ρ)) :
    overrideFrom used candidate (ofLayouts D' context.layouts) =
      overrideFrom used candidate context := by
  induction context generalizing used candidate with
  | nil => rfl
  | cons frame context ih =>
    cases frame with
    | value value => exact ih used candidate
    | layout layout =>
      simp only [ofLayouts] at ih
      simp only [layouts, ofLayouts, List.map_cons, overrideFrom, ih]

/-- Where the layouts are the same, a search for an override ends at the same block, whatever the values
are. -/
theorem overrideFrom_congr {context context' : Context D μ ρ} (h : context.layouts = context'.layouts)
    (used : List ρ) (candidate : Block μ (Node μ ρ)) :
    overrideFrom used candidate context = overrideFrom used candidate context' := by
  rw [← overrideFrom_ofLayouts D context, h, overrideFrom_ofLayouts]

/-! ## Contexts that cannot be told apart -/

/-- No template can tell the two contexts apart. A search for an override may arrive at them with any
templates used up and with any candidate, from the frames that a template pushes. -/
structure Interchangeable (context context' : Context D μ ρ) : Prop where
  /-- The values are the same. -/
  values : context.values = context'.values
  /-- Each search for an override ends at the same block. -/
  overrideFrom : ∀ used candidate,
    overrideFrom used candidate context = overrideFrom used candidate context'

namespace Interchangeable

variable {context context' : Context D μ ρ}

/-- Interleaving the same values and the same layouts differently makes no difference. -/
theorem of_channels (hvalues : context.values = context'.values)
    (hlayouts : context.layouts = context'.layouts) : context.Interchangeable context' where
  values := hvalues
  overrideFrom := overrideFrom_congr hlayouts

theorem refl (context : Context D μ ρ) : context.Interchangeable context where
  values := rfl
  overrideFrom _ _ := rfl

theorem override (h : context.Interchangeable context') (block : Block μ (Node μ ρ)) :
    context.override block = context'.override block :=
  h.overrideFrom [] block

theorem push (h : context.Interchangeable context') (value : D.Carrier) :
    (context.push value).Interchangeable (context'.push value) where
  values := by rw [values_push, values_push, h.values]
  overrideFrom := by
    intro used candidate
    rw [Context.push, Context.push]
    split
    · exact h.overrideFrom used candidate
    · exact h.overrideFrom used candidate

/-- Two layouts of one template that answer the same cannot be told apart. -/
theorem exchange {outer outer' : Layout μ ρ (Node μ ρ)} (h : context.Interchangeable context')
    (htarget : outer.inclusion.target = outer'.inclusion.target)
    (hanswers : ∀ block, outer.override block = outer'.override block) :
    (context.pushLayout outer).Interchangeable (context'.pushLayout outer') where
  values := h.values
  overrideFrom := by
    intro used candidate
    simp only [Context.pushLayout, Context.overrideFrom, htarget, hanswers, h.overrideFrom]

theorem pushLayout (h : context.Interchangeable context') (outer : Layout μ ρ (Node μ ρ)) :
    (context.pushLayout outer).Interchangeable (context'.pushLayout outer) :=
  h.exchange rfl fun _ => rfl

end Interchangeable

end Context

/-! ## Texts -/

namespace Store

variable {D : Domain ε} {context context' : Context D Mark Slot}

/-- A node has the same text in contexts that cannot be told apart. -/
theorem renderNode_congr (store : Store) (depth : Nat) (h : context.Interchangeable context') :
    store.renderNode depth context = store.renderNode depth context' := by
  induction depth generalizing context context' with
  | zero => rfl
  | succ depth ih =>
    funext node
    cases node with
    | text line text => rfl
    | interpolation line expression escape =>
      have hvalue := Context.evaluate_congr h.values expression
      simp only [renderNode, hvalue]
    | branch line expression inverted body =>
      -- the value is the same on both sides, and so are the contexts that it or its items are pushed on
      have hvalue := Context.evaluate_congr h.values expression
      have hpush := fun value => ih (h.push value)
      simp only [renderNode, hvalue, ih h, hpush]
    | inclusion reference => simp only [renderNode, ih h]
    | block part => simp only [renderNode, h.override, ih h]
    | layout outer => simp only [renderNode, ih (h.pushLayout outer)]

end Store

namespace Context

/-- What an expression evaluates to depends on the values alone and what overrides a block on the
layouts alone, whatever values and filters there are. So contexts with the same values and the same
layouts, interleaved in any two ways, give the same text to every node, every body and every template, or
the same fault. -/
theorem values_layouts_independent {D : Domain ε} (context context' : Context D Mark Slot) :
    (context.values = context'.values →
      context.current = context'.current ∧
        (∀ identifier, context.lookup identifier = context'.lookup identifier) ∧
        ∀ expression, context.evaluate expression = context'.evaluate expression) ∧
      (context.layouts = context'.layouts →
        ∀ node, context.overrideNode node = context'.overrideNode node) ∧
      (context.values = context'.values → context.layouts = context'.layouts →
        ∀ (store : Store) (depth : Nat),
          (∀ node, store.renderNode depth context node = store.renderNode depth context' node) ∧
            (∀ body : Template Mark Slot,
              concatTexts (store.renderNode depth context) body.nodes =
                concatTexts (store.renderNode depth context') body.nodes) ∧
            ∀ slot, store.render depth context slot = store.render depth context' slot) := by
  refine ⟨?expressions, ?overrides, ?texts⟩
  case expressions =>
    intro hvalues
    refine ⟨?_, ?_, ?_⟩
    · rw [current_eq, current_eq, hvalues]
    · intro identifier
      rw [lookup_eq, lookup_eq, hvalues]
    · exact evaluate_congr hvalues
  case overrides =>
    intro hlayouts node
    cases node with
    | block part => exact congrArg Node.block (overrideFrom_congr hlayouts [] part)
    | text | interpolation | branch | inclusion | layout => rfl
  case texts =>
    intro hvalues hlayouts store depth
    have htexts := store.renderNode_congr depth (.of_channels hvalues hlayouts)
    refine ⟨congrFun htexts, ?_, ?_⟩
    · intro body
      rw [htexts]
    · intro slot
      rw [Store.render, Store.render, htexts]

/-! ### A layout inside two values and between them -/

/-- A template with a name and a block inside a section. -/
def greeting : Store where
  cells := [⟨.text, some [.branch 1 (.identifier "shown") false ⟨⟨⟨0⟩, [0]⟩, .text,
    [.interpolation 1 (.identifier "name") false,
      .block ⟨⟨⟨0⟩, [1, 0]⟩, 1, "end", ⟨⟨⟨0⟩, [1, 0]⟩, .text, [.text 1 "?"]⟩⟩]⟩]⟩]

/-- A layout that overrides the block `end`. -/
def emphatic : Layout Mark Slot StoredNode :=
  ⟨1, ⟨1, "greeting", ⟨0⟩⟩, ⟨⟨⟨1⟩, [0]⟩, .text,
    [.block ⟨⟨⟨1⟩, [0, 0]⟩, 1, "end", ⟨⟨⟨1⟩, [0, 0]⟩, .text, [.text 1 "!"]⟩⟩]⟩⟩

/-- A value with the name. -/
def ada : Value :=
  .object [("name", .str "Ada")]

/-- A value with another name, for which the greeting is shown. -/
def bob : Value :=
  .object [("name", .str "Bob"), ("shown", .bool true)]

/-- The layout inside both values. -/
def layoutInside : Context .standard Mark Slot :=
  [.layout emphatic, .value ada, .value bob]

/-- The layout between the values. -/
def layoutBetween : Context .standard Mark Slot :=
  [.value ada, .layout emphatic, .value bob]

/-- The nearer value has the name and the block is overridden, wherever the layout is. -/
theorem values_layouts_independent_greeting :
    layoutInside.values = layoutBetween.values ∧ layoutInside.layouts = layoutBetween.layouts ∧
      layoutInside.lookup "name" = layoutBetween.lookup "name" ∧
      (∀ node, layoutInside.overrideNode node = layoutBetween.overrideNode node) ∧
      greeting.render 3 layoutBetween ⟨0⟩ = .ok "Ada!" := by
  have hvalues : layoutInside.values = layoutBetween.values := rfl
  have hlayouts : layoutInside.layouts = layoutBetween.layouts := rfl
  obtain ⟨hexpressions, hoverrides, htexts⟩ := values_layouts_independent layoutInside layoutBetween
  refine ⟨hvalues, hlayouts, (hexpressions hvalues).2.1 "name", hoverrides hlayouts, ?_⟩
  rw [← (htexts hvalues hlayouts greeting 3).2.2]
  rfl

end Context

end Logicless
