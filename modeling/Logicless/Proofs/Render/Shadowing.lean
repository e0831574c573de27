import Logicless.Proofs.Render.Scene

/-!
# Values around do not disturb what values inside answer

An expression goes to the values around its tag for its dots and for the identifiers at the start of its
paths. These are its leaves. An identifier behind a dot is asked of the value in front of the dot, so the
chain is not searched for it. If each leaf has a value among some values, then values further out are not
reached by any of the searches, and it does not matter which ones there are.

## Shape of the proof

* `Expr.leaves` are the parts of an expression that the chain is searched for. An expression has the same
  value wherever its leaves have the same values (`Domain.evaluate_of_leaves`).
* A search that finds something among some values finds it with any others behind them
  (`Domain.firstPresent_append`, `Domain.firstAnswer_append`). So a leaf keeps its value
  (`Domain.evaluate_leaf_append`).
* `outer_values_undisturbing` joins the two for the frames of a context.
-/

namespace Logicless

/-- The parts of an expression that the chain is searched for: its dots and the identifiers at the start
of its paths. -/
def Expr.leaves : Expr → List Expr
  | implicit => [implicit]
  | identifier name => [identifier name]
  | member base _ => base.leaves
  | filtered function argument => function.leaves ++ argument.leaves
  | unknown => []

/-- A leaf is a dot or an identifier. -/
theorem Expr.leaf_cases {expression leaf : Expr} (h : leaf ∈ expression.leaves) :
    leaf = .implicit ∨ ∃ name, leaf = .identifier name := by
  induction expression with
  | implicit => exact .inl (List.mem_singleton.mp h)
  | identifier name => exact .inr ⟨name, List.mem_singleton.mp h⟩
  | member base name ih => exact ih h
  | filtered function argument ihFunction ihArgument =>
    rcases List.mem_append.mp h with h | h
    · exact ihFunction h
    · exact ihArgument h
  | unknown => cases h

/-! ## Searches among values -/

namespace Domain

variable {ε : Type} {D : Domain ε} {values values' inner : List D.Carrier} {expression leaf : Expr}

/-- Expressions are evaluated through their leaves alone. -/
theorem evaluate_of_leaves
    (h : ∀ leaf ∈ expression.leaves, D.evaluate values leaf = D.evaluate values' leaf) :
    D.evaluate values expression = D.evaluate values' expression := by
  induction expression with
  | implicit | identifier => exact h _ (List.mem_singleton_self _)
  | member base name ih => rw [evaluate, evaluate, ih h]
  | filtered function argument ihFunction ihArgument =>
    obtain ⟨hfunction, hargument⟩ := List.forall_mem_append.mp h
    rw [evaluate, evaluate, ihFunction hfunction, ihArgument hargument]
  | unknown => rfl

/-- Where a value is present among some values, it is the first one with any others behind them. -/
theorem firstPresent_append (h : D.isNull (D.firstPresent inner) = false) (outer : List D.Carrier) :
    D.firstPresent (inner ++ outer) = D.firstPresent inner := by
  rw [firstPresent] at h
  rw [firstPresent, firstPresent, List.find?_append]
  cases hfound : inner.find? fun value => !D.isNull value with
  | none =>
    rw [hfound, Option.getD_none, D.isNull_null] at h
    cases h
  | some value => rfl

/-- Where an answer is present among some values, or asking them fails, the search ends there with any
others behind them. -/
theorem firstAnswer_append {identifier : String}
    (h : ∀ value, D.firstAnswer identifier inner = .ok value → D.isNull value = false)
    (outer : List D.Carrier) :
    D.firstAnswer identifier (inner ++ outer) = D.firstAnswer identifier inner := by
  induction inner with
  | nil =>
    have hnull := h D.null rfl
    rw [D.isNull_null] at hnull
    cases hnull
  | cons value inner ih =>
    rw [firstAnswer] at h
    rw [List.cons_append, firstAnswer, firstAnswer]
    by_cases hvalue : D.isNull value
    · rw [if_pos hvalue] at h
      rw [if_pos hvalue, if_pos hvalue, ih h]
    · rw [if_neg hvalue] at h
      rw [if_neg hvalue, if_neg hvalue]
      cases hanswer : D.answer value identifier with
      | error failure => rfl
      | ok found =>
        simp only [hanswer, bind, Except.bind] at h ⊢
        by_cases hfound : D.isNull found
        · rw [if_pos hfound] at h
          rw [if_pos hfound, if_pos hfound, ih h]
        · rw [if_neg hfound, if_neg hfound]

/-- A leaf with a value among some values keeps it with any others behind them. -/
theorem evaluate_leaf_append (hleaf : leaf ∈ expression.leaves)
    (h : ∀ value, D.evaluate inner leaf = .ok value → D.isNull value = false)
    (outer : List D.Carrier) : D.evaluate (inner ++ outer) leaf = D.evaluate inner leaf := by
  obtain rfl | ⟨name, rfl⟩ := Expr.leaf_cases hleaf
  · rw [evaluate, evaluate, firstPresent_append (h _ rfl)]
  · rw [evaluate, evaluate, firstAnswer_append]
    intro value hvalue
    refine h value ?_
    rw [evaluate, hvalue]
    rfl

end Domain

/-! ## Contexts -/

namespace Context

variable {ε : Type} {D : Domain ε} {μ ρ : Type}

theorem values_append (context context' : Context D μ ρ) :
    (context ++ context').values = context.values ++ context'.values := by
  induction context with
  | nil => rfl
  | cons frame context ih =>
    cases frame with
    | value value => exact congrArg (List.cons value) ih
    | layout layout => exact ih

/-- Where each leaf of an expression has a value, it does not matter what is around. Whatever values and
filters there are, an expression comes to the same on any two chains that some frames are stacked on,
layouts among them, and on these frames alone, as soon as none of its leaves comes to an absent value
among the latter. Nothing but the leaves is looked for in a chain: an expression comes to the same
wherever its leaves do, whatever is known there of the identifiers behind its dots. -/
theorem outer_values_undisturbing (expression : Expr) :
    (∀ inner outer outer' : Context D μ ρ,
      (∀ leaf ∈ expression.leaves, ∀ value, inner.evaluate leaf = .ok value →
        D.isNull value = false) →
      (inner ++ outer).evaluate expression = (inner ++ outer').evaluate expression ∧
        (inner ++ outer).evaluate expression = inner.evaluate expression) ∧
    ∀ context context' : Context D μ ρ,
      (∀ leaf ∈ expression.leaves, context.evaluate leaf = context'.evaluate leaf) →
        context.evaluate expression = context'.evaluate expression := by
  refine ⟨?surroundings, ?leaves⟩
  case surroundings =>
    intro inner outer outer' hleaves
    have hinner : ∀ behind, (inner ++ behind).evaluate expression = inner.evaluate expression := by
      intro behind
      rw [evaluate_eq, evaluate_eq, values_append]
      refine Domain.evaluate_of_leaves fun leaf hleaf => Domain.evaluate_leaf_append hleaf ?_ _
      rw [← evaluate_eq]
      exact hleaves leaf hleaf
    exact ⟨(hinner outer).trans (hinner outer').symm, hinner outer⟩
  case leaves =>
    intro context context' hleaves
    rw [evaluate_eq, evaluate_eq]
    refine Domain.evaluate_of_leaves fun leaf hleaf => ?_
    rw [← evaluate_eq, ← evaluate_eq]
    exact hleaves leaf hleaf

/-! ### A value that is false, and others around it -/

/-- A filter, inside it a value with a field that is false, and a layout between them. -/
def innerFrames : Context .standard Mark Slot :=
  [.value (.object [("a", .object [("b", .bool false)])]), .layout emphatic,
    .value (.object [("f", .filter .wrap)])]

/-- A value that knows all identifiers of the frames, with other answers. -/
def outerFrames : Context .standard Mark Slot :=
  [.value (.object [("a", .int 1), ("b", .int 2), ("f", .filter .failing)])]

/-- The expression `f(a.b)` is evaluated without the values around, and so is it on top of them. The false
value is not passed over, and neither `b` nor another filter is looked for outside. -/
theorem outer_values_undisturbing_field :
    let expression : Expr := .filtered (.identifier "f") (.member (.identifier "a") "b")
    (∀ leaf ∈ expression.leaves, ∀ value : Value, innerFrames.evaluate leaf = .ok value →
        value.isNull = false) ∧
      (innerFrames ++ outerFrames).evaluate expression =
        (innerFrames ++ layoutBetween).evaluate expression ∧
      (innerFrames ++ outerFrames).evaluate expression = .ok (.str "<False>") ∧
      outerFrames.evaluate expression = .error (.raised .filterFailed) := by
  intro expression
  have hleaves : ∀ leaf ∈ expression.leaves, ∀ value : Value,
      innerFrames.evaluate leaf = .ok value → value.isNull = false := by
    intro leaf hleaf value hvalue
    have hcases : leaf = .identifier "f" ∨ leaf = .identifier "a" := by
      simpa [expression, Expr.leaves] using hleaf
    obtain rfl | rfl := hcases <;> obtain rfl := Except.ok.inj hvalue <;> rfl
  obtain ⟨hchains, hinner⟩ :=
    (outer_values_undisturbing expression).1 innerFrames outerFrames layoutBetween hleaves
  refine ⟨hleaves, hchains, ?_, rfl⟩
  rw [hinner]
  rfl

end Context

end Logicless
