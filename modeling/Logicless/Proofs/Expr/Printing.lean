import Logicless.Proofs.Expr.Grammar

/-!
# Printing and reading expressions

What is printed of a well-formed expression is read back to the expression, and an expression that was
read is well-formed. So the printed form stands for the expression: it may be put in the place of the
text that was read, and expressions that were read are equal exactly if they are printed alike.

## Shape of the module

* `exists_phrase_of_wellFormed` gives a derivation of the printed form, whose steps are those of the
  expression from the innermost base outwards.
* `Phrase.wellFormed_expression` says that the grammar derives well-formed expressions alone.
* `print_parse` joins the two.
-/

namespace Logicless.Expr

/-- An identifier behind anything but the current value has a dot in front of it. -/
theorem print_member_of_ne {base : Expr} (h : base ≠ .implicit) (name : String) :
    (Expr.member base name).print = base.print ++ "." ++ name := by
  cases base with
  | implicit => exact absurd rfl h
  | identifier | member | filtered | unknown => rfl

/-- What is printed of a well-formed expression is derived by the grammar and stands for it. -/
theorem exists_phrase_of_wellFormed {e : Expr} (h : e.WellFormed) :
    ∃ phrase : Phrase, phrase.text = e.print.toList ∧ phrase.expression = e := by
  induction e with
  | implicit => exact ⟨⟨.dot, []⟩, rfl, rfl⟩
  | identifier name =>
    refine ⟨⟨.named ⟨name, h⟩, []⟩, ?_, rfl⟩
    simp [Phrase.text, Primary.text, textOfSteps, Identifier.chars, print]
  | member base name ih =>
    obtain ⟨hbase, hname⟩ := h
    -- a leading identifier is a primary, any other one a step
    by_cases himplicit : base = .implicit
    · subst himplicit
      refine ⟨⟨.leading ⟨name, hname⟩, []⟩, ?_, rfl⟩
      simp [Phrase.text, Primary.text, textOfSteps, Identifier.chars, print]
    · obtain ⟨phrase, htext, hphrase⟩ := ih hbase
      refine ⟨phrase.append (.select ⟨name, hname⟩), ?_, ?_⟩
      · rw [print_member_of_ne himplicit, Phrase.text_append, htext, Step.text]
        simp [Identifier.chars]
      · rw [Phrase.expression_append, hphrase, Step.extend]
  | filtered function argument ihfunction ihargument =>
    obtain ⟨hfunction, hargument⟩ := h
    obtain ⟨outer, houter, houter'⟩ := ihfunction hfunction
    obtain ⟨inner, hinner, hinner'⟩ := ihargument hargument
    refine ⟨outer.append (.apply .none inner.primary inner.steps .none), ?_, ?_⟩
    · have htext : inner.primary.text ++ textOfSteps inner.steps = argument.print.toList := hinner
      rw [print, Phrase.text_append, houter, Step.text, ← List.append_assoc inner.primary.text, htext]
      simp [Blanks.none]
    · rw [Phrase.expression_append, houter', Step.extend, ← Phrase.expression, hinner']
  | unknown => exact h.elim

theorem Primary.wellFormed_expression (primary : Primary) : primary.expression.WellFormed := by
  cases primary with
  | dot => exact trivial
  | leading word => exact ⟨trivial, word.valid⟩
  | named word => exact word.valid

mutual

/-- A step makes a well-formed expression of one. -/
theorem wellFormed_extend {base : Expr} (h : base.WellFormed) :
    (step : Step) → (step.extend base).WellFormed
  | .select word => by
    rw [Step.extend]
    exact ⟨h, word.valid⟩
  | .apply _ primary steps _ => by
    rw [Step.extend]
    exact ⟨h, wellFormed_extendBySteps primary.wellFormed_expression steps⟩

/-- Some steps make a well-formed expression of one. -/
theorem wellFormed_extendBySteps {base : Expr} (h : base.WellFormed) :
    (steps : List Step) → (extendBySteps base steps).WellFormed
  | [] => h
  | step :: steps => by
    rw [extendBySteps]
    exact wellFormed_extendBySteps (wellFormed_extend h step) steps

end

/-- The grammar derives well-formed expressions alone. -/
theorem Phrase.wellFormed_expression (phrase : Phrase) : phrase.expression.WellFormed :=
  wellFormed_extendBySteps phrase.primary.wellFormed_expression phrase.steps

/-- The printed form of a well-formed expression is read back, whatever blank characters stand around
it. -/
theorem parse_blanks_print {e : Expr} (h : e.WellFormed) (before after : Blanks) :
    parse (String.ofList (before.chars ++ (e.print.toList ++ after.chars))) = .ok e := by
  obtain ⟨phrase, htext, hphrase⟩ := exists_phrase_of_wellFormed h
  refine parse_eq_ok_iff.mpr ⟨⟨before, phrase, after⟩, ?_, hphrase⟩
  rw [String.toList_ofList, Derivation.text, htext]

theorem parse_of_wellFormed {e : Expr} (h : e.WellFormed) : parse e.print = .ok e := by
  have hparse := parse_blanks_print h .none .none
  simpa [Blanks.none] using hparse

/-- Whatever is read is well-formed. -/
theorem wellFormed_of_parse {source : String} {e : Expr} (h : parse source = .ok e) :
    e.WellFormed := by
  obtain ⟨derivation, -, rfl⟩ := parse_eq_ok_iff.mp h
  exact derivation.phrase.wellFormed_expression

/-- Well-formed expressions are read back from what is printed of them, with blank characters around
it or not. What is read is well-formed, so it is read back as well; and two expressions that were read
are equal exactly if they are printed alike. -/
theorem print_parse :
    (∀ e, e.WellFormed → ∀ before after : List Char, (∀ c ∈ before, Text.isBlank c = true) →
      (∀ c ∈ after, Text.isBlank c = true) →
        parse (String.ofList (before ++ e.print.toList ++ after)) = .ok e) ∧
    (∀ source e, parse source = .ok e → e.WellFormed ∧ parse e.print = parse source) ∧
    ∀ source source' e e', parse source = .ok e → parse source' = .ok e' →
      (e = e' ↔ e.print = e'.print) := by
  refine ⟨?_, ?_, ?_⟩
  · intro e he before after hbefore hafter
    rw [List.append_assoc]
    exact parse_blanks_print he ⟨before, hbefore⟩ ⟨after, hafter⟩
  · intro source e hparse
    have he := wellFormed_of_parse hparse
    exact ⟨he, (parse_of_wellFormed he).trans hparse.symm⟩
  · intro source source' e e' hparse hparse'
    constructor
    · rintro rfl
      rfl
    · intro hprint
      have he := parse_of_wellFormed (wellFormed_of_parse hparse)
      have he' := parse_of_wellFormed (wellFormed_of_parse hparse')
      rw [hprint, he'] at he
      exact (Except.ok.inj he).symm

/-- A member of what a filter makes of its argument, with blank characters around it. -/
theorem print_parse_filtered :
    (Expr.member (.filtered .implicit (.member (.identifier "x") "y")) "z").WellFormed ∧
      parse "\t.(x.y).z  " =
        .ok (.member (.filtered .implicit (.member (.identifier "x") "y")) "z") := by
  have hx : IsIdentifier "x" := by decide
  have hy : IsIdentifier "y" := by decide
  have hz : IsIdentifier "z" := by decide
  have he : (Expr.member (.filtered .implicit (.member (.identifier "x") "y")) "z").WellFormed :=
    ⟨⟨trivial, hx, hy⟩, hz⟩
  have hbefore : ['\t'].all Text.isBlank = true := by decide
  have hafter : [' ', ' '].all Text.isBlank = true := by decide
  have hparse := print_parse.1 _ he ['\t'] [' ', ' '] (List.all_eq_true.mp hbefore)
    (List.all_eq_true.mp hafter)
  exact ⟨he, hparse⟩

end Logicless.Expr
