import Logicless.Proofs.Compile.Finality
import Logicless.Proofs.Compile.OpenTags

/-!
# Closing what is open

Tokens that the compiler accepts can be completed to a template, by as many closing tags as tags are open.
The closing tags need no labels, since a blank one closes any scope. With fewer of them the end of the
template reports the innermost tag that is still open, and one more is reported itself.

A layout loads its template when it is closed, so the templates of the open layouts have to be there.

## Shape of the proof

* `ScopeStack.awaitedNames` lists the names that the open layouts wait for, and `Loader.Provides` says that
  a loader provides the templates of some names, one after another.
* `exists_advance_of_closing` closes the innermost scope, and `exists_run_closing` as many scopes as there
  are closing tags. `move_closing_of_root` is about the one closing tag too many.
* `unfinished_closed_exactly` joins them with `exists_holdsOpen_of_feedAll`, which knows the tag that a
  scope belongs to.
-/

namespace Logicless

variable {σ ρ : Type}

/-- The loader provides the templates of these names one after another, inside the template with an id if
any. -/
def Loader.Provides (loader : Loader σ ρ) (relativeTo : Option String) : List String → σ → Prop
  | [], _ => True
  | name :: names, state =>
    ∃ target after, loader name relativeTo state = (.ok target, after) ∧
      Provides loader relativeTo names after

/-- The name of the template that a layout waits for. -/
def Scope.awaitedName? (scope : Scope ρ) : Option String :=
  if scope.kind = .layout then scope.name else none

namespace ScopeStack

/-- The names of the templates that the open layouts wait for, the innermost first. -/
def awaitedNames (stack : ScopeStack ρ) : List String :=
  (stack.current :: stack.enclosing).filterMap Scope.awaitedName?

variable {setting : Setting} {loader : Loader σ ρ} {stack : ScopeStack ρ} {scope below : Scope ρ}
  {enclosing : List (Scope ρ)} {closing : Token} {closings : List Token} {state : σ}

theorem awaitedNames_append (stack : ScopeStack ρ) (node : Node Unit ρ) :
    (stack.append node).awaitedNames = stack.awaitedNames := by
  rw [awaitedNames, awaitedNames, List.filterMap_cons, List.filterMap_cons]
  rfl

theorem awaitedNames_of_ne_layout (h : scope.kind ≠ .layout) :
    awaitedNames ⟨scope, below :: enclosing⟩ = awaitedNames ⟨below, enclosing⟩ :=
  List.filterMap_cons_none (if_neg h)

theorem awaitedNames_of_layout {name : String} (hkind : scope.kind = .layout)
    (hname : scope.name = some name) :
    awaitedNames ⟨scope, below :: enclosing⟩ = name :: awaitedNames ⟨below, enclosing⟩ := by
  refine List.filterMap_cons_some ?_
  rw [Scope.awaitedName?, if_pos hkind, hname]

/-! ## Closing tags -/

/-- A closing tag without a label closes the innermost scope, whatever tag has opened it. -/
theorem exists_advance_of_closing (hclosing : closing.IsBareClosing) (htag : scope.IsTag)
    (hprovides : loader.Provides setting.template (awaitedNames ⟨scope, below :: enclosing⟩) state) :
    ∃ node after,
      Advance setting loader closing (⟨scope, below :: enclosing⟩, state)
        (⟨below.append node, enclosing⟩, after) ∧
      loader.Provides setting.template (awaitedNames ⟨below.append node, enclosing⟩) after := by
  have hstays : ∀ node, awaitedNames ⟨below.append node, enclosing⟩ = awaitedNames ⟨below, enclosing⟩ :=
    fun node => awaitedNames_append ⟨below, enclosing⟩ node
  cases htag with
  | @ofSection inverted token expression nodes =>
    rw [awaitedNames_of_ne_layout (Scope.Kind.ofSection_ne_layout inverted)] at hprovides
    refine ⟨_, state, .closeSection hclosing.kind ⟨rfl, rfl⟩ (hclosing.blank.fits _), ?_⟩
    rwa [hstays]
  | block =>
    rw [awaitedNames_of_ne_layout (show Scope.Kind.block ≠ .layout from nofun)] at hprovides
    refine ⟨_, state, .closeBlock hclosing.kind rfl rfl (hclosing.blank.fitsName _ _), ?_⟩
    rwa [hstays]
  | layout =>
    rw [awaitedNames_of_layout rfl rfl] at hprovides
    obtain ⟨target, after, hload, hprovides⟩ := hprovides
    refine ⟨_, after, .closeLayout hclosing.kind rfl rfl (hclosing.blank.fitsName _ _) hload, ?_⟩
    rwa [hstays]

/-- As long as tags are open, each closing tag closes one of them. -/
theorem exists_run_closing (hclosings : ∀ closing ∈ closings, closing.IsBareClosing)
    (hgrounded : stack.Grounded) (hlength : closings.length < stack.depth)
    (hprovides : loader.Provides setting.template stack.awaitedNames state) :
    ∃ stack' state', Run setting loader closings (stack, state) (stack', state') ∧
      stack'.Grounded ∧ stack'.depth + closings.length = stack.depth := by
  induction closings generalizing stack state with
  | nil => exact ⟨stack, state, .nil, hgrounded, rfl⟩
  | cons closing closings ih =>
    obtain ⟨hclosing, hrest⟩ := List.forall_mem_cons.mp hclosings
    cases hgrounded with
    | root => simp [depth] at hlength
    | tag htag hbelow =>
      obtain ⟨node, after, hadvance, hprovides⟩ := exists_advance_of_closing hclosing htag hprovides
      simp only [depth, List.length_cons] at hlength ih ⊢
      obtain ⟨stack', state', hrun, hgrounded', hdepth⟩ :=
        ih hrest (hbelow.append node) (by simp only [append]; omega) hprovides
      refine ⟨stack', state', .cons hadvance hrun, hgrounded', ?_⟩
      simp only [append] at hdepth
      omega

/-- A closing tag where no tag is open is refused. -/
theorem move_closing_of_root (hroot : stack.current.kind = .root) (hclosing : closing.kind = .close) :
    stack.move setting closing =
      .refuse ⟨setting.cite (some closing) .unmatchedClose "Unmatched closing tag", []⟩ := by
  rw [move, hclosing]
  show stack.moveClose setting closing = _
  rw [moveClose, hroot]
  rfl

end ScopeStack

/-! ## Compilations -/

section

variable {setting : Setting} {loader : Option (Loader σ ρ)} {tokens : List Token}
  {stack : ScopeStack ρ} {state state' : σ}

theorem grounded_of_feedAll
    (hfed : (Compiler.initial setting).feedAll loader tokens state =
      (.accepted, .running setting stack, state')) : stack.Grounded := by
  have hsteady : ((Compiler.initial setting).feedAll loader tokens state).2.1.Steady :=
    (Compiler.Steady.initial.feedAll loader tokens state).1
  rw [hfed] at hsteady
  exact hsteady stack rfl

/-- Behind tokens that are accepted, each closing tag closes one of the tags that are open. -/
theorem exists_feedAll_closing
    (hfed : (Compiler.initial setting).feedAll loader tokens state =
      (.accepted, .running setting stack, state')) {closings : List Token}
    (hclosings : ∀ closing ∈ closings, closing.IsBareClosing) (hlength : closings.length < stack.depth)
    (hprovides : (loader.getD .absent).Provides setting.template stack.awaitedNames state') :
    ∃ stack' after, (Compiler.initial setting).feedAll loader (tokens ++ closings) state =
      (.accepted, .running setting stack', after) ∧ stack'.depth + closings.length = stack.depth := by
  obtain ⟨stack', after, hrun, _, hdepth⟩ :=
    ScopeStack.exists_run_closing hclosings (grounded_of_feedAll hfed) hlength hprovides
  refine ⟨stack', after, ?_, hdepth⟩
  rw [Compiler.feedAll_append hfed]
  exact Compiler.feedAll_running_iff_run.mpr hrun

/-- Tokens that are accepted end in a template if no tag is open. -/
theorem exists_template_of_feedAll
    (hfed : (Compiler.initial setting).feedAll loader tokens state =
      (.accepted, .running setting stack, state')) (hdepth : stack.depth = 1) :
    ∃ template, (compileTemplate setting loader (.ofTokens tokens) state).1 = .ok template := by
  have henclosing : stack.enclosing = [] := by
    rw [← List.length_eq_zero_iff]
    simp only [ScopeStack.depth] at hdepth
    omega
  obtain ⟨scope, _⟩ := stack
  obtain rfl := henclosing
  refine ⟨scope.body setting.contentType, ?_⟩
  rw [compileTemplate, Stream.ofTokens, Compiler.compile, Compiler.read, hfed]
  rfl

/-- Tokens that are accepted end with the report of the innermost open tag if there is one. -/
theorem exists_unclosed_of_feedAll
    (hfed : (Compiler.initial setting).feedAll loader tokens state =
      (.accepted, .running setting stack, state')) (hdepth : 1 < stack.depth) :
    ∃ opening,
      HoldsOpen ((Compiler.initial setting).depths loader tokens state) stack.depth opening ∧
      (compileTemplate setting loader (.ofTokens tokens) state).1 =
        .error (.recorded ⟨setting.cite (some opening) .unclosed "Unclosed Mustache tag", []⟩) := by
  obtain ⟨opening, hopening, hholds⟩ := exists_holdsOpen_of_feedAll hfed hdepth
  refine ⟨opening, hholds, ?_⟩
  rw [compileTemplate, Stream.ofTokens, Compiler.compile, Compiler.read, hfed]
  obtain ⟨scope, enclosing⟩ := stack
  cases enclosing with
  | nil => simp [ScopeStack.depth] at hdepth
  | cons below enclosing => rw [← hopening]; rfl

/-- A closing tag behind tokens that leave no tag open is reported, whatever comes behind it. -/
theorem unmatched_of_feedAll
    (hfed : (Compiler.initial setting).feedAll loader tokens state =
      (.accepted, .running setting stack, state')) (hdepth : stack.depth = 1) {closing : Token}
    (hclosing : closing.kind = .close) (rest : List Token) :
    (compileTemplate setting loader (.ofTokens (tokens ++ closing :: rest)) state).1 =
      .error (.recorded
        ⟨setting.cite (some closing) .unmatchedClose "Unmatched closing tag", []⟩) := by
  have hroot : stack.current.kind = .root := by
    cases grounded_of_feedAll hfed with
    | root hroot => exact hroot
    | tag => simp [ScopeStack.depth] at hdepth
  rw [compileTemplate, Stream.ofTokens, Compiler.compile_append hfed, Compiler.compile, Compiler.read,
    Compiler.feedAll, Compiler.feed]
  simp only [ScopeStack.move_closing_of_root hroot hclosing]
  rfl

/-- Tokens that the compiler accepts are completed to a template by as many closing tags without a label
as tags are open, if the templates of the open layouts are provided. With fewer closing tags the innermost
tag that is left open is reported, and the first closing tag too many is. So the start of a template is a
template itself, or nothing but an open tag is wrong with it. -/
theorem unfinished_closed_exactly (setting : Setting) (loader : Option (Loader σ ρ))
    (tokens : List Token) (state : σ) :
    (∀ stack state', (Compiler.initial setting).feedAll loader tokens state =
        (.accepted, .running setting stack, state') →
      (loader.getD .absent).Provides setting.template stack.awaitedNames state' →
      ∀ closings, (∀ closing ∈ closings, closing.IsBareClosing) →
        let result := (compileTemplate setting loader (.ofTokens (tokens ++ closings)) state).1
        (closings.length + 1 = stack.depth → ∃ template, result = .ok template) ∧
        (closings.length + 1 < stack.depth →
          ∃ opening,
            HoldsOpen ((Compiler.initial setting).depths loader (tokens ++ closings) state)
              (stack.depth - closings.length) opening ∧
            result = .error (.recorded
              ⟨setting.cite (some opening) .unclosed "Unclosed Mustache tag", []⟩)) ∧
        (stack.depth ≤ closings.length →
          ∃ closing, closings[stack.depth - 1]? = some closing ∧
            result = .error (.recorded
              ⟨setting.cite (some closing) .unmatchedClose "Unmatched closing tag", []⟩))) ∧
    ∀ rest template state',
      compileTemplate setting loader (.ofTokens (tokens ++ rest)) state = (.ok template, state') →
      let result := (compileTemplate setting loader (.ofTokens tokens) state).1
      (∃ template, result = .ok template) ∨
        ∃ opening, result = .error (.recorded
          ⟨setting.cite (some opening) .unclosed "Unclosed Mustache tag", []⟩) := by
  refine ⟨?_, ?_⟩
  · intro stack state' hfed hprovides closings hclosings
    refine ⟨?_, ?_, ?_⟩
    · intro hlength
      obtain ⟨stack', after, hfed', hdepth⟩ := exists_feedAll_closing hfed hclosings (by omega) hprovides
      exact exists_template_of_feedAll hfed' (by omega)
    · intro hlength
      obtain ⟨stack', after, hfed', hdepth⟩ := exists_feedAll_closing hfed hclosings (by omega) hprovides
      obtain ⟨opening, hholds, hresult⟩ := exists_unclosed_of_feedAll hfed' (by omega)
      rw [show stack'.depth = stack.depth - closings.length by omega] at hholds
      exact ⟨opening, hholds, hresult⟩
    · intro hlength
      have hpositive : 0 < stack.depth := Nat.succ_pos _
      have hlast : stack.depth - 1 < closings.length := by omega
      -- all tags are closed by the closing tags before this one
      have hsplit := List.take_append_drop (stack.depth - 1) closings
      rw [List.drop_eq_getElem_cons hlast] at hsplit
      have hfewer : ∀ closing ∈ closings.take (stack.depth - 1), closing.IsBareClosing :=
        fun closing hclosing => hclosings closing (List.mem_of_mem_take hclosing)
      have htake : (closings.take (stack.depth - 1)).length = stack.depth - 1 := by
        rw [List.length_take]
        omega
      obtain ⟨stack', after, hfed', hdepth⟩ := exists_feedAll_closing hfed hfewer (by omega) hprovides
      refine ⟨closings[stack.depth - 1], List.getElem?_eq_getElem hlast, ?_⟩
      have hunmatched := unmatched_of_feedAll hfed' (by omega)
        (hclosings _ (List.getElem_mem hlast)).kind (closings.drop (stack.depth - 1 + 1))
      rwa [List.append_assoc, hsplit] at hunmatched
  · intro rest template state' hcompile
    obtain ⟨_, scope, _, hrun⟩ := compileTemplate_eq_ok_iff_run.mp hcompile
    have hall : (Compiler.initial setting).feedAll loader (tokens ++ rest) state =
        (.accepted, .running setting ⟨scope, []⟩, state') :=
      Compiler.feedAll_running_iff_run.mpr hrun
    obtain ⟨between, after, hfed⟩ := Compiler.exists_feedAll_of_append hall
    obtain ⟨stack, rfl, _⟩ := Compiler.feedAll_eq_accepted_iff_run.mp hfed
    by_cases hopen : 1 < stack.depth
    · obtain ⟨opening, _, hresult⟩ := exists_unclosed_of_feedAll hfed hopen
      exact .inr ⟨opening, hresult⟩
    · have hpositive : 0 < stack.depth := Nat.succ_pos _
      exact .inl (exists_template_of_feedAll hfed (by omega))

/-- A layout with an open block, and in the block a section that is open in its second branch. -/
def openInAlternative : List Token :=
  [⟨.openLayout, "base", 1, none⟩, ⟨.openBlock, "title", 2, none⟩, ⟨.openSection, "a.b", 3, none⟩,
   ⟨.text, "x", 3, none⟩, ⟨.openInverted, " ", 4, none⟩]

/-- Three closing tags complete it, which is when the layout is loaded. With one of them the block is left
open, with none the section, and a fourth one is reported. -/
theorem unfinished_closed_exactly_openInAlternative :
    let setting : Setting := ⟨.html, some "page"⟩
    let loader : Option (Loader (List String) String) :=
      some fun name _ state =>
        if name = "base" then (.ok "target", name :: state)
        else (.error (Fault.notFound (.unknown name)).alone, state)
    let closing (line : Int) : Token := ⟨.close, " ", line, none⟩
    let result (tokens : List Token) := (compileTemplate setting loader (.ofTokens tokens) []).1
    (∃ template, result (openInAlternative ++ [closing 5, closing 6, closing 7]) = .ok template) ∧
      (∃ opening, HoldsOpen ((Compiler.initial setting).depths loader
          (openInAlternative ++ [closing 5]) []) 3 opening ∧
        result (openInAlternative ++ [closing 5]) =
          .error (.recorded ⟨setting.cite (some opening) .unclosed "Unclosed Mustache tag", []⟩)) ∧
      result (openInAlternative ++ [closing 5, closing 6, closing 7, closing 8, closing 9]) =
        .error (.recorded ⟨⟨.unmatchedClose, "Unmatched closing tag", some 8, some "page"⟩, []⟩) ∧
      ((∃ template, result openInAlternative = .ok template) ∨
        ∃ opening, result openInAlternative =
          .error (.recorded ⟨setting.cite (some opening) .unclosed "Unclosed Mustache tag", []⟩)) := by
  intro setting loader closing result
  have hbare : ∀ lines, ∀ token ∈ List.map closing lines, token.IsBareClosing := by
    intro lines token htoken
    obtain ⟨line, _, rfl⟩ := List.mem_map.mp htoken
    exact ⟨rfl, by simp [Token.IsBlank, closing]; decide⟩
  obtain ⟨hclosed, hprefix⟩ := unfinished_closed_exactly setting loader openInAlternative []
  obtain ⟨template, htemplate⟩ := (hclosed _ [] rfl ⟨_, _, rfl, trivial⟩ _ (hbare [5, 6, 7])).1 rfl
  obtain ⟨-, hunclosed, -⟩ := hclosed _ [] rfl ⟨_, _, rfl, trivial⟩ _ (hbare [5])
  obtain ⟨-, -, hunmatched⟩ := hclosed _ [] rfl ⟨_, _, rfl, trivial⟩ _ (hbare [5, 6, 7, 8, 9])
  refine ⟨⟨template, htemplate⟩, hunclosed (by decide), ?_,
    hprefix [closing 5, closing 6, closing 7] template _ (Prod.ext htemplate rfl)⟩
  obtain ⟨fourth, hfourth, hresult⟩ := hunmatched (by decide)
  obtain rfl := Option.some.inj hfourth
  exact hresult

end

end Logicless
