import Logicless.Proofs.Compile.Refusals

/-!
# The place of a failure

The failure of a compilation is placed at the token that was refused first, with one exception: a layout
whose template cannot be loaded is refused where it is closed and reported where it was opened. Which tag
this is can be told from the tokens alone, and so can the tag that is reported when the template ends too
early. The tokens behind the first refused one matter neither to the failure nor to the loader.

## Shape of the module

* `Compiler.Attributed` says where the fault of some tokens is placed.
* `Refusal.exists_cited` tells the token that is cited for a refused one, and `logged_of_refused` carries the
  tokens up to there over to a loader that keeps a list of its uses.
* `failures_attributed` joins the two by the ways in which a compilation fails.
-/

namespace Logicless

variable {σ ρ : Type}

namespace Compiler

/-- Where the fault of some tokens is placed, which are compiled from the start. -/
inductive Attributed (setting : Setting) (loader : Option (Loader σ ρ)) (tokens : List Token)
    (state : σ) (fault : LocatedFault) : Prop
  /-- At the first token that is refused; but if it closes a layout whose template cannot be loaded, at the
  tag that has opened the layout. The tokens behind it make no difference. -/
  | refused {before behind : List Token} {token cited : Token} {reached failed : Compiler ρ}
      {between after : σ} (htokens : tokens = before ++ token :: behind)
      (hbefore : (initial setting).feedAll loader before state = (.accepted, reached, between))
      (htoken : reached.feed loader token between = (.refused, failed, after))
      (hclosing : fault.kind = .inclusion ∧ token.kind = .close →
        cited.kind = .openLayout ∧
          HoldsOpen ((initial setting).depths loader before state) reached.depth cited)
      (hother : ¬(fault.kind = .inclusion ∧ token.kind = .close) → cited = token)
      (hcites : fault.Cites cited setting.template)
      (hbehind : ∀ others,
        compileTemplate setting (loader.map .logged) (.ofTokens (before ++ token :: others)) (state, []) =
          compileTemplate setting (loader.map .logged) (.ofTokens tokens) (state, []))
  /-- All tokens are accepted. The fault is that a tag is left open, and it is placed at the last one that
  is. -/
  | unclosed {opening : Token} {last : Compiler ρ} {after : σ}
      (hfed : (initial setting).feedAll loader tokens state = (.accepted, last, after))
      (hkind : fault.kind = .unclosed)
      (hopening : HoldsOpen ((initial setting).depths loader tokens state) last.depth opening)
      (hcites : fault.Cites opening setting.template)

variable {setting : Setting} {loader : Option (Loader σ ρ)} {compiler reached failed : Compiler ρ}
  {stack : ScopeStack ρ} {token : Token} {before : List Token} {state between after : σ}
  {failure : LocatedFailure}

/-- The innermost scope of a tag belongs to the last tag that is open. -/
theorem holdsOpen_of_opening {tag : Token}
    (hbefore : (initial setting).feedAll loader before state = (.accepted, running setting stack, between))
    (hkind : stack.current.kind ≠ .root) (htag : stack.current.opening = some tag) :
    HoldsOpen ((initial setting).depths loader before state) stack.depth tag := by
  obtain ⟨below, enclosing, henclosing, _, _⟩ := (grounded_of_feedAll hbefore).exists_below hkind
  have hopen : 1 < stack.depth := by simp [ScopeStack.depth, henclosing]
  obtain ⟨opening, hopening, hholds⟩ := exists_holdsOpen_of_feedAll hbefore hopen
  rwa [Option.some.inj (htag.symm.trans hopening)]

/-- The tag of the innermost layout is one that opens a layout. -/
theorem kind_of_opening {tag : Token}
    (hbefore : (initial setting).feedAll loader before state = (.accepted, running setting stack, between))
    (hkind : stack.current.kind = .layout) (htag : stack.current.opening = some tag) :
    tag.kind = .openLayout := by
  have hrun := feedAll_running_iff_run.mp hbefore
  have hlayouts : stack.LayoutsFrom before :=
    ScopeStack.LayoutsFrom.run hrun (fun _ hmem => hmem) .initial
  obtain ⟨opening, _, hopening, hopens, _⟩ := hlayouts _ List.mem_cons_self hkind
  rwa [Option.some.inj (htag.symm.trans hopening)]

/-- The token that a failure to take `token` is placed at. -/
theorem Refusal.exists_cited
    (hbefore : (initial setting).feedAll loader before state = (.accepted, running setting stack, between))
    (h : Refusal setting loader stack token between after failure) :
    ∃ cited, failure.fault.Cites cited setting.template ∧
      (failure.fault.kind = .inclusion ∧ token.kind = .close → cited.kind = .openLayout ∧
        HoldsOpen ((initial setting).depths loader before state) stack.depth cited) ∧
      (¬(failure.fault.kind = .inclusion ∧ token.kind = .close) → cited = token) := by
  cases h with
  | own hblames =>
    exact ⟨token, hblames.cites, fun h => absurd h.1 hblames.kind, fun _ => rfl⟩
  | @load name tag hloads hload =>
    obtain ⟨hkind, hcites⟩ := cites_of_load hload
    cases hloads with
    | inclusion htoken hname =>
      refine ⟨token, hcites, fun h => ?_, fun _ => rfl⟩
      cases htoken.symm.trans h.2
    | layout htoken hscope htag hname =>
      have hroot : stack.current.kind ≠ .root := by simp [hscope]
      exact ⟨tag, hcites, fun _ => ⟨kind_of_opening hbefore hscope htag,
        holdsOpen_of_opening hbefore hroot htag⟩, fun h => absurd ⟨hkind, htoken⟩ h⟩

theorem exists_calls_of_withoutCalls {α β : Type} {result : α × β × σ × List (Loader.Call σ)} {a : α}
    {b : β} (h : withoutCalls result = (a, b, state)) : ∃ calls, result = (a, b, state, calls) := by
  obtain ⟨_, _, _, calls⟩ := result
  cases h
  exact ⟨calls, rfl⟩

/-- The compiler comes to the first refused token in the same way if its loader keeps a list of its uses. -/
theorem logged_of_refused (hbefore : compiler.feedAll loader before state = (.accepted, reached, between))
    (htoken : reached.feed loader token between = (.refused, failed, after)) :
    ∃ calls calls',
      compiler.feedAll (loader.map .logged) before (state, []) = (.accepted, reached, between, calls) ∧
      reached.feed (loader.map .logged) token (between, calls) = (.refused, failed, after, calls') := by
  obtain ⟨calls, hlogged⟩ :=
    exists_calls_of_withoutCalls ((feedAll_logged loader compiler state [] before).trans hbefore)
  obtain ⟨calls', hlogged'⟩ :=
    exists_calls_of_withoutCalls ((feed_logged loader reached between calls token).trans htoken)
  exact ⟨calls, calls', hlogged, hlogged'⟩

/-- What stands behind the first refused token matters neither to the outcome nor to the uses of the
loader. -/
theorem compileTemplate_of_refused
    (hbefore : (initial setting).feedAll loader before state = (.accepted, reached, between))
    (htoken : reached.feed loader token between = (.refused, failed, after)) (behind others : List Token) :
    compileTemplate setting (loader.map .logged) (.ofTokens (before ++ token :: others)) (state, []) =
      compileTemplate setting (loader.map .logged) (.ofTokens (before ++ token :: behind)) (state, []) := by
  obtain ⟨calls, calls', hlogged, hlogged'⟩ := logged_of_refused hbefore htoken
  rw [compileTemplate, compileTemplate, Stream.ofTokens, Stream.ofTokens,
    compile_of_refused hlogged hlogged', compile_of_refused hlogged hlogged']

/-- A compilation of tokens fails at the first token that is refused, or else because a tag is left open.
The failure is placed at this token or tag, and at the tag of a layout if the layout cannot be loaded where
it is closed. It cites the id of the token that it is placed at, or else that of the template. -/
theorem failures_attributed (setting : Setting) (loader : Option (Loader σ ρ)) (tokens : List Token)
    (state : σ) (halt : Halt) (after : σ)
    (h : compileTemplate setting loader (.ofTokens tokens) state = (.error halt, after)) :
    ∃ failure, halt = .recorded failure ∧ Attributed setting loader tokens state failure.fault := by
  cases failedAt_of_compileTemplate h with
  | @refused before behind token stack between _ failure htokens hbefore htoken hrefusal =>
    obtain rfl : tokens = before ++ token :: behind := htokens
    obtain ⟨cited, hcites, hclosing, hother⟩ := hrefusal.exists_cited hbefore
    exact ⟨failure, rfl, .refused rfl hbefore htoken hclosing hother hcites
      (compileTemplate_of_refused hbefore htoken behind)⟩
  | @unclosed stack _ hfed hending hopen =>
    obtain ⟨opening, hopening, hholds⟩ := exists_holdsOpen_of_feedAll hfed hopen
    refine ⟨_, rfl, .unclosed hfed rfl hholds ?_⟩
    rw [Compiler.unclosed, hopening]
    exact setting.cites _ _ _
  | brokenOff hfed hending => cases hending

/-- A layout with a block in it, whose tag comes from a template of its own. Something else would be wrong
behind it. -/
def misplacedLayout : List Token :=
  [⟨.text, "x", 1, none⟩, ⟨.openLayout, "base", 2, some "part"⟩, ⟨.openBlock, "title", 3, none⟩,
   ⟨.close, "", 4, none⟩, ⟨.close, "base", 5, some "other"⟩, ⟨.close, "", 6, none⟩]

/-- Its template cannot be loaded when it is closed at the end, which is reported where it was opened. -/
theorem failures_attributed_misplacedLayout :
    let setting : Setting := ⟨.html, some "page"⟩
    let loader : Option (Loader (List String) Unit) :=
      some fun name _ names => (.error (Fault.notFound (.unknown name)).alone, names ++ [name])
    ∃ failure,
      compileTemplate setting loader (.ofTokens misplacedLayout) [] =
        (.error (.recorded failure), ["base"]) ∧
      failure.fault.line = some 2 ∧ failure.fault.template = some "part" ∧
      Attributed setting loader misplacedLayout [] failure.fault := by
  intro setting loader
  have hhalt : ∃ failure, compileTemplate setting loader (.ofTokens misplacedLayout) [] =
      (.error (.recorded failure), ["base"]) ∧ failure.fault.line = some 2 ∧
        failure.fault.template = some "part" := ⟨_, rfl, rfl, rfl⟩
  obtain ⟨failure, hcompile, hline, htemplate⟩ := hhalt
  obtain ⟨recorded, hrecorded, hattributed⟩ :=
    failures_attributed setting loader misplacedLayout [] _ _ hcompile
  obtain rfl := Halt.recorded.inj hrecorded
  exact ⟨failure, hcompile, hline, htemplate, hattributed⟩

end Compiler

end Logicless
