import Logicless.Proofs.Compile.Refusals
import Logicless.Proofs.Repository.WellFormed

/-!
# How the failure of an included template is reported

A template that cannot be loaded may be at the end of a long path of inclusions. Each template on the path
reports the failure of the next one: at the tag that includes it, in the words of that failure and with that
failure as the cause. So the whole path can be read off what is reported in the end, down to the template
that something is wrong with by itself. The path does not come back to an id, since the ids on it are cached
while their templates are compiled.

## Shape of the proof

* `Fault.Told` is what a template that cannot be loaded tells of the fault of an included one.
* `Source.OwnFailure` is what is wrong with the template of an id, whatever it includes.
* `Source.ReportedAlong` is a failure that is reported along a path of ids.
* `own_or_inclusionFails` tells apart whether a compilation fails by itself or for an inclusion.
* `reportedFrom_of_error` is the induction on how deeply compilations are nested. The ids on the path are
  distinct since each of them is cached by the time the next one is asked for.
-/

namespace Logicless

/-! ## The words for a fault -/

/-- The words for the template of a fault: its id, or a placeholder if it has no id or an empty one. -/
inductive NamesTemplate : Option String → String → Prop
  | id {id : String} (hid : id ≠ "") : NamesTemplate (some id) id
  | emptyId : NamesTemplate (some "") "<template>"
  | unknown : NamesTemplate none "<template>"

/-- The words for the line of a fault. There are none for an unknown line and for line zero. -/
inductive NamesLine : Option Int → String → Prop
  | line {line : Int} (hline : line ≠ 0) : NamesLine (some line) (":" ++ toString line)
  | zero : NamesLine (some 0) ""
  | unknown : NamesLine none ""

/-- What a template that cannot be loaded tells of the fault of an included one. A fault at a line of a
template is told by its detail and its place, other faults of templates by their message alone and all other
faults by their kind and their message. -/
inductive Fault.Told : Fault → String → Prop
  | located {kind : LocatedKind} {detail template line : String} {id? : Option String} {line? : Option Int}
      (htemplate : NamesTemplate id? template) (hline : NamesLine line? line) :
      Told (.located ⟨kind, detail, line?, id?⟩) (detail ++ " (" ++ (template ++ line) ++ ")")
  | notFound {absence : Absence} : Told (.notFound absence) absence.message
  | general {message : String} : Told (.general message) message
  | expression {error : Expr.ParseError} :
      Told (.expression error) ("ExpressionParseError: " ++ error.message)
  | name {error : NameError} : Told (.name error) ("NameParseError: " ++ error.message)
  | foreign {label message : String} : Told (.foreign label message) (label ++ ": " ++ message)
  | scope {breach : ScopeBreach} : Told (.scope breach) ("RuntimeError: " ++ breach.message)
  | alreadyFilled : Told .alreadyFilled "ValueError: Only a placeholder TemplateAST can be updated"
  | noSources : Told .noSources "ValueError: ChoiceTokenSource needs at least one token source"
  | tooDeep : Told .tooDeep "RecursionError: Inclusions are nested too deeply"

theorem namesTemplate_shownTemplate (id? : Option String) : NamesTemplate id? (shownTemplate id?) := by
  cases id? with
  | none => exact .unknown
  | some id =>
    by_cases hid : id = ""
    · subst hid
      exact .emptyId
    · rw [shownTemplate, if_neg (by simpa [String.isEmpty_iff] using hid)]
      exact .id hid

theorem namesLine_shownLine (line? : Option Int) : NamesLine line? (shownLine line?) := by
  cases line? with
  | none => exact .unknown
  | some line =>
    by_cases hline : line = 0
    · subst hline
      exact .zero
    · rw [shownLine, if_neg hline]
      exact .line hline

/-- A failure is quoted by what is told of its fault. -/
theorem Failure.told_quotation (failure : Failure) : failure.fault.Told failure.quotation := by
  obtain ⟨fault, causes⟩ := failure
  cases fault with
  | located fault => exact .located (namesTemplate_shownTemplate _) (namesLine_shownLine _)
  | notFound absence => exact .notFound
  | general message => exact .general
  | expression error => exact .expression
  | name error => exact .name
  | foreign label message => exact .foreign
  | scope breach => exact .scope
  | alreadyFilled => exact .alreadyFilled
  | noSources => exact .noSources
  | tooDeep => exact .tooDeep

/-! ## Failures along a path -/

namespace Source

/-- A compilation of the template of an id, which loads templates from the source, ends with the failure. -/
def Raises (source : Source) (contentType : ContentType) (id : String) (failure : Failure) : Prop :=
  ∃ stream depth r halt after, source.tokens id = .ok stream ∧
    compileTemplate ⟨contentType, some id⟩
      (some (Repository.resolveWithin source contentType depth)) stream r = (.error halt, after) ∧
    failure = halt.failure

/-- What is wrong with the template of an id by itself. -/
inductive OwnFailure (source : Source) (contentType : ContentType) (id : String) : Failure → Prop
  /-- The source has no tokens for it. -/
  | unserved {failure : Failure} (htokens : source.tokens id = .error failure) :
      OwnFailure source contentType id failure
  /-- Its stream cannot be opened or breaks off, where every template could be loaded. -/
  | brokenOff {stream : Stream} {halt : Halt} (htokens : source.tokens id = .ok stream)
      (hfailure : stream.failure? = some halt.failure)
      (hcompile : (compileTemplate ⟨contentType, some id⟩
        (some (Resolver.accepting.loader : Loader Unit Unit)) stream ()).1 = .error halt) :
      OwnFailure source contentType id halt.failure
  /-- Its tokens do not compile, where every template could be loaded. -/
  | refused {stream : Stream} {failure : LocatedFailure} (htokens : source.tokens id = .ok stream)
      (hcompile : (compileTemplate ⟨contentType, some id⟩
        (some (Resolver.accepting.loader : Loader Unit Unit)) (.ofTokens stream.tokens) ()).1 =
          .error (.recorded failure)) :
      OwnFailure source contentType id failure.toFailure

/-- The failure is reported along the path of the ids. The template of the last one has failed by itself.
Each other one has failed because one of its tags includes the next one: at the place of the tag, in the
words of the failure of the next one and with that failure as the cause. -/
inductive ReportedAlong (source : Source) (contentType : ContentType) :
    List String → Failure → Prop
  | own {id : String} {failure : Failure} (hown : source.OwnFailure contentType id failure) :
      ReportedAlong source contentType [id] failure
  | inclusion {id id' name : String} {ids : List String} {stream : Stream} {tag : Token}
      {fault : LocatedFault} {cause : Failure} (htokens : source.tokens id = .ok stream)
      (htag : tag ∈ stream.tokens) (hname : tag.includedName? = some name)
      (hid : source.templateId name (some id) = id') (hkind : fault.kind = .inclusion)
      (hdetail : ∃ words, cause.fault.Told words ∧
        fault.detail = "Cannot load partial '" ++ name ++ "': " ++ words)
      (hcites : fault.Cites tag (some id))
      (hraises : source.Raises contentType id ⟨.located fault, cause.faults⟩)
      (hcause : ReportedAlong source contentType (id' :: ids) cause) :
      ReportedAlong source contentType (id :: id' :: ids) ⟨.located fault, cause.faults⟩

/-- The failure is reported along a path that starts at the id. The ids on it are distinct and none of them
is cached. -/
def ReportedFrom (source : Source) (contentType : ContentType) (r : Repository) (id : String)
    (failure : Failure) : Prop :=
  ∃ ids, (id :: ids).Nodup ∧ (∀ id' ∈ id :: ids, id' ∉ r.keys) ∧
    source.ReportedAlong contentType (id :: ids) failure

/-- A template that fails by itself is a path of its own. -/
theorem OwnFailure.reportedFrom {source : Source} {contentType : ContentType} {r : Repository}
    {id : String} {failure : Failure} (h : source.OwnFailure contentType id failure)
    (hnew : id ∉ r.keys) : source.ReportedFrom contentType r id failure :=
  ⟨[], List.nodup_singleton id, List.forall_mem_singleton.mpr hnew, .own h⟩

end Source

namespace Repository

variable {source : Source} {contentType : ContentType} {name id : String} {relativeTo : Option String}
  {r between after : Repository} {depth : Nat} {stream : Stream} {halt : Halt} {failure : Failure}

/-! ## One compilation -/

/-- Tokens that do not compile for another reason than an inclusion do not compile by themselves. -/
theorem ownFailure_of_tokens {failure : LocatedFailure} (htokens : source.tokens id = .ok stream)
    (hcompile : compileTemplate ⟨contentType, some id⟩
      (some (resolveWithin source contentType depth)) (.ofTokens stream.tokens) r =
        (.error (.recorded failure), after)) (hkind : failure.fault.kind ≠ .inclusion) :
    source.OwnFailure contentType id failure.toFailure := by
  refine .refused htokens (accepting_of_compileTemplate hcompile ?_)
  rintro ⟨recorded, hrecorded, hinclusion⟩
  obtain rfl := Halt.recorded.inj hrecorded
  exact hkind hinclusion

/-- The repository has grown while some tokens were accepted. -/
theorem grows_of_feedAll {setting : Setting} {tokens : List Token} {compiler : Compiler Slot}
    (hfed : (Compiler.initial setting).feedAll (some (resolveWithin source contentType depth)) tokens r =
      (.accepted, compiler, after)) : Grows source.templateId r after := by
  have hgrows := state_of_feedAll (R := Grows source.templateId) (fun _ => .refl) Grows.trans
    (fun name r => (resolves_resolveWithin source contentType depth name setting.template r).grows)
    tokens (show (Compiler.initial setting : Compiler Slot).setting = setting from rfl) r
  rwa [hfed] at hgrows

/-- The compilation has failed because a tag includes a template that cannot be loaded, in a repository
that has grown since. -/
structure InclusionFails (source : Source) (contentType : ContentType) (depth : Nat) (id : String)
    (stream : Stream) (r : Repository) (fault : LocatedFault) (name : String) (cause : Failure)
    (between : Repository) : Prop where
  includes : ∃ tag ∈ stream.tokens, tag.includedName? = some name ∧ fault.Cites tag (some id)
  kind : fault.kind = .inclusion
  detail : ∃ words, cause.fault.Told words ∧
    fault.detail = "Cannot load partial '" ++ name ++ "': " ++ words
  grows : Grows source.templateId r between
  fails : (resolveWithin source contentType depth name (some id) between).1 = .error cause

/-- A compilation fails because something is wrong with its own stream, or because a tag includes a
template that cannot be loaded. -/
theorem own_or_inclusionFails (htokens : source.tokens id = .ok stream)
    (hcompile : compileTemplate ⟨contentType, some id⟩
      (some (resolveWithin source contentType depth)) stream r = (.error halt, after)) :
    source.OwnFailure contentType id halt.failure ∨
      ∃ fault name cause between, halt = .recorded ⟨fault, cause.faults⟩ ∧
        InclusionFails source contentType depth id stream r fault name cause between := by
  cases Compiler.failedAt_of_compileTemplate hcompile with
  | @refused before behind token stack between after failure hstream hbefore htoken hrefusal =>
    cases hrefusal with
    | own hblames =>
      -- what stands behind the token makes no difference, not even the end of the stream
      have hrefused := Compiler.compile_of_refused hbefore htoken behind none
      have hcompile' : compileTemplate ⟨contentType, some id⟩
          (some (resolveWithin source contentType depth)) (.ofTokens stream.tokens) r =
            (.error (.recorded failure), after) := by
        rw [compileTemplate, Stream.ofTokens, hstream, hrefused]
        rfl
      exact .inl (ownFailure_of_tokens htokens hcompile' hblames.kind)
    | @load name tag hloads hload =>
      have hrun := Compiler.feedAll_running_iff_run.mp hbefore
      have hmem : ∀ other ∈ before, other ∈ stream.tokens := by
        intro other hother
        rw [hstream]
        exact List.mem_append_left _ hother
      have htags : stack.LayoutsFrom stream.tokens := ScopeStack.LayoutsFrom.run hrun hmem .initial
      obtain ⟨htag, hname⟩ := htags.includes (by simp [hstream]) hloads
      obtain ⟨hkind, hcites⟩ := Compiler.cites_of_load hload
      rw [Compiler.load_some_eq] at hload
      rcases hfails : resolveWithin source contentType depth name (some id) between with
        ⟨cause | slot, later⟩
      · simp only [hfails, mapError_error, Prod.mk.injEq, Except.error.injEq] at hload
        obtain ⟨rfl, _⟩ := hload
        exact .inr ⟨_, name, cause, between, rfl, {
          includes := ⟨tag, htag, hname, hcites⟩
          kind := hkind
          detail := ⟨cause.quotation, cause.told_quotation, rfl⟩
          grows := grows_of_feedAll hbefore
          fails := by rw [hfails] }⟩
      · simp [hfails] at hload
  | @unclosed stack _ hfed hfailure hopen =>
    have hstream : stream = .ofTokens stream.tokens := by
      cases stream with
      | unopened failure => cases hfailure
      | opened tokens ending =>
        obtain rfl : ending = none := hfailure
        rfl
    rw [hstream] at hcompile
    have hkind : LocatedKind.unclosed ≠ .inclusion := by decide
    exact .inl (ownFailure_of_tokens htokens hcompile hkind)
  | brokenOff hfed hfailure hhalt =>
    refine .inl (.brokenOff htokens hfailure (accepting_of_compileTemplate hcompile ?_))
    rintro ⟨recorded, hrecorded, hinclusion⟩
    cases hinclusion.symm.trans (hhalt recorded hrecorded)

/-! ## Nested compilations -/

/-- A failure to load a template, unless it is one for want of depth, is reported along a path from its
id. -/
theorem reportedFrom_of_error
    (h : resolveWithin source contentType depth name relativeTo r = (.error failure, after))
    (hdepth : ¬ failure.Exceeds depth) :
    source.ReportedFrom contentType r (source.templateId name relativeTo) failure := by
  induction depth generalizing name relativeTo r failure after with
  | zero =>
    cases h
    exact absurd Nat.zero_lt_one hdepth
  | succ depth ih =>
    generalize hid : source.templateId name relativeTo = id
    cases hslot : r.slot? id with
    | some slot =>
      rw [resolveWithin_of_cached hid hslot] at h
      cases h
    | none =>
      have hnew : id ∉ r.keys := slot?_eq_none_iff.mp hslot
      cases htokens : source.tokens id with
      | error missing =>
        rw [resolveWithin_of_no_tokens hid hslot htokens] at h
        cases h
        exact (Source.OwnFailure.unserved htokens).reportedFrom hnew
      | ok stream =>
        rcases hcompile : compileTemplate ⟨contentType, some id⟩
          (some (resolveWithin source contentType depth)) stream (r.begun id contentType) with
          ⟨halt | template, r'⟩
        · rw [resolveWithin_of_halted hid hslot htokens hcompile] at h
          cases h
          rcases own_or_inclusionFails htokens hcompile with
            hown | ⟨fault, name', cause, between, rfl, hfails⟩
          · exact hown.reportedFrom hnew
          · obtain ⟨tag, htag, hname, hcites⟩ := hfails.includes
            have hcause : ¬ cause.Exceeds depth := fun hexceeds => hdepth (Nat.succ_lt_succ hexceeds)
            obtain ⟨ids, hnodup, hfresh, hreported⟩ := ih (Prod.ext hfails.fails rfl) hcause
            -- the id is cached when the next template is asked for, and so is all that was before
            have hkeys : (r.begun id contentType).keys ⊆ between.keys := keys_subset_of_grows hfails.grows
            have hcached : id ∈ between.keys := hkeys (by simp [keys_begun])
            refine ⟨source.templateId name' (some id) :: ids, ?_, ?_, ?_⟩
            · exact List.nodup_cons.mpr ⟨fun hmem => hfresh id hmem hcached, hnodup⟩
            · refine List.forall_mem_cons.mpr ⟨hnew, fun id' hid' hmem => ?_⟩
              exact hfresh id' hid' (hkeys (subset_keys_begun r id contentType hmem))
            · exact .inclusion htokens htag hname rfl hfails.kind hfails.detail hcites
                ⟨stream, depth, _, _, _, htokens, hcompile, rfl⟩ hreported
        · obtain ⟨slot, _, hresolved, _⟩ := exists_resolveWithin_of_compiled hid hslot htokens hcompile
          rw [hresolved] at h
          cases h

/-- What is reported when a template cannot be loaded. The failure names a path of distinct ids, from that
of the template to one whose template has failed by itself, none of which is cached: each failure on the path
is one to include the next template and has the failure of that template as its cause. On a source that lists
its ids this is what `resolve` reports. -/
theorem failures_reported_along (source : Source) (contentType : ContentType) (name : String)
    (relativeTo : Option String) (r : Repository) :
    (∀ failure after, Answers source contentType name relativeTo r (.error failure, after) →
      source.ReportedFrom contentType r (source.templateId name relativeTo) failure) ∧
    ∀ ids mem_ids failure after,
      resolve ⟨source, ids, mem_ids⟩ contentType name relativeTo r = (.error failure, after) →
      source.ReportedFrom contentType r (source.templateId name relativeTo) failure := by
  have hanswers : ∀ failure after, Answers source contentType name relativeTo r (.error failure, after) →
      source.ReportedFrom contentType r (source.templateId name relativeTo) failure := by
    intro failure after h
    obtain ⟨depth, hresolved, hlost⟩ := h.exists_depth
    exact reportedFrom_of_error hresolved (hlost failure rfl)
  refine ⟨hanswers, fun ids mem_ids failure after h => hanswers failure after ?_⟩
  rw [← h]
  exact answers_resolve ⟨source, ids, mem_ids⟩ contentType name relativeTo r

/-- A source with a page inside a layout. The layout includes a note, which closes a tag that is not
open. -/
def brokenNote : FiniteSource where
  templateId name _ := name
  tokens id :=
    if id = "page" then
      .ok (.ofTokens [⟨.openLayout, "base", 1, none⟩, ⟨.close, "", 2, none⟩])
    else if id = "base" then .ok (.ofTokens [⟨.inclusion, "note", 3, none⟩])
    else if id = "note" then .ok (.ofTokens [⟨.text, "x", 4, none⟩, ⟨.close, "y", 5, none⟩])
    else .error (Fault.notFound (.unknown id)).alone
  ids := ["page", "base", "note"]
  mem_ids id stream htokens := by
    by_contra hid
    simp only [List.mem_cons, List.not_mem_nil, or_false, not_or] at hid
    simp [hid] at htokens

/-- The page reports the failure of the layout, and with it that of the note. -/
theorem failures_reported_along_brokenNote :
    ∃ failure after, resolve brokenNote .html "page" none {} = (.error failure, after) ∧
      failure.fault = .located ⟨.inclusion, "Cannot load partial 'base': Cannot load partial 'note': " ++
        "Unmatched closing tag (note:5) (base:3)", some 1, some "page"⟩ ∧
      failure.causes.length = 2 ∧ brokenNote.ReportedFrom .html {} "page" failure := by
  have hresolve : ∃ failure after, resolve brokenNote .html "page" none {} = (.error failure, after) ∧
      failure.fault = .located ⟨.inclusion, "Cannot load partial 'base': Cannot load partial 'note': " ++
        "Unmatched closing tag (note:5) (base:3)", some 1, some "page"⟩ ∧
      failure.causes.length = 2 :=
    ⟨_, _, rfl, by decide +kernel, rfl⟩
  obtain ⟨failure, after, hresolve, hfault, hcauses⟩ := hresolve
  have hreported := failures_reported_along brokenNote.toSource .html "page" none {}
  exact ⟨failure, after, hresolve, hfault, hcauses,
    hreported.2 brokenNote.ids brokenNote.mem_ids failure after hresolve⟩

end Repository

end Logicless
