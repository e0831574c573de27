import Logicless.Proofs.Repository.Exhibit
import Logicless.Proofs.Repository.Rewording

/-!
# Layers of templates

A choice of tables, and of further choices, serves an id from the first table that has it. So a theme that
overrides some templates of another one is a table on top of a table. As far as a repository goes, the
choice is the same as a single table that holds the union of all of them, with the entries of the earlier
tables where several have one. Only the words for a template that is in none of them differ: a single table
lists what it has, and a choice gives the number of its sources.

## Shape of the proof

* `Catalogue.IsLayered` catalogues are made of tables and choices, and `Catalogue.tables` lists the tables
  in the order in which they are asked.
* `IsLayered.serves` says that an id is served from the first table that has it.
* `IsLayered.rewords` compares such a catalogue with a table of the union, and `nesting_eq` says that
  compilations can be nested equally deep.
* `Session.layers_are_union` is the result, by `Session.mirrors_run`.
-/

namespace Logicless

namespace Catalogue

mutual

/-- The tables of a catalogue, in the order in which they are asked. -/
def tables : Catalogue → List (List (String × List Token))
  | .table _ entries => [entries]
  | .function _ => []
  | .choice first rest => first.tables ++ tablesAmong rest
termination_by structural catalogue => catalogue

/-- The tables of some catalogues. -/
def tablesAmong : List Catalogue → List (List (String × List Token))
  | [] => []
  | catalogue :: catalogues => catalogue.tables ++ tablesAmong catalogues
termination_by structural catalogues => catalogues

end

/-- A catalogue is a table of templates that takes names for paths, or a choice of such catalogues. -/
inductive IsLayered : Catalogue → Prop
  | table (entries : List (String × List Token)) : IsLayered (.table false entries)
  | choice {first : Catalogue} {rest : List Catalogue} (hfirst : first.IsLayered)
      (hrest : ∀ catalogue ∈ rest, catalogue.IsLayered) : IsLayered (.choice first rest)

/-- The tokens of an id in the first of some tables that has it. -/
def firstTokens? (id : String) (tables : List (List (String × List Token))) : Option (List Token) :=
  tables.findSome? fun table => table.lookup id

/-- A source hands out these tokens, or has none and says so. -/
inductive Serves : Option (List Token) → Except Failure Stream → Prop
  | found {tokens : List Token} : Serves (some tokens) (.ok (.ofTokens tokens))
  | absent {absence : Absence} : Serves none (.error (Fault.notFound absence).alone)

variable {catalogue : Catalogue} {id : String}

theorem firstTokens?_append (tables tables' : List (List (String × List Token))) :
    firstTokens? id (tables ++ tables') = (firstTokens? id tables).or (firstTokens? id tables') :=
  List.findSome?_append

/-- A choice goes on to its next sources where the first one has no tokens. -/
theorem serves_tokensAmong {sources : Nat} {catalogues : List Catalogue}
    (h : ∀ catalogue ∈ catalogues, Serves (firstTokens? id catalogue.tables) (catalogue.tokens id)) :
    Serves (firstTokens? id (tablesAmong catalogues)) (tokensAmong id sources catalogues) := by
  induction catalogues with
  | nil => exact .absent
  | cons catalogue catalogues ih =>
    rw [List.forall_mem_cons] at h
    obtain ⟨hfirst, hrest⟩ := h
    rw [tablesAmong, firstTokens?_append, tokensAmong]
    generalize firstTokens? id catalogue.tables = entry at hfirst
    generalize catalogue.tokens id = provided at hfirst
    cases hfirst with
    | found => exact .found
    | absent => exact ih hrest

/-- An id is served from the first table that has it. -/
theorem IsLayered.serves (h : catalogue.IsLayered) (id : String) :
    Serves (firstTokens? id catalogue.tables) (catalogue.tokens id) := by
  induction h with
  | table entries =>
    rw [tables, tokens, tableTokens, firstTokens?, List.findSome?_singleton]
    cases entries.lookup id with
    | none => exact .absent
    | some tokens => exact .found
  | @choice first rest _ _ hfirst hrest =>
    have hamong : Serves (firstTokens? id (tablesAmong rest)) (tokensAmong id (rest.length + 1) rest) :=
      serves_tokensAmong hrest
    rw [tables, firstTokens?_append, tokens]
    generalize firstTokens? id first.tables = entry at hfirst
    generalize first.tokens id = provided at hfirst
    cases hfirst with
    | found => exact .found
    | absent => exact hamong

theorem IsLayered.templateId_eq (h : catalogue.IsLayered) (name : String) (relativeTo : Option String) :
    catalogue.templateId name relativeTo = TemplateId.ofName name relativeTo := by
  induction h with
  | table entries => rfl
  | choice _ _ hfirst _ =>
    rw [templateId]
    exact hfirst

/-! ## The union of the tables -/

theorem Serves.alike {entry : Option (List Token)} {provided provided' : Except Failure Stream}
    (h : Serves entry provided) (h' : Serves entry provided') :
    Alike Failure.Reworded provided provided' := by
  cases h with
  | found =>
    cases h'
    exact .done
  | absent =>
    cases h'
    exact .failed .absence

/-- A table has the entries of all tables of a catalogue. Where several of them have one, it has that of
the first. -/
def IsUnion (entries : List (String × List Token)) (catalogue : Catalogue) : Prop :=
  ∀ id, entries.lookup id = firstTokens? id catalogue.tables

variable {entries : List (String × List Token)}

theorem IsUnion.firstTokens?_eq (h : IsUnion entries catalogue) (id : String) :
    firstTokens? id (Catalogue.table false entries).tables = firstTokens? id catalogue.tables := by
  rw [← h id, tables, firstTokens?, List.findSome?_singleton]

/-- A table of the union is the same source in other words. -/
theorem IsLayered.rewords (h : catalogue.IsLayered) (hunion : IsUnion entries catalogue) :
    catalogue.source.toSource.Rewords (Catalogue.table false entries).source.toSource where
  templateId := funext₂ h.templateId_eq
  tokens id := by
    have hserves := (IsLayered.table entries).serves id
    rw [hunion.firstTokens?_eq] at hserves
    exact (h.serves id).alike hserves

/-! ## How deep compilations are nested -/

theorem mem_idsAmong_iff {catalogues : List Catalogue}
    (h : ∀ catalogue ∈ catalogues, id ∈ catalogue.ids ↔ (firstTokens? id catalogue.tables).isSome) :
    id ∈ idsAmong catalogues ↔ (firstTokens? id (tablesAmong catalogues)).isSome := by
  induction catalogues with
  | nil => simp [idsAmong, tablesAmong, firstTokens?]
  | cons catalogue catalogues ih =>
    rw [List.forall_mem_cons] at h
    rw [idsAmong, List.mem_append, h.1, ih h.2, tablesAmong, firstTokens?_append, Option.isSome_or,
      Bool.or_eq_true]

/-- The ids that are listed are those that some table has. -/
theorem IsLayered.mem_ids_iff (h : catalogue.IsLayered) :
    id ∈ catalogue.ids ↔ (firstTokens? id catalogue.tables).isSome := by
  induction h with
  | table entries =>
    rw [ids, tables, firstTokens?, List.findSome?_singleton, List.lookup_isSome_iff, List.mem_map]
    refine exists_congr fun entry => and_congr_right fun _ => ?_
    rw [beq_iff_eq, eq_comm]
  | choice _ _ hfirst hrest =>
    rw [ids, List.mem_append, hfirst, mem_idsAmong_iff hrest, tables, firstTokens?_append,
      Option.isSome_or, Bool.or_eq_true]

theorem nodup_eraseDups : (ids : List String) → ids.eraseDups.Nodup
  | [] => by simp
  | id :: ids => by
    rw [List.eraseDups_cons, List.nodup_cons]
    refine ⟨?_, nodup_eraseDups _⟩
    simp [List.mem_eraseDups]
termination_by ids => ids.length
decreasing_by exact Nat.lt_succ_of_le (List.length_filter_le _ _)

/-- The same ids are listed, so compilations can be nested equally deep. -/
theorem IsLayered.nesting_eq (h : catalogue.IsLayered) (hunion : IsUnion entries catalogue) :
    Repository.nesting catalogue.source = Repository.nesting (Catalogue.table false entries).source := by
  have hids : ∀ id, id ∈ catalogue.ids ↔ id ∈ (Catalogue.table false entries).ids := by
    intro id
    rw [h.mem_ids_iff, (IsLayered.table entries).mem_ids_iff, hunion.firstTokens?_eq]
  have hperm : List.Perm catalogue.ids.eraseDups (Catalogue.table false entries).ids.eraseDups := by
    rw [List.perm_ext_iff_of_nodup (nodup_eraseDups _) (nodup_eraseDups _)]
    simpa only [List.mem_eraseDups] using hids
  exact congrArg (· + 1) hperm.length_eq

end Catalogue

namespace Session

open Repository

/-- A repository over layers of templates cannot be told from a repository over the union of the layers,
but by the words for a template that is in none of them. Compilations can be nested equally deep, and after
the same operations, the same ids are cached in the same order. Each operation has either handed out, with
both, a template that unfolds to the same, or it has failed with both, by failures of the same kinds at the
same places, all along their causes. Only the words of an absence differ, and the details that quote
them. -/
theorem layers_are_union {catalogue : Catalogue} {entries : List (String × List Token)}
    (hlayered : catalogue.IsLayered) (hunion : Catalogue.IsUnion entries catalogue)
    (contentType : ContentType) (operations : List Operation) :
    let union := (Catalogue.table false entries).source
    let session := run catalogue.source.toSource contentType operations
    let session' := run union.toSource contentType operations
    nesting catalogue.source = nesting union ∧
      session.repository.cachedIds = session'.repository.cachedIds ∧
      List.Forall₂ (fun answer answer' =>
          (∃ slot slot', answer = .ok slot ∧ answer' = .ok slot' ∧
            ∀ depth, session.repository.store.unfold depth slot =
              session'.repository.store.unfold depth slot') ∨
          ∃ failure failure', answer = .error failure ∧ answer' = .error failure' ∧
            failure.Reworded failure' ∧ List.Forall₂ Fault.Akin failure.faults failure'.faults)
        session.answers session'.answers := by
  intro union session session'
  have hmirrors : session.Mirrors session' :=
    mirrors_run (hlayered.rewords hunion) contentType operations
  refine ⟨hlayered.nesting_eq hunion, hmirrors.repository.cachedIds_eq, ?_⟩
  refine hmirrors.answers.imp fun answer answer' halike => ?_
  cases halike with
  | failed hreworded => exact .inr ⟨_, _, rfl, rfl, hreworded, hreworded.akin⟩
  | @done slot => exact .inl ⟨slot, slot, rfl, rfl, fun depth => by rw [hmirrors.repository.store]⟩

/-- A theme with a page of its own, in front of a part and a page that it overrides. -/
def themedPage : Catalogue :=
  .choice (.table false [("page", [⟨.inclusion, "part", 1, none⟩])])
    [.choice (.table false [("part", [⟨.text, "part", 1, none⟩])]) [.table false [("page", [])]]]

/-- The page of the theme is loaded with the part behind it, and then an id that no layer has. -/
theorem layers_are_union_themedPage :
    let entries := [("page", [⟨.inclusion, "part", 1, none⟩]), ("part", [⟨.text, "part", 1, none⟩])]
    let operations := [.resolve 3 "page" none, .resolve 3 "missing" none]
    themedPage.IsLayered ∧ Catalogue.IsUnion entries themedPage ∧
      (run themedPage.source.toSource .html operations).repository.cachedIds = ["page", "part"] := by
  intro entries operations
  have hlayered : themedPage.IsLayered := by
    refine .choice (.table _) fun catalogue hcatalogue => ?_
    obtain rfl := List.mem_singleton.mp hcatalogue
    refine .choice (.table _) fun catalogue hcatalogue => ?_
    obtain rfl := List.mem_singleton.mp hcatalogue
    exact .table _
  have hunion : Catalogue.IsUnion entries themedPage := by
    intro id
    cases hpage : id == "page" <;> cases hpart : id == "part" <;>
      simp [entries, themedPage, Catalogue.firstTokens?, Catalogue.tables, Catalogue.tablesAmong,
        List.lookup_cons, hpage, hpart]
  have hcached := (layers_are_union hlayered hunion .html operations).2.1
  refine ⟨hlayered, hunion, hcached.trans ?_⟩
  decide +kernel

end Session

end Logicless
