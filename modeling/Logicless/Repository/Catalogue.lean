import Logicless.Repository.Source
import Logicless.TemplateId

/-!
# Catalogues of templates

A catalogue describes a source of tokens by what it holds: a table of templates, a table that takes
names as ids, a function given by its values, or a choice that asks several catalogues in order.

## Shape of the module

* `Catalogue` is the type of descriptions and `Catalogue.choose` makes a choice of them.
* `Catalogue.source` is the source that a catalogue describes. A choice takes its ids from its first
  catalogue and goes on to the next one only where a template is not found.
* `Catalogue.edit` changes one table or function of a catalogue.
-/

namespace Logicless

/-- What a loading function does for an id. -/
inductive Provision where
  /-- It hands out a stream of tokens. -/
  | stream (stream : Stream)
  /-- It knows no such template. -/
  | absent
  /-- It fails. -/
  | failing (failure : Failure)
deriving DecidableEq, Repr

/-- A description of a source. -/
inductive Catalogue where
  /-- A table of templates. If it is `flat`, names are ids; otherwise they are paths. -/
  | table (flat : Bool) (entries : List (String × List Token))
  /-- A function from ids, given by its values; an id that is not listed is absent. -/
  | function (entries : List (String × Provision))
  /-- Several sources, asked in order. Ids are those of the first one. -/
  | choice (first : Catalogue) (rest : List Catalogue)

namespace Catalogue

/-- The catalogue without templates. -/
instance : Inhabited Catalogue :=
  ⟨.table false []⟩

/-- A choice of sources; there has to be one. -/
def choose : List Catalogue → Except Fault Catalogue
  | [] => .error .noSources
  | first :: rest => .ok (.choice first rest)

/-! ## Tables -/

/-- The keys of a table, each once, in increasing order. -/
def sortedKeys {α : Type} (entries : List (String × α)) : List String :=
  (entries.map Prod.fst).eraseDups.mergeSort fun a b => a ≤ b

/-- A table with another value at a key. A new key goes to the end. -/
def setEntry {α : Type} (key : String) (value : α) : List (String × α) → List (String × α)
  | [] => [(key, value)]
  | entry :: entries =>
    if entry.1 = key then (key, value) :: entries else entry :: setEntry key value entries

/-- A table without a key. -/
def eraseEntry {α : Type} (key : String) (entries : List (String × α)) : List (String × α) :=
  entries.filter fun entry => entry.1 ≠ key

/-- The tokens of an id in a table of templates. -/
def tableTokens (entries : List (String × List Token)) (id : String) : Except Failure Stream :=
  match entries.lookup id with
  | some tokens => .ok (.ofTokens tokens)
  | none => .error (Fault.notFound (.unlisted id (sortedKeys entries))).alone

/-- The tokens of an id by a loading function. -/
def functionTokens (entries : List (String × Provision)) (id : String) : Except Failure Stream :=
  match entries.lookup id with
  | some (.stream stream) => .ok stream
  | some (.failing failure) => .error failure
  | some .absent | none => .error (Fault.notFound (.unknown id)).alone

/-! ## Sources -/

mutual

/-- The tokens of an id. A choice goes on to its next source when one does not know the id, and
stops at any other failure. -/
def tokens (id : String) : Catalogue → Except Failure Stream
  | .table _ entries => tableTokens entries id
  | .function entries => functionTokens entries id
  | .choice first rest =>
    match first.tokens id with
    | .ok stream => .ok stream
    | .error failure =>
      if failure.fault.isAbsence then tokensAmong id (rest.length + 1) rest else .error failure
termination_by structural catalogue => catalogue

/-- The tokens of an id by the first of some sources that knows it; `sources` is the number of
sources that the failure of all of them mentions. -/
def tokensAmong (id : String) (sources : Nat) : List Catalogue → Except Failure Stream
  | [] => .error (Fault.notFound (.everywhere id sources)).alone
  | catalogue :: catalogues =>
    match catalogue.tokens id with
    | .ok stream => .ok stream
    | .error failure =>
      if failure.fault.isAbsence then tokensAmong id sources catalogues else .error failure
termination_by structural catalogues => catalogues

end

mutual

/-- The ids that are listed in a catalogue. -/
def ids : Catalogue → List String
  | .table _ entries => entries.map Prod.fst
  | .function entries => entries.map Prod.fst
  | .choice first rest => first.ids ++ idsAmong rest
termination_by structural catalogue => catalogue

/-- The ids that are listed in some catalogues. -/
def idsAmong : List Catalogue → List String
  | [] => []
  | catalogue :: catalogues => catalogue.ids ++ idsAmong catalogues
termination_by structural catalogues => catalogues

end

/-- The id of the template with a name. -/
def templateId (name : String) (relativeTo : Option String) : Catalogue → String
  | .table true _ => name
  | .table false _ => TemplateId.ofName name relativeTo
  | .function _ => TemplateId.ofName name relativeTo
  | .choice first _ => first.templateId name relativeTo

theorem mem_map_fst_of_lookup {α : Type} {key : String} {value : α}
    {entries : List (String × α)} (h : entries.lookup key = some value) :
    key ∈ entries.map Prod.fst := by
  obtain ⟨before, after, rfl, _⟩ := List.lookup_eq_some_iff.mp h
  simp

mutual

/-- An id for which there are tokens is listed. -/
theorem mem_ids_of_tokens (id : String) (stream : Stream) :
    (catalogue : Catalogue) → catalogue.tokens id = .ok stream → id ∈ catalogue.ids
  | .table _ entries, h => by
    rw [tokens, tableTokens] at h
    rw [ids]
    split at h
    · exact mem_map_fst_of_lookup ‹_›
    · contradiction
  | .function entries, h => by
    rw [tokens, functionTokens] at h
    rw [ids]
    split at h
    · exact mem_map_fst_of_lookup ‹_›
    all_goals contradiction
  | .choice first rest, h => by
    rw [tokens] at h
    rw [ids, List.mem_append]
    split at h
    · cases h
      exact .inl (mem_ids_of_tokens id stream first ‹_›)
    · split at h
      · exact .inr (mem_idsAmong_of_tokensAmong id stream _ rest h)
      · contradiction

/-- An id for which there are tokens among some catalogues is listed in one of them. -/
theorem mem_idsAmong_of_tokensAmong (id : String) (stream : Stream) (sources : Nat) :
    (catalogues : List Catalogue) → tokensAmong id sources catalogues = .ok stream →
      id ∈ idsAmong catalogues
  | [], h => by
    rw [tokensAmong] at h
    contradiction
  | catalogue :: catalogues, h => by
    rw [tokensAmong] at h
    rw [idsAmong, List.mem_append]
    split at h
    · cases h
      exact .inl (mem_ids_of_tokens id stream catalogue ‹_›)
    · split at h
      · exact .inr (mem_idsAmong_of_tokensAmong id stream sources catalogues h)
      · contradiction

end

/-- The source that a catalogue describes. -/
def source (catalogue : Catalogue) : FiniteSource where
  templateId name relativeTo := catalogue.templateId name relativeTo
  tokens id := catalogue.tokens id
  ids := catalogue.ids
  mem_ids id stream h := mem_ids_of_tokens id stream catalogue h

/-- The ids of a table of templates in increasing order. Other catalogues do not list theirs. -/
def listing? : Catalogue → Option (List String)
  | .table _ entries => some (sortedKeys entries)
  | .function _ | .choice _ _ => none

/-! ## Changing a catalogue -/

/-- A change of the entries of a table or of a loading function. -/
inductive Edit where
  /-- Puts a value at an id. -/
  | put (id : String) (provision : Provision)
  /-- Removes an id. -/
  | remove (id : String)
deriving DecidableEq, Repr

/-- The change of a table of templates. Only a stream that ends can be put into one. -/
def Edit.onTable (entries : List (String × List Token)) : Edit → List (String × List Token)
  | .put id (.stream (.opened tokens none)) => setEntry id tokens entries
  | .put _ _ => entries
  | .remove id => eraseEntry id entries

/-- The change of a loading function. -/
def Edit.onFunction (entries : List (String × Provision)) : Edit → List (String × Provision)
  | .put id provision => setEntry id provision entries
  | .remove id => eraseEntry id entries

mutual

/-- The number of tables and loading functions in a catalogue. -/
def tableCount : Catalogue → Nat
  | .table _ _ | .function _ => 1
  | .choice first rest => first.tableCount + tableCountAmong rest
termination_by structural catalogue => catalogue

/-- The number of tables and loading functions in some catalogues. -/
def tableCountAmong : List Catalogue → Nat
  | [] => 0
  | catalogue :: catalogues => catalogue.tableCount + tableCountAmong catalogues
termination_by structural catalogues => catalogues

end

mutual

/-- Changes the table or loading function number `index`, counted from left to right. -/
def edit (change : Edit) (index : Nat) : Catalogue → Catalogue
  | .table flat entries => .table flat (if index = 0 then change.onTable entries else entries)
  | .function entries => .function (if index = 0 then change.onFunction entries else entries)
  | .choice first rest =>
    if index < first.tableCount then .choice (first.edit change index) rest
    else .choice first (editAmong change (index - first.tableCount) rest)
termination_by structural catalogue => catalogue

/-- Changes the table or loading function number `index` among some catalogues. -/
def editAmong (change : Edit) (index : Nat) : List Catalogue → List Catalogue
  | [] => []
  | catalogue :: catalogues =>
    if index < catalogue.tableCount then catalogue.edit change index :: catalogues
    else catalogue :: editAmong change (index - catalogue.tableCount) catalogues
termination_by structural catalogues => catalogues

end

end Catalogue

end Logicless
