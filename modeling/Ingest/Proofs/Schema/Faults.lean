import Ingest.Schema.Compile

/-!
Contract: every fault of a schema compile lies where its path says.

Owns: field paths (`Step`, `pathText`), written as the compiler writes them, and the node a path
reaches in a document (`Value.at?`): each step looks a field up in a map, a null value counting
as present, and then, when the step has an index, takes that item of the list there. A fault
lies in a document (`Lies`) when its fragment is the node its path reaches, or when it names a
required field that the map at the path before it lacks (or a list of bins that is empty
there) and shows that map. Each compiling function keeps its faults lying (`FaultsLie`), and
so does the whole compile (`compile_error_lies`).

Does not own: the fault for a bin value without a `type`, whose fragment is the whole bin and
not the value map the field was looked up in; what is stated here leaves it out.
-/

namespace Ingest

open Ingest.Schema

/-! ### Field paths -/

namespace Schema

/-- One step of a field path: a field of a map, then, when an index is given, that item of the
list there. -/
structure Step where
  field : String
  index : Option Nat

/-- A path with one step more, written as the compiler writes it: the field joined with a dot,
then the index in brackets. -/
def Step.extend (path : String) (s : Step) : String :=
  match s.index with
  | none => joinPath path s.field
  | some i => joinPath path s.field ++ "[" ++ toString i ++ "]"

/-- The text of a field path; the empty path is the whole document. -/
def pathText (steps : List Step) : String :=
  steps.foldl Step.extend ""

/-- The fields of a schema document. -/
def fieldNames : List String :=
  ["version", "dsv_config", "n_columns", "delimiter", "header_exist", "mappings",
    "secondary_mapping", "key", "set", "binList", "name", "value", "column_position",
    "column_name", "type", "dst_type", "encoding", "remove_prefix"]

/-- Every step of a path names a field of a schema document. -/
def Named (steps : List Step) : Prop :=
  ∀ s ∈ steps, s.field ∈ fieldNames

theorem pathText_field (steps : List Step) (field : String) :
    pathText (steps ++ [⟨field, none⟩]) = joinPath (pathText steps) field := by
  simp [pathText, Step.extend]

theorem pathText_item (steps : List Step) (field : String) (i : Nat) :
    pathText (steps ++ [⟨field, some i⟩]) =
      joinPath (pathText steps) field ++ "[" ++ toString i ++ "]" := by
  simp [pathText, Step.extend]

theorem Named.concat {steps : List Step} {s : Step} (named : Named steps)
    (field : s.field ∈ fieldNames) : Named (steps ++ [s]) := by
  intro t member
  rcases List.mem_append.mp member with early | last
  · exact named t early
  · rw [List.mem_singleton.mp last]
    exact field

end Schema

namespace Value

/-- The node one step reaches from a value: the field of a map, null included, and then, when
the step has an index, that item of the list there. -/
def step? (v : Value) (s : Schema.Step) : Option Value :=
  match v with
  | .map entries => (Entries.get? entries (.str s.field)).bind fun w =>
      match s.index, w with
      | none, w => some w
      | some i, .list items => items[i]?
      | some _, _ => none
  | _ => none

/-- The node a field path reaches in a document. It is defined only when every proper prefix
of the path reaches a map, and the field before each index a list that long. -/
def at? (root : Value) (steps : List Schema.Step) : Option Value :=
  steps.foldl (fun node s => node.bind (·.step? s)) (some root)

theorem at?_concat (root : Value) (steps : List Schema.Step) (s : Schema.Step) :
    root.at? (steps ++ [s]) = (root.at? steps).bind (·.step? s) := by
  simp [at?]

end Value

namespace Schema

/-! ### Where a fault lies -/

/-- The fault shows the node its path reaches, and that node is not null. -/
def Shows (root : Value) (e : SchemaError) : Prop :=
  ∃ steps, Named steps ∧ e.path = pathText steps ∧ root.at? steps = some e.fragment ∧
    e.fragment ≠ Value.null

/-- The fault shows a null item of a list, the node its path reaches. -/
def ShowsNullItem (root : Value) (e : SchemaError) : Prop :=
  ∃ steps field i, Named (steps ++ [⟨field, some i⟩]) ∧
    e.path = pathText (steps ++ [⟨field, some i⟩]) ∧
    root.at? (steps ++ [⟨field, some i⟩]) = some Value.null ∧ e.fragment = Value.null

/-- The fault is a missing field, or a list of bins that is empty, and shows the map that its
last step looked into. -/
def Misses (root : Value) (e : SchemaError) : Prop :=
  (e.fault.faultClass = .missingField ∨ e.fault.faultClass = .badList) ∧
    ∃ steps field entries, Named (steps ++ [⟨field, none⟩]) ∧
      e.path = pathText (steps ++ [⟨field, none⟩]) ∧ root.at? steps = some (.map entries) ∧
      e.fragment = .map entries ∧
      (field? entries field = none ∨
        field = "binList" ∧ Entries.get? entries (.str field) = some (.list []))

/-- A fault lies in a document: it shows the node at its path, or it names what the map at the
path before it lacks. -/
def Lies (root : Value) (e : SchemaError) : Prop :=
  Shows root e ∨ ShowsNullItem root e ∨ Misses root e

/-- `node` is the node at `steps` in `root`: the steps name fields of a schema document, and the
node is null only as an item of a list. -/
structure Reached (root : Value) (steps : List Step) (node : Value) : Prop where
  named : Named steps
  reaches : root.at? steps = some node
  present : node ≠ Value.null ∨ ∃ init field i, steps = init ++ [⟨field, some i⟩]

theorem field?_eq_some {entries : List (Scalar × Value)} {name : String} {v : Value}
    (found : field? entries name = some v) :
    Entries.get? entries (.str name) = some v ∧ v ≠ Value.null := by
  unfold field? at found
  split at found
  · cases found
  · rename_i notNull
    refine ⟨found, ?_⟩
    rintro rfl
    exact notNull found

section Reached

variable {root : Value} {steps : List Step} {entries : List (Scalar × Value)} {name : String}

theorem Reached.whole {v : Value} (present : v ≠ Value.null) : Reached v [] v :=
  ⟨List.forall_mem_nil _, rfl, .inl present⟩

theorem Reached.field (reached : Reached root steps (.map entries)) (named : name ∈ fieldNames)
    {v : Value} (found : field? entries name = some v) :
    Reached root (steps ++ [⟨name, none⟩]) v := by
  obtain ⟨get, present⟩ := field?_eq_some found
  refine ⟨reached.named.concat named, ?_, .inl present⟩
  rw [Value.at?_concat, reached.reaches]
  simp [Value.step?, get]

theorem Reached.item (reached : Reached root steps (.map entries)) (named : name ∈ fieldNames)
    {items : List Value} (found : field? entries name = some (.list items)) {i : Nat} {v : Value}
    (item : items[i]? = some v) : Reached root (steps ++ [⟨name, some i⟩]) v := by
  obtain ⟨get, -⟩ := field?_eq_some found
  refine ⟨reached.named.concat named, ?_, .inr ⟨steps, name, i, rfl⟩⟩
  rw [Value.at?_concat, reached.reaches]
  simp [Value.step?, get, item]

/-- A fault at the path of a node that shows the node lies. -/
theorem Reached.lies {node : Value} (reached : Reached root steps node) (fault : Fault) :
    Lies root ⟨fault, pathText steps, node⟩ := by
  by_cases null : node = Value.null
  · rcases reached.present with present | ⟨init, field, i, split⟩
    · exact absurd null present
    · subst split null
      exact .inr (.inl ⟨init, field, i, reached.named, rfl, reached.reaches, rfl⟩)
  · exact .inl ⟨steps, reached.named, rfl, reached.reaches, null⟩

/-- A missing field, or an empty list of bins, shown with the map it was looked up in lies. -/
theorem Reached.misses (reached : Reached root steps (.map entries)) (named : name ∈ fieldNames)
    {fault : Fault} (missing : fault.faultClass = .missingField ∨ fault.faultClass = .badList)
    (absent : field? entries name = none ∨
      name = "binList" ∧ Entries.get? entries (.str name) = some (.list [])) :
    Lies root ⟨fault, joinPath (pathText steps) name, .map entries⟩ :=
  .inr (.inr ⟨missing, steps, name, entries, reached.named.concat named,
    (pathText_field steps name).symm, reached.reaches, rfl, absent⟩)

end Reached

/-! ### Faults of compiling steps -/

/-- Every fault of a compiling step is a fault of compiling, never the check that a column
reference made from parts gives exactly one of them, and it lies in the document, the missing
type of a bin value apart. -/
def FaultsLie {α : Type} (root : Value) (x : Except SchemaError α) : Prop :=
  ∀ e, x = .error e →
    e.fault ≠ .selectorNotUnique ∧ (e.fault = .missingKey "type" "bin value" ∨ Lies root e)

namespace FaultsLie

variable {root : Value} {α β : Type}

theorem ok (a : α) : FaultsLie root (Except.ok a : Except SchemaError α) := by
  intro e failed
  cases failed

theorem pure (a : α) : FaultsLie root (Pure.pure a : Except SchemaError α) :=
  ok a

theorem bind {x : Except SchemaError α} {f : α → Except SchemaError β} (first : FaultsLie root x)
    (next : ∀ a, x = .ok a → FaultsLie root (f a)) : FaultsLie root (x >>= f) := by
  intro e failed
  cases passed : x with
  | error e' =>
      rw [passed] at failed
      cases failed
      exact first e passed
  | ok a =>
      rw [passed] at failed
      exact next a passed e failed

theorem map {x : Except SchemaError α} (f : α → β) (lies : FaultsLie root x) :
    FaultsLie root (f <$> x) := by
  intro e failed
  cases passed : x with
  | error e' =>
      rw [passed] at failed
      cases failed
      exact lies e passed
  | ok a =>
      rw [passed] at failed
      cases failed

theorem mapM {γ : Type} {f : γ → Except SchemaError α} :
    ∀ {items : List γ}, (∀ x ∈ items, FaultsLie root (f x)) → FaultsLie root (items.mapM f)
  | [], _ => pure []
  | x :: xs, each => by
      rw [List.mapM_cons]
      refine bind (each x List.mem_cons_self) fun b _ => bind ?_ fun bs _ => pure _
      exact mapM fun y member => each y (List.mem_cons_of_mem x member)

theorem refuse {fault : Fault} {path : String} {fragment : Value}
    (fresh : fault ≠ .selectorNotUnique) (lies : Lies root ⟨fault, path, fragment⟩) :
    FaultsLie root (Schema.refuse fault path fragment : Except SchemaError α) := by
  intro e failed
  cases failed
  exact ⟨fresh, .inr lies⟩

end FaultsLie

section Steps

variable {root : Value} {steps : List Step} {path : String}

theorem Reached.refuse {node : Value} (reached : Reached root steps node) {α : Type}
    {fault : Fault} (spelled : pathText steps = path) (fresh : fault ≠ .selectorNotUnique) :
    FaultsLie root (Schema.refuse fault path node : Except SchemaError α) := by
  subst spelled
  exact FaultsLie.refuse fresh (reached.lies fault)

theorem refuse_ne_ok {α : Type} {fault : Fault} {fragment : Value} {a : α} :
    (Schema.refuse fault path fragment : Except SchemaError α) ≠ .ok a := by
  intro passed
  cases passed

theorem requireMap_eq_ok {v : Value} {entries : List (Scalar × Value)}
    (passed : requireMap v path = .ok entries) : v = .map entries := by
  unfold requireMap at passed
  split at passed
  · cases passed
    rfl
  · cases passed

theorem requireMap_faultsLie {v : Value} (reached : Reached root steps v)
    (spelled : pathText steps = path) : FaultsLie root (requireMap v path) := by
  unfold requireMap
  split
  · exact FaultsLie.ok _
  · exact reached.refuse spelled nofun

theorem settingText_faultsLie {v : Value} (reached : Reached root steps v)
    (spelled : pathText steps = path) : FaultsLie root (settingText v path) := by
  unfold settingText
  split
  · exact FaultsLie.ok _
  · exact FaultsLie.ok _
  · exact FaultsLie.ok _
  · exact FaultsLie.ok _
  · exact reached.refuse spelled nofun

theorem flag_faultsLie {v : Value} (reached : Reached root steps v)
    (spelled : pathText steps = path) : FaultsLie root (flag v path) := by
  unfold flag
  split
  · exact FaultsLie.ok _
  · dsimp only
    split
    · exact FaultsLie.ok _
    · split
      · exact FaultsLie.ok _
      · exact reached.refuse spelled nofun
  · exact reached.refuse spelled nofun

theorem position_faultsLie {v : Value} (reached : Reached root steps v)
    (spelled : pathText steps = path) : FaultsLie root (position v path) := by
  -- the check against 1 is shared by every way of spelling the position
  have last : ∀ n : Int, FaultsLie root (if n < 1 then Schema.refuse (.positionBelowOne n) path v
      else Pure.pure (n - 1) : Except SchemaError Int) := by
    intro n
    split
    · exact reached.refuse spelled nofun
    · exact FaultsLie.pure _
  unfold position
  dsimp only
  split
  · exact FaultsLie.bind (FaultsLie.pure _) fun n _ => last n
  · split
    · exact FaultsLie.bind (FaultsLie.pure _) fun n _ => last n
    · exact FaultsLie.bind (reached.refuse spelled nofun) fun n _ => last n
  · exact FaultsLie.bind (reached.refuse spelled nofun) fun n _ => last n

variable {entries : List (Scalar × Value)}

theorem optionalText_faultsLie (reached : Reached root steps (.map entries)) {field : String}
    (named : field ∈ fieldNames) (spelled : pathText steps = path) :
    FaultsLie root (optionalText entries field path) := by
  unfold optionalText
  split
  · exact FaultsLie.ok _
  · rename_i v found
    subst spelled
    exact FaultsLie.map _
      (settingText_faultsLie (reached.field named found) (pathText_field steps field))

theorem columnRef_faultsLie (reached : Reached root steps (.map entries))
    (spelled : pathText steps = path) (srcType dstType encoding removePrefix : Option Text.Str) :
    FaultsLie root (columnRef (.map entries) entries path srcType dstType encoding removePrefix) := by
  subst spelled
  unfold columnRef
  split
  · exact reached.refuse rfl nofun
  · exact reached.refuse rfl nofun
  -- with one selector the reference is always made
  · rename_i p found _
    refine FaultsLie.bind ?_ fun i _ => ColumnRef.ofParts_position i .. ▸ FaultsLie.ok _
    exact position_faultsLie (reached.field (by decide) found) (pathText_field steps _)
  · rename_i _ n found
    refine FaultsLie.bind ?_ fun t _ => ColumnRef.ofParts_name t .. ▸ FaultsLie.ok _
    exact settingText_faultsLie (reached.field (by decide) found) (pathText_field steps _)

theorem metaColumn_faultsLie {v : Value} (reached : Reached root steps v)
    (spelled : pathText steps = path) (default : Option Text.Str) :
    FaultsLie root (metaColumn v path default) := by
  unfold metaColumn
  refine FaultsLie.bind (requireMap_faultsLie reached spelled) fun entries isMap => ?_
  have reachedMap := requireMap_eq_ok isMap ▸ reached
  rw [requireMap_eq_ok isMap]
  refine FaultsLie.bind (optionalText_faultsLie reachedMap (by decide) spelled) fun _ _ => ?_
  refine FaultsLie.bind (optionalText_faultsLie reachedMap (by decide) spelled) fun _ _ => ?_
  exact FaultsLie.bind (columnRef_faultsLie reachedMap spelled _ _ _ _) fun _ _ => FaultsLie.pure _

theorem mem_indexed {items : List Value} {path : String} {x : Value × String}
    (member : x ∈ indexed items path) :
    ∃ i : Nat, items[i]? = some x.1 ∧ x.2 = path ++ "[" ++ toString i ++ "]" := by
  unfold indexed at member
  obtain ⟨⟨i, v⟩, zipped, rfl⟩ := List.mem_map.mp member
  obtain ⟨k, bound, entry⟩ := List.mem_iff_getElem.mp zipped
  rw [List.getElem_zip, List.getElem_range, Prod.mk.injEq] at entry
  obtain ⟨rfl, rfl⟩ := entry
  exact ⟨k, List.getElem?_eq_getElem _, rfl⟩

theorem Reached.refuseMissing (reached : Reached root steps (.map entries)) {name : String}
    (named : name ∈ fieldNames) {α : Type} {fault : Fault}
    (missing : fault.faultClass = .missingField ∨ fault.faultClass = .badList)
    (absent : field? entries name = none ∨
      name = "binList" ∧ Entries.get? entries (.str name) = some (.list []))
    (spelled : joinPath (pathText steps) name = path) :
    FaultsLie root (Schema.refuse fault path (.map entries) : Except SchemaError α) := by
  subst spelled
  refine FaultsLie.refuse ?_ (reached.misses named missing absent)
  rintro rfl
  rcases missing with wrongClass | wrongClass <;> cases wrongClass

theorem binName_faultsLie (reached : Reached root steps (.map entries))
    (spelled : pathText steps = path) : FaultsLie root (binName (.map entries) entries path) := by
  subst spelled
  unfold binName
  dsimp only
  split
  · rename_i absent
    exact reached.refuseMissing (by decide) (.inl rfl) (.inl absent) rfl
  · exact FaultsLie.pure _
  · rename_i nameEntries found
    refine FaultsLie.bind ?_ fun _ _ => FaultsLie.pure _
    exact columnRef_faultsLie (reached.field (by decide) found) (pathText_field steps _) _ _ _ _
  · exact (reached.field (by decide) ‹field? entries _ = some _›).refuse (pathText_field steps _) nofun

theorem binValue_faultsLie (reached : Reached root steps (.map entries))
    (spelled : pathText steps = path) : FaultsLie root (binValue (.map entries) entries path) := by
  subst spelled
  unfold binValue
  dsimp only
  split
  · rename_i absent
    exact reached.refuseMissing (by decide) (.inl rfl) (.inl absent) rfl
  · exact FaultsLie.pure _
  · rename_i valueEntries found
    have value := reached.field (by decide) found
    have valuePath := pathText_field steps "value"
    refine FaultsLie.bind (optionalText_faultsLie value (by decide) valuePath) fun srcType _ => ?_
    split
    · -- the one fault this module leaves out: it shows the bin, not the value map
      intro e failed
      cases failed
      exact ⟨nofun, .inl rfl⟩
    · refine FaultsLie.bind (optionalText_faultsLie value (by decide) valuePath) fun _ _ => ?_
      refine FaultsLie.bind (optionalText_faultsLie value (by decide) valuePath) fun _ _ => ?_
      refine FaultsLie.bind (optionalText_faultsLie value (by decide) valuePath) fun _ _ => ?_
      exact FaultsLie.bind (columnRef_faultsLie value valuePath _ _ _ _) fun _ _ => FaultsLie.pure _
  · exact (reached.field (by decide) ‹field? entries _ = some _›).refuse (pathText_field steps _) nofun

theorem bin_faultsLie {v : Value} (reached : Reached root steps v)
    (spelled : pathText steps = path) : FaultsLie root (bin v path) := by
  unfold bin
  refine FaultsLie.bind (requireMap_faultsLie reached spelled) fun entries isMap => ?_
  obtain rfl := requireMap_eq_ok isMap
  refine FaultsLie.bind (binName_faultsLie reached spelled) fun _ _ => ?_
  exact FaultsLie.bind (binValue_faultsLie reached spelled) fun _ _ => FaultsLie.pure _

theorem mapping_faultsLie {v : Value} (reached : Reached root steps v)
    (spelled : pathText steps = path) : FaultsLie root (mapping v path) := by
  subst spelled
  unfold mapping
  lift_lets
  extract_lets binsPath
  refine FaultsLie.bind (requireMap_faultsLie reached rfl) fun entries isMap => ?_
  obtain rfl := requireMap_eq_ok isMap
  -- each field read hands its value to the rest of the mapping, named here and proved once
  lift_lets
  extract_lets afterFlag
  have flagged : ∀ secondary, FaultsLie root (afterFlag secondary) := by
    intro secondary
    dsimp -zeta only [afterFlag]
    lift_lets
    extract_lets afterKey
    have keyed : ∀ key, FaultsLie root (afterKey key) := by
      intro key
      dsimp -zeta only [afterKey]
      lift_lets
      extract_lets afterSet
      have set : ∀ set, FaultsLie root (afterSet set) := by
        intro set
        dsimp -zeta only [afterSet]
        lift_lets
        extract_lets done
        split
        · rename_i absent
          exact FaultsLie.bind (reached.refuseMissing (by decide) (.inl rfl) (.inl absent) rfl)
            fun _ _ => FaultsLie.pure _
        · rename_i found
          exact FaultsLie.bind (reached.refuseMissing (by decide) (.inr rfl)
            (.inr ⟨rfl, (field?_eq_some found).1⟩) rfl) fun _ _ => FaultsLie.pure _
        · refine FaultsLie.bind (FaultsLie.mapM ?_) fun _ _ => FaultsLie.pure _
          rintro ⟨b, p⟩ member
          obtain ⟨i, item, rfl⟩ := mem_indexed member
          exact bin_faultsLie (reached.item (by decide) ‹field? entries _ = some (.list _)› item)
            (pathText_item steps _ i)
        · exact FaultsLie.bind ((reached.field (by decide) ‹field? entries _ = some _›).refuse
            (pathText_field steps _) nofun) fun _ _ => FaultsLie.pure _
      split
      · rename_i absent
        exact FaultsLie.bind (reached.refuseMissing (by decide) (.inl rfl) (.inl absent) rfl) fun b _ =>
          set b
      · exact FaultsLie.bind (FaultsLie.pure _) fun b _ => set b
      · exact FaultsLie.bind (metaColumn_faultsLie (reached.field (by decide) ‹field? entries _ = some _›)
          (pathText_field steps _) _) fun b _ => set b
    split
    · rename_i absent
      exact FaultsLie.bind (reached.refuseMissing (by decide) (.inl rfl) (.inl absent) rfl) fun k _ =>
        keyed k
    · exact FaultsLie.bind (metaColumn_faultsLie (reached.field (by decide) ‹field? entries _ = some _›)
        (pathText_field steps _) _) fun k _ => keyed k
  split
  · exact FaultsLie.bind (FaultsLie.pure _) fun b _ => flagged b
  · exact FaultsLie.bind (flag_faultsLie (reached.field (by decide) ‹field? entries _ = some _›)
      (pathText_field steps _)) fun b _ => flagged b

end Steps

/-! ### The whole document -/

section Document

variable {entries : List (Scalar × Value)}

theorem settings_faultsLie (present : Value.map entries ≠ Value.null) :
    FaultsLie (.map entries) (settings (.map entries) entries) := by
  have reached := Reached.whole present
  unfold settings
  lift_lets
  extract_lets afterVersion
  -- the version and the column count are read first and turned into text last, so the rest of
  -- the settings is proved for any nodes found at their paths
  have versioned : ∀ version, Reached (.map entries) [⟨"version", none⟩] version →
      FaultsLie (.map entries) (afterVersion version) := by
    intro version versionReached
    dsimp -zeta only [afterVersion]
    lift_lets
    extract_lets afterDsv
    have configured : ∀ dsv, Reached (.map entries) [⟨"dsv_config", none⟩] dsv →
        FaultsLie (.map entries) (afterDsv dsv) := by
      intro dsv dsvReached
      dsimp -zeta only [afterDsv]
      refine FaultsLie.bind (requireMap_faultsLie dsvReached rfl) fun dsvEntries isMap => ?_
      obtain rfl := requireMap_eq_ok isMap
      lift_lets
      extract_lets afterColumns
      have counted : ∀ columns,
          Reached (.map entries) [⟨"dsv_config", none⟩, ⟨"n_columns", none⟩] columns →
          FaultsLie (.map entries) (afterColumns columns) := by
        intro columns columnsReached
        dsimp -zeta only [afterColumns]
        refine FaultsLie.bind (settingText_faultsLie versionReached rfl) fun _ _ => ?_
        refine FaultsLie.bind (settingText_faultsLie columnsReached rfl) fun _ _ => ?_
        refine FaultsLie.bind (optionalText_faultsLie dsvReached (by decide) rfl) fun _ _ => ?_
        exact FaultsLie.bind (optionalText_faultsLie dsvReached (by decide) rfl) fun _ _ =>
          FaultsLie.pure _
      split
      · rename_i absent
        exact FaultsLie.bind (dsvReached.refuseMissing (by decide) (.inl rfl) (.inl absent) rfl)
          fun _ passed => absurd passed refuse_ne_ok
      · rename_i columns found
        refine FaultsLie.bind (FaultsLie.pure _) fun _ passed => ?_
        cases passed
        exact counted columns (dsvReached.field (by decide) found)
    split
    · rename_i absent
      exact FaultsLie.bind (reached.refuseMissing (by decide) (.inl rfl) (.inl absent) rfl)
        fun _ passed => absurd passed refuse_ne_ok
    · rename_i dsv found
      refine FaultsLie.bind (FaultsLie.pure _) fun _ passed => ?_
      cases passed
      exact configured dsv (reached.field (by decide) found)
  split
  · rename_i absent
    exact FaultsLie.bind (reached.refuseMissing (by decide) (.inl rfl) (.inl absent) rfl)
      fun _ passed => absurd passed refuse_ne_ok
  · rename_i version found
    refine FaultsLie.bind (FaultsLie.pure _) fun _ passed => ?_
    cases passed
    exact versioned version (reached.field (by decide) found)

theorem mappings_faultsLie (present : Value.map entries ≠ Value.null) :
    FaultsLie (.map entries) (mappings entries) := by
  have reached := Reached.whole present
  unfold mappings
  split
  · exact FaultsLie.ok _
  · rename_i items found
    apply FaultsLie.mapM
    rintro ⟨m, p⟩ member
    obtain ⟨i, item, rfl⟩ := mem_indexed member
    exact mapping_faultsLie (reached.item (by decide) found item) (pathText_item [] _ i)
  · exact (reached.field (by decide) ‹field? entries _ = some _›).refuse rfl nofun

end Document

/-- The faults of a whole compile: the empty-document fault for an empty or null document, and
otherwise faults of compiling that lie in the document, the missing type of a bin value apart. -/
theorem compile_faults {doc : Option Value} {e : SchemaError} (failed : compile doc = .error e) :
    (doc = none ∨ doc = some Value.null) ∧
        e.fault = .emptyDocument ∧ e.path = "" ∧ e.fragment = Value.null ∨
      ∃ root, doc = some root ∧ e.fault ≠ .selectorNotUnique ∧
        (e.fault = .missingKey "type" "bin value" ∨ Lies root e) := by
  unfold compile at failed
  split at failed
  · cases failed
    exact .inl ⟨.inl rfl, rfl, rfl, rfl⟩
  · cases failed
    exact .inl ⟨.inr rfl, rfl, rfl, rfl⟩
  · rename_i _ root notNull
    have present : root ≠ Value.null := notNull
    refine .inr ⟨root, rfl, ?_⟩
    have reached := Reached.whole present
    refine FaultsLie.bind (requireMap_faultsLie reached rfl) (fun entries isMap => ?_) e failed
    obtain rfl := requireMap_eq_ok isMap
    refine FaultsLie.bind (settings_faultsLie present) fun _ _ => ?_
    exact FaultsLie.bind (mappings_faultsLie present) fun _ _ => FaultsLie.pure _

/-- **Every schema fault lies where its path says.** Compiling fails on an empty or null document
with the empty-document fault at the empty path. On any other document, every fault but the one
for a bin value without a type lies in it: its path names schema fields step by step, every
proper prefix reaching a map (or, before an index, a list that long), and the fault shows the
node the path reaches (not null, unless it is an item of a list), or it is a missing field or an
empty list of bins and shows the map the last step looked into. The message is the path and the
reason, or the reason alone when the path is empty. -/
theorem compile_error_lies {doc : Option Value} {e : SchemaError} (failed : compile doc = .error e) :
    ((doc = none ∨ doc = some Value.null) ∧
        e.fault = .emptyDocument ∧ e.path = "" ∧ e.fragment = Value.null ∨
      ∃ root, doc = some root ∧ (e.fault = .missingKey "type" "bin value" ∨ Lies root e)) ∧
    e.message = if e.path.isEmpty then e.fault.reason
      else Text.Str.ofString (e.path ++ ": ") ++ e.fault.reason :=
  ⟨(compile_faults failed).imp id fun ⟨root, found, _, lies⟩ => ⟨root, found, lies⟩, rfl⟩

/-- A document whose `dsv_config` has a delimiter but no column count. -/
def noColumnsDocument : Value :=
  .map [(.str "version", .scalar (.str "1")),
    (.str "dsv_config", .map [(.str "delimiter", .scalar (.str ";"))])]

theorem compile_noColumns_lies :
    ∃ e, compile (some noColumnsDocument) = .error e ∧
      (((some noColumnsDocument = none ∨ some noColumnsDocument = some Value.null) ∧
          e.fault = .emptyDocument ∧ e.path = "" ∧ e.fragment = Value.null ∨
        ∃ root, some noColumnsDocument = some root ∧
          (e.fault = .missingKey "type" "bin value" ∨ Lies root e)) ∧
      e.message = if e.path.isEmpty then e.fault.reason
        else Text.Str.ofString (e.path ++ ": ") ++ e.fault.reason) :=
  ⟨_, rfl, compile_error_lies rfl⟩

/-- A document whose list of mappings holds a null. -/
def nullMappingDocument : Value :=
  .map [(.str "version", .scalar (.int 1)),
    (.str "dsv_config", .map [(.str "n_columns", .scalar (.int 1))]),
    (.str "mappings", .list [Value.null])]

/-- A null item of the list of mappings is refused as no map, with the null as the fragment: the
fault shows no node that is not null, and it names no missing field. -/
theorem compile_nullMapping :
    compile (some nullMappingDocument) = .error ⟨.notAMap .null, "mappings[0]", Value.null⟩ ∧
      ¬ Shows nullMappingDocument ⟨.notAMap .null, "mappings[0]", Value.null⟩ ∧
      ¬ Misses nullMappingDocument ⟨.notAMap .null, "mappings[0]", Value.null⟩ := by
  refine ⟨rfl, ?_, ?_⟩
  · rintro ⟨_, _, _, _, notNull⟩
    exact notNull rfl
  · rintro ⟨missing, -⟩
    rcases missing with wrongClass | wrongClass <;> cases wrongClass

end Schema

end Ingest
