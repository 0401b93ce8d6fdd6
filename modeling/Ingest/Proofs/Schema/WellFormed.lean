import Mathlib.Data.List.Forall2
import Ingest.Proofs.Schema.Faults

/-!
Contract: every compiled schema is well formed, and is the schema its document describes.

Owns: what each part of a compiled schema is made from (`PositionValue`, `Configures`,
`KeyFrom`, `SetFrom`, `BinFrom`, `MappingFrom`): a column reference selects by a 1-based
position, made 0-based and so at least 0, or by a name, from a map that gives exactly one of the
two; a key is such a reference, typed or not; a set is a fixed text or a typed reference, typed
`string` when its type is absent, null or empty; a mapping has as many bins as its non-empty
`binList`. One lemma per compiling function says what a success gives (`mapping_eq_ok` and the
others), and the whole compile gives the settings in their order and one mapping per item of
`mappings` (`compile_wellFormed`).

Does not own: where faults lie; that is `Schema.Faults`.
-/

namespace Ingest.Schema

open Ingest.Text

/-! ### What a schema is made from -/

/-- The number a `column_position` value gives: an integer, or a text that, once trimmed, is at
most 20 characters of a sign and digits. -/
def PositionValue (v : Value) (n : Int) : Prop :=
  v = .scalar (.int n) ∨
    ∃ s cs, v = .scalar (.str s) ∧ s.toChars? = some cs ∧ isIntegerText (trimChars cs) = true ∧
      (trimChars cs).length ≤ 20 ∧ integerOfText (trimChars cs) = n

/-- A column reference as the map `entries` configures it: by its 1-based position made
0-based, so at least 0, or by the text of its name, the map giving exactly one of the two. -/
def Configures (entries : List (Scalar × Value)) (c : ColumnRef) : Prop :=
  match c.selector with
  | .position i => 0 ≤ i ∧ field? entries "column_name" = none ∧
      ∃ p, field? entries "column_position" = some p ∧ PositionValue p (i + 1)
  | .name n => field? entries "column_position" = none ∧
      ∃ v path, field? entries "column_name" = some v ∧ settingText v path = .ok n

/-- The type of a column, `default` when the map's `type` is absent, null or the empty text. -/
def TypedOr (entries : List (Scalar × Value)) (default srcType : Option Str) : Prop :=
  (srcType = default ∨ ∃ t, srcType = some t ∧ t.points ≠ []) ∧
    (field? entries "type" = none ∨ field? entries "type" = some (.scalar (.str "")) →
      srcType = default)

/-- A key made from its node: a column reference of the node's map, typed by a type that is not
empty, or not typed. -/
def KeyFrom (node : Value) (key : Source) : Prop :=
  ∃ entries c, node = .map entries ∧ key = .column c ∧ Configures entries c ∧
    TypedOr entries none c.srcType

/-- A set made from its node: the node's text as a fixed set, or a column reference of the
node's map typed by a type that is not empty, `string` by default. -/
def SetFrom (node : Value) (set : Source) : Prop :=
  (∃ t, node = .scalar (.str t) ∧ set = .fixed t) ∨
    ∃ entries c, node = .map entries ∧ set = .column c ∧ Configures entries c ∧
      TypedOr entries (some (Str.ofString "string")) c.srcType

/-- A bin's name or value made from its node: the node's text as a fixed text, or a column
reference of the node's map. -/
def SourceFrom (node : Value) (source : Source) : Prop :=
  (∃ t, node = .scalar (.str t) ∧ source = .fixed t) ∨
    ∃ entries c, node = .map entries ∧ source = .column c ∧ Configures entries c

/-- A bin made from its node: its name and value made from the node's `name` and `value`. -/
def BinFrom (node : Value) (b : Bin) : Prop :=
  ∃ entries, node = .map entries ∧
    (∃ name, field? entries "name" = some name ∧ SourceFrom name b.name) ∧
    ∃ value, field? entries "value" = some value ∧ SourceFrom value b.value

/-- A mapping made from its node: its key and set made from the node's `key` and `set`, and one
bin for each item of the node's `binList`, which is not empty. -/
def MappingFrom (node : Value) (m : Mapping) : Prop :=
  ∃ entries, node = .map entries ∧
    (∃ key, field? entries "key" = some key ∧ KeyFrom key m.key) ∧
    (∃ set, field? entries "set" = some set ∧ SetFrom set m.set) ∧
    ∃ items, field? entries "binList" = some (.list items) ∧ items ≠ [] ∧
      m.bins.length = items.length ∧ List.Forall₂ BinFrom items m.bins

/-- The keys of the settings compiled from a `dsv_config` map: the version and the column count,
then the delimiter and the header flag when the map gives them. -/
def settingKeys (dsvEntries : List (Scalar × Value)) : List String :=
  ["version", "n_columns"] ++
    (if (field? dsvEntries "delimiter").isSome then ["delimiter"] else []) ++
    (if (field? dsvEntries "header_exist").isSome then ["header_exist"] else [])

/-! ### Successful steps -/

section Results

variable {α β γ : Type} {path : String}

theorem bind_eq_ok {x : Except SchemaError α} {f : α → Except SchemaError β} {b : β}
    (passed : (x >>= f) = .ok b) : ∃ a, x = .ok a ∧ f a = .ok b := by
  cases x with
  | error e => cases passed
  | ok a => exact ⟨a, rfl, passed⟩

theorem pure_eq_ok {a b : α} (passed : (Pure.pure a : Except SchemaError α) = .ok b) : a = b := by
  cases passed
  rfl

theorem mapM_eq_ok {f : γ → Except SchemaError β} :
    ∀ {xs : List γ} {ys : List β}, xs.mapM f = .ok ys → List.Forall₂ (fun x y => f x = .ok y) xs ys
  | [], ys, passed => by
      rw [List.mapM_nil] at passed
      cases pure_eq_ok passed
      exact .nil
  | x :: xs, ys, passed => by
      rw [List.mapM_cons] at passed
      obtain ⟨y, first, passed⟩ := bind_eq_ok passed
      obtain ⟨rest, others, passed⟩ := bind_eq_ok passed
      cases pure_eq_ok passed
      exact .cons first (mapM_eq_ok others)

theorem indexed_map_fst (items : List Value) (path : String) :
    (indexed items path).map Prod.fst = items := by
  rw [indexed, List.map_map]
  exact List.map_snd_zip (by simp)

/-- Compiling the items of a list, each with its own path, relates every item to its result. -/
theorem forall₂_of_indexed {items : List Value} {ys : List β}
    {f : Value × String → Except SchemaError β} {R : Value → β → Prop}
    (passed : (indexed items path).mapM f = .ok ys) (each : ∀ x y, f x = .ok y → R x.1 y) :
    List.Forall₂ R items ys := by
  have related := (mapM_eq_ok passed).imp fun {x y} result => each x y result
  rw [← indexed_map_fst items path]
  exact List.forall₂_map_left_iff.mpr related

end Results

section Steps

variable {path : String} {entries : List (Scalar × Value)}

theorem optionalText_eq_ok {name : String} {text : Option Str}
    (passed : optionalText entries name path = .ok text) :
    field? entries name = none ∧ text = none ∨
      ∃ v t, field? entries name = some v ∧ settingText v (joinPath path name) = .ok t ∧
        text = some t := by
  unfold optionalText at passed
  split at passed
  · rename_i absent
    cases passed
    exact .inl ⟨absent, rfl⟩
  · rename_i v found
    cases result : settingText v (joinPath path name) with
    | error e =>
        rw [result] at passed
        cases passed
    | ok t =>
        rw [result] at passed
        cases passed
        exact .inr ⟨v, t, found, result, rfl⟩

theorem position_eq_ok {v : Value} {i : Int} (passed : position v path = .ok i) :
    0 ≤ i ∧ PositionValue v (i + 1) := by
  unfold position at passed
  dsimp only at passed
  -- every way of spelling the position ends in the same check against 1
  suffices checked : ∀ n, PositionValue v n →
      (if n < 1 then Schema.refuse (.positionBelowOne n) path v else Pure.pure (n - 1) :
        Except SchemaError Int) = .ok i → 0 ≤ i ∧ PositionValue v (i + 1) by
    split at passed
    · obtain ⟨n, spelled, passed⟩ := bind_eq_ok passed
      cases pure_eq_ok spelled
      exact checked _ (.inl rfl) passed
    · rename_i s
      split at passed
      · rename_i integer
        obtain ⟨n, spelled, passed⟩ := bind_eq_ok passed
        cases pure_eq_ok spelled
        refine checked _ (.inr ?_) passed
        cases chars : s.toChars? with
        | none => simp [chars, isIntegerText] at integer
        | some cs =>
            simp only [chars, Option.map_some, Option.getD_some] at integer
            exact ⟨s, cs, rfl, chars, integer.1, integer.2, rfl⟩
      · obtain ⟨n, refused, -⟩ := bind_eq_ok passed
        exact absurd refused refuse_ne_ok
    · obtain ⟨n, refused, -⟩ := bind_eq_ok passed
      exact absurd refused refuse_ne_ok
  intro n spelled passed
  split at passed
  · exact absurd passed refuse_ne_ok
  · rename_i atLeastOne
    cases pure_eq_ok passed
    refine ⟨by omega, ?_⟩
    rw [Int.sub_add_cancel]
    exact spelled

theorem columnRef_eq_ok {node : Value} {srcType dstType encoding removePrefix : Option Str}
    {c : ColumnRef}
    (passed : columnRef node entries path srcType dstType encoding removePrefix = .ok c) :
    Configures entries c ∧ c.srcType = srcType := by
  unfold columnRef at passed
  split at passed
  · exact absurd passed refuse_ne_ok
  · exact absurd passed refuse_ne_ok
  · rename_i p positioned unnamed
    obtain ⟨i, placed, passed⟩ := bind_eq_ok passed
    rw [ColumnRef.ofParts_position] at passed
    cases passed
    obtain ⟨atLeastZero, value⟩ := position_eq_ok placed
    exact ⟨⟨atLeastZero, unnamed, p, positioned, value⟩, rfl⟩
  · rename_i n unpositioned named
    obtain ⟨t, text, passed⟩ := bind_eq_ok passed
    rw [ColumnRef.ofParts_name] at passed
    cases passed
    exact ⟨⟨unpositioned, n, _, named, text⟩, rfl⟩

theorem metaColumn_eq_ok {v : Value} {default : Option Str} {source : Source}
    (passed : metaColumn v path default = .ok source) :
    ∃ entries c, v = .map entries ∧ source = .column c ∧ Configures entries c ∧
      TypedOr entries default c.srcType := by
  unfold metaColumn at passed
  obtain ⟨entries, isMap, passed⟩ := bind_eq_ok passed
  obtain rfl := requireMap_eq_ok isMap
  obtain ⟨typeText, typed, passed⟩ := bind_eq_ok passed
  obtain ⟨removePrefix, -, passed⟩ := bind_eq_ok passed
  obtain ⟨c, made, passed⟩ := bind_eq_ok passed
  cases pure_eq_ok passed
  obtain ⟨configured, srcType⟩ := columnRef_eq_ok made
  refine ⟨entries, c, rfl, rfl, configured, ?_⟩
  rw [srcType]
  rcases optionalText_eq_ok typed with ⟨absent, rfl⟩ | ⟨t, text, found, written, rfl⟩
  · exact ⟨.inl rfl, fun _ => rfl⟩
  · -- an empty type text falls back to the default, any other is kept
    by_cases empty : text.points.isEmpty
    · simp only [empty, if_true]
      exact ⟨.inl rfl, fun _ => rfl⟩
    · simp only [empty, Bool.false_eq_true, if_false]
      refine ⟨.inr ⟨text, rfl, by simpa using empty⟩, ?_⟩
      rintro (absent | blank)
      · rw [found] at absent
        cases absent
      · rw [found] at blank
        cases blank
        cases written
        exact absurd rfl empty

theorem sourceFrom_column {v : Value} {source : Source} {fields : List (Scalar × Value)}
    {make : Except SchemaError ColumnRef}
    (made : ∀ c, make = .ok c → Configures fields c) (isMap : v = .map fields)
    (passed : (make >>= fun c => Pure.pure (Source.column c)) = .ok source) :
    SourceFrom v source := by
  obtain ⟨c, built, passed⟩ := bind_eq_ok passed
  cases pure_eq_ok passed
  exact .inr ⟨fields, c, isMap, rfl, made c built⟩

theorem binName_eq_ok {bin : Value} {name : Source}
    (passed : binName bin entries path = .ok name) :
    ∃ node, field? entries "name" = some node ∧ SourceFrom node name := by
  unfold binName at passed
  dsimp only at passed
  split at passed
  · exact absurd passed refuse_ne_ok
  · rename_i s found
    cases pure_eq_ok passed
    exact ⟨_, found, .inl ⟨s, rfl, rfl⟩⟩
  · rename_i nameEntries found
    exact ⟨_, found, sourceFrom_column (fun c made => (columnRef_eq_ok made).1) rfl passed⟩
  · exact absurd passed refuse_ne_ok

theorem binValue_eq_ok {bin : Value} {value : Source}
    (passed : binValue bin entries path = .ok value) :
    ∃ node, field? entries "value" = some node ∧ SourceFrom node value := by
  unfold binValue at passed
  dsimp only at passed
  split at passed
  · exact absurd passed refuse_ne_ok
  · rename_i s found
    cases pure_eq_ok passed
    exact ⟨_, found, .inl ⟨s, rfl, rfl⟩⟩
  · rename_i valueEntries found
    refine ⟨_, found, ?_⟩
    obtain ⟨srcType, -, passed⟩ := bind_eq_ok passed
    split at passed
    · exact absurd passed refuse_ne_ok
    · obtain ⟨dstType, -, passed⟩ := bind_eq_ok passed
      obtain ⟨encoding, -, passed⟩ := bind_eq_ok passed
      obtain ⟨removePrefix, -, passed⟩ := bind_eq_ok passed
      exact sourceFrom_column (fun c made => (columnRef_eq_ok made).1) rfl passed
  · exact absurd passed refuse_ne_ok

theorem bin_eq_ok {v : Value} {b : Bin} (passed : bin v path = .ok b) : BinFrom v b := by
  unfold bin at passed
  obtain ⟨entries, isMap, passed⟩ := bind_eq_ok passed
  obtain rfl := requireMap_eq_ok isMap
  obtain ⟨name, named, passed⟩ := bind_eq_ok passed
  obtain ⟨value, valued, passed⟩ := bind_eq_ok passed
  cases pure_eq_ok passed
  exact ⟨entries, rfl, binName_eq_ok named, binValue_eq_ok valued⟩

theorem mapping_eq_ok {v : Value} {m : Mapping} (passed : mapping v path = .ok m) :
    MappingFrom v m := by
  unfold mapping at passed
  lift_lets at passed
  extract_lets binsPath at passed
  obtain ⟨entries, isMap, passed⟩ := bind_eq_ok passed
  obtain rfl := requireMap_eq_ok isMap
  -- each field read hands its value to the rest of the mapping; the rest is done once
  lift_lets at passed
  extract_lets afterFlag at passed
  suffices flagged : ∀ secondary, afterFlag secondary = .ok m → MappingFrom (.map entries) m by
    split at passed <;> obtain ⟨secondary, -, passed⟩ := bind_eq_ok passed <;>
      exact flagged secondary passed
  intro secondary passed
  dsimp -zeta only [afterFlag] at passed
  lift_lets at passed
  extract_lets afterKey at passed
  suffices keyed : ∀ key, (∃ node, field? entries "key" = some node ∧ KeyFrom node key) →
      afterKey key = .ok m → MappingFrom (.map entries) m by
    split at passed
    · obtain ⟨_, refused, -⟩ := bind_eq_ok passed
      exact absurd refused refuse_ne_ok
    · rename_i node found
      obtain ⟨key, made, passed⟩ := bind_eq_ok passed
      exact keyed key ⟨node, found, metaColumn_eq_ok made⟩ passed
  intro key keyFrom passed
  dsimp -zeta only [afterKey] at passed
  lift_lets at passed
  extract_lets afterSet at passed
  suffices setted : ∀ set, (∃ node, field? entries "set" = some node ∧ SetFrom node set) →
      afterSet set = .ok m → MappingFrom (.map entries) m by
    split at passed
    · obtain ⟨_, refused, -⟩ := bind_eq_ok passed
      exact absurd refused refuse_ne_ok
    · rename_i s found
      obtain ⟨set, fixed, passed⟩ := bind_eq_ok passed
      cases pure_eq_ok fixed
      exact setted _ ⟨_, found, .inl ⟨s, rfl, rfl⟩⟩ passed
    · rename_i node _ found
      obtain ⟨set, made, passed⟩ := bind_eq_ok passed
      exact setted set ⟨node, found, .inr (metaColumn_eq_ok made)⟩ passed
  intro set setFrom passed
  dsimp -zeta only [afterSet] at passed
  split at passed
  · obtain ⟨_, refused, -⟩ := bind_eq_ok passed
    exact absurd refused refuse_ne_ok
  · obtain ⟨_, refused, -⟩ := bind_eq_ok passed
    exact absurd refused refuse_ne_ok
  · rename_i items nonempty found
    obtain ⟨bins, made, passed⟩ := bind_eq_ok passed
    cases pure_eq_ok passed
    have related : List.Forall₂ BinFrom items bins :=
      forall₂_of_indexed made fun _ _ made => bin_eq_ok made
    exact ⟨entries, rfl, keyFrom, setFrom, items, found, nonempty, related.length_eq.symm, related⟩
  · obtain ⟨_, refused, -⟩ := bind_eq_ok passed
    exact absurd refused refuse_ne_ok

theorem optionalText_isSome {name : String} {text : Option Str}
    (passed : optionalText entries name path = .ok text) :
    text.isSome = (field? entries name).isSome := by
  rcases optionalText_eq_ok passed with ⟨absent, rfl⟩ | ⟨v, t, found, -, rfl⟩
  · simp [absent]
  · simp [found]

theorem optional_keys (name : String) (text : Option Str) :
    ((text.map fun t => [(name, t)]).getD []).map Prod.fst =
      if text.isSome then [name] else [] := by
  cases text <;> rfl

theorem settings_eq_ok {root : Value} {s : List (String × Str)}
    (passed : settings root entries = .ok s) :
    ∃ dsvEntries, field? entries "dsv_config" = some (.map dsvEntries) ∧
      s.map Prod.fst = settingKeys dsvEntries := by
  unfold settings at passed
  lift_lets at passed
  extract_lets afterVersion at passed
  -- the keys depend on neither the version nor the column count, so the reads of the two are
  -- passed over for any value they give
  suffices versioned : ∀ version, afterVersion version = .ok s →
      ∃ dsvEntries, field? entries "dsv_config" = some (.map dsvEntries) ∧
        s.map Prod.fst = settingKeys dsvEntries by
    split at passed <;> obtain ⟨version, -, passed⟩ := bind_eq_ok passed <;>
      exact versioned version passed
  intro version passed
  dsimp -zeta only [afterVersion] at passed
  lift_lets at passed
  extract_lets afterDsv at passed
  suffices configured : ∀ dsv, field? entries "dsv_config" = some dsv → afterDsv dsv = .ok s →
      ∃ dsvEntries, field? entries "dsv_config" = some (.map dsvEntries) ∧
        s.map Prod.fst = settingKeys dsvEntries by
    split at passed
    · obtain ⟨_, refused, -⟩ := bind_eq_ok passed
      exact absurd refused refuse_ne_ok
    · rename_i dsv found
      obtain ⟨_, given, passed⟩ := bind_eq_ok passed
      cases pure_eq_ok given
      exact configured dsv found passed
  intro dsv found passed
  dsimp -zeta only [afterDsv] at passed
  obtain ⟨dsvEntries, isMap, passed⟩ := bind_eq_ok passed
  obtain rfl := requireMap_eq_ok isMap
  refine ⟨dsvEntries, found, ?_⟩
  lift_lets at passed
  extract_lets afterColumns at passed
  suffices counted : ∀ columns, afterColumns columns = .ok s →
      s.map Prod.fst = settingKeys dsvEntries by
    split at passed <;> obtain ⟨columns, -, passed⟩ := bind_eq_ok passed <;>
      exact counted columns passed
  intro columns passed
  dsimp -zeta only [afterColumns] at passed
  obtain ⟨versionText, -, passed⟩ := bind_eq_ok passed
  obtain ⟨columnsText, -, passed⟩ := bind_eq_ok passed
  obtain ⟨delimiter, delimited, passed⟩ := bind_eq_ok passed
  obtain ⟨header, headed, passed⟩ := bind_eq_ok passed
  cases pure_eq_ok passed
  simp only [List.map_append, optional_keys, optionalText_isSome delimited,
    optionalText_isSome headed]
  rfl

theorem mappings_eq_ok {ms : List Mapping} (passed : mappings entries = .ok ms) :
    ∃ items, (field? entries "mappings" = none ∧ items = [] ∨
        field? entries "mappings" = some (.list items)) ∧
      List.Forall₂ MappingFrom items ms := by
  unfold mappings at passed
  split at passed
  · rename_i absent
    cases passed
    exact ⟨[], .inl ⟨absent, rfl⟩, .nil⟩
  · rename_i items found
    exact ⟨items, .inr found, forall₂_of_indexed passed fun ⟨_, _⟩ _ made => mapping_eq_ok made⟩
  · exact absurd passed refuse_ne_ok

end Steps

/-- Compiling never fails on a column reference naming both a position and a name, and a
compiled schema has the settings `version`, `n_columns` and the optional `delimiter` and
`header_exist` of its document, in that order, and one well-formed mapping for each item of the
document's `mappings`, none when that is absent or null. -/
theorem compile_wellFormed (doc : Option Value) :
    (∀ e, compile doc = .error e → e.fault ≠ .selectorNotUnique) ∧
      ∀ S, compile doc = .ok S → ∃ entries dsvEntries, doc = some (.map entries) ∧
        field? entries "dsv_config" = some (.map dsvEntries) ∧
        S.settings.map Prod.fst = settingKeys dsvEntries ∧
        ∃ items, (field? entries "mappings" = none ∧ items = [] ∨
            field? entries "mappings" = some (.list items)) ∧
          S.mappings.length = items.length ∧ List.Forall₂ MappingFrom items S.mappings := by
  refine ⟨fun e failed => ?_, fun S passed => ?_⟩
  · rcases compile_faults failed with ⟨-, empty, -⟩ | ⟨_, -, fresh, -⟩
    · rw [empty]
      nofun
    · exact fresh
  · unfold compile at passed
    split at passed
    · exact absurd passed refuse_ne_ok
    · exact absurd passed refuse_ne_ok
    · rename_i root _
      obtain ⟨entries, isMap, passed⟩ := bind_eq_ok passed
      obtain rfl := requireMap_eq_ok isMap
      obtain ⟨s, set, passed⟩ := bind_eq_ok passed
      obtain ⟨ms, mapped, passed⟩ := bind_eq_ok passed
      cases pure_eq_ok passed
      obtain ⟨dsvEntries, configured, keys⟩ := settings_eq_ok set
      obtain ⟨items, listed, related⟩ := mappings_eq_ok mapped
      exact ⟨entries, dsvEntries, rfl, configured, keys, items, listed, related.length_eq.symm,
        related⟩

/-- A full configuration: version `2.0`, a two-character delimiter, four columns and a header
row; a primary mapping keyed by the column named `id` with a prefix to remove, whose bins take a
named column, a positioned name with a typed and encoded value, and fixed texts; and a secondary
mapping keyed and set by position. -/
def fullConfigDocument : Value :=
  .map [(.str "version", .scalar (.str "2.0")),
    (.str "dsv_config", .map [(.str "delimiter", .scalar (.str "##")),
      (.str "n_columns", .scalar (.int 4)), (.str "header_exist", .scalar (.bool true))]),
    (.str "mappings", .list [
      .map [(.str "key", .map [(.str "column_name", .scalar (.str "id")),
          (.str "type", .scalar (.str "integer")), (.str "remove_prefix", .scalar (.str "ID-"))]),
        (.str "set", .scalar (.str "demo")),
        (.str "binList", .list [
          .map [(.str "name", .scalar (.str "age")),
            (.str "value", .map [(.str "column_name", .scalar (.str "age")),
              (.str "type", .scalar (.str "integer"))])],
          .map [(.str "name", .map [(.str "column_position", .scalar (.int 3))]),
            (.str "value", .map [(.str "column_position", .scalar (.str "4")),
              (.str "type", .scalar (.str "blob")), (.str "dst_type", .scalar (.str "blob")),
              (.str "encoding", .scalar (.str "hex"))])],
          .map [(.str "name", .scalar (.str "source")),
            (.str "value", .scalar (.str "static-file"))]])],
      .map [(.str "secondary_mapping", .scalar (.str "true")),
        (.str "key", .map [(.str "column_position", .scalar (.int 2))]),
        (.str "set", .map [(.str "column_position", .scalar (.int 1))]),
        (.str "binList", .list [
          .map [(.str "name", .scalar (.str "id")),
            (.str "value", .map [(.str "column_name", .scalar (.str "id")),
              (.str "type", .scalar (.str "string"))])]])]])]

/-- The full configuration compiles, to a schema with the settings of its `dsv_config` in order
and one well-formed mapping for each of its mappings. -/
theorem compile_wellFormed_fullConfig :
    ∃ S, compile (some fullConfigDocument) = .ok S ∧
      ∃ entries dsvEntries, some fullConfigDocument = some (.map entries) ∧
        field? entries "dsv_config" = some (.map dsvEntries) ∧
        S.settings.map Prod.fst = settingKeys dsvEntries ∧
        ∃ items, (field? entries "mappings" = none ∧ items = [] ∨
            field? entries "mappings" = some (.list items)) ∧
          S.mappings.length = items.length ∧ List.Forall₂ MappingFrom items S.mappings :=
  ⟨_, rfl, (compile_wellFormed _).2 _ rfl⟩

end Ingest.Schema
