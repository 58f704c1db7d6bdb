import GoSpy.Proofs.Text.Ascending
import GoSpy.Proofs.Spy.FreeNames
import GoSpy.Proofs.Syntax.Requalification
/- Import resolution keeps the meaning of qualifiers. The table of bindings that a run over the
   declarations builds up gives each path one local name and each local name to one path; it
   holds the paths in use and no other ones, so that renaming by it and printing it agree. -/
namespace GoSpy

def Import.localName (i : Import) : String := i.name.getD (assumedName i.path)

theorem Binding.localName_toImport (b : Binding) : b.toImport.localName = b.localName := by
  unfold Binding.toImport Import.localName
  split
  · rename_i assumed
    exact assumed.symm
  · rfl

structure Binding.OneToOne (table : List Binding) : Prop where
  paths : (table.map Binding.path).Nodup
  names : (table.map Binding.localName).Nodup

namespace Binding

theorem add_known {table : List Binding} {path : String} (qualifier : String)
    (known : path ∈ table.map Binding.path) : add table qualifier path = table := by
  obtain ⟨b, member, same⟩ := List.mem_map.mp known
  have found : table.any (·.path == path) = true :=
    List.any_eq_true.mpr ⟨b, member, by simpa using same⟩
  simp [add, found]

theorem add_unknown {table : List Binding} {path : String} (qualifier : String)
    (unknown : path ∉ table.map Binding.path) :
    add table qualifier path = table ++ [⟨freeName table qualifier, path⟩] := by
  have absent : table.any (·.path == path) = false := by
    refine List.any_eq_false.mpr fun b member => ?_
    simpa using fun same => unknown (List.mem_map.mpr ⟨b, member, same⟩)
  simp [add, absent]

theorem add_oneToOne {table : List Binding} (qualifier path : String)
    (valid : OneToOne table) : OneToOne (add table qualifier path) := by
  by_cases known : path ∈ table.map Binding.path
  · rw [add_known qualifier known]
    exact valid
  · rw [add_unknown qualifier known]
    refine ⟨?_, ?_⟩
    · rw [List.map_append]
      exact valid.paths.append (List.nodup_singleton path)
        (List.disjoint_singleton.mpr known)
    · rw [List.map_append]
      exact valid.names.append (List.nodup_singleton _)
        (List.disjoint_singleton.mpr (freeName_fresh table qualifier))

theorem mem_paths_add (table : List Binding) (qualifier path p : String) :
    p ∈ (add table qualifier path).map Binding.path ↔
      p ∈ table.map Binding.path ∨ p = path := by
  by_cases known : path ∈ table.map Binding.path
  · rw [add_known qualifier known]
    constructor
    · exact Or.inl
    · rintro (old | new)
      · exact old
      · exact new ▸ known
  · rw [add_unknown qualifier known]
    simp

theorem foldl_add (uses : List (String × String)) (table : List Binding)
    (valid : OneToOne table) :
    OneToOne (uses.foldl (fun t use => add t use.1 use.2) table) ∧
      ∀ p, p ∈ (uses.foldl (fun t use => add t use.1 use.2) table).map Binding.path ↔
        p ∈ table.map Binding.path ∨ p ∈ uses.map Prod.snd := by
  induction uses generalizing table with
  | nil => exact ⟨valid, by simp⟩
  | cons use rest ih =>
    obtain ⟨oneToOne, paths⟩ := ih _ (add_oneToOne use.1 use.2 valid)
    refine ⟨oneToOne, fun p => ?_⟩
    rw [List.foldl_cons, paths, mem_paths_add]
    simp only [List.map_cons, List.mem_cons]
    tauto

theorem find_path {table : List Binding} (valid : OneToOne table) {b : Binding}
    (member : b ∈ table) : table.find? (·.path == b.path) = some b := by
  cases run : table.find? (·.path == b.path) with
  | none =>
    have missed := List.find?_eq_none.mp run b member
    simp at missed
  | some found =>
    have inTable := List.mem_of_find?_eq_some run
    have path : found.path = b.path := by simpa using List.find?_some run
    exact congrArg some (List.inj_on_of_nodup_map valid.paths inTable member path)

theorem localName?_eq_some {table : List Binding} (valid : OneToOne table) {b : Binding}
    (member : b ∈ table) : localName? table b.path = some b.localName := by
  simp [localName?, find_path valid member]

end Binding

namespace Scope

theorem bindings_oneToOne (scope : Scope) (decls : List Decl) :
    Binding.OneToOne (scope.bindings decls) :=
  (Binding.foldl_add _ [] ⟨List.nodup_nil, List.nodup_nil⟩).1

def Uses (scope : Scope) (d : Decl) (qualifier path : String) : Prop :=
  qualifier ∈ d.qualifiers ∧ scope.lookup d.place.file qualifier = some path

theorem mem_uses (scope : Scope) (d : Decl) (use : String × String) :
    use ∈ scope.uses d ↔ scope.Uses d use.1 use.2 := by
  obtain ⟨qualifier, path⟩ := use
  simp only [uses, List.mem_filterMap, Text.mem_ascending, Option.map_eq_some_iff, Prod.mk.injEq]
  constructor
  · rintro ⟨q, inQualifiers, p, found, rfl, rfl⟩
    exact ⟨inQualifiers, found⟩
  · rintro ⟨inQualifiers, found⟩
    exact ⟨qualifier, inQualifiers, path, found, rfl, rfl⟩

theorem mem_bindings_path (scope : Scope) (decls : List Decl) (p : String) :
    p ∈ (scope.bindings decls).map Binding.path ↔
      ∃ d ∈ decls, ∃ q ∈ d.qualifiers, scope.lookup d.place.file q = some p := by
  have run := (Binding.foldl_add (decls.flatMap scope.uses) [] ⟨List.nodup_nil, List.nodup_nil⟩).2
  rw [bindings, run p]
  simp only [List.map_nil, List.not_mem_nil, false_or, List.mem_map, List.mem_flatMap, mem_uses]
  constructor
  · rintro ⟨use, ⟨d, inDecls, inQualifiers, found⟩, rfl⟩
    exact ⟨d, inDecls, use.1, inQualifiers, found⟩
  · rintro ⟨d, inDecls, q, inQualifiers, found⟩
    exact ⟨(q, p), ⟨d, inDecls, inQualifiers, found⟩, rfl⟩

theorem importLines_eq {table : List Binding} (valid : Binding.OneToOne table) (i : Import) :
    i ∈ importLines table ↔ ∃ b ∈ table, b.toImport = i := by
  simp only [importLines, List.mem_filterMap, Text.mem_ascending, List.mem_map,
    Option.map_eq_some_iff]
  constructor
  · rintro ⟨path, _, b, found, same⟩
    exact ⟨b, List.mem_of_find?_eq_some found, same⟩
  · rintro ⟨b, member, same⟩
    exact ⟨b.path, ⟨b, member, rfl⟩, b, Binding.find_path valid member, same⟩

theorem importLines_paths {table : List Binding} (valid : Binding.OneToOne table) :
    (importLines table).map Import.path = Text.ascending (table.map Binding.path) := by
  have each : ∀ path ∈ Text.ascending (table.map Binding.path),
      ((table.find? (·.path == path)).map Binding.toImport).map Import.path = some path := by
    intro path member
    obtain ⟨b, inTable, same⟩ := List.mem_map.mp ((Text.mem_ascending _ _).mp member)
    subst path
    rw [Binding.find_path valid inTable]
    rfl
  rw [importLines, List.map_filterMap, List.filterMap_congr each, List.filterMap_some]

theorem importLines_sorted {table : List Binding} (valid : Binding.OneToOne table) :
    (importLines table).Pairwise fun i j => i.path < j.path := by
  have sorted := Text.ascending_sorted (table.map Binding.path)
  rw [← importLines_paths valid] at sorted
  exact List.pairwise_map.mp sorted

theorem localName_determines {table : List Binding} (valid : Binding.OneToOne table)
    {i j : Import} (mi : i ∈ importLines table) (mj : j ∈ importLines table)
    (same : i.localName = j.localName) : i = j := by
  obtain ⟨a, ma, rfl⟩ := (importLines_eq valid i).mp mi
  obtain ⟨b, mb, rfl⟩ := (importLines_eq valid j).mp mj
  rw [Binding.localName_toImport, Binding.localName_toImport] at same
  rw [List.inj_on_of_nodup_map valid.names ma mb same]

theorem importLines_names_nodup {table : List Binding} (valid : Binding.OneToOne table) :
    ((importLines table).map Import.localName).Nodup := by
  have distinct : (importLines table).Nodup :=
    (importLines_sorted valid).imp fun below => ne_of_apply_ne Import.path (ne_of_lt below)
  exact distinct.map_on fun i mi j mj same => localName_determines valid mi mj same

theorem rename_bound (scope : Scope) {table : List Binding} (valid : Binding.OneToOne table)
    {file qualifier : String} {b : Binding} (member : b ∈ table)
    (found : scope.lookup file qualifier = some b.path) :
    scope.rename table file qualifier = b.localName := by
  simp [rename, found, Binding.localName?_eq_some valid member]

theorem binding_of_use (scope : Scope) {decls : List Decl} {d : Decl} (inDecls : d ∈ decls)
    {qualifier path : String} (uses : scope.Uses d qualifier path) :
    ∃ b ∈ scope.bindings decls, b.path = path ∧
      scope.rename (scope.bindings decls) d.place.file qualifier = b.localName := by
  obtain ⟨inQualifiers, found⟩ := uses
  have bound := (mem_bindings_path scope decls path).mpr
    ⟨d, inDecls, qualifier, inQualifiers, found⟩
  obtain ⟨b, member, rfl⟩ := List.mem_map.mp bound
  exact ⟨b, member, rfl, rename_bound scope (bindings_oneToOne scope decls) member found⟩

theorem rename_unresolved (scope : Scope) (table : List Binding) {file qualifier : String}
    (absent : scope.lookup file qualifier = none) :
    scope.rename table file qualifier = qualifier := by
  simp [rename, absent]

theorem ownBinding_of_mem {scope : Scope} (distinct : (scope.files.map Prod.fst).Nodup)
    {file : String} {imports : List ImportSpec} (member : (file, imports) ∈ scope.files)
    (qualifier : String) : scope.ownBinding file qualifier = boundIn imports qualifier := by
  have found : scope.files.find? (·.1 == file) = some (file, imports) := by
    cases run : scope.files.find? (·.1 == file) with
    | none =>
      have missed := List.find?_eq_none.mp run _ member
      simp at missed
    | some f =>
      have name : f.1 = file := by simpa using List.find?_some run
      exact congrArg some
        (List.inj_on_of_nodup_map distinct (List.mem_of_find?_eq_some run) member name)
  simp [ownBinding, found]

theorem lookup_own {scope : Scope} (distinct : (scope.files.map Prod.fst).Nodup)
    {file : String} {imports : List ImportSpec} (member : (file, imports) ∈ scope.files)
    {qualifier path : String} (bound : boundIn imports qualifier = some path) :
    scope.lookup file qualifier = some path := by
  simp [lookup, ownBinding_of_mem distinct member, bound]

end Scope

/-- What a resolution of the declarations must keep: nothing but packages changes, the import
    block is a sorted one-to-one table of what is used, and each qualifier that stands for a
    path is written as the local name of that path, in every declaration alike. -/
structure Resolution.KeepsMeaning (scope : Scope) (decls : List Decl) (r : Resolution) :
    Prop where
  shape : List.Forall₂ (Decl.Alike (fun _ _ => True) Eq Eq Eq) decls r.decls
  sorted : r.imports.Pairwise fun i j => i.path < j.path
  names : (r.imports.map Import.localName).Nodup
  /-- One renaming for all declarations, by file and qualifier, position by position. -/
  renamed : ∃ rename : String → String → String,
    List.Forall₂ (fun d d' => d'.qualifiers = d.qualifiers.map (rename d.place.file))
      decls r.decls ∧
    ∀ d ∈ decls, ∀ q ∈ d.qualifiers,
      (∀ p, scope.lookup d.place.file q = some p →
        ∃ i ∈ r.imports, i.localName = rename d.place.file q ∧ i.path = p ∧
          ∀ j ∈ r.imports, j.localName = rename d.place.file q → j = i) ∧
      (scope.lookup d.place.file q = none → rename d.place.file q = q)
  own : ∀ file imports, (file, imports) ∈ scope.files →
    ∀ q p, Scope.boundIn imports q = some p → scope.lookup file q = some p
  used : ∀ i ∈ r.imports,
    (∃ d ∈ decls, ∃ q ∈ d.qualifiers, scope.lookup d.place.file q = some i.path) ∧
    ∃ d ∈ r.decls, i.localName ∈ d.qualifiers

namespace Scope

theorem resolve_shape (scope : Scope) (decls : List Decl) :
    List.Forall₂ (Decl.Alike (fun _ _ => True) Eq Eq Eq) decls (scope.resolve decls).decls := by
  refine List.forall₂_map_right_iff.mpr (List.forall₂_same.mpr fun d _ => ?_)
  exact Decl.alike_requalify _ (fun _ => trivial) d

theorem localName_occurs (scope : Scope) {decls : List Decl} {b : Binding}
    (member : b ∈ scope.bindings decls) {d : Decl} (inDecls : d ∈ decls) {q : String}
    (inQualifiers : q ∈ d.qualifiers) (found : scope.lookup d.place.file q = some b.path) :
    ∃ d' ∈ (scope.resolve decls).decls, b.localName ∈ d'.qualifiers := by
  refine ⟨_, List.mem_map.mpr ⟨d, inDecls, rfl⟩, ?_⟩
  rw [Decl.qualifiers_requalify]
  exact List.mem_map.mpr
    ⟨q, inQualifiers, rename_bound scope (bindings_oneToOne scope decls) member found⟩

theorem resolve_keeps_meaning (scope : Scope) (decls : List Decl)
    (distinct : (scope.files.map Prod.fst).Nodup) :
    (scope.resolve decls).KeepsMeaning scope decls := by
  have valid := bindings_oneToOne scope decls
  refine ⟨resolve_shape scope decls, importLines_sorted valid, importLines_names_nodup valid,
    ⟨scope.rename (scope.bindings decls), ?_, ?_⟩, ?_, ?_⟩
  · exact List.forall₂_map_right_iff.mpr
      (List.forall₂_same.mpr fun d _ => Decl.qualifiers_requalify _ d)
  · intro d inDecls q inQualifiers
    refine ⟨fun p found => ?_, rename_unresolved scope _⟩
    obtain ⟨b, member, same⟩ := List.mem_map.mp
      ((mem_bindings_path scope decls p).mpr ⟨d, inDecls, q, inQualifiers, found⟩)
    subst p
    have line := (importLines_eq valid b.toImport).mpr ⟨b, member, rfl⟩
    have name := rename_bound scope valid member found
    refine ⟨b.toImport, line, ?_, rfl, fun j mj sameName => ?_⟩
    · rw [Binding.localName_toImport, name]
    · refine localName_determines valid mj line ?_
      rw [sameName, name, Binding.localName_toImport]
  · intro file imports member q p bound
    exact lookup_own distinct member bound
  · intro i line
    obtain ⟨b, member, rfl⟩ := (importLines_eq valid i).mp line
    obtain ⟨d, inDecls, q, inQualifiers, found⟩ :=
      (mem_bindings_path scope decls b.path).mp (List.mem_map.mpr ⟨b, member, rfl⟩)
    refine ⟨⟨d, inDecls, q, inQualifiers, found⟩, ?_⟩
    rw [Binding.localName_toImport]
    exact localName_occurs scope member inDecls inQualifiers found

def clashing : Scope :=
  ⟨[("a.go", [⟨none, "text/template", 2⟩]), ("b.go", [⟨none, "html/template", 2⟩])]⟩

def templateUser (file name : String) : Decl :=
  .func ⟨none, name, [], ⟨[⟨["t"], .qualified "template" "Template"⟩], []⟩, none, ⟨file, 3⟩⟩

theorem clashing_resolved :
    (clashing.files.map Prod.fst).Nodup ∧
    (clashing.resolve [templateUser "a.go" "A", templateUser "b.go" "B"]).imports =
      [⟨some "template2", "html/template"⟩, ⟨none, "text/template"⟩] ∧
    (clashing.resolve [templateUser "a.go" "A", templateUser "b.go" "B"]).decls.map
      Decl.qualifiers = [["template"], ["template2"]] ∧
    (clashing.resolve [templateUser "a.go" "A", templateUser "b.go" "B"]).KeepsMeaning
      clashing [templateUser "a.go" "A", templateUser "b.go" "B"] :=
  ⟨by decide, by decide +kernel, by decide +kernel, resolve_keeps_meaning _ _ (by decide)⟩

end Scope

end GoSpy
