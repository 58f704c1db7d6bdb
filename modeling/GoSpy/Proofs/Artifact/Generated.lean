import GoSpy.Run.Plan
import GoSpy.Proofs.Artifact.ReadBack
import GoSpy.Proofs.Artifact.Renaming
import GoSpy.Proofs.Spy.Emission
import GoSpy.Proofs.Spy.Printable
import GoSpy.Proofs.Grammar.SafeTexts
/- What is generated for the contracts of parsed files is read back from its artifact. That the
   names are identifiers and that type parameters can be told from an array length need not be
   assumed: it holds of everything that was parsed. -/
namespace GoSpy

namespace Contract

/-- Whether the spy of a contract has a name, and takes over nothing but named type parameters
    and types in normal form whose tagged fields fit on a line. -/
def isNormal (o : SpyOptions) (c : Contract) : Bool :=
  isIdentifier (o.spyName c.name)
    && c.typeParams.all (fun f => !f.names.isEmpty && f.type.isConstraint)
    && c.methods.all fun m => m.signature.isNormal
      && (m.signature.params ++ m.signature.results).all fun f => f.type.tagsFit

structure WellFormed (c : Contract) : Prop where
  typeParams : ∀ f ∈ c.typeParams, f.isWellFormedTypeParam = true
  apart : (∀ f ∈ c.typeParams, f.names ≠ []) → separable c.typeParams = true
  methods : ∀ m ∈ c.methods, isIdentifier m.name = true

theorem WellFormed.ofSpec {file : String} {spec : TypeSpec} {c : Contract}
    (wellFormed : spec.WellFormed) (found : ofSpec? file spec = some c) : c.WellFormed := by
  unfold ofSpec? at found
  split at found
  · rename_i elements shape _
    obtain rfl := Option.some.inj found
    refine ⟨wellFormed.typeParams, wellFormed.apart, fun m member => ?_⟩
    have all := wellFormed.type
    rw [shape] at all
    obtain ⟨element, inElements, taken⟩ := List.mem_filterMap.mp member
    have own := elementsWellFormed_iff.mp (Bool.and_eq_true_iff.mp all).1 element inElements
    cases element with
    | method name signature line =>
      obtain rfl := Option.some.inj taken
      exact (Bool.and_eq_true_iff.mp own).1
    | embedded => cases taken
  · cases found

theorem Printable.ofNormal {o : SpyOptions} {c : Contract} (wellFormed : c.WellFormed)
    (normal : c.isNormal o = true) : c.Printable o := by
  simp only [isNormal, Bool.and_eq_true, List.all_eq_true] at normal
  obtain ⟨⟨name, typeParams⟩, methods⟩ := normal
  have named : ∀ f ∈ c.typeParams, f.names ≠ [] := fun f member => by
    simpa using (typeParams f member).1
  refine ⟨name, fun f member => ?_, wellFormed.apart named,
    fun m member => ⟨wellFormed.methods m member, (methods m member).1⟩,
    fun m member => (methods m member).2⟩
  have identifiers := (Bool.and_eq_true_iff.mp (wellFormed.typeParams f member)).1
  exact Bool.and_eq_true_iff.mpr
    ⟨Bool.and_eq_true_iff.mpr ⟨(typeParams f member).1, identifiers⟩, (typeParams f member).2⟩

end Contract

theorem Decl.contracts_wellFormed {d : Decl} (wellFormed : d.WellFormed) :
    ∀ c ∈ d.contracts, c.WellFormed := by
  intro c member
  obtain ⟨group, spec, rfl, inSpecs, declared⟩ := mem_contracts member
  exact .ofSpec (wellFormed spec inSpecs) declared

namespace Package

open Layout

/-- Every file of the package is what some text of that name was parsed to. -/
def Parsed (p : Package) : Prop :=
  ∀ f ∈ p.files, ∃ text, SourceFile.ofText f.path.text text = .ok f.file

def contracts (p : Package) : List Contract := p.decls.flatMap Decl.contracts

theorem Parsed.contracts_wellFormed {p : Package} (parsed : p.Parsed) :
    ∀ c ∈ p.contracts, c.WellFormed := by
  intro c member
  obtain ⟨d, inDecls, inContracts⟩ := List.mem_flatMap.mp member
  obtain ⟨f, inFiles, inFile⟩ := List.mem_flatMap.mp inDecls
  obtain ⟨text, run⟩ := parsed f inFiles
  exact d.contracts_wellFormed ((SourceFile.ofText_wellFormed run).decls d inFile) c inContracts

def artifact (p : Package) (o : SpyOptions) (name : String) : Artifact :=
  let resolution := (Job.scopeOf p).resolve (Generation.of o p.decls).decls
  ⟨name, resolution.imports, resolution.decls⟩

theorem artifact_printable {p : Package} {o : SpyOptions} {name : String} (parsed : p.Parsed)
    (identifier : isIdentifier name = true)
    (paths : ∀ f ∈ p.files, ∀ i ∈ f.file.imports, isQuotable i.path = true)
    (normal : ∀ c ∈ p.contracts, c.isNormal o = true) : (p.artifact o name).Printable := by
  refine Scope.resolve_printable identifier (fun d member => ?_) fun f member i inFile => ?_
  · obtain ⟨c, inContracts, own⟩ := List.mem_flatMap.mp member
    exact Contract.spyDecls_printable
      (.ofNormal (parsed.contracts_wellFormed c inContracts) (normal c inContracts)) d own
  · obtain ⟨g, inFiles, rfl⟩ := List.mem_map.mp member
    exact paths g inFiles i inFile

theorem artifact_written (o : RunOptions) (dir : Path) (several : Bool) (p : Package) :
    (Job.ofPackage o dir several p).text =
      (p.artifact o.spy (p.name ++ o.packageSuffix)).text := rfl

/-- The text that is written for a package is read as a file with the same package name, the
    same imports and the same declarations, up to places and without bodies. -/
theorem generated_reads_back (p : Package) (o : SpyOptions) (name path : String)
    (parsed : p.Parsed) (identifier : isIdentifier name = true)
    (paths : ∀ f ∈ p.files, ∀ i ∈ f.file.imports, isQuotable i.path = true)
    (normal : ∀ c ∈ p.contracts, c.isNormal o = true) :
    ∃ file, SourceFile.ofText path (p.artifact o name).text = .ok file ∧
      Grammar.SameFile name (p.artifact o name).imports (p.artifact o name).decls file :=
  Artifact.read_back path (artifact_printable parsed identifier paths normal)

def ofTexts (name : String) (texts : List (String × String)) : Package :=
  ⟨name, texts.filterMap fun t => (SourceFile.ofText t.1 t.2).toOption.map (ParsedFile.mk ⟨t.1⟩)⟩

theorem ofTexts_parsed (name : String) (texts : List (String × String)) :
    (ofTexts name texts).Parsed := by
  intro f member
  obtain ⟨t, -, taken⟩ := List.mem_filterMap.mp member
  obtain ⟨file, read, rfl⟩ := Option.map_eq_some_iff.mp taken
  refine ⟨t.2, ?_⟩
  cases run : SourceFile.ofText t.1 t.2 with
  | error => simp [run, Except.toOption] at read
  | ok other =>
    obtain rfl : other = file := by simpa [run, Except.toOption] using read
    rfl

def shop : Package := ofTexts "shop"
  [("store.go", unlines
      ["package shop",
       "import c \"container/list\"",
       "type Store[K, L comparable, V ~int | Price[K]] interface \x7b",
       "  io.Closer",
       "  Each(visit func(at [2]K, more ...V) (ok bool), l *c.List)",
       "  Open(struct \x7b",
       "    Name string \x60json:\"name\"\x60",
       "  \x7d) (chan (<-chan V), error)",
       "\x7d"]),
   ("feed.go", unlines
      ["package shop",
       "import (",
       "  c \"context\"",
       ")",
       "type Feed interface \x7b Next(ctx c.Context, int_ int) \x7d"])]

theorem shop_reads_back :
    (shop.contracts.map Contract.name = ["Store", "Feed"] ∧
      (shop.artifact ⟨"Fake", true⟩ "shop_test").imports.length = 3 ∧
      (∀ f ∈ shop.files, ∀ i ∈ f.file.imports, isQuotable i.path = true) ∧
      ∀ c ∈ shop.contracts, c.isNormal ⟨"Fake", true⟩ = true) ∧
    ∃ file, SourceFile.ofText "fm_test.go" (shop.artifact ⟨"Fake", true⟩ "shop_test").text =
        .ok file ∧
      Grammar.SameFile "shop_test" (shop.artifact ⟨"Fake", true⟩ "shop_test").imports
        (shop.artifact ⟨"Fake", true⟩ "shop_test").decls file :=
  have facts : shop.contracts.map Contract.name = ["Store", "Feed"] ∧
      (shop.artifact ⟨"Fake", true⟩ "shop_test").imports.length = 3 ∧
      (∀ f ∈ shop.files, ∀ i ∈ f.file.imports, isQuotable i.path = true) ∧
      ∀ c ∈ shop.contracts, c.isNormal ⟨"Fake", true⟩ = true := by decide +kernel
  ⟨facts, generated_reads_back shop ⟨"Fake", true⟩ "shop_test" "fm_test.go"
    (ofTexts_parsed "shop" _) (by decide +kernel) facts.2.2.1 facts.2.2.2⟩

end Package

end GoSpy
