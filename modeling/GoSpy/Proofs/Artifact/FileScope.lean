import GoSpy.Proofs.Artifact.Resolution
/- Where the path of a qualifier comes from. The imports of its own file are asked first; a
   qualifier that none of them binds is then looked for in the other files, in their order, before
   it is the one that needs no import. So the other files of a package matter for what a declaration
   means, exactly where its own file leaves one of its qualifiers unbound. -/
namespace GoSpy.Scope

def without (scope : Scope) (file : String) : Scope := ⟨scope.files.filter (·.1 != file)⟩

/-- The path of a qualifier for a file that sees its own imports only. -/
def filePath (imports : List ImportSpec) (qualifier : String) : Option String :=
  boundIn imports qualifier <|> builtin qualifier

theorem ownBinding_without (scope : Scope) (file qualifier : String) :
    (scope.without file).ownBinding file qualifier = none := by
  have absent : (scope.without file).files.find? (·.1 == file) = none := by
    apply List.find?_eq_none.mpr
    intro f member
    simpa using (List.mem_filter.mp member).2
  simp [ownBinding, absent]

theorem findSome?_filter {α β : Type} {keep : α → Bool} {f : α → Option β} {xs : List α}
    (none : ∀ x ∈ xs, keep x = false → f x = Option.none) :
    (xs.filter keep).findSome? f = xs.findSome? f := by
  induction xs with
  | nil => rfl
  | cons x rest ih =>
    have later := ih fun y member => none y (List.mem_cons_of_mem _ member)
    cases kept : keep x with
    | true => rw [List.filter_cons_of_pos kept, List.findSome?_cons, List.findSome?_cons, later]
    | false =>
      rw [List.filter_cons_of_neg (by simp [kept]), List.findSome?_cons,
        none x List.mem_cons_self kept, later]

section

variable {scope : Scope} (distinct : (scope.files.map Prod.fst).Nodup)
variable {file : String} {imports : List ImportSpec} (known : (file, imports) ∈ scope.files)

include distinct known

theorem anyBinding_without {qualifier : String} (unbound : boundIn imports qualifier = none) :
    (scope.without file).anyBinding qualifier = scope.anyBinding qualifier := by
  apply findSome?_filter
  intro f member dropped
  have name : f.1 = file := by simpa using dropped
  have same : f = (file, imports) := List.inj_on_of_nodup_map distinct member known name
  rw [same]
  exact unbound

theorem lookup_known (qualifier : String) :
    scope.lookup file qualifier =
      (boundIn imports qualifier <|> (scope.without file).lookup file qualifier) := by
  have own := ownBinding_of_mem distinct known qualifier
  cases bound : boundIn imports qualifier with
  | some path => simp [lookup, own, bound]
  | none =>
    have any := anyBinding_without distinct known bound
    simp [lookup, own, bound, any, ownBinding_without]

theorem lookup_unbound {qualifier : String} (unbound : boundIn imports qualifier = none) :
    scope.lookup file qualifier = (scope.without file).lookup file qualifier := by
  rw [lookup_known distinct known, unbound]
  rfl

theorem lookup_eq_filePath_iff (qualifier : String) :
    scope.lookup file qualifier = filePath imports qualifier ↔
      (boundIn imports qualifier = none → ∀ path,
        (scope.without file).anyBinding qualifier = some path → builtin qualifier = some path) := by
  rw [lookup_known distinct known, filePath]
  cases bound : boundIn imports qualifier with
  | some path => simp
  | none =>
    have rest : (scope.without file).lookup file qualifier =
        ((scope.without file).anyBinding qualifier <|> builtin qualifier) := by
      simp [lookup, ownBinding_without]
    rw [rest]
    cases (scope.without file).anyBinding qualifier with
    | none => simp
    | some path => simp [eq_comm]

end

theorem uses_eq_iff (scope other : Scope) (d : Decl) :
    scope.uses d = other.uses d ↔
      ∀ q ∈ d.qualifiers, scope.lookup d.place.file q = other.lookup d.place.file q := by
  constructor
  · intro same q inQualifiers
    apply Option.ext
    intro path
    have uses : scope.Uses d q path ↔ other.Uses d q path := by
      rw [← mem_uses scope d (q, path), ← mem_uses other d (q, path), same]
    simpa [Uses, inQualifiers] using uses
  · intro same
    apply List.filterMap_congr
    intro q inOrder
    rw [same q ((Text.mem_ascending q _).mp inOrder)]

/-- For a declaration from a file of the scope: it sees its own file's imports only, exactly if no
    other file binds a qualifier of it that its own file leaves unbound (but to the path that it
    has anyway); and another scope with the same file gives it the same paths, exactly if the
    other files of both agree on those qualifiers. -/
theorem file_scoped_iff {scope : Scope} (distinct : (scope.files.map Prod.fst).Nodup) {d : Decl}
    {imports : List ImportSpec} (known : (d.place.file, imports) ∈ scope.files) :
    ((∀ q ∈ d.qualifiers, scope.lookup d.place.file q = filePath imports q) ↔
      ∀ q ∈ d.qualifiers, boundIn imports q = none → ∀ path,
        (scope.without d.place.file).anyBinding q = some path → builtin q = some path) ∧
    ∀ other : Scope, (other.files.map Prod.fst).Nodup → (d.place.file, imports) ∈ other.files →
      (scope.uses d = other.uses d ↔
        ∀ q ∈ d.qualifiers, boundIn imports q = none →
          (scope.without d.place.file).lookup d.place.file q =
            (other.without d.place.file).lookup d.place.file q) := by
  constructor
  · exact forall₂_congr fun q _ => lookup_eq_filePath_iff distinct known q
  · intro other distinct' known'
    rw [uses_eq_iff]
    apply forall₂_congr
    intro q _
    cases bound : boundIn imports q with
    | some path =>
      simp [lookup_known distinct known, lookup_known distinct' known', bound]
    | none =>
      rw [lookup_unbound distinct known bound, lookup_unbound distinct' known' bound]
      simp

def copier : Decl :=
  .func ⟨none, "Copy", [],
    ⟨[⟨["w"], .qualified "io" "Writer"⟩, ⟨["l"], .qualified "sync" "Locker"⟩], []⟩, none,
    ⟨"b.go", 3⟩⟩

def crowded : Scope :=
  ⟨[("a.go", [⟨some "io", "example.com/stream", 2⟩, ⟨none, "context", 3⟩]),
    ("b.go", [⟨none, "io", 2⟩])]⟩

def uncrowded : Scope := ⟨[("b.go", [⟨none, "io", 2⟩])]⟩

theorem crowded_file_scoped :
    (crowded.files.map Prod.fst).Nodup ∧ ("b.go", [⟨none, "io", 2⟩]) ∈ crowded.files ∧
      (uncrowded.files.map Prod.fst).Nodup ∧ ("b.go", [⟨none, "io", 2⟩]) ∈ uncrowded.files ∧
      crowded.uses copier = [("io", "io"), ("sync", "sync")] ∧
      (∀ q ∈ copier.qualifiers, crowded.lookup "b.go" q = filePath [⟨none, "io", 2⟩] q) ∧
      crowded.uses copier = uncrowded.uses copier := by
  have distinct : (crowded.files.map Prod.fst).Nodup := by decide
  have known : ("b.go", [⟨none, "io", 2⟩]) ∈ crowded.files := by decide
  have distinct' : (uncrowded.files.map Prod.fst).Nodup := by decide
  have known' : ("b.go", [⟨none, "io", 2⟩]) ∈ uncrowded.files := by decide
  have unborrowed : ∀ q ∈ copier.qualifiers, boundIn [⟨none, "io", 2⟩] q = none →
      (crowded.without copier.place.file).anyBinding q = none := by decide +kernel
  have others : ∀ q ∈ copier.qualifiers, boundIn [⟨none, "io", 2⟩] q = none →
      (crowded.without "b.go").lookup "b.go" q = (uncrowded.without "b.go").lookup "b.go" q := by
    decide +kernel
  obtain ⟨ownOnly, alike⟩ := file_scoped_iff distinct (d := copier) known
  refine ⟨distinct, known, distinct', known', by decide +kernel, ownOnly.mpr ?_,
    (alike uncrowded distinct' known').mpr others⟩
  intro q inQualifiers unbound path bound
  rw [unborrowed q inQualifiers unbound] at bound
  cases bound

def lending : Scope := ⟨[("a.go", [⟨none, "io", 2⟩]), ("b.go", [])]⟩

def unlent : Scope := ⟨[("b.go", [])]⟩

theorem neighbour_import_used :
    (¬ ∀ (scope other : Scope) (d : Decl) (imports : List ImportSpec),
      (scope.files.map Prod.fst).Nodup → (d.place.file, imports) ∈ scope.files →
      (other.files.map Prod.fst).Nodup → (d.place.file, imports) ∈ other.files →
      ∀ q ∈ d.qualifiers, scope.lookup d.place.file q = other.lookup d.place.file q) ∧
    (lending.resolve [copier]).imports = [⟨none, "io"⟩, ⟨none, "sync"⟩] ∧
    (unlent.resolve [copier]).imports = [⟨none, "sync"⟩] := by
  refine ⟨?_, by decide +kernel, by decide +kernel⟩
  intro all
  have same := all lending unlent copier [] (by decide) (by decide) (by decide) (by decide)
    "io" (by decide)
  exact absurd same (by decide +kernel)

end GoSpy.Scope
