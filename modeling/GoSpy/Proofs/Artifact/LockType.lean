import GoSpy.Proofs.Artifact.Generated
import GoSpy.Proofs.Spy.Agreement
import GoSpy.Proofs.Spy.Emission
/- The type of the lock in the records of thread-safe spies. It is generated as `sync.Mutex` and
   then resolved as any other type of the file that its contract is from. So it is the mutex of
   the package `sync`, by whatever name that is imported, unless the file sees another package
   under the name `sync`. -/
namespace GoSpy

theorem TypeExpr.fields_requalify (g : String → String) (t : TypeExpr) :
    (t.requalify g).fields = t.fields.map fun f => (f.1, f.2.requalify g) := by
  cases t with
  | struct members =>
    induction members with
    | nil => rfl
    | cons m rest ih =>
      obtain ⟨names, type, tag⟩ := m
      simp only [requalify, fields] at ih ⊢
      rw [requalifyMembers, List.flatMap_cons, List.flatMap_cons, List.map_append, ih]
      simp [Member.requalify]
  | _ => rfl

def Resolution.LockedBy (r : Resolution) (path : String) (record : TypeExpr) : Prop :=
  ∃ i ∈ r.imports, i.path = path ∧
    record.fields.filter (·.1 == Naming.lockField) =
      [(Naming.lockField, .qualified i.localName "Mutex")]

namespace Contract

variable {o : SpyOptions} (threadSafe : o.threadSafe = true) (c : Contract)

include threadSafe

theorem record_lock :
    (c.record o).type.fields.filter (·.1 == Naming.lockField) =
      [(Naming.lockField, .qualified "sync" "Mutex")] := by
  have others : (c.methods.flatMap methodFields).filter (·.1 == Naming.lockField) = [] := by
    apply List.filter_eq_nil_iff.mpr
    intro f member isLock
    obtain ⟨m, _, inMethod⟩ := List.mem_flatMap.mp member
    have name : f.1 = Naming.lockField := by simpa using isLock
    exact lockField_not_method m (name ▸ List.mem_map_of_mem inMethod)
  rw [record_fields, if_pos threadSafe, List.filter_append, others]
  rfl

theorem record_lock_requalify (g : String → String) :
    ((c.record o).type.requalify g).fields.filter (·.1 == Naming.lockField) =
      [(Naming.lockField, .qualified (g "sync") "Mutex")] := by
  rw [TypeExpr.fields_requalify, List.filter_map]
  exact congrArg (List.map _) (record_lock threadSafe c)

theorem sync_mem_qualifiers : "sync" ∈ (c.record o).type.qualifiers := by
  simp [record, members, lockMembers, threadSafe, Member.single, TypeExpr.qualifiers,
    memberQualifiers, Member.qualifiers]

end Contract

namespace Scope

/-- The path that a file sees a package under the name of: that of an import of its own, else of
    the first import of that name in any file. -/
def seen (scope : Scope) (file qualifier : String) : Option String :=
  scope.ownBinding file qualifier <|> scope.anyBinding qualifier

theorem lookup_sync (scope : Scope) (file : String) :
    scope.lookup file "sync" = some ((scope.seen file "sync").getD "sync") := by
  have order : scope.lookup file "sync" = (scope.seen file "sync" <|> builtin "sync") := by
    simp [lookup, seen, Option.or_assoc]
  rw [order]
  cases scope.seen file "sync" <;> rfl

theorem lookup_sync_iff (scope : Scope) (file : String) :
    scope.lookup file "sync" = some "sync" ↔
      ∀ path, scope.seen file "sync" = some path → path = "sync" := by
  rw [lookup_sync]
  cases scope.seen file "sync" <;> simp

theorem lockedBy_iff (scope : Scope) {decls : List Decl} {o : SpyOptions}
    (threadSafe : o.threadSafe = true) {c : Contract}
    (inDecls : .type ⟨[c.record o], false, c.place⟩ ∈ decls) (path : String) :
    (scope.resolve decls).LockedBy path
        ((c.record o).type.requalify (scope.rename (scope.bindings decls) c.place.file)) ↔
      scope.lookup c.place.file "sync" = some path := by
  have valid := bindings_oneToOne scope decls
  have qualifier : "sync" ∈ (Decl.type ⟨[c.record o], false, c.place⟩).qualifiers := by
    simp [Decl.qualifiers, Decl.typeSpecQualifiers, c.sync_mem_qualifiers threadSafe]
  have bound {path : String} (found : scope.lookup c.place.file "sync" = some path) :=
    binding_of_use scope inDecls ⟨qualifier, found⟩
  rw [Resolution.LockedBy, c.record_lock_requalify threadSafe]
  constructor
  · rintro ⟨i, line, rfl, lock⟩
    have name : scope.rename (scope.bindings decls) c.place.file "sync" = i.localName := by
      simpa using lock
    obtain ⟨b, member, path, named⟩ := bound (lookup_sync scope c.place.file)
    have line' := (importLines_eq valid b.toImport).mpr ⟨b, member, rfl⟩
    have same : i = b.toImport := by
      apply localName_determines valid line line'
      rw [Binding.localName_toImport, ← name]
      exact named
    rw [lookup_sync, same]
    exact congrArg some path.symm
  · intro found
    obtain ⟨b, member, rfl, named⟩ := bound found
    have line := (importLines_eq valid b.toImport).mpr ⟨b, member, rfl⟩
    refine ⟨b.toImport, line, rfl, ?_⟩
    have name : scope.rename (scope.bindings decls) c.place.file "sync" = b.localName := named
    rw [name, Binding.localName_toImport]

end Scope

theorem Decl.typeSpecs_requalify (g : String → String) (d : Decl) :
    (d.requalify g).typeSpecs.map TypeSpec.name = d.typeSpecs.map TypeSpec.name := by
  cases d with
  | type group => simp [requalify, typeSpecs]
  | func d => rfl
  | value d => rfl

namespace Package

open Layout

/-- In the artifact of a package each thread-safe spy has a lock of some package, which is `sync`
    exactly if the file of its contract sees no other package under that name. -/
theorem lock_is_mutex_iff (p : Package) (namePrefix : String) :
    let scope := Job.scopeOf p
    let r := scope.resolve (Generation.of ⟨namePrefix, true⟩ p.decls).decls
    (r.decls.flatMap Decl.typeSpecs).map TypeSpec.name =
        p.contracts.map (fun c => namePrefix ++ c.name) ∧
    ∀ d ∈ r.decls, ∀ record ∈ d.typeSpecs,
      (∃ path, r.LockedBy path record.type) ∧
      (r.LockedBy "sync" record.type ↔
        ∀ path, scope.seen d.place.file "sync" = some path → path = "sync") := by
  intro scope r
  constructor
  · have names : (r.decls.flatMap Decl.typeSpecs).map TypeSpec.name =
        (Generation.of ⟨namePrefix, true⟩ p.decls).spies := by
      rw [Generation.spies_eq]
      simp only [r, Scope.resolve, List.map_flatMap, List.flatMap_map, Decl.typeSpecs_requalify]
    rw [names]
    rfl
  · intro d inResult record inSpecs
    obtain ⟨before, inDecls, rfl⟩ := List.mem_map.mp inResult
    obtain ⟨c, _, own⟩ := List.mem_flatMap.mp inDecls
    rcases List.mem_cons.mp own with rfl | method
    · obtain rfl := List.mem_singleton.mp inSpecs
      have locked := scope.lockedBy_iff (o := ⟨namePrefix, true⟩) rfl inDecls
      constructor
      · exact ⟨_, (locked _).mpr (scope.lookup_sync c.place.file)⟩
      · exact (locked "sync").trans (scope.lookup_sync_iff c.place.file)
    · obtain ⟨m, _, rfl⟩ := List.mem_map.mp method
      cases inSpecs

def workshop : Package := ofTexts "workshop"
  [("pool.go", unlines
      ["package workshop",
       "import s \"sync\"",
       "type Pool interface \x7b Hold(l s.Locker) \x7d"]),
   ("queue.go", unlines
      ["package workshop",
       "import lock \"example.com/sync\"",
       "type Queue interface \x7b Push(lock.Token); Close() \x7d"]),
   ("stack.go", unlines
      ["package workshop",
       "import \"sync\"",
       "type Stack interface \x7b Once(o *sync.Once) \x7d"])]

theorem workshop_locked :
    let r := (Job.scopeOf workshop).resolve (Generation.of ⟨"Fake", true⟩ workshop.decls).decls
    r.imports = [⟨some "lock", "example.com/sync"⟩, ⟨some "s", "sync"⟩] ∧
      (r.decls.flatMap Decl.typeSpecs).map TypeSpec.name = ["FakePool", "FakeQueue", "FakeStack"] ∧
      ∀ d ∈ r.decls, ∀ record ∈ d.typeSpecs, r.LockedBy "sync" record.type := by
  intro r
  have facts : r.imports = [⟨some "lock", "example.com/sync"⟩, ⟨some "s", "sync"⟩] ∧
      (r.decls.flatMap Decl.typeSpecs).map TypeSpec.name = ["FakePool", "FakeQueue", "FakeStack"] ∧
      ∀ d ∈ r.decls, (Job.scopeOf workshop).seen d.place.file "sync" = some "sync" := by
    decide +kernel
  obtain ⟨imports, names, seen⟩ := facts
  refine ⟨imports, names, ?_⟩
  intro d inResult record inSpecs
  apply ((lock_is_mutex_iff workshop "Fake").2 d inResult record inSpecs).2.mpr
  intro path found
  exact Option.some.inj (found.symm.trans (seen d inResult))

def usurped : Package := ofTexts "p"
  [("a.go", unlines
      ["package p",
       "import \"example.com/sync\"",
       "type R interface \x7b Reset() \x7d"])]

theorem lock_of_other_package :
    ¬ ∀ (p : Package) (namePrefix : String), p.Parsed →
      let r := (Job.scopeOf p).resolve (Generation.of ⟨namePrefix, true⟩ p.decls).decls
      ∀ d ∈ r.decls, ∀ record ∈ d.typeSpecs, r.LockedBy "sync" record.type := by
  intro all
  let r := (Job.scopeOf usurped).resolve (Generation.of ⟨"Fake", true⟩ usurped.decls).decls
  have facts : (r.decls.flatMap Decl.typeSpecs).isEmpty = false ∧
      ∀ i ∈ r.imports, i.path = "example.com/sync" := by decide +kernel
  obtain ⟨records, imports⟩ := facts
  obtain ⟨record, member⟩ := List.isEmpty_eq_false_iff_exists_mem.mp records
  obtain ⟨d, inResult, inSpecs⟩ := List.mem_flatMap.mp member
  obtain ⟨i, line, path, _⟩ := all usurped "Fake" (ofTexts_parsed "p" _) d inResult record inSpecs
  rw [imports i line] at path
  exact absurd path (by decide)

end Package

end GoSpy
