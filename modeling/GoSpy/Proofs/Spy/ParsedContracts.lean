import GoSpy.Proofs.Artifact.Generated
/- Contracts of source files. What the parser checks of an interface literal holds of them: in
   particular no two methods of a contract have one name. -/
namespace GoSpy.Contract

def Parsed (c : Contract) : Prop :=
  ∃ path text file, SourceFile.ofText path text = .ok file ∧ ∃ d ∈ file.decls, c ∈ d.contracts

/-- The contracts of a source text, none if it cannot be parsed. -/
def ofText (text : String) : List Contract :=
  (SourceFile.ofText "x.go" text).toOption.toList.flatMap fun file =>
    file.decls.flatMap Decl.contracts

theorem parsed_ofText {text : String} {c : Contract} (member : c ∈ ofText text) : c.Parsed := by
  obtain ⟨file, inFiles, inFile⟩ := List.mem_flatMap.mp member
  obtain ⟨d, inDecls, inContracts⟩ := List.mem_flatMap.mp inFile
  refine ⟨"x.go", text, file, ?_, d, inDecls, inContracts⟩
  cases run : SourceFile.ofText "x.go" text with
  | error => simp [run, Except.toOption] at inFiles
  | ok other =>
    obtain rfl : file = other := by simpa [run, Except.toOption] using inFiles
    rfl

theorem distinct_of_spec {file : String} {spec : TypeSpec} {c : Contract}
    (wellFormed : spec.WellFormed) (found : ofSpec? file spec = some c) :
    (c.methods.map Method.name).Nodup := by
  unfold ofSpec? at found
  split at found
  · rename_i elements shape _
    obtain rfl := Option.some.inj found
    have all := wellFormed.type
    rw [shape] at all
    have distinct := of_decide_eq_true (Bool.and_eq_true_iff.mp all).2
    have names : Grammar.methodNames elements =
        (elements.filterMap Element.method?).map Method.name := by
      rw [List.map_filterMap]
      rfl
    exact names ▸ distinct
  · cases found

theorem distinct_of_decl {d : Decl} (wellFormed : d.WellFormed) {c : Contract}
    (member : c ∈ d.contracts) : (c.methods.map Method.name).Nodup := by
  obtain ⟨group, spec, rfl, inSpecs, declared⟩ := Decl.mem_contracts member
  exact distinct_of_spec (wellFormed spec inSpecs) declared

theorem Parsed.distinct {c : Contract} (parsed : c.Parsed) :
    (c.methods.map Method.name).Nodup := by
  obtain ⟨path, text, file, run, d, inFile, inContracts⟩ := parsed
  exact distinct_of_decl ((SourceFile.ofText_wellFormed run).decls d inFile) inContracts

end GoSpy.Contract
