import GoSpy.Proofs.Grammar.Types
import GoSpy.Proofs.Syntax.Spelled
/- A type in normal form is read back from its spelling, whatever is nested in it, and so is a
   signature. Behind it only the semicolon is left that the end of the text stands for. -/
namespace GoSpy

def ReadsBack {α : Type} (reader : Reader α) (text : String) (same : α → Prop) : Prop :=
  ∃ lexemes x behind, Lexemes.ofText text = .ok lexemes ∧
    reader (Cursor.ofLexemes lexemes) = .ok (x, behind) ∧ behind.tokens = [.semicolon] ∧ same x

theorem Scan.Flows.ofText {text : String} {tokens : List Token}
    (flows : Flows false text.toList tokens true []) :
    ∃ lexemes, Lexemes.ofText text = .ok lexemes ∧
      (Cursor.ofLexemes lexemes).tokens = tokens ++ [.semicolon] := by
  obtain ⟨ps, cuts, flows⟩ := flows
  rw [List.append_nil] at cuts
  have pieces : ps ≠ [] := by
    rintro rfl
    cases flows
  refine ⟨_, Lexemes.ofText_of_cuts pieces cuts, ?_⟩
  refine (Scan.settle_tokens false 1 ps).trans ?_
  rw [flows]
  rfl

theorem Spells.ofText {text : String} {tokens : List Token} (spells : Spells text tokens) :
    ∃ lexemes, Lexemes.ofText text = .ok lexemes ∧
      (Cursor.ofLexemes lexemes).tokens = tokens ++ [.semicolon] :=
  (spells false [] (by simp [Scan.Boundary])).ofText

namespace Grammar

theorem readsBack_of_reads {α : Type} {reader : Reader α} {text : String} {tokens : List Token}
    {same : α → Prop} (spells : Spells text tokens)
    (reads : Reads reader tokens Stops same) : ReadsBack reader text same := by
  obtain ⟨lexemes, cut, shape⟩ := spells.ofText
  obtain ⟨x, behind, run, rest, like⟩ :=
    reads (Cursor.ofLexemes lexemes) [.semicolon] shape rfl
  exact ⟨lexemes, x, behind, cut, run, rest, like⟩

/-- Spelling a type or a signature in normal form and reading it again gives it back, up to the
    lines of methods. -/
theorem normal_reads_back :
    (∀ t : TypeExpr, t.isNormal = true → ReadsBack type t.spelling (SameType t)) ∧
      ∀ s : Signature, s.isNormal = true →
        ReadsBack (signature type) s.spelling (SameSignature s) := by
  constructor
  · intro t normal
    obtain ⟨tokens, written, spells⟩ := t.spelled normal
    exact readsBack_of_reads spells (type_reads written)
  · intro s normal
    obtain ⟨tokens, written, spells⟩ := s.spelled normal
    exact readsBack_of_reads spells (signature_reads_all written)

/-- A signature that calls for each look ahead: names in front of arrays, arguments behind names,
    channels of channels, embedded and tagged fields and a set of types. -/
def intricate : Signature :=
  ⟨[⟨["at", "to"], .array "len(keys[0])" (.generic (.name "Cell") [.name "K", .slice (.name "V")])⟩,
    ⟨["events"], .chan .both (.paren (.chan .receive (.qualified "time" "Time")))⟩,
    ⟨["rest"], .variadic (.func ⟨[⟨[], .map (.name "string") (.pointer (.name "T"))⟩], []⟩)⟩],
   [⟨[], .struct
      [⟨[], .pointer (.generic (.qualified "sync" "Pool") [.name "T"]), none⟩,
       ⟨["key", "old"], .slice (.name "K"), some "`json:\"key\"`"⟩,
       ⟨["sum"], .interface [.embedded (.union [⟨true, .name "int"⟩, ⟨false, .name "string"⟩]),
          .method "Less" ⟨[⟨[], .name "T"⟩], [⟨["less"], .name "bool"⟩]⟩ 0], none⟩]⟩]⟩

theorem intricate_reads_back :
    (TypeExpr.func intricate).isNormal = true ∧
      ReadsBack type (TypeExpr.func intricate).spelling (SameType (.func intricate)) ∧
      ReadsBack (signature type) intricate.spelling (SameSignature intricate) :=
  have normal : intricate.isNormal = true := by decide +kernel
  ⟨normal, normal_reads_back.1 _ normal, normal_reads_back.2 _ normal⟩

end Grammar

end GoSpy
