import GoSpy.Proofs.Grammar.Forms
import GoSpy.Proofs.Grammar.Nesting
import GoSpy.Proofs.Grammar.Rounds
/- Bodies and initial values are opaque. What is read of a file stays the same if the tokens of one of
   them are replaced by others that pair up too: up to the mark in front of them the readers follow
   each other, and behind them the two texts are the same again. -/
namespace GoSpy.Grammar

open Cursor Reader

/- Where tokens are passed over -/

/-- Tokens behind `o` that are passed over up to `rest`: those inside of a body's braces, or initial
    values behind their mark. -/
inductive Passable (o : Lexeme) (inside rest : List Lexeme) : Prop where
  | body (brace : o.token = .openBrace) (balanced : Balanced inside)
      (closes : ∃ x ∈ rest.head?, x.token = .closeBrace) : Passable o inside rest
  | values (mark : o.token = .assign) (balanced : Balanced inside) (inner : InnerSemicolons inside)
      (ends : ∀ x ∈ rest.head?, x.token = .semicolon ∨ x.token = .closeParen) :
      Passable o inside rest

namespace Passable

variable {o : Lexeme} {inside rest : List Lexeme} (passable : Passable o inside rest)

include passable

theorem edge : o.token = .openBrace ∨ o.token = .assign := by
  cases passable with
  | body brace => exact Or.inl brace
  | values mark => exact Or.inr mark

theorem balanced : Balanced inside := by
  cases passable <;> assumption

theorem funcBody_eq (brace : o.token = .openBrace) (endLine : Nat) :
    funcBody ⟨o :: (inside ++ rest), endLine⟩ = .ok ⟨rest.tail, endLine⟩ := by
  cases passable with
  | values mark => exact absurd (brace.symm.trans mark) (by decide)
  | body _ balanced closes =>
    obtain ⟨c, first, close⟩ := closes
    obtain ⟨post, rfl⟩ := List.head?_eq_some_iff.mp first
    have behind : behindBlock 0 (o :: (inside ++ c :: post)) = some post := by
      rw [behindBlock, brace]
      dsimp only
      rw [behindBlock_balanced balanced.braces, behindBlock, close]
      rfl
    simp only [funcBody, peek, List.head?_cons, Option.map_some, brace, if_true, skipBlock, behind,
      List.tail_cons]

theorem initialValues_eq (mark : o.token = .assign) (endLine : Nat) :
    initialValues ⟨o :: (inside ++ rest), endLine⟩ = .ok ⟨rest, endLine⟩ := by
  cases passable with
  | body brace => exact absurd (brace.symm.trans mark) (by decide)
  | values _ balanced inner ends =>
    have behind (start : Nat) : behindValues start 0 (inside ++ rest) = .ok rest :=
      (behindValues_closing start balanced inner).trans (behindValues_end ends)
    simp only [initialValues, eat?, peek, List.head?_cons, Option.map_some, mark, if_true, advance,
      List.tail_cons, skipValues, behind, bind, Except.bind]

end Passable

def SpecAt (s w : Cursor) : Prop :=
  s.peek ≠ some .openParen ∧ w = s ∨
    s.peek = some .openParen ∧ RoundAt valueSpec Cursor.endEntry (some .closeParen) s.advance w

/-- Reading a declaration at `v` comes to the brace of a body or to the mark in front of initial values,
    and passes over what is behind it from there. -/
inductive PassesIn (file : String) (v t : Cursor) : Prop where
  | body {d : FuncDecl} (func : v.peek = some (.word "func"))
      (head : funcHead ⟨file, v.line⟩ v.advance = .ok (d, t)) (brace : t.peek = some .openBrace) :
      PassesIn file v t
  | values {w : Cursor} {spec : ValueSpec}
      (kind : v.peek = some (.word "var") ∨ v.peek = some (.word "const"))
      (specified : SpecAt v.advance w) (head : valueHead w = .ok (spec, t))
      (mark : t.peek = some .assign) : PassesIn file v t

def Passes (file : String) (l : Lexemes) (t : Cursor) : Prop :=
  ∃ head s v, fileHead (Cursor.ofLexemes l) = .ok (head, s) ∧
    RoundAt (decl file) endDecl none s v ∧ PassesIn file v t

theorem SpecAt.past {s w : Cursor} (specified : SpecAt s w) : s.Past 0 w := by
  rcases specified with ⟨-, rfl⟩ | ⟨there, specified⟩
  · exact .refl w
  · exact ((past_advance there).trans
      (specified.past valueSpec_takes Rounds.endEntry_past)).weaken (Nat.zero_le _)

theorem length_mark {s : Cursor} {o : Lexeme} {after : List Lexeme} {endLine k : Nat}
    (past : s.Past k ⟨o :: after, endLine⟩) : after.length < s.rest.length := by
  have length := past.length
  simp only [List.length_cons] at length
  omega

theorem valueHead_length {s : Cursor} {spec : ValueSpec} {o : Lexeme} {after : List Lexeme}
    {endLine : Nat} (head : valueHead s = .ok (spec, ⟨o :: after, endLine⟩)) :
    after.length < s.rest.length :=
  length_mark ((valueHead_follows : Reader.Follows [] [] 1 0 valueHead valueHead).past head)

theorem funcHead_length {place : Place} {s : Cursor} {d : FuncDecl} {o : Lexeme}
    {after : List Lexeme} {endLine : Nat} (head : funcHead place s = .ok (d, ⟨o :: after, endLine⟩)) :
    after.length < s.rest.length :=
  length_mark ((funcHead_follows place :
    Reader.Follows [] [] 1 0 (funcHead place) (funcHead place)).past head)

theorem PassesIn.length {file : String} {v : Cursor} {o : Lexeme} {after : List Lexeme}
    {endLine : Nat} (passes : PassesIn file v ⟨o :: after, endLine⟩) :
    after.length < v.advance.rest.length := by
  cases passes with
  | body _ head => exact funcHead_length head
  | values _ specified head => exact (valueHead_length head).trans_le specified.past.length

section

variable {o : Lexeme} {inside inside' rest : List Lexeme} (old : Passable o inside rest)
  (new : Passable o inside' rest) {s s' : Cursor} {endLine : Nat}
  (twins : Twins (inside ++ rest) (inside' ++ rest) s s') (sameEnd : s'.endLine = s.endLine)

include old new twins sameEnd

theorem funcDecl_same {place : Place} {d : FuncDecl} (brace : o.token = .openBrace)
    (head : funcHead place s = .ok (d, ⟨o :: (inside ++ rest), endLine⟩)) :
    funcDecl place s' = funcDecl place s := by
  rw [funcDecl_eq, funcDecl_eq, head,
    follows_up_to (fun _ => funcHead_follows place) head twins sameEnd]
  simp only [bind, Except.bind, old.funcBody_eq brace, new.funcBody_eq brace]

theorem valueSpec_same {spec : ValueSpec} (mark : o.token = .assign)
    (head : valueHead s = .ok (spec, ⟨o :: (inside ++ rest), endLine⟩)) :
    valueSpec s' = valueSpec s := by
  rw [valueSpec_eq, valueSpec_eq, head,
    follows_up_to (fun _ => valueHead_follows) head twins sameEnd]
  simp only [bind, Except.bind, old.initialValues_eq mark, new.initialValues_eq mark]

theorem group_same {w : Cursor} {spec : ValueSpec} (mark : o.token = .assign)
    (specified : SpecAt s w) (head : valueHead w = .ok (spec, ⟨o :: (inside ++ rest), endLine⟩))
    {r : (List ValueSpec × Bool) × Cursor} (run : group valueSpec s = .ok r) :
    group valueSpec s' = .ok r := by
  unfold group at run ⊢
  rcases twins.looks.eat .openParen with ⟨other, other'⟩ | ⟨there, eaten, eaten'⟩
  · rcases specified with ⟨-, rfl⟩ | ⟨there, -⟩
    · rw [other] at run
      rw [other', valueSpec_same old new twins sameEnd mark head]
      exact run
    · simp [eat?, there] at other
  · rcases specified with ⟨apart, -⟩ | ⟨-, there⟩
    · exact absurd ‹_› apart
    · rw [eaten] at run
      rw [eaten']
      obtain ⟨⟨xs, u⟩, items, run⟩ := bind_eq_ok.mp run
      have far := valueHead_length head
      have near := (there.past valueSpec_takes Rounds.endEntry_past).length
      have rounds := Rounds.meet (fun _ => valueSpec_follows) endEntry_steps there far
        (fun v' twins' sameEnd' r read => by
          rwa [valueSpec_same old new twins' sameEnd' mark head])
        (Rounds.of_entries items) (twins.advance (by omega)) sameEnd
      have items' := Rounds.entries_eq valueSpec_takes rounds [] (Nat.lt_succ_self _)
      exact bind_eq_ok.mpr ⟨(xs, u), items', run⟩

theorem valueDecl_same {kind : ValueKind} {place : Place} {w : Cursor} {spec : ValueSpec}
    (mark : o.token = .assign) (specified : SpecAt s w)
    (head : valueHead w = .ok (spec, ⟨o :: (inside ++ rest), endLine⟩)) {r : Decl × Cursor}
    (run : valueDecl kind place s = .ok r) : valueDecl kind place s' = .ok r := by
  obtain ⟨specs, read, same⟩ := bind_eq_ok.mp run
  have read' := group_same old new twins sameEnd mark specified head read
  exact bind_eq_ok.mpr ⟨specs, read', same⟩

theorem decl_same {file : String} (passes : PassesIn file s ⟨o :: (inside ++ rest), endLine⟩)
    {r : Decl × Cursor} (run : decl file s = .ok r) : decl file s' = .ok r := by
  have looks := twins.looks
  have twins' := twins.advance passes.length
  cases passes with
  | body func head brace =>
    have isBrace : o.token = .openBrace := Option.some.inj brace
    simp only [decl, looks.peek, looks.line func, func] at run ⊢
    rwa [funcDecl_same old new twins' sameEnd isBrace head]
  | values kind specified head mark =>
    have isMark : o.token = .assign := Option.some.inj mark
    rcases kind with var | const
    · simp only [decl, looks.peek, looks.line var, var] at run ⊢
      exact valueDecl_same old new twins' sameEnd isMark specified head run
    · simp only [decl, looks.peek, looks.line const, const] at run ⊢
      exact valueDecl_same old new twins' sameEnd isMark specified head run

end

/-- Bodies and initial values are opaque: if the tokens inside of a body's braces, or those of initial
    values, are replaced by others that pair up as they do, the same file is read. -/
theorem passed_over_ignored {file : String} {pre inside inside' rest : List Lexeme} {o : Lexeme}
    {endLine : Nat} {f : SourceFile}
    (accepted : SourceFile.ofLexemes file ⟨pre ++ o :: (inside ++ rest), endLine⟩ = .ok f)
    (passes : Passes file ⟨pre ++ o :: (inside ++ rest), endLine⟩ ⟨o :: (inside ++ rest), endLine⟩)
    (old : Passable o inside rest) (new : Passable o inside' rest) :
    SourceFile.ofLexemes file ⟨pre ++ o :: (inside' ++ rest), endLine⟩ = .ok f := by
  obtain ⟨head, s, v, first, declared, passed⟩ := passes
  obtain ⟨⟨_, u⟩, read, rfl⟩ := map_eq_ok.mp accepted
  rw [sourceFile_eq] at read
  obtain ⟨_, first₁, read⟩ := bind_eq_ok.mp read
  obtain rfl := Except.ok.inj (first.symm.trans first₁)
  obtain ⟨⟨ds, w⟩, declarations, same⟩ := bind_eq_ok.mp read
  let start' : Cursor := ⟨pre ++ o :: (inside' ++ rest), endLine⟩
  have twins : Twins (inside ++ rest) (inside' ++ rest)
      ⟨pre ++ o :: (inside ++ rest), endLine⟩ start' :=
    ⟨pre ++ [o], fronts_of_balanced old.edge old.balanced new.balanced pre, by simp, by simp [start']⟩
  -- All that differs is behind `v`, so the readers up to `v` follow each other.
  have far : (inside ++ rest).length < v.rest.length := by
    have behind := passed.length
    simp only [Cursor.advance, List.length_tail] at behind
    omega
  have near := (declared.past (decl_takes file) Rounds.endDecl_past).length
  obtain ⟨past, both⟩ := fileHead_follows _ start' head s first
  obtain ⟨s', first', past', twins'⟩ := both twins (Nat.lt_succ_self _) (by omega)
  have sameEnd : s'.endLine = s.endLine := past'.endLine.trans past.endLine.symm
  have rounds := Rounds.meet (fun _ => decl_follows file) endDecl_steps declared far
    (fun v' twins₁ sameEnd₁ r run => decl_same old new twins₁ sameEnd₁ passed run)
    (Rounds.of_decls declarations) twins' sameEnd
  have declarations' := Rounds.decls_eq rounds (Nat.lt_succ_self _)
  refine map_eq_ok.mpr ⟨(⟨head.1, head.2, ds⟩, w), ?_, ?_⟩
  · rw [sourceFile_eq]
    exact bind_eq_ok.mpr ⟨(head, s'), first', bind_eq_ok.mpr ⟨(ds, w), declarations', rfl⟩⟩
  · exact congrArg Prod.fst (Except.ok.inj same)

def bodyFront : List Lexeme :=
  onFirstLine [.word "package", .word "p", .semicolon, .word "func", .word "f", .openParen, .word "a",
    .openBracket, .closeBracket, .word "int", .closeParen]

def valuesFront : List Lexeme :=
  onFirstLine [.word "package", .word "p", .semicolon, .word "var", .openParen, .word "u", .assign,
    .number "1", .semicolon, .word "w"]

theorem body_and_values_replaced :
    (∃ f, SourceFile.ofLexemes "x.go" ⟨bodyFront ++ ⟨.openBrace, 1⟩ :: (onFirstLine
          [.word "a", .openBracket, .number "0", .closeBracket, .operator "++", .semicolon] ++
            onFirstLine [.closeBrace, .semicolon]), 1⟩ = .ok f ∧
        SourceFile.ofLexemes "x.go" ⟨bodyFront ++ ⟨.openBrace, 1⟩ :: (onFirstLine
          [.word "for", .openBrace, .word "g", .openParen, .closeParen, .closeBrace] ++
            onFirstLine [.closeBrace, .semicolon]), 1⟩ = .ok f) ∧
      ∃ f, SourceFile.ofLexemes "x.go" ⟨valuesFront ++ ⟨.assign, 1⟩ :: (onFirstLine
          [.openBracket, .closeBracket, .word "int", .openBrace, .number "1", .closeBrace] ++
            onFirstLine [.semicolon, .closeParen, .semicolon]), 1⟩ = .ok f ∧
        SourceFile.ofLexemes "x.go" ⟨valuesFront ++ ⟨.assign, 1⟩ :: (onFirstLine
          [.word "func", .openParen, .closeParen, .openBrace, .semicolon, .closeBrace] ++
            onFirstLine [.semicolon, .closeParen, .semicolon]), 1⟩ = .ok f := by
  constructor
  · have accepted : SourceFile.ofLexemes "x.go" ⟨bodyFront ++ ⟨.openBrace, 1⟩ :: (onFirstLine
          [.word "a", .openBracket, .number "0", .closeBracket, .operator "++", .semicolon] ++
            onFirstLine [.closeBrace, .semicolon]), 1⟩ =
        .ok ⟨"p", [], [.func ⟨none, "f", [], ⟨[⟨["a"], .slice (.name "int")⟩], []⟩, none,
          ⟨"x.go", 1⟩⟩]⟩ := by
      rfl
    refine ⟨_, accepted, passed_over_ignored accepted ?_ ?_ ?_⟩
    · exact ⟨_, _, _, rfl, .first (by decide), .body rfl rfl rfl⟩
    · exact .body rfl (by decide) ⟨_, rfl, rfl⟩
    · exact .body rfl (by decide) ⟨_, rfl, rfl⟩
  · have accepted : SourceFile.ofLexemes "x.go" ⟨valuesFront ++ ⟨.assign, 1⟩ :: (onFirstLine
          [.openBracket, .closeBracket, .word "int", .openBrace, .number "1", .closeBrace] ++
            onFirstLine [.semicolon, .closeParen, .semicolon]), 1⟩ =
        .ok ⟨"p", [], [.value ⟨.var, [⟨["u"], none⟩, ⟨["w"], none⟩], ⟨"x.go", 1⟩⟩]⟩ := by
      rfl
    refine ⟨_, accepted, passed_over_ignored accepted ?_ ?_ ?_⟩
    · exact ⟨_, _, _, rfl, .first (by decide), .values (Or.inl rfl)
        (Or.inr ⟨rfl, .later (by decide) rfl rfl (.first (by decide))⟩) rfl rfl⟩
    · exact .values rfl (by decide) (by decide) (by simp [onFirstLine])
    · exact .values rfl (by decide) (by decide) (by simp [onFirstLine])

end GoSpy.Grammar
