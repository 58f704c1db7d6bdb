import GoSpy.Proofs.Grammar.SafeTypes
/- What the form of a type says about the tokens it was read from. -/
namespace GoSpy.Grammar

open Cursor

section

variable {type : Reader TypeExpr} {s behind : Cursor} {t : TypeExpr}

theorem typeName_eq_ok (run : typeName type s = .ok (t, behind)) :
    s.nextIsName = true ∧ t.opensWord = true := by
  obtain ⟨⟨first, s₁⟩, named, run⟩ := bind_eq_ok.mp run
  obtain ⟨⟨base, s₂⟩, qualified, run⟩ := bind_eq_ok.mp run
  obtain ⟨word, free, -⟩ := name_eq_ok named
  refine ⟨by simp [nextIsName, word, Token.isName, free], ?_⟩
  dsimp only at run
  split at run
  · obtain ⟨rfl, -⟩ := Prod.mk.inj (Except.ok.inj run)
    dsimp only at qualified
    split at qualified
    · obtain ⟨_, _, same⟩ := bind_eq_ok.mp qualified
      cases same
      rfl
    · cases qualified
      rfl
  · obtain ⟨_, _, run⟩ := bind_eq_ok.mp run
    obtain ⟨_, _, same⟩ := bind_eq_ok.mp run
    cases same
    rfl

theorem wordType_eq_ok {word : String} (run : wordType type word s = .ok (t, behind)) :
    t.opensWord = true ∧ (t.isNamed = true → s.nextIsName = true) := by
  unfold wordType at run
  split at run
  · obtain ⟨_, _, run⟩ := bind_eq_ok.mp run
    obtain ⟨_, _, run⟩ := bind_eq_ok.mp run
    obtain ⟨_, _, run⟩ := bind_eq_ok.mp run
    obtain ⟨_, _, same⟩ := bind_eq_ok.mp run
    cases same
    exact ⟨rfl, nofun⟩
  · unfold chanType at run
    split at run
    all_goals
      obtain ⟨_, _, same⟩ := bind_eq_ok.mp run
      cases same
      exact ⟨rfl, nofun⟩
  iterate 3
    obtain ⟨_, _, same⟩ := bind_eq_ok.mp run
    cases same
    exact ⟨rfl, nofun⟩
  · split at run
    · cases run
    · obtain ⟨isName, opens⟩ := typeName_eq_ok run
      exact ⟨opens, fun _ => isName⟩

/-- What is read in front of `behind`, by the first token: a word, or one of the marks that a type
    begins with, and what is read inside. -/
inductive Form (type : Reader TypeExpr) (s behind : Cursor) : TypeExpr → Prop where
  | word {w : String} {t : TypeExpr} (there : s.peek = some (.word w)) (opens : t.opensWord = true)
      (isName : t.isNamed = true → s.nextIsName = true) : Form type s behind t
  | pointer {target : TypeExpr} (there : s.peek = some .star)
      (run : type s.advance = .ok (target, behind)) : Form type s behind (.pointer target)
  | slice {element : TypeExpr} (there : s.peek = some .openBracket)
      (run : type s.advance.advance = .ok (element, behind)) : Form type s behind (.slice element)
  | array {length : String} {element : TypeExpr} {next : Cursor}
      (there : s.peek = some .openBracket) (sized : arrayLength s.advance = .ok (length, next))
      (run : type next = .ok (element, behind)) : Form type s behind (.array length element)
  | receive {element : TypeExpr} (there : s.peek = some .arrow) :
      Form type s behind (.chan .receive element)
  | paren {inner : TypeExpr} (there : s.peek = some .openParen) : Form type s behind (.paren inner)

theorem form_of_typeForm (run : typeForm type s = .ok (t, behind)) : Form type s behind t := by
  unfold typeForm at run
  split at run
  · obtain ⟨opens, isName⟩ := wordType_eq_ok run
    exact .word ‹_› opens isName
  · obtain ⟨_, read, same⟩ := bind_eq_ok.mp run
    cases same
    exact .pointer ‹_› read
  · unfold bracketType at run
    split at run
    · rename_i eaten
      obtain ⟨_, rfl⟩ := eat_eq_some eaten
      obtain ⟨_, read, same⟩ := bind_eq_ok.mp run
      cases same
      exact .slice ‹_› read
    · obtain ⟨_, sized, run⟩ := bind_eq_ok.mp run
      obtain ⟨_, read, same⟩ := bind_eq_ok.mp run
      cases same
      exact .array ‹_› sized read
  · obtain ⟨_, _, run⟩ := bind_eq_ok.mp run
    obtain ⟨_, _, same⟩ := bind_eq_ok.mp run
    cases same
    exact .receive ‹_›
  · obtain ⟨_, _, run⟩ := bind_eq_ok.mp run
    obtain ⟨_, _, same⟩ := bind_eq_ok.mp run
    cases same
    exact .paren ‹_›
  · cases run

end

def onFirstLine (tokens : List Token) : List Lexeme := tokens.map (⟨·, 1⟩)

end GoSpy.Grammar
