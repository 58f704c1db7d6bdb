import GoSpy.Proofs.Grammar.Repetition
/- Runs of tokens up to the semicolons in front of closing braces. These are the ones that a block
   has on lines of its own and not on one line. Of two such runs one may have more semicolons left;
   over the entries of a block these add up. -/
namespace GoSpy

open Reader (Starts)

/-- The tokens without each semicolon that stands right in front of a closing brace. -/
def trimmed : List Token → List Token
  | [] => []
  | t :: rest =>
    if t = .semicolon ∧ rest.head? = some .closeBrace then trimmed rest else t :: trimmed rest

theorem trimmed_cons_cons (t next : Token) (rest : List Token) :
    trimmed (t :: next :: rest) =
      if t = .semicolon ∧ next = .closeBrace then trimmed (next :: rest)
      else t :: trimmed (next :: rest) := by
  rw [trimmed]
  simp only [List.head?_cons, Option.some.injEq]

theorem trimmed_cons {t : Token} {rest : List Token}
    (kept : t ≠ .semicolon ∨ rest.head? ≠ some .closeBrace) :
    trimmed (t :: rest) = t :: trimmed rest := by
  rw [trimmed, if_neg]
  rintro ⟨semicolon, brace⟩
  rcases kept with other | other
  · exact other semicolon
  · exact other brace

theorem trimmed_append {front back : List Token}
    (kept : front.getLast? ≠ some .semicolon ∨ back.head? ≠ some .closeBrace) :
    trimmed (front ++ back) = trimmed front ++ trimmed back := by
  induction front with
  | nil => rfl
  | cons t front ih =>
    by_cases last : front = []
    · subst last
      have alone : trimmed [t] = [t] := trimmed_cons (Or.inr (by simp))
      rw [alone]
      apply trimmed_cons
      simpa using kept
    · obtain ⟨next, more, rfl⟩ := List.exists_cons_of_ne_nil last
      rw [List.getLast?_cons_cons] at kept
      rw [List.cons_append, List.cons_append, trimmed_cons_cons, trimmed_cons_cons,
        ← List.cons_append, ih kept]
      split <;> rfl

theorem trimmed_block (w : String) (inner : List Token) :
    trimmed (.word w :: .openBrace :: inner) = .word w :: .openBrace :: trimmed inner := by
  rw [trimmed_cons (Or.inl (by simp)), trimmed_cons (Or.inl (by simp))]

/-- A run that a semicolon can be put in front of and a brace behind, and neither is lost. -/
structure Solid (tokens : List Token) : Prop where
  starts : Starts .closeBrace tokens
  ends : tokens.getLast? ≠ some .semicolon

namespace Solid

variable {front back tokens : List Token}

theorem head (solid : Solid tokens) : tokens.head? ≠ some .closeBrace := by
  simpa using solid.starts.head []

theorem append (first : Solid front) (second : Solid back) : Solid (front ++ back) := by
  obtain ⟨t, more, rfl, apart⟩ := first.starts
  constructor
  · exact ⟨t, more ++ back, rfl, apart⟩
  · rw [List.getLast?_append_of_ne_nil _ second.starts.nonempty]
    exact second.ends

theorem single {t : Token} (brace : t ≠ .closeBrace) (semicolon : t ≠ .semicolon) :
    Solid [t] :=
  ⟨⟨t, [], rfl, brace⟩, by simpa using semicolon⟩

theorem block (w : String) (inner : List Token) :
    Solid (.word w :: .openBrace :: (inner ++ [.closeBrace])) := by
  constructor
  · exact ⟨_, _, rfl, by simp⟩
  · rw [← List.cons_append, ← List.cons_append, List.getLast?_concat]
    simp

theorem names (names : List String) (solid : Solid tokens) :
    Solid (parted .comma (names.map fun name => [.word name]) ++ tokens) := by
  cases names with
  | nil => exact solid
  | cons name others =>
    obtain ⟨tail, shape⟩ := parted_head .comma [.word name] (others.map fun name => [.word name])
    rw [List.map_cons, shape]
    constructor
    · exact ⟨_, _, rfl, by simp⟩
    · rw [List.getLast?_append_of_ne_nil _ solid.starts.nonempty]
      exact solid.ends

end Solid

theorem trimmed_ended (tokens : List Token) :
    trimmed (tokens ++ [.semicolon]) = trimmed tokens ++ [.semicolon] :=
  trimmed_append (Or.inr (by simp))

theorem trimmed_lines {runs : List (List Token)} {tokens : List Token} (lines : Lines runs tokens)
    (solid : ∀ run ∈ runs, Solid run) :
    trimmed (tokens ++ [.closeBrace]) =
      parted .semicolon (runs.map trimmed) ++ [.closeBrace] := by
  induction lines with
  | none => rfl
  | last run => exact trimmed_append (Or.inl (solid run (by simp)).ends)
  | @more run runs tokens later ih =>
    have behind := ih fun r member => solid r (List.mem_cons_of_mem _ member)
    rw [List.append_assoc, trimmed_append (Or.inl (solid run List.mem_cons_self).ends),
      List.cons_append]
    cases later with
    | none => rfl
    | last =>
      have starts := (solid tokens (by simp)).starts.head [.closeBrace]
      rw [trimmed_cons (Or.inr starts), behind]
      simp [parted]
    | @more next others rest =>
      have starts := (solid next (by simp)).starts.head (.semicolon :: rest ++ [.closeBrace])
      rw [← List.append_assoc] at starts
      rw [trimmed_cons (Or.inr starts), behind]
      simp [parted]

theorem ended_starts {run : List Token} (solid : Solid run) (runs : List (List Token)) :
    Starts .closeBrace (ended (run :: runs)) := by
  obtain ⟨t, more, rfl, apart⟩ := solid.starts
  exact ⟨t, _, rfl, apart⟩

/- Two runs side by side -/

/-- Two runs for one thing. Trimmed, the second has `n` tokens more, and is the same if it has
    none. -/
structure Drift (n : Nat) (first second : List Token) : Prop where
  firstSolid : Solid first
  secondSolid : Solid second
  longer : (trimmed second).length = (trimmed first).length + n
  same : n = 0 → trimmed second = trimmed first

namespace Drift

variable {n : Nat} {first second : List Token}

theorem refl {tokens : List Token} (solid : Solid tokens) : Drift 0 tokens tokens :=
  ⟨solid, solid, rfl, fun _ => rfl⟩

theorem names (names : List String) (drift : Drift n first second) :
    Drift n (parted .comma (names.map fun name => [.word name]) ++ first)
      (parted .comma (names.map fun name => [.word name]) ++ second) := by
  obtain ⟨firstSolid, secondSolid, longer, same⟩ := drift
  constructor
  · exact firstSolid.names names
  · exact secondSolid.names names
  · rw [trimmed_append (Or.inr firstSolid.head), trimmed_append (Or.inr secondSolid.head)]
    simp only [List.length_append]
    omega
  · intro none
    rw [trimmed_append (Or.inr firstSolid.head), trimmed_append (Or.inr secondSolid.head), same none]

theorem tagged (tag : String) (drift : Drift n first second) :
    Drift n (first ++ [.string tag]) (second ++ [.string tag]) := by
  obtain ⟨firstSolid, secondSolid, longer, same⟩ := drift
  have tagSolid : Solid [.string tag] := .single (by simp) (by simp)
  constructor
  · exact firstSolid.append tagSolid
  · exact secondSolid.append tagSolid
  · rw [trimmed_append (Or.inl firstSolid.ends), trimmed_append (Or.inl secondSolid.ends)]
    simp only [List.length_append]
    omega
  · intro none
    rw [trimmed_append (Or.inl firstSolid.ends), trimmed_append (Or.inl secondSolid.ends),
      same none]

/-- A tag that stands behind the brace that opens a block instead of behind the block ends a line
    there, and the semicolon of that line stays. -/
theorem displaced {w : String} {body : List Token} (tag : String)
    (starts : Starts .closeBrace body)
    (drift : Drift n first (.word w :: .openBrace :: (body ++ [.closeBrace]))) :
    Drift (n + 1) (first ++ [.string tag])
      (.word w :: .openBrace :: .string tag :: .semicolon :: (body ++ [.closeBrace])) := by
  have longer := drift.longer
  have bodyHead := starts.head [.closeBrace]
  have alone : trimmed [.string tag] = [.string tag] := rfl
  constructor
  · exact drift.firstSolid.append (.single (by simp) (by simp))
  · exact .block w (.string tag :: .semicolon :: body)
  · rw [trimmed_block] at longer
    rw [trimmed_append (Or.inl drift.firstSolid.ends), alone, trimmed_block,
      trimmed_cons (Or.inl (by simp)), trimmed_cons (Or.inr bodyHead)]
    simp only [List.length_append, List.length_cons, List.length_nil] at longer ⊢
    omega
  · omega

end Drift

inductive Drifts : Nat → List (List Token) → List (List Token) → Prop where
  | nil : Drifts 0 [] []
  | cons {n m : Nat} {first second : List Token} {firsts seconds : List (List Token)}
      (drift : Drift n first second) (later : Drifts m firsts seconds) :
      Drifts (n + m) (first :: firsts) (second :: seconds)

namespace Drifts

variable {n : Nat} {firsts seconds : List (List Token)}

theorem refl {runs : List (List Token)} (solid : ∀ run ∈ runs, Solid run) :
    Drifts 0 runs runs := by
  induction runs with
  | nil => exact .nil
  | cons run runs ih =>
    exact .cons (.refl (solid run List.mem_cons_self))
      (ih fun r member => solid r (List.mem_cons_of_mem _ member))

theorem solid (drifts : Drifts n firsts seconds) :
    (∀ run ∈ firsts, Solid run) ∧ ∀ run ∈ seconds, Solid run := by
  induction drifts with
  | nil => simp
  | cons drift _ ih =>
    constructor
    · exact List.forall_mem_cons.mpr ⟨drift.firstSolid, ih.1⟩
    · exact List.forall_mem_cons.mpr ⟨drift.secondSolid, ih.2⟩

theorem same (drifts : Drifts n firsts seconds) (none : n = 0) :
    seconds.map trimmed = firsts.map trimmed := by
  induction drifts with
  | nil => rfl
  | @cons n m _ _ _ _ drift _ ih =>
    have here : n = 0 := by omega
    have there : m = 0 := by omega
    rw [List.map_cons, List.map_cons, drift.same here, ih there]

theorem longer (drifts : Drifts n firsts seconds) :
    (parted .semicolon (seconds.map trimmed)).length =
      (parted .semicolon (firsts.map trimmed)).length + n := by
  induction drifts with
  | nil => rfl
  | @cons n m first second firsts seconds drift later ih =>
    have here := drift.longer
    cases later with
    | nil => simpa [parted] using here
    | cons =>
      simp only [List.map_cons, parted, List.length_append, List.length_cons] at here ih ⊢
      omega

theorem block (w : String) (drifts : Drifts n firsts seconds) {inner body : List Token}
    (lines : Lines firsts inner) (lines' : Lines seconds body) :
    Drift n (.word w :: .openBrace :: (inner ++ [.closeBrace]))
      (.word w :: .openBrace :: (body ++ [.closeBrace])) := by
  obtain ⟨firstSolid, secondSolid⟩ := drifts.solid
  have longer := drifts.longer
  constructor
  · exact .block w inner
  · exact .block w body
  · rw [trimmed_block, trimmed_block, trimmed_lines lines firstSolid,
      trimmed_lines lines' secondSolid]
    simp only [List.length_cons, List.length_append]
    omega
  · intro none
    rw [trimmed_block, trimmed_block, trimmed_lines lines firstSolid,
      trimmed_lines lines' secondSolid, drifts.same none]

end Drifts

end GoSpy
