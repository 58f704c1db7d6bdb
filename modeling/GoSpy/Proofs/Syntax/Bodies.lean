import GoSpy.Proofs.Syntax.Spelled
import GoSpy.Proofs.Syntax.WrittenDeclarations
import GoSpy.Syntax.Statement
/- The bodies of generated methods as tokens. Nothing in them opens or closes a brace, so that a
   reader that only counts braces finds their end. -/
namespace GoSpy

open Scan

theorem BraceFree.append {front back : List Token} (first : BraceFree front)
    (second : BraceFree back) : BraceFree (front ++ back) := by
  intro t member
  rcases List.mem_append.mp member with inFront | inBack
  · exact first t inFront
  · exact second t inBack

theorem BraceFree.cons {t : Token} {rest : List Token} (first : BraceFree [t])
    (later : BraceFree rest) : BraceFree (t :: rest) := first.append later

theorem BraceFree.parted {mark : Token} (apart : BraceFree [mark]) {runs : List (List Token)}
    (each : ∀ run ∈ runs, BraceFree run) : BraceFree (parted mark runs) := by
  induction runs with
  | nil => simp [GoSpy.parted, BraceFree]
  | cons run runs ih =>
    have first := each run List.mem_cons_self
    have later := ih fun other member => each other (List.mem_cons_of_mem _ member)
    by_cases last : runs = []
    · subst last
      exact first
    · rw [parted_cons _ _ last]
      exact first.append (apart.cons later)

def Plain (text : String) : Prop := ∃ tokens, BraceFree tokens ∧ Spells text tokens

theorem Plain.word {w : String} (identifier : isIdentifier w = true) : Plain w := by
  obtain ⟨word, free⟩ := (isIdentifier_iff w).mp identifier
  exact ⟨[.word w], by simp [BraceFree], .word word free⟩

theorem Plain.select {base name : String} (plain : Plain base)
    (identifier : isIdentifier name = true) : Plain (base ++ "." ++ name) := by
  obtain ⟨word, free⟩ := (isIdentifier_iff name).mp identifier
  obtain ⟨c, more, shape, starts, _⟩ := (Text.isWord_iff name).mp word
  obtain ⟨tokens, braceFree, spells⟩ := plain
  refine ⟨tokens ++ [.dot, .word name], braceFree.append (by simp [BraceFree]), ?_⟩
  intro owed rest boundary
  rw [String.append_assoc, String.toList_append, String.toList_append]
  have dot : Flows true ['.'] [.dot] false (name.toList ++ rest) := by
    rw [shape]
    exact .dot true starts
  exact (spells owed _ (boundary_cons (by decide))).append
    (dot.append (Spells.word word free false rest boundary))

theorem plain_runs {texts : List String} (each : ∀ text ∈ texts, Plain text) :
    ∃ runs, (∀ run ∈ runs, BraceFree run) ∧ List.Forall₂ Spells texts runs := by
  induction texts with
  | nil => exact ⟨[], by simp, .nil⟩
  | cons text texts ih =>
    obtain ⟨run, free, first⟩ := each text List.mem_cons_self
    obtain ⟨runs, all, later⟩ := ih fun other member => each other (List.mem_cons_of_mem _ member)
    exact ⟨run :: runs, List.forall_mem_cons.mpr ⟨free, all⟩, .cons first later⟩

theorem Plain.joined {texts : List String} (some : texts ≠ []) (each : ∀ text ∈ texts, Plain text) :
    Plain (joined ", " texts) := by
  obtain ⟨runs, all, spell⟩ := plain_runs each
  exact ⟨_, BraceFree.parted (by simp [BraceFree]) all, .joined separates_comma some spell⟩

theorem Plain.call {function : String} {args : List String} (plain : Plain function)
    (each : ∀ arg ∈ args, Plain arg) :
    Plain (function ++ "(" ++ GoSpy.joined ", " args ++ ")") := by
  obtain ⟨tokens, braceFree, spells⟩ := plain
  obtain ⟨runs, all, spell⟩ := plain_runs each
  have list : BraceFree (.openParen :: (parted .comma runs ++ [.closeParen])) :=
    BraceFree.cons (by simp [BraceFree])
      ((BraceFree.parted (by simp [BraceFree]) all).append (by simp [BraceFree]))
  refine ⟨_, braceFree.append list, ?_⟩
  intro owed rest boundary
  rw [String.append_assoc, String.append_assoc, String.toList_append]
  refine (spells owed _ ?_).append ?_
  · simp only [String.toList_append, List.append_assoc]
    exact boundary_cons (by decide)
  · rw [← String.append_assoc]
    exact Flows.listed (show Token.openParen.standsAlone = true from rfl)
      (show Token.closeParen.standsAlone = true from rfl) spell true rest

mutual

def Expr.isNamed : Expr → Bool
  | .ident name => isIdentifier name
  | .select base name => base.isNamed && isIdentifier name
  | .call function args => function.isNamed && exprsNamed args

def exprsNamed : List Expr → Bool
  | [] => true
  | expr :: rest => expr.isNamed && exprsNamed rest

end

mutual

theorem Expr.plain : ∀ e : Expr, e.isNamed = true → Plain e.spelling
  | .ident _, named => .word named
  | .select base _, named =>
    have parts := Bool.and_eq_true_iff.mp named
    (base.plain parts.1).select parts.2
  | .call function args, named =>
    have parts := Bool.and_eq_true_iff.mp named
    (function.plain parts.1).call (exprs_plain args parts.2)

theorem exprs_plain : ∀ exprs : List Expr, exprsNamed exprs = true →
    ∀ text ∈ exprSpellings exprs, Plain text
  | [], _ => by simp [exprSpellings]
  | e :: rest, named =>
    have parts := Bool.and_eq_true_iff.mp named
    List.forall_mem_cons.mpr ⟨e.plain parts.1, exprs_plain rest parts.2⟩

end

def Statement.isNamed : Statement → Bool
  | .assign target value => target.isNamed && value.isNamed
  | .run call | .defer call => call.isNamed
  | .give values => exprsNamed values

theorem Plain.led {w text : String} (keyword : isKeyword w = true) (plain : Plain text) :
    Plain (w ++ " " ++ text) := by
  obtain ⟨tokens, braceFree, spells⟩ := plain
  refine ⟨.word w :: tokens, .cons (by simp [BraceFree]) braceFree, ?_⟩
  intro owed rest boundary
  rw [String.append_assoc]
  refine (Flows.word (isWord_of_isKeyword keyword) owed (boundary_text (by decide))).cons_text ?_
  rw [String.toList_append]
  exact (Flows.space _ _).append (spells _ rest boundary)

theorem Plain.assign {target value : String} (left : Plain target) (right : Plain value) :
    Plain (target ++ " = " ++ value) := by
  obtain ⟨ts, freeLeft, spellsLeft⟩ := left
  obtain ⟨us, freeRight, spellsRight⟩ := right
  have assign : BraceFree [.assign] := by simp [BraceFree]
  refine ⟨ts ++ ([.assign] ++ us), freeLeft.append (assign.append freeRight), ?_⟩
  intro owed rest boundary
  simp only [String.append_assoc, String.toList_append]
  refine (spellsLeft owed _ (boundary_cons (by decide))).append ?_
  have mark : Flows true " = ".toList [.assign] false (value.toList ++ rest) :=
    (Flows.space true _).append
      ((Flows.token (t := .assign) true rfl).append (.space false _))
  exact mark.append (spellsRight false rest boundary)

theorem Statement.plain {s : Statement} (named : s.isNamed = true) : Plain s.spelling := by
  cases s with
  | assign target value =>
    have parts := Bool.and_eq_true_iff.mp named
    exact (target.plain parts.1).assign (value.plain parts.2)
  | run call => exact call.plain named
  | defer call => exact .led (w := "defer") rfl (call.plain named)
  | give values =>
    cases values with
    | nil =>
      refine ⟨[.word "return"], by simp [BraceFree], fun owed rest boundary => ?_⟩
      exact Flows.word (w := "return") (by decide) owed boundary
    | cons first others =>
      have some : exprSpellings (first :: others) ≠ [] := List.cons_ne_nil _ _
      exact .led (w := "return") rfl (.joined some (exprs_plain (first :: others) named))

end GoSpy
