import GoSpy.Proofs.Grammar.LocalDeclarations
/- Loops by their rounds. The entries of a list and the declarations of a file are read one after the
   other, and how much fuel the loop has does not matter as long as there is some for each token. Two
   loops that differ in one round only come to the same end. -/
namespace GoSpy.Grammar

open Cursor Reader

section

variable {α : Type}

/-- What a loop reads, whatever its fuel: items behind semicolons, each with its end, up to `stop`. -/
inductive Rounds (item : Reader α) (ends : Cursor → Except Fault Cursor) (stop : Option Token) :
    Cursor → List α → Cursor → Prop where
  | done {s : Cursor} (stops : s.skipSemicolons.peek = stop) :
      Rounds item ends stop s [] s.skipSemicolons
  | more {s t u v : Cursor} {x : α} {xs : List α} (goes : s.skipSemicolons.peek ≠ stop)
      (read : item s.skipSemicolons = .ok (x, t)) (ended : ends t = .ok u)
      (later : Rounds item ends stop u xs v) : Rounds item ends stop s (x :: xs) v

inductive RoundAt (item : Reader α) (ends : Cursor → Except Fault Cursor) (stop : Option Token) :
    Cursor → Cursor → Prop where
  | first {s : Cursor} (goes : s.skipSemicolons.peek ≠ stop) :
      RoundAt item ends stop s s.skipSemicolons
  | later {s t u v : Cursor} {x : α} (goes : s.skipSemicolons.peek ≠ stop)
      (read : item s.skipSemicolons = .ok (x, t)) (ended : ends t = .ok u)
      (there : RoundAt item ends stop u v) : RoundAt item ends stop s v

namespace Rounds

variable {item : Reader α} {s u : Cursor} {xs : List α} {fuel : Nat}

theorem of_entries {close : Token} {before : List α}
    (run : entries close (fun _ => item) fuel before s = .ok (xs, u)) :
    Rounds item Cursor.endEntry (some close) s xs u := by
  induction fuel generalizing before s xs with
  | zero => cases run
  | succ fuel ih =>
    unfold entries at run
    dsimp only at run
    split at run
    · obtain ⟨rfl, rfl⟩ := Prod.mk.inj (Except.ok.inj run)
      exact .done ‹_›
    · obtain ⟨⟨x, t⟩, read, run⟩ := bind_eq_ok.mp run
      obtain ⟨v, ended, run⟩ := bind_eq_ok.mp run
      obtain ⟨⟨later, w⟩, further, same⟩ := bind_eq_ok.mp run
      obtain ⟨rfl, rfl⟩ := Prod.mk.inj (Except.ok.inj same)
      exact .more ‹_› read ended (ih further)

theorem of_decls {file : String} {ds : List Decl} (run : decls file fuel s = .ok (ds, u)) :
    Rounds (decl file) endDecl none s ds u := by
  induction fuel generalizing s ds with
  | zero => cases run
  | succ fuel ih =>
    unfold decls at run
    dsimp only at run
    split at run
    · obtain ⟨rfl, rfl⟩ := Prod.mk.inj (Except.ok.inj run)
      exact .done ‹_›
    · obtain ⟨⟨x, t⟩, read, run⟩ := bind_eq_ok.mp run
      obtain ⟨v, ended, run⟩ := bind_eq_ok.mp run
      obtain ⟨⟨later, w⟩, further, same⟩ := bind_eq_ok.mp run
      obtain ⟨rfl, rfl⟩ := Prod.mk.inj (Except.ok.inj same)
      exact .more ‹_› read ended (ih further)

theorem past_round {ends : Cursor → Except Fault Cursor} {s t v : Cursor} {x : α}
    (takes : ∀ s x t, item s = .ok (x, t) → s.Past 1 t)
    (goesOn : ∀ s t, ends s = .ok t → s.Past 0 t)
    (read : item s.skipSemicolons = .ok (x, t)) (ended : ends t = .ok v) : s.Past 1 v :=
  ((past_skipSemicolons s).trans ((takes _ _ _ read).trans (goesOn _ _ ended))).weaken (by omega)

theorem endEntry_past (s t : Cursor) (run : s.endEntry = .ok t) : s.Past 0 t :=
  Safe.past (endEntry_safe s) run

theorem endDecl_past (s t : Cursor) (run : endDecl s = .ok t) : s.Past 0 t :=
  Safe.past (endDecl_safe s) run

theorem entries_eq {close : Token} (takes : ∀ s x t, item s = .ok (x, t) → s.Past 1 t)
    (rounds : Rounds item Cursor.endEntry (some close) s xs u) (before : List α)
    (enough : s.rest.length < fuel) :
    entries close (fun _ => item) fuel before s = .ok (xs, u) := by
  induction rounds generalizing fuel before with
  | done stops =>
    obtain ⟨fuel, rfl⟩ := Nat.exists_eq_add_one_of_ne_zero (by omega : fuel ≠ 0)
    simp only [entries, if_pos stops]
  | @more s t v _ x _ goes read ended _ ih =>
    obtain ⟨fuel, rfl⟩ := Nat.exists_eq_add_one_of_ne_zero (by omega : fuel ≠ 0)
    have further := (past_round takes endEntry_past read ended).length
    have shorter : v.rest.length < fuel := by omega
    simp only [entries, if_neg goes, read, bind, Except.bind, ended, ih (x :: before) shorter]

theorem decls_eq {file : String} {ds : List Decl}
    (rounds : Rounds (decl file) endDecl none s ds u) (enough : s.rest.length < fuel) :
    decls file fuel s = .ok (ds, u) := by
  induction rounds generalizing fuel with
  | done stops =>
    obtain ⟨fuel, rfl⟩ := Nat.exists_eq_add_one_of_ne_zero (by omega : fuel ≠ 0)
    simp only [decls, if_pos stops]
  | @more s t v _ d _ goes read ended _ ih =>
    obtain ⟨fuel, rfl⟩ := Nat.exists_eq_add_one_of_ne_zero (by omega : fuel ≠ 0)
    have further := (past_round (decl_takes file) endDecl_past read ended).length
    have shorter : v.rest.length < fuel := by omega
    simp only [decls, if_neg goes, read, bind, Except.bind, ended, ih shorter]

end Rounds

/- Two texts that meet behind the tokens that differ -/

section

variable {after after' : List Lexeme}

theorem RoundAt.past {item : Reader α} {ends : Cursor → Except Fault Cursor} {stop : Option Token}
    {s v : Cursor} (takes : ∀ s x t, item s = .ok (x, t) → s.Past 1 t)
    (goesOn : ∀ s t, ends s = .ok t → s.Past 0 t) (there : RoundAt item ends stop s v) :
    s.Past 0 v := by
  induction there with
  | first => exact past_skipSemicolons _
  | later _ read ended _ ih =>
    exact ((Rounds.past_round takes goesOn read ended).trans ih).weaken (by omega)

/-- Up to the round in which they differ the two loops follow each other, and from there they are
    the same if that round is. -/
theorem Rounds.meet {item : Reader α} {ends : Cursor → Except Fault Cursor} {stop : Option Token}
    (each : ∀ n, Reader.Follows after after' 1 n item item) (steps : StepFollows after after' ends)
    {s s' u v : Cursor} {xs : List α} (there : RoundAt item ends stop s v)
    (inFront : after.length < v.rest.length)
    (same : ∀ v', Twins after after' v v' → v'.endLine = v.endLine →
      ∀ r, item v = .ok r → item v' = .ok r)
    (rounds : Rounds item ends stop s xs u) (twins : Twins after after' s s')
    (sameEnd : s'.endLine = s.endLine) : Rounds item ends stop s' xs u := by
  have takes : ∀ s x t, item s = .ok (x, t) → s.Past 1 t := fun _ _ _ run => (each 0).past run
  have goesOn : ∀ s t, ends s = .ok t → s.Past 0 t := fun s t run => (steps s s t run).1
  have peek {s s' : Cursor} (twins : Twins after after' s s') (goes : s.skipSemicolons.peek ≠ stop) :
      s'.skipSemicolons.peek ≠ stop := by
    rwa [twins.skipSemicolons.looks.peek]
  induction there generalizing s' xs with
  | first goes =>
    cases rounds with
    | done stops => exact absurd stops goes
    | more _ read ended later =>
      exact .more (peek twins goes) (same _ twins.skipSemicolons sameEnd _ read) ended later
  | @later s t w v x goes read ended there ih =>
    cases rounds with
    | done stops => exact absurd stops goes
    | more _ read₁ ended₁ later =>
      obtain ⟨rfl, rfl⟩ := Prod.mk.inj (Except.ok.inj (read.symm.trans read₁))
      obtain rfl := Except.ok.inj (ended.symm.trans ended₁)
      -- A round in front of the one that differs ends in front of it too, so it is followed.
      have behind := (there.past takes goesOn).length
      obtain ⟨past₁, both⟩ := each (s'.skipSemicolons.rest.length + 1) _ s'.skipSemicolons _ _ read
      have past₂ := goesOn _ _ ended
      have := past₂.length
      obtain ⟨t', read', past₁', twins₁⟩ := both twins.skipSemicolons (Nat.lt_succ_self _) (by omega)
      obtain ⟨w', ended', past₂', twins₂⟩ := (steps t t' w ended).2 twins₁ (by omega)
      refine .more (peek twins goes) read' ended' (ih inFront same later twins₂ ?_)
      have first : t.endLine = s.endLine := past₁.endLine
      have first' : t'.endLine = s'.endLine := past₁'.endLine
      rw [past₂.endLine, past₂'.endLine, first, first', sameEnd]

theorem follows_up_to {head : Reader α} {k : Nat}
    (each : ∀ n, Reader.Follows after after' k n head head) {s s' : Cursor} {x : α} {o : Lexeme}
    {endLine : Nat} (run : head s = .ok (x, ⟨o :: after, endLine⟩))
    (twins : Twins after after' s s') (sameEnd : s'.endLine = s.endLine) :
    head s' = .ok (x, ⟨o :: after', endLine⟩) := by
  obtain ⟨past, both⟩ := each (s'.rest.length + 1) s s' x _ run
  obtain ⟨t', run', past', xs, -, rest, rest'⟩ := both twins (Nat.lt_succ_self _) (by simp)
  obtain rfl : [o] = xs := List.append_cancel_right rest
  have ends : t'.endLine = endLine := past'.endLine.trans (sameEnd.trans past.endLine.symm)
  rw [run', ← ends, ← show t'.rest = o :: after' from rest']

end

end

end GoSpy.Grammar
