import GoSpy.Proofs.Syntax.Written
/- What the tokens of a type begin with, and that brackets match in them. Both hold of every
   type that is written at all, by induction on the number of tokens. -/
namespace GoSpy

theorem forall₂_imp_of_mem {α β : Type} {R S : α → β → Prop} {xs : List α} {ys : List β}
    (all : List.Forall₂ R xs ys) (imp : ∀ x y, y ∈ ys → R x y → S x y) :
    List.Forall₂ S xs ys := by
  induction all with
  | nil => exact .nil
  | cons first _ ih =>
    exact .cons (imp _ _ List.mem_cons_self first)
      (ih fun x y member => imp x y (List.mem_cons_of_mem _ member))

theorem exists_of_forall₂ {α β : Type} {R : α → β → Prop} {xs : List α} {ys : List β}
    (all : List.Forall₂ R xs ys) {y : β} (member : y ∈ ys) : ∃ x ∈ xs, R x y := by
  induction all with
  | nil => simp at member
  | cons first _ ih =>
    rcases List.mem_cons.mp member with rfl | later
    · exact ⟨_, List.mem_cons_self, first⟩
    · obtain ⟨x, inList, related⟩ := ih later
      exact ⟨x, List.mem_cons_of_mem _ inList, related⟩

theorem parted_cons (mark : Token) (tokens : List Token) {entries : List (List Token)}
    (more : entries ≠ []) :
    parted mark (tokens :: entries) = tokens ++ mark :: parted mark entries := by
  cases entries with
  | nil => exact absurd rfl more
  | cons => rfl

theorem parted_head (mark : Token) (tokens : List Token) (entries : List (List Token)) :
    ∃ tail, parted mark (tokens :: entries) = tokens ++ tail := by
  cases entries with
  | nil => exact ⟨[], (List.append_nil tokens).symm⟩
  | cons => exact ⟨_, rfl⟩

theorem lines_ended (entries : List (List Token)) : Lines entries (ended entries) := by
  induction entries with
  | nil => exact .none
  | cons entry entries ih =>
    rw [ended, List.map_cons, List.flatten_cons, List.append_assoc]
    exact .more entry ih

theorem ended_append (front back : List (List Token)) :
    ended (front ++ back) = ended front ++ ended back := by
  simp [ended]

theorem ended_cons (entry : List Token) (entries : List (List Token)) (rest : List Token) :
    ended (entry :: entries) ++ rest = entry ++ .semicolon :: (ended entries ++ rest) := by
  simp [ended]

section Lengths

variable {entries : List (List Token)} {entry : List Token}

theorem length_le_parted (mark : Token) (member : entry ∈ entries) :
    entry.length ≤ (parted mark entries).length := by
  induction entries with
  | nil => simp at member
  | cons first rest ih =>
    cases rest with
    | nil => simp_all [parted]
    | cons second rest =>
      simp only [parted, List.length_append, List.length_cons]
      rcases List.mem_cons.mp member with rfl | later
      · omega
      · have := ih later
        omega

theorem length_le_lines {tokens : List Token} (lines : Lines entries tokens)
    (member : entry ∈ entries) : entry.length ≤ tokens.length := by
  induction lines with
  | none => simp at member
  | last => simp_all
  | more first _ ih =>
    simp only [List.length_append, List.length_cons]
    rcases List.mem_cons.mp member with rfl | later
    · omega
    · have := ih later
      omega

end Lengths

namespace BracketsMatch

theorem nil : BracketsMatch [] := fun _ _ => rfl

theorem append {front back : List Token} (first : BracketsMatch front)
    (second : BracketsMatch back) : BracketsMatch (front ++ back) := by
  intro depth rest
  rw [List.append_assoc, first, second]

theorem cons {t : Token} {tokens : List Token} (opens : t ≠ .openBracket)
    (closes : t ≠ .closeBracket) (later : BracketsMatch tokens) : BracketsMatch (t :: tokens) := by
  intro depth rest
  rw [← later depth rest, List.cons_append]
  cases t <;> first | rfl | contradiction

theorem plain {tokens : List Token} (none : ∀ t ∈ tokens, t ≠ .openBracket ∧ t ≠ .closeBracket) :
    BracketsMatch tokens := by
  induction tokens with
  | nil => exact nil
  | cons t rest ih =>
    obtain ⟨opens, closes⟩ := none t List.mem_cons_self
    exact (ih fun u member => none u (List.mem_cons_of_mem _ member)).cons opens closes

theorem enclosed {tokens : List Token} (inner : BracketsMatch tokens) :
    BracketsMatch (.openBracket :: (tokens ++ [.closeBracket])) := by
  intro depth rest
  rw [List.cons_append, List.append_assoc]
  change beyond (depth + 1 + 1) (tokens ++ .closeBracket :: rest) = _
  rw [inner]
  rfl

theorem parted {mark : Token} {entries : List (List Token)} (opens : mark ≠ .openBracket)
    (closes : mark ≠ .closeBracket) (each : ∀ entry ∈ entries, BracketsMatch entry) :
    BracketsMatch (parted mark entries) := by
  induction entries with
  | nil => exact nil
  | cons first rest ih =>
    cases rest with
    | nil => exact each first List.mem_cons_self
    | cons second rest =>
      have later := ih fun e member => each e (List.mem_cons_of_mem _ member)
      exact (each first List.mem_cons_self).append (later.cons opens closes)

theorem lines {entries : List (List Token)} {tokens : List Token} (lines : Lines entries tokens)
    (each : ∀ entry ∈ entries, BracketsMatch entry) : BracketsMatch tokens := by
  induction lines with
  | none => exact nil
  | last entry => exact each entry (by simp)
  | more entry _ ih =>
    have later := ih fun e member => each e (List.mem_cons_of_mem _ member)
    exact (each entry List.mem_cons_self).append (later.cons (by simp) (by simp))

theorem beyond_enclosed {tokens : List Token} (inner : BracketsMatch tokens)
    (rest : List Token) : beyond 0 (.openBracket :: (tokens ++ .closeBracket :: rest)) = rest := by
  change beyond 1 (tokens ++ .closeBracket :: rest) = rest
  rw [inner]
  rfl

section

variable {n : Nat}
variable (types : ∀ type tokens, TypeExpr.Written type tokens → tokens.length < n →
  BracketsMatch tokens)

include types

theorem param {type : TypeExpr} {tokens : List Token}
    (written : TypeExpr.WrittenParam type tokens) (short : tokens.length < n) :
    BracketsMatch tokens := by
  cases written with
  | plain written => exact types _ _ written short
  | variadic written =>
    simp only [List.length_cons] at short
    exact (types _ _ written (by omega)).cons (by simp) (by simp)

theorem term {term : Term} {tokens : List Token} (written : Term.Written term tokens)
    (short : tokens.length < n) : BracketsMatch tokens := by
  cases written with
  | plain written => exact types _ _ written short
  | tilde written =>
    simp only [List.length_cons] at short
    exact (types _ _ written (by omega)).cons (by simp) (by simp)

theorem constraint {type : TypeExpr} {tokens : List Token}
    (written : TypeExpr.WrittenConstraint type tokens) (short : tokens.length < n) :
    BracketsMatch tokens := by
  cases written with
  | plain written => exact types _ _ written short
  | union _ all =>
    refine parted (by simp) (by simp) fun entry member => ?_
    obtain ⟨x, _, written⟩ := exists_of_forall₂ all member
    have := length_le_parted .pipe member
    exact term types written (by omega)

theorem params {fields : List Field} {tokens : List Token} (written : WrittenParams fields tokens)
    (short : tokens.length ≤ n) : BracketsMatch tokens := by
  cases written with
  | @mk _ entries runs _ all =>
    simp only [List.length_cons, List.length_append] at short
    have inner : BracketsMatch (GoSpy.parted .comma runs) := by
      refine parted (by simp) (by simp) fun run member => ?_
      obtain ⟨entry, _, written⟩ := exists_of_forall₂ all member
      have := length_le_parted .comma member
      cases written with
      | bare written => exact param types written (by omega)
      | named free written =>
        simp only [List.length_cons] at this
        exact (param types written (by omega)).cons (by simp) (by simp)
    exact (inner.append (nil.cons (by simp) (by simp))).cons (by simp) (by simp)

theorem signature {signature : Signature} {tokens : List Token}
    (written : Signature.Written signature tokens) (short : tokens.length < n) :
    BracketsMatch tokens := by
  cases written with
  | none written => exact params types written (by omega)
  | single written _ result =>
    simp only [List.length_append] at short
    exact (params types written (by omega)).append (types _ _ result (by omega))
  | several written results =>
    simp only [List.length_append] at short
    exact (params types written (by omega)).append (params types results (by omega))

theorem element {element : Element} {tokens : List Token}
    (written : Element.Written element tokens) (short : tokens.length < n) :
    BracketsMatch tokens := by
  cases written with
  | method _ written =>
    simp only [List.length_cons] at short
    exact (signature types written (by omega)).cons (by simp) (by simp)
  | embedded written => exact constraint types written short

theorem member {member : Member} {tokens : List Token} (written : Member.Written member tokens)
    (short : tokens.length < n) : BracketsMatch tokens := by
  cases written with
  | named _ _ written =>
    simp only [List.length_append] at short
    refine (append (parted (by simp) (by simp) ?_) (types _ _ written (by omega))).append
      (plain (by simp))
    simp only [List.mem_map]
    rintro _ ⟨name, _, rfl⟩
    exact nil.cons (by simp) (by simp)
  | embedded _ written =>
    simp only [List.length_append] at short
    exact (types _ _ written (by omega)).append (plain (by simp))

end

theorem block {runs : List (List Token)} {tokens : List Token} (lined : Lines runs tokens)
    (each : ∀ run ∈ runs, BracketsMatch run) :
    BracketsMatch (.openBrace :: (tokens ++ [.closeBrace])) :=
  ((lines lined each).append (nil.cons (by simp) (by simp))).cons (by simp) (by simp)

theorem below (n : Nat) (type : TypeExpr) (tokens : List Token)
    (written : TypeExpr.Written type tokens) (short : tokens.length < n) :
    BracketsMatch tokens := by
  -- The types inside stand in lists of fields and terms, so the induction is on the length.
  induction n generalizing type tokens with
  | zero => omega
  | succ n ih =>
    cases written with
    | name => exact plain (by simp)
    | qualified =>
      exact plain (by simp)
    | generic _ base _ all =>
      simp only [List.length_append, List.length_cons] at short
      refine (ih _ _ base (by omega)).append (enclosed (parted (by simp) (by simp) ?_))
      intro entry member
      obtain ⟨arg, _, written⟩ := exists_of_forall₂ all member
      have := length_le_parted .comma member
      exact ih _ _ written (by omega)
    | pointer written =>
      simp only [List.length_cons] at short
      exact (ih _ _ written (by omega)).cons (by simp) (by simp)
    | slice written =>
      simp only [List.length_cons] at short
      exact (enclosed nil).append (ih _ _ written (by omega))
    | @array _ _ front tokens sized written =>
      simp only [List.length_append, List.length_cons] at short
      have whole := (enclosed sized.brackets).append (ih _ _ written (by omega))
      simpa using whole
    | @map _ _ front tokens key written =>
      simp only [List.length_append, List.length_cons] at short
      have whole := (enclosed (ih _ _ key (by omega))).append (ih _ _ written (by omega))
      simpa using whole.cons (t := .word "map") (by simp) (by simp)
    | @chan direction _ tokens _ written =>
      have mark : BracketsMatch direction.tokens := plain (by cases direction <;> decide)
      simp only [List.length_append] at short
      have nonempty : 0 < direction.tokens.length := by cases direction <;> decide
      exact mark.append (ih _ _ written (by omega))
    | func written =>
      simp only [List.length_cons] at short
      exact (signature ih written (by omega)).cons (by simp) (by simp)
    | interface _ all lined =>
      simp only [List.length_cons, List.length_append] at short
      refine (block lined fun entry member => ?_).cons (by simp) (by simp)
      obtain ⟨x, _, written⟩ := exists_of_forall₂ all member
      have := length_le_lines lined member
      exact element ih written (by omega)
    | struct all lined =>
      simp only [List.length_cons, List.length_append] at short
      refine (block lined fun entry member => ?_).cons (by simp) (by simp)
      obtain ⟨x, _, written⟩ := exists_of_forall₂ all member
      have := length_le_lines lined member
      exact BracketsMatch.member ih written (by omega)
    | paren written =>
      simp only [List.length_cons, List.length_append] at short
      exact ((ih _ _ written (by omega)).append (nil.cons (by simp) (by simp))).cons
        (by simp) (by simp)

theorem types {types : List TypeExpr} {entries : List (List Token)}
    (all : List.Forall₂ TypeExpr.Written types entries) :
    BracketsMatch (GoSpy.parted .comma entries) := by
  refine parted (by simp) (by simp) fun entry member => ?_
  obtain ⟨type, _, written⟩ := exists_of_forall₂ all member
  exact below (entry.length + 1) type entry written (Nat.lt_succ_self _)

end BracketsMatch

theorem TypeExpr.Written.starts {type : TypeExpr} {tokens : List Token}
    (written : TypeExpr.Written type tokens) :
    ∃ t more, tokens = t :: more ∧ Grammar.startsElement t = true := by
  cases written with
  | name | qualified | pointer | slice | array | map | func | interface | struct | paren =>
    exact ⟨_, _, rfl, rfl⟩
  | generic named base =>
    cases base with
    | name | qualified => exact ⟨_, _, rfl, rfl⟩
    | _ => simp [TypeExpr.isNamed] at named
  | @chan direction => cases direction <;> exact ⟨_, _, rfl, rfl⟩

theorem TypeExpr.Written.behind_bracket {type : TypeExpr} {tokens : List Token}
    (written : TypeExpr.Written type tokens) (bracket : tokens.head? = some .openBracket)
    (rest : List Token) :
    (beyond 0 (tokens ++ rest)).head?.any Grammar.startsElement = true := by
  cases written with
  | name | qualified | pointer | map | func | interface | struct | paren => simp at bracket
  | generic named base =>
    cases base with
    | name | qualified => simp at bracket
    | _ => simp [TypeExpr.isNamed] at named
  | @chan direction => cases direction <;> simp [Direction.tokens] at bracket
  | slice written =>
    obtain ⟨t, more, rfl, starts⟩ := written.starts
    simpa [beyond] using starts
  | @array _ _ front tokens sized written =>
    obtain ⟨t, more, rfl, starts⟩ := written.starts
    rw [List.cons_append, List.append_assoc, List.cons_append,
      sized.brackets.beyond_enclosed]
    simpa using starts

theorem TypeExpr.Written.isParen_of_head {type : TypeExpr} {tokens : List Token}
    (written : TypeExpr.Written type tokens) (opens : tokens.head? = some .openParen) :
    type.isParen = true := by
  cases written with
  | paren => rfl
  | name | qualified | pointer | slice | array | map | func | interface | struct =>
    simp at opens
  | generic named base =>
    cases base with
    | name | qualified => simp at opens
    | _ => simp [TypeExpr.isNamed] at named
  | @chan direction => cases direction <;> simp [Direction.tokens] at opens

theorem TypeExpr.Written.no_ellipsis {t : TypeExpr} {tokens : List Token}
    (written : TypeExpr.Written t tokens) (rest : List Token) :
    (tokens ++ rest).head? ≠ some .ellipsis := by
  obtain ⟨first, more, rfl, starts⟩ := written.starts
  rintro ellipsis
  obtain rfl : first = .ellipsis := by simpa using ellipsis
  cases starts

theorem WrittenParams.opens {fields : List Field} {tokens : List Token}
    (written : WrittenParams fields tokens) : ∃ more, tokens = .openParen :: more := by
  cases written
  exact ⟨_, rfl⟩

theorem Signature.Written.opens {signature : Signature} {tokens : List Token}
    (written : Signature.Written signature tokens) : ∃ more, tokens = .openParen :: more := by
  cases written with
  | none written => exact WrittenParams.opens written
  | single written | several written =>
    obtain ⟨more, rfl⟩ := WrittenParams.opens written
    exact ⟨_, rfl⟩

theorem TypeExpr.Written.isReceive_of_head {type : TypeExpr} {tokens : List Token}
    (written : TypeExpr.Written type tokens) (arrow : tokens.head? = some .arrow) :
    type.isReceive = true := by
  cases written with
  | name | qualified | pointer | slice | array | map | func | interface | struct | paren =>
    simp at arrow
  | generic named base =>
    cases base with
    | name | qualified => simp at arrow
    | _ => simp [TypeExpr.isNamed] at named
  | @chan direction =>
    cases direction with
    | receive => rfl
    | both | send => simp [Direction.tokens] at arrow

theorem TypeExpr.Written.word_free {type : TypeExpr} {word : String} {more : List Token}
    (fits : type.isNamed = true ∨ ∃ base args, type = .generic base args)
    (written : TypeExpr.Written type (.word word :: more)) : isKeyword word = false := by
  cases type with
  | name =>
    cases written with
    | name free => exact free
  | qualified =>
    cases written with
    | qualified free => exact free
  | generic base args =>
    generalize shape : Token.word word :: more = tokens at written
    cases written with
    | generic named base =>
      cases base with
      | name free =>
        cases shape
        exact free
      | qualified free =>
        cases shape
        exact free
      | _ => simp [TypeExpr.isNamed] at named
  | _ => simp [TypeExpr.isNamed] at fits

theorem LengthTokens.head {length : String} {tokens : List Token}
    (sized : LengthTokens length tokens) (rest : List Token) :
    (tokens ++ rest).head? ≠ some .closeBracket := by
  obtain ⟨t, more, rfl⟩ := List.exists_cons_of_ne_nil sized.nonempty
  have read := sized.read []
  rintro closes
  obtain rfl : t = .closeBracket := by simpa using closes
  simp [lengthPart] at read

end GoSpy
