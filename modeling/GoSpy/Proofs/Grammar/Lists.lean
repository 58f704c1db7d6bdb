import GoSpy.Proofs.Grammar.Repetition
import GoSpy.Proofs.Syntax.WrittenShape
import GoSpy.Proofs.Syntax.Alike
/- Names with their arguments, type sets and lists in brackets are read from the tokens they are
   written with, given that the types inside them are. What follows may be anything that no type
   goes on with. -/
namespace GoSpy.Grammar

open Cursor Reader

/-- Types that are the same apart from the lines of methods. -/
abbrev SameType : TypeExpr → TypeExpr → Prop := TypeExpr.Alike Eq fun _ _ => True

def endsType : List Token → Bool
  | [] => true
  | t :: _ =>
    match t with
    | .comma | .semicolon | .pipe | .string _ => true
    | .closeParen | .closeBracket | .closeBrace | .openBrace => true
    | _ => false

def Stops (rest : List Token) : Prop := endsType rest = true

theorem Stops.head {rest : List Token} (stops : Stops rest) {t : Token}
    (goesOn : endsType [t] = false) : rest.head? ≠ some t := by
  cases rest with
  | nil => simp
  | cons u more =>
    rw [List.head?_cons, Ne, Option.some.injEq]
    rintro rfl
    have same : endsType (u :: more) = endsType [u] := rfl
    rw [Stops, same, goesOn] at stops
    cases stops

theorem stops_of_head {t : Token} {rest : List Token} (ends : endsType [t] = true)
    (head : rest.head? = some t) : Stops rest := by
  obtain ⟨more, rfl⟩ := List.head?_eq_some_iff.mp head
  exact ends

def ReadsTypes (n : Nat) (type : Reader TypeExpr) : Prop :=
  ∀ t tokens, TypeExpr.Written t tokens → tokens.length < n →
    Reads type tokens Stops (SameType t)

variable {n : Nat} {type : Reader TypeExpr}

theorem typeName_base (type : Reader TypeExpr) {base : TypeExpr} {tokens rest : List Token}
    {s : Cursor} (named : base.isNamed = true) (written : TypeExpr.Written base tokens)
    (shape : s.tokens = tokens ++ rest) (noDot : rest.head? ≠ some .dot) :
    ∃ s', s'.tokens = rest ∧ typeName type s =
      if rest.head? ≠ some .openBracket || rest[1]? = some .closeBracket then .ok (base, s')
      else
        commaItems .closeBracket type s'.advance.fuel s'.advance >>= fun r =>
          r.2.expect .closeBracket >>= fun behind => .ok (.generic base r.1, behind) := by
  cases written with
  | @name name free =>
    have behind : s.advance.tokens = rest := advance_cons shape
    have absent : s.advance.eat? .dot = none := eat_other (by rw [behind]; exact noDot)
    refine ⟨s.advance, behind, ?_⟩
    simp only [typeName, name_cons free shape, absent, bind, Except.bind, peek_eq, peekAt_eq, behind]
  | @qualified package name freePackage free =>
    have behind := advance_cons shape
    have behind₂ := advance_cons behind
    have behind₃ : s.advance.advance.advance.tokens = rest := advance_cons behind₂
    refine ⟨s.advance.advance.advance, behind₃, ?_⟩
    simp only [typeName, name_cons freePackage shape, eat_cons behind, name_cons free behind₂,
      bind, Except.bind, peek_eq, peekAt_eq, behind₃]
  | _ => simp [TypeExpr.isNamed] at named

theorem sameType_named {base : TypeExpr} (named : base.isNamed = true) : SameType base base := by
  cases base with
  | name name => exact .name name
  | qualified package name => exact .qualified name rfl
  | _ => simp [TypeExpr.isNamed] at named

theorem typeName_plain {base : TypeExpr} {tokens : List Token} (named : base.isNamed = true)
    (written : TypeExpr.Written base tokens) :
    Reads (typeName type) tokens Stops (SameType base) := by
  intro s rest shape stops
  obtain ⟨s', behind, run⟩ := typeName_base type named written shape (stops.head rfl)
  have plain : rest.head? ≠ some .openBracket := stops.head rfl
  rw [if_pos (by simp [plain])] at run
  exact ⟨base, s', run, behind, sameType_named named⟩

theorem types_items (close : Token) (closing : startsElement close = false)
    (inner : ReadsTypes n type) {types : List TypeExpr} {entries : List (List Token)}
    (all : List.Forall₂ TypeExpr.Written types entries)
    (short : ∀ entry ∈ entries, entry.length < n) :
    List.Forall₂ (ItemReads close type Stops SameType) types entries := by
  refine forall₂_imp_of_mem all fun t tokens member written => ⟨?_, ?_⟩
  · obtain ⟨first, more, rfl, starts⟩ := written.starts
    refine ⟨first, more, rfl, ?_⟩
    rintro rfl
    rw [closing] at starts
    cases starts
  · exact inner t tokens written (short tokens member)

def genericTokens (front : List Token) (entries : List (List Token)) : List Token :=
  front ++ .openBracket :: (parted .comma entries ++ [.closeBracket])

theorem typeName_generic (inner : ReadsTypes n type) {base : TypeExpr} {args : List TypeExpr}
    {front : List Token} {entries : List (List Token)} (named : base.isNamed = true)
    (written : TypeExpr.Written base front) (nonempty : args ≠ [])
    (all : List.Forall₂ TypeExpr.Written args entries)
    (short : (genericTokens front entries).length ≤ n) :
    Reads (typeName type) (genericTokens front entries) Stops
      (SameType (.generic base args)) := by
  intro s rest shape stops
  simp only [genericTokens, List.append_assoc, List.cons_append, List.nil_append] at shape
  simp only [genericTokens, List.length_append, List.length_cons] at short
  have shorter : ∀ entry ∈ entries, entry.length < n := fun entry member => by
    have := length_le_parted .comma member
    omega
  have items := types_items .closeBracket rfl inner all shorter
  obtain ⟨s', behind, run⟩ := typeName_base type named written shape (by simp)
  have notEmpty : (parted .comma entries ++ .closeBracket :: rest).head? ≠ some .closeBracket := by
    obtain _ | ⟨first, others⟩ := all
    · exact absurd rfl nonempty
    · obtain ⟨t, more, rfl, starts⟩ := first.starts
      obtain ⟨tail, head⟩ := parted_head .comma (t :: more) _
      rw [head]
      rintro closes
      obtain rfl : t = .closeBracket := by simpa using closes
      cases starts
  have reads := commaItems_reads_all (fun _ => stops_of_head rfl) (fun _ => stops_of_head rfl)
    (by simp) items
  obtain ⟨args', closing, runs, behind₂, same⟩ := reads s'.advance _ (advance_cons behind) rfl
  rw [if_neg (by simpa [List.head?_eq_getElem?] using notEmpty)] at run
  refine ⟨.generic base args', closing.advance, ?_, advance_cons behind₂, ?_⟩
  · dsimp only at runs
    simp only [run, runs, expect_cons behind₂, bind, Except.bind]
  · exact .generic (sameType_named named) same

/- Type sets -/

abbrev SameTerm : Term → Term → Prop := Term.Alike Eq fun _ _ => True

theorem term_reads (inner : ReadsTypes n type) {x : Term} {tokens : List Token}
    (written : Term.Written x tokens) (short : tokens.length < n) :
    Reads (term type) tokens Stops (SameTerm x) := by
  intro s rest shape stops
  cases written with
  | plain written =>
    obtain ⟨t', s', run, behind, same⟩ := inner _ _ written short s rest shape stops
    obtain ⟨first, more, rfl, starts⟩ := written.starts
    have absent : s.eat? .tilde = none := by
      refine eat_other ?_
      rw [shape]
      rintro tilde
      obtain rfl : first = .tilde := by simpa using tilde
      cases starts
    exact ⟨⟨false, t'⟩, s', by simp [term, absent, run, bind, Except.bind], behind, .mk false same⟩
  | tilde written =>
    simp only [List.length_cons] at short
    obtain ⟨t', s', run, behind, same⟩ :=
      inner _ _ written (by omega) s.advance rest (advance_cons shape) stops
    refine ⟨⟨true, t'⟩, s', ?_, behind, .mk true same⟩
    simp [term, eat_cons shape, run, bind, Except.bind]

theorem sameType_ofTerms {terms terms' : List Term} (all : List.Forall₂ SameTerm terms terms') :
    SameType (ofTerms terms) (ofTerms terms') := by
  unfold ofTerms
  split
  · obtain _ | ⟨first, none⟩ := all
    cases none
    cases first with
    | mk _ types => exact types
  · rename_i several
    split
    · obtain _ | ⟨first, none⟩ := all
      cases none
      cases first with
      | mk _ types => exact absurd rfl (several _)
    · exact .union all

theorem constraint_terms {t : TypeExpr} {tokens : List Token}
    (written : TypeExpr.WrittenConstraint t tokens) :
    ∃ terms entries, terms ≠ [] ∧ List.Forall₂ Term.Written terms entries ∧
      tokens = parted .pipe entries ∧ t = ofTerms terms := by
  cases written with
  | plain written =>
    exact ⟨[⟨false, t⟩], [tokens], by simp, .cons (.plain written) .nil, rfl, rfl⟩
  | @union terms entries set all =>
    refine ⟨terms, entries, ?_, all, rfl, ?_⟩
    · rintro rfl
      cases set
    · unfold ofTerms
      split
      · cases set
      · rfl

def StopsSet (rest : List Token) : Prop := Stops rest ∧ rest.head? ≠ some .pipe

theorem constraint_reads (inner : ReadsTypes n type) {t : TypeExpr} {tokens : List Token}
    (written : TypeExpr.WrittenConstraint t tokens) (short : tokens.length < n) :
    Reads (constraint type) tokens StopsSet (SameType t) := by
  intro s rest shape stops
  obtain ⟨terms, entries, several, all, rfl, rfl⟩ := constraint_terms written
  have each : List.Forall₂ (fun x run => Reads (term type) run Stops (SameTerm x)) terms entries :=
    forall₂_imp_of_mem all fun x run member written => by
      have := length_le_parted .pipe member
      exact term_reads inner written (by omega)
  have enough : entries.length ≤ s.fuel := by
    have nonempty : ∀ run ∈ entries, run ≠ [] := fun run member => by
      obtain ⟨x, _, written⟩ := exists_of_forall₂ all member
      cases written with
      | plain written =>
        obtain ⟨first, more, rfl, _⟩ := written.starts
        simp
      | tilde => simp
    have := length_parted .pipe nonempty
    rw [fuel_eq, shape, List.length_append]
    omega
  obtain ⟨terms', s', run, behind, same⟩ :=
    separated_reads several (fun _ => stops_of_head rfl) each enough s rest shape stops
  refine ⟨ofTerms terms', s', ?_, behind, sameType_ofTerms same⟩
  simp [constraint, run, bind, Except.bind]

/- Entries of lists in brackets -/

theorem bracketFollowsName_eq (s : Cursor) :
    bracketFollowsName s = (beyond 0 s.tokens.tail).head?.any startsElement := by
  unfold bracketFollowsName tokens
  rw [← List.map_tail, ← behindBracket_tokens, List.head?_map, Option.any_map]

def namedEntry (close : Token) : List Token → Bool
  | .word w :: rest =>
    !isKeyword w &&
      match rest with
      | [] | .comma :: _ | .dot :: _ | .pipe :: _ => false
      | .openBracket :: _ => (beyond 0 rest).head?.any startsElement
      | t :: _ =>
        t != close &&
          match t with
          | .word _ | .star | .openParen | .arrow | .ellipsis | .tilde => true
          | _ => false
  | _ => false

theorem startsWithName_eq (close : Token) (s : Cursor) :
    startsWithName close s = namedEntry close s.tokens := by
  unfold startsWithName
  rw [nextIsName_eq, peekAt_eq, bracketFollowsName_eq]
  cases s.tokens with
  | nil => rfl
  | cons t rest =>
    cases t <;> try rfl
    cases rest with
    | nil => rfl
    | cons u more => cases u <;> rfl

def ClosesList (close : Token) : Prop := close = .closeParen ∨ close = .closeBracket

def EndsBare (close : Token) (rest : List Token) : Prop :=
  rest.head? = some .comma ∨ rest.head? = some .pipe ∨ rest.head? = some close

theorem bare_entry {close : Token} (closing : ClosesList close) {t : TypeExpr}
    {tokens rest : List Token} (written : TypeExpr.Written t tokens)
    (ends : EndsBare close rest) : namedEntry close (tokens ++ rest) = false := by
  cases written with
  | name =>
    obtain ⟨u, more, rfl⟩ : ∃ u more, rest = u :: more := by
      cases rest with
      | nil => simp [EndsBare] at ends
      | cons u more => exact ⟨u, more, rfl⟩
    simp only [EndsBare, List.head?_cons, Option.some.injEq] at ends
    rcases ends with rfl | rfl | rfl
    · simp [namedEntry]
    · simp [namedEntry]
    · rcases closing with rfl | rfl <;> simp [namedEntry]
  | qualified => simp [namedEntry]
  | @generic base args front entries named written nonempty all =>
    cases written with
    | qualified => simp [namedEntry]
    | name =>
      have behind := (BracketsMatch.types all).beyond_enclosed rest
      simp only [List.cons_append, List.append_assoc, List.nil_append, namedEntry, behind]
      rcases ends with head | head | head <;> rw [head]
      · simp [startsElement]
      · simp [startsElement]
      · rcases closing with rfl | rfl <;> simp [startsElement]
    | _ => simp [TypeExpr.isNamed] at named
  | pointer | slice | array | paren => rfl
  | map | func | interface | struct => rfl
  | @chan direction => cases direction <;> rfl

def startsEntry (t : Token) : Bool := startsElement t || t == .ellipsis || t == .tilde

theorem named_entry {close : Token} (closing : ClosesList close) {name : String}
    (free : isKeyword name = false) {t : Token} {rest : List Token} (starts : startsEntry t = true)
    (bracket : t = .openBracket → (beyond 0 (t :: rest)).head?.any startsElement = true) :
    namedEntry close (.word name :: t :: rest) = true := by
  cases t with
  | openBracket => simpa [namedEntry, free] using bracket rfl
  | word | star | openParen | arrow | ellipsis | tilde =>
    rcases closing with rfl | rfl <;> simp [namedEntry, free]
  | _ => simp [startsEntry, startsElement] at starts

/-- What reading a list in brackets takes to know of the types of its entries. -/
structure EntryTypes (n : Nat) (type : Reader TypeExpr) (constrained : Bool)
    (types : TypeExpr → List Token → Prop) : Prop where
  reads : ∀ t tokens, types t tokens → tokens.length < n →
    Reads (entryType type constrained) tokens StopsSet (SameType t)
  starts : ∀ t tokens, types t tokens → ∃ u more, tokens = u :: more ∧ startsEntry u = true
  bracket : ∀ t tokens rest, types t tokens → tokens.head? = some .openBracket →
    (beyond 0 (tokens ++ rest)).head?.any startsElement = true
  bare : ∀ close t tokens rest, ClosesList close → types t tokens →
    (rest.head? = some .comma ∨ rest.head? = some close) →
    namedEntry close (tokens ++ rest) = false

theorem paramTypes (inner : ReadsTypes n type) :
    EntryTypes n type false TypeExpr.WrittenParam where
  reads := by
    intro t tokens written short s rest shape stops
    cases written with
    | plain written =>
      obtain ⟨t', s', run, behind, same⟩ := inner _ _ written short s rest shape stops.1
      have absent : s.eat? .ellipsis = none :=
        eat_other (shape ▸ written.no_ellipsis rest)
      exact ⟨t', s', by simp [entryType, absent, run], behind, same⟩
    | variadic written =>
      simp only [List.length_cons] at short
      obtain ⟨t', s', run, behind, same⟩ :=
        inner _ _ written (by omega) s.advance rest (advance_cons shape) stops.1
      refine ⟨.variadic t', s', ?_, behind, .variadic same⟩
      simp [entryType, eat_cons shape, run, bind, Except.bind]
  starts := by
    intro t tokens written
    cases written with
    | plain written =>
      obtain ⟨first, more, rfl, starts⟩ := written.starts
      exact ⟨first, more, rfl, by simp [startsEntry, starts]⟩
    | variadic => exact ⟨_, _, rfl, rfl⟩
  bracket := by
    intro t tokens rest written bracket
    cases written with
    | plain written => exact written.behind_bracket bracket rest
    | variadic => simp at bracket
  bare := by
    intro close t tokens rest closing written ends
    cases written with
    | plain written => exact bare_entry closing written (ends.imp id Or.inr)
    | variadic => rfl

theorem constraint_front {t : TypeExpr} {tokens : List Token}
    (written : TypeExpr.WrittenConstraint t tokens) :
    (∃ more, tokens = .tilde :: more) ∨
      ∃ t' front tail, TypeExpr.Written t' front ∧ tokens = front ++ tail ∧
        (tail = [] ∨ tail.head? = some .pipe) := by
  obtain ⟨terms, entries, nonempty, all, rfl, _⟩ := constraint_terms written
  cases all with
  | nil => exact absurd rfl nonempty
  | @cons x front terms entries first others =>
    cases first with
    | @plain t' front single =>
      refine Or.inr ⟨t', front, ?_⟩
      cases entries with
      | nil => exact ⟨[], single, (List.append_nil front).symm, Or.inl rfl⟩
      | cons second entries => exact ⟨_, single, rfl, Or.inr rfl⟩
    | @tilde _ tokens _ =>
      obtain ⟨tail, head⟩ := parted_head .pipe (.tilde :: tokens) entries
      exact Or.inl ⟨tokens ++ tail, head⟩

theorem constraintTypes (inner : ReadsTypes n type) :
    EntryTypes n type true TypeExpr.WrittenConstraint where
  reads := by
    intro t tokens written short s rest shape stops
    obtain ⟨t', s', run, behind, same⟩ := constraint_reads inner written short s rest shape stops
    have absent : s.eat? .ellipsis = none := by
      refine eat_other ?_
      rw [shape]
      rcases constraint_front written with ⟨more, rfl⟩ | ⟨_, front, tail, single, rfl, _⟩
      · simp
      · rw [List.append_assoc]
        exact single.no_ellipsis _
    exact ⟨t', s', by simp [entryType, absent, run], behind, same⟩
  starts := by
    intro t tokens written
    rcases constraint_front written with ⟨more, rfl⟩ | ⟨_, front, tail, single, rfl, _⟩
    · exact ⟨_, more, rfl, rfl⟩
    · obtain ⟨first, more, rfl, starts⟩ := single.starts
      exact ⟨first, more ++ tail, rfl, by simp [startsEntry, starts]⟩
  bracket := by
    intro t tokens rest written bracket
    rcases constraint_front written with ⟨more, rfl⟩ | ⟨_, front, tail, single, rfl, _⟩
    · simp at bracket
    · rw [List.append_assoc]
      refine single.behind_bracket ?_ _
      obtain ⟨first, more, rfl, _⟩ := single.starts
      exact bracket
  bare := by
    intro close t tokens rest closing written ends
    rcases constraint_front written with ⟨more, rfl⟩ | ⟨_, front, tail, single, rfl, set⟩
    · rfl
    · rw [List.append_assoc]
      refine bare_entry closing single ?_
      rcases set with rfl | pipe
      · exact ends.imp id Or.inr
      · obtain ⟨more, rfl⟩ := List.head?_eq_some_iff.mp pipe
        exact Or.inr (Or.inl rfl)

abbrev SameField : Field → Field → Prop := Field.Alike Eq fun _ _ => True

def SameEntry (e e' : Entry) : Prop := e.1 = e'.1 ∧ SameType e.2 e'.2

theorem entry_reads {constrained : Bool} {types : TypeExpr → List Token → Prop}
    (entryTypes : EntryTypes n type constrained types) {close : Token}
    (closing : ClosesList close) {e : Entry} {tokens : List Token}
    (written : Entry.Written types e tokens) (short : tokens.length < n) :
    Reads (entry type close constrained) tokens
      (fun rest => rest.head? = some .comma ∨ rest.head? = some close) (SameEntry e) := by
  intro s rest shape ends
  have stops : StopsSet rest := by
    rcases ends with head | head
    · exact ⟨stops_of_head rfl head, by simp [head]⟩
    · rcases closing with rfl | rfl <;> exact ⟨stops_of_head rfl head, by simp [head]⟩
  cases written with
  | bare written =>
    obtain ⟨t', s', run, behind, same⟩ := entryTypes.reads _ _ written short s rest shape stops
    have bare : startsWithName close s = false := by
      rw [startsWithName_eq, shape]
      exact entryTypes.bare close _ _ rest closing written ends
    exact ⟨(none, t'), s', by simp [entry, bare, run, bind, Except.bind], behind, rfl, same⟩
  | named free written =>
    simp only [List.length_cons] at short
    obtain ⟨t', s', run, behind, same⟩ :=
      entryTypes.reads _ _ written (by omega) s.advance rest (advance_cons shape) stops
    have named : startsWithName close s = true := by
      obtain ⟨first, more, rfl, starts⟩ := entryTypes.starts _ _ written
      rw [startsWithName_eq, shape]
      refine named_entry closing free starts ?_
      rintro rfl
      exact entryTypes.bracket _ _ rest written rfl
    refine ⟨(some _, t'), s', ?_, behind, rfl, same⟩
    simp [entry, named, name_cons free shape, run, bind, Except.bind]

theorem shareTypes_same {es es' : List Entry} (all : List.Forall₂ SameEntry es es')
    (pending : List String) {fields : List Field} (shared : shareTypes es pending = some fields) :
    ∃ fields', shareTypes es' pending = some fields' ∧ List.Forall₂ SameField fields fields' := by
  induction all generalizing pending fields with
  | nil =>
    cases pending with
    | nil =>
      obtain rfl := Option.some.inj shared
      exact ⟨[], rfl, .nil⟩
    | cons => cases shared
  | @cons e e' es es' first _ ih =>
    obtain ⟨name, t⟩ := e
    obtain ⟨name', t'⟩ := e'
    obtain ⟨rfl, same⟩ : name = name' ∧ SameType t t' := first
    cases name with
    | some name =>
      simp only [shareTypes, Option.map_eq_some_iff] at shared
      obtain ⟨later, shared, rfl⟩ := shared
      obtain ⟨later', shared', all⟩ := ih [] shared
      exact ⟨_, by simp [shareTypes, shared'], .cons (.mk _ same) all⟩
    | none =>
      cases same with
      | name name => exact ih (pending ++ [name]) shared
      | _ => simp [shareTypes] at shared

theorem fieldsOf_same {es es' : List Entry} (all : List.Forall₂ SameEntry es es')
    {fields : List Field} (grouped : fieldsOf es = some fields) :
    ∃ fields', fieldsOf es' = some fields' ∧ List.Forall₂ SameField fields fields' := by
  have names : (es.all fun e => e.1.isNone) = es'.all fun e => e.1.isNone := by
    clear grouped
    induction all with
    | nil => rfl
    | cons first _ ih => simp [first.1, ih]
  unfold fieldsOf at grouped ⊢
  rw [names] at grouped
  split at grouped
  · rename_i bare
    rw [if_pos bare]
    obtain rfl := Option.some.inj grouped
    refine ⟨_, rfl, ?_⟩
    rw [List.forall₂_map_left_iff, List.forall₂_map_right_iff]
    exact all.imp fun e e' same => .mk [] same.2
  · rename_i named
    rw [if_neg named]
    exact shareTypes_same all [] grouped

theorem fieldList_reads {constrained : Bool} {types : TypeExpr → List Token → Prop}
    (entryTypes : EntryTypes n type constrained types) {«open» close : Token}
    (closing : ClosesList close) {fields : List Field} {entries : List Entry}
    {runs : List (List Token)} (grouped : fieldsOf entries = some fields)
    (all : List.Forall₂ (Entry.Written types) entries runs)
    (short : (listTokens «open» close runs).length ≤ n) :
    Reads (fieldList type «open» close constrained) (listTokens «open» close runs)
      (fun _ => True) (List.Forall₂ SameField fields) := by
  intro s rest shape _
  simp only [listTokens, List.cons_append, List.append_assoc, List.nil_append] at shape
  simp only [listTokens, List.length_cons, List.length_append] at short
  have items : List.Forall₂ (ItemReads close (entry type close constrained)
      (fun rest => rest.head? = some .comma ∨ rest.head? = some close) SameEntry) entries runs := by
    refine forall₂_imp_of_mem all fun e run member written => ?_
    have := length_le_parted .comma member
    refine ⟨?_, entry_reads entryTypes closing written (by omega)⟩
    cases written with
    | bare written =>
      obtain ⟨u, more, rfl, starts⟩ := entryTypes.starts _ _ written
      refine ⟨u, more, rfl, ?_⟩
      rintro rfl
      rcases closing with rfl | rfl <;> cases starts
    | named => exact ⟨_, _, rfl, by rcases closing with rfl | rfl <;> simp⟩
  have behind := advance_cons shape
  obtain ⟨entries', s', run, behind₂, same⟩ := commaItems_reads_all (fun _ => Or.inl)
    (fun _ => Or.inr) (by rcases closing with rfl | rfl <;> simp) items s.advance _ behind rfl
  obtain ⟨fields', grouped', all'⟩ := fieldsOf_same same grouped
  refine ⟨fields', s'.advance, ?_, advance_cons behind₂, all'⟩
  simp [fieldList, expect_cons shape, run, expect_cons behind₂, grouped', bind, Except.bind]

/- Signatures -/

abbrev SameSignature : Signature → Signature → Prop := Signature.Alike Eq fun _ _ => True

theorem params_reads (inner : ReadsTypes n type) {fields : List Field} {tokens : List Token}
    (written : WrittenParams fields tokens) (short : tokens.length ≤ n) :
    Reads (params type) tokens (fun _ => True) (List.Forall₂ SameField fields) := by
  cases written with
  | mk grouped all => exact fieldList_reads (paramTypes inner) (Or.inl rfl) grouped all short

theorem results_none : Reads (results type) [] Stops (List.Forall₂ SameField []) := by
  intro s rest shape stops
  rw [List.nil_append] at shape
  have noList : s.peek ≠ some .openParen := by
    rw [peek_eq, shape]
    exact stops.head rfl
  have none : startsResult s.peek = false := by
    rw [peek_eq, shape]
    unfold Stops endsType at stops
    cases rest with
    | nil => rfl
    | cons t more => cases t <;> first | rfl | cases stops
  exact ⟨[], s, by simp [results, noList, none], shape, .nil⟩

theorem results_single (inner : ReadsTypes n type) {result : TypeExpr} {tokens : List Token}
    (notParen : result.isParen = false) (written : TypeExpr.Written result tokens)
    (short : tokens.length < n) :
    Reads (results type) tokens Stops (List.Forall₂ SameField [⟨[], result⟩]) := by
  intro s rest shape stops
  obtain ⟨t', s', run, behind, same⟩ := inner _ _ written short s rest shape stops
  obtain ⟨first, more, rfl, starts⟩ := written.starts
  have next : s.peek = some first := by
    rw [peek_eq, shape]
    rfl
  have noParen : first ≠ .openParen := by
    rintro rfl
    rw [written.isParen_of_head rfl] at notParen
    cases notParen
  have startsIt : startsResult s.peek = true := by
    rw [next]
    cases first <;> first | rfl | contradiction
  have noList : s.peek ≠ some .openParen := by
    rw [next]
    simpa using noParen
  refine ⟨[⟨[], t'⟩], s', ?_, behind, .cons (.mk [] same) .nil⟩
  simp [results, noList, startsIt, run, bind, Except.bind]

theorem results_several (inner : ReadsTypes n type) {fields : List Field} {tokens : List Token}
    (written : WrittenParams fields tokens) (short : tokens.length ≤ n) :
    Reads (results type) tokens Stops (List.Forall₂ SameField fields) := by
  intro s rest shape _
  obtain ⟨fields', s', run, behind, same⟩ := params_reads inner written short s rest shape trivial
  have opens : s.peek = some .openParen := by
    rw [peek_eq, shape]
    cases written
    rfl
  exact ⟨fields', s', by simp [results, opens, run], behind, same⟩

theorem signature_parts (inner : ReadsTypes n type) {fields outcome : List Field}
    {front tokens : List Token} (written : WrittenParams fields front) (short : front.length ≤ n)
    (resultsRead : Reads (results type) tokens Stops (List.Forall₂ SameField outcome)) :
    Reads (Grammar.signature type) (front ++ tokens) Stops (SameSignature ⟨fields, outcome⟩) := by
  intro s rest shape stops
  rw [List.append_assoc] at shape
  obtain ⟨ps, s', run, behind, same⟩ := params_reads inner written short s _ shape trivial
  obtain ⟨rs, s₂, run₂, behind₂, same₂⟩ := resultsRead s' rest behind stops
  refine ⟨⟨ps, rs⟩, s₂, ?_, behind₂, .mk same same₂⟩
  simp [Grammar.signature, run, run₂, bind, Except.bind]

theorem signature_reads (inner : ReadsTypes n type) {signature : Signature} {tokens : List Token}
    (written : Signature.Written signature tokens) (short : tokens.length ≤ n) :
    Reads (Grammar.signature type) tokens Stops (SameSignature signature) := by
  cases written with
  | none written => simpa using signature_parts inner written short results_none
  | @single _ _ front _ written notParen resultWritten =>
    have nonempty : 0 < front.length := by
      cases written
      simp
    simp only [List.length_append] at short
    exact signature_parts inner written (by omega)
      (results_single inner notParen resultWritten (by omega))
  | several written resultsWritten =>
    simp only [List.length_append] at short
    exact signature_parts inner written (by omega)
      (results_several inner resultsWritten (by omega))

end GoSpy.Grammar
