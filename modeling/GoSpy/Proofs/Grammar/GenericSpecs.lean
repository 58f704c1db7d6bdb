import GoSpy.Proofs.Grammar.LocalTypes
import GoSpy.Proofs.Grammar.Forms
/- Type parameters of types and of functions. A function reads a list in brackets behind its name as
   type parameters; a type does so only if the second token of the list is a word, a comma or a
   tilde. What it reads then is what a function reads. -/
namespace GoSpy.Grammar

open Cursor Reader

/- Lists -/

theorem fieldList_eq_ok {type : Reader TypeExpr} {«open» close : Token} {constrained : Bool}
    {s behind : Cursor} {fields : List Field} :
    fieldList type «open» close constrained s = .ok (fields, behind) ↔
      s.peek = some «open» ∧ ∃ entries t,
        commaItems close (entry type close constrained) s.advance.fuel s.advance = .ok (entries, t) ∧
          t.peek = some close ∧ t.advance = behind ∧ fieldsOf entries = some fields := by
  constructor
  · intro run
    obtain ⟨s₁, opens, run⟩ := bind_eq_ok.mp run
    obtain ⟨⟨entries, t⟩, items, run⟩ := bind_eq_ok.mp run
    obtain ⟨s₂, closes, run⟩ := bind_eq_ok.mp run
    obtain ⟨there, rfl⟩ := expect_eq_ok opens
    obtain ⟨there', rfl⟩ := expect_eq_ok closes
    split at run
    · rename_i grouped
      obtain ⟨rfl, rfl⟩ := Prod.mk.inj (Except.ok.inj run)
      exact ⟨there, entries, t, items, there', rfl, grouped⟩
    · cases run
  · rintro ⟨there, entries, t, items, there', rfl, grouped⟩
    have opens : s.expect «open» = .ok s.advance := by simp [expect, eat?, there]
    have closes : t.expect close = .ok t.advance := by simp [expect, eat?, there']
    unfold fieldList
    rw [opens]
    simp only [bind, Except.bind, items, closes, grouped]

theorem typeParams_inside {list after : List Lexeme} {endLine : Nat} {fields : List Field}
    {behind : Cursor} (pairs : Closes 0 list)
    (read : typeParams Grammar.type ⟨list ++ after, endLine⟩ = .ok (fields, behind)) :
    ∃ o inner entries t, list = o :: inner ∧ o.token = .openBracket ∧ Enclosed inner ∧
      commaItems .closeBracket (entry Grammar.type .closeBracket true)
        (Cursor.mk (inner ++ after) endLine).fuel ⟨inner ++ after, endLine⟩ = .ok (entries, t) ∧
      t.peek = some .closeBracket ∧ t.advance = behind ∧ fieldsOf entries = some fields := by
  cases list with
  | nil => exact absurd pairs not_closes_nil
  | cons o inner =>
    obtain ⟨opens, entries, t, items, closes, ends, grouped⟩ := fieldList_eq_ok.mp read
    have isOpen : o.token = .openBracket := by simpa [peek] using opens
    have inside : Enclosed inner := ⟨1, Nat.one_pos, pairs.behind_open isOpen⟩
    exact ⟨o, inner, entries, t, rfl, isOpen, inside, items, closes, ends, grouped⟩

theorem typeParams_elsewhere {list after after' : List Lexeme} {endLine endLine' : Nat}
    {fields : List Field} (pairs : Closes 0 list)
    (read : typeParams Grammar.type ⟨list ++ after, endLine⟩ = .ok (fields, ⟨after, endLine⟩)) :
    typeParams Grammar.type ⟨list ++ after', endLine'⟩ = .ok (fields, ⟨after', endLine'⟩) := by
  obtain ⟨o, inner, entries, t, rfl, opens, inside, items, closes, ends, grouped⟩ :=
    typeParams_inside pairs read
  let s : Cursor := ⟨inner ++ after, endLine⟩
  let s' : Cursor := ⟨inner ++ after', endLine'⟩
  have each : Reader.Follows after after' 1 s'.fuel (entry Grammar.type .closeBracket true)
      (entry Grammar.type .closeBracket true) :=
    entry_follows (type_follows s'.fuel) .closeBracket true
  obtain ⟨past, follows⟩ := each.commaItems .closeBracket s.fuel s'.fuel s s' entries t items
  obtain ⟨y, first, isClose⟩ := Option.map_eq_some_iff.mp closes
  -- The bracket at the end of the list is all that is left in front of `after`.
  have last : t.rest = y :: after := by
    obtain ⟨rest, shape⟩ := List.head?_eq_some_iff.mp first
    have same : t.rest.tail = after := congrArg Cursor.rest ends
    rw [shape, List.tail_cons] at same
    rw [shape, same]
  obtain ⟨t', items', past', zs, -, shape, shape'⟩ := follows ⟨inner, inside.fronts, rfl, rfl⟩
    (by simp [fuel]) (by simp [last])
  rw [last] at shape
  obtain rfl : [y] = zs := List.append_cancel_right shape
  refine fieldList_eq_ok.mpr ⟨?_, entries, t', items', ?_, ?_, grouped⟩
  · simp [peek, opens]
  · simp [peek, shape', isClose]
  · rw [Cursor.advance, shape', past'.endLine]
    rfl

/- The first name -/

theorem type_name {s behind : Cursor} {w : String}
    (run : Grammar.type s = .ok (.name w, behind)) : s.nextIsName = true := by
  cases form_of_typeForm run with
  | word _ _ isName => exact isName rfl

theorem ofTerms_name {terms : List Term} {w : String} (single : ofTerms terms = .name w) :
    terms = [⟨false, .name w⟩] := by
  unfold ofTerms at single
  split at single
  · rw [single]
  · cases single

theorem constraint_name {s behind : Cursor} {w : String}
    (run : constraint Grammar.type s = .ok (.name w, behind)) : s.nextIsName = true := by
  obtain ⟨⟨terms, s₁⟩, read, same⟩ := bind_eq_ok.mp run
  obtain ⟨single, -⟩ := Prod.mk.inj (Except.ok.inj same)
  rw [ofTerms_name single] at read
  obtain ⟨⟨x, s₂⟩, first, read⟩ := bind_eq_ok.mp read
  have isFirst : x = ⟨false, .name w⟩ := by
    dsimp only at read
    split at read
    · exact (List.cons.inj (Prod.mk.inj (Except.ok.inj read)).1).1
    · obtain ⟨_, _, same⟩ := bind_eq_ok.mp read
      exact (List.cons.inj (Prod.mk.inj (Except.ok.inj same)).1).1
  rw [isFirst] at first
  unfold term at first
  split at first
  · obtain ⟨_, _, same⟩ := bind_eq_ok.mp first
    cases same
  · obtain ⟨⟨t, s₃⟩, read, same⟩ := bind_eq_ok.mp first
    cases same
    exact type_name read

theorem entry_name {s behind : Cursor} {close : Token} {e : Entry}
    (run : entry Grammar.type close true s = .ok (e, behind))
    (named : e.1.isSome = true ∨ ∃ w, e.2 = .name w) : s.nextIsName = true := by
  unfold entry at run
  split at run
  · rename_i starts
    exact (Bool.and_eq_true_iff.mp starts).1
  · obtain ⟨⟨t, s₁⟩, read, same⟩ := bind_eq_ok.mp run
    obtain ⟨rfl, -⟩ := Prod.mk.inj (Except.ok.inj same)
    rcases named with some | ⟨w, rfl⟩
    · cases some
    · unfold entryType at read
      split at read
      · obtain ⟨_, _, same⟩ := bind_eq_ok.mp read
        cases same
      · exact constraint_name read

theorem fieldsOf_named {e : Entry} {entries : List Entry} {fields : List Field}
    (grouped : fieldsOf (e :: entries) = some fields) (named : ∀ f ∈ fields, f.names ≠ []) :
    e.1.isSome = true ∨ ∃ w, e.2 = .name w := by
  unfold fieldsOf at grouped
  split at grouped
  · obtain rfl := Option.some.inj grouped
    exact absurd rfl (named ⟨[], e.2⟩ (by simp))
  · obtain ⟨name, t⟩ := e
    cases name with
    | some name => exact Or.inl rfl
    | none =>
      cases t <;> first | exact Or.inr ⟨_, rfl⟩ | cases grouped

theorem typeParams_front {list after : List Lexeme} {endLine : Nat} {fields : List Field}
    {behind : Cursor} (pairs : Closes 0 list)
    (read : typeParams Grammar.type ⟨list ++ after, endLine⟩ = .ok (fields, behind))
    (some : fields ≠ []) (named : ∀ f ∈ fields, f.names ≠ []) :
    ∃ o n y more, list = o :: n :: y :: more ∧ o.token = .openBracket ∧ n.token.isName = true := by
  obtain ⟨o, inner, entries, t, rfl, isOpen, inside, items, -, -, grouped⟩ :=
    typeParams_inside pairs read
  have starts : (Cursor.mk (inner ++ after) endLine).nextIsName = true := by
    rw [fuel, commaItems] at items
    split at items
    · obtain ⟨rfl, -⟩ := Prod.mk.inj (Except.ok.inj items)
      exact absurd (Option.some.inj grouped).symm some
    · obtain ⟨⟨e, t₁⟩, first, items⟩ := bind_eq_ok.mp items
      obtain ⟨later, rfl⟩ : ∃ later, entries = e :: later := by
        dsimp only at items
        split at items
        · exact ⟨_, (Prod.mk.inj (Except.ok.inj items)).1.symm⟩
        · obtain ⟨_, _, same⟩ := bind_eq_ok.mp items
          exact ⟨_, (Prod.mk.inj (Except.ok.inj same)).1.symm⟩
      exact entry_name first (fieldsOf_named grouped named)
  cases inner with
  | nil => exact absurd rfl inside.some
  | cons n inner =>
    have isName : n.token.isName = true := by simpa [nextIsName, peek] using starts
    have other : n.token ≠ .closeBracket := by
      rintro close
      rw [close] at isName
      cases isName
    cases inner with
    | nil => exact absurd rfl (inside.behind_other other).some
    | cons y more => exact ⟨o, n, y, more, rfl, isOpen, isName⟩

/- Declarations -/

theorem startsTypeParams_eq (o n y : Lexeme) (rest : List Lexeme) (endLine : Nat)
    (more : List Token) :
    startsTypeParams ⟨o :: n :: y :: rest, endLine⟩ =
      opensTypeParams (n.token :: y.token :: more) := by
  unfold startsTypeParams opensTypeParams
  simp only [peekAt, List.getElem?_cons_succ, List.getElem?_cons_zero, Option.map_some,
    Option.any_some]
  cases n.token <;> first | rfl | cases y.token <;> rfl

theorem name_word {w : String} {line endLine : Nat} {rest : List Lexeme}
    (free : isKeyword w = false) :
    Cursor.name ⟨⟨.word w, line⟩ :: rest, endLine⟩ = .ok (w, ⟨rest, endLine⟩) := by
  simp only [Cursor.name, peek, List.head?_cons, Option.map_some, free]
  rfl

def emptyParams (left right : Nat) (tail : List Lexeme) : List Lexeme :=
  ⟨.openParen, left⟩ :: ⟨.closeParen, right⟩ :: tail

theorem emptySignature {left right endLine : Nat} {tail : List Lexeme}
    (ends : ∀ x ∈ tail.head?, x.token = .semicolon) :
    signature Grammar.type ⟨emptyParams left right tail, endLine⟩ =
      .ok (⟨[], []⟩, ⟨tail, endLine⟩) := by
  have noParams : params Grammar.type ⟨emptyParams left right tail, endLine⟩ =
      .ok ([], ⟨tail, endLine⟩) :=
    fieldList_eq_ok.mpr ⟨rfl, [], ⟨⟨.closeParen, right⟩ :: tail, endLine⟩, rfl, rfl, rfl, rfl⟩
  have noResults : results Grammar.type ⟨tail, endLine⟩ = .ok ([], ⟨tail, endLine⟩) := by
    cases tail with
    | nil => rfl
    | cons x tail =>
      have semicolon : x.token = .semicolon := ends x rfl
      simp [results, peek, semicolon, startsResult]
  simp only [signature, noParams, bind, Except.bind, noResults]

theorem funcDecl_typeParams {function : String} {place : Place} {list tail : List Lexeme}
    {line left right endLine : Nat} {fields : List Field} (free : isKeyword function = false)
    (read : typeParams Grammar.type ⟨list ++ emptyParams left right tail, endLine⟩ =
      .ok (fields, ⟨emptyParams left right tail, endLine⟩))
    (ends : ∀ x ∈ tail.head?, x.token = .semicolon) :
    funcDecl place ⟨⟨.word function, line⟩ :: (list ++ emptyParams left right tail), endLine⟩ =
      .ok (⟨none, function, fields, ⟨[], []⟩, none, place⟩, ⟨tail, endLine⟩) := by
  have opens := (fieldList_eq_ok.mp read).1
  have noReceiver : receiver place.line
      ⟨⟨.word function, line⟩ :: (list ++ emptyParams left right tail), endLine⟩ =
        .ok (none, ⟨⟨.word function, line⟩ :: (list ++ emptyParams left right tail), endLine⟩) := by
    simp [receiver, peek]
  have noBody : (Cursor.mk tail endLine).peek ≠ some .openBrace := by
    rintro brace
    obtain ⟨x, first, token⟩ := Option.map_eq_some_iff.mp brace
    have := ends x first
    rw [token] at this
    cases this
  simp only [funcDecl, noReceiver, bind, Except.bind, name_word free, opens, if_pos, read,
    emptySignature ends, if_neg noBody]

theorem typeSpec_typeParams {name : String} {list literal rest : List Lexeme}
    {line endLine : Nat} {fields : List Field} {elements : List Element}
    (free : isKeyword name = false)
    (read : typeParams Grammar.type ⟨list ++ (literal ++ rest), endLine⟩ =
      .ok (fields, ⟨literal ++ rest, endLine⟩))
    (starts : startsTypeParams ⟨list ++ (literal ++ rest), endLine⟩ = true)
    (body : Grammar.type ⟨literal ++ rest, endLine⟩ =
      .ok (.interface elements, ⟨rest, endLine⟩)) :
    typeSpec ⟨⟨.word name, line⟩ :: (list ++ (literal ++ rest)), endLine⟩ =
      .ok (⟨name, fields, false, .interface elements, line⟩, ⟨rest, endLine⟩) := by
  have opens := (fieldList_eq_ok.mp read).1
  have noAlias : (Cursor.mk (literal ++ rest) endLine).eat? .assign = none := by
    cases form_of_typeForm body with
    | word there => simp [eat?, there]
  simp only [typeSpec, bind, Except.bind, name_word free, opens, starts, read, noAlias, body]
  rfl

theorem typeSpec_noTypeParams {name : String} {list : List Lexeme} {line endLine : Nat}
    {spec : TypeSpec} {behind : Cursor} (free : isKeyword name = false)
    (starts : startsTypeParams ⟨list, endLine⟩ = false)
    (run : typeSpec ⟨⟨.word name, line⟩ :: list, endLine⟩ = .ok (spec, behind)) :
    spec.typeParams = [] := by
  obtain ⟨_, named, run⟩ := bind_eq_ok.mp run
  obtain rfl := Except.ok.inj ((name_word free).symm.trans named)
  dsimp only at run
  rw [starts, Bool.and_false, if_neg Bool.false_ne_true] at run
  obtain ⟨_, none, run⟩ := bind_eq_ok.mp run
  cases none
  obtain ⟨_, _, same⟩ := bind_eq_ok.mp run
  cases same
  rfl

/-- A list of type parameters whose brackets pair up is read behind the name of a type as it is
    behind the name of a function, if a word, a comma or a tilde stands behind its first name. If
    another token stands there, no type parameters are read. -/
theorem type_params_shared (place : Place) (line line' : Nat) {function name : String}
    {list tail literal rest : List Lexeme} {left right endLine endLine' : Nat}
    {fields : List Field} {elements : List Element} (isFunction : isKeyword function = false)
    (isType : isKeyword name = false) (pairs : Closes 0 list)
    (read : typeParams Grammar.type ⟨list ++ emptyParams left right tail, endLine⟩ =
      .ok (fields, ⟨emptyParams left right tail, endLine⟩))
    (ends : ∀ x ∈ tail.head?, x.token = .semicolon) (some : fields ≠ [])
    (named : ∀ f ∈ fields, f.names ≠ [])
    (body : Grammar.type ⟨literal ++ rest, endLine'⟩ =
      .ok (.interface elements, ⟨rest, endLine'⟩)) :
    funcDecl place ⟨⟨.word function, line⟩ :: (list ++ emptyParams left right tail), endLine⟩ =
        .ok (⟨none, function, fields, ⟨[], []⟩, none, place⟩, ⟨tail, endLine⟩) ∧
      (opensTypeParams (list.tail.map Lexeme.token) = true →
        typeSpec ⟨⟨.word name, line'⟩ :: (list ++ (literal ++ rest)), endLine'⟩ =
          .ok (⟨name, fields, false, .interface elements, line'⟩, ⟨rest, endLine'⟩)) ∧
      (opensTypeParams (list.tail.map Lexeme.token) = false →
        ∀ spec behind,
          typeSpec ⟨⟨.word name, line'⟩ :: (list ++ (literal ++ rest)), endLine'⟩ =
              .ok (spec, behind) →
            spec.typeParams = []) := by
  obtain ⟨o, n, y, more, rfl, -, -⟩ := typeParams_front pairs read some named
  have starts : startsTypeParams ⟨o :: n :: y :: more ++ (literal ++ rest), endLine'⟩ =
      opensTypeParams ((o :: n :: y :: more).tail.map Lexeme.token) := startsTypeParams_eq o n y _ _ _
  refine ⟨funcDecl_typeParams isFunction read ends, ?_, ?_⟩
  · intro opens
    exact typeSpec_typeParams isType (typeParams_elsewhere pairs read) (starts.trans opens) body
  · intro other spec behind run
    exact typeSpec_noTypeParams isType (starts.trans other) run

def mapParams : List Lexeme :=
  onFirstLine [.openBracket, .word "K", .word "comparable", .comma, .word "V", .word "map",
    .openBracket, .word "K", .closeBracket, .openBracket, .closeBracket, .word "int",
    .closeBracket]

theorem map_params_shared :
    let fields : List Field := [⟨["K"], .name "comparable"⟩,
      ⟨["V"], .map (.name "K") (.slice (.name "int"))⟩]
    let literal := onFirstLine [.word "interface", .openBrace, .word "Get", .openParen,
      .closeParen, .word "V", .closeBrace]
    funcDecl ⟨"x.go", 1⟩ ⟨⟨.word "F", 1⟩ :: (mapParams ++ emptyParams 1 1 []), 1⟩ =
        .ok (⟨none, "F", fields, ⟨[], []⟩, none, ⟨"x.go", 1⟩⟩, ⟨[], 1⟩) ∧
      typeSpec ⟨⟨.word "X", 1⟩ :: (mapParams ++ (literal ++ [⟨.semicolon, 1⟩])), 1⟩ =
        .ok (⟨"X", fields, false, .interface [.method "Get" ⟨[], [⟨[], .name "V"⟩]⟩ 1], 1⟩,
          ⟨[⟨.semicolon, 1⟩], 1⟩) := by
  intro fields literal
  have isFunction : isKeyword "F" = false := by decide
  have isType : isKeyword "X" = false := by decide
  have pairs : Closes 0 mapParams := by
    intro after
    rfl
  have read : typeParams Grammar.type ⟨mapParams ++ emptyParams 1 1 [], 1⟩ =
      .ok (fields, ⟨emptyParams 1 1 [], 1⟩) := by
    rfl
  have ends : ∀ x ∈ ([] : List Lexeme).head?, x.token = .semicolon := by simp
  have some : fields ≠ [] := List.cons_ne_nil _ _
  have named : ∀ f ∈ fields, f.names ≠ [] := by simp [fields]
  have body : Grammar.type ⟨literal ++ [⟨.semicolon, 1⟩], 1⟩ =
      .ok (.interface [.method "Get" ⟨[], [⟨[], .name "V"⟩]⟩ 1], ⟨[⟨.semicolon, 1⟩], 1⟩) := by
    rfl
  obtain ⟨function, spec, -⟩ :=
    type_params_shared ⟨"x.go", 1⟩ 1 1 isFunction isType pairs read ends some named body
  exact ⟨function, spec (by decide)⟩

/-- A constraint that begins with a bracket is taken for a part of an array length, and the type
    parameters and the interface for its element are lost. -/
theorem slice_params_lost :
    funcDecl ⟨"x.go", 1⟩ ⟨onFirstLine [.word "F", .openBracket, .word "T", .openBracket,
        .closeBracket, .word "int", .closeBracket, .openParen, .closeParen], 1⟩ =
        .ok (⟨none, "F", [⟨["T"], .slice (.name "int")⟩], ⟨[], []⟩, none, ⟨"x.go", 1⟩⟩, ⟨[], 1⟩) ∧
      typeSpec ⟨onFirstLine [.word "X", .openBracket, .word "T", .openBracket, .closeBracket,
          .word "int", .closeBracket, .word "interface", .openBrace, .closeBrace], 1⟩ =
        .ok (⟨"X", [], false, .array "T[]int" (.interface []), 1⟩, ⟨[], 1⟩) := by
  constructor
  · rfl
  · rfl

end GoSpy.Grammar
