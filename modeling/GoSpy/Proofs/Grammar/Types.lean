import GoSpy.Proofs.Grammar.Lists
/- Every form of type is read from the tokens it is written with, given that the types inside it
   are; by induction on the number of tokens every type is. -/
namespace GoSpy.Grammar

open Cursor Reader

variable {n : Nat} {type : Reader TypeExpr}

/- Interfaces -/

abbrev SameElement : Element → Element → Prop := Element.Alike Eq fun _ _ => True

theorem methodNames_cons (e : Element) (elements : List Element) :
    methodNames (e :: elements) = methodNames [e] ++ methodNames elements := by
  simp only [methodNames, ← List.filterMap_append, List.singleton_append]

theorem methodNames_same {e e' : Element} (same : SameElement e e') :
    methodNames [e'] = methodNames [e] := by
  cases same <;> rfl

def NewMethods (before elements : List Element) : Prop :=
  (methodNames elements).Nodup ∧ (methodNames elements).Disjoint (methodNames before)

theorem newMethods_next (before : List Element) (e : Element) (elements : List Element)
    (e' : Element) (new : NewMethods before (e :: elements)) (same : SameElement e e') :
    NewMethods (e' :: before) elements := by
  obtain ⟨distinct, apart⟩ := new
  rw [methodNames_cons] at distinct apart
  obtain ⟨_, later, differ⟩ := List.nodup_append.mp distinct
  refine ⟨later, ?_⟩
  rw [methodNames_cons, methodNames_same same, List.disjoint_append_right]
  exact ⟨fun name there here => differ name here name there rfl,
    (List.disjoint_append_left.mp apart).2⟩

def EndsLine (rest : List Token) : Prop :=
  rest.head? = some .semicolon ∨ rest.head? = some .closeBrace

theorem EndsLine.stopsSet {rest : List Token} (ends : EndsLine rest) : StopsSet rest := by
  rcases ends with head | head <;> exact ⟨stops_of_head rfl head, by simp [head]⟩

theorem type_not_method {t : TypeExpr} {tokens rest : List Token}
    (written : TypeExpr.Written t tokens) (noParen : rest.head? ≠ some .openParen) :
    ((tokens ++ rest).head?.any Token.isName && (tokens ++ rest)[1]? = some .openParen) =
      false := by
  cases written with
  | name =>
    have next : rest[0]? ≠ some .openParen := by rwa [← List.head?_eq_getElem?]
    simp [next]
  | qualified => simp
  | generic named base =>
    cases base with
    | name | qualified => simp
    | _ => simp [TypeExpr.isNamed] at named
  | pointer | slice | array | paren => rfl
  | map | func | interface | struct => rfl
  | @chan direction => cases direction <;> rfl

theorem embedded_not_method {t : TypeExpr} {tokens rest : List Token}
    (written : TypeExpr.WrittenConstraint t tokens) (ends : EndsLine rest) {s : Cursor}
    (shape : s.tokens = tokens ++ rest) :
    (s.nextIsName && s.peekAt 1 = some .openParen) = false := by
  rw [nextIsName_eq, peekAt_eq, shape]
  rcases constraint_front written with ⟨more, rfl⟩ | ⟨_, front, tail, single, rfl, set⟩
  · rfl
  · rw [List.append_assoc]
    refine type_not_method single ?_
    rcases set with rfl | pipe
    · rcases ends with head | head <;> simp [head]
    · obtain ⟨more, rfl⟩ := List.head?_eq_some_iff.mp pipe
      simp

theorem element_reads (inner : ReadsTypes n type) {e : Element} {tokens : List Token}
    (written : Element.Written e tokens) (short : tokens.length < n) (before xs : List Element)
    (new : NewMethods before (e :: xs)) :
    Reads (element type before) tokens EndsLine (SameElement e) := by
  intro s rest shape ends
  cases written with
  | @method name signature line tokens free written =>
    simp only [List.length_cons] at short
    obtain ⟨signature', s', run, behind, same⟩ :=
      signature_reads inner written (by omega) s.advance rest (advance_cons shape) ends.stopsSet.1
    have isMethod : (s.nextIsName && s.peekAt 1 = some .openParen) = true := by
      obtain ⟨more, rfl⟩ := written.opens
      rw [nextIsName_eq, peekAt_eq, shape]
      simp [Token.isName, free]
    have unused : (methodNames before).contains name = false := by
      have apart := new.2
      rw [methodNames_cons, List.disjoint_append_left] at apart
      have notIn : name ∉ methodNames before := apart.1 (by simp [methodNames, Element.method?])
      simpa using notIn
    refine ⟨.method name signature' s.line, s', ?_, behind, .method name same trivial⟩
    simp only [element, isMethod, if_true, name_cons free shape, unused, run, bind, Except.bind]
    rfl
  | embedded written =>
    obtain ⟨t', s', run, behind, same⟩ :=
      constraint_reads inner written short s rest shape ends.stopsSet
    refine ⟨.embedded t', s', ?_, behind, .embedded same⟩
    simp [element, embedded_not_method written ends shape, run, bind, Except.bind]

theorem element_starts {e : Element} {tokens : List Token} (written : Element.Written e tokens) :
    Starts .closeBrace tokens ∧ Starts .semicolon tokens := by
  have starts {t : Token} {more : List Token} (entry : startsEntry t = true) :
      Starts .closeBrace (t :: more) ∧ Starts .semicolon (t :: more) := by
    refine ⟨⟨t, more, rfl, ?_⟩, ⟨t, more, rfl, ?_⟩⟩ <;> rintro rfl <;> cases entry
  cases written with
  | method => exact starts rfl
  | embedded written =>
    rcases constraint_front written with ⟨more, rfl⟩ | ⟨_, front, tail, single, rfl, _⟩
    · exact starts rfl
    · obtain ⟨t, more, rfl, element⟩ := single.starts
      exact starts (by simp [startsEntry, element])

theorem interfaceBody_reads (inner : ReadsTypes n type) {elements : List Element}
    {runs : List (List Token)} {tokens : List Token}
    (distinct : (methodNames elements).Nodup)
    (all : List.Forall₂ Element.Written elements runs) (lines : Lines runs tokens)
    (short : tokens.length < n) :
    Reads (interfaceBody type) (.openBrace :: (tokens ++ [.closeBrace])) (fun _ => True)
      (List.Forall₂ SameElement elements) := by
  intro s rest shape _
  simp only [List.cons_append, List.append_assoc, List.nil_append] at shape
  have each : List.Forall₂ (fun e run => Starts .closeBrace run ∧ Starts .semicolon run ∧
      ∀ before xs, NewMethods before (e :: xs) →
        Reads (element type before) run EndsLine (SameElement e)) elements runs := by
    refine forall₂_imp_of_mem all fun e run member written => ?_
    have := length_le_lines lines member
    obtain ⟨close, semicolon⟩ := element_starts written
    exact ⟨close, semicolon, element_reads inner written (by omega)⟩
  have enough : runs.length < s.advance.fuel := by
    have := length_lines lines fun run member => by
      obtain ⟨_, _, written⟩ := exists_of_forall₂ all member
      exact (element_starts written).1.nonempty
    rw [fuel_eq, advance_cons shape, List.length_append]
    omega
  have start : NewMethods [] elements := ⟨distinct, List.disjoint_nil_right _⟩
  obtain ⟨elements', s', run, behind, same⟩ := entries_reads NewMethods [] (fun _ => Or.inl)
    (fun _ => Or.inr) (Or.inr rfl) newMethods_next each lines start enough s.advance _
    (advance_cons shape) rfl
  refine ⟨elements', s'.advance, ?_, advance_cons behind, same⟩
  simp [interfaceBody, expect_cons shape, run, expect_cons behind, bind, Except.bind]

/- Structs -/

abbrev SameMember : Member → Member → Prop := Member.Alike Eq fun _ _ => True

theorem names_reads {names : List String} (nonempty : names ≠ [])
    (free : ∀ name ∈ names, isKeyword name = false) :
    Reads Reader.names (parted .comma (names.map fun name => [.word name]))
      (fun rest => rest.head? ≠ some .comma) (· = names) := by
  intro s rest shape noComma
  have each : List.Forall₂ (fun name run => Reads Cursor.name run (fun _ => True) (· = name)) names
      (names.map fun name => [.word name]) := by
    rw [List.forall₂_map_right_iff, List.forall₂_same]
    intro name member s rest shape _
    exact ⟨name, s.advance, name_cons (free name member) shape, advance_cons shape, rfl⟩
  have enough : (names.map fun name => [Token.word name]).length ≤ s.fuel := by
    have : (names.map fun name => [Token.word name]).length ≤
        (parted .comma (names.map fun name => [Token.word name])).length :=
      length_parted .comma (by simp)
    rw [fuel_eq, shape, List.length_append]
    omega
  obtain ⟨names', s', run, behind, same⟩ :=
    separated_reads nonempty (fun _ _ => trivial) each enough s rest shape ⟨trivial, noComma⟩
  refine ⟨names', s', run, behind, ?_⟩
  rw [← List.forall₂_eq_eq_eq]
  exact same.flip.imp fun _ _ same => same

def embeddedLine : List Token → Bool
  | _ :: t :: rest =>
    match t with
    | .dot | .semicolon | .closeBrace | .string _ => true
    | .openBracket => !(beyond 0 (t :: rest)).head?.any startsElement
    | _ => false
  | _ => false

theorem isEmbedded_eq (s : Cursor) : isEmbedded s = embeddedLine s.tokens := by
  unfold isEmbedded
  rw [peekAt_eq, bracketFollowsName_eq]
  cases s.tokens with
  | nil => rfl
  | cons t rest =>
    cases rest with
    | nil => rfl
    | cons u more => cases u <;> rfl

def EndsField (rest : List Token) : Prop :=
  (∃ tag, rest.head? = some (.string tag)) ∨ EndsLine rest

theorem EndsField.stops {rest : List Token} (ends : EndsField rest) : Stops rest := by
  rcases ends with ⟨tag, head⟩ | ends
  · exact stops_of_head rfl head
  · exact ends.stopsSet.1

theorem named_embeddedLine {t : TypeExpr} {tokens rest : List Token} (named : t.isNamed = true)
    (written : TypeExpr.Written t tokens) (ends : EndsField rest) :
    embeddedLine (tokens ++ rest) = true := by
  cases written with
  | name =>
    rcases ends with ⟨tag, head⟩ | head | head <;>
      obtain ⟨more, rfl⟩ := List.head?_eq_some_iff.mp head <;> rfl
  | qualified => rfl
  | _ => simp [TypeExpr.isNamed] at named

theorem generic_embeddedLine {base : TypeExpr} {args : List TypeExpr} {front rest : List Token}
    {entries : List (List Token)} (named : base.isNamed = true)
    (written : TypeExpr.Written base front) (all : List.Forall₂ TypeExpr.Written args entries)
    (ends : EndsField rest) :
    embeddedLine (genericTokens front entries ++ rest) = true := by
  cases written with
  | name =>
    have behind := (BracketsMatch.types all).beyond_enclosed rest
    simp only [embeddedLine, genericTokens, List.cons_append, List.append_assoc,
      List.nil_append, behind]
    rcases ends with ⟨tag, head⟩ | head | head <;> rw [head] <;> rfl
  | qualified => rfl
  | _ => simp [TypeExpr.isNamed] at named

theorem embeddedName_reads (inner : ReadsTypes n type) {t : TypeExpr} {tokens : List Token}
    (fits : t.isNamed = true ∨ ∃ base args, t = .generic base args)
    (written : TypeExpr.Written t tokens) (short : tokens.length ≤ n) :
    Reads (typeName type) tokens Stops (SameType t) ∧
      (∀ rest, EndsField rest → embeddedLine (tokens ++ rest) = true) ∧
      ∃ w more, tokens = .word w :: more := by
  rcases fits with named | ⟨base, args, rfl⟩
  · refine ⟨typeName_plain named written, fun rest => named_embeddedLine named written, ?_⟩
    cases written with
    | name | qualified => exact ⟨_, _, rfl⟩
    | _ => simp [TypeExpr.isNamed] at named
  · cases written with
    | generic named written nonempty all =>
      refine ⟨typeName_generic inner named written nonempty all short,
        fun rest => generic_embeddedLine named written all, ?_⟩
      cases written with
      | name | qualified => exact ⟨_, _, rfl⟩
      | _ => simp [TypeExpr.isNamed] at named

theorem isEmbeddable_cases {t : TypeExpr} (fits : t.isEmbeddable = true) :
    (t.isNamed = true ∨ ∃ base args, t = .generic base args) ∨
      ∃ target, t = .pointer target ∧
        (target.isNamed = true ∨ ∃ base args, target = .generic base args) := by
  cases t with
  | name | qualified => exact Or.inl (Or.inl rfl)
  | generic base args => exact Or.inl (Or.inr ⟨base, args, rfl⟩)
  | pointer target =>
    refine Or.inr ⟨target, rfl, ?_⟩
    cases target with
    | name | qualified => exact Or.inl rfl
    | generic base args => exact Or.inr ⟨base, args, rfl⟩
    | _ => cases fits
  | _ => cases fits

theorem memberType_embedded (inner : ReadsTypes n type) {t : TypeExpr} {tokens : List Token}
    (fits : t.isEmbeddable = true) (written : TypeExpr.Written t tokens)
    (short : tokens.length ≤ n) :
    Reads (memberType type) tokens EndsField
      (fun r => r.1 = [] ∧ SameType t r.2) := by
  intro s rest shape ends
  rcases isEmbeddable_cases fits with direct | ⟨target, rfl, direct⟩
  · obtain ⟨reads, embeds, w, more, head⟩ := embeddedName_reads inner direct written short
    obtain ⟨t', s', run, behind, same⟩ := reads s rest shape ends.stops
    have absent : s.eat? .star = none := eat_other (by rw [shape, head]; simp)
    have embedded : isEmbedded s = true := by
      rw [isEmbedded_eq, shape]
      exact embeds rest ends
    refine ⟨([], t'), s', ?_, behind, rfl, same⟩
    simp [memberType, absent, embedded, run, bind, Except.bind]
  · cases written with
    | pointer written =>
      simp only [List.length_cons] at short
      obtain ⟨reads, _⟩ := embeddedName_reads inner direct written (by omega)
      obtain ⟨t', s', run, behind, same⟩ := reads s.advance rest (advance_cons shape) ends.stops
      refine ⟨([], .pointer t'), s', ?_, behind, rfl, .pointer same⟩
      simp [memberType, eat_cons shape, run, bind, Except.bind]

theorem named_not_embeddedLine {name : String} {names : List String} {t : TypeExpr}
    {tokens : List Token} (written : TypeExpr.Written t tokens) (rest : List Token) :
    embeddedLine (parted .comma ((name :: names).map fun name => [.word name])
      ++ (tokens ++ rest)) = false := by
  cases names with
  | nil =>
    obtain ⟨u, more, rfl, starts⟩ := written.starts
    cases u with
    | openBracket =>
      have behind := written.behind_bracket rfl rest
      simpa [parted, embeddedLine] using behind
    | word | star | openParen | arrow => rfl
    | _ => cases starts
  | cons => rfl

theorem memberType_named (inner : ReadsTypes n type) {names : List String} {t : TypeExpr}
    {tokens : List Token} (nonempty : names ≠ [])
    (free : ∀ name ∈ names, isKeyword name = false) (written : TypeExpr.Written t tokens)
    (short : tokens.length < n) :
    Reads (memberType type) (parted .comma (names.map fun name => [.word name]) ++ tokens)
      EndsField (fun r => r.1 = names ∧ SameType t r.2) := by
  intro s rest shape ends
  rw [List.append_assoc] at shape
  have noComma : (tokens ++ rest).head? ≠ some .comma := by
    obtain ⟨u, more, rfl, starts⟩ := written.starts
    rintro comma
    obtain rfl : u = .comma := by simpa using comma
    cases starts
  obtain ⟨_, s', run, behind, rfl⟩ := names_reads nonempty free s _ shape noComma
  obtain ⟨t', s₂, run₂, behind₂, same⟩ := inner _ _ written short s' rest behind ends.stops
  obtain ⟨name, others, rfl⟩ := List.exists_cons_of_ne_nil nonempty
  have absent : s.eat? .star = none := by
    refine eat_other ?_
    obtain ⟨tail, head⟩ := parted_head .comma [.word name] (others.map fun name => [.word name])
    rw [shape, List.map_cons, head]
    simp
  have embedded : isEmbedded s = false := by
    rw [isEmbedded_eq, shape]
    exact named_not_embeddedLine written rest
  refine ⟨(name :: others, t'), s₂, ?_, behind₂, rfl, same⟩
  simp [memberType, absent, embedded, run, run₂, bind, Except.bind]

theorem member_reads (inner : ReadsTypes n type) {m : Member} {tokens : List Token}
    (written : Member.Written m tokens) (short : tokens.length < n) :
    Reads (member type) tokens EndsLine (SameMember m) := by
  intro s rest shape ends
  have finish {names : List String} {t : TypeExpr} {tag : Option String} {front : List Token}
      (reads : Reads (memberType type) front EndsField (fun r => r.1 = names ∧ SameType t r.2))
      (shape : s.tokens = (front ++ (tag.map Token.string).toList) ++ rest) :
      ∃ m' s', member type s = .ok (m', s') ∧ s'.tokens = rest ∧
        SameMember ⟨names, t, tag⟩ m' := by
    rw [List.append_assoc] at shape
    have ends' : EndsField ((tag.map Token.string).toList ++ rest) := by
      cases tag with
      | none => exact Or.inr ends
      | some tag => exact Or.inl ⟨tag, rfl⟩
    obtain ⟨⟨names', t'⟩, s', run, behind, rfl, same⟩ := reads s _ shape ends'
    cases tag with
    | none =>
      have noTag : ∀ tag, s'.peek ≠ some (.string tag) := by
        intro tag
        rw [peek_eq, behind]
        rcases ends with head | head <;> simp [head]
      refine ⟨⟨names', t', none⟩, s', ?_, behind, .mk _ _ same⟩
      simp only [member, run, bind, Except.bind]
    | some tag =>
      refine ⟨⟨names', t', some tag⟩, s'.advance, ?_, advance_cons behind, .mk _ _ same⟩
      simp [member, run, peek_cons behind, bind, Except.bind]
  cases written with
  | @named names t tag tokens nonempty free written =>
    simp only [List.length_append] at short
    exact finish (memberType_named inner nonempty free written (by omega)) shape
  | embedded fits written =>
    simp only [List.length_append] at short
    exact finish (memberType_embedded inner fits written (by omega)) shape

theorem member_starts {m : Member} {tokens : List Token} (written : Member.Written m tokens) :
    Starts .closeBrace tokens ∧ Starts .semicolon tokens := by
  cases written with
  | @named names _ _ tokens nonempty =>
    obtain ⟨name, others, rfl⟩ := List.exists_cons_of_ne_nil nonempty
    obtain ⟨tail, head⟩ := parted_head .comma [.word name] (others.map fun name => [.word name])
    rw [List.map_cons, head]
    exact ⟨⟨_, _, rfl, by simp⟩, ⟨_, _, rfl, by simp⟩⟩
  | embedded _ written =>
    obtain ⟨t, more, rfl, starts⟩ := written.starts
    refine ⟨⟨t, _, rfl, ?_⟩, ⟨t, _, rfl, ?_⟩⟩ <;> rintro rfl <;> cases starts

theorem structBody_reads (inner : ReadsTypes n type) {members : List Member}
    {runs : List (List Token)} {tokens : List Token}
    (all : List.Forall₂ Member.Written members runs) (lines : Lines runs tokens)
    (short : tokens.length < n) :
    Reads (structBody type) (.openBrace :: (tokens ++ [.closeBrace])) (fun _ => True)
      (List.Forall₂ SameMember members) := by
  intro s rest shape _
  simp only [List.cons_append, List.append_assoc, List.nil_append] at shape
  have each : List.Forall₂ (fun m run => Starts .closeBrace run ∧ Starts .semicolon run ∧
      ∀ (_ : List Member) (_ : List Member), True →
        Reads (member type) run EndsLine (SameMember m)) members runs := by
    refine forall₂_imp_of_mem all fun m run inRuns written => ?_
    have := length_le_lines lines inRuns
    obtain ⟨close, semicolon⟩ := member_starts written
    exact ⟨close, semicolon, fun _ _ _ => member_reads inner written (by omega)⟩
  have enough : runs.length < s.advance.fuel := by
    have := length_lines lines fun run inRuns => by
      obtain ⟨_, _, written⟩ := exists_of_forall₂ all inRuns
      exact (member_starts written).1.nonempty
    rw [fuel_eq, advance_cons shape, List.length_append]
    omega
  obtain ⟨members', s', run, behind, same⟩ := entries_reads (fun _ _ => True) []
    (fun _ => Or.inl) (fun _ => Or.inr) (Or.inr rfl) (fun _ _ _ _ _ _ => trivial) each lines
    trivial enough s.advance _ (advance_cons shape) rfl
  refine ⟨members', s'.advance, ?_, advance_cons behind, same⟩
  simp [structBody, expect_cons shape, run, expect_cons behind, bind, Except.bind]

/- The forms of types -/

theorem wordType_name {word : String} (free : isKeyword word = false) (s : Cursor) :
    wordType type word s = typeName type s := by
  unfold wordType
  split <;> first | (exfalso; revert free; decide) | simp [free]

theorem typeForm_named (inner : ReadsTypes n type) {t : TypeExpr} {tokens : List Token}
    (fits : t.isNamed = true ∨ ∃ base args, t = .generic base args)
    (written : TypeExpr.Written t tokens) (short : tokens.length ≤ n) :
    Reads (typeForm type) tokens Stops (SameType t) := by
  intro s rest shape stops
  obtain ⟨reads, _, w, more, rfl⟩ := embeddedName_reads inner fits written short
  obtain ⟨t', s', run, behind, same⟩ := reads s rest shape stops
  have free : isKeyword w = false := written.word_free fits
  refine ⟨t', s', ?_, behind, same⟩
  rw [List.cons_append] at shape
  simp only [typeForm, peek_cons shape, wordType_name free, run]

theorem arrayLength_reads {length : String} {front rest : List Token}
    (sized : LengthTokens length front) {s : Cursor}
    (shape : s.tokens = front ++ .closeBracket :: rest) :
    ∃ s', arrayLength s = .ok (length, s') ∧ s'.tokens = rest := by
  have whole := lengthTokens_tokens 0 s.rest
  have lexemes : s.rest.map Lexeme.token = front ++ .closeBracket :: rest := shape
  rw [lexemes, sized.read, Option.map_eq_some_iff] at whole
  obtain ⟨⟨tokens, behind⟩, taken, same⟩ := whole
  obtain ⟨rfl, rest'⟩ := Prod.mk.inj same
  exact ⟨{ s with rest := behind }, by simp [arrayLength, taken, sized.spelling], rest'⟩

theorem typeForm_array (inner : ReadsTypes n type) {length : String} {element : TypeExpr}
    {front tokens : List Token} (sized : LengthTokens length front)
    (written : TypeExpr.Written element tokens) (short : tokens.length < n) :
    Reads (typeForm type) (.openBracket :: (front ++ .closeBracket :: tokens)) Stops
      (SameType (.array length element)) := by
  intro s rest shape stops
  simp only [List.cons_append, List.append_assoc] at shape
  have bracket := advance_cons shape
  have noSlice : s.advance.eat? .closeBracket = none := by
    refine eat_other ?_
    rw [bracket]
    exact sized.head _
  obtain ⟨s₂, sizeRun, behind₂⟩ := arrayLength_reads sized bracket
  obtain ⟨t', s', run, behind, same⟩ := inner _ _ written short s₂ rest behind₂ stops
  refine ⟨.array length t', s', ?_, behind, .array length same⟩
  simp [typeForm, peek_cons shape, bracketType, noSlice, sizeRun, run, bind, Except.bind]

theorem typeForm_map (inner : ReadsTypes n type) {key value : TypeExpr} {front tokens : List Token}
    (keyWritten : TypeExpr.Written key front) (written : TypeExpr.Written value tokens)
    (short : front.length + tokens.length < n) :
    Reads (typeForm type) (.word "map" :: .openBracket :: (front ++ .closeBracket :: tokens)) Stops
      (SameType (.map key value)) := by
  intro s rest shape stops
  simp only [List.cons_append, List.append_assoc] at shape
  have bracket := advance_cons shape
  obtain ⟨key', s₂, keyRun, behind₂, sameKey⟩ :=
    inner _ _ keyWritten (by omega) _ _ (advance_cons bracket) (stops_of_head rfl rfl)
  obtain ⟨t', s', run, behind, same⟩ :=
    inner _ _ written (by omega) _ rest (advance_cons behind₂) stops
  refine ⟨.map key' t', s', ?_, behind, .map sameKey same⟩
  simp [typeForm, peek_cons shape, wordType, mapType, expect_cons bracket, keyRun,
    expect_cons behind₂, run, bind, Except.bind]

/-- An element that starts with an arrow would make a channel of both directions one to send to. -/
theorem typeForm_chan (inner : ReadsTypes n type) {direction : Direction} {element : TypeExpr}
    {tokens : List Token} (apart : direction = .both → element.isReceive = false)
    (written : TypeExpr.Written element tokens) (short : tokens.length < n) :
    Reads (typeForm type) (direction.tokens ++ tokens) Stops
      (SameType (.chan direction element)) := by
  intro s rest shape stops
  cases direction with
  | both =>
    have next := advance_cons shape
    have noArrow : s.advance.eat? .arrow = none := by
      refine eat_other ?_
      obtain ⟨t, more, rfl, _⟩ := written.starts
      rw [next]
      intro arrow
      rw [written.isReceive_of_head arrow] at apart
      cases apart rfl
    obtain ⟨t', s', run, behind, same⟩ := inner _ _ written short s.advance rest next stops
    refine ⟨.chan .both t', s', ?_, behind, .chan .both same⟩
    simp [typeForm, peek_cons shape, wordType, chanType, noArrow, run, bind, Except.bind]
  | send =>
    have next := advance_cons shape
    obtain ⟨t', s', run, behind, same⟩ :=
      inner _ _ written short s.advance.advance rest (advance_cons next) stops
    refine ⟨.chan .send t', s', ?_, behind, .chan .send same⟩
    simp [typeForm, peek_cons shape, wordType, chanType, eat_cons next, run, bind, Except.bind]
  | receive =>
    have next := advance_cons shape
    obtain ⟨t', s', run, behind, same⟩ :=
      inner _ _ written short s.advance.advance rest (advance_cons next) stops
    refine ⟨.chan .receive t', s', ?_, behind, .chan .receive same⟩
    simp [typeForm, peek_cons shape, receiveType, expect_cons next, run, bind, Except.bind]

theorem typeForm_reads (inner : ReadsTypes n type) {t : TypeExpr} {tokens : List Token}
    (written : TypeExpr.Written t tokens) (short : tokens.length ≤ n) :
    Reads (typeForm type) tokens Stops (SameType t) := by
  intro s rest shape stops
  cases written with
  | name free =>
    exact typeForm_named inner (Or.inl rfl) (.name free) short s rest shape stops
  | qualified freePackage free =>
    exact typeForm_named inner (Or.inl rfl) (.qualified freePackage free) short s rest shape stops
  | generic named written nonempty all =>
    exact typeForm_named inner (Or.inr ⟨_, _, rfl⟩) (.generic named written nonempty all) short s
      rest shape stops
  | pointer written =>
    simp only [List.length_cons] at short
    obtain ⟨t', s', run, behind, same⟩ :=
      inner _ _ written (by omega) s.advance rest (advance_cons shape) stops
    refine ⟨.pointer t', s', ?_, behind, .pointer same⟩
    simp [typeForm, peek_cons shape, run, bind, Except.bind]
  | slice written =>
    simp only [List.length_cons] at short
    have bracket := advance_cons shape
    obtain ⟨t', s', run, behind, same⟩ :=
      inner _ _ written (by omega) _ rest (advance_cons bracket) stops
    refine ⟨.slice t', s', ?_, behind, .slice same⟩
    simp [typeForm, peek_cons shape, bracketType, eat_cons bracket, run, bind, Except.bind]
  | array sized written =>
    simp only [List.length_cons, List.length_append] at short
    exact typeForm_array inner sized written (by omega) s rest shape stops
  | map keyWritten written =>
    simp only [List.length_cons, List.length_append] at short
    exact typeForm_map inner keyWritten written (by omega) s rest shape stops
  | @chan direction _ _ apart written =>
    have marked : 0 < direction.tokens.length := by cases direction <;> simp [Direction.tokens]
    simp only [List.length_append] at short
    exact typeForm_chan inner apart written (by omega) s rest shape stops
  | func written =>
    simp only [List.length_cons] at short
    obtain ⟨signature', s', run, behind, same⟩ :=
      signature_reads inner written (by omega) s.advance rest (advance_cons shape) stops
    refine ⟨.func signature', s', ?_, behind, .func same⟩
    simp [typeForm, peek_cons shape, wordType, run, bind, Except.bind]
  | interface distinct all lines =>
    simp only [List.length_cons, List.length_append] at short
    obtain ⟨elements', s', run, behind, same⟩ :=
      interfaceBody_reads inner distinct all lines (by omega) s.advance rest (advance_cons shape)
        trivial
    refine ⟨.interface elements', s', ?_, behind, .interface same⟩
    simp [typeForm, peek_cons shape, wordType, run, bind, Except.bind]
  | struct all lines =>
    simp only [List.length_cons, List.length_append] at short
    obtain ⟨members', s', run, behind, same⟩ :=
      structBody_reads inner all lines (by omega) s.advance rest (advance_cons shape) trivial
    refine ⟨.struct members', s', ?_, behind, .struct same⟩
    simp [typeForm, peek_cons shape, wordType, run, bind, Except.bind]
  | paren written =>
    simp only [List.length_cons, List.length_append] at short
    simp only [List.cons_append, List.append_assoc, List.nil_append] at shape
    obtain ⟨t', s', run, behind, same⟩ :=
      inner _ _ written (by omega) s.advance _ (advance_cons shape) (stops_of_head rfl rfl)
    refine ⟨.paren t', s'.advance, ?_, advance_cons behind, .paren same⟩
    simp [typeForm, peek_cons shape, parenType, run, expect_cons behind, bind, Except.bind]

theorem typeWithin_reads (depth : Nat) : ReadsTypes depth (typeWithin depth) := by
  induction depth with
  | zero =>
    intro t tokens written short
    omega
  | succ depth ih =>
    intro t tokens written short
    exact typeForm_reads ih written (by omega)

theorem type_reads {t : TypeExpr} {tokens : List Token} (written : TypeExpr.Written t tokens) :
    Reads Grammar.type tokens Stops (SameType t) := by
  intro s rest shape stops
  refine typeWithin_reads s.fuel t tokens written ?_ s rest shape stops
  rw [fuel_eq, shape, List.length_append]
  omega

theorem signature_reads_all {s : Signature} {tokens : List Token}
    (written : Signature.Written s tokens) :
    Reads (signature Grammar.type) tokens Stops (SameSignature s) :=
  signature_reads (fun _ _ inner _ => type_reads inner) written le_rfl

end GoSpy.Grammar
