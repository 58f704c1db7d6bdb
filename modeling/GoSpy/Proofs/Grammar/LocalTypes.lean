import GoSpy.Proofs.Grammar.Locality
/- Reading types in front of an edge is local, one reader after the other. -/
namespace GoSpy.Grammar

open Cursor

theorem lengthTokens_front {depth : Nat} {lexemes rest : List Lexeme} {tokens : List Token}
    (run : lengthTokens depth lexemes = some (tokens, rest)) :
    ∃ x front, lexemes = x :: front ++ rest ∧
      ∀ rest', lengthTokens depth (x :: front ++ rest') = some (tokens, rest') := by
  induction lexemes generalizing depth tokens with
  | nil => cases run
  | cons x more ih =>
    unfold lengthTokens at run
    split at run
    · rename_i closes
      obtain ⟨rfl, rfl⟩ := Prod.mk.inj (Option.some.inj run)
      refine ⟨x, [], rfl, ?_⟩
      intro rest'
      rw [List.cons_append, lengthTokens, if_pos closes]
      rfl
    · rename_i opens
      obtain ⟨⟨later, behind⟩, further, same⟩ := Option.map_eq_some_iff.mp run
      obtain ⟨rfl, rfl⟩ := Prod.mk.inj same
      obtain ⟨y, front, rfl, found⟩ := ih further
      refine ⟨x, y :: front, rfl, ?_⟩
      intro rest'
      rw [List.cons_append, lengthTokens, if_neg opens]
      dsimp only
      rw [found rest']
      rfl

section

variable {after after' : List Lexeme} {n : Nat}

theorem append_of_suffix {xs ys rest : List Lexeme} (whole : xs ++ after = ys ++ rest)
    (long : after.length < rest.length) : ∃ zs, zs ≠ [] ∧ xs = ys ++ zs ∧ rest = zs ++ after := by
  rcases List.append_eq_append_iff.mp whole with ⟨zs, rfl, same⟩ | ⟨zs, rfl, rfl⟩
  · have := congrArg List.length same
    rw [List.length_append] at this
    omega
  · refine ⟨zs, ?_, rfl, rfl⟩
    rintro rfl
    simp at long

theorem Twins.behind_front {s s' : Cursor} (twins : Twins after after' s s')
    {front rest : List Lexeme} (shape : s.rest = front ++ rest)
    (long : after.length < rest.length) :
    ∃ rest', s'.rest = front ++ rest' ∧ rest'.head? = rest.head? ∧
      Twins after after' { s with rest } { s' with rest := rest' } := by
  obtain ⟨xs, fronts, rest₁, rest₁'⟩ := twins
  obtain ⟨zs, some, rfl, rfl⟩ := append_of_suffix (rest₁.symm.trans shape) long
  obtain ⟨z, zs, rfl⟩ := List.exists_cons_of_ne_nil some
  exact ⟨z :: zs ++ after', by simp [rest₁'], rfl, _, fronts.suffix some, rfl, rfl⟩

theorem arrayLength_follows : Reader.Follows after after' 0 n arrayLength arrayLength := by
  intro s s' v t run
  unfold arrayLength at run
  split at run
  · rename_i tokens rest taken
    obtain ⟨rfl, rfl⟩ := Prod.mk.inj (Except.ok.inj run)
    obtain ⟨x, front, shape, found⟩ := lengthTokens_front taken
    refine ⟨⟨rfl, ⟨x :: front, shape.symm⟩, by simp [shape]; omega⟩, ?_⟩
    intro twins _ long
    obtain ⟨rest', shape', -, twins'⟩ := twins.behind_front shape long
    refine ⟨{ s' with rest := rest' }, ?_, ⟨rfl, ⟨x :: front, shape'.symm⟩, ?_⟩, twins'⟩
    · simp only [arrayLength, shape', found]
    · simp [shape']
      omega
  · cases run

theorem Looks.isEmbedded {s s' : Cursor} (looks : Looks s s') (named : s.nextIsName = true) :
    isEmbedded s' = isEmbedded s := by
  unfold Grammar.isEmbedded
  rw [looks.second (Or.inl named)]
  by_cases bracket : s.peekAt 1 = some .openBracket
  · rw [looks.lookahead named bracket]
  · split <;> first | rfl | exact absurd ‹_› bracket

/- The readers of single forms -/

variable {type type' : Reader TypeExpr} (inner : Reader.Follows after after' 1 n type type')

include inner

omit inner in
theorem typeBase_follows (first : String) :
    Reader.Follows after after' 0 n
      (fun s => match s.eat? .dot with
        | some s => do
          let (name, s) ← s.name
          .ok (.qualified first name, s)
        | none => .ok (TypeExpr.name first, s))
      (fun s => match s.eat? .dot with
        | some s => do
          let (name, s) ← s.name
          .ok (.qualified first name, s)
        | none => .ok (TypeExpr.name first, s)) := by
  refine .of_looks fun s s' looks => ?_
  rcases looks.eat .dot with ⟨other, other'⟩ | ⟨dot, eaten, eaten'⟩
  · rw [other, other']
    exact .ok _
  · rw [eaten, eaten']
    refine .beyond dot (.bind (Reader.Follows.name.free _ _) fun name => ?_)
    exact .ok (TypeExpr.qualified first name)

theorem typeName_follows :
    Reader.Follows after after' 1 (n + 1) (typeName type) (typeName type') := by
  unfold typeName
  refine .bind .name fun first => ?_
  refine .bind (typeBase_follows first) fun base => .of_looks fun s s' looks => ?_
  dsimp only
  rw [looks.peek]
  by_cases bracket : s.peek = some .openBracket
  · rw [looks.second (Or.inr bracket)]
    split
    · exact .ok base
    · refine (GoSpy.Follows.behind bracket ?_).weaken (Nat.zero_le 1) le_rfl
      refine .bind (.fueled (Reader.Follows.commaItems inner _ _ _ _ _)) fun args => ?_
      exact .expect _ (.ok (TypeExpr.generic base args))
  · rw [if_pos (by simp [bracket]), if_pos (by simp [bracket])]
    exact .ok base

theorem term_follows : Reader.Follows after after' 1 n (term type) (term type') := by
  refine .of_looks fun s s' looks => ?_
  unfold term
  rcases looks.eat .tilde with ⟨other, other'⟩ | ⟨tilde, eaten, eaten'⟩
  · rw [other, other']
    refine .bind (inner s s') fun t => ?_
    exact .ok (Term.mk false t)
  · rw [eaten, eaten']
    refine (GoSpy.Follows.behind tilde (.bind (inner.free _ _) fun t => ?_)).weaken le_rfl
      (Nat.le_succ n)
    exact .ok (Term.mk true t)

theorem constraint_follows : Reader.Follows after after' 1 n (constraint type) (constraint type') := by
  intro s s'
  refine .bind (.fueled ((term_follows inner).separated .pipe _ _ s s')) fun terms => ?_
  exact .ok (ofTerms terms)

theorem entryType_follows (constrained : Bool) :
    Reader.Follows after after' 1 n (entryType type constrained) (entryType type' constrained) := by
  refine .of_looks fun s s' looks => ?_
  unfold entryType
  rcases looks.eat .ellipsis with ⟨other, other'⟩ | ⟨dots, eaten, eaten'⟩
  · rw [other, other']
    dsimp only
    split
    · exact constraint_follows inner s s'
    · exact inner s s'
  · rw [eaten, eaten']
    refine (GoSpy.Follows.behind dots (.bind (inner.free _ _) fun t => ?_)).weaken le_rfl
      (Nat.le_succ n)
    exact .ok (TypeExpr.variadic t)

theorem entry_follows (close : Token) (constrained : Bool) :
    Reader.Follows after after' 1 n (entry type close constrained)
      (entry type' close constrained) := by
  refine .of_looks fun s s' looks => ?_
  unfold entry
  rw [looks.startsWithName]
  split
  · refine .bind (Reader.Follows.name s s') fun name => ?_
    refine .bind (entryType_follows inner constrained).free fun t => ?_
    exact .ok (some name, t)
  · refine .bind (entryType_follows inner constrained s s') fun t => ?_
    exact .ok (none, t)

theorem fieldList_follows («open» close : Token) (constrained : Bool) :
    Reader.Follows after after' 0 n (fieldList type «open» close constrained)
      (fieldList type' «open» close constrained) := by
  refine .of_looks fun s s' looks => ?_
  unfold fieldList
  refine .expect looks _ fun s₁ s₁' => ?_
  have items := (entry_follows inner close constrained).commaItems close s₁.fuel s₁'.fuel
  refine .bind (.fueled (items s₁ s₁')) fun entries => .expect _ ?_
  split
  · exact .ok _
  · exact fun _ _ => .error

theorem params_follows : Reader.Follows after after' 0 n (params type) (params type') :=
  fieldList_follows inner _ _ _

theorem results_follows : Reader.Follows after after' 0 n (results type) (results type') := by
  refine .of_looks fun s s' looks => ?_
  unfold results
  rw [looks.peek]
  split
  · exact params_follows inner s s'
  · split
    · refine .bind (inner.free s s') fun result => ?_
      exact .ok [Field.mk [] result]
    · exact .ok []

theorem signature_follows : Reader.Follows after after' 0 n (signature type) (signature type') := by
  unfold signature
  refine .bind (params_follows inner) fun params => ?_
  refine .bind (results_follows inner) fun results => ?_
  exact .ok (Signature.mk params results)

theorem element_follows (before : List Element) :
    Reader.Follows after after' 1 n (element type before) (element type' before) := by
  refine .of_looks fun s s' looks => ?_
  unfold element
  rw [looks.nextIsName]
  by_cases named : s.nextIsName = true
  · obtain ⟨t, there, isName⟩ : ∃ t, s.peek = some t ∧ t.isName = true := by
      simpa [nextIsName, Option.any_eq_true] using named
    rw [looks.second (Or.inl named), looks.line there]
    split
    · refine .bind (Reader.Follows.name s s') fun name => ?_
      by_cases repeated : (methodNames before).contains name = true
      · simp only [if_pos repeated]
        exact fun _ _ => .error
      · simp only [if_neg repeated]
        refine .bind (signature_follows inner) fun signature => ?_
        exact .ok (Element.method name signature s.line)
    · refine .bind (constraint_follows inner s s') fun t => ?_
      exact .ok (Element.embedded t)
  · rw [if_neg (by simp [named]), if_neg (by simp [named])]
    refine .bind (constraint_follows inner s s') fun t => ?_
    exact .ok (Element.embedded t)

theorem interfaceBody_follows :
    Reader.Follows after after' 0 n (interfaceBody type) (interfaceBody type') := by
  unfold interfaceBody
  refine .expect _ (.bind (fun s s' => ?_) fun elements => .expect _ ?_)
  · exact .fueled (Reader.Follows.entries (element_follows inner) _ _ _ _ s s')
  · exact .ok elements

omit inner in
theorem memberType_unnamed {s : Cursor} (apart : s.eat? .star = none) (other : s.nextIsName = false) :
    ∃ fault, memberType type s = .error fault := by
  have named : ∃ fault, s.name = .error fault := by
    cases read : s.name with
    | error fault => exact ⟨fault, rfl⟩
    | ok result =>
      obtain ⟨there, free, -⟩ := name_eq_ok read
      simp [nextIsName, there, Token.isName, free] at other
  obtain ⟨fault, named⟩ := named
  unfold memberType
  rw [apart]
  dsimp only
  split
  · exact ⟨fault, by rw [typeName, named]; rfl⟩
  · exact ⟨fault, by rw [Reader.names, fuel, Reader.separated, named]; rfl⟩

theorem memberType_follows : Reader.Follows after after' 1 n (memberType type) (memberType type') := by
  have named := (typeName_follows inner).weaken le_rfl (Nat.le_succ n)
  refine .of_looks fun s s' looks => ?_
  unfold memberType
  rcases looks.eat .star with ⟨other, other'⟩ | ⟨star, eaten, eaten'⟩
  · rw [other, other']
    by_cases isName : s.nextIsName = true
    · rw [looks.isEmbedded isName]
      dsimp only
      split
      · refine .bind (named s s') fun t => ?_
        exact .ok ([], t)
      · refine .bind (Reader.Follows.names s s') fun names => ?_
        dsimp only
        refine .bind inner.free fun t => ?_
        exact .ok (names, t)
    · obtain ⟨fault, fails⟩ : ∃ fault, memberType type s = .error fault :=
        memberType_unnamed other (by simpa using isName)
      unfold memberType at fails
      rw [other] at fails
      rw [fails]
      exact .error
  · rw [eaten, eaten']
    refine (GoSpy.Follows.behind star (.bind (named.free _ _) fun t => ?_)).weaken le_rfl
      (Nat.le_succ n)
    exact .ok ([], TypeExpr.pointer t)

theorem member_follows : Reader.Follows after after' 1 n (member type) (member type') := by
  unfold member
  refine .bind (memberType_follows inner) fun (names, t) => .of_looks fun s s' looks => ?_
  dsimp only
  rw [looks.peek]
  split
  · exact .beyond ‹_› (.ok _)
  · exact .ok _

theorem structBody_follows :
    Reader.Follows after after' 0 n (structBody type) (structBody type') := by
  unfold structBody
  refine .expect _ (.bind (fun s s' => ?_) fun members => .expect _ ?_)
  · exact .fueled (Reader.Follows.entries (fun _ => member_follows inner) _ _ _ _ s s')
  · exact .ok members

theorem mapType_follows : Reader.Follows after after' 0 n (mapType type) (mapType type') := by
  unfold mapType
  refine .expect _ (.bind inner.free fun key => .expect _ (.bind inner.free fun value => ?_))
  exact .ok (TypeExpr.map key value)

theorem chanType_follows : Reader.Follows after after' 0 n (chanType type) (chanType type') := by
  refine .of_looks fun s s' looks => ?_
  unfold chanType
  rcases looks.eat .arrow with ⟨other, other'⟩ | ⟨arrow, eaten, eaten'⟩
  · rw [other, other']
    refine .bind (inner.free s s') fun t => ?_
    exact .ok (TypeExpr.chan .both t)
  · rw [eaten, eaten']
    refine .beyond arrow (.bind (inner.free _ _) fun t => ?_)
    exact .ok (TypeExpr.chan .send t)

theorem bracketType_follows :
    Reader.Follows after after' 0 n (bracketType type) (bracketType type') := by
  refine .of_looks fun s s' looks => ?_
  unfold bracketType
  rcases looks.eat .closeBracket with ⟨other, other'⟩ | ⟨close, eaten, eaten'⟩
  · rw [other, other']
    refine .bind (arrayLength_follows s s') fun length => .bind inner.free fun t => ?_
    exact .ok (TypeExpr.array length t)
  · rw [eaten, eaten']
    refine .beyond close (.bind (inner.free _ _) fun t => ?_)
    exact .ok (TypeExpr.slice t)

theorem receiveType_follows :
    Reader.Follows after after' 0 n (receiveType type) (receiveType type') := by
  unfold receiveType
  refine .expect _ (.bind inner.free fun t => ?_)
  exact .ok (TypeExpr.chan .receive t)

theorem parenType_follows : Reader.Follows after after' 0 n (parenType type) (parenType type') := by
  unfold parenType
  refine .bind inner.free fun t => .expect _ ?_
  exact .ok (TypeExpr.paren t)

theorem wordType_follows {s s' : Cursor} {word : String} (there : s.peek = some (.word word)) :
    Follows after after' 1 (n + 1) s s' (wordType type word s) (wordType type' word s') := by
  unfold wordType
  split
  · exact .behind there (mapType_follows inner _ _)
  · exact .behind there (chanType_follows inner _ _)
  · refine .behind there (.bind (signature_follows inner _ _) fun sig => ?_)
    exact .ok (TypeExpr.func sig)
  · refine .behind there (.bind (interfaceBody_follows inner _ _) fun elements => ?_)
    exact .ok (TypeExpr.interface elements)
  · refine .behind there (.bind (structBody_follows inner _ _) fun members => ?_)
    exact .ok (TypeExpr.struct members)
  · split
    · exact .error
    · exact typeName_follows inner s s'

theorem typeForm_follows :
    Reader.Follows after after' 1 (n + 1) (typeForm type) (typeForm type') := by
  refine .of_looks fun s s' looks => ?_
  unfold typeForm
  rw [looks.peek]
  split
  · exact wordType_follows inner ‹_›
  · refine .behind ‹_› (.bind (inner.free _ _) fun t => ?_)
    exact .ok (TypeExpr.pointer t)
  · exact .behind ‹_› (bracketType_follows inner _ _)
  · exact .behind ‹_› (receiveType_follows inner _ _)
  · exact .behind ‹_› (parenType_follows inner _ _)
  · exact .error

end

section

variable {after after' : List Lexeme}

theorem typeWithin_follows (depth depth' : Nat) :
    Reader.Follows after after' 1 depth' (typeWithin depth) (typeWithin depth') := by
  induction depth generalizing depth' with
  | zero => exact fun _ _ => .error
  | succ depth ih =>
    cases depth' with
    | zero => exact fun s s' => .starved (typeForm_follows (ih 0) s s')
    | succ depth' => exact typeForm_follows (ih depth')

theorem type_follows (n : Nat) : Reader.Follows after after' 1 n Grammar.type Grammar.type := by
  intro s s'
  refine .fueled ((typeWithin_follows s.fuel s'.fuel).weaken le_rfl ?_ s s')
  omega

end

end GoSpy.Grammar
