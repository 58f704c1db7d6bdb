import GoSpy.Proofs.Grammar.LocalTypes
import GoSpy.Proofs.Grammar.Nesting
import GoSpy.Proofs.Grammar.SafeFiles
/- Reading declarations in front of an edge is local, with the bodies and the initial values that are
   passed over on the way. -/
namespace GoSpy.Grammar

open Cursor Reader

/- Parts of declarations -/

def aliasType (name : String) (typeParams : List Field) (line : Nat) : Reader TypeSpec := fun s => do
  let (isAlias, s) := match s.eat? .assign with
    | some s => (true, s)
    | none => (false, s)
  let (type, s) ← Grammar.type s
  .ok (⟨name, typeParams, isAlias, type, line⟩, s)

def funcHead (place : Place) : Reader FuncDecl := fun s => do
  let (receiver, s) ← receiver place.line s
  let (name, s) ← s.name
  let (typeParams, s) ←
    if s.peek = some .openBracket then typeParams type s else .ok ([], s)
  let (signature, s) ← signature type s
  .ok (⟨receiver, name, typeParams, signature, none, place⟩, s)

def funcBody (s : Cursor) : Except Fault Cursor :=
  if s.peek = some .openBrace then skipBlock s else .ok s

theorem funcDecl_eq (place : Place) (s : Cursor) :
    funcDecl place s = funcHead place s >>= fun r => funcBody r.2 >>= fun t => .ok (r.1, t) := by
  unfold funcDecl funcHead funcBody
  cases receiver place.line s with
  | error => rfl
  | ok receiver =>
    cases named : receiver.2.name with
    | error => simp only [bind, Except.bind, named]
    | ok name =>
      simp only [bind, Except.bind, named]
      split
      · cases typeParams type name.2 with
        | error => rfl
        | ok params =>
          dsimp only
          cases signature type params.2 with
          | error => rfl
          | ok signature =>
            dsimp only
            split <;> rfl
      · cases signature type name.2 with
        | error => rfl
        | ok signature =>
          dsimp only
          split <;> rfl

def valueHead : Reader ValueSpec := fun s => do
  let (names, s) ← Reader.names s
  let (type, s) ← valueType s
  .ok (⟨names, type⟩, s)

def initialValues (s : Cursor) : Except Fault Cursor :=
  match s.eat? .assign with
  | some s => skipValues s
  | none => .ok s

theorem valueSpec_eq (s : Cursor) :
    valueSpec s = valueHead s >>= fun r => initialValues r.2 >>= fun t => .ok (r.1, t) := by
  unfold valueSpec valueHead initialValues
  cases Reader.names s with
  | error => rfl
  | ok names =>
    cases read : valueType names.2 with
    | error => simp only [bind, Except.bind, read]
    | ok type =>
      simp only [bind, Except.bind, read]
      cases type.2.eat? .assign <;> rfl

def fileHead : Reader (String × List ImportSpec) := fun s => do
  let s ← s.skipSemicolons.expect (.word "package")
  let (package, s) ← s.name
  let s ← s.endEntry
  let (imports, s) ← imports s.fuel s
  .ok ((package, imports), s)

theorem sourceFile_eq (file : String) (s : Cursor) :
    sourceFile file s = fileHead s >>= fun r =>
      decls file r.2.fuel r.2 >>= fun d => .ok (⟨r.1.1, r.1.2, d.1⟩, d.2) := by
  unfold sourceFile fileHead
  cases s.skipSemicolons.expect (.word "package") with
  | error => rfl
  | ok s₁ =>
    cases named : s₁.name with
    | error => simp only [bind, Except.bind, named]
    | ok package =>
      cases ended : package.2.endEntry with
      | error => simp only [bind, Except.bind, named, ended]
      | ok s₂ =>
        simp only [bind, Except.bind, named, ended]
        cases imports s₂.fuel s₂ <;> rfl

/- Passing over -/

theorem behindBlock_front {depth : Nat} {lexemes rest : List Lexeme}
    (run : behindBlock depth lexemes = some rest) :
    ∃ front, lexemes = front ++ rest ∧
      ∀ rest', behindBlock depth (front ++ rest') = some rest' := by
  induction lexemes generalizing depth with
  | nil => cases run
  | cons x lexemes ih =>
    have further {deep : Nat} (later : behindBlock deep lexemes = some rest)
        (same : ∀ more, behindBlock depth (x :: more) = behindBlock deep more) :
        ∃ front, x :: lexemes = front ++ rest ∧
          ∀ rest', behindBlock depth (front ++ rest') = some rest' := by
      obtain ⟨front, rfl, found⟩ := ih later
      exact ⟨x :: front, rfl, fun rest' => (same _).trans (found rest')⟩
    unfold behindBlock at run
    split at run
    · exact further run fun more => by simp only [behindBlock, *]
    · split at run
      · obtain rfl := Option.some.inj run
        exact ⟨[x], rfl, fun rest' => by simp only [List.singleton_append, behindBlock, *, if_true]⟩
      · exact further run fun more => by simp only [behindBlock, *, if_false]
    · exact further run fun more => by rw [behindBlock]; split <;> first | contradiction | rfl

theorem behindValues_front {start : Nat} (start' : Nat) {depth : Nat} {lexemes rest : List Lexeme}
    (run : behindValues start depth lexemes = .ok rest) :
    ∃ front, lexemes = front ++ rest ∧ ∀ rest', rest'.head? = rest.head? →
      behindValues start' depth (front ++ rest') = .ok rest' := by
  induction lexemes generalizing depth with
  | nil =>
    unfold behindValues at run
    split at run
    · rename_i flat
      obtain rfl := Except.ok.inj run
      refine ⟨[], rfl, ?_⟩
      intro rest' none
      obtain rfl := List.head?_eq_none_iff.mp none
      simp [behindValues, flat]
    · cases run
  | cons x lexemes ih =>
    rcases behindValues_cons run with ⟨rfl, ends, rfl⟩ | ⟨deep, later, same⟩
    · refine ⟨[], rfl, fun rest' first => behindValues_end ?_⟩
      simpa [first] using ends
    · obtain ⟨front, rfl, found⟩ := ih later
      exact ⟨x :: front, rfl, fun rest' first => (same ..).trans (found rest' first)⟩

section

variable {after after' : List Lexeme} {n : Nat} {α : Type}

def StepFollows (after after' : List Lexeme) (step : Cursor → Except Fault Cursor) : Prop :=
  ∀ s s' t, step s = .ok t → s.Past 0 t ∧
    (Twins after after' s s' → after.length < t.rest.length →
      ∃ t', step s' = .ok t' ∧ s'.Past 0 t' ∧ Twins after after' t t')

theorem StepFollows.bind {step : Cursor → Except Fault Cursor}
    (follows : StepFollows after after' step) {f f' : Reader α}
    (later : Reader.Follows after after' 0 n f f') :
    Reader.Follows after after' 0 n (fun s => step s >>= f) (fun s => step s >>= f') := by
  intro s s' v u run
  obtain ⟨t, run₁, run₂⟩ := bind_eq_ok.mp run
  obtain ⟨past₁, both⟩ := follows s s' t run₁
  have past₂ := (later t t v u run₂).1
  refine ⟨(past₁.trans past₂).weaken (by omega), ?_⟩
  intro twins less long
  have further := past₂.length
  obtain ⟨t', run₁', past₁', twins'⟩ := both twins (by omega)
  have further' := past₁'.length
  obtain ⟨u', run₂', past₂', twins''⟩ := (later t t' v u run₂).2 twins' (by omega) long
  exact ⟨u', bind_eq_ok.mpr ⟨_, run₁', run₂'⟩, (past₁'.trans past₂').weaken (by omega), twins''⟩

theorem StepFollows.of_reader {step : Cursor → Except Fault Cursor}
    (follows : ∀ n, Reader.Follows after after' 0 n (fun s => step s >>= fun t => .ok ((), t))
      (fun s => step s >>= fun t => .ok ((), t))) : StepFollows after after' step := by
  intro s s' t run
  have whole : (step s >>= fun t => .ok ((), t)) = .ok ((), t) := bind_eq_ok.mpr ⟨t, run, rfl⟩
  obtain ⟨past, both⟩ := follows (s'.rest.length + 1) s s' () t whole
  refine ⟨past, ?_⟩
  intro twins long
  obtain ⟨t', run', past', twins'⟩ := both twins (Nat.lt_succ_self _) long
  obtain ⟨u, step', same⟩ := bind_eq_ok.mp run'
  obtain ⟨-, rfl⟩ := Prod.mk.inj (Except.ok.inj same)
  exact ⟨u, step', past', twins'⟩

theorem Safe.past {step : Cursor → Except Fault Cursor} {s t : Cursor}
    (safe : s.Safe (s.Past 0) (step s)) (run : step s = .ok t) : s.Past 0 t := by
  rw [run] at safe
  exact safe

theorem skipBlock_follows : StepFollows after after' skipBlock := by
  intro s s' t run
  refine ⟨Safe.past (skipBlock_safe s) run, ?_⟩
  intro twins long
  unfold skipBlock at run
  split at run
  · rename_i rest block
    obtain rfl := Except.ok.inj run
    obtain ⟨front, shape, found⟩ := behindBlock_front block
    obtain ⟨rest', shape', -, twins'⟩ := twins.behind_front shape long
    have run' : skipBlock s' = .ok { s' with rest := rest' } := by
      rw [skipBlock, shape', found]
    exact ⟨_, run', Safe.past (skipBlock_safe s') run', twins'⟩
  · cases run

theorem skipValues_follows : StepFollows after after' skipValues := by
  intro s s' t run
  refine ⟨Safe.past (skipValues_safe s) run, ?_⟩
  intro twins long
  obtain ⟨rest, values, same⟩ := bind_eq_ok.mp run
  obtain rfl := Except.ok.inj same
  obtain ⟨front, shape, found⟩ := behindValues_front s'.line values
  obtain ⟨rest', shape', first, twins'⟩ := twins.behind_front shape long
  have run' : skipValues s' = .ok { s' with rest := rest' } := by
    simp only [skipValues, shape', found rest' first, bind, Except.bind]
  exact ⟨_, run', Safe.past (skipValues_safe s') run', twins'⟩

/- The readers of declarations -/

theorem string_follows : Reader.Follows after after' 1 n Cursor.string Cursor.string := by
  refine .of_looks fun s s' looks => ?_
  unfold Cursor.string
  rw [looks.peek]
  split
  · exact (GoSpy.Follows.behind ‹_› (.ok _)).weaken le_rfl (Nat.le_succ n)
  · exact .error

theorem importName_follows : Reader.Follows after after' 0 n importName importName := by
  refine .of_looks fun s s' looks => ?_
  unfold importName
  rw [looks.peek]
  split
  · exact .beyond ‹_› (.ok _)
  · refine .bind (Reader.Follows.name.free s s') fun name => ?_
    exact .ok (some name)
  · exact .ok none

theorem importSpec_follows : Reader.Follows after after' 1 n importSpec importSpec := by
  refine .of_looks fun s s' looks => ?_
  cases there : s.peek with
  | none =>
    have fails : importSpec s = s.fail (.expectedString none) := by
      simp only [importSpec, importName, there, bind, Except.bind, Cursor.string]
      rfl
    rw [fails]
    exact .error
  | some t =>
    unfold importSpec
    dsimp only
    rw [looks.line there]
    refine .bindLater (importName_follows s s') fun name => ?_
    dsimp only
    refine .bind string_follows fun literal => ?_
    exact .ok (ImportSpec.mk name (unquote literal) s.line)

theorem startsTypeParams_looks {s s' : Cursor} (looks : Looks s s')
    (bracket : s.peek = some .openBracket) : startsTypeParams s' = startsTypeParams s := by
  unfold startsTypeParams
  rw [looks.second (Or.inr bracket)]
  by_cases named : (s.peekAt 1).any Token.isName = true
  · rw [looks.third bracket named]
  · simp [named]

theorem typeParams_follows :
    Reader.Follows after after' 0 n (typeParams Grammar.type) (typeParams Grammar.type) :=
  fieldList_follows (type_follows n) _ _ _

theorem aliasType_follows (name : String) (fields : List Field) (line : Nat) :
    Reader.Follows after after' 0 n (aliasType name fields line) (aliasType name fields line) := by
  refine .of_looks fun s s' looks => ?_
  unfold aliasType
  rcases looks.eat .assign with ⟨other, other'⟩ | ⟨there, eaten, eaten'⟩
  · rw [other, other']
    refine .bind ((type_follows n).free s s') fun t => ?_
    exact .ok _
  · rw [eaten, eaten']
    refine .beyond there (.bind ((type_follows n).free _ _) fun t => ?_)
    exact .ok _

theorem typeSpec_follows : Reader.Follows after after' 1 n typeSpec typeSpec := by
  refine .of_looks fun s s' looks => ?_
  cases there : s.peek with
  | none =>
    have fails : typeSpec s = s.fail (.expectedName none) := by
      simp only [typeSpec, Cursor.name, there, bind, Except.bind]
      rfl
    rw [fails]
    exact .error
  | some t =>
    unfold typeSpec
    dsimp only
    rw [looks.line there]
    refine .bind (Reader.Follows.name s s') fun name => .of_looks fun t t' looks => ?_
    dsimp only
    rw [looks.peek]
    by_cases bracket : t.peek = some .openBracket
    · rw [startsTypeParams_looks looks bracket]
      split
      · exact .bind (typeParams_follows t t') fun fields => aliasType_follows name fields s.line
      · exact aliasType_follows name [] s.line t t'
    · rw [if_neg (by simp [bracket]), if_neg (by simp [bracket])]
      exact aliasType_follows name [] s.line t t'

theorem receiver_follows (line : Nat) :
    Reader.Follows after after' 0 n (receiver line) (receiver line) := by
  refine .of_looks fun s s' looks => ?_
  unfold receiver
  rw [looks.peek]
  split
  · refine .bind (params_follows (type_follows n) s s') fun fields => ?_
    dsimp only
    split
    · split
      · exact .ok _
      · exact fun _ _ => .error
    · exact fun _ _ => .error
  · exact .ok none

theorem funcHead_follows (place : Place) :
    Reader.Follows after after' 1 n (funcHead place) (funcHead place) := by
  intro s s'
  refine .bindLater (receiver_follows place.line s s') fun receiver => .bind .name fun name => ?_
  refine .of_looks fun t t' looks => ?_
  have signed (fields : List Field) : Reader.Follows after after' 0 n
      (fun s => signature Grammar.type s >>= fun r =>
        .ok (FuncDecl.mk receiver name fields r.1 none place, r.2))
      (fun s => signature Grammar.type s >>= fun r =>
        .ok (FuncDecl.mk receiver name fields r.1 none place, r.2)) := by
    refine .bind (signature_follows (type_follows n)) fun signature => ?_
    exact .ok (FuncDecl.mk receiver name fields signature none place)
  dsimp only
  rw [looks.peek]
  split
  · exact .bind (typeParams_follows t t') signed
  · exact signed [] t t'

theorem funcDecl_follows (place : Place) :
    Reader.Follows after after' 1 n (funcDecl place) (funcDecl place) := by
  intro s s'
  rw [funcDecl_eq, funcDecl_eq]
  refine .bind (funcHead_follows place s s') fun d => .of_looks fun t t' looks => ?_
  dsimp only [funcBody]
  rw [looks.peek]
  split
  · exact skipBlock_follows.bind (.ok d) t t'
  · exact .ok d

theorem valueType_follows : Reader.Follows after after' 0 n valueType valueType := by
  refine .of_looks fun s s' looks => ?_
  unfold valueType
  rw [looks.peek]
  split
  iterate 4 exact .ok none
  refine .bind ((type_follows n).free s s') fun t => ?_
  exact .ok (some t)

theorem valueHead_follows : Reader.Follows after after' 1 n valueHead valueHead := by
  unfold valueHead
  refine .bind .names fun names => .bind valueType_follows fun t => ?_
  exact .ok (ValueSpec.mk names t)

theorem valueSpec_follows : Reader.Follows after after' 1 n valueSpec valueSpec := by
  intro s s'
  rw [valueSpec_eq, valueSpec_eq]
  refine .bind (valueHead_follows s s') fun spec => .of_looks fun t t' looks => ?_
  dsimp only [initialValues]
  rcases looks.eat .assign with ⟨other, other'⟩ | ⟨there, eaten, eaten'⟩
  · rw [other, other']
    exact .ok spec
  · rw [eaten, eaten']
    exact .beyond there (skipValues_follows.bind (.ok spec) _ _)

theorem group_follows {item : Reader α} (each : Reader.Follows after after' 1 n item item) :
    Reader.Follows after after' 1 n (group item) (group item) := by
  refine .of_looks fun s s' looks => ?_
  unfold group
  rcases looks.eat .openParen with ⟨other, other'⟩ | ⟨there, eaten, eaten'⟩
  · rw [other, other']
    refine .bind (each s s') fun x => ?_
    exact .ok ([x], false)
  · rw [eaten, eaten']
    refine (GoSpy.Follows.behind there ?_).weaken le_rfl (Nat.le_succ n)
    have all := Reader.Follows.entries (fun _ => each) .closeParen s.advance.fuel s'.advance.fuel []
    refine .bind (.fueled (all s.advance s'.advance)) fun xs => .expect _ ?_
    exact .ok (xs, true)

theorem valueDecl_follows (kind : ValueKind) (place : Place) :
    Reader.Follows after after' 1 n (valueDecl kind place) (valueDecl kind place) := by
  unfold valueDecl
  refine .bind (group_follows valueSpec_follows) fun specs => ?_
  exact .ok (Decl.value ⟨kind, specs.1, place⟩)

theorem decl_follows (file : String) :
    Reader.Follows after after' 1 n (decl file) (decl file) := by
  refine .of_looks fun s s' looks => ?_
  cases there : s.peek with
  | none =>
    have fails : decl file s = s.fail (.expectedDeclaration none) := by
      simp only [decl, there]
    rw [fails]
    exact .error
  | some t =>
    unfold decl
    rw [looks.peek, looks.line there]
    dsimp only
    split
    · refine (GoSpy.Follows.behind ‹_› (.bind ((group_follows typeSpec_follows).free _ _)
        fun specs => ?_)).weaken le_rfl (Nat.le_succ n)
      exact .ok (Decl.type ⟨specs.1, specs.2, ⟨file, s.line⟩⟩)
    · refine (GoSpy.Follows.behind ‹_› (.bind ((funcDecl_follows _).free _ _)
        fun func => ?_)).weaken le_rfl (Nat.le_succ n)
      exact .ok (Decl.func func)
    iterate 2
      exact (GoSpy.Follows.behind ‹_› ((valueDecl_follows _ _).free _ _)).weaken le_rfl
        (Nat.le_succ n)
    iterate 3 exact .error

theorem endDecl_follows {f f' : Reader α} (later : Reader.Follows after after' 0 n f f') :
    Reader.Follows after after' 0 n (fun s => endDecl s >>= f) (fun s => endDecl s >>= f') := by
  refine .of_looks fun s s' looks => ?_
  unfold endDecl
  rw [looks.peek]
  split
  · exact later s s'
  · exact .expect looks .semicolon later

theorem endDecl_steps : StepFollows after after' endDecl :=
  .of_reader fun _ => endDecl_follows (.ok ())

theorem endEntry_steps : StepFollows after after' Cursor.endEntry :=
  .of_reader fun _ => .endEntry (.ok ())

theorem imports_follows (fuel fuel' : Nat) :
    Reader.Follows after after' 0 (min n fuel') (imports fuel) (imports fuel') := by
  induction fuel generalizing fuel' with
  | zero => exact fun _ _ => .error
  | succ fuel ih =>
    refine .of_rounds imports fuel' fun fuel' => ?_
    intro s s'
    refine .skip ?_
    simp only [imports]
    generalize s.skipSemicolons = s₁
    generalize s'.skipSemicolons = s₁'
    revert s₁ s₁'
    refine Reader.Follows.of_looks fun s₁ s₁' looks => ?_
    rcases looks.eat (.word "import") with ⟨other, other'⟩ | ⟨there, eaten, eaten'⟩
    · rw [other, other']
      exact .ok []
    · rw [eaten, eaten']
      refine (GoSpy.Follows.behind there (n := min n fuel') ?_).weaken (by omega) (by omega)
      refine .bind ((group_follows importSpec_follows).free _ _) fun specs => ?_
      dsimp only
      refine .endEntry ?_
      refine .bind (ih fuel') fun rest => ?_
      exact .ok (specs.1 ++ rest)

theorem fileHead_follows : Reader.Follows after after' 0 n fileHead fileHead := by
  intro s s'
  refine .skip ?_
  unfold fileHead
  generalize s.skipSemicolons = s₁
  generalize s'.skipSemicolons = s₁'
  revert s₁ s₁'
  refine Reader.Follows.expect _ ?_
  refine .bind Reader.Follows.name.free fun package => .endEntry fun s s' => ?_
  refine .bind (.fueled (imports_follows s.fuel s'.fuel s s')) fun imports => ?_
  exact .ok (package, imports)

end

/- Items take tokens -/

theorem valueSpec_takes (s : Cursor) (spec : ValueSpec) (t : Cursor)
    (run : valueSpec s = .ok (spec, t)) : s.Past 1 t :=
  (valueSpec_follows : Reader.Follows [] [] 1 0 valueSpec valueSpec).past run

theorem decl_takes (file : String) (s : Cursor) (d : Decl) (t : Cursor)
    (run : decl file s = .ok (d, t)) : s.Past 1 t :=
  (decl_follows file : Reader.Follows [] [] 1 0 (decl file) (decl file)).past run

end GoSpy.Grammar
