import GoSpy.Spy.Generation
import Mathlib.Data.List.Forall2
/- Spies with a lock against spies without one. The two are generated alike, declaration by
   declaration: with the lock a record has one field more, in front of all others, and a method two
   statements more, in front of all others. So the lock is held from the first statement of a method
   until all of its other statements have taken effect. -/
namespace GoSpy

def lockCall (receiver method : String) : Expr :=
  .call (.select (.select (.ident receiver) Naming.lockField) method) []

def guarded (receiver : String) (statements : List Statement) : List Statement :=
  .run (lockCall receiver "Lock") :: .defer (lockCall receiver "Unlock") :: statements

/-- A declaration for a spy without a lock, and the declaration for the spy with one. -/
inductive Decl.Locked : Decl → Decl → Prop where
  | record {spec : TypeSpec} {members : List Member} {place : Place}
      (struct : spec.type = .struct members) :
      Locked (.type ⟨[spec], false, place⟩)
        (.type ⟨[{ spec with
          type := .struct (⟨[Naming.lockField], .qualified "sync" "Mutex", none⟩ :: members) }],
          false, place⟩)
  | method {d : FuncDecl} {name : String} {type : TypeExpr} {statements : List Statement}
      (receiver : d.receiver = some ⟨[name], type⟩) (body : d.body = some statements) :
      Locked (.func d) (.func { d with body := some (guarded name statements) })

mutual

def Expr.calls : Expr → List Expr
  | .ident _ => []
  | .select base _ => base.calls
  | .call function args => .call function args :: (function.calls ++ exprCalls args)

def exprCalls : List Expr → List Expr
  | [] => []
  | expr :: rest => expr.calls ++ exprCalls rest

end

def Statement.calls : Statement → List Expr
  | .assign target value => target.calls ++ value.calls
  | .run call => call.calls
  | .defer call => call.calls
  | .give values => exprCalls values

/-- The statements of a body in the order in which they take effect: nothing behind a `return` is
    reached, and what is deferred takes effect at the end, the last one first. -/
def effects : List Statement → List Statement
  | [] => []
  | .defer call :: rest => effects rest ++ [.run call]
  | .give values :: _ => [.give values]
  | statement :: rest => statement :: effects rest

/-- The method holds the lock of its receiver while all other statements of its body take effect,
    and none of these calls anything. -/
def FuncDecl.HoldsLock (d : FuncDecl) : Prop :=
  ∃ name type statements, d.receiver = some ⟨[name], type⟩ ∧
    d.body = some (guarded name statements) ∧
    effects (guarded name statements) =
      .run (lockCall name "Lock") :: statements ++ [.run (lockCall name "Unlock")] ∧
    ∀ s ∈ statements, s.calls = []

/- The body of a method -/

theorem effects_guarded (receiver : String) (statements : List Statement) :
    effects (guarded receiver statements) =
      .run (lockCall receiver "Lock") :: effects statements ++
        [.run (lockCall receiver "Unlock")] := rfl

theorem effects_assigns {front back : List Statement}
    (assigns : ∀ s ∈ front, ∃ target value, s = .assign target value) :
    effects (front ++ back) = front ++ effects back := by
  induction front with
  | nil => rfl
  | cons s front ih =>
    obtain ⟨target, value, rfl⟩ := assigns s List.mem_cons_self
    have later := ih fun s member => assigns s (List.mem_cons_of_mem _ member)
    exact congrArg (List.cons _) later

theorem exprCalls_nil {exprs : List Expr} (none : ∀ e ∈ exprs, e.calls = []) :
    exprCalls exprs = [] := by
  induction exprs with
  | nil => rfl
  | cons e rest ih =>
    have later := ih fun e member => none e (List.mem_cons_of_mem _ member)
    rw [exprCalls, none e List.mem_cons_self, later, List.append_nil]

namespace Receiver

variable (r : Receiver) (m : Method) (params : List Field)

theorem mem_captures {s : Statement} (member : s ∈ r.captures m params) :
    ∃ index name, s = .assign
      (.select (r.field (Naming.inputField m.name)) (Naming.argField index)) (.ident name) := by
  obtain ⟨slot, _, made⟩ := List.mem_filterMap.mp member
  obtain ⟨name, _, rfl⟩ := Option.map_eq_some_iff.mp made
  exact ⟨slot.index, name, rfl⟩

theorem effects_answers : effects (r.answers m) = r.answers m := by
  unfold answers
  split
  · rfl
  · rfl

theorem answers_calls : ∀ s ∈ r.answers m, s.calls = [] := by
  intro s member
  unfold answers at member
  split at member
  · cases member
  · obtain rfl := List.mem_singleton.mp member
    apply exprCalls_nil
    intro e inValues
    obtain ⟨slot, _, rfl⟩ := List.mem_map.mp inValues
    rfl

theorem body_plain (namePrefix : String) :
    effects (r.body ⟨namePrefix, false⟩ m params) = r.body ⟨namePrefix, false⟩ m params ∧
      ∀ s ∈ r.body ⟨namePrefix, false⟩ m params, s.calls = [] := by
  have shape : r.body ⟨namePrefix, false⟩ m params =
      (.assign (r.field (Naming.calledField m.name)) (.ident "true") :: r.captures m params) ++
        r.answers m := rfl
  rw [shape]
  constructor
  · rw [effects_assigns, effects_answers]
    intro s member
    rcases List.mem_cons.mp member with rfl | later
    · exact ⟨_, _, rfl⟩
    · obtain ⟨index, name, rfl⟩ := r.mem_captures m params later
      exact ⟨_, _, rfl⟩
  · intro s member
    rcases List.mem_append.mp member with front | back
    · rcases List.mem_cons.mp front with rfl | later
      · rfl
      · obtain ⟨index, name, rfl⟩ := r.mem_captures m params later
        rfl
    · exact r.answers_calls m s back

theorem method_holdsLock (namePrefix file : String) :
    (r.method ⟨namePrefix, true⟩ file m).HoldsLock := by
  let params := Naming.callable (r.reserved m) m.signature.params
  obtain ⟨inOrder, calls⟩ := r.body_plain m params namePrefix
  refine ⟨r.name, r.type, r.body ⟨namePrefix, false⟩ m params, rfl, rfl, ?_, calls⟩
  rw [effects_guarded, inOrder]

end Receiver

namespace Contract

theorem spyDecls_locked (namePrefix : String) (c : Contract) :
    List.Forall₂ Decl.Locked (c.spyDecls ⟨namePrefix, false⟩) (c.spyDecls ⟨namePrefix, true⟩) := by
  refine .cons ?_ ?_
  · exact @Decl.Locked.record (c.record ⟨namePrefix, false⟩) (c.members ⟨namePrefix, false⟩) c.place
      rfl
  · rw [List.forall₂_map_left_iff, List.forall₂_map_right_iff, List.forall₂_same]
    intro m _
    let r := c.receiver ⟨namePrefix, false⟩
    exact @Decl.Locked.method (r.method ⟨namePrefix, false⟩ c.place.file m) r.name r.type
      (r.body ⟨namePrefix, false⟩ m (Naming.callable (r.reserved m) m.signature.params)) rfl rfl

theorem holdsLock_of_mem {namePrefix : String} {c : Contract} {d : FuncDecl}
    (member : .func d ∈ c.spyDecls ⟨namePrefix, true⟩) : d.HoldsLock := by
  rcases List.mem_cons.mp member with record | method
  · cases record
  · obtain ⟨m, _, same⟩ := List.mem_map.mp method
    obtain rfl := Decl.func.inj same
    exact (c.receiver ⟨namePrefix, true⟩).method_holdsLock m namePrefix c.place.file

end Contract

/-- Asking for a lock changes nothing but that each record gets the lock in front of its fields and
    each method its two calls in front of its statements. So every method holds the lock while it
    does what it does without one. -/
theorem Generation.lock_only_added (namePrefix : String) (decls : List Decl) :
    let plain := Generation.of ⟨namePrefix, false⟩ decls
    let locked := Generation.of ⟨namePrefix, true⟩ decls
    locked.spies = plain.spies ∧ locked.skipped = plain.skipped ∧
      List.Forall₂ Decl.Locked plain.decls locked.decls ∧
      ∀ d, .func d ∈ locked.decls → d.HoldsLock := by
  refine ⟨rfl, rfl, ?_, ?_⟩
  · have same : List.Forall₂ Eq (decls.flatMap Decl.contracts) (decls.flatMap Decl.contracts) :=
      List.forall₂_same.mpr fun _ _ => rfl
    apply List.rel_flatMap same
    rintro c _ rfl
    exact c.spyDecls_locked namePrefix
  · intro d member
    obtain ⟨c, _, inSpy⟩ := List.mem_flatMap.mp member
    exact Contract.holdsLock_of_mem inSpy

-- One method in both modes, and the order in which its statements take effect with the lock.
example :
    let signature : Signature := ⟨[⟨["key"], .name "string"⟩], [⟨[], .name "int"⟩]⟩
    let store : Contract := ⟨"Store", [], [.method "Fetch" signature 4], ⟨"store.go", 3⟩⟩
    let body (threadSafe : Bool) : List Statement :=
      (store.receiver ⟨"Fake", threadSafe⟩).body ⟨"Fake", threadSafe⟩ ⟨"Fetch", signature, 4⟩
        signature.params
    (body false).map Statement.spelling =
        ["f.Fetch_Called = true", "f.Fetch_Input.Arg0 = key", "return f.Fetch_Output.Ret0"] ∧
      (body true).map Statement.spelling =
        ["f.mu.Lock()", "defer f.mu.Unlock()", "f.Fetch_Called = true", "f.Fetch_Input.Arg0 = key",
          "return f.Fetch_Output.Ret0"] ∧
      (effects (body true)).map Statement.spelling =
        ["f.mu.Lock()", "f.Fetch_Called = true", "f.Fetch_Input.Arg0 = key",
          "return f.Fetch_Output.Ret0", "f.mu.Unlock()"] := by
  decide

end GoSpy
