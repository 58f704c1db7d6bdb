import GoSpy.Grammar.Types
import GoSpy.Token.Scan
import GoSpy.Proofs.Text.Names
/- Types in normal form: those that their spelling stands for. What is left out cannot be told
   apart from another type once it is written down, or is no text of a type at all. -/
namespace GoSpy

def isIdentifier (text : String) : Bool := Text.isWord text && !isKeyword text

theorem isIdentifier_iff (text : String) :
    isIdentifier text = true ↔ Text.isWord text = true ∧ isKeyword text = false := by
  simp [isIdentifier]

def bracketsBalance : Nat → List Token → Bool
  | depth, [] => depth == 0
  | depth, .openBracket :: rest => bracketsBalance (depth + 1) rest
  | depth, .closeBracket :: rest => depth != 0 && bracketsBalance (depth - 1) rest
  | depth, _ :: rest => bracketsBalance depth rest

/-- Whether a text in brackets is read as the length of an array, up to the bracket put behind
    it, and comes back unchanged. Nothing in brackets is a slice's and no length. Its brackets
    balance; its parentheses need not. -/
def isArrayLength (length : String) : Bool :=
  match Scan.pieces (length.toList.length + 1) 1 (length.toList ++ [']']) with
  | .error _ => false
  | .ok pieces =>
    let s := Cursor.ofLexemes (Scan.settle false 1 pieces)
    let tokens := (s.rest.map Lexeme.token).dropLast.dropLast
    pieces.getLast? == some (.token .closeBracket)
      && s.peek != some .closeBracket
      && (match Grammar.arrayLength s with
          | .ok (text, behind) =>
            text == length && behind.rest.map Lexeme.token == [.semicolon]
          | .error _ => false)
      && bracketsBalance 0 tokens

def isStringLiteral (text : String) : Bool :=
  match Scan.piece text.toList with
  | .ok (.token (.string _), []) => true
  | _ => false

namespace TypeExpr

def isNamed : TypeExpr → Bool
  | name _ | qualified .. => true
  | _ => false

def isReceive : TypeExpr → Bool
  | chan .receive _ => true
  | _ => false

def isParen : TypeExpr → Bool
  | paren _ => true
  | _ => false

def isEmbeddable : TypeExpr → Bool
  | pointer (generic ..) | generic .. => true
  | pointer target => target.isNamed
  | type => type.isNamed

end TypeExpr

def sameNaming (fields : List Field) : Bool :=
  fields.all (fun f => f.names.isEmpty) || fields.all (fun f => !f.names.isEmpty)

def plainResults : List Field → Bool
  | [⟨[], type⟩] => !type.isParen
  | _ => true

def isTypeSet : List Term → Bool
  | [] => false
  | [term] => term.tilde
  | _ => true

mutual

def TypeExpr.isNormal : TypeExpr → Bool
  | .name name => isIdentifier name
  | .qualified package name => isIdentifier package && isIdentifier name
  | .generic base args => base.isNamed && base.isNormal && !args.isEmpty && typesNormal args
  | .pointer target => target.isNormal
  | .slice element => element.isNormal
  | .array length element => isArrayLength length && element.isNormal
  | .map key value => key.isNormal && value.isNormal
  | .chan direction element => !(direction == .both && element.isReceive) && element.isNormal
  | .func signature => signature.isNormal
  | .interface elements =>
    elementsNormal elements && decide (Grammar.methodNames elements).Nodup
  | .struct members => membersNormal members
  | .paren inner => inner.isNormal
  | .variadic _ | .union _ => false

def typesNormal : List TypeExpr → Bool
  | [] => true
  | type :: rest => type.isNormal && typesNormal rest

/-- Only the last of several parameters of a function can really be variadic; here each may be. -/
def Field.isNormalParam : Field → Bool
  | ⟨names, .variadic element⟩ => names.all isIdentifier && element.isNormal
  | ⟨names, type⟩ => names.all isIdentifier && type.isNormal

def paramsNormal : List Field → Bool
  | [] => true
  | field :: rest => field.isNormalParam && paramsNormal rest

def Field.isNormalResult : Field → Bool
  | ⟨names, type⟩ => names.all isIdentifier && type.isNormal

def resultsNormal : List Field → Bool
  | [] => true
  | field :: rest => field.isNormalResult && resultsNormal rest

def Signature.isNormal : Signature → Bool
  | ⟨params, results⟩ =>
    paramsNormal params && sameNaming params
      && resultsNormal results && sameNaming results && plainResults results

def Element.isNormal : Element → Bool
  | .method name signature _ => isIdentifier name && signature.isNormal
  | .embedded (.union terms) => termsNormal terms && isTypeSet terms
  | .embedded type => type.isNormal

def elementsNormal : List Element → Bool
  | [] => true
  | element :: rest => element.isNormal && elementsNormal rest

def Member.isNormal : Member → Bool
  | ⟨names, type, tag⟩ =>
    names.all isIdentifier && type.isNormal && (!names.isEmpty || type.isEmbeddable)
      && tag.all isStringLiteral

def membersNormal : List Member → Bool
  | [] => true
  | member :: rest => member.isNormal && membersNormal rest

def Term.isNormal : Term → Bool
  | ⟨_, type⟩ => type.isNormal

def termsNormal : List Term → Bool
  | [] => true
  | term :: rest => term.isNormal && termsNormal rest

end

end GoSpy
