import GoSpy.Proofs.Syntax.Written
import GoSpy.Artifact.Import
/- The runs of tokens that the parts of a generated file are written with. Of type declarations
   these are single ones, of functions methods with a body that has no braces in it. -/
namespace GoSpy

def opensTypeParams : List Token → Bool
  | .word name :: t :: _ =>
    !isKeyword name &&
      match t with
      | .word _ | .comma | .tilde => true
      | _ => false
  | _ => false

inductive WrittenTypeParams : List Field → List Token → Prop where
  | none : WrittenTypeParams [] []
  | list {fields : List Field} {entries : List Grammar.Entry} {runs : List (List Token)}
      (grouped : Grammar.fieldsOf entries = some fields)
      (all : List.Forall₂ (Grammar.Entry.Written TypeExpr.WrittenConstraint) entries runs)
      (opens : opensTypeParams (parted .comma runs) = true) :
      WrittenTypeParams fields (listTokens .openBracket .closeBracket runs)

inductive TypeSpec.Written : TypeSpec → List Token → Prop where
  | mk {name : String} {typeParams : List Field} {type : TypeExpr} {line : Nat}
      {front tokens : List Token} (free : isKeyword name = false)
      (paramsWritten : WrittenTypeParams typeParams front)
      (written : TypeExpr.Written type tokens) (apart : tokens.head? ≠ some .openBracket) :
      TypeSpec.Written ⟨name, typeParams, false, type, line⟩ (.word name :: (front ++ tokens))

def BraceFree (tokens : List Token) : Prop :=
  ∀ t ∈ tokens, t ≠ .openBrace ∧ t ≠ .closeBrace

inductive FuncDecl.Written : FuncDecl → List Token → Prop where
  | method {receiver : Field} {name : String} {signature : Signature}
      {body : Option (List Statement)} {place : Place} {front tokens inner : List Token}
      (one : receiver.arity = 1) (receiverWritten : WrittenParams [receiver] front)
      (free : isKeyword name = false) (written : Signature.Written signature tokens)
      (braceFree : BraceFree inner) :
      FuncDecl.Written ⟨some receiver, name, [], signature, body, place⟩
        (front ++ .word name :: (tokens ++ .openBrace :: (inner ++ [.closeBrace])))

inductive Decl.Written : Decl → List Token → Prop where
  | type {spec : TypeSpec} {place : Place} {tokens : List Token}
      (written : TypeSpec.Written spec tokens) :
      Decl.Written (.type ⟨[spec], false, place⟩) (.word "type" :: tokens)
  | func {d : FuncDecl} {tokens : List Token} (written : FuncDecl.Written d tokens) :
      Decl.Written (.func d) (.word "func" :: tokens)

def Import.tokens (i : Import) : List Token :=
  (i.name.map Token.word).toList ++ [.string ("\"" ++ i.path ++ "\"")]

def importTokens : List Import → List Token
  | [] => []
  | [only] => .word "import" :: (only.tokens ++ [.semicolon])
  | imports =>
    .word "import" :: .openParen :: (ended (imports.map Import.tokens) ++ [.closeParen, .semicolon])

def fileTokens (package : String) (imports : List Import) (runs : List (List Token)) :
    List Token :=
  .word "package" :: .word package :: .semicolon :: (importTokens imports ++ ended runs)

end GoSpy
