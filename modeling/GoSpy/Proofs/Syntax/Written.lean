import GoSpy.Proofs.Syntax.NormalForm
import Mathlib.Data.List.Forall2
/- The runs of tokens that types are written with. Most types have one; the members of structs
   and interfaces may or may not have a semicolon behind the last of them. -/
namespace GoSpy

def parted (mark : Token) : List (List Token) → List Token
  | [] => []
  | [tokens] => tokens
  | tokens :: rest => tokens ++ mark :: parted mark rest

def listTokens («open» close : Token) (entries : List (List Token)) : List Token :=
  «open» :: (parted .comma entries ++ [close])

/-- Entries behind each other, each but the last with a semicolon behind it. -/
inductive Lines : List (List Token) → List Token → Prop where
  | none : Lines [] []
  | last (entry : List Token) : Lines [entry] entry
  | more (entry : List Token) {entries : List (List Token)} {tokens : List Token}
      (later : Lines entries tokens) : Lines (entry :: entries) (entry ++ .semicolon :: tokens)

def ended (entries : List (List Token)) : List Token :=
  (entries.map (· ++ [.semicolon])).flatten

def beyond : Nat → List Token → List Token
  | _, [] => []
  | depth, .openBracket :: rest => beyond (depth + 1) rest
  | depth, .closeBracket :: rest => if depth ≤ 1 then rest else beyond (depth - 1) rest
  | depth, _ :: rest => beyond depth rest

def BracketsMatch (tokens : List Token) : Prop :=
  ∀ depth rest, beyond (depth + 1) (tokens ++ rest) = beyond (depth + 1) rest

def lengthPart : Nat → List Token → Option (List Token × List Token)
  | _, [] => none
  | depth, t :: rest =>
    if t = .closeBracket && depth == 0 then some ([], rest)
    else
      let depth := match t with
        | .openBracket | .openParen => depth + 1
        | .closeBracket | .closeParen => depth - 1
        | _ => depth
      (lengthPart depth rest).map fun r => (t :: r.1, r.2)

/-- The tokens of an array length, with whatever may follow the bracket behind them. -/
structure LengthTokens (length : String) (tokens : List Token) : Prop where
  nonempty : tokens ≠ []
  read : ∀ rest, lengthPart 0 (tokens ++ .closeBracket :: rest) = some (tokens, rest)
  brackets : BracketsMatch tokens
  spelling : String.join (tokens.map Grammar.lengthSpelling) = length

/-- An entry of a list in brackets, its types written as `types` says. -/
inductive Grammar.Entry.Written (types : TypeExpr → List Token → Prop) :
    Grammar.Entry → List Token → Prop where
  | bare {type : TypeExpr} {tokens : List Token} (written : types type tokens) :
      Entry.Written types (none, type) tokens
  | named {name : String} {type : TypeExpr} {tokens : List Token}
      (free : isKeyword name = false) (written : types type tokens) :
      Entry.Written types (some name, type) (.word name :: tokens)

def Direction.tokens : Direction → List Token
  | .both => [.word "chan"]
  | .send => [.word "chan", .arrow]
  | .receive => [.arrow, .word "chan"]

mutual

inductive TypeExpr.Written : TypeExpr → List Token → Prop where
  | name {name : String} (free : isKeyword name = false) :
      TypeExpr.Written (.name name) [.word name]
  | qualified {package name : String} (freePackage : isKeyword package = false)
      (free : isKeyword name = false) :
      TypeExpr.Written (.qualified package name) [.word package, .dot, .word name]
  | generic {base : TypeExpr} {args : List TypeExpr} {front : List Token}
      {entries : List (List Token)} (named : base.isNamed = true)
      (written : TypeExpr.Written base front) (nonempty : args ≠ [])
      (all : List.Forall₂ TypeExpr.Written args entries) :
      TypeExpr.Written (.generic base args)
        (front ++ .openBracket :: (parted .comma entries ++ [.closeBracket]))
  | pointer {target : TypeExpr} {tokens : List Token} (written : TypeExpr.Written target tokens) :
      TypeExpr.Written (.pointer target) (.star :: tokens)
  | slice {element : TypeExpr} {tokens : List Token}
      (written : TypeExpr.Written element tokens) :
      TypeExpr.Written (.slice element) (.openBracket :: .closeBracket :: tokens)
  | array {length : String} {element : TypeExpr} {front tokens : List Token}
      (sized : LengthTokens length front) (written : TypeExpr.Written element tokens) :
      TypeExpr.Written (.array length element)
        (.openBracket :: (front ++ .closeBracket :: tokens))
  | map {key value : TypeExpr} {front tokens : List Token}
      (keyWritten : TypeExpr.Written key front) (written : TypeExpr.Written value tokens) :
      TypeExpr.Written (.map key value)
        (.word "map" :: .openBracket :: (front ++ .closeBracket :: tokens))
  | chan {direction : Direction} {element : TypeExpr} {tokens : List Token}
      (apart : direction = .both → element.isReceive = false)
      (written : TypeExpr.Written element tokens) :
      TypeExpr.Written (.chan direction element) (direction.tokens ++ tokens)
  | func {signature : Signature} {tokens : List Token}
      (written : Signature.Written signature tokens) :
      TypeExpr.Written (.func signature) (.word "func" :: tokens)
  | interface {elements : List Element} {entries : List (List Token)} {tokens : List Token}
      (distinct : (Grammar.methodNames elements).Nodup)
      (all : List.Forall₂ Element.Written elements entries) (lines : Lines entries tokens) :
      TypeExpr.Written (.interface elements)
        (.word "interface" :: .openBrace :: (tokens ++ [.closeBrace]))
  | struct {members : List Member} {entries : List (List Token)} {tokens : List Token}
      (all : List.Forall₂ Member.Written members entries) (lines : Lines entries tokens) :
      TypeExpr.Written (.struct members)
        (.word "struct" :: .openBrace :: (tokens ++ [.closeBrace]))
  | paren {inner : TypeExpr} {tokens : List Token} (written : TypeExpr.Written inner tokens) :
      TypeExpr.Written (.paren inner) (.openParen :: (tokens ++ [.closeParen]))

inductive TypeExpr.WrittenParam : TypeExpr → List Token → Prop where
  | plain {type : TypeExpr} {tokens : List Token} (written : TypeExpr.Written type tokens) :
      TypeExpr.WrittenParam type tokens
  | variadic {element : TypeExpr} {tokens : List Token}
      (written : TypeExpr.Written element tokens) :
      TypeExpr.WrittenParam (.variadic element) (.ellipsis :: tokens)

inductive TypeExpr.WrittenConstraint : TypeExpr → List Token → Prop where
  | plain {type : TypeExpr} {tokens : List Token} (written : TypeExpr.Written type tokens) :
      TypeExpr.WrittenConstraint type tokens
  | union {terms : List Term} {entries : List (List Token)} (set : isTypeSet terms = true)
      (all : List.Forall₂ Term.Written terms entries) :
      TypeExpr.WrittenConstraint (.union terms) (parted .pipe entries)

inductive Term.Written : Term → List Token → Prop where
  | plain {type : TypeExpr} {tokens : List Token} (written : TypeExpr.Written type tokens) :
      Term.Written ⟨false, type⟩ tokens
  | tilde {type : TypeExpr} {tokens : List Token} (written : TypeExpr.Written type tokens) :
      Term.Written ⟨true, type⟩ (.tilde :: tokens)

inductive WrittenParams : List Field → List Token → Prop where
  | mk {fields : List Field} {entries : List Grammar.Entry} {tokens : List (List Token)}
      (grouped : Grammar.fieldsOf entries = some fields)
      (all : List.Forall₂ (Grammar.Entry.Written TypeExpr.WrittenParam) entries tokens) :
      WrittenParams fields (.openParen :: (parted .comma tokens ++ [.closeParen]))

inductive Signature.Written : Signature → List Token → Prop where
  | none {params : List Field} {front : List Token} (written : WrittenParams params front) :
      Signature.Written ⟨params, []⟩ front
  | single {params : List Field} {result : TypeExpr} {front tokens : List Token}
      (written : WrittenParams params front) (notParen : result.isParen = false)
      (resultWritten : TypeExpr.Written result tokens) :
      Signature.Written ⟨params, [⟨[], result⟩]⟩ (front ++ tokens)
  | several {params results : List Field} {front tokens : List Token}
      (written : WrittenParams params front) (resultsWritten : WrittenParams results tokens) :
      Signature.Written ⟨params, results⟩ (front ++ tokens)

inductive Element.Written : Element → List Token → Prop where
  | method {name : String} {signature : Signature} {line : Nat} {tokens : List Token}
      (free : isKeyword name = false) (written : Signature.Written signature tokens) :
      Element.Written (.method name signature line) (.word name :: tokens)
  | embedded {type : TypeExpr} {tokens : List Token}
      (written : TypeExpr.WrittenConstraint type tokens) : Element.Written (.embedded type) tokens

inductive Member.Written : Member → List Token → Prop where
  | named {names : List String} {type : TypeExpr} {tag : Option String} {tokens : List Token}
      (nonempty : names ≠ []) (free : ∀ name ∈ names, isKeyword name = false)
      (written : TypeExpr.Written type tokens) :
      Member.Written ⟨names, type, tag⟩
        (parted .comma (names.map fun name => [.word name]) ++ tokens
          ++ (tag.map Token.string).toList)
  | embedded {type : TypeExpr} {tag : Option String} {tokens : List Token}
      (fits : type.isEmbeddable = true) (written : TypeExpr.Written type tokens) :
      Member.Written ⟨[], type, tag⟩ (tokens ++ (tag.map Token.string).toList)

end

end GoSpy
