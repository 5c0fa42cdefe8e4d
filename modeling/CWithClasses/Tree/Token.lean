import CWithClasses.Tree.Literal
import CWithClasses.Tree.Position

/-!
# Tokens

The leaves of a tree are tokens. Only the kinds that the checker tells apart are listed:
constants, names, keywords of types and classes, access specifiers, pointer operators and
assignment operators.
-/

namespace CWithClasses

/-- The kinds of tokens. -/
inductive TokenKind where
  | intConst | floatConst | charConst | stringLit | trueConst | falseConst
  | identifier | className
  | intType | doubleType | floatType | charType | boolType | voidType
  | short | long | signed | unsigned
  | const | volatile | static | externLinkage | auto | register | inlineFn | virtualFn
  | friend | typedef
  | classKey | structKey | unionKey
  | publicAccess | privateAccess | protectedAccess
  | star | ampersand
  | assign | mulAssign | divAssign | modAssign | addAssign | subAssign | shlAssign
  | shrAssign | andAssign | xorAssign | orAssign
  deriving DecidableEq, Repr

namespace TokenKind

/-- All kinds of tokens. -/
def all : List TokenKind :=
  [intConst, floatConst, charConst, stringLit, trueConst, falseConst, identifier, className,
   intType, doubleType, floatType, charType, boolType, voidType, short, long, signed, unsigned,
   const, volatile, static, externLinkage, auto, register, inlineFn, virtualFn, friend, typedef,
   classKey, structKey, unionKey, publicAccess, privateAccess, protectedAccess, star, ampersand,
   assign, mulAssign, divAssign, modAssign, addAssign, subAssign, shlAssign, shrAssign,
   andAssign, xorAssign, orAssign]

/-- The name under which a kind is written. -/
def name : TokenKind → String
  | intConst => "IntConst"
  | floatConst => "FloatConst"
  | charConst => "CharConst"
  | stringLit => "StringLit"
  | trueConst => "True"
  | falseConst => "False"
  | identifier => "Identifier"
  | className => "ClassName"
  | intType => "Int"
  | doubleType => "Double"
  | floatType => "Float"
  | charType => "Char"
  | boolType => "Bool"
  | voidType => "Void"
  | short => "Short"
  | long => "Long"
  | signed => "Signed"
  | unsigned => "Unsigned"
  | const => "Const"
  | volatile => "Volatile"
  | static => "Static"
  | externLinkage => "Extern"
  | auto => "Auto"
  | register => "Register"
  | inlineFn => "Inline"
  | virtualFn => "Virtual"
  | friend => "Friend"
  | typedef => "Typedef"
  | classKey => "Class"
  | structKey => "Struct"
  | unionKey => "Union"
  | publicAccess => "Public"
  | privateAccess => "Private"
  | protectedAccess => "Protected"
  | star => "Star"
  | ampersand => "Ampersand"
  | assign => "Assign"
  | mulAssign => "MulAssign"
  | divAssign => "DivAssign"
  | modAssign => "ModAssign"
  | addAssign => "AddAssign"
  | subAssign => "SubAssign"
  | shlAssign => "ShlAssign"
  | shrAssign => "ShrAssign"
  | andAssign => "AndAssign"
  | xorAssign => "XorAssign"
  | orAssign => "OrAssign"

/-- The kind of a given name. -/
def ofName? (text : String) : Option TokenKind := all.find? fun k => k.name == text

/-- The keywords that introduce a class. -/
def isClassKey : TokenKind → Bool
  | classKey | structKey | unionKey => true
  | _ => false

/-- The keywords that open an access region. -/
def isAccessSpecifier : TokenKind → Bool
  | publicAccess | privateAccess | protectedAccess => true
  | _ => false

/-- The kinds that spell a name. -/
def isName : TokenKind → Bool
  | identifier | className => true
  | _ => false

/-- Specifiers that do not choose a type: `long` alone is an `int`, and a `long double`
stays a `double`. -/
def isModifier : TokenKind → Bool
  | short | long | signed | unsigned | const | volatile | static | externLinkage | auto
  | register | inlineFn | virtualFn | friend => true
  | _ => false

end TokenKind

/-- A leaf of the source text. -/
structure Token where
  kind : TokenKind
  text : String
  position : Position
  deriving DecidableEq, Repr

namespace Token

/-- The value of an integer constant. -/
def intValue? (t : Token) : Option Nat :=
  if t.kind = .intConst then parseInteger t.text else none

/-- A token is written as its kind and its quoted text. -/
def render (t : Token) : String := s!"{t.kind.name} `{t.text}`"

end Token

end CWithClasses
