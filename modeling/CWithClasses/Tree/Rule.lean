/-!
# Grammar rules

Every node of a tree is tagged with the production that built it. The checker groups the
productions into categories, and flattens the productions that build lists.
-/

namespace CWithClasses

/-- The productions of the grammar. -/
inductive Rule where
  | program | literal | qualifiedId | nestedName | index | call | cast | dotField | arrowField
  | postIncrement | postDecrement | exprList | preIncrement | preDecrement | dereference
  | addressOf | unaryPlus | unaryMinus | logicalNot | complement | sizeofExpr | sizeofType
  | newExpr | newTypeId | newPointer | newBound | newArray | deleteObject | deleteArray
  | dotMemberPointer | arrowMemberPointer | multiply | divide | remainder | add | subtract
  | shiftLeft | shiftRight | less | greater | lessEqual | greaterEqual | equal | notEqual
  | bitAnd | bitXor | bitOr | logicalAnd | logicalOr | conditional | assignment | comma
  | caseLabel | defaultLabel | compound | statementSeqStart | statementSeq | ifThen | ifElse
  | switchOn | conditionDecl | whileLoop | doWhileLoop | forLoop | breakJump | continueJump
  | returnJump | declSeq | simpleDecl | declSpecSeq | nestedTypeName | elaborated
  | elaboratedNested | initDeclList | initDecl | pointerDeclarator | functionDeclarator
  | constFunctionDeclarator | arrayDeclarator | constructorDeclarator | destructorDeclarator
  | qualifiedPointer | memberPointer | qualifiedDeclarator | typeId | typeSpecSeq
  | abstractPointer | abstractFunction | abstractArray | abstractParens | paramList | namedParam
  | namedParamDefault | abstractParam | abstractParamDefault | constructorDef | functionDef
  | initializer | parenInit | braceInit | initList | classSpec | classHead | anonymousHead
  | memberSpec | accessSpec | memberDecl | memberDeclList | pureMember | initializedMember
  | bitField | constantInit | ctorInit | memInitList | memInit | baseInitId | memberInitId | token
  deriving DecidableEq, Repr

/-- What the operands of a binary operator have to be. -/
inductive BinaryKind where
  | arithmetic
  | integral
  | relational
  | logical
  deriving DecidableEq, Repr

/-- The kinds of construct that productions build. -/
inductive RuleCategory where
  | program
  | literal
  | reference
  | postfixExpr
  | unaryExpr
  | newExpr
  | deleteExpr
  | pointerToMember
  | binary (kind : BinaryKind)
  | conditional
  | assignment
  | comma
  | list
  | statement
  | declaration
  | specifier
  | declarator
  | parameter
  | function
  | initializer
  | classPart
  deriving DecidableEq, Repr

namespace BinaryKind

/-- The name under which a kind of operator is written. -/
def name : BinaryKind → String
  | arithmetic => "Arithmetic"
  | integral => "Integral"
  | relational => "Relational"
  | logical => "Logical"

end BinaryKind

namespace RuleCategory

/-- The name under which a category is written. -/
def name : RuleCategory → String
  | program => "Program"
  | literal => "Literal"
  | reference => "Reference"
  | postfixExpr => "Postfix"
  | unaryExpr => "Unary"
  | newExpr => "New"
  | deleteExpr => "Delete"
  | pointerToMember => "PointerToMember"
  | binary kind => s!"Binary({kind.name})"
  | conditional => "Ternary"
  | assignment => "Assignment"
  | comma => "Comma"
  | list => "List"
  | statement => "Statement"
  | declaration => "Declaration"
  | specifier => "Specifier"
  | declarator => "Declarator"
  | parameter => "Parameter"
  | function => "Function"
  | initializer => "Initializer"
  | classPart => "Class"

end RuleCategory

namespace Rule

/-- All productions. -/
def all : List Rule :=
  [program, literal, qualifiedId, nestedName, index, call, cast, dotField, arrowField,
   postIncrement, postDecrement, exprList, preIncrement, preDecrement, dereference, addressOf,
   unaryPlus, unaryMinus, logicalNot, complement, sizeofExpr, sizeofType, newExpr, newTypeId,
   newPointer, newBound, newArray, deleteObject, deleteArray, dotMemberPointer,
   arrowMemberPointer, multiply, divide, remainder, add, subtract, shiftLeft, shiftRight, less,
   greater, lessEqual, greaterEqual, equal, notEqual, bitAnd, bitXor, bitOr, logicalAnd,
   logicalOr, conditional, assignment, comma, caseLabel, defaultLabel, compound,
   statementSeqStart, statementSeq, ifThen, ifElse, switchOn, conditionDecl, whileLoop,
   doWhileLoop, forLoop, breakJump, continueJump, returnJump, declSeq, simpleDecl, declSpecSeq,
   nestedTypeName, elaborated, elaboratedNested, initDeclList, initDecl, pointerDeclarator,
   functionDeclarator, constFunctionDeclarator, arrayDeclarator, constructorDeclarator,
   destructorDeclarator, qualifiedPointer, memberPointer, qualifiedDeclarator, typeId,
   typeSpecSeq, abstractPointer, abstractFunction, abstractArray, abstractParens, paramList,
   namedParam, namedParamDefault, abstractParam, abstractParamDefault, constructorDef,
   functionDef, initializer, parenInit, braceInit, initList, classSpec, classHead, anonymousHead,
   memberSpec, accessSpec, memberDecl, memberDeclList, pureMember, initializedMember, bitField,
   constantInit, ctorInit, memInitList, memInit, baseInitId, memberInitId, token]

/-- The tag of a production. -/
def tag : Rule → String
  | program => "PROGRAM"
  | literal => "LITERAL"
  | qualifiedId => "QUAL_ID"
  | nestedName => "NESTED_NAME1"
  | index => "POSTFIX_ARRAY_INDEX"
  | call => "POSTFIX_CALL"
  | cast => "POSTFIX_CAST"
  | dotField => "POSTFIX_DOT_FIELD"
  | arrowField => "POSTFIX_ARROW_FIELD"
  | postIncrement => "POSTFIX_PLUSPLUS"
  | postDecrement => "POSTFIX_MINUSMINUS"
  | exprList => "EXPR_LIST"
  | preIncrement => "UNARY_PLUSPLUS"
  | preDecrement => "UNARY_MINUSMINUS"
  | dereference => "UNARY_STAR"
  | addressOf => "UNARY_AMPERSAND"
  | unaryPlus => "UNARY_PLUS"
  | unaryMinus => "UNARY_MINUS"
  | logicalNot => "UNARY_NOT"
  | complement => "UNARY_TILDE"
  | sizeofExpr => "UNARY_SIZEOF_EXPR"
  | sizeofType => "UNARY_SIZEOF_TYPE"
  | newExpr => "NEW_EXPR"
  | newTypeId => "NEW_TYPE_ID"
  | newPointer => "NEW_DECL"
  | newBound => "DIRECT_NEW_DECL1"
  | newArray => "DIRECT_NEW_DECL2"
  | deleteObject => "DELETE_EXPR1"
  | deleteArray => "DELETE_EXPR2"
  | dotMemberPointer => "PM_EXPR2"
  | arrowMemberPointer => "PM_EXPR3"
  | multiply => "MULT_EXPR"
  | divide => "DIV_EXPR"
  | remainder => "MOD_EXPR"
  | add => "ADD_EXPR"
  | subtract => "SUB_EXPR"
  | shiftLeft => "SHIFT_LEFT"
  | shiftRight => "SHIFT_RIGHT"
  | less => "REL_LT"
  | greater => "REL_GT"
  | lessEqual => "REL_LTEQ"
  | greaterEqual => "REL_GTEQ"
  | equal => "EQUAL_EXPR"
  | notEqual => "NOTEQUAL_EXPR"
  | bitAnd => "AND_EXPR"
  | bitXor => "XOR_EXPR"
  | bitOr => "OR_EXPR"
  | logicalAnd => "LOGICAL_AND_EXPR"
  | logicalOr => "LOGICAL_OR_EXPR"
  | conditional => "TERNARY_EXPR"
  | assignment => "ASSIGN_EXPR"
  | comma => "EXPR2"
  | caseLabel => "CASE_STATEMENT"
  | defaultLabel => "DEFAULT_STATEMENT"
  | compound => "COMPOUND_STATEMENT"
  | statementSeqStart => "STATEMENT_SEQ1"
  | statementSeq => "STATEMENT_SEQ2"
  | ifThen => "IF_STATEMENT"
  | ifElse => "IF_ELSE_STATEMENT"
  | switchOn => "SWITCH_STATEMENT"
  | conditionDecl => "CONDITION2"
  | whileLoop => "WHILE_LOOP"
  | doWhileLoop => "DO_WHILE_LOOP"
  | forLoop => "FOR_LOOP"
  | breakJump => "BREAK_STATEMENT"
  | continueJump => "CONTINUE_STATEMENT"
  | returnJump => "RETURN_STATEMENT"
  | declSeq => "DECL_SEQ"
  | simpleDecl => "SIMPLE_DECL"
  | declSpecSeq => "DECL_SPEC_SEQ"
  | nestedTypeName => "NESTED_SIMPLE_TYPE_SPEC"
  | elaborated => "ELAB_TYPE_SPEC1"
  | elaboratedNested => "ELAB_TYPE_SPEC2"
  | initDeclList => "INIT_DECL_LIST"
  | initDecl => "INIT_DECL"
  | pointerDeclarator => "DECL2"
  | functionDeclarator => "DIRECT_DECL2"
  | constFunctionDeclarator => "DIRECT_DECL3"
  | arrayDeclarator => "DIRECT_DECL4"
  | constructorDeclarator => "DIRECT_DECL5"
  | destructorDeclarator => "DIRECT_DECL6"
  | qualifiedPointer => "PTR3"
  | memberPointer => "PTR4"
  | qualifiedDeclarator => "DECL_D3"
  | typeId => "TYPE_ID"
  | typeSpecSeq => "TYPE_SPEC_SEQ"
  | abstractPointer => "ABSTRACT_DECL"
  | abstractFunction => "DIRECT_ABSTRACT_DECL"
  | abstractArray => "DIRECT_ABSTRACT_DECL3"
  | abstractParens => "DIRECT_ABSTRACT_DECL4"
  | paramList => "PARAM_DECL_LIST1"
  | namedParam => "PARAM_DECL1"
  | namedParamDefault => "PARAM_DECL2"
  | abstractParam => "PARAM_DECL3"
  | abstractParamDefault => "PARAM_DECL4"
  | constructorDef => "CTOR_FUNCTION_DEF"
  | functionDef => "FUNCTION_DEF"
  | initializer => "INITIALIZER"
  | parenInit => "INIT1"
  | braceInit => "INIT_CLAUSE2"
  | initList => "INIT_LIST"
  | classSpec => "CLASS_SPEC"
  | classHead => "CLASS_HEAD1"
  | anonymousHead => "CLASS_HEAD2"
  | memberSpec => "MEMBER_SPEC1"
  | accessSpec => "MEMBER_SPEC2"
  | memberDecl => "MEMBER_DECL1"
  | memberDeclList => "MEMBER_DECL_LIST2"
  | pureMember => "MEMBER_DECLARATOR1"
  | initializedMember => "MEMBER_DECLARATOR2"
  | bitField => "MEMBER_DECLARATOR3"
  | constantInit => "CONSTANT_INIT"
  | ctorInit => "CTOR_INIT"
  | memInitList => "MEM_INIT_LIST"
  | memInit => "MEM_INIT"
  | baseInitId => "MEM_INIT_ID1"
  | memberInitId => "MEM_INIT_ID3"
  | token => "TOKEN"

/-- The production of a given tag. -/
def ofTag? (text : String) : Option Rule := all.find? fun r => r.tag == text

/-- The construct that a production builds. -/
def category : Rule → RuleCategory
  | program => .program
  | literal => .literal
  | qualifiedId | nestedName | token => .reference
  | index | call | cast | dotField | arrowField | postIncrement | postDecrement => .postfixExpr
  | preIncrement | preDecrement | dereference | addressOf | unaryPlus | unaryMinus
  | logicalNot | complement | sizeofExpr | sizeofType => .unaryExpr
  | newExpr | newTypeId | newPointer | newBound | newArray => .newExpr
  | deleteObject | deleteArray => .deleteExpr
  | dotMemberPointer | arrowMemberPointer => .pointerToMember
  | multiply | divide | add | subtract => .binary .arithmetic
  | remainder | shiftLeft | shiftRight | bitAnd | bitXor | bitOr => .binary .integral
  | less | greater | lessEqual | greaterEqual | equal | notEqual => .binary .relational
  | logicalAnd | logicalOr => .binary .logical
  | conditional => .conditional
  | assignment => .assignment
  | comma => .comma
  | exprList => .list
  | caseLabel | defaultLabel | compound | statementSeqStart | statementSeq | ifThen | ifElse
  | switchOn | conditionDecl | whileLoop | doWhileLoop | forLoop | breakJump | continueJump
  | returnJump => .statement
  | declSeq | simpleDecl => .declaration
  | declSpecSeq | nestedTypeName | elaborated | elaboratedNested | typeId | typeSpecSeq =>
      .specifier
  | initDeclList | initDecl | pointerDeclarator | functionDeclarator | constFunctionDeclarator
  | arrayDeclarator | constructorDeclarator | destructorDeclarator | qualifiedPointer
  | memberPointer | qualifiedDeclarator | abstractPointer | abstractFunction | abstractArray
  | abstractParens => .declarator
  | paramList | namedParam | namedParamDefault | abstractParam | abstractParamDefault =>
      .parameter
  | constructorDef | functionDef => .function
  | initializer | parenInit | braceInit | initList => .initializer
  | classSpec | classHead | anonymousHead | memberSpec | accessSpec | memberDecl
  | memberDeclList | pureMember | initializedMember | bitField | constantInit | ctorInit
  | memInitList | memInit | baseInitId | memberInitId => .classPart

/-- The productions that build lists, to be flattened before use. -/
def isList : Rule → Bool
  | declSeq | statementSeqStart | statementSeq | exprList | initDeclList | paramList
  | memberDeclList | memInitList | initList | declSpecSeq | typeSpecSeq => true
  | _ => false

/-- The two productions of statement sequences build one list between them. -/
def isStatementSeq : Rule → Bool
  | statementSeqStart | statementSeq => true
  | _ => false

/-- Whether a node of production `inner`, standing below a list node of production `outer`,
continues that list. -/
def continues (outer inner : Rule) : Bool :=
  outer == inner || (outer.isStatementSeq && inner.isStatementSeq)

end Rule

end CWithClasses
