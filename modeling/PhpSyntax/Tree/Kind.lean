namespace PhpSyntax

inductive Kind where
  /-- A punctuator or keyword that is part of a larger construct. -/
  | token
  /-- Text outside of code, or a tag that stands alone. -/
  | inlineHtml
  /-- A semicolon that stands alone. -/
  | emptyStatement
  | variableIdentifier
  | nameIdentifier
  /-- A name with a backslash. -/
  | namespaceName
  /-- A reserved word in the place of a type. -/
  | builtInType
  | integerLiteral
  | floatLiteral
  /-- A string without interpolation. -/
  | regularStringLiteral
  | expandableStringLiteral
  | heredocLiteral
  | nowdocLiteral
  /-- A shell command in backquotes. -/
  | executionOperator
  | booleanLiteral
  | nullLiteral
  /-- A constant between double underscores. -/
  | magicConstant
  /-- The statements of a file and the token that ends it. -/
  | compilationUnit
  /-- Trees in a row. -/
  | plainList
  /-- Elements at the even slots and separators at the odd ones; a separator may come last. -/
  | separatedList
  | unionType
  | intersectionType
  | parenthesisedExpression
  | assignment
  | assignmentByReference
  | compoundAssignment
  | conditionalExpression
  | power
  | multiply
  | divide
  | remainder
  | plus
  | minus
  | concatenation
  | leftShift
  | rightShift
  | lessThan
  | greaterThan
  | lessThanOrEqualTo
  | greaterThanOrEqualTo
  | spaceship
  | equalTo
  | notEqualTo
  | strictEqualTo
  | strictNotEqualTo
  | bitwiseAnd
  | bitwiseXor
  | bitwiseOr
  | conditionalAnd
  | conditionalOr
  | nullCoalescing
  | alternativeConditionalAnd
  | alternativeConditionalOr
  | alternativeConditionalXor
  | instanceof
  | unaryMinus
  | unaryPlus
  | logicalComplement
  | bitwiseComplement
  | errorControl
  | prefixIncrement
  | prefixDecrement
  | postfixIncrement
  | postfixDecrement
  | castExpression
  | referenceVariable
  | spreadArgument
  | cloneExpression
  | printExpression
  | throwExpression
  | includeExpression
  | variableVariable
  | yieldExpression
  | yieldFromExpression
  | newExpression
  | anonymousClass
  | functionCall
  | arguments
  /-- The argument list of a call that only names the function. -/
  | callableConvert
  | callArgument
  | objectMemberAccess
  | nullsafeObjectMemberAccess
  | classMemberAccess
  | arrayAccess
  /-- An expression in braces as the name of a member. -/
  | computedVariableName
  /-- An expression in braces as the name of a variable. -/
  | compoundVariableName
  | arrayInitializerBracket
  | arrayInitializerFunction
  | arrayPair
  | listExpression
  | functionExpression
  | arrowFunctionExpression
  | lexicalVariables
  | returnTypeClause
  | matchExpression
  | matchConditionClause
  | matchDefaultClause
  | parameterList
  | parameter
  | typeDeclaration
  | dnfTypeGroup
  | attributeGroup
  | attributeUse
  | block
  | expressionStatement
  | ifStatement
  | elseifClause
  | elseClause
  | alternativeIfStatement
  | alternativeElseifClause
  | alternativeElseClause
  | whileStatement
  | alternativeWhileStatement
  | doWhileStatement
  | forStatement
  | alternativeForStatement
  | foreachStatement
  | alternativeForeachStatement
  | switchStatement
  | alternativeSwitchStatement
  | caseClause
  | defaultClause
  | breakStatement
  | continueStatement
  | returnStatement
  | echoStatement
  /-- The expressions after a tag that echoes them. -/
  | echoTagStatement
  | globalStatement
  | staticStatement
  | variableDeclaration
  | unsetStatement
  | throwStatement
  | tryStatement
  | catchBlock
  | finallyClause
  | gotoStatement
  | labelStatement
  | declareStatement
  | namespaceStatement
  | useStatement
  | groupUseStatement
  | useClause
  | constantDeclaration
  | functionDeclaration
  | classDeclaration
  | interfaceDeclaration
  | traitDeclaration
  | enumDeclaration
  | classPropertyDeclaration
  | classConstantDeclaration
  | methodDeclaration
  | useTraitDeclaration
  | traitPrecedence
  | traitAlias
  | traitMethodReference
  | enumCase
deriving DecidableEq

namespace Kind

def all : List Kind :=
  [.token, .inlineHtml, .emptyStatement, .variableIdentifier, .nameIdentifier, .namespaceName,
   .builtInType, .integerLiteral, .floatLiteral, .regularStringLiteral,
   .expandableStringLiteral, .heredocLiteral, .nowdocLiteral, .executionOperator,
   .booleanLiteral, .nullLiteral, .magicConstant, .compilationUnit, .plainList, .separatedList,
   .unionType, .intersectionType, .parenthesisedExpression, .assignment,
   .assignmentByReference, .compoundAssignment, .conditionalExpression, .power, .multiply,
   .divide, .remainder, .plus, .minus, .concatenation, .leftShift, .rightShift, .lessThan,
   .greaterThan, .lessThanOrEqualTo, .greaterThanOrEqualTo, .spaceship, .equalTo, .notEqualTo,
   .strictEqualTo, .strictNotEqualTo, .bitwiseAnd, .bitwiseXor, .bitwiseOr, .conditionalAnd,
   .conditionalOr, .nullCoalescing, .alternativeConditionalAnd, .alternativeConditionalOr,
   .alternativeConditionalXor, .instanceof, .unaryMinus, .unaryPlus, .logicalComplement,
   .bitwiseComplement, .errorControl, .prefixIncrement, .prefixDecrement, .postfixIncrement,
   .postfixDecrement, .castExpression, .referenceVariable, .spreadArgument, .cloneExpression,
   .printExpression, .throwExpression, .includeExpression, .variableVariable, .yieldExpression,
   .yieldFromExpression, .newExpression, .anonymousClass, .functionCall, .arguments,
   .callableConvert, .callArgument, .objectMemberAccess, .nullsafeObjectMemberAccess,
   .classMemberAccess, .arrayAccess, .computedVariableName, .compoundVariableName,
   .arrayInitializerBracket, .arrayInitializerFunction, .arrayPair, .listExpression,
   .functionExpression, .arrowFunctionExpression, .lexicalVariables, .returnTypeClause,
   .matchExpression, .matchConditionClause, .matchDefaultClause, .parameterList, .parameter,
   .typeDeclaration, .dnfTypeGroup, .attributeGroup, .attributeUse, .block,
   .expressionStatement, .ifStatement, .elseifClause, .elseClause, .alternativeIfStatement,
   .alternativeElseifClause, .alternativeElseClause, .whileStatement,
   .alternativeWhileStatement, .doWhileStatement, .forStatement, .alternativeForStatement,
   .foreachStatement, .alternativeForeachStatement, .switchStatement,
   .alternativeSwitchStatement, .caseClause, .defaultClause, .breakStatement,
   .continueStatement, .returnStatement, .echoStatement, .echoTagStatement, .globalStatement,
   .staticStatement, .variableDeclaration, .unsetStatement, .throwStatement, .tryStatement,
   .catchBlock, .finallyClause, .gotoStatement, .labelStatement, .declareStatement,
   .namespaceStatement, .useStatement, .groupUseStatement, .useClause, .constantDeclaration,
   .functionDeclaration, .classDeclaration, .interfaceDeclaration, .traitDeclaration,
   .enumDeclaration, .classPropertyDeclaration, .classConstantDeclaration, .methodDeclaration,
   .useTraitDeclaration, .traitPrecedence, .traitAlias, .traitMethodReference, .enumCase]

def name : Kind → String
  | token => "Token"
  | inlineHtml => "InlineHtml"
  | emptyStatement => "EmptyStatement"
  | variableIdentifier => "VariableIdentifier"
  | nameIdentifier => "NameIdentifier"
  | namespaceName => "NamespaceName"
  | builtInType => "BuiltInType"
  | integerLiteral => "IntegerLiteral"
  | floatLiteral => "FloatLiteral"
  | regularStringLiteral => "RegularStringLiteral"
  | expandableStringLiteral => "ExpandableStringLiteral"
  | heredocLiteral => "HeredocLiteral"
  | nowdocLiteral => "NowdocLiteral"
  | executionOperator => "ExecutionOperator"
  | booleanLiteral => "BooleanLiteral"
  | nullLiteral => "NullLiteral"
  | magicConstant => "MagicConstant"
  | compilationUnit => "CompilationUnit"
  | plainList => "List"
  | separatedList => "SeparatedList"
  | unionType => "UnionType"
  | intersectionType => "IntersectionType"
  | parenthesisedExpression => "ParenthesisedExpression"
  | assignment => "Assignment"
  | assignmentByReference => "AssignmentByReference"
  | compoundAssignment => "CompoundAssignment"
  | conditionalExpression => "ConditionalExpression"
  | power => "Power"
  | multiply => "Multiply"
  | divide => "Divide"
  | remainder => "Remainder"
  | plus => "Plus"
  | minus => "Minus"
  | concatenation => "Concatenation"
  | leftShift => "LeftShift"
  | rightShift => "RightShift"
  | lessThan => "LessThan"
  | greaterThan => "GreaterThan"
  | lessThanOrEqualTo => "LessThanOrEqualTo"
  | greaterThanOrEqualTo => "GreaterThanOrEqualTo"
  | spaceship => "Spaceship"
  | equalTo => "EqualTo"
  | notEqualTo => "NotEqualTo"
  | strictEqualTo => "StrictEqualTo"
  | strictNotEqualTo => "StrictNotEqualTo"
  | bitwiseAnd => "BitwiseAnd"
  | bitwiseXor => "BitwiseXor"
  | bitwiseOr => "BitwiseOr"
  | conditionalAnd => "ConditionalAnd"
  | conditionalOr => "ConditionalOr"
  | nullCoalescing => "NullCoalescing"
  | alternativeConditionalAnd => "AlternativeConditionalAnd"
  | alternativeConditionalOr => "AlternativeConditionalOr"
  | alternativeConditionalXor => "AlternativeConditionalXor"
  | instanceof => "Instanceof"
  | unaryMinus => "UnaryMinus"
  | unaryPlus => "UnaryPlus"
  | logicalComplement => "LogicalComplement"
  | bitwiseComplement => "BitwiseComplement"
  | errorControl => "ErrorControl"
  | prefixIncrement => "PrefixIncrement"
  | prefixDecrement => "PrefixDecrement"
  | postfixIncrement => "PostfixIncrement"
  | postfixDecrement => "PostfixDecrement"
  | castExpression => "CastExpression"
  | referenceVariable => "ReferenceVariable"
  | spreadArgument => "SpreadArgument"
  | cloneExpression => "CloneExpression"
  | printExpression => "PrintExpression"
  | throwExpression => "ThrowExpression"
  | includeExpression => "IncludeExpression"
  | variableVariable => "VariableVariable"
  | yieldExpression => "YieldExpression"
  | yieldFromExpression => "YieldFromExpression"
  | newExpression => "NewExpression"
  | anonymousClass => "AnonymousClass"
  | functionCall => "FunctionCall"
  | arguments => "Arguments"
  | callableConvert => "CallableConvert"
  | callArgument => "CallArgument"
  | objectMemberAccess => "ObjectMemberAccess"
  | nullsafeObjectMemberAccess => "NullsafeObjectMemberAccess"
  | classMemberAccess => "ClassMemberAccess"
  | arrayAccess => "ArrayAccess"
  | computedVariableName => "ComputedVariableName"
  | compoundVariableName => "CompoundVariableName"
  | arrayInitializerBracket => "ArrayInitializerBracket"
  | arrayInitializerFunction => "ArrayInitializerFunction"
  | arrayPair => "ArrayPair"
  | listExpression => "ListExpression"
  | functionExpression => "FunctionExpression"
  | arrowFunctionExpression => "ArrowFunctionExpression"
  | lexicalVariables => "LexicalVariables"
  | returnTypeClause => "ReturnTypeClause"
  | matchExpression => "MatchExpression"
  | matchConditionClause => "MatchConditionClause"
  | matchDefaultClause => "MatchDefaultClause"
  | parameterList => "ParameterList"
  | parameter => "Parameter"
  | typeDeclaration => "Type"
  | dnfTypeGroup => "DnfTypeGroup"
  | attributeGroup => "AttributeGroup"
  | attributeUse => "Attribute"
  | block => "Block"
  | expressionStatement => "ExpressionStatement"
  | ifStatement => "IfStatement"
  | elseifClause => "ElseifClause"
  | elseClause => "ElseClause"
  | alternativeIfStatement => "AlternativeIfStatement"
  | alternativeElseifClause => "AlternativeElseifClause"
  | alternativeElseClause => "AlternativeElseClause"
  | whileStatement => "WhileStatement"
  | alternativeWhileStatement => "AlternativeWhileStatement"
  | doWhileStatement => "DoWhileStatement"
  | forStatement => "ForStatement"
  | alternativeForStatement => "AlternativeForStatement"
  | foreachStatement => "ForeachStatement"
  | alternativeForeachStatement => "AlternativeForeachStatement"
  | switchStatement => "SwitchStatement"
  | alternativeSwitchStatement => "AlternativeSwitchStatement"
  | caseClause => "CaseClause"
  | defaultClause => "DefaultClause"
  | breakStatement => "BreakStatement"
  | continueStatement => "ContinueStatement"
  | returnStatement => "ReturnStatement"
  | echoStatement => "EchoStatement"
  | echoTagStatement => "EchoTagStatement"
  | globalStatement => "GlobalStatement"
  | staticStatement => "StaticStatement"
  | variableDeclaration => "VariableDeclaration"
  | unsetStatement => "UnsetStatement"
  | throwStatement => "ThrowStatement"
  | tryStatement => "TryStatement"
  | catchBlock => "CatchBlock"
  | finallyClause => "FinallyClause"
  | gotoStatement => "GotoStatement"
  | labelStatement => "LabelStatement"
  | declareStatement => "DeclareStatement"
  | namespaceStatement => "NamespaceStatement"
  | useStatement => "UseStatement"
  | groupUseStatement => "GroupUseStatement"
  | useClause => "UseClause"
  | constantDeclaration => "ConstantDeclaration"
  | functionDeclaration => "FunctionDeclaration"
  | classDeclaration => "ClassDeclaration"
  | interfaceDeclaration => "InterfaceDeclaration"
  | traitDeclaration => "TraitDeclaration"
  | enumDeclaration => "EnumDeclaration"
  | classPropertyDeclaration => "ClassPropertyDeclaration"
  | classConstantDeclaration => "ClassConstantDeclaration"
  | methodDeclaration => "MethodDeclaration"
  | useTraitDeclaration => "UseTraitDeclaration"
  | traitPrecedence => "TraitPrecedence"
  | traitAlias => "TraitAlias"
  | traitMethodReference => "TraitMethodReference"
  | enumCase => "EnumCase"

def isLeaf : Kind → Bool
  | .token | .inlineHtml | .emptyStatement | .variableIdentifier | .nameIdentifier |
    .namespaceName | .builtInType | .integerLiteral | .floatLiteral | .regularStringLiteral |
    .expandableStringLiteral | .heredocLiteral | .nowdocLiteral | .executionOperator |
    .booleanLiteral | .nullLiteral | .magicConstant => true
  | _ => false

def isBinary : Kind → Bool
  | .power | .multiply | .divide | .remainder | .plus | .minus | .concatenation | .leftShift |
    .rightShift | .lessThan | .greaterThan | .lessThanOrEqualTo | .greaterThanOrEqualTo |
    .spaceship | .equalTo | .notEqualTo | .strictEqualTo | .strictNotEqualTo | .bitwiseAnd |
    .bitwiseXor | .bitwiseOr | .conditionalAnd | .conditionalOr | .nullCoalescing |
    .alternativeConditionalAnd | .alternativeConditionalOr | .alternativeConditionalXor |
    .instanceof => true
  | _ => false

/-- Whether the even slots of this kind hold its elements and the odd ones separators. -/
def isSeparated : Kind → Bool
  | .separatedList | .unionType | .intersectionType => true
  | _ => false

/-- The number of slots of the kinds that are neither leaves nor binary nor of any length. -/
def fixedArity? : Kind → Option Nat
  | .unaryMinus | .unaryPlus | .logicalComplement | .bitwiseComplement | .errorControl |
    .prefixIncrement | .prefixDecrement | .postfixIncrement | .postfixDecrement |
    .castExpression | .referenceVariable | .spreadArgument | .cloneExpression |
    .printExpression | .throwExpression | .includeExpression | .variableVariable |
    .newExpression | .functionCall | .returnTypeClause | .typeDeclaration | .attributeUse |
    .expressionStatement | .elseClause | .finallyClause | .labelStatement => some 2
  | .parenthesisedExpression | .assignment | .compoundAssignment | .yieldFromExpression |
    .arguments | .callableConvert | .callArgument | .objectMemberAccess |
    .nullsafeObjectMemberAccess | .classMemberAccess | .computedVariableName |
    .arrayInitializerBracket | .arrayPair | .matchConditionClause | .matchDefaultClause |
    .parameterList | .dnfTypeGroup | .attributeGroup | .block | .elseifClause |
    .alternativeElseClause | .whileStatement | .defaultClause | .breakStatement |
    .continueStatement | .returnStatement | .echoStatement | .echoTagStatement |
    .globalStatement | .staticStatement | .variableDeclaration | .throwStatement |
    .gotoStatement | .constantDeclaration | .traitMethodReference => some 3
  | .assignmentByReference | .yieldExpression | .arrayAccess | .compoundVariableName |
    .arrayInitializerFunction | .listExpression | .lexicalVariables | .alternativeElseifClause |
    .caseClause | .tryStatement | .useStatement | .useClause | .traitPrecedence => some 4
  | .conditionalExpression | .ifStatement | .doWhileStatement | .switchStatement |
    .unsetStatement | .declareStatement | .classPropertyDeclaration | .traitAlias => some 5
  | .alternativeWhileStatement | .alternativeSwitchStatement | .catchBlock |
    .namespaceStatement | .traitDeclaration | .classConstantDeclaration | .useTraitDeclaration |
    .enumCase => some 6
  | .matchExpression | .functionDeclaration => some 7
  | .functionExpression | .arrowFunctionExpression | .parameter | .alternativeIfStatement |
    .groupUseStatement | .interfaceDeclaration | .methodDeclaration => some 8
  | .forStatement | .foreachStatement => some 9
  | .anonymousClass | .enumDeclaration => some 10
  | .classDeclaration => some 11
  | .alternativeForStatement | .alternativeForeachStatement => some 12
  | _ => none

/-- The number of slots of a tree of this kind. Leaves have none, and lists any number. -/
def arity? (kind : Kind) : Option Nat :=
  if kind.isLeaf then none else if kind.isBinary then some 3 else kind.fixedArity?

end Kind

end PhpSyntax
