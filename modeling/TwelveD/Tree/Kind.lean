/-!
# Kinds and fields of tree nodes

The grammar gives every node a kind and may give it a field, the role it plays under its parent.
The kinds and fields that any rule of this library looks at are constructors; all others keep their
written name.
-/

namespace TwelveD

/-- The kind of a node. -/
inductive Kind where
  | translationUnit
  | functionDefinition
  | functionDeclarator
  | parameterDeclaration
  | compoundStatement
  | declaration
  | initDeclarator
  | arrayDeclarator
  | pointerDeclarator
  | ifStatement
  | elseClause
  | whileStatement
  | forStatement
  | switchStatement
  | callExpression
  | argumentList
  | preprocDef
  | identifier
  | comment
  /-- Text that the parser could not place. -/
  | error
  | openParen
  | closeParen
  | closeBrace
  | comma
  /-- A kind that no rule asks for. -/
  | other (name : String)
  deriving DecidableEq, Repr

namespace Kind

/-- The name of a kind in the grammar. -/
def name : Kind → String
  | translationUnit => "translation_unit"
  | functionDefinition => "function_definition"
  | functionDeclarator => "function_declarator"
  | parameterDeclaration => "parameter_declaration"
  | compoundStatement => "compound_statement"
  | declaration => "declaration"
  | initDeclarator => "init_declarator"
  | arrayDeclarator => "array_declarator"
  | pointerDeclarator => "pointer_declarator"
  | ifStatement => "if_statement"
  | elseClause => "else_clause"
  | whileStatement => "while_statement"
  | forStatement => "for_statement"
  | switchStatement => "switch_statement"
  | callExpression => "call_expression"
  | argumentList => "argument_list"
  | preprocDef => "preproc_def"
  | identifier => "identifier"
  | comment => "comment"
  | error => "ERROR"
  | openParen => "("
  | closeParen => ")"
  | closeBrace => "\x7d"
  | comma => ","
  | other name => name

/-- The kinds with a constructor of their own. -/
def named : List Kind :=
  [translationUnit, functionDefinition, functionDeclarator, parameterDeclaration,
    compoundStatement, declaration, initDeclarator, arrayDeclarator, pointerDeclarator,
    ifStatement, elseClause, whileStatement, forStatement, switchStatement, callExpression,
    argumentList, preprocDef, identifier, comment, error, openParen, closeParen, closeBrace, comma]

/-- The kind with a given name. -/
def ofName (name : String) : Kind := (named.find? (·.name == name)).getD (other name)

/-- Reading a kind's name back gives the name again. -/
theorem name_ofName (name : String) : (ofName name).name = name := by
  unfold ofName
  cases h : named.find? (·.name == name) with
  | none => rfl
  | some k => simpa using List.find?_some h

end Kind

/-- The role of a node under its parent. -/
inductive Field where
  | type
  | declarator
  | body
  | parameters
  | function
  | alternative
  | name
  /-- A role that no rule asks for. -/
  | other (label : String)
  deriving DecidableEq, Repr

namespace Field

/-- The label of a field in the grammar. -/
def label : Field → String
  | type => "type"
  | declarator => "declarator"
  | body => "body"
  | parameters => "parameters"
  | function => "function"
  | alternative => "alternative"
  | name => "name"
  | other label => label

/-- The fields with a constructor of their own. -/
def named : List Field := [type, declarator, body, parameters, function, alternative, name]

/-- The field with a given label. -/
def ofLabel (label : String) : Field := (named.find? (·.label == label)).getD (other label)

/-- Reading a field's label back gives the label again. -/
theorem label_ofLabel (label : String) : (ofLabel label).label = label := by
  unfold ofLabel
  cases h : named.find? (·.label == label) with
  | none => rfl
  | some f => simpa using List.find?_some h

end Field

end TwelveD
