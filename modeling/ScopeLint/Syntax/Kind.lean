/-!
# Kinds of syntax nodes

Every node of a syntax tree has a kind, and a child may stand in a field of its
parent.  The kinds and fields that scoping depends on are named here; any other
is carried by the name that the grammar gives it.
-/

namespace ScopeLint.Syntax

/-- The kind of a syntax node. -/
inductive Kind where
  /-- A name. -/
  | identifier
  /-- The word that the grammar gives a kind of its own. -/
  | undefined
  /-- A name that is both key and value in an object. -/
  | shorthandPropertyIdentifier
  /-- A name that is both key and target in an object pattern. -/
  | shorthandPropertyIdentifierPattern
  /-- A property name. -/
  | propertyIdentifier
  /-- A private property name. -/
  | privatePropertyIdentifier
  /-- A label. -/
  | statementIdentifier
  | metaProperty
  | comment
  | jsxClosingElement
  /-- A declaration by `var`. -/
  | variableDeclaration
  /-- A declaration by `let` or `const`. -/
  | lexicalDeclaration
  /-- One declarator of a declaration. -/
  | variableDeclarator
  | functionDeclaration
  | generatorFunctionDeclaration
  | functionExpression
  | function
  | generatorFunction
  | arrowFunction
  | methodDefinition
  | classDeclaration
  /-- A class expression. -/
  | classExpression
  | classHeritage
  | classBody
  | fieldDefinition
  | classStaticBlock
  | decorator
  | computedPropertyName
  | statementBlock
  | forStatement
  | forInStatement
  | catchClause
  | switchStatement
  | withStatement
  | assignmentExpression
  | augmentedAssignmentExpression
  | updateExpression
  | parenthesizedExpression
  | object
  | array
  | pair
  | spreadElement
  | objectPattern
  | arrayPattern
  | pairPattern
  | restPattern
  | assignmentPattern
  | objectAssignmentPattern
  | importStatement
  | importClause
  | namespaceImport
  | namedImports
  | importSpecifier
  | exportStatement
  | exportClause
  | exportSpecifier
  | jsxOpeningElement
  | jsxSelfClosingElement
  | jsxAttribute
  /-- The keyword `var`. -/
  | varKeyword
  /-- The keyword `let`. -/
  | letKeyword
  /-- The keyword `const`. -/
  | constKeyword
  /-- A stretch of text that the parser could not place. -/
  | error
  /-- Any other kind, by name. -/
  | other (name : String)
  deriving DecidableEq, Repr, Inhabited

namespace Kind

/-- The grammar's name of a kind. -/
def name : Kind → String
  | identifier => "identifier"
  | undefined => "undefined"
  | shorthandPropertyIdentifier => "shorthand_property_identifier"
  | shorthandPropertyIdentifierPattern => "shorthand_property_identifier_pattern"
  | propertyIdentifier => "property_identifier"
  | privatePropertyIdentifier => "private_property_identifier"
  | statementIdentifier => "statement_identifier"
  | metaProperty => "meta_property"
  | comment => "comment"
  | jsxClosingElement => "jsx_closing_element"
  | variableDeclaration => "variable_declaration"
  | lexicalDeclaration => "lexical_declaration"
  | variableDeclarator => "variable_declarator"
  | functionDeclaration => "function_declaration"
  | generatorFunctionDeclaration => "generator_function_declaration"
  | functionExpression => "function_expression"
  | function => "function"
  | generatorFunction => "generator_function"
  | arrowFunction => "arrow_function"
  | methodDefinition => "method_definition"
  | classDeclaration => "class_declaration"
  | classExpression => "class"
  | classHeritage => "class_heritage"
  | classBody => "class_body"
  | fieldDefinition => "field_definition"
  | classStaticBlock => "class_static_block"
  | decorator => "decorator"
  | computedPropertyName => "computed_property_name"
  | statementBlock => "statement_block"
  | forStatement => "for_statement"
  | forInStatement => "for_in_statement"
  | catchClause => "catch_clause"
  | switchStatement => "switch_statement"
  | withStatement => "with_statement"
  | assignmentExpression => "assignment_expression"
  | augmentedAssignmentExpression => "augmented_assignment_expression"
  | updateExpression => "update_expression"
  | parenthesizedExpression => "parenthesized_expression"
  | object => "object"
  | array => "array"
  | pair => "pair"
  | spreadElement => "spread_element"
  | objectPattern => "object_pattern"
  | arrayPattern => "array_pattern"
  | pairPattern => "pair_pattern"
  | restPattern => "rest_pattern"
  | assignmentPattern => "assignment_pattern"
  | objectAssignmentPattern => "object_assignment_pattern"
  | importStatement => "import_statement"
  | importClause => "import_clause"
  | namespaceImport => "namespace_import"
  | namedImports => "named_imports"
  | importSpecifier => "import_specifier"
  | exportStatement => "export_statement"
  | exportClause => "export_clause"
  | exportSpecifier => "export_specifier"
  | jsxOpeningElement => "jsx_opening_element"
  | jsxSelfClosingElement => "jsx_self_closing_element"
  | jsxAttribute => "jsx_attribute"
  | varKeyword => "var"
  | letKeyword => "let"
  | constKeyword => "const"
  | error => "ERROR"
  | other text => text

/-- The kind of a name. -/
def ofName : String → Kind
  | "identifier" => identifier
  | "undefined" => undefined
  | "shorthand_property_identifier" => shorthandPropertyIdentifier
  | "shorthand_property_identifier_pattern" => shorthandPropertyIdentifierPattern
  | "property_identifier" => propertyIdentifier
  | "private_property_identifier" => privatePropertyIdentifier
  | "statement_identifier" => statementIdentifier
  | "meta_property" => metaProperty
  | "comment" => comment
  | "jsx_closing_element" => jsxClosingElement
  | "variable_declaration" => variableDeclaration
  | "lexical_declaration" => lexicalDeclaration
  | "variable_declarator" => variableDeclarator
  | "function_declaration" => functionDeclaration
  | "generator_function_declaration" => generatorFunctionDeclaration
  | "function_expression" => functionExpression
  | "function" => function
  | "generator_function" => generatorFunction
  | "arrow_function" => arrowFunction
  | "method_definition" => methodDefinition
  | "class_declaration" => classDeclaration
  | "class" => classExpression
  | "class_heritage" => classHeritage
  | "class_body" => classBody
  | "field_definition" => fieldDefinition
  | "class_static_block" => classStaticBlock
  | "decorator" => decorator
  | "computed_property_name" => computedPropertyName
  | "statement_block" => statementBlock
  | "for_statement" => forStatement
  | "for_in_statement" => forInStatement
  | "catch_clause" => catchClause
  | "switch_statement" => switchStatement
  | "with_statement" => withStatement
  | "assignment_expression" => assignmentExpression
  | "augmented_assignment_expression" => augmentedAssignmentExpression
  | "update_expression" => updateExpression
  | "parenthesized_expression" => parenthesizedExpression
  | "object" => object
  | "array" => array
  | "pair" => pair
  | "spread_element" => spreadElement
  | "object_pattern" => objectPattern
  | "array_pattern" => arrayPattern
  | "pair_pattern" => pairPattern
  | "rest_pattern" => restPattern
  | "assignment_pattern" => assignmentPattern
  | "object_assignment_pattern" => objectAssignmentPattern
  | "import_statement" => importStatement
  | "import_clause" => importClause
  | "namespace_import" => namespaceImport
  | "named_imports" => namedImports
  | "import_specifier" => importSpecifier
  | "export_statement" => exportStatement
  | "export_clause" => exportClause
  | "export_specifier" => exportSpecifier
  | "jsx_opening_element" => jsxOpeningElement
  | "jsx_self_closing_element" => jsxSelfClosingElement
  | "jsx_attribute" => jsxAttribute
  | "var" => varKeyword
  | "let" => letKeyword
  | "const" => constKeyword
  | "ERROR" => error
  | text => other text

/-- Whether a kind is that of a plain name. -/
def isName : Kind → Bool
  | identifier | undefined => true
  | _ => false

end Kind

/-- A field of a parent node. -/
inductive Field where
  | name
  | value
  | kind
  | left
  | right
  | body
  | parameters
  | parameter
  | argument
  | property
  | object
  | key
  | alias
  | declaration
  | source
  | decorator
  /-- Any other field, by name. -/
  | other (name : String)
  deriving DecidableEq, Repr, Inhabited

/-- The field of a name. -/
def Field.ofName : String → Field
  | "name" => .name
  | "value" => .value
  | "kind" => .kind
  | "left" => .left
  | "right" => .right
  | "body" => .body
  | "parameters" => .parameters
  | "parameter" => .parameter
  | "argument" => .argument
  | "property" => .property
  | "object" => .object
  | "key" => .key
  | "alias" => .alias
  | "declaration" => .declaration
  | "source" => .source
  | "decorator" => .decorator
  | text => .other text

end ScopeLint.Syntax
