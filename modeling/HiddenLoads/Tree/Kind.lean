/-
# HiddenLoads.Tree.Kind -- kinds of rows and fields of a syntax tree

A grammar names many kinds of rows.  Those that matter here have a constructor, all others are
kept by name.  `Kind.ofName` and `Kind.name` go between a kind and its name in the grammar, and
so do `Field.ofName` and `Field.name` for the role that a row plays under its parent.
-/
import HiddenLoads.Text

namespace HiddenLoads

set_option autoImplicit false

inductive Kind where
  | identifier
  | propertyIdentifier
  | privatePropertyIdentifier
  | shorthandIdentifier
  | shorthandPattern
  | statementIdentifier
  | string
  | stringFragment
  | escapeSequence
  | number
  | regex
  | this
  | super
  | importToken
  | trueToken
  | falseToken
  | nullToken
  | undefinedToken
  | hashBang
  | comment
  | htmlComment
  | template
  | substitution
  | array
  | binary
  | call
  | arguments
  | member
  | subscript
  | parenthesized
  | sequence
  | objectPattern
  | arrayPattern
  | pairPattern
  | defaultPattern
  | declarator
  | assignment
  | augmentedAssignment
  | importStatement
  | exportStatement
  | other (name : Text)
deriving DecidableEq, Repr

namespace Kind

def name : Kind → Text
  | .identifier => "identifier"
  | .propertyIdentifier => "property_identifier"
  | .privatePropertyIdentifier => "private_property_identifier"
  | .shorthandIdentifier => "shorthand_property_identifier"
  | .shorthandPattern => "shorthand_property_identifier_pattern"
  | .statementIdentifier => "statement_identifier"
  | .string => "string"
  | .stringFragment => "string_fragment"
  | .escapeSequence => "escape_sequence"
  | .number => "number"
  | .regex => "regex"
  | .this => "this"
  | .super => "super"
  | .importToken => "import"
  | .trueToken => "true"
  | .falseToken => "false"
  | .nullToken => "null"
  | .undefinedToken => "undefined"
  | .hashBang => "hash_bang_line"
  | .comment => "comment"
  | .htmlComment => "html_comment"
  | .template => "template_string"
  | .substitution => "template_substitution"
  | .array => "array"
  | .binary => "binary_expression"
  | .call => "call_expression"
  | .arguments => "arguments"
  | .member => "member_expression"
  | .subscript => "subscript_expression"
  | .parenthesized => "parenthesized_expression"
  | .sequence => "sequence_expression"
  | .objectPattern => "object_pattern"
  | .arrayPattern => "array_pattern"
  | .pairPattern => "pair_pattern"
  | .defaultPattern => "object_assignment_pattern"
  | .declarator => "variable_declarator"
  | .assignment => "assignment_expression"
  | .augmentedAssignment => "augmented_assignment_expression"
  | .importStatement => "import_statement"
  | .exportStatement => "export_statement"
  | .other t => t

def known : List Kind := [
    .identifier, .propertyIdentifier, .privatePropertyIdentifier, .shorthandIdentifier,
    .shorthandPattern, .statementIdentifier, .string, .stringFragment, .escapeSequence, .number,
    .regex, .this, .super, .importToken, .trueToken, .falseToken, .nullToken, .undefinedToken,
    .hashBang, .comment, .htmlComment, .template, .substitution, .array, .binary, .call,
    .arguments, .member, .subscript, .parenthesized, .sequence, .objectPattern, .arrayPattern,
    .pairPattern, .defaultPattern, .declarator, .assignment, .augmentedAssignment,
    .importStatement, .exportStatement]

def ofName (t : Text) : Kind := (known.find? fun kind => kind.name = t).getD (.other t)

def isComment : Kind → Bool
  | .comment | .htmlComment => true
  | _ => false

def isName : Kind → Bool
  | .identifier | .propertyIdentifier | .privatePropertyIdentifier | .shorthandIdentifier
  | .shorthandPattern | .statementIdentifier => true
  | _ => false

/-- Nothing below the row is looked at. -/
def isLeaf : Kind → Bool
  | .string | .number | .regex | .stringFragment | .escapeSequence | .this | .super
  | .importToken | .trueToken | .falseToken | .nullToken | .undefinedToken | .hashBang => true
  | kind => kind.isName

end Kind

/-- The role of a row under its parent. -/
inductive Field where
  | operator
  | left
  | right
  | function
  | arguments
  | object
  | property
  | index
  | key
  | value
  | declared
  | source
  | other (name : Text)
deriving DecidableEq, Repr

namespace Field

def name : Field → Text
  | .operator => "operator"
  | .left => "left"
  | .right => "right"
  | .function => "function"
  | .arguments => "arguments"
  | .object => "object"
  | .property => "property"
  | .index => "index"
  | .key => "key"
  | .value => "value"
  | .declared => "name"
  | .source => "source"
  | .other t => t

def known : List Field := [
    .operator, .left, .right, .function, .arguments, .object, .property, .index, .key, .value,
    .declared, .source]

/-- The field that a grammar calls so; the empty name is no role at all. -/
def ofName (t : Text) : Field := (known.find? fun field => field.name = t).getD (.other t)

end Field

end HiddenLoads
