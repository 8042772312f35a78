/-!
# The kinds of the grammar

12dPL is parsed with the grammar of C. The rules of that grammar are the kinds of node that a query
can ask for.
-/

namespace TwelveD.Grammar

/-- The rules of the grammar that become nodes. -/
def ruleKinds : List String :=
  ["abstract_array_declarator", "abstract_function_declarator", "abstract_parenthesized_declarator",
    "abstract_pointer_declarator", "alignas_qualifier", "alignof_expression", "argument_list",
    "array_declarator", "assignment_expression", "attribute", "attribute_declaration",
    "attribute_specifier", "attributed_declarator", "attributed_statement", "binary_expression",
    "bitfield_clause", "break_statement", "call_expression", "case_statement", "cast_expression",
    "char_literal", "character", "comma_expression", "comment", "compound_literal_expression",
    "compound_statement", "concatenated_string", "conditional_expression", "continue_statement",
    "declaration", "declaration_list", "do_statement", "else_clause", "enum_specifier",
    "enumerator", "enumerator_list", "escape_sequence", "expression_statement",
    "extension_expression", "false", "field_declaration", "field_declaration_list",
    "field_designator", "field_expression", "field_identifier", "for_statement",
    "function_declarator", "function_definition", "generic_expression", "gnu_asm_clobber_list",
    "gnu_asm_expression", "gnu_asm_goto_list", "gnu_asm_input_operand",
    "gnu_asm_input_operand_list", "gnu_asm_output_operand", "gnu_asm_output_operand_list",
    "gnu_asm_qualifier", "goto_statement", "identifier", "if_statement", "init_declarator",
    "initializer_list", "initializer_pair", "labeled_statement", "linkage_specification",
    "macro_type_specifier", "ms_based_modifier", "ms_call_modifier", "ms_declspec_modifier",
    "ms_pointer_modifier", "ms_restrict_modifier", "ms_signed_ptr_modifier",
    "ms_unaligned_ptr_modifier", "ms_unsigned_ptr_modifier", "null", "number_literal",
    "offsetof_expression", "parameter_declaration", "parameter_list", "parenthesized_declarator",
    "parenthesized_expression", "pointer_declarator", "pointer_expression", "preproc_arg",
    "preproc_call", "preproc_def", "preproc_defined", "preproc_directive", "preproc_elif",
    "preproc_elifdef", "preproc_else", "preproc_function_def", "preproc_if", "preproc_ifdef",
    "preproc_include", "preproc_params", "primitive_type", "return_statement",
    "seh_except_clause", "seh_finally_clause", "seh_leave_statement", "seh_try_statement",
    "sized_type_specifier", "sizeof_expression", "statement_identifier",
    "storage_class_specifier", "string_content", "string_literal", "struct_specifier",
    "subscript_designator", "subscript_expression", "subscript_range_designator",
    "switch_statement", "system_lib_string", "translation_unit", "true", "type_definition",
    "type_descriptor", "type_identifier", "type_qualifier", "unary_expression",
    "union_specifier", "update_expression", "variadic_parameter", "while_statement"]

/-- The kind of text that the parser could not place. -/
def errorKind : String := "ERROR"

/-- Whether a query may ask for nodes of this kind. -/
def isKind (name : String) : Bool := ruleKinds.contains name || name == errorKind

end TwelveD.Grammar
