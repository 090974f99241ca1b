/-
# The schema of a report

Members that a report does not know are passed over, and lists and options that are empty are not
written.  Four members on the comparison as a whole are always there, and come first.
-/
import AbiCompat.Interface.Names

namespace AbiCompat.Report

def paramSchema : Schema :=
  .object "ParamEntry" false <|
    .required "referenced_type" .text <|
    .elided "is_default" .flag <|
    .elided "is_this_ptr" .flag .done

def functionSchema : Schema :=
  .object "FunctionEntry" false <|
    .required "function_name" .text <|
    .required "linker_set_key" .text <|
    .required "source_file" .text <|
    .required "return_type" .text <|
    .required "parameters" (.list paramSchema) <|
    .elided "template_args" (.list .text) <|
    .required "access" Access.schema .done

def globalSchema : Schema :=
  .object "GlobalVarEntry" false <|
    .required "name" .text <|
    .required "linker_set_key" .text <|
    .required "source_file" .text <|
    .required "referenced_type" .text <|
    .required "access" Access.schema .done

def fieldSchema : Schema :=
  .object "FieldEntry" false <|
    .required "field_name" .text <|
    .required "referenced_type" .text <|
    .required "field_offset" .uint64 <|
    .required "access" Access.schema .done

def baseSchema : Schema :=
  .object "BaseEntry" false <|
    .required "referenced_type" .text <|
    .elided "is_virtual" .flag <|
    .required "access" Access.schema .done

def slotSchema : Schema :=
  .object "VTableEntry" false <|
    .required "kind" SlotKind.schema <|
    .required "mangled_component_name" .text <|
    .required "component_value" .int64 <|
    .elided "is_pure" .flag .done

def enumeratorSchema : Schema :=
  .object "EnumFieldEntry" false <|
    .required "name" .text <|
    .required "enum_field_value" .int64 .done

def recordSchema : Schema :=
  .object "RecordEntry" false <|
    .required "name" .text <|
    .required "linker_set_key" .text <|
    .required "source_file" .text <|
    .required "size" .uint64 <|
    .required "alignment" .uint32 <|
    .required "record_kind" RecordKind.schema <|
    .required "access" Access.schema <|
    .elided "fields" (.list fieldSchema) <|
    .elided "base_specifiers" (.list baseSchema) <|
    .elided "vtable_components" (.list slotSchema) <|
    .elided "template_args" (.list .text) .done

def enumSchema : Schema :=
  .object "EnumEntry" false <|
    .required "name" .text <|
    .required "linker_set_key" .text <|
    .required "source_file" .text <|
    .required "size" .uint64 <|
    .required "alignment" .uint32 <|
    .required "underlying_type" .text <|
    .required "enum_fields" (.list enumeratorSchema) <|
    .required "access" Access.schema .done

def roomSchema : Schema :=
  .object "TypeInfoDiffEntry" false <|
    .required "old_size" .uint64 <|
    .required "new_size" .uint64 <|
    .required "old_alignment" .uint32 <|
    .required "new_alignment" .uint32 .done

def accessChangeSchema : Schema :=
  .object "AccessDiffEntry" false <|
    .required "old_access" Access.schema <|
    .required "new_access" Access.schema .done

def vtableChangeSchema : Schema :=
  .object "VTableLayoutDiff" false <|
    .required "old_vtable" (.list slotSchema) <|
    .required "new_vtable" (.list slotSchema) .done

def basesChangeSchema : Schema :=
  .object "BaseSpecifierDiff" false <|
    .required "old_bases" (.list baseSchema) <|
    .required "new_bases" (.list baseSchema) .done

def fieldChangeSchema : Schema :=
  .object "FieldDiffEntry" false <|
    .required "old_field" fieldSchema <|
    .required "new_field" fieldSchema .done

def recordChangeSchema : Schema :=
  .object "RecordDiffEntry" false <|
    .required "name" .text <|
    .required "linker_set_key" .text <|
    .required "type_stack" .text <|
    .elided "type_info_diff" (.option roomSchema) <|
    .elided "access_diff" (.option accessChangeSchema) <|
    .elided "vtable_layout_diff" (.option vtableChangeSchema) <|
    .elided "base_specifier_diffs" (.option basesChangeSchema) <|
    .elided "fields_diff" (.list fieldChangeSchema) <|
    .elided "fields_removed" (.list fieldSchema) <|
    .elided "fields_added" (.list fieldSchema) .done

def underlyingChangeSchema : Schema :=
  .object "UnderlyingTypeDiff" false <|
    .required "old_type" .text <|
    .required "new_type" .text .done

def enumeratorChangeSchema : Schema :=
  .object "EnumFieldDiffEntry" false <|
    .required "old_field" enumeratorSchema <|
    .required "new_field" enumeratorSchema .done

def enumChangeSchema : Schema :=
  .object "EnumDiffEntry" false <|
    .required "name" .text <|
    .required "linker_set_key" .text <|
    .required "type_stack" .text <|
    .elided "underlying_type_diff" (.option underlyingChangeSchema) <|
    .elided "fields_added" (.list enumeratorSchema) <|
    .elided "fields_removed" (.list enumeratorSchema) <|
    .elided "fields_diff" (.list enumeratorChangeSchema) .done

def functionChangeSchema : Schema :=
  .object "FunctionDiffEntry" false <|
    .required "type_stack" .text <|
    .required "old_function" functionSchema <|
    .required "new_function" functionSchema .done

def globalChangeSchema : Schema :=
  .object "GlobalVarDiffEntry" false <|
    .required "type_stack" .text <|
    .required "old_global_var" globalSchema <|
    .required "new_global_var" globalSchema .done

def symbolSchema : Schema :=
  .object "ElfSymbolEntry" false <|
    .required "name" .text <|
    .required "binding" Binding.schema .done

def schema : Schema :=
  .object "DiffReport" false <|
    .required "lib_name" .text <|
    .required "arch" .text <|
    .required "compatibility_status" (.list .text) <|
    .required "compatibility_status_code" .uint32 <|
    .elided "functions_removed" (.list functionSchema) <|
    .elided "functions_added" (.list functionSchema) <|
    .elided "global_vars_removed" (.list globalSchema) <|
    .elided "global_vars_added" (.list globalSchema) <|
    .elided "function_diffs" (.list functionChangeSchema) <|
    .elided "global_var_diffs" (.list globalChangeSchema) <|
    .elided "record_type_diffs" (.list recordChangeSchema) <|
    .elided "unreferenced_record_type_diffs" (.list recordChangeSchema) <|
    .elided "unreferenced_record_types_removed" (.list recordSchema) <|
    .elided "unreferenced_record_types_added" (.list recordSchema) <|
    .elided "enum_type_diffs" (.list enumChangeSchema) <|
    .elided "enum_type_extension_diffs" (.list enumChangeSchema) <|
    .elided "unreferenced_enum_type_diffs" (.list enumChangeSchema) <|
    .elided "unreferenced_enum_type_extension_diffs" (.list enumChangeSchema) <|
    .elided "unreferenced_enum_types_removed" (.list enumSchema) <|
    .elided "unreferenced_enum_types_added" (.list enumSchema) <|
    .elided "removed_elf_functions" (.list symbolSchema) <|
    .elided "removed_elf_objects" (.list symbolSchema) <|
    .elided "added_elf_functions" (.list symbolSchema) <|
    .elided "added_elf_objects" (.list symbolSchema) .done

end AbiCompat.Report
