/-
# The schema of a dump

A dump has thirteen lists, one for each kind of entity.  Every object refuses members it does not
know, so that nothing in an accepted dump is dropped.  Lists may be left out, and so may all
members that have a default.

What all types have in common comes first in the entry of each of them.
-/
import AbiCompat.Interface.Names

namespace AbiCompat.Dump

def fieldSchema : Schema :=
  .object "JsonRecordField" true <|
    .required "field_name" .text <|
    .required "referenced_type" .text <|
    .required "field_offset" .uint64 <|
    .elided "access" Access.schema .done

def baseSchema : Schema :=
  .object "JsonBaseSpecifier" true <|
    .required "referenced_type" .text <|
    .optional "is_virtual" .flag <|
    .elided "access" Access.schema .done

def slotSchema : Schema :=
  .object "JsonVTableComponent" true <|
    .required "kind" SlotKind.schema <|
    .optional "component_value" .int64 <|
    .optional "mangled_component_name" .text <|
    .elided "is_pure" .flag .done

def recordSchema : Schema :=
  .object "JsonRecordType" true <|
    .required "linker_set_key" .text <|
    .optional "source_file" .text <|
    .required "name" .text <|
    .required "size" .uint64 <|
    .required "alignment" .uint32 <|
    .optional "referenced_type" .text <|
    .elided "self_type" (.option .text) <|
    .optional "fields" (.list fieldSchema) <|
    .optional "base_specifiers" (.list baseSchema) <|
    .optional "vtable_components" (.list slotSchema) <|
    .elided "record_kind" RecordKind.schema <|
    .optional "is_anonymous" .flag <|
    .optional "template_args" (.list .text) <|
    .elided "access" Access.schema .done

def enumeratorSchema : Schema :=
  .object "JsonEnumField" true <|
    .required "name" .text <|
    .required "enum_field_value" .int64 .done

def enumSchema : Schema :=
  .object "JsonEnumType" true <|
    .required "linker_set_key" .text <|
    .optional "source_file" .text <|
    .required "name" .text <|
    .required "size" .uint64 <|
    .required "alignment" .uint32 <|
    .optional "referenced_type" .text <|
    .elided "self_type" (.option .text) <|
    .required "underlying_type" .text <|
    .optional "enum_fields" (.list enumeratorSchema) <|
    .elided "access" Access.schema .done

def referenceSchema : Schema :=
  .object "JsonReferenceType" true <|
    .required "linker_set_key" .text <|
    .optional "source_file" .text <|
    .required "name" .text <|
    .required "size" .uint64 <|
    .required "alignment" .uint32 <|
    .required "referenced_type" .text <|
    .elided "self_type" (.option .text) .done

/-- A built-in type. -/
def builtinSchema : Schema :=
  .object "JsonBuiltinType" true <|
    .required "linker_set_key" .text <|
    .optional "source_file" .text <|
    .required "name" .text <|
    .required "size" .uint64 <|
    .required "alignment" .uint32 <|
    .optional "referenced_type" .text <|
    .elided "self_type" (.option .text) <|
    .optional "is_unsigned" .flag <|
    .optional "is_integral" .flag .done

def qualifiedSchema : Schema :=
  .object "JsonQualifiedType" true <|
    .required "linker_set_key" .text <|
    .optional "source_file" .text <|
    .required "name" .text <|
    .required "size" .uint64 <|
    .required "alignment" .uint32 <|
    .required "referenced_type" .text <|
    .elided "self_type" (.option .text) <|
    .optional "is_const" .flag <|
    .optional "is_volatile" .flag <|
    .optional "is_restricted" .flag .done

def paramSchema : Schema :=
  .object "JsonParam" true <|
    .required "referenced_type" .text <|
    .optional "default_arg" .flag <|
    .optional "is_this_ptr" .flag .done

def functionTypeSchema : Schema :=
  .object "JsonFunctionType" true <|
    .required "linker_set_key" .text <|
    .optional "source_file" .text <|
    .required "name" .text <|
    .required "size" .uint64 <|
    .required "alignment" .uint32 <|
    .optional "referenced_type" .text <|
    .elided "self_type" (.option .text) <|
    .required "return_type" .text <|
    .optional "parameters" (.list paramSchema) <|
    .optional "template_args" (.list .text) .done

def functionSchema : Schema :=
  .object "JsonFunction" true <|
    .required "function_name" .text <|
    .required "linker_set_key" .text <|
    .optional "source_file" .text <|
    .required "return_type" .text <|
    .optional "parameters" (.list paramSchema) <|
    .optional "template_args" (.list .text) <|
    .elided "access" Access.schema .done

def globalSchema : Schema :=
  .object "JsonGlobalVar" true <|
    .required "name" .text <|
    .required "linker_set_key" .text <|
    .optional "source_file" .text <|
    .required "referenced_type" .text <|
    .elided "access" Access.schema .done

def symbolSchema : Schema :=
  .object "JsonElfSymbol" true <|
    .required "name" .text <|
    .elided "binding" Binding.schema .done

end AbiCompat.Dump
