import ProtoNames.Builtin.Descriptor

/-!
The built-in schema files: the descriptions that a schema compiler carries with it, of
schemas themselves and of the well-known types. They need no file on disk. A built-in file
is known by the name of the *module* that carries it.
-/

namespace ProtoNames.Builtin

/-- The package of all built-in files. -/
def package : String := "google.protobuf"

/-- A message of the built-in package. -/
def messageType (name : String) : FieldType := .message (absoluteName [package, name])

/-- An enum of the built-in package. -/
def enumType (name : String) : FieldType := .enum (absoluteName [package, name])

/-- The entry message of a map field. -/
def mapEntry (name : String) (key value : FieldType) : MessageDescriptor :=
  .mk name true [] [] [⟨"key", 1, key⟩, ⟨"value", 2, value⟩]

/-- Message `FileDescriptorSet`. -/
def fileDescriptorSet : MessageDescriptor :=
  .mk "FileDescriptorSet" false []
    []
    [⟨"file", 1, messageType "FileDescriptorProto"⟩]

/-- Message `FileDescriptorProto`. -/
def fileDescriptorProto : MessageDescriptor :=
  .mk "FileDescriptorProto" false []
    []
    [⟨"name", 1, .scalar .string⟩, ⟨"package", 2, .scalar .string⟩,
     ⟨"dependency", 3, .scalar .string⟩, ⟨"public_dependency", 10, .scalar .int32⟩,
     ⟨"weak_dependency", 11, .scalar .int32⟩, ⟨"option_dependency", 15, .scalar .string⟩,
     ⟨"message_type", 4, messageType "DescriptorProto"⟩,
     ⟨"enum_type", 5, messageType "EnumDescriptorProto"⟩,
     ⟨"service", 6, messageType "ServiceDescriptorProto"⟩,
     ⟨"extension", 7, messageType "FieldDescriptorProto"⟩,
     ⟨"options", 8, messageType "FileOptions"⟩,
     ⟨"source_code_info", 9, messageType "SourceCodeInfo"⟩, ⟨"syntax", 12, .scalar .string⟩,
     ⟨"edition", 14, enumType "Edition"⟩]

/-- Message `DescriptorProto.ExtensionRange`. -/
def descriptorProtoExtensionRange : MessageDescriptor :=
  .mk "ExtensionRange" false []
    []
    [⟨"start", 1, .scalar .int32⟩, ⟨"end", 2, .scalar .int32⟩,
     ⟨"options", 3, messageType "ExtensionRangeOptions"⟩]

/-- Message `DescriptorProto.ReservedRange`. -/
def descriptorProtoReservedRange : MessageDescriptor :=
  .mk "ReservedRange" false []
    []
    [⟨"start", 1, .scalar .int32⟩, ⟨"end", 2, .scalar .int32⟩]

/-- Message `DescriptorProto`. -/
def descriptorProto : MessageDescriptor :=
  .mk "DescriptorProto" false [descriptorProtoExtensionRange, descriptorProtoReservedRange]
    []
    [⟨"name", 1, .scalar .string⟩, ⟨"field", 2, messageType "FieldDescriptorProto"⟩,
     ⟨"extension", 6, messageType "FieldDescriptorProto"⟩,
     ⟨"nested_type", 3, messageType "DescriptorProto"⟩,
     ⟨"enum_type", 4, messageType "EnumDescriptorProto"⟩,
     ⟨"extension_range", 5, messageType "DescriptorProto.ExtensionRange"⟩,
     ⟨"oneof_decl", 8, messageType "OneofDescriptorProto"⟩,
     ⟨"options", 7, messageType "MessageOptions"⟩,
     ⟨"reserved_range", 9, messageType "DescriptorProto.ReservedRange"⟩,
     ⟨"reserved_name", 10, .scalar .string⟩, ⟨"visibility", 11, enumType "SymbolVisibility"⟩]

/-- Message `ExtensionRangeOptions.Declaration`. -/
def extensionRangeOptionsDeclaration : MessageDescriptor :=
  .mk "Declaration" false []
    []
    [⟨"number", 1, .scalar .int32⟩, ⟨"full_name", 2, .scalar .string⟩,
     ⟨"type", 3, .scalar .string⟩, ⟨"reserved", 5, .scalar .bool⟩, ⟨"repeated", 6, .scalar .bool⟩]

/-- Enum `ExtensionRangeOptions.VerificationState`. -/
def extensionRangeOptionsVerificationState : EnumDescriptor where
  name := "VerificationState"
  values :=
    [("DECLARATION", 0), ("UNVERIFIED", 1)]

/-- Message `ExtensionRangeOptions`. -/
def extensionRangeOptions : MessageDescriptor :=
  .mk "ExtensionRangeOptions" false [extensionRangeOptionsDeclaration]
    [extensionRangeOptionsVerificationState]
    [⟨"uninterpreted_option", 999, messageType "UninterpretedOption"⟩,
     ⟨"declaration", 2, messageType "ExtensionRangeOptions.Declaration"⟩,
     ⟨"features", 50, messageType "FeatureSet"⟩,
     ⟨"verification", 3, enumType "ExtensionRangeOptions.VerificationState"⟩]

/-- Enum `FieldDescriptorProto.Type`. -/
def fieldDescriptorProtoType : EnumDescriptor where
  name := "Type"
  values :=
    [("TYPE_DOUBLE", 1), ("TYPE_FLOAT", 2), ("TYPE_INT64", 3), ("TYPE_UINT64", 4),
     ("TYPE_INT32", 5), ("TYPE_FIXED64", 6), ("TYPE_FIXED32", 7), ("TYPE_BOOL", 8),
     ("TYPE_STRING", 9), ("TYPE_GROUP", 10), ("TYPE_MESSAGE", 11), ("TYPE_BYTES", 12),
     ("TYPE_UINT32", 13), ("TYPE_ENUM", 14), ("TYPE_SFIXED32", 15), ("TYPE_SFIXED64", 16),
     ("TYPE_SINT32", 17), ("TYPE_SINT64", 18)]

/-- Enum `FieldDescriptorProto.Label`. -/
def fieldDescriptorProtoLabel : EnumDescriptor where
  name := "Label"
  values :=
    [("LABEL_OPTIONAL", 1), ("LABEL_REPEATED", 3), ("LABEL_REQUIRED", 2)]

/-- Message `FieldDescriptorProto`. -/
def fieldDescriptorProto : MessageDescriptor :=
  .mk "FieldDescriptorProto" false []
    [fieldDescriptorProtoType, fieldDescriptorProtoLabel]
    [⟨"name", 1, .scalar .string⟩, ⟨"number", 3, .scalar .int32⟩,
     ⟨"label", 4, enumType "FieldDescriptorProto.Label"⟩,
     ⟨"type", 5, enumType "FieldDescriptorProto.Type"⟩, ⟨"type_name", 6, .scalar .string⟩,
     ⟨"extendee", 2, .scalar .string⟩, ⟨"default_value", 7, .scalar .string⟩,
     ⟨"oneof_index", 9, .scalar .int32⟩, ⟨"json_name", 10, .scalar .string⟩,
     ⟨"options", 8, messageType "FieldOptions"⟩, ⟨"proto3_optional", 17, .scalar .bool⟩]

/-- Message `OneofDescriptorProto`. -/
def oneofDescriptorProto : MessageDescriptor :=
  .mk "OneofDescriptorProto" false []
    []
    [⟨"name", 1, .scalar .string⟩, ⟨"options", 2, messageType "OneofOptions"⟩]

/-- Message `EnumDescriptorProto.EnumReservedRange`. -/
def enumDescriptorProtoEnumReservedRange : MessageDescriptor :=
  .mk "EnumReservedRange" false []
    []
    [⟨"start", 1, .scalar .int32⟩, ⟨"end", 2, .scalar .int32⟩]

/-- Message `EnumDescriptorProto`. -/
def enumDescriptorProto : MessageDescriptor :=
  .mk "EnumDescriptorProto" false [enumDescriptorProtoEnumReservedRange]
    []
    [⟨"name", 1, .scalar .string⟩, ⟨"value", 2, messageType "EnumValueDescriptorProto"⟩,
     ⟨"options", 3, messageType "EnumOptions"⟩,
     ⟨"reserved_range", 4, messageType "EnumDescriptorProto.EnumReservedRange"⟩,
     ⟨"reserved_name", 5, .scalar .string⟩, ⟨"visibility", 6, enumType "SymbolVisibility"⟩]

/-- Message `EnumValueDescriptorProto`. -/
def enumValueDescriptorProto : MessageDescriptor :=
  .mk "EnumValueDescriptorProto" false []
    []
    [⟨"name", 1, .scalar .string⟩, ⟨"number", 2, .scalar .int32⟩,
     ⟨"options", 3, messageType "EnumValueOptions"⟩]

/-- Message `ServiceDescriptorProto`. -/
def serviceDescriptorProto : MessageDescriptor :=
  .mk "ServiceDescriptorProto" false []
    []
    [⟨"name", 1, .scalar .string⟩, ⟨"method", 2, messageType "MethodDescriptorProto"⟩,
     ⟨"options", 3, messageType "ServiceOptions"⟩]

/-- Message `MethodDescriptorProto`. -/
def methodDescriptorProto : MessageDescriptor :=
  .mk "MethodDescriptorProto" false []
    []
    [⟨"name", 1, .scalar .string⟩, ⟨"input_type", 2, .scalar .string⟩,
     ⟨"output_type", 3, .scalar .string⟩, ⟨"options", 4, messageType "MethodOptions"⟩,
     ⟨"client_streaming", 5, .scalar .bool⟩, ⟨"server_streaming", 6, .scalar .bool⟩]

/-- Enum `FileOptions.OptimizeMode`. -/
def fileOptionsOptimizeMode : EnumDescriptor where
  name := "OptimizeMode"
  values :=
    [("SPEED", 1), ("CODE_SIZE", 2), ("LITE_RUNTIME", 3)]

/-- Message `FileOptions`. -/
def fileOptions : MessageDescriptor :=
  .mk "FileOptions" false []
    [fileOptionsOptimizeMode]
    [⟨"java_package", 1, .scalar .string⟩, ⟨"java_outer_classname", 8, .scalar .string⟩,
     ⟨"java_multiple_files", 10, .scalar .bool⟩,
     ⟨"java_generate_equals_and_hash", 20, .scalar .bool⟩,
     ⟨"java_string_check_utf8", 27, .scalar .bool⟩,
     ⟨"optimize_for", 9, enumType "FileOptions.OptimizeMode"⟩,
     ⟨"go_package", 11, .scalar .string⟩, ⟨"cc_generic_services", 16, .scalar .bool⟩,
     ⟨"java_generic_services", 17, .scalar .bool⟩, ⟨"py_generic_services", 18, .scalar .bool⟩,
     ⟨"deprecated", 23, .scalar .bool⟩, ⟨"cc_enable_arenas", 31, .scalar .bool⟩,
     ⟨"objc_class_prefix", 36, .scalar .string⟩, ⟨"csharp_namespace", 37, .scalar .string⟩,
     ⟨"swift_prefix", 39, .scalar .string⟩, ⟨"php_class_prefix", 40, .scalar .string⟩,
     ⟨"php_namespace", 41, .scalar .string⟩, ⟨"php_metadata_namespace", 44, .scalar .string⟩,
     ⟨"ruby_package", 45, .scalar .string⟩, ⟨"features", 50, messageType "FeatureSet"⟩,
     ⟨"uninterpreted_option", 999, messageType "UninterpretedOption"⟩]

/-- Message `MessageOptions`. -/
def messageOptions : MessageDescriptor :=
  .mk "MessageOptions" false []
    []
    [⟨"message_set_wire_format", 1, .scalar .bool⟩,
     ⟨"no_standard_descriptor_accessor", 2, .scalar .bool⟩, ⟨"deprecated", 3, .scalar .bool⟩,
     ⟨"map_entry", 7, .scalar .bool⟩,
     ⟨"deprecated_legacy_json_field_conflicts", 11, .scalar .bool⟩,
     ⟨"features", 12, messageType "FeatureSet"⟩,
     ⟨"uninterpreted_option", 999, messageType "UninterpretedOption"⟩]

/-- Message `FieldOptions.EditionDefault`. -/
def fieldOptionsEditionDefault : MessageDescriptor :=
  .mk "EditionDefault" false []
    []
    [⟨"edition", 3, enumType "Edition"⟩, ⟨"value", 2, .scalar .string⟩]

/-- Message `FieldOptions.FeatureSupport`. -/
def fieldOptionsFeatureSupport : MessageDescriptor :=
  .mk "FeatureSupport" false []
    []
    [⟨"edition_introduced", 1, enumType "Edition"⟩, ⟨"edition_deprecated", 2, enumType "Edition"⟩,
     ⟨"deprecation_warning", 3, .scalar .string⟩, ⟨"edition_removed", 4, enumType "Edition"⟩,
     ⟨"removal_error", 5, .scalar .string⟩]

/-- Enum `FieldOptions.CType`. -/
def fieldOptionsCType : EnumDescriptor where
  name := "CType"
  values :=
    [("STRING", 0), ("CORD", 1), ("STRING_PIECE", 2)]

/-- Enum `FieldOptions.JSType`. -/
def fieldOptionsJSType : EnumDescriptor where
  name := "JSType"
  values :=
    [("JS_NORMAL", 0), ("JS_STRING", 1), ("JS_NUMBER", 2)]

/-- Enum `FieldOptions.OptionRetention`. -/
def fieldOptionsOptionRetention : EnumDescriptor where
  name := "OptionRetention"
  values :=
    [("RETENTION_UNKNOWN", 0), ("RETENTION_RUNTIME", 1), ("RETENTION_SOURCE", 2)]

/-- Enum `FieldOptions.OptionTargetType`. -/
def fieldOptionsOptionTargetType : EnumDescriptor where
  name := "OptionTargetType"
  values :=
    [("TARGET_TYPE_UNKNOWN", 0), ("TARGET_TYPE_FILE", 1), ("TARGET_TYPE_EXTENSION_RANGE", 2),
     ("TARGET_TYPE_MESSAGE", 3), ("TARGET_TYPE_FIELD", 4), ("TARGET_TYPE_ONEOF", 5),
     ("TARGET_TYPE_ENUM", 6), ("TARGET_TYPE_ENUM_ENTRY", 7), ("TARGET_TYPE_SERVICE", 8),
     ("TARGET_TYPE_METHOD", 9)]

/-- Message `FieldOptions`. -/
def fieldOptions : MessageDescriptor :=
  .mk "FieldOptions" false [fieldOptionsEditionDefault, fieldOptionsFeatureSupport]
    [fieldOptionsCType, fieldOptionsJSType, fieldOptionsOptionRetention,
     fieldOptionsOptionTargetType]
    [⟨"ctype", 1, enumType "FieldOptions.CType"⟩, ⟨"packed", 2, .scalar .bool⟩,
     ⟨"jstype", 6, enumType "FieldOptions.JSType"⟩, ⟨"lazy", 5, .scalar .bool⟩,
     ⟨"unverified_lazy", 15, .scalar .bool⟩, ⟨"deprecated", 3, .scalar .bool⟩,
     ⟨"weak", 10, .scalar .bool⟩, ⟨"debug_redact", 16, .scalar .bool⟩,
     ⟨"retention", 17, enumType "FieldOptions.OptionRetention"⟩,
     ⟨"targets", 19, enumType "FieldOptions.OptionTargetType"⟩,
     ⟨"edition_defaults", 20, messageType "FieldOptions.EditionDefault"⟩,
     ⟨"features", 21, messageType "FeatureSet"⟩,
     ⟨"feature_support", 22, messageType "FieldOptions.FeatureSupport"⟩,
     ⟨"uninterpreted_option", 999, messageType "UninterpretedOption"⟩]

/-- Message `OneofOptions`. -/
def oneofOptions : MessageDescriptor :=
  .mk "OneofOptions" false []
    []
    [⟨"features", 1, messageType "FeatureSet"⟩,
     ⟨"uninterpreted_option", 999, messageType "UninterpretedOption"⟩]

/-- Message `EnumOptions`. -/
def enumOptions : MessageDescriptor :=
  .mk "EnumOptions" false []
    []
    [⟨"allow_alias", 2, .scalar .bool⟩, ⟨"deprecated", 3, .scalar .bool⟩,
     ⟨"deprecated_legacy_json_field_conflicts", 6, .scalar .bool⟩,
     ⟨"features", 7, messageType "FeatureSet"⟩,
     ⟨"uninterpreted_option", 999, messageType "UninterpretedOption"⟩]

/-- Message `EnumValueOptions`. -/
def enumValueOptions : MessageDescriptor :=
  .mk "EnumValueOptions" false []
    []
    [⟨"deprecated", 1, .scalar .bool⟩, ⟨"features", 2, messageType "FeatureSet"⟩,
     ⟨"debug_redact", 3, .scalar .bool⟩,
     ⟨"feature_support", 4, messageType "FieldOptions.FeatureSupport"⟩,
     ⟨"uninterpreted_option", 999, messageType "UninterpretedOption"⟩]

/-- Message `ServiceOptions`. -/
def serviceOptions : MessageDescriptor :=
  .mk "ServiceOptions" false []
    []
    [⟨"features", 34, messageType "FeatureSet"⟩, ⟨"deprecated", 33, .scalar .bool⟩,
     ⟨"uninterpreted_option", 999, messageType "UninterpretedOption"⟩]

/-- Enum `MethodOptions.IdempotencyLevel`. -/
def methodOptionsIdempotencyLevel : EnumDescriptor where
  name := "IdempotencyLevel"
  values :=
    [("IDEMPOTENCY_UNKNOWN", 0), ("NO_SIDE_EFFECTS", 1), ("IDEMPOTENT", 2)]

/-- Message `MethodOptions`. -/
def methodOptions : MessageDescriptor :=
  .mk "MethodOptions" false []
    [methodOptionsIdempotencyLevel]
    [⟨"deprecated", 33, .scalar .bool⟩,
     ⟨"idempotency_level", 34, enumType "MethodOptions.IdempotencyLevel"⟩,
     ⟨"features", 35, messageType "FeatureSet"⟩,
     ⟨"uninterpreted_option", 999, messageType "UninterpretedOption"⟩]

/-- Message `UninterpretedOption.NamePart`. -/
def uninterpretedOptionNamePart : MessageDescriptor :=
  .mk "NamePart" false []
    []
    [⟨"name_part", 1, .scalar .string⟩, ⟨"is_extension", 2, .scalar .bool⟩]

/-- Message `UninterpretedOption`. -/
def uninterpretedOption : MessageDescriptor :=
  .mk "UninterpretedOption" false [uninterpretedOptionNamePart]
    []
    [⟨"name", 2, messageType "UninterpretedOption.NamePart"⟩,
     ⟨"identifier_value", 3, .scalar .string⟩, ⟨"positive_int_value", 4, .scalar .uint64⟩,
     ⟨"negative_int_value", 5, .scalar .int64⟩, ⟨"double_value", 6, .scalar .double⟩,
     ⟨"string_value", 7, .scalar .bytes⟩, ⟨"aggregate_value", 8, .scalar .string⟩]

/-- Enum `FeatureSet.VisibilityFeature.DefaultSymbolVisibility`. -/
def featureSetVisibilityFeatureDefaultSymbolVisibility : EnumDescriptor where
  name := "DefaultSymbolVisibility"
  values :=
    [("DEFAULT_SYMBOL_VISIBILITY_UNKNOWN", 0), ("EXPORT_ALL", 1), ("EXPORT_TOP_LEVEL", 2),
     ("LOCAL_ALL", 3), ("STRICT", 4)]

/-- Message `FeatureSet.VisibilityFeature`. -/
def featureSetVisibilityFeature : MessageDescriptor :=
  .mk "VisibilityFeature" false []
    [featureSetVisibilityFeatureDefaultSymbolVisibility]
    []

/-- Enum `FeatureSet.ProtoLimitsFeature.EnforceProtoLimits`. -/
def featureSetProtoLimitsFeatureEnforceProtoLimits : EnumDescriptor where
  name := "EnforceProtoLimits"
  values :=
    [("PROTO_LIMITS_UNKNOWN", 0), ("LEGACY_NO_EXPLICIT_LIMITS", 1), ("PROTO_LIMITS2026", 2)]

/-- Message `FeatureSet.ProtoLimitsFeature`. -/
def featureSetProtoLimitsFeature : MessageDescriptor :=
  .mk "ProtoLimitsFeature" false []
    [featureSetProtoLimitsFeatureEnforceProtoLimits]
    []

/-- Enum `FeatureSet.FieldPresence`. -/
def featureSetFieldPresence : EnumDescriptor where
  name := "FieldPresence"
  values :=
    [("FIELD_PRESENCE_UNKNOWN", 0), ("EXPLICIT", 1), ("IMPLICIT", 2), ("LEGACY_REQUIRED", 3)]

/-- Enum `FeatureSet.EnumType`. -/
def featureSetEnumType : EnumDescriptor where
  name := "EnumType"
  values :=
    [("ENUM_TYPE_UNKNOWN", 0), ("OPEN", 1), ("CLOSED", 2)]

/-- Enum `FeatureSet.RepeatedFieldEncoding`. -/
def featureSetRepeatedFieldEncoding : EnumDescriptor where
  name := "RepeatedFieldEncoding"
  values :=
    [("REPEATED_FIELD_ENCODING_UNKNOWN", 0), ("PACKED", 1), ("EXPANDED", 2)]

/-- Enum `FeatureSet.Utf8Validation`. -/
def featureSetUtf8Validation : EnumDescriptor where
  name := "Utf8Validation"
  values :=
    [("UTF8_VALIDATION_UNKNOWN", 0), ("VERIFY", 2), ("NONE", 3)]

/-- Enum `FeatureSet.MessageEncoding`. -/
def featureSetMessageEncoding : EnumDescriptor where
  name := "MessageEncoding"
  values :=
    [("MESSAGE_ENCODING_UNKNOWN", 0), ("LENGTH_PREFIXED", 1), ("DELIMITED", 2)]

/-- Enum `FeatureSet.JsonFormat`. -/
def featureSetJsonFormat : EnumDescriptor where
  name := "JsonFormat"
  values :=
    [("JSON_FORMAT_UNKNOWN", 0), ("ALLOW", 1), ("LEGACY_BEST_EFFORT", 2)]

/-- Enum `FeatureSet.EnforceNamingStyle`. -/
def featureSetEnforceNamingStyle : EnumDescriptor where
  name := "EnforceNamingStyle"
  values :=
    [("ENFORCE_NAMING_STYLE_UNKNOWN", 0), ("STYLE2024", 1), ("STYLE_LEGACY", 2), ("STYLE2026", 3)]

/-- Message `FeatureSet`. -/
def featureSet : MessageDescriptor :=
  .mk "FeatureSet" false [featureSetVisibilityFeature, featureSetProtoLimitsFeature]
    [featureSetFieldPresence, featureSetEnumType, featureSetRepeatedFieldEncoding,
     featureSetUtf8Validation, featureSetMessageEncoding, featureSetJsonFormat,
     featureSetEnforceNamingStyle]
    [⟨"field_presence", 1, enumType "FeatureSet.FieldPresence"⟩,
     ⟨"enum_type", 2, enumType "FeatureSet.EnumType"⟩,
     ⟨"repeated_field_encoding", 3, enumType "FeatureSet.RepeatedFieldEncoding"⟩,
     ⟨"utf8_validation", 4, enumType "FeatureSet.Utf8Validation"⟩,
     ⟨"message_encoding", 5, enumType "FeatureSet.MessageEncoding"⟩,
     ⟨"json_format", 6, enumType "FeatureSet.JsonFormat"⟩,
     ⟨"enforce_naming_style", 7, enumType "FeatureSet.EnforceNamingStyle"⟩,
     ⟨"default_symbol_visibility", 8, enumType "FeatureSet.VisibilityFeature.DefaultSymbolVisibility"⟩,
     ⟨"enforce_proto_limits", 9, enumType "FeatureSet.ProtoLimitsFeature.EnforceProtoLimits"⟩]

/-- Message `FeatureSetDefaults.FeatureSetEditionDefault`. -/
def featureSetDefaultsFeatureSetEditionDefault : MessageDescriptor :=
  .mk "FeatureSetEditionDefault" false []
    []
    [⟨"edition", 3, enumType "Edition"⟩, ⟨"overridable_features", 4, messageType "FeatureSet"⟩,
     ⟨"fixed_features", 5, messageType "FeatureSet"⟩]

/-- Message `FeatureSetDefaults`. -/
def featureSetDefaults : MessageDescriptor :=
  .mk "FeatureSetDefaults" false [featureSetDefaultsFeatureSetEditionDefault]
    []
    [⟨"defaults", 1, messageType "FeatureSetDefaults.FeatureSetEditionDefault"⟩,
     ⟨"minimum_edition", 4, enumType "Edition"⟩, ⟨"maximum_edition", 5, enumType "Edition"⟩]

/-- Message `SourceCodeInfo.Location`. -/
def sourceCodeInfoLocation : MessageDescriptor :=
  .mk "Location" false []
    []
    [⟨"path", 1, .scalar .int32⟩, ⟨"span", 2, .scalar .int32⟩,
     ⟨"leading_comments", 3, .scalar .string⟩, ⟨"trailing_comments", 4, .scalar .string⟩,
     ⟨"leading_detached_comments", 6, .scalar .string⟩]

/-- Message `SourceCodeInfo`. -/
def sourceCodeInfo : MessageDescriptor :=
  .mk "SourceCodeInfo" false [sourceCodeInfoLocation]
    []
    [⟨"location", 1, messageType "SourceCodeInfo.Location"⟩]

/-- Enum `GeneratedCodeInfo.Annotation.Semantic`. -/
def generatedCodeInfoAnnotationSemantic : EnumDescriptor where
  name := "Semantic"
  values :=
    [("NONE", 0), ("SET", 1), ("ALIAS", 2)]

/-- Message `GeneratedCodeInfo.Annotation`. -/
def generatedCodeInfoAnnotationMessage : MessageDescriptor :=
  .mk "Annotation" false []
    [generatedCodeInfoAnnotationSemantic]
    [⟨"path", 1, .scalar .int32⟩, ⟨"source_file", 2, .scalar .string⟩,
     ⟨"begin", 3, .scalar .int32⟩, ⟨"end", 4, .scalar .int32⟩,
     ⟨"semantic", 5, enumType "GeneratedCodeInfo.Annotation.Semantic"⟩]

/-- Message `GeneratedCodeInfo`. -/
def generatedCodeInfo : MessageDescriptor :=
  .mk "GeneratedCodeInfo" false [generatedCodeInfoAnnotationMessage]
    []
    [⟨"annotation", 1, messageType "GeneratedCodeInfo.Annotation"⟩]

/-- Enum `Edition`. -/
def edition : EnumDescriptor where
  name := "Edition"
  values :=
    [("EDITION_UNKNOWN", 0), ("EDITION_LEGACY", 900), ("EDITION_PROTO2", 998),
     ("EDITION_PROTO3", 999), ("EDITION_2023", 1000), ("EDITION_2024", 1001),
     ("EDITION_2026", 1002), ("EDITION_UNSTABLE", 9999), ("EDITION_1_TEST_ONLY", 1),
     ("EDITION_2_TEST_ONLY", 2), ("EDITION_99997_TEST_ONLY", 99997),
     ("EDITION_99998_TEST_ONLY", 99998), ("EDITION_99999_TEST_ONLY", 99999),
     ("EDITION_MAX", 2147483647)]

/-- Enum `SymbolVisibility`. -/
def symbolVisibility : EnumDescriptor where
  name := "SymbolVisibility"
  values :=
    [("VISIBILITY_UNSET", 0), ("VISIBILITY_LOCAL", 1), ("VISIBILITY_EXPORT", 2)]

/-- The file `google/protobuf/descriptor.proto`. -/
def descriptorFile : FileDescriptor where
  path := "google/protobuf/descriptor.proto"
  package := package
  messages :=
    [fileDescriptorSet, fileDescriptorProto, descriptorProto, extensionRangeOptions,
     fieldDescriptorProto, oneofDescriptorProto, enumDescriptorProto, enumValueDescriptorProto,
     serviceDescriptorProto, methodDescriptorProto, fileOptions, messageOptions, fieldOptions,
     oneofOptions, enumOptions, enumValueOptions, serviceOptions, methodOptions,
     uninterpretedOption, featureSet, featureSetDefaults, sourceCodeInfo, generatedCodeInfo]
  enums := [edition, symbolVisibility]

/-- Message `Any`. -/
def any : MessageDescriptor :=
  .mk "Any" false []
    []
    [⟨"type_url", 1, .scalar .string⟩, ⟨"value", 2, .scalar .bytes⟩]

/-- The file `google/protobuf/any.proto`. -/
def anyFile : FileDescriptor where
  path := "google/protobuf/any.proto"
  package := package
  messages :=
    [any]
  enums := []

/-- Message `Duration`. -/
def duration : MessageDescriptor :=
  .mk "Duration" false []
    []
    [⟨"seconds", 1, .scalar .int64⟩, ⟨"nanos", 2, .scalar .int32⟩]

/-- The file `google/protobuf/duration.proto`. -/
def durationFile : FileDescriptor where
  path := "google/protobuf/duration.proto"
  package := package
  messages :=
    [duration]
  enums := []

/-- Message `Empty`. -/
def empty : MessageDescriptor :=
  .mk "Empty" false []
    []
    []

/-- The file `google/protobuf/empty.proto`. -/
def emptyFile : FileDescriptor where
  path := "google/protobuf/empty.proto"
  package := package
  messages :=
    [empty]
  enums := []

/-- Message `FieldMask`. -/
def fieldMask : MessageDescriptor :=
  .mk "FieldMask" false []
    []
    [⟨"paths", 1, .scalar .string⟩]

/-- The file `google/protobuf/field_mask.proto`. -/
def fieldMaskFile : FileDescriptor where
  path := "google/protobuf/field_mask.proto"
  package := package
  messages :=
    [fieldMask]
  enums := []

/-- Message `Struct`. -/
def struct : MessageDescriptor :=
  .mk "Struct" false [mapEntry "FieldsEntry" (.scalar .string) (messageType "Value")]
    []
    [⟨"fields", 1, messageType "Struct.FieldsEntry"⟩]

/-- Message `Value`. -/
def value : MessageDescriptor :=
  .mk "Value" false []
    []
    [⟨"null_value", 1, enumType "NullValue"⟩, ⟨"number_value", 2, .scalar .double⟩,
     ⟨"string_value", 3, .scalar .string⟩, ⟨"bool_value", 4, .scalar .bool⟩,
     ⟨"struct_value", 5, messageType "Struct"⟩, ⟨"list_value", 6, messageType "ListValue"⟩]

/-- Message `ListValue`. -/
def listValue : MessageDescriptor :=
  .mk "ListValue" false []
    []
    [⟨"values", 1, messageType "Value"⟩]

/-- Enum `NullValue`. -/
def nullValue : EnumDescriptor where
  name := "NullValue"
  values :=
    [("NULL_VALUE", 0)]

/-- The file `google/protobuf/struct.proto`. -/
def structFile : FileDescriptor where
  path := "google/protobuf/struct.proto"
  package := package
  messages :=
    [struct, value, listValue]
  enums := [nullValue]

/-- Message `Timestamp`. -/
def timestamp : MessageDescriptor :=
  .mk "Timestamp" false []
    []
    [⟨"seconds", 1, .scalar .int64⟩, ⟨"nanos", 2, .scalar .int32⟩]

/-- The file `google/protobuf/timestamp.proto`. -/
def timestampFile : FileDescriptor where
  path := "google/protobuf/timestamp.proto"
  package := package
  messages :=
    [timestamp]
  enums := []

/-- Message `DoubleValue`. -/
def doubleValue : MessageDescriptor :=
  .mk "DoubleValue" false []
    []
    [⟨"value", 1, .scalar .double⟩]

/-- Message `FloatValue`. -/
def floatValue : MessageDescriptor :=
  .mk "FloatValue" false []
    []
    [⟨"value", 1, .scalar .float⟩]

/-- Message `Int64Value`. -/
def int64Value : MessageDescriptor :=
  .mk "Int64Value" false []
    []
    [⟨"value", 1, .scalar .int64⟩]

/-- Message `UInt64Value`. -/
def uInt64Value : MessageDescriptor :=
  .mk "UInt64Value" false []
    []
    [⟨"value", 1, .scalar .uint64⟩]

/-- Message `Int32Value`. -/
def int32Value : MessageDescriptor :=
  .mk "Int32Value" false []
    []
    [⟨"value", 1, .scalar .int32⟩]

/-- Message `UInt32Value`. -/
def uInt32Value : MessageDescriptor :=
  .mk "UInt32Value" false []
    []
    [⟨"value", 1, .scalar .uint32⟩]

/-- Message `BoolValue`. -/
def boolValue : MessageDescriptor :=
  .mk "BoolValue" false []
    []
    [⟨"value", 1, .scalar .bool⟩]

/-- Message `StringValue`. -/
def stringValue : MessageDescriptor :=
  .mk "StringValue" false []
    []
    [⟨"value", 1, .scalar .string⟩]

/-- Message `BytesValue`. -/
def bytesValue : MessageDescriptor :=
  .mk "BytesValue" false []
    []
    [⟨"value", 1, .scalar .bytes⟩]

/-- The file `google/protobuf/wrappers.proto`. -/
def wrappersFile : FileDescriptor where
  path := "google/protobuf/wrappers.proto"
  package := package
  messages :=
    [doubleValue, floatValue, int64Value, uInt64Value, int32Value, uInt32Value, boolValue,
     stringValue, bytesValue]
  enums := []

/-- The built-in files by the module that carries each. -/
def files : List (String × FileDescriptor) :=
  [("google.protobuf.descriptor_pb2", descriptorFile),
   ("google.protobuf.any_pb2", anyFile),
   ("google.protobuf.duration_pb2", durationFile),
   ("google.protobuf.empty_pb2", emptyFile),
   ("google.protobuf.field_mask_pb2", fieldMaskFile),
   ("google.protobuf.struct_pb2", structFile),
   ("google.protobuf.timestamp_pb2", timestampFile),
   ("google.protobuf.wrappers_pb2", wrappersFile)]

/-- The modules that carry the well-known imports, by import path. -/
def wellKnownImports : List (String × String) :=
  files.map fun (module, file) => (file.path, module)

end ProtoNames.Builtin
