import SchemaApi.Api.Description
import SchemaApi.Schema.Shape
/-!
The shapes of the parts of an interface description.
-/

namespace SchemaApi

def ParameterPlace.all : List ParameterPlace := [.path, .query]

def IdentitySource.all : List IdentitySource := [.primaryKey, .unique, .none]

def BindingKind.all : List BindingKind := [.manyToOne, .oneToMany, .oneToOne, .manyToMany]

namespace Shapes

def fieldReference : Shape := .record [
  .required "resource" (.text 0), .required "fields" texts]

def property : Shape := .record [
  .required "name" name, .required "column" name, .required "semantic" meaning,
  .nullable "format" (.text 0), .required "sql_type" (.text 0),
  .mk "nullable" (some (.bool true)) .bool, .mk "required" no .bool, .mk "read_only" no .bool,
  .nullable "default" (.text 0), .nullable "max_length" (.int none none),
  .nullable "precision" (.int none none), .nullable "scale" (.int none none),
  .mk "enum" empty texts, .mk "is_array" no .bool, .mk "unique" no .bool,
  .nullable "reference" fieldReference, .nullable "description" (.text 0)]

def parameter : Shape := .record [
  .required "name" name, .required "location" (.choice (ParameterPlace.all.map (·.name))),
  .required "semantic" meaning, .nullable "format" (.text 0), .mk "required" no .bool,
  .nullable "default" .any, .nullable "minimum" (.int none none),
  .nullable "maximum" (.int none none), .mk "allowed_values" empty texts,
  .nullable "description" (.text 0)]

def fieldFilter : Shape := .record [
  .required "field" (.text 0), .required "semantic" meaning, .required "operators" texts]

def listParameters : Shape := .record [
  .required "limit" parameter, .required "offset" parameter, .required "sort" parameter,
  .mk "filters" empty (.list 0 fieldFilter)]

def requestBody : Shape := .record [
  .required "fields" texts, .mk "required" empty texts, .mk "partial" no .bool]

/-- the methods of requests -/
def methods : List String := ["GET", "POST", "PUT", "PATCH", "DELETE"]

def operation : Shape := .record [
  .required "kind" (.choice (OperationKind.all.map (·.name))),
  .required "method" (.choice methods), .required "path" (.text 0),
  .mk "path_parameters" empty (.list 0 parameter),
  .mk "query_parameters" empty (.list 0 parameter), .nullable "request_body" requestBody,
  .mk "success_status" (some (.int 200)) (.int (some 200) (some 299))]

def validationRule : Shape := .record [
  .required "kind" (.choice (RuleKind.all.map (·.name))), .mk "field_names" empty texts,
  .nullable "value" .any, .nullable "expression" (.text 0),
  .mk "message" (some (.str "")) (.text 0), .mk "translated" (some (.bool true)) .bool]

def mode : Shape := .choice (RelationshipMode.all.map (·.name))

def binding : Shape := .record [
  .required "name" (.text 0), .required "kind" (.choice (BindingKind.all.map (·.name))),
  .required "target_resource" (.text 0), .required "local_fields" texts,
  .required "target_fields" texts, .required "mode" mode, .nullable "via" (.text 0),
  .mk "nullable" (some (.bool true)) .bool]

def resource : Shape := .record [
  .required "name" name, .required "table" (.text 0), .nullable "schema_name" (.text 0),
  .required "path" (.text 0), .nullable "item_path" (.text 0), .mk "identity" empty texts,
  .mk "identity_source" (some (.str IdentitySource.none.name))
    (.choice (IdentitySource.all.map (·.name))),
  .mk "properties" empty (.list 0 property), .mk "operations" empty (.list 0 operation),
  .required "list_parameters" listParameters,
  .mk "validation_rules" empty (.list 0 validationRule),
  .mk "relationships" empty (.list 0 binding), .nullable "description" (.text 0)]

def description : Shape := .record [
  .required "dialect" (.text 0),
  .mk "naming_strategy" (some (.str NamingStrategy.passthrough.name))
    (.choice (NamingStrategy.all.map (·.name))),
  .mk "relationship_mode" (some (.str RelationshipMode.reference.name)) mode,
  .mk "resources" empty (.list 0 resource)]

/-- the records of a description by title -/
def descriptionRecords : List RecordShape := [
  ⟨"PropertyReference", fieldReference⟩, ⟨"Property", property⟩, ⟨"Parameter", parameter⟩,
  ⟨"FilterTemplate", fieldFilter⟩, ⟨"ListParameters", listParameters⟩,
  ⟨"RequestBody", requestBody⟩, ⟨"Operation", operation⟩, ⟨"ValidationRule", validationRule⟩,
  ⟨"RelationshipBinding", binding⟩, ⟨"Resource", resource⟩, ⟨"ApiDescriptor", description⟩]

/-- the shape of the records of a title -/
def recordShape? (title : String) : Option RecordShape :=
  (modelRecords ++ descriptionRecords).find? fun r => r.title == title

end Shapes

end SchemaApi
