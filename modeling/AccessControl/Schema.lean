/-! Schemas: which objects there are and which fields of theirs hold links to others. -/
namespace AccessControl

inductive FieldType where
  | number | string | bool | date | time | dateTime | enum
  | object
  | array
  /-- A link to one object, whose type the value itself names. -/
  | generic
deriving DecidableEq

namespace FieldType

def values : List FieldType :=
  [number, string, bool, date, time, dateTime, enum, object, array, generic]

def name : FieldType → String
  | number => "number"
  | string => "string"
  | bool => "bool"
  | date => "date"
  | time => "time"
  | dateTime => "datetime"
  | enum => "enum"
  | object => "object"
  | array => "array"
  | generic => "generic"

def ofName? (name : String) : Option FieldType := values.find? fun type => type.name = name

end FieldType

structure Field where
  name : String
  type : FieldType
  link : Option String
deriving DecidableEq

structure ObjectType where
  name : String
  fields : List Field
deriving DecidableEq

def ObjectType.field? (type : ObjectType) (name : String) : Option Field :=
  type.fields.find? fun field => field.name = name

structure Schema where
  objects : List ObjectType

namespace Schema

def empty : Schema := ⟨[]⟩

/-- The last object declared under a name. -/
def object? (schema : Schema) (name : String) : Option ObjectType :=
  schema.objects.reverse.find? fun type => type.name = name

end Schema
end AccessControl
