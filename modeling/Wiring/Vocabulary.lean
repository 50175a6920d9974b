/-!
# Vocabulary

The IRIs with a fixed meaning: the types and properties that describe
components, parameters, ranges and constructor arguments, and the datatypes of
literals.
-/

namespace Wiring
namespace Vocabulary

namespace Rdf

def type : String := "http://www.w3.org/1999/02/22-rdf-syntax-ns#type"
def value : String := "http://www.w3.org/1999/02/22-rdf-syntax-ns#value"
def json : String := "http://www.w3.org/1999/02/22-rdf-syntax-ns#JSON"
def langString : String := "http://www.w3.org/1999/02/22-rdf-syntax-ns#langString"

end Rdf

namespace Rdfs

def subClassOf : String := "http://www.w3.org/2000/01/rdf-schema#subClassOf"
def range : String := "http://www.w3.org/2000/01/rdf-schema#range"

end Rdfs

namespace Oo

/-!
# Components
-/

def classType : String :=
  "https://linkedsoftwaredependencies.org/vocabularies/object-oriented#Class"
def abstractClass : String :=
  "https://linkedsoftwaredependencies.org/vocabularies/object-oriented#AbstractClass"
def parameter : String :=
  "https://linkedsoftwaredependencies.org/vocabularies/object-oriented#parameter"
def constructorArguments : String :=
  "https://linkedsoftwaredependencies.org/vocabularies/object-oriented#constructorArguments"
def genericTypeParameters : String :=
  "https://linkedsoftwaredependencies.org/vocabularies/object-oriented#genericTypeParameters"
def genericTypeInstances : String :=
  "https://linkedsoftwaredependencies.org/vocabularies/object-oriented#genericTypeInstances"
def parameterRangeGenericBindings : String :=
  "https://linkedsoftwaredependencies.org/vocabularies/object-oriented#parameterRangeGenericBindings"

/-!
# Constructor arguments
-/

def fields : String :=
  "https://linkedsoftwaredependencies.org/vocabularies/object-oriented#fields"
def elements : String :=
  "https://linkedsoftwaredependencies.org/vocabularies/object-oriented#elements"
def key : String := "https://linkedsoftwaredependencies.org/vocabularies/object-oriented#key"
def valueRawReference : String :=
  "https://linkedsoftwaredependencies.org/vocabularies/object-oriented#valueRawReference"
def collectEntries : String :=
  "https://linkedsoftwaredependencies.org/vocabularies/object-oriented#collectEntries"

/-!
# Parameter properties
-/

def uniqueValue : String :=
  "https://linkedsoftwaredependencies.org/vocabularies/object-oriented#uniqueValue"
def lazy : String := "https://linkedsoftwaredependencies.org/vocabularies/object-oriented#lazy"
def required : String :=
  "https://linkedsoftwaredependencies.org/vocabularies/object-oriented#required"
def default : String :=
  "https://linkedsoftwaredependencies.org/vocabularies/object-oriented#default"
def defaultScoped : String :=
  "https://linkedsoftwaredependencies.org/vocabularies/object-oriented#defaultScoped"
def defaultScope : String :=
  "https://linkedsoftwaredependencies.org/vocabularies/object-oriented#defaultScope"
def defaultScopedValue : String :=
  "https://linkedsoftwaredependencies.org/vocabularies/object-oriented#defaultScopedValue"
def fixed : String := "https://linkedsoftwaredependencies.org/vocabularies/object-oriented#fixed"

/-!
# Ranges
-/

def rangeWildcard : String :=
  "https://linkedsoftwaredependencies.org/vocabularies/object-oriented#ParameterRangeWildcard"
def rangeUndefined : String :=
  "https://linkedsoftwaredependencies.org/vocabularies/object-oriented#ParameterRangeUndefined"
def rangeGeneric : String :=
  "https://linkedsoftwaredependencies.org/vocabularies/object-oriented#ParameterRangeGenericTypeReference"
def rangeUnion : String :=
  "https://linkedsoftwaredependencies.org/vocabularies/object-oriented#ParameterRangeUnion"
def rangeIntersection : String :=
  "https://linkedsoftwaredependencies.org/vocabularies/object-oriented#ParameterRangeIntersection"
def rangeTuple : String :=
  "https://linkedsoftwaredependencies.org/vocabularies/object-oriented#ParameterRangeTuple"
def rangeArray : String :=
  "https://linkedsoftwaredependencies.org/vocabularies/object-oriented#ParameterRangeArray"
def rangeRest : String :=
  "https://linkedsoftwaredependencies.org/vocabularies/object-oriented#ParameterRangeRest"
def rangeKeyof : String :=
  "https://linkedsoftwaredependencies.org/vocabularies/object-oriented#ParameterRangeKeyof"
def rangeElements : String :=
  "https://linkedsoftwaredependencies.org/vocabularies/object-oriented#parameterRangeElements"
def rangeValue : String :=
  "https://linkedsoftwaredependencies.org/vocabularies/object-oriented#parameterRangeValue"
def rangeGenericType : String :=
  "https://linkedsoftwaredependencies.org/vocabularies/object-oriented#parameterRangeGenericType"

end Oo

namespace Om

def variableType : String :=
  "https://linkedsoftwaredependencies.org/vocabularies/object-mapping#Variable"

end Om

namespace Xsd

def base : String := "http://www.w3.org/2001/XMLSchema#"

def string : String := "http://www.w3.org/2001/XMLSchema#string"
def boolean : String := "http://www.w3.org/2001/XMLSchema#boolean"
/-- The root of the numeric family; not a standard type. -/
def number : String := "http://www.w3.org/2001/XMLSchema#number"
def integer : String := "http://www.w3.org/2001/XMLSchema#integer"
def nonPositiveInteger : String := "http://www.w3.org/2001/XMLSchema#nonPositiveInteger"
def negativeInteger : String := "http://www.w3.org/2001/XMLSchema#negativeInteger"
def nonNegativeInteger : String := "http://www.w3.org/2001/XMLSchema#nonNegativeInteger"
def positiveInteger : String := "http://www.w3.org/2001/XMLSchema#positiveInteger"
def long : String := "http://www.w3.org/2001/XMLSchema#long"
def int : String := "http://www.w3.org/2001/XMLSchema#int"
def short : String := "http://www.w3.org/2001/XMLSchema#short"
def byte : String := "http://www.w3.org/2001/XMLSchema#byte"
def unsignedLong : String := "http://www.w3.org/2001/XMLSchema#unsignedLong"
def unsignedInt : String := "http://www.w3.org/2001/XMLSchema#unsignedInt"
def unsignedShort : String := "http://www.w3.org/2001/XMLSchema#unsignedShort"
def unsignedByte : String := "http://www.w3.org/2001/XMLSchema#unsignedByte"
def decimal : String := "http://www.w3.org/2001/XMLSchema#decimal"
def float : String := "http://www.w3.org/2001/XMLSchema#float"
def double : String := "http://www.w3.org/2001/XMLSchema#double"
def normalizedString : String := "http://www.w3.org/2001/XMLSchema#normalizedString"
def anyUri : String := "http://www.w3.org/2001/XMLSchema#anyURI"
def base64Binary : String := "http://www.w3.org/2001/XMLSchema#base64Binary"
def language : String := "http://www.w3.org/2001/XMLSchema#language"
def name : String := "http://www.w3.org/2001/XMLSchema#Name"
def ncName : String := "http://www.w3.org/2001/XMLSchema#NCName"
def nmtoken : String := "http://www.w3.org/2001/XMLSchema#NMTOKEN"
def token : String := "http://www.w3.org/2001/XMLSchema#token"
def hexBinary : String := "http://www.w3.org/2001/XMLSchema#hexBinary"

end Xsd
end Vocabulary
end Wiring
