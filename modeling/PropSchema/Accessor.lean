/-
PropSchema.Accessor — typed access to a store.

An accessor is bound to one property of a schema: it reads and writes the
property's key, decodes what it reads and encodes what it writes. A schema has
one accessor per property, in declaration order.
-/
import PropSchema.Store
import PropSchema.Value.Codec

namespace PropSchema

/-- A getter and a setter for one property. -/
structure Accessor where
  apiName : String
  key : String
  descriptor : Descriptor
  integerAsBool : Bool
  deriving DecidableEq, Repr

namespace Accessor

/-- The accessor of a property of the given owner. -/
def ofProperty (owner : Owner) (p : Property) : Accessor :=
  ⟨p.apiName, p.key owner, p.descriptor, p.integerAsBool⟩

/-- The text a value is stored as. -/
def encode (a : Accessor) (value : Value) : Except Misuse String :=
  if a.integerAsBool then encodeAsDigits value else a.descriptor.encode value

/-- The value in a store, if there is a text and it denotes one. -/
def get (a : Accessor) (s : Store) : Option Value :=
  (s.read a.key).bind a.descriptor.decode

/-- The store with a value put into it, if the store takes the write. -/
def set (a : Accessor) (s : Store) (value : Value) : Except Misuse (Option Store) :=
  (a.encode value).map (s.write? a.key)

end Accessor

namespace Schema

/-- The accessors of a schema. -/
def accessors (s : Schema) : List Accessor :=
  s.props.map (Accessor.ofProperty s.owner)

/-- The first accessor with the given API name. -/
def accessor? (s : Schema) (apiName : String) : Option Accessor :=
  s.accessors.find? fun a => a.apiName = apiName

end Schema

end PropSchema
