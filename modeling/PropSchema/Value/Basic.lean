/-
PropSchema.Value.Basic — typed values, and the descriptors that say which of
them a property takes.

A descriptor is a value type with the symbols of its enumeration. A value of an
enumeration is the place of its symbol, so that `symbol?` and `ordinal?` relate
the two; of symbols that occur more than once, the first is meant.
-/
import PropSchema.Number.DoubleText
import PropSchema.Schema.Name
import PropSchema.Text.Quoted

namespace PropSchema

/-! ## Descriptors -/

/-- What values a property takes: its value type, and the symbols of its
enumeration in order. Other types have none. -/
structure Descriptor where
  type : ValueType
  symbols : List String
  deriving DecidableEq, Repr

namespace Descriptor

/-- The place of a symbol, which has to match exactly. -/
def ordinal? (d : Descriptor) (symbol : String) : Option Nat :=
  d.symbols.findIdx? fun s => s = symbol

/-- The symbol at a place. -/
def symbol? (d : Descriptor) (ordinal : Nat) : Option String :=
  d.symbols[ordinal]?

end Descriptor

/-- The descriptor of a property. -/
def Property.descriptor (p : Property) : Descriptor :=
  ⟨p.type, if p.type.isEnum then p.symbols else []⟩

/-! ## Values -/

/-- A typed value. -/
inductive Value where
  | bool (b : Bool)
  | int (n : Int32)
  | long (n : Int64)
  | double (x : Number.Binary64)
  | string (s : String)
  | ordinal (n : Nat)
  | list (items : List Value)
  deriving Repr

namespace Value

/-- The boolean that a value is. -/
def bool? : Value → Option Bool
  | .bool b => some b
  | _ => none

/-- The elements of the list that a value is. -/
def items? : Value → Option (List Value)
  | .list items => some items
  | _ => none

mutual

/-- A value in messages. -/
def text : Value → String
  | .bool b => "Bool(" ++ (if b then "true" else "false") ++ ")"
  | .int n => "Int(" ++ Number.signedDecimalText n.toInt ++ ")"
  | .long n => "Long(" ++ Number.signedDecimalText n.toInt ++ ")"
  | .double x => "Double(" ++ String.ofList (Number.doubleDiagnostic x) ++ ")"
  | .string s => "String(" ++ Text.quote s ++ ")"
  | .ordinal n => "Enum(" ++ Number.decimalText n ++ ")"
  | .list [] => "List([])"
  | .list (item :: items) => "List([" ++ item.text ++ itemsText items ++ "])"

/-- The elements after the first of a list in messages. -/
def itemsText : List Value → String
  | [] => ""
  | item :: items => ", " ++ item.text ++ itemsText items

end

end Value

end PropSchema
