import Wiring.Json.Printer
import Wiring.Text.Quoted

/-!
# Scalars

The native value of a literal.
-/

namespace Wiring

inductive Scalar where
  | bool (b : Bool)
  | int (n : Int)
  | double (x : Binary64)
  | str (s : String)
  | json (value : Json)
  deriving Inhabited, Repr

namespace Scalar

def text : Scalar → String
  | bool true => "true"
  | bool false => "false"
  | int n => toString n
  | double x => x.text
  | str s => Text.quote s
  | json value => value.compact

def toJson : Scalar → Json
  | bool b => .bool b
  | int n => .int n
  | double x => Json.ofBinary64 x
  | str s => .str s
  | json value => value

end Scalar
end Wiring
