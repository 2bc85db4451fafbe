/-!
# Data

The tree that tokens, instructions and models are turned into before they are written in a data
format. The fields of an object stand in the order in which they are written.
-/

namespace Folio

inductive Data where
  | null
  | bool (b : Bool)
  | number (n : Int)
  | text (s : String)
  | list (items : List Data)
  | object (fields : List (String × Data))
  deriving Repr

namespace Data

def ofNat (n : Nat) : Data := number n

def ofWord (n : UInt32) : Data := ofNat n.toNat

end Data

end Folio
