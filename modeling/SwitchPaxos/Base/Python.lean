import SwitchPaxos.Base.BigEndian
import Mathlib.Data.List.Basic

/-!
# Values of Python

The values of built-in types, and what subscription, iteration, comparison with
a text, hashing and `str` make of them.  Everything else is an instance, which
answers as the methods of its class do.
-/

namespace SwitchPaxos.Python

def ascii (text : String) : Bytes :=
  text.toList.map fun char => UInt8.ofNat char.toNat

inductive Value (ο : Type) where
  | none
  | bool (b : Bool)
  | int (n : ℤ)
  | str (bytes : Bytes)
  | unicode (units : List ℕ)
  | tuple (items : List (Value ο))
  | list (items : List (Value ο))
  -- In the order of iteration
  | dict (entries : List (Value ο × Value ο))
  | object (inst : ο)

/-- What a dictionary files a value under: the same for equal values. -/
inductive Key (ο : Type) where
  | none
  | int (n : ℤ)
  | str (bytes : Bytes)
  | unicode (units : List ℕ)
  -- The end of a tuple, and a tuple from its first item on
  | empty
  | item (first rest : Key ο)
  | object (inst : ο)
deriving DecidableEq

/-- The methods of the instances.  Where one raises there is no answer; of
`__str__` and `__repr__` only counts whether they succeed. -/
class Objects (ο : Type) where
  getitem : ο → ℕ → Option (Value ο)
  iter : ο → Option (List (Value ο))
  key : ο → Option (Key ο)
  eqStr : ο → Bytes → Bool
  str : ο → Bool
  repr : ο → Bool

/-- No instances at all. -/
instance : Objects Empty := ⟨nofun, nofun, nofun, nofun, nofun, nofun⟩

def isAscii (units : List ℕ) : Bool := units.all (· < 128)

variable {ο : Type} [DecidableEq ο] [Objects ο]

mutual

/-- `hash`, which raises for a list, for a dictionary and for a tuple with one
of these in it. -/
def Value.key : Value ο → Option (Key ο)
  | .none => some .none
  | .bool b => some (.int (if b then 1 else 0))
  | .int n => some (.int n)
  | .str bytes => some (.str bytes)
  | .unicode units =>
      some (if isAscii units then .str (units.map UInt8.ofNat)
        else .unicode units)
  | .tuple items => Value.keyOfItems items
  | .list _ => Option.none
  | .dict _ => Option.none
  | .object inst => Objects.key inst

def Value.keyOfItems : List (Value ο) → Option (Key ο)
  | [] => some .empty
  | value :: values => do
      let first ← value.key
      let rest ← Value.keyOfItems values
      return .item first rest

end

mutual

/-- Whether `repr` succeeds. -/
def Value.repr : Value ο → Bool
  | .tuple items => Value.reprItems items
  | .list items => Value.reprItems items
  | .dict entries => Value.reprEntries entries
  | .object inst => Objects.repr inst
  | _ => true

def Value.reprItems : List (Value ο) → Bool
  | [] => true
  | value :: values => value.repr && Value.reprItems values

def Value.reprEntries : List (Value ο × Value ο) → Bool
  | [] => true
  | (key, value) :: entries =>
      key.repr && value.repr && Value.reprEntries entries

end

namespace Value

/-- Whether `str` and `format` succeed: they encode a unicode text in ASCII, and
write what is inside of something else as `repr` does. -/
def prints : Value ο → Bool
  | .unicode units => isAscii units
  | .object inst => Objects.str inst
  | value => value.repr

/-- `value[index]`. -/
def getitem : Value ο → ℕ → Option (Value ο)
  | .str bytes, index => bytes[index]?.map fun byte => .str [byte]
  | .unicode units, index => units[index]?.map fun unit => .unicode [unit]
  | .tuple items, index => items[index]?
  | .list items, index => items[index]?
  | .dict entries, index =>
      (entries.find? fun entry => entry.1.key = some (.int index)).map
        Prod.snd
  | .object inst, index => Objects.getitem inst index
  | _, _ => Option.none

/-- What a loop over the value goes through. -/
def iter : Value ο → Option (List (Value ο))
  | .str bytes => some (bytes.map fun byte => .str [byte])
  | .unicode units => some (units.map fun unit => .unicode [unit])
  | .tuple items => some items
  | .list items => some items
  | .dict entries => some (entries.map Prod.fst)
  | .object inst => Objects.iter inst
  | _ => Option.none

/-- `value == text` for a byte string. -/
def eqStr : Value ο → Bytes → Bool
  | .str bytes, text => bytes = text
  | .unicode units, text => isAscii units && units.map UInt8.ofNat = text
  | .object inst, text => Objects.eqStr inst text
  | _, _ => false

/-- `first, second = value`. -/
def unpack (value : Value ο) : Option (Value ο × Value ο) :=
  match value.iter with
  | some [first, second] => some (first, second)
  | _ => Option.none

end Value

end SwitchPaxos.Python
