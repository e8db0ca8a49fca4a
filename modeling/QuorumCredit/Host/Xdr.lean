import Mathlib.Algebra.Order.Ring.Int
/-!
# Serialized values

The host's serialization of the values that are hashed: four bytes for the kind
of value, then the value. A structure is a map from its field names, in order.
-/

namespace Host.Xdr

/-- The `n` bytes of a number, the highest first. -/
def bigEndian (n value : Nat) : List UInt8 := (List.range n).map fun i => .ofNat (value / 256 ^ (n - 1 - i))

/-- A byte string: its length, then its bytes up to a multiple of four. -/
def opaqueBytes (bytes : List UInt8) : List UInt8 :=
  bigEndian 4 bytes.length ++ bytes ++ List.replicate ((4 - bytes.length % 4) % 4) 0

def u32 (n : Nat) : List UInt8 := bigEndian 4 3 ++ bigEndian 4 n

def u64 (n : Nat) : List UInt8 := bigEndian 4 5 ++ bigEndian 8 n

def i128 (x : Int) : List UInt8 := bigEndian 4 10 ++ bigEndian 16 (x % 2 ^ 128).toNat

def bytes (bs : List UInt8) : List UInt8 := bigEndian 4 13 ++ opaqueBytes bs

def symbol (s : String) : List UInt8 := bigEndian 4 15 ++ opaqueBytes (s.toList.map fun c => .ofNat c.toNat)

/-- The address of the contract with this number. -/
def address (a : Nat) : List UInt8 := bigEndian 4 18 ++ bigEndian 4 1 ++ bigEndian 32 a

/-- A vector of serialized values. -/
def vec (values : List (List UInt8)) : List UInt8 :=
  bigEndian 4 16 ++ bigEndian 4 1 ++ bigEndian 4 values.length ++ values.flatten

/-- A structure with its serialized fields. -/
def struct (fields : List (String × List UInt8)) : List UInt8 :=
  bigEndian 4 17 ++ bigEndian 4 1 ++ bigEndian 4 fields.length ++
    (fields.map fun field => symbol field.1 ++ field.2).flatten

end Host.Xdr
