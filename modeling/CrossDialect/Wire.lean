import CrossDialect.Value.Basic

/-!
Values in PostgreSQL's binary form. The form follows the value; the type asked for
only narrows integers and floats. A list is an array of one dimension, and where the type
is no array the writer does not answer at all.
-/

namespace CrossDialect.Wire

inductive ScalarType where
  | bool
  | int2
  | int4
  | int8
  | float4
  | float8
  | text
  | varchar
  | json
  deriving DecidableEq

def ScalarType.oid : ScalarType → Nat
  | .bool => 16
  | .int8 => 20
  | .int2 => 21
  | .int4 => 23
  | .text => 25
  | .json => 114
  | .float4 => 700
  | .float8 => 701
  | .varchar => 1043

inductive WireType where
  | scalar (t : ScalarType)
  | array (member : ScalarType)
  deriving DecidableEq

inductive Fault where
  -- An integer does not fit the type.
  | outOfRange
  -- A column or SQL text has no binary form.
  | notBindable (display : String)
  deriving DecidableEq

def Fault.message : Fault → String
  | .outOfRange => "out of range integral type conversion attempted"
  | .notBindable display => display ++ " is SQL text and cannot be bound as a parameter"

inductive Crash where
  -- A list for a type that is no array.
  | notAnArray
  deriving DecidableEq

def Crash.message : Crash → String
  | .notAnArray => "expected array type"

/-- What comes of writing a value. An error goes back to the caller. With a crash nothing goes
back: the program is stopped where it stands. -/
inductive Answer (α : Type) where
  | ok (x : α)
  | error (fault : Fault)
  | crash (cause : Crash)
  deriving DecidableEq

namespace Answer

variable {α β : Type}

def ofExcept : Except Fault α → Answer α
  | .ok x => .ok x
  | .error fault => .error fault

def bind (a : Answer α) (next : α → Answer β) : Answer β :=
  match a with
  | .ok x => next x
  | .error fault => .error fault
  | .crash cause => .crash cause

instance : Monad Answer where
  pure := .ok
  bind := bind

def map (f : α → β) (a : Answer α) : Answer β := a.bind fun x => .ok (f x)

end Answer

/-- The lowest `count` bytes of a number, the highest of them first. -/
def bigEndian : Nat → Nat → List UInt8
  | 0, _ => []
  | count + 1, n => bigEndian count (n / 256) ++ [UInt8.ofNat (n % 256)]

/-- How many numbers a count of bytes tells apart. -/
def span (count : Nat) : Nat :=
  Nat.pow 256 count

/-- A signed number in two's complement. -/
def signed (count : Nat) (i : Int) : List UInt8 :=
  bigEndian count (i % span count).toNat

def narrowed (count : Nat) (i : Int) : Except Fault (List UInt8) :=
  let half : Int := span count / 2
  if -half ≤ i ∧ i < half then .ok (signed count i) else .error .outOfRange

def float4 (x : Float32) : List UInt8 := bigEndian 4 x.toBits.toNat

def float8 (x : Float) : List UInt8 := bigEndian 8 x.toBits.toNat

def ofInt (t : WireType) (n : Int64) : Except Fault (List UInt8) :=
  match t with
  | .scalar .int2 => narrowed 2 n.toInt
  | .scalar .int4 => narrowed 4 n.toInt
  | .scalar .float4 => .ok (float4 n.toFloat32)
  | .scalar .float8 => .ok (float8 n.toFloat)
  | _ => .ok (signed 8 n.toInt)

def ofFloat (t : WireType) (x : Float) : List UInt8 :=
  match t with
  | .scalar .float4 => float4 x.toFloat32
  | _ => float8 x

/-- One item of an array: its length and its bytes, or a length below zero for null. -/
def item : Option (List UInt8) → List UInt8
  | none => signed 4 (-1)
  | some bytes => signed 4 bytes.length ++ bytes

-- A length has four bytes. From 2 ^ 31 on, where a writer refuses, it wraps here.
/-- An array of one dimension whose items are numbered from one. -/
def array (member : ScalarType) (items : List (Option (List UInt8))) : List UInt8 :=
  signed 4 1 ++ signed 4 (if items.any Option.isNone then 1 else 0) ++ bigEndian 4 member.oid
    ++ signed 4 items.length ++ signed 4 1 ++ items.flatMap item

mutual

def encode (t : WireType) : Value → Answer (Option (List UInt8))
  | .null => .ok none
  | .bool b => .ok (some [if b then 1 else 0])
  | .int n => .ofExcept ((ofInt t n).map some)
  | .float x => .ok (some (ofFloat t x))
  | .text s => .ok (some s.toUTF8.toList)
  | .list items =>
    match t with
    | .array member => (encodeAll (.scalar member) items).map fun items => some (array member items)
    | .scalar _ => .crash .notAnArray
  | .column s => .error (.notBindable s)
  | .raw s => .error (.notBindable s)
  | .param inner => encode t inner

def encodeAll (t : WireType) : List Value → Answer (List (Option (List UInt8)))
  | [] => .ok []
  | v :: vs => do
    let first ← encode t v
    let rest ← encodeAll t vs
    return first :: rest

end

end CrossDialect.Wire
