import Wit.Go.Strings

/-!
# Types — primitive type names

`src/wit/resolve.go` names each primitive type for diagnostics and for the JSON it reads:
`_primitive[T].TypeName` prints the name, and `ParseType` reads it back, by two switches over
the same thirteen names.  A `Type` is a primitive or a `*TypeDef`, whose `TypeName` is its
optional `Name`.

`ParseType`'s switch is modelled as the table of its cases, searched in order: a finite lookup,
which the model only transcribes.
-/

namespace Wit
open Wit.Go

/-- The WIT primitive types, one for each Go type of the `Primitive` constraint. -/
inductive Primitive
  | bool | s8 | u8 | s16 | u16 | s32 | u32 | s64 | u64 | float32 | float64 | char | string
  deriving DecidableEq, Repr

/-- `_primitive[T].TypeName`, the switch on `T`.  Its `"<undefined>"` arm is never reached:
`T` is one of the thirteen types of the constraint. -/
def Primitive.typeName : Primitive → GoString
  | .bool    => .ofString "bool"
  | .s8      => .ofString "s8"
  | .u8      => .ofString "u8"
  | .s16     => .ofString "s16"
  | .u16     => .ofString "u16"
  | .s32     => .ofString "s32"
  | .u32     => .ofString "u32"
  | .s64     => .ofString "s64"
  | .u64     => .ofString "u64"
  | .float32 => .ofString "float32"
  | .float64 => .ofString "float64"
  | .char    => .ofString "char"
  | .string  => .ofString "string"

/-- A `TypeDef`, with the field its `TypeName` reads: the optional `Name`. -/
structure TypeDef where
  name : Option GoString
  deriving DecidableEq, Repr

/-- `TypeDef.TypeName`: the name, if present, else `""`. -/
def TypeDef.typeName (t : TypeDef) : GoString := t.name.getD []

/-- `Type`: a primitive, or a `*TypeDef`. -/
inductive «Type»
  | primitive (p : Primitive)
  | typeDef (t : TypeDef)
  deriving DecidableEq, Repr

/-- `TypeName` of a `Type`. -/
def «Type».typeName : «Type» → GoString
  | .primitive p => p.typeName
  | .typeDef t   => t.typeName

/-- The error of `ParseType`: `fmt.Errorf("unknown type %q", s)`. -/
inductive ParseTypeError
  | unknownType (s : GoString)
  deriving DecidableEq, Repr

/-- The cases of `ParseType`'s switch, in order: each label and the type it returns. -/
def parseTypeCases : List (GoString × Primitive) :=
  [(.ofString "bool", .bool), (.ofString "s8", .s8), (.ofString "u8", .u8),
    (.ofString "s16", .s16), (.ofString "u16", .u16), (.ofString "s32", .s32),
    (.ofString "u32", .u32), (.ofString "s64", .s64), (.ofString "u64", .u64),
    (.ofString "float32", .float32), (.ofString "float64", .float64), (.ofString "char", .char),
    (.ofString "string", .string)]

/-- `ParseType(s)`: the type of the first case whose label is `s`, else the error naming `s`. -/
def parseType (s : GoString) : Except ParseTypeError «Type» :=
  match parseTypeCases.find? (fun c => c.1 = s) with
  | some c => .ok (.primitive c.2)
  | none   => .error (.unknownType s)

end Wit
