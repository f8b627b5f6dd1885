import Mathlib.Data.List.Basic

/-!
# The ONNX graph the converter reads

Only the protobuf fields `onnx-to-gwr-timetable-yaml.py` touches are modelled, under
their protobuf names. An optional message or scalar is an `Option`, `none` when
`HasField` is false; a repeated field is a `List` in file order. A tensor type is
present exactly when `HasField("tensor_type")` holds, so the script's
`not type_proto` test, false for every protobuf message, has no counterpart here.

Graph nodes also carry attributes, domains and documentation the converter never
reads; they are left out.
-/

set_option autoImplicit false

namespace Gwr

/-- A `TensorProto`: the converter reads an initializer's name, dims and data type. -/
structure TensorProto where
  name : String
  dims : List Int
  dataType : Int
  deriving Repr, DecidableEq

namespace TensorProto

/-! The `TensorProto.DataType` values of the ONNX standard that the script names. -/

def float : Int := 1
def uint8 : Int := 2
def int8 : Int := 3
def uint16 : Int := 4
def int16 : Int := 5
def int32 : Int := 6
def int64 : Int := 7
def bool : Int := 9
def float16 : Int := 10
def double : Int := 11
def uint32 : Int := 12
def uint64 : Int := 13
def complex64 : Int := 14
def complex128 : Int := 15
def bfloat16 : Int := 16

end TensorProto

/-- One entry of `TensorShapeProto.dim`: a known extent, a symbolic one, or neither. -/
inductive Dimension where
  | dimValue (value : Int)
  | dimParam (param : String)
  | unset
  deriving Repr, DecidableEq

/-- The `tensor_type` member of a `TypeProto`. -/
structure TensorTypeProto where
  elemType : Option Int
  shape : Option (List Dimension)
  deriving Repr, DecidableEq

/-- A `TypeProto`; `tensorType` is `none` for non-tensor types and for an empty type. -/
structure TypeProto where
  tensorType : Option TensorTypeProto
  deriving Repr, DecidableEq

/-- A `ValueInfoProto`: a declared tensor of `value_info`, `input` or `output`. -/
structure ValueInfoProto where
  name : String
  type : TypeProto
  deriving Repr, DecidableEq

/-- A `NodeProto`. An empty string in `input` or `output` is an unused optional slot. -/
structure NodeProto where
  name : String
  opType : String
  input : List String
  output : List String
  deriving Repr, DecidableEq

/-- A `GraphProto`. -/
structure GraphProto where
  node : List NodeProto
  valueInfo : List ValueInfoProto
  input : List ValueInfoProto
  output : List ValueInfoProto
  initializer : List TensorProto
  deriving Repr, DecidableEq

/-- A `ModelProto`; the converter reads only its graph. -/
structure ModelProto where
  graph : GraphProto
  deriving Repr, DecidableEq

end Gwr
