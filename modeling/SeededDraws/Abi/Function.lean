import SeededDraws.Abi.Words
import SeededDraws.Hash
import SeededDraws.Json
/-!
# Functions of a contract interface

A function has a name and the types of its inputs and outputs; its selector is taken from the hash
of its signature. Interface documents are JSON lists of entries.
-/

namespace SeededDraws

inductive AbiType where
  | uint256
  | uint256Array
  | address
deriving DecidableEq

namespace AbiType

def name : AbiType → String
  | .uint256 => "uint256"
  | .uint256Array => "uint256[]"
  | .address => "address"

def ofDatum? (d : Datum) : Option AbiType :=
  match d.string? with
  | some "uint256" => some .uint256
  | some "uint256[]" => some .uint256Array
  | some "address" => some .address
  | _ => none

end AbiType

structure Function where
  name : Text
  inputs : List AbiType
  outputs : List AbiType
  mutability : Datum

namespace Function

def readType (name : Text) (type : Datum) : Outcome AbiType :=
  match AbiType.ofDatum? type with
  | some t => .ok t
  | none => .error (.abi (.unsupportedType type name))

def make (name : Text) (inputs outputs : List Datum) (mutability : Datum) :
    Outcome Function := do
  let ins ← inputs.mapM (readType name)
  let outs ← outputs.mapM (readType name)
  return ⟨name, ins, outs, mutability⟩

def signature (f : Function) : Text :=
  f.name ++ "(" ++ String.intercalate "," (f.inputs.map AbiType.name) ++ ")"

def selector (f : Function) : Outcome Bytes := Hash.selector (.text f.signature)

/-! ### Entries of a document -/

/-- The type of one parameter. -/
def parameterType (parameter : Datum) : Outcome Datum :=
  match parameter with
  | .dict _ =>
    match parameter.field? "type" with
    | some type => .ok type
    | none => .error (.bare .key)
  | _ => .error (.bare .type)

def parameterTypes (field : String) (entry : Datum) : Outcome (List Datum) := do
  (← ((entry.field? field).getD (.list [])).items).mapM parameterType

def ofEntry (entry : Datum) : Outcome Function :=
  match entry with
  | .dict _ => do
    let type := (entry.field? "type").getD (.text "function")
    if !type.isText "function" then .error (.abi (.notFunction type))
    else
      match entry.field? "name" with
      | some (.text name) =>
        if name.isEmpty then .error (.abi .unnamed)
        else
          let inputs ← parameterTypes "inputs" entry
          let outputs ← parameterTypes "outputs" entry
          make name inputs outputs ((entry.field? "stateMutability").getD (.text "nonpayable"))
      | _ => .error (.abi .unnamed)
  | _ => .error (.bare .attribute)

/-- A later function of the same name takes the place of the earlier one. -/
def put (f : Function) : List Function → List Function
  | [] => [f]
  | g :: rest => if g.name = f.name then f :: rest else g :: put f rest

/-- All entries must be good; the functions stand in the order of their names' first appearance. -/
def ofEntries (entries : List Datum) : Outcome (List Function) := do
  return (← entries.mapM ofEntry).foldl (fun table f => put f table) []

def ofDocument (text : Text) : Outcome (List Function) :=
  match Json.parse text with
  | .error .malformed => .error (.abi .malformed)
  | .error .longInteger => .error (.bare .value)
  | .error .tooDeep => .error (.bare .depth)
  | .ok (.list entries) => ofEntries entries
  | .ok _ => .error (.abi .notList)

/-- Text, or its bytes in one of the encodings of documents. -/
def readDocument (d : Datum) : Outcome (List Function) :=
  match d with
  | .text t => ofDocument t
  | .bytes .view _ => .error (.bare .type)
  | .bytes _ b =>
    match Encoding.document? b with
    | some t => ofDocument t
    | none => .error (.bare .decoding)
  | _ => .error (.bare .type)

/-! ### The two random functions -/

def randomSequence : Function :=
  ⟨"randomNCSPRNG", [.uint256], [.uint256Array], .text "view"⟩

def randomSingle : Function := ⟨"randomPRNG", [], [.uint256], .text "view"⟩

/-! ### Call data -/

def encodeArgument (type : AbiType) (arg : Datum) : Outcome Bytes :=
  match type with
  | .uint256 => encodeUint256 arg
  | .address => encodeAddress arg
  | .uint256Array => .error (.misfit (.argumentType type.name))

/-- The selector and one word for each argument; the count is checked before anything else. -/
def encodeCall (f : Function) (args : List Datum) : Outcome Bytes := do
  if args.length ≠ f.inputs.length then
    .error (.misfit (.argumentCount f.name f.inputs.length args.length))
  else
    let head ← f.selector
    let words ← (f.inputs.zip args).mapM fun p => encodeArgument p.1 p.2
    return head ++ words.flatten

end Function

end SeededDraws
