import Crate.Spec.FieldChecks

/-!
# YAML documents

The nodes that yaml-cpp builds from a document, and the helpers through which
`lib/spec.cpp` reads them.  What the library itself decides is a parameter:
whether a null node has a text (it has since version 0.8), the words it takes
for a boolean, and the texts it writes.
-/

namespace Crate.Yaml

open Crate.Foundation
open scoped Crate.Spec

/-- A map is the list of its entries; keys may be any nodes and may repeat. -/
inductive Node where
  | null
  | scalar (text : Str)
  | sequence (items : List Node)
  | map (entries : List (Node × Node))

abbrev Entry := Node × Node

class YamlCpp where
  /-- `as<std::string>()` of a null node is `"null"`, and not an exception. -/
  nullHasText : Bool
  /-- `convert<bool>::decode` on the text of a scalar. -/
  boolWord : Str → Option Bool
  /-- What a stream or an emitter writes for a node. -/
  emit : Node → Str
  /-- `what()` of the exception for a node that cannot be converted. -/
  badConversion : Str
  /-- `what()` of the exception for a node that is not there. -/
  invalidNode : Str

abbrev Parse := Except Str

namespace Node

def isScalar : Node → Bool
  | .scalar _ => true
  | _ => false

def isNull : Node → Bool
  | .null => true
  | _ => false

def isSequence : Node → Bool
  | .sequence _ => true
  | _ => false

def isMap : Node → Bool
  | .map _ => true
  | _ => false

/-- `Type()`, as the number of `NodeType::value` that a stream prints. -/
def typeNumber : Node → Str
  | .null => "1"
  | .scalar _ => "2"
  | .sequence _ => "3"
  | .map _ => "4"

end Node

def keyIs (key : Str) (entry : Entry) : Bool :=
  match entry.1 with
  | .scalar text => text = key
  | _ => false

/-- `node[key]` on a map: the first entry with this key. -/
def lookup (entries : List Entry) (key : Str) : Option Node :=
  (entries.find? (keyIs key)).map Prod.snd

/-- All letters small, all large, or large only in front. -/
def isFlexibleCase (s : Str) : Bool :=
  s.all Char.isLower || s.all Char.isUpper ||
    (s.head?.any Char.isUpper && s.tail.all Char.isLower)

/-- The library since version 0.8, as far as documents of plain scalars need it. -/
@[reducible] def plainYaml : YamlCpp where
  nullHasText := true
  boolWord := fun s =>
    if !isFlexibleCase s then none
    else if s.map Char.toLower ∈ (["y", "yes", "true", "on"] : List Str) then some true
    else if s.map Char.toLower ∈ (["n", "no", "false", "off"] : List Str) then some false
    else none
  emit := fun
    | .null => "~"
    | .scalar text => text
    | .sequence _ => "[]"
    | .map _ => "\x7b\x7d"
  badConversion := "bad conversion"
  invalidNode := "invalid node"

section Reading

variable [yaml : YamlCpp]

/-- `AsString`. -/
def asString : Node → Parse Str
  | .scalar text => .ok text
  | .null => if yaml.nullHasText then .ok "null" else .error yaml.badConversion
  | _ => .error yaml.badConversion

def decodeBool : Node → Option Bool
  | .scalar text => yaml.boolWord text
  | _ => none

/-- What `for (auto b : node)` visits; an element of a sequence has no `first`. -/
def pairs : Node → Parse (List Entry)
  | .map entries => .ok entries
  | .sequence (_ :: _) => .error yaml.invalidNode
  | _ => .ok []

/-- A loop over the entries of a node that first reads the text of each key. -/
def eachEntry {σ : Type} (node : Node) (init : σ) (body : Str → Entry → σ → Parse σ) :
    Parse σ := do
  (← pairs node).foldlM (fun x b => do body (← asString b.1) b x) init

/-- `ERR(msg)` of the parser. -/
def err {α : Type} (msg : Str) : Parse α := raise "spec parser" msg

/-- `if (auto e = check; !e.empty()) ERR(label << e)`. -/
def orErr {α : Type} (label : Str) (result : Except Str α) : Parse α :=
  match result with
  | .ok a => .ok a
  | .error e => err (label ++ e)

/-- `ERR("unknown element path" << b.first << " in spec")`. -/
def unknownElement {α : Type} (path : Str) (b : Entry) : Parse α :=
  err ("unknown element " ++ path ++ yaml.emit b.1 ++ " in spec")

def scalar (node : Node) (opath : Str) : Parse Str :=
  if node.isScalar then asString node
  else err ("unsupported " ++ opath ++ " object of type " ++ node.typeNumber ++
    ", only scalar is allowed")

/-- `listOrScalar`, with the words it adds; `none` is a node of another kind. -/
def listOrScalar : Node → Parse (Option (List Str))
  | .sequence items => do return some (← items.mapM asString)
  | .scalar text => .ok (some (Util.splitString text))
  | _ => .ok none

def listOrScalarOnly (node : Node) (opath : Str) : Parse (List Str) := do
  match ← listOrScalar node with
  | some words => return words
  | none =>
      err ("unsupported " ++ opath ++ " object of type " ++ node.typeNumber ++
        ", only list or scalar are allowed")

/-- `if (!YAML::convert<bool>::decode(node, field)) ERR(msg)`. -/
def boolean (node : Node) (msg : Str) : Parse Bool :=
  match decodeBool node with
  | some value => .ok value
  | none => err msg

/-- `if (!node.IsMap()) ERR(msg)`. -/
def requireMap (node : Node) (msg : Str) : Parse Unit :=
  if node.isMap then .ok () else err msg

/-- A text that has to be one of the given words. -/
def oneOf (words : List Str) (msg : Str) (text : Str) : Parse Str :=
  if text ∈ words then .ok text else err msg

end Reading

end Crate.Yaml
