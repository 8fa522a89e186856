import Surety.Record.Config
import Surety.Yaml.Number

/-!
# Parameters in a file

A file of parameters is a YAML map from field names to values, or a list of the values in the order of
the fields; whatever is left out has its production value.  Names that are not known are ignored, a
known name may occur once.  The parameters are checked after they are read.
-/

namespace Surety.Config

/-- Whether no name occurs twice. -/
def allDistinct : List String → Bool
  | [] => true
  | name :: rest => !rest.contains name && allDistinct rest

/-- The fields that a node gives, by name. -/
def nodeFields? : Yaml.Node → Option (List (String × Yaml.Node))
  | .map entries => do
      let named ← entries.mapM fun (key, value) => key.text?.map (·, value)
      let known := named.filter fun field => fieldNames.contains field.1
      guard (allDistinct (known.map (·.1)))
      return known
  | .list items => if items.length ≤ fieldNames.length then some (fieldNames.zip items) else none
  | _ => none

/-- Read the parameters of a node. -/
def ofNode? (node : Yaml.Node) : Option Config := do
  let fields ← nodeFields? node
  ofSlots? (List.lookup · fields) (fun node => node.text?.bind Address.ofText?) Yaml.Node.word?

/-- Why a text holds no usable parameters. -/
inductive TextFault where
  /-- it is not YAML, or a value is of the wrong type -/
  | unreadable
  | invalid (fault : Fault)
  deriving DecidableEq

/-- Read and check the parameters of a text. -/
def ofText (text : String) : Except TextFault Config :=
  match (Yaml.Node.ofText? text).bind ofNode? with
  | none => .error .unreadable
  | some config =>
      match config.fault? with
      | some fault => .error (.invalid fault)
      | none => .ok config

/-- Why a file holds no usable parameters. -/
inductive FileFault where
  /-- it does not exist or is not encoded as UTF-8 -/
  | notText
  | badText (fault : TextFault)
  deriving DecidableEq

/-- The text that reports a fault of the file at a path. -/
def FileFault.message (path : String) : FileFault → String
  | .notText => "Cannot read engine config file " ++ path
  | .badText _ => "Invalid engine config file " ++ path

/-- Read and check the parameters of a file with the given content, if there is one. -/
def ofFile (content : Option Bytes) : Except FileFault Config :=
  match content.bind fun bytes => String.fromUTF8? (ByteArray.mk bytes.toArray) with
  | none => .error .notText
  | some text => (ofText text).mapError .badText

end Surety.Config
