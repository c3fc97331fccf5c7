import NodeWatch.Config.Json
import NodeWatch.Text.Bytes
import NodeWatch.Toml.Reader

/-!
Settings from a TOML file.
-/

namespace NodeWatch.Config

/-- Why a file gives no settings. -/
inductive LoadFault where
  | unreadable (path : String)
  | malformed (path : String)
  deriving DecidableEq

def LoadFault.message : LoadFault → String
  | unreadable p => "Failed to read config file: " ++ p
  | malformed p => "Failed to parse TOML config file: " ++ p

def ofToml? (s : String) : Option Config :=
  (Toml.ofText? s.toList).bind (ofJson? · Toml.dialect)

/-- The settings in the bytes of the file at a path, if it is there. -/
def fromFile (path : String) (content : Option (List UInt8)) : Except LoadFault Config :=
  match content.bind Text.ofBytes? with
  | none => .error (.unreadable path)
  | some s =>
    match ofToml? s with
    | none => .error (.malformed path)
    | some c => .ok c

end NodeWatch.Config
