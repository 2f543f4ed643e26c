import Tagmark.Config
import Tagmark.Files

/-! Where configurations are found. -/

namespace Tagmark.Config

def candidates : List String :=
  ["tbdoc.toml", ".tbdoc.toml", ".config/tbdoc.toml"]

def isFile (files : Files) (path : String) : Bool :=
  match files.resolve path with
  | .error _ => false
  | .ok place =>
      match files.file? place with
      | some .directory | none => false
      | some _ => true

def find? (files : Files) : Option String :=
  candidates.find? (isFile files)

section

variable (decode : String → Except String Config)

def loadBy (files : Files) (path : String) : Except Fault Config :=
  match files.read path with
  | .ok text => readBy decode text
  | .error fault => .error (.file fault)

def loadForBy (files : Files) (path : Option String) : Except Fault (Option Config) :=
  match path.or (find? files) with
  | none => .ok none
  | some path => (loadBy decode files path).map some

end

def loadFor (files : Files) (path : Option String) : Except Fault (Option Config) :=
  loadForBy decode files path

def registryFor (config : Option Config) : Logged Registry :=
  match config with
  | none => .pure Registry.builtin
  | some config => config.registry

end Tagmark.Config
