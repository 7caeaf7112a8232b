/-
This file identifies the target of a binary: its architecture, from the exact name under which
the analysis engine knows it, and its operating system, from a word inside the engine's platform
name. Names without a match are errors that carry the name.
-/

namespace BinaryFacts

/-- A name that stands for no known target. -/
inductive TargetError where
  /-- No architecture has the name. -/
  | unsupportedArchitecture (name : String)
  /-- The platform name holds no word for an operating system. -/
  | unsupportedSystem (platform : String)
  deriving DecidableEq

/-- The text of a target error. -/
def TargetError.message : TargetError → String
  | .unsupportedArchitecture name => s!"missing architecture handler for '{name}'"
  | .unsupportedSystem platform => s!"missing operating system handler for platform '{platform}'"

/-! ### Architectures -/

/-- A processor architecture. -/
inductive Architecture where
  | x86
  | amd64
  | aarch64
  deriving DecidableEq

namespace Architecture

/-- The architecture with the engine's name `name`. -/
def ofEngineName (name : String) : Except TargetError Architecture :=
  if name = "x86_64" then .ok .amd64
  else if name = "x86" then .ok .x86
  else if name = "aarch64" then .ok .aarch64
  else .error (.unsupportedArchitecture name)

/-- Whether addresses have 64 bits. -/
def is64Bit : Architecture → Bool
  | .x86 => false
  | .amd64 | .aarch64 => true

/-- The size of a pointer in bytes. -/
def pointerSize (architecture : Architecture) : UInt64 :=
  if architecture.is64Bit then 8 else 4

/-- The name of an architecture in reports. -/
def name : Architecture → String
  | .x86 => "x86"
  | .amd64 => "amd64"
  | .aarch64 => "aarch64"

end Architecture

/-! ### Operating systems -/

/-- Whether the characters of a word stand in a row somewhere in a list of characters. -/
def occursIn (word : List Char) : List Char → Bool
  | [] => word.isEmpty
  | first :: rest => word.isPrefixOf (first :: rest) || occursIn word rest

/-- Whether `word` stands somewhere inside `text`. -/
def holdsWord (text word : String) : Bool := occursIn word.toList text.toList

/-- An operating system. -/
inductive OperatingSystem where
  | linux
  | macOs
  | windows
  deriving DecidableEq

namespace OperatingSystem

/-- The words that name the operating systems inside a platform name. Where several occur, the
first of this list decides. -/
def words : List (String × OperatingSystem) :=
  [("linux", .linux), ("mac", .macOs), ("windows", .windows)]

/-- The operating system named inside a platform name. -/
def ofPlatform (platform : String) : Except TargetError OperatingSystem :=
  match words.find? fun entry => holdsWord platform entry.1 with
  | some entry => .ok entry.2
  | none => .error (.unsupportedSystem platform)

/-- The name of an operating system in reports. -/
def name : OperatingSystem → String
  | .linux => "linux"
  | .macOs => "macos"
  | .windows => "windows"

end OperatingSystem

end BinaryFacts
