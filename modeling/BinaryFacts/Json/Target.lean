/-
This file gives the JSON forms of architectures and operating systems: each is written as a name.
-/

import BinaryFacts.Json
import BinaryFacts.Target

namespace BinaryFacts

/-- The names of architectures in JSON. -/
def Architecture.jsonNames : List (String × Architecture) :=
  [("X86", .x86), ("Amd64", .amd64), ("AArch64", .aarch64)]

instance : JsonForm Architecture where
  encode
    | .x86 => .text "X86"
    | .amd64 => .text "Amd64"
    | .aarch64 => .text "AArch64"
  decode? := Json.choice? Architecture.jsonNames

/-- The names of operating systems in JSON. -/
def OperatingSystem.jsonNames : List (String × OperatingSystem) :=
  [("Linux", .linux), ("MacOs", .macOs), ("Windows", .windows)]

instance : JsonForm OperatingSystem where
  encode
    | .linux => .text "Linux"
    | .macOs => .text "MacOs"
    | .windows => .text "Windows"
  decode? := Json.choice? OperatingSystem.jsonNames

end BinaryFacts
