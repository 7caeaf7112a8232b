/-
This file defines how a program is loaded: which facts about function bodies are wanted, and
whether a program loaded before may be used again.
-/

namespace BinaryFacts

/-- Whether a program loaded before may be used again. -/
inductive CachePolicy where
  /-- Use the cached program if it fits, and cache a newly loaded one. -/
  | reuse
  /-- Load a new program and leave the cache alone. -/
  | bypass
  deriving DecidableEq

/-- How a program is loaded. -/
structure ProgramConfig where
  /-- Whether function bodies come with a timeline of their registers. -/
  typedRegisters : Bool := true
  /-- Whether function bodies come with cross-references. -/
  references : Bool := true
  cachePolicy : CachePolicy := .reuse
  deriving DecidableEq

end BinaryFacts
