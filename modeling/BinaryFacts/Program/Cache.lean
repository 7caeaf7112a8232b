/-
This file defines the program cache, which holds at most one program. A load that allows reuse
gets the cached program if it was loaded from the same view in the same way; otherwise it loads a
new program, which takes the place of the old one. A load that bypasses the cache does not look at
it, and a load that fails puts back what it has taken out of it.
-/

import BinaryFacts.Program.Basic

namespace BinaryFacts

/-- At most one program. -/
structure ProgramCache where
  slot : Option Program := none

/-- A program handed out by a cache. -/
inductive ProgramHandle where
  /-- The program that the cache holds. -/
  | cached (program : Program)
  /-- A program that the cache does not hold. -/
  | uncached (program : Program)

/-- The program of a handle. -/
def ProgramHandle.program : ProgramHandle → Program
  | .cached program | .uncached program => program

/-- Whether the cache holds the program of a handle. -/
def ProgramHandle.isCached : ProgramHandle → Bool
  | .cached _ => true
  | .uncached _ => false

namespace ProgramCache

/-- The cache without a program. -/
def empty : ProgramCache := {}

/-- Whether the cache holds no program. -/
def isEmpty (cache : ProgramCache) : Bool := cache.slot.isNone

/-- The cached program, if it was loaded from this view in this way. -/
def matching? (cache : ProgramCache) (view : View) (config : ProgramConfig) : Option Program :=
  cache.slot.filter fun program =>
    program.view.handle = view.handle && program.config = config

/-- Take out what is in the cache. -/
def take : EStateM ProgramError ProgramCache ProgramCache := modifyGet fun cache => (cache, empty)

/-- Put a program into the cache and hand it out. -/
def insert (program : Program) : EStateM ProgramError ProgramCache ProgramHandle := do
  set (ProgramCache.mk (some program))
  return .cached program

/-- Put a program into the cache; the first result is the program it takes the place of. -/
def store (cache : ProgramCache) (program : Program) : Option Program × ProgramCache :=
  (cache.slot, ⟨some program⟩)

/-- The program of a view, from the cache or newly loaded. What was in the cache is taken out first,
and put back if it is the program asked for or if no other can be loaded. -/
def getOrLoad (view : View) (config : ProgramConfig) :
    EStateM ProgramError ProgramCache ProgramHandle := do
  match config.cachePolicy with
  | .bypass =>
    match Program.load view config with
    | .ok program => return .uncached program
    | .error error => throw error
  | .reuse =>
    let previous ← take
    match previous.matching? view config with
    | some cached => insert cached
    | none =>
      match Program.load view config with
      | .ok program => insert program
      | .error error => do
        set previous
        throw error

/-- Put the program of a handle back after requests to it: a cached one stands in the cache as
the requests left it. -/
def update (cache : ProgramCache) (handle : ProgramHandle) (program : Program) : ProgramCache :=
  match handle with
  | .cached _ => ⟨some program⟩
  | .uncached _ => cache

/-- Drop the cached program. -/
def clear (_ : ProgramCache) : ProgramCache := {}

end ProgramCache

end BinaryFacts
