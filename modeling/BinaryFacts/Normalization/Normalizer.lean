/-
This file defines the normalizer, which turns descriptors into stored types request by request.
A request that succeeds keeps everything it built. A request that fails leaves nothing behind:
the keys in its journal are erased from the identities and the store is truncated to its size
before the request.
-/

import BinaryFacts.Normalization.Build

namespace BinaryFacts

/-- The types of a target, and the ids of those known by their keys. -/
structure Normalizer where
  /-- The size of a pointer in bytes. -/
  pointerSize : UInt64
  store : TypeStore := .empty
  identities : Table String TypeId := .empty

/-- A request to a normalizer. After an error the normalizer holds what earlier steps of the
request had finished. -/
abbrev Normalizing (Error : Type) := EStateM Error Normalizer

namespace Normalizer

/-- A normalizer without types. -/
def new (pointerSize : UInt64) : Normalizer := { pointerSize }

/-- The id of the type known by a key. -/
def known? (normalizer : Normalizer) (key : String) : Option TypeId :=
  normalizer.identities.find? key

/-- A request on the types of a normalizer. -/
def draft (normalizer : Normalizer) : Draft where
  store := normalizer.store
  identities := normalizer.identities

/-- Keep the types of a request. -/
def commit (normalizer : Normalizer) (draft : Draft) : Normalizer :=
  { normalizer with store := draft.store, identities := draft.identities }

/-- Undo a request that started with `size` nodes. -/
def rollback (normalizer : Normalizer) (size : Nat) (draft : Draft) : Normalizer :=
  { normalizer with
    store := draft.store.truncate size
    identities := draft.journal.foldl (fun identities key => identities.erase key)
      draft.identities }

/-- Normalize a descriptor against the types registered in a binary. -/
def normalize (binary : Binary) (descriptor : Descriptor) : Normalizing NormalizeError TypeId :=
  fun normalizer =>
    match Building.build binary normalizer.pointerSize descriptor normalizer.draft with
    | .ok id draft => .ok id (normalizer.commit draft)
    | .error error draft => .error error (normalizer.rollback normalizer.store.size draft)

end Normalizer

end BinaryFacts
