/-
This file proves that gathering the bytes of a map into runs loses nothing, leaves nothing to
gather, and never asks for an address past the end of memory.

The run gathered last lies before all entries that are still to come. So the address behind it is
at most the address of the next entry and fits in a word, even where a run reaches the last address
of all: nothing comes after such a run, and its end is never asked for. The next entry either
continues the run, and stands right behind it with its permissions, or opens a run that cannot be
joined to it.
-/

import BinaryFacts.Memory.ByteMap
import Mathlib.Data.List.Chain

namespace BinaryFacts

namespace MemoryRun

variable {run : MemoryRun} {address : UInt64} {byte : MappedByte}

/-- The entries that a run stands for: its bytes from its start on, with its permissions. -/
def entries (run : MemoryRun) : List (UInt64 × MappedByte) :=
  run.bytes.mapIdx fun index value =>
    (run.start + UInt64.ofNat index, ⟨value, run.writable, run.executable⟩)

/-- Two runs that cannot be joined: some address lies between them, or their permissions differ. -/
def Apart (earlier later : MemoryRun) : Prop :=
  earlier.start.toNat + earlier.bytes.length < later.start.toNat ∨
    earlier.writable ≠ later.writable ∨ earlier.executable ≠ later.executable

/-- A byte right behind a run, with its permissions. -/
structure Continues (run : MemoryRun) (address : UInt64) (byte : MappedByte) : Prop where
  behind : run.start.toNat + run.bytes.length = address.toNat
  writable : run.writable = byte.writable
  executable : run.executable = byte.executable

@[simp] theorem entries_ofByte (address : UInt64) (byte : MappedByte) :
    (ofByte address byte).entries = [(address, byte)] := by
  simp [entries, ofByte]

/-- A byte that continues a run becomes its last entry. -/
theorem entries_push (continues : run.Continues address byte) :
    (run.push byte).entries = run.entries ++ [(address, byte)] := by
  have place : run.start + UInt64.ofNat run.bytes.length = address := by
    rw [← UInt64.ofNat_toNat (x := run.start), ← UInt64.ofNat_add, continues.behind,
      UInt64.ofNat_toNat]
  rw [entries, push, List.mapIdx_concat, entries, place, continues.writable, continues.executable]

/-- The address behind a run is found where an entry is still to come. -/
theorem exists_stop (before : run.start.toNat + run.bytes.length ≤ address.toNat) :
    ∃ stop, run.stop = .ok stop ∧ stop.toNat = run.start.toNat + run.bytes.length := by
  have room : run.start.toNat + run.bytes.length < UInt64.size :=
    Nat.lt_of_le_of_lt before address.toNat_lt_size
  have length : (UInt64.ofNat run.bytes.length).toNat = run.bytes.length :=
    UInt64.toNat_ofNat_of_lt (Nat.lt_of_le_of_lt (Nat.le_add_left _ _) room)
  rw [← length] at room ⊢
  exact exists_checkedSum room

/-- Whether an entry still to come continues a run is decided without a fault. -/
theorem continuedBy_eq (byte : MappedByte)
    (before : run.start.toNat + run.bytes.length ≤ address.toNat) :
    ∃ answer, run.continuedBy address byte = .ok answer ∧
      (answer = true ↔ run.Continues address byte) := by
  obtain ⟨stop, found, value⟩ := exists_stop before
  refine ⟨_, by rw [continuedBy, found]; rfl, ?_⟩
  simp only [Bool.and_eq_true, decide_eq_true_eq, and_assoc]
  rw [← UInt64.toNat_inj, value]
  exact ⟨fun ⟨behind, writable, executable⟩ => ⟨behind, writable, executable⟩,
    fun ⟨behind, writable, executable⟩ => ⟨behind, writable, executable⟩⟩

/-- An entry past a run that does not continue it opens a run that cannot be joined to it. -/
theorem apart_of_not_continues (before : run.start.toNat + run.bytes.length ≤ address.toNat)
    (broken : ¬ run.Continues address byte) {next : MemoryRun} (start : next.start = address)
    (writable : next.writable = byte.writable) (executable : next.executable = byte.executable) :
    run.Apart next := by
  rw [Apart, start, writable, executable]
  by_contra joined
  push Not at joined
  obtain ⟨near, sameWritable, sameExecutable⟩ := joined
  exact broken ⟨Nat.le_antisymm before near, sameWritable, sameExecutable⟩

end MemoryRun

namespace ByteMap

/-- Runs that stand for a run and the entries behind it: they lose none of them, none is empty, no
two neighbours can be joined, and the first of them begins as the run does. -/
structure Gathers (run : MemoryRun) (rest : List (UInt64 × MappedByte)) (runs : List MemoryRun) :
    Prop where
  entries : runs.flatMap MemoryRun.entries = run.entries ++ rest
  filled : ∀ gathered ∈ runs, gathered.bytes ≠ []
  apart : runs.IsChain MemoryRun.Apart
  first : ∃ head tail, runs = head :: tail ∧ head.start = run.start ∧
    head.writable = run.writable ∧ head.executable = run.executable

namespace Gathers

variable {run : MemoryRun} {rest : List (UInt64 × MappedByte)} {runs : List MemoryRun}
  {address : UInt64} {byte : MappedByte}

theorem push (continues : run.Continues address byte)
    (gathers : Gathers (run.push byte) rest runs) :
    Gathers run ((address, byte) :: rest) runs where
  entries := by
    rw [gathers.entries, MemoryRun.entries_push continues, List.append_assoc]
    rfl
  filled := gathers.filled
  apart := gathers.apart
  first := gathers.first

theorem cons (filled : run.bytes ≠ [])
    (before : run.start.toNat + run.bytes.length ≤ address.toNat)
    (broken : ¬ run.Continues address byte) (gathers : Gathers (.ofByte address byte) rest runs) :
    Gathers run ((address, byte) :: rest) (run :: runs) where
  entries := by
    rw [List.flatMap_cons, gathers.entries, MemoryRun.entries_ofByte]
    rfl
  filled := List.forall_mem_cons.mpr ⟨filled, gathers.filled⟩
  apart := by
    have chain := gathers.apart
    obtain ⟨head, tail, rfl, start, writable, executable⟩ := gathers.first
    exact chain.cons_cons
      (MemoryRun.apart_of_not_continues before broken start writable executable)
  first := ⟨run, runs, rfl, rfl, rfl, rfl⟩

end Gathers

/-- Behind a run that lies before all of them, ascending entries are gathered without a fault. -/
theorem exists_gathers (run : MemoryRun) {rest : List (UInt64 × MappedByte)}
    (filled : run.bytes ≠ [])
    (before : ∀ entry ∈ rest, run.start.toNat + run.bytes.length ≤ entry.1.toNat)
    (ascending : rest.Pairwise fun earlier later => earlier.1 < later.1) :
    ∃ runs, runsAfter run rest = .ok runs ∧ Gathers run rest runs := by
  induction rest generalizing run with
  | nil =>
    refine ⟨[run], rfl, ?_, ?_, .singleton run, run, [], rfl, rfl, rfl, rfl⟩
    · rw [List.flatMap_singleton, List.append_nil]
    · exact fun gathered isRun => List.mem_singleton.mp isRun ▸ filled
  | cons entry rest inductionHypothesis =>
    obtain ⟨address, byte⟩ := entry
    obtain ⟨least, restAscending⟩ := List.pairwise_cons.mp ascending
    have here : run.start.toNat + run.bytes.length ≤ address.toNat :=
      before (address, byte) List.mem_cons_self
    have past : ∀ entry ∈ rest, address.toNat + 1 ≤ entry.1.toNat :=
      fun entry member => UInt64.lt_iff_toNat_lt.mp (least entry member)
    obtain ⟨answer, decided, meaning⟩ := MemoryRun.continuedBy_eq byte here
    cases answer with
    | true =>
      have continues := meaning.mp rfl
      have pushed : (run.push byte).start.toNat + (run.push byte).bytes.length =
          address.toNat + 1 := by
        rw [MemoryRun.push, List.length_append, ← Nat.add_assoc, continues.behind]
        rfl
      obtain ⟨runs, gathered, gathers⟩ := inductionHypothesis (run.push byte)
        (List.append_ne_nil_of_right_ne_nil _ (List.cons_ne_nil _ _))
        (fun entry member => pushed ▸ past entry member) restAscending
      refine ⟨runs, ?_, gathers.push continues⟩
      rw [runsAfter, decided]
      exact gathered
    | false =>
      have broken : ¬ run.Continues address byte := fun continues => nomatch meaning.mpr continues
      obtain ⟨runs, gathered, gathers⟩ := inductionHypothesis (.ofByte address byte)
        (List.cons_ne_nil _ _) past restAscending
      refine ⟨run :: runs, ?_, gathers.cons filled here broken⟩
      rw [runsAfter, decided]
      show (do return run :: (← runsAfter (.ofByte address byte) rest)) = Except.ok (run :: runs)
      rw [gathered]
      rfl

/-- The runs of a map are found without a fault, whatever its addresses. Written out byte by byte
they are the entries of the map, so each byte stands in one run and the addresses ascend. No run is
empty, and no two neighbours can be joined. -/
theorem exists_runs_of_entries (map : ByteMap) :
    ∃ runs, map.runs = .ok runs ∧ runs.flatMap MemoryRun.entries = map.entries ∧
      (∀ run ∈ runs, run.bytes ≠ []) ∧ runs.IsChain MemoryRun.Apart := by
  obtain ⟨entries, ascending⟩ := map
  cases entries with
  | nil => exact ⟨[], rfl, rfl, nofun, .nil⟩
  | cons entry rest =>
    obtain ⟨address, byte⟩ := entry
    obtain ⟨least, restAscending⟩ := List.pairwise_cons.mp ascending
    obtain ⟨runs, gathered, gathers⟩ := exists_gathers (.ofByte address byte)
      (List.cons_ne_nil _ _)
      (fun entry member => UInt64.lt_iff_toNat_lt.mp (least entry member)) restAscending
    refine ⟨runs, gathered, ?_, gathers.filled, gathers.apart⟩
    rw [gathers.entries, MemoryRun.entries_ofByte]
    rfl

-- A run may reach the last address, behind which there is none.
example :
    let last : UInt64 := 0xFFFFFFFFFFFFFFFF
    let code : ByteMap := (AddressMap.empty.insert last ⟨0xC3, false, true⟩).insert (last - 1)
      ⟨0x90, false, true⟩
    ByteMap.runs (code.insert (last - 2) ⟨0, true, false⟩) =
      .ok [⟨last - 2, [0], true, false⟩, ⟨last - 1, [0x90, 0xC3], false, true⟩] := by
  decide

end ByteMap

end BinaryFacts
