import Mathlib.Data.Option.Basic
import ProvenanceRunner.Library.Numerals
import ProvenanceRunner.Network.Wire

/-! # Resource limits of a job

The limits of a job are written to the control files of its cgroup and read back before anything is
launched into it. A file holds a number in its canonical form. The share of the processors is a
quota of a period, and is compared with the ceiling over the two halves of each product.

Files are a list of names with their contents; the source keeps them in a map. What the kernel
answers is assumed: each line comes back with a newline, and memory is rounded down to pages. -/

namespace ProvenanceRunner.Network

open Utf8 Numerals

/-- The ceiling of a job, in the units of the source. -/
structure ResourceLimits where
  cpuMillis : UInt64
  memoryBytes : UInt64
  processes : UInt64
deriving DecidableEq, Repr

/-- The high and the low half of a product. -/
def mul64 (first second : UInt64) : UInt64 × UInt64 :=
  (UInt64.ofNat (first.toNat * second.toNat / 2 ^ 64), first * second)

/-- Whether a quota of a period is more than the ceiling. -/
def exceeds (quota cpuMillis period : UInt64) : Bool :=
  let left := mul64 quota 1000
  let right := mul64 cpuMillis period
  right.1 < left.1 || (left.1 == right.1 && right.2 < left.2)

/-- The contents of a control file, empty when there is none. -/
def control (values : List (String × Bytes)) (name : String) : Bytes :=
  (values.lookup name).getD []

/-- What is written to the control files of a new cgroup. -/
def writtenControls (ceiling : ResourceLimits) : List (String × Bytes) :=
  [("cgroup.max.descendants", encode "0"), ("cgroup.max.depth", encode "0"),
    ("memory.max", decimal ceiling.memoryBytes.toNat), ("memory.swap.max", encode "0"),
    ("cpu.max", decimal (ceiling.cpuMillis * 100).toNat ++ encode " 100000"),
    ("cpu.max.burst", encode "0"), ("pids.max", decimal ceiling.processes.toNat)]

/-- What is read back: the kernel ends each line, and counts memory in pages. -/
def echoed (ceiling : ResourceLimits) (page : Nat) (name : String) : Bytes :=
  if name = "cgroup.type" then encode "domain\n"
  else if name = "memory.max" then decimal (ceiling.memoryBytes.toNat / page * page) ++ [0x0A]
  else control (writtenControls ceiling) name ++ [0x0A]

/-- The files that are read back. -/
def observed (ceiling : ResourceLimits) (page : Nat) : List (String × Bytes) :=
  ["cgroup.type", "memory.max", "memory.swap.max", "cpu.max", "cpu.max.burst", "pids.max"].map
    fun name => (name, echoed ceiling page name)

variable {raw : Bytes} {number : UInt64}

end ProvenanceRunner.Network
