/-!
# Words, byte strings and topics

The types that the queue, the cache and the reactor share, and the hash of
`robot_dataflow/common.hpp` under which a topic is routed.
-/

namespace FlowKernel

/-- `size_t`/`usize` and `uint64_t`/`u64` of the sources. -/
abbrev SizeT := BitVec 64
/-- `uint64_t` and `u64`. -/
abbrev U64 := BitVec 64

/-- Comparing words decides equality, so that membership in a list of hashes is decided. -/
instance lawfulBEqU64 : LawfulBEq U64 :=
  inferInstance

/-- A `std::string` or a byte buffer. -/
abbrev Bytes := List UInt8

/-- Readings of the steady clock. -/
abbrev TimePoint := Int

/-- The three channels. -/
inductive TopicPriority where
  | critical
  | normal
  | background
deriving DecidableEq

/-- One byte of the hash: exclusive or, then the wrapping multiplication. -/
def fnv1a_step (hash : U64) (c : UInt8) : U64 :=
  (hash ^^^ BitVec.ofNat 64 c.toNat) * 0x100000001b3

/-- The 64-bit FNV-1a hash of a path. -/
def fnv1a_hash (str : Bytes) : U64 :=
  str.foldl fnv1a_step 0xcbf29ce484222325

end FlowKernel
