import FlowKernel.Routing
import FlowKernel.Foundation.FoldHash

/-!
# Routing keys that cannot collide

The hash of a path is the key under which frames find their handler. It is computed by
`fnv1a_hash` of `robot_dataflow/common.hpp` and, in Rust, by the method of that name of the
reactor. C++ reads the path as `char`s, which a platform may take as signed, and converts each
back to a byte; Rust widens the bytes themselves. Both give the hash of the model.

The multiplier is odd, so a multiplication by it can be undone modulo 2^64, and an exclusive or
can be undone in any case. The hash is a fold of such steps.
-/

namespace FlowKernel.RoutingKeys

open Foundation FoldHash

/-- How a platform takes a byte of a string as a `char`. -/
inductive CharKind where
  | signed
  | unsigned
deriving DecidableEq

/-- A byte as a `char`, which may be signed. -/
def CharKind.char : CharKind → UInt8 → Int
  | .signed, byte => byte.toInt8.toInt
  | .unsigned, byte => byte.toNat

namespace Cpp

/-- The body of the loop. The byte that the cast yields is promoted to `int`, and converted to
`uint64_t` by the exclusive or. -/
def fnv1a_step (hash : U64) (c : Int) : U64 :=
  (hash ^^^ BitVec.ofInt 64 (UInt8.ofInt c).toNat) * 0x100000001b3

/-- The hash as the C++ source folds it. -/
def fnv1a_hash (kind : CharKind) (str : Bytes) : U64 :=
  (str.map kind.char).foldl fnv1a_step 0xcbf29ce484222325

end Cpp

namespace Rust

/-- `byte as u64`, then `wrapping_mul`. -/
def fnv1a_step (hash : U64) (byte : UInt8) : U64 :=
  (hash ^^^ byte.toBitVec.setWidth 64) * 0x100000001b3

/-- The hash as the Rust source folds it. -/
def fnv1a_hash (s : Bytes) : U64 :=
  s.foldl fnv1a_step 0xcbf29ce484222325

end Rust

/-- The cast to `uint8_t` recovers the byte of either kind of `char`. -/
theorem ofInt_char (kind : CharKind) (byte : UInt8) : UInt8.ofInt (kind.char byte) = byte := by
  apply UInt8.toNat_inj.mp
  have small := byte.toNat_lt
  cases kind with
  | signed =>
    have value : byte.toInt8.toInt = byte.toBitVec.toInt := rfl
    rw [CharKind.char, value, BitVec.toInt_eq_toNat_cond, UInt8.ofInt, UInt8.toNat_ofNat']
    simp only [UInt8.toNat_toBitVec]
    split
    next => omega
    next => omega
  | unsigned =>
    rw [CharKind.char, UInt8.ofInt, UInt8.toNat_ofNat']
    omega

/-- The cast to `uint8_t` undoes the sign. -/
theorem cpp_step (kind : CharKind) (hash : U64) (byte : UInt8) :
    Cpp.fnv1a_step hash (kind.char byte) = fnv1a_step hash byte := by
  rw [Cpp.fnv1a_step, ofInt_char, fnv1a_step, BitVec.ofInt_natCast]

/-- A byte is widened as it is. -/
theorem rust_step (hash : U64) (byte : UInt8) :
    Rust.fnv1a_step hash byte = fnv1a_step hash byte := by
  have widened : byte.toBitVec.setWidth 64 = BitVec.ofNat 64 byte.toNat := by
    apply BitVec.eq_of_toNat_eq
    simp
  rw [Rust.fnv1a_step, widened, fnv1a_step]

/-- The C++ hash, whatever a `char` is. -/
theorem cpp_hash (kind : CharKind) (str : Bytes) :
    Cpp.fnv1a_hash kind str = fnv1a_hash str := by
  have steps : (fun hash byte => Cpp.fnv1a_step hash (kind.char byte)) = fnv1a_step :=
    funext₂ (cpp_step kind)
  rw [Cpp.fnv1a_hash, List.foldl_map, steps, fnv1a_hash]

/-- The Rust fold is the hash. -/
theorem rust_hash (str : Bytes) : Rust.fnv1a_hash str = fnv1a_hash str := by
  have steps : Rust.fnv1a_step = fnv1a_step := funext₂ rust_step
  rw [Rust.fnv1a_hash, steps, fnv1a_hash]

/-- The inverse of the multiplier modulo 2^64. -/
def primeInverse : U64 :=
  0xce965057aff6957b

/-- The prime has an inverse modulo 2^64. -/
theorem prime_mul_inverse : (0x100000001b3 : U64) * primeInverse = 1#64 := by
  decide

/-- A multiplication by the odd multiplier can be undone. -/
theorem mul_prime_injective : Function.Injective fun hash : U64 => hash * 0x100000001b3 := by
  intro left right same
  calc left
      = left * 0x100000001b3 * primeInverse := by
        rw [BitVec.mul_assoc, prime_mul_inverse, BitVec.mul_one]
    _ = right * 0x100000001b3 * primeInverse := by
        have equal : left * 0x100000001b3 = right * 0x100000001b3 := same
        rw [equal]
    _ = right := by rw [BitVec.mul_assoc, prime_mul_inverse, BitVec.mul_one]

/-- Different bytes stay different when they are widened. -/
theorem ofNat_byte_injective :
    Function.Injective fun byte : UInt8 => BitVec.ofNat 64 byte.toNat := by
  intro first second same
  have bytes := congrArg BitVec.toNat same
  have first_small := first.toNat_lt
  have second_small := second.toNat_lt
  simp only [BitVec.toNat_ofNat] at bytes
  apply UInt8.toNat_inj.mp
  omega

/-- One step of the hash can be undone, knowing the byte or knowing the hash before it. -/
theorem fnv1a_lossless : Lossless fnv1a_step where
  state _ _ _ same := (BitVec.xor_left_inj _).mp (mul_prime_injective same)
  symbol _ _ _ same :=
    ofNat_byte_injective ((BitVec.xor_right_inj _).mp (mul_prime_injective same))

/-- A hash that tells paths apart as a routing key has to. -/
structure TellsApart (hash : Bytes → U64) : Prop where
  suffix : ∀ u v s, hash (u ++ s) = hash (v ++ s) ↔ hash u = hash v
  byte : ∀ p s b c, hash (p ++ [b] ++ s) = hash (p ++ [c] ++ s) ↔ b = c
  path : ∀ left right, DifferOnce left right → hash left ≠ hash right

/-- FNV-1a tells paths apart: no step of the fold loses anything. -/
theorem tellsApart : TellsApart fnv1a_hash where
  suffix u v s := fnv1a_lossless.append_iff _ u v s
  byte p s b c := fnv1a_lossless.symbol_iff _ p s b c
  path _ _ differ := fnv1a_lossless.apart _ differ

/-- Both sources compute one hash, for every byte string and either kind of `char`, and it tells
paths apart. -/
theorem routing_keys (kind : CharKind) :
    TellsApart (Cpp.fnv1a_hash kind) ∧ TellsApart Rust.fnv1a_hash ∧
      ∀ str, Cpp.fnv1a_hash kind str = Rust.fnv1a_hash str := by
  have cpp : Cpp.fnv1a_hash kind = fnv1a_hash := funext (cpp_hash kind)
  have rust : Rust.fnv1a_hash = fnv1a_hash := funext rust_hash
  rw [cpp, rust]
  exact ⟨tellsApart, tellsApart, fun _ => rfl⟩

/-- Registered handlers whose paths differ at one byte have different keys, so the index keeps
an entry for each. -/
theorem registered_apart {κ : Type} (registrations : List (Registration κ)) {i j : Nat}
    {left right : Handler κ}
    (first : (Registry.registerAll registrations).handlers[i]? = some left)
    (second : (Registry.registerAll registrations).handlers[j]? = some right)
    (differ : DifferOnce left.path right.path) : left.path_hash ≠ right.path_hash := by
  have hashed : ∀ {index : Nat} {handler : Handler κ},
      (Registry.registerAll registrations).handlers[index]? = some handler →
        handler.path_hash = fnv1a_hash handler.path := by
    intro index handler there
    rw [Registry.handlers_registerAll, List.getElem?_map, Option.map_eq_some_iff] at there
    obtain ⟨call, -, rfl⟩ := there
    rfl
  rw [hashed first, hashed second]
  exact tellsApart.path _ _ differ

end FlowKernel.RoutingKeys
