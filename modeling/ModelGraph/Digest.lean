/-!
# Content digests

A digest is the 64-bit FNV-1a hash of a byte sequence.  Counts and reals have byte
forms of fixed width, least significant byte first, and an array is written as its
rank, its dimensions and its elements.
-/

namespace ModelGraph

/-- A 64-bit hash; equal digests are a reason to compare, never a proof of equality. -/
structure Digest where
  /-- The hash as a machine word. -/
  word : UInt64
  deriving DecidableEq, Hashable, Repr

namespace Digest

/-- The digest of no bytes at all. -/
def empty : Digest :=
  ⟨0xcbf29ce484222325⟩

/-- The factor by which a digest grows with every byte. -/
def multiplier : UInt64 :=
  0x00000100000001b3

/-- Takes one more byte into a digest. -/
def mix (d : Digest) (byte : UInt8) : Digest :=
  ⟨(d.word ^^^ byte.toUInt64) * multiplier⟩

/-- Takes more bytes into a digest, in order. -/
def extend (d : Digest) (bytes : List UInt8) : Digest :=
  bytes.foldl mix d

/-- The digest of a byte sequence. -/
def ofBytes (bytes : List UInt8) : Digest :=
  empty.extend bytes

/-- The eight bytes of a word, least significant first. -/
def wordBytes (w : UInt64) : List UInt8 :=
  [w.toUInt8, (w >>> 8).toUInt8, (w >>> 16).toUInt8, (w >>> 24).toUInt8,
    (w >>> 32).toUInt8, (w >>> 40).toUInt8, (w >>> 48).toUInt8, (w >>> 56).toUInt8]

/-- The byte form of a count below `2 ^ 64`. -/
def countBytes (n : Nat) : List UInt8 :=
  wordBytes (UInt64.ofNat n)

/-- The byte form of a real; both zeros are written alike. -/
def realBytes (x : Float) : List UInt8 :=
  wordBytes (if x == 0.0 then (0.0 : Float) else x).toBits

/-- The byte form of an array: rank, dimensions, elements. -/
def arrayBytes (dims : List Nat) (data : List Float) : List UInt8 :=
  countBytes dims.length ++ dims.flatMap countBytes ++ data.flatMap realBytes

/-- The digest of an array. -/
def ofArray (dims : List Nat) (data : List Float) : Digest :=
  ofBytes (arrayBytes dims data)

end Digest

end ModelGraph
