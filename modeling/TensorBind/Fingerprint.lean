/-!
# Fingerprints

A fingerprint is the 64-bit FNV-1a hash of a text's bytes, aotc's
`fingerprint64`. It gives a platform its id and identifies a compiled
program.
-/

namespace TensorBind

/-- The hash after one more byte. -/
def fingerprintStep (hash : UInt64) (byte : UInt8) : UInt64 :=
  (hash ^^^ byte.toUInt64) * 0x100000001b3

/-- **aotc's `fingerprint64`** of a text. -/
def fingerprint (text : String) : UInt64 :=
  text.toUTF8.data.toList.foldl fingerprintStep 0xcbf29ce484222325

/-- A word as sixteen hexadecimal digits. -/
def hexWord (word : UInt64) : String :=
  let digits := Nat.toDigits 16 word.toNat
  String.ofList (List.replicate (16 - digits.length) '0' ++ digits)

end TensorBind
