/-!
# Archive.Checksum — the checksum of archived files

The 32-bit cyclic redundancy check with reflected polynomial `0xedb88320`: the register starts
with all bits set, each byte is mixed into its low end, and the result is inverted.
-/

namespace SchemaReview.Archive

/-- One bit of the division. -/
def divideBit (register : UInt32) : UInt32 :=
  if register &&& 1 = 1 then (register >>> 1) ^^^ 0xedb88320 else register >>> 1

/-- The register after one more byte. -/
def absorb (register : UInt32) (byte : UInt8) : UInt32 :=
  Nat.repeat divideBit 8 (register ^^^ byte.toUInt32)

/-- The checksum of the bytes. -/
def checksum (bytes : ByteArray) : UInt32 := bytes.foldl absorb 0xffffffff ^^^ 0xffffffff

end SchemaReview.Archive
