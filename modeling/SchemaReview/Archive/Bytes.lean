/-!
# Archive.Bytes — numbers and signatures in the bytes of an archive

Numbers are written least significant byte first.  Every record of an archive begins with a
signature of four bytes.
-/

namespace SchemaReview.Archive

/-- The number that the bytes write, least significant byte first. -/
def littleEndian : List UInt8 → Nat
  | [] => 0
  | b :: bs => b.toNat + 256 * littleEndian bs

/-- The bytes from `offset` on, at most `count` of them. -/
def slice (bytes : ByteArray) (offset count : Nat) : ByteArray :=
  bytes.extract offset (min bytes.size (offset + count))

/-- The number in `width` bytes from `offset` on; missing bytes count as zero. -/
def number (bytes : ByteArray) (offset width : Nat) : Nat :=
  littleEndian (slice bytes offset width).toList

/-- A record of at least `size` bytes with the given signature stands at `offset`. -/
def hasRecord (bytes : ByteArray) (offset size signature : Nat) : Bool :=
  offset + size ≤ bytes.size && number bytes offset 4 == signature

/-- The places from `start` on where the signature stands in front of `stop`, in order. -/
def placesOf (bytes : ByteArray) (signature start stop : Nat) : List Nat :=
  (List.range' start (stop - start)).filter fun p =>
    p + 4 ≤ stop && number bytes p 4 == signature

/-- The signature of the record at the end of an archive. -/
def endSignature : Nat := 0x06054b50

/-- The signature of the long form of the end record. -/
def longEndSignature : Nat := 0x06064b50

/-- The signature of the record that says where the long end record stands. -/
def locatorSignature : Nat := 0x07064b50

/-- The signature of an entry in the directory. -/
def directorySignature : Nat := 0x02014b50

/-- The signature of a local header. -/
def localSignature : Nat := 0x04034b50

end SchemaReview.Archive
