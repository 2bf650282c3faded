import SchemaReview.Archive.Bytes

/-!
# Archive.Directory — where an archive keeps its directory

An archive ends with a record that says where its directory stands.  An archive of many entries
also has a long end record, which a locator in front of the end record points to.  Data in front of
the archive shifts all offsets; the shift shows where the records are really found.
-/

namespace SchemaReview.Archive

/-- The place of a directory. -/
structure Directory where
  /-- Offset of the first entry in the file. -/
  start : Nat
  /-- Number of bytes in front of the archive. -/
  shift : Nat
  /-- Number of entries. -/
  count : Nat
deriving DecidableEq, Repr

/-- The places of end records whose comment fits into the file, last one first. -/
def endRecords (bytes : ByteArray) : List Nat :=
  (placesOf bytes endSignature 0 bytes.size).reverse.filter fun p =>
    p + 22 + number bytes (p + 20) 2 ≤ bytes.size

/-- The shift of an archive by its end record: the first entry of the directory stands at the
offset that the record gives or later.  An archive without entries ends with its directory. -/
def shortShift? (bytes : ByteArray) (record : Nat) : Option Nat :=
  let offset := number bytes (record + 16) 4
  if number bytes (record + 10) 2 = 0 then some (record - offset)
  else (placesOf bytes directorySignature offset record).head?.map (· - offset)

/-- The directory by the end record at `record`.  Only an archive in one part can be read. -/
def shortDirectory? (bytes : ByteArray) (record : Nat) : Option Directory := do
  let shift ← shortShift? bytes record
  guard (number bytes (record + 4) 2 = number bytes (record + 6) 2)
  some ⟨number bytes (record + 16) 4 + shift, shift, number bytes (record + 8) 2⟩

/-- A long end record stands at `record` and ends where its locator begins, agrees with the
locator, and leaves room for the directory in front of it. -/
def isLongRecord (bytes : ByteArray) (locator record : Nat) : Bool :=
  let size := number bytes (record + 4) 8
  44 ≤ size && record + size + 12 == locator &&
    number bytes (record + 20) 4 == number bytes (locator + 4) 4 &&
    number bytes (record + 48) 8 + 46 * number bytes (record + 32) 8 ≤ record

/-- The directory by the long end record that the locator points to. -/
def longDirectory? (bytes : ByteArray) (locator : Nat) : Option Directory := do
  let offset := number bytes (locator + 8) 8
  guard (number bytes (locator + 16) 4 ≤ 1)
  let record ← (placesOf bytes longEndSignature offset locator).find? (isLongRecord bytes locator)
  let shift := record - offset
  guard (number bytes (record + 24) 8 ≤ number bytes (record + 32) 8)
  guard (number bytes (record + 14) 2 ≤ number bytes (record + 12) 2)
  guard (number bytes (record + 16) 4 = number bytes (record + 20) 4)
  some ⟨number bytes (record + 48) 8 + shift, shift, number bytes (record + 32) 8⟩

/-- The end record has no room for the number of entries or for the offset of the directory. -/
def mayBeLong (bytes : ByteArray) (record : Nat) : Bool :=
  number bytes (record + 10) 2 == 0xffff || number bytes (record + 16) 4 == 0xffffffff

/-- The directory that belongs to the end record at `record`. -/
def directory? (bytes : ByteArray) (record : Nat) : Option Directory :=
  let locator := record - 20
  if mayBeLong bytes record && 20 ≤ record && hasRecord bytes locator 20 locatorSignature then
    longDirectory? bytes locator
  else shortDirectory? bytes record

end SchemaReview.Archive
