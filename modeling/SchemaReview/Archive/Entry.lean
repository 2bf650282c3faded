import SchemaReview.Archive.Directory
import SchemaReview.Archive.ExtraField
import SchemaReview.Archive.Label

/-!
# Archive.Entry — files in a ZIP archive

The directory lists the entries; the content of an entry follows its local header, which stands in
front of the directory.  A local header is looked at only when its content is read.  Contents are
read when they are stored without compression and without encryption, and their checksum must agree.
-/

namespace SchemaReview.Archive

/-- A file in an archive. -/
structure Entry where
  name : List UInt8
  /-- The content is neither compressed nor encrypted. -/
  stored : Bool
  checksum : Nat
  /-- Offset of the local header in the file. -/
  header : Nat
  /-- Size of the content as it stands in the archive. -/
  size : Nat
deriving DecidableEq, Repr

/-! ### The directory -/

/-- Bytes of a directory entry that come after its fixed part: name, extra data and comment. -/
structure Trailer where
  name : List UInt8
  extra : List UInt8
  comment : List UInt8
  /-- Offset of the next entry. -/
  next : Nat

/-- The trailer of the directory entry at `offset`, when the file holds all of it. -/
def trailer? (bytes : ByteArray) (offset : Nat) : Option Trailer := do
  guard (hasRecord bytes offset 46 directorySignature)
  let extraStart := offset + 46 + number bytes (offset + 28) 2
  let commentStart := extraStart + number bytes (offset + 30) 2
  let next := commentStart + number bytes (offset + 32) 2
  guard (next ≤ bytes.size)
  some
    { name := (bytes.extract (offset + 46) extraStart).toList
      extra := (bytes.extract extraStart commentStart).toList
      comment := (bytes.extract commentStart next).toList
      next }

/-- The method that stands for an encrypted entry whose extra data names the real one. -/
def cipherMethod : Nat := 99

/-- The directory entry at `offset` with its trailer. -/
def listing? (bytes : ByteArray) (offset : Nat) (t : Trailer) : Option Listing := do
  let flags := number bytes (offset + 8) 2
  let plain : Listing :=
    { name := t.name
      comment := labelText (flags.testBit 11) t.comment
      encrypted := flags.testBit 0
      hasCipher := false
      method := number bytes (offset + 10) 2
      checksum := number bytes (offset + 16) 4
      size := number bytes (offset + 20) 4
      fullSize := number bytes (offset + 24) 4
      offset := number bytes (offset + 42) 4 }
  let e ← plain.withExtra? t.extra
  guard (e.hasCipher || e.method != cipherMethod)
  some e

/-- The file of a listing, whose local header must begin before the directory. -/
def Listing.entry? (d : Directory) (e : Listing) : Option Entry :=
  let header := d.shift + e.offset
  if header < d.start then
    some
      { name := e.name
        stored := !e.encrypted && !e.hasCipher && e.method == 0
        checksum := e.checksum
        header
        size := e.size }
  else none

/-- The next `count` entries of the directory `d`, from `offset` on. -/
def entriesFrom? (bytes : ByteArray) (d : Directory) : Nat → Nat → Option (List Entry)
  | 0, _ => some []
  | count + 1, offset => do
    let t ← trailer? bytes offset
    let e ← listing? bytes offset t
    let first ← e.entry? d
    let rest ← entriesFrom? bytes d count t.next
    some (first :: rest)

/-- The entries of an archive: those of the last end record that leads to a whole directory. -/
def entries? (bytes : ByteArray) : Option (List Entry) :=
  (endRecords bytes).findSome? fun record => do
    let d ← directory? bytes record
    entriesFrom? bytes d d.count d.start

/-! ### Contents -/

/-- Offset of the content behind the local header at `header`, if there is one. -/
def contentStart? (bytes : ByteArray) (header : Nat) : Option Nat :=
  if hasRecord bytes header 30 localSignature then
    some (header + 30 + number bytes (header + 26) 2 + number bytes (header + 28) 2)
  else none

/-- The content of an entry; it is cut where the file ends. -/
def Entry.content? (bytes : ByteArray) (e : Entry) : Option ByteArray := do
  guard e.stored
  let start ← contentStart? bytes e.header
  let content := slice bytes start e.size
  guard ((Archive.checksum content).toNat = e.checksum)
  some content

/-- The last entry with the given name. -/
def find? (entries : List Entry) (name : String) : Option Entry :=
  entries.reverse.find? fun e => e.name = name.toUTF8.toList

end SchemaReview.Archive
