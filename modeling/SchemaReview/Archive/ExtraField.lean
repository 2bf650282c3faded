import SchemaReview.Archive.Bytes
import SchemaReview.Archive.Checksum

/-!
# Archive.ExtraField — the extra fields of a directory entry

An entry of the directory may carry extra fields: sizes too large for four bytes, times, names in
Unicode, the way it is encrypted.  Each field has a kind and a length.  Extra data that ends inside
a field is read up to there; a field that contradicts its entry spoils the archive.
-/

namespace SchemaReview.Archive

/-- An entry as the directory lists it. -/
structure Listing where
  name : List UInt8
  /-- The comment in UTF-8. -/
  comment : List UInt8
  encrypted : Bool
  /-- An extra field says how the entry is encrypted. -/
  hasCipher : Bool
  /-- The compression method; zero stands for none. -/
  method : Nat
  checksum : Nat
  /-- Size of the content as it stands in the archive. -/
  size : Nat
  /-- Size of the content when it is unpacked. -/
  fullSize : Nat
  /-- Offset of the local header from the start of the archive. -/
  offset : Nat
deriving DecidableEq, Repr

/-- Why the reading of extra fields ends early. -/
inductive Halt where
  /-- The data ends inside a field. -/
  | cutShort
  /-- A field is of a form that makes the archive unusable. -/
  | refused
deriving DecidableEq, Repr

/-- A listing and the extra data that has not been read yet. -/
structure FieldState where
  listing : Listing
  rest : List UInt8

/-- Reading of extra fields; what has been read before a halt stays. -/
abbrev FieldReader := ExceptT Halt (StateM FieldState)

namespace FieldReader

/-- The next `count` bytes. -/
def take (count : Nat) : FieldReader (List UInt8) := do
  let s ← get
  if s.rest.length < count then throw .cutShort
  set { s with rest := s.rest.drop count }
  return s.rest.take count

/-- The next number of `width` bytes. -/
def takeNumber (width : Nat) : FieldReader Nat := littleEndian <$> take width

/-- Refuses the archive unless the condition holds. -/
def require (condition : Bool) : FieldReader Unit :=
  if condition then pure () else throw .refused

/-- The listing as read so far. -/
def listing : FieldReader Listing := FieldState.listing <$> get

/-- Changes the listing. -/
def update (f : Listing → Listing) : FieldReader Unit :=
  modify fun s => { s with listing := f s.listing }

/-! ### The fields -/

/-- The number that stands for one that does not fit into four bytes. -/
def overflow : Nat := 0xffffffff

/-- Sizes and offset in eight bytes each: all three in a field of full length, and otherwise those
that do not fit into four bytes. -/
def wideSizes (length : Nat) : FieldReader Unit := do
  let full := 24 ≤ length
  let mut used := 0
  if full || (← listing).fullSize == overflow then
    let n ← takeNumber 8
    update fun e => { e with fullSize := n }
    used := used + 8
  if full || (← listing).size == overflow then
    let n ← takeNumber 8
    update fun e => { e with size := n }
    used := used + 8
  if full || (← listing).offset == overflow then
    let n ← takeNumber 8
    update fun e => { e with offset := n }
    used := used + 8
  require (used ≤ length)
  discard <| take (length - used)

/-- Three file times, with a tag and a size of their own. -/
def fileTimes (length : Nat) : FieldReader Unit := do
  require (length == 32)
  discard <| take 4
  require ((← takeNumber 2) == 1)
  require ((← takeNumber 2) == 24)
  discard <| take 8
  discard <| take 8
  discard <| take 8

/-- The number of bits that are set in a byte. -/
def bitCount (n : Nat) : Nat := (List.range 8).countP fun i => n.testBit i

/-- Up to three times of four bytes each, announced by the low bits of a flag byte; no other bit may
be set.  A field of five bytes holds one time whatever the flags are. -/
def timestamps (length : Nat) : FieldReader Unit := do
  let flags ← takeNumber 1
  require (length == 5 || length == 1 + 4 * bitCount flags)
  require (flags < 8)
  if flags.testBit 0 || length == 5 then discard <| take 4
  if flags.testBit 1 && 5 < length then discard <| take 4
  if flags.testBit 2 && 5 < length then discard <| take 4

/-- The encryption of an entry: vendor, strength and inner compression. -/
def cipher (length : Nat) : FieldReader Unit := do
  require (length == 7)
  let version ← takeNumber 2
  let vendor ← takeNumber 2
  let strength ← takeNumber 1
  let method ← takeNumber 2
  require (vendor == 0x4541)
  require (version == 1 || version == 2)
  require (1 ≤ strength && strength ≤ 3)
  update fun e => { e with hasCipher := true, method := method }

/-- A text in UTF-8 that stands for the bytes `plain`, whose checksum it carries. -/
def unicode (length : Nat) (plain : List UInt8) : FieldReader (List UInt8) := do
  discard <| take 1
  let expected ← takeNumber 4
  require (5 ≤ length)
  let content ← take (length - 5)
  require ((Archive.checksum plain.toByteArray).toNat == expected)
  require content.toByteArray.validateUTF8
  return content

/-- One field. -/
def field : FieldReader Unit := do
  let kind ← takeNumber 2
  let length ← takeNumber 2
  match kind with
  | 0x0001 => wideSizes length
  | 0x000a => fileTimes length
  | 0x5455 => timestamps length
  | 0x6375 =>
    let text ← unicode length (← listing).comment
    update fun e => { e with comment := text }
  | 0x7075 =>
    let text ← unicode length (← listing).name
    update fun e => { e with name := text }
  | 0x9901 => cipher length
  | _ => discard <| take length

/-- All fields, at most `bound` of them. -/
def fields : Nat → FieldReader Unit
  | 0 => pure ()
  | bound + 1 => do
    if (← get).rest.isEmpty then pure ()
    else
      field
      fields bound

end FieldReader

/-- The listing with what its extra data adds, unless the data spoils the archive. -/
def Listing.withExtra? (e : Listing) (extra : List UInt8) : Option Listing :=
  match (FieldReader.fields extra.length).run.run ⟨e, extra⟩ with
  | (.error .refused, _) => none
  | (_, s) => some s.listing

end SchemaReview.Archive
