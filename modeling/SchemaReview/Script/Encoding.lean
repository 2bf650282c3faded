/-!
# Script.Encoding — the characters that the bytes of a script stand for

A script is in UTF-8.  One that is not valid UTF-8 is taken for Windows-1251, in which every byte
stands for a character.
-/

namespace SchemaReview.Script

/-- The characters of the bytes `0x80` to `0xbf` in Windows-1251. -/
def windows1251Upper : List Char :=
  ['Ђ', 'Ѓ', '‚', 'ѓ', '„', '…', '†', '‡', '€', '‰', 'Љ', '‹', 'Њ', 'Ќ', 'Ћ', 'Џ',
   'ђ', '‘', '’', '“', '”', '•', '–', '—', '\u0098', '™', 'љ', '›', 'њ', 'ќ', 'ћ', 'џ',
   '\u00a0', 'Ў', 'ў', 'Ј', '¤', 'Ґ', '¦', '§', 'Ё', '©', 'Є', '«', '¬', '\u00ad', '®', 'Ї',
   '°', '±', 'І', 'і', 'ґ', 'µ', '¶', '·', 'ё', '№', 'є', '»', 'ј', 'Ѕ', 'ѕ', 'ї']

/-- The character of a byte in Windows-1251: ASCII below `0x80`, the letters from `А` to `я` from
`0xc0` on. -/
def windows1251 (b : UInt8) : Char :=
  if b < 0x80 then Char.ofNat b.toNat
  else if b < 0xc0 then windows1251Upper.getD (b.toNat - 0x80) '\ufffd'
  else Char.ofNat ('А'.toNat + (b.toNat - 0xc0))

/-- The text that the bytes of a script stand for. -/
def decode (bytes : ByteArray) : String :=
  match String.fromUTF8? bytes with
  | some text => text
  | none => String.ofList (bytes.toList.map windows1251)

end SchemaReview.Script
