/-!
# Archive.Label — the text of comments in an archive

A comment is in UTF-8 when its entry says so, and in code page 437 otherwise.  Bytes that are no
UTF-8 stand for the replacement character.
-/

namespace SchemaReview.Archive

/-- The characters of the bytes from `0x80` on in code page 437. -/
def codePage437Upper : List Char :=
  ['Ç', 'ü', 'é', 'â', 'ä', 'à', 'å', 'ç', 'ê', 'ë', 'è', 'ï', 'î', 'ì', 'Ä', 'Å',
   'É', 'æ', 'Æ', 'ô', 'ö', 'ò', 'û', 'ù', 'ÿ', 'Ö', 'Ü', '¢', '£', '¥', '₧', 'ƒ',
   'á', 'í', 'ó', 'ú', 'ñ', 'Ñ', 'ª', 'º', '¿', '⌐', '¬', '½', '¼', '¡', '«', '»',
   '░', '▒', '▓', '│', '┤', '╡', '╢', '╖', '╕', '╣', '║', '╗', '╝', '╜', '╛', '┐',
   '└', '┴', '┬', '├', '─', '┼', '╞', '╟', '╚', '╔', '╩', '╦', '╠', '═', '╬', '╧',
   '╨', '╤', '╥', '╙', '╘', '╒', '╓', '╫', '╪', '┘', '┌', '█', '▄', '▌', '▐', '▀',
   'α', 'ß', 'Γ', 'π', 'Σ', 'σ', 'µ', 'τ', 'Φ', 'Θ', 'Ω', 'δ', '∞', 'φ', 'ε', '∩',
   '≡', '±', '≥', '≤', '⌠', '⌡', '÷', '≈', '°', '∙', '·', '√', 'ⁿ', '²', '■', '\u00a0']

/-- The character of a byte in code page 437, which is ASCII below `0x80`. -/
def codePage437 (b : UInt8) : Char :=
  if b < 0x80 then Char.ofNat b.toNat else codePage437Upper.getD (b.toNat - 0x80) '\ufffd'

/-! ### Damaged UTF-8 -/

/-- What must follow the first byte of a character: the range of the second byte, and how many
bytes come after that one.  `none` for a byte that begins no longer character. -/
def tailShape? (b : UInt8) : Option (UInt8 × UInt8 × Nat) :=
  if 0xc2 ≤ b ∧ b ≤ 0xdf then some (0x80, 0xbf, 0)
  else if b = 0xe0 then some (0xa0, 0xbf, 1)
  else if b = 0xed then some (0x80, 0x9f, 1)
  else if 0xe1 ≤ b ∧ b ≤ 0xef then some (0x80, 0xbf, 1)
  else if b = 0xf0 then some (0x90, 0xbf, 2)
  else if b = 0xf4 then some (0x80, 0x8f, 2)
  else if 0xf1 ≤ b ∧ b ≤ 0xf3 then some (0x80, 0xbf, 2)
  else none

/-- How many bytes after the first byte `b` belong to its character, and whether the character is
complete with them. -/
def tailOf (b : UInt8) (rest : List UInt8) : Nat × Bool :=
  if b < 0x80 then (0, true)
  else match tailShape? b, rest with
    | some (lo, hi, more), second :: further =>
      if lo ≤ second ∧ second ≤ hi then
        let run := ((further.take more).takeWhile fun c => 0x80 ≤ c && c ≤ 0xbf).length
        (1 + run, run == more)
      else (0, false)
    | _, _ => (0, false)

/-- The UTF-8 text of bytes, where each damaged character becomes the replacement character. -/
def repaired (bytes : List UInt8) : List UInt8 :=
  match bytes with
  | [] => []
  | b :: rest =>
    let (count, complete) := tailOf b rest
    (if complete then b :: rest.take count else [0xef, 0xbf, 0xbd]) ++ repaired (rest.drop count)
termination_by bytes.length
decreasing_by simp only [List.length_drop, List.length_cons]; omega

/-- The text of a comment in UTF-8. -/
def labelText (isUnicode : Bool) (bytes : List UInt8) : List UInt8 :=
  if isUnicode then repaired bytes
  else (String.ofList (bytes.map codePage437)).toUTF8.toList

end SchemaReview.Archive
