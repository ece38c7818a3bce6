import SheetGloss.Text.Utf8

/-!
# Code page 437

The character set of names in archives that do not say that they are UTF-8: ASCII, and 128 more
characters.
-/

namespace SheetGloss.Zip

/-- The characters of the codes from 128 up. -/
def upperCodePage : Array Char :=
  ("ÇüéâäàåçêëèïîìÄÅÉæÆôöòûùÿÖÜ¢£¥₧ƒ" ++
    "áíóúñÑªº¿⌐¬½¼¡«»░▒▓│┤╡╢╖╕╣║╗╝╜╛┐" ++
    "└┴┬├─┼╞╟╚╔╩╦╠═╬╧╨╤╥╙╘╒╓╫╪┘┌█▄▌▐▀" ++
    "αßΓπΣσµτΦΘΩδ∞φε∩≡±≥≤⌠⌡÷≈°∙·√ⁿ²■\u00A0").toList.toArray

/-- The character of a byte. -/
def codePageChar (b : UInt8) : Char :=
  if b.toNat < 128 then Char.ofNat b.toNat else upperCodePage.getD (b.toNat - 128) '\uFFFD'

/-- The text of bytes in the code page. -/
def codePageText (bytes : Bytes) : Text := bytes.map codePageChar

end SheetGloss.Zip
