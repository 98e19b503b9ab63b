import Formulary.Text.Ranges

namespace Formulary.Text

/-! White space between tokens: the characters with the property `White_Space`. -/

def blankRanges : Ranges := [
  (9, 13), (32, 32), (133, 133), (160, 160), (5760, 5760), (8192, 8202), (8232, 8233),
  (8239, 8239), (8287, 8287), (12288, 12288)]

def isBlank (c : Char) : Bool := blankRanges.contains c

def isBlankText (text : String) : Bool := text.toList.all isBlank

end Formulary.Text
