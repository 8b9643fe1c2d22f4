import Mathlib.Data.List.Basic
import Mathlib.Algebra.GroupWithZero.Nat

/-! Strings as the language has them. -/

namespace WalletToolbox

namespace Text

def startsWith (text start : String) : Bool := start.toList.isPrefixOf text.toList

def isSpace (c : Char) : Bool :=
  c.toNat ∈ [0x9, 0xA, 0xB, 0xC, 0xD, 0x20, 0xA0, 0x1680, 0x2000, 0x2001, 0x2002, 0x2003, 0x2004, 0x2005, 0x2006, 0x2007,
    0x2008, 0x2009, 0x200A, 0x2028, 0x2029, 0x202F, 0x205F, 0x3000, 0xFEFF]

def trim (text : String) : String :=
  String.ofList ((text.toList.dropWhile isSpace).reverse.dropWhile isSpace).reverse

def secondWord (text : String) : String :=
  String.ofList (((text.toList.dropWhile (· ≠ ' ')).drop 1).takeWhile (· ≠ ' '))

/-- `text.includes(part)` -/
def includes (text part : String) : Bool := text.toList.tails.any part.toList.isPrefixOf

def length (text : String) : Nat := (text.toList.map fun c => if c.toNat < 0x10000 then 1 else 2).sum

def lowered (text : String) : String := text.map Char.toLower

end Text

end WalletToolbox
